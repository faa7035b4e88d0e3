import Flowchart.Proofs.Service.Desk
import Flowchart.Proofs.Storage.Shelf

/-!
# No flowchart with errors is stored

* `Service.Clean`: the files and the sessions hold flowcharts that may be stored.
* `Desk.play_clean`: a service stays clean through any calls, in any order.
* `play_fetch_valid`: a flowchart that is fetched has no errors.
* `Service.commit_eq`: a batch on a flowchart that no one else edits is committed and written to its file, if the engine
  commits it.
-/

namespace Flowchart

/-- A batch that is committed makes a flowchart that may be stored. -/
def Engine.Storing (engine : Engine) : Prop :=
  ∀ {d : Document} {operations : List Operation} {o : Outcome}, d.Sound →
    (∀ operation ∈ operations, operation.Sound) → engine.apply d operations = .ok o →
      o.committed = true → o.document.Storable

theorem Engine.standard_storing {catalog : Catalog} (templates : catalog.Sound) :
    (Engine.standard catalog).Storing := by
  intro d operations o sound each done committed
  exact applyBatch_storable templates sound each (mapError_eq_ok_iff.1 done) committed

theorem Engine.Storing.makes {engine : Engine} (storing : engine.Storing) {operations : List Operation}
    (each : ∀ operation ∈ operations, operation.Sound) : engine.Makes Document.Storable operations :=
  fun _ _ storable done committed => storing storable.sound each done committed

namespace Service

/-- The store is clean, and what the sessions hold may be stored. -/
abbrev Clean : Service → Prop := Stocked Store.Clean Document.Storable

theorem clean_upheld : Upheld (fun _ => True) Document.Storable Clean :=
  stocked_upheld (fun clean holds => clean.storable holds) fun owner id _ fits =>
    Store.update_keeps owner id fits.document

theorem fetch_keeps (key : DocumentKey) : (fetch key).Keeps Clean fun found => found.document.Storable := by
  refine .of_out fun s r after clean done => ?_
  obtain ⟨rfl, found⟩ := fetch_out done
  refine ⟨clean, ?_⟩
  rintro stored rfl
  exact clean.store.storable found

end Service

theorem Desk.play_clean {p : Planner} (storing : p.engine.Storing) {desk : Desk}
    (clean : desk.Upholds Document.Storable Service.Clean) {calls : List Desk.Call}
    (received : ∀ call ∈ calls, call.Received) : (desk.play p calls).Upholds Document.Storable Service.Clean := by
  induction calls generalizing desk with
  | nil => exact clean
  | cons call calls ih =>
    have harmless : call.Harmless p (fun _ => True) Document.Storable Service.Clean desk.service :=
      (received call List.mem_cons_self).harmless storing.makes
        (fun distinct done => Document.storable_of_read distinct done) (fun _ _ _ _ _ _ => trivial)
        (fun owner name _ description _ storable => Store.save_keeps owner name storable description)
        (fun key _ => Store.delete_keeps key.owner key.id) desk.service
    have first := step_upholds Service.clean_upheld storing.makes clean harmless
    exact ih first fun other mem => received other (List.mem_cons_of_mem _ mem)

/-- Whatever calls were made to a service over an empty store, a flowchart that is fetched has no errors. -/
theorem play_fetch_valid {p : Planner} (engine : p.engine = .standard p.catalog) (templates : p.catalog.Sound)
    {store : Store} (empty : store.files = []) {calls : List Desk.Call}
    (received : ∀ call ∈ calls, call.Received) {key : DocumentKey} {found : StoredDocument} {after : Service}
    (fetched : (Service.fetch key).out (Desk.play p { service := { store } } calls).service =
      (.ok found, after)) : (validate p.catalog found.document).errors = [] := by
  have storing : p.engine.Storing := engine ▸ Engine.standard_storing templates
  have started : Service.Clean { store } := Service.stocked_start (Store.clean_of_empty empty)
  have clean := Desk.play_clean storing (Desk.upholds_start started) received
  have storable := ((Service.fetch_keeps key).out clean.service fetched).2 found rfl
  exact (Report.errors_eq_nil_iff _).2 ((validate_errorFree_iff p.catalog _).2 storable.wellFormed)

/-! ### Batches that are committed -/

namespace Service

variable {p : Planner} {key : DocumentKey} {s : Service} {back : StoredDocument} {n : Nat} {operations : List Operation}
  {o : Outcome}

theorem fetch_eq (fetched : (Store.fetch key.owner key.id).out s.store = (.ok (some back), s.store)) :
    (fetch key).out s = (.ok back, s) := by
  unfold fetch
  rw [Act.out_bind_of_ok (onStore_eq fetched)]
  rfl

/-- A session is opened on what stands in the file. -/
theorem openSession_eq (closed : s.live? key = none)
    (fetched : (Store.fetch key.owner key.id).out s.store = (.ok (some back), s.store)) (version : back.version = n) :
    (openSession key).out s = (.ok s.opened, s.enter key (.start back.document n)) := by
  have started : Timeline.start? back.document n = .ok (.start back.document n) :=
    if_neg (Int.not_lt.2 (Int.natCast_nonneg n))
  unfold openSession
  rw [Act.out_bind_of_ok Act.out_get, closed]
  dsimp only
  rw [Act.out_bind_of_ok (fetch_eq fetched), version, started]
  rfl

/-- A batch may be based on the version that stands in the file. -/
theorem beginCommit_eq (closed : s.live? key = none)
    (fetched : (Store.fetch key.owner key.id).out s.store = (.ok (some back), s.store)) (version : back.version = n) :
    ∃ entered, (beginCommit key n).out s = (.ok s.opened, entered) ∧ entered.live? key = some s.opened ∧
      entered.session? s.opened = some { timeline := .start back.document n } ∧ entered.store = s.store := by
  have present := (session?_enter key (.start back.document n) s s.opened).trans (if_pos rfl)
  have based : ((Timeline.start back.document n).checkBase n).mapError TimelineError.failure = .ok () :=
    Timeline.checkBase_eq_ok_iff.2 rfl
  refine ⟨s.enter key (.start back.document n), ?_, (live?_enter key key _ s).trans (if_pos rfl), present, rfl⟩
  unfold beginCommit
  rw [Act.out_bind_of_ok (openSession_eq closed fetched version), Act.out_bind_of_ok (out_theSession present), based]
  rfl

/-- A batch that the engine commits makes the next version of a session. -/
theorem commitSession_eq {m : Nat} {session : Session} (present : s.session? m = some session)
    (applied : p.engine.apply session.timeline.current operations = .ok o) (committed : o.committed = true)
    (origin : String) : ∃ new : Session,
      (onSession m (Session.onTimeline (Timeline.commit p.engine session.timeline.latest operations origin))).out s =
        (.ok { o with version := some (session.timeline.latest + 1 : Int) }, s.putSession m new) ∧
      new.timeline.latest = session.timeline.latest + 1 := by
  have done := out_onSession present
    (Session.onTimeline (Timeline.commit p.engine session.timeline.latest operations origin))
  rw [Session.out_onTimeline, Timeline.commit_committed applied committed origin] at done
  exact ⟨_, done, rfl⟩

/-- The latest version of an open session is written to a file that can be read. -/
theorem writeBack_eq {m : Nat} {session : Session} (live : s.live? key = some m) (present : s.session? m = some session)
    {version : Int} (latest : session.timeline.latest = version)
    (fetched : (Store.fetch key.owner key.id).out s.store = (.ok (some back), s.store)) (owned : back.ownerId ≠ "")
    (d : Document) : ∃ store, (writeBack key m (some version) d).out s = (.ok ⟨⟩, { s with store }) ∧
      store.files = s.store.files.write (Store.place back.ownerId back.id)
        (back.change { document := some d, version := some version } s.store.now).render := by
  have updated := onStore_eq (Store.update_eq { document := some d, version := some version } fetched owned)
  rcases done : (writeBack key m (some version) d).out s with ⟨r, after⟩
  unfold writeBack at done
  rw [Act.out_bind_of_ok Act.out_get] at done
  simp only [live, present, latest, Option.map_some, and_self, if_true] at done
  rw [Act.out_bind_of_ok updated] at done
  cases done
  exact ⟨_, rfl, rfl⟩

/-- A batch that can be committed to a flowchart that no one else edits, is committed and written to its file. -/
theorem commit_eq (closed : s.live? key = none)
    (fetched : (Store.fetch key.owner key.id).out s.store = (.ok (some back), s.store)) (version : back.version = n)
    (owned : back.ownerId ≠ "") (applied : p.engine.apply back.document operations = .ok o)
    (committed : o.committed = true) (origin : String) :
    ∃ told after, (commit p key n operations origin).out s = (.ok told, after) ∧
      after.store.files = s.store.files.write (Store.place back.ownerId back.id)
        (back.change { document := some o.document, version := some (n + 1 : Int) } s.store.now).render := by
  obtain ⟨entered, begun, live, present, same⟩ := beginCommit_eq closed fetched version
  obtain ⟨new, made, latest⟩ := commitSession_eq present applied committed origin
  rw [← same] at fetched
  have put : (entered.putSession s.opened new).session? s.opened = some new :=
    (session?_putSession present new s.opened).trans (if_pos rfl)
  have head : (new.timeline.latest : Int) = n + 1 := by rw [latest]; rfl
  obtain ⟨store, written, files⟩ := writeBack_eq (s := entered.putSession s.opened new) live put head fetched
    owned o.document
  rcases done : (commit p key n operations origin).out s with ⟨r, after⟩
  unfold commit finishCommit at done
  rw [Act.out_bind_of_ok begun, Act.out_bind_of_ok (out_theSession present), Act.out_bind_of_ok made] at done
  dsimp only at done
  rw [if_pos committed] at done
  replace done := Act.out_bind_eq_of_ok written done
  cases done
  rw [← same]
  exact ⟨_, _, rfl, files⟩

end Service

/-- A batch of one node. -/
def sampleStart : List Operation := [.addNode { nodeType := .value "trigger", id := .value "start" }]

def sampleRaw : Json :=
  .array [.object [("op", .string "add_node"), ("nodeType", .string "trigger"), ("id", .string "start")]]

theorem sampleRaw_distinctKeys : sampleRaw.DistinctKeys := by
  simp [sampleRaw, Json.DistinctKeys, Json.ItemsDistinct, Json.FieldsDistinct, Json.Fields.keys]

/-- An empty flowchart is saved, a node is put into it, it is talked about, and the service starts again. -/
def sampleRun : List Desk.Call :=
  [.save "owner" "Plan" {} none, .commit ⟨"owner", "1"⟩ 0 sampleStart "ui", .beginTurn ⟨"owner", "1"⟩ "Hello", .restart]

theorem sampleRun_received : ∀ call ∈ sampleRun, call.Received := by
  simp only [sampleRun, List.forall_mem_cons]
  exact ⟨⟨_, Payload.distinctKeys_empty, rfl⟩, ⟨sampleRaw, sampleRaw_distinctKeys, rfl⟩, trivial, trivial,
    fun _ mem => absurd mem List.not_mem_nil⟩

/-- The files are those that the commit leaves. -/
theorem play_sampleRun {saved mid : Service} {told : Outcome}
    (first : (Service.save samplePlanner "owner" "Plan" {} none).out { store := sampleStore } = (.ok .sample, saved))
    (second : (Service.commit samplePlanner ⟨"owner", "1"⟩ 0 sampleStart "ui").out saved = (.ok told, mid))
    (tidy : saved.Tidy) : ∃ store, store.files = mid.store.files ∧
      (Desk.play samplePlanner { service := { store := sampleStore } } sampleRun).service = { store } := by
  rcases begun : (Service.beginTurn samplePlanner ⟨"owner", "1"⟩ "Hello").out mid with ⟨r, last⟩
  have files := (Service.beginTurn_steady (Service.commit_refused tidy second).1 begun).1.unchanged.files
  refine ⟨last.store, files, ?_⟩
  have played : Desk.step samplePlanner { service := { store := sampleStore } } (.save "owner" "Plan" {} none) =
      { service := saved } := Desk.after_of_out first
  have committed : Desk.step samplePlanner { service := saved } (.commit ⟨"owner", "1"⟩ 0 sampleStart "ui") =
      { service := mid } := Desk.after_of_out second
  have asked : (Desk.step samplePlanner { service := mid } (.beginTurn ⟨"owner", "1"⟩ "Hello")).service = last :=
    (Desk.beginTurn_service _ _ _ _).trans (congrArg Prod.snd begun)
  rw [sampleRun, Desk.play_cons, played, Desk.play_cons, committed, Desk.play_cons, ← asked]
  rfl

/-- The flowchart is fetched with its node, and has no errors. -/
theorem play_fetch_valid_sample : ∃ found after,
    (Service.fetch ⟨"owner", "1"⟩).out
        (Desk.play samplePlanner { service := { store := sampleStore } } sampleRun).service =
      (.ok found, after) ∧ found.document.nodes.items.map Node.id = ["start"] ∧
      (validate .builtin found.document).errors = [] := by
  obtain ⟨service, saved, tidy, closed, file, clock⟩ : ∃ service,
      (Service.save samplePlanner "owner" "Plan" {} none).out { store := sampleStore } = (.ok .sample, service) ∧
        service.Tidy ∧ service.live? ⟨"owner", "1"⟩ = none ∧
        service.store.files.read? (Store.place "owner" "1") = some StoredDocument.sample.render ∧
        service.store.clock = sampleStore.clock :=
    ⟨_, rfl, ⟨nofun, nofun, nofun⟩, rfl, rfl, rfl⟩
  -- the engine commits the batch, so what it makes is written to the file
  obtain ⟨o, applied, settled, nodes, flat⟩ : ∃ o,
      samplePlanner.engine.apply StoredDocument.sample.reread.document sampleStart = .ok o ∧ o.committed = true ∧
        o.document.reread.nodes.items.map Node.id = ["start"] ∧
        o.document.toJson.depth < StoredDocument.depthLimit :=
    ⟨_, rfl, by decide, by decide, by decide⟩
  obtain ⟨told, mid, committed, written⟩ :=
    Service.commit_eq (n := 0) closed (Store.fetch_sample file) rfl (by decide) applied settled "ui"
  obtain ⟨store, files, played⟩ := play_sampleRun saved committed tidy
  -- the record with the node is read back
  let stored := StoredDocument.sample.reread.change { document := some o.document, version := some (0 + 1) }
    service.store.now
  have kept : stored.Sound :=
    { version := Int.one_nonneg
      document := Engine.standard_sound builtin_sound StoredDocument.Sound.sample.reread.document
        (Operation.sound_of_checkList sampleRaw_distinctKeys rfl) applied
      createdAt := StoredDocument.Sound.sample.createdAt
      updatedAt := by
        have now : service.store.now = StoredDocument.sample.updatedAt := congrFun clock _
        show service.store.now.IsUniversal
        rw [now]
        exact StoredDocument.Sound.sample.updatedAt }
  have readable : stored.IsReadable := ⟨(by decide : StoredDocument.sample.name ≠ ""), stored.readsBack_iff.2 flat⟩
  have found : (Service.fetch ⟨"owner", "1"⟩).out { store } = (.ok stored.reread, { store }) := by
    refine Service.fetch_eq (Store.fetch_eq_of_file (by decide) kept readable ?_)
    rw [files, written]
    exact Files.read?_write _ _ _
  rw [← played] at found
  exact ⟨_, _, found, nodes, play_fetch_valid (p := samplePlanner) rfl builtin_sound rfl sampleRun_received found⟩

end Flowchart
