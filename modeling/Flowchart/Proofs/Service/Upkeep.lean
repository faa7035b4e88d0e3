import Flowchart.Proofs.Service.Refusals

/-!
# What the calls of a service keep

* `Act.Ends`: the invariant of an action holds up to its last step, which is only made if it succeeds.
* `Service.Changed`: what changing a flowchart comes to.
* `Service.Upheld`: what an invariant of a service has to stand, such as that files are read, sessions opened
  and versions made and written back. Which names and flowcharts may come in is a parameter.
* `Service.Upheld.*_keeps` and `Service.Upheld.*_ends` say, call by call, that such an invariant is kept, or what
  else has to be shown for that.
-/

namespace Flowchart

namespace Act

variable {σ α β : Type} {P : σ → Prop} {Q : α → Prop} {E : β → σ → σ → Prop}

/-- If the action fails, the invariant `P` holds of what it leaves. If it succeeds, `P` holds of the state before
its last step, and `E` says what that step does. -/
def Ends (P : σ → Prop) (E : β → σ → σ → Prop) (act : Act σ β) : Prop :=
  ∀ s r after, P s → act.out s = (r, after) → match r with
    | .ok b => ∃ mid, P mid ∧ E b mid after
    | .error _ => P after

theorem Ends.bind {act : Act σ α} {next : α → Act σ β} (first : act.Keeps P Q)
    (rest : ∀ a, Q a → (next a).Ends P E) : (act >>= next).Ends P E := by
  intro s r after holds done
  obtain ⟨e, failed, rfl⟩ | ⟨a, mid, made, done⟩ := out_bind_eq done
  · exact (first.out holds failed).1
  · obtain ⟨kept, made⟩ := first.out holds made
    exact rest a (made a rfl) mid r after kept done

/-- The steps after the first one are the last one, and cannot fail. -/
theorem Ends.last {act : Act σ α} {next : α → Act σ β} (first : act.Keeps P Q)
    (rest : ∀ a mid, ∃ b after, (next a).out mid = (.ok b, after) ∧ E b mid after) :
    (act >>= next).Ends P E := by
  intro s r after holds done
  obtain ⟨e, failed, rfl⟩ | ⟨a, mid, made, done⟩ := out_bind_eq done
  · exact (first.out holds failed).1
  · obtain ⟨b, last, ran, ends⟩ := rest a mid
    rw [ran] at done
    cases done
    exact ⟨mid, (first.out holds made).1, ends⟩

/-- The invariant is kept if the last step keeps it. -/
theorem Ends.holds {act : Act σ β} (ends : act.Ends P E) {s : σ} (holds : P s)
    (last : ∀ b mid after, act.out s = (.ok b, after) → P mid → E b mid after → P after) : P (act.out s).2 := by
  rcases done : act.out s with ⟨e | b, after⟩
  · exact ends s _ after holds done
  · obtain ⟨mid, kept, ended⟩ := ends s _ after holds done
    exact last b mid after done kept ended

end Act

/-- A batch that is committed makes a flowchart of a kind out of one of that kind. -/
def Engine.Makes (engine : Engine) (Fine : Document → Prop) (operations : List Operation) : Prop :=
  ∀ ⦃d : Document⦄ ⦃o : Outcome⦄, Fine d → engine.apply d operations = .ok o → o.committed = true →
    Fine o.document

theorem Engine.makes_any (engine : Engine) (operations : List Operation) :
    engine.Makes (fun _ => True) operations := fun _ _ _ _ _ => trivial

/-- A batch leaves a timeline at a flowchart of the kind. -/
theorem Engine.Makes.commit {engine : Engine} {Fine : Document → Prop} {operations : List Operation}
    (makes : engine.Makes Fine operations) {t after : Timeline} {base : Int} {origin : String}
    {r : Except Failure Outcome} (current : Fine t.current)
    (done : (Timeline.commit engine base operations origin).out t = (r, after)) :
    Fine after.current ∧ ∀ o, r = .ok o → o.committed = true → Fine o.document := by
  cases r with
  | error e => exact ⟨Timeline.commit_eq_error done ▸ current, fun _ same => (nomatch same)⟩
  | ok o =>
    obtain ⟨-, made, applied, document, committed, effect⟩ := Timeline.commit_eq_ok done
    split at effect
    next settled =>
      have fine : Fine o.document := document ▸ makes current applied (committed ▸ settled)
      refine ⟨effect.1.current ▸ fine, fun other same _ => ?_⟩
      cases same
      exact fine
    next rejected =>
      refine ⟨effect ▸ current, fun other same settled => ?_⟩
      cases same
      exact absurd settled rejected

/-- A plan leaves a timeline at a flowchart of the kind. -/
theorem Planner.commitPlan_makes {p : Planner} {Fine : Document → Prop} {plan : Plan}
    (makes : p.engine.Makes Fine plan.operations) {t after : Timeline} {base : Nat} {r : Except Failure Draft}
    (current : Fine t.current) (done : (p.commitPlan plan base).out t = (r, after)) :
    Fine after.current ∧ ∀ draft, r = .ok draft → draft.result.applied = true → Fine draft.result.document := by
  have cases := p.commitPlan_cases plan t base
  rw [done] at cases
  cases cases with
  | idle =>
    refine ⟨current, fun draft same applied => ?_⟩
    cases same
    cases applied
  | refused _ _ told =>
    refine ⟨current, fun draft same applied => ?_⟩
    cases same
    obtain ⟨_, -, rfl⟩ := refused_cases told
    cases applied
  | settled _ committed =>
    obtain ⟨after, fine⟩ := makes.commit current committed
    refine ⟨after, fun draft same applied => ?_⟩
    cases same
    exact fine _ rfl applied
  | missing | failed => exact ⟨current, fun _ same => (nomatch same)⟩

theorem Session.resolve_makes {p : Planner} {Fine : Document → Prop} {plan : Plan}
    (makes : p.engine.Makes Fine plan.operations) {s after : Session} {turn : PendingTurn}
    {r : Except Failure TurnResult} (current : Fine s.timeline.current)
    (resolved : (resolve p turn plan).out s = (r, after)) :
    after.generation = s.generation ∧ Fine after.timeline.current ∧
      ∀ result, r = .ok result → result.applied = true → Fine result.document := by
  obtain ⟨failure, rfl, rfl⟩ | ⟨draft, mid, concluded, rfl, rfl⟩ := resolve_cases resolved
  · exact ⟨rfl, current, fun _ same => (nomatch same)⟩
  · obtain ⟨after, fine⟩ := Planner.commitPlan_makes makes current (commitPlan_of_conclude concluded).1
    refine ⟨resolve_generation resolved, by simpa using after, fun result same applied => ?_⟩
    cases same
    simpa using fine draft rfl (by simpa using applied)

/-- The new values are such a name, a fine flowchart and a version that is not negative. -/
structure StoredChanges.Fits (Named : String → Prop) (Fine : Document → Prop) (changes : StoredChanges) : Prop where
  name : ∀ name, changes.name = some name → Named name
  document : ∀ d, changes.document = some d → Fine d
  version : ∀ version, changes.version = some version → 0 ≤ version

namespace Service

variable {p : Planner} {key : DocumentKey} {Named : String → Prop} {Fine : Document → Prop}
  {P : Service → Prop}

/-- The service, with other events. -/
def withEvents (events : List Event) (s : Service) : Service := { s with events }

/-- An invariant of a service that stands what the calls do, if only such names and only fine flowcharts come in. -/
structure Upheld (Named : String → Prop) (Fine : Document → Prop) (P : Service → Prop) : Prop where
  /-- Events do not count. -/
  told : ∀ {s : Service} events, P s → P (s.withEvents events)
  /-- What is read from a file is fine. -/
  held : ∀ {s : Service} {owner id : String} {back : StoredDocument}, P s → s.store.Holds owner id back →
    Fine back.document
  /-- A file is written again with a fine flowchart. -/
  changed : ∀ (owner id : String) {changes : StoredChanges}, changes.Fits Named Fine →
    (onStore (Store.update owner id changes)).Keeps P fun _ => True
  /-- What a session holds is fine. -/
  current : ∀ {s : Service} {n : Nat} {session : Session}, P s → s.session? n = some session →
    Fine session.timeline.current
  /-- A session goes on with the turns that were begun in it. -/
  goesOn : ∀ {s : Service} {n : Nat} {old : Session} (new : Session), P s → s.session? n = some old →
    new.generation = old.generation → Fine new.timeline.current → P (s.putSession n new)
  /-- A session is opened. -/
  enters : ∀ {s : Service} {key : DocumentKey} {t : Timeline}, P s → key.owner ≠ "" → s.live? key = none →
    Fine t.current → P (s.enter key t)

/-- What is said of the sessions only, is kept by whatever is done in the store. -/
theorem onStore_keeps_of (free : ∀ s store, P s → P { s with store }) (act : Act Store α) :
    (onStore act).Keeps P fun _ => True := by
  refine .of_out fun s r after holds done => ?_
  obtain ⟨store, -, rfl⟩ := onStore_out done
  exact ⟨free s store holds, fun _ _ => trivial⟩

theorem onStore_eq {act : Act Store α} {r : Except Failure α} {s : Service} {store : Store}
    (ran : act.out s.store = (r, store)) : (onStore act).out s = (r, { s with store }) := by
  rcases done : (onStore act).out s with ⟨other, after⟩
  obtain ⟨left, same, rfl⟩ := onStore_out done
  cases ran.symm.trans same
  rfl

/-- What changing a flowchart comes to: it is refused before anything is written, or it is a change of the file. If that
succeeds, all that is left is to close the session of the flowchart, if there is a new one. -/
inductive Changed (key : DocumentKey) (name : Option String) (d : Option Document) (description : Option String)
    (s : Service) : Except Failure StoredDocument → Service → Prop
  | refused (e : Failure) : Changed key name d description s (.error e) s
  | failed (version : Option Int) {e : Failure} {mid : Service} (bound : ∀ v, version = some v → 0 ≤ v)
      (valid : ∀ new, d = some new → new.WellFormed)
      (done : (onStore (Store.update key.owner key.id { name, document := d, description, version })).out s =
        (.error e, mid)) : Changed key name d description s (.error e) mid
  | made (version : Option Int) {stored : StoredDocument} {mid : Service} (bound : ∀ v, version = some v → 0 ≤ v)
      (valid : ∀ new, d = some new → new.WellFormed)
      (done : (onStore (Store.update key.owner key.id { name, document := d, description, version })).out s =
        (.ok stored, mid)) (events : List Event) :
      Changed key name d description s (.ok stored) ((if d.isSome then mid.close key else mid).withEvents events)

theorem update_out {name description : Option String} {d : Option Document} {base : Option Int} {s after : Service}
    {r : Except Failure StoredDocument} (done : (update p key name d description base).out s = (r, after)) :
    Changed key name d description s r after := by
  let Changes (act : Act Service StoredDocument) : Prop := ∀ r after, act.out s = (r, after) →
    Changed key name d description s r after
  -- what comes before the change leaves the service as it is
  have first {α : Type} {Q : α → Prop} {act : Act Service α} (keeps : act.Keeps (· = s) Q)
      {next : α → Act Service StoredDocument} (rest : ∀ a, Q a → Changes (next a)) : Changes (act >>= next) := by
    intro r after done
    obtain ⟨e, stopped, rfl⟩ | ⟨a, mid, found, tail⟩ := Act.out_bind_eq done
    · obtain rfl := (keeps.out rfl stopped).1
      exact .refused e
    · obtain ⟨rfl, holds⟩ := keeps.out rfl found
      exact rest a (holds a rfl) r after tail
  have change (valid : ∀ new, d = some new → new.WellFormed) (version : Option Int)
      (bound : ∀ latest, version = some (latest + 1) → 0 ≤ latest) : Changes (do
        let stored ← onStore (Store.update key.owner key.id { name, document := d, description, version })
        if d.isSome then modify (close key)
        publish (.updated key)
        return stored) := by
    intro r after done
    have positive : ∀ v, version = some v → 0 ≤ v := fun v same => by
      have := bound (v - 1) (by rw [same, Int.sub_add_cancel])
      omega
    obtain ⟨e, failed, rfl⟩ | ⟨stored, mid, written, rest⟩ := Act.out_bind_eq done
    · exact .failed version positive valid failed
    · have made := Changed.made version positive valid written
      cases d with
      | none =>
        cases rest
        exact made _
      | some new =>
        cases rest
        exact made _
  have versioned (valid : ∀ new, d = some new → new.WellFormed) : Changes _ :=
    versioned_of (fun _ each => first (latestVersion_keeps key (· = s)) each)
      (fun e _ _ _ stopped => by cases stopped; exact .refused e) (change valid) base d.isSome
  cases d with
  | none => exact versioned nofun r after done
  | some new =>
    refine first (requireValid_keeps p new (· = s)) (fun _ wellFormed => versioned fun other same => ?_) r after done
    cases same
    exact wellFormed

/-- Deleting ends with the session of the flowchart being closed, whether or not there was a flowchart. -/
theorem delete_ends (key : DocumentKey)
    (erases : (onStore (Store.delete key.owner key.id)).Keeps P fun _ => True) :
    (delete key).Ends P fun _ mid after => ∃ events, after = (mid.close key).withEvents events := by
  refine .last erases fun deleted mid => ?_
  cases deleted
  · exact ⟨_, _, rfl, _, rfl⟩
  · exact ⟨_, _, rfl, _, rfl⟩

theorem delete_isOk (named : key.owner ≠ "") (s : Service) : ((delete key).out s).1.isOk = true := by
  obtain ⟨deleted, store, erased⟩ := Store.exists_delete named key.id s.store
  unfold delete
  rw [Act.out_bind_of_ok (onStore_eq erased)]
  cases deleted <;> rfl

namespace Upheld

variable (upheld : Upheld Named Fine P)

include upheld

theorem publish_keeps (e : Event) : (publish e).Keeps P fun _ => True :=
  Act.keeps_modify fun _ holds => upheld.told _ holds

theorem theSession_keeps (serial : Nat) :
    (theSession serial).Keeps P fun session => Fine session.timeline.current := by
  refine .of_out fun s r after holds done => ?_
  obtain ⟨rfl, present⟩ := theSession_out done
  exact ⟨holds, fun session same => upheld.current holds (present session same)⟩

/-- A session goes on with whatever leaves its count as it was and a fine flowchart at its head. -/
theorem onSession_keeps (serial : Nat) {act : Act Session α} {Q : α → Prop}
    (goesOn : ∀ {old new : Session} {r : Except Failure α}, Fine old.timeline.current → act.out old = (r, new) →
      new.generation = old.generation ∧ Fine new.timeline.current ∧ ∀ a, r = .ok a → Q a) :
    (onSession serial act).Keeps P Q := by
  refine .of_out fun s r after holds done => ?_
  obtain ⟨e, rfl, rfl⟩ | ⟨old, new, present, ran, rfl⟩ := onSession_out done
  · exact ⟨holds, nofun⟩
  · obtain ⟨generation, current, made⟩ := goesOn (upheld.current holds present) ran
    exact ⟨upheld.goesOn new holds present generation current, made⟩

/-! ### Calls without a turn -/

theorem save_keeps (p : Planner) (owner name : String) (d : Document) (description : Option String)
    (stores : d.WellFormed → (onStore (Store.save owner name d description)).Keeps P fun _ => True) :
    (save p owner name d description).Keeps P fun _ => True := by
  refine .bind (requireValid_keeps p d P) fun _ wellFormed => .bind (stores wellFormed) fun stored _ => ?_
  exact .bind (upheld.publish_keeps _) fun _ _ => Act.keeps_pure trivial

/-- A change ends with the session of its flowchart being closed, if there is a new one. -/
theorem update_ends (p : Planner) (key : DocumentKey) {name : Option String}
    (named : ∀ given, name = some given → Named given) {d : Option Document}
    (read : ∀ new, d = some new → new.WellFormed → Fine new) (description : Option String) (base : Option Int) :
    (update p key name d description base).Ends P fun _ mid after =>
      ∃ events, after = (if d.isSome then mid.close key else mid).withEvents events := by
  intro s r after holds done
  have kept {version : Option Int} (bound : ∀ v, version = some v → 0 ≤ v)
      (valid : ∀ new, d = some new → new.WellFormed) {r : Except Failure StoredDocument} {mid : Service}
      (changed : (onStore (Store.update key.owner key.id { name, document := d, description, version })).out s =
        (r, mid)) : P mid :=
    ((upheld.changed key.owner key.id ⟨named, fun new same => read new same (valid new same), bound⟩).out
      holds changed).1
  cases update_out done with
  | refused e => exact holds
  | failed _ bound valid changed => exact kept bound valid changed
  | made _ bound valid changed events => exact ⟨_, kept bound valid changed, events, rfl⟩

theorem openSession_out (key : DocumentKey) {s after : Service} {r : Except Failure Nat} (holds : P s)
    (done : (openSession key).out s = (r, after)) : P after ∧ ∀ n, r = .ok n → after.live? key = some n := by
  unfold openSession at done
  have rest := Act.out_bind_eq_of_ok Act.out_get done
  split at rest
  next n live =>
    cases rest
    exact ⟨holds, fun _ same => (Except.ok.inj same) ▸ live⟩
  next closed =>
    obtain ⟨e, refused, rfl⟩ | ⟨back, mid, fetched, opened⟩ := Act.out_bind_eq rest
    · obtain ⟨rfl, -⟩ := fetch_out refused
      exact ⟨holds, nofun⟩
    · obtain ⟨rfl, held⟩ := fetch_out fetched
      obtain ⟨e, refused, rfl⟩ | ⟨t, _, started, tail⟩ := Act.out_bind_eq opened
      · obtain ⟨-, rfl⟩ := Act.ofExcept_out refused
        exact ⟨holds, nofun⟩
      · obtain ⟨started, rfl⟩ := Act.ofExcept_out started
        have current : t.current = back.document := by
          unfold Timeline.start? at started
          split at started
          · cases started
          · cases started
            rfl
        cases tail
        refine ⟨upheld.enters holds held.named closed (current ▸ upheld.held holds held), fun n same => ?_⟩
        cases same
        exact (live?_enter key key t mid).trans (if_pos rfl)

theorem openSession_keeps (key : DocumentKey) : (openSession key).Keeps P fun _ => True :=
  .of_out fun _ _ _ holds done => ⟨(upheld.openSession_out key holds done).1, fun _ _ => trivial⟩

theorem conversation_keeps (key : DocumentKey) : (conversation key).Keeps P fun _ => True :=
  .bind (upheld.openSession_keeps key) fun serial _ =>
    .bind (upheld.theSession_keeps serial) fun _ _ => Act.keeps_pure trivial

theorem apply_keeps (p : Planner) (d : Document) (operations : List Operation) :
    (apply p d operations).Keeps P fun _ => True :=
  .bind (Act.keeps_ofExcept (Q := fun _ => True) fun _ _ => trivial) fun _ _ =>
    .bind (upheld.publish_keeps _) fun _ _ => Act.keeps_pure trivial

theorem chat_keeps (p : Planner) (d : Document) (reply : Reply) : (chat p d reply).Keeps P fun _ => True :=
  .bind (Act.keeps_ofExcept (Q := fun _ => True) fun _ _ => trivial) fun _ _ =>
    .bind (upheld.publish_keeps _) fun _ _ => Act.keeps_pure trivial

/-! ### Batches -/

theorem writeBack_keeps (key : DocumentKey) (serial : Nat) (version : Option Int) {d : Document}
    (fine : Fine d) : (writeBack key serial version d).Keeps P fun _ => True := by
  refine .bind Act.keeps_get fun s _ => ?_
  dsimp only
  split
  next current =>
    refine .bind (upheld.changed key.owner key.id ⟨nofun, fun other same => ?_, fun v same => ?_⟩) fun _ _ =>
      Act.keeps_pure trivial
    · cases same
      exact fine
    · -- the version is that of a session
      obtain ⟨session, -, latest⟩ := Option.map_eq_some_iff.1 (current.2.symm.trans same)
      rw [← latest]
      exact Int.natCast_nonneg _
  next => exact Act.keeps_pure trivial

theorem beginCommit_keeps (key : DocumentKey) (base : Int) : (beginCommit key base).Keeps P fun _ => True :=
  .bind (upheld.openSession_keeps key) fun serial _ => .bind (upheld.theSession_keeps serial) fun _ _ =>
    .bind (Act.keeps_ofExcept (Q := fun _ => True) fun _ _ => trivial) fun _ _ => Act.keeps_pure trivial

theorem finishCommit_keeps (key : DocumentKey) (serial : Nat) {operations : List Operation}
    (makes : p.engine.Makes Fine operations) (origin : String) :
    (finishCommit p key serial operations origin).Keeps P fun _ => True := by
  have told (o : Outcome) : Act.Keeps P (fun _ => True) (do
      publish (.mutation o origin (some key))
      return o) := .bind (upheld.publish_keeps _) fun _ _ => Act.keeps_pure trivial
  have committed (base : Int) : (onSession serial (Session.onTimeline
      (Timeline.commit p.engine base operations origin))).Keeps P fun o => o.committed = true → Fine o.document :=
    upheld.onSession_keeps serial fun current ran => by
      obtain ⟨done, only⟩ := Session.onTimeline_out ran
      rw [only]
      exact ⟨rfl, makes.commit current done⟩
  refine .bind (upheld.theSession_keeps serial) fun _ _ => .bind (committed _) fun o fine => ?_
  split
  next settled => exact (upheld.writeBack_keeps key serial o.version (fine settled)).bind fun _ _ => told o
  next => exact told o

theorem commit_keeps (key : DocumentKey) (base : Int) {operations : List Operation}
    (makes : p.engine.Makes Fine operations) (origin : String) :
    (commit p key base operations origin).Keeps P fun _ => True :=
  .bind (upheld.beginCommit_keeps key base) fun serial _ => upheld.finishCommit_keeps key serial makes origin

/-! ### Turns -/

/-- Beginning a turn ends with those that were begun before in the session being given up. -/
theorem beginTurn_ends (p : Planner) (key : DocumentKey) (message : String) :
    (beginTurn p key message).Ends P fun t mid after => ∃ session, t.key = key ∧
      mid.live? key = some t.serial ∧ mid.session? t.serial = some session ∧
      t.turn.generation = session.cancel.generation ∧ after = mid.putSession t.serial session.cancel := by
  intro s r after holds done
  obtain ⟨e, refused, rfl⟩ | ⟨n, mid, opened, rest⟩ := Act.out_bind_eq done
  · exact (upheld.openSession_out key holds refused).1
  · obtain ⟨kept, live⟩ := upheld.openSession_out key holds opened
    obtain ⟨e, refused, rfl⟩ | ⟨session, _, found, tail⟩ := Act.out_bind_eq rest
    · obtain ⟨rfl, -⟩ := theSession_out refused
      exact kept
    · obtain ⟨rfl, present⟩ := theSession_out found
      cases tail
      exact ⟨_, kept, session, rfl, live n rfl, present session rfl, rfl, rfl⟩

theorem settleTurn_keeps (t : SessionTurn) {result : TurnResult}
    (fine : result.applied = true → Fine result.document) : (settleTurn t result).Keeps P fun _ => True := by
  have told : Act.Keeps P (fun _ => True) (do
      if !result.discarded then publish (.chatTurn result (some t.key))
      return result) := by
    dsimp only
    split
    · exact .bind (upheld.publish_keeps _) fun _ _ => Act.keeps_pure trivial
    · exact Act.keeps_pure trivial
  unfold settleTurn
  dsimp only
  split
  next applied =>
    have written := Act.Keeps.bind (upheld.writeBack_keeps t.key t.serial result.version (fine applied))
      fun _ _ => told
    refine .bind Act.keeps_get fun s _ => ?_
    split
    · refine .bind (onStore_reads (Store.fetch_reads _ _) P) fun found _ => ?_
      split
      next => exact Act.keeps_pure trivial
      next => exact Act.keeps_pure trivial
    · exact written
  next => exact told

theorem receiveReply_keeps (t : SessionTurn) (reply : Reply) :
    (receiveReply p t reply).Keeps P fun received =>
      ∀ plan, received = .inr plan → ∀ operation ∈ plan.operations, operation.Sound := by
  -- a turn that is over has made no version
  have answered : (onSession t.serial (Session.answer p t.turn reply)).Keeps P fun received =>
      (∀ result, received = .inl result → result.applied = false) ∧
        ∀ plan, received = .inr plan → ∀ operation ∈ plan.operations, operation.Sound := by
    refine upheld.onSession_keeps t.serial fun {old new r} current ran => ?_
    obtain e | result | plan := r
    · obtain rfl := Session.answer_eq_error ran
      refine ⟨rfl, current, ?_⟩
      rintro _ ⟨⟩
    · obtain ⟨same, generation, rejected⟩ := Session.answer_eq_done ran
      refine ⟨generation, same ▸ current, ?_⟩
      rintro _ ⟨⟩
      refine ⟨?_, ?_⟩
      · rintro _ ⟨⟩
        exact rejected
      · rintro _ ⟨⟩
    · obtain ⟨rfl, -, each⟩ := Session.answer_eq_batch ran
      refine ⟨rfl, current, ?_⟩
      rintro _ ⟨⟩
      refine ⟨?_, ?_⟩
      · rintro _ ⟨⟩
      · rintro _ ⟨⟩
        exact each
  refine .bind answered fun received told => ?_
  cases received with
  | inl result =>
    have settled : (settleTurn t result).Keeps P fun _ => True := upheld.settleTurn_keeps t fun applied => by
      rw [told.1 result rfl] at applied
      cases applied
    refine settled.bind fun _ _ => Act.keeps_pure ?_
    rintro _ ⟨⟩
  | inr plan =>
    refine Act.keeps_pure ?_
    rintro _ ⟨⟩
    exact told.2 plan rfl

theorem concludeTurn_keeps (t : SessionTurn) {plan : Plan} (makes : p.engine.Makes Fine plan.operations) :
    (concludeTurn p t plan).Keeps P fun result => result.applied = true → Fine result.document :=
  upheld.onSession_keeps t.serial fun current resolved => Session.resolve_makes makes current resolved

end Upheld

/-! ### Stores and sessions -/

/-- An invariant of the store holds, and what the sessions hold is fine. -/
structure Stocked (S : Store → Prop) (Fine : Document → Prop) (s : Service) : Prop where
  store : S s.store
  sessions : ∀ entry ∈ s.sessions, Fine entry.2.timeline.current

variable {S : Store → Prop} {s : Service}

/-- Nothing is open yet. -/
theorem stocked_start {store : Store} (holds : S store) : Stocked S Fine { store } :=
  ⟨holds, fun _ mem => absurd mem List.not_mem_nil⟩

theorem onStore_stocked {act : Act Store α} {Q : α → Prop} (keeps : act.Keeps S Q) :
    (onStore act).Keeps (Stocked S Fine) Q := by
  refine .of_out fun s r after stocked done => ?_
  obtain ⟨store, ran, rfl⟩ := onStore_out done
  obtain ⟨kept, made⟩ := keeps.out stocked.store ran
  exact ⟨⟨kept, stocked.sessions⟩, made⟩

namespace Stocked

theorem session (stocked : s.Stocked S Fine) {serial : Nat} {session : Session}
    (present : s.session? serial = some session) : Fine session.timeline.current := by
  obtain ⟨before, rest, split, -⟩ := List.lookup_eq_some_iff.1 present
  exact stocked.sessions (serial, session) (split ▸ List.mem_append_right _ List.mem_cons_self)

theorem putSession (stocked : s.Stocked S Fine) (serial : Nat) (session : Session)
    (fine : Fine session.timeline.current) : (s.putSession serial session).Stocked S Fine := by
  refine ⟨stocked.store, List.forall_mem_map.2 fun entry mem => ?_⟩
  split
  · exact fine
  · exact stocked.sessions entry mem

theorem cancel (stocked : s.Stocked S Fine) {serial : Nat} {session : Session}
    (present : s.session? serial = some session) : (s.putSession serial session.cancel).Stocked S Fine := by
  have fine := stocked.session present
  exact stocked.putSession serial session.cancel fine

theorem close (stocked : s.Stocked S Fine) (key : DocumentKey) : (s.close key).Stocked S Fine := by
  unfold Service.close
  split
  next => exact stocked
  next serial _ =>
    dsimp only
    split
    next session present =>
      have kept := stocked.cancel present
      exact ⟨kept.store, kept.sessions⟩
    next => exact ⟨stocked.store, stocked.sessions⟩

end Stocked

theorem stocked_upheld
    (held : ∀ {store : Store} {owner id : String} {back : StoredDocument}, S store → store.Holds owner id back →
      Fine back.document)
    (changed : ∀ (owner id : String) {changes : StoredChanges}, changes.Fits Named Fine →
      (Store.update owner id changes).Keeps S fun _ => True) : Upheld Named Fine (Stocked S Fine) where
  told _ stocked := ⟨stocked.store, stocked.sessions⟩
  held stocked holds := held stocked.store holds
  changed owner id _ fits := onStore_stocked (changed owner id fits)
  current stocked present := stocked.session present
  goesOn new stocked _ _ fine := stocked.putSession _ new fine
  enters stocked _ _ fine := ⟨stocked.store, List.forall_mem_cons.2 ⟨fine, stocked.sessions⟩⟩

end Service

end Flowchart
