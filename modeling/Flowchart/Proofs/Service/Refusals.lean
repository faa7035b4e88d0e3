import Flowchart.Proofs.Service.Sessions
import Flowchart.Proofs.Storage.Failures

/-!
# What a refused call leaves

* `Service.Tidy`: the open sessions are numbered apart and their flowcharts have files. All calls keep it.
* `Service.Unchanged`: the files and the versions in the open sessions are as they were.
* `Service.Stranded`: the open session of a flowchart has gone on by a version that could not be written back,
  as the file cannot be read.
* `Service.Refuses`: a call that is refused leaves the service unchanged, or one of the given flowcharts
  stranded. The theorems `Service.*_refuses` and `Service.*_refused` say so of the calls.
-/

namespace Flowchart

/-! ### Reading -/

namespace Service

theorem onStore_reads {act : Act Store α} (reads : act.Reads) : (onStore act).Reads := by
  refine fun P => .of_out fun s r after holds done => ?_
  obtain ⟨store, ran, rfl⟩ := onStore_out done
  exact ⟨((reads fun store => P { s with store }).out holds ran).1, fun _ _ => trivial⟩

theorem fetch_reads (key : DocumentKey) : (fetch key).Reads := by
  refine fun P => .bind (onStore_reads (Store.fetch_reads _ _) P) fun found _ => ?_
  split
  next => exact Act.keeps_pure trivial
  next => exact Act.keeps_throw

/-- Only a flowchart without errors goes on, and nothing is changed. -/
theorem requireValid_keeps (p : Planner) (d : Document) (P : Service → Prop) :
    (requireValid p d).Keeps P fun _ => d.WellFormed := by
  unfold requireValid
  dsimp only
  split
  next => exact Act.keeps_throw
  next clean => exact Act.keeps_pure ((validate_hasErrors_eq_false_iff _ _).1 (eq_false_of_ne_true clean))

/-- The latest version is not negative, wherever it comes from. -/
theorem latestVersion_keeps (key : DocumentKey) (P : Service → Prop) :
    (latestVersion key).Keeps P fun latest => 0 ≤ latest := by
  have read : (fetch key).Keeps P fun stored => 0 ≤ stored.version := by
    refine .of_out fun s r after holds done => ?_
    obtain ⟨rfl, found⟩ := fetch_out done
    refine ⟨holds, ?_⟩
    rintro stored rfl
    obtain ⟨text, -, parsed⟩ := found
    exact StoredDocument.version_nonneg_of_parse parsed
  refine .bind Act.keeps_get fun s _ => ?_
  split
  next => exact Act.keeps_pure (Int.natCast_nonneg _)
  next => exact .bind read fun _ bound => Act.keeps_pure bound

end Service

/-! ### Open sessions -/

namespace Service

variable {p : Planner} {key other : DocumentKey} {s mid after : Service} {n : Nat}

/-- The versions of a flowchart whose session is open. -/
def arena? (key : DocumentKey) (s : Service) : Option Timeline :=
  ((s.live? key).bind s.session?).map Session.timeline

theorem arena?_of_live (live : s.live? key = some n) : s.arena? key = (s.session? n).map Session.timeline := by
  rw [arena?, live, Option.bind_some]

/-- The open sessions are numbered apart, and their flowcharts have files. -/
structure Tidy (s : Service) : Prop where
  filed : ∀ key n, s.live? key = some n → s.IsStored key
  numbered : ∀ key n, s.live? key = some n → n < s.opened
  apart : ∀ key other n, s.live? key = some n → s.live? other = some n → key = other

theorem tidy_start (store : Store) : Tidy { store } := ⟨nofun, nofun, nofun⟩

/-- The numbers of the open sessions were given out, each to one flowchart, whose owner has a name. -/
structure Numbered (s : Service) : Prop where
  given : ∀ {key n}, s.live? key = some n → n < s.opened
  apart : ∀ {key other n}, s.live? key = some n → s.live? other = some n → key = other
  named : ∀ {key n}, s.live? key = some n → key.owner ≠ ""

theorem numbered_start (store : Store) : Numbered { store } := ⟨nofun, nofun, nofun⟩

theorem Tidy.isNumbered (tidy : s.Tidy) : s.Numbered where
  given live := tidy.numbered _ _ live
  apart live also := tidy.apart _ _ _ live also
  named {key n} live unnamed := by
    have stored := tidy.filed key n live
    rw [IsStored, unnamed] at stored
    cases stored

/-- The files and the versions in the open sessions are as they were. -/
structure Unchanged (s after : Service) : Prop where
  files : after.store.files = s.store.files
  arenas : ∀ key t, s.arena? key = some t → after.arena? key = some t

theorem Unchanged.refl (s : Service) : Unchanged s s := ⟨rfl, fun _ _ => id⟩

theorem Unchanged.trans (first : Unchanged s mid) (second : Unchanged mid after) : Unchanged s after :=
  ⟨second.files.trans first.files, fun key t present => second.arenas key t (first.arenas key t present)⟩

theorem Unchanged.text?_eq (same : Unchanged s after) (owner id : String) :
    after.store.text? owner id = s.store.text? owner id := by
  unfold Store.text?
  rw [same.files]

/-- The open session of a flowchart has gone on by one version that was not written back, as the file of the
flowchart is not read. Nothing else has changed. -/
structure Stranded (key : DocumentKey) (s after : Service) : Prop where
  files : after.store.files = s.store.files
  others : ∀ other t, other ≠ key → s.arena? other = some t → after.arena? other = some t
  ahead : ∃ t new d, s.arena? key = some t ∧ after.arena? key = some new ∧ t.Advances new d
  unreadable : s.store.IsUnreadable key.owner key.id

/-- A session that was opened in between had no versions before. -/
theorem Stranded.of_unchanged (same : Unchanged s mid) (stranded : Stranded key mid after) :
    Unchanged s after ∨ Stranded key s after := by
  have files := stranded.files.trans same.files
  have others (other : DocumentKey) (t : Timeline) (apart : other ≠ key) (present : s.arena? other = some t) :=
    stranded.others other t apart (same.arenas other t present)
  cases before : s.arena? key with
  | none =>
    refine .inl ⟨files, fun other t present => others other t (fun here => ?_) present⟩
    rw [here, before] at present
    cases present
  | some t =>
    obtain ⟨old, new, d, present, ahead, advances⟩ := stranded.ahead
    cases (same.arenas key t before).symm.trans present
    obtain ⟨text, file, unread⟩ := stranded.unreadable
    exact .inr ⟨files, others, ⟨t, new, d, before, ahead, advances⟩, text,
      (same.text?_eq _ _).symm.trans file, unread⟩

/-- The service is tidy, and unchanged since an earlier state. -/
structure Steady (s after : Service) : Prop where
  tidy : after.Tidy
  unchanged : Unchanged s after

theorem Steady.trans (first : Unchanged s mid) (second : Steady mid after) : Steady s after :=
  ⟨second.tidy, first.trans second.unchanged⟩

/-! #### Steps -/

theorem Tidy.publish (tidy : s.Tidy) (e : Event) : Tidy { s with events := s.events ++ [e] } :=
  ⟨tidy.filed, tidy.numbered, tidy.apart⟩

theorem Steady.publish (steady : Steady s after) (e : Event) :
    Steady s { after with events := after.events ++ [e] } :=
  ⟨steady.tidy.publish e, steady.unchanged.files, steady.unchanged.arenas⟩

theorem publish_steady (e : Event) : (publish e).Keeps (Steady s) fun _ => True :=
  Act.keeps_modify fun _ steady => steady.publish e

theorem Tidy.putSession (tidy : s.Tidy) (n : Nat) (session : Session) : (s.putSession n session).Tidy :=
  ⟨tidy.filed, tidy.numbered, tidy.apart⟩

/-- A session that goes on changes the versions of its own flowchart only. -/
theorem arena?_putSession (tidy : s.Tidy) (live : s.live? key = some n) {old : Session}
    (present : s.session? n = some old) (new : Session) (other : DocumentKey) :
    (s.putSession n new).arena? other = if other = key then some new.timeline else s.arena? other := by
  have found (m : Nat) := session?_putSession present new m
  split
  next same =>
    have live : (s.putSession n new).live? other = some n := same ▸ live
    rw [arena?_of_live live, found, if_pos rfl, Option.map_some]
  next differs =>
    rw [arena?, arena?, show (s.putSession n new).live? other = s.live? other from rfl]
    cases number : s.live? other with
    | none => rfl
    | some m =>
      have apart : m ≠ n := fun same => differs (tidy.apart other key n (same ▸ number) live)
      rw [Option.bind_some, Option.bind_some, found, if_neg apart]

theorem arena?_putSession_of_timeline {old : Session} (present : s.session? n = some old) {new : Session}
    (same : new.timeline = old.timeline) (other : DocumentKey) :
    (s.putSession n new).arena? other = s.arena? other := by
  rw [arena?, arena?, show (s.putSession n new).live? other = s.live? other from rfl]
  cases s.live? other with
  | none => rfl
  | some m =>
    rw [Option.bind_some, Option.bind_some, session?_putSession present]
    split
    next here => rw [here, present, Option.map_some, Option.map_some, same]
    next => rfl

/-- A session that goes on without a new version changes nothing. -/
theorem Tidy.steady_putSession (tidy : s.Tidy) {old : Session} (present : s.session? n = some old) {new : Session}
    (same : new.timeline = old.timeline) : Steady s (s.putSession n new) :=
  ⟨tidy.putSession n new, rfl, fun key _ found => (arena?_putSession_of_timeline present same key).trans found⟩

/-- A session is opened under the next number. -/
def enter (key : DocumentKey) (t : Timeline) (s : Service) : Service :=
  { s with
    sessions := (s.opened, { timeline := t }) :: s.sessions
    live := (key, s.opened) :: s.live
    opened := s.opened + 1 }

theorem live?_enter (key other : DocumentKey) (t : Timeline) (s : Service) :
    (s.enter key t).live? other = if other = key then some s.opened else s.live? other := by
  rw [live?, enter, List.lookup_cons]
  by_cases same : other = key
  · simp [same]
  · simp [same, beq_eq_false_iff_ne.2 same, live?]

theorem session?_enter (key : DocumentKey) (t : Timeline) (s : Service) (n : Nat) :
    (s.enter key t).session? n = if n = s.opened then some { timeline := t } else s.session? n := by
  rw [session?, enter, List.lookup_cons]
  by_cases same : n = s.opened
  · simp [same]
  · simp [same, beq_eq_false_iff_ne.2 same, session?]

theorem Numbered.enter (numbered : s.Numbered) (named : key.owner ≠ "") (t : Timeline) :
    (s.enter key t).Numbered := by
  -- the number of the new session was not given out before
  have fresh {other : DocumentKey} : s.live? other ≠ some s.opened := fun live => (numbered.given live).ne rfl
  refine ⟨fun {other n} live => ?_, fun {other third n} live also => ?_, fun {other n} live => ?_⟩
  · rw [live?_enter] at live
    split at live
    next => exact Option.some.inj live ▸ Nat.lt_succ_self _
    next => exact Nat.lt_succ_of_lt (numbered.given live)
  · rw [live?_enter] at live also
    split at live <;> split at also
    next same third => exact same.trans third.symm
    next => exact absurd (Option.some.inj live ▸ also) fresh
    next => exact absurd (Option.some.inj also ▸ live) fresh
    next => exact numbered.apart live also
  · rw [live?_enter] at live
    split at live
    next same => exact same ▸ named
    next => exact numbered.named live

/-- A flowchart whose session is opened has a file. -/
theorem Tidy.steady_enter (tidy : s.Tidy) (closed : s.live? key = none) (stored : s.IsStored key) (t : Timeline) :
    Steady s (s.enter key t) := by
  have named : key.owner ≠ "" := fun unnamed => by
    rw [IsStored, unnamed] at stored
    cases stored
  have numbered := tidy.isNumbered.enter named t
  refine ⟨⟨fun other n live => ?_, fun _ _ => numbered.given, fun _ _ _ => numbered.apart⟩, rfl,
    fun other old found => ?_⟩
  · rw [live?_enter] at live
    split at live
    next same => exact same ▸ stored
    next => exact tidy.filed other n live
  · obtain ⟨session, held, same⟩ := Option.map_eq_some_iff.1 found
    obtain ⟨n, live, present⟩ := Option.bind_eq_some_iff.1 held
    have apart : other ≠ key := fun same => by
      rw [same, closed] at live
      cases live
    have given := tidy.numbered other n live
    rw [arena?_of_live ((live?_enter key other t s).trans ((if_neg apart).trans live)), session?_enter,
      if_neg given.ne]
    exact (congrArg (Option.map Session.timeline) present).trans (congrArg some same)

theorem close_store (key : DocumentKey) (s : Service) : (s.close key).store = s.store := by
  unfold close
  split
  next => rfl
  next => dsimp only; split <;> rfl

theorem close_opened (key : DocumentKey) (s : Service) : (s.close key).opened = s.opened := by
  unfold close
  split
  next => rfl
  next => dsimp only; split <;> rfl

/-! #### Judgements on calls -/

/-- A call that is refused has changed nothing, or it has left one of the flowcharts that it edits stranded. -/
def Refused (editing : DocumentKey → Prop) (s : Service) (report : ErrorReport) (after : Service) : Prop :=
  Unchanged s after ∨ ∃ key, editing key ∧ report.kind = .serialization ∧ Stranded key s after

def Refuses (editing : DocumentKey → Prop) (act : Act Service α) : Prop :=
  ∀ s r after, s.Tidy → act.out s = (r, after) →
    after.Tidy ∧ ∀ report, r = .error (.reported report) → Refused editing s report after

/-- The call always succeeds. -/
def Finishes (act : Act Service α) : Prop :=
  ∀ s r after, s.Tidy → act.out s = (r, after) → after.Tidy ∧ ∃ a, r = .ok a

section

variable {editing : DocumentKey → Prop} {act : Act Service α} {next : α → Act Service β} {Q : α → Prop}

theorem Refused.of_unchanged {report : ErrorReport} (same : Unchanged s mid)
    (refused : Refused editing mid report after) : Refused editing s report after := by
  obtain same' | ⟨key, edits, kind, stranded⟩ := refused
  · exact .inl (same.trans same')
  · exact (stranded.of_unchanged same).imp_right fun stranded => ⟨key, edits, kind, stranded⟩

theorem Refuses.mono {wider : DocumentKey → Prop} (wide : ∀ key, editing key → wider key)
    (refuses : Refuses editing act) : Refuses wider act := by
  intro s r after tidy done
  obtain ⟨tidy, refused⟩ := refuses s r after tidy done
  refine ⟨tidy, fun report same => (refused report same).imp_right ?_⟩
  rintro ⟨key, edits, rest⟩
  exact ⟨key, wide key edits, rest⟩

theorem Refuses.of_keeps (keeps : ∀ s, act.Keeps (Steady s) Q) : Refuses editing act := by
  intro s r after tidy done
  have steady := ((keeps s).out ⟨tidy, .refl s⟩ done).1
  exact ⟨steady.tidy, fun _ _ => .inl steady.unchanged⟩

theorem Refuses.bind (first : ∀ s, act.Keeps (Steady s) Q) (rest : ∀ a, Q a → Refuses editing (next a)) :
    Refuses editing (act >>= next) := by
  intro s r after tidy done
  obtain ⟨e, failed, rfl⟩ | ⟨a, mid, made, done⟩ := Act.out_bind_eq done
  · have steady := ((first s).out ⟨tidy, .refl s⟩ failed).1
    exact ⟨steady.tidy, fun _ _ => .inl steady.unchanged⟩
  · obtain ⟨steady, made⟩ := (first s).out ⟨tidy, .refl s⟩ made
    obtain ⟨tidy, refused⟩ := rest a (made a rfl) mid r after steady.tidy done
    exact ⟨tidy, fun report same => (refused report same).of_unchanged steady.unchanged⟩

/-- What is left to do after the call cannot fail. -/
theorem Refuses.finish (first : Refuses editing act) (rest : ∀ a, Finishes (next a)) :
    Refuses editing (act >>= next) := by
  intro s r after tidy done
  obtain ⟨e, failed, rfl⟩ | ⟨a, mid, made, done⟩ := Act.out_bind_eq done
  · obtain ⟨tidy, refused⟩ := first s _ after tidy failed
    refine ⟨tidy, fun report same => refused report ?_⟩
    cases same
    rfl
  · obtain ⟨tidy, -⟩ := first s _ mid tidy made
    obtain ⟨tidy, b, rfl⟩ := rest a mid r after tidy done
    exact ⟨tidy, nofun⟩

theorem Finishes.bind (first : Finishes act) (rest : ∀ a, Finishes (next a)) : Finishes (act >>= next) := by
  intro s r after tidy done
  obtain ⟨e, failed, -⟩ | ⟨a, mid, made, done⟩ := Act.out_bind_eq done
  · obtain ⟨-, _, same⟩ := first s _ after tidy failed
    cases same
  · obtain ⟨tidy, -⟩ := first s _ mid tidy made
    exact rest a mid r after tidy done

theorem finishes_pure (a : α) : Finishes (pure a : Act Service α) := by
  intro s r after tidy done
  cases done
  exact ⟨tidy, a, rfl⟩

theorem finishes_publish (e : Event) : Finishes (publish e) := by
  intro s r after tidy done
  cases done
  exact ⟨tidy.publish e, _, rfl⟩

/-- Only sessions that were open before are open when one was closed. -/
theorem live?_of_close {n : Nat} (live : (s.close key).live? other = some n) :
    other ≠ key ∧ s.live? other = some n := by
  rw [live?_close] at live
  split at live
  next => cases live
  next apart => exact ⟨apart, live⟩

theorem Numbered.close (numbered : s.Numbered) (key : DocumentKey) : (s.close key).Numbered where
  given live := by
    rw [close_opened]
    exact numbered.given (live?_of_close live).2
  apart live also := numbered.apart (live?_of_close live).2 (live?_of_close also).2
  named live := numbered.named (live?_of_close live).2

/-- The file of a flowchart whose session is closed may be missing. -/
theorem tidy_close (filed : ∀ other n, other ≠ key → s.live? other = some n → s.IsStored other)
    (numbered : s.Numbered) : (s.close key).Tidy where
  filed other n live := by
    rw [IsStored, close_store]
    exact filed other n (live?_of_close live).1 (live?_of_close live).2
  numbered _ _ := (numbered.close key).given
  apart _ _ _ := (numbered.close key).apart

theorem Tidy.close (tidy : s.Tidy) (key : DocumentKey) : (s.close key).Tidy :=
  tidy_close (fun other n _ live => tidy.filed other n live) tidy.isNumbered

theorem finishes_close (key : DocumentKey) : Finishes (modify (close key) : Act Service PUnit) := by
  intro s r after tidy done
  cases done
  exact ⟨tidy.close key, _, rfl⟩

end

/-! ### Calls without a session -/

theorem Tidy.onStore (tidy : s.Tidy) {store : Store} (grows : Store.Grows s.store store) :
    Tidy { s with store } :=
  ⟨fun key n live => grows _ _ (tidy.filed key n live), tidy.numbered, tidy.apart⟩

section

variable {editing : DocumentKey → Prop}

theorem save_refuses (p : Planner) (owner name : String) (d : Document) (description : Option String) :
    Refuses editing (save p owner name d description) := by
  refine .bind (fun _ => requireValid_keeps p d _) fun _ _ => .finish ?_ fun stored =>
    (finishes_publish _).bind fun _ => finishes_pure _
  intro s r after tidy done
  obtain ⟨store, saved, rfl⟩ := onStore_out done
  obtain ⟨grows, kept⟩ := Store.save_files saved
  exact ⟨tidy.onStore grows, fun _ failed => .inl ⟨kept _ failed, fun _ _ => id⟩⟩

theorem storeUpdate_refuses (key : DocumentKey) (changes : StoredChanges) :
    Refuses editing (onStore (Store.update key.owner key.id changes)) := by
  intro s r after tidy done
  obtain ⟨store, updated, rfl⟩ := onStore_out done
  obtain ⟨grows, kept⟩ := Store.update_files updated
  exact ⟨tidy.onStore grows, fun _ failed => .inl ⟨(kept _ failed).1, fun _ _ => id⟩⟩

theorem update_refuses (p : Planner) (key : DocumentKey) (name : Option String) (d : Option Document)
    (description : Option String) (base : Option Int) :
    Refuses editing (update p key name d description base) := by
  have change (version : Option Int) : Refuses editing (do
        let stored ← onStore
          (Store.update key.owner key.id { name, document := d, description, version })
        if d.isSome then modify (close key)
        publish (.updated key)
        return stored) := by
    have told (stored : StoredDocument) : Finishes (do
        publish (.updated key)
        return stored) := (finishes_publish _).bind fun _ => finishes_pure _
    refine (storeUpdate_refuses key _).finish fun stored => ?_
    dsimp only
    split
    · exact (finishes_close key).bind fun _ => told stored
    · exact told stored
  have versioned := versioned_of
    (fun _ each => .bind (fun _ => latestVersion_keeps key _) each)
    (fun _ _ => .bind (Q := fun _ => False) (fun _ => Act.keeps_throw) fun _ => False.elim)
    (fun version _ => change version) base d.isSome
  cases d with
  | none => exact versioned
  | some new => exact .bind (fun _ => requireValid_keeps p new _) fun _ _ => versioned

/-- Deleting a flowchart that is not there changes nothing, as it has no open session. -/
theorem delete_tidy (tidy : s.Tidy) {r : Except Failure Bool} (done : (delete key).out s = (r, after)) :
    after.Tidy ∧ (r ≠ .ok true → Unchanged s after) := by
  unfold delete at done
  obtain ⟨e, failed, rfl⟩ | ⟨deleted, mid, erased, rest⟩ := Act.out_bind_eq done
  · obtain ⟨store, refused, rfl⟩ := onStore_out failed
    cases (Store.delete_files refused).2 (by simp)
    exact ⟨tidy, fun _ => .refl s⟩
  · obtain ⟨store, gone, rfl⟩ := onStore_out erased
    obtain ⟨others, same⟩ := Store.delete_files gone
    have rest := Act.out_bind_eq_of_ok Act.out_modify rest
    cases deleted with
    | false =>
      -- a flowchart without a file has no open session
      have closed : s.live? key = none := by
        cases live : s.live? key with
        | none => rfl
        | some n =>
          have stored := tidy.filed key n live
          rw [IsStored, ← same (by simp), (Store.delete_out gone).1] at stored
          cases stored
      cases same (by simp)
      have unclosed : close key { s with store := s.store } = s := by simp only [close, closed]
      rw [unclosed] at rest
      cases rest
      exact ⟨tidy, fun _ => .refl s⟩
    | true =>
      have tidy : ({ s with store }.close key).Tidy := by
        have numbered := tidy.isNumbered
        refine tidy_close (fun other n apart live => ?_) ⟨numbered.given, numbered.apart, numbered.named⟩
        rw [IsStored, others _ _ fun same => apart (congrArg₂ DocumentKey.mk same.1 same.2)]
        exact tidy.filed other n live
      cases rest
      exact ⟨tidy.publish _, fun refused => absurd rfl refused⟩

end

/-! ### Sessions -/

theorem openSession_steady (tidy : s.Tidy) {r : Except Failure Nat} (done : (openSession key).out s = (r, after)) :
    Steady s after ∧ ∀ n, r = .ok n → after.live? key = some n := by
  unfold openSession at done
  have rest := Act.out_bind_eq_of_ok Act.out_get done
  split at rest
  next n live =>
    cases rest
    exact ⟨⟨tidy, .refl s⟩, fun _ same => (Except.ok.inj same) ▸ live⟩
  next closed =>
    obtain ⟨e, refused, rfl⟩ | ⟨back, mid, fetched, opened⟩ := Act.out_bind_eq rest
    · obtain ⟨rfl, -⟩ := fetch_out refused
      exact ⟨⟨tidy, .refl _⟩, nofun⟩
    · obtain ⟨rfl, holds⟩ := fetch_out fetched
      obtain ⟨e, refused, rfl⟩ | ⟨t, _, started, tail⟩ := Act.out_bind_eq opened
      · obtain ⟨-, rfl⟩ := Act.ofExcept_out refused
        exact ⟨⟨tidy, .refl _⟩, nofun⟩
      · obtain ⟨-, rfl⟩ := Act.ofExcept_out started
        cases tail
        refine ⟨tidy.steady_enter closed (isStored_of_holds holds) t, fun n same => ?_⟩
        cases same
        exact (live?_enter key key t mid).trans (if_pos rfl)

theorem beginCommit_steady (tidy : s.Tidy) {base : Int} {r : Except Failure Nat}
    (done : (beginCommit key base).out s = (r, after)) :
    Steady s after ∧ ∀ n, r = .ok n → after.live? key = some n := by
  unfold beginCommit at done
  obtain ⟨e, refused, rfl⟩ | ⟨n, mid, opened, rest⟩ := Act.out_bind_eq done
  · exact ⟨(openSession_steady tidy refused).1, nofun⟩
  · obtain ⟨steady, live⟩ := openSession_steady tidy opened
    obtain ⟨e, refused, rfl⟩ | ⟨session, _, found, tail⟩ := Act.out_bind_eq rest
    · obtain ⟨rfl, -⟩ := theSession_out refused
      exact ⟨steady, nofun⟩
    · obtain ⟨rfl, -⟩ := theSession_out found
      obtain ⟨e, refused, rfl⟩ | ⟨_, _, based, tail⟩ := Act.out_bind_eq tail
      · obtain ⟨-, rfl⟩ := Act.ofExcept_out refused
        exact ⟨steady, nofun⟩
      · obtain ⟨-, rfl⟩ := Act.ofExcept_out based
        cases tail
        exact ⟨steady, live⟩

/-- Writing a version back is refused only if the file is not read. -/
theorem writeBack_files (tidy : s.Tidy) {version : Option Int} {d : Document} {r : Except Failure Unit}
    (done : (writeBack key n version d).out s = (r, after)) :
    ∃ store, after = { s with store } ∧ Store.Grows s.store store ∧ ∀ e, r = .error e →
      store.files = s.store.files ∧ ∀ report, e = .reported report →
        report.kind = .serialization ∧ s.store.IsUnreadable key.owner key.id := by
  unfold writeBack at done
  have rest := Act.out_bind_eq_of_ok Act.out_get done
  dsimp only at rest
  split at rest
  next current =>
    obtain ⟨e, failed, rfl⟩ | ⟨_, _, written, tail⟩ := Act.out_bind_eq rest
    · obtain ⟨store, updated, rfl⟩ := onStore_out failed
      obtain ⟨grows, kept⟩ := Store.update_files updated
      refine ⟨store, rfl, grows, fun e same => ?_⟩
      cases same
      obtain ⟨files, reported⟩ := kept _ rfl
      refine ⟨files, fun report same => (reported report same).resolve_left fun missing => ?_⟩
      -- a flowchart whose session is open has a file
      have stored := tidy.filed key n current.1
      rw [IsStored, missing] at stored
      cases stored
    · obtain ⟨store, updated, rfl⟩ := onStore_out written
      cases tail
      exact ⟨store, rfl, (Store.update_files updated).1, fun _ same => by cases same⟩
  next =>
    cases rest
    exact ⟨s.store, rfl, .refl _, fun _ same => by cases same⟩

/-- A session has gone on by a version that could not be written back. -/
theorem stranded_of_advance (tidy : s.Tidy) (live : s.live? key = some n) {old new : Session} {d : Document}
    (present : s.session? n = some old) (advances : old.timeline.Advances new.timeline d) {store : Store}
    (files : store.files = s.store.files) (unreadable : s.store.IsUnreadable key.owner key.id) :
    Stranded key s { s.putSession n new with store } where
  files := files
  others other t apart found := ((arena?_putSession tidy live present new other).trans (if_neg apart)).trans found
  ahead := by
    have before : s.arena? key = some old.timeline := by rw [arena?_of_live live, present, Option.map_some]
    have ahead := (arena?_putSession tidy live present new key).trans (if_pos rfl)
    exact ⟨old.timeline, new.timeline, d, before, ahead, advances⟩
  unreadable := unreadable

/-- An action of a session that leaves the timeline as it was when it fails, is then refused without a change. -/
theorem onSession_refused (tidy : s.Tidy) {act : Act Session α}
    (leaves : ∀ {e : Failure} {old new : Session}, act.out old = (.error e, new) → new.timeline = old.timeline)
    {e : Failure} (refused : (onSession n act).out s = (.error e, after)) : Steady s after := by
  obtain ⟨_, -, rfl⟩ | ⟨old, new, present, ran, rfl⟩ := onSession_out refused
  · exact ⟨tidy, .refl _⟩
  · exact tidy.steady_putSession present (leaves ran)

/-- A batch that is not committed changes nothing either. -/
theorem finishCommit_refused (tidy : s.Tidy) (live : s.live? key = some n) {operations : List Operation}
    {origin : String} {r : Except Failure Outcome}
    (done : (finishCommit p key n operations origin).out s = (r, after)) :
    after.Tidy ∧ (∀ o, r = .ok o → o.committed = false → Unchanged s after) ∧
      ∀ report, r = .error (.reported report) → Refused (· = key) s report after := by
  unfold finishCommit at done
  obtain ⟨e, refused, rfl⟩ | ⟨session, _, found, rest⟩ := Act.out_bind_eq done
  · obtain ⟨rfl, -⟩ := theSession_out refused
    exact ⟨tidy, fun _ same => (nomatch same), fun _ _ => .inl (.refl _)⟩
  · obtain ⟨rfl, -⟩ := theSession_out found
    obtain ⟨e, refused, rfl⟩ | ⟨o, mid, committed, tail⟩ := Act.out_bind_eq rest
    · have steady := onSession_refused tidy (fun ran => Timeline.commit_eq_error (Session.onTimeline_out ran).1) refused
      exact ⟨steady.tidy, fun _ same => (nomatch same), fun _ _ => .inl steady.unchanged⟩
    · obtain ⟨_, impossible, -⟩ | ⟨old, new, present, ran, rfl⟩ := onSession_out committed
      · cases impossible
      obtain ⟨-, made, -, -, -, effect⟩ := Timeline.commit_eq_ok (Session.onTimeline_out ran).1
      split at tail
      next settled =>
        rw [if_pos settled] at effect
        obtain ⟨e, failed, rfl⟩ | ⟨_, _, written, told⟩ := Act.out_bind_eq tail
        · obtain ⟨store, rfl, grows, kept⟩ := writeBack_files (tidy.putSession n _) failed
          refine ⟨(tidy.putSession n _).onStore grows, fun _ same => (nomatch same), fun report same => ?_⟩
          cases same
          obtain ⟨files, reported⟩ := kept _ rfl
          obtain ⟨kind, unreadable⟩ := reported report rfl
          exact .inr ⟨key, rfl, kind, stranded_of_advance tidy live present effect.1 files unreadable⟩
        · obtain ⟨store, rfl, grows, -⟩ := writeBack_files (tidy.putSession n _) written
          cases told
          refine ⟨((tidy.putSession n _).onStore grows).publish _, fun other same rejected => ?_, nofun⟩
          cases same
          cases settled.symm.trans rejected
      next rejected =>
        rw [if_neg rejected] at effect
        have steady := tidy.steady_putSession present effect
        cases tail
        exact ⟨steady.tidy.publish _, fun _ _ _ => (steady.publish _).unchanged, nofun⟩

theorem commit_refused (tidy : s.Tidy) {base : Int} {operations : List Operation} {origin : String}
    {r : Except Failure Outcome} (done : (commit p key base operations origin).out s = (r, after)) :
    after.Tidy ∧ (∀ o, r = .ok o → o.committed = false → Unchanged s after) ∧
      ∀ report, r = .error (.reported report) → Refused (· = key) s report after := by
  obtain ⟨e, failed, rfl⟩ | ⟨n, mid, begun, rest⟩ := Act.out_bind_eq done
  · obtain ⟨steady, -⟩ := beginCommit_steady tidy failed
    exact ⟨steady.tidy, fun _ same => (nomatch same), fun _ _ => .inl steady.unchanged⟩
  · obtain ⟨steady, live⟩ := beginCommit_steady tidy begun
    obtain ⟨tidy, rejected, refused⟩ := finishCommit_refused steady.tidy (live n rfl) rest
    exact ⟨tidy, fun o same none => steady.unchanged.trans (rejected o same none), fun report same =>
      (refused report same).of_unchanged steady.unchanged⟩

/-! ### Turns -/

/-- The session of the flowchart is open. -/
structure IsOpen (key : DocumentKey) (n : Nat) (s : Service) : Prop where
  live : s.live? key = some n
  present : ∃ session, s.session? n = some session

theorem IsOpen.putSession (isOpen : s.IsOpen key n) (new : Session) : (s.putSession n new).IsOpen key n := by
  obtain ⟨live, old, present⟩ := isOpen
  exact ⟨live, new, (session?_putSession present new n).trans (if_pos rfl)⟩

theorem beginTurn_steady (tidy : s.Tidy) {message : String} {r : Except Failure SessionTurn}
    (done : (beginTurn p key message).out s = (r, after)) :
    Steady s after ∧ ∀ t, r = .ok t → t.key = key ∧ after.IsOpen key t.serial := by
  unfold beginTurn at done
  obtain ⟨e, refused, rfl⟩ | ⟨n, mid, opened, rest⟩ := Act.out_bind_eq done
  · exact ⟨(openSession_steady tidy refused).1, nofun⟩
  · obtain ⟨steady, live⟩ := openSession_steady tidy opened
    obtain ⟨e, refused, rfl⟩ | ⟨session, _, found, tail⟩ := Act.out_bind_eq rest
    · obtain ⟨rfl, -⟩ := theSession_out refused
      exact ⟨steady, nofun⟩
    · obtain ⟨rfl, present⟩ := theSession_out found
      have present := present session rfl
      have isOpen : IsOpen key n _ := ⟨live n rfl, session, present⟩
      cases tail
      refine ⟨.trans steady.unchanged (steady.tidy.steady_putSession present rfl), ?_⟩
      rintro _ ⟨rfl⟩
      exact ⟨rfl, isOpen.putSession _⟩

/-- A turn that has applied nothing ends without a refusal. -/
theorem settleTurn_idle {t : SessionTurn} {result : TurnResult} {r : Except Failure TurnResult} (tidy : s.Tidy)
    (isOpen : s.IsOpen key n) (rejected : result.applied = false)
    (done : (settleTurn t result).out s = (r, after)) :
    Steady s after ∧ after.IsOpen key n ∧ r = .ok result := by
  unfold settleTurn at done
  simp only [rejected, Bool.false_eq_true, if_false] at done
  split at done <;> cases done
  · exact ⟨.publish ⟨tidy, .refl s⟩ _, ⟨isOpen.live, isOpen.present⟩, rfl⟩
  · exact ⟨⟨tidy, .refl _⟩, isOpen, rfl⟩

/-- A turn that has applied its plan is only refused as its version cannot be written back. -/
theorem settleTurn_files {t : SessionTurn} {result : TurnResult} {r : Except Failure TurnResult} (tidy : s.Tidy)
    (isOpen : s.IsOpen t.key t.serial) (applied : result.applied = true)
    (done : (settleTurn t result).out s = (r, after)) :
    after.Tidy ∧ (∀ told, r = .ok told → after.IsOpen t.key t.serial) ∧
      ∀ report, r = .error (.reported report) → ∃ store, after = { s with store } ∧
        store.files = s.store.files ∧ report.kind = .serialization ∧
        s.store.IsUnreadable t.key.owner t.key.id := by
  unfold settleTurn at done
  simp only [applied, if_true] at done
  have rest := Act.out_bind_eq_of_ok Act.out_get done
  rw [if_neg (not_not.2 isOpen.live)] at rest
  obtain ⟨e, failed, rfl⟩ | ⟨_, _, written, tail⟩ := Act.out_bind_eq rest
  · obtain ⟨store, rfl, grows, kept⟩ := writeBack_files tidy failed
    refine ⟨tidy.onStore grows, fun _ same => (nomatch same), fun report same => ⟨store, rfl, ?_⟩⟩
    cases same
    obtain ⟨files, reported⟩ := kept _ rfl
    exact ⟨files, reported report rfl⟩
  · obtain ⟨store, rfl, grows, -⟩ := writeBack_files tidy written
    split at tail <;> cases tail
    · exact ⟨(tidy.onStore grows).publish _, fun _ _ => ⟨isOpen.live, isOpen.present⟩, nofun⟩
    · exact ⟨tidy.onStore grows, fun _ _ => ⟨isOpen.live, isOpen.present⟩, nofun⟩

/-- Taking the assistant's reply makes no version. -/
theorem receiveReply_steady {t : SessionTurn} {reply : Reply} {r : Except Failure (TurnResult ⊕ Plan)}
    (tidy : s.Tidy) (isOpen : s.IsOpen key t.serial) (done : (receiveReply p t reply).out s = (r, after)) :
    Steady s after ∧ after.IsOpen key t.serial := by
  unfold receiveReply at done
  obtain ⟨session, present⟩ := isOpen.present
  rw [Act.out_bind, out_onSession present] at done
  rcases ended : (Session.answer p t.turn reply).out session with ⟨e | ⟨result | plan⟩, new⟩ <;>
    simp only [ended] at done
  · cases done
    have same := congrArg Session.timeline (Session.answer_eq_error ended)
    exact ⟨tidy.steady_putSession present same, isOpen.putSession new⟩
  · obtain ⟨same, -, rejected⟩ := Session.answer_eq_done ended
    have kept := tidy.steady_putSession present same
    obtain ⟨e, refused, rfl⟩ | ⟨_, _, told, last⟩ := Act.out_bind_eq done
    · obtain ⟨-, -, same⟩ := settleTurn_idle kept.tidy (isOpen.putSession new) rejected refused
      cases same
    · obtain ⟨steady, isOpen, -⟩ := settleTurn_idle kept.tidy (isOpen.putSession new) rejected told
      cases last
      exact ⟨.trans kept.unchanged steady, isOpen⟩
  · cases done
    have same := congrArg Session.timeline (Session.answer_eq_batch ended).1
    exact ⟨tidy.steady_putSession present same, isOpen.putSession new⟩

theorem finishTurn_refused {t : SessionTurn} {plan : Plan} {r : Except Failure TurnResult} (tidy : s.Tidy)
    (isOpen : s.IsOpen t.key t.serial) (done : (finishTurn p t plan).out s = (r, after)) :
    after.Tidy ∧ (∀ told, r = .ok told → after.IsOpen t.key t.serial) ∧
      ∀ report, r = .error (.reported report) → Refused (· = t.key) s report after := by
  unfold finishTurn concludeTurn at done
  obtain ⟨e, failed, rfl⟩ | ⟨result, mid, concluded, settled⟩ := Act.out_bind_eq done
  · have steady := onSession_refused tidy (fun ran => congrArg _ (Session.resolve_eq_error ran)) failed
    exact ⟨steady.tidy, fun _ same => (nomatch same), fun _ _ => .inl steady.unchanged⟩
  · obtain ⟨_, impossible, -⟩ | ⟨session, new, present, ran, rfl⟩ := onSession_out concluded
    · cases impossible
    have held := isOpen.putSession new
    obtain ⟨same, rejected⟩ | ⟨-, applied, advances, -⟩ := Session.resolve_eq_ok ran
    · have kept := tidy.steady_putSession present same
      obtain ⟨steady, held, rfl⟩ := settleTurn_idle kept.tidy held rejected settled
      exact ⟨steady.tidy, fun _ _ => held, nofun⟩
    · obtain ⟨tidy', held, refused⟩ := settleTurn_files (tidy.putSession _ _) held applied settled
      refine ⟨tidy', held, fun report same => ?_⟩
      obtain ⟨store, rfl, files, kind, unreadable⟩ := refused report same
      exact .inr ⟨t.key, rfl, kind, stranded_of_advance tidy isOpen.live present advances files unreadable⟩

theorem chatTurn_refused {message : String} {reply : Reply} {r : Except Failure TurnResult} (tidy : s.Tidy)
    (done : (chatTurn p key message reply).out s = (r, after)) :
    after.Tidy ∧ (∀ told, r = .ok told → ∃ n, after.IsOpen key n) ∧
      ∀ report, r = .error (.reported report) → Refused (· = key) s report after := by
  unfold chatTurn at done
  obtain ⟨e, failed, rfl⟩ | ⟨t, mid, begun, rest⟩ := Act.out_bind_eq done
  · obtain ⟨steady, -⟩ := beginTurn_steady tidy failed
    exact ⟨steady.tidy, fun _ same => (nomatch same), fun _ _ => .inl steady.unchanged⟩
  · obtain ⟨first, begun⟩ := beginTurn_steady tidy begun
    obtain ⟨rfl, isOpen⟩ := begun t rfl
    obtain ⟨e, failed, rfl⟩ | ⟨received, last, taken, tail⟩ := Act.out_bind_eq rest
    · obtain ⟨second, -⟩ := receiveReply_steady first.tidy isOpen failed
      have steady := first.unchanged.trans second.unchanged
      exact ⟨second.tidy, fun _ same => (nomatch same), fun _ _ => .inl steady⟩
    · obtain ⟨second, isOpen⟩ := receiveReply_steady first.tidy isOpen taken
      cases received with
      | inl result =>
        cases tail
        exact ⟨second.tidy, fun _ _ => ⟨_, isOpen⟩, nofun⟩
      | inr plan =>
        obtain ⟨tidy, isOpen, refused⟩ := finishTurn_refused second.tidy isOpen tail
        exact ⟨tidy, fun told same => ⟨_, isOpen told same⟩, fun report same =>
          (refused report same).of_unchanged (first.unchanged.trans second.unchanged)⟩

/-- The conversation in an open session can be shown. -/
theorem conversation_out (isOpen : s.IsOpen key n) : ∃ said, (conversation key).out s = (.ok said, s) := by
  obtain ⟨live, session, present⟩ := isOpen
  have opened : (openSession key).out s = (.ok n, s) := by
    unfold openSession
    rw [Act.out_bind_of_ok Act.out_get, live]
    rfl
  refine ⟨session.conversation, ?_⟩
  unfold conversation
  rw [Act.out_bind_of_ok opened, Act.out_bind_of_ok (out_theSession present)]
  rfl

end Service

end Flowchart
