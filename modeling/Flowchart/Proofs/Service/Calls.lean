import Flowchart.Proofs.Assistant.Closing
import Flowchart.Proofs.Service.Books
import Flowchart.Proofs.Storage.Calls
import Flowchart.Service.Service

/-!
# Calls of the service

* `Service.slice`: what a service holds of one flowchart.
* `Service.written`: what a call has written to the file of a flowchart.
* The other theorems say, call by call, that the invariant `InStep` is kept with what the call has written
  and accepted, whether it has succeeded or failed.
-/

namespace Flowchart

namespace Service

variable {p : Planner} {key : DocumentKey} {s after : Service} {tickets : List Ticket} {books : Books}
  {last : Int × Document} {base : Option Int}

/-- What the service holds of a flowchart. -/
def slice (key : DocumentKey) (s : Service) : Slice where
  text? := s.store.text? key.owner key.id
  readings := s.store.readings
  live? := s.live? key
  timeline? n := (s.session? n).map Session.timeline
  opened := s.opened

/-- What was written to the file of a flowchart between two states: the version and the flowchart that
stand in it, if the clock was read for it. -/
def written (key : DocumentKey) (s after : Service) : Option (Int × Document) :=
  if after.store.readings = s.store.readings then none
  else (after.store.text? key.owner key.id).bind StoredDocument.stamp?

theorem readable_iff : (s.slice key).Readable ↔ ∃ back, s.store.Holds key.owner key.id back := by
  constructor
  · rintro ⟨text, now, back, file, parsed⟩
    obtain ⟨other, again⟩ := StoredDocument.parse_eq_ok_at parsed s.store.now
    exact ⟨other, text, file, again⟩
  · rintro ⟨back, text, file, parsed⟩
    exact ⟨text, _, back, file, parsed⟩

/-- The file holds what was written last. -/
theorem eq_last_of_holds (h : InStep key (s.slice key) tickets books last) {back : StoredDocument}
    (holds : s.store.Holds key.owner key.id back) :
    back.ownerId = key.owner ∧ back.id = key.id ∧ last = (back.version, back.document) ∧
      0 ≤ back.version ∧ back.document.Sound ∧ back.document.reread = back.document := by
  obtain ⟨text, file, parsed⟩ := holds
  obtain ⟨stored, rfl, ⟨sound, owner, id⟩, rfl⟩ := h.file text file
  obtain ⟨sameId, sameOwner, version, bound, document⟩ := StoredDocument.eq_of_parse_render sound parsed
  rw [document, version, sameOwner, sameId]
  exact ⟨owner, id, rfl, bound, sound.reread, Document.reread_reread _⟩

/-! ### Sessions -/

theorem session?_putSession {n : Nat} {old : Session} (present : s.session? n = some old) (new : Session)
    (m : Nat) : (s.putSession n new).session? m = if m = n then some new else s.session? m := by
  unfold session? at present
  unfold session? putSession
  rw [lookup_map_replace, present, Option.map_some]

theorem slice_putSession {n : Nat} {old : Session} (present : s.session? n = some old) (new : Session) :
    (s.putSession n new).slice key = (s.slice key).advance n new.timeline := by
  simp only [slice, Slice.advance, session?_putSession present]
  congr 1
  funext m
  split <;> rfl

theorem slice_putSession_of_timeline {n : Nat} {old : Session} (present : s.session? n = some old)
    (new : Session) (same : new.timeline = old.timeline) : (s.putSession n new).slice key = s.slice key := by
  rw [slice_putSession present, same]
  simp only [slice, Slice.advance]
  congr 1
  funext m
  split
  next here => rw [here, present, Option.map_some]
  next => rfl

theorem sound_of_session? (h : InStep key (s.slice key) tickets books last) {n : Nat} {session : Session}
    (present : s.session? n = some session) : session.timeline.current.Sound :=
  (h.numbered n _ (congrArg (Option.map Session.timeline) present)).2

/-- A session goes on without a new version. -/
theorem stay_inStep (h : InStep key (s.slice key) tickets books last) {n : Nat} {old : Session}
    (present : s.session? n = some old) (new : Session) (same : new.timeline = old.timeline) :
    InStep key ((s.putSession n new).slice key) tickets books last := by
  rw [slice_putSession_of_timeline present new same]
  exact h

/-- A session goes on by one version, which is still to be written back. -/
theorem advance_inStep (h : InStep key (s.slice key) tickets books last) {n : Nat} {old : Session}
    (present : s.session? n = some old) (new : Session) {d : Document}
    (advances : old.timeline.Advances new.timeline d) (sound : d.Sound) :
    InStep key ((s.putSession n new).slice key) (⟨n, old.timeline.latest, d⟩ :: tickets) books last := by
  rw [slice_putSession present]
  exact h.advance (congrArg (Option.map Session.timeline) present) advances sound

theorem slice_close : (s.close key).slice key = (s.slice key).close := by
  unfold close
  cases number : s.live? key with
  | none =>
    simp only [slice, Slice.close, number]
  | some n =>
    have closed (s : Service) : { s with live := s.live.filter fun entry => entry.1 ≠ key }.slice key =
        (s.slice key).close := by
      simp only [slice, Slice.close]
      congr 1
      unfold live?
      rw [List.lookup_eq_none_iff]
      intro entry mem
      simpa using Ne.symm (of_decide_eq_true (List.mem_filter.1 mem).2)
    dsimp only
    rw [closed]
    -- giving up its turn leaves the timeline of the session as it was
    cases present : s.session? n with
    | none => rfl
    | some session => exact congrArg Slice.close (slice_putSession_of_timeline present _ rfl)

theorem slice_enter {t : Timeline} {s : Service} :
    { s with
      sessions := (s.opened, { timeline := t }) :: s.sessions
      live := (key, s.opened) :: s.live
      opened := s.opened + 1 }.slice key = (s.slice key).enter t := by
  simp only [slice, Slice.enter, live?, session?, List.lookup_cons_self]
  congr 1
  funext m
  rw [List.lookup_cons]
  by_cases same : m = s.opened
  · simp [same]
  · simp [same, beq_eq_false_iff_ne.2 same]

theorem slice_restart (s : Service) :
    ({ store := s.store } : Service).slice key = (s.slice key).restart := rfl

theorem theSession_out {n : Nat} {r : Except Failure Session} (done : (theSession n).out s = (r, after)) :
    after = s ∧ ∀ session, r = .ok session → s.session? n = some session := by
  unfold theSession at done
  have done := Act.out_bind_eq_of_ok Act.out_get done
  split at done
  next session present =>
    cases done
    refine ⟨rfl, fun _ same => ?_⟩
    cases same
    exact present
  next =>
    cases done
    refine ⟨rfl, fun _ same => ?_⟩
    cases same

theorem out_theSession {n : Nat} {session : Session} (present : s.session? n = some session) :
    (theSession n).out s = (.ok session, s) := by
  unfold theSession
  rw [Act.out_bind_of_ok Act.out_get, present]
  rfl

theorem out_onSession {n : Nat} {session : Session} (present : s.session? n = some session) (act : Act Session α) :
    (onSession n act).out s = ((act.out session).1, s.putSession n (act.out session).2) := by
  unfold onSession
  rw [Act.out_bind_of_ok (out_theSession present)]
  dsimp only
  rw [Act.out_bind_of_ok Act.out_modify, Act.out_ofExcept]

/-- An action of a session runs on what the session is, and what it leaves takes the place of the session. -/
theorem onSession_out {n : Nat} {act : Act Session α} {r : Except Failure α}
    (done : (onSession n act).out s = (r, after)) :
    (∃ e, r = .error e ∧ after = s) ∨
      ∃ session new, s.session? n = some session ∧ act.out session = (r, new) ∧ after = s.putSession n new := by
  obtain ⟨e, refused, rfl⟩ | ⟨session, _, found, -⟩ := Act.out_bind_eq done
  · exact .inl ⟨e, rfl, (theSession_out refused).1⟩
  · obtain ⟨rfl, present⟩ := theSession_out found
    have present := present session rfl
    rw [out_onSession present] at done
    obtain ⟨rfl, rfl⟩ := Prod.mk.inj done
    exact .inr ⟨session, _, present, rfl, rfl⟩

/-- A session goes on without a new version if the action on it that has failed leaves its timeline as it was. -/
theorem onSession_failed (h : InStep key (s.slice key) tickets books last) {n : Nat} {act : Act Session α}
    (leaves : ∀ {e : Failure} {old new : Session}, act.out old = (.error e, new) → new.timeline = old.timeline)
    {e : Failure} (failed : (onSession n act).out s = (.error e, after)) :
    after.store = s.store ∧ InStep key (after.slice key) tickets books last := by
  obtain ⟨_, -, rfl⟩ | ⟨old, new, present, ran, rfl⟩ := onSession_out failed
  · exact ⟨rfl, h⟩
  · exact ⟨rfl, stay_inStep h present new (leaves ran)⟩

theorem onStore_out {act : Act Store α} {r : Except Failure α} (done : (onStore act).out s = (r, after)) :
    ∃ store, act.out s.store = (r, store) ∧ after = { s with store } := by
  cases done
  exact ⟨_, rfl, rfl⟩

theorem fetch_out {r : Except Failure StoredDocument} :
    (fetch key).out s = (r, after) → after = s ∧ match r with
      | .ok back => s.store.Holds key.owner key.id back
      | .error _ => ¬(s.slice key).Readable := by
  intro done
  unfold fetch at done
  rw [readable_iff, not_exists]
  obtain ⟨e, refused, rfl⟩ | ⟨found, mid, fetched, rest⟩ := Act.out_bind_eq done
  · obtain ⟨store, failed, rfl⟩ := onStore_out refused
    obtain ⟨rfl, missing⟩ := Store.fetch_out failed
    exact ⟨rfl, missing⟩
  · obtain ⟨store, found, rfl⟩ := onStore_out fetched
    obtain ⟨rfl, read⟩ := Store.fetch_out found
    split at rest
    next =>
      cases rest
      exact ⟨rfl, read⟩
    next =>
      cases rest
      exact ⟨rfl, read⟩

/-- A change of the file is made exactly if the file can be read. What is not given anew stays. -/
theorem storeUpdate_out (h : InStep key (s.slice key) tickets books last) {changes : StoredChanges}
    (sound : ∀ d, changes.document = some d → d.Sound) {r : Except Failure StoredDocument} :
    (onStore (Store.update key.owner key.id changes)).out s = (r, after) → match r with
      | .ok stored => (s.slice key).Readable ∧ stored.FiledUnder key ∧
          stored.document = changes.document.getD last.2 ∧ stored.version = changes.version.getD last.1 ∧
          last.2.reread = last.2 ∧ after.slice key = (s.slice key).write stored.render
      | .error _ => after = s ∧ ¬(s.slice key).Readable := by
  intro done
  obtain ⟨store, updated, rfl⟩ := onStore_out done
  have filed : ∀ back, s.store.Holds key.owner key.id back → back.ownerId = key.owner ∧ back.id = key.id :=
    fun back holds => ⟨(eq_last_of_holds h holds).1, (eq_last_of_holds h holds).2.1⟩
  have effect := Store.update_out filed updated
  cases r with
  | error e =>
    obtain ⟨rfl, missing⟩ := effect
    rw [readable_iff, not_exists]
    exact ⟨rfl, missing⟩
  | ok stored =>
    obtain ⟨back, holds, owner, id, document, version, file, readings⟩ := effect
    obtain ⟨-, -, rfl, -, soundBack, reread⟩ := eq_last_of_holds h holds
    refine ⟨readable_iff.2 ⟨back, holds⟩, ⟨?_, owner, id⟩, document, version, reread, ?_⟩
    · rw [document]
      cases given : changes.document with
      | none => exact soundBack
      | some d => exact sound d given
    · simp only [slice, Slice.write, file, readings]
      rfl

/-- What a call has written and accepted is noted in the books, and the invariant holds with that. -/
def Noted (key : DocumentKey) (s after : Service) (tickets : List Ticket) (books : Books)
    (accepted : Option Int) : Prop :=
  ∃ last, InStep key (after.slice key) tickets (books.note (written key s after) accepted) last

theorem noted_of_readings (h : InStep key (after.slice key) tickets (books.note none base) last)
    (same : after.store.readings = s.store.readings) : Noted key s after tickets books base := by
  refine ⟨last, ?_⟩
  rw [written, if_pos same]
  exact h

theorem noted_of_write {v : Slice} {stored : StoredDocument} (wrote : after.slice key = v)
    (file : v.text? = some stored.render) (readings : v.readings = s.store.readings + 1)
    (sound : stored.document.Sound)
    (h : InStep key v tickets (books.note (some (stored.version, stored.document.reread)) base) last) :
    Noted key s after tickets books base := by
  subst wrote
  have file : after.store.text? key.owner key.id = some stored.render := file
  have read : after.store.readings ≠ s.store.readings := by
    have readings : after.store.readings = s.store.readings + 1 := readings
    omega
  refine ⟨last, ?_⟩
  rw [written, if_neg read, file, Option.bind_some, StoredDocument.stamp?_render sound]
  exact h

/-- What was done before without writing does not count. -/
theorem Noted.of_readings {mid : Service} (noted : Noted key mid after tickets books base)
    (same : mid.store.readings = s.store.readings) : Noted key s after tickets books base := by
  obtain ⟨last, h⟩ := noted
  refine ⟨last, ?_⟩
  rw [written, ← same]
  exact h

/-! ### Calls without a turn -/

/-- Opening a session fails only if the file cannot be read. -/
theorem openSession_out (h : InStep key (s.slice key) tickets books last) {r : Except Failure Nat} :
    (openSession key).out s = (r, after) →
      after.store = s.store ∧ InStep key (after.slice key) tickets books last ∧ match r with
        | .ok n => after.live? key = some n
        | .error _ => ¬(s.slice key).Readable := by
  intro done
  unfold openSession at done
  have rest := Act.out_bind_eq_of_ok Act.out_get done
  split at rest
  next n number =>
    cases rest
    exact ⟨rfl, h, number⟩
  next closed =>
    obtain ⟨e, refused, rfl⟩ | ⟨back, mid, fetched, opened⟩ := Act.out_bind_eq rest
    · obtain ⟨rfl, missing⟩ := fetch_out refused
      exact ⟨rfl, h, missing⟩
    · obtain ⟨rfl, holds⟩ := fetch_out fetched
      obtain ⟨-, -, rfl, bound, -⟩ := eq_last_of_holds h holds
      -- versions that were written are not negative, so the timeline can be started
      have started : Timeline.start? back.document back.version =
          .ok (.start back.document back.version.toNat) := if_neg (by omega)
      rw [started] at opened
      cases opened
      obtain ⟨text, file, parsed⟩ := holds
      refine ⟨rfl, ?_, List.lookup_cons_self⟩
      rw [slice_enter]
      exact h.enter closed file parsed

/-- The latest version is asked for without changing anything. -/
theorem latestVersion_out (h : InStep key (s.slice key) tickets books last) {r : Except Failure Int} :
    (latestVersion key).out s = (r, after) →
      after = s ∧ ∀ latest, r = .ok latest → InStep.IsLatest (s.slice key) last latest := by
  intro done
  unfold latestVersion at done
  have rest := Act.out_bind_eq_of_ok Act.out_get done
  split at rest
  next session held =>
    obtain ⟨n, number, present⟩ := Option.bind_eq_some_iff.1 held
    cases rest
    refine ⟨rfl, fun latest same => ?_⟩
    cases same
    exact .inl ⟨n, session.timeline, ⟨number, congrArg (Option.map Session.timeline) present⟩, rfl⟩
  next missing =>
    obtain ⟨e, refused, rfl⟩ | ⟨back, mid, fetched, found⟩ := Act.out_bind_eq rest
    · exact ⟨(fetch_out refused).1, nofun⟩
    · obtain ⟨rfl, holds⟩ := fetch_out fetched
      obtain ⟨-, -, rfl, -⟩ := eq_last_of_holds h holds
      cases found
      refine ⟨rfl, fun latest same => ?_⟩
      cases same
      -- an open session has a timeline
      refine .inr ⟨?_, rfl⟩
      cases number : after.live? key with
      | none => exact number
      | some n =>
        obtain ⟨t, timeline⟩ := h.held n number
        obtain ⟨session, present, -⟩ := Option.map_eq_some_iff.1 timeline
        rw [number] at missing
        cases missing.symm.trans present

/-- What holds of every change holds of one that asks for the latest version before, to compare the base with it
and to number the change, if it also holds when it is refused there. -/
theorem versioned_of {C : Act Service α → Prop} {Q : Int → Prop} {change : Option Int → Act Service α}
    (asks : ∀ next : Int → Act Service α, (∀ latest, Q latest → C (next latest)) →
      C (latestVersion key >>= next))
    (refused : ∀ (e : Failure) (next : PUnit → Act Service α), C (throw e >>= next))
    (changes : ∀ version, (∀ latest, version = some (latest + 1) → Q latest) → C (change version))
    (base : Option Int) (replaces : Bool) : C (do
      let mut version := none
      if replaces = true ∨ base.isSome then
        let latest ← latestVersion key
        if let some base := base then
          if base ≠ latest then throw (TimelineError.stale base latest.toNat).failure
        if replaces then version := some (latest + 1)
      change version) := by
  dsimp only
  split
  · refine asks _ fun latest asked => ?_
    have numbered : C (if replaces = true then change (some (latest + 1)) else change none) := by
      split
      · refine changes _ fun other same => ?_
        obtain rfl : latest = other := by have := Option.some.inj same; omega
        exact asked
      · exact changes none nofun
    split
    next =>
      split
      · exact refused _ _
      · exact numbered
    next => exact numbered
  · exact changes none nofun

theorem requireValid_out {d : Document} {r : Except Failure Unit}
    (done : (requireValid p d).out s = (r, after)) : after = s := by
  unfold requireValid at done
  dsimp only at done
  split at done
  next =>
    cases done
    rfl
  next =>
    cases done
    rfl

/-- A flowchart is saved under its owner and a new id. -/
theorem save_out {owner name : String} {d : Document} {description : Option String} {stored : StoredDocument}
    (sound : d.Sound) (done : (save p owner name d description).out s = (.ok stored, after)) :
    after.store.text? owner stored.id = some stored.render ∧ stored.FiledUnder ⟨owner, stored.id⟩ ∧
      after.store.readings = s.store.readings + 1 ∧ after.sessions = s.sessions ∧ after.live = s.live ∧
      after.opened = s.opened := by
  unfold save at done
  obtain ⟨_, _, failed⟩ | ⟨_, _, valid, rest⟩ := Act.out_bind_eq done
  · cases failed
  · cases requireValid_out valid
    obtain ⟨_, _, failed⟩ | ⟨_, _, written, tail⟩ := Act.out_bind_eq rest
    · cases failed
    · obtain ⟨store, saved, rfl⟩ := onStore_out written
      cases tail
      obtain ⟨file, sameOwner, rfl, readings⟩ := Store.save_out saved
      exact ⟨file, ⟨sound, sameOwner, rfl⟩, readings, rfl, rfl, rfl⟩

/-- The version that a replaced flowchart is based on, if the call has named it and succeeded. -/
def replacedBase (base : Option Int) : Except Failure StoredDocument → Option Int
  | .ok _ => base
  | .error _ => none

/-- The rest of a replacement, once the latest version is known to be the one that the call has named. -/
theorem replace_noted {changes : StoredChanges} {d : Document} {latest : Int}
    {r : Except Failure StoredDocument} (h : InStep key (s.slice key) tickets books last) (sound : d.Sound)
    (document : changes.document = some d) (version : changes.version = some (latest + 1))
    (isLatest : InStep.IsLatest (s.slice key) last latest) (named : ∀ b ∈ base, b = latest)
    (done : (do
      let stored ← onStore (Store.update key.owner key.id changes)
      modify (close key)
      publish (.updated key)
      return stored : Act Service StoredDocument).out s = (r, after)) :
    Noted key s after tickets books (replacedBase base r) := by
  have given : ∀ other, changes.document = some other → other.Sound := fun other same =>
    Option.some.inj (document.symm.trans same) ▸ sound
  obtain ⟨e, failed, rfl⟩ | ⟨stored, mid, updated, rest⟩ := Act.out_bind_eq done
  · obtain ⟨rfl, -⟩ := storeUpdate_out h given failed
    exact noted_of_readings h rfl
  · obtain ⟨readable, filed, -, sameVersion, -, wrote⟩ := storeUpdate_out h given updated
    rw [version, Option.getD_some] at sameVersion
    cases rest
    have closed : (mid.close key).slice key = ((s.slice key).write stored.render).close := by
      rw [slice_close, wrote]
    exact noted_of_write closed rfl rfl filed.sound
      (h.replace readable isLatest filed sameVersion named)

theorem update_noted {name description : Option String} {d : Document}
    {r : Except Failure StoredDocument} (h : InStep key (s.slice key) tickets books last) (sound : d.Sound)
    (done : (update p key name (some d) description base).out s = (r, after)) :
    Noted key s after tickets books (replacedBase base r) := by
  unfold update at done
  simp only [Option.isSome, true_or, if_true] at done
  obtain ⟨e, refused, rfl⟩ | ⟨_, mid, valid, rest⟩ := Act.out_bind_eq done
  · cases requireValid_out refused
    exact noted_of_readings h rfl
  · cases requireValid_out valid
    obtain ⟨e, refused, rfl⟩ | ⟨latest, mid, found, tail⟩ := Act.out_bind_eq rest
    · obtain ⟨rfl, -⟩ := latestVersion_out h refused
      exact noted_of_readings h rfl
    · obtain ⟨rfl, isLatest⟩ := latestVersion_out h found
      have isLatest := isLatest latest rfl
      cases base with
      | none => exact replace_noted h sound rfl rfl isLatest nofun tail
      | some b =>
        dsimp only at tail
        split at tail
        next =>
          cases tail
          exact noted_of_readings h rfl
        next same =>
          refine replace_noted h sound rfl rfl isLatest (fun other mem => ?_) tail
          cases mem
          exact Decidable.not_not.1 same

/-- The rest of a change that does not replace the flowchart. -/
theorem rename_inStep {changes : StoredChanges} {r : Except Failure StoredDocument}
    (h : InStep key (s.slice key) tickets books last) (document : changes.document = none)
    (version : changes.version = none)
    (done : (do
      let stored ← onStore (Store.update key.owner key.id changes)
      publish (.updated key)
      return stored : Act Service StoredDocument).out s = (r, after)) :
    InStep key (after.slice key) tickets books last := by
  have given : ∀ other, changes.document = some other → other.Sound := fun other same => by
    cases document.symm.trans same
  obtain ⟨e, failed, rfl⟩ | ⟨stored, mid, updated, rest⟩ := Act.out_bind_eq done
  · obtain ⟨rfl, -⟩ := storeUpdate_out h given failed
    exact h
  · obtain ⟨readable, filed, sameDocument, sameVersion, reread, wrote⟩ := storeUpdate_out h given updated
    rw [document, Option.getD_none] at sameDocument
    rw [version, Option.getD_none] at sameVersion
    cases rest
    show InStep key (mid.slice key) tickets books last
    rw [wrote]
    refine h.rename readable filed ?_
    rw [sameVersion, sameDocument, reread]

theorem update_inStep {name description : Option String} {r : Except Failure StoredDocument}
    (h : InStep key (s.slice key) tickets books last)
    (done : (update p key name none description base).out s = (r, after)) :
    InStep key (after.slice key) tickets books last := by
  unfold update at done
  cases base with
  | none => exact rename_inStep h rfl rfl done
  | some b =>
    simp only [Option.isSome, or_true, if_true, Bool.false_eq_true, if_false] at done
    obtain ⟨e, refused, rfl⟩ | ⟨latest, mid, found, rest⟩ := Act.out_bind_eq done
    · obtain ⟨rfl, -⟩ := latestVersion_out h refused
      exact h
    · obtain ⟨rfl, -⟩ := latestVersion_out h found
      split at rest
      next =>
        cases rest
        exact h
      next => exact rename_inStep h rfl rfl rest

theorem delete_inStep {r : Except Failure Bool} (h : InStep key (s.slice key) tickets books last)
    (done : (delete key).out s = (r, after)) : InStep key (after.slice key) tickets books last := by
  unfold delete at done
  obtain ⟨e, refused, rfl⟩ | ⟨deleted, mid, erased, rest⟩ := Act.out_bind_eq done
  · obtain ⟨store, failed, rfl⟩ := onStore_out refused
    obtain ⟨-, -, same⟩ := Store.delete_out failed
    rw [same e rfl]
    exact h
  · obtain ⟨store, done, rfl⟩ := onStore_out erased
    obtain ⟨missing, readings, -⟩ := Store.delete_out done
    have gone : ({ s with store }.close key).slice key = (s.slice key).erase := by
      rw [slice_close]
      simp only [slice, Slice.close, Slice.erase, missing, readings]
      rfl
    have same : after.slice key = ({ s with store }.close key).slice key := by
      cases deleted <;> cases rest <;> rfl
    rw [same, gone]
    exact h.erase

/-! ### Batches -/

/-- A version is written back if its session is open and has not gone on since. The call fails only if the
file cannot be read; the version is lost then. -/
theorem writeBack_out {τ : Ticket} (h : InStep key (s.slice key) (τ :: tickets) books last)
    (live : s.live? key = some τ.serial) {r : Except Failure Unit} :
    (writeBack key τ.serial (some (τ.base + 1 : Int)) τ.document).out s = (r, after) → match r with
      | .ok _ => Noted key s after tickets books (some τ.base)
      | .error _ => after = s ∧ InStep key (s.slice key) tickets books last := by
  intro done
  obtain ⟨t, timeline⟩ := h.held _ live
  obtain ⟨session, present, rfl⟩ := Option.map_eq_some_iff.1 timeline
  have held : (s.slice key).Live τ.serial session.timeline := ⟨live, timeline⟩
  unfold writeBack at done
  have rest := Act.out_bind_eq_of_ok Act.out_get done
  simp only [live, present, Option.map_some, Option.some.injEq, true_and] at rest
  split at rest
  next newest =>
    have newest : τ.base + 1 = session.timeline.latest := by omega
    -- what is written back is what the session holds, hence sound
    obtain ⟨current, -⟩ := (h.ticketed _ _ held τ List.mem_cons_self rfl).2 newest
    have given : ∀ d, some τ.document = some d → d.Sound := fun d same => by
      cases same
      rw [current]
      exact (h.numbered _ _ timeline).2
    obtain ⟨e, failed, rfl⟩ | ⟨stored, mid, updated, tail⟩ := Act.out_bind_eq rest
    · obtain ⟨rfl, missing⟩ := storeUpdate_out h given failed
      exact ⟨rfl, h.drop (.inr missing)⟩
    · obtain ⟨readable, filed, document, version, -, wrote⟩ := storeUpdate_out h given updated
      cases tail
      refine noted_of_write wrote rfl rfl filed.sound (h.write held newest readable filed ?_ document)
      rw [version, Option.getD_some]
      omega
  next late =>
    cases rest
    exact noted_of_readings (h.supersede held (by omega)) rfl

/-- The version that a batch is based on, if it was committed. -/
def committedBase (base : Int) : Except Failure Outcome → Option Int
  | .ok o => if o.committed then some base else none
  | .error _ => none

/-- A batch may be committed to an open session if it is based on the latest version. -/
theorem beginCommit_out (h : InStep key (s.slice key) tickets books last) {base : Int}
    {r : Except Failure Nat} :
    (beginCommit key base).out s = (r, after) →
      after.store = s.store ∧ InStep key (after.slice key) tickets books last ∧
        ∀ n, r = .ok n → after.live? key = some n ∧
          ∀ session, after.session? n = some session → base = session.timeline.latest := by
  intro done
  unfold beginCommit at done
  obtain ⟨e, refused, rfl⟩ | ⟨n, mid, opened, rest⟩ := Act.out_bind_eq done
  · obtain ⟨same, kept, -⟩ := openSession_out h refused
    exact ⟨same, kept, nofun⟩
  · obtain ⟨same, kept, live⟩ := openSession_out h opened
    obtain ⟨e, refused, rfl⟩ | ⟨session, _, found, tail⟩ := Act.out_bind_eq rest
    · obtain ⟨rfl, -⟩ := theSession_out refused
      exact ⟨same, kept, nofun⟩
    · obtain ⟨rfl, present⟩ := theSession_out found
      obtain ⟨e, refused, rfl⟩ | ⟨_, _, checked, last⟩ := Act.out_bind_eq tail
      · obtain ⟨-, rfl⟩ := Act.ofExcept_out refused
        exact ⟨same, kept, nofun⟩
      · obtain ⟨based, rfl⟩ := Act.ofExcept_out checked
        cases last
        refine ⟨same, kept, fun m number => ?_⟩
        cases number
        refine ⟨live, fun other again => ?_⟩
        cases (present session rfl).symm.trans again
        exact Timeline.checkBase_eq_ok_iff.1 based

/-- While nothing is still to be written back, the version in the file is the one to base a batch on. -/
theorem beginCommit_accepts (h : InStep key (s.slice key) [] books last) (readable : (s.slice key).Readable) :
    ∃ n after, (beginCommit key last.1).out s = (.ok n, after) := by
  rcases opened : (openSession key).out s with ⟨r, mid⟩
  obtain ⟨same, kept, result⟩ := openSession_out h opened
  cases r with
  | error e => exact absurd readable result
  | ok n =>
    obtain ⟨t, timeline⟩ := kept.held n result
    obtain ⟨session, present, rfl⟩ := Option.map_eq_some_iff.1 timeline
    have still : (mid.slice key).Readable := by
      rw [readable_iff, same]
      exact readable_iff.1 readable
    -- a session that is open, before or since, is at the version in the file
    have newest := kept.eq_latest ⟨result, timeline⟩ still
    have based : (session.timeline.checkBase last.1).mapError TimelineError.failure = .ok () :=
      Timeline.checkBase_eq_ok_iff.2 (by rw [newest])
    refine ⟨n, mid, ?_⟩
    unfold beginCommit
    rw [Act.out_bind_of_ok opened, Act.out_bind_of_ok (out_theSession present), based]
    rfl

theorem finishCommit_noted (engine : p.engine.Sound) {n : Nat} {operations : List Operation}
    (each : ∀ operation ∈ operations, operation.Sound) {origin : String} {r : Except Failure Outcome}
    (h : InStep key (s.slice key) tickets books last) (live : s.live? key = some n) {base : Int}
    (based : ∀ session, s.session? n = some session → base = session.timeline.latest)
    (done : (finishCommit p key n operations origin).out s = (r, after)) :
    Noted key s after tickets books (committedBase base r) := by
  unfold finishCommit at done
  obtain ⟨e, refused, rfl⟩ | ⟨session, _, found, rest⟩ := Act.out_bind_eq done
  · obtain ⟨rfl, -⟩ := theSession_out refused
    exact noted_of_readings h rfl
  · obtain ⟨rfl, found⟩ := theSession_out found
    obtain ⟨e, refused, rfl⟩ | ⟨o, mid, committed, tail⟩ := Act.out_bind_eq rest
    · obtain ⟨same, kept⟩ := onSession_failed h
        (fun ran => Timeline.commit_eq_error (Session.onTimeline_out ran).1) refused
      exact noted_of_readings kept (congrArg Store.readings same)
    · obtain ⟨_, impossible, -⟩ | ⟨old, new, present, ran, rfl⟩ := onSession_out committed
      · cases impossible
      cases (found session rfl).symm.trans present
      cases based session present
      obtain ⟨-, made, applied, document, -, effect⟩ := Timeline.commit_eq_ok (Session.onTimeline_out ran).1
      split at tail
      next accepted =>
        rw [if_pos accepted] at effect
        obtain ⟨advances, version⟩ := effect
        have advanced := advance_inStep h present new advances
          (document ▸ engine (sound_of_session? h present) each applied)
        rw [version] at tail
        -- the new version is written back at once, or lost with a file that cannot be read
        obtain ⟨e, failed, rfl⟩ | ⟨_, _, written, told⟩ := Act.out_bind_eq tail
        · obtain ⟨rfl, kept⟩ := writeBack_out advanced live failed
          exact noted_of_readings kept rfl
        · cases told
          rw [committedBase, if_pos accepted]
          exact (writeBack_out advanced live written).of_readings rfl
      next rejected =>
        rw [if_neg rejected] at effect
        cases tail
        have kept := stay_inStep h present new effect
        rw [committedBase, if_neg rejected]
        exact noted_of_readings kept rfl

theorem commit_noted (engine : p.engine.Sound) {operations : List Operation}
    (each : ∀ operation ∈ operations, operation.Sound) {origin : String} {base : Int}
    {r : Except Failure Outcome} (h : InStep key (s.slice key) tickets books last)
    (done : (commit p key base operations origin).out s = (r, after)) :
    Noted key s after tickets books (committedBase base r) := by
  unfold commit at done
  obtain ⟨e, refused, rfl⟩ | ⟨n, mid, begun, rest⟩ := Act.out_bind_eq done
  · obtain ⟨same, kept, -⟩ := beginCommit_out h refused
    exact noted_of_readings kept (congrArg Store.readings same)
  · obtain ⟨same, kept, ready⟩ := beginCommit_out h begun
    obtain ⟨live, based⟩ := ready n rfl
    exact (finishCommit_noted engine each kept live based rest).of_readings (congrArg Store.readings same)

/-! ### Turns -/

/-- The version that a turn has made and that is still to be written back. -/
def SessionTurn.ticket? (t : SessionTurn) (result : TurnResult) : Option Ticket :=
  if result.applied then some ⟨t.serial, t.turn.base, result.document⟩ else none

theorem SessionTurn.ticket?_of_applied {t : SessionTurn} {result : TurnResult}
    (applied : result.applied = true) :
    t.ticket? result = some ⟨t.serial, t.turn.base, result.document⟩ :=
  if_pos applied

theorem SessionTurn.ticket?_of_not_applied {t : SessionTurn} {result : TurnResult}
    (rejected : result.applied = false) : t.ticket? result = none :=
  if_neg (ne_true_of_eq_false rejected)

/-- The version that a turn is based on, if it was applied. -/
def SessionTurn.appliedBase (t : SessionTurn) : Except Failure TurnResult → Option Int
  | .ok result => if result.applied then some (t.turn.base : Int) else none
  | .error _ => none

theorem beginTurn_inStep {message : String} {r : Except Failure SessionTurn}
    (h : InStep key (s.slice key) tickets books last)
    (done : (beginTurn p key message).out s = (r, after)) :
    InStep key (after.slice key) tickets books last ∧ ∀ t, r = .ok t → t.key = key := by
  unfold beginTurn at done
  obtain ⟨e, refused, rfl⟩ | ⟨n, mid, opened, rest⟩ := Act.out_bind_eq done
  · exact ⟨(openSession_out h refused).2.1, nofun⟩
  · obtain ⟨-, kept, -⟩ := openSession_out h opened
    obtain ⟨e, refused, rfl⟩ | ⟨session, _, found, tail⟩ := Act.out_bind_eq rest
    · obtain ⟨rfl, -⟩ := theSession_out refused
      exact ⟨kept, nofun⟩
    · obtain ⟨rfl, present⟩ := theSession_out found
      cases tail
      refine ⟨stay_inStep kept (present session rfl) session.cancel rfl, fun t same => ?_⟩
      cases same
      rfl

theorem settleTurn_of_not_applied {t : SessionTurn} {result : TurnResult} {r : Except Failure TurnResult}
    (rejected : result.applied = false) (h : InStep key (s.slice key) tickets books last)
    (done : (settleTurn t result).out s = (r, after)) :
    r = .ok result ∧ after.store = s.store ∧ InStep key (after.slice key) tickets books last := by
  unfold settleTurn at done
  simp only [rejected, Bool.false_eq_true, if_false] at done
  split at done
  next =>
    cases done
    exact ⟨rfl, rfl, h⟩
  next =>
    cases done
    exact ⟨rfl, rfl, h⟩

theorem settleTurn_noted {t : SessionTurn} {result : TurnResult} {r : Except Failure TurnResult}
    (h : InStep t.key (s.slice t.key) ((t.ticket? result).toList ++ tickets) books last)
    (version : result.applied = true → result.version = some (t.turn.base + 1 : Int))
    (done : (settleTurn t result).out s = (r, after)) :
    Noted t.key s after tickets books (t.appliedBase r) := by
  cases applied : result.applied with
  | false =>
    rw [SessionTurn.ticket?_of_not_applied applied] at h
    obtain ⟨rfl, same, kept⟩ := settleTurn_of_not_applied applied h done
    simp only [SessionTurn.appliedBase, applied, Bool.false_eq_true, if_false]
    exact noted_of_readings kept (congrArg Store.readings same)
  | true =>
    rw [SessionTurn.ticket?_of_applied applied] at h
    unfold settleTurn at done
    simp only [applied, if_true] at done
    have rest := Act.out_bind_eq_of_ok Act.out_get done
    split at rest
    next replaced =>
      -- the session was closed meanwhile, so the version is not to be written back any more
      have kept := h.drop (.inl replaced)
      obtain ⟨e, refused, rfl⟩ | ⟨found, mid, fetched, tail⟩ := Act.out_bind_eq rest
      · obtain ⟨store, failed, rfl⟩ := onStore_out refused
        obtain ⟨rfl, -⟩ := Store.fetch_out failed
        exact noted_of_readings kept rfl
      · obtain ⟨store, done, rfl⟩ := onStore_out fetched
        obtain ⟨rfl, -⟩ := Store.fetch_out done
        cases found with
        | none =>
          cases tail
          exact noted_of_readings kept rfl
        | some stored =>
          cases tail
          exact noted_of_readings kept rfl
    next live =>
      have live := Decidable.not_not.1 live
      rw [version applied] at rest
      obtain ⟨e, failed, rfl⟩ | ⟨_, _, written, tail⟩ := Act.out_bind_eq rest
      · obtain ⟨rfl, kept⟩ := writeBack_out h live failed
        exact noted_of_readings kept rfl
      · have noted := writeBack_out h live written
        cases discarded : result.discarded with
        | true =>
          rw [discarded] at tail
          cases tail
          rw [SessionTurn.appliedBase, if_pos applied]
          exact noted
        | false =>
          rw [discarded] at tail
          cases tail
          rw [SessionTurn.appliedBase, if_pos applied]
          exact noted

/-- Taking a reply. What is still to be committed is a batch of sound operations. -/
theorem receiveReply_inStep {t : SessionTurn} {reply : Reply} {r : Except Failure (TurnResult ⊕ Plan)}
    (h : InStep key (s.slice key) tickets books last)
    (done : (receiveReply p t reply).out s = (r, after)) :
    InStep key (after.slice key) tickets books last ∧
      ∀ plan, r = .ok (.inr plan) → ∀ operation ∈ plan.operations, operation.Sound := by
  unfold receiveReply at done
  obtain ⟨e, refused, rfl⟩ | ⟨answered, mid, taken, rest⟩ := Act.out_bind_eq done
  · exact ⟨(onSession_failed h (fun ran => congrArg _ (Session.answer_eq_error ran)) refused).2, nofun⟩
  · obtain ⟨_, impossible, -⟩ | ⟨old, new, present, ran, rfl⟩ := onSession_out taken
    · cases impossible
    cases answered with
    | inr plan =>
      cases rest
      obtain ⟨rfl, -, each⟩ := Session.answer_eq_batch ran
      refine ⟨stay_inStep h present new rfl, fun other same => ?_⟩
      cases same
      exact each
    | inl result =>
      -- a turn without a batch leaves the timeline as it was and ends here
      obtain ⟨same, -, rejected⟩ := Session.answer_eq_done ran
      have kept := stay_inStep h present new same
      obtain ⟨e, refused, rfl⟩ | ⟨_, _, told, last⟩ := Act.out_bind_eq rest
      · exact ⟨(settleTurn_of_not_applied rejected kept refused).2.2, nofun⟩
      · cases last
        exact ⟨(settleTurn_of_not_applied rejected kept told).2.2, nofun⟩

/-- Committing the batch of a turn. A version that it makes is still to be written back. -/
theorem concludeTurn_inStep (engine : p.engine.Sound) {t : SessionTurn} {plan : Plan}
    (each : ∀ operation ∈ plan.operations, operation.Sound) {r : Except Failure TurnResult}
    (h : InStep key (s.slice key) tickets books last) :
    (concludeTurn p t plan).out s = (r, after) → match r with
      | .ok result => InStep key (after.slice key) ((t.ticket? result).toList ++ tickets) books last ∧
          (result.applied = true → result.version = some (t.turn.base + 1 : Int))
      | .error _ => InStep key (after.slice key) tickets books last := by
  intro done
  unfold concludeTurn at done
  cases r with
  | error e => exact (onSession_failed h (fun ran => congrArg _ (Session.resolve_eq_error ran)) done).2
  | ok result =>
    obtain ⟨_, impossible, -⟩ | ⟨old, new, present, ran, rfl⟩ := onSession_out done
    · cases impossible
    dsimp only
    obtain ⟨same, rejected⟩ | ⟨based, applied, advances, version, made, settled, document⟩ :=
      Session.resolve_eq_ok ran
    · rw [SessionTurn.ticket?_of_not_applied rejected]
      refine ⟨stay_inStep h present new same, fun applied => ?_⟩
      rw [rejected] at applied
      cases applied
    · have sound : result.document.Sound := document ▸ engine (sound_of_session? h present) each settled
      rw [SessionTurn.ticket?_of_applied applied, based]
      exact ⟨advance_inStep h present new advances sound, fun _ => based ▸ version⟩

end Service

end Flowchart
