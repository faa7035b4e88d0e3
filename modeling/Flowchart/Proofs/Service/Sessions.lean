import Flowchart.Proofs.Service.Calls

/-!
# What calls leave of the sessions of a flowchart

* `Service.Undisturbed`: what is left by a step that only concerns the file.
* `Service.Follows`: what is left by a call that neither closes a session nor makes or removes a file. The
  theorems `Service.*_follows` say so of the calls, whether they succeed or fail.
* `Service.Closes`: what is left by a call that replaces or deletes the flowchart.
* `Service.beginTurn_out`: a turn overtakes those that were begun before it in its session.
-/

namespace Flowchart

namespace Service

variable {p : Planner} {key : DocumentKey} {s mid after : Service} {tickets : List Ticket} {books : Books}
  {last : Int × Document}

/-- There is a file for the flowchart. -/
def IsStored (key : DocumentKey) (s : Service) : Prop := (s.store.text? key.owner key.id).isSome = true

theorem isStored_of_holds {back : StoredDocument} (holds : s.store.Holds key.owner key.id back) :
    s.IsStored key := by
  obtain ⟨text, file, -⟩ := holds
  exact Option.isSome_iff_exists.2 ⟨text, file⟩

theorem isStored_of_readable (readable : (s.slice key).Readable) : s.IsStored key :=
  have ⟨_, holds⟩ := readable_iff.1 readable
  isStored_of_holds holds

/-- What is read from the file of the flowchart bears its owner and its id. -/
def Owned (key : DocumentKey) (s : Service) : Prop :=
  ∀ back, s.store.Holds key.owner key.id back → back.ownerId = key.owner ∧ back.id = key.id

theorem owned_of_inStep (h : InStep key (s.slice key) tickets books last) : s.Owned key :=
  fun _ holds => ⟨(eq_last_of_holds h holds).1, (eq_last_of_holds h holds).2.1⟩

theorem owned_onSession (owned : s.Owned key) {n : Nat} {act : Act Session α} {r : Except Failure α}
    (done : (onSession n act).out s = (r, after)) : after.Owned key := by
  obtain ⟨_, -, rfl⟩ | ⟨_, _, -, -, rfl⟩ := onSession_out done
  · exact owned
  · exact owned

/-! ### Steps that only concern the file -/

/-- The sessions are as they were, and the flowchart has a file if it had one. -/
structure Undisturbed (key : DocumentKey) (s after : Service) : Prop where
  sessions : after.sessions = s.sessions
  live : after.live = s.live
  stored : after.IsStored key ↔ s.IsStored key

namespace Undisturbed

theorem refl (key : DocumentKey) (s : Service) : Undisturbed key s s := ⟨rfl, rfl, Iff.rfl⟩

theorem publish (same : Undisturbed key s after) (e : Event) :
    Undisturbed key s { after with events := after.events ++ [e] } := ⟨same.sessions, same.live, same.stored⟩

theorem session? (same : Undisturbed key s after) (n : Nat) : after.session? n = s.session? n := by
  rw [Service.session?, Service.session?, same.sessions]

theorem live? (same : Undisturbed key s after) : after.live? key = s.live? key := by
  rw [Service.live?, Service.live?, same.live]

end Undisturbed

theorem storeUpdate_undisturbed (owned : s.Owned key) {changes : StoredChanges}
    {r : Except Failure StoredDocument}
    (done : (onStore (Store.update key.owner key.id changes)).out s = (r, after)) :
    Undisturbed key s after := by
  obtain ⟨store, updated, rfl⟩ := onStore_out done
  refine ⟨rfl, rfl, ?_⟩
  have effect := Store.update_out owned updated
  cases r with
  | error e =>
    obtain ⟨rfl, -⟩ := effect
    exact Iff.rfl
  | ok stored =>
    obtain ⟨back, holds, -, -, -, -, file, -⟩ := effect
    exact iff_of_true (Option.isSome_iff_exists.2 ⟨_, file⟩) (isStored_of_holds holds)

theorem writeBack_undisturbed (owned : s.Owned key) {serial : Nat} {version : Option Int} {d : Document}
    {r : Except Failure Unit} (done : (writeBack key serial version d).out s = (r, after)) :
    Undisturbed key s after := by
  unfold writeBack at done
  have rest := Act.out_bind_eq_of_ok Act.out_get done
  dsimp only at rest
  split at rest
  next =>
    obtain ⟨e, failed, rfl⟩ | ⟨_, _, written, tail⟩ := Act.out_bind_eq rest
    · exact storeUpdate_undisturbed owned failed
    · cases tail
      exact storeUpdate_undisturbed owned written
  next =>
    cases rest
    exact .refl key s

/-- A turn that has applied nothing, or whose session is open, is told as it is. -/
theorem settleTurn_told {t : SessionTurn} {result told : TurnResult}
    (current : result.applied = true → s.live? t.key = some t.serial)
    (done : (settleTurn t result).out s = (.ok told, after)) : told = result := by
  have tells {now : Service} (done : (do
      if !result.discarded then publish (.chatTurn result (some t.key))
      return result : Act Service TurnResult).out now = (.ok told, after)) : told = result := by
    dsimp only at done
    split at done <;> cases done <;> rfl
  unfold settleTurn at done
  dsimp only at done
  split at done
  next applied =>
    have rest := Act.out_bind_eq_of_ok Act.out_get done
    rw [if_neg (not_not.2 (current applied))] at rest
    obtain ⟨_, _, failed⟩ | ⟨_, _, _, tail⟩ := Act.out_bind_eq rest
    · cases failed
    · exact tells tail
  next => exact tells done

theorem settleTurn_undisturbed {t : SessionTurn} {result : TurnResult} (owned : s.Owned t.key)
    (current : result.applied = true → s.live? t.key = some t.serial) {r : Except Failure TurnResult}
    (done : (settleTurn t result).out s = (r, after)) : Undisturbed t.key s after := by
  have tells {now : Service} (same : Undisturbed t.key s now) (done : (do
      if !result.discarded then publish (.chatTurn result (some t.key))
      return result : Act Service TurnResult).out now = (r, after)) : Undisturbed t.key s after := by
    dsimp only at done
    split at done <;> cases done
    · exact same.publish _
    · exact same
  unfold settleTurn at done
  dsimp only at done
  split at done
  next applied =>
    have rest := Act.out_bind_eq_of_ok Act.out_get done
    rw [if_neg (not_not.2 (current applied))] at rest
    obtain ⟨e, failed, rfl⟩ | ⟨_, _, written, tail⟩ := Act.out_bind_eq rest
    · exact writeBack_undisturbed owned failed
    · exact tells (writeBack_undisturbed owned written) tail
  next => exact tells (.refl _ _) done

/-! ### Calls that close no session -/

/-- A service is followed by another one in which all its sessions are left, the open one is still open, and
only open sessions are new or have new versions. -/
structure Follows (key : DocumentKey) (s after : Service) : Prop where
  session : ∀ n old, s.session? n = some old → ∃ new, after.session? n = some new ∧
    old.generation ≤ new.generation ∧ (after.live? key ≠ some n → new.timeline = old.timeline)
  live : ∀ n, s.live? key = some n → after.live? key = some n
  opened : ∀ n new, after.session? n = some new →
    (∃ old, s.session? n = some old) ∨ after.live? key = some n
  stored : after.IsStored key ↔ s.IsStored key
  /-- A session is only opened on a file. -/
  present : ∀ n, after.live? key = some n → s.live? key = some n ∨ s.IsStored key

theorem Undisturbed.follows (same : Undisturbed key s after) : Follows key s after where
  session n old present := ⟨old, (same.session? n).trans present, le_rfl, fun _ => rfl⟩
  live _ number := same.live?.trans number
  opened n new present := .inl ⟨new, (same.session? n).symm.trans present⟩
  stored := same.stored
  present _ number := .inl (same.live?.symm.trans number)

namespace Follows

theorem refl (key : DocumentKey) (s : Service) : Follows key s s := (Undisturbed.refl key s).follows

theorem trans (first : Follows key s mid) (second : Follows key mid after) : Follows key s after where
  session n old present := by
    obtain ⟨between, present, before, stays⟩ := first.session n old present
    obtain ⟨new, present, since, stayed⟩ := second.session n between present
    refine ⟨new, present, before.trans since, fun closed => ?_⟩
    -- what is closed at the end was closed in between
    exact (stayed closed).trans (stays fun number => closed (second.live n number))
  live n number := second.live n (first.live n number)
  opened n new present := by
    obtain ⟨between, present⟩ | number := second.opened n new present
    · exact (first.opened n between present).imp_right (second.live n)
    · exact .inr number
  stored := second.stored.trans first.stored
  present n number := by
    obtain number | stored := second.present n number
    · exact first.present n number
    · exact .inr (first.stored.1 stored)

end Follows

theorem putSession_follows (key : DocumentKey) {n : Nat} {old : Session} (present : s.session? n = some old)
    (new : Session) (generation : old.generation ≤ new.generation)
    (stays : s.live? key ≠ some n → new.timeline = old.timeline) : Follows key s (s.putSession n new) where
  session m other found := by
    rw [session?_putSession present]
    split
    next same =>
      cases same
      cases present.symm.trans found
      exact ⟨new, rfl, generation, stays⟩
    next => exact ⟨other, found, le_rfl, fun _ => rfl⟩
  live _ number := number
  opened m other found := by
    rw [session?_putSession present] at found
    split at found
    next same => exact .inl ⟨old, same ▸ present⟩
    next => exact .inl ⟨other, found⟩
  stored := Iff.rfl
  present _ number := .inl number

theorem openSession_follows (h : InStep key (s.slice key) tickets books last) {r : Except Failure Nat}
    (done : (openSession key).out s = (r, after)) : Follows key s after := by
  unfold openSession at done
  have rest := Act.out_bind_eq_of_ok Act.out_get done
  split at rest
  next =>
    cases rest
    exact .refl key s
  next closed =>
    obtain ⟨e, refused, rfl⟩ | ⟨back, mid, fetched, opened⟩ := Act.out_bind_eq rest
    · obtain ⟨rfl, -⟩ := fetch_out refused
      exact .refl key after
    · obtain ⟨rfl, holds⟩ := fetch_out fetched
      obtain ⟨e, refused, rfl⟩ | ⟨t, _, started, tail⟩ := Act.out_bind_eq opened
      · obtain ⟨-, rfl⟩ := Act.ofExcept_out refused
        exact .refl key _
      · obtain ⟨-, rfl⟩ := Act.ofExcept_out started
        cases tail
        have found (n : Nat) : session? { mid with
              sessions := (mid.opened, { timeline := t }) :: mid.sessions
              live := (key, mid.opened) :: mid.live
              opened := mid.opened + 1 } n =
            if n = mid.opened then some { timeline := t } else mid.session? n := by
          rw [session?, List.lookup_cons]
          by_cases same : n = mid.opened
          · simp [same]
          · simp [same, beq_eq_false_iff_ne.2 same, session?]
        refine
          { session := fun n old present => ?_
            live := fun n number => ?_
            opened := fun n new present => ?_
            stored := Iff.rfl
            present := fun _ _ => .inr (isStored_of_holds holds) }
        · -- the number of the new session was not given out before
          have given : n < mid.opened := (h.numbered n _ (congrArg (Option.map Session.timeline) present)).1
          rw [found, if_neg given.ne]
          exact ⟨old, present, le_rfl, fun _ => rfl⟩
        · cases closed.symm.trans number
        · rw [found] at present
          split at present
          next same => exact .inr (same ▸ List.lookup_cons_self)
          next => exact .inl ⟨new, present⟩

/-- What is done in the open session, or without a new version, closes no session. -/
theorem onSession_follows {n : Nat} {act : Act Session α}
    (goesOn : ∀ {r : Except Failure α} {old new : Session}, act.out old = (r, new) →
      old.generation ≤ new.generation ∧ (s.live? key ≠ some n → new.timeline = old.timeline))
    {r : Except Failure α} (done : (onSession n act).out s = (r, after)) : Follows key s after := by
  obtain ⟨_, -, rfl⟩ | ⟨old, new, present, ran, rfl⟩ := onSession_out done
  · exact .refl key _
  · obtain ⟨generation, stays⟩ := goesOn ran
    exact putSession_follows key present new generation stays

theorem finishCommit_follows (owned : s.Owned key) {n : Nat} (live : s.live? key = some n)
    {operations : List Operation} {origin : String} {r : Except Failure Outcome}
    (done : (finishCommit p key n operations origin).out s = (r, after)) : Follows key s after := by
  have goesOn {base : Int} {r : Except Failure Outcome} {old new : Session}
      (ran : (Session.onTimeline (Timeline.commit p.engine base operations origin)).out old = (r, new)) :
      old.generation ≤ new.generation ∧ (s.live? key ≠ some n → new.timeline = old.timeline) := by
    rw [(Session.onTimeline_out ran).2]
    exact ⟨le_rfl, fun closed => absurd live closed⟩
  unfold finishCommit at done
  obtain ⟨e, refused, rfl⟩ | ⟨session, _, found, rest⟩ := Act.out_bind_eq done
  · obtain ⟨rfl, -⟩ := theSession_out refused
    exact .refl key _
  · obtain ⟨rfl, -⟩ := theSession_out found
    obtain ⟨e, refused, rfl⟩ | ⟨o, mid, committed, tail⟩ := Act.out_bind_eq rest
    · exact onSession_follows goesOn refused
    · have put := onSession_follows goesOn committed
      have owned : mid.Owned key := owned_onSession owned committed
      split at tail
      next =>
        obtain ⟨e, failed, rfl⟩ | ⟨_, _, written, told⟩ := Act.out_bind_eq tail
        · exact put.trans (writeBack_undisturbed owned failed).follows
        · have same := writeBack_undisturbed owned written
          cases told
          exact put.trans (same.publish _).follows
      next =>
        cases tail
        exact put.trans ((Undisturbed.refl key _).publish _).follows

theorem beginCommit_follows (h : InStep key (s.slice key) tickets books last) {base : Int}
    {r : Except Failure Nat} (done : (beginCommit key base).out s = (r, after)) : Follows key s after := by
  unfold beginCommit at done
  obtain ⟨e, refused, rfl⟩ | ⟨n, mid, opened, rest⟩ := Act.out_bind_eq done
  · exact openSession_follows h refused
  · have follows := openSession_follows h opened
    obtain ⟨e, refused, rfl⟩ | ⟨session, _, found, tail⟩ := Act.out_bind_eq rest
    · obtain ⟨rfl, -⟩ := theSession_out refused
      exact follows
    · obtain ⟨rfl, -⟩ := theSession_out found
      obtain ⟨e, refused, rfl⟩ | ⟨_, _, checked, last⟩ := Act.out_bind_eq tail
      · obtain ⟨-, rfl⟩ := Act.ofExcept_out refused
        exact follows
      · obtain ⟨-, rfl⟩ := Act.ofExcept_out checked
        cases last
        exact follows

theorem commit_follows (h : InStep key (s.slice key) tickets books last) {operations : List Operation}
    {origin : String} {base : Int} {r : Except Failure Outcome}
    (done : (commit p key base operations origin).out s = (r, after)) : Follows key s after := by
  unfold commit at done
  obtain ⟨e, refused, rfl⟩ | ⟨n, mid, begun, rest⟩ := Act.out_bind_eq done
  · exact beginCommit_follows h refused
  · obtain ⟨-, kept, ready⟩ := beginCommit_out h begun
    exact (beginCommit_follows h begun).trans
      (finishCommit_follows (owned_of_inStep kept) (ready n rfl).1 rest)

theorem update_follows (h : InStep key (s.slice key) tickets books last) {name description : Option String}
    {base : Option Int} {r : Except Failure StoredDocument}
    (done : (update p key name none description base).out s = (r, after)) : Follows key s after := by
  have renamed {changes : StoredChanges} {r : Except Failure StoredDocument}
      (done : (do
        let stored ← onStore (Store.update key.owner key.id changes)
        publish (.updated key)
        return stored : Act Service StoredDocument).out s = (r, after)) : Follows key s after := by
    obtain ⟨e, failed, rfl⟩ | ⟨stored, mid, updated, rest⟩ := Act.out_bind_eq done
    · exact (storeUpdate_undisturbed (owned_of_inStep h) failed).follows
    · have same := storeUpdate_undisturbed (owned_of_inStep h) updated
      cases rest
      exact (same.publish _).follows
  unfold update at done
  cases base with
  | none => exact renamed done
  | some b =>
    simp only [Option.isSome, or_true, if_true, Bool.false_eq_true, if_false] at done
    obtain ⟨e, refused, rfl⟩ | ⟨latest, mid, found, rest⟩ := Act.out_bind_eq done
    · obtain ⟨rfl, -⟩ := latestVersion_out h refused
      exact .refl key _
    · obtain ⟨rfl, -⟩ := latestVersion_out h found
      split at rest
      next =>
        cases rest
        exact .refl key _
      next => exact renamed rest

/-! ### Turns -/

theorem beginTurn_follows (h : InStep key (s.slice key) tickets books last) {message : String}
    {r : Except Failure SessionTurn} (done : (beginTurn p key message).out s = (r, after)) :
    Follows key s after := by
  unfold beginTurn at done
  obtain ⟨e, refused, rfl⟩ | ⟨n, mid, opened, rest⟩ := Act.out_bind_eq done
  · exact openSession_follows h refused
  · have follows := openSession_follows h opened
    obtain ⟨e, refused, rfl⟩ | ⟨session, _, found, tail⟩ := Act.out_bind_eq rest
    · obtain ⟨rfl, -⟩ := theSession_out refused
      exact follows
    · obtain ⟨rfl, present⟩ := theSession_out found
      cases tail
      exact follows.trans (putSession_follows key (present session rfl) _ (Nat.le_succ _) fun _ => rfl)

/-- A turn begins in the open session, and overtakes all that were begun there before it. -/
theorem beginTurn_out (h : InStep key (s.slice key) tickets books last) {message : String} {t : SessionTurn}
    (done : (beginTurn p key message).out s = (.ok t, after)) :
    t.key = key ∧ after.store = s.store ∧ after.live? key = some t.serial ∧
      (∃ session, after.session? t.serial = some session ∧ t.turn.generation = session.generation) ∧
      ∀ old, s.session? t.serial = some old → old.generation < t.turn.generation := by
  unfold beginTurn at done
  obtain ⟨_, _, failed⟩ | ⟨n, mid, opened, rest⟩ := Act.out_bind_eq done
  · cases failed
  · obtain ⟨store, -, live⟩ := openSession_out h opened
    have follows := openSession_follows h opened
    obtain ⟨_, _, failed⟩ | ⟨session, _, found, tail⟩ := Act.out_bind_eq rest
    · cases failed
    · obtain ⟨rfl, present⟩ := theSession_out found
      have present := present session rfl
      cases tail
      refine ⟨rfl, store, live, ⟨session.cancel, ?_, rfl⟩, fun old before => ?_⟩
      · exact (session?_putSession present _ _).trans (if_pos rfl)
      · obtain ⟨new, again, since, -⟩ := follows.session n old before
        cases present.symm.trans again
        exact Nat.lt_succ_of_le since

/-- A turn may begin if the file can be read. -/
theorem beginTurn_accepts (h : InStep key (s.slice key) tickets books last) (readable : (s.slice key).Readable)
    (message : String) : ∃ t after, (beginTurn p key message).out s = (.ok t, after) := by
  rcases opened : (openSession key).out s with ⟨r, mid⟩
  obtain ⟨-, kept, result⟩ := openSession_out h opened
  cases r with
  | error e => exact absurd readable result
  | ok n =>
    obtain ⟨t, timeline⟩ := kept.held n result
    obtain ⟨session, present, -⟩ := Option.map_eq_some_iff.1 timeline
    refine ⟨⟨key, n, (session.begin p message).2⟩, mid.putSession n (session.begin p message).1, ?_⟩
    unfold beginTurn
    rw [Act.out_bind_of_ok opened, Act.out_bind_of_ok (out_theSession present)]
    rfl

/-! ### Calls that close a session -/

/-- The session of a flowchart is closed and its turn given up; all versions stay. -/
structure Closes (key : DocumentKey) (s after : Service) : Prop where
  live : after.live? key = none
  session : ∀ n old, s.session? n = some old → ∃ new, after.session? n = some new ∧
    new.timeline = old.timeline ∧ old.generation ≤ new.generation ∧
      (s.live? key = some n → old.generation < new.generation)
  opened : ∀ n new, after.session? n = some new → ∃ old, s.session? n = some old

/-- The session that is closed stays under its number, with its turn given up. -/
theorem session?_close (key : DocumentKey) (s : Service) (n : Nat) :
    (s.close key).session? n = if s.live? key = some n then (s.session? n).map Session.cancel else s.session? n := by
  cases number : s.live? key with
  | none => simp only [close, number, reduceCtorEq, if_false]
  | some m =>
    simp only [close, number, Option.some.injEq]
    cases present : s.session? m with
    | none =>
      show s.session? n = _
      by_cases same : m = n
      · rw [if_pos same, ← same, present, Option.map_none]
      · rw [if_neg same]
    | some session =>
      refine (session?_putSession present session.cancel n).trans ?_
      by_cases same : m = n
      · rw [if_pos same.symm, if_pos same, ← same, present, Option.map_some]
      · rw [if_neg (Ne.symm same), if_neg same]

theorem live?_close (key other : DocumentKey) (s : Service) :
    (s.close key).live? other = if other = key then none else s.live? other := by
  cases number : s.live? key with
  | none =>
    simp only [close, number]
    split
    next same => exact same ▸ number
    next => rfl
  | some n =>
    simp only [close, number]
    cases s.session? n <;> exact lookup_filter_ne s.live key other

theorem close_closes (key : DocumentKey) (s : Service) : Closes key s (s.close key) where
  live := (live?_close key key s).trans (if_pos rfl)
  session n old present := by
    rw [session?_close]
    by_cases here : s.live? key = some n
    · rw [if_pos here, present, Option.map_some]
      exact ⟨old.cancel, rfl, rfl, Nat.le_succ _, fun _ => Nat.lt_succ_self _⟩
    · rw [if_neg here]
      exact ⟨old, present, rfl, le_rfl, fun same => absurd same here⟩
  opened n new present := by
    rw [session?_close] at present
    split at present
    · obtain ⟨old, before, -⟩ := Option.map_eq_some_iff.1 present
      exact ⟨old, before⟩
    · exact ⟨new, present⟩

/-- A flowchart that is deleted has no file and no open session. If that fails nothing is done. -/
theorem delete_closes {r : Except Failure Bool} (done : (delete key).out s = (r, after)) :
    after = s ∨ Closes key s after ∧ ¬after.IsStored key := by
  unfold delete at done
  obtain ⟨e, refused, rfl⟩ | ⟨deleted, mid, erased, rest⟩ := Act.out_bind_eq done
  · obtain ⟨store, failed, rfl⟩ := onStore_out refused
    obtain ⟨-, -, same⟩ := Store.delete_out failed
    rw [same e rfl]
    exact .inl rfl
  · obtain ⟨store, done, rfl⟩ := onStore_out erased
    obtain ⟨missing, -, -⟩ := Store.delete_out done
    have closes := close_closes key { s with store }
    have left : (({ s with store } : Service).close key).store = store := by
      unfold close
      split
      · rfl
      · dsimp only
        split <;> rfl
    have gone : ¬({ s with store }.close key).IsStored key := by
      rw [IsStored, left, missing]
      exact Bool.false_ne_true
    cases deleted <;> cases rest <;> exact .inr ⟨⟨closes.live, closes.session, closes.opened⟩, gone⟩

/-- A flowchart that is replaced is stored as the version after the latest, and its session is closed. If
that fails nothing is done. -/
theorem update_closes (h : InStep key (s.slice key) tickets books last) {name description : Option String}
    {d : Document} (sound : d.Sound) {base : Option Int} {r : Except Failure StoredDocument}
    (done : (update p key name (some d) description base).out s = (r, after)) :
    after = s ∨ Closes key s after ∧ (s.slice key).Readable ∧ ∃ latest, ∃ stored : StoredDocument,
      InStep.IsLatest (s.slice key) last latest ∧ stored.version = latest + 1 ∧ stored.document.Sound ∧
        after.store.text? key.owner key.id = some stored.render := by
  have replaced {changes : StoredChanges} {latest : Int} {r : Except Failure StoredDocument}
      (document : changes.document = some d) (version : changes.version = some (latest + 1))
      (isLatest : InStep.IsLatest (s.slice key) last latest)
      (done : (do
        let stored ← onStore (Store.update key.owner key.id changes)
        modify (close key)
        publish (.updated key)
        return stored : Act Service StoredDocument).out s = (r, after)) :
      after = s ∨ Closes key s after ∧ (s.slice key).Readable ∧ ∃ latest, ∃ stored : StoredDocument,
        InStep.IsLatest (s.slice key) last latest ∧ stored.version = latest + 1 ∧ stored.document.Sound ∧
          after.store.text? key.owner key.id = some stored.render := by
    have given : ∀ other, changes.document = some other → other.Sound := fun other same =>
      Option.some.inj (document.symm.trans same) ▸ sound
    obtain ⟨e, failed, rfl⟩ | ⟨stored, mid, updated, rest⟩ := Act.out_bind_eq done
    · exact .inl (storeUpdate_out h given failed).1
    · obtain ⟨readable, filed, -, sameVersion, -, wrote⟩ := storeUpdate_out h given updated
      obtain ⟨store, -, rfl⟩ := onStore_out updated
      cases rest
      have closes := close_closes key { s with store }
      have text : (({ s with store }.close key).slice key).text? = some stored.render := by
        rw [slice_close, wrote]
        rfl
      rw [version] at sameVersion
      exact .inr ⟨⟨closes.live, closes.session, closes.opened⟩, readable, latest, stored,
        isLatest, sameVersion, filed.sound, text⟩
  unfold update at done
  simp only [Option.isSome, true_or, if_true] at done
  obtain ⟨e, refused, rfl⟩ | ⟨_, mid, valid, rest⟩ := Act.out_bind_eq done
  · exact .inl (requireValid_out refused)
  · cases requireValid_out valid
    obtain ⟨e, refused, rfl⟩ | ⟨latest, mid, found, tail⟩ := Act.out_bind_eq rest
    · exact .inl (latestVersion_out h refused).1
    · obtain ⟨rfl, isLatest⟩ := latestVersion_out h found
      have isLatest := isLatest latest rfl
      cases base with
      | none => exact replaced rfl rfl isLatest tail
      | some b =>
        dsimp only at tail
        split at tail
        next =>
          cases tail
          exact .inl rfl
        next => exact replaced rfl rfl isLatest tail

end Service

end Flowchart
