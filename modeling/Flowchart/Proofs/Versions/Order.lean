import Mathlib.Data.List.Range
import Flowchart.Proofs.Versions.Calls

/-!
# The versions of a timeline

* `Timeline.Orderly`: the invariant of every timeline. Versions and records are numbered one after the
  other, and the changes to be undone and redone are among the records.
* `Timeline.Serves.orderly`, `Timeline.Serves.at?_eq`: what a call preserves. `Timeline.orderly_play` and
  `Timeline.at?_play` say the same of several calls.
* `Timeline.inOrder_play`: what that says of the versions, of the calls and of those that fail.
-/

namespace Flowchart

namespace Timeline

variable {engine : Engine} {first : Nat} {t after : Timeline} {call : Call} {answer : Except Failure Answer}

theorem get_natCast_eq_ok_iff {version : Nat} {d : Document} :
    t.get version = .ok d ↔ t.at? version = some d := by
  simp only [get, Int.not_ofNat_neg, if_false, Int.toNat_natCast]
  cases t.at? version <;> simp

theorem exists_of_get_eq_ok {version : Int} {d : Document} (got : t.get version = .ok d) :
    ∃ v : Nat, version = v ∧ t.at? v = some d := by
  cases version with
  | ofNat v => exact ⟨v, rfl, get_natCast_eq_ok_iff.mp got⟩
  | negSucc v => simp [get, Int.negSucc_lt_zero] at got

theorem at?_latest (t : Timeline) : t.at? t.latest = some t.current := by simp [at?, snapshots]

theorem at?_grow (t : Timeline) (d : Document) (r : ChangeRecord) (undoable redoable : List ChangeRecord)
    (version : Nat) :
    (t.grow d r undoable redoable).at? version =
      if version = t.latest + 1 then some d else t.at? version := by
  by_cases newest : version = t.latest + 1
  · simp [at?, snapshots, grow, newest]
  · have passed : (version == t.latest + 1) = false := by simp [newest]
    simp [at?, snapshots, grow, newest, List.lookup_cons, passed]

/-! ### The invariant -/

structure Orderly (first : Nat) (t : Timeline) : Prop where
  latest : t.latest = first + t.records.length
  versions : t.versions = List.range' first (t.records.length + 1)
  records : ∀ (i : Nat) r, t.records[i]? = some r → r.baseVersion = first + i ∧ r.newVersion = first + i + 1
  changes : ∀ r, r ∈ t.undoable ∨ r ∈ t.redoable → r ∈ t.records ∧ r.kind = .commit

namespace Orderly

theorem start (d : Document) (first : Nat) : (Timeline.start d first).Orderly first where
  latest := rfl
  versions := rfl
  records i r found := by simp [Timeline.start] at found
  changes r mem := by simp [Timeline.start] at mem

/-- A timeline has the versions from the first to the latest. -/
theorem isSome_at?_iff (orderly : t.Orderly first) {version : Nat} :
    (t.at? version).isSome ↔ first ≤ version ∧ version ≤ t.latest := by
  have listed : (t.at? version).isSome ↔ version ∈ t.versions := by
    simp [at?, Timeline.versions, List.lookup_isSome_iff]
  rw [listed, orderly.versions, List.mem_range'_1, orderly.latest]
  omega

theorem isSome_of_mem (orderly : t.Orderly first) {r : ChangeRecord} (mem : r ∈ t.records) :
    (t.at? r.baseVersion).isSome ∧ (t.at? r.newVersion).isSome := by
  obtain ⟨i, found⟩ := List.getElem?_of_mem mem
  obtain ⟨base, new⟩ := orderly.records i r found
  have bound := (List.getElem?_eq_some_iff.mp found).1
  have latest := orderly.latest
  rw [orderly.isSome_at?_iff, orderly.isSome_at?_iff]
  omega

theorem serves (orderly : t.Orderly first) (engine : Engine) (call : Call) :
    t.Serves engine call ((t.respond engine call).1, (t.respond engine call).2) := by
  apply serves_respond
  · intro r mem
    exact (orderly.isSome_of_mem (orderly.changes r (.inl mem)).1).1
  · intro r mem
    exact (orderly.isSome_of_mem (orderly.changes r (.inr mem)).1).2

/-- One more version keeps the order, if its record bears its number. -/
theorem grow (orderly : t.Orderly first) {d : Document} {r : ChangeRecord}
    {undoable redoable : List ChangeRecord} (base : r.baseVersion = t.latest)
    (new : r.newVersion = t.latest + 1)
    (changes : ∀ c, c ∈ undoable ∨ c ∈ redoable → c ∈ t.records ++ [r] ∧ c.kind = .commit) :
    (t.grow d r undoable redoable).Orderly first where
  latest := by simp [Timeline.grow, orderly.latest, Nat.add_assoc]
  versions := by
    have newer : (t.grow d r undoable redoable).versions = t.versions ++ [t.latest + 1] := by
      simp [Timeline.versions, Timeline.grow, snapshots]
    have count : (t.grow d r undoable redoable).records.length = t.records.length + 1 :=
      List.length_append
    rw [newer, count, orderly.versions, orderly.latest,
      List.range'_1_concat (n := t.records.length + 1), Nat.add_assoc]
  records i other found := by
    simp only [Timeline.grow, List.getElem?_append] at found
    split at found
    next => exact orderly.records i other found
    next past =>
      obtain ⟨last, rfl⟩ := List.getElem?_eq_some_iff.mp found
      have latest := orderly.latest
      simp only [List.length_singleton] at last
      simp only [List.getElem_singleton]
      omega
  changes := changes

end Orderly

theorem Serves.orderly (served : t.Serves engine call (answer, after)) (orderly : t.Orderly first) :
    after.Orderly first := by
  -- what may be undone or redone after the call was so before it, but for the change that it makes
  have still {r c : ChangeRecord} (mem : c ∈ t.undoable ∨ c ∈ t.redoable) :
      c ∈ t.records ++ [r] ∧ c.kind = .commit := by
    obtain ⟨recorded, kind⟩ := orderly.changes c mem
    exact ⟨List.mem_append_left _ recorded, kind⟩
  cases served with
  | stale | failed | rejected | nothingToUndo | nothingToRedo => exact orderly
  | committed applied committed record =>
    subst record
    refine orderly.grow rfl rfl ?_
    intro c mem
    simp only [List.mem_cons, List.not_mem_nil, or_false] at mem
    rcases mem with rfl | mem
    · exact ⟨List.mem_append_right _ List.mem_cons_self, rfl⟩
    · exact still (.inl mem)
  | undone undoable found record =>
    subst record
    refine orderly.grow rfl rfl ?_
    intro c mem
    apply still
    rw [undoable]
    simp only [List.mem_cons] at mem ⊢
    tauto
  | redone redoable found record =>
    subst record
    refine orderly.grow rfl rfl ?_
    intro c mem
    apply still
    rw [redoable]
    simp only [List.mem_cons] at mem ⊢
    tauto

/-- No call changes or removes a version. -/
theorem Serves.at?_eq (served : t.Serves engine call (answer, after)) (orderly : t.Orderly first)
    {version : Nat} {d : Document} (found : t.at? version = some d) : after.at? version = some d := by
  have older : version ≠ t.latest + 1 := by
    have held : (t.at? version).isSome := by simp [found]
    have bound := (orderly.isSome_at?_iff.mp held).2
    omega
  cases served with
  | stale | failed | rejected | nothingToUndo | nothingToRedo => exact found
  | committed | undone | redone =>
    rw [at?_grow, if_neg older]
    exact found

theorem orderly_play (orderly : t.Orderly first) (engine : Engine) (calls : List Call) :
    (t.play engine calls).1.Orderly first :=
  play_preserves (fun _ call orderly => (orderly.serves engine call).orderly orderly) orderly calls

theorem at?_play (orderly : t.Orderly first) (calls : List Call) {version : Nat} {d : Document}
    (found : t.at? version = some d) : (t.play engine calls).1.at? version = some d := by
  have step (t : Timeline) call (holds : t.Orderly first ∧ t.at? version = some d) :
      (t.respond engine call).2.Orderly first ∧ (t.respond engine call).2.at? version = some d := by
    obtain ⟨orderly, found⟩ := holds
    have served := orderly.serves engine call
    exact ⟨served.orderly orderly, served.at?_eq orderly found⟩
  exact (play_preserves step ⟨orderly, found⟩ calls).2

/-! ### Which calls store a version -/

/-- A call that stores a version is based on the latest one, and the version comes right after it. -/
theorem Serves.base_eq (served : t.Serves engine call (answer, after)) (done : stored answer = true) :
    call.base = t.latest ∧ after.latest = t.latest + 1 := by
  cases served with
  | stale | failed | nothingToUndo | nothingToRedo => simp [stored] at done
  | rejected applied rejected => simp [stored, rejected] at done
  | committed | undone | redone => exact ⟨rfl, rfl⟩

theorem Serves.eq_of_not_stored (served : t.Serves engine call (answer, after))
    (none : stored answer = false) : after = t := by
  cases served with
  | stale | failed | rejected | nothingToUndo | nothingToRedo => rfl
  | committed applied committed record => simp [stored, committed] at none
  | undone | redone => simp [stored] at none

theorem Serves.latest_eq (served : t.Serves engine call (answer, after)) :
    after.latest = if stored answer then t.latest + 1 else t.latest := by
  split
  next done => exact (served.base_eq done).2
  next none => rw [served.eq_of_not_stored (eq_false_of_ne_true none)]

/-- The versions that those calls of a log are based on that stored a version. -/
def storedBases (log : List Entry) : List Int :=
  (log.filter fun e => stored e.answer).map fun e => e.call.base

theorem storedBases_cons_of_stored {log : List Entry} (done : stored answer = true) :
    storedBases (⟨call, answer⟩ :: log) = call.base :: storedBases log := by simp [storedBases, done]

theorem storedBases_cons_of_not_stored {log : List Entry} (none : stored answer = false) :
    storedBases (⟨call, answer⟩ :: log) = storedBases log := by simp [storedBases, none]

/-- From the latest version on, each call that stores a version is based on a later one than those
before it. -/
theorem storedBases_play (orderly : t.Orderly first) (engine : Engine) (calls : List Call) :
    (storedBases (t.play engine calls).2).Pairwise (· < ·) ∧
      ∀ base ∈ storedBases (t.play engine calls).2, (t.latest : Int) ≤ base := by
  induction calls generalizing t with
  | nil => simp [play, storedBases]
  | cons call calls ih =>
    have served := orderly.serves engine call
    obtain ⟨increasing, bound⟩ := ih (served.orderly orderly)
    rw [play_cons]
    by_cases done : stored (t.respond engine call).1 = true
    · obtain ⟨base, latest⟩ := served.base_eq done
      rw [latest] at bound
      rw [storedBases_cons_of_stored done, List.pairwise_cons, List.forall_mem_cons, base]
      refine ⟨⟨?_, increasing⟩, Int.le_refl _, ?_⟩
      · intro other mem
        have later := bound other mem
        omega
      · intro other mem
        have later := bound other mem
        omega
    · have latest := congrArg Timeline.latest (served.eq_of_not_stored (eq_false_of_ne_true done))
      rw [latest] at bound
      rw [storedBases_cons_of_not_stored (eq_false_of_ne_true done)]
      exact ⟨increasing, bound⟩

/-! ### The whole -/

/-- What holds of a timeline that was started with the version `first`, and of the calls to it, after the
calls of a log. -/
structure InOrder (engine : Engine) (first : Nat) (t : Timeline) (log : List Entry) : Prop where
  latest : t.latest = first + t.records.length
  versions : t.versions = List.range' first (t.latest + 1 - first)
  records : ∀ (i : Nat) r, t.records[i]? = some r → r.baseVersion = first + i ∧ r.newVersion = first + i + 1
  /-- No later call changes or removes a version. -/
  kept : ∀ (later : List Call) (version : Int) (d : Document), t.get version = .ok d →
    (t.play engine later).1.get version = .ok d
  basesOnce : (storedBases log).Nodup
  based : ∀ call answer after, t.respond engine call = (answer, after) → stored answer = true →
    call.base = t.latest
  /-- A batch that is committed has been applied to the version before its own. -/
  committed : ∀ base operations origin o after,
    t.respond engine (.commit base operations origin) = (.ok (.outcome o), after) → o.committed = true →
      t.get base = .ok t.current ∧ ∃ made, engine.apply t.current operations = .ok made ∧
        after.get (base + 1) = .ok made.document ∧
        o = { made with version := some (base + 1) }
  unchanged : ∀ call answer after, t.respond engine call = (answer, after) → stored answer = false →
    after = t
  failed : ∀ call failure after, t.respond engine call = (.error failure, after) →
    (call.base ≠ t.latest ∧ failure = (TimelineError.stale call.base t.latest).failure) ∨
    (∃ operations origin, call = .commit t.latest operations origin ∧
      engine.apply t.current operations = .error failure) ∨
    (t.canUndo = false ∧ (∃ origin, call = .undo t.latest origin) ∧
      failure = TimelineError.nothingToUndo.failure) ∨
    (t.canRedo = false ∧ (∃ origin, call = .redo t.latest origin) ∧
      failure = TimelineError.nothingToRedo.failure)

/-- The versions of a timeline stay in order through any calls, with any base versions. -/
theorem inOrder_play (engine : Engine) (d : Document) (first : Nat) (calls : List Call) :
    InOrder engine first ((start d first).play engine calls).1 ((start d first).play engine calls).2 := by
  have started := Orderly.start d first
  have bases := (storedBases_play started engine calls).1
  have orderly := orderly_play started engine calls
  generalize (start d first).play engine calls = run at bases orderly ⊢
  obtain ⟨t, log⟩ := run
  have serves {call answer after} (response : t.respond engine call = (answer, after)) :
      t.Serves engine call (answer, after) := response ▸ orderly.serves engine call
  refine ⟨orderly.latest, ?_, orderly.records, ?_, bases.imp Int.ne_of_lt, ?_, ?_, ?_, ?_⟩
  · rw [orderly.versions]
    congr 1
    have latest := orderly.latest
    omega
  · intro later version d got
    obtain ⟨v, rfl, found⟩ := exists_of_get_eq_ok got
    exact get_natCast_eq_ok_iff.mpr (at?_play orderly later found)
  · intro call answer after response done
    exact ((serves response).base_eq done).1
  · intro base operations origin o after response done
    cases serves response with
    | rejected applied rejected => simp [rejected] at done
    | committed applied committed record =>
      subst record
      refine ⟨get_natCast_eq_ok_iff.mpr t.at?_latest, _, applied, ?_, rfl⟩
      show get _ ((t.latest + 1 : Nat) : Int) = _
      exact get_natCast_eq_ok_iff.mpr (at?_latest _)
  · intro call answer after response none
    exact (serves response).eq_of_not_stored none
  · intro call failure after response
    cases serves response with
    | stale other => exact .inl ⟨other, rfl⟩
    | failed applied => exact .inr (.inl ⟨_, _, rfl, applied⟩)
    | nothingToUndo none => exact .inr (.inr (.inl ⟨by simp [canUndo, none], ⟨_, rfl⟩, rfl⟩))
    | nothingToRedo none => exact .inr (.inr (.inr ⟨by simp [canRedo, none], ⟨_, rfl⟩, rfl⟩))

end Timeline

end Flowchart
