import Flowchart.Proofs.Versions.Order

/-!
# Undoing and redoing

* `UndoHistory`: the documents that lie behind and ahead of the present one.
* `Timeline.Linked`: the versions of stacked changes, from the present document on.
* `Serves.mirrors`: what a call does to a timeline its answer does to the history.
* `Timeline.simulates_play`: so a timeline is a history, although it only ever stores new versions.
-/

namespace Flowchart

open Timeline

/-- The documents before and after the present one, the nearest in front. -/
structure UndoHistory where
  past : List Document := []
  present : Document
  future : List Document := []

namespace UndoHistory

def push (h : UndoHistory) (d : Document) : UndoHistory :=
  { past := h.present :: h.past, present := d, future := [] }

def back (h : UndoHistory) : UndoHistory :=
  match h.past with
  | [] => h
  | d :: past => { past, present := d, future := h.present :: h.future }

def forth (h : UndoHistory) : UndoHistory :=
  match h.future with
  | [] => h
  | d :: future => { past := h.present :: h.past, present := d, future }

/-- The history after a call that was answered. A call that failed and a batch that was rejected leave it
as it was. -/
def follow (h : UndoHistory) (e : Entry) : UndoHistory :=
  match e.call, e.answer with
  | .commit .., .ok (.outcome o) => if o.committed then h.push o.document else h
  | .undo .., .ok _ => h.back
  | .redo .., .ok _ => h.forth
  | _, _ => h

theorem follow_of_error (h : UndoHistory) (call : Call) (failure : Failure) :
    h.follow ⟨call, .error failure⟩ = h := by
  cases call <;> rfl

end UndoHistory

namespace Timeline

variable {engine : Engine} {first : Nat} {t after : Timeline} {call : Call} {answer : Except Failure Answer}
  {h : UndoHistory} {near far : ChangeRecord → Nat}

/-- From a document on, each change leads from the version on its near side to the one on its far side,
where the next change goes on. -/
inductive Linked (t : Timeline) (near far : ChangeRecord → Nat) :
    Document → List ChangeRecord → List Document → Prop
  | nil {d} : Linked t near far d [] []
  | cons {d next r changes ds} (nearby : t.at? (near r) = some d) (beyond : t.at? (far r) = some next)
      (rest : Linked t near far next changes ds) : Linked t near far d (r :: changes) (next :: ds)

/-- A timeline stands for a history. An undone change leads back from the version it made, a redone one
forth from the version it was made on. -/
structure Mirrors (t : Timeline) (h : UndoHistory) : Prop where
  current : t.current = h.present
  past : t.Linked ChangeRecord.newVersion ChangeRecord.baseVersion h.present t.undoable h.past
  future : t.Linked ChangeRecord.baseVersion ChangeRecord.newVersion h.present t.redoable h.future

theorem Linked.mono {d : Document} {changes : List ChangeRecord} {ds : List Document}
    (linked : t.Linked near far d changes ds)
    (kept : ∀ version d, t.at? version = some d → after.at? version = some d) :
    after.Linked near far d changes ds := by
  induction linked with
  | nil => exact .nil
  | cons nearby beyond _ ih => exact .cons (kept _ _ nearby) (kept _ _ beyond) ih

theorem Linked.eq_nil_iff {d : Document} {changes : List ChangeRecord} {ds : List Document}
    (linked : t.Linked near far d changes ds) : changes = [] ↔ ds = [] := by
  cases linked <;> simp

theorem Linked.exists_of_cons {d : Document} {r : ChangeRecord} {changes : List ChangeRecord}
    {ds : List Document} (linked : t.Linked near far d (r :: changes) ds) :
    ∃ next rest, ds = next :: rest ∧ t.at? (near r) = some d ∧ t.at? (far r) = some next ∧
      t.Linked near far next changes rest := by
  cases linked with
  | cons nearby beyond rest => exact ⟨_, _, rfl, nearby, beyond, rest⟩

theorem Mirrors.start (d : Document) (first : Nat) : (start d first).Mirrors { present := d } :=
  ⟨rfl, .nil, .nil⟩

theorem Serves.mirrors (served : t.Serves engine call (answer, after)) (orderly : t.Orderly first)
    (mirrors : t.Mirrors h) : after.Mirrors (h.follow ⟨call, answer⟩) := by
  obtain ⟨current, past, future⟩ := mirrors
  have kept version d (found : t.at? version = some d) : after.at? version = some d :=
    served.at?_eq orderly found
  have past' := past.mono kept
  have future' := future.mono kept
  cases served with
  | stale | failed | nothingToUndo | nothingToRedo =>
    rw [UndoHistory.follow_of_error]
    exact ⟨current, past, future⟩
  | rejected applied rejected =>
    simp only [UndoHistory.follow, rejected, Bool.false_eq_true, if_false]
    exact ⟨current, past, future⟩
  | committed applied committed record =>
    simp only [UndoHistory.follow, committed, if_true]
    subst record
    refine ⟨rfl, .cons (at?_latest _) (kept t.latest _ ?_) past', .nil⟩
    rw [at?_latest, current]
  | undone undoable found record =>
    -- the present document is that of the version which the undone change had made
    rw [undoable] at past'
    obtain ⟨before, rest, behind, made, base, linked⟩ := past'.exists_of_cons
    obtain rfl := Option.some.inj ((kept _ _ found).symm.trans base)
    simp only [UndoHistory.follow, UndoHistory.back, behind]
    exact ⟨rfl, linked, .cons base made future'⟩
  | redone redoable found record =>
    rw [redoable] at future'
    obtain ⟨next, rest, ahead, base, made, linked⟩ := future'.exists_of_cons
    obtain rfl := Option.some.inj ((kept _ _ found).symm.trans made)
    simp only [UndoHistory.follow, UndoHistory.forth, ahead]
    exact ⟨rfl, .cons made base past', linked⟩

theorem mirrors_play (orderly : t.Orderly first) (mirrors : t.Mirrors h) (calls : List Call) :
    (t.play engine calls).1.Mirrors ((t.play engine calls).2.foldl UndoHistory.follow h) := by
  induction calls generalizing t h with
  | nil => exact mirrors
  | cons call calls ih =>
    have served := orderly.serves engine call
    exact ih (served.orderly orderly) (served.mirrors orderly mirrors)

/-! ### What a client sees -/

theorem Mirrors.canUndo_iff (mirrors : t.Mirrors h) : t.canUndo = true ↔ h.past ≠ [] := by
  rw [canUndo, Bool.not_eq_true', List.isEmpty_eq_false_iff, Ne, mirrors.past.eq_nil_iff]

theorem Mirrors.canRedo_iff (mirrors : t.Mirrors h) : t.canRedo = true ↔ h.future ≠ [] := by
  rw [canRedo, Bool.not_eq_true', List.isEmpty_eq_false_iff, Ne, mirrors.future.eq_nil_iff]

theorem Serves.stored_undo_iff {base : Int} {origin : String}
    (served : t.Serves engine (.undo base origin) (answer, after)) :
    stored answer = true ↔ base = t.latest ∧ t.canUndo = true := by
  cases served with
  | stale other => exact iff_of_false Bool.false_ne_true fun done => other done.1
  | nothingToUndo none => simp [stored, canUndo, none]
  | undone undoable => simp [stored, canUndo, undoable]

theorem Serves.stored_redo_iff {base : Int} {origin : String}
    (served : t.Serves engine (.redo base origin) (answer, after)) :
    stored answer = true ↔ base = t.latest ∧ t.canRedo = true := by
  cases served with
  | stale other => exact iff_of_false Bool.false_ne_true fun done => other done.1
  | nothingToRedo none => simp [stored, canRedo, none]
  | redone redoable => simp [stored, canRedo, redoable]

theorem Serves.applied {base : Int} {operations : List Operation} {origin : String} {o : Outcome}
    (served : t.Serves engine (.commit base operations origin) (.ok (.outcome o), after)) :
    ∃ made, engine.apply t.current operations = .ok made ∧ o.committed = made.committed ∧
      o.document = made.document := by
  cases served with
  | rejected applied | committed applied => exact ⟨_, applied, rfl, rfl⟩

/-- A timeline behaves as a history does: in what it shows, in what it goes back and forth to, and in what
a batch is applied to. -/
structure Simulates (engine : Engine) (t : Timeline) (h : UndoHistory) : Prop where
  current : t.current = h.present
  canUndo : t.canUndo = true ↔ h.past ≠ []
  canRedo : t.canRedo = true ↔ h.future ≠ []
  undo : ∀ base origin, stored (t.respond engine (.undo base origin)).1 = true ↔
    base = t.latest ∧ h.past ≠ []
  redo : ∀ base origin, stored (t.respond engine (.redo base origin)).1 = true ↔
    base = t.latest ∧ h.future ≠ []
  commit : ∀ base operations origin o after,
    t.respond engine (.commit base operations origin) = (.ok (.outcome o), after) →
      ∃ made, engine.apply h.present operations = .ok made ∧ o.committed = made.committed ∧
        o.document = made.document

/-- A timeline simulates the history that follows the answers of any calls to it. -/
theorem simulates_play (engine : Engine) (d : Document) (first : Nat) (calls : List Call) :
    let run := (start d first).play engine calls
    Simulates engine run.1 (run.2.foldl UndoHistory.follow { present := d }) := by
  intro run
  have orderly : run.1.Orderly first := orderly_play (.start d first) engine calls
  have mirrors : run.1.Mirrors _ := mirrors_play (.start d first) (.start d first) calls
  refine ⟨mirrors.current, mirrors.canUndo_iff, mirrors.canRedo_iff, ?_, ?_, ?_⟩
  · intro base origin
    rw [← mirrors.canUndo_iff]
    exact (orderly.serves engine (.undo base origin)).stored_undo_iff
  · intro base origin
    rw [← mirrors.canRedo_iff]
    exact (orderly.serves engine (.redo base origin)).stored_redo_iff
  · intro base operations origin o after response
    have served := orderly.serves engine (.commit base operations origin)
    rw [response] at served
    rw [← mirrors.current]
    exact served.applied

end Timeline

end Flowchart
