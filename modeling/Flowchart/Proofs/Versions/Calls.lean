import Flowchart.Proofs.Actions
import Flowchart.Proofs.Results
import Flowchart.Versions.Timeline

/-!
# Calls to a timeline

* `Timeline.Call`, `Timeline.respond`: what a client asks for, what it gets, and the timeline after it.
* `Timeline.Serves`: all that can come of a call. Each constructor that stores a version says which, the others leave
  the timeline as it was.
* `Timeline.serves_respond`: a timeline serves every call, if it holds the versions that the changes to be
  undone and redone refer to. Without them a change would fail between its writes.
* `Timeline.play`: calls that come in one after the other, with the answers to them.
-/

namespace Flowchart

namespace Timeline

/-- What a client asks of a timeline. -/
inductive Call where
  | commit (base : Int) (operations : List Operation) (origin : String)
  | undo (base : Int) (origin : String)
  | redo (base : Int) (origin : String)

def Call.base : Call → Int
  | commit base _ _ | undo base _ | redo base _ => base

/-- What a client gets for a call that does not fail. -/
inductive Answer where
  | outcome (o : Outcome)
  | record (r : ChangeRecord)

/-- What is done for a call. -/
def Call.script (engine : Engine) : Call → Act Timeline Answer
  | .commit base operations origin => do return .outcome (← Timeline.commit engine base operations origin)
  | .undo base origin => do return .record (← Timeline.undo base origin)
  | .redo base origin => do return .record (← Timeline.redo base origin)

/-- The answer to a call, and the timeline that it leaves. -/
def respond (engine : Engine) (t : Timeline) (call : Call) : Except Failure Answer × Timeline :=
  (call.script engine).out t

/-- Whether a call has stored a version. A batch that is rejected is answered, but stores none. -/
def stored : Except Failure Answer → Bool
  | .ok (.outcome o) => o.committed
  | .ok (.record _) => true
  | .error _ => false

/-- The record of the step to the next version. -/
def nextRecord (t : Timeline) (operations : List Operation) (origin : String) (kind : RecordKind)
    (reverts : Option Nat) : ChangeRecord :=
  { baseVersion := t.latest, newVersion := t.latest + 1, operations, origin, kind, reverts }

/-- The timeline with one more version. -/
def grow (t : Timeline) (d : Document) (r : ChangeRecord) (undoable redoable : List ChangeRecord) :
    Timeline :=
  { latest := t.latest + 1, current := d, earlier := t.snapshots, records := t.records ++ [r], undoable,
    redoable }

/-- What comes of a call: its answer, and the timeline after it. The first five leave the timeline as it
was. -/
inductive Serves (engine : Engine) (t : Timeline) : Call → Except Failure Answer × Timeline → Prop
  | stale {call : Call} (other : call.base ≠ t.latest) :
      Serves engine t call (.error (TimelineError.stale call.base t.latest).failure, t)
  | failed {operations origin failure} (applied : engine.apply t.current operations = .error failure) :
      Serves engine t (.commit t.latest operations origin) (.error failure, t)
  | rejected {operations origin o} (applied : engine.apply t.current operations = .ok o)
      (rejected : o.committed = false) :
      Serves engine t (.commit t.latest operations origin)
        (.ok (.outcome { o with version := some (t.latest : Int) }), t)
  | nothingToUndo {origin} (none : t.undoable = []) :
      Serves engine t (.undo t.latest origin) (.error TimelineError.nothingToUndo.failure, t)
  | nothingToRedo {origin} (none : t.redoable = []) :
      Serves engine t (.redo t.latest origin) (.error TimelineError.nothingToRedo.failure, t)
  | committed {operations origin o r} (applied : engine.apply t.current operations = .ok o)
      (committed : o.committed = true) (record : r = t.nextRecord o.applied origin .commit none) :
      Serves engine t (.commit t.latest operations origin)
        (.ok (.outcome { o with version := some (r.newVersion : Int) }),
          t.grow o.document r (r :: t.undoable) [])
  | undone {origin target rest before r} (undoable : t.undoable = target :: rest)
      (found : t.at? target.baseVersion = some before)
      (record : r = t.nextRecord [] origin .undo (some target.newVersion)) :
      Serves engine t (.undo t.latest origin)
        (.ok (.record r), t.grow before r rest (target :: t.redoable))
  | redone {origin target rest after r} (redoable : t.redoable = target :: rest)
      (found : t.at? target.newVersion = some after)
      (record : r = t.nextRecord target.operations origin .redo (some target.newVersion)) :
      Serves engine t (.redo t.latest origin)
        (.ok (.record r), t.grow after r (target :: t.undoable) rest)

theorem checkBase_eq_ok_iff {t : Timeline} {base : Int} {ε : Type} {f : TimelineError → ε} :
    (t.checkBase base).mapError f = .ok () ↔ base = t.latest := by
  rw [mapError_eq_ok_iff]
  unfold checkBase
  split
  next same => simp [same]
  next other => simp [other]

theorem checkBase_latest (t : Timeline) : t.checkBase t.latest = .ok () := if_pos rfl

theorem checkBase_other {t : Timeline} {base : Int} (other : base ≠ t.latest) :
    t.checkBase base = .error (.stale base t.latest) := if_neg other

variable {engine : Engine} {t : Timeline}

/-! ### Changes -/

theorem requireBase_latest (t : Timeline) : (requireBase t.latest).out t = (.ok (), t) := by
  unfold requireBase
  rw [Act.out_bind_of_ok Act.out_getThe, checkBase_latest]
  rfl

theorem requireBase_other {base : Int} (other : base ≠ t.latest) :
    (requireBase base).out t = (.error (TimelineError.stale base t.latest).failure, t) := by
  unfold requireBase
  rw [Act.out_bind_of_ok Act.out_getThe, checkBase_other other]
  rfl

/-- A change that is not based on the latest version fails before anything is written. -/
theorem out_requireBase_bind {base : Int} (other : base ≠ t.latest) (next : Unit → Act Timeline α) :
    (requireBase base >>= next).out t = (.error (TimelineError.stale base t.latest).failure, t) := by
  rw [Act.out_bind, requireBase_other other]

theorem commit_stale (engine : Engine) {base : Int} (other : base ≠ t.latest)
    (operations : List Operation) (origin : String) :
    (commit engine base operations origin).out t = (.error (TimelineError.stale base t.latest).failure, t) :=
  out_requireBase_bind other _

theorem commit_failed {operations : List Operation} {failure : Failure}
    (applied : engine.apply t.current operations = .error failure) (origin : String) :
    (commit engine t.latest operations origin).out t = (.error failure, t) := by
  unfold commit
  rw [Act.out_bind_of_ok (requireBase_latest t), Act.out_bind_of_ok Act.out_getThe, applied]
  rfl

theorem commit_rejected {operations : List Operation} {o : Outcome}
    (applied : engine.apply t.current operations = .ok o) (rejected : o.committed = false) (origin : String) :
    (commit engine t.latest operations origin).out t = (.ok { o with version := some (t.latest : Int) }, t) := by
  unfold commit
  rw [Act.out_bind_of_ok (requireBase_latest t), Act.out_bind_of_ok Act.out_getThe,
    Act.out_bind_of_ok (Act.out_ofExcept _ t |>.trans (by rw [applied]))]
  simp only [rejected, Bool.false_eq_true, if_false]
  rfl

theorem commit_committed {operations : List Operation} {o : Outcome}
    (applied : engine.apply t.current operations = .ok o) (committed : o.committed = true) (origin : String) :
    let r := t.nextRecord o.applied origin .commit none
    (commit engine t.latest operations origin).out t =
      (.ok { o with version := some (r.newVersion : Int) }, t.grow o.document r (r :: t.undoable) []) := by
  intro r
  unfold commit
  rw [Act.out_bind_of_ok (requireBase_latest t), Act.out_bind_of_ok Act.out_getThe,
    Act.out_bind_of_ok (Act.out_ofExcept _ t |>.trans (by rw [applied]))]
  simp only [committed, if_true]
  rfl

theorem serves_commit (operations : List Operation) (origin : String) :
    t.Serves engine (.commit t.latest operations origin)
      (t.respond engine (.commit t.latest operations origin)) := by
  unfold respond Call.script
  cases applied : engine.apply t.current operations with
  | error failure =>
    rw [Act.out_bind, commit_failed applied]
    exact .failed applied
  | ok o =>
    cases committed : o.committed with
    | true =>
      rw [Act.out_bind_of_ok (commit_committed applied committed origin)]
      exact .committed applied committed rfl
    | false =>
      rw [Act.out_bind_of_ok (commit_rejected applied committed origin)]
      exact .rejected applied committed

theorem snapshot_of_found {version : Nat} {d : Document} (found : t.at? version = some d) :
    (snapshot version).out t = (.ok d, t) := by
  unfold snapshot
  rw [Act.out_bind_of_ok Act.out_getThe, found]
  rfl

theorem serves_undo (held : ∀ r ∈ t.undoable, (t.at? r.baseVersion).isSome) (origin : String) :
    t.Serves engine (.undo t.latest origin) (t.respond engine (.undo t.latest origin)) := by
  unfold respond Call.script undo
  rw [Act.out_bind, Act.out_bind_of_ok (requireBase_latest t), Act.out_bind_of_ok Act.out_getThe]
  cases undoable : t.undoable with
  | nil => exact .nothingToUndo undoable
  | cons target rest =>
    obtain ⟨before, found⟩ := Option.isSome_iff_exists.mp (held target (by simp [undoable]))
    -- the change is off the stack by now, which leaves the versions as they were
    have found' : ({ t with undoable := rest } : Timeline).at? target.baseVersion = some before := found
    rw [Act.out_bind_of_ok Act.out_modify, Act.out_bind_of_ok (snapshot_of_found found')]
    exact .undone undoable found rfl

theorem serves_redo (held : ∀ r ∈ t.redoable, (t.at? r.newVersion).isSome) (origin : String) :
    t.Serves engine (.redo t.latest origin) (t.respond engine (.redo t.latest origin)) := by
  unfold respond Call.script redo
  rw [Act.out_bind, Act.out_bind_of_ok (requireBase_latest t), Act.out_bind_of_ok Act.out_getThe]
  cases redoable : t.redoable with
  | nil => exact .nothingToRedo redoable
  | cons target rest =>
    obtain ⟨after, found⟩ := Option.isSome_iff_exists.mp (held target (by simp [redoable]))
    have found' : ({ t with redoable := rest } : Timeline).at? target.newVersion = some after := found
    rw [Act.out_bind_of_ok Act.out_modify, Act.out_bind_of_ok (snapshot_of_found found')]
    exact .redone redoable found rfl

theorem respond_stale {call : Call} (other : call.base ≠ t.latest) :
    t.respond engine call = (.error (TimelineError.stale call.base t.latest).failure, t) := by
  cases call with
  | commit base operations origin =>
    have other : base ≠ t.latest := other
    unfold respond Call.script commit
    rw [Act.out_bind, out_requireBase_bind other]
    rfl
  | undo base origin =>
    have other : base ≠ t.latest := other
    unfold respond Call.script undo
    rw [Act.out_bind, out_requireBase_bind other]
    rfl
  | redo base origin =>
    have other : base ≠ t.latest := other
    unfold respond Call.script redo
    rw [Act.out_bind, out_requireBase_bind other]
    rfl

/-- A timeline serves every call if it still has the versions that it may go back to. -/
theorem serves_respond (undoable : ∀ r ∈ t.undoable, (t.at? r.baseVersion).isSome)
    (redoable : ∀ r ∈ t.redoable, (t.at? r.newVersion).isSome) (call : Call) :
    t.Serves engine call (t.respond engine call) := by
  by_cases based : call.base = t.latest
  · cases call with
    | commit base operations origin =>
      cases based
      exact serves_commit operations origin
    | undo base origin =>
      cases based
      exact serves_undo undoable origin
    | redo base origin =>
      cases based
      exact serves_redo redoable origin
  · rw [respond_stale based]
    exact .stale based

/-! ### Several calls -/

/-- A call that was made, and its answer. -/
structure Entry where
  call : Call
  answer : Except Failure Answer

/-- Makes calls one after the other. -/
def play (engine : Engine) : Timeline → List Call → Timeline × List Entry
  | t, [] => (t, [])
  | t, call :: calls =>
    let (answer, after) := t.respond engine call
    let (last, log) := after.play engine calls
    (last, ⟨call, answer⟩ :: log)

theorem play_cons (t : Timeline) (call : Call) (calls : List Call) :
    t.play engine (call :: calls) =
      (((t.respond engine call).2.play engine calls).1,
        ⟨call, (t.respond engine call).1⟩ :: ((t.respond engine call).2.play engine calls).2) := rfl

/-- What every call preserves, several calls preserve. -/
theorem play_preserves {P : Timeline → Prop} (step : ∀ t call, P t → P (t.respond engine call).2)
    (holds : P t) (calls : List Call) : P (t.play engine calls).1 := by
  induction calls generalizing t with
  | nil => exact holds
  | cons call calls ih => exact ih (step t call holds)

end Timeline

end Flowchart
