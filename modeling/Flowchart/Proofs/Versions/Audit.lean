import Flowchart.Proofs.Edit.Replay
import Flowchart.Proofs.Versions.UndoHistory

/-!
# The records of a timeline as an audit log

* `Engine.Repeats`: an engine that comes to the same when what it has recorded is applied again.
  `Engine.repeats_batches`: the engines over a catalog do, on flowcharts whose connections have distinct ids.
* `Timeline.Audited`: each change that was not undoing can be made again from its record.
  `Timeline.Serves.audited` keeps it through a call, `Timeline.audited_play` through several.
* `Timeline.replays_play`: the audit log of a flowchart without errors can be replayed.
-/

namespace Flowchart

/-- The engine over a catalog. It may leave the findings away. -/
def Engine.batches (catalog : Catalog) (annotates : Bool) : Engine :=
  ⟨fun d operations => (applyBatch catalog annotates d operations).mapError EditError.failure⟩

/-- On flowcharts that fit, an engine does again what it has recorded, and what it makes fits again. -/
structure Engine.Repeats (engine : Engine) (fits : Document → Prop) : Prop where
  again : ∀ {d operations o}, fits d → engine.apply d operations = .ok o → engine.apply d o.applied = .ok o
  fits : ∀ {d operations o}, fits d → engine.apply d operations = .ok o → fits o.document

theorem Engine.batches_eq_ok_iff {catalog : Catalog} {annotates : Bool} {d : Document}
    {operations : List Operation} {o : Outcome} :
    (batches catalog annotates).apply d operations = .ok o ↔
      applyBatch catalog annotates d operations = .ok o :=
  mapError_eq_ok_iff

theorem Engine.repeats_batches (catalog : Catalog) (annotates : Bool) :
    (batches catalog annotates).Repeats fun d => (d.connections.items.map Connection.id).Nodup where
  again distinct done := batches_eq_ok_iff.mpr (applyBatch_replay distinct (batches_eq_ok_iff.mp done))
  fits distinct done := applyBatch_connectionIds distinct (batches_eq_ok_iff.mp done)

namespace Timeline

variable {engine : Engine} {fits : Document → Prop} {first : Nat} {t after : Timeline} {call : Call}
  {answer : Except Failure Answer} {h : UndoHistory}

/-- Applied to the version that a change was based on, its operations are committed, are recorded as they
are, and make the version that the change had made. -/
def Replays (engine : Engine) (t : Timeline) (r : ChangeRecord) : Prop :=
  ∃ base o, t.get r.baseVersion = .ok base ∧ engine.apply base r.operations = .ok o ∧
    o.committed = true ∧ t.get r.newVersion = .ok o.document ∧ o.applied = r.operations

structure Audited (engine : Engine) (fits : Document → Prop) (t : Timeline) : Prop where
  fits : ∀ version d, t.at? version = some d → fits d
  replays : ∀ r ∈ t.records, r.kind = .commit ∨ r.kind = .redo → Replays engine t r

theorem Replays.mono {r : ChangeRecord} (replays : Replays engine t r)
    (kept : ∀ version d, t.at? version = some d → after.at? version = some d) :
    Replays engine after r := by
  obtain ⟨base, o, based, applied, committed, made, recorded⟩ := replays
  have based' := kept _ _ (get_natCast_eq_ok_iff.mp based)
  have made' := kept _ _ (get_natCast_eq_ok_iff.mp made)
  exact ⟨base, o, get_natCast_eq_ok_iff.mpr based', applied, committed, get_natCast_eq_ok_iff.mpr made',
    recorded⟩

theorem Audited.start {d : Document} (fit : fits d) (first : Nat) :
    Audited engine fits (start d first) where
  fits version other found := by
    simp only [at?, snapshots, Timeline.start, List.lookup_cons] at found
    split at found
    next => cases found; exact fit
    next => cases found
  replays r mem := by cases mem

/-- One more version keeps the log, if it fits and its own change can be made again. -/
theorem Audited.grow {d : Document} {r : ChangeRecord} {undoable redoable : List ChangeRecord}
    (audited : Audited engine fits t) (fit : fits d)
    (kept : ∀ version d', t.at? version = some d' → (t.grow d r undoable redoable).at? version = some d')
    (replays : r.kind = .commit ∨ r.kind = .redo → Replays engine (t.grow d r undoable redoable) r) :
    Audited engine fits (t.grow d r undoable redoable) where
  fits version other found := by
    rw [at?_grow] at found
    split at found
    next => cases found; exact fit
    next => exact audited.fits version other found
  replays other mem kind := by
    rcases List.mem_append.mp mem with old | new
    · exact (audited.replays other old kind).mono kept
    · obtain rfl := List.mem_singleton.mp new
      exact replays kind

theorem Serves.audited (served : t.Serves engine call (answer, after)) (repeats : engine.Repeats fits)
    (orderly : t.Orderly first) (mirrors : t.Mirrors h) (audited : Audited engine fits t) :
    Audited engine fits after := by
  have kept version d (found : t.at? version = some d) : after.at? version = some d :=
    served.at?_eq orderly found
  have current := audited.fits _ _ t.at?_latest
  cases served with
  | stale | failed | rejected | nothingToUndo | nothingToRedo => exact audited
  | committed applied committed record =>
    subst record
    refine audited.grow (repeats.fits current applied) kept ?_
    intro kind
    exact ⟨_, _, get_natCast_eq_ok_iff.mpr (kept t.latest _ t.at?_latest), repeats.again current applied,
      committed, get_natCast_eq_ok_iff.mpr (at?_latest _), rfl⟩
  | undone undoable found record =>
    subst record
    refine audited.grow (audited.fits _ _ found) kept ?_
    intro kind
    simp [nextRecord] at kind
  | @redone origin target rest made r redoable found record =>
    subst record
    refine audited.grow (audited.fits _ _ found) kept ?_
    intro kind
    -- the change was recorded when it was committed, on a version that held what the latest one holds
    obtain ⟨recorded, committed⟩ := orderly.changes target (.inr (by simp [redoable]))
    obtain ⟨base, o, based, applied, done, document, same⟩ := audited.replays target recorded (.inl committed)
    have future := mirrors.future
    rw [redoable] at future
    obtain ⟨-, -, -, nearby, -, -⟩ := future.exists_of_cons
    rw [get_natCast_eq_ok_iff, nearby, ← mirrors.current] at based
    rw [get_natCast_eq_ok_iff, found] at document
    cases based
    cases document
    exact ⟨_, o, get_natCast_eq_ok_iff.mpr (kept t.latest _ t.at?_latest), applied, done,
      get_natCast_eq_ok_iff.mpr (at?_latest _), same⟩

theorem audited_play (repeats : engine.Repeats fits) (orderly : t.Orderly first) (mirrors : t.Mirrors h)
    (audited : Audited engine fits t) (calls : List Call) :
    Audited engine fits (t.play engine calls).1 := by
  have step (t : Timeline) call (holds : t.Orderly first ∧ (∃ h, t.Mirrors h) ∧ Audited engine fits t) :
      (t.respond engine call).2.Orderly first ∧ (∃ h, (t.respond engine call).2.Mirrors h) ∧
        Audited engine fits (t.respond engine call).2 := by
    obtain ⟨orderly, ⟨h, mirrors⟩, audited⟩ := holds
    have served := orderly.serves engine call
    exact ⟨served.orderly orderly, ⟨_, served.mirrors orderly mirrors⟩,
      served.audited repeats orderly mirrors audited⟩
  exact (play_preserves step ⟨orderly, ⟨h, mirrors⟩, audited⟩ calls).2.2

/-- Each change to a flowchart without errors that was committed or made again can be replayed from its
record, whatever calls have come between. -/
theorem replays_play (catalog : Catalog) (annotates : Bool) {d : Document}
    (valid : (validate catalog d).errors = []) (first : Nat) (calls : List Call) :
    let t := ((start d first).play (.batches catalog annotates) calls).1
    ∀ r ∈ t.records, r.kind = .commit ∨ r.kind = .redo → Replays (.batches catalog annotates) t r := by
  rw [Report.errors_eq_nil_iff, validate_errorFree_iff] at valid
  exact (audited_play (Engine.repeats_batches catalog annotates) (.start d first) (.start d first)
    (.start valid.connectionIds first) calls).replays

/-- A batch that takes away a node with its connections, undone and made again. -/
def sampleCalls : List Call := [.commit 4 sampleBatch "ui", .undo 5 "ui", .redo 6 "ui"]

theorem replays_play_sample :
    (validate .builtin sampleFlowchart).errors = [] ∧
      let t := ((start sampleFlowchart 4).play (.batches .builtin true) sampleCalls).1
      ∃ r ∈ t.records, r.kind = .redo ∧ Replays (.batches .builtin true) t r := by
  have valid : (validate .builtin sampleFlowchart).errors = [] := by decide
  have kinds : ((start sampleFlowchart 4).play (.batches .builtin true) sampleCalls).1.records.map
      ChangeRecord.kind = [.commit, .undo, .redo] := by decide +kernel
  refine ⟨valid, ?_⟩
  intro t
  obtain ⟨r, mem, kind⟩ : ∃ r ∈ t.records, r.kind = .redo := by
    rw [← List.mem_map, kinds]
    decide
  exact ⟨r, mem, kind, replays_play .builtin true valid 4 sampleCalls r mem (.inr kind)⟩

end Timeline

end Flowchart
