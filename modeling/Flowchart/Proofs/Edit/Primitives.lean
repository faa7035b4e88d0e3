import Flowchart.Proofs.Edit.Failures
import Flowchart.Proofs.Edit.Scripts

/-!
# Calls of an editor keep its indices exact

* `Editor.Call.answer_indexed`, `Editor.Call.answer_harmless`: what one call does to exact indices, and that it does
  not find them to be wrong.
* `Editor.run_indexed`: the same for any run of calls, on any flowchart. It need not be one that is accepted: ids may
  be repeated, and the indices lead to the last of them.
-/

namespace Flowchart

/-- The failure says that an index is wrong. -/
def Failure.corrupts : Failure → Bool
  | .reported report => report.kind == .indexCorruption
  | _ => false

/-- Errors of a single edit do not say that an index is wrong. -/
theorem EditError.IsStructural.harmless {error : EditError} (structural : error.IsStructural) :
    error.failure.corrupts = false := by
  obtain ⟨report, same, kind⟩ := structural
  rw [same, Failure.corrupts]
  cases known : report.kind with
  | indexCorruption => simp [known, ErrorKind.isStructural] at kind
  | _ => rfl

namespace Editor

/-! ### Calls that succeed -/

section success

variable {catalog : Catalog} {e after : Editor}

theorem addNodeOfType_eq_ok {type id : String} {position : Point} {label : Option String} {data : Json.Fields}
    (edited : e.addNodeOfType catalog type id position label data = .ok after) :
    ∃ node, e.addNode node = .ok after := by
  unfold addNodeOfType at edited
  split at edited
  next => cases edited
  next t known =>
    split at edited
    next => cases edited
    next => exact ⟨_, edited⟩

theorem foldl_setLook_id (changes : Json.Fields) (node : Node) : (changes.foldl Node.setLook node).id = node.id := by
  induction changes generalizing node with
  | nil => rfl
  | cons field rest ih =>
    have kept : (node.setLook field).id = node.id := by
      unfold Node.setLook
      split <;> rfl
    rw [List.foldl_cons, ih, kept]

/-- A connection is added to the end, whatever class it was asked to have. -/
theorem addConnection_pushes {source target : End} {choice : LinkChoice} {id : Option String} {c : Connection}
    (edited : e.addConnection source target choice id = .ok (after, c)) : after = e.pushConnection c := by
  obtain ⟨producer, -, edited⟩ := bind_eq_ok_iff.mp edited
  obtain ⟨consumer, -, edited⟩ := bind_eq_ok_iff.mp edited
  rcases choice.resolve producer.kind with ⟨link, word⟩
  obtain ⟨_, -, edited⟩ := bind_eq_ok_iff.mp edited
  obtain ⟨id, -, edited⟩ := bind_eq_ok_iff.mp edited
  split at edited
  next => cases edited
  next => cases edited; rfl

theorem Indexed.changeNode (indexed : e.Indexed) {id : String} {change : Node → Node}
    (edited : e.changeNode id change = .ok after) (keepsId : ∀ node, (change node).id = node.id) :
    after.Indexed := by
  obtain ⟨_, _, -, -, indexed, -⟩ := changeNode_eq_ok indexed keepsId edited
  exact indexed

/-- The indices are exact after a call that succeeds. -/
theorem Call.answer_indexed (indexed : e.Indexed) (call : Call) (answered : call.answer catalog e = .ok after) :
    after.Indexed := by
  cases call with
  | addNode node => exact (addNode_eq_ok indexed (mapError_eq_ok_iff.mp answered)).2.1
  | addNodeOfType type id position label data =>
    obtain ⟨node, added⟩ := addNodeOfType_eq_ok (mapError_eq_ok_iff.mp answered)
    exact (addNode_eq_ok indexed added).2.1
  | addDraft type draft =>
    obtain ⟨⟨_, id⟩, edited, rfl⟩ := map_eq_ok_iff.mp answered
    obtain ⟨node, -, edited⟩ := bind_eq_ok_iff.mp edited
    obtain ⟨_, added, edited⟩ := bind_eq_ok_iff.mp edited
    cases edited
    exact (addNode_eq_ok indexed (mapError_eq_ok_iff.mp added)).2.1
  | removeNode id => exact (removeNode_eq_ok (mapError_eq_ok_iff.mp answered)).2.1
  | updateNodeData id patch => exact indexed.changeNode (mapError_eq_ok_iff.mp answered) fun _ => rfl
  | updateNode id changes => exact indexed.changeNode (mapError_eq_ok_iff.mp answered) fun _ => rfl
  | assign id changes =>
    obtain ⟨_, -, edited⟩ := bind_eq_ok_iff.mp answered
    split at edited
    next => exact indexed.changeNode (mapError_eq_ok_iff.mp edited) (foldl_setLook_id changes)
    next => cases edited
  | moveNode id position => exact indexed.changeNode (mapError_eq_ok_iff.mp answered) fun _ => rfl
  | moveTo id position =>
    obtain ⟨_, -, edited⟩ := bind_eq_ok_iff.mp answered
    obtain ⟨position, -, edited⟩ := bind_eq_ok_iff.mp edited
    exact indexed.changeNode (mapError_eq_ok_iff.mp edited) fun _ => rfl
  | addConnection source target choice id =>
    obtain ⟨⟨_, c⟩, edited, rfl⟩ := map_eq_ok_iff.mp (mapError_eq_ok_iff.mp answered)
    exact addConnection_pushes edited ▸ indexed.pushConnection c
  | removeConnection id =>
    obtain ⟨_, _, -, -, indexed, -⟩ := removeConnection_eq_ok (mapError_eq_ok_iff.mp answered)
    exact indexed
  | setVariable v =>
    obtain ⟨-, rfl⟩ := setVariable_eq_ok (mapError_eq_ok_iff.mp answered)
    exact indexed.of_eq rfl rfl
  | removeVariable id =>
    obtain ⟨-, rfl⟩ := removeVariable_eq_ok (mapError_eq_ok_iff.mp answered)
    exact indexed.of_eq rfl rfl
  | addComment comment =>
    obtain ⟨-, rfl⟩ := addComment_eq_ok (mapError_eq_ok_iff.mp answered)
    exact indexed.of_eq rfl rfl
  | removeComment id =>
    obtain ⟨-, rfl⟩ := removeComment_eq_ok (mapError_eq_ok_iff.mp answered)
    exact indexed.of_eq rfl rfl
  | setViewport viewport =>
    cases answered
    exact indexed.of_eq rfl rfl
  | locate id =>
    obtain ⟨_, -, same⟩ := bind_eq_ok_iff.mp (mapError_eq_ok_iff.mp answered)
    cases same
    exact indexed
  | locateConnection id =>
    obtain ⟨_, -, same⟩ := bind_eq_ok_iff.mp (mapError_eq_ok_iff.mp answered)
    cases same
    exact indexed
  | pin at_ side =>
    obtain ⟨_, -, same⟩ := bind_eq_ok_iff.mp (mapError_eq_ok_iff.mp answered)
    cases same
    exact indexed

end success

/-! ### Calls that fail -/

section failure

variable {catalog : Catalog} {e : Editor} {error : EditError} {f : Failure}

theorem harmless_of_edit {x : Except EditError α}
    (harmless : ∀ error, x = .error error → error.failure.corrupts = false)
    (failed : x.mapError EditError.failure = .error f) : f.corrupts = false := by
  obtain ⟨error, refused, rfl⟩ := mapError_eq_error_iff.mp failed
  exact harmless error refused

theorem harmless_of_structural {x : Except EditError α}
    (structural : ∀ error, x = .error error → error.IsStructural)
    (failed : x.mapError EditError.failure = .error f) : f.corrupts = false :=
  harmless_of_edit (fun error refused => (structural error refused).harmless) failed

/-- A look-up that fails was not answered. -/
theorem lookup_failed {x : Except EditError α}
    (failed : (x >>= fun _ => pure e).mapError EditError.failure = .error f) :
    x.mapError EditError.failure = .error f := by
  cases x with
  | ok a => cases failed
  | error error =>
    cases failed
    rfl

theorem locate_structural (indexed : e.Indexed) {id : String} (failed : e.locate id = .error error) :
    error.IsStructural := by
  cases locate_eq_error indexed failed
  exact ⟨_, rfl, rfl⟩

theorem locateConnection_structural (indexed : e.Indexed) {id : String}
    (failed : e.locateConnection id = .error error) : error.IsStructural := by
  cases locateConnection_eq_error indexed failed
  exact ⟨_, rfl, rfl⟩

theorem addNodeOfType_harmless {type id : String} {position : Point} {label : Option String} {data : Json.Fields}
    (failed : e.addNodeOfType catalog type id position label data = .error error) :
    error.failure.corrupts = false := by
  unfold addNodeOfType at failed
  split at failed
  next => cases failed; rfl
  next =>
    split at failed
    next => cases failed; rfl
    next => exact (addNode_eq_error failed).harmless

theorem build_harmless {type : String} {draft : NodeDraft} {unknown : Failure}
    (harmless : unknown.corrupts = false) (failed : catalog.build type draft unknown = .error f) :
    f.corrupts = false := by
  unfold Catalog.build at failed
  split at failed
  next => cases failed; exact harmless
  next t known =>
    unfold NodeType.build at failed
    dsimp only at failed
    split at failed
    next =>
      obtain ⟨issues, -, rfl⟩ := mapError_eq_error_iff.mp failed
      rfl
    next =>
      split at failed
      next =>
        obtain ⟨issues, -, rfl⟩ := mapError_eq_error_iff.mp failed
        rfl
      next => cases failed; rfl

theorem coordinate_harmless {v : Json} (failed : coordinate v = .error f) : f.corrupts = false := by
  unfold coordinate at failed
  split at failed
  next => cases failed
  next n => cases read : doubleOfInt? n <;> simp [read] at failed; exact failed ▸ rfl
  next => cases failed
  next => split at failed <;> cases failed; rfl
  next => cases failed; rfl

theorem ofItems_harmless {items : List Json} (failed : Point.ofLoose.ofItems items = .error f) :
    f.corrupts = false := by
  have item (i : Nat) (missing : (items[i]?).elim (.error .badIndex) coordinate = .error f) : f.corrupts = false := by
    cases found : items[i]? with
    | none => rw [found] at missing; cases missing; rfl
    | some v => rw [found] at missing; exact coordinate_harmless missing
  obtain missing | ⟨x, -, failed⟩ := bind_eq_error_iff.mp failed
  · exact item 0 missing
  obtain missing | ⟨y, -, failed⟩ := bind_eq_error_iff.mp failed
  · exact item 1 missing
  · cases failed

theorem ofLoose_harmless {v : Json} (failed : Point.ofLoose v = .error f) : f.corrupts = false := by
  unfold Point.ofLoose at failed
  split at failed
  next => exact ofItems_harmless failed
  next => exact ofItems_harmless failed
  next => cases failed; rfl
  next => cases failed; rfl

theorem addConnection_harmless (indexed : e.Indexed) {source target : End} {choice : LinkChoice}
    {id : Option String} (failed : e.addConnection source target choice id = .error error) :
    error.failure.corrupts = false := by
  obtain missing | ⟨producer, -, failed⟩ := bind_eq_error_iff.mp failed
  · exact (pin_eq_error indexed missing).harmless
  obtain missing | ⟨consumer, -, failed⟩ := bind_eq_error_iff.mp failed
  · exact (pin_eq_error indexed missing).harmless
  rcases choice.resolve producer.kind with ⟨link, word⟩
  obtain refused | ⟨_, -, failed⟩ := bind_eq_error_iff.mp failed
  · exact (checkJoin_eq_error refused).harmless
  obtain taken | ⟨id, -, failed⟩ := bind_eq_error_iff.mp failed
  · exact (chooseId_eq_error taken).harmless
  split at failed
  next => cases failed; rfl
  next => cases failed

/-- No call finds an exact index to be wrong. -/
theorem Call.answer_harmless (indexed : e.Indexed) (call : Call) (failed : call.answer catalog e = .error f) :
    f.corrupts = false := by
  cases call with
  | addNode node => exact harmless_of_structural (fun _ => addNode_eq_error) failed
  | addNodeOfType type id position label data => exact harmless_of_edit (fun _ => addNodeOfType_harmless) failed
  | addDraft type draft =>
    obtain unbuilt | ⟨node, -, failed⟩ := bind_eq_error_iff.mp (map_eq_error_iff.mp failed)
    · exact build_harmless rfl unbuilt
    obtain taken | ⟨_, -, done⟩ := bind_eq_error_iff.mp failed
    · exact harmless_of_structural (fun _ => addNode_eq_error) taken
    · cases done
  | removeNode id => exact harmless_of_structural (fun _ => removeNode_eq_error indexed) failed
  | updateNodeData id patch => exact harmless_of_structural (fun _ => changeNode_eq_error indexed) failed
  | updateNode id changes => exact harmless_of_structural (fun _ => changeNode_eq_error indexed) failed
  | assign id changes =>
    obtain missing | ⟨_, -, failed⟩ := bind_eq_error_iff.mp failed
    · exact harmless_of_structural (fun _ => locate_structural indexed) missing
    split at failed
    next => exact harmless_of_structural (fun _ => changeNode_eq_error indexed) failed
    next => cases failed; rfl
  | moveNode id position => exact harmless_of_structural (fun _ => changeNode_eq_error indexed) failed
  | moveTo id position =>
    obtain missing | ⟨_, -, failed⟩ := bind_eq_error_iff.mp failed
    · exact harmless_of_structural (fun _ => locate_structural indexed) missing
    obtain unread | ⟨_, -, failed⟩ := bind_eq_error_iff.mp failed
    · exact ofLoose_harmless unread
    · exact harmless_of_structural (fun _ => changeNode_eq_error indexed) failed
  | addConnection source target choice id =>
    exact harmless_of_edit (fun _ failed => addConnection_harmless indexed (map_eq_error_iff.mp failed)) failed
  | removeConnection id =>
    exact harmless_of_structural (fun _ => removeConnection_eq_error indexed) failed
  | setVariable v => exact harmless_of_structural (fun _ => setVariable_eq_error) failed
  | removeVariable id => exact harmless_of_structural (fun _ => removeVariable_eq_error) failed
  | addComment comment => exact harmless_of_structural (fun _ => addComment_eq_error) failed
  | removeComment id => exact harmless_of_structural (fun _ => removeComment_eq_error) failed
  | setViewport viewport => cases failed
  | locate id => exact harmless_of_structural (fun _ => locate_structural indexed) (lookup_failed failed)
  | locateConnection id =>
    exact harmless_of_structural (fun _ => locateConnection_structural indexed) (lookup_failed failed)
  | pin at_ side => exact harmless_of_structural (fun _ => pin_eq_error indexed) (lookup_failed failed)

end failure

/-! ### Runs -/

/-- The editor after some calls, each of which has succeeded or failed. -/
def run (catalog : Catalog) (calls : List Call) (e : Editor) : Editor :=
  calls.foldl (fun e call => ((call.script catalog).out e).2) e

/-- A call either succeeds and leaves exact indices, or it fails for another reason and changes nothing. -/
theorem Call.script_cases {e : Editor} (catalog : Catalog) (indexed : e.Indexed) (call : Call) :
    (∃ after, call.answer catalog e = .ok after ∧ (call.script catalog).out e = (.ok (), after) ∧ after.Indexed) ∨
      ∃ f, call.answer catalog e = .error f ∧ (call.script catalog).out e = (.error f, e) ∧ f.corrupts = false := by
  rw [script_out]
  cases answered : call.answer catalog e with
  | ok after => exact .inl ⟨after, rfl, rfl, call.answer_indexed indexed answered⟩
  | error f => exact .inr ⟨f, rfl, rfl, call.answer_harmless indexed answered⟩

theorem Indexed.run {e : Editor} (catalog : Catalog) (indexed : e.Indexed) (calls : List Call) :
    (run catalog calls e).Indexed := by
  induction calls generalizing e with
  | nil => exact indexed
  | cons call calls ih =>
    have next : ((call.script catalog).out e).2.Indexed := by
      obtain ⟨after, -, left, indexed⟩ | ⟨f, -, left, -⟩ := call.script_cases catalog indexed
      · exact left ▸ indexed
      · exact left ▸ indexed
    exact ih next

/-- After any calls both indices map the ids that occur, and no others, to their last positions. A further call
succeeds, or it fails, leaves everything as it was and does not find an index to be wrong. -/
theorem run_indexed (catalog : Catalog) (d : Document) (calls : List Call) :
    (run catalog calls (ofDocument d)).Indexed ∧ ∀ call : Call,
      (∃ after, call.answer catalog (run catalog calls (ofDocument d)) = .ok after ∧
        (call.script catalog).out (run catalog calls (ofDocument d)) = (.ok (), after)) ∨
      ∃ f, call.answer catalog (run catalog calls (ofDocument d)) = .error f ∧
        (call.script catalog).out (run catalog calls (ofDocument d)) =
          (.error f, run catalog calls (ofDocument d)) ∧ f.corrupts = false := by
  have indexed := (indexed_ofDocument d).run catalog calls
  refine ⟨indexed, fun call => ?_⟩
  obtain ⟨after, answered, left, -⟩ | failed := call.script_cases catalog indexed
  · exact .inl ⟨after, answered, left⟩
  · exact .inr failed

end Editor

end Flowchart
