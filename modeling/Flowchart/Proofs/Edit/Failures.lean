import Flowchart.Proofs.Document.RoundTrip
import Flowchart.Proofs.Edit.Soundness

/-!
# How a batch fails

* `EditError.IsStructural`: the error is reported as one of the four errors of a single edit.
* `Operation.NamesNothing`: an operation gives an empty id, and nothing else is wrong with it. Of the operations that
  were read only connections can do so, `Operation.NamesNothing.connects`.
* `Operation.applyTo_eq_error`: an operation fails with a structural error, or it names nothing. The indices of an
  editor are never found to be wrong.
* `applyExpanded_eq_error_iff`: a batch fails where the first of its operations fails.
* `applyBatch_failures`: what a batch can come to, and when it comes to the error that is not structural.
-/

namespace Flowchart

namespace EditError

/-- The error is reported as one of those of a single edit. -/
def IsStructural (error : EditError) : Prop :=
  ∃ report, error.failure = .reported report ∧ report.kind.isStructural = true

/-- What is wrong with a connection or a node whose id is empty. -/
def emptyId : EditError := .malformed [⟨.emptyString, [.key "id"], .string ""⟩]

end EditError

/-! ### Single edits that fail -/

namespace Editor

variable {e : Editor} {error : EditError}

/-- An index that is exact leads to the node with the id. -/
theorem locate_eq_error (indexed : e.Indexed) {id : String} (failed : e.locate id = .error error) :
    error = .missingNode id := by
  unfold locate at failed
  split at failed
  next =>
    cases failed
    rfl
  next position found =>
    have there := ((indexed.nodes id position).1 found).1
    rw [List.getElem?_map] at there
    obtain ⟨node, present, same⟩ := Option.map_eq_some_iff.1 there
    simp only [present, same, if_true] at failed
    cases failed

theorem locateConnection_eq_error (indexed : e.Indexed) {id : String}
    (failed : e.locateConnection id = .error error) : error = .missingConnection id := by
  unfold locateConnection at failed
  split at failed
  next =>
    cases failed
    rfl
  next position found =>
    have there := ((indexed.connections id position).1 found).1
    rw [List.getElem?_map] at there
    obtain ⟨c, present, same⟩ := Option.map_eq_some_iff.1 there
    simp only [present, same, if_true] at failed
    cases failed

theorem addNode_eq_error {node : Node} (failed : e.addNode node = .error error) : error.IsStructural := by
  unfold addNode at failed
  split at failed
  next =>
    cases failed
    exact ⟨_, rfl, rfl⟩
  next => cases failed

theorem checkNames_of_typed {t : NodeType} (typed : t.id.isEmpty = false) (id : String) :
    checkNames id t = if id.isEmpty then .bad [⟨.emptyString, [.key "id"], .string ""⟩] else .ok () := by
  rw [checkNames, Check.name_string typed]
  cases empty : id.isEmpty with
  | true =>
    cases String.isEmpty_iff.mp empty
    rfl
  | false =>
    rw [Check.name_string empty]
    rfl

theorem addNodeOfType_emptyId {catalog : Catalog} {type : String} {t : NodeType} (known : catalog.find? type = some t)
    (typed : t.id.isEmpty = false) (position : Point) (label : Option String) (data : Json.Fields) :
    e.addNodeOfType catalog type "" position label data = .error .emptyId := by
  simp only [addNodeOfType, known, checkNames_of_typed typed]
  rfl

/-- A type of the catalog whose id is not empty makes a node, if the node has an id. -/
theorem addNodeOfType_eq_error {catalog : Catalog} (typed : ∀ t ∈ catalog.types, t.id.isEmpty = false)
    {type id : String} {position : Point} {label : Option String} {data : Json.Fields}
    (failed : e.addNodeOfType catalog type id position label data = .error error) :
    error.IsStructural ∨ error = .emptyId ∧ id = "" ∧ (catalog.find? type).isSome = true := by
  unfold addNodeOfType at failed
  split at failed
  next =>
    cases failed
    exact .inl ⟨_, rfl, rfl⟩
  next t known =>
    rw [checkNames_of_typed (typed t (List.mem_of_find?_eq_some known))] at failed
    cases empty : id.isEmpty with
    | true =>
      simp only [empty, if_true] at failed
      cases failed
      exact .inr ⟨rfl, String.isEmpty_iff.mp empty, by rw [known]; rfl⟩
    | false =>
      simp only [empty, Bool.false_eq_true, if_false] at failed
      exact .inl (addNode_eq_error failed)

theorem removeNode_eq_error (indexed : e.Indexed) {id : String}
    (failed : e.removeNode id = .error error) : error.IsStructural := by
  obtain missing | ⟨_, _, done⟩ := bind_eq_error_iff.1 failed
  · cases locate_eq_error indexed missing
    exact ⟨_, rfl, rfl⟩
  · cases done

theorem changeNode_eq_error (indexed : e.Indexed) {id : String} {change : Node → Node}
    (failed : e.changeNode id change = .error error) : error.IsStructural := by
  obtain missing | ⟨_, _, done⟩ := bind_eq_error_iff.1 failed
  · cases locate_eq_error indexed missing
    exact ⟨_, rfl, rfl⟩
  · cases done

theorem pin_eq_error (indexed : e.Indexed) {at_ : End} {side : Side}
    (failed : e.pin at_ side = .error error) : error.IsStructural := by
  obtain missing | ⟨_, _, failed⟩ := bind_eq_error_iff.1 failed
  · cases locate_eq_error indexed missing
    exact ⟨_, rfl, rfl⟩
  · dsimp only at failed
    split at failed
    next => cases failed
    next =>
      split at failed
      next =>
        cases failed
        exact ⟨_, rfl, rfl⟩
      next =>
        cases failed
        exact ⟨_, rfl, rfl⟩

theorem checkJoin_eq_error {source target : End} {producer consumer : Kind} {link : Link} {word : String}
    (failed : e.checkJoin source target producer consumer link word = .error error) :
    error.IsStructural := by
  unfold checkJoin at failed
  split at failed
  next =>
    cases failed
    exact ⟨_, rfl, rfl⟩
  next =>
    split at failed
    next =>
      split at failed
      next =>
        cases failed
        exact ⟨_, rfl, rfl⟩
      next => cases failed
    next => cases failed

theorem chooseId_eq_error {source target : End} {given : Option String}
    (failed : e.chooseId source target given = .error error) : error.IsStructural := by
  cases given with
  | none => cases failed
  | some id =>
    simp only [chooseId] at failed
    split at failed
    next =>
      cases failed
      exact ⟨_, rfl, rfl⟩
    next => cases failed

/-- A free id starts with the base. -/
theorem freeId_toList (taken : String → Bool) (base : String) (fuel suffix : Nat) :
    ∃ rest, (freeId taken base fuel suffix).toList = base.toList ++ rest := by
  induction fuel generalizing suffix with
  | zero => exact ⟨_, by rw [freeId, String.toList_append, String.toList_append, List.append_assoc]; rfl⟩
  | succ fuel ih =>
    cases first : taken (candidateId base suffix) with
    | true =>
      have skipped : freeId taken base (fuel + 1) suffix = freeId taken base fuel (suffix + 1) :=
        if_pos (by simpa [candidateId] using first)
      rw [skipped]
      exact ih (suffix + 1)
    | false =>
      have chosen : freeId taken base (fuel + 1) suffix = candidateId base suffix :=
        if_neg (by simpa [candidateId] using first)
      rw [chosen]
      exact ⟨_, candidateId_toList base suffix⟩

theorem freshConnectionId_isEmpty (e : Editor) (source target : End) :
    (e.freshConnectionId source target).isEmpty = false := by
  obtain ⟨rest, chosen⟩ := freeId_toList e.hasConnection
    s!"conn-{source.node}-{source.pin}-{target.node}-{target.pin}" (e.connectionIndex.length + 1) 1
  cases filled : (e.freshConnectionId source target).isEmpty with
  | false => rfl
  | true =>
    rw [String.isEmpty_iff] at filled
    rw [← freshConnectionId, filled] at chosen
    simp [toString] at chosen

theorem makeConnection_emptyId (source target : End) (link : Link) :
    makeConnection "" source target link.name = .bad [⟨.emptyString, [.key "id"], .string ""⟩] := by
  cases link <;> rfl

theorem makeConnection_of_filled {id : String} (filled : id.isEmpty = false) (source target : End)
    (link : Link) :
    makeConnection id source target link.name = .ok ⟨id, source, target, link⟩ := by
  have word : Link.check (.string link.name) = .ok link := Link.check_name link
  unfold makeConnection
  rw [word, Check.name_string filled]
  rfl

/-- Connecting fails with a structural error, or because the id that is given is empty. Under a fresh id the
same connection could be made. -/
theorem addConnection_eq_error (indexed : e.Indexed) {source target : End} {slot : Slot Link}
    {given : Option String}
    (failed : e.addConnection source target (.ofSlot slot) given = .error error) :
    error.IsStructural ∨ error = .emptyId ∧ given = some "" ∧ e.hasConnection "" = false ∧
      ∃ done, e.addConnection source target (.ofSlot slot) none = .ok done := by
  obtain missing | ⟨producer, produces, failed⟩ := bind_eq_error_iff.1 failed
  · exact .inl (pin_eq_error indexed missing)
  obtain missing | ⟨consumer, consumes, failed⟩ := bind_eq_error_iff.1 failed
  · exact .inl (pin_eq_error indexed missing)
  obtain ⟨link, resolved⟩ : ∃ link, (LinkChoice.ofSlot slot).resolve producer.kind =
      (link, link.name) := by
    cases slot <;> exact ⟨_, rfl⟩
  simp only [resolved] at failed
  obtain refused | ⟨_, joined, failed⟩ := bind_eq_error_iff.1 failed
  · exact .inl (checkJoin_eq_error refused)
  obtain taken | ⟨id, chosen, failed⟩ := bind_eq_error_iff.1 failed
  · exact .inl (chooseId_eq_error taken)
  cases filled : id.isEmpty with
  | false =>
    simp only [makeConnection_of_filled filled] at failed
    cases failed
  | true =>
    -- a fresh id is not empty, so this one was given
    rw [String.isEmpty_iff] at filled
    subst filled
    simp only [makeConnection_emptyId] at failed
    cases failed
    obtain ⟨given, free⟩ : given = some "" ∧ e.hasConnection "" = false := by
      cases given with
      | none =>
        have fresh : e.freshConnectionId source target = "" := Except.ok.inj chosen
        have filled := e.freshConnectionId_isEmpty source target
        simp [fresh] at filled
      | some id =>
        simp only [chooseId] at chosen
        split at chosen
        next => cases chosen
        next free =>
          cases chosen
          exact ⟨rfl, eq_false_of_ne_true free⟩
    have chosen : e.chooseId source target none = .ok (e.freshConnectionId source target) := rfl
    have made := makeConnection_of_filled (e.freshConnectionId_isEmpty source target) source target link
    let c : Connection := ⟨e.freshConnectionId source target, source, target, link⟩
    have again : e.addConnection source target (.ofSlot slot) none = .ok (e.pushConnection c, c) := by
      simp only [addConnection, produces, consumes, resolved, joined, chosen, made, bind, Except.bind]
      rfl
    exact .inr ⟨rfl, given, free, _, again⟩

/-- Where a connection could be made under a fresh id, it fails under an empty one that is not taken. -/
theorem addConnection_emptyId {source target : End} {slot : Slot Link} {done : Editor × Connection}
    (free : e.hasConnection "" = false)
    (made : e.addConnection source target (.ofSlot slot) none = .ok done) :
    e.addConnection source target (.ofSlot slot) (some "") = .error .emptyId := by
  obtain ⟨producer, produces, made⟩ := bind_eq_ok_iff.1 made
  obtain ⟨consumer, consumes, made⟩ := bind_eq_ok_iff.1 made
  obtain ⟨link, resolved⟩ : ∃ link, (LinkChoice.ofSlot slot).resolve producer.kind =
      (link, link.name) := by
    cases slot <;> exact ⟨_, rfl⟩
  simp only [resolved] at made
  obtain ⟨_, joined, -⟩ := bind_eq_ok_iff.1 made
  have chosen : e.chooseId source target (some "") = .ok "" := if_neg (by simp [free])
  simp only [addConnection, produces, consumes, resolved, joined, chosen, makeConnection_emptyId, bind,
    Except.bind]
  rfl

theorem removeConnection_eq_error (indexed : e.Indexed) {id : String}
    (failed : e.removeConnection id = .error error) : error.IsStructural := by
  obtain missing | ⟨_, _, done⟩ := bind_eq_error_iff.1 failed
  · cases locateConnection_eq_error indexed missing
    exact ⟨_, rfl, rfl⟩
  · cases done

theorem setVariable_eq_error {v : Variable} (failed : e.setVariable v = .error error) :
    error.IsStructural := by
  unfold setVariable at failed
  split at failed
  next =>
    cases failed
    exact ⟨_, rfl, rfl⟩
  next => cases failed

theorem removeVariable_eq_error {id : String} (failed : e.removeVariable id = .error error) :
    error.IsStructural := by
  unfold removeVariable at failed
  dsimp only at failed
  split at failed
  next =>
    cases failed
    exact ⟨_, rfl, rfl⟩
  next => cases failed

theorem addComment_eq_error {comment : Comment} (failed : e.addComment comment = .error error) :
    error.IsStructural := by
  unfold addComment at failed
  split at failed
  next =>
    cases failed
    exact ⟨_, rfl, rfl⟩
  next => cases failed

theorem removeComment_eq_error {id : String} (failed : e.removeComment id = .error error) :
    error.IsStructural := by
  unfold removeComment at failed
  dsimp only at failed
  split at failed
  next =>
    cases failed
    exact ⟨_, rfl, rfl⟩
  next => cases failed

end Editor

/-! ### Operations -/

/-- Every type of the catalog has an id that a node may have as its type. -/
def Catalog.Named (catalog : Catalog) : Prop := ∀ t ∈ catalog.types, t.id.isEmpty = false

theorem builtin_named : Catalog.builtin.Named := by
  unfold Catalog.Named
  decide

namespace Operation

variable {catalog : Catalog} {e : Editor} {error : EditError}

/-- The operation gives an empty id, and nothing else is wrong with it. -/
inductive NamesNothing (catalog : Catalog) (e : Editor) : Operation → Prop where
  /-- The empty id is free, and the connection would be made if the id were left out. -/
  | connection {j : Joining} (given : j.id = .value "") (free : e.hasConnection "" = false)
      (made : ∃ done, (addConnection { j with id := .absent }).applyTo catalog e = .ok done) :
      NamesNothing catalog e (addConnection j)
  /-- The node is of a known type. -/
  | node {a : NodeAddition} (typed : a.node.get? = none) (given : a.id.get?.getD "" = "")
      (known : (catalog.find? (a.nodeType.get?.getD "")).isSome = true) : NamesNothing catalog e (addNode a)

/-- A node that was read has an id, so that it is a connection that gets the empty one. -/
theorem NamesNothing.connects {operation : Operation} (nameless : operation.NamesNothing catalog e)
    (sound : operation.Sound) : ∃ j, operation = addConnection j ∧ j.id = .value "" ∧ e.hasConnection "" = false ∧
      ∃ done, (addConnection { j with id := .absent }).applyTo catalog e = .ok done := by
  cases nameless with
  | connection given free made => exact ⟨_, rfl, given, free, made⟩
  | node typed given =>
    have filled := NodeAddition.Sound.id sound typed
    rw [given] at filled
    cases filled

/-- An operation fails with a structural error, or because it names nothing. -/
theorem applyTo_eq_error (named : catalog.Named) (indexed : e.Indexed) {operation : Operation}
    (failed : operation.applyTo catalog e = .error error) :
    error.IsStructural ∨ error = .emptyId ∧ operation.NamesNothing catalog e := by
  cases operation with
  | addNode a =>
    unfold applyTo at failed
    dsimp only at failed
    split at failed
    next => exact .inl (Editor.addNode_eq_error (map_eq_error_iff.1 failed))
    next typed =>
      obtain structural | ⟨empty, given, known⟩ := Editor.addNodeOfType_eq_error named (map_eq_error_iff.1 failed)
      · exact .inl structural
      · exact .inr ⟨empty, .node typed given known⟩
  | removeNode id => exact .inl (Editor.removeNode_eq_error indexed (map_eq_error_iff.1 failed))
  | updateNodeData id patch => exact .inl (Editor.changeNode_eq_error indexed (map_eq_error_iff.1 failed))
  | updateNode id changes => exact .inl (Editor.changeNode_eq_error indexed (map_eq_error_iff.1 failed))
  | moveNode id position => exact .inl (Editor.changeNode_eq_error indexed (map_eq_error_iff.1 failed))
  | addConnection j =>
    obtain structural | ⟨empty, given, free, done, made⟩ :=
      Editor.addConnection_eq_error indexed (map_eq_error_iff.1 failed)
    · exact .inl structural
    · exact .inr ⟨empty, .connection (Slot.eq_value_of_get? given) free ⟨_, map_eq_ok_iff.2 ⟨done, made, rfl⟩⟩⟩
  | removeConnection id =>
    exact .inl (Editor.removeConnection_eq_error indexed (map_eq_error_iff.1 failed))
  | setVariable v => exact .inl (Editor.setVariable_eq_error (map_eq_error_iff.1 failed))
  | removeVariable id => exact .inl (Editor.removeVariable_eq_error (map_eq_error_iff.1 failed))
  | addComment comment => exact .inl (Editor.addComment_eq_error (map_eq_error_iff.1 failed))
  | removeComment id => exact .inl (Editor.removeComment_eq_error (map_eq_error_iff.1 failed))
  | setViewport viewport => cases failed

theorem NamesNothing.applyTo (named : catalog.Named) {operation : Operation}
    (nameless : operation.NamesNothing catalog e) : operation.applyTo catalog e = .error .emptyId := by
  cases nameless with
  | @connection j given free made =>
    obtain ⟨_, done⟩ := made
    obtain ⟨_, made, -⟩ := map_eq_ok_iff.1 done
    have failed := Editor.addConnection_emptyId free made
    rw [← show j.id.get? = some "" by rw [given]; rfl] at failed
    exact map_eq_error_iff.2 failed
  | node typed given known =>
    obtain ⟨t, known⟩ := Option.isSome_iff_exists.mp known
    have failed := Editor.addNodeOfType_emptyId (e := e) known (named t (List.mem_of_find?_eq_some known))
    simp only [Operation.applyTo, typed, given, failed]
    rfl

end Operation

/-! ### Batches -/

section Batches

variable {catalog : Catalog} {e : Editor} {error : EditError}

theorem Editor.Indexed.reaches {s t : BatchState} (reaches : BatchState.Reaches catalog s t)
    (indexed : s.editor.Indexed) : t.editor.Indexed := by
  induction reaches with
  | refl => exact indexed
  | tail _ step ih =>
    cases step with
    | expand => exact ih
    | apply applied => exact (Operation.effect_of_applyTo ih applied).2

/-- Operations fail with the error of the first that cannot be applied. -/
theorem applyAll_eq_error_iff {operations : List Operation} :
    applyAll catalog e operations = .error error ↔ ∃ before operation rest next applied,
      operations = before ++ operation :: rest ∧ applyAll catalog e before = .ok (next, applied) ∧
        operation.applyTo catalog next = .error error := by
  induction operations generalizing e with
  | nil => simp [applyAll]
  | cons first others ih =>
    constructor
    · intro failed
      obtain failed | ⟨⟨next, recorded⟩, applied, failed⟩ := bind_eq_error_iff.1 failed
      · exact ⟨[], first, others, e, [], rfl, rfl, failed⟩
      obtain failed | ⟨_, _, done⟩ := bind_eq_error_iff.1 failed
      · obtain ⟨before, operation, rest, last, more, rfl, done, failed⟩ := ih.1 failed
        exact ⟨first :: before, operation, rest, last, recorded :: more, rfl,
          BatchState.applyAll_cons_eq_ok_iff.2 ⟨next, recorded, more, applied, done, rfl⟩, failed⟩
      · cases done
    · rintro ⟨before, operation, rest, last, applied, split, done, failed⟩
      cases before with
      | nil =>
        cases split
        cases done
        exact bind_eq_error_iff.2 (.inl failed)
      | cons _ before =>
        cases split
        obtain ⟨next, recorded, more, firstApplied, othersApplied, rfl⟩ :=
          BatchState.applyAll_cons_eq_ok_iff.1 done
        exact bind_eq_error_iff.2 (.inr ⟨_, firstApplied, bind_eq_error_iff.2 (.inl (ih.2
          ⟨before, operation, rest, last, more, rfl, othersApplied, failed⟩))⟩)

/-- A batch fails with the error of the first operation that cannot be carried out. -/
theorem applyExpanded_eq_error_iff {operations : List Operation} :
    applyExpanded catalog e operations = .error error ↔ ∃ before operation rest next applied,
      operations = before ++ operation :: rest ∧ applyExpanded catalog e before = .ok (next, applied) ∧
        applyAll catalog next (operation.expand next) = .error error := by
  induction operations generalizing e with
  | nil => simp [applyExpanded]
  | cons first others ih =>
    constructor
    · intro failed
      obtain failed | ⟨⟨next, recorded⟩, applied, failed⟩ := bind_eq_error_iff.1 failed
      · exact ⟨[], first, others, e, [], rfl, rfl, failed⟩
      obtain failed | ⟨_, _, done⟩ := bind_eq_error_iff.1 failed
      · obtain ⟨before, operation, rest, last, more, rfl, done, failed⟩ := ih.1 failed
        exact ⟨first :: before, operation, rest, last, recorded ++ more, rfl,
          BatchState.applyExpanded_cons_eq_ok_iff.2 ⟨next, recorded, more, applied, done, rfl⟩, failed⟩
      · cases done
    · rintro ⟨before, operation, rest, last, applied, split, done, failed⟩
      cases before with
      | nil =>
        cases split
        cases done
        exact bind_eq_error_iff.2 (.inl failed)
      | cons _ before =>
        cases split
        obtain ⟨next, recorded, more, firstApplied, othersApplied, rfl⟩ :=
          BatchState.applyExpanded_cons_eq_ok_iff.1 done
        exact bind_eq_error_iff.2 (.inr ⟨_, firstApplied, bind_eq_error_iff.2 (.inl (ih.2
          ⟨before, operation, rest, last, more, rfl, othersApplied, failed⟩))⟩)

/-- What an operation stands for fails with a structural error, or is the operation itself and names nothing. -/
theorem expand_eq_error (named : catalog.Named) (indexed : e.Indexed) {operation : Operation}
    (failed : applyAll catalog e (operation.expand e) = .error error) :
    error.IsStructural ∨ error = .emptyId ∧ operation.NamesNothing catalog e := by
  obtain ⟨before, failing, rest, next, applied, split, done, failed⟩ := applyAll_eq_error_iff.1 failed
  have reaches : BatchState.Reaches catalog ⟨e, before, []⟩ ⟨next, [], []⟩ :=
    BatchState.reaches_of_applyAll done
  have indexedNext : next.Indexed := Editor.Indexed.reaches reaches indexed
  obtain structural | ⟨empty, nameless⟩ := Operation.applyTo_eq_error named indexedNext failed
  · exact .inl structural
  refine .inr ⟨empty, ?_⟩
  have member : failing ∈ operation.expand e := split ▸ List.mem_append_right _ List.mem_cons_self
  -- a removal stands for removals only, so the operation stands for itself
  by_cases removes : ∃ node, operation = .removeNode node
  · obtain ⟨node, rfl⟩ := removes
    simp only [Operation.expand] at member
    split at member
    next => cases nameless <;> simp at member
    next => cases nameless <;> simp at member
  · rw [BatchState.expand_other (not_exists.1 removes)] at split member
    cases List.mem_singleton.1 member
    cases before with
    | nil =>
      cases done
      exact nameless
    | cons _ before => simp at split

theorem applyBatch_eq_error_iff {annotates : Bool} {d : Document} {operations : List Operation} :
    applyBatch catalog annotates d operations = .error error ↔
      applyExpanded catalog (.ofDocument d) operations = .error error := by
  refine bind_eq_error_iff.trans (or_iff_left ?_)
  rintro ⟨_, _, done⟩
  dsimp only at done
  split at done <;> cases done

/-- A batch has an outcome, or fails with a structural error, or with the one about an empty id. It fails
with that one exactly if the first operation that cannot be carried out names nothing, and has no other flaw. Of the
operations that were read, such a one makes a connection with the empty id, which is free, and would be applied if it
left the id out. -/
theorem applyBatch_failures (named : catalog.Named) (annotates : Bool) (d : Document)
    (operations : List Operation) :
    ((∃ outcome, applyBatch catalog annotates d operations = .ok outcome) ∨
        ∃ error, applyBatch catalog annotates d operations = .error error ∧
          (error.IsStructural ∨ error = .emptyId)) ∧
      (applyBatch catalog annotates d operations = .error .emptyId ↔
        ∃ before operation rest next applied, operations = before ++ operation :: rest ∧
          applyExpanded catalog (.ofDocument d) before = .ok (next, applied) ∧
            operation.NamesNothing catalog next) ∧
      ∀ operation ∈ operations, operation.Sound → ∀ next, operation.NamesNothing catalog next →
        ∃ j, operation = .addConnection j ∧ j.id = .value "" ∧ next.hasConnection "" = false ∧
          ∃ done, (Operation.addConnection { j with id := .absent }).applyTo catalog next = .ok done := by
  have indexed {before : List Operation} {next : Editor} {applied : List Operation}
      (done : applyExpanded catalog (.ofDocument d) before = .ok (next, applied)) : next.Indexed :=
    Editor.Indexed.reaches (BatchState.reaches_of_applyExpanded done) (Editor.indexed_ofDocument d)
  refine ⟨?_, ?_, fun operation _ sound next nameless => nameless.connects sound⟩
  · cases done : applyBatch catalog annotates d operations with
    | ok outcome => exact .inl ⟨outcome, rfl⟩
    | error error =>
      obtain ⟨_, _, _, next, _, -, applied, failed⟩ :=
        applyExpanded_eq_error_iff.1 (applyBatch_eq_error_iff.1 done)
      exact .inr ⟨error, rfl, (expand_eq_error named (indexed applied) failed).imp_right And.left⟩
  · rw [applyBatch_eq_error_iff, applyExpanded_eq_error_iff]
    constructor
    · rintro ⟨before, operation, rest, next, recorded, split, applied, failed⟩
      obtain ⟨_, same, structural⟩ | ⟨-, nameless⟩ := expand_eq_error named (indexed applied) failed
      · cases same
      · exact ⟨before, operation, rest, next, recorded, split, applied, nameless⟩
    · rintro ⟨before, operation, rest, next, recorded, split, applied, nameless⟩
      refine ⟨before, operation, rest, next, recorded, split, applied, ?_⟩
      have failed := nameless.applyTo named
      -- neither of the operations that can name nothing stands for others
      cases nameless with
      | connection => exact bind_eq_error_iff.2 (.inl failed)
      | node => exact bind_eq_error_iff.2 (.inl failed)

end Batches

/-- A trigger, a delay and a connection between them with the empty id, as they come in. -/
def sampleNameless : Json :=
  .array [.object [("op", .string "add_node"), ("nodeType", .string "trigger"), ("id", .string "t")],
    .object [("op", .string "add_node"), ("nodeType", .string "delay"), ("id", .string "d")],
    .object [("op", .string "add_connection"), ("id", .string ""), ("fromNodeId", .string "t"),
      ("fromPinId", .string "exec-out"), ("toNodeId", .string "d"), ("toPinId", .string "exec-in")]]

/-- The grammar lets the empty id through, and the batch fails with no structural error. -/
theorem applyBatch_failures_nameless : ∃ operations,
    Operation.checkList sampleNameless = .ok operations ∧
      applyBatch .builtin true {} operations = .error .emptyId ∧
      ¬EditError.IsStructural .emptyId := by
  let j : Joining := { id := .value "", source := ⟨"t", "exec-out"⟩, target := ⟨"d", "exec-in"⟩ }
  let before : List Operation := [.addNode { nodeType := .value "trigger", id := .value "t" },
    .addNode { nodeType := .value "delay", id := .value "d" }]
  have checked : Operation.checkList sampleNameless = .ok (before ++ [.addConnection j]) := rfl
  obtain ⟨next, applied, done, nameless⟩ : ∃ next applied,
      applyExpanded .builtin (.ofDocument {}) before = .ok (next, applied) ∧
        (Operation.addConnection j).NamesNothing .builtin next :=
    ⟨_, _, rfl, .connection rfl rfl ⟨_, rfl⟩⟩
  refine ⟨_, checked, (applyBatch_failures builtin_named true {} _).2.1.2
    ⟨before, .addConnection j, [], next, applied, rfl, done, nameless⟩, ?_⟩
  rintro ⟨_, reported, -⟩
  cases reported

end Flowchart
