import Mathlib
import Flowchart.Edit.Editor

/-!
# The indices of an editor

* `Positions.Exact`: an index maps the ids of a list, and no others, to their last positions.
* `Editor.Indexed`: both indices of an editor are exact.

Every primitive edit keeps the indices exact. Those that take an item away build them anew; those that
add one put the new id in front of the old index.
-/

namespace Flowchart

namespace Positions

/-- Each id is mapped to its last position, and an id that does not occur to none. -/
def Exact (positions : Positions) (ids : List String) : Prop :=
  ∀ id position, positions.lookup id = some position ↔
    ids[position]? = some id ∧ ∀ later, position < later → ids[later]? ≠ some id

theorem exact_nil : Exact [] [] := by simp [Exact]

/-- An id that is added at the end has its last position there. -/
theorem Exact.push {positions : Positions} {ids : List String} (exact : positions.Exact ids)
    (added : String) : Exact ((added, ids.length) :: positions) (ids ++ [added]) := by
  intro id position
  have beyond : ∀ later, ids.length < later → (ids ++ [added])[later]? ≠ some id := by
    intro later past
    rw [List.getElem?_eq_none (by simp; omega)]
    simp
  by_cases same : id = added
  · subst same
    have lookup : List.lookup id ((id, ids.length) :: positions) = some ids.length := List.lookup_cons_self
    rw [lookup, Option.some.injEq]
    constructor
    · rintro rfl
      exact ⟨by simp, beyond⟩
    · rintro ⟨found, last⟩
      have bound : position < ids.length + 1 := by
        simpa using (List.getElem?_eq_some_iff.mp found).1
      have notBefore : ¬position < ids.length := fun before => last ids.length before (by simp)
      omega
  -- for every other id the new entry is passed over, and the old positions are found again
  · have lookup : List.lookup id ((added, ids.length) :: positions) = positions.lookup id := by
      rw [List.lookup_cons, beq_eq_false_iff_ne.mpr same]
    have old : ∀ other : Nat, (ids ++ [added])[other]? = some id ↔ ids[other]? = some id := by
      intro other
      rw [List.getElem?_append]
      split
      · rfl
      · rename_i outside
        rw [List.getElem?_eq_none (Nat.le_of_not_lt outside), List.getElem?_singleton]
        split <;> simp [Ne.symm same]
    rw [lookup, exact id position]
    simp only [ne_eq, old]

/-- A fresh index is exact. -/
theorem exact_of (ids : List String) : (Positions.of ids).Exact ids := by
  -- the index grows in front as the list grows at its end
  induction ids using List.reverseRecOn with
  | nil => exact exact_nil
  | append_singleton ids id ih =>
    have front : Positions.of (ids ++ [id]) = (id, ids.length) :: Positions.of ids := by
      simp [Positions.of, List.zipIdx_append]
    exact front ▸ ih.push id

theorem exists_last {ids : List String} {id : String} (member : id ∈ ids) :
    ∃ position : Nat, ids[position]? = some id ∧ ∀ later, position < later → ids[later]? ≠ some id := by
  cases found : (Positions.of ids).lookup id with
  | some position => exact ⟨position, (exact_of ids id position).mp found⟩
  | none =>
    have absent := List.lookup_eq_none_iff.mp found
    obtain ⟨position, bound, rfl⟩ := List.mem_iff_getElem.mp member
    have entry : (ids[position], position) ∈ Positions.of ids := by
      simp [Positions.of, List.mem_zipIdx_iff_getElem?, bound]
    simpa using absent _ entry

/-- An exact index knows the ids that occur. -/
theorem Exact.isSome_iff {positions : Positions} {ids : List String} (exact : positions.Exact ids)
    (id : String) : (positions.lookup id).isSome ↔ id ∈ ids := by
  constructor
  · intro found
    obtain ⟨position, found⟩ := Option.isSome_iff_exists.mp found
    exact List.mem_of_getElem? ((exact id position).mp found).1
  · intro member
    obtain ⟨position, last⟩ := exists_last member
    simp [(exact id position).mpr last]

end Positions

namespace Editor

/-- Both indices are exact. -/
structure Indexed (e : Editor) : Prop where
  nodes : e.nodeIndex.Exact (e.document.nodes.items.map Node.id)
  connections : e.connectionIndex.Exact (e.document.connections.items.map Connection.id)

theorem indexed_ofDocument (d : Document) : (ofDocument d).Indexed :=
  ⟨Positions.exact_of _, Positions.exact_of _⟩

theorem Indexed.hasNode_iff {e : Editor} (indexed : e.Indexed) (id : String) :
    e.hasNode id = true ↔ id ∈ e.document.nodes.items.map Node.id :=
  indexed.nodes.isSome_iff id

theorem Indexed.hasConnection_iff {e : Editor} (indexed : e.Indexed) (id : String) :
    e.hasConnection id = true ↔ id ∈ e.document.connections.items.map Connection.id :=
  indexed.connections.isSome_iff id

/-- What is located under an id is a node with that id, at the position given. -/
theorem locate_eq_ok {e : Editor} {id : String} {position : Nat} {node : Node}
    (located : e.locate id = .ok (position, node)) :
    e.document.nodes.items[position]? = some node ∧ node.id = id := by
  unfold locate at located
  grind

theorem locateConnection_eq_ok {e : Editor} {id : String} {position : Nat}
    (located : e.locateConnection id = .ok position) :
    ∃ c, e.document.connections.items[position]? = some c ∧ c.id = id := by
  unfold locateConnection at located
  grind

/-- An exact index leads to the last position of an id. -/
theorem Indexed.locateConnection_of_last {e : Editor} (indexed : e.Indexed) {id : String} {position : Nat}
    (present : (e.document.connections.items.map Connection.id)[position]? = some id)
    (last : ∀ later, position < later → (e.document.connections.items.map Connection.id)[later]? ≠ some id) :
    e.locateConnection id = .ok position := by
  have lookup := (indexed.connections id position).mpr ⟨present, last⟩
  rw [List.getElem?_map] at present
  obtain ⟨c, found, same⟩ := Option.map_eq_some_iff.mp present
  simp only [locateConnection, lookup, found, same, if_true]

/-- An id that occurs is located. -/
theorem locate_of_mem {e : Editor} (indexed : e.Indexed) {id : String}
    (member : id ∈ e.document.nodes.items.map Node.id) : ∃ found, e.locate id = .ok found := by
  obtain ⟨position, present, last⟩ := Positions.exists_last member
  have lookup := (indexed.nodes id position).mpr ⟨present, last⟩
  rw [List.getElem?_map] at present
  obtain ⟨node, found, same⟩ := Option.map_eq_some_iff.mp present
  exact ⟨(position, node), by simp only [locate, lookup, found, same, if_true]⟩

end Editor

end Flowchart
