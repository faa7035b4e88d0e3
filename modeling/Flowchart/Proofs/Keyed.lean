import Mathlib.Data.List.Nodup

/-!
# Lists of keyed items

Nodes, pins, connections, variables and comments are kept in lists and known by an id. Where no two
items of a list share a key, looking one up by its key finds the only item that has it.
-/

namespace Flowchart

variable {α κ : Type} {key : α → κ} {items : List α}

/-- Items of a list without repeated keys are the same if their keys are. -/
theorem eq_of_key_eq (distinct : (items.map key).Nodup) {a b : α} (left : a ∈ items)
    (right : b ∈ items) (same : key a = key b) : a = b :=
  List.inj_on_of_nodup_map distinct left right same

/-- The item found under a key is the one that has it. -/
theorem find?_key_eq_some_iff [DecidableEq κ] (distinct : (items.map key).Nodup) (k : κ) (a : α) :
    (items.find? fun b => key b == k) = some a ↔ a ∈ items ∧ key a = k := by
  constructor
  · intro found
    exact ⟨List.mem_of_find?_eq_some found, by simpa using List.find?_some found⟩
  · rintro ⟨member, rfl⟩
    cases found : items.find? fun b => key b == key a with
    | none => simpa using List.find?_eq_none.mp found a member
    | some b =>
      have same : key b = key a := by simpa using List.find?_some found
      rw [eq_of_key_eq distinct (List.mem_of_find?_eq_some found) member same]

/-- Nothing is found under a key that no item has. -/
theorem find?_key_eq_none_iff [DecidableEq κ] (k : κ) :
    (items.find? fun b => key b == k) = none ↔ k ∉ items.map key := by
  simp [List.find?_eq_none]

end Flowchart
