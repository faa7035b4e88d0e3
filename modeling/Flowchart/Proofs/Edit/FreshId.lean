import Mathlib.Data.List.Nodup
import Flowchart.Proofs.Edit.Index

/-!
# Ids for connections that are given none

The candidates for the id of a connection are `base`, `base-2`, `base-3` and so on. They all differ, so
that among more candidates than there are ids one is free.

* `Editor.Settles`: the loop over the candidates, with no bound on its turns.
* `Editor.freshConnectionId_settles`: it ends for every index and every two ends, with the first candidate
  that the index does not have. The index may hold any ids, those of other connections with the same base
  among them.
-/

namespace Flowchart

namespace Editor

/-- The candidate ids, counted from one. -/
def candidateId (base : String) (suffix : Nat) : String :=
  if suffix = 1 then base else s!"{base}-{suffix}"

theorem candidateId_one (base : String) : candidateId base 1 = base := if_pos rfl

theorem candidateId_of_two_le (base : String) {k : Nat} (second : 2 ≤ k) :
    candidateId base k = s!"{base}-{k}" := if_neg (by omega)

theorem candidateId_toList (base : String) (suffix : Nat) :
    (candidateId base suffix).toList =
      base.toList ++ if suffix = 1 then [] else '-' :: Nat.toDigits 10 suffix := by
  unfold candidateId
  split
  · simp
  · rw [String.toList_append, String.toList_append, List.append_assoc]
    simp [toString]

theorem candidateId_injective (base : String) {j k : Nat}
    (same : candidateId base j = candidateId base k) : j = k := by
  have tails := List.append_cancel_left
    ((candidateId_toList base j).symm.trans ((congrArg String.toList same).trans
      (candidateId_toList base k)))
  by_cases first : j = 1 <;> by_cases second : k = 1
  · rw [first, second]
  · simp [first, second] at tails
  · simp [first, second] at tails
  · simp only [first, second, if_false, List.cons.injEq, true_and] at tails
    rw [← Nat.ofDigitChars_ten_toDigits (n := j), tails, Nat.ofDigitChars_ten_toDigits]

/-- If one of the candidates is free, the first free one is chosen. -/
theorem freeId_eq {taken : String → Bool} {base : String} {fuel suffix : Nat}
    (free : ∃ k, suffix ≤ k ∧ k < suffix + fuel ∧ taken (candidateId base k) = false) :
    ∃ k, suffix ≤ k ∧ freeId taken base fuel suffix = candidateId base k ∧
      taken (candidateId base k) = false ∧
      ∀ j, suffix ≤ j → j < k → taken (candidateId base j) = true := by
  induction fuel generalizing suffix with
  | zero => omega
  | succ fuel ih =>
    cases first : taken (candidateId base suffix) with
    | false =>
      have chosen : freeId taken base (fuel + 1) suffix = candidateId base suffix :=
        if_neg (by simpa [candidateId] using first)
      exact ⟨suffix, Nat.le_refl _, chosen, first, by omega⟩
    | true =>
      -- the free candidate lies beyond this one, so less fuel still reaches it
      have skipped : freeId taken base (fuel + 1) suffix = freeId taken base fuel (suffix + 1) :=
        if_pos (by simpa [candidateId] using first)
      obtain ⟨k, least, bound, isFree⟩ := free
      have later : suffix ≠ k := fun same => by simp [same, isFree] at first
      obtain ⟨k, after, found, isFree, before⟩ :=
        @ih (suffix + 1) ⟨k, by omega, by omega, isFree⟩
      refine ⟨k, by omega, skipped.trans found, isFree, fun j above under => ?_⟩
      by_cases same : j = suffix
      · exact same ▸ first
      · exact before j (by omega) under

/-- Among more candidates than there are ids, one is not among the ids. -/
theorem exists_free_candidate (ids : List String) (base : String) :
    ∃ k, 1 ≤ k ∧ k < 1 + (ids.length + 1) ∧ candidateId base k ∉ ids := by
  -- otherwise the ids would hold one candidate more than they are many
  by_contra allTaken
  simp only [not_exists, not_and, not_not] at allTaken
  let candidates := (List.range (ids.length + 1)).map fun k => candidateId base (k + 1)
  have distinct : candidates.Nodup :=
    List.nodup_range.map fun j k same => by simpa using candidateId_injective base same
  have among : candidates ⊆ ids := by
    intro id member
    obtain ⟨k, bound, rfl⟩ := List.mem_map.mp member
    exact allTaken (k + 1) (by omega) (by have := List.mem_range.mp bound; omega)
  have longer := distinct.length_le_of_subset among
  simp only [candidates, List.length_map, List.length_range] at longer
  omega

/-- Where the ids hold all candidates up to one, this is at most one more than they are many. -/
theorem le_length_of_taken {ids : List String} {base : String} {k : Nat}
    (taken : ∀ j, 1 ≤ j → j < k → candidateId base j ∈ ids) : k ≤ ids.length + 1 := by
  obtain ⟨j, first, bound, absent⟩ := exists_free_candidate ids base
  by_contra beyond
  exact absent (taken j first (by omega))

theorem hasConnection_eq_false_iff (e : Editor) {id : String} :
    e.hasConnection id = false ↔ id ∉ e.connectionIndex.map Prod.fst := by
  simp only [hasConnection, Option.isSome_eq_false_iff, Option.isNone_iff_eq_none,
    List.lookup_eq_none_iff, bne_iff_ne, List.mem_map, not_exists, not_and]
  exact forall₂_congr fun entry _ => ne_comm

/-- A fresh id is the first candidate that no connection of the index has. -/
theorem exists_freshConnectionId (e : Editor) (source target : End) :
    let base := s!"conn-{source.node}-{source.pin}-{target.node}-{target.pin}"
    ∃ k, 1 ≤ k ∧ e.freshConnectionId source target = candidateId base k ∧
      e.hasConnection (candidateId base k) = false ∧
      ∀ j, 1 ≤ j → j < k → e.hasConnection (candidateId base j) = true := by
  intro base
  obtain ⟨k, positive, bound, absent⟩ := exists_free_candidate (e.connectionIndex.map Prod.fst) base
  rw [List.length_map] at bound
  exact freeId_eq ⟨k, positive, bound, e.hasConnection_eq_false_iff.mpr absent⟩

theorem freshConnectionId_not_mem {e : Editor} (indexed : e.Indexed) (source target : End) :
    e.freshConnectionId source target ∉ e.document.connections.items.map Connection.id := by
  obtain ⟨k, -, chosen, isFree, -⟩ := e.exists_freshConnectionId source target
  rw [← indexed.hasConnection_iff, chosen, isFree]
  exact Bool.false_ne_true

/-- The loop for a free id from a candidate on: while the candidate is taken, the next is `base` with a
number, which grows with every turn. -/
inductive Settles (taken : String → Bool) (base : String) : String → Nat → String → Prop where
  | free {candidate : String} {number : Nat} (isFree : taken candidate = false) :
      Settles taken base candidate number candidate
  | next {candidate id : String} {number : Nat} (used : taken candidate = true)
      (later : Settles taken base s!"{base}-{number}" (number + 1) id) :
      Settles taken base candidate number id

/-- No candidate leads to two ids. -/
theorem Settles.unique {taken : String → Bool} {base candidate id other : String} {number : Nat}
    (settles : Settles taken base candidate number id)
    (settlesToo : Settles taken base candidate number other) : id = other := by
  induction settles with
  | free isFree =>
    cases settlesToo with
    | free => rfl
    | next used => simp [isFree] at used
  | next used _ ih =>
    cases settlesToo with
    | free isFree => simp [isFree] at used
    | next _ later => exact ih later

/-- From any candidate up to the first free one the loop comes to the latter. -/
theorem settles_first {taken : String → Bool} {base : String} {j k : Nat} (positive : 1 ≤ j) (le : j ≤ k)
    (isFree : taken (candidateId base k) = false)
    (before : ∀ i, 1 ≤ i → i < k → taken (candidateId base i) = true) :
    Settles taken base (candidateId base j) (j + 1) (candidateId base k) := by
  -- down from the free candidate, where the loop ends
  induction le using Nat.decreasingInduction with
  | self => exact .free isFree
  | of_succ j under ih =>
    have numbered := candidateId_of_two_le base (Nat.succ_le_succ positive)
    exact .next (before j positive under) (numbered ▸ ih (by omega))

/-- The loop ends for every index, with an id that is not in it: the base if that is free, and otherwise
the base with the least number from two on that makes it free. The number is at most one more than the
ids of the index are many. -/
theorem freshConnectionId_settles (e : Editor) (source target : End) :
    let base := s!"conn-{source.node}-{source.pin}-{target.node}-{target.pin}"
    let ids := e.connectionIndex.map Prod.fst
    let id := e.freshConnectionId source target
    (∀ found, Settles e.hasConnection base base 2 found ↔ found = id) ∧
      id ∉ ids ∧
      (base ∉ ids → id = base) ∧
      (base ∈ ids → ∃ k, 2 ≤ k ∧ k ≤ ids.length + 1 ∧ id = s!"{base}-{k}" ∧
        ∀ j, 2 ≤ j → j < k → s!"{base}-{j}" ∈ ids) := by
  intro base ids id
  obtain ⟨k, positive, chosen, isFree, before⟩ := e.exists_freshConnectionId source target
  have chosen : id = candidateId base k := chosen
  have ends : Settles e.hasConnection base base 2 id := by
    rw [chosen]
    exact candidateId_one base ▸ settles_first (Nat.le_refl 1) positive isFree before
  have absent : id ∉ ids := chosen ▸ e.hasConnection_eq_false_iff.1 isFree
  have taken : ∀ j, 1 ≤ j → j < k → candidateId base j ∈ ids := by
    intro j first under
    by_contra unknown
    exact Bool.false_ne_true ((e.hasConnection_eq_false_iff.2 unknown).symm.trans (before j first under))
  refine ⟨fun found => ⟨fun other => other.unique ends, fun same => same ▸ ends⟩, absent, ?_⟩
  obtain rfl | later : k = 1 ∨ 2 ≤ k := by omega
  · have isBase : id = base := chosen.trans (candidateId_one base)
    exact ⟨fun _ => isBase, fun baseTaken => absurd (isBase ▸ baseTaken) absent⟩
  · have baseTaken : base ∈ ids := candidateId_one base ▸ taken 1 (Nat.le_refl 1) later
    refine ⟨fun baseFree => absurd baseTaken baseFree, fun _ => ?_⟩
    refine ⟨k, later, le_length_of_taken taken, chosen.trans (candidateId_of_two_le base later), ?_⟩
    intro j second under
    exact candidateId_of_two_le base second ▸ taken j (by omega) under

end Editor

end Flowchart
