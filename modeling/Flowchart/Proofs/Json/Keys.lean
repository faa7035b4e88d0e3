import Flowchart.Json.Reader
import Flowchart.Proofs.Json.Fields
import Flowchart.Proofs.Results

/-!
# What is read has distinct keys

`read_distinctKeys`: however often a text repeats a key, the objects that are read hold it once.
-/

namespace Flowchart

namespace Json

theorem readPlain_distinctKeys {c c' : Cursor} {v : Json} (read : readPlain c = .ok (v, c')) :
    v.DistinctKeys := by
  unfold readPlain at read
  split at read
  next found same =>
    cases read
    obtain ⟨entry, mem, word⟩ := List.exists_of_findSome?_eq_some same
    obtain ⟨rest, -, made⟩ := Option.map_eq_some_iff.1 word
    cases made
    simp only [words, List.mem_cons, List.not_mem_nil, or_false] at mem
    obtain rfl | rfl | rfl | rfl | rfl | rfl := mem <;> trivial
  next =>
    split at read
    next value size number =>
      cases read
      unfold number? at number
      simp only at number
      split at number
      · cases number
      · cases number
        unfold Numeral.value
        split <;> trivial
    next => cases read

/-- One more step of each reader keeps keys distinct. -/
theorem readers_distinctKeys (fuel : Nat) :
    (∀ c v c', readValue fuel c = .ok (v, c') → v.DistinctKeys) ∧
      (∀ c items c', readItems fuel c = .ok (items, c') → ∀ v ∈ items, v.DistinctKeys) ∧
      (∀ c fields c', readFields fuel c = .ok (fields, c') →
        ∀ field ∈ fields, field.2.DistinctKeys) := by
  induction fuel with
  | zero =>
    refine ⟨fun c v c' read => ?_, fun c v c' read => ?_, fun c v c' read => ?_⟩
    · cases read
    · cases read
    · cases read
  | succ fuel ih =>
    obtain ⟨value, items, fields⟩ := ih
    -- each reader calls itself and the others with less fuel only
    refine ⟨fun c v c' read => ?_, fun c found c' read => ?_, fun c found c' read => ?_⟩
    · rw [readValue] at read
      split at read
      next =>
        obtain ⟨_, -, made⟩ := bind_eq_ok_iff.1 read
        cases made
        trivial
      next =>
        simp only at read
        split at read
        next => cases read; exact ⟨List.nodup_nil, trivial⟩
        next =>
          obtain ⟨⟨found, c'⟩, readAll, made⟩ := bind_eq_ok_iff.1 read
          cases made
          -- a key that is there twice is kept once, with the value that came last
          refine distinctKeys_object.2 ⟨Fields.nodup_keys_ofPairs _, fun field mem => ?_⟩
          obtain mem | mem := Fields.mem_merge mem
          · cases mem
          · exact fields _ _ _ readAll field mem
      next =>
        simp only at read
        split at read
        next => cases read; trivial
        next =>
          obtain ⟨⟨found, c'⟩, readAll, made⟩ := bind_eq_ok_iff.1 read
          cases made
          exact distinctKeys_array.2 (items _ _ _ readAll)
      next => exact readPlain_distinctKeys read
    · rw [readItems] at read
      obtain ⟨⟨item, c₁⟩, readOne, read⟩ := bind_eq_ok_iff.1 read
      have head := value _ _ _ readOne
      simp only at read
      split at read
      next =>
        cases read
        simpa using head
      next =>
        obtain ⟨⟨others, c₂⟩, readMore, made⟩ := bind_eq_ok_iff.1 read
        cases made
        exact List.forall_mem_cons.2 ⟨head, items _ _ _ readMore⟩
      next => cases read
    · rw [readFields] at read
      split at read
      next =>
        obtain ⟨⟨name, c₁⟩, -, read⟩ := bind_eq_ok_iff.1 read
        simp only at read
        split at read
        next =>
          obtain ⟨⟨v, c₂⟩, readOne, read⟩ := bind_eq_ok_iff.1 read
          have head := value _ _ _ readOne
          simp only at read
          split at read
          next =>
            cases read
            simpa using head
          next =>
            obtain ⟨⟨others, c₃⟩, readMore, made⟩ := bind_eq_ok_iff.1 read
            cases made
            exact List.forall_mem_cons.2 ⟨head, fields _ _ _ readMore⟩
          next => cases read
        next => cases read
      next => cases read

theorem read_distinctKeys {text : List Char} {v : Json} (read : Json.read text = .ok v) :
    v.DistinctKeys := by
  obtain ⟨⟨found, c⟩, readAll, rest⟩ := bind_eq_ok_iff.1 read
  simp only at rest
  split at rest
  next =>
    cases rest
    exact (readers_distinctKeys _).1 _ _ _ readAll
  next => cases rest

theorem parse_distinctKeys {text : String} {v : Json} (parsed : parse text = .ok v) :
    v.DistinctKeys := by
  unfold parse at parsed
  simp only at parsed
  split at parsed
  · cases parsed
  · exact read_distinctKeys parsed

end Json

end Flowchart
