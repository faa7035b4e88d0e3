import Flowchart.Proofs.Json.Memory

/-!
# What a patch leaves alone

* `Fields.at?`: the object that a path of keys leads to.
* `keys_patchFields`: the keys of a patched object, in order.
* `at?_patchFields`: an object inside a target is merged with the object at the same place of the patch.
* `patchFields_framed`: nothing is lost that the patch does not name, keys stay where they are, and the target is the
  same value after the merge as before.
-/

namespace Flowchart

namespace Json

def isNull : Json → Bool
  | null => true
  | _ => false

namespace Fields

/-- The object that a path of keys leads to, by way of objects only. -/
def at? : List String → Fields → Option Fields
  | [], fields => some fields
  | key :: path, fields =>
    match fields.get? key with
    | some (object inner) => at? path inner
    | _ => none

/-- The patch has a null for a key. -/
def deletes (patch : Fields) (key : String) : Bool := (patch.get? key).any isNull

theorem at?_cons_eq_some {key : String} {path : List String} {fields inner : Fields} :
    fields.at? (key :: path) = some inner ↔
      ∃ between, fields.get? key = some (object between) ∧ at? path between = some inner := by
  rw [at?]
  constructor
  · intro found
    split at found
    next between here => exact ⟨between, here, found⟩
    next => cases found
  · rintro ⟨between, here, found⟩
    simpa only [here] using found

/-! ### Keys in order -/

theorem keys_cons (key : String) (value : Json) (fields : Fields) :
    keys ((key, value) :: fields) = key :: keys fields := rfl

theorem keys_put (fields : Fields) (key : String) (value : Json) :
    (fields.put key value).keys = if key ∈ fields.keys then fields.keys else fields.keys ++ [key] := by
  induction fields with
  | nil => simp [put, keys]
  | cons field fields ih =>
    obtain ⟨k, old⟩ := field
    unfold put
    by_cases here : k = key
    · rw [if_pos here, keys_cons, keys_cons, here, if_pos List.mem_cons_self]
    · rw [if_neg here, keys_cons, keys_cons, ih]
      simp only [List.mem_cons, Ne.symm here, false_or]
      split
      · rfl
      · rw [List.cons_append]

theorem keys_erase (fields : Fields) (key : String) : (fields.erase key).keys = fields.keys.filter (· ≠ key) := by
  rw [keys, keys, erase, List.filter_map]
  rfl

theorem deletes_of_not_mem {patch : Fields} {key : String} (absent : key ∉ patch.keys) : patch.deletes key = false := by
  rw [deletes, get?_eq_none_iff.2 absent, Option.any_none]

theorem deletes_cons (key : String) (value : Json) (patch : Fields) (other : String) :
    deletes ((key, value) :: patch) other = if key = other then value.isNull else patch.deletes other := by
  rw [deletes, get?]
  split <;> rfl

end Fields

/-- A key whose patch is null goes; any other stays where it is, or comes to the end. -/
theorem keys_patchField (fields : Fields) (key : String) (value : Json) :
    (patchField fields key value).keys =
      if value.isNull then fields.keys.filter (· ≠ key)
      else if key ∈ fields.keys then fields.keys else fields.keys ++ [key] := by
  cases value with
  | null => exact fields.keys_erase key
  | object patch =>
    unfold patchField
    split <;> exact fields.keys_put key _
  | _ => exact fields.keys_put key _

/-- The keys of the target that are not deleted, in their order, and then those that only the patch has, in its
order. -/
theorem keys_patchFields (fields : Fields) {patch : Fields} (distinct : patch.keys.Nodup) :
    (patchFields fields patch).keys =
      (fields.keys.filter fun key => !patch.deletes key) ++
        patch.keys.filter fun key => key ∉ fields.keys && !patch.deletes key := by
  induction patch generalizing fields with
  | nil =>
    have kept : ∀ key, Fields.deletes [] key = false := fun _ => rfl
    simp [patchFields, Fields.keys, kept]
  | cons field patch ih =>
    obtain ⟨key, value⟩ := field
    obtain ⟨once, distinct⟩ := List.nodup_cons.1 distinct
    -- a later key is another one, and what the patch has for it is in the rest
    have other : ∀ k ∈ Fields.keys patch, k ≠ key := fun k later same => once (same ▸ later)
    have later : ∀ k, k ≠ key → Fields.deletes ((key, value) :: patch) k = Fields.deletes patch k := fun k apart => by
      rw [Fields.deletes_cons, if_neg (Ne.symm apart)]
    have here : Fields.deletes ((key, value) :: patch) key = value.isNull := by
      rw [Fields.deletes_cons, if_pos rfl]
    rw [patchFields, ih _ distinct, keys_patchField, Fields.keys_cons]
    by_cases gone : value.isNull
    · rw [if_pos gone, List.filter_filter, List.filter_cons_of_neg (by simp [here, gone])]
      congr 1
      · refine List.filter_congr fun k _ => ?_
        by_cases same : k = key
        · simp [same, here, gone]
        · simp [same, later k same]
      · refine List.filter_congr fun k member => ?_
        simp [other k member, later k (other k member)]
    · have same : ∀ k, Fields.deletes ((key, value) :: patch) k = Fields.deletes patch k := fun k => by
        by_cases same : k = key
        · rw [same, here, Fields.deletes_of_not_mem once]
          simpa using gone
        · exact later k same
      simp only [if_neg gone, same]
      -- a key that is kept is in the target already, or it is the first of those that come after
      by_cases old : key ∈ Fields.keys fields
      · rw [if_pos old, List.filter_cons_of_neg (by simp [old])]
      · have new : Fields.deletes patch key = false := Fields.deletes_of_not_mem once
        have rest : (Fields.keys patch).filter (fun k => k ∉ Fields.keys fields ++ [key] && !Fields.deletes patch k) =
            (Fields.keys patch).filter fun k => k ∉ Fields.keys fields && !Fields.deletes patch k :=
          List.filter_congr fun k member => by simp [other k member]
        have last : [key].filter (fun k => !Fields.deletes patch k) = [key] := by simp [new]
        rw [if_neg old, List.filter_append, last, rest, List.append_assoc, List.singleton_append,
          List.filter_cons_of_pos (by simp [old, new])]

/-! ### Objects inside objects -/

/-- The objects inside a patch have distinct keys as well. -/
theorem distinctKeys_at? {path : List String} {patch change : Fields} (distinct : (object patch).DistinctKeys)
    (found : patch.at? path = some change) : (object change).DistinctKeys := by
  induction path generalizing patch with
  | nil =>
    cases found
    exact distinct
  | cons key path ih =>
    obtain ⟨between, here, found⟩ := Fields.at?_cons_eq_some.1 found
    exact ih ((distinctKeys_object.1 distinct).2 _ (Fields.mem_of_get?_eq_some here)) found

/-- Where both have an object at the end of a path, the one is merged with the other. -/
theorem at?_patchFields {path : List String} {target patch inner change : Fields}
    (distinct : (object patch).DistinctKeys) (old : target.at? path = some inner)
    (new : patch.at? path = some change) :
    (patchFields target patch).at? path = some (patchFields inner change) := by
  induction path generalizing target patch with
  | nil =>
    cases old
    cases new
    rfl
  | cons key path ih =>
    obtain ⟨fields, oldHere, old⟩ := Fields.at?_cons_eq_some.1 old
    obtain ⟨changes, newHere, new⟩ := Fields.at?_cons_eq_some.1 new
    -- both have an object for the first key, so that the patch merges the two
    have inside := (distinctKeys_object.1 distinct).2 _ (Fields.mem_of_get?_eq_some newHere)
    refine Fields.at?_cons_eq_some.2 ⟨patchFields fields changes, ?_, ih inside old new⟩
    rw [get?_patchFields _ distinct.1, newHere, oldHere]
    simp only [Option.elim_some, patched]

/-- What a patch leaves alone of an object: the values of the keys that it does not name, and the order. Keys of
the target stay in their places, and those that only the patch has follow in its order. -/
structure Framed (target patch result : Fields) : Prop where
  kept : ∀ key, key ∉ patch.keys → result.get? key = target.get? key
  order : result.keys = (target.keys.filter fun key => !patch.deletes key) ++
    patch.keys.filter fun key => key ∉ target.keys && !patch.deletes key

theorem framed_patchFields (target : Fields) {patch : Fields} (distinct : patch.keys.Nodup) :
    Framed target patch (patchFields target patch) where
  kept key unnamed := by
    rw [get?_patchFields target distinct, Fields.get?_eq_none_iff.2 unnamed, Option.elim_none]
  order := keys_patchFields target distinct

/-- A patch changes an object, and the objects in it that it has objects for, in what it names only; and it does so
in a copy. However target and patch lie in memory, the merge comes to one end, and there every value is what it was,
the target among them. -/
theorem patchFields_framed (target : Fields) {patch : Fields} (distinct : (object patch).DistinctKeys) :
    (∀ path inner change, target.at? path = some inner → patch.at? path = some change →
      ∃ result, (patchFields target patch).at? path = some result ∧ Framed inner change result) ∧
    ∀ (m : Memory) (old new : Ref), Held m.read old (object target) → Held m.read new (object patch) →
      ∃ result after, (∀ r other, Merges m old new r other ↔ r = result ∧ other = after) ∧
        Held after.read result (object (patchFields target patch)) ∧
        ∀ r value, Held m.read r value → Held after.read r value := by
  refine ⟨fun path inner change old new => ?_, fun m old new oldHeld newHeld => exists_merges_held oldHeld newHeld⟩
  have inside := distinctKeys_at? distinct new
  exact ⟨_, at?_patchFields distinct old new, framed_patchFields inner inside.1⟩

/-- An object with an object in it. -/
def sharedTarget : Fields := [("a", int 1), ("b", object [("x", int 1), ("y", int 1)]), ("c", int 1)]

/-- Deletes a key at either level, and has a copy of the inner object for a key of its own. -/
def sharedPatch : Fields :=
  [("c", null), ("d", object [("x", int 1), ("y", int 1)]), ("b", object [("y", null), ("z", int 1)])]

/-- The target at 3 and the patch at 5. The object at 1 is a part of both. -/
def sharedMemory : Memory :=
  [.leaf (int 1), .object [("x", 0), ("y", 0)], .leaf null, .object [("a", 0), ("b", 1), ("c", 0)],
    .object [("y", 2), ("z", 0)], .object [("c", 2), ("d", 1), ("b", 4)]]

/-- The key that both objects have keeps its place and the deleted ones go, and the object that the patch shares with
the target is the same in both after the merge. -/
theorem patchFields_framed_shared :
    (object sharedPatch).DistinctKeys ∧
      sharedTarget.at? ["b"] = some [("x", int 1), ("y", int 1)] ∧
      sharedPatch.at? ["b"] = some [("y", null), ("z", int 1)] ∧
      Held sharedMemory.read 3 (object sharedTarget) ∧ Held sharedMemory.read 5 (object sharedPatch) ∧
      (∃ result, (patchFields sharedTarget sharedPatch).at? ["b"] = some result ∧
        Framed [("x", int 1), ("y", int 1)] [("y", null), ("z", int 1)] result) ∧
      ∃ result after, (∀ r other, Merges sharedMemory 3 5 r other ↔ r = result ∧ other = after) ∧
        Held after.read result (object
          [("a", int 1), ("b", object [("x", int 1), ("z", int 1)]), ("d", object [("x", int 1), ("y", int 1)])]) ∧
        Held after.read 3 (object sharedTarget) := by
  have distinct : (object sharedPatch).DistinctKeys := by
    simp [sharedPatch, DistinctKeys, FieldsDistinct, Fields.keys]
  have one : Held sharedMemory.read 0 (int 1) := .leaf rfl rfl
  have nothing : Held sharedMemory.read 2 null := .leaf rfl rfl
  have inner : Held sharedMemory.read 1 (object [("x", int 1), ("y", int 1)]) :=
    .object rfl (.cons one (.cons one .nil))
  have nested : Held sharedMemory.read 4 (object [("y", null), ("z", int 1)]) :=
    .object rfl (.cons nothing (.cons one .nil))
  have old : Held sharedMemory.read 3 (object sharedTarget) := .object rfl (.cons one (.cons inner (.cons one .nil)))
  have new : Held sharedMemory.read 5 (object sharedPatch) :=
    .object rfl (.cons nothing (.cons inner (.cons nested .nil)))
  obtain ⟨inside, copied⟩ := patchFields_framed sharedTarget distinct
  obtain ⟨result, after, once, merged, kept⟩ := copied sharedMemory 3 5 old new
  exact ⟨distinct, rfl, rfl, old, new, inside ["b"] _ _ rfl rfl, result, after, once, merged, kept 3 _ old⟩

end Json

end Flowchart
