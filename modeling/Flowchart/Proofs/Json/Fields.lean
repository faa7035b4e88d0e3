import Mathlib.Data.List.Nodup
import Flowchart.Json.MergePatch

/-!
# Fields of objects

* `Json.DistinctKeys`: in every object inside a value each key occurs once.
* `Fields.ofPairs_eq`: fields with distinct keys are those of the object they are read as.
* `nodup_keys_put`, `nodup_keys_merge`: single fields and whole objects are put in under distinct keys.
-/

namespace Flowchart

namespace Json

namespace Fields

/-! ### Single fields -/

theorem get?_eq_none_iff {key : String} {fields : Fields} :
    fields.get? key = none ↔ key ∉ fields.keys := by
  induction fields with
  | nil => simp [get?, keys]
  | cons field fields ih =>
    obtain ⟨k, v⟩ := field
    unfold get?
    split
    next same => simp [keys, same]
    next other =>
      rw [ih]
      simp [keys, Ne.symm other]

theorem mem_of_get?_eq_some {key : String} {value : Json} {fields : Fields}
    (found : fields.get? key = some value) : (key, value) ∈ fields := by
  induction fields with
  | nil => cases found
  | cons field fields ih =>
    obtain ⟨k, v⟩ := field
    unfold get? at found
    split at found
    next same =>
      cases found
      cases same
      exact List.mem_cons_self
    next => exact List.mem_cons_of_mem _ (ih found)

theorem get?_eq_some_iff {key : String} {value : Json} {fields : Fields} (distinct : fields.keys.Nodup) :
    fields.get? key = some value ↔ (key, value) ∈ fields := by
  refine ⟨mem_of_get?_eq_some, fun mem => ?_⟩
  induction fields with
  | nil => cases mem
  | cons field fields ih =>
    obtain ⟨k, v⟩ := field
    simp only [keys, List.map_cons, List.nodup_cons] at distinct
    obtain ⟨rfl, rfl⟩ | later := (List.mem_cons.1 mem).imp_left Prod.mk.inj
    · exact if_pos rfl
    · have other : k ≠ key := fun same => distinct.1 (same ▸ List.mem_map_of_mem (f := Prod.fst) later)
      exact (if_neg other).trans (ih distinct.2 later)

/-- The order of fields with distinct keys does not matter to a look-up. -/
theorem get?_perm {key : String} {fields others : Fields} (distinct : fields.keys.Nodup)
    (perm : fields.Perm others) : fields.get? key = others.get? key := by
  have others_distinct : others.keys.Nodup := (perm.map Prod.fst).nodup_iff.1 distinct
  refine Option.ext fun value => ?_
  rw [get?_eq_some_iff distinct, get?_eq_some_iff others_distinct, perm.mem_iff]

theorem put_of_not_mem {key : String} {value : Json} {fields : Fields} (free : key ∉ fields.keys) :
    fields.put key value = fields ++ [(key, value)] := by
  induction fields with
  | nil => rfl
  | cons field fields ih =>
    obtain ⟨k, v⟩ := field
    simp only [keys, List.map_cons, List.mem_cons, not_or] at free
    rw [put, if_neg (Ne.symm free.1), ih free.2]
    rfl

theorem mem_put {key : String} {value : Json} {fields : Fields} {field : String × Json}
    (mem : field ∈ fields.put key value) : field = (key, value) ∨ field ∈ fields := by
  induction fields with
  | nil => exact .inl (List.mem_singleton.1 mem)
  | cons head fields ih =>
    obtain ⟨k, v⟩ := head
    unfold put at mem
    split at mem
    · obtain rfl | mem := List.mem_cons.1 mem
      · exact .inl rfl
      · exact .inr (List.mem_cons_of_mem _ mem)
    · obtain rfl | mem := List.mem_cons.1 mem
      · exact .inr List.mem_cons_self
      · exact (ih mem).imp_right (List.mem_cons_of_mem _)

theorem mem_keys_put {key other : String} {value : Json} {fields : Fields} :
    other ∈ (fields.put key value).keys ↔ other = key ∨ other ∈ fields.keys := by
  induction fields with
  | nil => simp [put, keys]
  | cons field fields ih =>
    obtain ⟨k, v⟩ := field
    unfold put
    split
    next same => simp [keys, same]
    next =>
      simp only [keys, List.map_cons, List.mem_cons] at ih ⊢
      rw [ih]
      tauto

theorem nodup_keys_put {fields : Fields} (distinct : fields.keys.Nodup) (key : String) (value : Json) :
    (fields.put key value).keys.Nodup := by
  induction fields with
  | nil => simp [put, keys]
  | cons field fields ih =>
    obtain ⟨k, v⟩ := field
    simp only [keys, List.map_cons, List.nodup_cons] at distinct
    unfold put
    split
    next same =>
      subst same
      exact List.nodup_cons.2 distinct
    next other =>
      refine List.nodup_cons.2 ⟨fun mem => ?_, ih distinct.2⟩
      obtain same | mem := mem_keys_put.1 mem
      · exact other same
      · exact distinct.1 mem

theorem nodup_keys_erase {fields : Fields} (distinct : fields.keys.Nodup) (key : String) :
    (fields.erase key).keys.Nodup :=
  distinct.sublist (List.filter_sublist.map _)

theorem nodup_keys_merge {fields : Fields} (distinct : fields.keys.Nodup) (later : Fields) :
    (fields.merge later).keys.Nodup := by
  induction later generalizing fields with
  | nil => exact distinct
  | cons field later ih => exact ih (nodup_keys_put distinct _ _)

theorem mem_merge {fields later : Fields} {field : String × Json} (mem : field ∈ fields.merge later) :
    field ∈ fields ∨ field ∈ later := by
  induction later generalizing fields with
  | nil => exact .inl mem
  | cons next later ih =>
    obtain mem | mem := ih mem
    · obtain rfl | mem := mem_put mem
      · exact .inr List.mem_cons_self
      · exact .inl mem
    · exact .inr (List.mem_cons_of_mem _ mem)

theorem merge_eq_append {fields later : Fields} (distinct : keys (fields ++ later) |>.Nodup) :
    fields.merge later = fields ++ later := by
  induction later generalizing fields with
  | nil => exact (List.append_nil fields).symm
  | cons field later ih =>
    obtain ⟨k, v⟩ := field
    have free : k ∉ fields.keys := fun mem => by
      simp only [keys, List.map_append, List.map_cons] at distinct mem
      exact (List.nodup_append.1 distinct).2.2 k mem k List.mem_cons_self rfl
    show (fields.put k v).merge later = _
    rw [put_of_not_mem free, ih (by simpa [keys] using distinct)]
    simp

theorem nodup_keys_ofPairs (pairs : Fields) : (ofPairs pairs).keys.Nodup :=
  nodup_keys_merge (show keys [] |>.Nodup from List.nodup_nil) pairs

/-- Fields with distinct keys are those of the object that they are read as. -/
theorem ofPairs_eq {fields : Fields} (distinct : fields.keys.Nodup) : ofPairs fields = fields :=
  merge_eq_append distinct

end Fields

/-! ### Distinct keys throughout a value -/

mutual

/-- In every object inside a value each key occurs once. -/
def DistinctKeys : Json → Prop
  | array items => ItemsDistinct items
  | object fields => (Fields.keys fields).Nodup ∧ FieldsDistinct fields
  | _ => True

def ItemsDistinct : List Json → Prop
  | [] => True
  | item :: items => DistinctKeys item ∧ ItemsDistinct items

def FieldsDistinct : List (String × Json) → Prop
  | [] => True
  | (_, value) :: fields => DistinctKeys value ∧ FieldsDistinct fields

end

theorem itemsDistinct_iff {items : List Json} : ItemsDistinct items ↔ ∀ v ∈ items, v.DistinctKeys := by
  induction items with
  | nil => simp [ItemsDistinct]
  | cons item items ih => simp [ItemsDistinct, ih]

theorem fieldsDistinct_iff {fields : Fields} :
    FieldsDistinct fields ↔ ∀ field ∈ fields, field.2.DistinctKeys := by
  induction fields with
  | nil => simp [FieldsDistinct]
  | cons field fields ih => simp [FieldsDistinct, ih]

theorem distinctKeys_array {items : List Json} :
    (array items).DistinctKeys ↔ ∀ v ∈ items, v.DistinctKeys := by
  rw [DistinctKeys, itemsDistinct_iff]

theorem distinctKeys_object {fields : Fields} :
    (object fields).DistinctKeys ↔ fields.keys.Nodup ∧ ∀ field ∈ fields, field.2.DistinctKeys := by
  rw [DistinctKeys, fieldsDistinct_iff]

end Json

end Flowchart
