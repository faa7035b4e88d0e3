import Flowchart.Proofs.Json.Fields
import Flowchart.Proofs.Results
import Flowchart.Schema.Record

/-!
# Values that may be nested in others

* `Json.Fits`: a value that is not nested too deep for its level and has distinct keys.
* `Json.Fields.Fit`: fields of such values. Merging and patching keep them fit.
-/

namespace Flowchart

namespace Check

theorem nestedFields_eq_nil_iff {level : Nat} {fields : Json.Fields} :
    nestedFields level fields = [] ↔ ∀ field ∈ fields, nestingIssues level field.2 = [] := by
  induction fields with
  | nil => simp [nestedFields]
  | cons field fields ih =>
    obtain ⟨key, v⟩ := field
    simp [nestedFields, ih]

theorem nestingIssues_object_eq_nil_iff {level : Nat} {fields : Json.Fields} :
    nestingIssues level (.object fields) = [] ↔
      level ≤ nestingLimit ∧ ∀ field ∈ fields, nestingIssues (level + 1) field.2 = [] := by
  rw [nestingIssues, ← nestedFields_eq_nil_iff]
  split
  next deep => simp [Nat.not_le.2 deep]
  next fine => simp [Nat.le_of_not_lt fine]

theorem any_eq_ok_iff {level : Nat} {v w : Json} :
    Check.any level v = .ok w ↔ nestingIssues level v = [] ∧ v = w := by
  unfold Check.any
  split
  next fine => simp [fine]
  next deep => simpa using fun fine => absurd fine deep

theorem dictionary_eq_ok_iff {level : Nat} {v : Json} {fields : Json.Fields} :
    Check.dictionary level v = .ok fields ↔
      v = .object fields ∧ ∀ field ∈ fields, nestingIssues level field.2 = [] := by
  unfold Check.dictionary
  split
  next found =>
    rw [← nestedFields_eq_nil_iff]
    split
    next fine =>
      constructor
      · intro same
        cases same
        exact ⟨rfl, fine⟩
      · rintro ⟨same, -⟩
        cases same
        rfl
    next issues deep =>
      constructor
      · intro same
        cases same
      · rintro ⟨same, fine⟩
        cases same
        exact absurd fine deep
  next v other =>
    constructor
    · intro same
      cases same
    · rintro ⟨same, -⟩
      exact absurd same (other fields)

end Check

/-- A value that may stand at a level of nesting and has distinct keys. -/
structure Json.Fits (level : Nat) (v : Json) : Prop where
  shallow : Check.nestingIssues level v = []
  distinct : v.DistinctKeys

/-- Fields whose values may stand at a level of nesting, with distinct keys throughout. -/
structure Json.Fields.Fit (level : Nat) (fields : Json.Fields) : Prop where
  keys : fields.keys.Nodup
  values : ∀ field ∈ fields, field.2.Fits level

theorem Json.fits_object_iff {level : Nat} {fields : Json.Fields} :
    (Json.object fields).Fits level ↔ level ≤ Check.nestingLimit ∧ fields.Fit (level + 1) := by
  constructor
  · rintro ⟨shallow, distinct⟩
    obtain ⟨bound, shallow⟩ := Check.nestingIssues_object_eq_nil_iff.1 shallow
    obtain ⟨keys, distinct⟩ := Json.distinctKeys_object.1 distinct
    exact ⟨bound, keys, fun field mem => ⟨shallow field mem, distinct field mem⟩⟩
  · rintro ⟨bound, keys, values⟩
    exact ⟨Check.nestingIssues_object_eq_nil_iff.2 ⟨bound, fun field mem => (values field mem).shallow⟩,
      Json.distinctKeys_object.2 ⟨keys, fun field mem => (values field mem).distinct⟩⟩

theorem fit_of_dictionary {level : Nat} {v : Json} {fields : Json.Fields} (distinct : v.DistinctKeys)
    (read : Check.dictionary level v = .ok fields) : fields.Fit level := by
  obtain ⟨rfl, shallow⟩ := Check.dictionary_eq_ok_iff.1 read
  obtain ⟨keys, values⟩ := Json.distinctKeys_object.1 distinct
  exact ⟨keys, fun field mem => ⟨shallow field mem, values field mem⟩⟩

namespace Json

namespace Fields.Fit

variable {level : Nat} {fields : Fields}

theorem nil (level : Nat) : Fit level [] := ⟨List.nodup_nil, nofun⟩

theorem erase (fit : fields.Fit level) (key : String) : (fields.erase key).Fit level :=
  ⟨nodup_keys_erase fit.keys key, fun field mem => fit.values field (List.mem_of_mem_filter mem)⟩

theorem put (fit : fields.Fit level) (key : String) {v : Json} (fits : v.Fits level) :
    (fields.put key v).Fit level := by
  refine ⟨nodup_keys_put fit.keys key v, fun field mem => ?_⟩
  obtain rfl | mem := mem_put mem
  · exact fits
  · exact fit.values field mem

theorem merge (fit : fields.Fit level) {later : Fields} (laterFit : later.Fit level) :
    (fields.merge later).Fit level := by
  refine ⟨nodup_keys_merge fit.keys later, fun field mem => ?_⟩
  obtain mem | mem := mem_merge mem
  · exact fit.values field mem
  · exact laterFit.values field mem

theorem get? (fit : fields.Fit level) {key : String} {v : Json} (found : fields.get? key = some v) :
    v.Fits level :=
  fit.values _ (mem_of_get?_eq_some found)

theorem tail {field : String × Json} (fit : Fit level (field :: fields)) : fields.Fit level :=
  ⟨(List.nodup_cons.1 fit.keys).2, fun other mem => fit.values other (List.mem_cons_of_mem _ mem)⟩

end Fields.Fit

mutual

/-- A patch that fits at a level keeps fields fit for the level. A patch of an object merges one level
further down. -/
theorem patchField_fit {level : Nat} {target : Fields} (fit : target.Fit level) (key : String)
    {v : Json} (fits : v.Fits level) : (patchField target key v).Fit level := by
  cases v with
  | object patch =>
    unfold patchField
    split
    next fields found =>
      obtain ⟨bound, old⟩ := fits_object_iff.1 (fit.get? found)
      obtain ⟨-, new⟩ := fits_object_iff.1 fits
      exact fit.put key (fits_object_iff.2 ⟨bound, patchFields_fit old new⟩)
    next => exact fit.put key fits
  | null => exact fit.erase key
  | bool b => exact fit.put key fits
  | int n => exact fit.put key fits
  | double x => exact fit.put key fits
  | string s => exact fit.put key fits
  | array items => exact fit.put key fits

theorem patchFields_fit {level : Nat} {target : Fields} (fit : target.Fit level)
    {patch : List (String × Json)} (patchFit : Fields.Fit level patch) :
    (patchFields target patch).Fit level := by
  cases patch with
  | nil => exact fit
  | cons field rest =>
    obtain ⟨key, v⟩ := field
    unfold patchFields
    exact patchFields_fit (patchField_fit fit key (patchFit.values _ List.mem_cons_self)) patchFit.tail

end

end Json

end Flowchart
