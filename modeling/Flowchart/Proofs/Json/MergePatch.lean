import Flowchart.Proofs.Json.Fields

/-!
# Merging a patch

* `get?_patchFields`: what a patch leaves under a key, by what was there and what the patch has for it.
* `mergePatch`: merging by the book: what a nested object does not find an object for is merged into an empty one.
* `Same`: equality of values, the order of keys aside.
* `FieldsLand`: every nested object of a patch either meets an object or holds no null.
* `patchFields_same_iff`: these are the patches that are merged by the book.
-/

namespace Flowchart

namespace Json

/-! ### Single fields -/

namespace Fields

theorem get?_put (fields : Fields) (k key : String) (value : Json) :
    (fields.put k value).get? key = if key = k then some value else fields.get? key := by
  induction fields with
  | nil => simp [put, get?, eq_comm]
  | cons field fields ih =>
    obtain ⟨first, old⟩ := field
    unfold put
    by_cases here : first = k
    · subst here
      by_cases same : key = first
      · simp [get?, same]
      · simp [get?, same, Ne.symm same]
    · rw [if_neg here, get?, ih, get?]
      by_cases same : first = key
      · subst same
        simp [here]
      · simp [same]

theorem get?_erase (fields : Fields) (k key : String) :
    (fields.erase k).get? key = if key = k then none else fields.get? key := by
  induction fields with
  | nil => simp [erase, get?]
  | cons field fields ih =>
    obtain ⟨first, old⟩ := field
    rw [erase] at ih ⊢
    by_cases here : first = k
    · subst here
      rw [List.filter_cons_of_neg (by simp), ih]
      by_cases same : key = first
      · simp [same]
      · simp [get?, same, Ne.symm same]
    · rw [List.filter_cons_of_pos (by simpa using here), get?, ih, get?]
      by_cases same : first = key
      · subst same
        simp [here]
      · simp [same]

/-- Where each step of a run over fields with distinct keys changes one key, the key is found as its step left
it. -/
theorem get?_foldl {step : Fields → String → Json → Fields} {change : Option Json → Json → Option Json}
    (local_ : ∀ (fields : Fields) k value key, (step fields k value).get? key =
      if key = k then change (fields.get? k) value else fields.get? key)
    (fields : Fields) {changes : Fields} (distinct : changes.keys.Nodup) (key : String) :
    (changes.foldl (fun fields field => step fields field.1 field.2) fields).get? key =
      (changes.get? key).elim (fields.get? key) (change (fields.get? key)) := by
  induction changes generalizing fields with
  | nil => rfl
  | cons field changes ih =>
    obtain ⟨k, value⟩ := field
    obtain ⟨once, distinct⟩ := List.nodup_cons.1 distinct
    rw [List.foldl_cons, ih _ distinct, local_, get?]
    by_cases here : k = key
    · subst here
      simp [get?_eq_none_iff.2 once]
    · simp [here, Ne.symm here]

end Fields

/-! ### What a patch leaves -/

/-- What a patch leaves of the value of one key. -/
def patched (old : Option Json) : Json → Option Json
  | null => none
  | object patch =>
    match old with
    | some (object fields) => some (object (patchFields fields patch))
    | _ => some (object patch)
  | value => some value

theorem get?_patchField (fields : Fields) (k : String) (value : Json) (key : String) :
    (patchField fields k value).get? key = if key = k then patched (fields.get? k) value else fields.get? key := by
  cases value with
  | null => rw [patchField, Fields.get?_erase, patched]
  | object patch =>
    cases found : fields.get? k with
    | none => simp only [patchField, patched, found, Fields.get?_put]
    | some old => cases old <;> simp only [patchField, patched, found, Fields.get?_put]
  | _ => rw [patchField, Fields.get?_put, patched] <;> simp

theorem patchFields_eq_foldl (fields patch : Fields) :
    patchFields fields patch = patch.foldl (fun fields field => patchField fields field.1 field.2) fields := by
  induction patch generalizing fields with
  | nil => rw [patchFields, List.foldl_nil]
  | cons field patch ih => rw [patchFields, ih, List.foldl_cons]

/-- A key that the patch does not name keeps its value; of any other the patch leaves what it says. -/
theorem get?_patchFields (fields : Fields) {patch : Fields} (distinct : patch.keys.Nodup) (key : String) :
    (patchFields fields patch).get? key =
      (patch.get? key).elim (fields.get? key) (patched (fields.get? key)) := by
  rw [patchFields_eq_foldl, Fields.get?_foldl get?_patchField fields distinct]

/-! ### Merging by the book -/

/-- The fields of an object. Any other value counts as an empty one. -/
def members : Json → Fields
  | object fields => fields
  | _ => []

mutual

/-- Merges a patch into a value. A patch that is no object takes the value's place. -/
def mergePatch (target : Json) : Json → Json
  | object patch => object (mergeFields target.members patch)
  | value => value

/-- Merges the fields of a patch: a null takes its key away, any other value is merged into what the key has. -/
def mergeFields (target : Fields) : List (String × Json) → Fields
  | [] => target
  | (key, null) :: rest => mergeFields (target.erase key) rest
  | (key, value) :: rest => mergeFields (target.put key (mergePatch ((target.get? key).getD null) value)) rest

end

/-- What merging leaves of the value of one key. -/
def merged (old : Option Json) : Json → Option Json
  | null => none
  | value => some (mergePatch (old.getD null) value)

/-- Merges the patch of one key. -/
def mergeField (target : Fields) (key : String) : Json → Fields
  | null => target.erase key
  | value => target.put key (mergePatch ((target.get? key).getD null) value)

theorem mergeFields_cons (target : Fields) (key : String) (value : Json) (rest : Fields) :
    mergeFields target ((key, value) :: rest) = mergeFields (mergeField target key value) rest := by
  cases value <;> simp only [mergeFields, mergeField]

theorem mergeFields_eq_foldl (target patch : Fields) :
    mergeFields target patch = patch.foldl (fun fields field => mergeField fields field.1 field.2) target := by
  induction patch generalizing target with
  | nil => rw [mergeFields, List.foldl_nil]
  | cons field patch ih => rw [mergeFields_cons, ih, List.foldl_cons]

theorem get?_mergeFields (target : Fields) {patch : Fields} (distinct : patch.keys.Nodup) (key : String) :
    (mergeFields target patch).get? key =
      (patch.get? key).elim (target.get? key) (merged (target.get? key)) := by
  rw [mergeFields_eq_foldl]
  refine Fields.get?_foldl (fun fields k value key => ?_) target distinct key
  cases value <;> simp [mergeField, merged, Fields.get?_erase, Fields.get?_put]

/-! ### Where the two part -/

mutual

/-- No null stands under a key, at any depth. -/
def NullFree : Json → Prop
  | null => False
  | object fields => FieldsNullFree fields
  | _ => True

def FieldsNullFree : List (String × Json) → Prop
  | [] => True
  | (_, value) :: rest => NullFree value ∧ FieldsNullFree rest

end

mutual

/-- A patch meets what a key has: every object inside it meets an object, or holds no null. -/
def Lands (old : Option Json) : Json → Prop
  | object patch =>
    match old with
    | some (object fields) => FieldsLand fields patch
    | _ => FieldsNullFree patch
  | _ => True

/-- Each field of a patch meets what its key has. -/
def FieldsLand (target : Fields) : List (String × Json) → Prop
  | [] => True
  | (key, value) :: rest => Lands (target.get? key) value ∧ FieldsLand target rest

end

/-- There is no object under a key. -/
def Bare (old : Option Json) : Prop := ∀ fields, old ≠ some (object fields)

theorem lands_object (fields patch : Fields) :
    Lands (some (object fields)) (object patch) ↔ FieldsLand fields patch := by
  rw [Lands]

theorem Bare.lands_iff {old : Option Json} (bare : Bare old) (patch : Fields) :
    Lands old (object patch) ↔ FieldsNullFree patch := by
  rw [Lands]
  exact bare

theorem Bare.patched_eq {old : Option Json} (bare : Bare old) (patch : Fields) :
    patched old (object patch) = some (object patch) := by
  unfold patched
  dsimp only
  split
  next fields => exact absurd rfl (bare fields)
  next => rfl

theorem Bare.patchField_eq {target : Fields} {key : String} (bare : Bare (target.get? key)) (patch : Fields) :
    patchField target key (object patch) = target.put key (object patch) := by
  unfold patchField
  split
  next fields found => exact absurd found (bare fields)
  next => rfl

theorem Bare.members_eq {old : Option Json} (bare : Bare old) : (old.getD null).members = [] := by
  cases old with
  | none => simp [members]
  | some v =>
    cases v with
    | object fields => exact absurd rfl (bare fields)
    | _ => simp [members]

/-- Equality of values, the order of keys aside. -/
inductive Same : Json → Json → Prop
  | refl (v : Json) : Same v v
  | array {items others : List Json} (each : List.Forall₂ Same items others) : Same (array items) (array others)
  | object {fields others : Fields} (each : ∀ key, Option.Rel Same (fields.get? key) (others.get? key)) :
    Same (object fields) (object others)

theorem Same.get? {fields others : Fields} (same : Same (.object fields) (.object others)) (key : String) :
    Option.Rel Same (fields.get? key) (others.get? key) := by
  cases same with
  | refl =>
    cases fields.get? key with
    | none => exact .none
    | some v => exact .some (.refl v)
  | object each => exact each key

theorem fieldsLand_iff {target patch : Fields} :
    FieldsLand target patch ↔ ∀ field ∈ patch, Lands (target.get? field.1) field.2 := by
  induction patch with
  | nil => simp [FieldsLand]
  | cons field patch ih => simp [FieldsLand, ih]

/-! ### A patch that lands -/

mutual

/-- Merging an object without nulls into no object makes a copy of it. -/
theorem mergePatch_of_nullFree {target : Json} (apart : target.members = []) :
    ∀ {value : Json}, value.NullFree → value.DistinctKeys → mergePatch target value = value
  | object patch, free, distinct => by
    rw [mergePatch, apart, mergeFields_of_nullFree patch free (by simpa using distinct.1) distinct.2, List.nil_append]
  | null, free, _ => free.elim
  | bool _, _, _ => by rw [mergePatch]; nofun
  | int _, _, _ => by rw [mergePatch]; nofun
  | double _, _, _ => by rw [mergePatch]; nofun
  | string _, _, _ => by rw [mergePatch]; nofun
  | array _, _, _ => by rw [mergePatch]; nofun

theorem mergeFields_of_nullFree {done : Fields} :
    ∀ patch : Fields, FieldsNullFree patch → (Fields.keys (done ++ patch)).Nodup → FieldsDistinct patch →
      mergeFields done patch = done ++ patch
  | [], _, _, _ => by rw [mergeFields, List.append_nil]
  | (key, value) :: rest, free, once, distinct => by
    have new : key ∉ done.keys := fun old => by
      simp only [Fields.keys, List.map_append, List.map_cons] at once old
      exact (List.nodup_append.1 once).2.2 key old key List.mem_cons_self rfl
    have copy : mergePatch null value = value := mergePatch_of_nullFree rfl free.1 distinct.1
    have step : mergeField done key value = done ++ [(key, value)] := by
      have present : value ≠ null := fun same => by simpa [same, NullFree] using free.1
      rw [mergeField.eq_2 _ _ _ present, Fields.get?_eq_none_iff.2 new]
      exact copy.symm ▸ Fields.put_of_not_mem new
    rw [mergeFields_cons, step, mergeFields_of_nullFree rest free.2 (by simpa using once) distinct.2]
    simp

end

/-- A patch of other keys meets the same values after one key was merged. -/
theorem FieldsLand.patchField {target rest : Fields} {key : String} (lands : FieldsLand target rest)
    (other : key ∉ rest.keys) (value : Json) : FieldsLand (patchField target key value) rest := by
  rw [fieldsLand_iff] at lands ⊢
  intro field member
  have apart : field.1 ≠ key := fun same => other (same ▸ List.mem_map_of_mem member)
  rw [get?_patchField, if_neg apart]
  exact lands field member

mutual

theorem patchField_of_lands {target : Fields} {key : String} :
    ∀ value : Json, Lands (target.get? key) value → value.DistinctKeys →
      patchField target key value = mergeField target key value
  | object patch, lands, distinct => by
    by_cases meets : ∃ fields, target.get? key = some (object fields)
    · obtain ⟨fields, found⟩ := meets
      rw [found, lands_object] at lands
      have inside := patchFields_of_land patch lands distinct.1 distinct.2
      simp only [patchField, mergeField, found, Option.getD_some, mergePatch, members, inside]
    · have bare : Bare (target.get? key) := not_exists.1 meets
      rw [bare.lands_iff] at lands
      have copy : mergePatch ((target.get? key).getD null) (object patch) = object patch :=
        mergePatch_of_nullFree bare.members_eq lands distinct
      rw [bare.patchField_eq, mergeField, copy]
      simp
  | null, _, _ => rfl
  | bool _, _, _ => rfl
  | int _, _, _ => rfl
  | double _, _, _ => rfl
  | string _, _, _ => rfl
  | array _, _, _ => rfl

/-- A patch whose objects land is merged by the book. -/
theorem patchFields_of_land {target : Fields} :
    ∀ patch : Fields, FieldsLand target patch → patch.keys.Nodup → FieldsDistinct patch →
      patchFields target patch = mergeFields target patch
  | [], _, _, _ => by rw [patchFields, mergeFields]
  | (key, value) :: rest, lands, once, distinct => by
    obtain ⟨other, once⟩ := List.nodup_cons.1 once
    have later := patchFields_of_land rest (lands.2.patchField other value) once distinct.2
    rw [patchFields, mergeFields_cons, later, patchField_of_lands value lands.1 distinct.1]

end

/-! ### A patch that does not -/

mutual

/-- An object that is the same as a merged copy of it holds no null. -/
theorem nullFree_of_same :
    ∀ value : Json, value.DistinctKeys → Option.Rel Same (some value) (merged none value) → value.NullFree
  | null, _, same => by cases same
  | object patch, distinct, same => by
    rw [merged] at same
    · cases same with
      | some same =>
        rw [Option.getD_none, mergePatch] at same
        refine fieldsNullFree_of_same patch distinct.1 distinct.2 fun field member => ?_
        have each := same.get? field.1
        rw [get?_mergeFields _ distinct.1, (Fields.get?_eq_some_iff distinct.1).2 member] at each
        exact each
    · simp
  | bool _, _, _ => trivial
  | int _, _, _ => trivial
  | double _, _, _ => trivial
  | string _, _, _ => trivial
  | array _, _, _ => trivial

theorem fieldsNullFree_of_same :
    ∀ patch : Fields, patch.keys.Nodup → FieldsDistinct patch →
      (∀ field ∈ patch, Option.Rel Same (some field.2) (merged none field.2)) → FieldsNullFree patch
  | [], _, _, _ => trivial
  | (_, value) :: rest, once, distinct, each =>
    ⟨nullFree_of_same value distinct.1 (each _ List.mem_cons_self),
      fieldsNullFree_of_same rest (List.nodup_cons.1 once).2 distinct.2 fun field member =>
        each field (List.mem_cons_of_mem _ member)⟩

end

mutual

theorem lands_of_same {old : Option Json} :
    ∀ value : Json, value.DistinctKeys → Option.Rel Same (patched old value) (merged old value) → Lands old value
  | object patch, distinct, same => by
    by_cases meets : ∃ fields, old = some (object fields)
    · obtain ⟨fields, rfl⟩ := meets
      simp only [patched, merged, Option.getD_some, mergePatch, members] at same
      cases same with
      | some same =>
        refine (lands_object fields patch).2 (fieldsLand_of_same patch distinct.2 fun field member => ?_)
        have each := same.get? field.1
        rw [get?_mergeFields _ distinct.1, get?_patchFields _ distinct.1,
          (Fields.get?_eq_some_iff distinct.1).2 member] at each
        exact each
    · have bare : Bare old := not_exists.1 meets
      rw [bare.lands_iff]
      rw [bare.patched_eq, merged, mergePatch, bare.members_eq] at same
      refine nullFree_of_same (object patch) distinct ?_
      · rw [merged, mergePatch]
        · exact same
        · simp
      · simp
  | null, _, _ => trivial
  | bool _, _, _ => trivial
  | int _, _, _ => trivial
  | double _, _, _ => trivial
  | string _, _, _ => trivial
  | array _, _, _ => trivial

theorem fieldsLand_of_same {target : Fields} :
    ∀ patch : Fields, FieldsDistinct patch →
      (∀ field ∈ patch, Option.Rel Same (patched (target.get? field.1) field.2)
        (merged (target.get? field.1) field.2)) → FieldsLand target patch
  | [], _, _ => trivial
  | (_, value) :: rest, distinct, each =>
    ⟨lands_of_same value distinct.1 (each _ List.mem_cons_self),
      fieldsLand_of_same rest distinct.2 fun field member => each field (List.mem_cons_of_mem _ member)⟩

end

/-- A patch of an object is merged by the book exactly if every object inside it meets an object or holds no
null. The order of keys is then the same as well. -/
theorem patchFields_same_iff (target : Fields) {patch : Fields} (distinct : (object patch).DistinctKeys) :
    (Same (object (patchFields target patch)) (mergePatch (object target) (object patch)) ↔
        FieldsLand target patch) ∧
      (FieldsLand target patch → object (patchFields target patch) = mergePatch (object target) (object patch)) := by
  have equal (lands : FieldsLand target patch) :
      object (patchFields target patch) = mergePatch (object target) (object patch) := by
    rw [mergePatch, members, patchFields_of_land patch lands distinct.1 distinct.2]
  refine ⟨⟨fun same => ?_, fun lands => equal lands ▸ .refl _⟩, equal⟩
  refine fieldsLand_of_same patch distinct.2 fun field member => ?_
  rw [mergePatch, members] at same
  have each := same.get? field.1
  rw [get?_mergeFields _ distinct.1, get?_patchFields _ distinct.1,
    (Fields.get?_eq_some_iff distinct.1).2 member] at each
  exact each

/-- A null inside an object that replaces a number: it stays, where the merge has an empty object. -/
theorem patchFields_same_iff_bare :
    (object [("a", object [("b", null)])]).DistinctKeys ∧
      object (patchFields [("a", int 1)] [("a", object [("b", null)])]) = object [("a", object [("b", null)])] ∧
      mergePatch (object [("a", int 1)]) (object [("a", object [("b", null)])]) = object [("a", object [])] ∧
      ¬Same (object (patchFields [("a", int 1)] [("a", object [("b", null)])]))
        (mergePatch (object [("a", int 1)]) (object [("a", object [("b", null)])])) := by
  have distinct : (object [("a", object [("b", null)])]).DistinctKeys := by
    simp [DistinctKeys, FieldsDistinct, Fields.keys]
  refine ⟨distinct, rfl, rfl, fun same => ?_⟩
  have lands := (patchFields_same_iff [("a", int 1)] distinct).1.1 same
  simp [FieldsLand, Lands, Fields.get?, FieldsNullFree, NullFree] at lands

end Json

end Flowchart
