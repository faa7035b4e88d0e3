import Flowchart.Proofs.Json.MergePatch

/-!
# Merging in memory

* `Memory`: cells that are numbered as they are made. An array or an object is a cell that refers to those of its
  parts, so that values may share parts.
* `Held`: a value lies at a place of the memory.
* `Merges`: how an object is merged with a patch, write by write. The target is copied, and then the copy is
  changed key by key.
* `exists_merges_held`: a merge comes to one end, with the merged object, and every value stays what it was.

While a copy is being changed, no value may depend on it. `Memory.off` is the memory without the cells that are under
construction; all the parts of a copy are held by the rest.
-/

namespace Flowchart

namespace Json

/-- A place of the memory. -/
abbrev Ref := Nat

/-- What lies at a place. -/
inductive Cell where
  /-- a value that is neither an array nor an object -/
  | leaf (value : Json)
  | array (items : List Ref)
  | object (entries : List (String × Ref))

abbrev Memory := List Cell

def isLeaf : Json → Bool
  | array _ => false
  | object _ => false
  | _ => true

mutual

/-- A value lies at a place of what can be read of a memory. -/
inductive Held (read : Ref → Option Cell) : Ref → Json → Prop
  | leaf {r value} (isLeaf : value.isLeaf) (cell : read r = some (.leaf value)) : Held read r value
  | array {r refs items} (cell : read r = some (.array refs)) (held : ItemsHeld read refs items) :
    Held read r (array items)
  | object {r entries fields} (cell : read r = some (.object entries)) (held : FieldsHeld read entries fields) :
    Held read r (object fields)

inductive ItemsHeld (read : Ref → Option Cell) : List Ref → List Json → Prop
  | nil : ItemsHeld read [] []
  | cons {r value refs items} (first : Held read r value) (rest : ItemsHeld read refs items) :
    ItemsHeld read (r :: refs) (value :: items)

inductive FieldsHeld (read : Ref → Option Cell) : List (String × Ref) → Fields → Prop
  | nil : FieldsHeld read [] []
  | cons {key r value entries fields} (first : Held read r value) (rest : FieldsHeld read entries fields) :
    FieldsHeld read ((key, r) :: entries) ((key, value) :: fields)

end

/-- A key that is there gets the new part in its place, a new key goes to the end. -/
def enter (key : String) (r : Ref) : List (String × Ref) → List (String × Ref)
  | [] => [(key, r)]
  | (k, old) :: rest => if k = key then (key, r) :: rest else (k, old) :: enter key r rest

namespace Memory

def read (m : Memory) (r : Ref) : Option Cell := m[r]?

def IsObject (m : Memory) (r : Ref) : Prop := ∃ entries, m.read r = some (.object entries)

/-- A new object gets the next place. -/
def add (m : Memory) (entries : List (String × Ref)) : Memory := m ++ [.object entries]

def write (m : Memory) (r : Ref) (entries : List (String × Ref)) : Memory := m.set r (.object entries)

end Memory

/-! ### The merge, write by write -/

mutual

/-- The object at `target` is copied to `result`, which is changed by the patch at `patch`. -/
inductive Merges : (m : Memory) → (target patch result : Ref) → (after : Memory) → Prop
  | copied {m after : Memory} {target patch entries changes} (old : m.read target = some (.object entries))
    (new : m.read patch = some (.object changes)) (turns : Turns (m.add entries) m.length changes after) :
    Merges m target patch m.length after

/-- The object at `result` is changed by some keys of a patch, one after the other. -/
inductive Turns : (m : Memory) → (result : Ref) → (changes : List (String × Ref)) → (after : Memory) → Prop
  | done {m result} : Turns m result [] m
  | next {m between after result key value changes} (turn : Turn m result key value between)
    (rest : Turns between result changes after) : Turns m result ((key, value) :: changes) after

/-- The object at `result` is changed by what a patch has for one key: it is deleted, merged, or replaced. -/
inductive Turn : (m : Memory) → (result : Ref) → (key : String) → (value : Ref) → (after : Memory) → Prop
  | deleted {m : Memory} {result key value entries} (isNull : m.read value = some (.leaf null))
    (here : m.read result = some (.object entries)) :
    Turn m result key value (m.write result (entries.filter fun entry => entry.1 ≠ key))
  | merged {m between : Memory} {result key value old new entries later} (patch : m.IsObject value)
    (here : m.read result = some (.object entries)) (found : entries.lookup key = some old)
    (target : m.IsObject old) (merges : Merges m old value new between)
    (still : between.read result = some (.object later)) :
    Turn m result key value (between.write result (enter key new later))
  | replaced {m : Memory} {result key value entries} (present : m.read value ≠ some (.leaf null))
    (here : m.read result = some (.object entries))
    (apart : ¬(m.IsObject value ∧ ∃ old, entries.lookup key = some old ∧ m.IsObject old)) :
    Turn m result key value (m.write result (enter key value entries))

end

section inversion

variable {m after : Memory} {target patch result value : Ref} {key : String}
  {entries changes : List (String × Ref)}

theorem merges_iff (old : m.read target = some (.object entries)) (new : m.read patch = some (.object changes)) :
    Merges m target patch result after ↔
      result = m.length ∧ Turns (m.add entries) m.length changes after := by
  constructor
  · rintro ⟨old', new', turns⟩
    cases old.symm.trans old'
    cases new.symm.trans new'
    exact ⟨rfl, turns⟩
  · rintro ⟨rfl, turns⟩
    exact .copied old new turns

theorem turns_nil_iff : Turns m result [] after ↔ after = m := by
  constructor
  · rintro ⟨⟩
    rfl
  · rintro rfl
    exact .done

theorem turns_cons_iff : Turns m result ((key, value) :: changes) after ↔
    ∃ between, Turn m result key value between ∧ Turns between result changes after := by
  constructor
  · rintro (_ | ⟨turn, rest⟩)
    exact ⟨_, turn, rest⟩
  · rintro ⟨between, turn, rest⟩
    exact .next turn rest

theorem turn_iff_of_null (isNull : m.read value = some (.leaf null)) (here : m.read result = some (.object entries)) :
    Turn m result key value after ↔
      after = m.write result (entries.filter fun entry => entry.1 ≠ key) := by
  constructor
  · intro turn
    cases turn with
    | deleted _ here' => cases here.symm.trans here'; rfl
    | merged patch =>
      obtain ⟨_, cell⟩ := patch
      cases isNull.symm.trans cell
    | replaced present => exact absurd isNull present
  · rintro rfl
    exact .deleted isNull here

theorem turn_iff_of_nested {old : Ref} (isPatch : m.IsObject value)
    (here : m.read result = some (.object entries)) (found : entries.lookup key = some old)
    (isTarget : m.IsObject old) :
    Turn m result key value after ↔ ∃ new between later, Merges m old value new between ∧
      between.read result = some (.object later) ∧
      after = between.write result (enter key new later) := by
  constructor
  · intro turn
    cases turn with
    | deleted isNull =>
      obtain ⟨_, cell⟩ := isPatch
      cases isNull.symm.trans cell
    | merged _ here' found' _ merges still =>
      cases here.symm.trans here'
      cases found.symm.trans found'
      exact ⟨_, _, _, merges, still, rfl⟩
    | replaced _ here' apart =>
      cases here.symm.trans here'
      exact absurd ⟨isPatch, old, found, isTarget⟩ apart
  · rintro ⟨new, between, later, merges, still, rfl⟩
    exact .merged isPatch here found isTarget merges still

theorem turn_iff_of_apart (present : m.read value ≠ some (.leaf null))
    (here : m.read result = some (.object entries))
    (apart : ¬(m.IsObject value ∧ ∃ old, entries.lookup key = some old ∧ m.IsObject old)) :
    Turn m result key value after ↔ after = m.write result (enter key value entries) := by
  constructor
  · intro turn
    cases turn with
    | deleted isNull => exact absurd isNull present
    | merged isPatch here' found isTarget =>
      cases here.symm.trans here'
      exact absurd ⟨isPatch, _, found, isTarget⟩ apart
    | replaced _ here' => cases here.symm.trans here'; rfl
  · rintro rfl
    exact .replaced present here apart

end inversion

/-! ### Values that are held -/

section held

variable {read more : Ref → Option Cell} {r : Ref} {value : Json} {entries : List (String × Ref)} {fields : Fields}
  {key : String}

/-- What is read is still read. -/
def Grows (read more : Ref → Option Cell) : Prop := ∀ r cell, read r = some cell → more r = some cell

mutual

/-- A value that is held is still held where more can be read. -/
theorem Held.mono (grows : Grows read more) : ∀ {r value}, Held read r value → Held more r value
  | _, _, .leaf isLeaf cell => .leaf isLeaf (grows _ _ cell)
  | _, _, .array cell held => .array (grows _ _ cell) (held.mono grows)
  | _, _, .object cell held => .object (grows _ _ cell) (held.mono grows)

theorem ItemsHeld.mono (grows : Grows read more) : ∀ {refs items}, ItemsHeld read refs items → ItemsHeld more refs items
  | _, _, .nil => .nil
  | _, _, .cons first rest => .cons (first.mono grows) (rest.mono grows)

theorem FieldsHeld.mono (grows : Grows read more) :
    ∀ {entries fields}, FieldsHeld read entries fields → FieldsHeld more entries fields
  | _, _, .nil => .nil
  | _, _, .cons first rest => .cons (first.mono grows) (rest.mono grows)

end

theorem Held.isNull_iff (held : Held read r value) : read r = some (.leaf null) ↔ value = null := by
  cases held with
  | leaf isLeaf cell => simp [cell]
  | array cell held => simp [cell]
  | object cell held => simp [cell]

theorem Held.isObject_iff (held : Held read r value) :
    (∃ entries, read r = some (.object entries)) ↔ ∃ fields, value = Json.object fields := by
  cases held with
  | leaf isLeaf cell =>
    simp only [cell, Option.some.injEq, reduceCtorEq, exists_false, false_iff, not_exists]
    rintro fields rfl
    cases isLeaf
  | array cell held => simp [cell]
  | object cell held => simp [cell]

theorem Held.exists_cell (held : Held read r value) : ∃ cell, read r = some cell := by
  cases held with
  | leaf _ cell => exact ⟨_, cell⟩
  | array cell _ => exact ⟨_, cell⟩
  | object cell _ => exact ⟨_, cell⟩

theorem Held.object_inv (held : Held read r (Json.object fields)) :
    ∃ entries, read r = some (.object entries) ∧ FieldsHeld read entries fields := by
  cases held with
  | leaf isLeaf => cases isLeaf
  | object cell held => exact ⟨_, cell, held⟩

/-- A key leads to the same part in the cell and in the object. -/
theorem FieldsHeld.lookup (held : FieldsHeld read entries fields) (key : String) :
    Option.Rel (Held read) (entries.lookup key) (fields.get? key) := by
  induction fields generalizing entries with
  | nil =>
    cases held
    exact .none
  | cons field fields ih =>
    cases held with
    | @cons k r value entries _ first rest =>
      by_cases here : k = key
      · subst here
        simpa [Fields.get?] using Option.Rel.some first
      · have past : (key == k) = false := beq_eq_false_iff_ne.2 (Ne.symm here)
        simpa [List.lookup_cons, past, Fields.get?, here] using ih rest

theorem FieldsHeld.of_lookup (held : FieldsHeld read entries fields) (found : entries.lookup key = some r) :
    ∃ value, fields.get? key = some value ∧ Held read r value := by
  have same := held.lookup key
  rw [found] at same
  generalize fields.get? key = known at same ⊢
  cases same with
  | some part => exact ⟨_, rfl, part⟩

theorem FieldsHeld.of_get? (held : FieldsHeld read entries fields) (found : fields.get? key = some value) :
    ∃ r, entries.lookup key = some r ∧ Held read r value := by
  have same := held.lookup key
  rw [found] at same
  generalize entries.lookup key = known at same ⊢
  cases same with
  | some part => exact ⟨_, rfl, part⟩

theorem FieldsHeld.enter (held : FieldsHeld read entries fields) (part : Held read r value) :
    FieldsHeld read (enter key r entries) (fields.put key value) := by
  induction fields generalizing entries with
  | nil =>
    cases held
    exact .cons part .nil
  | cons field fields ih =>
    cases held with
    | @cons k old value entries _ first rest =>
      unfold Json.enter Fields.put
      by_cases here : k = key
      · rw [if_pos here, if_pos here]
        exact .cons part rest
      · rw [if_neg here, if_neg here]
        exact .cons first (ih rest)

theorem FieldsHeld.erase (held : FieldsHeld read entries fields) (key : String) :
    FieldsHeld read (entries.filter fun entry => entry.1 ≠ key) (fields.erase key) := by
  induction fields generalizing entries with
  | nil =>
    cases held
    exact .nil
  | cons field fields ih =>
    cases held with
    | @cons k old value entries _ first rest =>
      rw [Fields.erase] at ih ⊢
      by_cases here : k = key
      · rw [List.filter_cons_of_neg (by simpa using here), List.filter_cons_of_neg (by simpa using here)]
        exact ih rest
      · rw [List.filter_cons_of_pos (by simpa using here), List.filter_cons_of_pos (by simpa using here)]
        exact .cons first (ih rest)

end held

/-! ### A copy under construction -/

namespace Memory

/-- The memory without some cells. -/
def off (m : Memory) (hidden : List Ref) (r : Ref) : Option Cell := if r ∈ hidden then none else m.read r

theorem off_eq_some {m : Memory} {hidden : List Ref} {r : Ref} {cell : Cell} :
    m.off hidden r = some cell ↔ r ∉ hidden ∧ m.read r = some cell := by
  by_cases member : r ∈ hidden <;> simp [off, member]

theorem off_nil (m : Memory) : m.off [] = m.read := by
  funext r
  simp [off]

/-- Only one cell is written to, and cells are added. -/
def KeepsBut (m : Memory) (written : Ref) (after : Memory) : Prop :=
  ∀ r cell, r ≠ written → m.read r = some cell → after.read r = some cell

variable {m after : Memory} {hidden : List Ref} {written : Ref}

theorem KeepsBut.refl : m.KeepsBut written m := fun _ _ _ cell => cell

theorem KeepsBut.trans {between : Memory} (first : m.KeepsBut written between)
    (second : between.KeepsBut written after) : m.KeepsBut written after :=
  fun r cell apart old => second r cell apart (first r cell apart old)

theorem KeepsBut.grows (keeps : m.KeepsBut written after) (isHidden : written ∈ hidden) :
    Grows (m.off hidden) (after.off hidden) := fun r cell seen => by
  obtain ⟨shown, old⟩ := off_eq_some.1 seen
  exact off_eq_some.2 ⟨shown, keeps r cell (fun same => shown (same ▸ isHidden)) old⟩

theorem lt_length_of_read {r : Ref} {cell : Cell} (seen : m.read r = some cell) : r < m.length :=
  (List.getElem?_eq_some_iff.1 seen).1

theorem grows_add (m : Memory) (entries : List (String × Ref)) : Grows m.read (m.add entries).read :=
  fun r cell seen => by
    rw [read, add, List.getElem?_append_left (lt_length_of_read seen)]
    exact seen

/-- A new cell is hidden from the start, and nothing else is. -/
theorem grows_off_add (m : Memory) (hidden : List Ref) (entries : List (String × Ref)) :
    Grows (m.off hidden) ((m.add entries).off (m.length :: hidden)) := fun r cell seen => by
  obtain ⟨shown, seen⟩ := off_eq_some.1 seen
  have old : r ≠ m.length := Nat.ne_of_lt (lt_length_of_read seen)
  exact off_eq_some.2 ⟨List.not_mem_cons_of_ne_of_not_mem old shown, m.grows_add entries r cell seen⟩

/-- What is shown while a cell is hidden is shown afterwards. -/
theorem grows_off_cons (m : Memory) (hidden : List Ref) (r : Ref) : Grows (m.off (r :: hidden)) (m.off hidden) :=
  fun other cell seen => by
    obtain ⟨shown, seen⟩ := off_eq_some.1 seen
    exact off_eq_some.2 ⟨fun member => shown (List.mem_cons_of_mem _ member), seen⟩

end Memory

/-- What is held lies where the memory shows it. -/
theorem Held.off_eq {m : Memory} {hidden : List Ref} {r : Ref} {value : Json} (held : Held (m.off hidden) r value) :
    m.off hidden r = m.read r := by
  obtain ⟨cell, seen⟩ := held.exists_cell
  rw [seen, (Memory.off_eq_some.1 seen).2]

/-- An object is under construction in a cell that is hidden from all the values that are held. -/
structure Building (m : Memory) (hidden : List Ref) (result : Ref) (fields : Fields) : Prop where
  isHidden : result ∈ hidden
  known : ∀ r ∈ hidden, r < m.length
  held : ∃ entries, m.read result = some (.object entries) ∧ FieldsHeld (m.off hidden) entries fields

/-- A run comes to one end only. There the object under construction has these fields, and nothing else was written
to. -/
def Builds (run : Memory → Prop) (m : Memory) (hidden : List Ref) (result : Ref) (fields : Fields) : Prop :=
  ∃ after, (∀ other, run other ↔ other = after) ∧ Building after hidden result fields ∧ m.KeepsBut result after

section building

variable {m : Memory} {hidden : List Ref} {result r : Ref} {fields : Fields} {key : String} {value : Json}

/-- The cell under construction is written to. -/
theorem Building.write (building : Building m hidden result fields) {entries : List (String × Ref)}
    {others : Fields} (held : FieldsHeld (m.off hidden) entries others) :
    Building (m.write result entries) hidden result others ∧
      m.KeepsBut result (m.write result entries) := by
  have keeps : m.KeepsBut result (m.write result entries) := fun r cell apart old => by
    rw [Memory.read, Memory.write, List.getElem?_set_ne (Ne.symm apart)]
    exact old
  have here : (m.write result entries).read result = some (.object entries) :=
    List.getElem?_set_self (building.known result building.isHidden)
  refine ⟨⟨building.isHidden, fun r member => ?_, entries, here, held.mono (keeps.grows building.isHidden)⟩, keeps⟩
  rw [Memory.write, List.length_set]
  exact building.known r member

/-- A null takes its key away. -/
theorem Building.delete (building : Building m hidden result fields) (held : Held (m.off hidden) r null) :
    Builds (Turn m result key r) m hidden result (fields.erase key) := by
  obtain ⟨entries, here, parts⟩ := building.held
  have isNull := (Memory.off_eq_some.1 (held.isNull_iff.2 rfl)).2
  exact ⟨_, fun _ => turn_iff_of_null isNull here, building.write (parts.erase key)⟩

/-- A value that is not merged into an object takes its place. -/
theorem Building.replace (building : Building m hidden result fields) (held : Held (m.off hidden) r value)
    (present : value ≠ null) (apart : (∃ patch, value = Json.object patch) → Bare (fields.get? key)) :
    Builds (Turn m result key r) m hidden result (fields.put key value) := by
  obtain ⟨entries, here, parts⟩ := building.held
  refine ⟨_, fun _ => turn_iff_of_apart (fun isNull => present (held.isNull_iff.1 (held.off_eq ▸ isNull))) here ?_,
    building.write (parts.enter held)⟩
  rintro ⟨⟨_, patch⟩, old, found, _, target⟩
  obtain ⟨v, known, part⟩ := parts.of_lookup found
  obtain ⟨inner, rfl⟩ := part.isObject_iff.1 ⟨_, part.off_eq.trans target⟩
  exact apart (held.isObject_iff.1 ⟨_, held.off_eq.trans patch⟩) inner known

/-- A copy of an object is begun in a new cell. -/
theorem Building.begin {entries : List (String × Ref)} (known : ∀ r ∈ hidden, r < m.length)
    (held : FieldsHeld (m.off hidden) entries fields) :
    Building (m.add entries) (m.length :: hidden) m.length fields := by
  have parts := held.mono (m.grows_off_add hidden entries)
  refine ⟨List.mem_cons_self, fun r member => ?_, entries, List.getElem?_concat_length, parts⟩
  rw [Memory.add, List.length_append, List.length_singleton]
  obtain rfl | member := List.mem_cons.1 member
  · exact Nat.lt_succ_self _
  · exact Nat.lt_succ_of_lt (known r member)

/-- When an object is done, its cell is hidden no more. -/
theorem Building.finish (building : Building m (result :: hidden) result fields) (fresh : result ∉ hidden) :
    Held (m.off hidden) result (Json.object fields) := by
  obtain ⟨entries, here, parts⟩ := building.held
  exact .object (Memory.off_eq_some.2 ⟨fresh, here⟩) (parts.mono (m.grows_off_cons hidden result))

/-- The keys of a patch can be brought into any object under construction. -/
def Applies (patch : Fields) : Prop :=
  ∀ {m hidden result fields changes}, Building m hidden result fields → FieldsHeld (m.off hidden) changes patch →
    Builds (Turns m result changes) m hidden result (patchFields fields patch)

/-- A merge comes to one end. The merged object does not depend on what is hidden, and what was there is there
still. -/
theorem Applies.exists_merges {patch : Fields} (applies : Applies patch) {target changed : Ref}
    (known : ∀ r ∈ hidden, r < m.length) (old : Held (m.off hidden) target (object fields))
    (new : Held (m.off hidden) changed (object patch)) :
    ∃ result after, (∀ r other, Merges m target changed r other ↔ r = result ∧ other = after) ∧
      Held (after.off hidden) result (object (patchFields fields patch)) ∧ Grows m.read after.read := by
  obtain ⟨entries, oldCell, parts⟩ := old.object_inv
  obtain ⟨changes, newCell, patches⟩ := new.object_inv
  obtain ⟨after, once, built, keeps⟩ :=
    applies (.begin known parts) (patches.mono (m.grows_off_add hidden entries))
  -- when the copy is shown again, all the rest that was hidden stays so
  have fresh : m.length ∉ hidden := fun member => Nat.lt_irrefl _ (known _ member)
  refine ⟨m.length, after, fun r other => ?_, built.finish fresh, fun r cell seen => ?_⟩
  · rw [merges_iff (Memory.off_eq_some.1 oldCell).2 (Memory.off_eq_some.1 newCell).2, once]
  · exact keeps r cell (Nat.ne_of_lt (Memory.lt_length_of_read seen)) (m.grows_add entries r cell seen)

theorem Held.isObject {patch : Fields} (held : Held (m.off hidden) r (Json.object patch)) : m.IsObject r := by
  obtain ⟨entries, cell⟩ := held.isObject_iff.2 ⟨_, rfl⟩
  exact ⟨entries, held.off_eq ▸ cell⟩

/-- A nested object of a patch that meets an object is merged into it. -/
theorem Building.merge {patch inner : Fields} (applies : Applies patch) (building : Building m hidden result fields)
    (held : Held (m.off hidden) r (Json.object patch)) (meets : fields.get? key = some (Json.object inner)) :
    Builds (Turn m result key r) m hidden result (fields.put key (Json.object (patchFields inner patch))) := by
  obtain ⟨entries, here, parts⟩ := building.held
  obtain ⟨old, found, part⟩ := parts.of_get? meets
  obtain ⟨new, between, once, merged, grows⟩ := applies.exists_merges building.known part held
  -- a merge adds cells only, so that the object under construction is where it was
  have still := grows _ _ here
  have keeps : m.KeepsBut result between := fun r cell _ seen => grows r cell seen
  have parts := parts.mono (keeps.grows building.isHidden)
  have known : ∀ r ∈ hidden, r < between.length := fun r member =>
    Memory.lt_length_of_read (grows r _ (List.getElem?_eq_getElem (building.known r member)))
  have entered : FieldsHeld (between.off hidden) (enter key new entries) _ := parts.enter merged
  obtain ⟨built, written⟩ := Building.write ⟨building.isHidden, known, entries, still, parts⟩ entered
  refine ⟨_, fun other => ?_, built, keeps.trans written⟩
  rw [turn_iff_of_nested held.isObject here found part.isObject]
  constructor
  · rintro ⟨_, _, later, merges, same, rfl⟩
    obtain ⟨rfl, rfl⟩ := (once _ _).1 merges
    cases still.symm.trans same
    rfl
  · rintro rfl
    exact ⟨new, between, entries, (once _ _).2 ⟨rfl, rfl⟩, still, rfl⟩

end building

mutual

/-- What a patch has for one key is brought into the object under construction. -/
theorem builds_turn : ∀ (value : Json) {m hidden result fields key r}, Building m hidden result fields →
    Held (m.off hidden) r value → Builds (Turn m result key r) m hidden result (patchField fields key value)
  | null, _, _, _, _, _, _, building, held => building.delete held
  | object patch, m, hidden, result, fields, key, r, building, held => by
    by_cases meets : ∃ inner, fields.get? key = some (object inner)
    · obtain ⟨inner, meets⟩ := meets
      have merged := Building.merge (builds_turns patch) building held meets
      simpa only [patchField, meets] using merged
    · have bare : Bare (fields.get? key) := not_exists.1 meets
      rw [bare.patchField_eq]
      exact building.replace held nofun fun _ => bare
  | bool _, _, _, _, _, _, _, building, held => building.replace held (by simp) (by simp)
  | int _, _, _, _, _, _, _, building, held => building.replace held (by simp) (by simp)
  | double _, _, _, _, _, _, _, building, held => building.replace held (by simp) (by simp)
  | string _, _, _, _, _, _, _, building, held => building.replace held (by simp) (by simp)
  | array _, _, _, _, _, _, _, building, held => building.replace held (by simp) (by simp)

/-- The keys of a patch are brought into the object under construction, one after the other. -/
theorem builds_turns : ∀ (patch : Fields) {m hidden result fields changes}, Building m hidden result fields →
    FieldsHeld (m.off hidden) changes patch →
      Builds (Turns m result changes) m hidden result (patchFields fields patch)
  | [], m, _, _, _, _, building, .nil => ⟨m, fun _ => turns_nil_iff, building, .refl⟩
  | (key, value) :: patch, m, hidden, result, fields, _, building, .cons first rest => by
    have turned : Builds (Turn m result key _) m hidden result _ := builds_turn value building first
    obtain ⟨between, once, built, keeps⟩ := turned
    -- the turn wrote to the hidden cell alone, so that the rest of the patch is held still
    obtain ⟨after, again, finished, later⟩ := builds_turns patch built (rest.mono (keeps.grows building.isHidden))
    refine ⟨after, fun other => ?_, finished, keeps.trans later⟩
    rw [turns_cons_iff]
    simp only [once, exists_eq_left, again]

end

/-- A merge comes to one end, with the patched object, and all that was held is held still. -/
theorem exists_merges_held {m : Memory} {target patch : Ref} {fields changes : Fields}
    (old : Held m.read target (object fields)) (new : Held m.read patch (object changes)) :
    ∃ result after, (∀ r other, Merges m target patch r other ↔ r = result ∧ other = after) ∧
      Held after.read result (object (patchFields fields changes)) ∧
      ∀ r value, Held m.read r value → Held after.read r value := by
  rw [← m.off_nil] at old new
  obtain ⟨result, after, once, merged, grows⟩ := Applies.exists_merges (builds_turns changes) (by simp) old new
  exact ⟨result, after, once, after.off_nil ▸ merged, fun r value held => held.mono grows⟩

end Json

end Flowchart
