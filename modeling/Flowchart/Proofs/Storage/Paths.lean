import Flowchart.Proofs.Storage.Calls

/-!
# The files of flowcharts

* `percentEncoded_injective`: texts that are encoded differ if they differ.
* `Store.filePath_eq_iff`: no two flowcharts have the same file, also if an owner's name leads nowhere or
  out of the directory of the store.
* `Store.text?_erase_of_ne`: the files of other flowcharts stay as they are.
-/

namespace Flowchart

/-! ### Percent encoding -/

/-- A byte as it is encoded. -/
def percentPart (byte : UInt8) : List Char :=
  if isUnreserved (Char.ofNat byte.toNat) then [Char.ofNat byte.toNat] else percentByte byte

theorem upperHexDigit_injective : ∀ n < 16, ∀ m < 16, upperHexDigit n = upperHexDigit m → n = m := by decide

theorem percentByte_injective {byte other : UInt8} (same : percentByte byte = percentByte other) :
    byte = other := by
  simp only [percentByte, List.cons.injEq, and_true, true_and] at same
  have high := upperHexDigit_injective _ (by have := byte.toNat_lt; omega) _ (by have := other.toNat_lt; omega)
    same.1
  have low := upperHexDigit_injective _ (by omega) _ (by omega) same.2
  exact UInt8.toNat_inj.mp (by omega)

theorem isUnreserved_isAscii {c : Char} (unreserved : isUnreserved c = true) : c.toNat < 128 ∧ c ≠ '%' := by
  simp only [isUnreserved, Char.isAlphanum, Char.isAlpha, Char.isUpper, Char.isLower, Char.isDigit,
    Bool.or_eq_true, Bool.and_eq_true, decide_eq_true_eq, beq_iff_eq, UInt32.le_iff_toNat_le,
    ge_iff_le] at unreserved
  change ((((((65 ≤ c.toNat ∧ c.toNat ≤ 90) ∨ (97 ≤ c.toNat ∧ c.toNat ≤ 122)) ∨
    (48 ≤ c.toNat ∧ c.toNat ≤ 57)) ∨ c = '_') ∨ c = '.') ∨ c = '-') ∨ c = '~' at unreserved
  have percent : c = '%' → c.toNat = 37 := fun same => same ▸ rfl
  rcases unreserved with ((((letter | digit) | rfl) | rfl) | rfl) | rfl
  · exact ⟨by omega, fun same => by have := percent same; omega⟩
  · exact ⟨by omega, fun same => by have := percent same; omega⟩
  all_goals decide

theorem percentPart_of_ascii {c : Char} (ascii : c.toNat < 128) :
    percentPart (UInt8.ofNat c.toNat) = if isUnreserved c then [c] else percentByte (UInt8.ofNat c.toNat) := by
  have byte : (UInt8.ofNat c.toNat).toNat = c.toNat := by
    rw [UInt8.toNat_ofNat']
    omega
  rw [percentPart, byte, Char.ofNat_toNat]

/-- Bytes beyond those of ASCII are encoded. -/
theorem percentPart_of_large {byte : UInt8} (large : 128 ≤ byte.toNat) : percentPart byte = percentByte byte := by
  refine if_neg fun unreserved => ?_
  have small := (isUnreserved_isAscii unreserved).1
  have valid : byte.toNat.isValidChar := .inl (by have := byte.toNat_lt; omega)
  rw [Char.toNat_ofNat, if_pos valid] at small
  omega

/-- The bytes of a character beyond ASCII are beyond those of ASCII. -/
theorem large_of_mem_utf8EncodeChar {c : Char} (beyond : ¬c.toNat < 128) :
    ∀ byte ∈ String.utf8EncodeChar c, 128 ≤ byte.toNat := by
  have large : ¬c.val.toNat ≤ 127 := by
    change ¬c.toNat ≤ 127
    omega
  rw [String.utf8EncodeChar.eq_1, if_neg large]
  split
  · simp only [List.forall_mem_cons, UInt8.toNat_ofNat']
    exact ⟨by omega, by omega, nofun⟩
  · split
    · simp only [List.forall_mem_cons, UInt8.toNat_ofNat']
      exact ⟨by omega, by omega, by omega, nofun⟩
    · simp only [List.forall_mem_cons, UInt8.toNat_ofNat']
      exact ⟨by omega, by omega, by omega, by omega, nofun⟩

theorem utf8EncodeChar_percentPart (c : Char) :
    (String.utf8EncodeChar c).flatMap percentPart =
      if isUnreserved c then [c] else (String.utf8EncodeChar c).flatMap percentByte := by
  by_cases ascii : c.toNat < 128
  · have bytes : String.utf8EncodeChar c = [UInt8.ofNat c.toNat] := by
      rw [String.utf8EncodeChar.eq_1]
      exact if_pos (Nat.le_of_lt_succ ascii)
    rw [bytes, List.flatMap_singleton, List.flatMap_singleton, percentPart_of_ascii ascii]
  · have reserved : ¬isUnreserved c = true := fun unreserved => ascii (isUnreserved_isAscii unreserved).1
    rw [if_neg reserved, List.flatMap_def, List.flatMap_def]
    refine congrArg List.flatten (List.map_congr_left fun byte mem => ?_)
    exact percentPart_of_large (large_of_mem_utf8EncodeChar ascii byte mem)

/-- The encoding works on the bytes of a text. -/
theorem percentEncoded_toList (text : String) :
    (percentEncoded text).toList = (text.toList.flatMap String.utf8EncodeChar).flatMap percentPart := by
  rw [percentEncoded, String.toList_ofList, List.flatMap_assoc]
  exact congrArg (List.flatMap · text.toList) (funext fun c => (utf8EncodeChar_percentPart c).symm)

theorem percentPart_ne_nil (byte : UInt8) : percentPart byte ≠ [] := by
  unfold percentPart
  split <;> exact List.cons_ne_nil _ _

/-- What is encoded of a byte is told apart by its first character, and ends by itself. -/
theorem percentPart_append_injective {byte other : UInt8} {rest others : List Char}
    (same : percentPart byte ++ rest = percentPart other ++ others) : byte = other ∧ rest = others := by
  have plain {b : UInt8} (unreserved : isUnreserved (Char.ofNat b.toNat) = true) :
      (Char.ofNat b.toNat).toNat = b.toNat ∧ Char.ofNat b.toNat ≠ '%' := by
    have valid : b.toNat.isValidChar := .inl (by have := b.toNat_lt; omega)
    exact ⟨by rw [Char.toNat_ofNat, if_pos valid], (isUnreserved_isAscii unreserved).2⟩
  unfold percentPart at same
  split at same
  next here =>
    split at same
    next there =>
      obtain ⟨first, rest⟩ := List.cons.inj same
      refine ⟨UInt8.toNat_inj.mp ?_, rest⟩
      rw [← (plain here).1, first, (plain there).1]
    next => exact absurd (List.cons.inj same).1 (plain here).2
  next =>
    split at same
    next there => exact absurd (List.cons.inj same).1.symm (plain there).2
    next =>
      obtain ⟨bytes, rest⟩ := List.append_inj same rfl
      exact ⟨percentByte_injective bytes, rest⟩

theorem flatMap_percentPart_injective {bytes others : List UInt8}
    (same : bytes.flatMap percentPart = others.flatMap percentPart) : bytes = others := by
  induction bytes generalizing others with
  | nil =>
    cases others with
    | nil => rfl
    | cons other others => exact absurd same (by simp [percentPart_ne_nil])
  | cons byte bytes ih =>
    cases others with
    | nil => exact absurd same (by simp [percentPart_ne_nil])
    | cons other others =>
      rw [List.flatMap_cons, List.flatMap_cons] at same
      obtain ⟨rfl, rest⟩ := percentPart_append_injective same
      rw [ih rest]

theorem percentEncoded_injective {text other : String} (same : percentEncoded text = percentEncoded other) :
    text = other := by
  have bytes : text.toList.flatMap String.utf8EncodeChar = other.toList.flatMap String.utf8EncodeChar := by
    apply flatMap_percentPart_injective
    rw [← percentEncoded_toList, ← percentEncoded_toList, same]
  apply String.toByteArray_inj.mp
  rw [← String.utf8Encode_toList, ← String.utf8Encode_toList]
  exact congrArg List.toByteArray bytes

theorem percentEncoded_eq_empty_iff {text : String} : percentEncoded text = "" ↔ text = "" := by
  constructor
  · intro empty
    exact percentEncoded_injective (empty.trans rfl)
  · rintro rfl
    rfl

/-! ### Paths -/

/-- A part of a path that leads to a place of its own. -/
def Path.IsPlain (part : String) : Prop := part ≠ "." ∧ part ≠ "" ∧ part ≠ ".."

theorem Path.step_plain {part : String} (plain : IsPlain part) (reversed : Path) :
    step reversed part = part :: reversed := by
  obtain ⟨noDot, some_, noDots⟩ := plain
  simp [step, noDot, some_, noDots]

/-- A file is in the directory that it is named in, wherever that leads. -/
theorem Path.normal_concat (directory : Path) {name : String} (plain : IsPlain name) :
    normal (directory ++ [name]) = normal directory ++ [name] := by
  rw [normal, normal, List.foldl_concat, step_plain plain, List.reverse_cons]

/-- A directory may lead out of the one it is named in, or nowhere. -/
theorem Path.normal_single (part : String) : normal [part] = if part = "." ∨ part = "" then [] else [part] := by
  simp only [normal, List.foldl_cons, List.foldl_nil]
  by_cases nowhere : part = "." ∨ part = ""
  · simp [step, nowhere]
  · by_cases out : part = ".."
    · simp [step, out]
    · obtain ⟨noDot, some_⟩ := not_or.mp nowhere
      simp [step_plain ⟨noDot, some_, out⟩, nowhere]

namespace Store

/-- The name of the file of a flowchart. -/
def fileName (id : String) : String := percentEncoded id ++ ".json"

theorem fileName_toList (id : String) :
    (fileName id).toList = (percentEncoded id).toList ++ ['.', 'j', 's', 'o', 'n'] :=
  String.toList_append

theorem fileName_injective {id other : String} (same : fileName id = fileName other) : id = other := by
  have lists := congrArg String.toList same
  rw [fileName_toList, fileName_toList] at lists
  exact percentEncoded_injective (String.toList_inj.mp (List.append_cancel_right lists))

theorem fileName_isPlain (id : String) : Path.IsPlain (fileName id) := by
  have long : 5 ≤ (fileName id).toList.length := by
    rw [fileName_toList, List.length_append]
    exact Nat.le_add_left _ _
  refine ⟨?_, ?_, ?_⟩ <;> intro same <;> rw [same] at long <;> exact absurd long (by decide)

theorem fileName_endsWith (id : String) : (fileName id).endsWith ".json" = true := by
  rw [String.endsWith_eq_endsWith_toSlice, String.Slice.endsWith_string_iff, String.copy_toSlice, fileName_toList]
  exact List.suffix_append _ _

/-- The place of the file of a flowchart. -/
def place (owner id : String) : Path := [percentEncoded owner, fileName id]

/-- Only an owner without a name has no files. -/
theorem path_eq {owner : String} (named : owner ≠ "") (id : String) : path owner id = .ok (place owner id) := by
  have some_ : owner.isEmpty = false := by simpa using named
  rw [path, ownerPath, some_]
  rfl

theorem ne_empty_of_path {owner id : String} {place : Path} (found : path owner id = .ok place) : owner ≠ "" := by
  rintro rfl
  cases found

/-- The directory of an owner. -/
def directory (owner : String) : Path := Path.normal [percentEncoded owner]

/-- No two owners have the same directory. -/
theorem directory_injective {owner other : String} (named : owner ≠ "") (otherNamed : other ≠ "")
    (same : directory owner = directory other) : owner = other := by
  have some_ : percentEncoded owner ≠ "" := fun empty => named (percentEncoded_eq_empty_iff.mp empty)
  have otherSome : percentEncoded other ≠ "" := fun empty => otherNamed (percentEncoded_eq_empty_iff.mp empty)
  simp only [directory, Path.normal_single, some_, otherSome, or_false] at same
  -- an owner who leads nowhere has a directory of no parts, which other owners do not have
  split at same
  next dot =>
    split at same
    next otherDot => exact percentEncoded_injective (dot.trans otherDot.symm)
    next => simp at same
  next =>
    split at same
    next => simp at same
    next => exact percentEncoded_injective (List.singleton_inj.mp same)

/-- The file of a flowchart is in the directory of its owner. -/
theorem place_normal (owner id : String) : (place owner id).normal = directory owner ++ [fileName id] :=
  Path.normal_concat [percentEncoded owner] (fileName_isPlain id)

/-- Flowcharts whose files are at the same place are the same. -/
theorem filePath_eq_iff {owner other id otherId : String} (named : owner ≠ "") (otherNamed : other ≠ "") :
    (place owner id).normal = (place other otherId).normal ↔ owner = other ∧ id = otherId := by
  constructor
  · intro same
    rw [place_normal, place_normal] at same
    obtain ⟨directories, names⟩ := List.append_inj' same rfl
    exact ⟨directory_injective named otherNamed directories, fileName_injective (List.singleton_inj.mp names)⟩
  · rintro ⟨rfl, rfl⟩
    rfl

end Store

/-! ### Other files -/

namespace Files

variable {path other : Path}

theorem read?_erase_of_ne (apart : path.normal ≠ other.normal) (files : Files) :
    (files.erase path).read? other = files.read? other := by
  rw [erase, read?, lookup_filter_ne, if_neg (Ne.symm apart), read?]

end Files

namespace Store

variable {owner id other otherId : String} {s : Store} {place : Path}

/-- Whatever has a file has an owner with a name. -/
theorem Holds.named {back : StoredDocument} (holds : s.Holds owner id back) : owner ≠ "" := by
  obtain ⟨text, file, -⟩ := holds
  rintro rfl
  cases file

/-- The file of a flowchart is not touched when that of another one is deleted. -/
theorem text?_erase_of_ne (named : path owner id = .ok place) (apart : ¬(other = owner ∧ otherId = id)) :
    text? other otherId { s with files := s.files.erase place } = s.text? other otherId := by
  have some_ := ne_empty_of_path named
  cases (path_eq some_ id).symm.trans named
  by_cases otherNamed : other = ""
  · subst otherNamed
    rfl
  · rw [text?_of_path (path_eq otherNamed otherId), text?_of_path (path_eq otherNamed otherId)]
    refine Files.read?_erase_of_ne (fun same => apart ?_) _
    exact (filePath_eq_iff otherNamed some_).mp same.symm

end Store

end Flowchart
