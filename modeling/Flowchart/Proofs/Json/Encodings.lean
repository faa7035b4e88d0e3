import Flowchart.Json.Bytes

/-!
# Encodings of text

* `Encoding.encode`: the bytes of a code point. A surrogate has bytes of its own.
* `Encoding.decode_isSome_iff`: bytes are decoded exactly if they are those of some code points.
-/

namespace Flowchart

namespace Json

/-! ### Bytes of code points -/

/-- The bytes of one code unit. -/
def ByteOrder.bytes16 (order : ByteOrder) (unit : Nat) : List UInt8 :=
  match order with
  | .big => [.ofNat (unit / 256), .ofNat (unit % 256)]
  | .little => [.ofNat (unit % 256), .ofNat (unit / 256)]

def continuation (bits : Nat) : UInt8 := .ofNat (0x80 + bits % 64)

def encodeUtf8 (code : Nat) : List UInt8 :=
  if code < 0x80 then [.ofNat code]
  else if code < 0x800 then [.ofNat (0xC0 + code / 64), continuation code]
  else if code < 0x10000 then [.ofNat (0xE0 + code / 4096), continuation (code / 64), continuation code]
  else
    [.ofNat (0xF0 + code / 262144), continuation (code / 4096), continuation (code / 64), continuation code]

/-- A code point that is too large for one unit is written as two surrogates. -/
def encodeUtf16 (order : ByteOrder) (code : Nat) : List UInt8 :=
  if code < 0x10000 then order.bytes16 code
  else
    order.bytes16 (0xD800 + (code - 0x10000) / 0x400) ++ order.bytes16 (0xDC00 + (code - 0x10000) % 0x400)

def encodeUtf32 (order : ByteOrder) (code : Nat) : List UInt8 :=
  match order with
  | .big => order.bytes16 (code / 0x10000) ++ order.bytes16 (code % 0x10000)
  | .little => order.bytes16 (code % 0x10000) ++ order.bytes16 (code / 0x10000)

/-- The bytes of a code point. -/
def Encoding.encode : Encoding → Nat → List UInt8
  | .utf8 => encodeUtf8
  | .utf16 order => encodeUtf16 order
  | .utf32 order => encodeUtf32 order

/-- The bytes are those of some code points, one after the other. -/
def Encoding.Encodes (encoding : Encoding) (bytes : List UInt8) : Prop :=
  ∃ codes : List Nat, (∀ code ∈ codes, code < 0x110000) ∧ codes.flatMap encoding.encode = bytes

/-! ### Code units -/

theorem ByteOrder.length_bytes16 (order : ByteOrder) (unit : Nat) : (order.bytes16 unit).length = 2 := by
  cases order <;> rfl

theorem ByteOrder.unit16_lt (order : ByteOrder) (a b : UInt8) : order.unit16 a b < 0x10000 := by
  have first := a.toNat_lt
  have second := b.toNat_lt
  cases order <;> simp only [unit16] <;> omega

theorem ByteOrder.bytes16_unit16 (order : ByteOrder) (a b : UInt8) : order.bytes16 (order.unit16 a b) = [a, b] := by
  have first := a.toNat_lt
  have second := b.toNat_lt
  cases order with
  | big =>
    have high : (a.toNat * 256 + b.toNat) / 256 = a.toNat := by omega
    have low : (a.toNat * 256 + b.toNat) % 256 = b.toNat := by omega
    simp [bytes16, unit16, high, low]
  | little =>
    have high : (b.toNat * 256 + a.toNat) / 256 = b.toNat := by omega
    have low : (b.toNat * 256 + a.toNat) % 256 = a.toNat := by omega
    simp [bytes16, unit16, high, low]

/-- The two bytes of a unit, and the unit that they are read as. -/
theorem ByteOrder.exists_bytes16 (order : ByteOrder) {unit : Nat} (small : unit < 0x10000) :
    ∃ a b, order.bytes16 unit = [a, b] ∧ order.unit16 a b = unit := by
  cases order with
  | big =>
    refine ⟨_, _, rfl, ?_⟩
    simp only [unit16, UInt8.toNat_ofNat']
    omega
  | little =>
    refine ⟨_, _, rfl, ?_⟩
    simp only [unit16, UInt8.toNat_ofNat']
    omega

theorem continuation?_continuation (bits : Nat) : continuation? (continuation bits) = some (bits % 64) := by
  have byte : (continuation bits).toNat = 0x80 + bits % 64 := by
    rw [continuation, UInt8.toNat_ofNat']
    omega
  have low : 0x80 ≤ continuation bits := UInt8.le_iff_toNat_le.mpr (by rw [byte]; exact Nat.le_add_right _ _)
  have high : continuation bits < 0xC0 := UInt8.lt_iff_toNat_lt.mpr (by rw [byte]; simp; omega)
  rw [continuation?, if_pos ⟨low, high⟩, byte, Nat.add_sub_cancel_left]

theorem continuation?_eq_some {byte : UInt8} {bits : Nat} (found : continuation? byte = some bits) :
    bits < 64 ∧ byte = .ofNat (0x80 + bits) := by
  unfold continuation? at found
  split at found
  next bounds =>
    obtain ⟨low, high⟩ := bounds
    obtain rfl := Option.some.inj found
    have low : 0x80 ≤ byte.toNat := UInt8.le_iff_toNat_le.mp low
    have high : byte.toNat < 0xC0 := UInt8.lt_iff_toNat_lt.mp high
    have same : 0x80 + (byte.toNat - 0x80) = byte.toNat := by omega
    exact ⟨by omega, by rw [same, UInt8.ofNat_toNat]⟩
  next => cases found

/-! ### What is decoded -/

/-- A decoder that takes one code point after the other decodes the bytes of code points, and no others. -/
theorem isSome_iff_flatMap {encode : Nat → List UInt8} {decode : List UInt8 → Option (List Char)}
    (empty : (decode []).isSome = true) (filled : ∀ code, encode code ≠ [])
    (takes : ∀ code < 0x110000, ∀ rest, (decode rest).isSome = true → (decode (encode code ++ rest)).isSome = true)
    (splits : ∀ bytes chars, bytes ≠ [] → decode bytes = some chars →
      ∃ code < 0x110000, ∃ rest, encode code ++ rest = bytes ∧ (decode rest).isSome = true) (bytes : List UInt8) :
    (decode bytes).isSome = true ↔
      ∃ codes : List Nat, (∀ code ∈ codes, code < 0x110000) ∧ codes.flatMap encode = bytes := by
  constructor
  · intro decoded
    -- by the number of bytes: what is left after a code point is shorter
    generalize size : bytes.length = n
    induction n using Nat.strongRecOn generalizing bytes with
    | ind n ih =>
      by_cases none : bytes = []
      · exact ⟨[], List.forall_mem_nil _, none.symm⟩
      · obtain ⟨chars, whole⟩ := Option.isSome_iff_exists.mp decoded
        obtain ⟨code, valid, rest, rfl, after⟩ := splits bytes chars none whole
        have shorter : rest.length < n := by
          have here := List.length_pos_iff.mpr (filled code)
          rw [← size, List.length_append]
          omega
        obtain ⟨codes, all, rfl⟩ := ih rest.length shorter rest after rfl
        exact ⟨code :: codes, List.forall_mem_cons.mpr ⟨valid, all⟩, List.flatMap_cons⟩
  · rintro ⟨codes, valid, rfl⟩
    induction codes with
    | nil => exact empty
    | cons code codes ih =>
      obtain ⟨here, rest⟩ := List.forall_mem_cons.mp valid
      rw [List.flatMap_cons]
      exact takes code here _ (ih rest)

theorem decodeUtf8_encodeUtf8 {code : Nat} (valid : code < 0x110000) (rest : List UInt8) :
    decodeUtf8 (encodeUtf8 code ++ rest) = (decodeUtf8 rest).map (scalarOf code :: ·) := by
  have first {byte : Nat} (small : byte < 0x100) : (UInt8.ofNat byte).toNat = byte := by
    rw [UInt8.toNat_ofNat']
    exact Nat.mod_eq_of_lt small
  -- the first byte tells how many there are, and the others carry six bits each
  unfold encodeUtf8
  split
  next small =>
    rw [List.singleton_append, decodeUtf8.eq_def]
    dsimp only
    rw [first (by omega), if_pos small]
  next =>
    split
    next small =>
      have joined : (0xC0 + code / 64 - 0xC0) * 64 + code % 64 = code := by omega
      rw [decodeUtf8.eq_def]
      dsimp only [List.cons_append, List.nil_append]
      rw [first (by omega), if_neg (by omega), if_neg (by omega), if_pos (by omega)]
      simp only [continuation?_continuation, Option.bind_eq_bind, Option.bind_some, joined]
      cases decodeUtf8 rest <;> rfl
    next =>
      split
      next small =>
        have joined : ((0xE0 + code / 4096 - 0xE0) * 64 + code / 64 % 64) * 64 + code % 64 = code := by omega
        rw [decodeUtf8.eq_def]
        dsimp only [List.cons_append, List.nil_append]
        rw [first (by omega), if_neg (by omega), if_neg (by omega), if_neg (by omega), if_pos (by omega)]
        simp only [continuation?_continuation, Option.bind_eq_bind, Option.bind_some, joined]
        rw [if_neg (by omega)]
        cases decodeUtf8 rest <;> rfl
      next =>
        have joined : (((0xF0 + code / 262144 - 0xF0) * 64 + code / 4096 % 64) * 64 + code / 64 % 64) * 64 +
            code % 64 = code := by omega
        rw [decodeUtf8.eq_def]
        dsimp only [List.cons_append, List.nil_append]
        rw [first (by omega), if_neg (by omega), if_neg (by omega), if_neg (by omega), if_neg (by omega),
          if_pos (by omega)]
        simp only [continuation?_continuation, Option.bind_eq_bind, Option.bind_some, joined]
        rw [if_neg (by omega)]
        cases decodeUtf8 rest <;> rfl

section

variable {lead x y z : Nat}

theorem encodeUtf8_two (low : 0xC2 ≤ lead) (high : lead < 0xE0) (first : x < 64) :
    encodeUtf8 ((lead - 0xC0) * 64 + x) = [.ofNat lead, .ofNat (0x80 + x)] := by
  have front : 0xC0 + ((lead - 0xC0) * 64 + x) / 64 = lead := by omega
  have last : ((lead - 0xC0) * 64 + x) % 64 = x := by omega
  rw [encodeUtf8, if_neg (by omega), if_pos (by omega), front, continuation, last]

theorem encodeUtf8_three (low : 0xE0 ≤ lead) (high : lead < 0xF0) (first : x < 64) (second : y < 64)
    (large : ¬((lead - 0xE0) * 64 + x) * 64 + y < 0x800) :
    encodeUtf8 (((lead - 0xE0) * 64 + x) * 64 + y) = [.ofNat lead, .ofNat (0x80 + x), .ofNat (0x80 + y)] := by
  generalize joined : ((lead - 0xE0) * 64 + x) * 64 + y = code at *
  have front : 0xE0 + code / 4096 = lead := by omega
  have middle : code / 64 % 64 = x := by omega
  have last : code % 64 = y := by omega
  rw [encodeUtf8, if_neg (by omega), if_neg (by omega), if_pos (by omega), front, continuation, continuation, middle,
    last]

theorem encodeUtf8_four (low : 0xF0 ≤ lead) (first : x < 64) (second : y < 64) (third : z < 64)
    (large : ¬(((lead - 0xF0) * 64 + x) * 64 + y) * 64 + z < 0x10000) :
    encodeUtf8 ((((lead - 0xF0) * 64 + x) * 64 + y) * 64 + z) =
      [.ofNat lead, .ofNat (0x80 + x), .ofNat (0x80 + y), .ofNat (0x80 + z)] := by
  generalize joined : (((lead - 0xF0) * 64 + x) * 64 + y) * 64 + z = code at *
  have front : 0xF0 + code / 262144 = lead := by omega
  have high : code / 4096 % 64 = x := by omega
  have middle : code / 64 % 64 = y := by omega
  have last : code % 64 = z := by omega
  rw [encodeUtf8, if_neg (by omega), if_neg (by omega), if_neg (by omega), front, continuation, continuation,
    continuation, high, middle, last]

end

/-- What is decoded begins with the bytes of a code point. -/
theorem exists_encodeUtf8 {bytes : List UInt8} {chars : List Char} (some_ : bytes ≠ [])
    (decoded : decodeUtf8 bytes = some chars) :
    ∃ code < 0x110000, ∃ rest, encodeUtf8 code ++ rest = bytes ∧ (decodeUtf8 rest).isSome = true := by
  obtain ⟨a, after, rfl⟩ := List.exists_cons_of_ne_nil some_
  have bound := a.toNat_lt
  have byte : UInt8.ofNat a.toNat = a := UInt8.ofNat_toNat
  rw [decodeUtf8.eq_def] at decoded
  dsimp only at decoded
  -- the cases are those of the first byte, as the decoder has them: one to four bytes, or none that begin so
  split at decoded
  next small =>
    obtain ⟨tail, rest, -⟩ := Option.map_eq_some_iff.mp decoded
    exact ⟨a.toNat, by omega, after, by rw [encodeUtf8, if_pos small, byte]; rfl, by rw [rest]; rfl⟩
  next =>
  split at decoded
  next => cases decoded
  next low =>
  split at decoded
  next high =>
    split at decoded
    next b rest =>
      obtain ⟨x, first, decoded⟩ := Option.bind_eq_some_iff.mp decoded
      obtain ⟨tail, after, -⟩ := Option.bind_eq_some_iff.mp decoded
      obtain ⟨smallFirst, rfl⟩ := continuation?_eq_some first
      have bytes := encodeUtf8_two (Nat.le_of_not_lt low) high smallFirst
      rw [byte] at bytes
      exact ⟨(a.toNat - 0xC0) * 64 + x, by omega, rest, by rw [bytes]; rfl, by rw [after]; rfl⟩
    next => cases decoded
  next low =>
  split at decoded
  next high =>
    split at decoded
    next b c rest =>
      obtain ⟨x, first, joined⟩ := Option.bind_eq_some_iff.mp decoded
      obtain ⟨y, second, joined⟩ := Option.bind_eq_some_iff.mp joined
      split at joined
      next => cases joined
      next large =>
        obtain ⟨tail, after, -⟩ := Option.bind_eq_some_iff.mp joined
        obtain ⟨smallFirst, rfl⟩ := continuation?_eq_some first
        obtain ⟨smallSecond, rfl⟩ := continuation?_eq_some second
        have bytes := encodeUtf8_three (Nat.le_of_not_lt low) high smallFirst smallSecond large
        rw [byte] at bytes
        exact ⟨((a.toNat - 0xE0) * 64 + x) * 64 + y, by omega, rest, by rw [bytes]; rfl, by rw [after]; rfl⟩
    next => cases decoded
  next low =>
  split at decoded
  next high =>
    split at decoded
    next b c d rest =>
      obtain ⟨x, first, joined⟩ := Option.bind_eq_some_iff.mp decoded
      obtain ⟨y, second, joined⟩ := Option.bind_eq_some_iff.mp joined
      obtain ⟨z, third, joined⟩ := Option.bind_eq_some_iff.mp joined
      split at joined
      next => cases joined
      next within =>
        obtain ⟨large, small⟩ := not_or.mp within
        obtain ⟨tail, after, -⟩ := Option.bind_eq_some_iff.mp joined
        obtain ⟨smallFirst, rfl⟩ := continuation?_eq_some first
        obtain ⟨smallSecond, rfl⟩ := continuation?_eq_some second
        obtain ⟨smallThird, rfl⟩ := continuation?_eq_some third
        have bytes := encodeUtf8_four (Nat.le_of_not_lt low) smallFirst smallSecond smallThird large
        rw [byte] at bytes
        exact ⟨(((a.toNat - 0xF0) * 64 + x) * 64 + y) * 64 + z, by omega, rest, by rw [bytes]; rfl, by rw [after]; rfl⟩
    next => cases decoded
  next => cases decoded

theorem decodeUtf8_isSome_iff (bytes : List UInt8) :
    (decodeUtf8 bytes).isSome = true ↔ Encoding.utf8.Encodes bytes := by
  refine isSome_iff_flatMap rfl ?_ ?_ (fun _ _ => exists_encodeUtf8) bytes
  · intro code
    simp only [encodeUtf8]
    repeat' split
    all_goals exact List.cons_ne_nil _ _
  · intro code valid rest decoded
    rw [decodeUtf8_encodeUtf8 valid, Option.isSome_map, decoded]

/-! ### Two and four bytes -/

/-- Every two bytes are a unit, and every unit is a code point or a surrogate. -/
theorem decodeUtf16_isSome (order : ByteOrder) (bytes : List UInt8) :
    (decodeUtf16 order bytes).isSome = true ↔ bytes.length % 2 = 0 := by
  fun_induction decodeUtf16 order bytes with
  | case1 => simp
  | case2 a b c d rest high low pair ih =>
    simp only [Option.isSome_map, ih, List.length_cons]
    omega
  | case3 a b c d rest high low alone ih =>
    simp only [Option.isSome_map, ih, List.length_cons]
    omega
  | case4 a b => simp
  | case5 a b rest _ _ ih =>
    simp only [Option.isSome_map, ih, List.length_cons]
    omega
  | case6 => simp

theorem length_encodeUtf16 (order : ByteOrder) (code : Nat) :
    (encodeUtf16 order code).length = if code < 0x10000 then 2 else 4 := by
  unfold encodeUtf16
  split
  · exact order.length_bytes16 code
  · rw [List.length_append, order.length_bytes16, order.length_bytes16]

theorem decodeUtf16_isSome_iff (order : ByteOrder) (bytes : List UInt8) :
    (decodeUtf16 order bytes).isSome = true ↔ (Encoding.utf16 order).Encodes bytes := by
  refine isSome_iff_flatMap rfl ?_ ?_ ?_ bytes
  · intro code
    rw [Encoding.encode, ← List.length_pos_iff, length_encodeUtf16]
    split <;> omega
  · intro code _ rest decoded
    rw [decodeUtf16_isSome] at decoded ⊢
    rw [List.length_append, Encoding.encode, length_encodeUtf16]
    split <;> omega
  · intro bytes chars some_ decoded
    have even : bytes.length % 2 = 0 := by
      rw [← decodeUtf16_isSome order, decoded]
      rfl
    match bytes, some_, even with
    | a :: b :: rest, _, even =>
      have small := order.unit16_lt a b
      refine ⟨order.unit16 a b, by omega, rest, ?_, ?_⟩
      · rw [Encoding.encode, encodeUtf16, if_pos small, order.bytes16_unit16]
        rfl
      · rw [decodeUtf16_isSome]
        simp only [List.length_cons] at even
        omega

theorem length_encodeUtf32 (order : ByteOrder) (code : Nat) : (encodeUtf32 order code).length = 4 := by
  cases order <;> rfl

theorem encodeUtf32_joined (order : ByteOrder) (high : Nat) {low : Nat} (small : low < 0x10000) :
    encodeUtf32 order (high * 65536 + low) =
      match order with
      | .big => order.bytes16 high ++ order.bytes16 low
      | .little => order.bytes16 low ++ order.bytes16 high := by
  have front : (high * 65536 + low) / 0x10000 = high := by omega
  have back : (high * 65536 + low) % 0x10000 = low := by omega
  cases order <;> rw [encodeUtf32, front, back]

theorem decodeUtf32_isSome_iff (order : ByteOrder) (bytes : List UInt8) :
    (decodeUtf32 order bytes).isSome = true ↔ (Encoding.utf32 order).Encodes bytes := by
  refine isSome_iff_flatMap rfl ?_ ?_ ?_ bytes
  · intro code
    rw [Encoding.encode, ← List.length_pos_iff, length_encodeUtf32]
    exact Nat.succ_pos 3
  · intro code valid rest decoded
    have small : code / 0x10000 < 0x10000 := by omega
    have rest_ : code % 0x10000 < 0x10000 := by omega
    obtain ⟨a, b, high, readHigh⟩ := order.exists_bytes16 small
    obtain ⟨c, d, low, readLow⟩ := order.exists_bytes16 rest_
    have joined : code / 0x10000 * 65536 + code % 0x10000 = code := by omega
    cases order
    all_goals
      rw [Encoding.encode, encodeUtf32, high, low, decodeUtf32.eq_def]
      simp only [List.cons_append, List.nil_append, readHigh, readLow, joined, if_pos valid, Option.isSome_map, decoded]
  · intro bytes chars some_ decoded
    rw [decodeUtf32.eq_def] at decoded
    split at decoded
    next => exact absurd rfl some_
    next a b c d rest =>
      have first := order.unit16_lt a b
      have second := order.unit16_lt c d
      cases order with
      | big =>
        dsimp only at decoded
        split at decoded
        next valid =>
          obtain ⟨tail, after, -⟩ := Option.map_eq_some_iff.mp decoded
          refine ⟨_, valid, rest, ?_, by rw [after]; rfl⟩
          rw [Encoding.encode, encodeUtf32_joined _ _ second]
          simp only [ByteOrder.bytes16_unit16]
          rfl
        next => cases decoded
      | little =>
        dsimp only at decoded
        split at decoded
        next valid =>
          obtain ⟨tail, after, -⟩ := Option.map_eq_some_iff.mp decoded
          refine ⟨_, valid, rest, ?_, by rw [after]; rfl⟩
          rw [Encoding.encode, encodeUtf32_joined _ _ first]
          simp only [ByteOrder.bytes16_unit16]
          rfl
        next => cases decoded
    next => cases decoded

theorem Encoding.decode_isSome_iff (encoding : Encoding) (bytes : List UInt8) :
    (encoding.decode bytes).isSome = true ↔ encoding.Encodes bytes := by
  cases encoding with
  | utf8 => exact decodeUtf8_isSome_iff bytes
  | utf16 order => exact decodeUtf16_isSome_iff order bytes
  | utf32 order => exact decodeUtf32_isSome_iff order bytes

end Json

end Flowchart
