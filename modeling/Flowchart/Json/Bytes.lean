import Flowchart.Json.Reader

/-!
# Text from bytes

* `Encoding.detect`: the encoding of a JSON text, by a byte order mark or by where its first four
  bytes are zero.
* `decodeUtf8`, `decodeUtf16`, `decodeUtf32`: the characters of a byte sequence, if it is well formed.
  A surrogate on its own is let through and replaced.
* `Json.readBytes`: the value that encoded text holds.
-/

namespace Flowchart

namespace Json

/-- The order of the bytes of one code unit. -/
inductive ByteOrder where
  | big
  | little
  deriving DecidableEq, Repr

inductive Encoding where
  | utf8
  | utf16 (order : ByteOrder)
  | utf32 (order : ByteOrder)
  deriving DecidableEq, Repr

/-- The encoding of some bytes and how many of them are a byte order mark. -/
def Encoding.detect : List UInt8 → Encoding × Nat
  | 0x00 :: 0x00 :: 0xFE :: 0xFF :: _ => (.utf32 .big, 4)
  | 0xFF :: 0xFE :: 0x00 :: 0x00 :: _ => (.utf32 .little, 4)
  | 0xFE :: 0xFF :: _ => (.utf16 .big, 2)
  | 0xFF :: 0xFE :: _ => (.utf16 .little, 2)
  | 0xEF :: 0xBB :: 0xBF :: _ => (.utf8, 3)
  | [a, b] => (if a = 0 then .utf16 .big else if b = 0 then .utf16 .little else .utf8, 0)
  | a :: b :: c :: d :: _ =>
    if a = 0 then (if b = 0 then .utf32 .big else .utf16 .big, 0)
    else if b = 0 then (if c = 0 ∧ d = 0 then .utf32 .little else .utf16 .little, 0)
    else (.utf8, 0)
  | _ => (.utf8, 0)

/-- The low six bits of a continuation byte. -/
def continuation? (byte : UInt8) : Option Nat :=
  if 0x80 ≤ byte ∧ byte < 0xC0 then some (byte.toNat - 0x80) else none

/-- Each character in its shortest form. -/
def decodeUtf8 : List UInt8 → Option (List Char)
  | [] => some []
  | a :: rest =>
    let a := a.toNat
    if a < 0x80 then (decodeUtf8 rest).map (scalarOf a :: ·)
    else if a < 0xC2 then none
    else if a < 0xE0 then
      match rest with
      | b :: rest => do
        let b ← continuation? b
        return scalarOf ((a - 0xC0) * 64 + b) :: (← decodeUtf8 rest)
      | _ => none
    else if a < 0xF0 then
      match rest with
      | b :: c :: rest => do
        let code := ((a - 0xE0) * 64 + (← continuation? b)) * 64 + (← continuation? c)
        if code < 0x800 then none else return scalarOf code :: (← decodeUtf8 rest)
      | _ => none
    else if a < 0xF5 then
      match rest with
      | b :: c :: d :: rest => do
        let code :=
          (((a - 0xF0) * 64 + (← continuation? b)) * 64 + (← continuation? c)) * 64 +
            (← continuation? d)
        if code < 0x10000 ∨ 0x110000 ≤ code then none
        else return scalarOf code :: (← decodeUtf8 rest)
      | _ => none
    else none

def ByteOrder.unit16 (order : ByteOrder) (a b : UInt8) : Nat :=
  match order with
  | .big => a.toNat * 256 + b.toNat
  | .little => b.toNat * 256 + a.toNat

def decodeUtf16 (order : ByteOrder) : List UInt8 → Option (List Char)
  | [] => some []
  | a :: b :: c :: d :: rest =>
    let high := order.unit16 a b
    let low := order.unit16 c d
    if isHighSurrogate high && isLowSurrogate low then
      (decodeUtf16 order rest).map (joinSurrogates high low :: ·)
    else (decodeUtf16 order (c :: d :: rest)).map (scalarOf high :: ·)
  | [a, b] => some [scalarOf (order.unit16 a b)]
  | a :: b :: rest => (decodeUtf16 order rest).map (scalarOf (order.unit16 a b) :: ·)
  | [_] => none

def decodeUtf32 (order : ByteOrder) : List UInt8 → Option (List Char)
  | [] => some []
  | a :: b :: c :: d :: rest =>
    let first := order.unit16 a b
    let second := order.unit16 c d
    let code := match order with
      | .big => first * 65536 + second
      | .little => second * 65536 + first
    if code < 0x110000 then (decodeUtf32 order rest).map (scalarOf code :: ·) else none
  | _ => none

/-- The characters of encoded text. -/
def Encoding.decode : Encoding → List UInt8 → Option (List Char)
  | .utf8 => decodeUtf8
  | .utf16 order => decodeUtf16 order
  | .utf32 order => decodeUtf32 order

/-- The characters of encoded JSON text, a byte order mark left out. -/
def decodeBytes? (bytes : List UInt8) : Option (List Char) :=
  let (encoding, mark) := Encoding.detect bytes
  encoding.decode (bytes.drop mark)

end Json

end Flowchart
