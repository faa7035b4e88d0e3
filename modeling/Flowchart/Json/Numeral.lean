import Flowchart.Decimal.Nearest
import Flowchart.Json.Value
import Flowchart.Text.Digit

/-!
# Numbers in JSON text

* `Numeral`: a number taken apart into its sign, the digits before and after the point and its exponent.
* `Numeral.scan`: the number at the start of a text. A point or an exponent belongs to it only if digits
  follow.
* `Numeral.value`: the integer or double that a number stands for.
-/

namespace Flowchart

namespace Json

/-- A number taken apart. Without an exponent `power` is empty, and so is the sign of the exponent. -/
structure Numeral where
  negative : Bool
  whole : List Char
  places : List Char
  sign : List Char
  power : List Char
  deriving DecidableEq, Repr

namespace Numeral

/-- The digits before any point. A zero at the start stands alone. -/
def scanWhole : List Char → List Char
  | '0' :: _ => ['0']
  | text => text.takeWhile Char.isDigit

/-- The digits after a point. -/
def scanPlaces : List Char → List Char
  | '.' :: rest => rest.takeWhile Char.isDigit
  | _ => []

/-- The sign and the digits of an exponent. -/
def scanPower : List Char → List Char × List Char
  | mark :: rest =>
    if mark == 'e' || mark == 'E' then
      match rest with
      | '+' :: digits => (['+'], digits.takeWhile Char.isDigit)
      | '-' :: digits => (['-'], digits.takeWhile Char.isDigit)
      | digits => ([], digits.takeWhile Char.isDigit)
    else ([], [])
  | [] => ([], [])

/-- The number at the start of a text; its `whole` is empty if there is none. -/
def scan (text : List Char) : Numeral :=
  let negative := text.head? == some '-'
  let unsigned := if negative then text.drop 1 else text
  let whole := scanWhole unsigned
  let afterWhole := unsigned.drop whole.length
  let places := scanPlaces afterWhole
  let afterPlaces := if places.isEmpty then afterWhole else afterWhole.drop (places.length + 1)
  let (sign, power) := scanPower afterPlaces
  { negative, whole, places, sign, power }

/-- How many characters the places take, with their point. -/
def placesSize (n : Numeral) : Nat := if n.places.isEmpty then 0 else n.places.length + 1

/-- How many characters the exponent takes, with its mark. -/
def powerSize (n : Numeral) : Nat :=
  if n.power.isEmpty then 0 else 1 + n.sign.length + n.power.length

/-- How many characters the number takes. -/
def size (n : Numeral) : Nat :=
  (if n.negative then 1 else 0) + n.whole.length + n.placesSize + n.powerSize

/-- The number without its sign, as digits and a power of ten. -/
def decimal (n : Numeral) : Decimal :=
  let power : Int := naturalOfDigits n.power
  ⟨naturalOfDigits (n.whole ++ n.places), (if n.sign == ['-'] then -power else power) - n.places.length⟩

/-- An integer without point and exponent, a double otherwise. -/
def value (n : Numeral) : Json :=
  if n.placesSize = 0 ∧ n.powerSize = 0 then
    let magnitude : Int := naturalOfDigits n.whole
    .int (if n.negative then -magnitude else magnitude)
  else
    let magnitude := nearestDouble n.decimal.digits n.decimal.exponent
    .double (if n.negative then -magnitude else magnitude)

end Numeral

/-- A number at the start of a text: its value and how many characters it takes. -/
def number? (text : List Char) : Option (Json × Nat) :=
  let n := Numeral.scan text
  if n.whole.isEmpty then none else some (n.value, n.size)

end Json

end Flowchart
