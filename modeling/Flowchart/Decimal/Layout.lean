import Flowchart.Decimal.Shortest

/-!
# How doubles are written

* `NumberNames`: the words for the doubles that are not finite.
* `doubleText`: the shortest digits of a double, positional from `1e-4` up to `1e16` and with at
  least one place after the point, else with an exponent of at least two digits.
* `briefText`: at most six significant digits, without a point where none is needed.
-/

namespace Flowchart

/-- The words for the doubles that are not finite. -/
structure NumberNames where
  notANumber : String
  infinite : String

/-- The names inside JSON text. -/
def NumberNames.json : NumberNames := ⟨"NaN", "Infinity"⟩

/-- The names in running text. -/
def NumberNames.plain : NumberNames := ⟨"nan", "inf"⟩

namespace Decimal

def digitText (n : Nat) : List Char := Nat.toDigits 10 n

def zeros (n : Nat) : List Char := List.replicate n '0'

/-- The exponent of the leading digit. -/
def leading (d : Decimal) : Int := d.exponent + (digitText d.digits).length - 1

/-- The digits with the point in its place; `whole` is written after an integral value. -/
def positional (d : Decimal) (whole : List Char) : List Char :=
  let ds := digitText d.digits
  let point := d.leading + 1
  if point ≤ 0 then '0' :: '.' :: zeros (-point).toNat ++ ds
  else if point < ds.length then ds.take point.toNat ++ '.' :: ds.drop point.toNat
  else ds ++ zeros (point.toNat - ds.length) ++ whole

/-- One digit before the point and an exponent with its sign and at least two digits. -/
def scientific (d : Decimal) : List Char :=
  let mantissa := match digitText d.digits with
    | first :: second :: rest => first :: '.' :: second :: rest
    | short => short
  let size := digitText d.leading.natAbs
  mantissa ++ 'e' :: (if d.leading < 0 then '-' else '+') :: zeros (2 - size.length) ++ size

end Decimal

/-- Sign, names and zero are common to every layout of a double. -/
def layoutDouble (names : NumberNames) (zero : String) (layout : Dyadic → List Char)
    (x : Float) : String :=
  let sign := if x.toBits.toNat < Nat.pow 2 63 then "" else "-"
  if x.isNaN then names.notANumber
  else if x.isInf then sign ++ names.infinite
  else
    let magnitude := Dyadic.ofBits x.toBits
    sign ++ if magnitude.mantissa = 0 then zero else String.ofList (layout magnitude)

/-- The shortest text that reads back as the double. -/
def doubleText (names : NumberNames) : Float → String :=
  layoutDouble names "0.0" fun x =>
    let d := x.shortest
    if -4 ≤ d.leading ∧ d.leading < 16 then d.positional ['.', '0'] else d.scientific

/-- A double with at most six significant digits. -/
def briefText : Float → String :=
  layoutDouble .plain "0" fun x =>
    let d := x.rounded 6
    if -4 ≤ d.leading ∧ d.leading < 6 then d.positional [] else d.scientific

end Flowchart
