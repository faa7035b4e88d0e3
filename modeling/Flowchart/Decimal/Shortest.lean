/-!
# Shortest decimals of a double

* `Dyadic`: a finite non-negative double as `mantissa * 2 ^ exponent`.
* `Dyadic.Interval`: the reals that round to a double, over one common denominator.
* `Dyadic.shortest`: the decimal with the fewest digits that lies in the interval, and of those the
  one nearest to the double.
* `Dyadic.rounded`: the double rounded to a given count of significant digits.
-/

namespace Flowchart

/-- The number `digits * 10 ^ exponent`. -/
structure Decimal where
  digits : Nat
  exponent : Int
  deriving DecidableEq, Repr

namespace Decimal

/-- Moves the trailing zeros of the digits into the exponent, at most `fuel` of them. -/
def stripZeros : Nat → Decimal → Decimal
  | 0, d => d
  | fuel + 1, d =>
    if d.digits ≠ 0 ∧ d.digits % 10 = 0 then stripZeros fuel ⟨d.digits / 10, d.exponent + 1⟩ else d

end Decimal

/-- A finite non-negative double, `mantissa * 2 ^ exponent`. The gap to its lower neighbour is half
the gap to its upper neighbour when `narrowBelow` holds. -/
structure Dyadic where
  mantissa : Nat
  exponent : Int
  narrowBelow : Bool
  deriving DecidableEq, Repr

namespace Dyadic

/-- The magnitude of a finite double, read off its sixty-four bits. -/
def ofBits (bits : UInt64) : Dyadic :=
  let field : Nat := bits.toNat / Nat.pow 2 52 % Nat.pow 2 11
  let fraction : Nat := bits.toNat % Nat.pow 2 52
  if field = 0 then ⟨fraction, -1074, false⟩
  else ⟨Nat.pow 2 52 + fraction, (field : Int) - 1075, fraction == 0 && 1 < field⟩

/-- The reals that round to a double, as numerators over one denominator. Both ends belong to it
exactly when `closed` holds. -/
structure Interval where
  lower : Nat
  value : Nat
  upper : Nat
  denominator : Nat
  closed : Bool

def interval (x : Dyadic) : Interval :=
  let shift := x.exponent - 2
  let scale := Nat.pow 2 shift.toNat
  { lower := (4 * x.mantissa - if x.narrowBelow then 1 else 2) * scale
    value := 4 * x.mantissa * scale
    upper := (4 * x.mantissa + 2) * scale
    denominator := Nat.pow 2 (-shift).toNat
    closed := x.mantissa % 2 == 0 }

namespace Interval

/-- Both sides of a comparison of `numerator / denominator` with `digits * 10 ^ exponent`, cleared
of denominators. -/
def sides (i : Interval) (numerator : Nat) (d : Decimal) : Nat × Nat :=
  (numerator * Nat.pow 10 (-d.exponent).toNat,
    d.digits * i.denominator * Nat.pow 10 d.exponent.toNat)

/-- Whether a decimal reads back as the double. -/
def contains (i : Interval) (d : Decimal) : Bool :=
  let low := i.sides i.lower d
  let high := i.sides i.upper d
  if i.closed then low.1 ≤ low.2 && high.2 ≤ high.1 else low.1 < low.2 && high.2 < high.1

/-- The neighbour below the double on the grid of multiples of `10 ^ exponent`. -/
def below (i : Interval) (exponent : Int) : Decimal :=
  let s := i.sides i.value ⟨1, exponent⟩
  ⟨s.1 / s.2, exponent⟩

/-- The nearer of the two neighbours on a grid, the even one of two equally near. -/
def nearest (i : Interval) (exponent : Int) : Decimal :=
  let s := i.sides i.value ⟨1, exponent⟩
  let q := s.1 / s.2
  let r := s.1 % s.2
  ⟨if 2 * r < s.2 || (2 * r == s.2 && q % 2 == 0) then q else q + 1, exponent⟩

/-- The decimal of a grid that reads back, if there is one: the nearer neighbour when both do. -/
def onGrid? (i : Interval) (exponent : Int) : Option Decimal :=
  let low := i.below exponent
  let high : Decimal := ⟨low.digits + 1, exponent⟩
  match i.contains low, i.contains high with
  | true, true => some (i.nearest exponent)
  | true, false => some low
  | false, true => some high
  | false, false => none

end Interval

/-- The least `k` with the double below `10 ^ k`, found from its binary logarithm. -/
def magnitude (x : Dyadic) : Int :=
  let i := x.interval
  let guess := Int.fdiv (((x.mantissa.log2 : Int) + x.exponent) * 30103) 100000
  let under (k : Int) : Bool :=
    let s := i.sides i.value ⟨1, k⟩
    s.1 < s.2
  if under guess then guess else if under (guess + 1) then guess + 1 else guess + 2

/-- The double itself, written out in full. -/
def exact (x : Dyadic) : Decimal :=
  if 0 ≤ x.exponent then ⟨x.mantissa * Nat.pow 2 x.exponent.toNat, 0⟩
  else ⟨x.mantissa * Nat.pow 5 (-x.exponent).toNat, x.exponent⟩

/-- The shortest decimal that reads back as a positive double: grids are tried from one significant
digit up to seventeen. -/
def shortest (x : Dyadic) : Decimal :=
  let i := x.interval
  let k := x.magnitude
  ((List.range 17).findSome? fun n : Nat => i.onGrid? (k - (n + 1))).getD x.exact |>.stripZeros 400

/-- A positive double rounded to `count` significant digits. -/
def rounded (x : Dyadic) (count : Nat) : Decimal :=
  (x.interval.nearest (x.magnitude - count)).stripZeros 400

end Dyadic

end Flowchart
