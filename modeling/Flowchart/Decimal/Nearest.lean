import Flowchart.Decimal.Shortest

/-!
# The double nearest to a decimal

* `nearestDouble`: the double that a decimal rounds to, with ties to the even mantissa, infinity
  past the largest double and zero below the least one.
* `doubleOfInt?`, `intOfDouble?`: the numbers that are both an integer and a double.
-/

namespace Flowchart

/-- The quotient rounded to the nearest integer, a half going to the even one. -/
def roundedQuotient (numerator denominator : Nat) : Nat :=
  let q := numerator / denominator
  let r := numerator % denominator
  if 2 * r < denominator || (2 * r == denominator && q % 2 == 0) then q else q + 1

def infinity : Float := Float.ofBits 0x7FF0000000000000

def notANumber : Float := Float.ofBits 0x7FF8000000000000

/-- A quotient over `2 ^ exponent`, as numerator and denominator. -/
def scaledQuotient (numerator denominator : Nat) (exponent : Int) : Nat × Nat :=
  (numerator * Nat.pow 2 (-exponent).toNat, denominator * Nat.pow 2 exponent.toNat)

/-- The exponent such that a positive quotient has fifty-three bits, or that of the least doubles. -/
def quotientExponent (numerator denominator : Nat) : Int :=
  let guess : Int := (numerator.log2 : Int) - denominator.log2 - 53
  let low := scaledQuotient numerator denominator guess
  let fits := low.1 / low.2 < Nat.pow 2 53
  max (if fits then guess else guess + 1) (-1074)

/-- The double nearest to a positive quotient. A mantissa rounded up to `2 ^ 53` carries into the
exponent field by itself. -/
def nearestQuotient (numerator denominator : Nat) : Float :=
  let exponent := quotientExponent numerator denominator
  let s := scaledQuotient numerator denominator exponent
  let bits := (exponent + 1074).toNat * Nat.pow 2 52 + roundedQuotient s.1 s.2
  if bits < 0x7FF0000000000000 then Float.ofBits (UInt64.ofNat bits) else infinity

/-- The double nearest to `digits * 10 ^ exponent`. Exponents far outside the range of doubles are
answered without computing the power. -/
def nearestDouble (digits : Nat) (exponent : Int) : Float :=
  if digits = 0 then 0
  else
    let size := Int.fdiv (digits.log2 * 30103) 100000 + exponent
    if 400 < size then infinity
    else if size < -400 then 0
    else if 0 ≤ exponent then nearestQuotient (digits * Nat.pow 10 exponent.toNat) 1
    else nearestQuotient digits (Nat.pow 10 (-exponent).toNat)

/-- An integer as a double; none if it lies beyond the largest double. -/
def doubleOfInt? (n : Int) : Option Float :=
  let magnitude := nearestDouble n.natAbs 0
  if magnitude.isInf then none else some (if n < 0 then -magnitude else magnitude)

/-- The integer that a double without a fractional part stands for. -/
def intOfDouble? (x : Float) : Option Int :=
  if x.isNaN || x.isInf then none
  else
    let d := Dyadic.ofBits x.toBits
    let unit := Nat.pow 2 (-d.exponent).toNat
    if d.mantissa % unit ≠ 0 then none
    else
      let magnitude : Nat := d.mantissa / unit * Nat.pow 2 d.exponent.toNat
      some (if x.toBits.toNat < Nat.pow 2 63 then (magnitude : Int) else -magnitude)

end Flowchart
