import Mathlib.Algebra.Order.Field.Power
import Mathlib.Data.Rat.Cast.Order
import Mathlib.Tactic.FieldSimp
import Mathlib.Tactic.Linarith
import Mathlib.Tactic.Positivity
import Mathlib.Tactic.Ring
import Flowchart.Proofs.Decimal.Bits

/-!
# Rounding a quotient to the nearest double

* `Dyadic.RoundsTo`: the rationals that are nearest to a double.
* `nearestQuotient_eq`: each of them is rounded to that double.
-/

namespace Flowchart

/-! ### Rounding to an integer -/

/-- A quotient within a half of an integer is rounded to it, at the ends if it is even. -/
theorem roundedQuotient_eq {n d m : Nat} (pos : 0 < d) (above : 2 * m * d ≤ 2 * n + d)
    (below : 2 * n ≤ 2 * m * d + d)
    (inside : m % 2 = 1 → 2 * m * d < 2 * n + d ∧ 2 * n < 2 * m * d + d) :
    roundedQuotient n d = m := by
  have division : d * (n / d) + n % d = n := Nat.div_add_mod n d
  have small : n % d < d := Nat.mod_lt n pos
  unfold roundedQuotient
  generalize n / d = q at *
  generalize n % d = r at *
  -- `m` is the quotient or the one after it
  have least : m ≤ q + 1 := by
    by_contra! far
    have : d * (q + 2) ≤ d * m := Nat.mul_le_mul_left d (by omega)
    nlinarith
  have most : q ≤ m := by
    by_contra! far
    have : d * (m + 1) ≤ d * q := Nat.mul_le_mul_left d (by omega)
    nlinarith
  obtain rfl | rfl : m = q ∨ m = q + 1 := by omega
  · have half : 2 * r ≤ d := by nlinarith
    have tie : 2 * r = d → m % 2 = 0 := fun same => by
      by_contra odd
      have := (inside (by omega)).2
      nlinarith
    rw [if_pos]
    simp only [Bool.or_eq_true, decide_eq_true_eq, Bool.and_eq_true, beq_iff_eq]
    omega
  · have half : d ≤ 2 * r := by nlinarith
    have tie : 2 * r = d → (q + 1) % 2 = 0 := fun same => by
      by_contra odd
      have := (inside (by omega)).1
      nlinarith
    rw [if_neg]
    simp only [Bool.or_eq_true, decide_eq_true_eq, Bool.and_eq_true, beq_iff_eq]
    omega

/-! ### The exponent of a quotient -/

section

variable {n d : Nat}

theorem scaledQuotient_denominator_pos (pos : 0 < d) (e : Int) : 0 < (scaledQuotient n d e).2 :=
  Nat.mul_pos pos (Nat.pow_pos (by decide))

/-- Scaling divides the quotient by the power of two. -/
theorem scaledQuotient_ratio (n d : Nat) (e : Int) :
    ((scaledQuotient n d e).1 : ℚ) / (scaledQuotient n d e).2 = n / d / 2 ^ e := by
  simp only [scaledQuotient, Nat.pow_eq, Nat.cast_mul, Nat.cast_pow, Nat.cast_ofNat]
  obtain ⟨k, rfl | rfl⟩ := e.eq_nat_or_neg
  · simp [div_div]
  · simp
    ring

/-- A positive quotient lies between two powers of two that its binary logarithms give. -/
theorem quotient_bounds (npos : 0 < n) (dpos : 0 < d) :
    (2 : ℚ) ^ ((n.log2 : Int) - d.log2 - 1) < n / d ∧ (n / d : ℚ) < 2 ^ ((n.log2 : Int) - d.log2 + 1) := by
  have nlow : (2 : ℚ) ^ n.log2 ≤ n := by exact_mod_cast Nat.log2_self_le npos.ne'
  have nhigh : (n : ℚ) < 2 ^ (n.log2 + 1) := by exact_mod_cast Nat.lt_log2_self
  have dlow : (2 : ℚ) ^ d.log2 ≤ d := by exact_mod_cast Nat.log2_self_le dpos.ne'
  have dhigh : (d : ℚ) < 2 ^ (d.log2 + 1) := by exact_mod_cast Nat.lt_log2_self
  have dpos' : (0 : ℚ) < d := by exact_mod_cast dpos
  constructor
  · rw [lt_div_iff₀ dpos']
    calc (2 : ℚ) ^ ((n.log2 : Int) - d.log2 - 1) * d
        < 2 ^ ((n.log2 : Int) - d.log2 - 1) * 2 ^ (d.log2 + 1) := by gcongr
      _ = 2 ^ n.log2 := by
          rw [← zpow_natCast, ← zpow_add₀ two_ne_zero, ← zpow_natCast]
          congr 1
          push_cast
          ring
      _ ≤ n := nlow
  · rw [div_lt_iff₀ dpos']
    calc (n : ℚ) < 2 ^ (n.log2 + 1) := nhigh
      _ = 2 ^ ((n.log2 : Int) - d.log2 + 1) * 2 ^ d.log2 := by
          rw [← zpow_natCast, ← zpow_natCast, ← zpow_add₀ two_ne_zero]
          congr 1
          push_cast
          ring
      _ ≤ 2 ^ ((n.log2 : Int) - d.log2 + 1) * d := by gcongr

/-- Over its exponent, a positive quotient has at most fifty-three bits, and no fewer unless the exponent
is the least one. -/
theorem quotientExponent_spec (npos : 0 < n) (dpos : 0 < d) :
    -1074 ≤ quotientExponent n d ∧ (n / d : ℚ) < 2 ^ (quotientExponent n d + 53) ∧
      (quotientExponent n d = -1074 ∨ (2 : ℚ) ^ (quotientExponent n d + 52) ≤ n / d) := by
  obtain ⟨low, high⟩ := quotient_bounds npos dpos
  set guess : Int := (n.log2 : Int) - d.log2 - 53 with guess_eq
  have fits_iff : (scaledQuotient n d guess).1 / (scaledQuotient n d guess).2 < Nat.pow 2 53 ↔
      (n / d : ℚ) < 2 ^ (guess + 53) := by
    have pos := scaledQuotient_denominator_pos (n := n) dpos guess
    have pos' : (0 : ℚ) < (scaledQuotient n d guess).2 := by exact_mod_cast pos
    rw [Nat.div_lt_iff_lt_mul pos, ← Nat.cast_lt (α := ℚ), Nat.cast_mul, ← div_lt_iff₀ pos',
      scaledQuotient_ratio, div_lt_iff₀ (by positivity), zpow_add₀ two_ne_zero, mul_comm]
    norm_num
  unfold quotientExponent
  simp only [← guess_eq, fits_iff]
  -- A quotient over its guess has fifty-three or fifty-four bits.
  split
  next fits =>
    refine ⟨le_max_right _ _, ?_, ?_⟩
    · exact fits.trans_le (zpow_le_zpow_right₀ one_le_two (by omega))
    · obtain least | same : max guess (-1074) = -1074 ∨ max guess (-1074) = guess := by omega
      · exact .inl least
      · rw [same, show guess + 52 = (n.log2 : Int) - d.log2 - 1 by omega]
        exact .inr low.le
  next wide =>
    refine ⟨le_max_right _ _, ?_, ?_⟩
    · exact high.trans_le (zpow_le_zpow_right₀ one_le_two (by omega))
    · obtain least | same : max (guess + 1) (-1074) = -1074 ∨ max (guess + 1) (-1074) = guess + 1 := by
        omega
      · exact .inl least
      · rw [same, add_assoc]
        exact .inr (not_lt.1 wide)

/-- A quotient within a half of `m` units of `2 ^ e` is rounded to `m`, at the ends if it is even. -/
theorem roundedQuotient_scaled {m : Nat} {e : Int} (pos : 0 < d)
    (above : ((m : ℚ) - 1 / 2) * 2 ^ e ≤ n / d) (below : (n / d : ℚ) ≤ (m + 1 / 2) * 2 ^ e)
    (inside : m % 2 = 1 → ((m : ℚ) - 1 / 2) * 2 ^ e < n / d ∧ (n / d : ℚ) < (m + 1 / 2) * 2 ^ e) :
    roundedQuotient (scaledQuotient n d e).1 (scaledQuotient n d e).2 = m := by
  have spos := scaledQuotient_denominator_pos (n := n) pos e
  have ratio := scaledQuotient_ratio n d e
  have unit : (0 : ℚ) < 2 ^ e := by positivity
  generalize (scaledQuotient n d e).1 = N at *
  generalize (scaledQuotient n d e).2 = D at *
  have dpos : (0 : ℚ) < D := by exact_mod_cast spos
  have value : (n / d : ℚ) = N / D * 2 ^ e := by
    rw [ratio]
    field_simp
  -- the bounds lose their unit, and become bounds on numerators
  rw [value] at above below inside
  have above := (le_div_iff₀ dpos).1 (le_of_mul_le_mul_right above unit)
  have below := (div_le_iff₀ dpos).1 (le_of_mul_le_mul_right below unit)
  refine roundedQuotient_eq spos ?_ ?_ fun odd => ?_
  · rw [← Nat.cast_le (α := ℚ)]
    push_cast
    linarith
  · rw [← Nat.cast_le (α := ℚ)]
    push_cast
    linarith
  · obtain ⟨beyond, under⟩ := inside odd
    have beyond := (lt_div_iff₀ dpos).1 (lt_of_mul_lt_mul_right beyond unit.le)
    have under := (div_lt_iff₀ dpos).1 (lt_of_mul_lt_mul_right under unit.le)
    rw [← Nat.cast_lt (α := ℚ), ← Nat.cast_lt (α := ℚ)]
    push_cast
    constructor <;> linarith

end

/-! ### The rationals that round to a double -/

namespace Dyadic

/-- What `ofBits` says of a mantissa and an exponent. -/
structure Canonical (x : Dyadic) : Prop where
  short : x.mantissa < 2 ^ 53
  least : -1074 ≤ x.exponent
  full : x.exponent = -1074 ∨ 2 ^ 52 ≤ x.mantissa
  narrow : x.narrowBelow = true ↔ x.mantissa = 2 ^ 52 ∧ -1074 < x.exponent

theorem canonical_ofBits (bits : UInt64) : (ofBits bits).Canonical := by
  have field := Nat.mod_lt (bits.toNat / 2 ^ 52) (show 0 < 2 ^ 11 by decide)
  have fraction := Nat.mod_lt bits.toNat (show 0 < 2 ^ 52 by decide)
  unfold ofBits
  simp only [Nat.pow_eq]
  split
  next least => exact ⟨by simp; omega, by simp, .inl rfl, by simp⟩
  next positive =>
    refine ⟨by simp; omega, by simp; omega, .inr (by simp), ?_⟩
    simp only [Bool.and_eq_true, beq_iff_eq, decide_eq_true_eq]
    omega

/-- The sign bit has no influence on the magnitude. -/
theorem ofBits_congr {bits others : UInt64} (same : bits.toNat % 2 ^ 63 = others.toNat % 2 ^ 63) :
    ofBits bits = ofBits others := by
  have field : bits.toNat / 2 ^ 52 % 2 ^ 11 = others.toNat / 2 ^ 52 % 2 ^ 11 := by omega
  have fraction : bits.toNat % 2 ^ 52 = others.toNat % 2 ^ 52 := by omega
  unfold ofBits
  simp only [Nat.pow_eq, field, fraction]

/-- Mantissa and exponent make up the bits besides the sign. -/
theorem ofBits_weight (bits : UInt64) :
    ((ofBits bits).exponent + 1074).toNat * 2 ^ 52 + (ofBits bits).mantissa = bits.toNat % 2 ^ 63 := by
  unfold ofBits
  simp only [Nat.pow_eq]
  split
  next least => simp; omega
  next positive => simp; omega

/-- The least rational that may round to the double. -/
def lower (x : Dyadic) : ℚ := (x.mantissa - if x.narrowBelow then 1 / 4 else 1 / 2) * 2 ^ x.exponent

/-- The largest rational that may round to the double. -/
def upper (x : Dyadic) : ℚ := (x.mantissa + 1 / 2) * 2 ^ x.exponent

/-- Whether a double is the nearest one to a rational. The ends of the interval belong to the double
with the even mantissa. -/
structure RoundsTo (x : Dyadic) (q : ℚ) : Prop where
  above : x.lower ≤ q
  below : q ≤ x.upper
  inside : x.mantissa % 2 = 1 → x.lower < q ∧ q < x.upper

section

variable {x : Dyadic} {n d : Nat}

theorem lower_ge (x : Dyadic) : ((x.mantissa : ℚ) - 1 / 2) * 2 ^ x.exponent ≤ x.lower := by
  unfold lower
  gcongr
  split <;> norm_num

/-- The exponent of a quotient is that of the double it rounds to, or one less when the quotient lies
just below a power of two. -/
theorem RoundsTo.exponent_cases (near : x.RoundsTo (n / d)) (canonical : x.Canonical) (npos : 0 < n)
    (dpos : 0 < d) :
    quotientExponent n d = x.exponent ∨
      quotientExponent n d = x.exponent - 1 ∧ x.mantissa = 2 ^ 52 ∧ x.narrowBelow = true := by
  obtain ⟨least, below, full⟩ := quotientExponent_spec npos dpos
  have unit : (0 : ℚ) < 2 ^ x.exponent := by positivity
  have short : (x.mantissa : ℚ) + 1 ≤ 2 ^ 53 := by exact_mod_cast canonical.short
  -- a larger exponent would need more bits than the mantissa of the double has
  have notAbove : quotientExponent n d ≤ x.exponent := by
    by_contra! larger
    have leastOfX := canonical.least
    have : (2 : ℚ) ^ (x.exponent + 53) ≤ x.upper := by
      refine le_trans ?_ ((full.resolve_left (by omega)).trans near.below)
      exact zpow_le_zpow_right₀ one_le_two (by omega)
    rw [zpow_add₀ two_ne_zero, upper, mul_comm] at this
    have := le_of_mul_le_mul_right this unit
    linarith
  obtain same | smaller := notAbove.eq_or_lt
  · exact .inl same
  · have wide : 2 ^ 52 ≤ x.mantissa := canonical.full.resolve_left (by omega)
    have wide' : (2 : ℚ) ^ 52 ≤ x.mantissa := by exact_mod_cast wide
    -- the double has all its bits, so the quotient has one bit less at most
    have low := (x.lower_ge.trans near.above).trans_lt below
    have next : x.exponent - 1 ≤ quotientExponent n d := by
      by_contra! far
      have : (2 : ℚ) ^ (quotientExponent n d + 53) ≤ 2 ^ (x.exponent + 51) :=
        zpow_le_zpow_right₀ one_le_two (by omega)
      have := low.trans_le this
      rw [zpow_add₀ two_ne_zero, mul_comm (2 ^ x.exponent)] at this
      have := lt_of_mul_lt_mul_right this unit.le
      linarith
    have exact_ : quotientExponent n d = x.exponent - 1 := by omega
    -- only the least mantissa with all bits has quotients with fewer bits around it
    have power : x.mantissa = 2 ^ 52 := by
      rw [exact_, show x.exponent - 1 + 53 = x.exponent + 52 by ring, zpow_add₀ two_ne_zero,
        mul_comm (2 ^ x.exponent)] at low
      have := lt_of_mul_lt_mul_right low unit.le
      have : (x.mantissa : ℚ) < 2 ^ 52 + 1 := by linarith
      have : x.mantissa < 2 ^ 52 + 1 := by exact_mod_cast this
      omega
    exact .inr ⟨exact_, power, canonical.narrow.2 ⟨power, by omega⟩⟩

/-- Exponent and rounded mantissa of a quotient make up the bits of the double it rounds to. -/
theorem RoundsTo.weight (near : x.RoundsTo (n / d)) (canonical : x.Canonical) (npos : 0 < n)
    (dpos : 0 < d) :
    let s := scaledQuotient n d (quotientExponent n d)
    (quotientExponent n d + 1074).toNat * 2 ^ 52 + roundedQuotient s.1 s.2 =
      (x.exponent + 1074).toNat * 2 ^ 52 + x.mantissa := by
  obtain ⟨least, below, -⟩ := quotientExponent_spec npos dpos
  obtain same | ⟨next, power, narrow⟩ := near.exponent_cases canonical npos dpos
  · have rounded := roundedQuotient_scaled (n := n) (m := x.mantissa) (e := x.exponent) dpos
      (x.lower_ge.trans near.above) near.below fun odd =>
        ⟨x.lower_ge.trans_lt (near.inside odd).1, (near.inside odd).2⟩
    simp only [same, rounded]
  · -- The mantissa is rounded up to `2 ^ 53`, which carries.
    have low : (((2 ^ 53 : Nat) : ℚ) - 1 / 2) * 2 ^ (x.exponent - 1) ≤ n / d := by
      refine le_trans (le_of_eq ?_) near.above
      rw [lower, narrow, power, zpow_sub₀ two_ne_zero]
      norm_num
      ring
    have high : (n / d : ℚ) ≤ ((2 ^ 53 : Nat) + 1 / 2) * 2 ^ (x.exponent - 1) := by
      rw [next, show x.exponent - 1 + 53 = 53 + (x.exponent - 1) by ring, zpow_add₀ two_ne_zero] at below
      refine below.le.trans ?_
      gcongr
      norm_num
    have rounded := roundedQuotient_scaled dpos low high (by norm_num)
    simp only [next, rounded, power]
    omega

end

end Dyadic

/-- A quotient is rounded to the double that it is nearest to. -/
theorem nearestQuotient_eq {x : Float} {n d : Nat} (finite : FiniteBits x.toBits)
    (positive : x.toBits.toNat < 2 ^ 63) (npos : 0 < n) (dpos : 0 < d)
    (near : (Dyadic.ofBits x.toBits).RoundsTo (n / d)) : nearestQuotient n d = x := by
  have weight := near.weight (Dyadic.canonical_ofBits _) npos dpos
  rw [Dyadic.ofBits_weight, Nat.mod_eq_of_lt positive] at weight
  -- finite bits are below those of infinity
  have bound : x.toBits.toNat < 0x7FF0000000000000 := by
    unfold FiniteBits at finite
    omega
  simp only [nearestQuotient, Nat.pow_eq, weight, if_pos bound, UInt64.ofNat_toNat]
  exact ofBits_toBits finite

end Flowchart
