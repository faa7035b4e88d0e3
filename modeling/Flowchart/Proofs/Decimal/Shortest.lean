import Flowchart.Proofs.Decimal.Rounding

/-!
# The shortest decimal of a double reads back

* `Dyadic.shortest_roundsTo`: the shortest decimal of a double is nearest to that double.
* `nearestDouble_eq`: a decimal is read as the double it is nearest to, however it is written.
-/

namespace Flowchart

attribute [ext] Decimal

/-- The rational that a decimal stands for. -/
def Decimal.value (d : Decimal) : ℚ := d.digits * 10 ^ d.exponent

theorem zpow_eq_toNat_div {b : ℚ} (nonzero : b ≠ 0) (e : Int) :
    b ^ e = b ^ e.toNat / b ^ (-e).toNat := by
  rw [← zpow_natCast, ← zpow_natCast, ← zpow_sub₀ nonzero]
  congr 1
  omega

namespace Decimal

theorem stripZeros_value (fuel : Nat) (d : Decimal) : (stripZeros fuel d).value = d.value := by
  induction fuel generalizing d with
  | zero => rfl
  | succ fuel ih =>
    unfold stripZeros
    split
    next zeros =>
      have digits : (d.digits : ℚ) = (d.digits / 10 : Nat) * 10 := by
        exact_mod_cast (Nat.div_mul_cancel (Nat.dvd_of_mod_eq_zero zeros.2)).symm
      rw [ih, value, value, digits, zpow_add₀ (by norm_num)]
      ring
    next => rfl

theorem le_stripZeros_exponent (fuel : Nat) (d : Decimal) : d.exponent ≤ (stripZeros fuel d).exponent := by
  induction fuel generalizing d with
  | zero => exact Int.le_refl _
  | succ fuel ih =>
    unfold stripZeros
    split
    next =>
      have := ih ⟨d.digits / 10, d.exponent + 1⟩
      simp only at this
      omega
    next => exact Int.le_refl _

end Decimal

namespace Dyadic

/-! ### Decimals in the interval of a double -/

namespace Interval

theorem sides_le_iff {i : Interval} (pos : 0 < i.denominator) (numerator : Nat) (d : Decimal) :
    (i.sides numerator d).1 ≤ (i.sides numerator d).2 ↔
      (numerator / i.denominator : ℚ) ≤ d.value := by
  have pos' : (0 : ℚ) < i.denominator := by exact_mod_cast pos
  rw [Decimal.value, zpow_eq_toNat_div (by norm_num), ← Nat.cast_le (α := ℚ), div_le_iff₀ pos',
    mul_div_assoc', div_mul_eq_mul_div, le_div_iff₀ (by positivity)]
  simp only [sides, Nat.pow_eq]
  push_cast
  rw [mul_right_comm]

theorem le_sides_iff {i : Interval} (pos : 0 < i.denominator) (numerator : Nat) (d : Decimal) :
    (i.sides numerator d).2 ≤ (i.sides numerator d).1 ↔
      d.value ≤ (numerator / i.denominator : ℚ) := by
  have pos' : (0 : ℚ) < i.denominator := by exact_mod_cast pos
  rw [Decimal.value, zpow_eq_toNat_div (by norm_num), ← Nat.cast_le (α := ℚ), le_div_iff₀ pos',
    mul_div_assoc', div_mul_eq_mul_div, div_le_iff₀ (by positivity)]
  simp only [sides, Nat.pow_eq]
  push_cast
  rw [mul_right_comm]

end Interval

theorem interval_denominator_pos (x : Dyadic) : 0 < x.interval.denominator :=
  Nat.pow_pos (by decide)

theorem interval_ratio (x : Dyadic) (quarters : Nat) :
    ((quarters * Nat.pow 2 (x.exponent - 2).toNat : Nat) : ℚ) / x.interval.denominator =
      quarters / 4 * 2 ^ x.exponent := by
  have shift : (2 : ℚ) ^ x.exponent = 4 * 2 ^ (x.exponent - 2) := by
    rw [zpow_sub₀ two_ne_zero]
    norm_num
    ring
  rw [shift, zpow_eq_toNat_div two_ne_zero (x.exponent - 2)]
  simp only [interval, Nat.pow_eq]
  push_cast
  ring

theorem interval_lower_ratio {x : Dyadic} (pos : 0 < x.mantissa) :
    (x.interval.lower : ℚ) / x.interval.denominator = x.lower := by
  refine (x.interval_ratio _).trans ?_
  rw [lower]
  split
  · push_cast [show 1 ≤ 4 * x.mantissa by omega]
    ring
  · push_cast [show 2 ≤ 4 * x.mantissa by omega]
    ring

theorem interval_upper_ratio (x : Dyadic) :
    (x.interval.upper : ℚ) / x.interval.denominator = x.upper := by
  refine (x.interval_ratio _).trans ?_
  rw [upper]
  push_cast
  ring

/-- The decimals that read back as a double are nearest to it. -/
theorem roundsTo_of_contains {x : Dyadic} (pos : 0 < x.mantissa) {d : Decimal}
    (contains : x.interval.contains d = true) : x.RoundsTo d.value := by
  have dpos := x.interval_denominator_pos
  have lowLe := Interval.sides_le_iff dpos x.interval.lower d
  have leLow := Interval.le_sides_iff dpos x.interval.lower d
  have highLe := Interval.sides_le_iff dpos x.interval.upper d
  have leHigh := Interval.le_sides_iff dpos x.interval.upper d
  rw [interval_lower_ratio pos] at lowLe leLow
  rw [interval_upper_ratio] at highLe leHigh
  unfold Interval.contains at contains
  simp only at contains
  split at contains
  -- the ends count only if the mantissa is even
  next closed =>
    simp only [Bool.and_eq_true, decide_eq_true_eq, lowLe, leHigh] at contains
    have even : x.mantissa % 2 = 0 := by simpa [interval] using closed
    exact ⟨contains.1, contains.2, fun odd => by omega⟩
  next =>
    simp only [Bool.and_eq_true, decide_eq_true_eq, ← not_le, leLow, highLe] at contains
    have inside := And.intro (not_le.1 contains.1) (not_le.1 contains.2)
    exact ⟨inside.1.le, inside.2.le, fun _ => inside⟩

theorem Interval.contains_of_onGrid? {i : Interval} {exponent : Int} {d : Decimal}
    (found : i.onGrid? exponent = some d) : i.contains d = true ∧ d.exponent = exponent := by
  unfold onGrid? at found
  simp only at found
  split at found
  next low high =>
    cases found
    refine ⟨?_, rfl⟩
    unfold nearest
    simp only
    split
    · exact low
    · exact high
  next low _ => cases found; exact ⟨low, rfl⟩
  next _ high => cases found; exact ⟨high, rfl⟩
  next => cases found

/-! ### The shortest decimal -/

theorem exact_value (x : Dyadic) : x.exact.value = x.mantissa * 2 ^ x.exponent := by
  unfold exact Decimal.value
  split
  next nonneg =>
    obtain ⟨k, whole⟩ := Int.eq_ofNat_of_zero_le nonneg
    rw [whole]
    simp
  next negative =>
    have whole : x.exponent = -((-x.exponent).toNat : Int) := by omega
    generalize (-x.exponent).toNat = k at whole
    rw [whole]
    simp only [Nat.pow_eq, zpow_neg, zpow_natCast]
    push_cast
    rw [show (10 : ℚ) = 5 * 2 by norm_num, mul_pow]
    field_simp

theorem roundsTo_exact {x : Dyadic} : x.RoundsTo x.exact.value := by
  have unit : (0 : ℚ) < 2 ^ x.exponent := by positivity
  have above : x.lower < x.exact.value := by
    rw [exact_value, lower]
    gcongr
    split <;> linarith
  have below : x.exact.value < x.upper := by
    rw [exact_value, upper]
    gcongr
    linarith
  exact ⟨above.le, below.le, fun _ => ⟨above, below⟩⟩

theorem magnitude_ge {x : Dyadic} (canonical : x.Canonical) : -324 ≤ x.magnitude := by
  have guess : -324 ≤ Int.fdiv (((x.mantissa.log2 : Int) + x.exponent) * 30103) 100000 := by
    have := canonical.least
    rw [Int.fdiv_eq_ediv_of_nonneg _ (by norm_num)]
    omega
  unfold magnitude
  simp only
  split
  · exact guess
  · split <;> omega

/-- The shortest decimal of a positive double is nearest to it, and not arbitrarily fine. -/
theorem shortest_roundsTo {x : Dyadic} (canonical : x.Canonical) (pos : 0 < x.mantissa) :
    x.RoundsTo x.shortest.value ∧ -1200 ≤ x.shortest.exponent := by
  unfold shortest
  simp only [Decimal.stripZeros_value]
  -- stripping zeros keeps the value and makes the exponent larger only
  suffices found : ∀ d, d = ((List.range 17).findSome? fun n : Nat =>
      x.interval.onGrid? (x.magnitude - (n + 1))).getD x.exact →
      x.RoundsTo d.value ∧ -1200 ≤ d.exponent by
    obtain ⟨near, floor⟩ := found _ rfl
    exact ⟨near, floor.trans (Decimal.le_stripZeros_exponent _ _)⟩
  intro d equals
  cases grid : (List.range 17).findSome? fun n : Nat =>
      x.interval.onGrid? (x.magnitude - (n + 1)) with
  -- no grid of up to seventeen digits has a decimal in the interval: the exact value stands in
  | none =>
    rw [grid, Option.getD_none] at equals
    subst equals
    have := canonical.least
    refine ⟨roundsTo_exact, ?_⟩
    unfold exact
    split <;> simp only <;> omega
  | some found =>
    rw [grid, Option.getD_some] at equals
    subst equals
    obtain ⟨n, inRange, onGrid⟩ := List.exists_of_findSome?_eq_some grid
    obtain ⟨contains, exponent⟩ := Interval.contains_of_onGrid? onGrid
    have := magnitude_ge canonical
    have := List.mem_range.1 inRange
    exact ⟨roundsTo_of_contains pos contains, by omega⟩

end Dyadic

/-! ### Reading a decimal -/

/-- The magnitude of a finite double lies between the least double and twice the largest power of two. -/
theorem Dyadic.RoundsTo.range {bits : UInt64} (finite : FiniteBits bits)
    (pos : 0 < (ofBits bits).mantissa) {q : ℚ} (near : (ofBits bits).RoundsTo q) :
    (10 : ℚ) ^ (-324 : Int) < q ∧ q < 10 ^ (309 : Int) := by
  have canonical := canonical_ofBits bits
  have weight := ofBits_weight bits
  have least := canonical.least
  have most : (ofBits bits).exponent ≤ 971 := by
    have := canonical.full
    unfold FiniteBits at finite
    omega
  have one : (1 : ℚ) ≤ (ofBits bits).mantissa := by exact_mod_cast pos
  have short : ((ofBits bits).mantissa : ℚ) + 1 ≤ 2 ^ 53 := by exact_mod_cast canonical.short
  constructor
  -- half of the least double
  · have powers : (2 : ℚ) ^ 1075 < 10 ^ 324 := by
      exact_mod_cast show 2 ^ 1075 < 10 ^ 324 by decide +kernel
    calc (10 : ℚ) ^ (-324 : Int) < 2 ^ (-1075 : Int) := by
          rw [zpow_neg, zpow_neg]
          exact (inv_lt_inv₀ (by positivity) (by positivity)).2 (by exact_mod_cast powers)
      _ = (1 - 1 / 2) * 2 ^ (-1074 : Int) := by
          rw [show (-1075 : Int) = -1074 - 1 by norm_num, zpow_sub₀ two_ne_zero]
          ring
      _ ≤ ((ofBits bits).mantissa - 1 / 2) * 2 ^ (ofBits bits).exponent := by
          exact mul_le_mul (by linarith) (zpow_le_zpow_right₀ one_le_two least)
            (zpow_nonneg zero_le_two _) (by linarith)
      _ ≤ (ofBits bits).lower := lower_ge _
      _ ≤ q := near.above
  -- the first power of two that is no double
  · have powers : (2 : ℚ) ^ 53 * 2 ^ 971 < 10 ^ 309 := by
      exact_mod_cast show 2 ^ 53 * 2 ^ 971 < 10 ^ 309 by decide +kernel
    calc q ≤ (ofBits bits).upper := near.below
      _ ≤ 2 ^ 53 * 2 ^ (971 : Int) := by
          unfold upper
          gcongr
          · linarith
          · exact one_le_two
      _ < 10 ^ (309 : Int) := by exact_mod_cast powers

/-- The bounds on the size of a decimal that `nearestDouble` looks at leave room for every double. -/
theorem size_of_range {digits : Nat} {exponent : Int} (pos : 0 < digits) (floor : -1200 ≤ exponent)
    (above : (10 : ℚ) ^ (-324 : Int) < digits * 10 ^ exponent)
    (below : (digits * 10 ^ exponent : ℚ) < 10 ^ (309 : Int)) :
    Int.fdiv (digits.log2 * 30103) 100000 + exponent ≤ 400 ∧
      -400 ≤ Int.fdiv (digits.log2 * 30103) 100000 + exponent := by
  have low : (2 : ℚ) ^ digits.log2 ≤ digits := by exact_mod_cast Nat.log2_self_le pos.ne'
  have high : (digits : ℚ) ≤ 2 ^ (digits.log2 + 1) := by exact_mod_cast Nat.lt_log2_self.le
  generalize digits.log2 = k at *
  -- ten bits make up for three digits, and four digits for thirteen bits
  have upper : 3 * (k / 10 : Nat) + exponent < 309 := by
    have powers : (10 : ℚ) ^ (3 * (k / 10)) ≤ 2 ^ k := by
      calc (10 : ℚ) ^ (3 * (k / 10)) = (10 ^ 3) ^ (k / 10) := by rw [pow_mul]
        _ ≤ (2 ^ 10) ^ (k / 10) := by gcongr; norm_num
        _ = 2 ^ (10 * (k / 10)) := by rw [pow_mul]
        _ ≤ 2 ^ k := pow_le_pow_right₀ one_le_two (by omega)
    have : (10 : ℚ) ^ ((3 * (k / 10) : Nat) + exponent : Int) < 10 ^ (309 : Int) := by
      rw [zpow_add₀ (by norm_num), zpow_natCast]
      refine lt_of_le_of_lt ?_ below
      gcongr
      exact powers.trans low
    have := (zpow_lt_zpow_iff_right₀ (by norm_num)).1 this
    push_cast at this
    omega
  have lower : -324 < 4 * ((k + 1) / 13 + 1 : Nat) + exponent := by
    have powers : (2 : ℚ) ^ (k + 1) ≤ 10 ^ (4 * ((k + 1) / 13 + 1)) := by
      calc (2 : ℚ) ^ (k + 1) ≤ 2 ^ (13 * ((k + 1) / 13 + 1)) :=
            pow_le_pow_right₀ one_le_two (by omega)
        _ = (2 ^ 13) ^ ((k + 1) / 13 + 1) := by rw [pow_mul]
        _ ≤ (10 ^ 4) ^ ((k + 1) / 13 + 1) := by gcongr; norm_num
        _ = 10 ^ (4 * ((k + 1) / 13 + 1)) := by rw [pow_mul]
    have : (10 : ℚ) ^ (-324 : Int) < 10 ^ ((4 * ((k + 1) / 13 + 1) : Nat) + exponent : Int) := by
      rw [zpow_add₀ (by norm_num) ((_ : Nat) : Int), zpow_natCast]
      refine above.trans_le ?_
      gcongr
      exact high.trans powers
    have := (zpow_lt_zpow_iff_right₀ (by norm_num)).1 this
    push_cast at this
    omega
  rw [Int.fdiv_eq_ediv_of_nonneg _ (by norm_num)]
  omega

theorem Dyadic.RoundsTo.digits_pos {bits : UInt64} (finite : FiniteBits bits)
    (pos : 0 < (ofBits bits).mantissa) {digits : Nat} {exponent : Int}
    (near : (ofBits bits).RoundsTo (digits * 10 ^ exponent)) : 0 < digits := by
  by_contra! none
  obtain rfl : digits = 0 := by omega
  have above := (near.range finite pos).1
  rw [Nat.cast_zero, zero_mul] at above
  exact lt_asymm above (zpow_pos (by norm_num) _)

/-- A decimal is read as the double that it is nearest to. -/
theorem nearestDouble_eq {x : Float} {digits : Nat} {exponent : Int} (finite : FiniteBits x.toBits)
    (positive : x.toBits.toNat < 2 ^ 63) (nonzero : 0 < (Dyadic.ofBits x.toBits).mantissa)
    (floor : -1200 ≤ exponent)
    (near : (Dyadic.ofBits x.toBits).RoundsTo (digits * 10 ^ exponent)) :
    nearestDouble digits exponent = x := by
  obtain ⟨above, below⟩ := near.range finite nonzero
  have pos := near.digits_pos finite nonzero
  obtain ⟨most, least⟩ := size_of_range pos floor above below
  unfold nearestDouble
  simp only [pos.ne', if_false, not_lt.2 most, not_lt.2 least]
  -- the power of ten goes to the numerator or to the denominator
  split
  next whole =>
    obtain ⟨k, rfl⟩ := Int.eq_ofNat_of_zero_le whole
    refine nearestQuotient_eq finite positive (Nat.mul_pos pos (Nat.pow_pos (by decide))) one_pos ?_
    simpa using near
  next =>
    obtain ⟨k, rfl⟩ : ∃ k : Nat, exponent = -k := ⟨(-exponent).toNat, by omega⟩
    refine nearestQuotient_eq finite positive pos (Nat.pow_pos (by decide)) ?_
    simpa [div_eq_mul_inv] using near

end Flowchart
