import Mathlib
import Flowchart.Decimal.Nearest

/-!
# The sixty-four bits of a double

* `toBits_ofBits`: finite bits are those of the double that they make.
* `signed_magnitude`: a finite double is its magnitude with its sign.
* `eq_notANumber`, `eq_infinity_or_neg`: the doubles that are not finite.
-/

namespace Flowchart

open Float.Model Float.Model.UnpackedFloat

/-! ### Packed components -/

private theorem sign_toBitVec_ofBitVec (v : BitVec 1) : (Sign.ofBitVec v).toBitVec = v := by
  revert v
  decide

private theorem packComponents_toNat (sign : Sign) (e : BitVec 11) (m : BitVec 52) :
    (packComponents Format.binary64 sign e m).toNat =
      sign.toBitVec.toNat * 2 ^ 63 + e.toNat * 2 ^ 52 + m.toNat := by
  simp only [packComponents, BitVec.toNat_append]
  rw [← Nat.shiftLeft_add_eq_or_of_lt e.isLt, ← Nat.shiftLeft_add_eq_or_of_lt m.isLt]
  simp only [Nat.shiftLeft_eq]
  omega

private theorem unpackMantissa_toNat (b : BitVec 64) :
    (@unpackMantissa Format.binary64 b).toNat = b.toNat % 2 ^ 52 := by
  simp [unpackMantissa]

private theorem unpackExponent_toNat (b : BitVec 64) :
    (@unpackExponent Format.binary64 b).toNat = b.toNat / 2 ^ 52 % 2 ^ 11 := by
  simp [unpackExponent, Nat.shiftRight_eq_div_pow]

private theorem unpackSign_toNat (b : BitVec 64) :
    (@unpackSign Format.binary64 b).toNat = b.toNat / 2 ^ 63 := by
  have bound := b.isLt
  simp [unpackSign, Nat.shiftRight_eq_div_pow]
  omega

/-- A number with another sign. -/
private def withSign (sign : Sign) : UnpackedFloat → UnpackedFloat
  | .notANumber => .notANumber
  | .infinity _ => .infinity sign
  | .zero _ => .zero sign
  | .finite _ m e pos => .finite sign m e pos

/-- Unpacking and packing again keeps the exponent field and the fraction of a finite double. -/
private theorem pack_withSign (sign : Sign) (b : BitVec 64)
    (finite : @unpackExponent Format.binary64 b ≠ -1#11) :
    pack Format.binary64 (withSign sign (unpack Format.binary64 b)) =
      packComponents Format.binary64 sign (unpackExponent b) (unpackMantissa b) := by
  have fieldBound : (@unpackExponent Format.binary64 b).toNat < 2 ^ 11 := BitVec.isLt _
  have fractionBound : (@unpackMantissa Format.binary64 b).toNat < 2 ^ 52 := BitVec.isLt _
  have notLast : (@unpackExponent Format.binary64 b).toNat ≠ 2047 := fun last =>
    finite (BitVec.eq_of_toNat_eq (by simpa using last))
  have bias : Format.binary64.exponentBias = 1023 := rfl
  have size : Format.binary64.mantissaBits = 53 := rfl
  simp only [UnpackedFloat.unpack, finite, if_false]
  -- a field of zero stands for zero and the doubles below the normal ones
  split
  next isZero =>
    split
    next fractionZero => simp [withSign, UnpackedFloat.pack, packedZero, isZero, fractionZero]
    next positive =>
      have short : (@unpackMantissa Format.binary64 b).toNat.log2 < 52 :=
        (Nat.log2_lt fun isZero => positive (BitVec.eq_of_toNat_eq isZero)).2 fractionBound
      simp only [withSign, UnpackedFloat.pack, bias, size, isZero]
      rw [if_neg (by simp), if_neg (by omega)]
      simp
  next positive =>
    have pos : (@unpackExponent Format.binary64 b).toNat ≠ 0 := fun isZero =>
      positive (BitVec.eq_of_toNat_eq (by simpa using isZero))
    -- the leading bit of the mantissa is not stored
    have implicit : (1#1 ++ @unpackMantissa Format.binary64 b).toNat =
        2 ^ 52 + (@unpackMantissa Format.binary64 b).toNat := by
      rw [BitVec.toNat_append, ← Nat.shiftLeft_add_eq_or_of_lt fractionBound]
      simp [Nat.shiftLeft_eq]
    have full : (1#1 ++ @unpackMantissa Format.binary64 b).toNat.log2 = 52 := by
      rw [implicit]
      exact (Nat.log2_eq_iff (by omega)).2 ⟨by omega, by omega⟩
    have unbiased :
        (((@unpackExponent Format.binary64 b).toNat : Int) - ((1023 : Nat) + (52 : Nat)) +
          (1023 : Nat) + (52 : Nat)).toNat = (@unpackExponent Format.binary64 b).toNat := by
      omega
    simp only [withSign, UnpackedFloat.pack, bias, size, full, unbiased]
    rw [if_neg (by omega), if_pos trivial]
    congr 1
    · simp
    · exact BitVec.eq_of_toNat_eq (by simp [implicit]; omega)

private theorem packComponents_unpack (b : BitVec 64) :
    packComponents Format.binary64 (Sign.ofBitVec (@unpackSign Format.binary64 b))
      (unpackExponent b) (unpackMantissa b) = b := by
  apply BitVec.eq_of_toNat_eq
  rw [packComponents_toNat, sign_toBitVec_ofBitVec, unpackSign_toNat, unpackExponent_toNat,
    unpackMantissa_toNat]
  omega

private theorem withSign_unpack (b : BitVec 64) :
    withSign (Sign.ofBitVec (@unpackSign Format.binary64 b))
      (UnpackedFloat.unpack Format.binary64 b) = UnpackedFloat.unpack Format.binary64 b := by
  simp only [UnpackedFloat.unpack]
  split
  · split <;> rfl
  · split
    · split <;> rfl
    · rfl

private theorem neg_unpack (b : BitVec 64) :
    (UnpackedFloat.unpack Format.binary64 b).neg =
      withSign (-Sign.ofBitVec (@unpackSign Format.binary64 b))
        (UnpackedFloat.unpack Format.binary64 b) := by
  simp only [UnpackedFloat.unpack]
  split
  · split <;> rfl
  · split
    · split <;> rfl
    · rfl

/-! ### Fields -/

/-- Whether bits are those of a finite double. -/
def FiniteBits (bits : UInt64) : Prop := bits.toNat / 2 ^ 52 % 2 ^ 11 ≠ 2047

private theorem FiniteBits.exponent {bits : UInt64} (finite : FiniteBits bits) :
    @unpackExponent Format.binary64 bits.toBitVec ≠ -1#11 := fun last =>
  finite ((unpackExponent_toNat bits.toBitVec).symm.trans (congrArg BitVec.toNat last))

private theorem exponent_of_not_finite {bits : UInt64} (infinite : ¬FiniteBits bits) :
    @unpackExponent Format.binary64 bits.toBitVec = -1#11 := by
  apply BitVec.eq_of_toNat_eq
  rw [unpackExponent_toNat]
  exact Decidable.not_not.1 infinite

private theorem isNaN_or_isInf_unpack (b : BitVec 64) :
    ((UnpackedFloat.unpack Format.binary64 b).isNaN ||
      (UnpackedFloat.unpack Format.binary64 b).isInf) =
      decide (@unpackExponent Format.binary64 b = -1#11) := by
  simp only [UnpackedFloat.unpack]
  split
  next last => split <;> exact (decide_eq_true last).symm
  next finite =>
    split
    next => split <;> exact (decide_eq_false finite).symm
    next => exact (decide_eq_false finite).symm

theorem finiteBits_iff (x : Float) : FiniteBits x.toBits ↔ (x.isNaN || x.isInf) = false := by
  show FiniteBits x.toBits ↔
    ((UnpackedFloat.unpack Format.binary64 x.toBits.toBitVec).isNaN ||
      (UnpackedFloat.unpack Format.binary64 x.toBits.toBitVec).isInf) = false
  rw [isNaN_or_isInf_unpack, decide_eq_false_iff_not]
  exact ⟨FiniteBits.exponent, fun h infinite => h (exponent_of_not_finite fun finite => finite infinite)⟩

/-! ### Doubles and their bits -/

theorem eq_of_toBits_eq {x y : Float} (same : x.toBits = y.toBits) : x = y := by
  obtain ⟨⟨_, _⟩⟩ := x
  obtain ⟨⟨_, _⟩⟩ := y
  cases same
  rfl

/-- Finite bits are those of the double that they make. -/
theorem toBits_ofBits {bits : UInt64} (finite : FiniteBits bits) :
    (Float.ofBits bits).toBits = bits := by
  show UInt64.ofBitVec (UnpackedFloat.pack Format.binary64
    (UnpackedFloat.unpack Format.binary64 bits.toBitVec)) = bits
  rw [← withSign_unpack, pack_withSign _ _ finite.exponent, packComponents_unpack]

theorem ofBits_toBits {x : Float} (finite : FiniteBits x.toBits) : Float.ofBits x.toBits = x :=
  eq_of_toBits_eq (toBits_ofBits finite)

private theorem toBits_neg {x : Float} (finite : FiniteBits x.toBits) :
    (-x).toBits.toBitVec = packComponents Format.binary64
      (-Sign.ofBitVec (@unpackSign Format.binary64 x.toBits.toBitVec))
      (unpackExponent x.toBits.toBitVec) (unpackMantissa x.toBits.toBitVec) := by
  show UnpackedFloat.pack Format.binary64
    (UnpackedFloat.unpack Format.binary64 x.toBits.toBitVec).neg = _
  rw [neg_unpack, pack_withSign _ _ finite.exponent]

/-- The negation of a finite double that has no sign has the same bits with the sign. -/
theorem toBits_neg_of_positive {x : Float} (finite : FiniteBits x.toBits)
    (positive : x.toBits.toNat < 2 ^ 63) : (-x).toBits.toNat = 2 ^ 63 + x.toBits.toNat := by
  have noSign : @unpackSign Format.binary64 x.toBits.toBitVec = 0#1 := by
    apply BitVec.eq_of_toNat_eq
    rw [unpackSign_toNat]
    exact Nat.div_eq_of_lt positive
  show (-x).toBits.toBitVec.toNat = _
  rw [toBits_neg finite, packComponents_toNat, noSign, unpackExponent_toNat, unpackMantissa_toNat]
  show 1 * 2 ^ 63 + x.toBits.toNat / 2 ^ 52 % 2 ^ 11 * 2 ^ 52 + x.toBits.toNat % 2 ^ 52 = _
  omega

/-- A finite double without its sign. -/
def magnitude (x : Float) : Float := Float.ofBits (UInt64.ofNat (x.toBits.toNat % 2 ^ 63))

private theorem toNat_without_sign (x : Float) :
    (UInt64.ofNat (x.toBits.toNat % 2 ^ 63)).toNat = x.toBits.toNat % 2 ^ 63 := by
  rw [UInt64.toNat_ofNat']
  omega

theorem toBits_magnitude {x : Float} (finite : FiniteBits x.toBits) :
    (magnitude x).toBits.toNat = x.toBits.toNat % 2 ^ 63 ∧ FiniteBits (magnitude x).toBits := by
  have bits := toNat_without_sign x
  have same : FiniteBits (UInt64.ofNat (x.toBits.toNat % 2 ^ 63)) := by
    unfold FiniteBits at finite ⊢
    omega
  rw [magnitude, toBits_ofBits same]
  exact ⟨bits, same⟩

/-- A finite double is its magnitude with its sign. -/
theorem signed_magnitude {x : Float} (finite : FiniteBits x.toBits) :
    (if 2 ^ 63 ≤ x.toBits.toNat then -magnitude x else magnitude x) = x := by
  have bound := x.toBits.toNat_lt
  obtain ⟨bits, same⟩ := toBits_magnitude finite
  apply eq_of_toBits_eq
  apply UInt64.toNat.inj
  split
  next negative =>
    rw [toBits_neg_of_positive same (by omega), bits]
    omega
  next positive => omega

/-! ### Doubles that are not finite -/

private theorem eq_of_isNaN {b : BitVec 64} (valid : Format.binary64.Valid b)
    (nan : (UnpackedFloat.unpack Format.binary64 b).isNaN = true) :
    b = packedNaN Format.binary64 := by
  simp only [UnpackedFloat.unpack] at nan
  split at nan
  next last =>
    split at nan
    next => cases nan
    next fraction => exact valid.eq_packedNaN last fraction
  next =>
    split at nan
    next => split at nan <;> cases nan
    next => cases nan

private theorem eq_of_isInf {b : BitVec 64}
    (inf : (UnpackedFloat.unpack Format.binary64 b).isInf = true) :
    b = packedInfinity Format.binary64 (Sign.ofBitVec (@unpackSign Format.binary64 b)) := by
  simp only [UnpackedFloat.unpack] at inf
  split at inf
  next last =>
    split at inf
    next fraction =>
      refine (packComponents_unpack b).symm.trans ?_
      rw [last, fraction]
      rfl
    next => cases inf
  next =>
    split at inf
    next => split at inf <;> cases inf
    next => cases inf

theorem eq_notANumber {x : Float} (nan : x.isNaN = true) : x = notANumber :=
  eq_of_toBits_eq (UInt64.toBitVec_inj.1 (eq_of_isNaN x.toModel.valid nan))

theorem eq_infinity {x : Float} (inf : x.isInf = true) (positive : x.toBits.toNat < 2 ^ 63) :
    x = infinity := by
  have noSign : @unpackSign Format.binary64 x.toBits.toBitVec = 0#1 := by
    apply BitVec.eq_of_toNat_eq
    rw [unpackSign_toNat]
    exact Nat.div_eq_of_lt positive
  apply eq_of_toBits_eq
  apply UInt64.toBitVec_inj.1
  rw [eq_of_isInf (b := x.toBits.toBitVec) inf, noSign]
  rfl

theorem eq_neg_infinity {x : Float} (inf : x.isInf = true) (negative : 2 ^ 63 ≤ x.toBits.toNat) :
    x = -infinity := by
  have bound := x.toBits.toNat_lt
  have sign : @unpackSign Format.binary64 x.toBits.toBitVec = 1#1 := by
    apply BitVec.eq_of_toNat_eq
    rw [unpackSign_toNat]
    show x.toBits.toNat / 2 ^ 63 = 1
    omega
  apply eq_of_toBits_eq
  apply UInt64.toBitVec_inj.1
  rw [eq_of_isInf (b := x.toBits.toBitVec) inf, sign]
  rfl

end Flowchart
