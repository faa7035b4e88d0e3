import Flowchart.Decimal.Layout
import Flowchart.Json.Numeral
import Flowchart.Proofs.Decimal.Shortest

/-!
# Numbers read back

* `Numeral.text`: a number put together again; `Numeral.scan_text` takes it apart.
* `Numeral.ofInt_text`, `Numeral.ofInt_value`: the digits of an integer, and what they are read as.
* `Numeral.ofDouble_text`, `Numeral.ofDouble_valid`: the shortest text of a finite double, and what it is read as.
-/

namespace Flowchart

namespace Json

/-- Whether a text cannot go on a number: it begins with no digit, point or exponent. -/
def EndsNumber : List Char → Prop
  | [] => True
  | c :: _ => c.isDigit = false ∧ c ≠ '.' ∧ c ≠ 'e' ∧ c ≠ 'E'

namespace Numeral

/-- The point and the digits after it. -/
def placesText (n : Numeral) : List Char := if n.places.isEmpty then [] else '.' :: n.places

/-- The exponent with its mark and its sign. -/
def powerText (n : Numeral) : List Char :=
  if n.power.isEmpty then [] else 'e' :: (n.sign ++ n.power)

/-- The text of a number. -/
def text (n : Numeral) : List Char :=
  (if n.negative then ['-'] else []) ++ (n.whole ++ (n.placesText ++ n.powerText))

/-- A number that a JSON text may hold. -/
structure Valid (n : Numeral) : Prop where
  whole : n.whole = ['0'] ∨ ∃ c rest, n.whole = c :: rest ∧ c ≠ '0'
  wholeDigits : ∀ c ∈ n.whole, c.isDigit
  placesDigits : ∀ c ∈ n.places, c.isDigit
  powerDigits : ∀ c ∈ n.power, c.isDigit
  sign : n.sign = [] ∧ n.power = [] ∨ (n.sign = ['+'] ∨ n.sign = ['-']) ∧ n.power ≠ []

theorem size_eq_length_text (n : Numeral) : n.size = n.text.length := by
  unfold size text placesText powerText placesSize powerSize
  split <;> split <;> split <;> simp <;> omega

/-! ### Taking a text apart -/

/-- Whether a text begins with no digit. -/
def NoDigit (text : List Char) : Prop := ∀ c rest, text = c :: rest → c.isDigit = false

theorem takeWhile_digits {digits tail : List Char} (all : ∀ c ∈ digits, c.isDigit)
    (ends : NoDigit tail) : (digits ++ tail).takeWhile Char.isDigit = digits := by
  rw [List.takeWhile_append_of_pos all]
  cases tail with
  | nil => simp
  | cons c rest => simp [ends c rest rfl]

variable {n : Numeral} {tail : List Char}

theorem noDigit_of_ends (ends : EndsNumber tail) : NoDigit tail := by
  rintro c rest rfl
  exact ends.1

theorem noDigit_powerText (ends : EndsNumber tail) : NoDigit (n.powerText ++ tail) := by
  unfold powerText
  split
  · exact noDigit_of_ends ends
  · rintro c rest same
    cases same
    rfl

theorem noDigit_placesText (ends : EndsNumber tail) :
    NoDigit (n.placesText ++ (n.powerText ++ tail)) := by
  unfold placesText
  split
  · exact noDigit_powerText ends
  · rintro c rest same
    cases same
    rfl

theorem scanWhole_text (valid : n.Valid) {rest : List Char} (ends : NoDigit rest) :
    scanWhole (n.whole ++ rest) = n.whole := by
  obtain zero | ⟨c, others, whole, nonzero⟩ := valid.whole
  · rw [zero]
    rfl
  · have digits := takeWhile_digits valid.wholeDigits ends
    rw [whole, List.cons_append] at digits ⊢
    unfold scanWhole
    split
    next same => exact absurd (List.cons.inj same).1 nonzero
    next => exact digits

theorem scanPlaces_text (valid : n.Valid) (ends : EndsNumber tail) :
    scanPlaces (n.placesText ++ (n.powerText ++ tail)) = n.places := by
  cases places : n.places with
  | cons c rest =>
    simp only [placesText, places, List.isEmpty_cons, scanPlaces]
    exact takeWhile_digits (places ▸ valid.placesDigits) (noDigit_powerText ends)
  | nil =>
    simp only [placesText, places, List.isEmpty_nil, if_true, List.nil_append]
    unfold powerText
    split
    · cases tail with
      | nil => rfl
      | cons c rest =>
        unfold scanPlaces
        split
        next same => exact absurd (List.cons.inj same).1 ends.2.1
        next => rfl
    · rfl

theorem scanPower_text (valid : n.Valid) (ends : EndsNumber tail) :
    scanPower (n.powerText ++ tail) = (n.sign, n.power) := by
  obtain ⟨sign, power⟩ | ⟨sign, power⟩ := valid.sign
  · simp only [powerText, power, List.isEmpty_nil, if_true, List.nil_append, sign]
    cases tail with
    | nil => rfl
    | cons c rest => simp [scanPower, ends.2.2.1, ends.2.2.2]
  · have digits := takeWhile_digits valid.powerDigits (noDigit_of_ends ends)
    obtain sign | sign := sign
    · simp [powerText, power, sign, scanPower, digits]
    · simp [powerText, power, sign, scanPower, digits]

theorem unsigned_text (valid : n.Valid) (rest : List Char) :
    let text := (if n.negative then ['-'] else []) ++ (n.whole ++ rest)
    (text.head? == some '-') = n.negative ∧
      (if n.negative then text.drop 1 else text) = n.whole ++ rest := by
  cases negative : n.negative with
  | true => exact ⟨rfl, rfl⟩
  | false =>
    have digit : ((n.whole ++ rest).head? == some '-') = false := by
      obtain zero | ⟨c, others, whole, -⟩ := valid.whole
      · rw [zero]
        rfl
      · have isDigit := valid.wholeDigits c (by simp [whole])
        rw [whole, List.cons_append, List.head?_cons, beq_eq_false_iff_ne]
        rintro ⟨rfl⟩
        cases isDigit
    exact ⟨digit, rfl⟩

theorem drop_placesText (n : Numeral) (rest : List Char) :
    (if n.places.isEmpty then n.placesText ++ rest
      else (n.placesText ++ rest).drop (n.places.length + 1)) = rest := by
  unfold placesText
  split
  · rfl
  · simp

/-- A number is taken apart into the parts it was put together from. -/
theorem scan_text (valid : n.Valid) (ends : EndsNumber tail) : scan (n.text ++ tail) = n := by
  have whole := scanWhole_text valid (noDigit_placesText (n := n) ends)
  have places := scanPlaces_text valid ends
  have power := scanPower_text valid ends
  have sign := unsigned_text valid (n.placesText ++ (n.powerText ++ tail))
  have text : n.text ++ tail =
      (if n.negative then ['-'] else []) ++ (n.whole ++ (n.placesText ++ (n.powerText ++ tail))) := by
    simp [Numeral.text]
  rw [text]
  unfold scan
  simp only [sign.1, sign.2, whole, List.drop_left, places, drop_placesText, power]

end Numeral

open Numeral in
theorem number?_text {n : Numeral} {tail : List Char} (valid : n.Valid) (ends : EndsNumber tail) :
    number? (n.text ++ tail) = some (n.value, n.text.length) := by
  have some_ : n.whole.isEmpty = false := by
    obtain zero | ⟨c, others, whole, -⟩ := valid.whole
    · rw [zero]
      rfl
    · rw [whole]
      rfl
  simp [number?, scan_text valid ends, some_, size_eq_length_text]

/-! ### Integers -/

theorem toDigits_leading {n : Nat} (pos : 0 < n) : ∃ c rest, Nat.toDigits 10 n = c :: rest ∧ c ≠ '0' := by
  induction n using Nat.strong_induction_on with
  | h n ih =>
    rw [Nat.toDigits_eq_if (by decide)]
    split
    next small =>
      have nonzero : ∀ digit < 10, 0 < digit → digit.digitChar ≠ '0' := by decide
      exact ⟨_, [], rfl, nonzero n small pos⟩
    next large =>
      obtain ⟨c, rest, digits, nonzero⟩ := ih (n / 10) (by omega) (by omega)
      exact ⟨c, rest ++ [(n % 10).digitChar], by rw [digits]; rfl, nonzero⟩

theorem toDigits_isDigit (n : Nat) : ∀ c ∈ Nat.toDigits 10 n, c.isDigit := fun _ mem =>
  Nat.isDigit_of_mem_toDigits (by decide) (by decide) mem

theorem naturalOfDigits_toDigits (n : Nat) : naturalOfDigits (Nat.toDigits 10 n) = n :=
  (Nat.ofDigitChars_eq_foldl).symm.trans Nat.ofDigitChars_ten_toDigits

namespace Numeral

/-- The numeral of an integer. -/
def ofInt (n : Int) : Numeral := ⟨decide (n < 0), Nat.toDigits 10 n.natAbs, [], [], []⟩

theorem ofInt_valid (n : Int) : (ofInt n).Valid where
  whole := by
    by_cases zero : n.natAbs = 0
    · exact .inl (by rw [ofInt, zero]; rfl)
    · exact .inr (toDigits_leading (by omega))
  wholeDigits := toDigits_isDigit _
  placesDigits := by simp [ofInt]
  powerDigits := by simp [ofInt]
  sign := .inl ⟨rfl, rfl⟩

theorem ofInt_text (n : Int) : (ofInt n).text = n.repr.toList := by
  cases n with
  | ofNat n => simp [ofInt, text, placesText, powerText, Int.repr]
  | negSucc n => simp [ofInt, text, placesText, powerText, Int.repr]

theorem ofInt_value (n : Int) : (ofInt n).value = .int n := by
  have magnitude : (if decide (n < 0) then -(n.natAbs : Int) else n.natAbs) = n := by
    simp only [decide_eq_true_eq]
    split <;> omega
  simp only [value, placesSize, powerSize, ofInt, naturalOfDigits_toDigits, magnitude]
  rfl

end Numeral

/-! ### Doubles -/

open Decimal (digitText zeros)

theorem zeros_isDigit (n : Nat) : ∀ c ∈ zeros n, c.isDigit := by
  intro c mem
  rw [List.eq_of_mem_replicate mem]
  rfl

theorem length_zeros (n : Nat) : (zeros n).length = n := List.length_replicate

theorem naturalOfDigits_append (ds es : List Char) :
    naturalOfDigits (ds ++ es) = naturalOfDigits ds * 10 ^ es.length + naturalOfDigits es := by
  unfold naturalOfDigits
  rw [← Nat.ofDigitChars_eq_foldl, ← Nat.ofDigitChars_eq_foldl, ← Nat.ofDigitChars_eq_foldl,
    Nat.ofDigitChars_append, Nat.ofDigitChars_eq_ofDigitChars_zero, Nat.mul_comm]

theorem naturalOfDigits_zeros (n : Nat) : naturalOfDigits (zeros n) = 0 :=
  (Nat.ofDigitChars_eq_foldl).symm.trans (by rw [zeros, Nat.ofDigitChars_replicate_zero, Nat.mul_zero])

namespace Numeral

/-- A numeral that stands for a decimal, written with a point or an exponent. -/
structure Writes (n : Numeral) (d : Decimal) : Prop where
  valid : n.Valid
  isDouble : ¬(n.placesSize = 0 ∧ n.powerSize = 0)
  value : n.decimal.value = d.value
  floor : min d.exponent (-1) ≤ n.decimal.exponent

/-- The numeral of `Decimal.positional` with a place after the point. -/
def positional (negative : Bool) (d : Decimal) : Numeral :=
  let ds := digitText d.digits
  let point := d.leading + 1
  if point ≤ 0 then ⟨negative, ['0'], zeros (-point).toNat ++ ds, [], []⟩
  else if point < ds.length then ⟨negative, ds.take point.toNat, ds.drop point.toNat, [], []⟩
  else ⟨negative, ds ++ zeros (point.toNat - ds.length), ['0'], [], []⟩

/-- The numeral of `Decimal.scientific`. -/
def scientific (negative : Bool) (d : Decimal) : Numeral :=
  let ds := digitText d.digits
  let size := digitText d.leading.natAbs
  ⟨negative, ds.take 1, ds.drop 1, [if d.leading < 0 then '-' else '+'], zeros (2 - size.length) ++ size⟩

theorem positional_negative (negative : Bool) (d : Decimal) :
    (positional negative d).negative = negative := by
  unfold positional
  simp only
  split
  · rfl
  · split <;> rfl

theorem positional_text (negative : Bool) (d : Decimal) :
    (positional negative d).text = (if negative then ['-'] else []) ++ d.positional ['.', '0'] := by
  have digits : digitText d.digits ≠ [] := Nat.toDigits_ne_nil
  unfold positional Decimal.positional
  simp only
  split
  · simp [text, placesText, powerText, digits]
  · split
    next inside =>
      have more : (digitText d.digits).drop (d.leading + 1).toNat ≠ [] := by
        rw [ne_eq, List.drop_eq_nil_iff]
        omega
      simp [text, placesText, powerText, more]
    next => simp [text, placesText, powerText]

theorem scientific_text (negative : Bool) (d : Decimal) :
    (scientific negative d).text = (if negative then ['-'] else []) ++ d.scientific := by
  have size : zeros (2 - (digitText d.leading.natAbs).length) ++ digitText d.leading.natAbs ≠ [] := by
    simp [digitText, Nat.toDigits_ne_nil]
  have digits : digitText d.digits ≠ [] := Nat.toDigits_ne_nil
  unfold scientific Decimal.scientific
  simp only [text, powerText, List.isEmpty_eq_false_iff.2 size]
  match shape : digitText d.digits with
  | [] => exact absurd shape digits
  | [c] => simp [placesText]
  | c :: c' :: rest => simp [placesText]

theorem Writes.of_decimal_eq {n : Numeral} {d : Decimal} (valid : n.Valid)
    (isDouble : ¬(n.placesSize = 0 ∧ n.powerSize = 0)) (same : n.decimal = d) : n.Writes d where
  valid := valid
  isDouble := isDouble
  value := by rw [same]
  floor := by rw [same]; exact min_le_left _ _

theorem decimal_without_power (negative : Bool) (whole places : List Char) :
    decimal ⟨negative, whole, places, [], []⟩ =
      ⟨naturalOfDigits (whole ++ places), -places.length⟩ := by
  simp [decimal, naturalOfDigits]

theorem positional_writes (negative : Bool) {d : Decimal} (pos : 0 < d.digits) :
    (positional negative d).Writes d := by
  obtain ⟨c, rest, digits, nonzero⟩ := toDigits_leading pos
  have all : ∀ c ∈ digitText d.digits, c.isDigit := toDigits_isDigit _
  have natural : naturalOfDigits (digitText d.digits) = d.digits := naturalOfDigits_toDigits _
  have size : 0 < (digitText d.digits).length := Nat.length_toDigits_pos
  have point : d.leading + 1 = d.exponent + (digitText d.digits).length := by
    unfold Decimal.leading
    omega
  unfold positional
  simp only [point]
  -- the point stands before all digits, between two of them, or after all
  split
  next before =>
    refine .of_decimal_eq ⟨.inl rfl, by simp, ?_, by simp, .inl ⟨rfl, rfl⟩⟩ ?_ ?_
    · intro c mem
      obtain mem | mem := List.mem_append.1 mem
      · exact zeros_isDigit _ c mem
      · exact all c mem
    · simp [placesSize, List.ne_nil_of_length_pos size]
    · have zero : naturalOfDigits ['0'] = 0 := rfl
      rw [decimal_without_power, naturalOfDigits_append, naturalOfDigits_append, zero,
        naturalOfDigits_zeros, natural, List.length_append, length_zeros]
      exact Decimal.ext (by simp) (by simp only; omega)
  next =>
    split
    next inside =>
      have front : 0 < (d.exponent + (digitText d.digits).length).toNat := by omega
      have back : (d.exponent + (digitText d.digits).length).toNat < (digitText d.digits).length := by
        omega
      refine .of_decimal_eq ⟨.inr ?_, fun c mem => all c (List.mem_of_mem_take mem),
        fun c mem => all c (List.mem_of_mem_drop mem), by simp, .inl ⟨rfl, rfl⟩⟩ ?_ ?_
      · refine ⟨c, rest.take ((d.exponent + (digitText d.digits).length).toNat - 1), ?_, nonzero⟩
        obtain ⟨k, succ⟩ := Nat.exists_eq_succ_of_ne_zero front.ne'
        simp only [succ]
        rw [digitText, digits]
        rfl
      -- some digits are left for the places after the point
      · have more : (digitText d.digits).drop (d.exponent + (digitText d.digits).length).toNat ≠ [] := by
          rw [ne_eq, List.drop_eq_nil_iff]
          omega
        simp [placesSize, more]
      · rw [decimal_without_power, List.take_append_drop, natural, List.length_drop]
        exact Decimal.ext rfl (by simp only; omega)
    next whole =>
      refine ⟨⟨.inr ?_, ?_, by simp, by simp, .inl ⟨rfl, rfl⟩⟩, by simp [placesSize], ?_, ?_⟩
      · exact ⟨c, _, by rw [digitText, digits]; rfl, nonzero⟩
      · intro c mem
        obtain mem | mem := List.mem_append.1 mem
        · exact all c mem
        · exact zeros_isDigit _ c mem
      -- the zeros that fill up the whole part are worth the exponent
      · obtain ⟨k, exponent⟩ := Int.eq_ofNat_of_zero_le (show 0 ≤ d.exponent by omega)
        have shift : (d.exponent + (digitText d.digits).length).toNat - (digitText d.digits).length = k := by
          omega
        have zero : naturalOfDigits ['0'] = 0 := rfl
        rw [decimal_without_power, naturalOfDigits_append, naturalOfDigits_append, naturalOfDigits_zeros,
          natural, zero, shift, length_zeros, Decimal.value, Decimal.value, exponent]
        simp
      · rw [decimal_without_power]
        exact min_le_right _ _

theorem scientific_writes (negative : Bool) {d : Decimal} (pos : 0 < d.digits) :
    (scientific negative d).Writes d := by
  obtain ⟨c, rest, digits, nonzero⟩ := toDigits_leading pos
  have all : ∀ c ∈ digitText d.digits, c.isDigit := toDigits_isDigit _
  have natural : naturalOfDigits (digitText d.digits) = d.digits := naturalOfDigits_toDigits _
  have size : zeros (2 - (digitText d.leading.natAbs).length) ++ digitText d.leading.natAbs ≠ [] := by
    simp [digitText, Nat.toDigits_ne_nil]
  have power : naturalOfDigits (zeros (2 - (digitText d.leading.natAbs).length) ++
      digitText d.leading.natAbs) = d.leading.natAbs := by
    rw [naturalOfDigits_append, naturalOfDigits_zeros, digitText, naturalOfDigits_toDigits]
    simp
  refine .of_decimal_eq ⟨.inr ?_, fun c mem => all c (List.mem_of_mem_take mem),
    fun c mem => all c (List.mem_of_mem_drop mem), ?_, .inr ⟨?_, size⟩⟩ ?_ ?_
  · exact ⟨c, [], by simp only [scientific, digitText, digits]; rfl, nonzero⟩
  · intro c mem
    obtain mem | mem := List.mem_append.1 mem
    · exact zeros_isDigit _ c mem
    · exact toDigits_isDigit _ c mem
  · simp only [scientific]
    split
    · exact .inr rfl
    · exact .inl rfl
  · simp [powerSize, scientific, size]
  -- the power is written with its sign and at least two digits, which are read back
  · have signed : (if [if d.leading < 0 then '-' else '+'] == ['-'] then -(d.leading.natAbs : Int)
        else d.leading.natAbs) = d.leading := by
      by_cases negative : d.leading < 0
      · rw [if_pos negative]
        simp only [beq_self_eq_true, if_true]
        omega
      · rw [if_neg negative]
        show (d.leading.natAbs : Int) = d.leading
        omega
    simp only [decimal, scientific, List.take_append_drop, natural, power, List.length_drop, signed]
    refine Decimal.ext rfl ?_
    have filled : 0 < (digitText d.digits).length := Nat.length_toDigits_pos
    simp only [Decimal.leading]
    omega

end Numeral

open Numeral in
/-- A numeral that stands for the shortest decimal of a double has the double for its value. -/
theorem Numeral.Writes.value_eq {x : Float} {n : Numeral} (finite : FiniteBits x.toBits)
    (nonzero : 0 < (Dyadic.ofBits x.toBits).mantissa)
    (negative : n.negative = decide (2 ^ 63 ≤ x.toBits.toNat))
    (writes : n.Writes (Dyadic.ofBits x.toBits).shortest) : Numeral.value n = .double x := by
  obtain ⟨bits, same⟩ := toBits_magnitude finite
  have dyadic : Dyadic.ofBits (magnitude x).toBits = Dyadic.ofBits x.toBits :=
    Dyadic.ofBits_congr (by omega)
  obtain ⟨near, floor⟩ := Dyadic.shortest_roundsTo (Dyadic.canonical_ofBits x.toBits) nonzero
  have read : nearestDouble n.decimal.digits n.decimal.exponent = magnitude x := by
    refine nearestDouble_eq same (by omega) (by rwa [dyadic])
      ((le_min floor (by decide)).trans writes.floor) ?_
    rw [dyadic]
    rw [← writes.value] at near
    exact near
  unfold Numeral.value
  rw [if_neg writes.isDouble, read, negative]
  simp only [decide_eq_true_eq, signed_magnitude finite]

/-- The numeral that a finite double is written as. -/
def Numeral.ofDouble (x : Float) : Numeral :=
  let negative := decide (2 ^ 63 ≤ x.toBits.toNat)
  let d := (Dyadic.ofBits x.toBits).shortest
  if (Dyadic.ofBits x.toBits).mantissa = 0 then ⟨negative, ['0'], ['0'], [], []⟩
  else if -4 ≤ d.leading ∧ d.leading < 16 then positional negative d else scientific negative d

theorem Numeral.ofDouble_text {x : Float} (finite : FiniteBits x.toBits) :
    (ofDouble x).text = (doubleText .json x).toList := by
  have numbers := (finiteBits_iff x).1 finite
  simp only [Bool.or_eq_false_iff] at numbers
  have sign : (if x.toBits.toNat < Nat.pow 2 63 then "" else "-").toList =
      if decide (2 ^ 63 ≤ x.toBits.toNat) then ['-'] else [] := by
    by_cases negative : 2 ^ 63 ≤ x.toBits.toNat
    · rw [if_neg (by simpa using negative), if_pos (by simpa using negative)]
      rfl
    · rw [if_pos (by simpa using negative), if_neg (by simpa using negative)]
      rfl
  simp only [doubleText, layoutDouble, numbers, Bool.false_eq_true, if_false, String.toList_append, sign]
  unfold ofDouble
  simp only
  split
  next => simp [text, placesText, powerText]
  next =>
    split
    · simp [positional_text]
    · simp [scientific_text]

theorem Numeral.ofDouble_valid {x : Float} (finite : FiniteBits x.toBits) :
    (ofDouble x).Valid ∧ (ofDouble x).value = .double x := by
  unfold ofDouble
  simp only
  split
  next zero =>
    refine ⟨⟨.inl rfl, by simp, by simp, by simp, .inl ⟨rfl, rfl⟩⟩, ?_⟩
    have weight := Dyadic.ofBits_weight x.toBits
    have full := (Dyadic.canonical_ofBits x.toBits).full
    have isZero : magnitude x = 0 := by
      apply eq_of_toBits_eq
      apply UInt64.toNat.inj
      rw [(toBits_magnitude finite).1]
      show x.toBits.toNat % 2 ^ 63 = 0
      omega
    have signed := signed_magnitude finite
    rw [isZero] at signed
    simpa [Numeral.value, placesSize, decimal, naturalOfDigits, nearestDouble] using signed
  next nonzero =>
    have pos := Nat.pos_of_ne_zero nonzero
    obtain ⟨near, -⟩ := Dyadic.shortest_roundsTo (Dyadic.canonical_ofBits x.toBits) pos
    have digits := near.digits_pos finite pos
    split
    · have writes := positional_writes (decide (2 ^ 63 ≤ x.toBits.toNat)) digits
      exact ⟨writes.valid, writes.value_eq finite pos (positional_negative _ _)⟩
    · have writes := scientific_writes (decide (2 ^ 63 ≤ x.toBits.toNat)) digits
      exact ⟨writes.valid, writes.value_eq finite pos rfl⟩

end Json

end Flowchart
