import Flowchart.Json.Reader
import Flowchart.Json.Writer

/-!
# Strings read back

`readString_quote`: the characters of a string are read back from between its quotes.
-/

namespace Flowchart

namespace Json

/-! ### Code escapes -/

theorem hexDigit?_hexChar : ∀ digit < 16, hexDigit? (hexChar digit) = some digit := by decide

theorem codeUnit?_unitEscape {unit : Nat} (bound : unit < 0x10000) :
    codeUnit? (hexChar (unit / 4096 % 16)) (hexChar (unit / 256 % 16)) (hexChar (unit / 16 % 16))
      (hexChar (unit % 16)) = some unit := by
  have digit (n : Nat) := hexDigit?_hexChar (n % 16) (Nat.mod_lt _ (by decide))
  simp only [codeUnit?, digit, Option.bind_eq_bind, Option.bind_some, Option.pure_def,
    Option.some.injEq]
  omega

/-- A code escape adds its unit to what is read. -/
theorem readString_unitEscape {start unit offset : Nat} (bound : unit < 0x10000) {rest : List Char}
    (more : rest ≠ []) (waiting : Option Nat) (read : List Char) :
    readString start (unitEscape unit ++ rest) offset waiting read =
      readString start rest (offset + 6) (pushUnit waiting unit read).1
        (pushUnit waiting unit read).2 := by
  simp only [unitEscape, List.cons_append, List.nil_append, readString, codeUnit?_unitEscape bound,
    List.isEmpty_eq_false_iff.2 more]

/-! ### Characters -/

theorem toNat_not_surrogate (c : Char) : c.toNat < 0xD800 ∨ 0xE000 ≤ c.toNat ∧ c.toNat < 0x110000 := by
  have valid := c.valid
  simp only [UInt32.isValidChar, Nat.isValidChar] at valid
  show c.val.toNat < 0xD800 ∨ 0xE000 ≤ c.val.toNat ∧ c.val.toNat < 0x110000
  omega

theorem scalarOf_toNat (c : Char) : scalarOf c.toNat = c := by
  have valid : c.toNat.isValidChar := c.valid
  rw [scalarOf, if_pos valid]
  exact Char.ofNat_toNat c

/-- Two surrogates one after the other are read as the character that they join to. -/
theorem pushUnit_pair {high low : Nat} (highBound : high < 0x400) (lowBound : low < 0x400)
    (read : List Char) :
    pushUnit (pushUnit none (0xD800 + high) read).1 (0xDC00 + low)
        (pushUnit none (0xD800 + high) read).2 =
      (none, scalarOf (0x10000 + high * 0x400 + low) :: read) := by
  have isHigh : isHighSurrogate (0xD800 + high) = true := by
    simp only [isHighSurrogate, Bool.and_eq_true, decide_eq_true_eq]
    omega
  have isLow : isLowSurrogate (0xDC00 + low) = true := by
    simp only [isLowSurrogate, Bool.and_eq_true, decide_eq_true_eq]
    omega
  have joined : joinSurrogates (0xD800 + high) (0xDC00 + low) =
      scalarOf (0x10000 + high * 0x400 + low) := by
    rw [joinSurrogates, Nat.add_sub_cancel_left, Nat.add_sub_cancel_left]
  simp only [pushUnit, isHigh, isLow, if_true, joined]

/-- A character is read back from its escape. -/
theorem readString_escapeChar {start offset : Nat} (c : Char) {rest : List Char} (more : rest ≠ [])
    (read : List Char) :
    readString start (escapeChar c ++ rest) offset none read =
      readString start rest (offset + (escapeChar c).length) none (c :: read) := by
  unfold escapeChar
  -- seven characters have an escape of a letter
  split
  · simp [readString, simpleEscape?, settle]
  · simp [readString, simpleEscape?, settle]
  · simp [readString, simpleEscape?, settle]
  · simp [readString, simpleEscape?, settle]
  · simp [readString, simpleEscape?, settle]
  · simp [readString, simpleEscape?, settle]
  · simp [readString, simpleEscape?, settle]
  next _ quote backslash _ _ _ _ _ =>
    have scalar := toNat_not_surrogate c
    simp only
    split
    next printable =>
      -- a printable character stands for itself
      have plain : ¬c.toNat < 0x20 := by omega
      rw [List.singleton_append, readString]
      · simp [plain, settle]
      · exact quote
      all_goals
        intros
        exact backslash (by assumption)
    next =>
      split
      next small =>
        -- one unit is enough, and it is no surrogate
        have alone : isHighSurrogate c.toNat = false ∧ isLowSurrogate c.toNat = false := by
          simp only [isHighSurrogate, isLowSurrogate, Bool.and_eq_false_iff, decide_eq_false_iff_not]
          omega
        rw [readString_unitEscape small more]
        simp [pushUnit, unitChars, alone, scalarOf_toNat, unitEscape]
      next large =>
        -- two units, which are read as a pair of surrogates
        have highBound : (c.toNat - 0x10000) / 0x400 < 0x400 := by omega
        have lowBound : (c.toNat - 0x10000) % 0x400 < 0x400 := by omega
        have code : 0x10000 + (c.toNat - 0x10000) / 0x400 * 0x400 + (c.toNat - 0x10000) % 0x400 =
            c.toNat := by omega
        rw [List.append_assoc, readString_unitEscape (by omega) (by simp [unitEscape]),
          readString_unitEscape (by omega) more, pushUnit_pair highBound lowBound, code,
          scalarOf_toNat]
        simp only [List.length_append, unitEscape, List.length_cons, List.length_nil, Nat.add_assoc]

/-- The characters of a string are read back up to the quote after them. -/
theorem readString_quote (start : Nat) (chars : List Char) (tail : List Char) (offset : Nat)
    (read : List Char) :
    readString start (chars.flatMap escapeChar ++ '"' :: tail) offset none read =
      .ok (String.ofList (read.reverse ++ chars),
        ⟨offset + (chars.flatMap escapeChar).length + 1, tail⟩) := by
  induction chars generalizing offset read with
  | nil => simp [readString, settle]
  | cons c chars ih =>
    rw [List.flatMap_cons, List.append_assoc, readString_escapeChar c (by simp), ih]
    simp [Nat.add_assoc]

end Json

end Flowchart
