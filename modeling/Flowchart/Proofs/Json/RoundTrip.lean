import Flowchart.Proofs.Json.Fields
import Flowchart.Proofs.Json.Numeral
import Flowchart.Proofs.Json.Quoted

/-!
# JSON text reads back

* `readValue_render`: a value is read back from its text, in the midst of a longer one.
* `parse_render`: a value is read back from its text, on one line or with an indent.
-/

namespace Flowchart

namespace Json

/-! ### Cursors -/

namespace Cursor

theorem skip_append (offset : Nat) (front rest : List Char) :
    skip ⟨offset, front ++ rest⟩ front.length = ⟨offset + front.length, rest⟩ := by
  simp [skip]

/-- Whether a text begins with no blank. -/
def NoBlank (text : List Char) : Prop := ∀ c rest, text = c :: rest → isBlank c = false

theorem skipBlanks_append {offset : Nat} (blanks : List Char) {rest : List Char}
    (all : ∀ c ∈ blanks, isBlank c) (ends : NoBlank rest) :
    skipBlanks ⟨offset, blanks ++ rest⟩ = ⟨offset + blanks.length, rest⟩ := by
  have taken : (blanks ++ rest).takeWhile isBlank = blanks := by
    rw [List.takeWhile_append_of_pos all]
    cases rest with
    | nil => simp
    | cons c rest => simp [ends c rest rfl]
  rw [skipBlanks, taken]
  exact skip_append _ _ _

theorem skipBlanks_cons {offset : Nat} {c : Char} {rest : List Char} (ends : isBlank c = false) :
    skipBlanks ⟨offset, c :: rest⟩ = ⟨offset, c :: rest⟩ :=
  skipBlanks_append [] (by simp) fun _ _ same => by cases same; exact ends

end Cursor

open Cursor

/-! ### Words and numbers -/

theorem Numeral.text_start {n : Numeral} (valid : n.Valid) :
    ∃ c rest, c.isDigit = true ∧ (n.text = c :: rest ∨ n.text = '-' :: c :: rest) := by
  obtain ⟨c, rest, whole⟩ : ∃ c rest, n.whole = c :: rest := by
    obtain zero | ⟨c, rest, whole, -⟩ := valid.whole
    · exact ⟨_, _, zero⟩
    · exact ⟨c, rest, whole⟩
  refine ⟨c, rest ++ (n.placesText ++ n.powerText), valid.wholeDigits c (by simp [whole]), ?_⟩
  cases negative : n.negative with
  | true => exact .inr (by simp [text, negative, whole])
  | false => exact .inl (by simp [text, negative, whole])

theorem word?_other {word : String} {c : Char} (other : word.toList.head?.any (· != c) = true)
    (rest : List Char) (offset : Nat) : word? ⟨offset, c :: rest⟩ word = none := by
  cases chars : word.toList with
  | nil => simp [chars] at other
  | cons d ds =>
    have differs : d ≠ c := by simpa [chars] using other
    unfold word?
    rw [chars]
    exact if_neg (by simp [differs])

/-- A word is read as the value that it stands for, if no word before it begins like it. -/
theorem readPlain_word (before after : List (String × Json)) {word : String} {value : Json} (c : Char)
    (split : words = before ++ (word, value) :: after) (head : word.toList.head? = some c)
    (others : ∀ entry ∈ before, entry.1.toList.head?.any (· != c) = true)
    (tail : List Char) (offset : Nat) :
    readPlain ⟨offset, word.toList ++ tail⟩ = .ok (value, ⟨offset + word.toList.length, tail⟩) := by
  have self : word? ⟨offset, word.toList ++ tail⟩ word = some ⟨offset + word.toList.length, tail⟩ := by
    simp [word?, skip]
  obtain ⟨cs, chars⟩ : ∃ cs, word.toList = c :: cs := List.head?_eq_some_iff.1 head
  have skipped : (before.findSome? fun entry =>
      (word? ⟨offset, word.toList ++ tail⟩ entry.1).map (entry.2, ·)) = none := by
    refine List.findSome?_eq_none_iff.2 fun entry mem => ?_
    rw [chars, List.cons_append, word?_other (others entry mem)]
    rfl
  have found : (words.findSome? fun entry =>
      (word? ⟨offset, word.toList ++ tail⟩ entry.1).map (entry.2, ·)) =
      some (value, ⟨offset + word.toList.length, tail⟩) := by
    rw [split, List.findSome?_append, skipped, List.findSome?_cons, self]
    rfl
  simp only [readPlain, found]

theorem findSome?_words_numeral {n : Numeral} (valid : n.Valid) (offset : Nat) (tail : List Char) :
    (words.findSome? fun entry =>
      (word? ⟨offset, n.text ++ tail⟩ entry.1).map (entry.2, ·)) = none := by
  refine List.findSome?_eq_none_iff.2 fun entry mem => ?_
  rw [Option.map_eq_none_iff]
  obtain ⟨c, rest, digit, text | text⟩ := Numeral.text_start valid
  · have letter : entry.1.toList.head?.any (!·.isDigit) = true :=
      (by decide : ∀ entry ∈ words, entry.1.toList.head?.any (!·.isDigit) = true) entry mem
    rw [text]
    refine word?_other ?_ _ _
    cases head : entry.1.toList.head? with
    | none => simp [head] at letter
    | some d =>
      have differs : d ≠ c := by
        rintro rfl
        simp [head, digit] at letter
      simpa using differs
  · rw [text]
    obtain mem | mem := List.mem_append.1
      (show entry ∈ words.take 5 ++ [("-Infinity", .double (-infinity))] from mem)
    · exact word?_other ((by decide : ∀ entry ∈ words.take 5, entry.1.toList.head?.any (· != '-') = true)
        entry mem) _ _
    · rw [List.mem_singleton.1 mem]
      have differs : 'I' ≠ c := by
        rintro rfl
        exact absurd digit (by decide)
      exact if_neg (by simp [differs])

theorem readPlain_numeral {n : Numeral} {tail : List Char} (valid : n.Valid) (ends : EndsNumber tail)
    (offset : Nat) :
    readPlain ⟨offset, n.text ++ tail⟩ = .ok (n.value, ⟨offset + n.text.length, tail⟩) := by
  simp only [readPlain, findSome?_words_numeral valid, number?_text valid ends]
  rw [skip_append]

/-- The texts of doubles: finite ones have digits, the others have names. -/
theorem doubleText_cases (x : Float) :
    FiniteBits x.toBits ∨ x = notANumber ∧ doubleText .json x = "NaN" ∨
      x = infinity ∧ doubleText .json x = "Infinity" ∨
      x = -infinity ∧ doubleText .json x = "-Infinity" := by
  by_cases finite : FiniteBits x.toBits
  · exact .inl finite
  · have special : (x.isNaN || x.isInf) = true := by
      rw [finiteBits_iff, Bool.not_eq_false] at finite
      exact finite
    refine .inr ?_
    unfold doubleText layoutDouble
    cases nan : x.isNaN with
    | true => exact .inl ⟨eq_notANumber nan, rfl⟩
    | false =>
      rw [nan, Bool.false_or] at special
      simp only [special, Bool.false_eq_true, if_false, if_true]
      by_cases positive : x.toBits.toNat < 2 ^ 63
      · exact .inr (.inl ⟨eq_infinity special positive, by rw [if_pos (by simpa using positive)]; rfl⟩)
      · exact .inr (.inr ⟨eq_neg_infinity special (by omega), by
          rw [if_neg (by simpa using positive)]; rfl⟩)

theorem readPlain_double (x : Float) {tail : List Char} (ends : EndsNumber tail) (offset : Nat) :
    readPlain ⟨offset, (doubleText .json x).toList ++ tail⟩ =
      .ok (.double x, ⟨offset + (doubleText .json x).toList.length, tail⟩) := by
  obtain finite | ⟨same, text⟩ | ⟨same, text⟩ | ⟨same, text⟩ := doubleText_cases x
  · obtain ⟨valid, value⟩ := Numeral.ofDouble_valid finite
    rw [← Numeral.ofDouble_text finite, readPlain_numeral valid ends, value]
  · rw [text, same]
    exact readPlain_word (words.take 3) (words.drop 4) 'N' rfl (by decide) (by decide) tail offset
  · rw [text, same]
    exact readPlain_word (words.take 4) (words.drop 5) 'I' rfl (by decide) (by decide) tail offset
  · rw [text, same]
    exact readPlain_word (words.take 5) [] '-' rfl (by decide) (by decide) tail offset

/-! ### How values begin and how they are separated -/

/-- Whether a text begins like a value: no blank, no end of a container and no byte order mark. -/
def StartsValue (text : List Char) : Prop :=
  ∃ c rest, text = c :: rest ∧ Cursor.isBlank c = false ∧ c ∉ [']', '\x7d', '\uFEFF']

/-- Whether a text begins like a word or a number. -/
def StartsPlain (text : List Char) : Prop :=
  ∃ c rest, text = c :: rest ∧ Cursor.isBlank c = false ∧ c ∉ ['"', '\x7b', '[', '\x7d', ']', '\uFEFF']

theorem StartsPlain.startsValue {text : List Char} (starts : StartsPlain text) : StartsValue text := by
  obtain ⟨c, rest, same, blank, others⟩ := starts
  refine ⟨c, rest, same, blank, fun mem => others ?_⟩
  simp only [List.mem_cons, List.not_mem_nil, or_false] at mem ⊢
  tauto

theorem StartsPlain.append {text : List Char} (starts : StartsPlain text) (rest : List Char) :
    StartsPlain (text ++ rest) := by
  obtain ⟨c, others, rfl, starts⟩ := starts
  exact ⟨c, others ++ rest, rfl, starts⟩

theorem StartsValue.append {text : List Char} (starts : StartsValue text) (rest : List Char) :
    StartsValue (text ++ rest) := by
  obtain ⟨c, others, rfl, starts⟩ := starts
  exact ⟨c, others ++ rest, rfl, starts⟩

theorem StartsValue.noBlank {text : List Char} (starts : StartsValue text) : NoBlank text := by
  obtain ⟨c, others, rfl, blank, -⟩ := starts
  rintro d after same
  cases same
  exact blank

theorem isBlank_of_digit {c : Char} (digit : c.isDigit = true) :
    Cursor.isBlank c = false ∧ c ∉ ['"', '\x7b', '[', '\x7d', ']', '\uFEFF'] := by
  have differs (d : Char) (other : d.isDigit = false) : c ≠ d := by
    rintro rfl
    rw [digit] at other
    cases other
  refine ⟨?_, ?_⟩
  · simp only [Cursor.isBlank, Bool.or_eq_false_iff, beq_eq_false_iff_ne]
    exact ⟨⟨⟨differs _ rfl, differs _ rfl⟩, differs _ rfl⟩, differs _ rfl⟩
  · simp only [List.mem_cons, List.not_mem_nil, or_false, not_or]
    exact ⟨differs _ rfl, differs _ rfl, differs _ rfl, differs _ rfl, differs _ rfl, differs _ rfl⟩

theorem Numeral.startsPlain {n : Numeral} (valid : n.Valid) : StartsPlain n.text := by
  obtain ⟨c, rest, digit, text | text⟩ := text_start valid
  · exact ⟨c, rest, text, isBlank_of_digit digit⟩
  · exact ⟨'-', c :: rest, text, rfl, by decide⟩

theorem startsPlain_doubleText (x : Float) : StartsPlain (doubleText .json x).toList := by
  obtain finite | ⟨-, text⟩ | ⟨-, text⟩ | ⟨-, text⟩ := doubleText_cases x
  · rw [← Numeral.ofDouble_text finite]
    exact Numeral.startsPlain (Numeral.ofDouble_valid finite).1
  · exact ⟨'N', ['a', 'N'], by rw [text]; rfl, rfl, by decide⟩
  · exact ⟨'I', ['n', 'f', 'i', 'n', 'i', 't', 'y'], by rw [text]; rfl, rfl, by decide⟩
  · exact ⟨'-', ['I', 'n', 'f', 'i', 'n', 'i', 't', 'y'], by rw [text]; rfl, rfl, by decide⟩

theorem toList_quote (text : String) :
    (quote text).toList = '"' :: (text.toList.flatMap escapeChar ++ ['"']) := by
  simp [quote]

/-- The items of an array with what stands between them. -/
def itemsText (indent : Option Nat) (level : Nat) (s : Spacing) (items : List Json) : List Char :=
  (s.between.intercalate (renderItems indent level items)).toList

/-- The fields of an object with what stands between them. -/
def fieldsText (indent : Option Nat) (level : Nat) (s : Spacing) (fields : List (String × Json)) :
    List Char :=
  (s.between.intercalate (renderFields indent level s.afterColon fields)).toList

theorem toList_render_array (indent : Option Nat) (level : Nat) {items : List Json}
    (some_ : items ≠ []) :
    (renderAt indent level (array items)).toList =
      '[' :: ((spacing indent level).first.toList ++
        (itemsText indent (level + 1) (spacing indent level) items ++
          ((spacing indent level).last.toList ++ [']']))) := by
  rw [renderAt]
  · simp [itemsText]
  · exact some_

theorem toList_render_object (indent : Option Nat) (level : Nat) {fields : List (String × Json)}
    (some_ : fields ≠ []) :
    (renderAt indent level (object fields)).toList =
      '\x7b' :: ((spacing indent level).first.toList ++
        (fieldsText indent (level + 1) (spacing indent level) fields ++
          ((spacing indent level).last.toList ++ ['\x7d']))) := by
  rw [renderAt]
  · simp [fieldsText]
  · exact some_

theorem startsValue_render (indent : Option Nat) (level : Nat) (v : Json) :
    StartsValue (renderAt indent level v).toList := by
  cases v with
  | null => exact ⟨'n', ['u', 'l', 'l'], by rw [renderAt]; rfl, rfl, by decide⟩
  | bool b =>
    cases b with
    | true => exact ⟨'t', ['r', 'u', 'e'], by rw [renderAt]; rfl, rfl, by decide⟩
    | false => exact ⟨'f', ['a', 'l', 's', 'e'], by rw [renderAt]; rfl, rfl, by decide⟩
  | int n =>
    rw [renderAt, ← Numeral.ofInt_text]
    exact (Numeral.startsPlain (Numeral.ofInt_valid n)).startsValue
  | double x =>
    rw [renderAt]
    exact (startsPlain_doubleText x).startsValue
  | string text => exact ⟨'"', _, by rw [renderAt, toList_quote], rfl, by decide⟩
  | array items =>
    cases items with
    | nil => exact ⟨'[', [']'], by rw [renderAt]; rfl, rfl, by decide⟩
    | cons item items => exact ⟨'[', _, toList_render_array _ _ (by simp), rfl, by decide⟩
  | object fields =>
    cases fields with
    | nil => exact ⟨'\x7b', ['\x7d'], by rw [renderAt]; rfl, rfl, by decide⟩
    | cons field fields =>
      exact ⟨'\x7b', _, toList_render_object _ _ (by simp), rfl, by decide⟩

/-- Only blanks stand between the items of a container besides the comma and the colon. -/
structure Spacing.Blank (s : Spacing) : Prop where
  first : ∀ c ∈ s.first.toList, Cursor.isBlank c
  between : ∃ blanks, s.between.toList = ',' :: blanks ∧ ∀ c ∈ blanks, Cursor.isBlank c
  last : ∀ c ∈ s.last.toList, Cursor.isBlank c
  afterColon : s.afterColon = ": "

theorem spacing_blank (indent : Option Nat) (level : Nat) : (spacing indent level).Blank := by
  cases indent with
  | none => exact ⟨by simp [spacing], ⟨[' '], by simp [spacing], by simp [Cursor.isBlank]⟩,
      by simp [spacing], rfl⟩
  | some width =>
    have line (level : Nat) :
        ∀ c ∈ ("\n" ++ String.ofList (List.replicate (width * level) ' ')).toList, Cursor.isBlank c := by
      intro c mem
      rw [String.toList_append] at mem
      obtain mem | mem := List.mem_append.1 mem
      · rw [List.mem_singleton.1 mem]
        rfl
      · rw [String.toList_ofList] at mem
        rw [List.eq_of_mem_replicate mem]
        rfl
    exact ⟨line _, ⟨_, by simp only [spacing, String.toList_append]; rfl, line (level + 1)⟩, line _, rfl⟩

theorem endsNumber_blanks {blanks : List Char} (all : ∀ c ∈ blanks, Cursor.isBlank c) {c : Char}
    (ends : EndsNumber [c]) (rest : List Char) : EndsNumber (blanks ++ c :: rest) := by
  cases blanks with
  | nil => exact ends
  | cons b blanks =>
    have blank := all b List.mem_cons_self
    simp only [Cursor.isBlank, Bool.or_eq_true, beq_iff_eq] at blank
    obtain ((rfl | rfl) | rfl) | rfl := blank <;> exact ⟨by decide, by decide, by decide, by decide⟩

/-! ### Reading a value back -/

theorem ok_at {value : α} {m n : Nat} {rest : List Char} (same : m = n) :
    (.ok (value, ⟨m, rest⟩) : Except Mistake (α × Cursor)) = .ok (value, ⟨n, rest⟩) := by
  rw [same]

theorem readValue_plain {text : List Char} (starts : StartsPlain text) (fuel offset : Nat) :
    readValue (fuel + 1) ⟨offset, text⟩ = readPlain ⟨offset, text⟩ := by
  -- the first character is neither a quote nor a bracket
  obtain ⟨c, rest, rfl, -, others⟩ := starts
  simp only [List.mem_cons, List.not_mem_nil, or_false, not_or] at others
  rw [readValue]
  split
  next same => exact absurd (List.cons.inj same).1 others.1
  next same => exact absurd (List.cons.inj same).1 others.2.1
  next same => exact absurd (List.cons.inj same).1 others.2.2.1
  next => rfl

theorem itemsText_cons (indent : Option Nat) (level : Nat) (s : Spacing) (item : Json)
    {items : List Json} (more : items ≠ []) :
    itemsText indent level s (item :: items) =
      (renderAt indent level item).toList ++ (s.between.toList ++ itemsText indent level s items) := by
  have rendered : renderItems indent level items ≠ [] := by
    cases items with
    | nil => exact absurd rfl more
    | cons => simp [renderItems]
  rw [itemsText, renderItems, String.intercalate_cons_of_ne_nil rendered]
  simp [itemsText]

theorem itemsText_singleton (indent : Option Nat) (level : Nat) (s : Spacing) (item : Json) :
    itemsText indent level s [item] = (renderAt indent level item).toList := by
  rw [itemsText, renderItems, renderItems, String.intercalate_singleton]

theorem startsValue_itemsText (indent : Option Nat) (level : Nat) (s : Spacing) {items : List Json}
    (some_ : items ≠ []) : StartsValue (itemsText indent level s items) := by
  obtain ⟨item, items, rfl⟩ := List.exists_cons_of_ne_nil some_
  obtain ⟨c, rest, text, starts⟩ := startsValue_render indent level item
  by_cases more : items = []
  · subst more
    exact ⟨c, rest, by rw [itemsText_singleton, text], starts⟩
  · exact ⟨c, _, by rw [itemsText_cons _ _ _ _ more, text, List.cons_append], starts⟩

theorem fieldsText_cons (indent : Option Nat) (level : Nat) (s : Spacing) (key : String) (v : Json)
    {fields : List (String × Json)} (more : fields ≠ []) :
    fieldsText indent level s ((key, v) :: fields) =
      (quote key).toList ++ (s.afterColon.toList ++ ((renderAt indent level v).toList ++
        (s.between.toList ++ fieldsText indent level s fields))) := by
  have rendered : renderFields indent level s.afterColon fields ≠ [] := by
    cases fields with
    | nil => exact absurd rfl more
    | cons => simp [renderFields]
  rw [fieldsText, renderFields, String.intercalate_cons_of_ne_nil rendered]
  simp [fieldsText]

theorem fieldsText_singleton (indent : Option Nat) (level : Nat) (s : Spacing) (key : String) (v : Json) :
    fieldsText indent level s [(key, v)] =
      (quote key).toList ++ (s.afterColon.toList ++ (renderAt indent level v).toList) := by
  rw [fieldsText, renderFields, renderFields, String.intercalate_singleton]
  simp

theorem fieldsText_start (indent : Option Nat) (level : Nat) (s : Spacing) {fields : List (String × Json)}
    (some_ : fields ≠ []) : ∃ rest, fieldsText indent level s fields = '"' :: rest := by
  obtain ⟨⟨key, v⟩, fields, rfl⟩ := List.exists_cons_of_ne_nil some_
  by_cases more : fields = []
  · subst more
    exact ⟨_, by rw [fieldsText_singleton, toList_quote, List.cons_append]⟩
  · exact ⟨_, by rw [fieldsText_cons _ _ _ _ _ more, toList_quote, List.cons_append]⟩

section

variable {fuel offset next : Nat} {c c' : Cursor} {blanks rest : List Char}

/-! One step of each reader. -/

theorem readValue_array (all : ∀ c ∈ blanks, Cursor.isBlank c) (starts : StartsValue rest)
    {items : List Json}
    (read : readItems fuel ⟨offset + 1 + blanks.length, rest⟩ = .ok (items, c')) :
    readValue (fuel + 1) ⟨offset, '[' :: (blanks ++ rest)⟩ = .ok (.array items, c') := by
  obtain ⟨c, after, rfl, blank, others⟩ := starts
  have skipped : (skip ⟨offset, '[' :: (blanks ++ c :: after)⟩ 1).skipBlanks =
      ⟨offset + 1 + blanks.length, c :: after⟩ :=
    skipBlanks_append _ all fun _ _ same => by cases same; exact blank
  rw [readValue]
  simp only [skipped]
  split
  next same => exact absurd (List.cons.inj same).1 fun close => others (by simp [close])
  next => rw [read]; rfl

theorem readItems_last (all : ∀ c ∈ blanks, Cursor.isBlank c) {item : Json}
    (read : readValue fuel c = .ok (item, ⟨offset, blanks ++ ']' :: rest⟩)) :
    readItems (fuel + 1) c = .ok ([item], ⟨offset + blanks.length + 1, rest⟩) := by
  have skipped : skipBlanks ⟨offset, blanks ++ ']' :: rest⟩ = ⟨offset + blanks.length, ']' :: rest⟩ :=
    skipBlanks_append _ all fun _ _ same => by cases same; rfl
  rw [readItems, read]
  simp only [bind, Except.bind, skipped]
  rfl

theorem readItems_next (all : ∀ c ∈ blanks, Cursor.isBlank c) (starts : StartsValue rest)
    {item : Json}
    {items : List Json} (read : readValue fuel c = .ok (item, ⟨offset, ',' :: (blanks ++ rest)⟩))
    (others : readItems fuel ⟨offset + 1 + blanks.length, rest⟩ = .ok (items, c')) :
    readItems (fuel + 1) c = .ok (item :: items, c') := by
  have comma : skipBlanks ⟨offset, ',' :: (blanks ++ rest)⟩ = ⟨offset, ',' :: (blanks ++ rest)⟩ :=
    skipBlanks_cons rfl
  have skipped : (skip ⟨offset, ',' :: (blanks ++ rest)⟩ 1).skipBlanks =
      ⟨offset + 1 + blanks.length, rest⟩ :=
    skipBlanks_append _ all starts.noBlank
  rw [readItems, read]
  simp only [bind, Except.bind, comma, skipped, others]
  rfl

theorem readValue_object (all : ∀ c ∈ blanks, Cursor.isBlank c) {fields : List (String × Json)}
    (read : readFields fuel ⟨offset + 1 + blanks.length, '"' :: rest⟩ = .ok (fields, c')) :
    readValue (fuel + 1) ⟨offset, '\x7b' :: (blanks ++ '"' :: rest)⟩ =
      .ok (.object (Fields.ofPairs fields), c') := by
  have skipped : (skip ⟨offset, '\x7b' :: (blanks ++ '"' :: rest)⟩ 1).skipBlanks =
      ⟨offset + 1 + blanks.length, '"' :: rest⟩ :=
    skipBlanks_append _ all fun _ _ same => by cases same; rfl
  rw [readValue]
  simp only [skipped]
  rw [read]
  rfl

/-- A key and its colon are read before the value. -/
theorem readFields_key (key : String) (starts : StartsValue rest) :
    readFields (fuel + 1) ⟨offset, (quote key).toList ++ (':' :: ' ' :: rest)⟩ =
      (do
        let (value, c) ← readValue fuel ⟨offset + (quote key).toList.length + 2, rest⟩
        let c := c.skipBlanks
        match c.rest with
        | '\x7d' :: _ => return ([(key, value)], c.skip 1)
        | ',' :: _ => do
          let (fields, c) ← readFields fuel (c.skip 1).skipBlanks
          return ((key, value) :: fields, c)
        | _ => c.fail .expectingComma) := by
  have name := readString_quote offset key.toList (':' :: ' ' :: rest) (offset + 1) []
  have skipped (o : Nat) : (skip ⟨o, ':' :: ' ' :: rest⟩ 1).skipBlanks = ⟨o + 2, rest⟩ :=
    skipBlanks_append [' '] (by simp [Cursor.isBlank]) starts.noBlank
  have colon (o : Nat) : skipBlanks ⟨o, ':' :: ' ' :: rest⟩ = ⟨o, ':' :: ' ' :: rest⟩ :=
    skipBlanks_cons rfl
  have length : offset + 1 + (key.toList.flatMap escapeChar).length + 1 =
      offset + (quote key).toList.length := by
    simp [toList_quote]
    omega
  have text : (quote key).toList ++ (':' :: ' ' :: rest) =
      '"' :: (key.toList.flatMap escapeChar ++ '"' :: ':' :: ' ' :: rest) := by
    simp [toList_quote]
  rw [text, readFields]
  conv_lhs => simp only [name, length, bind, Except.bind, colon, skipped, List.reverse_nil,
    List.nil_append, String.ofList_toList]
  rfl

theorem readFields_last (all : ∀ c ∈ blanks, Cursor.isBlank c) {key : String} {value : Json}
    {text : List Char} (starts : StartsValue text)
    (read : readValue fuel ⟨offset + (quote key).toList.length + 2, text⟩ =
      .ok (value, ⟨next, blanks ++ '\x7d' :: rest⟩)) :
    readFields (fuel + 1) ⟨offset, (quote key).toList ++ (':' :: ' ' :: text)⟩ =
      .ok ([(key, value)], ⟨next + blanks.length + 1, rest⟩) := by
  have skipped : skipBlanks ⟨next, blanks ++ '\x7d' :: rest⟩ =
      ⟨next + blanks.length, '\x7d' :: rest⟩ :=
    skipBlanks_append _ all fun _ _ same => by cases same; rfl
  rw [readFields_key key starts, read]
  simp only [bind, Except.bind, skipped]
  rfl

theorem readFields_next (all : ∀ c ∈ blanks, Cursor.isBlank c) {key : String} {value : Json}
    {text : List Char} (starts : StartsValue text)
    (read : readValue fuel ⟨offset + (quote key).toList.length + 2, text⟩ =
      .ok (value, ⟨next, ',' :: (blanks ++ '"' :: rest)⟩)) {fields : List (String × Json)}
    (others : readFields fuel ⟨next + 1 + blanks.length, '"' :: rest⟩ = .ok (fields, c')) :
    readFields (fuel + 1) ⟨offset, (quote key).toList ++ (':' :: ' ' :: text)⟩ =
      .ok ((key, value) :: fields, c') := by
  have comma : skipBlanks ⟨next, ',' :: (blanks ++ '"' :: rest)⟩ =
      ⟨next, ',' :: (blanks ++ '"' :: rest)⟩ := skipBlanks_cons rfl
  have skipped : (skip ⟨next, ',' :: (blanks ++ '"' :: rest)⟩ 1).skipBlanks =
      ⟨next + 1 + blanks.length, '"' :: rest⟩ :=
    skipBlanks_append _ all fun _ _ same => by cases same; rfl
  rw [readFields_key key starts, read]
  simp only [bind, Except.bind, comma, skipped, others]
  rfl

end

mutual

/-- A value is read back from its text, in the midst of a longer one. -/
theorem readValue_render (indent : Option Nat) (level : Nat) (v : Json) (distinct : v.DistinctKeys)
    {tail : List Char} (ends : EndsNumber tail) (offset fuel : Nat)
    (enough : 2 * (renderAt indent level v).toList.length ≤ fuel) :
    readValue fuel ⟨offset, (renderAt indent level v).toList ++ tail⟩ =
      .ok (v, ⟨offset + (renderAt indent level v).toList.length, tail⟩) := by
  -- no value has an empty text, so there is fuel for the first step
  obtain ⟨fuel, rfl⟩ : ∃ rest, fuel = rest + 1 := by
    obtain ⟨c, rest, text, -⟩ := startsValue_render indent level v
    rw [text, List.length_cons] at enough
    exact ⟨fuel - 1, by omega⟩
  cases v with
  | null =>
    have starts : StartsPlain "null".toList := ⟨'n', ['u', 'l', 'l'], rfl, rfl, by decide⟩
    rw [renderAt, readValue_plain (starts.append tail)]
    exact readPlain_word [] (words.drop 1) 'n' rfl (by decide) (by decide) tail offset
  | bool b =>
    cases b with
    | true =>
      have starts : StartsPlain "true".toList := ⟨'t', ['r', 'u', 'e'], rfl, rfl, by decide⟩
      rw [renderAt, readValue_plain (starts.append tail)]
      exact readPlain_word (words.take 1) (words.drop 2) 't' rfl (by decide) (by decide) tail offset
    | false =>
      have starts : StartsPlain "false".toList := ⟨'f', ['a', 'l', 's', 'e'], rfl, rfl, by decide⟩
      rw [renderAt, readValue_plain (starts.append tail)]
      exact readPlain_word (words.take 2) (words.drop 3) 'f' rfl (by decide) (by decide) tail offset
  | int n =>
    have valid := Numeral.ofInt_valid n
    rw [renderAt, ← Numeral.ofInt_text, readValue_plain ((Numeral.startsPlain valid).append tail),
      readPlain_numeral valid ends, Numeral.ofInt_value]
  | double x =>
    rw [renderAt, readValue_plain ((startsPlain_doubleText x).append tail), readPlain_double x ends]
  | string text =>
    have read := readString_quote offset text.toList tail (offset + 1) []
    have split : (quote text).toList ++ tail =
        '"' :: (text.toList.flatMap escapeChar ++ '"' :: tail) := by
      simp [toList_quote]
    rw [renderAt, split, readValue]
    simp only [read, bind, Except.bind]
    simp [toList_quote, pure, Except.pure]
    omega
  | array items =>
    cases items with
    | nil =>
      rw [renderAt, readValue]
      rfl
    | cons item items =>
      rw [DistinctKeys] at distinct
      have blank := spacing_blank indent level
      have text := toList_render_array indent level (List.cons_ne_nil item items)
      have length := congrArg List.length text
      simp only [List.length_cons, List.length_append, List.length_nil] at length
      -- the bracket, the blanks after it, the items, and the blanks before the other bracket
      have shape : (renderAt indent level (array (item :: items))).toList ++ tail =
          '[' :: ((spacing indent level).first.toList ++
            (itemsText indent (level + 1) (spacing indent level) (item :: items) ++
              ((spacing indent level).last.toList ++ ']' :: tail))) := by
        simp [text]
      rw [shape, readValue_array blank.first ((startsValue_itemsText _ _ _ (by simp)).append _)
        (readItems_render indent (level + 1) blank (item :: items) (by simp) distinct tail _ _ (by omega))]
      exact ok_at (by omega)
  | object fields =>
    cases fields with
    | nil =>
      rw [renderAt, readValue]
      rfl
    | cons field fields =>
      rw [DistinctKeys] at distinct
      have blank := spacing_blank indent level
      have text := toList_render_object indent level (List.cons_ne_nil field fields)
      have length := congrArg List.length text
      simp only [List.length_cons, List.length_append, List.length_nil] at length
      -- the reader looks for the quote of the first key before it goes on to the fields
      obtain ⟨rest, start⟩ := fieldsText_start indent (level + 1) (spacing indent level)
        (List.cons_ne_nil field fields)
      have read := readFields_render indent (level + 1) blank (field :: fields) (by simp) distinct.2 tail
        (offset + 1 + (spacing indent level).first.toList.length) fuel (by omega)
      have shape : (renderAt indent level (object (field :: fields))).toList ++ tail =
          '\x7b' :: ((spacing indent level).first.toList ++
            '"' :: (rest ++ ((spacing indent level).last.toList ++ '\x7d' :: tail))) := by
        simp [text, start]
      rw [start, List.cons_append] at read
      -- no key is there twice, so no field replaces another
      rw [shape, readValue_object blank.first read, Fields.ofPairs_eq distinct.1]
      exact ok_at (by rw [length, start, List.length_cons]; omega)

theorem readItems_render (indent : Option Nat) (level : Nat) {s : Spacing} (blank : s.Blank)
    (items : List Json) (some_ : items ≠ []) (distinct : ItemsDistinct items) (tail : List Char)
    (offset fuel : Nat) (enough : 2 * (itemsText indent level s items).length + 1 ≤ fuel) :
    readItems fuel ⟨offset, itemsText indent level s items ++ (s.last.toList ++ ']' :: tail)⟩ =
      .ok (items, ⟨offset + (itemsText indent level s items).length + s.last.toList.length + 1, tail⟩) := by
  obtain ⟨fuel, rfl⟩ : ∃ rest, fuel = rest + 1 := ⟨fuel - 1, by omega⟩
  cases items with
  | nil => exact absurd rfl some_
  | cons item items =>
  cases items with
  | nil =>
    rw [ItemsDistinct] at distinct
    rw [itemsText_singleton] at enough ⊢
    exact readItems_last blank.last (readValue_render indent level item distinct.1
      (endsNumber_blanks blank.last ⟨rfl, by decide, by decide, by decide⟩ tail) offset _ (by omega))
  | cons next items =>
    rw [ItemsDistinct] at distinct
    -- a comma ends a number, so the item may be a number and is read back all the same
    obtain ⟨blanks, between, all⟩ := blank.between
    have text := itemsText_cons indent level s item (List.cons_ne_nil next items)
    rw [between] at text
    have length := congrArg List.length text
    simp only [List.length_append, List.length_cons] at length
    have starts := (startsValue_itemsText indent level s
      (List.cons_ne_nil next items)).append (s.last.toList ++ ']' :: tail)
    have ends : EndsNumber (',' :: (blanks ++
        (itemsText indent level s (next :: items) ++ (s.last.toList ++ ']' :: tail)))) :=
      ⟨rfl, by decide, by decide, by decide⟩
    have others := readItems_render indent level blank (next :: items) (by simp) distinct.2 tail
      (offset + (renderAt indent level item).toList.length + 1 + blanks.length) fuel (by omega)
    have shape : itemsText indent level s (item :: next :: items) ++ (s.last.toList ++ ']' :: tail) =
        (renderAt indent level item).toList ++ ',' :: (blanks ++
          (itemsText indent level s (next :: items) ++ (s.last.toList ++ ']' :: tail))) := by
      simp [text]
    rw [shape, readItems_next all starts
      (readValue_render indent level item distinct.1 ends offset _ (by omega)) others]
    exact ok_at (by omega)

theorem readFields_render (indent : Option Nat) (level : Nat) {s : Spacing} (blank : s.Blank)
    (fields : List (String × Json)) (some_ : fields ≠ []) (distinct : FieldsDistinct fields)
    (tail : List Char) (offset fuel : Nat)
    (enough : 2 * (fieldsText indent level s fields).length + 1 ≤ fuel) :
    readFields fuel ⟨offset, fieldsText indent level s fields ++ (s.last.toList ++ '\x7d' :: tail)⟩ =
      .ok (fields, ⟨offset + (fieldsText indent level s fields).length + s.last.toList.length + 1, tail⟩) := by
  obtain ⟨fuel, rfl⟩ : ∃ rest, fuel = rest + 1 := ⟨fuel - 1, by omega⟩
  cases fields with
  | nil => exact absurd rfl some_
  | cons field fields =>
  obtain ⟨key, v⟩ := field
  cases fields with
  | nil =>
    rw [FieldsDistinct] at distinct
    have text := fieldsText_singleton indent level s key v
    rw [blank.afterColon] at text
    -- the colon and the one blank after it count for the fuel
    have length := congrArg List.length text
    have colon : ": ".toList.length = 2 := by simp
    simp only [List.length_append, colon] at length
    have starts := (startsValue_render indent level v).append (s.last.toList ++ '\x7d' :: tail)
    have shape : fieldsText indent level s [(key, v)] ++ (s.last.toList ++ '\x7d' :: tail) =
        (quote key).toList ++ (':' :: ' ' ::
          ((renderAt indent level v).toList ++ (s.last.toList ++ '\x7d' :: tail))) := by
      simp [text]
    rw [shape, readFields_last blank.last starts (readValue_render indent level v distinct.1
      (endsNumber_blanks blank.last ⟨rfl, by decide, by decide, by decide⟩ tail) _ _ (by omega))]
    exact ok_at (by omega)
  | cons field fields =>
    rw [FieldsDistinct] at distinct
    obtain ⟨blanks, between, all⟩ := blank.between
    have text := fieldsText_cons indent level s key v (List.cons_ne_nil field fields)
    rw [between, blank.afterColon] at text
    have length := congrArg List.length text
    have colon : ": ".toList.length = 2 := by simp
    simp only [List.length_append, List.length_cons, colon] at length
    obtain ⟨rest, start⟩ := fieldsText_start indent level s (List.cons_ne_nil field fields)
    -- the fields after this one are shorter by at least the key, which pays for the steps in between
    have others := readFields_render indent level blank (field :: fields) (by simp) distinct.2 tail
      (offset + (quote key).toList.length + 2 + (renderAt indent level v).toList.length + 1 + blanks.length)
      fuel (by omega)
    rw [start, List.cons_append] at others
    have starts := (startsValue_render indent level v).append
      (',' :: (blanks ++ '"' :: (rest ++ (s.last.toList ++ '\x7d' :: tail))))
    have ends : EndsNumber (',' :: (blanks ++ '"' :: (rest ++ (s.last.toList ++ '\x7d' :: tail)))) :=
      ⟨rfl, by decide, by decide, by decide⟩
    have shape : fieldsText indent level s ((key, v) :: field :: fields) ++
        (s.last.toList ++ '\x7d' :: tail) =
        (quote key).toList ++ (':' :: ' ' :: ((renderAt indent level v).toList ++
          ',' :: (blanks ++ '"' :: (rest ++ (s.last.toList ++ '\x7d' :: tail))))) := by
      simp [text, start]
    rw [shape, readFields_next all starts
      (readValue_render indent level v distinct.1 ends _ _ (by omega)) others]
    exact ok_at (by rw [length, start, List.length_cons]; omega)

end

/-- A value is read back from its text, on one line or with an indent. -/
theorem parse_render (indent : Option Nat) {v : Json} (distinct : v.DistinctKeys) :
    parse (v.render indent) = .ok v := by
  have starts := startsValue_render indent 0 v
  have ends : EndsNumber [] := trivial
  have read := readValue_render indent 0 v distinct ends 0
    (2 * (renderAt indent 0 v).toList.length + 2) (by omega)
  have blanks : skipBlanks ⟨0, (renderAt indent 0 v).toList⟩ = ⟨0, (renderAt indent 0 v).toList⟩ :=
    skipBlanks_append [] (by simp) starts.noBlank
  -- a text that was written does not start with a byte order mark
  have noMark : (renderAt indent 0 v).toList.head? ≠ some '\uFEFF' := by
    obtain ⟨c, rest, text, -, others⟩ := starts
    rw [text, List.head?_cons]
    rintro ⟨rfl⟩
    exact others (by decide)
  rw [List.append_nil] at read
  unfold parse render
  rw [if_neg (by simpa using noMark), Json.read, blanks, read]
  rfl

end Json

end Flowchart
