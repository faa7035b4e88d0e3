import Flowchart.Proofs.Json.RoundTrip
import Flowchart.Proofs.Results

/-!
# Reading in a longer text

* `Cursor.extend`: a cursor whose text goes on.
* `Stopped`: a text holds a character that ends every number and every word.
* `readString_extend`, `readPlain_extend`: a string, a word or a number is read in the same way from a longer
  text. A number or a word at the very end could go on, and so something must stop it.
* `readers_goesOn`: so are values, items and fields. An object ends with its brace and needs nothing after it.
* `read_append`: an object that is a whole text is none with more text after it.
-/

namespace Flowchart

namespace Json

namespace Cursor

/-- The cursor in a text that goes on. -/
def extend (c : Cursor) (more : List Char) : Cursor := ⟨c.offset, c.rest ++ more⟩

@[simp]
theorem extend_offset (c : Cursor) (more : List Char) : (c.extend more).offset = c.offset := rfl

theorem skip_suffix (c : Cursor) (count : Nat) : (c.skip count).rest <:+ c.rest := List.drop_suffix _ _

theorem skip_extend {c : Cursor} {count : Nat} (bound : count ≤ c.rest.length) (more : List Char) :
    (c.extend more).skip count = (c.skip count).extend more := by
  simp [skip, extend, List.drop_append_of_le_length bound]

/-- A character that comes after the values in an array or an object. No number and no word goes on with it. -/
def isStop (d : Char) : Bool := d == ',' || d == ']' || d == '}'

def Stopped (text : List Char) : Prop := ∃ d ∈ text, isStop d = true

theorem Stopped.mono {text longer : List Char} (stopped : Stopped text) (sub : text ⊆ longer) : Stopped longer :=
  let ⟨d, member, stop⟩ := stopped
  ⟨d, sub member, stop⟩

end Cursor

open Cursor

/-- A prefix of a text is taken as it is from a longer one if something in the text ends it. -/
theorem takeWhile_append_of_mem {p : α → Bool} {d : α} {l : List α} (member : d ∈ l) (ends : p d = false)
    (more : List α) : (l ++ more).takeWhile p = l.takeWhile p := by
  induction l with
  | nil => cases member
  | cons a l ih =>
    rw [List.cons_append, List.takeWhile_cons, List.takeWhile_cons]
    cases taken : p a with
    | false => rfl
    | true =>
      have later : d ∈ l := (List.mem_cons.1 member).resolve_left fun same => by
        rw [same, taken] at ends
        cases ends
      simp only [if_true, ih later]

theorem mem_drop_takeWhile {p : α → Bool} {d : α} {l : List α} (member : d ∈ l) (ends : p d = false) :
    d ∈ l.drop (l.takeWhile p).length := by
  induction l with
  | nil => cases member
  | cons a l ih =>
    rw [List.takeWhile_cons]
    cases taken : p a with
    | false => simpa using member
    | true =>
      have later : d ∈ l := (List.mem_cons.1 member).resolve_left fun same => by
        rw [same, taken] at ends
        cases ends
      simpa using ih later

theorem drop_append_of_mem {d : α} {l : List α} {n : Nat} (member : d ∈ l.drop n) (more : List α) :
    (l ++ more).drop n = l.drop n ++ more := by
  have dropped := List.length_pos_of_mem member
  rw [List.length_drop] at dropped
  exact List.drop_append_of_le_length (by omega)

/-! ### Blanks -/

theorem Cursor.skipBlanks_suffix (c : Cursor) : c.skipBlanks.rest <:+ c.rest := c.skip_suffix _

theorem Cursor.skipBlanks_extend {c : Cursor} (going : c.skipBlanks.rest ≠ []) (more : List Char) :
    (c.extend more).skipBlanks = c.skipBlanks.extend more := by
  obtain ⟨d, member, ends⟩ : ∃ d ∈ c.rest, isBlank d = false := by
    by_contra all
    have blank : ∀ d ∈ c.rest, isBlank d = true := fun d member => by
      by_contra other
      exact all ⟨d, member, eq_false_of_ne_true other⟩
    have taken : c.rest.takeWhile isBlank = c.rest := List.takeWhile_eq_self_iff.2 blank
    exact going (by simp [skipBlanks, taken, skip])
  have bound : (c.rest.takeWhile isBlank).length ≤ c.rest.length := (List.takeWhile_prefix _).length_le
  have same : (c.rest ++ more).takeWhile isBlank = c.rest.takeWhile isBlank :=
    takeWhile_append_of_mem member ends more
  rw [skipBlanks, show (c.extend more).rest = c.rest ++ more from rfl, same, skip_extend bound]
  rfl

/-! ### Numbers and words -/

/-- A character that no number goes on with. -/
def EndsEvery (d : Char) : Prop :=
  d.isDigit = false ∧ d ≠ '.' ∧ d ≠ 'e' ∧ d ≠ 'E' ∧ d ≠ '+' ∧ d ≠ '-'

namespace Numeral

variable {text : List Char} {d : Char}

/-- What is found at the start of a text that goes on after the character that ends it, part by part. -/
theorem scanWhole_append (member : d ∈ text) (ends : EndsEvery d) (more : List Char) :
    scanWhole (text ++ more) = scanWhole text ∧ d ∈ text.drop (scanWhole text).length := by
  cases text with
  | nil => cases member
  | cons c rest =>
    by_cases zero : c = '0'
    · subst zero
      refine ⟨rfl, ?_⟩
      have later := (List.mem_cons.1 member).resolve_left fun same => by
        rw [same] at ends
        exact absurd ends.1 (by decide)
      simpa [scanWhole] using later
    · have whole : ∀ others, scanWhole (c :: others) = (c :: others).takeWhile Char.isDigit := fun others => by
        rw [scanWhole]
        rintro _ same
        exact zero (List.cons.inj same).1
      rw [List.cons_append, whole, whole, ← List.cons_append]
      exact ⟨takeWhile_append_of_mem member ends.1 more, mem_drop_takeWhile member ends.1⟩

theorem scanPlaces_append (member : d ∈ text) (ends : EndsEvery d) (more : List Char) :
    scanPlaces (text ++ more) = scanPlaces text ∧
      d ∈ if (scanPlaces text).isEmpty then text else text.drop ((scanPlaces text).length + 1) := by
  cases text with
  | nil => cases member
  | cons c rest =>
    by_cases point : c = '.'
    · subst point
      have later := (List.mem_cons.1 member).resolve_left ends.2.1
      refine ⟨takeWhile_append_of_mem later ends.1 more, ?_⟩
      split
      · exact member
      · exact mem_drop_takeWhile later ends.1
    · have places : ∀ others, scanPlaces (c :: others) = [] := fun others => by
        rw [scanPlaces]
        rintro _ same
        exact point (List.cons.inj same).1
      rw [List.cons_append, places, places]
      exact ⟨rfl, member⟩

theorem scanPower_append (member : d ∈ text) (ends : EndsEvery d) (more : List Char) :
    scanPower (text ++ more) = scanPower text ∧
      d ∈ text.drop (if (scanPower text).2.isEmpty then 0
        else 1 + (scanPower text).1.length + (scanPower text).2.length) := by
  obtain ⟨digit, -, small, large, plus, minus⟩ := ends
  obtain ⟨mark, rest, rfl⟩ := List.exists_cons_of_ne_nil (List.ne_nil_of_mem member)
  by_cases isMark : (mark == 'e' || mark == 'E') = true
  · have later := (List.mem_cons.1 member).resolve_left fun same => by
      subst same
      simp [small, large] at isMark
    obtain ⟨c, digits, rfl⟩ := List.exists_cons_of_ne_nil (List.ne_nil_of_mem later)
    -- the sign, if there is one, stands between the mark and the digits
    obtain ⟨sign, digits', short, long, inside⟩ : ∃ sign digits', scanPower (mark :: c :: digits) =
        (sign, digits'.takeWhile Char.isDigit) ∧ (∀ more, scanPower (mark :: c :: (digits ++ more)) =
          (sign, (digits' ++ more).takeWhile Char.isDigit)) ∧ d ∈ digits' ∧ sign ++ digits' = c :: digits := by
      by_cases isPlus : c = '+'
      · subst isPlus
        exact ⟨['+'], digits, by simp [scanPower, isMark], fun more => by simp [scanPower, isMark],
          (List.mem_cons.1 later).resolve_left plus, rfl⟩
      by_cases isMinus : c = '-'
      · subst isMinus
        exact ⟨['-'], digits, by simp [scanPower, isMark], fun more => by simp [scanPower, isMark],
          (List.mem_cons.1 later).resolve_left minus, rfl⟩
      · exact ⟨[], c :: digits, by simp [scanPower, isMark, isPlus, isMinus], fun more => by
          simp [scanPower, isMark, isPlus, isMinus], later, rfl⟩
    obtain ⟨inside, split⟩ := inside
    refine ⟨by rw [List.cons_append, List.cons_append, long, short, takeWhile_append_of_mem inside digit], ?_⟩
    rw [short, ← split]
    by_cases none : (digits'.takeWhile Char.isDigit).isEmpty = true
    · rw [if_pos none]
      exact List.mem_cons_of_mem _ (List.mem_append_right _ inside)
    · rw [if_neg none, Nat.add_assoc, Nat.add_comm 1, List.drop_succ_cons, ← List.drop_drop, List.drop_left]
      exact mem_drop_takeWhile inside digit
  · simpa [scanPower, isMark] using member

/-- The number at the start of a text does not go on in a longer one, and ends before the character that no
number goes on with. -/
theorem scan_append (member : d ∈ text) (ends : EndsEvery d) (more : List Char) :
    scan (text ++ more) = scan text ∧ d ∈ text.drop (scan text).size := by
  obtain ⟨c, rest, rfl⟩ := List.exists_cons_of_ne_nil (List.ne_nil_of_mem member)
  obtain ⟨unsigned, inside, short, long, cut⟩ : ∃ unsigned, d ∈ unsigned ∧
      (if ((c :: rest).head? == some '-') = true then (c :: rest).drop 1 else c :: rest) = unsigned ∧
      (if ((c :: rest ++ more).head? == some '-') = true then (c :: rest ++ more).drop 1 else c :: rest ++ more) =
        unsigned ++ more ∧
      (c :: rest).drop (if ((c :: rest).head? == some '-') = true then 1 else 0) = unsigned := by
    by_cases negative : c = '-'
    · subst negative
      exact ⟨rest, (List.mem_cons.1 member).resolve_left ends.2.2.2.2.2, rfl, rfl, rfl⟩
    · exact ⟨c :: rest, member, by simp [negative], by simp [negative], by simp [negative]⟩
  obtain ⟨whole, inside⟩ := scanWhole_append inside ends more
  have afterWhole := drop_append_of_mem inside more
  obtain ⟨places, left⟩ := scanPlaces_append inside ends more
  have parts (p q r : Nat) : (c :: rest).drop ((if ((c :: rest).head? == some '-') = true then 1 else 0) + p + q + r) =
      ((unsigned.drop p).drop q).drop r := by
    simp only [← cut, List.drop_drop]
  by_cases none : (scanPlaces (unsigned.drop (scanWhole unsigned).length)).isEmpty = true
  · rw [if_pos none] at left
    obtain ⟨power, left⟩ := scanPower_append left ends more
    constructor
    · simp only [scan, short, long, whole, afterWhole, places, none, if_true, power]
      simp
    · simp only [scan, size, placesSize, powerSize, short, none, if_true, parts]
      exact left
  · rw [if_neg none] at left
    have afterPlaces := drop_append_of_mem left more
    obtain ⟨power, left⟩ := scanPower_append left ends more
    constructor
    · simp only [scan, short, long, whole, afterWhole, places, none, Bool.false_eq_true, if_false, afterPlaces, power]
      simp
    · simp only [scan, size, placesSize, powerSize, short, none, Bool.false_eq_true, if_false, parts]
      exact left

end Numeral

theorem endsEvery_of_stop {d : Char} (stop : isStop d = true) : EndsEvery d := by
  simp only [isStop, Bool.or_eq_true, beq_iff_eq] at stop
  obtain (rfl | rfl) | rfl := stop <;> simp [EndsEvery]

theorem number?_extend {text : List Char} (stopped : Stopped text) (more : List Char) :
    number? (text ++ more) = number? text ∧ ∀ v size, number? text = some (v, size) → size ≤ text.length := by
  obtain ⟨d, member, stop⟩ := stopped
  obtain ⟨same, inside⟩ := Numeral.scan_append member (endsEvery_of_stop stop) more
  refine ⟨by rw [number?, same, number?], fun v size found => ?_⟩
  have dropped := List.length_pos_of_mem inside
  rw [List.length_drop] at dropped
  rw [number?] at found
  split at found
  next => cases found
  next =>
    cases found
    omega

theorem word?_extend {c : Cursor} (stopped : Stopped c.rest) {word : String}
    (plain : word.toList.any isStop = false) (more : List Char) :
    (c.extend more).word? word = (c.word? word).map (·.extend more) := by
  obtain ⟨d, member, stop⟩ := stopped
  have same : word.toList <+: c.rest ++ more ↔ word.toList <+: c.rest := by
    refine ⟨fun start => ?_, fun start => start.trans (List.prefix_append _ _)⟩
    obtain short | long := List.prefix_or_prefix_of_prefix start (List.prefix_append c.rest more)
    · exact short
    · simp [List.any_eq_true.2 ⟨d, long.subset member, stop⟩] at plain
  unfold word?
  simp only [List.isPrefixOf_iff_prefix, extend, same]
  split
  next start => exact congrArg some (skip_extend start.length_le more)
  next => rfl

theorem findSome?_word_extend {c : Cursor} (stopped : Stopped c.rest) (more : List Char)
    {entries : List (String × Json)}
    (plain : ∀ entry ∈ entries, entry.1.toList.any isStop = false) :
    (entries.findSome? fun entry => ((c.extend more).word? entry.1).map (entry.2, ·)) =
      (entries.findSome? fun entry => (c.word? entry.1).map (entry.2, ·)).map fun found =>
        (found.1, found.2.extend more) := by
  induction entries with
  | nil => rfl
  | cons entry entries ih =>
    rw [List.findSome?_cons, List.findSome?_cons, word?_extend stopped (plain entry List.mem_cons_self) more,
      ih fun other member => plain other (List.mem_cons_of_mem _ member)]
    cases c.word? entry.1 <;> rfl

/-- A word or a number that is stopped is the same in a longer text. -/
theorem readPlain_extend {c c' : Cursor} {v : Json} (found : readPlain c = .ok (v, c')) :
    c'.rest <:+ c.rest ∧ (Stopped c.rest → ∀ more, readPlain (c.extend more) = .ok (v, c'.extend more)) := by
  have plain : ∀ entry ∈ words, entry.1.toList.any isStop = false := by decide
  cases word : words.findSome? fun entry => (c.word? entry.1).map (entry.2, ·) with
  | some pair =>
    have same : pair = (v, c') := by simpa [readPlain, word] using found
    subst same
    refine ⟨?_, fun stopped more => ?_⟩
    · obtain ⟨entry, -, taken⟩ := List.exists_of_findSome?_eq_some word
      obtain ⟨after, taken, same⟩ := Option.map_eq_some_iff.1 taken
      cases same
      rw [word?] at taken
      split at taken <;> cases taken
      exact c.skip_suffix _
    · simp [readPlain, findSome?_word_extend stopped more plain, word]
  | none =>
    cases number : number? c.rest with
    | none => simp [readPlain, word, number, fail] at found
    | some pair =>
      obtain ⟨value, size⟩ := pair
      have same : value = v ∧ c.skip size = c' := by simpa [readPlain, word, number] using found
      obtain ⟨rfl, rfl⟩ := same
      refine ⟨c.skip_suffix size, fun stopped more => ?_⟩
      obtain ⟨again, bound⟩ := number?_extend stopped more
      have longer : number? (c.extend more).rest = some (value, size) := again.trans number
      simp [readPlain, findSome?_word_extend stopped more plain, word, longer,
        skip_extend (bound value size number) more]

/-- No word and no number is an object. -/
theorem readPlain_not_object (c : Cursor) (fields : Fields) (c' : Cursor) :
    readPlain c ≠ .ok (.object fields, c') := by
  intro found
  rw [readPlain] at found
  split at found
  next pair word =>
    cases found
    obtain ⟨entry, member, taken⟩ := List.exists_of_findSome?_eq_some word
    obtain ⟨after, -, same⟩ := Option.map_eq_some_iff.1 taken
    have plain : ∀ entry ∈ words, ∀ fields, entry.2 ≠ .object fields := by simp [words]
    exact plain entry member fields (Prod.mk.inj same).1
  next =>
    split at found
    next value size number =>
      obtain ⟨rfl, -⟩ := Prod.mk.inj (Except.ok.inj found)
      rw [number?] at number
      split at number
      next => cases number
      next =>
        have same : (Numeral.scan c.rest).value = .object fields := (Prod.mk.inj (Option.some.inj number)).1
        rw [Numeral.value] at same
        split at same <;> cases same
    next => cases found

/-! ### Strings -/

/-- A string ends with its quote, whatever comes after it. -/
theorem readString_extend {start : Nat} {text : List Char} {offset : Nat} {waiting : Option Nat} {read : List Char}
    {s : String} {c : Cursor} (found : readString start text offset waiting read = .ok (s, c)) :
    c.rest <:+ text ∧ ∀ more, readString start (text ++ more) offset waiting read = .ok (s, c.extend more) := by
  fun_induction readString start text offset waiting read
  case case2 rest offset waiting read =>
    cases found
    exact ⟨List.suffix_cons _ _, fun more => by rw [List.cons_append, readString]; rfl⟩
  case case4 a b c d rest offset waiting read unit more_ code waiting' read' pushed ih =>
    obtain ⟨suffix, longer⟩ := ih found
    refine ⟨suffix.trans ⟨['\\', 'u', a, b, c, d], rfl⟩, fun more => ?_⟩
    have going : (rest ++ more).isEmpty = false := by
      cases rest with
      | nil => cases more_
      | cons => rfl
    simp only [List.cons_append, readString, code, going, pushed]
    exact longer more
  case case8 letter rest offset waiting read _ plain escaped simple ih =>
    obtain ⟨suffix, longer⟩ := ih found
    refine ⟨suffix.trans ⟨['\\', letter], rfl⟩, fun more => ?_⟩
    rw [List.cons_append, List.cons_append, readString.eq_6, simple]
    · exact longer more
    · exact fun _ _ _ _ _ same _ => plain same
    · exact plain
  case case10 letter rest offset waiting read quote last _ _ slash printable ih =>
    obtain ⟨suffix, longer⟩ := ih found
    refine ⟨suffix.trans (List.suffix_cons _ _), fun more => ?_⟩
    have plain : letter ≠ '\\' := fun same => by
      cases rest with
      | nil => exact last same rfl
      | cons next rest => exact slash next rest same rfl
    rw [List.cons_append, readString.eq_7, if_neg printable]
    · exact longer more
    · exact quote
    all_goals
      intros
      exact plain (by assumption)
  all_goals cases found

/-! ### Values -/

/-- A character that follows after blanks follows in a longer text as well. -/
theorem skipBlanks_extend_cons {c : Cursor} {d : Char} {rest : List Char} (here : c.skipBlanks.rest = d :: rest)
    (more : List Char) : (c.extend more).skipBlanks = c.skipBlanks.extend more ∧
      (c.skipBlanks.extend more).rest = d :: (rest ++ more) ∧
      (c.skipBlanks.extend more).skip 1 = (c.skipBlanks.skip 1).extend more :=
  ⟨skipBlanks_extend (by simp [here]) more, by simp [extend, here], skip_extend (by simp [here]) more⟩

/-- What is read at a cursor is read in a longer text as well, with more steps to spare. -/
def GoesOn (read : Nat → Cursor → Except Mistake (α × Cursor)) (fuel : Nat) (closed : Cursor → Prop) : Prop :=
  ∀ c a c', read fuel c = .ok (a, c') → c'.rest <:+ c.rest ∧
    (closed c → ∀ spare more, read (fuel + spare) (c.extend more) = .ok (a, c'.extend more))

/-- A value that cannot go on: what ends it is in the text, or it is an object. -/
def Closed (c : Cursor) : Prop := Stopped c.rest ∨ c.rest.head? = some '\x7b'

/-- There is no value where a text ends. -/
theorem rest_ne_nil_of_readValue {fuel : Nat} {c c' : Cursor} {v : Json} (read : readValue fuel c = .ok (v, c')) :
    c.rest ≠ [] := by
  intro ended
  obtain ⟨offset, rest⟩ := c
  cases ended
  cases fuel with
  | zero => cases read
  | succ fuel =>
    simp only [readValue] at read
    cases read

theorem rest_ne_nil_of_readItems {fuel : Nat} {c c' : Cursor} {items : List Json}
    (read : readItems fuel c = .ok (items, c')) : c.rest ≠ [] := by
  cases fuel with
  | zero => cases read
  | succ fuel =>
    rw [readItems] at read
    obtain ⟨_, readOne, -⟩ := bind_eq_ok_iff.1 read
    exact rest_ne_nil_of_readValue readOne

theorem rest_ne_nil_of_readFields {fuel : Nat} {c c' : Cursor} {fields : List (String × Json)}
    (read : readFields fuel c = .ok (fields, c')) : c.rest ≠ [] := by
  intro ended
  cases fuel with
  | zero => cases read
  | succ fuel =>
    simp only [readFields, ended] at read
    cases read

theorem readItems_goesOn {fuel : Nat} (value : GoesOn readValue fuel Closed)
    (items : GoesOn readItems fuel fun _ => True) : GoesOn readItems (fuel + 1) fun _ => True := by
  intro c found c' read
  rw [readItems] at read
  obtain ⟨⟨item, c₁⟩, readOne, read⟩ := bind_eq_ok_iff.1 read
  obtain ⟨suffix, longer⟩ := value _ _ _ readOne
  have blanks := c₁.skipBlanks_suffix.trans suffix
  dsimp only at read
  split at read
  next rest bracket =>
    cases read
    have stopped : Stopped c.rest := ⟨']', blanks.subset (bracket ▸ List.mem_cons_self), rfl⟩
    refine ⟨(skip_suffix _ 1).trans blanks, fun _ spare more => ?_⟩
    obtain ⟨skipped, next, after⟩ := skipBlanks_extend_cons bracket more
    rw [Nat.add_right_comm, readItems, longer (.inl stopped) spare more]
    simp only [bind, Except.bind, skipped, next, after]
    rfl
  next rest comma =>
    obtain ⟨⟨others, c₂⟩, readMore, made⟩ := bind_eq_ok_iff.1 read
    cases made
    have stopped : Stopped c.rest := ⟨',', blanks.subset (comma ▸ List.mem_cons_self), rfl⟩
    obtain ⟨suffix', longer'⟩ := items _ _ _ readMore
    have skips := (skipBlanks_suffix (c₁.skipBlanks.skip 1)).trans ((skip_suffix _ 1).trans blanks)
    refine ⟨suffix'.trans skips, fun _ spare more => ?_⟩
    obtain ⟨skipped, next, after⟩ := skipBlanks_extend_cons comma more
    rw [Nat.add_right_comm, readItems, longer (.inl stopped) spare more]
    simp only [bind, Except.bind, skipped, next, after, skipBlanks_extend (rest_ne_nil_of_readItems readMore),
      longer' trivial spare more]
    rfl
  next => cases read

theorem readFields_goesOn {fuel : Nat} (value : GoesOn readValue fuel Closed)
    (fields : GoesOn readFields fuel fun _ => True) : GoesOn readFields (fuel + 1) fun _ => True := by
  intro c found c' read
  rw [readFields] at read
  split at read
  next text quote =>
    obtain ⟨⟨name, c₁⟩, readName, read⟩ := bind_eq_ok_iff.1 read
    obtain ⟨nameSuffix, nameLonger⟩ := readString_extend readName
    have upToName : c₁.rest <:+ c.rest := nameSuffix.trans (quote ▸ List.suffix_cons _ _)
    dsimp only at read
    split at read
    next afterColon colon =>
      obtain ⟨⟨v, c₂⟩, readOne, read⟩ := bind_eq_ok_iff.1 read
      obtain ⟨suffix, longer⟩ := value _ _ _ readOne
      have skips : (c₁.skipBlanks.skip 1).skipBlanks.rest <:+ c.rest :=
        (skipBlanks_suffix _).trans ((skip_suffix _ 1).trans (c₁.skipBlanks_suffix.trans upToName))
      have blanks := c₂.skipBlanks_suffix.trans suffix
      have name' (more : List Char) : (c.extend more).rest = '"' :: (text ++ more) := by simp [extend, quote]
      have colon' (more : List Char) := skipBlanks_extend_cons colon more
      -- the value in the longer text, behind the colon and the blanks around it
      have value' (stopped : Stopped (c₁.skipBlanks.skip 1).skipBlanks.rest) (spare : Nat) (more : List Char) :
          readValue (fuel + spare) ((c₁.skipBlanks.skip 1).extend more).skipBlanks = .ok (v, c₂.extend more) := by
        rw [skipBlanks_extend (rest_ne_nil_of_readValue readOne), longer (.inl stopped)]
      dsimp only at read
      split at read
      next rest brace =>
        cases read
        have stopped : Stopped (c₁.skipBlanks.skip 1).skipBlanks.rest :=
          ⟨'\x7d', blanks.subset (brace ▸ List.mem_cons_self), rfl⟩
        refine ⟨(skip_suffix _ 1).trans (blanks.trans skips), fun _ spare more => ?_⟩
        obtain ⟨skipped, next, after⟩ := skipBlanks_extend_cons brace more
        rw [Nat.add_right_comm, readFields]
        simp only [name', bind, Except.bind, extend_offset, nameLonger more, colon' more, value' stopped,
          skipped, next, after]
        rfl
      next rest comma =>
        obtain ⟨⟨others, c₃⟩, readMore, made⟩ := bind_eq_ok_iff.1 read
        cases made
        have stopped : Stopped (c₁.skipBlanks.skip 1).skipBlanks.rest :=
          ⟨',', blanks.subset (comma ▸ List.mem_cons_self), rfl⟩
        obtain ⟨suffix', longer'⟩ := fields _ _ _ readMore
        have upToComma := (skipBlanks_suffix (c₂.skipBlanks.skip 1)).trans ((skip_suffix _ 1).trans blanks)
        refine ⟨suffix'.trans (upToComma.trans skips), fun _ spare more => ?_⟩
        obtain ⟨skipped, next, after⟩ := skipBlanks_extend_cons comma more
        rw [Nat.add_right_comm, readFields]
        simp only [name', bind, Except.bind, extend_offset, nameLonger more, colon' more, value' stopped,
          skipped, next, after, skipBlanks_extend (rest_ne_nil_of_readFields readMore), longer' trivial spare more]
        rfl
      next => cases read
    next => cases read
  next => cases read

/-- An opening brace or bracket, and the character after it and the blanks, in a longer text. -/
theorem opened_extend {c : Cursor} {opening d : Char} {text rest : List Char} (opens : c.rest = opening :: text)
    (here : (c.skip 1).skipBlanks.rest = d :: rest) (more : List Char) :
    (c.extend more).rest = opening :: (text ++ more) ∧
      ((c.extend more).skip 1).skipBlanks = (c.skip 1).skipBlanks.extend more ∧
      ((c.skip 1).skipBlanks.extend more).rest = d :: (rest ++ more) ∧
      ((c.skip 1).skipBlanks.extend more).skip 1 = ((c.skip 1).skipBlanks.skip 1).extend more := by
  have skipped : (c.extend more).skip 1 = (c.skip 1).extend more := skip_extend (by simp [opens]) more
  rw [skipped]
  exact ⟨by simp [extend, opens], skipBlanks_extend_cons here more⟩

theorem readValue_goesOn {fuel : Nat} (items : GoesOn readItems fuel fun _ => True)
    (fields : GoesOn readFields fuel fun _ => True) : GoesOn readValue (fuel + 1) Closed := by
  intro c v c' read
  have skips : (c.skip 1).skipBlanks.rest <:+ c.rest := (skipBlanks_suffix _).trans (c.skip_suffix 1)
  rw [readValue] at read
  split at read
  next text quote =>
    obtain ⟨⟨s, c₁⟩, readText, made⟩ := bind_eq_ok_iff.1 read
    cases made
    obtain ⟨suffix, longer⟩ := readString_extend readText
    refine ⟨suffix.trans (quote ▸ List.suffix_cons _ _), fun _ spare more => ?_⟩
    have begins : (c.extend more).rest = '"' :: (text ++ more) := by simp [extend, quote]
    rw [Nat.add_right_comm, readValue]
    simp only [begins, bind, Except.bind, extend_offset, longer more]
    rfl
  next text brace =>
    dsimp only at read
    split at read
    next rest closing =>
      cases read
      refine ⟨(skip_suffix _ 1).trans skips, fun _ spare more => ?_⟩
      obtain ⟨begins, inside, next, after⟩ := opened_extend brace closing more
      rw [Nat.add_right_comm, readValue]
      simp only [begins, inside, next, after]
    next notClosing =>
      obtain ⟨⟨found, c₁⟩, readMore, made⟩ := bind_eq_ok_iff.1 read
      cases made
      obtain ⟨suffix, longer⟩ := fields _ _ _ readMore
      refine ⟨suffix.trans skips, fun _ spare more => ?_⟩
      obtain ⟨d, rest, here⟩ := List.exists_cons_of_ne_nil (rest_ne_nil_of_readFields readMore)
      obtain ⟨begins, inside, next, -⟩ := opened_extend brace here more
      rw [Nat.add_right_comm, readValue]
      simp only [begins, inside, next]
      split
      next same => exact absurd ((List.cons.inj same).1 ▸ here) (notClosing rest)
      next => simp only [bind, Except.bind, longer trivial spare more, pure, Except.pure]
  next text bracket =>
    dsimp only at read
    split at read
    next rest closing =>
      cases read
      refine ⟨(skip_suffix _ 1).trans skips, fun _ spare more => ?_⟩
      obtain ⟨begins, inside, next, after⟩ := opened_extend bracket closing more
      rw [Nat.add_right_comm, readValue]
      simp only [begins, inside, next, after]
    next notClosing =>
      obtain ⟨⟨found, c₁⟩, readMore, made⟩ := bind_eq_ok_iff.1 read
      cases made
      obtain ⟨suffix, longer⟩ := items _ _ _ readMore
      refine ⟨suffix.trans skips, fun _ spare more => ?_⟩
      obtain ⟨d, rest, here⟩ := List.exists_cons_of_ne_nil (rest_ne_nil_of_readItems readMore)
      obtain ⟨begins, inside, next, -⟩ := opened_extend bracket here more
      rw [Nat.add_right_comm, readValue]
      simp only [begins, inside, next]
      split
      next same => exact absurd ((List.cons.inj same).1 ▸ here) (notClosing rest)
      next => simp only [bind, Except.bind, longer trivial spare more, pure, Except.pure]
  next notQuote notBrace notBracket =>
    obtain ⟨suffix, longer⟩ := readPlain_extend read
    refine ⟨suffix, fun closed spare more => ?_⟩
    have stopped : Stopped c.rest := closed.resolve_right fun opens => by
      obtain ⟨rest, here⟩ := List.head?_eq_some_iff.1 opens
      exact notBrace rest here
    obtain ⟨d, rest, here⟩ : ∃ d rest, c.rest = d :: rest := by
      obtain ⟨d, member, -⟩ := stopped
      exact List.exists_cons_of_ne_nil (List.ne_nil_of_mem member)
    have begins : (c.extend more).rest = d :: (rest ++ more) := by simp [extend, here]
    rw [Nat.add_right_comm, readValue]
    simp only [begins]
    split
    next same => exact absurd ((List.cons.inj same).1 ▸ here) (notQuote rest)
    next same => exact absurd ((List.cons.inj same).1 ▸ here) (notBrace rest)
    next same => exact absurd ((List.cons.inj same).1 ▸ here) (notBracket rest)
    next => exact longer stopped more

/-- What is read with some steps is read in a longer text with more of them. -/
theorem readers_goesOn (fuel : Nat) : GoesOn readValue fuel Closed ∧ GoesOn readItems fuel (fun _ => True) ∧
    GoesOn readFields fuel fun _ => True := by
  induction fuel with
  | zero => refine ⟨?_, ?_, ?_⟩ <;> (intro _ _ _ read; cases read)
  | succ fuel ih =>
    obtain ⟨value, items, fields⟩ := ih
    exact ⟨readValue_goesOn items fields, readItems_goesOn value items, readFields_goesOn value fields⟩

/-! ### Whole texts -/

/-- Only a brace opens an object. -/
theorem head?_of_readValue_object {fuel : Nat} {c c' : Cursor} {fields : Fields}
    (found : readValue fuel c = .ok (.object fields, c')) : c.rest.head? = some '\x7b' := by
  cases fuel with
  | zero => cases found
  | succ fuel =>
    rw [readValue] at found
    split at found
    next =>
      obtain ⟨_, -, made⟩ := bind_eq_ok_iff.1 found
      cases made
    next brace => rw [brace]; rfl
    next =>
      dsimp only at found
      split at found
      next => cases found
      next =>
        obtain ⟨_, -, made⟩ := bind_eq_ok_iff.1 found
        cases made
    next => exact absurd found (readPlain_not_object c fields c')

/-- An object that is a whole text is none with more text after it, blanks aside. -/
theorem read_append {text : List Char} {v : Json} (found : read text = .ok v) (opens : text.head? = some '\x7b')
    {more : List Char} {d : Char} (member : d ∈ more) (printed : Cursor.isBlank d = false) :
    ∃ mistake, read (text ++ more) = .error mistake := by
  obtain ⟨rest, rfl⟩ := List.head?_eq_some_iff.1 opens
  rw [read, skipBlanks_cons (by decide)] at found
  obtain ⟨⟨value, c⟩, readOne, -⟩ := bind_eq_ok_iff.1 found
  obtain ⟨-, longer⟩ := (readers_goesOn _).1 _ _ _ readOne
  have again := longer (.inr rfl) (2 * more.length) more
  have steps : 2 * ('\x7b' :: rest ++ more).length + 2 = 2 * ('\x7b' :: rest).length + 2 + 2 * more.length := by
    simp only [List.length_append]
    omega
  -- the characters left after the object are not all blank
  have going : (c.extend more).skipBlanks.rest.isEmpty = false := by
    rw [List.isEmpty_eq_false_iff]
    exact List.ne_nil_of_mem (mem_drop_takeWhile (List.mem_append_right _ member) printed)
  have whole : readValue (2 * ('\x7b' :: rest ++ more).length + 2) (skipBlanks ⟨0, '\x7b' :: rest ++ more⟩) =
      .ok (value, c.extend more) := by
    rw [steps, List.cons_append, skipBlanks_cons (by decide)]
    exact again
  refine ⟨⟨.extraData, (c.extend more).skipBlanks.offset⟩, ?_⟩
  rw [read, whole]
  simp only [bind, Except.bind, going, Bool.false_eq_true, if_false, fail]

theorem head?_of_read_object {text : List Char} {fields : Fields} (found : read text = .ok (.object fields))
    (starts : NoBlank text) : text.head? = some '\x7b' := by
  rw [read, show skipBlanks ⟨0, text⟩ = ⟨0, text⟩ from skipBlanks_append [] (by simp) starts] at found
  obtain ⟨⟨value, c⟩, readOne, ended⟩ := bind_eq_ok_iff.1 found
  have same : value = .object fields := by
    dsimp only at ended
    split at ended
    · exact Except.ok.inj ended
    · cases ended
  subst same
  exact head?_of_readValue_object readOne

theorem parse_eq_read {text : List Char} (opens : text.head? = some '\x7b') :
    parse (String.ofList text) = read text := by
  simp [parse, opens]

theorem read_of_parse {text : String} {v : Json} (found : parse text = .ok v) : read text.toList = .ok v := by
  rw [parse] at found
  split at found
  · cases found
  · exact found

end Json

end Flowchart
