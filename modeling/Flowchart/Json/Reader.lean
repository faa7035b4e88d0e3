import Flowchart.Json.Numeral

/-!
# Reading JSON text

* `Fault`, `Mistake`: what is wrong with a text, and at which character.
* `Cursor`: the rest of the text and how many characters precede it.
* `Json.read`: the value that a text holds. Blanks are space, tab, line feed and carriage return;
  `NaN` and the infinities are numbers; a control character inside a string is a mistake.
* `Json.parse`: as `Json.read`, for text that must not begin with a byte order mark.

Two things are left out. A reader may have limits, on the digits of an integer and on how many arrays and objects are
open at once; `Json.strain?` says of a text whether it goes beyond them. And a string consists of characters, so that it
holds no surrogate on its own: a text that escapes one is read with replacements in its place, and what is proved of
strings and keys does not concern the value that it stands for.
-/

namespace Flowchart

namespace Json

/-- What can be wrong with a JSON text. -/
inductive Fault where
  | expectingValue
  | expectingName
  | expectingColon
  | expectingComma
  | unterminatedString
  | controlCharacter
  | badEscape
  | badCodeEscape
  | extraData
  | byteOrderMark
  deriving DecidableEq, Repr

namespace Fault

def text : Fault → String
  | expectingValue => "Expecting value"
  | expectingName => "Expecting property name enclosed in double quotes"
  | expectingColon => "Expecting ':' delimiter"
  | expectingComma => "Expecting ',' delimiter"
  | unterminatedString => "Unterminated string starting at"
  | controlCharacter => "Invalid control character at"
  | badEscape => "Invalid \\escape"
  | badCodeEscape => "Invalid \\uXXXX escape"
  | extraData => "Extra data"
  | byteOrderMark => "Unexpected UTF-8 BOM (decode using utf-8-sig)"

end Fault

/-- A fault and the number of characters before it. -/
structure Mistake where
  fault : Fault
  offset : Nat
  deriving DecidableEq, Repr

/-- The rest of a text and the number of characters before it. -/
structure Cursor where
  offset : Nat
  rest : List Char

namespace Cursor

def fail (c : Cursor) (fault : Fault) : Except Mistake α := .error ⟨fault, c.offset⟩

def isBlank (c : Char) : Bool := c == ' ' || c == '\t' || c == '\n' || c == '\r'

/-- The cursor after `count` characters. -/
def skip (c : Cursor) (count : Nat) : Cursor := ⟨c.offset + count, c.rest.drop count⟩

def skipBlanks (c : Cursor) : Cursor := c.skip (c.rest.takeWhile isBlank).length

/-- The cursor after a word, if the text goes on with it. -/
def word? (c : Cursor) (word : String) : Option Cursor :=
  let chars := word.toList
  if chars.isPrefixOf c.rest then some (c.skip chars.length) else none

end Cursor

/-! ### Strings -/

def hexDigit? (c : Char) : Option Nat :=
  if '0' ≤ c ∧ c ≤ '9' then some (c.toNat - '0'.toNat)
  else if 'a' ≤ c ∧ c ≤ 'f' then some (c.toNat - 'a'.toNat + 10)
  else if 'A' ≤ c ∧ c ≤ 'F' then some (c.toNat - 'A'.toNat + 10)
  else none

/-- The code unit that four hexadecimal digits name. -/
def codeUnit? (a b c d : Char) : Option Nat := do
  let a ← hexDigit? a
  let b ← hexDigit? b
  let c ← hexDigit? c
  let d ← hexDigit? d
  return ((a * 16 + b) * 16 + c) * 16 + d

def isHighSurrogate (unit : Nat) : Bool := 0xD800 ≤ unit && unit < 0xDC00

def isLowSurrogate (unit : Nat) : Bool := 0xDC00 ≤ unit && unit < 0xE000

/-- The character of a code point. A surrogate stands for none and is replaced; a text with one on its own is outside of
the model. -/
def scalarOf (code : Nat) : Char :=
  if code.isValidChar then Char.ofNat code else Char.ofNat 0xFFFD

def joinSurrogates (high low : Nat) : Char :=
  scalarOf (0x10000 + (high - 0xD800) * 0x400 + (low - 0xDC00))

def simpleEscape? : Char → Option Char
  | '"' => some '"'
  | '\\' => some '\\'
  | '/' => some '/'
  | 'b' => some '\x08'
  | 'f' => some '\x0c'
  | 'n' => some '\n'
  | 'r' => some '\r'
  | 't' => some '\t'
  | _ => none

/-- What a string has in the place of a surrogate on its own: a replacement for each byte of its encoding. Once a
flowchart is written its keys have them too; what a surrogate is until then, is not said here. -/
def replacement : List Char := List.replicate 3 (Char.ofNat 0xFFFD)

/-- The characters of a code unit that does not follow a high surrogate, and is none. -/
def unitChars (unit : Nat) : List Char := if isLowSurrogate unit then replacement else [scalarOf unit]

/-- Adds the characters of a code unit to those read, the last one first. A high surrogate waits for
the unit after it. -/
def pushUnit (waiting : Option Nat) (unit : Nat) (read : List Char) : Option Nat × List Char :=
  match waiting with
  | some high =>
    if isLowSurrogate unit then (none, joinSurrogates high unit :: read)
    else if isHighSurrogate unit then (some unit, replacement ++ read)
    else (none, unitChars unit ++ (replacement ++ read))
  | none => if isHighSurrogate unit then (some unit, read) else (none, unitChars unit ++ read)

/-- The characters read, a replacement for a high surrogate left waiting among them. -/
def settle (waiting : Option Nat) (read : List Char) : List Char :=
  match waiting with
  | some _ => replacement ++ read
  | none => read

/-- Reads on inside a string that began at `start`; `read` holds its characters so far, the last one
first. A code escape must be followed by at least one more character of the text. -/
def readString (start : Nat) :
    List Char → Nat → Option Nat → List Char → Except Mistake (String × Cursor)
  | [], _, _, _ => .error ⟨.unterminatedString, start⟩
  | '"' :: rest, offset, waiting, read =>
    .ok (String.ofList (settle waiting read).reverse, ⟨offset + 1, rest⟩)
  | ['\\'], _, _, _ => .error ⟨.unterminatedString, start⟩
  | '\\' :: 'u' :: a :: b :: c :: d :: rest, offset, waiting, read =>
    match codeUnit? a b c d, rest.isEmpty with
    | some unit, false =>
      let (waiting, read) := pushUnit waiting unit read
      readString start rest (offset + 6) waiting read
    | _, _ => .error ⟨.badCodeEscape, offset + 1⟩
  | '\\' :: 'u' :: _, offset, _, _ => .error ⟨.badCodeEscape, offset + 1⟩
  | '\\' :: c :: rest, offset, waiting, read =>
    match simpleEscape? c with
    | none => .error ⟨.badEscape, offset⟩
    | some escaped => readString start rest (offset + 2) none (escaped :: settle waiting read)
  | c :: rest, offset, waiting, read =>
    if c.toNat < 0x20 then .error ⟨.controlCharacter, offset⟩
    else readString start rest (offset + 1) none (c :: settle waiting read)

/-! ### Values -/

/-- The words that are values. -/
def words : List (String × Json) :=
  [("null", .null), ("true", .bool true), ("false", .bool false), ("NaN", .double notANumber),
    ("Infinity", .double infinity), ("-Infinity", .double (-infinity))]

/-- A value that is a word or a number. -/
def readPlain (c : Cursor) : Except Mistake (Json × Cursor) :=
  match words.findSome? fun entry => (c.word? entry.1).map (entry.2, ·) with
  | some found => .ok found
  | none =>
    match number? c.rest with
    | some (value, size) => .ok (value, c.skip size)
    | none => c.fail .expectingValue

mutual

/-- Reads the value at the cursor. Every two steps use up at least one character, so the text's
length bounds the steps. -/
def readValue : Nat → Cursor → Except Mistake (Json × Cursor)
  | 0, c => c.fail .expectingValue
  | fuel + 1, c =>
    match c.rest with
    | '"' :: rest => do
      let (text, c) ← readString c.offset rest (c.offset + 1) none []
      return (.string text, c)
    | '{' :: _ =>
      let c := (c.skip 1).skipBlanks
      match c.rest with
      | '}' :: _ => .ok (.object [], c.skip 1)
      | _ => do
        let (fields, c) ← readFields fuel c
        return (.object (Fields.ofPairs fields), c)
    | '[' :: _ =>
      let c := (c.skip 1).skipBlanks
      match c.rest with
      | ']' :: _ => .ok (.array [], c.skip 1)
      | _ => do
        let (items, c) ← readItems fuel c
        return (.array items, c)
    | _ => readPlain c

/-- Reads the items of an array that has at least one, and the bracket after them. -/
def readItems : Nat → Cursor → Except Mistake (List Json × Cursor)
  | 0, c => c.fail .expectingValue
  | fuel + 1, c => do
    let (item, c) ← readValue fuel c
    let c := c.skipBlanks
    match c.rest with
    | ']' :: _ => return ([item], c.skip 1)
    | ',' :: _ => do
      let (items, c) ← readItems fuel (c.skip 1).skipBlanks
      return (item :: items, c)
    | _ => c.fail .expectingComma

/-- Reads the fields of an object that has at least one, and the brace after them. -/
def readFields : Nat → Cursor → Except Mistake (List (String × Json) × Cursor)
  | 0, c => c.fail .expectingName
  | fuel + 1, c =>
    match c.rest with
    | '"' :: rest => do
      let (name, c) ← readString c.offset rest (c.offset + 1) none []
      let c := c.skipBlanks
      match c.rest with
      | ':' :: _ => do
        let (value, c) ← readValue fuel (c.skip 1).skipBlanks
        let c := c.skipBlanks
        match c.rest with
        | '}' :: _ => return ([(name, value)], c.skip 1)
        | ',' :: _ => do
          let (fields, c) ← readFields fuel (c.skip 1).skipBlanks
          return ((name, value) :: fields, c)
        | _ => c.fail .expectingComma
      | _ => c.fail .expectingColon
    | _ => c.fail .expectingName

end

/-- The one value that a text holds. -/
def read (text : List Char) : Except Mistake Json := do
  let (value, c) ← readValue (2 * text.length + 2) (Cursor.skipBlanks ⟨0, text⟩)
  let c := c.skipBlanks
  if c.rest.isEmpty then return value else c.fail .extraData

/-- The one value that a text without a byte order mark holds. -/
def parse (text : String) : Except Mistake Json :=
  let chars := text.toList
  if chars.head? == some (Char.ofNat 0xFEFF) then .error ⟨.byteOrderMark, 0⟩ else read chars

/-- Says where in a text a mistake is: line, column and character count. -/
def Mistake.message (mistake : Mistake) (text : List Char) : String :=
  let before := text.take mistake.offset
  let line := before.count '\n' + 1
  let column := (before.reverse.takeWhile (· ≠ '\n')).length + 1
  s!"{mistake.fault.text}: line {line} column {column} (char {mistake.offset})"

end Json

end Flowchart
