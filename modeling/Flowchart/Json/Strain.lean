import Flowchart.Json.Reader

/-!
# Texts that strain their reader

A reader has room for so many arrays and objects that are open at once, and makes an integer of so many digits only. It
goes through a text from left to right, so that it meets what is too much for it only if there is no mistake before.

* `Json.Strain`: what is too much in a text.
* `Json.strain?`: what a reader meets in a text that is too much for it.
-/

namespace Flowchart

namespace Json

/-- What is too much for a reader. -/
inductive Strain where
  /-- An integer of so many digits. -/
  | digits (count : Nat)
  /-- An array or an object inside of too many others. -/
  | depth
  deriving DecidableEq, Repr

/-- The most digits that an integer may have. -/
def maxDigits : Nat := 4300

/-- The first strain in the rest of a text, and the number of characters before it. So many arrays and objects are open;
`quoted` tells whether a string is open too, and the next `passed` characters belong to what was read last. -/
def strainFrom (room : Nat) : Nat → Bool → Nat → Nat → List Char → Option (Nat × Strain)
  | _, _, _, _, [] => none
  | depth, quoted, passed + 1, offset, _ :: rest => strainFrom room depth quoted passed (offset + 1) rest
  | depth, true, 0, offset, c :: rest =>
    if c == '\\' then strainFrom room depth true 1 (offset + 1) rest
    else strainFrom room depth (c != '"') 0 (offset + 1) rest
  | depth, false, 0, offset, c :: rest =>
    if c == '[' || c == '\x7b' then
      if depth < room then strainFrom room (depth + 1) false 0 (offset + 1) rest else some (offset, .depth)
    else if c == ']' || c == '\x7d' then strainFrom room (depth - 1) false 0 (offset + 1) rest
    else if c.isDigit then
      let n := Numeral.scan (c :: rest)
      -- a double may have any number of digits
      if n.places.isEmpty && n.power.isEmpty && maxDigits < n.whole.length then
        some (offset, .digits n.whole.length)
      else strainFrom room depth false (n.size - 1) (offset + 1) rest
    else strainFrom room depth (c == '"') 0 (offset + 1) rest

/-- What is too much in a text for a reader with room for so many open arrays and objects. A mistake before it, or in
its place, comes first. -/
def strain? (room : Nat) (text : List Char) : Option Strain := do
  let (offset, strain) ← strainFrom room 0 false 0 0 text
  match parse (String.ofList (text.take (offset + 1))) with
  | .error mistake => if mistake.offset ≤ offset then none else some strain
  | .ok _ => some strain

end Json

end Flowchart
