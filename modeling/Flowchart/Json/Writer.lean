import Flowchart.Decimal.Layout
import Flowchart.Json.Value

/-!
# Writing JSON text

* `Json.quote`: a string in quotes, every character outside printable ASCII as a code escape.
* `Json.render`: a value on one line, or with one item a line and an indent for each level.
-/

namespace Flowchart

namespace Json

def hexChar (n : Nat) : Char := (Nat.toDigits 16 n).headD '0'

/-- A code escape of one sixteen-bit unit. -/
def unitEscape (unit : Nat) : List Char :=
  ['\\', 'u', hexChar (unit / 4096 % 16), hexChar (unit / 256 % 16), hexChar (unit / 16 % 16),
    hexChar (unit % 16)]

/-- A character inside quotes. One past the sixteen-bit range is written as a pair of units. -/
def escapeChar (c : Char) : List Char :=
  match c with
  | '"' => ['\\', '"']
  | '\\' => ['\\', '\\']
  | '\n' => ['\\', 'n']
  | '\r' => ['\\', 'r']
  | '\t' => ['\\', 't']
  | '\x08' => ['\\', 'b']
  | '\x0c' => ['\\', 'f']
  | c =>
    let code := c.toNat
    if 0x20 ≤ code ∧ code < 0x7F then [c]
    else if code < 0x10000 then unitEscape code
    else
      unitEscape (0xD800 + (code - 0x10000) / 0x400) ++ unitEscape (0xDC00 + (code - 0x10000) % 0x400)

def quote (text : String) : String :=
  "\"" ++ String.ofList (text.toList.flatMap escapeChar) ++ "\""

/-- What stands between the items of a container at a nesting level. -/
structure Spacing where
  first : String
  between : String
  last : String
  afterColon : String

/-- With an indent, each item of a container at nesting level `level` begins a line. -/
def spacing (indent : Option Nat) (level : Nat) : Spacing :=
  match indent with
  | none => ⟨"", ", ", "", ": "⟩
  | some width =>
    let line (level : Nat) := "\n" ++ String.ofList (List.replicate (width * level) ' ')
    ⟨line (level + 1), "," ++ line (level + 1), line level, ": "⟩

mutual

def renderAt (indent : Option Nat) (level : Nat) : Json → String
  | null => "null"
  | bool true => "true"
  | bool false => "false"
  | int n => n.repr
  | double x => doubleText .json x
  | string text => quote text
  | array [] => "[]"
  | array items =>
    let s := spacing indent level
    "[" ++ s.first ++ s.between.intercalate (renderItems indent (level + 1) items) ++ s.last ++ "]"
  | object [] => "\x7b\x7d"
  | object fields =>
    let s := spacing indent level
    "\x7b" ++ s.first ++ s.between.intercalate (renderFields indent (level + 1) s.afterColon fields) ++
      s.last ++ "\x7d"

def renderItems (indent : Option Nat) (level : Nat) : List Json → List String
  | [] => []
  | item :: items => renderAt indent level item :: renderItems indent level items

def renderFields (indent : Option Nat) (level : Nat) (colon : String) :
    List (String × Json) → List String
  | [] => []
  | (key, value) :: fields =>
    (quote key ++ colon ++ renderAt indent level value) :: renderFields indent level colon fields

end

/-- The text of a value: on one line, or with an indent of so many blanks for each level. -/
def render (indent : Option Nat) (value : Json) : String := renderAt indent 0 value

end Json

end Flowchart
