import Flowchart.Schema.Checked
import Flowchart.Text.Numeral

/-!
# Checks of plain values

Each check of this module takes any JSON value and answers with the plain value it stands for.

* `Check.text`, `Check.name`: a string, which for a name is not empty.
* `Check.number`: a double; integers, flags and numerals in strings stand for one.
* `Check.integer`: an integer; doubles without a fractional part, flags and numerals stand for one.
* `Check.flag`: a truth value; zero, one and the usual words stand for one.
* `Check.member`, `Check.literal`: one of some strings.
* `Check.above`, `Check.atLeast`, `Check.atMost`: bounds on a number.
* `Check.any`: any value whose nesting stays within `nestingLimit` levels.
-/

namespace Flowchart

namespace Check

def text : Json → Checked String
  | .string s => .ok s
  | v => .flaw .notString v

def name : Json → Checked String
  | .string s => if s.isEmpty then .flaw .emptyString (.string s) else .ok s
  | v => .flaw .notString v

def number : Json → Checked Float
  | .double x => .ok x
  | .int n =>
    match doubleOfInt? n with
    | some x => .ok x
    | none => .flaw .notNumber (.int n)
  | .bool b => .ok (if b then 1 else 0)
  | .string s =>
    match doubleOfText? s with
    | some x => .ok x
    | none => .flaw .unreadableNumber (.string s)
  | v => .flaw .notNumber v

/-- Integral doubles count as integers within sixty-four bits. -/
def integer : Json → Checked Int
  | .int n => .ok n
  | .bool b => .ok (if b then 1 else 0)
  | .double x =>
    if x.isNaN || x.isInf then .flaw .notFinite (.double x)
    else
      match intOfDouble? x with
      | none => .flaw .fractionalInteger (.double x)
      | some n => if n.natAbs < Nat.pow 2 63 then .ok n else .flaw .integerSize (.double x)
  | .string s =>
    match intOfText? s with
    | some n => .ok n
    | none => .flaw .unreadableInteger (.string s)
  | v => .flaw .notInteger v

def flagWords : List (String × Bool) :=
  [("0", false), ("off", false), ("f", false), ("false", false), ("n", false), ("no", false),
    ("1", true), ("on", true), ("t", true), ("true", true), ("y", true), ("yes", true)]

/-- Whether an integer has a signed form of sixty-four bits. -/
def fitsWord (n : Int) : Bool := -0x8000000000000000 ≤ n && n < 0x8000000000000000

/-- Numbers beyond sixty-four bits are not even tried. -/
def flag : Json → Checked Bool
  | .bool b => .ok b
  | .int n =>
    if n = 0 then .ok false
    else if n = 1 then .ok true
    else .flaw (if fitsWord n then .unreadableFlag else .notFlag) (.int n)
  | .double x =>
    match intOfDouble? x with
    | some 0 => .ok false
    | some 1 => .ok true
    | some n => .flaw (if n.natAbs < Nat.pow 2 63 then .unreadableFlag else .notFlag) (.double x)
    | none => .flaw .notFlag (.double x)
  | .string s =>
    match flagWords.lookup (String.ofList (s.toList.map Char.toLower)) with
    | some b => .ok b
    | none => .flaw .unreadableFlag (.string s)
  | v => .flaw .notFlag v

/-- One of the names of an enumeration, taken to its value. -/
def member (names : List (String × α)) (v : Json) : Checked α :=
  let refused : Checked α := .flaw (.notMember (names.map Prod.fst)) v
  match v with
  | .string s => (names.lookup s).elim refused .ok
  | _ => refused

/-- One of some fixed strings, taken to what it stands for. -/
def literal (names : List (String × α)) (v : Json) : Checked α :=
  let refused : Checked α := .flaw (.notLiteral (names.map Prod.fst)) v
  match v with
  | .string s => (names.lookup s).elim refused .ok
  | _ => refused

/-- A further demand on a checked value, put to the value as it came in. -/
def demand (check : Json → Checked α) (holds : α → Bool) (flaw : Flaw) (v : Json) : Checked α :=
  (check v).andThen fun a => if holds a then .ok a else .flaw flaw v

def atLeast (bound : Int) (check : Json → Checked Int) : Json → Checked Int :=
  demand check (bound ≤ ·) (.notAtLeast bound)

def above (bound : Int) (check : Json → Checked Int) : Json → Checked Int :=
  demand check (bound < ·) (.notAbove bound)

def atMost (bound : Int) (check : Json → Checked Int) : Json → Checked Int :=
  demand check (· ≤ bound) (.notAtMost bound)

/-- Bounds on a double fail for the double that is not a number. -/
def numberAtLeast (bound : Int) (check : Json → Checked Float) : Json → Checked Float :=
  demand check (Float.ofInt bound ≤ ·) (.notAtLeast bound)

def numberAbove (bound : Int) (check : Json → Checked Float) : Json → Checked Float :=
  demand check (Float.ofInt bound < ·) (.notAbove bound)

def numberAtMost (bound : Int) (check : Json → Checked Float) : Json → Checked Float :=
  demand check (· ≤ Float.ofInt bound) (.notAtMost bound)

/-- How many values may be nested in one another. -/
def nestingLimit : Nat := 255

mutual

/-- The values nested too deep in a value that stands at a level of nesting. -/
def nestingIssues (level : Nat) (v : Json) : List Issue :=
  if nestingLimit < level then [⟨.nesting, [], v⟩]
  else
    match v with
    | .array items =>
      (nestedItems (level + 1) 0 items).map fun issue => issue.under (.key "list")
    | .object fields => (nestedFields (level + 1) fields).map fun issue => issue.under (.key "dict")
    | _ => []

def nestedItems (level position : Nat) : List Json → List Issue
  | [] => []
  | item :: items =>
    (nestingIssues level item).map (Issue.under (.index position)) ++
      nestedItems level (position + 1) items

def nestedFields (level : Nat) : List (String × Json) → List Issue
  | [] => []
  | (key, value) :: fields =>
    (nestingIssues level value).map (Issue.under (.key key)) ++ nestedFields level fields

end

/-- Any value that stands at a level of nesting. -/
def any (level : Nat) (v : Json) : Checked Json :=
  match nestingIssues level v with
  | [] => .ok v
  | issues => .bad issues

end Check

end Flowchart
