import Flowchart.Json.Value

/-!
# Issues

* `Flaw`: what keeps a value from being what it should be, with its code and its message.
* `Issue`: a flaw, the path to it from the root, and the value that has it.
-/

namespace Flowchart

/-- What keeps a value from being what it should be. -/
inductive Flaw where
  | notString
  | emptyString
  | notNumber
  | unreadableNumber
  | notInteger
  | fractionalInteger
  | unreadableInteger
  | integerSize
  | notFinite
  | notFlag
  | unreadableFlag
  | notMember (allowed : List String)
  | notLiteral (allowed : List String)
  | notList
  | notObject
  | notTuple
  | tupleLength (limit actual : Nat)
  | notEntity (name : String)
  | missing
  | unknownKey
  | nesting
  | notTaggable
  | untagged (tag : String)
  | unknownTag (tag found : String) (allowed : List String)
  | notAbove (bound : Int)
  | notAtLeast (bound : Int)
  | notAtMost (bound : Int)
  | unmatched (pattern : String)
  | unreadableTime
  | refused (reason : String)
  deriving DecidableEq, Repr

namespace Flaw

/-- The alternatives in quotes, the last two joined by a word. -/
def alternatives (allowed : List String) : String :=
  let quotes := allowed.map fun text => "'" ++ text ++ "'"
  match quotes.reverse with
  | last :: first :: rest => ", ".intercalate (first :: rest).reverse ++ " or " ++ last
  | _ => "".intercalate quotes

def code : Flaw → String
  | notString => "string_type"
  | emptyString => "string_too_short"
  | notNumber => "float_type"
  | unreadableNumber => "float_parsing"
  | notInteger => "int_type"
  | fractionalInteger => "int_from_float"
  | unreadableInteger => "int_parsing"
  | integerSize => "int_parsing_size"
  | notFinite => "finite_number"
  | notFlag => "bool_type"
  | unreadableFlag => "bool_parsing"
  | notMember _ => "enum"
  | notLiteral _ => "literal_error"
  | notList => "list_type"
  | notObject => "dict_type"
  | notTuple => "tuple_type"
  | tupleLength _ _ => "too_long"
  | notEntity _ => "model_type"
  | missing => "missing"
  | unknownKey => "extra_forbidden"
  | nesting => "recursion_depth_exceeded"
  | notTaggable => "model_attributes_type"
  | untagged _ => "union_tag_not_found"
  | unknownTag _ _ _ => "union_tag_invalid"
  | notAbove _ => "greater_than"
  | notAtLeast _ => "greater_than_equal"
  | notAtMost _ => "less_than_equal"
  | unmatched _ => "string_pattern_mismatch"
  | unreadableTime => "datetime_from_date_parsing"
  | refused _ => "value_error"

def message : Flaw → String
  | notString => "Input should be a valid string"
  | emptyString => "String should have at least 1 character"
  | notNumber => "Input should be a valid number"
  | unreadableNumber => "Input should be a valid number, unable to parse string as a number"
  | notInteger => "Input should be a valid integer"
  | fractionalInteger => "Input should be a valid integer, got a number with a fractional part"
  | unreadableInteger => "Input should be a valid integer, unable to parse string as an integer"
  | integerSize => "Unable to parse input string as an integer, exceeded maximum size"
  | notFinite => "Input should be a finite number"
  | notFlag => "Input should be a valid boolean"
  | unreadableFlag => "Input should be a valid boolean, unable to interpret input"
  | notMember allowed | notLiteral allowed => s!"Input should be {alternatives allowed}"
  | notList => "Input should be a valid list"
  | notObject => "Input should be a valid dictionary"
  | notTuple => "Input should be a valid tuple"
  | tupleLength limit actual =>
    s!"Tuple should have at most {limit} items after validation, not {actual}"
  | notEntity name => s!"Input should be a valid dictionary or instance of {name}"
  | missing => "Field required"
  | unknownKey => "Extra inputs are not permitted"
  | nesting => "Recursion error - maximum validation depth exceeded"
  | notTaggable => "Input should be a valid dictionary or object to extract fields from"
  | untagged tag => s!"Unable to extract tag using discriminator '{tag}'"
  | unknownTag tag found allowed =>
    let expected := ", ".intercalate (allowed.map fun text => "'" ++ text ++ "'")
    s!"Input tag '{found}' found using '{tag}' does not match any of the expected tags: {expected}"
  | notAbove bound => s!"Input should be greater than {bound}"
  | notAtLeast bound => s!"Input should be greater than or equal to {bound}"
  | notAtMost bound => s!"Input should be less than or equal to {bound}"
  | unmatched pattern => s!"String should match pattern '{pattern}'"
  | unreadableTime => "Input should be a valid datetime or date"
  | refused reason => s!"Value error, {reason}"

end Flaw

/-- A step from a value to a part of it. -/
inductive PathStep where
  | key (name : String)
  | index (position : Nat)
  deriving DecidableEq, Repr

def PathStep.toJson : PathStep → Json
  | key name => .string name
  | index position => .int position

/-- A step as it is shown between dots. -/
def PathStep.text : PathStep → String
  | key name => name
  | index position => position.repr

/-- A flaw, where it is, and the value that has it. -/
structure Issue where
  flaw : Flaw
  path : List PathStep
  input : Json

namespace Issue

/-- The issue as seen from a value of which its root is a part. -/
def under (step : PathStep) (issue : Issue) : Issue := { issue with path := step :: issue.path }

/-- Kind, place and wording. -/
def toJson (issue : Issue) : Json :=
  .object [("type", .string issue.flaw.code), ("loc", .array (issue.path.map PathStep.toJson)),
    ("msg", .string issue.flaw.message)]

/-- Kind, place, wording and the value at fault. -/
def toJsonWithInput (issue : Issue) : Json :=
  .object [("type", .string issue.flaw.code), ("loc", .array (issue.path.map PathStep.toJson)),
    ("msg", .string issue.flaw.message), ("input", issue.input)]

end Issue

end Flowchart
