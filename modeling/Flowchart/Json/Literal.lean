import Flowchart.Decimal.Layout
import Flowchart.Json.Value
import Flowchart.Text.Quoted

/-!
# Values in messages

* `Json.literal`: a value as it is named in a message, strings in quotes.
* `Json.plainText`: the same, but a string stands for itself.
-/

namespace Flowchart

namespace Json

mutual

def literal : Json → String
  | null => "None"
  | bool true => "True"
  | bool false => "False"
  | int n => n.repr
  | double x => doubleText .plain x
  | string text => quoted text
  | array items => "[" ++ ", ".intercalate (literalItems items) ++ "]"
  | object fields => "\x7b" ++ ", ".intercalate (literalFields fields) ++ "\x7d"

def literalItems : List Json → List String
  | [] => []
  | item :: items => literal item :: literalItems items

def literalFields : List (String × Json) → List String
  | [] => []
  | (key, value) :: fields => (quoted key ++ ": " ++ literal value) :: literalFields fields

end

/-- A string stands for itself, any other value for its literal. -/
def plainText : Json → String
  | string text => text
  | value => value.literal

end Json

end Flowchart
