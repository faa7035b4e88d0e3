/-!
# JSON values

* `Json`: a value with integers and doubles kept apart and the fields of an object in order.
* `Json.Fields`: an object's fields. A key written twice keeps its first place and its last value.
-/

namespace Flowchart

/-- A JSON value. A number is an integer of any size or a double. -/
inductive Json where
  | null
  | bool (value : Bool)
  | int (value : Int)
  | double (value : Float)
  | string (value : String)
  | array (items : List Json)
  | object (fields : List (String × Json))
  deriving Inhabited

namespace Json

/-- The fields of an object, in the order of their first appearance. -/
abbrev Fields := List (String × Json)

namespace Fields

/-- The value of a key. -/
def get? (key : String) : Fields → Option Json
  | [] => none
  | (k, v) :: rest => if k = key then some v else get? key rest

/-- A present key gets the value in its place, a new key goes to the end. -/
def put (key : String) (value : Json) : Fields → Fields
  | [] => [(key, value)]
  | (k, v) :: rest => if k = key then (key, value) :: rest else (k, v) :: put key value rest

/-- The fields without a key. -/
def erase (key : String) (fields : Fields) : Fields :=
  fields.filter fun field => field.1 ≠ key

/-- Later fields replace or follow the earlier ones. -/
def merge (fields later : Fields) : Fields :=
  later.foldl (fun fields field => fields.put field.1 field.2) fields

/-- The fields of a list of pairs in which keys may repeat. -/
def ofPairs (pairs : List (String × Json)) : Fields := merge [] pairs

def keys (fields : Fields) : List String := fields.map Prod.fst

end Fields

/-- A field of an object; none of any other value. -/
def field? (key : String) : Json → Option Json
  | object fields => Fields.get? key fields
  | _ => none

/-- An array of strings. -/
def strings (texts : List String) : Json := array (texts.map string)

/-- A value that may be missing is written as null. -/
def nullable (write : α → Json) : Option α → Json
  | none => null
  | some a => write a

end Json

end Flowchart
