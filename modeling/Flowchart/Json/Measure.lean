import Flowchart.Json.Value

/-!
# Depth and finiteness of JSON values

* `Json.depth`: how many arrays and objects are nested in one another.
* `Json.isFinite`: whether every number has a numeral.
* `Json.finitePart`: a value without the numbers that have none.
-/

namespace Flowchart

namespace Json

mutual

def depth : Json → Nat
  | array items => depthOfItems items + 1
  | object fields => depthOfFields fields + 1
  | _ => 0

def depthOfItems : List Json → Nat
  | [] => 0
  | item :: items => max (depth item) (depthOfItems items)

def depthOfFields : List (String × Json) → Nat
  | [] => 0
  | (_, value) :: fields => max (depth value) (depthOfFields fields)

end

mutual

/-- Whether every double in a value is finite, so that it has a JSON numeral. -/
def isFinite : Json → Bool
  | double x => !(x.isNaN || x.isInf)
  | array items => itemsFinite items
  | object fields => fieldsFinite fields
  | _ => true

def itemsFinite : List Json → Bool
  | [] => true
  | item :: items => isFinite item && itemsFinite items

def fieldsFinite : List (String × Json) → Bool
  | [] => true
  | (_, value) :: fields => isFinite value && fieldsFinite fields

end

mutual

/-- Puts null in the place of every double that is not finite. -/
def finitePart : Json → Json
  | double x => if x.isNaN || x.isInf then null else double x
  | array items => array (finiteItems items)
  | object fields => object (finiteFields fields)
  | v => v

def finiteItems : List Json → List Json
  | [] => []
  | item :: items => finitePart item :: finiteItems items

def finiteFields : List (String × Json) → List (String × Json)
  | [] => []
  | (key, value) :: fields => (key, finitePart value) :: finiteFields fields

end

end Json

end Flowchart
