import Flowchart.Json.Value

/-!
# Merging a patch into an object

`patchFields target patch` deletes the keys whose patch is null, merges an object into an object, and
lets any other value replace what is there. Keys keep their places and new ones follow in the order
of the patch. An object that meets no object is taken over as it stands, nulls included.
-/

namespace Flowchart

namespace Json

mutual

/-- Merges the patch of one key into the fields of an object. -/
def patchField (target : Fields) (key : String) : Json → Fields
  | null => target.erase key
  | object patch =>
    match target.get? key with
    | some (object fields) => target.put key (object (patchFields fields patch))
    | _ => target.put key (object patch)
  | value => target.put key value

/-- Merges a patch into the fields of an object, key by key. -/
def patchFields (target : Fields) : List (String × Json) → Fields
  | [] => target
  | (key, value) :: rest => patchFields (patchField target key value) rest

end

end Json

end Flowchart
