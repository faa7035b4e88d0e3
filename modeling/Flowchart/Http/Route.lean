import Flowchart.Json.Reader
import Flowchart.Storage.Files

/-!
# Routes

* `Route`: the calls that can be made.
* `Route.find`: the route of a method and a path. A path of another method is told apart from one
  that is not known; slashes at the end of a path do not count.
-/

namespace Flowchart

inductive Route where
  | chat
  | sessionChat (id : String)
  | validate
  | mutate
  | list
  | save
  | fetch (id : String)
  | update (id : String)
  | delete (id : String)
  | commit (id : String)
  | nodeTypes
  deriving DecidableEq, Repr

inductive RouteSearch where
  | found (route : Route)
  | otherMethod
  | unknown
  deriving DecidableEq, Repr

namespace Route

/-- The methods and routes of a path, in the order in which they are tried. -/
def ofSegments : List String → List (String × Route)
  | ["api", "node-types"] => [("GET", nodeTypes)]
  | ["api", "flowchart"] => [("GET", list), ("POST", save)]
  | ["api", "flowchart", id] =>
    if id.isEmpty then []
    else
      (if id == "ai-chat" then [("POST", chat)] else []) ++
        (if id == "validate" then [("POST", validate)] else []) ++
        (if id == "mutations" then [("POST", mutate)] else []) ++
        [("GET", fetch id), ("PUT", update id), ("DELETE", delete id)]
  | ["api", "flowchart", id, "ai-chat"] => if id.isEmpty then [] else [("POST", sessionChat id)]
  | ["api", "flowchart", id, "mutations"] => if id.isEmpty then [] else [("POST", commit id)]
  | _ => []

/-- The bytes of a path whose percent signs are decoded. -/
def percentDecoded : List UInt8 → List UInt8
  | [] => []
  | byte :: rest =>
    let plain := byte :: percentDecoded rest
    if byte ≠ 37 then plain
    else
      match rest with
      | high :: low :: after =>
        match Json.hexDigit? (Char.ofNat high.toNat), Json.hexDigit? (Char.ofNat low.toNat) with
        | some h, some l => UInt8.ofNat (16 * h + l) :: percentDecoded after
        | _, _ => plain
      | _ => plain

/-- A path without query, decoded. -/
def decodedPath (path : String) : String :=
  let plain := path.toList.takeWhile fun c => c ≠ '?' && c ≠ '#'
  let bytes := percentDecoded (String.ofList plain).toUTF8.toList
  (String.fromUTF8? ⟨bytes.toArray⟩).getD (String.ofList plain)

/-- The routes of a path that starts at the root. -/
def ofPath (path : String) : List (String × Route) :=
  match path.splitOn "/" with
  | "" :: segments => ofSegments segments
  | _ => []

/-- A path without the slashes at its end. -/
def withoutSlashes (path : String) : String :=
  String.ofList (path.toList.reverse.dropWhile (· == '/')).reverse

def find (method path : String) : RouteSearch :=
  let path := decodedPath path
  let routes := match ofPath path with
    | [] => ofPath (withoutSlashes path)
    | routes => routes
  match routes.lookup method with
  | some route => .found route
  | none => if routes.isEmpty then .unknown else .otherMethod

end Route

end Flowchart
