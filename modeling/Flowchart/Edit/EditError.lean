import Flowchart.Document.Basic
import Flowchart.Error

/-!
# Why an edit cannot be made

`EditError` has one constructor for each cause. `EditError.failure` is the error as it is handed to a
caller.
-/

namespace Flowchart

inductive EditError where
  | nodeTaken (id : String)
  | connectionTaken (id : String)
  | nameTaken (id name holder : String)
  | commentTaken (id : String)
  | missingNode (id : String)
  | missingConnection (id : String)
  | missingVariable (id : String)
  | missingComment (id : String)
  | missingPin (at_ : End) (side : Side)
  | misplacedPin (at_ : End) (side : Side)
  | unknownType (type : String) (known : List String)
  | mismatch (source target : End) (producer consumer : Kind) (link : String)
      (objection : Objection)
  | fanIn (target : End) (holder : String)
  | lostNode (id : String) (position : Nat)
  | lostConnection (id : String) (position : Nat)
  | malformed (issues : List Issue)

namespace EditError

/-- The kind of the error; none of a part that its own schema refuses. -/
def kind? : EditError → Option ErrorKind
  | nodeTaken _ | connectionTaken _ | nameTaken _ _ _ | commentTaken _ => some .duplicateId
  | missingNode _ | missingConnection _ | missingVariable _ | missingComment _ | missingPin _ _
  | misplacedPin _ _ | unknownType _ _ => some .invalidReference
  | mismatch _ _ _ _ _ _ => some .typeMismatch
  | fanIn _ _ => some .fanInViolation
  | lostNode _ _ | lostConnection _ _ => some .indexCorruption
  | malformed _ => none

def pinDetails (e : End) (side : Side) : Json.Fields :=
  [("node_id", .string e.node), ("pin_id", .string e.pin), ("direction", .string side.name)]

def failure : EditError → Failure
  | nodeTaken id =>
    .reported (.of .duplicateId s!"Node id '{id}' already exists" [("node_id", .string id)])
  | connectionTaken id =>
    .reported (.of .duplicateId s!"Connection id '{id}' already exists"
      [("connection_id", .string id)])
  | nameTaken id name holder =>
    .reported (.of .duplicateId s!"Variable name '{name}' is already used by '{holder}'"
      [("variable_id", .string id), ("name", .string name)])
  | commentTaken id =>
    .reported (.of .duplicateId s!"Comment id '{id}' already exists" [("comment_id", .string id)])
  | missingNode id =>
    .reported (.of .invalidReference s!"Node '{id}' does not exist" [("node_id", .string id)])
  | missingConnection id =>
    .reported (.of .invalidReference s!"Connection '{id}' does not exist"
      [("connection_id", .string id)])
  | missingVariable id =>
    .reported (.of .invalidReference s!"Variable '{id}' does not exist"
      [("variable_id", .string id)])
  | missingComment id =>
    .reported (.of .invalidReference s!"Comment '{id}' does not exist" [("comment_id", .string id)])
  | missingPin e side =>
    .reported (.of .invalidReference s!"Pin '{e.text}' does not exist" (pinDetails e side))
  | misplacedPin e side =>
    .reported (.of .invalidReference
      s!"Pin '{e.text}' is an {side.other.name} pin, expected an {side.name} pin"
      (pinDetails e side))
  | unknownType type known =>
    .reported (.of .invalidReference s!"Node type '{type}' is not registered"
      [("node_type", .string type), ("known_types", Json.strings known)])
  | mismatch source target producer consumer link objection =>
    .reported (.of .typeMismatch objection.message
      [("from", .string source.text), ("to", .string target.text),
        ("producer", .string producer.name), ("consumer", .string consumer.name),
        ("connection_type", .string link)])
  | fanIn target holder =>
    .reported (.of .fanInViolation
      s!"Input '{target.text}' already receives data from connection '{holder}'"
      [("to", .string target.text), ("existing_connection_id", .string holder)])
  | lostNode id position =>
    .reported (.of .indexCorruption s!"Node index points '{id}' at position {position}"
      [("node_id", .string id), ("position", .int position)])
  | lostConnection id position =>
    .reported (.of .indexCorruption s!"Connection index points '{id}' at position {position}"
      [("connection_id", .string id), ("position", .int position)])
  | malformed issues => .invalid issues

end EditError

end Flowchart
