import Flowchart.Json.Literal
import Flowchart.Schema.Record

/-!
# Conversations with the assistant

* `Role`, `Message`: what was said, and by whom.
* `Message.check`: reads a message; other keys are ignored.
* `recent`: the last exchanges of a conversation, two messages each.
* `flattenContent`: the text of an answer that comes whole or in parts.
-/

namespace Flowchart

inductive Role where
  | user
  | assistant
  deriving DecidableEq, Repr

namespace Role

def name : Role → String
  | user => "user"
  | assistant => "assistant"

def names : List (String × Role) := [("user", user), ("assistant", assistant)]

/-- The role as a prompt shows it. -/
def speaker : Role → String
  | user => "User"
  | assistant => "Assistant"

end Role

structure Message where
  role : Role
  content : String
  deriving DecidableEq, Repr

namespace Message

def check : Json → Checked Message :=
  Check.openEntity "ChatMessage" fun r =>
    Message.mk <$> r.required (.plain "role") (Check.literal Role.names) <*>
      r.required (.plain "content") Check.text

def toJson (m : Message) : Json :=
  .object [("role", .string m.role.name), ("content", .string m.content)]

end Message

/-- The last `exchanges` exchanges, oldest first. -/
def recent (conversation : List Message) (exchanges : Int) : List Message :=
  conversation.drop (conversation.length - 2 * exchanges.toNat)

/-- The text of one part of an answer: a string, or the text of a part that is marked as text. -/
def partText : Json → String
  | .string text => text
  | part =>
    match part.field? "type" with
    | some (.string "text") => ((part.field? "text").map Json.plainText).getD ""
    | _ => ""

/-- The text of an answer that comes whole or in parts. -/
def flattenContent : Json → String
  | .array parts => String.join (parts.map partText)
  | content => content.plainText

end Flowchart
