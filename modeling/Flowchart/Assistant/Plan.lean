import Flowchart.Edit.Grammar
import Flowchart.Error
import Flowchart.Json.Strain
import Flowchart.Text.Blank

/-!
# Plans

The assistant answers with a plan: an explanation and the operations it proposes. An answer is a plan
if it is one JSON object in the grammar of operations, either bare or in the only fenced block of the
text. Nothing else is made of an answer.

Whether an answer is a plan is said by `Plan.parse`, however long its integers and however deep its arrays are.
`Plan.load` is what a reader with its limits makes of it.
-/

namespace Flowchart

structure Plan where
  explanation : String
  operations : List Operation

def Plan.toJson (p : Plan) : Json :=
  .object [("explanation", .string p.explanation),
    ("operations", Operation.listToJson p.operations)]

/-- Why an answer is no plan. -/
inductive PlanError where
  | noBlock (response : String)
  | manyBlocks (count : Nat) (response : String)
  | notJson (mistake : Json.Mistake) (text : List Char) (response : String)
  | notObject (response : String)
  | mismatch (issues : List Issue)

namespace PlanError

/-- As much of an answer as is shown in an error. -/
def shown (response : String) : Json.Fields :=
  [("response", .string (String.ofList (response.toList.take 2000)))]

def message : PlanError → String
  | noBlock _ => "The assistant response contains no JSON plan"
  | manyBlocks count _ => s!"The assistant response contains {count} JSON blocks; expected one"
  | notJson mistake text _ => s!"The assistant plan is not valid JSON: {mistake.message text}"
  | notObject _ => "The assistant plan must be a JSON object"
  | mismatch issues =>
    s!"The assistant plan does not match the operation grammar: {issues.length} error(s)"

def details : PlanError → Json.Fields
  | noBlock response | manyBlocks _ response | notJson _ _ response | notObject response =>
    shown response
  | mismatch issues => [("errors", .array (issues.map Issue.toJson))]

def report (e : PlanError) : ErrorReport := .of .malformedPlan e.message e.details

end PlanError

/-! ### Fenced blocks -/

def fence : List Char := "```".toList

/-- What follows a prefix. -/
def afterPrefix? (start text : List Char) : Option (List Char) :=
  if start.isPrefixOf text then some (text.drop start.length) else none

/-- What follows the opening line of a block: the fence, the word `json` or nothing, and blanks. -/
def openFence? (text : List Char) : Option (List Char) := do
  let rest ← afterPrefix? fence text
  let rest := (afterPrefix? "json".toList rest).getD rest
  match rest.dropWhile fun c => c == ' ' || c == '\t' with
  | '\n' :: body => some body
  | _ => none

/-- A block's text up to the next fence, and what follows that fence. -/
def closeFence? : List Char → Option (List Char × List Char)
  | [] => none
  | c :: rest =>
    match afterPrefix? fence (c :: rest) with
    | some after => some ([], after)
    | none => (closeFence? rest).map fun (body, after) => (c :: body, after)

/-- The fenced blocks of a text, from left to right; `fuel` is at least its length. -/
def fencedBlocks : Nat → List Char → List (List Char)
  | 0, _ | _, [] => []
  | fuel + 1, c :: rest =>
    match (openFence? (c :: rest)).bind closeFence? with
    | some (body, after) => body :: fencedBlocks fuel after
    | none => fencedBlocks fuel rest

/-! ### From an answer to a plan -/

/-- The text of the one JSON object in an answer. -/
def extractJson (response : String) : Except PlanError (List Char) :=
  let text := trim isBlank response.toList
  if text.head? == some '\x7b' then .ok text
  else
    match fencedBlocks text.length text with
    | [block] => .ok (trim isBlank block)
    | [] => .error (.noBlock response)
    | blocks => .error (.manyBlocks blocks.length response)

namespace Plan

def check : Json → Checked Plan :=
  Check.entity "Plan" [.plain "explanation", .plain "operations"] fun r =>
    (fun explanation operations => ⟨explanation, operations.getD []⟩) <$>
      r.required (.plain "explanation") Check.text <*>
      r.optional (.plain "operations") Operation.checkList

/-- The plan that an answer is. -/
def parse (response : String) : Except PlanError Plan := do
  let text ← extractJson response
  match Json.parse (String.ofList text) with
  | .error mistake => throw (.notJson mistake text response)
  | .ok (.object fields) => (check (.object fields)).toExcept.mapError .mismatch
  | .ok _ => throw (.notObject response)

end Plan

/-! ### What a reader makes of an answer -/

/-- Why there is no plan. Whoever asked is told why the assistant is not available, and why its answer is no plan; an
answer that strains the reader is a failure of its own. -/
inductive NoPlan where
  | unavailable (report : ErrorReport)
  | malformed (e : PlanError)
  | strained (s : Json.Strain)

/-- The failure of a reader for which a text was too much. -/
def Json.Strain.failure : Json.Strain → Failure
  | digits count =>
    .badValue <| s!"Exceeds the limit ({maxDigits} digits) for integer string conversion: value has {count} digits; " ++
      "use sys.set_int_max_str_digits() to increase the limit"
  | depth => .tooDeep

/-- The plan that an answer is, if the reader has room for it. -/
def Plan.load (room : Nat) (response : String) : Except NoPlan Plan := do
  let text ← (extractJson response).mapError .malformed
  match Json.strain? room text with
  | some strain => throw (.strained strain)
  | none => (parse response).mapError .malformed

end Flowchart
