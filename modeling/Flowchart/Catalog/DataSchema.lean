import Flowchart.Schema.Record

/-!
# Schemas of node properties

* `DataRule`: what one property of a node must be.
* `DataSchema`: the properties a node of some type may have. None is required, and no others are
  allowed.
* `DataSchema.problems`: what is wrong with the properties of a node, a sentence each.
-/

namespace Flowchart

/-- What a property must be. Of two bounds the upper one is put first. -/
inductive DataRule where
  | text
  | texts
  | flag
  | integer (least most : Int)
  | numberWithin (least most : Int)
  | numberAbove (bound : Int)
  | choice (names : List String)
  | pattern (names : List String)
  | nullable (rule : DataRule)

namespace DataRule

/-- A choice of words as a pattern for the whole text. -/
def patternText (names : List String) : String := "^(" ++ "|".intercalate names ++ ")$"

def check : DataRule → Json → Checked Unit
  | text, v => (fun _ => ()) <$> Check.text v
  | texts, v => (fun _ => ()) <$> Check.list Check.text v
  | flag, v => (fun _ => ()) <$> Check.flag v
  | integer least most, v =>
    (fun _ => ()) <$> Check.atLeast least (Check.atMost most Check.integer) v
  | numberWithin least most, v =>
    (fun _ => ()) <$> Check.numberAtLeast least (Check.numberAtMost most Check.number) v
  | numberAbove bound, v => (fun _ => ()) <$> Check.numberAbove bound Check.number v
  | choice names, v => Check.literal (names.map fun name => (name, ())) v
  | pattern names, v =>
    (fun _ => ()) <$> Check.demand Check.text names.contains (.unmatched (patternText names)) v
  | nullable _, .null => .ok ()
  | nullable rule, v => rule.check v

end DataRule

/-- The properties of a type of nodes and their rules. -/
abbrev DataSchema := List (FieldName × DataRule)

namespace DataSchema

def check (schema : DataSchema) (data : Json.Fields) : Checked Unit :=
  let r : Record := ⟨data⟩
  schema.foldr
    (fun field rest => (fun _ u => u) <$> r.optional field.1 field.2.check <*> rest)
    (r.noOthers (schema.map Prod.fst))

/-- What is wrong with the properties of a node, a sentence each. -/
def problems (schema : DataSchema) (data : Json.Fields) : List String :=
  (schema.check data).issues.map fun issue =>
    let place :=
      if issue.path.isEmpty then "<root>" else ".".intercalate (issue.path.map PathStep.text)
    s!"data.{place}: {issue.flaw.message}"

end DataSchema

end Flowchart
