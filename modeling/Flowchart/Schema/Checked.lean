import Flowchart.Schema.Issue

/-!
# Checked values

A check answers `ok` with a value or `bad` with every issue that was found. Checks of several parts
are joined with `<*>`, which keeps the issues of all of them in order.
-/

namespace Flowchart

/-- A value, or the issues that were found instead. -/
inductive Checked (α : Type u) where
  | ok (value : α)
  | bad (issues : List Issue)

namespace Checked

def map (f : α → β) : Checked α → Checked β
  | ok a => ok (f a)
  | bad issues => bad issues

/-- Applies a checked function; the issues of both sides are kept. -/
def apply : Checked (α → β) → Checked α → Checked β
  | ok f, ok a => ok (f a)
  | ok _, bad issues => bad issues
  | bad issues, ok _ => bad issues
  | bad issues, bad more => bad (issues ++ more)

instance : Applicative Checked where
  pure := ok
  map := map
  seq f a := apply f (a ())

/-- A check of a value that passed another check. -/
def andThen (checked : Checked α) (next : α → Checked β) : Checked β :=
  match checked with
  | ok a => next a
  | bad issues => bad issues

/-- A single flaw of the value at hand. -/
def flaw (flaw : Flaw) (input : Json) : Checked α := bad [⟨flaw, [], input⟩]

/-- The issues as seen from the value around the checked one. -/
def under (step : PathStep) : Checked α → Checked α
  | ok a => ok a
  | bad issues => bad (issues.map (Issue.under step))

def issues : Checked α → List Issue
  | ok _ => []
  | bad issues => issues

def toExcept : Checked α → Except (List Issue) α
  | ok a => .ok a
  | bad issues => .error issues

/-- Checks each item; its issues are found under its position. -/
def items (check : Json → Checked α) : Nat → List Json → Checked (List α)
  | _, [] => ok []
  | position, item :: rest =>
    List.cons <$> (check item).under (.index position) <*> items check (position + 1) rest

end Checked

end Flowchart
