import Flowchart.Error

/-!
# Actions

An action on a state may fail. What it has done to the state by then remains.
-/

namespace Flowchart

/-- An action on a state that may fail. -/
abbrev Act (σ : Type) := ExceptT Failure (StateM σ)

namespace Act

/-- Turns a result into an action that changes nothing. -/
def ofExcept (result : Except Failure α) : Act σ α := ExceptT.mk (pure result)

/-- What an action comes to, and the state that it leaves. -/
def out (act : Act σ α) (s : σ) : Except Failure α × σ := act.run.run s

/-- Carries on with what an action has come to, also if it has failed. -/
def attempt (act : Act σ α) : Act σ (Except Failure α) :=
  ExceptT.mk fun s =>
    let (result, s) := act.out s
    (.ok result, s)

end Act

end Flowchart
