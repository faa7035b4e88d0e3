/-!
# Listeners

`Bus` knows who listens to which events. A listener that fails has still been told, and does not keep
the others from being told. A listener that takes its time is only told by those who wait.
-/

namespace Flowchart

inductive ListenerMode where
  | plain
  | failing
  | waiting
  deriving DecidableEq, Repr

structure Listener where
  name : String
  mode : ListenerMode
  deriving DecidableEq, Repr

/-- The listeners of each event, in the order in which they came. -/
abbrev Bus := List (String × Listener)

namespace Bus

def subscribe (bus : Bus) (event : String) (listener : Listener) : Bus := bus ++ [(event, listener)]

/-- The listeners that are told of an event by one who waits, or does not. -/
def told (bus : Bus) (waits : Bool) (event : String) : List Listener :=
  (bus.filter fun entry => entry.1 == event && (waits || entry.2.mode ≠ .waiting)).map Prod.snd

end Bus

end Flowchart
