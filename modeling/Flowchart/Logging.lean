import Flowchart.Error
import Flowchart.Settings

/-!
# Logging

* `Logging`: the levels of the program's loggers, and how many handlers there are.
* `Logging.configure`: sets the level; the handler is replaced. The loggers of clients are held at
  warnings unless the program itself logs at debugging level.
-/

namespace Flowchart

structure Logging where
  level : Int := 0
  handlers : Nat := 0
  clientLevel : Int := 0
  deriving DecidableEq, Repr

namespace Logging

/-- The logger of a part of the program. -/
def loggerName (part : String) : String := "BlueprintFlow." ++ part

/-- The upper case of a letter in the name of a level. -/
def upper (c : Char) : Char := if c == 'ı' then 'I' else c.toUpper

/-- The number of a level that is given by its name in any case. -/
def levelOfName (name : String) : Except Failure Int :=
  match LogLevel.names.lookup (String.ofList (name.toList.map upper)) with
  | some level => .ok level.number
  | none => .error (.badValue s!"Invalid log level: {name}")

def configure (level : Int) : Logging :=
  { level, handlers := 1
    clientLevel := (if level ≤ LogLevel.debug.number then LogLevel.debug else .warning).number }

end Logging

end Flowchart
