/-!
# The words of a command line

* `OptionForm`: an option that a command knows, with a value or without.
* `Word.read`: what a single word is to such a command.
* `Arguments.read`: the options and operands in a list of words. A word that is the value of an option
  is nothing else, and after two dashes there are only operands.
-/

namespace Flowchart

structure OptionForm where
  /-- The name, with its dashes. -/
  name : String
  /-- The letter that stands for the name. -/
  letter : Option Char := none
  takesValue : Bool := true
  deriving DecidableEq, Repr

/-- What a word is. -/
inductive Word where
  | operand
  /-- The end of the options. -/
  | dashes
  /-- An option, with the value that is joined to it. -/
  | option (form : OptionForm) (value : Option String)
  | unknownOption

namespace Word

/-- The name before the first equals sign, and the value after it. -/
def split (word : List Char) : List Char × Option String :=
  match word.span (· ≠ '=') with
  | (name, '=' :: value) => (name, some (String.ofList value))
  | (name, _) => (name, none)

/-- An option that is given by its name. -/
def named? (forms : List OptionForm) (word : List Char) : Option Word :=
  let (name, value) := split word
  (forms.find? fun form => form.name.toList == name).map fun form => option form value

/-- An option that is given by its letter; the value may follow without a blank. -/
def lettered? (forms : List OptionForm) : List Char → Option Word
  | '-' :: letter :: value =>
    (forms.find? fun form => form.letter == some letter).map fun form =>
      option form (if value.isEmpty then none else some (String.ofList value))
  | _ => none

/-- A single dash is an operand. -/
def read (forms : List OptionForm) (word : String) : Word :=
  match word.toList with
  | ['-', '-'] => dashes
  | '-' :: c :: rest =>
    ((named? forms ('-' :: c :: rest)).or (lettered? forms ('-' :: c :: rest))).getD unknownOption
  | _ => operand

end Word

/-- What is wrong with a list of words. -/
inductive Misuse where
  | unknownOption (word : String)
  | missingValue (name : String)
  | unwantedValue (name : String)
  | missingOperand (name : String)
  | extraOperand (word : String)
  | missingCommand
  | unknownCommand (word : String)
  | missingFile (name word : String)
  deriving DecidableEq, Repr

def Misuse.message : Misuse → String
  | unknownOption word => s!"No such option: {word}"
  | missingValue name => s!"Option '{name}' requires an argument."
  | unwantedValue name => s!"Option '{name}' does not take a value."
  | missingOperand name => s!"Missing argument '{name}'."
  | extraOperand word => s!"Got unexpected extra argument ({word})"
  | missingCommand => "Missing command."
  | unknownCommand word => s!"No such command '{word}'."
  | missingFile name word => s!"Invalid value for '{name}': File '{word}' does not exist."

/-- The options in the order in which they were given, flags with an empty value, and the operands. -/
structure Arguments where
  options : List (String × String) := []
  operands : List String := []
  deriving DecidableEq, Repr

namespace Arguments

/-- Whether an option was given. -/
def has (a : Arguments) (name : String) : Bool := (a.options.lookup name).isSome

/-- The value of an option; the last one counts. -/
def value? (a : Arguments) (name : String) : Option String := a.options.reverse.lookup name

/-- Adds an option before the others. -/
def withOption (form : OptionForm) (value : String) (a : Arguments) : Arguments :=
  { a with options := (form.name, value) :: a.options }

/-- Adds an operand before the others. -/
def withOperand (word : String) (a : Arguments) : Arguments :=
  { a with operands := word :: a.operands }

/-- Reads words from the left. If options and operands are not `mixed`, the first operand ends the
options. -/
def read (forms : List OptionForm) (mixed : Bool) : List String → Except Misuse Arguments
  | [] => .ok {}
  | word :: rest =>
    match Word.read forms word with
    | .operand =>
      if mixed then (read forms mixed rest).map (withOperand word)
      else .ok { operands := word :: rest }
    | .dashes => .ok { operands := rest }
    | .unknownOption => .error (.unknownOption word)
    | .option form none =>
      if form.takesValue then
        match rest with
        | [] => .error (.missingValue form.name)
        | value :: later => (read forms mixed later).map (withOption form value)
      else (read forms mixed rest).map (withOption form "")
    | .option form (some value) =>
      if form.takesValue then (read forms mixed rest).map (withOption form value)
      else .error (.unwantedValue form.name)

end Arguments

end Flowchart
