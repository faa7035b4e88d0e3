/-!
# Pin kinds

* `Kind`: what a pin carries.
* `Link`: the two classes of connections.
* `Kind.accepts`: which kinds may feed which. `any` fits every kind on either side, and every other
  kind fits itself alone.
* `Link.objection?`: why a connection of a class may not join two kinds, if it may not.
-/

namespace Flowchart

/-- What a pin carries: control or a kind of data. -/
inductive Kind where
  | execution
  | string
  | number
  | boolean
  | object
  | array
  | any
  deriving DecidableEq, Repr

namespace Kind

def all : List Kind := [execution, string, number, boolean, object, array, any]

def name : Kind → String
  | execution => "execution"
  | string => "string"
  | number => "number"
  | boolean => "boolean"
  | object => "object"
  | array => "array"
  | any => "any"

/-- The kinds under their names. -/
def names : List (String × Kind) := all.map fun kind => (kind.name, kind)

def ofName? (name : String) : Option Kind := names.lookup name

/-- Whether a value of the first kind may flow into a pin of the second. -/
def feeds (producer consumer : Kind) : Bool :=
  producer == any || consumer == any || producer == consumer

/-- The kinds that a producer may feed, in the order of declaration. -/
def consumers (producer : Kind) : List Kind := all.filter producer.feeds

end Kind

/-- The class of a connection: control flow or a flow of data. -/
inductive Link where
  | execution
  | data
  deriving DecidableEq, Repr

/-- Why a connection may not join two pins. -/
inductive Objection where
  | executionOnly (producer consumer : Kind)
  | dataOnly (producer consumer : Kind)
  | unlike (producer consumer : Kind)
  deriving DecidableEq, Repr

def Objection.message : Objection → String
  | executionOnly p c =>
    s!"Execution connections join execution pins only, got {p.name} -> {c.name}"
  | dataOnly p c => s!"Data connections cannot use execution pins, got {p.name} -> {c.name}"
  | unlike p c => s!"Cannot connect {p.name} to {c.name}"

namespace Link

def name : Link → String
  | execution => "execution"
  | data => "data"

def names : List (String × Link) := [("execution", execution), ("data", data)]

/-- The class implied by the kind of a source pin. -/
def ofProducer (producer : Kind) : Link :=
  if producer = .execution then execution else data

/-- An execution connection joins execution pins. A data connection joins other pins, of kinds that
fit. -/
def objection? (link : Link) (producer consumer : Kind) : Option Objection :=
  match link with
  | execution =>
    if producer = .execution ∧ consumer = .execution then none
    else some (.executionOnly producer consumer)
  | data =>
    if producer = .execution ∨ consumer = .execution then some (.dataOnly producer consumer)
    else if producer.feeds consumer then none
    else some (.unlike producer consumer)

end Link

end Flowchart
