import Flowchart.Graph.Basic

/-!
# Reachability

`Graph.reachable` lists the vertices that some entries lead to, the entries included.
-/

namespace Flowchart

namespace Graph

/-- Works off the vertices still to be seen. Each vertex is expanded once, so that entries and edges
together bound the steps. They are taken from the front, where a stack gives the last one first: only which vertices are
seen matters, and these are the same in any order. -/
def collect (g : Graph) : Nat → List String → List String → List String
  | 0, _, seen => seen
  | _, [], seen => seen
  | fuel + 1, v :: pending, seen =>
    if seen.contains v then collect g fuel pending seen
    else collect g fuel (g.next v ++ pending) (v :: seen)

/-- The vertices that the entries lead to. -/
def reachable (g : Graph) (entries : List String) : List String :=
  g.collect (entries.length + g.edgeCount) entries []

end Graph

end Flowchart
