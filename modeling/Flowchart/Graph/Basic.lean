/-!
# Directed graphs

`Graph` lists each vertex with the vertices that its edges lead to.
-/

namespace Flowchart

/-- Each vertex with the targets of its edges, in order. -/
abbrev Graph := List (String × List String)

namespace Graph

def vertices (g : Graph) : List String := g.map Prod.fst

/-- The targets of a vertex; a name that is no vertex has none. -/
def next (g : Graph) (v : String) : List String := (g.lookup v).getD []

/-- The number of edges. -/
def edgeCount (g : Graph) : Nat := g.foldl (fun count entry => count + entry.2.length) 0

end Graph

end Flowchart
