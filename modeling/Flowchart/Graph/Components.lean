import Flowchart.Graph.Basic

/-!
# Weakly connected components

* `Forest`: each vertex with its parent; a root is its own parent.
* `Forest.find`: the root of a vertex. On the way each vertex that is visited gets its grandparent for
  a parent.
* `Graph.components`: each vertex with a root that it shares with the vertices of its component.
-/

namespace Flowchart

/-- Each vertex with its parent. -/
abbrev Forest := List (String × String)

namespace Forest

/-- Every vertex a root. -/
def discrete (vertices : List String) : Forest := vertices.map fun v => (v, v)

def parent (f : Forest) (v : String) : String := (f.lookup v).getD v

/-- Gives a vertex another parent. -/
def setParent (f : Forest) (v parent : String) : Forest :=
  f.map fun entry => if entry.1 == v then (v, parent) else entry

/-- Walks up to the root of a vertex and halves the path on the way. A path is never longer than the
forest is large. -/
def find : Nat → Forest → String → String × Forest
  | 0, f, v => (v, f)
  | fuel + 1, f, v =>
    if f.parent v = v then (v, f)
    else
      let grandparent := f.parent (f.parent v)
      find fuel (f.setParent v grandparent) grandparent

/-- The root of a vertex, and the forest with the path to it halved. -/
def root (f : Forest) (v : String) : String × Forest := find (f.length + 1) f v

/-- Joins the trees of the two ends of an edge. -/
def join (f : Forest) (source target : String) : Forest :=
  let (a, f) := f.root source
  let (b, f) := f.root target
  if a = b then f else f.setParent b a

end Forest

namespace Graph

/-- The edges, vertex by vertex. -/
def edges (g : Graph) : List (String × String) :=
  g.flatMap fun entry => entry.2.map fun target => (entry.1, target)

/-- The forest with the trees of all edges joined. -/
def forest (g : Graph) : Forest :=
  g.edges.foldl (fun f edge => f.join edge.1 edge.2) (Forest.discrete g.vertices)

/-- Each vertex with the root of its component. -/
def components (g : Graph) : List (String × String) :=
  let f := g.forest
  g.vertices.map fun v => (v, (f.root v).1)

/-- The root that components give for a vertex. -/
def rootIn (components : List (String × String)) (v : String) : String :=
  (components.lookup v).getD v

end Graph

end Flowchart
