import Flowchart.Graph.Components

/-!
# Cycles

`Graph.cycles` searches a graph depth first, from each vertex that no earlier search has visited. An edge
back to the path of the search closes a cycle; the first one of each component is kept.

* `Frame`: a vertex on the path, with the targets of its edges that are still to be looked at.
* `CycleSearch.step`: one turn of a search. A search is over when its path is empty.
-/

namespace Flowchart

/-- A vertex on the path of a search and the targets of its edges that are still to be looked at. -/
structure Frame where
  vertex : String
  pending : List String

/-- A search, and what it and those before it have come by so far. -/
structure CycleSearch where
  /-- the path, its end first -/
  frames : List Frame := []
  visited : List String := []
  /-- the roots of the components whose cycle was found -/
  closed : List String := []
  /-- the cycles, the last one first -/
  cycles : List (List String) := []

namespace CycleSearch

/-- The vertices from the start of the search to where it is. -/
def path (s : CycleSearch) : List String := (s.frames.map Frame.vertex).reverse

/-- Goes on to a vertex that was not visited. -/
def enter (g : Graph) (s : CycleSearch) (v : String) : CycleSearch :=
  { s with frames := ⟨v, g.next v⟩ :: s.frames, visited := v :: s.visited }

/-- Keeps the cycle that an edge back to a vertex of the path closes, unless its component has one. -/
def close (component : String → String) (s : CycleSearch) (target : String) : CycleSearch :=
  let root := component target
  if s.closed.contains root then s
  else
    { s with
      closed := root :: s.closed
      cycles := s.path.dropWhile (· != target) :: s.cycles }

/-- One turn: looks at the next edge of the vertex at the end of the path, or goes back from it if it has
none left. -/
def step (g : Graph) (component : String → String) (s : CycleSearch) : CycleSearch :=
  match s.frames with
  | [] => s
  | ⟨_, []⟩ :: below => { s with frames := below }
  | ⟨v, target :: pending⟩ :: below =>
    let s := { s with frames := ⟨v, pending⟩ :: below }
    if s.path.contains target then s.close component target
    else if s.visited.contains target then s
    else s.enter g target

/-- Takes turns until the search is over, at most `fuel` of them. -/
def run (g : Graph) (component : String → String) : Nat → CycleSearch → CycleSearch
  | 0, s => s
  | fuel + 1, s => if s.frames.isEmpty then s else run g component fuel (s.step g component)

end CycleSearch

namespace Graph

/-- Searches from a vertex that was not visited. A turn leaves a vertex for good or looks at an edge for
the first time, so that vertices and edges together bound the turns. -/
def searchFrom (g : Graph) (component : String → String) (s : CycleSearch) (v : String) :
    CycleSearch :=
  if s.visited.contains v then s else (s.enter g v).run g component (g.length + g.edgeCount)

/-- Searches from some vertices, one after the other. -/
def search (g : Graph) (component : String → String) (starts : List String) : CycleSearch :=
  starts.foldl (g.searchFrom component) {}

/-- The first cycle of each component that has one. -/
def cycles (g : Graph) : List (List String) :=
  (g.search (rootIn g.components) g.vertices).cycles.reverse

end Graph

end Flowchart
