import Flowchart.Proofs.Graph.Components

/-!
# Components, turn by turn

* `Forest.halve`: one turn of the walk up from a vertex, which halves the path. `Forest.Walks`: the walk without a
  bound on its turns. A walk that went on for ever would have no such run.
* `ComponentSearch`: how far the search for the components has come. `ComponentSearch.next?`: its next turn, if it is
  not done.
* `ComponentSearch.Sound`: what holds between any two turns. It implies that a walk from any vertex would come to its
  end, and that no turn of a walk changes a root.
* `Graph.Proper.ends`: the turns come to an end, and then the components are listed.
-/

namespace Flowchart

namespace Forest

/-- One turn of the walk up from a vertex: the vertex gets its grandparent for a parent. -/
def halve (f : Forest) (v : String) : Forest := f.setParent v (f.parent (f.parent v))

/-- The walk up from `v` comes to `r`, and leaves another forest behind. -/
inductive Walks : Forest → String → String → Forest → Prop
  | arrived {f v} (top : f.parent v = v) : Walks f v v f
  | turn {f v r after} (below : f.parent v ≠ v) (walks : Walks (f.halve v) ((f.halve v).parent v) r after) :
    Walks f v r after

variable {f g : Forest} {v w r s : String} {n fuel : Nat} {vertices : List String}

theorem parent_halve_self (below : f.parent v ≠ v) : (f.halve v).parent v = f.parent (f.parent v) :=
  parent_setParent_self (mem_of_parent_ne below) _

/-! ### No turn changes a root -/

theorem KeepsRoots.trans {h : Forest} (first : f.KeepsRoots g) (second : g.KeepsRoots h) : f.KeepsRoots h where
  vertices := second.vertices.trans first.vertices
  roots v r root := second.roots v r (first.roots v r root)

theorem KeepsRoots.hasRoot_iff (keeps : f.KeepsRoots g) (rooted : f.Rooted) : g.HasRoot v r ↔ f.HasRoot v r := by
  refine ⟨fun root => ?_, keeps.roots v r⟩
  obtain ⟨s, old⟩ := rooted v
  exact root.unique (keeps.roots v s old) ▸ old

theorem Rooted.halve_keepsRoots (rooted : f.Rooted) (below : f.parent v ≠ v) : f.KeepsRoots (f.halve v) where
  vertices := setParent_vertices f v _
  roots w s root := by
    obtain ⟨r, n, climbs⟩ := rooted v
    obtain ⟨m, other⟩ := root
    obtain ⟨m', -, other⟩ := climbs.halved below other
    exact ⟨m', other⟩

/-! ### A walk comes to its end -/

/-- With a step to spare, the search for a root with a bound is the walk without one. -/
theorem Climbs.walks_find (climbs : f.Climbs n v r) (enough : n < fuel) :
    f.Walks v (find fuel f v).1 (find fuel f v).2 := by
  induction fuel generalizing f n v with
  | zero => omega
  | succ fuel ih =>
    rw [find]
    by_cases top : f.parent v = v
    · rw [if_pos top]
      exact .arrived top
    · rw [if_neg top]
      have positive := climbs.pos_iff.2 top
      obtain ⟨n', bound, higher⟩ := climbs.halved top climbs.parent.parent
      refine .turn top ?_
      rw [parent_halve_self top]
      exact ih higher (by omega)

theorem Rooted.walks (rooted : f.Rooted) (v : String) : f.Walks v (f.root v).1 (f.root v).2 := by
  obtain ⟨r, n, climbs⟩ := rooted v
  exact climbs.walks_find (Nat.lt_succ_of_le climbs.le_length)

/-! ### Forests on some vertices -/

/-- The forest has these vertices; parents are among them, and every climb comes to a root. -/
structure Spans (f : Forest) (vertices : List String) : Prop where
  listed : f.map Prod.fst = vertices
  within : ∀ v ∈ vertices, f.parent v ∈ vertices
  rooted : f.Rooted

theorem Spans.lookup (spans : f.Spans vertices) (member : v ∈ vertices) : ∃ p ∈ vertices, f.lookup v = some p := by
  have inside := spans.within v member
  have known : (f.lookup v).isSome := by simpa [← spans.listed] using member
  obtain ⟨p, found⟩ := Option.isSome_iff_exists.1 known
  exact ⟨p, by simpa [parent, found] using inside, found⟩

theorem discrete_spans (vertices : List String) : (discrete vertices).Spans vertices where
  listed := (discrete_reflects vertices).listed
  within v member := by rwa [parent_discrete]
  rooted := (discrete_reflects vertices).rooted

theorem Spans.halve (spans : f.Spans vertices) (member : v ∈ vertices) (below : f.parent v ≠ v) :
    (f.halve v).Spans vertices where
  listed := (setParent_vertices f v _).trans spans.listed
  within w known := by
    by_cases here : w = v
    · rw [here, parent_halve_self below]
      exact spans.within _ (spans.within v member)
    · rw [Forest.halve, parent_setParent_of_ne here]
      exact spans.within w known
  rooted := (spans.rooted.halve_keepsRoots below).rooted spans.rooted

/-- One root becomes a child of another. -/
theorem Spans.setParent (spans : f.Spans vertices) (source : v ∈ vertices) (target : w ∈ vertices)
    (sourceTop : f.parent v = v) (targetTop : f.parent w = w) (apart : v ≠ w) : (f.setParent w v).Spans vertices where
  listed := (setParent_vertices f w v).trans spans.listed
  within u known := by
    by_cases here : u = w
    · rw [here, parent_setParent_self (spans.listed.symm ▸ target)]
      exact source
    · rw [parent_setParent_of_ne here]
      exact spans.within u known
  rooted u := by
    obtain ⟨r, n, climbs⟩ := spans.rooted u
    exact ⟨_, climbs.setParent_root sourceTop targetTop (spans.listed.symm ▸ target) apart⟩

end Forest

/-! ### The search for components -/

/-- What the root at the end of a walk is for. -/
inductive Purpose where
  /-- It is the root of the source of an edge; the walk from the target comes next. -/
  | source (target : String)
  /-- It is the root of the target of an edge whose source has this root. -/
  | target (sourceRoot : String)
  /-- It is listed for a vertex. -/
  | listing (v : String)

/-- How far the search for components has come. -/
structure ComponentSearch where
  forest : Forest
  /-- the edges that are still to be taken -/
  edges : List (String × String)
  /-- the vertices that are still to be listed with their roots -/
  vertices : List String
  listed : List (String × String) := []
  /-- where the walk under way is, and what it is for -/
  walk : Option (String × Purpose) := none

namespace ComponentSearch

def start (g : Graph) : ComponentSearch := { forest := .discrete g.vertices, edges := g.edges, vertices := g.vertices }

/-- What is done with the root at the end of a walk. -/
def arrive (s : ComponentSearch) (root : String) : Purpose → ComponentSearch
  | .source target => { s with walk := some (target, .target root) }
  | .target sourceRoot =>
    { s with
      forest := if sourceRoot = root then s.forest else s.forest.setParent root sourceRoot
      walk := none }
  | .listing v => { s with listed := s.listed ++ [(v, root)], walk := none }

/-- The next turn: of the walk under way, or the beginning of another one. Edges come before vertices. -/
def next? (s : ComponentSearch) : Option ComponentSearch :=
  match s.walk with
  | some (v, purpose) =>
    if s.forest.parent v = v then some (s.arrive v purpose)
    else some { s with forest := s.forest.halve v, walk := some ((s.forest.halve v).parent v, purpose) }
  | none =>
    match s.edges, s.vertices with
    | (source, target) :: edges, _ => some { s with edges, walk := some (source, .source target) }
    | [], v :: vertices => some { s with vertices, walk := some (v, .listing v) }
    | [], [] => none

/-- Some turns lead from one state of the search to another. -/
def Runs : ComponentSearch → ComponentSearch → Prop := Relation.ReflTransGen fun s t => s.next? = some t

end ComponentSearch

/-- The search comes to a state. -/
def Graph.Comes (g : Graph) (s : ComponentSearch) : Prop := (ComponentSearch.start g).Runs s

/-! ### Between any two turns -/

/-- What holds of what a walk is for. -/
def Purpose.Sound (g : Graph) (f : Forest) : Purpose → Prop
  | .source other => other ∈ g.vertices
  | .target sourceRoot => sourceRoot ∈ g.vertices ∧ f.parent sourceRoot = sourceRoot
  | .listing v => v ∈ g.vertices

/-- A root is one still when a path was halved. -/
theorem Purpose.Sound.halve {g : Graph} {f : Forest} {v : String} {purpose : Purpose} (below : f.parent v ≠ v)
    (sound : purpose.Sound g f) : purpose.Sound g (f.halve v) := by
  cases purpose with
  | source target => exact sound
  | target sourceRoot =>
    obtain ⟨known, top⟩ := sound
    have other : sourceRoot ≠ v := fun same => below (same ▸ top)
    exact ⟨known, (Forest.parent_setParent_of_ne other _).trans top⟩
  | listing v => exact sound

namespace ComponentSearch

variable {g : Graph} {s t : ComponentSearch}

/-- What holds between any two turns. -/
structure Sound (g : Graph) (s : ComponentSearch) : Prop where
  spans : s.forest.Spans g.vertices
  edges : ∀ edge ∈ s.edges, edge.1 ∈ g.vertices ∧ edge.2 ∈ g.vertices
  vertices : ∀ v ∈ s.vertices, v ∈ g.vertices
  walk : ∀ v purpose, s.walk = some (v, purpose) → v ∈ g.vertices ∧ purpose.Sound g s.forest

theorem start_sound (proper : g.Proper) : (start g).Sound g where
  spans := Forest.discrete_spans g.vertices
  edges edge member := ⟨Graph.mem_vertices_of_edge member, proper.within edge.1 edge.2 member⟩
  vertices _ member := member
  walk := nofun

theorem Sound.arrive (sound : s.Sound g) {v : String} {purpose : Purpose} (member : v ∈ g.vertices)
    (top : s.forest.parent v = v) (useful : purpose.Sound g s.forest) : (s.arrive v purpose).Sound g := by
  cases purpose with
  | source target =>
    refine ⟨sound.spans, sound.edges, sound.vertices, fun w purpose same => ?_⟩
    cases same
    exact ⟨useful, member, top⟩
  | target sourceRoot =>
    refine ⟨?_, sound.edges, sound.vertices, nofun⟩
    -- the walk from the target left the root of the source a root
    obtain ⟨known, isRoot⟩ := useful
    dsimp only [ComponentSearch.arrive]
    by_cases same : sourceRoot = v
    · rw [if_pos same]
      exact sound.spans
    · rw [if_neg same]
      exact sound.spans.setParent known member isRoot top same
  | listing w => exact ⟨sound.spans, sound.edges, sound.vertices, nofun⟩

/-- A turn keeps what holds between any two turns. -/
theorem Sound.step (sound : s.Sound g) (turn : s.next? = some t) : t.Sound g := by
  unfold next? at turn
  split at turn
  next v purpose walk =>
    obtain ⟨member, useful⟩ := sound.walk v purpose walk
    split at turn
    next top =>
      cases turn
      exact sound.arrive member top useful
    next below =>
      cases turn
      have spans := sound.spans.halve member below
      refine ⟨spans, sound.edges, sound.vertices, fun w purpose same => ?_⟩
      cases same
      exact ⟨spans.within v member, useful.halve below⟩
  next idle =>
    split at turn
    next source target edges pending =>
      cases turn
      have edge := sound.edges (source, target) (by simp [pending])
      refine ⟨sound.spans, fun edge later => sound.edges edge (by simp [pending, later]), sound.vertices, ?_⟩
      rintro w purpose same
      cases same
      exact edge
    next v vertices _ pending =>
      cases turn
      have member := sound.vertices v (by simp [pending])
      refine ⟨sound.spans, sound.edges, fun w later => sound.vertices w (by simp [pending, later]), ?_⟩
      rintro w purpose same
      cases same
      exact ⟨member, member⟩
    next => cases turn

theorem Sound.run (sound : s.Sound g) (runs : s.Runs t) : t.Sound g := by
  induction runs with
  | refl => exact sound
  | tail _ turn ih => exact ih.step turn

/-! ### The search comes to an end -/

/-- A walk is made turn by turn. -/
theorem runs_walk {f after : Forest} {v r : String} (walks : f.Walks v r after) (s : ComponentSearch)
    (purpose : Purpose) :
    Runs { s with forest := f, walk := some (v, purpose) } (arrive { s with forest := after } r purpose) := by
  induction walks with
  | @arrived f v top =>
    refine .single ?_
    simp only [next?, top, if_true]
    cases purpose <;> rfl
  | turn below _ ih =>
    refine .head ?_ ih
    simp only [next?, below, if_false]

/-- An edge is taken by two walks. -/
theorem runs_join {f : Forest} (rooted : f.Rooted) (source target : String) (edges : List (String × String))
    (vertices : List String) :
    Runs { forest := f, edges := (source, target) :: edges, vertices }
      { forest := f.join source target, edges, vertices } := by
  obtain ⟨p, sourceRoot⟩ := rooted source
  have later : (f.root source).2.Rooted := (Forest.root_eq sourceRoot).2.rooted rooted
  have first := runs_walk (rooted.walks source) { forest := f, edges, vertices } (.source target)
  have second := runs_walk (later.walks target) { forest := f, edges, vertices } (.target (f.root source).1)
  exact .head rfl (first.trans second)

theorem runs_edges (proper : g.Proper) {past edges : List (String × String)} (split : g.edges = past ++ edges) :
    Runs { forest := g.joinedBy past, edges, vertices := g.vertices }
      { forest := g.forest, edges := [], vertices := g.vertices } := by
  induction edges generalizing past with
  | nil =>
    have all : g.forest = g.joinedBy past := by rw [Graph.forest, split, List.append_nil, Graph.joinedBy]
    rw [all]
    exact .refl
  | cons edge edges ih =>
    have joined : (g.joinedBy past).join edge.1 edge.2 = g.joinedBy (past ++ [edge]) := by
      rw [Graph.joinedBy, Graph.joinedBy, List.foldl_append, List.foldl_cons, List.foldl_nil]
    have among : past ⊆ g.edges := split ▸ List.subset_append_left past _
    have reflects := proper.joinedBy_reflects among
    -- one edge more is what the fold over the edges does next
    have taken := runs_join reflects.rooted edge.1 edge.2 edges g.vertices
    rw [joined] at taken
    exact taken.trans (ih (by simp [split]))

/-- The vertices are listed with the roots that they had at first, however much the paths are halved on the way. -/
theorem runs_vertices {first f : Forest} (keeps : first.KeepsRoots f) (rooted : first.Rooted) (vertices : List String)
    (listed : List (String × String)) :
    ∃ s, Runs { forest := f, edges := [], vertices, listed } s ∧ s.next? = none ∧
      s.listed = listed ++ vertices.map fun v => (v, (first.root v).1) := by
  induction vertices generalizing f listed with
  | nil => exact ⟨_, .refl, rfl, (List.append_nil listed).symm⟩
  | cons v vertices ih =>
    obtain ⟨r, root⟩ := rooted v
    -- the forest is another one by now, but its roots are those of the first
    obtain ⟨found, halved⟩ := Forest.root_eq (keeps.roots v r root)
    have same : (f.root v).1 = (first.root v).1 := found.trans (Forest.root_eq root).1.symm
    have walked := runs_walk ((keeps.rooted rooted).walks v)
      { forest := f, edges := [], vertices := vertices, listed := listed } (.listing v)
    rw [same] at walked
    obtain ⟨s, rest, done, all⟩ := ih (keeps.trans halved) (listed ++ [(v, (first.root v).1)])
    rw [List.append_assoc, List.singleton_append] at all
    exact ⟨s, .head rfl (walked.trans rest), done, all⟩

end ComponentSearch

namespace Graph

variable {g : Graph}

/-- The search comes to an end, where each vertex is listed with the root that the components give for it. -/
theorem Proper.ends (proper : g.Proper) : ∃ s, g.Comes s ∧ s.next? = none ∧ s.listed = g.components := by
  have rooted := proper.forest_reflects.rooted
  obtain ⟨s, listed, done, all⟩ := ComponentSearch.runs_vertices ⟨rfl, fun _ _ root => root⟩ rooted g.vertices []
  have joined := ComponentSearch.runs_edges proper (List.nil_append g.edges).symm
  exact ⟨s, joined.trans listed, done, all⟩

/-- While the components of a graph are searched for, every parent can be looked up, every walk would come to its end,
and no turn of a walk changes the root of a vertex. The search comes to an end as well. Two vertices are then listed
with the same root exactly if a path of edges, taken in either direction, leads from one to the other. -/
theorem Proper.components_joined (proper : g.Proper) :
    (∀ s, g.Comes s →
      (∀ v ∈ g.vertices, ∃ p ∈ g.vertices, s.forest.lookup v = some p) ∧
      (∀ v, s.forest.Walks v (s.forest.root v).1 (s.forest.root v).2) ∧
      ∀ v, s.forest.parent v ≠ v → ∀ u r, (s.forest.halve v).HasRoot u r ↔ s.forest.HasRoot u r) ∧
    (∃ s, g.Comes s ∧ s.next? = none ∧ s.listed = g.components) ∧
    ∀ u v, rootIn g.components u = rootIn g.components v ↔ g.Joined u v := by
  refine ⟨fun s comes => ?_, proper.ends, proper.rootIn_eq_iff⟩
  obtain ⟨spans, -, -, -⟩ := (ComponentSearch.start_sound proper).run comes
  refine ⟨fun v member => spans.lookup member, spans.rooted.walks, fun v below u r => ?_⟩
  exact (spans.rooted.halve_keepsRoots below).hasRoot_iff spans.rooted

/-- Two edges to one vertex, and a vertex with an edge to itself. -/
def meeting : Graph := [("a", ["b"]), ("b", []), ("c", ["b"]), ("d", ["d"])]

/-- The sources of two edges that meet are joined, against the direction of one of them; the vertex on its own is
not. -/
theorem components_joined_meeting :
    meeting.Proper ∧ (∃ s, meeting.Comes s ∧ s.next? = none ∧ s.listed = meeting.components) ∧
      meeting.Joined "a" "c" ∧ ¬meeting.Joined "a" "d" := by
  have proper : meeting.Proper := by
    refine ⟨by decide, fun u v edge => ?_⟩
    have listed : (u, v) ∈ [("a", "b"), ("c", "b"), ("d", "d")] := edge
    have known : ∀ edge ∈ [("a", "b"), ("c", "b"), ("d", "d")], edge.2 ∈ meeting.vertices := by decide
    exact known (u, v) listed
  obtain ⟨-, ends, joined⟩ := proper.components_joined
  exact ⟨proper, ends, (joined "a" "c").1 (by decide), fun apart => absurd ((joined "a" "d").2 apart) (by decide)⟩

end Graph

end Flowchart
