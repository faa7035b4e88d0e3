import Mathlib
import Flowchart.Graph.Cycles
import Flowchart.Proofs.Graph.Components

/-!
# The search for cycles

* `IsCycle`: a directed cycle, by its vertices in order.
* `CycleSearch.Searching`: what holds between any two turns of a search. `left` are the vertices that it has gone
  back from for good.
* `Searching.step`: a turn keeps it. `turns_step`: a turn leaves one turn less to be taken, so that a search ends.
* `Graph.Proper.loopsEnd`, `Graph.Proper.mem_closed_iff`: every search comes to its end, and then the
  components that have a cycle are those whose cycle was found.

A vertex is left when all its edges were looked at. If no cycle of its component was found by then, they all
lead to vertices that were left before it, and so it lies on no cycle.
-/

namespace Flowchart

/-- A directed cycle: vertices of its own, with an edge from each to the next and from the last one back to the
first. -/
structure IsCycle (edge : String → String → Prop) (first : String) (others : List String) : Prop where
  distinct : (first :: others).Nodup
  edges : (first :: others ++ [first]).IsChain edge

theorem IsCycle.transGen {edge : String → String → Prop} {first : String} {others : List String}
    (cycle : IsCycle edge first others) : Relation.TransGen edge first first := by
  have edges := cycle.edges
  cases others with
  | nil => exact .single (by simpa using edges)
  | cons second others =>
    simp only [List.cons_append, List.isChain_cons_cons] at edges
    exact .head' edges.1 (List.relationReflTransGen_of_exists_isChain_cons _ edges.2 (by simp))

namespace CycleSearch

variable {g : Graph} {component : String → String} {s : CycleSearch} {left : List String}

/-- Every edge from a vertex of the path is still to be looked at, or leads to a vertex that will have been left
by the time that the search goes back from it; or a cycle of the component was found. -/
def Covered (g : Graph) (found : String → Prop) : List String → List Frame → Prop
  | _, [] => True
  | left, frame :: below =>
    (∀ w, g.Edge frame.vertex w → found frame.vertex ∨ w ∈ frame.pending ∨ w ∈ left) ∧
      Covered g found (frame.vertex :: left) below

theorem Covered.mono {found more : String → Prop} {left left' : List String} {frames : List Frame}
    (found_le : ∀ v, found v → more v) (left_le : left ⊆ left') (covered : Covered g found left frames) :
    Covered g more left' frames := by
  induction frames generalizing left left' with
  | nil => trivial
  | cons frame below ih =>
    refine ⟨fun w edge => ?_, ih (List.cons_subset_cons _ left_le) covered.2⟩
    obtain old | pending | passed := covered.1 w edge
    · exact .inl (found_le _ old)
    · exact .inr (.inl pending)
    · exact .inr (.inr (left_le passed))

/-- The path is one of the graph, what was visited is on it or was left, and what was left lies on no cycle but in
a component whose cycle was found. `left` are the vertices that the search has gone back from. -/
structure Sound (g : Graph) (component : String → String) (s : CycleSearch) (left : List String) :
    Prop where
  chain : s.path.IsChain g.Edge
  distinct : s.path.Nodup
  visited_iff : ∀ v, v ∈ s.visited ↔ v ∈ s.path ∨ v ∈ left
  apart : ∀ v ∈ s.path, v ∉ left
  known : s.visited ⊆ g.vertices
  pending : ∀ frame ∈ s.frames, ∀ w ∈ frame.pending, g.Edge frame.vertex w
  forward : ∀ v ∈ left, component v ∉ s.closed → ∀ w, g.Edge v w → w ∈ left
  acyclic : ∀ v ∈ left, component v ∉ s.closed → ¬Relation.TransGen g.Edge v v
  cycles : ∀ cycle ∈ s.cycles, ∃ first others, cycle = first :: others ∧ IsCycle g.Edge first others ∧
    cycle ⊆ g.vertices
  roots : s.closed = s.cycles.filterMap fun cycle => cycle.head?.map component
  once : s.closed.Nodup

/-- What holds between any two turns. -/
structure Searching (g : Graph) (component : String → String) (s : CycleSearch) (left : List String) : Prop
    extends Sound g component s left where
  covered : Covered g (component · ∈ s.closed) left s.frames

theorem start_searching (g : Graph) (component : String → String) : Searching g component {} [] where
  chain := .nil
  distinct := .nil
  visited_iff v := by simp [path]
  apart := by simp [path]
  known := List.nil_subset _
  pending := nofun
  forward := nofun
  acyclic := nofun
  cycles := nofun
  roots := rfl
  once := .nil
  covered := trivial

theorem path_cons {frame : Frame} {below : List Frame} (frames : s.frames = frame :: below) :
    s.path = (below.map Frame.vertex).reverse ++ [frame.vertex] := by
  simp [path, frames]

/-! ### One turn -/

/-- Going back from a vertex whose edges were all looked at. -/
theorem Searching.back (same : ∀ u w, g.Edge u w → component u = component w)
    (searching : Searching g component s left) {v : String} {below : List Frame}
    (frames : s.frames = ⟨v, []⟩ :: below) :
    Searching g component { s with frames := below } (v :: left) := by
  have path : s.path = { s with frames := below }.path ++ [v] := path_cons frames
  have distinct := searching.distinct
  rw [path, List.nodup_append] at distinct
  have covered := searching.covered
  rw [frames] at covered
  have onward : component v ∉ s.closed → ∀ w, g.Edge v w → w ∈ left := by
    intro unfound w edge
    obtain found | pending | passed := covered.1 w edge
    · exact absurd found unfound
    · cases pending
    · exact passed
  -- from a vertex that was left, only such vertices are reached while no cycle is found
  have stays : ∀ w ∈ left, component w ∉ s.closed → ∀ x, Relation.ReflTransGen g.Edge w x →
      x ∈ left ∧ component x ∉ s.closed := by
    intro w passed unfound x reach
    induction reach with
    | refl => exact ⟨passed, unfound⟩
    | tail _ edge ih => exact ⟨searching.forward _ ih.1 ih.2 _ edge, same _ _ edge ▸ ih.2⟩
  exact {
    chain := (path ▸ searching.chain).left_of_append
    distinct := distinct.1
    visited_iff u := by
      rw [searching.visited_iff u, path]
      simp only [List.mem_append, List.mem_cons]
      tauto
    apart u member := by
      have old := searching.apart u (path ▸ List.mem_append_left _ member)
      have other := distinct.2.2 u member v List.mem_cons_self
      simp [old, other]
    known := searching.known
    pending frame member := searching.pending frame (frames ▸ List.mem_cons_of_mem _ member)
    forward u member unfound w edge := by
      obtain rfl | passed := List.mem_cons.1 member
      · exact List.mem_cons_of_mem _ (onward unfound w edge)
      · exact List.mem_cons_of_mem _ (searching.forward u passed unfound w edge)
    acyclic u member unfound cycle := by
      obtain rfl | passed := List.mem_cons.1 member
      · obtain ⟨w, edge, back⟩ := Relation.TransGen.head'_iff.1 cycle
        have again := (stays w (onward unfound w edge) (same u w edge ▸ unfound) u back).1
        exact searching.apart u (by simp [path]) again
      · exact searching.acyclic u passed unfound cycle
    cycles := searching.cycles
    roots := searching.roots
    once := searching.once
    covered := covered.2 }

/-- Passing over an edge. -/
theorem Sound.skip (sound : Sound g component s left) {v target : String} {pending : List String}
    {below : List Frame} (frames : s.frames = ⟨v, target :: pending⟩ :: below) :
    Sound g component { s with frames := ⟨v, pending⟩ :: below } left := by
  have path : { s with frames := ⟨v, pending⟩ :: below }.path = s.path := by simp [path, frames]
  exact {
    chain := path ▸ sound.chain
    distinct := path ▸ sound.distinct
    visited_iff := path ▸ sound.visited_iff
    apart := path ▸ sound.apart
    known := sound.known
    pending frame member w later := by
      obtain rfl | member := List.mem_cons.1 member
      · exact sound.pending ⟨v, target :: pending⟩ (by simp [frames]) w (List.mem_cons_of_mem _ later)
      · exact sound.pending frame (frames ▸ List.mem_cons_of_mem _ member) w later
    forward := sound.forward
    acyclic := sound.acyclic
    cycles := sound.cycles
    roots := sound.roots
    once := sound.once }

/-- The edges of a vertex are covered still if one of them, to a vertex that will have been left, is passed
over. -/
theorem Covered.skip {found : String → Prop} {v target : String} {pending : List String}
    {below : List Frame} (covered : Covered g found left (⟨v, target :: pending⟩ :: below))
    (done : found v ∨ target ∈ left) : Covered g found left (⟨v, pending⟩ :: below) := by
  refine ⟨fun w edge => ?_, covered.2⟩
  obtain old | waiting | passed := covered.1 w edge
  · exact .inl old
  · obtain rfl | waiting := List.mem_cons.1 waiting
    · exact done.imp_right .inr
    · exact .inr (.inl waiting)
  · exact .inr (.inr passed)

theorem Searching.skip (searching : Searching g component s left) {v target : String}
    {pending : List String} {below : List Frame} (frames : s.frames = ⟨v, target :: pending⟩ :: below)
    (done : component v ∈ s.closed ∨ target ∈ left) :
    Searching g component { s with frames := ⟨v, pending⟩ :: below } left where
  toSound := searching.toSound.skip frames
  covered := (frames ▸ searching.covered : Covered _ _ _ (_ :: _)).skip done

/-- Going on to a vertex that was not visited, over an edge if there is a path already. -/
theorem Sound.enter (proper : g.Proper) (sound : Sound g component s left) {v : String}
    (known : v ∈ g.vertices) (fresh : v ∉ s.visited) (edge : ∀ u ∈ s.path.getLast?, g.Edge u v) :
    Sound g component (s.enter g v) left := by
  have path : (s.enter g v).path = s.path ++ [v] := by simp [CycleSearch.path, CycleSearch.enter]
  obtain ⟨off, stays⟩ : v ∉ s.path ∧ v ∉ left := by
    have visited := sound.visited_iff v
    tauto
  exact {
    chain := by
      rw [path, List.isChain_append]
      exact ⟨sound.chain, .singleton _, by simpa using edge⟩
    distinct := by
      rw [path, List.nodup_append]
      refine ⟨sound.distinct, by simp, fun u member w new => ?_⟩
      cases List.mem_singleton.1 new
      exact fun same => off (same ▸ member)
    visited_iff u := by
      rw [path]
      simp only [CycleSearch.enter, List.mem_cons, List.mem_append, sound.visited_iff u]
      tauto
    apart u member := by
      rw [path] at member
      obtain member | new := List.mem_append.1 member
      · exact sound.apart u member
      · exact List.mem_singleton.1 new ▸ stays
    known := List.cons_subset.2 ⟨known, sound.known⟩
    pending frame member w later := by
      obtain rfl | member := List.mem_cons.1 member
      · exact proper.mem_next_iff.1 later
      · exact sound.pending frame member w later
    forward := sound.forward
    acyclic := sound.acyclic
    cycles := sound.cycles
    roots := sound.roots
    once := sound.once }

/-- Keeping the cycle that an edge back to the path closes. -/
theorem Searching.close (searching : Searching g component s left) {v target : String}
    {below : List String} (path : s.path = below ++ [v]) (edge : g.Edge v target)
    (back : target ∈ s.path) :
    Searching g component (s.close component target) left ∧
      component target ∈ (s.close component target).closed := by
  unfold CycleSearch.close
  simp only [List.contains_eq_mem, decide_eq_true_eq]
  by_cases found : component target ∈ s.closed
  · rw [if_pos found]
    exact ⟨searching, found⟩
  rw [if_neg found]
  refine ⟨?_, List.mem_cons_self⟩
  -- the cycle is the path from the target on
  obtain ⟨front, others, split, rest⟩ : ∃ front others, s.path = front ++ target :: others ∧
      s.path.dropWhile (· != target) = target :: others := by
    obtain ⟨front, others, split, fresh⟩ := List.eq_append_cons_of_mem back
    refine ⟨front, others, split, ?_⟩
    have passed : ∀ u ∈ front, (u != target) = true := fun u member => by
      simpa using fun same : u = target => fresh (same ▸ member)
    rw [split, List.dropWhile_append_of_pos passed]
    simp
  have suffix : target :: others <:+ s.path := ⟨front, split.symm⟩
  have chain : (target :: others).IsChain g.Edge := searching.chain.suffix suffix
  have cycle : IsCycle g.Edge target others := by
    have last : (target :: others).getLast? = some v := by
      simpa using congrArg List.getLast? (split.symm.trans path)
    refine ⟨searching.distinct.sublist suffix.sublist, List.isChain_append.2 ⟨chain, .singleton _, ?_⟩⟩
    simpa [last] using edge
  have known : target :: others ⊆ g.vertices := fun u member =>
    searching.known ((searching.visited_iff u).2 (.inl (suffix.subset member)))
  exact { searching with
    covered := searching.covered.mono (fun _ old => List.mem_cons_of_mem _ old) (List.Subset.refl _)
    forward := fun u passed unfound => searching.forward u passed fun old =>
      unfound (List.mem_cons_of_mem _ old)
    acyclic := fun u passed unfound => searching.acyclic u passed fun old =>
      unfound (List.mem_cons_of_mem _ old)
    cycles := List.forall_mem_cons.2 ⟨⟨target, others, rest, cycle, rest ▸ known⟩, searching.cycles⟩
    roots := by simp [rest, searching.roots]
    once := List.nodup_cons.2 ⟨found, searching.once⟩ }

/-- Going on over an edge to a vertex that was not visited. -/
theorem Searching.onward (proper : g.Proper) (searching : Searching g component s left) {v target : String}
    {pending : List String} {below : List Frame} (frames : s.frames = ⟨v, target :: pending⟩ :: below)
    (fresh : target ∉ s.visited) :
    Searching g component ({ s with frames := ⟨v, pending⟩ :: below }.enter g target) left where
  toSound := by
    have edge : g.Edge v target :=
      searching.pending ⟨v, target :: pending⟩ (by simp [frames]) target List.mem_cons_self
    exact (searching.toSound.skip frames).enter proper (proper.within v target edge) fresh
      (by simpa [CycleSearch.path] using edge)
  covered := by
    -- nothing of the new vertex was looked at; it is left before the search goes back from the old one
    have covered : Covered g (component · ∈ s.closed) left (_ :: _) := frames ▸ searching.covered
    refine ⟨fun w edge => .inr (.inl (proper.mem_next_iff.2 edge)), ?_⟩
    exact (covered.mono (fun _ old => old) (List.subset_cons_self target left)).skip
      (.inr List.mem_cons_self)

/-- Beginning a search at a vertex that was not visited. -/
theorem Searching.begin (proper : g.Proper) (searching : Searching g component s left)
    (idle : s.frames = []) {v : String} (known : v ∈ g.vertices) (fresh : v ∉ s.visited) :
    Searching g component (s.enter g v) left where
  toSound := searching.toSound.enter proper known fresh (by simp [path, idle])
  covered := by
    refine ⟨fun w edge => .inr (.inl (proper.mem_next_iff.2 edge)), ?_⟩
    rw [idle]
    trivial

/-- A turn keeps what holds between any two turns. -/
theorem Searching.step (proper : g.Proper) (same : ∀ u w, g.Edge u w → component u = component w)
    (searching : Searching g component s left) :
    ∃ left', Searching g component (s.step g component) left' ∧ s.visited ⊆ (s.step g component).visited := by
  unfold CycleSearch.step
  split
  next => exact ⟨left, searching, List.Subset.refl _⟩
  next v below frames => exact ⟨v :: left, searching.back same frames, List.Subset.refl _⟩
  next v target pending below frames =>
    have edge : g.Edge v target :=
      searching.pending ⟨v, target :: pending⟩ (by simp [frames]) target List.mem_cons_self
    have path : { s with frames := ⟨v, pending⟩ :: below }.path = s.path := by
      simp [CycleSearch.path, frames]
    simp only [path, List.contains_eq_mem, decide_eq_true_eq]
    refine ⟨left, ?_⟩
    split
    next back =>
      obtain ⟨closed, found⟩ := searching.close (path_cons frames) edge back
      have swap : CycleSearch.close component { s with frames := ⟨v, pending⟩ :: below } target =
          { s.close component target with frames := ⟨v, pending⟩ :: below } := by
        unfold CycleSearch.close
        rw [path]
        dsimp only
        split <;> rfl
      have still : (s.close component target).frames = ⟨v, target :: pending⟩ :: below := by
        unfold CycleSearch.close
        dsimp only
        split <;> exact frames
      have visited : (s.close component target).visited = s.visited := by
        unfold CycleSearch.close
        dsimp only
        split <;> rfl
      rw [swap]
      exact ⟨closed.skip still (.inl (same v target edge ▸ found)), visited ▸ List.Subset.refl _⟩
    next off =>
      split
      next seen =>
        have passed : target ∈ left := ((searching.visited_iff target).1 seen).resolve_left off
        exact ⟨searching.skip frames (.inr passed), List.Subset.refl _⟩
      next fresh => exact ⟨searching.onward proper frames fresh, List.subset_cons_self _ _⟩

/-! ### A search ends -/

/-- The turns that vertices not visited yet will take: one for each of their edges and one to go back. -/
def ahead (g : Graph) (visited : List String) : Nat :=
  ((g.filter fun entry => entry.1 ∉ visited).map fun entry => entry.2.length + 1).sum

/-- The turns that a search still takes. -/
def turns (g : Graph) (s : CycleSearch) : Nat :=
  (s.frames.map fun frame => frame.pending.length + 1).sum + ahead g s.visited

theorem ahead_nil (g : Graph) : ahead g [] = g.length + g.edgeCount := by
  have count : ∀ start, start + (g.map fun entry => entry.2.length + 1).sum =
      g.length + g.foldl (fun count entry => count + entry.2.length) start := by
    induction g with
    | nil => simp
    | cons entry g ih =>
      intro start
      simp only [List.map_cons, List.sum_cons, List.length_cons, List.foldl_cons]
      have := ih (start + entry.2.length)
      omega
  simpa [ahead, Graph.edgeCount] using count 0

theorem ahead_le (g : Graph) (visited : List String) : ahead g visited ≤ g.length + g.edgeCount := by
  have fewer := (List.filter_sublist (p := fun entry : String × List String => entry.1 ∉ visited)
    (l := g)).map fun entry => entry.2.length + 1
  rw [← ahead_nil]
  simpa [ahead] using fewer.sum_le_sum fun _ _ => Nat.zero_le _

/-- Visiting a vertex takes its turns from those ahead. -/
theorem ahead_cons {visited : List String} {v : String} (distinct : g.vertices.Nodup)
    (known : v ∈ g.vertices) (fresh : v ∉ visited) :
    ahead g (v :: visited) + ((g.next v).length + 1) = ahead g visited := by
  induction g with
  | nil => cases known
  | cons entry g ih =>
    obtain ⟨u, targets⟩ := entry
    obtain ⟨alone, distinct⟩ := List.nodup_cons.1 distinct
    by_cases here : v = u
    · subst here
      -- no other entry is for this vertex
      have others : g.filter (fun entry => entry.1 ∉ v :: visited) =
          g.filter fun entry => entry.1 ∉ visited := by
        refine List.filter_congr fun entry member => ?_
        have member := List.mem_map_of_mem (f := Prod.fst) member
        have other : entry.1 ≠ v := fun same => alone (same ▸ member)
        simp [other]
      have targets_eq : Graph.next ((v, targets) :: g) v = targets := by simp [Graph.next]
      rw [targets_eq, ahead, List.filter_cons_of_neg (by simp), others, ahead,
        List.filter_cons_of_pos (by simpa using fresh)]
      simp only [List.map_cons, List.sum_cons]
      omega
    · have known : v ∈ Graph.vertices g := (List.mem_cons.1 known).resolve_left here
      have later := ih distinct known
      have past : (v == u) = false := beq_eq_false_iff_ne.2 here
      have targets_eq : Graph.next ((u, targets) :: g) v = Graph.next g v := by
        simp [Graph.next, List.lookup_cons, past]
      rw [targets_eq]
      by_cases seen : u ∈ visited
      · simpa [ahead, seen] using later
      · simp only [ahead, List.filter_cons, List.mem_cons, Ne.symm here, seen, or_self, not_false_eq_true,
          decide_true, if_true, List.map_cons, List.sum_cons] at later ⊢
        omega

/-- A turn is one less to be taken. -/
theorem Searching.turns_step (proper : g.Proper) (searching : Searching g component s left)
    (going : s.frames ≠ []) : turns g (s.step g component) + 1 = turns g s := by
  unfold CycleSearch.step
  split
  next idle => exact absurd idle going
  next v below frames =>
    simp only [turns, frames, List.map_cons, List.sum_cons, List.length_nil]
    omega
  next v target pending below frames =>
    have edge : g.Edge v target :=
      searching.pending ⟨v, target :: pending⟩ (by simp [frames]) target List.mem_cons_self
    dsimp only
    split
    next =>
      unfold CycleSearch.close
      dsimp only
      split
      all_goals
        simp only [turns, frames, List.map_cons, List.sum_cons, List.length_cons]
        omega
    next =>
      split
      next =>
        simp only [turns, frames, List.map_cons, List.sum_cons, List.length_cons]
        omega
      next fresh =>
        have entered := ahead_cons proper.distinct (proper.within v target edge) (by simpa using fresh)
        simp only [turns, CycleSearch.enter, frames, List.map_cons, List.sum_cons, List.length_cons]
        omega

/-- With the turns that it still takes, a search comes to its end. -/
theorem Searching.run (proper : g.Proper) (same : ∀ u w, g.Edge u w → component u = component w)
    (searching : Searching g component s left) {fuel : Nat} (enough : turns g s ≤ fuel) :
    (s.run g component fuel).frames = [] ∧ s.visited ⊆ (s.run g component fuel).visited ∧
      ∃ left', Searching g component (s.run g component fuel) left' := by
  induction fuel generalizing s left with
  | zero =>
    refine ⟨?_, List.Subset.refl _, left, searching⟩
    cases frames : s.frames with
    | nil => exact frames
    | cons frame below =>
      simp only [turns, frames, List.map_cons, List.sum_cons] at enough
      omega
  | succ fuel ih =>
    rw [CycleSearch.run]
    by_cases idle : s.frames = []
    · rw [if_pos (by simp [idle])]
      exact ⟨idle, List.Subset.refl _, left, searching⟩
    · rw [if_neg (by simp [idle])]
      have turn : turns g (s.step g component) + 1 = turns g s := searching.turns_step proper idle
      obtain ⟨left', next, first⟩ := searching.step proper same
      obtain ⟨finished, more, rest⟩ := ih next (by omega)
      exact ⟨finished, List.Subset.trans first more, rest⟩

/-- Where no search is under way, and some vertices were searched from. -/
structure Rests (g : Graph) (component : String → String) (s : CycleSearch) (starts : List String) :
    Prop where
  idle : s.frames = []
  visited : starts ⊆ s.visited
  searching : ∃ left, Searching g component s left

theorem Rests.searchFrom (proper : g.Proper) (same : ∀ u w, g.Edge u w → component u = component w)
    {starts : List String} (rests : Rests g component s starts) {v : String} (known : v ∈ g.vertices) :
    Rests g component (g.searchFrom component s v) (starts ++ [v]) := by
  obtain ⟨idle, visited, left, searching⟩ := rests
  unfold Graph.searchFrom
  by_cases seen : v ∈ s.visited
  · rw [if_pos (by simpa using seen)]
    exact ⟨idle, List.append_subset.2 ⟨visited, by simpa using seen⟩, left, searching⟩
  rw [if_neg (by simpa using seen)]
  have begun := searching.begin proper idle known seen
  have enough : turns g (s.enter g v) ≤ g.length + g.edgeCount := by
    have entered := ahead_cons proper.distinct known seen
    have fewer := ahead_le g s.visited
    simp only [turns, enter, idle, List.map_cons, List.map_nil, List.sum_cons, List.sum_nil]
    omega
  obtain ⟨finished, more, rest⟩ := begun.run proper same enough
  refine ⟨finished, List.append_subset.2 ⟨fun u member => more ?_, fun u member => more ?_⟩, rest⟩
  · exact List.mem_cons_of_mem _ (visited member)
  · exact List.mem_singleton.1 member ▸ List.mem_cons_self

/-- Searching from some vertices, one after the other. -/
theorem Rests.search (proper : g.Proper) (same : ∀ u w, g.Edge u w → component u = component w)
    {starts : List String} (known : starts ⊆ g.vertices) :
    Rests g component (g.search component starts) starts := by
  induction starts using List.reverseRecOn with
  | nil => exact ⟨rfl, List.nil_subset _, [], start_searching g component⟩
  | append_singleton starts v ih =>
    have earlier := ih fun u member => known (List.mem_append_left _ member)
    rw [Graph.search, List.foldl_append]
    exact earlier.searchFrom proper same (known (by simp))

end CycleSearch

namespace Graph

variable {g : Graph}

theorem Proper.rootIn_eq_of_edge (proper : g.Proper) (u v : String) (edge : g.Edge u v) :
    rootIn g.components u = rootIn g.components v :=
  (proper.rootIn_eq_iff u v).2 (.rel u v edge)

/-- Every search comes to its end. -/
theorem Proper.search_ends (proper : g.Proper) {starts : List String} (known : starts ⊆ g.vertices) :
    (g.search (rootIn g.components) starts).frames = [] :=
  (CycleSearch.Rests.search proper proper.rootIn_eq_of_edge known).idle

/-- Every loop on the way to the cycles comes to its end by itself: those that walk up to a root, whatever edges
were joined and whatever roots were looked for before, and those that search. -/
structure LoopsEnd (g : Graph) : Prop where
  walks : ∀ past, past <+: g.edges → ∀ before v, ((g.joinedBy past).walked before).Arrives v
  searches : ∀ starts, starts <+: g.vertices → (g.search (rootIn g.components) starts).frames = []

theorem Proper.loopsEnd (proper : g.Proper) : g.LoopsEnd where
  walks _ earlier before v :=
    have reflects := proper.joinedBy_reflects earlier.subset
    (reflects.rooted.walked before).arrives v
  searches _ earlier := proper.search_ends earlier.subset

/-- Each cycle is one of the graph. -/
theorem Proper.isCycle_of_mem (proper : g.Proper) {cycle : List String} (member : cycle ∈ g.cycles) :
    ∃ first others, cycle = first :: others ∧ IsCycle g.Edge first others ∧ cycle ⊆ g.vertices := by
  obtain ⟨-, -, left, searching⟩ :=
    CycleSearch.Rests.search proper proper.rootIn_eq_of_edge (List.Subset.refl g.vertices)
  exact searching.cycles cycle (List.mem_reverse.1 member)

/-- A component's cycle was found exactly if it has one. -/
theorem Proper.mem_closed_iff (proper : g.Proper) (v : String) :
    rootIn g.components v ∈ (g.search (rootIn g.components) g.vertices).closed ↔
      ∃ u, g.Joined v u ∧ Relation.TransGen g.Edge u u := by
  obtain ⟨idle, visited, left, searching⟩ :=
    CycleSearch.Rests.search proper proper.rootIn_eq_of_edge (List.Subset.refl g.vertices)
  constructor
  · intro found
    rw [searching.roots] at found
    obtain ⟨cycle, member, head⟩ := List.mem_filterMap.1 found
    obtain ⟨first, others, rfl, isCycle, -⟩ := searching.cycles cycle member
    exact ⟨first, (proper.rootIn_eq_iff v first).1 (by simpa using head.symm), isCycle.transGen⟩
  · rintro ⟨u, joined, cycle⟩
    rw [(proper.rootIn_eq_iff v u).2 joined]
    obtain ⟨w, edge, -⟩ := Relation.TransGen.head'_iff.1 cycle
    have passed : u ∈ left := by
      have seen := (searching.visited_iff u).1 (visited (mem_vertices_of_edge edge))
      simpa [CycleSearch.path, idle] using seen
    by_contra unfound
    exact searching.acyclic u passed unfound cycle

open Classical in
/-- A component that has a cycle has one of those found, and any other none. -/
theorem Proper.countP_cycles (proper : g.Proper) (v : String) :
    (g.cycles.countP fun cycle => ∃ first ∈ cycle.head?, g.Joined v first) =
      if ∃ u, g.Joined v u ∧ Relation.TransGen g.Edge u u then 1 else 0 := by
  obtain ⟨-, -, left, searching⟩ :=
    CycleSearch.Rests.search proper proper.rootIn_eq_of_edge (List.Subset.refl g.vertices)
  have count := searching.once.count (a := rootIn g.components v)
  simp only [proper.mem_closed_iff v] at count
  rw [← count, cycles, List.countP_reverse, searching.roots, List.count_eq_countP, List.countP_filterMap]
  refine List.countP_congr fun cycle member => ?_
  obtain ⟨first, others, rfl, -⟩ := searching.cycles cycle member
  have same : rootIn g.components first = rootIn g.components v ↔ g.Joined v first :=
    eq_comm.trans (proper.rootIn_eq_iff v first)
  simp [same]

end Graph

end Flowchart
