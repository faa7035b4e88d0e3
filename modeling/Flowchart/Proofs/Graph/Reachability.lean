import Mathlib.Data.List.Count
import Flowchart.Graph.Reachability
import Flowchart.Proofs.Graph.Components

/-!
# The search for what can be reached

* `Graph.WorksOff`: working off the vertices that wait to be seen, turn by turn and without a bound on the turns. A
  search that went on for ever would have no such run.
* `Graph.Proper.worksOff`: the search of `Graph.reachable` comes to its end by itself.
* `Graph.WorksOff.mem_iff`: what is seen at the end are the vertices that those seen or waiting lead to.

A vertex waits once for each edge that leads to it from a vertex that was seen, so it may wait again when it was
seen already. Passing over it is still a turn: what bounds the turns are the vertices that wait together with the
edges of the vertices that were not seen.
-/

namespace Flowchart

namespace Graph

/-- The vertices that wait are worked off one by one, after which those of the last list have been seen. -/
inductive WorksOff (g : Graph) : List String → List String → List String → Prop
  | done {seen} : WorksOff g [] seen seen
  | again {v waiting seen reached} (known : v ∈ seen) (rest : WorksOff g waiting seen reached) :
      WorksOff g (v :: waiting) seen reached
  | visit {v waiting seen reached} (fresh : v ∉ seen)
      (rest : WorksOff g (g.next v ++ waiting) (v :: seen) reached) :
      WorksOff g (v :: waiting) seen reached

variable {g : Graph} {v : String} {waiting seen reached : List String}

/-! ### The search ends -/

/-- The edges of vertices that were not seen. Each of them will make its target wait once. -/
def edgesAhead (g : Graph) (seen : List String) : Nat := g.edges.countP fun edge => edge.1 ∉ seen

theorem edgesAhead_nil (g : Graph) : g.edgesAhead [] = g.edgeCount := by
  have count : ∀ start, g.foldl (fun count entry => count + entry.2.length) start = start + g.edges.length := by
    induction g with
    | nil => simp [edges]
    | cons entry g ih =>
      intro start
      rw [List.foldl_cons, ih]
      simp [edges, Nat.add_assoc]
  simp [edgesAhead, edgeCount, count]

/-- The edges that start at a vertex lead to its targets. -/
theorem map_snd_edges_filter (distinct : g.vertices.Nodup) (v : String) :
    (g.edges.filter fun edge => edge.1 == v).map Prod.snd = g.next v := by
  induction g with
  | nil => rfl
  | cons entry g ih =>
    obtain ⟨u, targets⟩ := entry
    obtain ⟨alone, distinct⟩ := List.nodup_cons.1 distinct
    have split : Graph.edges ((u, targets) :: g) = targets.map (fun target => (u, target)) ++ Graph.edges g := rfl
    rw [split, List.filter_append, List.map_append, ih distinct]
    by_cases here : v = u
    · subst here
      have none_later : Graph.next g v = [] := by
        cases found : List.lookup v g with
        | none => simp [next, found]
        | some later =>
          obtain ⟨before, after, rfl, -⟩ := List.lookup_eq_some_iff.1 found
          simp at alone
      rw [none_later]
      simp [next, List.filter_map, Function.comp_def]
    · have past : (v == u) = false := beq_eq_false_iff_ne.2 here
      have others : ¬u = v := Ne.symm here
      simp [next, List.lookup_cons, past, others, List.filter_map, Function.comp_def]

/-- Seeing a vertex takes its edges from those ahead. -/
theorem edgesAhead_cons (distinct : g.vertices.Nodup) (fresh : v ∉ seen) :
    g.edgesAhead (v :: seen) + (g.next v).length = g.edgesAhead seen := by
  have own : (g.edges.filter fun edge => edge.1 == v).countP (fun edge => edge.1 ∉ seen) = (g.next v).length := by
    rw [← map_snd_edges_filter distinct, List.length_map, List.countP_eq_length]
    intro edge member
    simpa [eq_of_beq (List.mem_filter.1 member).2] using fresh
  have others : (g.edges.filter fun edge => !(edge.1 == v)).countP (fun edge => edge.1 ∉ seen) =
      g.edgesAhead (v :: seen) := by
    rw [List.countP_filter, edgesAhead]
    refine List.countP_congr fun edge _ => ?_
    simp [and_comm]
  have split := List.countP_eq_countP_filter_add g.edges (fun edge => edge.1 ∉ seen) fun edge => edge.1 == v
  rw [own, others] at split
  exact (split.trans (Nat.add_comm _ _)).symm

/-- With a turn for each vertex that waits and for each edge ahead, the search comes to its end. -/
theorem worksOff_collect (distinct : g.vertices.Nodup) {turns : Nat}
    (enough : waiting.length + g.edgesAhead seen ≤ turns) :
    g.WorksOff waiting seen (g.collect turns waiting seen) := by
  induction turns generalizing waiting seen with
  | zero =>
    have idle : waiting = [] := List.eq_nil_of_length_eq_zero (by omega)
    subst idle
    exact .done
  | succ turns ih =>
    cases waiting with
    | nil => exact .done
    | cons v waiting =>
      rw [List.length_cons] at enough
      rw [collect]
      by_cases known : v ∈ seen
      · rw [if_pos (by simpa using known)]
        exact .again known (ih (by omega))
      · rw [if_neg (by simpa using known)]
        have spent := edgesAhead_cons distinct known
        exact .visit known (ih (by rw [List.length_append]; omega))

/-- The search for what the entries lead to comes to its end by itself. -/
theorem Proper.worksOff (proper : g.Proper) (entries : List String) :
    g.WorksOff entries [] (g.reachable entries) :=
  worksOff_collect proper.distinct (Nat.le_of_eq (congrArg (entries.length + ·) g.edgesAhead_nil))

/-! ### What it finds -/

/-- The edges of the vertices that were seen lead to vertices that were seen or wait. -/
def Fringed (g : Graph) (waiting seen : List String) : Prop :=
  ∀ u ∈ seen, ∀ w, g.Edge u w → w ∈ seen ∨ w ∈ waiting

/-- At the end, what was seen is what those seen and waiting lead to. -/
theorem WorksOff.mem_iff (proper : g.Proper) (run : g.WorksOff waiting seen reached)
    (fringed : g.Fringed waiting seen) (w : String) :
    w ∈ reached ↔ w ∈ seen ∨ ∃ u ∈ waiting, Relation.ReflTransGen g.Edge u w := by
  induction run with
  | done => simp
  | @again v waiting seen reached known _ ih =>
    have fringed : g.Fringed waiting seen := by
      intro u member w edge
      obtain old | wait := fringed u member w edge
      · exact .inl old
      · obtain rfl | wait := List.mem_cons.1 wait
        · exact .inl known
        · exact .inr wait
    -- a path from a vertex that was seen stays among such vertices or passes one that still waits
    have onward : ∀ w, Relation.ReflTransGen g.Edge v w →
        w ∈ seen ∨ ∃ u ∈ waiting, Relation.ReflTransGen g.Edge u w := by
      intro w path
      induction path with
      | refl => exact .inl known
      | tail _ edge stays =>
        obtain old | ⟨u, wait, path⟩ := stays
        · exact (fringed _ old _ edge).imp_right fun wait => ⟨_, wait, .refl⟩
        · exact .inr ⟨u, wait, path.tail edge⟩
    rw [ih fringed]
    simp only [List.mem_cons, or_and_right, exists_or, exists_eq_left]
    have passed := onward w
    tauto
  | @visit v waiting seen reached fresh _ ih =>
    have fringed : g.Fringed (g.next v ++ waiting) (v :: seen) := by
      intro u member w edge
      obtain rfl | old := List.mem_cons.1 member
      · exact .inr (List.mem_append_left _ (proper.mem_next_iff.2 edge))
      · obtain old | wait := fringed u old w edge
        · exact .inl (List.mem_cons_of_mem _ old)
        · obtain rfl | wait := List.mem_cons.1 wait
          · exact .inl List.mem_cons_self
          · exact .inr (List.mem_append_right _ wait)
    have step : Relation.ReflTransGen g.Edge v w ↔ w = v ∨ ∃ u ∈ g.next v, Relation.ReflTransGen g.Edge u w := by
      rw [Relation.ReflTransGen.cases_head_iff]
      simp only [proper.mem_next_iff, eq_comm]
    rw [ih fringed]
    simp only [List.mem_cons, List.mem_append, or_and_right, exists_or, exists_eq_left, step, or_assoc,
      or_left_comm]

/-- The search finds the vertices that a path of edges leads to from an entry. -/
theorem Proper.mem_reachable_iff (proper : g.Proper) (entries : List String) (w : String) :
    w ∈ g.reachable entries ↔ ∃ u ∈ entries, Relation.ReflTransGen g.Edge u w := by
  have found := (proper.worksOff entries).mem_iff proper nofun w
  simpa using found

end Graph

end Flowchart
