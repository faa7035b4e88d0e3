import Mathlib.Data.List.Perm.Subperm
import Mathlib.Logic.Relation
import Flowchart.Graph.Components

/-!
# Components are the classes of joined vertices

* `Forest.Climbs`: the parents of a vertex lead up to a root, in so many steps.
* `Forest.KeepsRoots`: a forest has the vertices of another, and they have kept their roots. Looking for a root,
  which halves the path to it, leads from a forest to such a one.
* `Graph.Joined`: a path of edges, taken in either direction, leads from one vertex to another.
* `Graph.Proper.rootIn_eq_iff`: two vertices have the same root exactly if they are joined.

A parent is only ever replaced by a vertex that is nearer to the root, or by the root of another tree where
there was none; that is why climbing always comes to an end.
-/

namespace Flowchart

namespace Forest

/-- The parents of a vertex lead up to a root in `n` steps. -/
inductive Climbs (f : Forest) : Nat → String → String → Prop
  | root {v} (top : f.parent v = v) : Climbs f 0 v v
  | up {n v r} (below : f.parent v ≠ v) (climbs : Climbs f n (f.parent v) r) : Climbs f (n + 1) v r

variable {f : Forest} {v w r s p q : String} {n m k : Nat}

/-- The parents of a vertex lead up to a root. -/
def HasRoot (f : Forest) (v r : String) : Prop := ∃ n, f.Climbs n v r

/-- Every vertex has a root. -/
def Rooted (f : Forest) : Prop := ∀ v, ∃ r, f.HasRoot v r

theorem Climbs.unique (climbs : f.Climbs n v r) (other : f.Climbs m v s) : n = m ∧ r = s := by
  induction climbs generalizing m with
  | root top =>
    cases other with
    | root => exact ⟨rfl, rfl⟩
    | up below => exact absurd top below
  | up below _ ih =>
    cases other with
    | root top => exact absurd top below
    | up _ other =>
      obtain ⟨rfl, rfl⟩ := ih other
      exact ⟨rfl, rfl⟩

theorem HasRoot.unique (root : f.HasRoot v r) (other : f.HasRoot v s) : r = s := by
  obtain ⟨n, climbs⟩ := root
  obtain ⟨m, other⟩ := other
  exact (climbs.unique other).2

theorem Climbs.top (climbs : f.Climbs n v r) : f.parent r = r := by
  induction climbs with
  | root top => exact top
  | up _ _ ih => exact ih

theorem Climbs.parent (climbs : f.Climbs n v r) : f.Climbs (n - 1) (f.parent v) r := by
  cases climbs with
  | root top => exact top.symm ▸ .root top
  | up _ climbs => exact climbs

theorem Climbs.pos_iff (climbs : f.Climbs n v r) : 0 < n ↔ f.parent v ≠ v := by
  cases climbs with
  | root top => simp [top]
  | up below => simp [below]

/-- What has a parent other than itself is a vertex of the forest. -/
theorem mem_of_parent_ne (below : f.parent v ≠ v) : v ∈ f.map Prod.fst := by
  cases found : f.lookup v with
  | none => simp [Forest.parent, found] at below
  | some p =>
    have present : (f.lookup v).isSome := by simp [found]
    simpa using present

/-! ### Climbs are short -/

/-- The vertices below the root on a climb are vertices of the forest, each one met once. -/
theorem Climbs.exists_path (climbs : f.Climbs n v r) :
    ∃ path : List String, path.length = n ∧ path.Nodup ∧ path ⊆ f.map Prod.fst ∧
      ∀ u ∈ path, ∃ m ≤ n, f.Climbs m u r := by
  induction climbs with
  | root => exact ⟨[], rfl, List.nodup_nil, List.nil_subset _, nofun⟩
  | @up n v r below climbs ih =>
    obtain ⟨path, length, distinct, known, lower⟩ := ih
    -- what comes later is nearer to the root
    have fresh : v ∉ path := by
      intro again
      obtain ⟨m, bound, other⟩ := lower v again
      have := (other.unique (.up below climbs)).1
      omega
    refine ⟨v :: path, by simp [length], List.nodup_cons.2 ⟨fresh, distinct⟩,
      List.cons_subset.2 ⟨mem_of_parent_ne below, known⟩, ?_⟩
    intro u member
    obtain rfl | member := List.mem_cons.1 member
    · exact ⟨n + 1, Nat.le_refl _, .up below climbs⟩
    · obtain ⟨m, bound, other⟩ := lower u member
      exact ⟨m, by omega, other⟩

theorem Climbs.le_length (climbs : f.Climbs n v r) : n ≤ f.length := by
  obtain ⟨path, length, distinct, known, -⟩ := climbs.exists_path
  simpa [length] using (distinct.subperm known).length_le

/-! ### Other parents -/

theorem setParent_vertices (f : Forest) (v p : String) :
    (f.setParent v p).map Prod.fst = f.map Prod.fst := by
  rw [setParent, List.map_map]
  refine List.map_congr_left fun entry _ => ?_
  by_cases same : entry.1 = v <;> simp [same]

theorem lookup_setParent (f : Forest) (v p w : String) :
    (f.setParent v p).lookup w = (f.lookup w).map fun old => if w = v then p else old := by
  induction f with
  | nil => rfl
  | cons entry f ih =>
    obtain ⟨u, old⟩ := entry
    rw [setParent] at ih
    simp only [setParent, List.map_cons, beq_iff_eq]
    by_cases here : w = u
    · subst here
      by_cases changed : w = v
      · subst changed
        simp
      · simp [changed]
    · have past : (w == u) = false := beq_eq_false_iff_ne.2 here
      by_cases changed : u = v
      · subst changed
        simpa [List.lookup_cons, past] using ih
      · simpa [List.lookup_cons, past, changed] using ih

theorem parent_setParent_of_ne (other : w ≠ v) (p : String) :
    (f.setParent v p).parent w = f.parent w := by
  simp [parent, lookup_setParent, other]

theorem parent_setParent_self (known : v ∈ f.map Prod.fst) (p : String) :
    (f.setParent v p).parent v = p := by
  cases found : f.lookup v with
  | none =>
    obtain ⟨entry, present, same⟩ := List.mem_map.1 known
    simpa [same] using List.lookup_eq_none_iff.1 found entry present
  | some old => simp [parent, lookup_setParent, found]

/-- A vertex that is not nearer to its root than another stays out of the other's climb. -/
theorem Climbs.setParent_lower (higher : f.Climbs n v s) (p : String) (climbs : f.Climbs m w r)
    (lower : m < n) : (f.setParent v p).Climbs m w r := by
  induction climbs with
  | @root w top =>
    have other : w ≠ v := by
      rintro rfl
      have := (higher.unique (.root top)).1
      omega
    exact .root (by rw [parent_setParent_of_ne other, top])
  | @up m w r below climbs ih =>
    have other : w ≠ v := by
      rintro rfl
      have := (higher.unique (.up below climbs)).1
      omega
    have same := parent_setParent_of_ne (f := f) other p
    exact .up (same ▸ below) (same ▸ ih (by omega))

/-- A vertex gets a parent that is nearer to its root: roots stay, and no climb gets longer. -/
theorem Climbs.setParent_nearer (start : f.Climbs n v s) (nearer : f.Climbs k q s) (lower : k < n)
    (climbs : f.Climbs m w r) : ∃ m' ≤ m, (f.setParent v q).Climbs m' w r := by
  have below := start.pos_iff.1 (by omega)
  have parent_eq := parent_setParent_self (mem_of_parent_ne below) q
  induction climbs with
  | @root w top =>
    have other : w ≠ v := by
      rintro rfl
      exact below top
    exact ⟨0, Nat.le_refl _, .root (by rw [parent_setParent_of_ne other, top])⟩
  | @up m w r belowRoot climbs ih =>
    by_cases here : w = v
    · subst here
      obtain ⟨rfl, rfl⟩ := start.unique (.up belowRoot climbs)
      have apart : q ≠ w := by
        rintro rfl
        have := (start.unique nearer).1
        omega
      refine ⟨k + 1, by omega, .up (by rwa [parent_eq]) ?_⟩
      rw [parent_eq]
      exact start.setParent_lower q nearer lower
    · obtain ⟨m', bound, climbs⟩ := ih
      have same := parent_setParent_of_ne (f := f) here q
      exact ⟨m' + 1, by omega, .up (same ▸ belowRoot) (same ▸ climbs)⟩

/-- A vertex gets its grandparent for a parent, which is two steps further up, or the root. -/
theorem Climbs.halved (start : f.Climbs n v s) (below : f.parent v ≠ v) (climbs : f.Climbs m w r) :
    ∃ m' ≤ m, (f.setParent v (f.parent (f.parent v))).Climbs m' w r := by
  have positive := start.pos_iff.2 below
  exact start.setParent_nearer start.parent.parent (by omega) climbs

/-- A root becomes a child of another root: its tree goes over to that one. -/
theorem Climbs.setParent_root (source : f.parent p = p) (target : f.parent q = q)
    (known : q ∈ f.map Prod.fst) (apart : p ≠ q) (climbs : f.Climbs n v r) :
    (f.setParent q p).HasRoot v (if r = q then p else r) := by
  induction climbs with
  | @root v top =>
    have stays := parent_setParent_of_ne (f := f) apart p
    by_cases here : v = q
    · subst here
      have new := parent_setParent_self known p
      rw [if_pos rfl]
      refine ⟨1, .up (by rwa [new]) ?_⟩
      rw [new]
      exact .root (stays.trans source)
    · rw [if_neg here]
      exact ⟨0, .root ((parent_setParent_of_ne here p).trans top)⟩
  | @up n v r below climbs ih =>
    have other : v ≠ q := by
      rintro rfl
      exact below target
    obtain ⟨m, climbs⟩ := ih
    have same := parent_setParent_of_ne (f := f) other p
    exact ⟨m + 1, .up (same ▸ below) (same ▸ climbs)⟩

/-! ### Looking for a root -/

/-- A forest with the same vertices, in which each vertex has the root that it had. -/
structure KeepsRoots (f g : Forest) : Prop where
  vertices : g.map Prod.fst = f.map Prod.fst
  roots : ∀ v r, f.HasRoot v r → g.HasRoot v r

/-- With a step to spare, the root is found. On the way no root changes and no climb gets longer. -/
theorem find_eq {fuel : Nat} (climbs : f.Climbs n v r) (enough : n < fuel) :
    (find fuel f v).1 = r ∧ (find fuel f v).2.map Prod.fst = f.map Prod.fst ∧
      ∀ m w s, f.Climbs m w s → ∃ m' ≤ m, (find fuel f v).2.Climbs m' w s := by
  induction fuel generalizing f n v with
  | zero => omega
  | succ fuel ih =>
    rw [find]
    by_cases top : f.parent v = v
    · rw [if_pos top]
      exact ⟨((Climbs.root top).unique climbs).2, rfl, fun m w s other => ⟨m, Nat.le_refl _, other⟩⟩
    · rw [if_neg top]
      have positive := climbs.pos_iff.2 top
      obtain ⟨n', bound, higher⟩ := climbs.halved top climbs.parent.parent
      obtain ⟨found, vertices, kept⟩ := ih higher (by omega)
      refine ⟨found, vertices.trans (setParent_vertices _ _ _), fun m w s other => ?_⟩
      obtain ⟨m₁, first, other⟩ := climbs.halved top other
      obtain ⟨m₂, second, other⟩ := kept _ _ _ other
      exact ⟨m₂, by omega, other⟩

theorem root_eq (root : f.HasRoot v r) : (f.root v).1 = r ∧ f.KeepsRoots (f.root v).2 := by
  obtain ⟨n, climbs⟩ := root
  obtain ⟨found, vertices, kept⟩ := find_eq climbs (Nat.lt_succ_of_le climbs.le_length)
  refine ⟨found, vertices, fun w s other => ?_⟩
  obtain ⟨m, other⟩ := other
  obtain ⟨m', -, other⟩ := kept m w s other
  exact ⟨m', other⟩

theorem KeepsRoots.rooted {g : Forest} (keeps : f.KeepsRoots g) (rooted : f.Rooted) : g.Rooted := fun v =>
  have ⟨r, root⟩ := rooted v
  ⟨r, keeps.roots v r root⟩

/-- The walk up from a vertex ends by itself: it stops at a root. -/
def Arrives (f : Forest) (v : String) : Prop := (f.root v).2.parent (f.root v).1 = (f.root v).1

theorem Rooted.arrives (rooted : f.Rooted) (v : String) : f.Arrives v := by
  obtain ⟨r, root⟩ := rooted v
  obtain ⟨found, keeps⟩ := root_eq root
  obtain ⟨n, climbs⟩ := keeps.roots v r root
  rw [Arrives, found]
  exact climbs.top

/-- The forest after the roots of some vertices were looked for. -/
def walked (f : Forest) (vertices : List String) : Forest := vertices.foldl (fun f v => (f.root v).2) f

theorem Rooted.walked (rooted : f.Rooted) (vertices : List String) : (f.walked vertices).Rooted := by
  induction vertices generalizing f with
  | nil => exact rooted
  | cons v vertices ih =>
    obtain ⟨r, root⟩ := rooted v
    exact ih ((root_eq root).2.rooted rooted)

/-- Joining the trees of two vertices: the root of the target's tree is no root any more. -/
theorem join_eq (source : f.HasRoot v p) (target : f.HasRoot w q)
    (known : q ∈ f.map Prod.fst) :
    (f.join v w).map Prod.fst = f.map Prod.fst ∧
      ∀ u r, f.HasRoot u r → (f.join v w).HasRoot u (if r = q then p else r) := by
  obtain ⟨foundSource, first⟩ := root_eq source
  obtain ⟨foundTarget, second⟩ := root_eq (first.roots w q target)
  simp only [join, foundSource, foundTarget]
  have vertices := second.vertices.trans first.vertices
  by_cases same : p = q
  · subst same
    rw [if_pos rfl]
    refine ⟨vertices, fun u r root => ?_⟩
    have stays : (if r = p then p else r) = r := by
      by_cases here : r = p <;> simp [here]
    rw [stays]
    exact second.roots u r (first.roots u r root)
  · rw [if_neg same]
    obtain ⟨_, sourceClimbs⟩ := second.roots v p (first.roots v p source)
    obtain ⟨_, targetClimbs⟩ := second.roots w q (first.roots w q target)
    refine ⟨(setParent_vertices _ _ _).trans vertices, fun u r root => ?_⟩
    obtain ⟨_, climbs⟩ := second.roots u r (first.roots u r root)
    exact climbs.setParent_root sourceClimbs.top targetClimbs.top (vertices ▸ known) same

/-- Two vertices have a root in common. -/
def SameRoot (f : Forest) (u v : String) : Prop := ∃ r, f.HasRoot u r ∧ f.HasRoot v r

theorem sameRoot_equivalence (rooted : f.Rooted) : Equivalence f.SameRoot where
  refl v := by
    obtain ⟨r, root⟩ := rooted v
    exact ⟨r, root, root⟩
  symm := fun ⟨r, left, right⟩ => ⟨r, right, left⟩
  trans := by
    rintro u v w ⟨r, left, middle⟩ ⟨s, again, right⟩
    cases middle.unique again
    exact ⟨r, left, right⟩

/-- Vertices that a path of edges, taken in either direction, leads from one to the other. -/
def Linked (edges : List (String × String)) : String → String → Prop :=
  Relation.EqvGen fun a b => (a, b) ∈ edges

/-- The trees of a forest are the classes of vertices that some edges link. -/
structure Reflects (f : Forest) (vertices : List String) (edges : List (String × String)) : Prop where
  listed : f.map Prod.fst = vertices
  within : ∀ a b, (a, b) ∈ edges → a ∈ vertices ∧ b ∈ vertices
  rooted : f.Rooted
  sameRoot_iff : ∀ u v, f.SameRoot u v ↔ Linked edges u v

variable {vertices : List String} {edges : List (String × String)}

theorem parent_discrete (vertices : List String) (v : String) : (discrete vertices).parent v = v := by
  have itself : ((discrete vertices).lookup v).getD v = v := by
    induction vertices with
    | nil => rfl
    | cons u vertices ih =>
      rw [discrete] at ih
      by_cases here : v = u
      · simp [discrete, here]
      · have past : (v == u) = false := beq_eq_false_iff_ne.2 here
        simpa [discrete, List.lookup_cons, past] using ih
  exact itself

/-- Without edges every vertex is on its own. -/
theorem discrete_reflects (vertices : List String) : (discrete vertices).Reflects vertices [] where
  listed := by simp [discrete, Function.comp_def]
  within := nofun
  rooted v := ⟨v, 0, .root (parent_discrete vertices v)⟩
  sameRoot_iff u v := by
    have itself : ∀ w, (discrete vertices).HasRoot w w := fun w => ⟨0, .root (parent_discrete vertices w)⟩
    constructor
    · rintro ⟨r, left, right⟩
      cases (itself u).unique left
      cases (itself v).unique right
      exact .refl u
    · intro linked
      exact (sameRoot_equivalence fun w => ⟨w, itself w⟩).eqvGen_iff.1 (linked.mono nofun)

/-- The root of a vertex is a vertex. -/
theorem Reflects.root_mem (reflects : f.Reflects vertices edges) (member : v ∈ vertices)
    (root : f.HasRoot v r) : r ∈ vertices := by
  obtain ⟨n, climbs⟩ := root
  have linked := (reflects.sameRoot_iff v r).1 ⟨r, ⟨n, climbs⟩, 0, .root climbs.top⟩
  have both : Equivalence fun a b => a ∈ vertices ↔ b ∈ vertices :=
    ⟨fun _ => Iff.rfl, Iff.symm, Iff.trans⟩
  have ends : ∀ a b, (a, b) ∈ edges → (a ∈ vertices ↔ b ∈ vertices) := fun a b edge =>
    iff_of_true (reflects.within a b edge).1 (reflects.within a b edge).2
  exact (both.eqvGen_iff.1 (linked.mono ends)).1 member

/-- Joining the trees of the ends of one more edge. -/
theorem Reflects.join (reflects : f.Reflects vertices edges) (source : v ∈ vertices)
    (target : w ∈ vertices) : (f.join v w).Reflects vertices (edges ++ [(v, w)]) := by
  obtain ⟨p, sourceRoot⟩ := reflects.rooted v
  obtain ⟨q, targetRoot⟩ := reflects.rooted w
  obtain ⟨same, roots⟩ := join_eq sourceRoot targetRoot
    (reflects.listed.symm ▸ reflects.root_mem target targetRoot)
  have rooted : (f.join v w).Rooted := fun u =>
    have ⟨r, root⟩ := reflects.rooted u
    ⟨_, roots u r root⟩
  have old : ∀ a b, f.SameRoot a b → Linked (edges ++ [(v, w)]) a b := fun a b common =>
    ((reflects.sameRoot_iff a b).1 common).mono fun _ _ edge => List.mem_append_left _ edge
  have atTop : ∀ u r, f.HasRoot u r → f.SameRoot u r := fun u r ⟨n, climbs⟩ =>
    ⟨r, ⟨n, climbs⟩, 0, .root climbs.top⟩
  refine ⟨same.trans reflects.listed, ?_, rooted, fun a b => ⟨?_, fun linked => ?_⟩⟩
  · intro a b edge
    obtain edge | edge := List.mem_append.1 edge
    · exact reflects.within a b edge
    · cases List.mem_singleton.1 edge
      exact ⟨source, target⟩
  -- the new root of a vertex is its old one, or reached from it over the new edge
  · have reaches : ∀ u r, f.HasRoot u r → Linked (edges ++ [(v, w)]) u (if r = q then p else r) := by
      intro u r root
      have upward := old u r (atTop u r root)
      by_cases moved : r = q
      · subst moved
        rw [if_pos rfl]
        have back : Linked (edges ++ [(v, w)]) r w := (old w r (atTop w r targetRoot)).symm
        have across : Linked (edges ++ [(v, w)]) w v := .symm _ _ (.rel _ _ (by simp))
        exact ((upward.trans _ _ _ back).trans _ _ _ across).trans _ _ _ (old v p (atTop v p sourceRoot))
      · rwa [if_neg moved]
    rintro ⟨t, left, right⟩
    obtain ⟨r, leftRoot⟩ := reflects.rooted a
    obtain ⟨s, rightRoot⟩ := reflects.rooted b
    have toLeft := reaches a r leftRoot
    have toRight := reaches b s rightRoot
    rw [(roots a r leftRoot).unique left] at toLeft
    rw [(roots b s rightRoot).unique right] at toRight
    exact toLeft.trans _ _ _ toRight.symm
  · refine (sameRoot_equivalence rooted).eqvGen_iff.1 (linked.mono fun c d edge => ?_)
    obtain edge | edge := List.mem_append.1 edge
    · obtain ⟨r, left, right⟩ := (reflects.sameRoot_iff c d).2 (.rel _ _ edge)
      exact ⟨_, roots c r left, roots d r right⟩
    · cases List.mem_singleton.1 edge
      have stays : (if p = q then p else p) = p := ite_self p
      exact ⟨p, stays ▸ roots v p sourceRoot, by simpa using roots w q targetRoot⟩

/-- Joining the trees of the ends of some more edges. -/
theorem Reflects.joinAll {past : List (String × String)} (reflects : f.Reflects vertices past)
    (within : ∀ a b, (a, b) ∈ edges → a ∈ vertices ∧ b ∈ vertices) :
    (edges.foldl (fun f edge => f.join edge.1 edge.2) f).Reflects vertices (past ++ edges) := by
  induction edges generalizing f past with
  | nil => simpa using reflects
  | cons edge edges ih =>
    obtain ⟨source, target⟩ := within edge.1 edge.2 List.mem_cons_self
    have more := ih (reflects.join source target) fun a b later =>
      within a b (List.mem_cons_of_mem _ later)
    simpa using more

end Forest

namespace Graph

/-- An edge leads from one vertex to another. -/
def Edge (g : Graph) (u v : String) : Prop := (u, v) ∈ g.edges

/-- A path of edges, taken in either direction, leads from one vertex to another. -/
def Joined (g : Graph) : String → String → Prop := Relation.EqvGen g.Edge

/-- Each vertex is listed once, and the edges lead to vertices. -/
structure Proper (g : Graph) : Prop where
  distinct : g.vertices.Nodup
  within : ∀ u v, g.Edge u v → v ∈ g.vertices

variable {g : Graph} {u v : String}

theorem edge_iff : g.Edge u v ↔ ∃ targets, (u, targets) ∈ g ∧ v ∈ targets := by
  simp [Edge, edges]

theorem mem_vertices_of_edge (edge : g.Edge u v) : u ∈ g.vertices := by
  obtain ⟨targets, entry, -⟩ := edge_iff.1 edge
  exact List.mem_map_of_mem (f := Prod.fst) entry

/-- The targets of a vertex are those that its edges lead to. -/
theorem Proper.mem_next_iff (proper : g.Proper) : v ∈ g.next u ↔ g.Edge u v := by
  have distinct : (g.map Prod.fst).Nodup := proper.distinct
  rw [edge_iff, next]
  constructor
  · intro member
    cases found : g.lookup u with
    | none => simp [found] at member
    | some targets =>
      obtain ⟨before, after, rfl, -⟩ := List.lookup_eq_some_iff.1 found
      exact ⟨targets, by simp, by simpa [found] using member⟩
  · rintro ⟨targets, entry, member⟩
    obtain ⟨before, after, rfl⟩ := List.append_of_mem entry
    have fresh : ∀ other ∈ before, ¬(u == other.1) = true := by
      intro other earlier same
      rw [List.map_append, List.map_cons, List.nodup_append] at distinct
      exact distinct.2.2 other.1 (List.mem_map_of_mem earlier) u List.mem_cons_self (beq_iff_eq.1 same).symm
    have found : List.lookup u (before ++ (u, targets) :: after) = some targets :=
      List.lookup_eq_some_iff.2 ⟨before, after, rfl, fun other earlier => by simpa using fresh other earlier⟩
    simpa [found] using member

/-- The forest when the trees of some edges were joined. -/
def joinedBy (g : Graph) (edges : List (String × String)) : Forest :=
  edges.foldl (fun f edge => f.join edge.1 edge.2) (Forest.discrete g.vertices)

theorem Proper.joinedBy_reflects (proper : g.Proper) {past : List (String × String)} (listed : past ⊆ g.edges) :
    (g.joinedBy past).Reflects g.vertices past := by
  have all : (g.joinedBy past).Reflects g.vertices ([] ++ past) :=
    (Forest.discrete_reflects g.vertices).joinAll fun a b edge =>
      ⟨mem_vertices_of_edge (listed edge), proper.within a b (listed edge)⟩
  exact all

/-- The trees of the forest are the components of the graph. -/
theorem Proper.forest_reflects (proper : g.Proper) : g.forest.Reflects g.vertices g.edges :=
  proper.joinedBy_reflects (List.Subset.refl _)

/-- What the components give for a vertex is its root. A name that is no vertex is a root on its own. -/
theorem Proper.hasRoot_rootIn (proper : g.Proper) (v : String) :
    g.forest.HasRoot v (rootIn g.components v) := by
  have reflects := proper.forest_reflects
  obtain ⟨r, root⟩ := reflects.rooted v
  have listed : g.components.lookup v = if v ∈ g.vertices then some (g.forest.root v).1 else none := by
    rw [components]
    induction g.vertices with
    | nil => rfl
    | cons w rest ih =>
      by_cases here : v = w
      · simp [here]
      · have past : (v == w) = false := beq_eq_false_iff_ne.2 here
        simpa [List.lookup_cons, here, past] using ih
  by_cases member : v ∈ g.vertices
  · rw [rootIn, listed, if_pos member, Option.getD_some, (Forest.root_eq root).1]
    exact root
  · rw [rootIn, listed, if_neg member, Option.getD_none]
    have itself : g.forest.parent v = v := by
      by_contra below
      exact member (reflects.listed ▸ Forest.mem_of_parent_ne below)
    exact ⟨0, .root itself⟩

/-- Two vertices have the same root exactly if they are joined. -/
theorem Proper.rootIn_eq_iff (proper : g.Proper) (u v : String) :
    rootIn g.components u = rootIn g.components v ↔ g.Joined u v := by
  refine Iff.trans ?_ (proper.forest_reflects.sameRoot_iff u v)
  constructor
  · intro same
    exact ⟨_, proper.hasRoot_rootIn u, same ▸ proper.hasRoot_rootIn v⟩
  · rintro ⟨r, left, right⟩
    rw [(proper.hasRoot_rootIn u).unique left, (proper.hasRoot_rootIn v).unique right]

end Graph

end Flowchart
