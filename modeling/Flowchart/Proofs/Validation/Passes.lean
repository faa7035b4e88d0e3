import Flowchart.Proofs.Validation.WellFormed

/-!
# The passes of a validation

* `Finding.pass`: the pass that a finding comes from.
* `validate_filter_pass`: the findings of one pass, picked out of the whole report.
* `checkConnections_append`: connections after some that nothing is wrong with.
* `mem_accepted_iff`: the execution connections that are accepted.
-/

namespace Flowchart

/-- The passes over the parts of a flowchart, in the order in which they are made. -/
inductive Pass where
  | nodes
  | connections
  | vars
  | comments
  | inputs
  | data
  | cycles
  | reachability
  deriving DecidableEq

/-- The pass that a finding comes from. -/
def Finding.pass : Finding → Pass
  | duplicateNode _ | duplicatePin _ _ | duplicatePinName _ _ _ _ => .nodes
  | duplicateConnection _ | missingEndNode _ _ _ | misplacedEndPin _ _ _ | missingEndPin _ _ _
  | mismatch _ _ _ | fanIn _ _ _ => .connections
  | duplicateVariable _ | duplicateVariableName _ _ => .vars
  | duplicateComment _ | commentUnknownNode _ _ => .comments
  | unconnectedInput _ _ _ => .inputs
  | badData _ _ _ => .data
  | cycle _ _ => .cycles
  | noEntry | unreachable _ => .reachability

/-- The connections that are accepted. -/
def Document.accepted (d : Document) : List Connection :=
  (checkConnections d.distinctNodes [] [] d.connections.items).2

/-- The nodes and the accepted execution connections between them. -/
def Document.executionGraph (d : Document) : Graph := Flowchart.executionGraph d.distinctNodes d.accepted

/-- What a pass finds. -/
def Document.found (catalog : Catalog) (d : Document) : Pass → List Finding
  | .nodes => nodeFindings [] d.nodes.items
  | .connections => (checkConnections d.distinctNodes [] [] d.connections.items).1
  | .vars => variableFindings [] [] d.vars.items
  | .comments => commentFindings d.distinctNodes [] d.comments.items
  | .inputs => d.distinctNodes.flatMap (inputFindings d.accepted)
  | .data => d.distinctNodes.flatMap (dataFindings catalog)
  | .cycles => cycleFindings d.executionGraph
  | .reachability => reachabilityFindings d.distinctNodes d.executionGraph

/-- All findings of a list come from one pass. -/
def Finding.AllFrom (pass : Pass) (findings : List Finding) : Prop := ∀ f ∈ findings, f.pass = pass

open Finding (AllFrom)

namespace Finding.AllFrom

variable {pass other : Pass} {findings more : List Finding}

theorem append (first : AllFrom pass findings) (rest : AllFrom pass more) : AllFrom pass (findings ++ more) :=
  fun f member => (List.mem_append.1 member).elim (first f) (rest f)

theorem map (finding : α → Finding) (same : ∀ a, (finding a).pass = pass) (items : List α) :
    AllFrom pass (items.map finding) := by
  intro f member
  obtain ⟨a, -, rfl⟩ := List.mem_map.1 member
  exact same a

theorem flatMap {found : α → List Finding} (each : ∀ a, AllFrom pass (found a)) (items : List α) :
    AllFrom pass (items.flatMap found) := by
  intro f member
  obtain ⟨a, -, member⟩ := List.mem_flatMap.1 member
  exact each a f member

theorem filter_pass (allFrom : AllFrom pass findings) (other : Pass) :
    (findings.filter fun f => f.pass == other) = if pass = other then findings else [] := by
  by_cases same : pass = other
  · rw [if_pos same]
    exact List.filter_eq_self.2 fun f member => by simp [allFrom f member, same]
  · rw [if_neg same]
    exact List.filter_eq_nil_iff.2 fun f member => by simp [allFrom f member, same]

end Finding.AllFrom

/-! ### Each pass makes findings of its own -/

theorem Node.sideFindings_allFrom (node : Node) (side : Side) (ids names : List String) (pins : List Pin) :
    AllFrom .nodes (node.sideFindings side ids names pins) := by
  induction pins generalizing ids names with
  | nil => nofun
  | cons pin pins ih =>
    have rest := ih (pin.id :: ids) (pin.name :: names)
    rw [sideFindings]
    split
    next => exact List.forall_mem_cons.2 ⟨rfl, ih ids names⟩
    next =>
      dsimp only
      split
      next => exact List.forall_mem_cons.2 ⟨rfl, rest⟩
      next => exact rest

theorem nodeFindings_allFrom (seen : List String) (nodes : List Node) :
    AllFrom .nodes (nodeFindings seen nodes) := by
  induction nodes generalizing seen with
  | nil => nofun
  | cons node nodes ih =>
    rw [nodeFindings]
    split
    next => exact List.forall_mem_cons.2 ⟨rfl, ih seen⟩
    next =>
      have pins : AllFrom .nodes node.pinFindings :=
        .append (node.sideFindings_allFrom _ _ _ _) (node.sideFindings_allFrom _ _ _ _)
      exact pins.append (ih _)

theorem Connection.resolve_pass {nodes : List Node} {c : Connection} {side : Side} {f : Finding}
    (failed : c.resolve nodes side = .error f) : f.pass = .connections := by
  unfold resolve at failed
  grind [Finding.pass]

theorem Connection.faults_allFrom (nodes : List Node) (held : List (End × String)) (c : Connection) :
    AllFrom .connections (c.faults nodes held) := by
  intro f member
  unfold faults at member
  grind [resolve_pass, Finding.pass]

theorem checkConnections_allFrom (nodes : List Node) (seen : List String) (held : List (End × String))
    (connections : List Connection) : AllFrom .connections (checkConnections nodes seen held connections).1 := by
  induction connections generalizing seen held with
  | nil => nofun
  | cons c connections ih =>
    rw [checkConnections]
    split
    next => exact List.forall_mem_cons.2 ⟨rfl, ih seen held⟩
    next =>
      split
      next => exact ih _ _
      next => exact (c.faults_allFrom nodes held).append (ih _ _)

theorem variableFindings_allFrom (ids names : List String) (vars : List Variable) :
    AllFrom .vars (variableFindings ids names vars) := by
  induction vars generalizing ids names with
  | nil => nofun
  | cons v vars ih =>
    have id : AllFrom .vars (if ids.contains v.id then [.duplicateVariable v.id] else []) := by
      split <;> simp [AllFrom, Finding.pass]
    have name : AllFrom .vars (if names.contains v.name then [.duplicateVariableName v.id v.name] else []) := by
      split <;> simp [AllFrom, Finding.pass]
    exact (id.append name).append (ih _ _)

theorem commentFindings_allFrom (nodes : List Node) (ids : List String) (comments : List Comment) :
    AllFrom .comments (commentFindings nodes ids comments) := by
  induction comments generalizing ids with
  | nil => nofun
  | cons c comments ih =>
    have id : AllFrom .comments (if ids.contains c.id then [.duplicateComment c.id] else []) := by
      split <;> simp [AllFrom, Finding.pass]
    exact (id.append (.map (.commentUnknownNode c.id) (fun _ => rfl) _)).append (ih _)

theorem inputFindings_allFrom (accepted : List Connection) (node : Node) :
    AllFrom .inputs (inputFindings accepted node) :=
  .map (fun pin : Pin => .unconnectedInput node.id pin.id pin.name) (fun _ => rfl) _

theorem dataFindings_allFrom (catalog : Catalog) (node : Node) : AllFrom .data (dataFindings catalog node) :=
  .map (.badData node.id node.type) (fun _ => rfl) _

theorem cycleFindings_allFrom (g : Graph) : AllFrom .cycles (cycleFindings g) := by
  intro f member
  obtain ⟨cycle, -, found⟩ := List.mem_filterMap.1 member
  cases cycle with
  | nil => cases found
  | cons first others => cases found; rfl

theorem reachabilityFindings_allFrom (nodes : List Node) (g : Graph) :
    AllFrom .reachability (reachabilityFindings nodes g) := by
  unfold reachabilityFindings
  dsimp only
  split
  next => nofun
  next =>
    split
    next => exact List.forall_mem_singleton.2 rfl
    next => exact .map (fun n : Node => .unreachable n.id) (fun _ => rfl) _

theorem Document.found_allFrom (catalog : Catalog) (d : Document) (pass : Pass) :
    AllFrom pass (d.found catalog pass) := by
  cases pass with
  | nodes => exact nodeFindings_allFrom _ _
  | connections => exact checkConnections_allFrom _ _ _ _
  | vars => exact variableFindings_allFrom _ _ _
  | comments => exact commentFindings_allFrom _ _ _
  | inputs => exact .flatMap (inputFindings_allFrom _) _
  | data => exact .flatMap (dataFindings_allFrom _) _
  | cycles => exact cycleFindings_allFrom _
  | reachability => exact reachabilityFindings_allFrom _ _

/-- The findings of one pass, picked out of the whole report. -/
theorem validate_filter_pass (catalog : Catalog) (d : Document) (pass : Pass) :
    ((validate catalog d).findings.filter fun f => f.pass == pass) = d.found catalog pass := by
  have whole : (validate catalog d).findings =
      d.found catalog .nodes ++ d.found catalog .connections ++ d.found catalog .vars ++
        d.found catalog .comments ++ d.found catalog .inputs ++ d.found catalog .data ++
        d.found catalog .cycles ++ d.found catalog .reachability := rfl
  rw [whole]
  simp only [List.filter_append, (d.found_allFrom catalog _).filter_pass]
  cases pass <;> simp

theorem mem_found_iff {catalog : Catalog} {d : Document} {f : Finding} :
    f ∈ d.found catalog f.pass ↔ f ∈ (validate catalog d).findings := by
  rw [← validate_filter_pass]
  simp

/-! ### Connections -/

/-- Connections after some that nothing is wrong with. -/
theorem checkConnections_append {nodes : List Node} {seen : List String} {held : List (End × String)}
    {connections : List Connection} (fine : ErrorFree (checkConnections nodes seen held connections).1)
    (more : List Connection) :
    (checkConnections nodes seen held (connections ++ more)).1 =
      (checkConnections nodes ((connections.map Connection.id).reverse ++ seen)
        (((connections.filter fun c => c.link = .data).map fun c => (c.target, c.id)).reverse ++ held) more).1 := by
  induction connections generalizing seen held with
  | nil => rfl
  | cons c connections ih =>
    have fine := fine
    rw [checkConnections] at fine
    rw [List.cons_append, checkConnections]
    split at fine
    next => simp [Finding.isError, Finding.severity] at fine
    next fresh =>
      rw [if_neg fresh]
      split at fine
      next faults =>
        dsimp only at fine ⊢
        rw [ih fine]
        by_cases data : c.link = .data <;> simp [data]
      next faulty =>
        -- a connection that something is wrong with is an error
        cases faults : c.faults nodes held with
        | nil => exact absurd faults faulty
        | cons f faults' =>
          have isError := Connection.faults_isError (faults ▸ List.mem_cons_self)
          simp [faults, isError] at fine

/-- The execution connections that are accepted: the first ones with their ids, as far as their ends resolve. -/
theorem mem_accepted_iff {nodes : List Node} {seen : List String} {held : List (End × String)}
    {connections : List Connection} {c : Connection} (link : c.link = .execution) :
    c ∈ (checkConnections nodes seen held connections).2 ↔
      c.Resolves nodes ∧ c.id ∉ seen ∧
        ∃ before after, connections = before ++ c :: after ∧ c.id ∉ before.map Connection.id := by
  -- a connection is a later one if it is not the first
  have split_cons : ∀ head tail, (∃ before after, head :: tail = before ++ c :: after ∧
      c.id ∉ before.map Connection.id) ↔ head = c ∨ c.id ≠ head.id ∧
        ∃ before after, tail = before ++ c :: after ∧ c.id ∉ before.map Connection.id := by
    intro head tail
    constructor
    · rintro ⟨before, after, split, fresh⟩
      cases before with
      | nil => exact .inl (List.cons.inj split).1
      | cons first before =>
        obtain ⟨rfl, rfl⟩ := List.cons.inj split
        obtain ⟨other, fresh⟩ := not_or.1 (mt List.mem_cons.2 fresh)
        exact .inr ⟨other, before, after, rfl, fresh⟩
    · rintro (rfl | ⟨other, before, after, rfl, fresh⟩)
      · exact ⟨[], tail, rfl, List.not_mem_nil⟩
      · exact ⟨head :: before, after, rfl, by simp [other, fresh]⟩
  induction connections generalizing seen held with
  | nil => simp [checkConnections]
  | cons head tail ih =>
    rw [split_cons, checkConnections]
    by_cases again : head.id ∈ seen
    · rw [if_pos (by simpa using again)]
      refine ih.trans ?_
      have other : c.id ∉ seen → head ≠ c ∧ c.id ≠ head.id := fun fresh =>
        ⟨fun same => fresh (same ▸ again), fun same => fresh (same ▸ again)⟩
      tauto
    rw [if_neg (by simpa using again)]
    have wrong : head.faults nodes held ≠ [] → head = c → ¬c.Resolves nodes := by
      rintro faulty rfl resolves
      exact faulty ((Connection.faults_eq_nil_iff _ _ _).2 ⟨resolves, by simp [link]⟩)
    split
    next fine =>
      have resolves := ((Connection.faults_eq_nil_iff _ _ _).1 fine).1
      simp only [List.mem_cons, ih]
      grind
    next faulty =>
      simp only [ih, List.mem_cons]
      grind

end Flowchart
