import Flowchart.Proofs.Keyed
import Flowchart.Validation.Validate

/-!
# Well-formed flowcharts

* `Document.WellFormed`: what a flowchart must satisfy to be accepted, stated on its parts and without
  reference to a validation.
* `validate_errors_eq_nil_iff`: a validation reports no error exactly for the well-formed flowcharts.

Each pass of the validation has a lemma that says when it finds nothing. The passes over nodes and
connections keep what they have seen, so their lemmas speak of any state of that memory.
-/

namespace Flowchart

/-- The pins of a node have ids of their own across both sides, and names of their own on each side. -/
structure Node.PinsDistinct (node : Node) : Prop where
  ids : ((node.pins .input ++ node.pins .output).map Pin.id).Nodup
  names : ∀ side, ((node.pins side).map Pin.name).Nodup

namespace Document

/-- A node of the flowchart has the pin that an end names, on a side. -/
def HasPin (d : Document) (e : End) (side : Side) (pin : Pin) : Prop :=
  ∃ node ∈ d.nodes.items, node.id = e.node ∧ pin ∈ node.pins side ∧ pin.id = e.pin

/-- Both ends of a connection name pins of the flowchart, and its class may join them. -/
def Joins (d : Document) (c : Connection) : Prop :=
  ∃ source target, d.HasPin c.source .output source ∧ d.HasPin c.target .input target ∧
    c.link.objection? source.kind target.kind = none

/-- The inputs that receive data, once for each data connection that leads to them. -/
def dataTargets (d : Document) : List End :=
  (d.connections.items.filter fun c => c.link == .data).map Connection.target

/-- What a flowchart must satisfy to be accepted. -/
structure WellFormed (d : Document) : Prop where
  nodeIds : (d.nodes.items.map Node.id).Nodup
  pins : ∀ node ∈ d.nodes.items, node.PinsDistinct
  connectionIds : (d.connections.items.map Connection.id).Nodup
  joins : ∀ c ∈ d.connections.items, d.Joins c
  dataTargets : d.dataTargets.Nodup
  variableIds : (d.vars.items.map Variable.id).Nodup
  variableNames : (d.vars.items.map Variable.name).Nodup
  commentIds : (d.comments.items.map Comment.id).Nodup

end Document

/-- No finding of a list is an error. -/
def ErrorFree (findings : List Finding) : Prop := ∀ f ∈ findings, f.isError = false

@[simp] theorem errorFree_nil : ErrorFree [] := by simp [ErrorFree]

@[simp] theorem errorFree_cons (f : Finding) (findings : List Finding) :
    ErrorFree (f :: findings) ↔ f.isError = false ∧ ErrorFree findings := by
  simp [ErrorFree]

@[simp] theorem errorFree_append (findings more : List Finding) :
    ErrorFree (findings ++ more) ↔ ErrorFree findings ∧ ErrorFree more := by
  simp only [ErrorFree, List.mem_append, or_imp, forall_and]

theorem Report.errors_eq_nil_iff (r : Report) : r.errors = [] ↔ ErrorFree r.findings := by
  simp [Report.errors, ErrorFree]

theorem Report.hasErrors_eq_false_iff (r : Report) :
    r.hasErrors = false ↔ ErrorFree r.findings := by
  simp [Report.hasErrors, ErrorFree]

/-! ### Nodes and pins -/

namespace Node

theorem sideFindings_errorFree_iff (node : Node) (side : Side) (ids names : List String)
    (pins : List Pin) :
    ErrorFree (node.sideFindings side ids names pins) ↔
      (pins.map Pin.id).Nodup ∧ (∀ pin ∈ pins, pin.id ∉ ids) ∧
        (pins.map Pin.name).Nodup ∧ ∀ pin ∈ pins, pin.name ∉ names := by
  induction pins generalizing ids names with
  | nil => simp [sideFindings]
  | cons pin pins ih =>
    -- a pin seen before is an error at once, so what is skipped after it does not matter
    by_cases idSeen : pin.id ∈ ids
    · simp [sideFindings, idSeen, Finding.isError, Finding.severity]
    by_cases nameSeen : pin.name ∈ names
    · simp [sideFindings, idSeen, nameSeen, Finding.isError, Finding.severity]
    · simp only [sideFindings, List.contains_eq_mem, idSeen, nameSeen, decide_false, ih,
        Bool.false_eq_true, if_false, List.map_cons, List.nodup_cons, List.mem_cons, List.mem_map]
      grind

theorem pinFindings_errorFree_iff (node : Node) :
    ErrorFree node.pinFindings ↔ node.PinsDistinct := by
  have sides : node.PinsDistinct ↔
      ((node.pins .input ++ node.pins .output).map Pin.id).Nodup ∧
        ((node.pins .input).map Pin.name).Nodup ∧ ((node.pins .output).map Pin.name).Nodup :=
    ⟨fun distinct => ⟨distinct.ids, distinct.names _, distinct.names _⟩,
      fun ⟨ids, inputs, outputs⟩ => ⟨ids, fun side => by cases side <;> assumption⟩⟩
  rw [sides, pinFindings, errorFree_append, sideFindings_errorFree_iff, sideFindings_errorFree_iff,
    List.map_append, List.nodup_append]
  simp only [List.mem_map, List.not_mem_nil, not_false_eq_true, implies_true, true_and, and_true]
  grind

/-- With distinct pins, the pin that an id stands for on a side is the one that has it. -/
theorem indexedPin?_eq_some_iff {node : Node} (distinct : node.PinsDistinct) (side : Side)
    (id : String) (pin : Pin) :
    node.indexedPin? side id = some pin ↔ pin ∈ node.pins side ∧ pin.id = id := by
  have ids := distinct.ids
  rw [List.map_append, List.nodup_append] at ids
  obtain ⟨inputs, outputs, apart⟩ := ids
  cases side with
  | input => exact find?_key_eq_some_iff inputs id pin
  | output =>
    have found := find?_key_eq_some_iff outputs id pin
    -- an id of an input hides the outputs; with distinct pins no output has it
    by_cases taken : (node.pin? .input id).isSome
    · obtain ⟨other, foundOther⟩ := Option.isSome_iff_exists.mp taken
      obtain ⟨member, rfl⟩ := (find?_key_eq_some_iff inputs id other).mp foundOther
      have absent : ¬(pin ∈ node.pins .output ∧ pin.id = other.id) := fun ⟨outside, same⟩ =>
        apart _ (List.mem_map_of_mem member) _ (List.mem_map_of_mem outside) same.symm
      simp [indexedPin?, taken, absent]
    · rw [← found, indexedPin?, if_neg taken, pin?]

end Node

theorem nodeFindings_errorFree_iff (seen : List String) (nodes : List Node) :
    ErrorFree (nodeFindings seen nodes) ↔
      (nodes.map Node.id).Nodup ∧ (∀ node ∈ nodes, node.id ∉ seen) ∧
        ∀ node ∈ nodes, node.PinsDistinct := by
  induction nodes generalizing seen with
  | nil => simp [nodeFindings]
  | cons node nodes ih =>
    by_cases idSeen : node.id ∈ seen
    · simp [nodeFindings, idSeen, Finding.isError, Finding.severity]
    · simp only [nodeFindings, List.contains_eq_mem, idSeen, decide_false, Bool.false_eq_true,
        if_false, errorFree_append, Node.pinFindings_errorFree_iff, ih, List.map_cons,
        List.nodup_cons, List.mem_cons, List.mem_map]
      grind

theorem firstBy_eq_self (key : α → String) (seen : List String) (items : List α)
    (distinct : (items.map key).Nodup) (fresh : ∀ a ∈ items, key a ∉ seen) :
    firstBy key seen items = items := by
  induction items generalizing seen with
  | nil => rfl
  | cons a items ih =>
    obtain ⟨notAgain, distinct⟩ := List.nodup_cons.mp (List.map_cons ▸ distinct)
    have rest : ∀ b ∈ items, key b ∉ key a :: seen := by
      intro b member
      have other : key b ≠ key a := fun same => notAgain (same ▸ List.mem_map_of_mem member)
      simp [other, fresh b (List.mem_cons_of_mem a member)]
    simp [firstBy, fresh a List.mem_cons_self, ih _ distinct rest]

theorem Document.distinctNodes_eq (d : Document) (distinct : (d.nodes.items.map Node.id).Nodup) :
    d.distinctNodes = d.nodes.items :=
  firstBy_eq_self Node.id [] d.nodes.items distinct (by simp)

/-! ### Connections -/

namespace Connection

/-- Both ends of a connection resolve to pins that its class may join. -/
def Resolves (nodes : List Node) (c : Connection) : Prop :=
  ∃ source target, c.resolve nodes .output = .ok source ∧ c.resolve nodes .input = .ok target ∧
    c.link.objection? source.kind target.kind = none

theorem resolve_isError {nodes : List Node} {c : Connection} {side : Side} {f : Finding}
    (failed : c.resolve nodes side = .error f) : f.isError = true := by
  unfold resolve at failed
  grind [Finding.isError, Finding.severity]

theorem faults_isError {nodes : List Node} {held : List (End × String)} {c : Connection}
    {f : Finding} (member : f ∈ c.faults nodes held) : f.isError = true := by
  unfold faults at member
  grind [resolve_isError, Finding.isError, Finding.severity]

theorem faults_eq_nil_iff (nodes : List Node) (held : List (End × String)) (c : Connection) :
    c.faults nodes held = [] ↔
      c.Resolves nodes ∧ (c.link = .data → held.lookup c.target = none) := by
  unfold faults Resolves
  cases c.resolve nodes .output with
  | error f => cases c.resolve nodes .input <;> simp
  | ok source =>
    cases c.resolve nodes .input with
    | error g => simp
    | ok target =>
      cases objection : c.link.objection? source.kind target.kind with
      | some objection => simp [objection]
      | none => cases link : c.link <;> cases held.lookup c.target <;> simp_all

end Connection

theorem checkConnections_errorFree_iff (nodes : List Node) (seen : List String)
    (held : List (End × String)) (connections : List Connection) :
    ErrorFree (checkConnections nodes seen held connections).1 ↔
      (connections.map Connection.id).Nodup ∧ (∀ c ∈ connections, c.id ∉ seen) ∧
        (∀ c ∈ connections, c.Resolves nodes) ∧
        ((connections.filter fun c => c.link == .data).map Connection.target).Nodup ∧
        ∀ c ∈ connections, c.link = .data → held.lookup c.target = none := by
  induction connections generalizing seen held with
  | nil => simp [checkConnections]
  | cons c connections ih =>
    by_cases idSeen : c.id ∈ seen
    · simp [checkConnections, idSeen, Finding.isError, Finding.severity]
    cases faults : c.faults nodes held with
    -- a rejected connection does not occupy its input, but the report has an error by then
    | cons f faulty =>
      have isError := Connection.faults_isError (faults ▸ List.mem_cons_self)
      have broken : ¬(c.Resolves nodes ∧ (c.link = .data → held.lookup c.target = none)) := by
        rw [← Connection.faults_eq_nil_iff, faults]
        exact List.cons_ne_nil f faulty
      simp only [checkConnections, List.contains_eq_mem, idSeen, faults, decide_false,
        Bool.false_eq_true, if_false, List.cons_append, errorFree_cons, isError]
      grind
    | nil =>
      obtain ⟨resolves, free⟩ := (Connection.faults_eq_nil_iff nodes held c).mp faults
      simp only [checkConnections, List.contains_eq_mem, idSeen, faults, decide_false,
        Bool.false_eq_true, if_false, ih]
      by_cases link : c.link = .data
      · simp only [link, if_true, List.map_cons, List.nodup_cons, List.mem_cons,
          List.filter_cons, beq_self_eq_true, List.lookup_cons]
        grind
      · simp only [link, if_false, List.map_cons, List.nodup_cons, List.mem_cons,
          List.filter_cons, beq_eq_false_iff_ne.mpr link]
        grind

/-- Among distinct nodes with distinct pins, an end resolves to the pin that it names. -/
theorem Document.resolve_eq_ok_iff {d : Document} (distinct : (d.nodes.items.map Node.id).Nodup)
    (pins : ∀ node ∈ d.nodes.items, node.PinsDistinct) (c : Connection) (side : Side) (pin : Pin) :
    c.resolve d.nodes.items side = .ok pin ↔ d.HasPin (c.endOn side) side pin := by
  simp only [Connection.resolve, HasPin]
  cases found : d.nodes.items.find? fun n => n.id == (c.endOn side).node with
  | none =>
    have absent := (find?_key_eq_none_iff _).mp found
    simp only [List.mem_map, not_exists, not_and] at absent
    simp only [reduceCtorEq, false_iff, not_exists]
    rintro node ⟨member, same, -⟩
    exact absent node member same
  | some node =>
    obtain ⟨member, same⟩ := (find?_key_eq_some_iff distinct _ _).mp found
    have indexed := Node.indexedPin?_eq_some_iff (pins node member) side (c.endOn side).pin pin
    -- the first node with the id is the only one
    have only : (∃ other ∈ d.nodes.items, other.id = (c.endOn side).node ∧
        pin ∈ other.pins side ∧ pin.id = (c.endOn side).pin) ↔
        pin ∈ node.pins side ∧ pin.id = (c.endOn side).pin := by
      constructor
      · rintro ⟨other, otherMember, otherSame, has⟩
        rwa [eq_of_key_eq distinct member otherMember (same.trans otherSame.symm)]
      · exact fun has => ⟨node, member, same, has⟩
    rw [only, ← indexed]
    dsimp only
    cases node.indexedPin? side (c.endOn side).pin with
    | some other => simp
    | none => dsimp only; split <;> simp

theorem Document.resolves_iff_joins {d : Document} (distinct : (d.nodes.items.map Node.id).Nodup)
    (pins : ∀ node ∈ d.nodes.items, node.PinsDistinct) (c : Connection) :
    c.Resolves d.nodes.items ↔ d.Joins c := by
  simp only [Connection.Resolves, Document.resolve_eq_ok_iff distinct pins, Document.Joins,
    Connection.endOn]

/-! ### Variables, comments and the passes that only warn -/

theorem variableFindings_errorFree_iff (ids names : List String) (vars : List Variable) :
    ErrorFree (variableFindings ids names vars) ↔
      (vars.map Variable.id).Nodup ∧ (∀ v ∈ vars, v.id ∉ ids) ∧
        (vars.map Variable.name).Nodup ∧ ∀ v ∈ vars, v.name ∉ names := by
  induction vars generalizing ids names with
  | nil => simp [variableFindings]
  | cons v vars ih =>
    by_cases idSeen : v.id ∈ ids
    · simp [variableFindings, idSeen, Finding.isError, Finding.severity]
    by_cases nameSeen : v.name ∈ names
    · simp [variableFindings, idSeen, nameSeen, Finding.isError, Finding.severity]
    · simp only [variableFindings, List.contains_eq_mem, idSeen, nameSeen, decide_false, ih,
        Bool.false_eq_true, if_false, List.nil_append, List.map_cons, List.nodup_cons,
        List.mem_cons, List.mem_map]
      grind

/-- Findings that are made from a list by one constructor of warnings hold no error. -/
theorem errorFree_map {finding : α → Finding} (warning : ∀ a, (finding a).isError = false)
    (items : List α) : ErrorFree (items.map finding) := by
  simp [ErrorFree, warning]

theorem commentFindings_errorFree_iff (nodes : List Node) (ids : List String)
    (comments : List Comment) :
    ErrorFree (commentFindings nodes ids comments) ↔
      (comments.map Comment.id).Nodup ∧ ∀ c ∈ comments, c.id ∉ ids := by
  induction comments generalizing ids with
  | nil => simp [commentFindings]
  | cons c comments ih =>
    have warnings := errorFree_map fun id =>
      (rfl : (Finding.commentUnknownNode c.id id).isError = false)
    by_cases idSeen : c.id ∈ ids
    · simp [commentFindings, idSeen, Finding.isError, Finding.severity]
    · simp only [commentFindings, List.contains_eq_mem, idSeen, decide_false, Bool.false_eq_true,
        if_false, List.nil_append, errorFree_append, warnings, true_and, ih, List.map_cons,
        List.nodup_cons, List.mem_cons, List.mem_map]
      grind

theorem errorFree_flatMap {findings : α → List Finding} (free : ∀ a, ErrorFree (findings a))
    (items : List α) : ErrorFree (items.flatMap findings) := by
  intro f member
  obtain ⟨a, -, found⟩ := List.mem_flatMap.mp member
  exact free a f found

theorem inputFindings_errorFree (accepted : List Connection) (node : Node) :
    ErrorFree (inputFindings accepted node) :=
  errorFree_map (fun _ => rfl) _

theorem dataFindings_errorFree (catalog : Catalog) (node : Node) :
    ErrorFree (dataFindings catalog node) :=
  errorFree_map (fun _ => rfl) _

theorem cycleFindings_errorFree (g : Graph) : ErrorFree (cycleFindings g) := by
  intro f member
  obtain ⟨cycle, -, found⟩ := List.mem_filterMap.mp member
  cases cycle with
  | nil => cases found
  | cons first others => cases found; rfl

theorem reachabilityFindings_errorFree (nodes : List Node) (g : Graph) :
    ErrorFree (reachabilityFindings nodes g) := by
  unfold reachabilityFindings
  dsimp only
  split
  · exact errorFree_nil
  · split
    · simp [Finding.isError, Finding.severity]
    · exact errorFree_map (fun _ => rfl) _

/-! ### The whole -/

theorem validate_errorFree_iff (catalog : Catalog) (d : Document) :
    ErrorFree (validate catalog d).findings ↔ d.WellFormed := by
  have passes : ErrorFree (validate catalog d).findings ↔
      ErrorFree (nodeFindings [] d.nodes.items) ∧
        ErrorFree (checkConnections d.distinctNodes [] [] d.connections.items).1 ∧
        ErrorFree (variableFindings [] [] d.vars.items) ∧
        ErrorFree (commentFindings d.distinctNodes [] d.comments.items) := by
    simp only [validate, errorFree_append,
      errorFree_flatMap (inputFindings_errorFree _), errorFree_flatMap (dataFindings_errorFree _),
      cycleFindings_errorFree, reachabilityFindings_errorFree, and_true, and_assoc]
  rw [passes, nodeFindings_errorFree_iff, checkConnections_errorFree_iff,
    variableFindings_errorFree_iff, commentFindings_errorFree_iff]
  constructor
  · rintro ⟨⟨nodeIds, -, pins⟩, ⟨connectionIds, -, resolves, targets, -⟩,
      ⟨variableIds, -, variableNames, -⟩, commentIds, -⟩
    -- connections are resolved among the first nodes of each id, which by now are all nodes
    rw [d.distinctNodes_eq nodeIds] at resolves
    exact { nodeIds, pins, connectionIds, variableIds, variableNames, commentIds
            joins := fun c member => (Document.resolves_iff_joins nodeIds pins c).mp (resolves c member)
            dataTargets := targets }
  · intro wellFormed
    have resolves : ∀ c ∈ d.connections.items, c.Resolves d.distinctNodes := by
      intro c member
      rw [d.distinctNodes_eq wellFormed.nodeIds]
      exact (Document.resolves_iff_joins wellFormed.nodeIds wellFormed.pins c).mpr
        (wellFormed.joins c member)
    exact ⟨⟨wellFormed.nodeIds, by simp, wellFormed.pins⟩,
      ⟨wellFormed.connectionIds, by simp, resolves, wellFormed.dataTargets, by simp⟩,
      ⟨wellFormed.variableIds, by simp, wellFormed.variableNames, by simp⟩,
      wellFormed.commentIds, by simp⟩

theorem validate_hasErrors_eq_false_iff (catalog : Catalog) (d : Document) :
    (validate catalog d).hasErrors = false ↔ d.WellFormed := by
  rw [Report.hasErrors_eq_false_iff, validate_errorFree_iff]

/-- A validation reports no error exactly if the flowchart is well formed. -/
theorem validate_errors_eq_nil_iff (catalog : Catalog) (d : Document) :
    (validate catalog d).errors = [] ↔ d.WellFormed := by
  rw [Report.errors_eq_nil_iff, validate_errorFree_iff]

end Flowchart
