import Flowchart.Proofs.Document.Payloads
import Flowchart.Proofs.Legacy

/-!
# Entries of the older format that make no flowchart

* `Legacy.Node.IsBlank`, `Legacy.Edge.IsBlank`: entries that lack a name which the parts of a flowchart need.
* `Legacy.Blank`: all entries are of the older format, but one of them is blank.
* `Legacy.convert_answers_iff`: entries that are not of the older format are reported, those that are blank are not.
-/

namespace Flowchart

namespace Legacy

/-! ### Entries -/

def Node.IsBlank (node : Node) : Prop := node.id = "" ∨ node.type = ""

def Edge.IsBlank (edge : Edge) : Prop := edge.source = "" ∨ edge.target = ""

/-- The entries are of the older format, and one of them is blank. -/
def Blank (nodeEntries edgeEntries : Json) : Prop :=
  ∃ nodes edges, readEntries Node.check nodeEntries = .ok nodes ∧ readEntries Edge.check edgeEntries = .ok edges ∧
    ((∃ node ∈ nodes, node.IsBlank) ∨ ∃ edge ∈ edges, edge.IsBlank)

variable {catalog : Catalog}

theorem readEntries_array {check : Json → Checked α} {items : List Json} {e : Error}
    (failed : readEntries check (.array items) = .error e) : ∃ issues, e = .shape issues := by
  obtain ⟨item, -, refused⟩ := exists_of_mapM_eq_error failed
  obtain ⟨issues, -, rfl⟩ := mapError_eq_error_iff.mp refused
  exact ⟨issues, rfl⟩

theorem name_ne_empty {name : String} {step : PathStep} {read : String}
    (checked : (Check.name (.string name)).under step = .ok read) : name ≠ "" := by
  rintro rfl
  cases checked

/-- Only a blank node is refused. -/
theorem convertNode_cases (catalog : Catalog) (node : Node) :
    ((convertNode catalog node).toExcept.mapError Error.part = .ok (node.drawn catalog) ∧ ¬node.IsBlank) ∨
      ∃ e, (convertNode catalog node).toExcept.mapError Error.part = .error e ∧ (∃ issues, e = .part issues) ∧
        ¬¬node.IsBlank := by
  by_cases blank : node.IsBlank
  · cases made : convertNode catalog node with
    | bad issues => exact .inr ⟨_, rfl, ⟨issues, rfl⟩, not_not.mpr blank⟩
    | ok drawn =>
      simp only [convertNode, Checked.seq_eq_ok, Checked.map_eq_ok] at made
      obtain ⟨_, type, ⟨id, named, -⟩, typed, -⟩ := made
      exact absurd blank (not_or.mpr ⟨name_ne_empty named, name_ne_empty typed⟩)
  · obtain ⟨named, typed⟩ := not_or.mp blank
    rw [convertNode_eq_ok (by simpa using named) (by simpa using typed)]
    exact .inl ⟨rfl, blank⟩

/-- Only a blank edge is refused. -/
theorem convertEdge_cases (pins : catalog.PinsNamed) (nodes : List Node) (edge : Edge) (position : Nat) :
    ((convertEdge catalog nodes edge position).toExcept.mapError Error.part =
        .ok (edge.connection catalog nodes position) ∧ ¬edge.IsBlank) ∨
      ∃ e, (convertEdge catalog nodes edge position).toExcept.mapError Error.part = .error e ∧
        (∃ issues, e = .part issues) ∧ ¬¬edge.IsBlank := by
  by_cases blank : edge.IsBlank
  · cases made : convertEdge catalog nodes edge position with
    | bad issues => exact .inr ⟨_, rfl, ⟨issues, rfl⟩, not_not.mpr blank⟩
    | ok c =>
      simp only [convertEdge, Checked.seq_eq_ok, Checked.map_eq_ok] at made
      obtain ⟨_, _, ⟨_, target, ⟨_, _, ⟨_, source, ⟨id, _, -⟩, leaves, -⟩, _, -⟩, enters, -⟩, _, -⟩ := made
      exact absurd blank (not_or.mpr ⟨name_ne_empty leaves, name_ne_empty enters⟩)
  · obtain ⟨source, target⟩ := not_or.mp blank
    rw [convertEdge_eq_ok pins (by simpa using source) (by simpa using target)]
    exact .inl ⟨rfl, blank⟩

/-! ### All entries -/

/-- What two lists of entries come to: a flowchart, a report, or the flaws of a part that is made of a blank entry. -/
theorem convert_cases (pins : catalog.PinsNamed) (nodeItems edgeItems : List Json) :
    (∃ d, convert catalog (.array nodeItems) (.array edgeItems) = .ok d ∧
        ¬Blank (.array nodeItems) (.array edgeItems)) ∨
      (∃ issues, convert catalog (.array nodeItems) (.array edgeItems) = .error (.shape issues) ∧
        ¬Blank (.array nodeItems) (.array edgeItems)) ∨
      ∃ issues, convert catalog (.array nodeItems) (.array edgeItems) = .error (.part issues) ∧
        Blank (.array nodeItems) (.array edgeItems) := by
  -- in the order of the steps, the first that fails is the answer
  cases readNodes : readEntries Node.check (.array nodeItems) with
  | error e =>
    obtain ⟨issues, rfl⟩ := readEntries_array readNodes
    refine .inr (.inl ⟨issues, bind_eq_error_iff.mpr (.inl readNodes), ?_⟩)
    rintro ⟨_, _, read, -⟩
    cases readNodes.symm.trans read
  | ok nodes =>
  cases readEdges : readEntries Edge.check (.array edgeItems) with
  | error e =>
    obtain ⟨issues, rfl⟩ := readEntries_array readEdges
    refine .inr (.inl ⟨issues, bind_eq_error_iff.mpr (.inr ⟨nodes, readNodes, ?_⟩), ?_⟩)
    · exact bind_eq_error_iff.mpr (.inl readEdges)
    · rintro ⟨_, _, -, read, -⟩
      cases readEdges.symm.trans read
  | ok edges =>
  obtain ⟨drawn, filled⟩ | ⟨node, member, e, failed, ⟨issues, rfl⟩, blank⟩ :=
    mapM_cases fun node (_ : node ∈ nodes) => convertNode_cases catalog node
  · obtain ⟨joined, complete⟩ | ⟨entry, member, e, failed, ⟨issues, rfl⟩, blank⟩ :=
      mapM_cases fun entry (_ : entry ∈ edges.zipIdx) => convertEdge_cases pins nodes entry.1 entry.2
    · refine .inl ⟨drawing catalog nodes edges, ?_, ?_⟩
      · refine bind_eq_ok_iff.mpr ⟨nodes, readNodes, bind_eq_ok_iff.mpr ⟨edges, readEdges, ?_⟩⟩
        exact bind_eq_ok_iff.mpr ⟨_, drawn, bind_eq_ok_iff.mpr ⟨_, joined, rfl⟩⟩
      · rintro ⟨others, edges', read, read', ⟨node, member, blank⟩ | ⟨edge, member, blank⟩⟩
        · cases readNodes.symm.trans read
          exact filled node member blank
        · cases readEdges.symm.trans read'
          obtain ⟨position, found⟩ := List.mem_iff_getElem?.mp member
          exact complete (edge, position) (List.mem_zipIdx_iff_getElem?.mpr found) blank
    · refine .inr (.inr ⟨issues, ?_, nodes, edges, readNodes, readEdges, .inr ?_⟩)
      · refine bind_eq_error_iff.mpr (.inr ⟨nodes, readNodes, bind_eq_error_iff.mpr (.inr ⟨edges, readEdges, ?_⟩)⟩)
        exact bind_eq_error_iff.mpr (.inr ⟨_, drawn, bind_eq_error_iff.mpr (.inl failed)⟩)
      · exact ⟨entry.1, List.fst_mem_of_mem_zipIdx member, not_not.mp blank⟩
  · refine .inr (.inr ⟨issues, ?_, nodes, edges, readNodes, readEdges, .inl ⟨node, member, not_not.mp blank⟩⟩)
    refine bind_eq_error_iff.mpr (.inr ⟨nodes, readNodes, bind_eq_error_iff.mpr (.inr ⟨edges, readEdges, ?_⟩)⟩)
    exact bind_eq_error_iff.mpr (.inl failed)

/-- Two lists of entries make a flowchart, or a report says why they do not, unless one of the entries is blank. -/
theorem convert_answers_iff (pins : catalog.PinsNamed) (nodeItems edgeItems : List Json) :
    ((∃ d, convert catalog (.array nodeItems) (.array edgeItems) = .ok d) ∨
        ∃ e, convert catalog (.array nodeItems) (.array edgeItems) = .error e ∧ e.failure.IsSerialization) ↔
      ¬Blank (.array nodeItems) (.array edgeItems) := by
  obtain ⟨d, done, filled⟩ | ⟨issues, done, filled⟩ | ⟨issues, done, blank⟩ := convert_cases pins nodeItems edgeItems
  · exact iff_of_true (.inl ⟨d, done⟩) filled
  · exact iff_of_true (.inr ⟨_, done, _, _, rfl⟩) filled
  · refine iff_of_false ?_ (not_not.mpr blank)
    rintro (⟨d, drawn⟩ | ⟨e, refused, message, details, reported⟩)
    · cases done.symm.trans drawn
    · cases done.symm.trans refused
      cases reported

/-- A node without an id. -/
theorem convert_answers_iff_nameless :
    let nodes : List Json := [.object [("id", .string ""), ("type", .string "x")]]
    Catalog.builtin.PinsNamed ∧ Blank (.array nodes) (.array []) ∧
      ¬((∃ d, convert .builtin (.array nodes) (.array []) = .ok d) ∨
        ∃ e, convert .builtin (.array nodes) (.array []) = .error e ∧ e.failure.IsSerialization) := by
  intro nodes
  have blank : Blank (.array nodes) (.array []) :=
    ⟨[⟨"", "x", ⟨0, 0, 0⟩, none, []⟩], [], rfl, rfl, .inl ⟨_, List.mem_cons_self, .inl rfl⟩⟩
  refine ⟨builtin_pinsNamed, blank, ?_⟩
  rw [convert_answers_iff builtin_pinsNamed]
  exact not_not.mpr blank

end Legacy

end Flowchart
