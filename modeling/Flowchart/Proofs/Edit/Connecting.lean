import Flowchart.Proofs.Edit.Failures
import Flowchart.Proofs.Validation.Passes

/-!
# Editor and validation agree on connections

* `Document.connected`: a flowchart with one more connection; `Document.faults`: what a validation finds wrong
  with that connection.
* `connect_refused`, `connect_accepted`: an editor refuses to make the connection with the kind of error
  that belongs to a fault, and makes it if there is none.
* `connect_iff_validate`: an editor makes exactly the connections that a validation would accept.

The editor looks for pins and for the data that an input receives in the flowchart itself, the validation keeps
tables of them. In a well-formed flowchart both find the same.
-/

namespace Flowchart

/-- The kind of error with which an edit is refused that would bring about a finding on a connection. -/
def Finding.refusal? : Finding → Option ErrorKind
  | missingEndNode _ _ _ | misplacedEndPin _ _ _ | missingEndPin _ _ _ => some .invalidReference
  | mismatch _ _ _ => some .typeMismatch
  | fanIn _ _ _ => some .fanInViolation
  | _ => none

namespace Connection

variable {nodes : List Node} {held : List (End × String)} {c : Connection} {f : Finding}

theorem resolve_refusal {side : Side} (failed : c.resolve nodes side = .error f) :
    f.refusal? = some .invalidReference ∧ f.connectionId? = some c.id := by
  unfold resolve at failed
  grind [Finding.refusal?, Finding.connectionId?]

/-- What can be wrong with a connection: an end of it, the kinds of its pins, or the input that it leads to. -/
theorem mem_faults_iff : f ∈ c.faults nodes held ↔
    (∃ side, c.resolve nodes side = .error f) ∨
    ∃ source target, c.resolve nodes .output = .ok source ∧ c.resolve nodes .input = .ok target ∧
      ((∃ objection, c.link.objection? source.kind target.kind = some objection ∧
          f = .mismatch c.id c.target objection) ∨
        c.link.objection? source.kind target.kind = none ∧ c.link = .data ∧
          ∃ holder, held.lookup c.target = some holder ∧ f = .fanIn c.id c.target holder) := by
  have sides : (∃ side, c.resolve nodes side = .error f) ↔
      c.resolve nodes .output = .error f ∨ c.resolve nodes .input = .error f :=
    ⟨fun ⟨side, failed⟩ => by cases side <;> simp [failed], fun failed => failed.elim (⟨_, ·⟩) (⟨_, ·⟩)⟩
  rw [sides, faults]
  cases c.resolve nodes .output with
  | error g => cases c.resolve nodes .input <;> simp [eq_comm]
  | ok source =>
    cases c.resolve nodes .input with
    | error g => simp [eq_comm]
    | ok target =>
      cases objection : c.link.objection? source.kind target.kind with
      | some objection => simp [objection]
      | none => cases link : c.link <;> cases lookup : held.lookup c.target <;> simp_all

/-- What is wrong with a connection is about it. -/
theorem connectionId_of_faults (fault : f ∈ c.faults nodes held) : f.connectionId? = some c.id := by
  obtain ⟨side, failed⟩ | ⟨_, _, -, -, ⟨_, -, rfl⟩ | ⟨-, -, _, -, rfl⟩⟩ := mem_faults_iff.1 fault
  · exact (resolve_refusal failed).2
  · rfl
  · rfl

end Connection

namespace Document

/-- The flowchart with one more connection. -/
def connected (d : Document) (c : Connection) : Document :=
  { d with connections := d.connections.edit (· ++ [c]) }

/-- What comes of asking an editor for the connection. -/
def connect (d : Document) (c : Connection) : Except EditError (Editor × Connection) :=
  (Editor.ofDocument d).addConnection c.source c.target (.chosen c.link) (some c.id)

/-- An editor refuses to make the connection, with an error of some kind. -/
def Refuses (d : Document) (c : Connection) (kind : ErrorKind) : Prop :=
  ∃ error, d.connect c = .error error ∧ error.kind? = some kind

/-- The inputs that receive data, with the connections that they receive it from, the last one first. -/
def held (d : Document) : List (End × String) :=
  ((d.connections.items.filter fun c => c.link = .data).map fun c => (c.target, c.id)).reverse

/-- What a validation finds wrong with one more connection, its id aside. -/
def faults (d : Document) (c : Connection) : List Finding := c.faults d.nodes.items d.held

variable {d : Document}

theorem held_eq_none_iff {target : End} : d.held.lookup target = none ↔ target ∉ d.dataTargets := by
  simp [held, dataTargets, List.lookup_eq_none_iff]
  grind

/-- The pass over the connections finds what is wrong with the new one. -/
theorem connected_found (catalog : Catalog) (wellFormed : d.WellFormed) (c : Connection) :
    (d.connected c).found catalog .connections =
      if c.id ∈ d.connections.items.map Connection.id then [.duplicateConnection c.id] else d.faults c := by
  have nodes : (d.connected c).distinctNodes = d.nodes.items := d.distinctNodes_eq wellFormed.nodeIds
  have resolves : ∀ c ∈ d.connections.items, c.Resolves d.nodes.items := fun c member =>
    (resolves_iff_joins wellFormed.nodeIds wellFormed.pins c).2 (wellFormed.joins c member)
  have fine : ErrorFree (checkConnections d.nodes.items [] [] d.connections.items).1 :=
    (checkConnections_errorFree_iff _ _ _ _).2
      ⟨wellFormed.connectionIds, by simp, resolves, wellFormed.dataTargets, by simp⟩
  rw [found, nodes, connected, Collection.edit, checkConnections_append fine]
  simp only [List.append_nil, checkConnections]
  by_cases taken : c.id ∈ d.connections.items.map Connection.id
  · have seen : (d.connections.items.map Connection.id).reverse.contains c.id = true := by simpa using taken
    rw [if_pos seen, if_pos taken]
  have unseen : ¬(d.connections.items.map Connection.id).reverse.contains c.id = true := by simpa using taken
  rw [if_neg unseen, if_neg taken]
  split
  next fine => exact fine.symm
  next => simp [faults, held]

end Document

namespace Editor

variable {e : Editor} {d : Document} {error : EditError}

/-- A pin that is not found is not there. -/
theorem pin_missing (indexed : e.Indexed) (distinct : (e.document.nodes.items.map Node.id).Nodup) {at_ : End}
    {side : Side} (failed : e.pin at_ side = .error error) :
    error.kind? = some .invalidReference ∧ ∀ pin, ¬e.document.HasPin at_ side pin := by
  obtain missing | ⟨⟨position, node⟩, located, failed⟩ := bind_eq_error_iff.1 failed
  · cases locate_eq_error indexed missing
    refine ⟨rfl, ?_⟩
    rintro pin ⟨node, member, same, -⟩
    obtain ⟨found, located⟩ := locate_of_mem indexed (List.mem_map.2 ⟨node, member, same⟩)
    simp [missing] at located
  · obtain ⟨present, same⟩ := locate_eq_ok located
    dsimp only at failed
    cases look : node.pin? side at_.pin with
    | some pin => simp [look, pure, Except.pure] at failed
    | none =>
      constructor
      · simp only [look] at failed
        split at failed <;> (cases failed; rfl)
      · rintro pin ⟨other, member, sameOther, onSide, named⟩
        cases eq_of_key_eq distinct (List.mem_of_getElem? present) member (same.trans sameOther.symm)
        have absent := List.find?_eq_none.1 look pin onSide
        simp [named] at absent

/-- The editor finds the pins at the ends that the validation finds. -/
theorem pin_of_resolve_ok (wellFormed : d.WellFormed) {c : Connection} {side : Side} {pin : Pin}
    (resolved : c.resolve d.nodes.items side = .ok pin) : (ofDocument d).pin (c.endOn side) side = .ok pin := by
  have resolve := d.resolve_eq_ok_iff wellFormed.nodeIds wellFormed.pins c side
  cases found : (ofDocument d).pin (c.endOn side) side with
  | ok other =>
    have again := (resolve other).2 (pin_eq_ok found)
    cases again.symm.trans resolved
    rfl
  | error error =>
    obtain ⟨-, absent⟩ := pin_missing (indexed_ofDocument d) wellFormed.nodeIds found
    exact absurd ((resolve pin).1 resolved) (absent pin)

/-- Where the validation finds no pin, the editor says that there is none. -/
theorem pin_of_resolve_error (wellFormed : d.WellFormed) {c : Connection} {side : Side} {f : Finding}
    (failed : c.resolve d.nodes.items side = .error f) :
    ∃ error, (ofDocument d).pin (c.endOn side) side = .error error ∧ error.kind? = some .invalidReference := by
  cases found : (ofDocument d).pin (c.endOn side) side with
  | ok pin =>
    have resolved := (d.resolve_eq_ok_iff wellFormed.nodeIds wellFormed.pins c side pin).2 (pin_eq_ok found)
    cases failed.symm.trans resolved
  | error error => exact ⟨error, rfl, (pin_missing (indexed_ofDocument d) wellFormed.nodeIds found).1⟩

/-- Both know the same inputs to receive data. -/
theorem holder?_ofDocument {target : End} :
    (ofDocument d).holder? target = none ↔ d.held.lookup target = none := by
  rw [Document.held_eq_none_iff]
  refine ⟨holder?_eq_none, fun free => List.find?_eq_none.2 fun c member same => free ?_⟩
  rw [Bool.and_eq_true, beq_iff_eq] at same
  exact List.mem_map.2 ⟨c, List.mem_filter.2 ⟨member, by simpa using same.1⟩, by simpa using same.2⟩

/-- With pins at both ends it is left to compare them, to choose an id and to make the connection. -/
theorem addConnection_of_pins {source target : End} {producer consumer : Pin}
    (produces : e.pin source .output = .ok producer) (consumes : e.pin target .input = .ok consumer) (link : Link)
    (given : Option String) :
    e.addConnection source target (.chosen link) given =
      e.checkJoin source target producer.kind consumer.kind link link.name >>= fun _ =>
        e.chooseId source target given >>= fun id =>
          match makeConnection id source target link.name with
          | .bad issues => .error (.malformed issues)
          | .ok c => .ok (e.pushConnection c, c) := by
  rw [addConnection, produces, consumes]
  rfl

/-- A fault of the connection is why the editor refuses to make it. -/
theorem connect_refused (wellFormed : d.WellFormed) {c : Connection} {f : Finding} (fault : f ∈ d.faults c) :
    ∃ error, d.connect c = .error error ∧ error.kind? = f.refusal? := by
  rw [Document.connect]
  -- the source is looked at first
  cases output : c.resolve d.nodes.items .output with
  | error g =>
    obtain ⟨error, missing, kind⟩ :
        ∃ error, (ofDocument d).pin c.source .output = .error error ∧ error.kind? = some .invalidReference :=
      pin_of_resolve_error wellFormed output
    have refusal : f.refusal? = some .invalidReference := by
      obtain ⟨side, failed⟩ | ⟨_, _, resolved, -⟩ := Connection.mem_faults_iff.1 fault
      · exact (Connection.resolve_refusal failed).1
      · simp [output] at resolved
    exact ⟨error, by simp [addConnection, missing, bind, Except.bind], kind.trans refusal.symm⟩
  | ok producer =>
    have produces : (ofDocument d).pin c.source .output = .ok producer := pin_of_resolve_ok wellFormed output
    cases input : c.resolve d.nodes.items .input with
    | error g =>
      obtain ⟨error, missing, kind⟩ :
          ∃ error, (ofDocument d).pin c.target .input = .error error ∧ error.kind? = some .invalidReference :=
        pin_of_resolve_error wellFormed input
      have refusal : f.refusal? = some .invalidReference := by
        obtain ⟨side, failed⟩ | ⟨_, _, -, resolved, -⟩ := Connection.mem_faults_iff.1 fault
        · exact (Connection.resolve_refusal failed).1
        · simp [input] at resolved
      exact ⟨error, by simp [addConnection, produces, missing, bind, Except.bind], kind.trans refusal.symm⟩
    | ok consumer =>
      have consumes : (ofDocument d).pin c.target .input = .ok consumer := pin_of_resolve_ok wellFormed input
      rw [addConnection_of_pins produces consumes]
      obtain ⟨side, failed⟩ | ⟨_, _, same, same', found⟩ := Connection.mem_faults_iff.1 fault
      · cases side <;> simp_all
      cases same.symm.trans output
      cases same'.symm.trans input
      obtain ⟨objection, objects, rfl⟩ | ⟨fits, link, holder, holds, rfl⟩ := found
      · exact ⟨_, by rw [checkJoin, objects]; rfl, rfl⟩
      · have taken : (ofDocument d).holder? c.target ≠ none := by
          rw [ne_eq, holder?_ofDocument, holds]
          simp
        obtain ⟨other, held⟩ := Option.ne_none_iff_exists'.1 taken
        exact ⟨_, by rw [checkJoin, fits, held, link]; rfl, rfl⟩

/-- A connection without faults is made, unless its id is taken. -/
theorem connect_accepted (wellFormed : d.WellFormed) {c : Connection} (named : c.id ≠ "")
    (fine : d.faults c = []) :
    d.connect c =
      if c.id ∈ d.connections.items.map Connection.id then .error (.connectionTaken c.id)
      else .ok ((ofDocument d).pushConnection c, c) := by
  obtain ⟨⟨producer, consumer, output, input, fits⟩, free⟩ := (Connection.faults_eq_nil_iff _ _ _).1 fine
  have produces : (ofDocument d).pin c.source .output = .ok producer := pin_of_resolve_ok wellFormed output
  have consumes : (ofDocument d).pin c.target .input = .ok consumer := pin_of_resolve_ok wellFormed input
  have joined : (ofDocument d).checkJoin c.source c.target producer.kind consumer.kind c.link c.link.name =
      .ok () := by
    rw [checkJoin, fits]
    cases held : (ofDocument d).holder? c.target with
    | none => rfl
    | some holder =>
      -- what the input receives already is data, so that only another execution connection may lead to it
      have taken : c.link ≠ .data := fun link => by
        simp [holder?_ofDocument.2 (free link)] at held
      cases link : c.link with
      | data => exact absurd link taken
      | execution => rfl
  have filled : c.id.isEmpty = false := by simpa using named
  rw [Document.connect, addConnection_of_pins produces consumes, joined]
  have known := (indexed_ofDocument d).hasConnection_iff c.id
  by_cases taken : c.id ∈ d.connections.items.map Connection.id
  · have there : (ofDocument d).hasConnection c.id = true := known.2 taken
    rw [if_pos taken, chooseId, if_pos there]
    rfl
  · have absent : ¬(ofDocument d).hasConnection c.id = true := fun there => taken (known.1 there)
    rw [if_neg taken, chooseId, if_neg absent]
    simp only [bind, Except.bind, makeConnection_of_filled filled]

end Editor

/-- The report has a finding of some code on a connection. -/
def Report.Has (r : Report) (code connection : String) : Prop :=
  ∃ f ∈ r.findings, f.code = code ∧ f.connectionId? = some connection

section

variable {d : Document} {c : Connection}

/-- One more connection leaves a flowchart without errors if nothing is wrong with it and its id is new. -/
theorem connected_valid_iff (catalog : Catalog) (wellFormed : d.WellFormed) :
    (validate catalog (d.connected c)).errors = [] ↔
      c.id ∉ d.connections.items.map Connection.id ∧ d.faults c = [] := by
  rw [validate_errors_eq_nil_iff]
  constructor
  · intro connected
    have free := (validate_errorFree_iff catalog _).2 connected
    have silent : ∀ f ∈ (d.connected c).found catalog .connections, f.isError = false := fun f member =>
      free f (mem_found_iff.1 ((d.connected c).found_allFrom catalog .connections f member ▸ member))
    rw [d.connected_found catalog wellFormed] at silent
    split at silent
    next => exact absurd (silent _ List.mem_cons_self) (by simp [Finding.isError, Finding.severity])
    next fresh =>
      refine ⟨fresh, List.eq_nil_iff_forall_not_mem.2 fun f fault => ?_⟩
      have isError := Connection.faults_isError fault
      simp [silent f fault] at isError
  · rintro ⟨fresh, fine⟩
    obtain ⟨resolves, free⟩ := (Connection.faults_eq_nil_iff _ _ _).1 fine
    exact wellFormed.addConnection ((Document.resolves_iff_joins wellFormed.nodeIds wellFormed.pins c).1 resolves)
      (fun link => Document.held_eq_none_iff.1 (free link)) fresh

/-- A kind of error and a code that say the same of a connection are met together. -/
theorem refuses_iff (catalog : Catalog) (wellFormed : d.WellFormed) (named : c.id ≠ "")
    (fresh : c.id ∉ d.connections.items.map Connection.id) {kind : ErrorKind} {code : String}
    (same : ∀ f : Finding, f.refusal? = some kind ↔ f.code = code)
    (own : ∀ f : Finding, f.code = code → f.pass = .connections) :
    d.Refuses c kind ↔ (validate catalog (d.connected c)).Has code c.id := by
  have found := d.connected_found catalog wellFormed c
  rw [if_neg fresh] at found
  constructor
  · rintro ⟨error, refused, isKind⟩
    cases faults : d.faults c with
    | nil =>
      rw [Editor.connect_accepted wellFormed named faults, if_neg fresh] at refused
      cases refused
    | cons f _ =>
      have fault : f ∈ d.faults c := faults ▸ List.mem_cons_self
      obtain ⟨_, again, refusal⟩ := Editor.connect_refused wellFormed fault
      cases refused.symm.trans again
      have isCode := (same f).1 (refusal.symm.trans isKind)
      refine ⟨f, mem_found_iff.1 ?_, isCode, Connection.connectionId_of_faults fault⟩
      rw [own f isCode, found]
      exact fault
  · rintro ⟨f, member, isCode, -⟩
    have fault : f ∈ d.faults c := by
      rw [← found, ← own f isCode]
      exact mem_found_iff.2 member
    obtain ⟨error, refused, refusal⟩ := Editor.connect_refused wellFormed fault
    exact ⟨error, refused, refusal.trans ((same f).2 isCode)⟩

end

/-- An editor and a validation agree on the connections that a flowchart without errors may be given. Where one is
refused, and not for its id, the kind of the error says which finding it would bring about. -/
theorem connect_iff_validate (catalog : Catalog) (d : Document) (c : Connection)
    (valid : (validate catalog d).errors = []) (named : c.id ≠ "") :
    ((∃ done, d.connect c = .ok done) ↔ (validate catalog (d.connected c)).errors = []) ∧
      (c.id ∉ d.connections.items.map Connection.id →
        (d.Refuses c .invalidReference ↔ (validate catalog (d.connected c)).Has "dangling_reference" c.id) ∧
        (d.Refuses c .typeMismatch ↔ (validate catalog (d.connected c)).Has "type_mismatch" c.id) ∧
        (d.Refuses c .fanInViolation ↔ (validate catalog (d.connected c)).Has "fan_in_violation" c.id)) := by
  have wellFormed := (validate_errors_eq_nil_iff catalog d).1 valid
  refine ⟨?_, fun fresh => ⟨?_, ?_, ?_⟩⟩
  · rw [connected_valid_iff catalog wellFormed]
    constructor
    · rintro ⟨done, made⟩
      have fine : d.faults c = [] := by
        refine List.eq_nil_iff_forall_not_mem.2 fun f fault => ?_
        obtain ⟨error, refused, -⟩ := Editor.connect_refused wellFormed fault
        simp [made] at refused
      refine ⟨fun taken => ?_, fine⟩
      rw [Editor.connect_accepted wellFormed named fine, if_pos taken] at made
      cases made
    · rintro ⟨fresh, fine⟩
      exact ⟨_, (Editor.connect_accepted wellFormed named fine).trans (if_neg fresh)⟩
  all_goals
    refine refuses_iff catalog wellFormed named fresh (fun f => ?_) (fun f => ?_)
    all_goals cases f <;> simp [Finding.refusal?, Finding.code, Finding.pass]

/-- Two nodes, the second of which receives the number that the first one makes. -/
def samplePair : Document :=
  { nodes := .of [
      { id := "sum", type := "math", outputPins := some [{ id := "total", name := "Total", kind := .number }] },
      { id := "show", type := "print", inputPins := some [{ id := "value", name := "Value", kind := .any }] }]
    connections := .of [⟨"first", ⟨"sum", "total"⟩, ⟨"show", "value"⟩, .data⟩] }

/-- A second connection to the same input. -/
def sampleSecond : Connection := ⟨"second", ⟨"sum", "total"⟩, ⟨"show", "value"⟩, .data⟩

theorem connect_iff_validate_occupied :
    (validate ⟨[]⟩ samplePair).errors = [] ∧ sampleSecond.id ≠ "" ∧
      samplePair.Refuses sampleSecond .fanInViolation ∧
      (validate ⟨[]⟩ (samplePair.connected sampleSecond)).Has "fan_in_violation" "second" := by
  have valid : (validate ⟨[]⟩ samplePair).errors = [] := by rfl
  have named : sampleSecond.id ≠ "" := by decide
  have fresh : sampleSecond.id ∉ samplePair.connections.items.map Connection.id := by decide
  have refused : samplePair.Refuses sampleSecond .fanInViolation := ⟨.fanIn ⟨"show", "value"⟩ "first", rfl, rfl⟩
  obtain ⟨-, kinds⟩ := connect_iff_validate ⟨[]⟩ samplePair sampleSecond valid named
  exact ⟨valid, named, refused, (kinds fresh).2.2.1 refused⟩

end Flowchart
