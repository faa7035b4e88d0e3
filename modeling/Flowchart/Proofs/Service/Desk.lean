import Flowchart.Proofs.Service.History
import Flowchart.Proofs.Service.Upkeep

/-!
# Runs of a service

* `Desk`: a service and the turns that were begun, about any of its flowcharts.
* `Desk.step`, `Desk.play`: calls that come in one after the other, and restarts of the service. The steps of several
  turns come in between each other in any order.
* `Desk.Call.Harmless`: what is to be shown of a call so that an invariant is kept. `Desk.step_upholds` says that this
  is enough.
-/

namespace Flowchart

/-- A service and the turns that were begun, about any of its flowcharts. -/
structure Desk where
  service : Service
  turns : List History.Stage := []

namespace Desk

open History (Stage)

/-- A call to the service. A turn is known by its place among those that were begun. -/
inductive Call where
  | save (owner name : String) (d : Document) (description : Option String)
  | update (key : DocumentKey) (name : Option String) (d : Option Document) (description : Option String)
      (base : Option Int)
  | commit (key : DocumentKey) (base : Int) (operations : List Operation) (origin : String)
  | delete (key : DocumentKey)
  | openSession (key : DocumentKey)
  | beginTurn (key : DocumentKey) (message : String)
  | receive (turn : Nat) (reply : Reply)
  | conclude (turn : Nat)
  | settle (turn : Nat)
  /-- The service starts again over the same store; its sessions and turns are gone. -/
  | restart

/-- Goes on with what an action has left, whatever it came to. -/
def after (desk : Desk) (act : Act Service α) : Desk := { desk with service := (act.out desk.service).2 }

def beginTurn (p : Planner) (key : DocumentKey) (message : String) (desk : Desk) : Desk :=
  match (Service.beginTurn p key message).out desk.service with
  | (.ok t, service) => { service, turns := desk.turns ++ [.asked t] }
  | (.error _, service) => { desk with service }

/-- Takes a turn to its next stage. A turn that fails is over. -/
def advance (turn : Nat) (next : Stage → Act Service Stage) (desk : Desk) : Desk :=
  match desk.turns[turn]? with
  | none => desk
  | some stage =>
    let (r, service) := (next stage).out desk.service
    { service, turns := desk.turns.set turn (r.toOption.getD .ended) }

/-- Takes the reply to a turn that waits for it. -/
def receive (p : Planner) (reply : Reply) : Stage → Act Service Stage
  | .asked t => do
    match ← Service.receiveReply p t reply with
    | .inl _ => return .ended
    | .inr plan => return .planned t plan
  | stage => return stage

/-- Commits the batch of a turn that has a plan. -/
def conclude (p : Planner) : Stage → Act Service Stage
  | .planned t plan => do return .committed t (← Service.concludeTurn p t plan)
  | stage => return stage

/-- Writes back what a turn has come to, and ends it. -/
def settle : Stage → Act Service Stage
  | .committed t result => do
    let _ ← Service.settleTurn t result
    return .ended
  | stage => return stage

/-- Makes a call. A step of a turn that has not come so far does nothing. -/
def step (p : Planner) (desk : Desk) : Call → Desk
  | .save owner name d description => desk.after (Service.save p owner name d description)
  | .update key name d description base => desk.after (Service.update p key name d description base)
  | .commit key base operations origin => desk.after (Service.commit p key base operations origin)
  | .delete key => desk.after (Service.delete key)
  | .openSession key => desk.after (Service.openSession key)
  | .beginTurn key message => desk.beginTurn p key message
  | .receive turn reply => desk.advance turn (receive p reply)
  | .conclude turn => desk.advance turn (conclude p)
  | .settle turn => desk.advance turn settle
  | .restart => { service := { store := desk.service.store } }

def play (p : Planner) (desk : Desk) (calls : List Call) : Desk := calls.foldl (step p) desk

theorem play_cons (p : Planner) (desk : Desk) (call : Call) (calls : List Call) :
    desk.play p (call :: calls) = (desk.step p call).play p calls := rfl

theorem after_of_out {desk : Desk} {act : Act Service α} {r : Except Failure α} {s : Service}
    (done : act.out desk.service = (r, s)) : desk.after act = { desk with service := s } := by
  rw [after, done]

theorem beginTurn_service (p : Planner) (key : DocumentKey) (message : String) (desk : Desk) :
    (desk.beginTurn p key message).service = ((Service.beginTurn p key message).out desk.service).2 := by
  unfold beginTurn
  split
  next begun => rw [begun]
  next begun => rw [begun]

/-- Flowcharts and operations come in as text or as decoded values. -/
def Call.Received : Call → Prop
  | .save _ _ d _ => ∃ payload : Payload, payload.DistinctKeys ∧ Document.read payload = .ok d
  | .update _ _ (some d) _ _ => ∃ payload : Payload, payload.DistinctKeys ∧ Document.read payload = .ok d
  | .commit _ _ operations _ => ∃ raw : Json, raw.DistinctKeys ∧ Operation.checkList raw = .ok operations
  | _ => True

/-! ### Invariants -/

section

variable {p : Planner} {Named : String → Prop} {Fine : Document → Prop} {P : Service → Prop} {desk : Desk}

/-- What a turn has planned is sound, and what it has committed is fine. -/
def IsFine (Fine : Document → Prop) : Stage → Prop
  | .planned _ plan => ∀ operation ∈ plan.operations, operation.Sound
  | .committed _ result => result.applied = true → Fine result.document
  | _ => True

/-- The invariant holds of the service, and what the turns are about to do will not hurt it. -/
structure Upholds (Fine : Document → Prop) (P : Service → Prop) (desk : Desk) : Prop where
  service : P desk.service
  turns : ∀ stage ∈ desk.turns, IsFine Fine stage

/-- No turn was begun yet. -/
theorem upholds_start {s : Service} (holds : P s) : Upholds Fine P { service := s } :=
  ⟨holds, fun _ mem => absurd mem List.not_mem_nil⟩

theorem Upholds.after (upholds : desk.Upholds Fine P) {act : Act Service α} {Q : Service → Prop}
    (kept : Q (act.out desk.service).2) : (desk.after act).Upholds Fine Q := ⟨kept, upholds.turns⟩

theorem Upholds.advance (upholds : desk.Upholds Fine P) (turn : Nat) {next : Stage → Act Service Stage}
    (keeps : ∀ stage, IsFine Fine stage → (next stage).Keeps P (IsFine Fine)) :
    (desk.advance turn next).Upholds Fine P := by
  unfold Desk.advance
  split
  next => exact upholds
  next stage found =>
    obtain ⟨kept, made⟩ := keeps stage (upholds.turns stage (List.mem_of_getElem? found)) _ upholds.service
    refine ⟨kept, fun other mem => ?_⟩
    obtain mem | rfl := List.mem_or_eq_of_mem_set mem
    · exact upholds.turns other mem
    · cases done : ((next stage).out desk.service).1 with
      | ok later => exact made later done
      | error e => exact trivial

theorem Upholds.beginTurn (upholds : desk.Upholds Fine P) {key : DocumentKey} {message : String}
    {Q : Service → Prop} (kept : Q ((Service.beginTurn p key message).out desk.service).2) :
    (desk.beginTurn p key message).Upholds Fine Q := by
  unfold Desk.beginTurn
  split
  next t service begun =>
    rw [begun] at kept
    exact ⟨kept, List.forall_mem_append.2 ⟨upholds.turns, List.forall_mem_singleton.2 trivial⟩⟩
  next e service refused =>
    rw [refused] at kept
    exact ⟨kept, upholds.turns⟩

theorem receive_keeps (upheld : Service.Upheld Named Fine P) (reply : Reply) (stage : Stage)
    (fine : IsFine Fine stage) : (receive p reply stage).Keeps P (IsFine Fine) := by
  unfold receive
  split
  next t =>
    refine .bind (upheld.receiveReply_keeps t reply) fun received sound => ?_
    split
    next => exact Act.keeps_pure trivial
    next plan => exact Act.keeps_pure (sound plan rfl)
  next => exact Act.keeps_pure fine

theorem conclude_keeps (upheld : Service.Upheld Named Fine P)
    (makes : ∀ {operations : List Operation}, (∀ operation ∈ operations, operation.Sound) →
      p.engine.Makes Fine operations) (stage : Stage) (fine : IsFine Fine stage) :
    (conclude p stage).Keeps P (IsFine Fine) := by
  unfold conclude
  split
  next t plan =>
    exact .bind (upheld.concludeTurn_keeps t (makes fine)) fun _ made => Act.keeps_pure made
  next => exact Act.keeps_pure fine

theorem settle_keeps (upheld : Service.Upheld Named Fine P) (stage : Stage) (fine : IsFine Fine stage) :
    (settle stage).Keeps P (IsFine Fine) := by
  unfold settle
  split
  next t result => exact .bind (upheld.settleTurn_keeps t fine) fun _ _ => Act.keeps_pure trivial
  next => exact Act.keeps_pure fine

/-- What is to be shown of a call so that the invariant is kept: of names, flowcharts and operations that come in, of
files that are made or deleted, and of sessions that are closed or taken over by another turn. -/
def Call.Harmless (p : Planner) (Named : String → Prop) (Fine : Document → Prop) (P : Service → Prop)
    (s : Service) : Call → Prop
  | .save owner name d description =>
    d.WellFormed → (Service.onStore (Store.save owner name d description)).Keeps P fun _ => True
  | .update key name d description base =>
    (∀ given, name = some given → Named given) ∧ (∀ new, d = some new → new.WellFormed → Fine new) ∧
      (d.isSome = true → ((Service.update p key name d description base).out s).1.isOk = true →
        ∀ mid, P mid → P (mid.close key))
  | .commit _ _ operations _ => p.engine.Makes Fine operations
  | .delete key =>
    (Service.onStore (Store.delete key.owner key.id)).Keeps P (fun _ => True) ∧ ∀ mid, P mid → P (mid.close key)
  | .beginTurn key message =>
    ((Service.beginTurn p key message).out s).1.isOk = true → ∀ mid n session, P mid →
      mid.live? key = some n → mid.session? n = some session → P (mid.putSession n session.cancel)
  | .restart => P s → P { store := s.store }
  | _ => True

theorem step_upholds (upheld : Service.Upheld Named Fine P)
    (makes : ∀ {operations : List Operation}, (∀ operation ∈ operations, operation.Sound) →
      p.engine.Makes Fine operations) (upholds : desk.Upholds Fine P) {call : Call}
    (harmless : call.Harmless p Named Fine P desk.service) : (desk.step p call).Upholds Fine P := by
  cases call with
  | save owner name d description =>
    exact upholds.after (upheld.save_keeps p owner name d description harmless _ upholds.service).1
  | update key name d description base =>
    obtain ⟨named, read, closes⟩ := harmless
    refine upholds.after ((upheld.update_ends p key named read description base).holds upholds.service ?_)
    rintro stored mid _ done kept ⟨events, rfl⟩
    refine upheld.told _ ?_
    split
    next replaces => exact closes replaces (by rw [done]; rfl) mid kept
    next => exact kept
  | commit key base operations origin =>
    exact upholds.after (upheld.commit_keeps key base harmless origin _ upholds.service).1
  | delete key =>
    obtain ⟨erases, closes⟩ := harmless
    refine upholds.after ((Service.delete_ends key erases).holds upholds.service ?_)
    rintro deleted mid _ - kept ⟨events, rfl⟩
    exact upheld.told _ (closes mid kept)
  | openSession key => exact upholds.after (upheld.openSession_keeps key _ upholds.service).1
  | beginTurn key message =>
    refine upholds.beginTurn ((upheld.beginTurn_ends p key message).holds upholds.service ?_)
    rintro t mid _ done kept ⟨session, -, live, present, -, rfl⟩
    exact harmless (by rw [done]; rfl) mid _ session kept live present
  | receive turn reply => exact upholds.advance turn (receive_keeps upheld reply)
  | conclude turn => exact upholds.advance turn (conclude_keeps upheld makes)
  | settle turn => exact upholds.advance turn (settle_keeps upheld)
  | restart => exact upholds_start (harmless upholds.service)

/-- A call that is received does no harm to what is stored and what the sessions hold, if saving and deleting do
not. -/
theorem Call.Received.harmless {S : Store → Prop} {call : Call} (received : call.Received)
    (makes : ∀ {operations : List Operation}, (∀ operation ∈ operations, operation.Sound) →
      p.engine.Makes Fine operations)
    (read : ∀ {payload : Payload} {d : Document}, payload.DistinctKeys → Document.read payload = .ok d →
      d.WellFormed → Fine d)
    (named : ∀ key name d description base, call = .update key (some name) d description base → Named name)
    (saves : ∀ owner name d description, call = .save owner name d description → Fine d →
      (Store.save owner name d description).Keeps S fun _ => True)
    (deletes : ∀ key, call = .delete key → (Store.delete key.owner key.id).Keeps S fun _ => True) (s : Service) :
    call.Harmless p Named Fine (Service.Stocked S Fine) s := by
  cases call with
  | save owner name d description =>
    obtain ⟨payload, distinct, done⟩ := received
    exact fun wellFormed => Service.onStore_stocked (saves _ _ _ _ rfl (read distinct done wellFormed))
  | update key name d description base =>
    refine ⟨fun given same => ?_, fun new same wellFormed => ?_, fun _ _ _ stocked => stocked.close key⟩
    · subst same
      exact named _ _ _ _ _ rfl
    · subst same
      obtain ⟨payload, distinct, done⟩ := received
      exact read distinct done wellFormed
  | commit key base operations origin =>
    obtain ⟨raw, distinct, checked⟩ := received
    exact makes (Operation.sound_of_checkList distinct checked)
  | delete key => exact ⟨Service.onStore_stocked (deletes key rfl), fun _ stocked => stocked.close key⟩
  | beginTurn key message => exact fun _ _ _ _ stocked _ present => stocked.cancel present
  | restart => exact fun stocked => Service.stocked_start stocked.store
  | openSession | receive | conclude | settle => exact trivial

end

end Desk

end Flowchart
