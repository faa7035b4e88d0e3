import Flowchart.Proofs.Service.Calls

/-!
# What happens to a stored flowchart

* `History`: a service, the turns that were begun about one of its flowcharts, and the books that are kept.
* `History.step`, `History.play`: calls that come in one after the other. The calls of several turns, and
  restarts of the service, come in between each other in any order.
* `History.play_consistent`: the file, the sessions and the books are in step after any calls.
* `play_inOrder`: what that says of the versions of the flowchart.
-/

namespace Flowchart

namespace History

/-- What is done with a stored flowchart. A turn is known by its place among those that were begun. -/
inductive Call where
  | commit (base : Int) (operations : List Operation) (origin : String)
  | update (name : Option String) (d : Option Document) (description : Option String) (base : Option Int)
  | delete
  | openSession
  | beginTurn (message : String)
  | receive (turn : Nat) (reply : Reply)
  | conclude (turn : Nat)
  | settle (turn : Nat)
  /-- The service starts again; what it has not stored is gone. -/
  | restart

/-- How far a turn has come. -/
inductive Stage where
  | asked (t : Service.SessionTurn)
  | planned (t : Service.SessionTurn) (plan : Plan)
  /-- The batch was committed to the session, if it was applied, and is still to be written back. -/
  | committed (t : Service.SessionTurn) (result : TurnResult)
  | ended

def Stage.ticket? : Stage → Option Ticket
  | committed t result => t.ticket? result
  | _ => none

end History

/-- A service, the turns about one of its flowcharts, and what was written and accepted so far. -/
structure History where
  service : Service
  turns : List History.Stage := []
  books : Books

namespace History

/-- The versions that were made in a session and are still to be written back. -/
def tickets (h : History) : List Ticket := h.turns.filterMap Stage.ticket?

/-- Goes on with another service, and notes what was written to the file and what was accepted. -/
def note (key : DocumentKey) (h : History) (after : Service) (accepted : Option Int) : History :=
  { h with service := after, books := h.books.note (Service.written key h.service after) accepted }

/-- Goes on with another service and the next stage of a turn. -/
def advance (h : History) (turn : Nat) (stage : Stage) (after : Service) : History :=
  { h with service := after, turns := h.turns.set turn stage }

/-- Begins a turn. -/
def beginTurn (p : Planner) (key : DocumentKey) (h : History) (message : String) : History :=
  match (Service.beginTurn p key message).out h.service with
  | (.ok t, after) => { h with service := after, turns := h.turns ++ [.asked t] }
  | (.error _, after) => { h with service := after }

/-- Takes the reply to a turn that waits for it. -/
def receive (p : Planner) (h : History) (turn : Nat) (reply : Reply) : History :=
  match h.turns[turn]? with
  | some (.asked t) =>
    match (Service.receiveReply p t reply).out h.service with
    | (.ok (.inr plan), after) => h.advance turn (.planned t plan) after
    | (_, after) => h.advance turn .ended after
  | _ => h

/-- Commits the batch of a turn that has a plan. -/
def conclude (p : Planner) (h : History) (turn : Nat) : History :=
  match h.turns[turn]? with
  | some (.planned t plan) =>
    match (Service.concludeTurn p t plan).out h.service with
    | (.ok result, after) => h.advance turn (.committed t result) after
    | (.error _, after) => h.advance turn .ended after
  | _ => h

/-- Writes back what a turn has come to, and ends it. -/
def settle (key : DocumentKey) (h : History) (turn : Nat) : History :=
  match h.turns[turn]? with
  | some (.committed t result) =>
    let (r, after) := (Service.settleTurn t result).out h.service
    (h.note key after (t.appliedBase r)).advance turn .ended after
  | _ => h

/-- Starts the service again over the same store. -/
def restart (key : DocumentKey) (h : History) : History where
  service := { store := h.service.store }
  books := { h.books with lost := h.books.lost || (h.service.slice key).text?.isSome && h.books.behind }

/-- Makes a call. A step of a turn that has not come so far does nothing. -/
def step (p : Planner) (key : DocumentKey) (h : History) : Call → History
  | .commit base operations origin =>
    let (r, after) := (Service.commit p key base operations origin).out h.service
    h.note key after (Service.committedBase base r)
  | .update name (some d) description base =>
    let (r, after) := (Service.update p key name (some d) description base).out h.service
    h.note key after (Service.replacedBase base r)
  | .update name none description base =>
    { h with service := ((Service.update p key name none description base).out h.service).2 }
  | .delete => { h with service := ((Service.delete key).out h.service).2 }
  | .openSession => { h with service := ((Service.openSession key).out h.service).2 }
  | .beginTurn message => h.beginTurn p key message
  | .receive turn reply => h.receive p turn reply
  | .conclude turn => h.conclude p turn
  | .settle turn => h.settle key turn
  | .restart => h.restart key

def play (p : Planner) (key : DocumentKey) (h : History) (calls : List Call) : History :=
  calls.foldl (step p key) h

/-! ### The invariant -/

/-- The turns are about the flowchart, their plans are sound, and versions that they have made bear the
number after the one they are based on. -/
def Stage.Fits (key : DocumentKey) : Stage → Prop
  | asked t => t.key = key
  | planned t plan => t.key = key ∧ ∀ operation ∈ plan.operations, operation.Sound
  | committed t result =>
    t.key = key ∧ (result.applied = true → result.version = some (t.turn.base + 1 : Int))
  | ended => True

structure Consistent (key : DocumentKey) (h : History) : Prop where
  inStep : ∃ last, InStep key (h.service.slice key) h.tickets h.books last
  turns : ∀ stage ∈ h.turns, stage.Fits key

/-- Flowcharts and operations come in as text or as decoded values. -/
def Call.Received : Call → Prop
  | .commit _ operations _ => ∃ raw : Json, raw.DistinctKeys ∧ Operation.checkList raw = .ok operations
  | .update _ (some d) _ _ => ∃ payload : Payload, payload.DistinctKeys ∧ Document.read payload = .ok d
  | _ => True

variable {p : Planner} {key : DocumentKey} {h : History} {turn : Nat} {stage : Stage} {after : Service}
  {last : Int × Document}

/-- The version of one turn stands apart from those of the other turns. -/
theorem tickets_perm {turns : List Stage} (found : turns[turn]? = some stage) :
    (turns.filterMap Stage.ticket?).Perm
      (stage.ticket?.toList ++ (turns.eraseIdx turn).filterMap Stage.ticket?) := by
  obtain ⟨bound, rfl⟩ := List.getElem?_eq_some_iff.1 found
  -- the books do not care for the order of the turns
  have apart : turns.Perm (turns[turn] :: turns.eraseIdx turn) := by
    rw [List.eraseIdx_eq_take_drop_succ]
    conv_lhs => rw [← List.take_append_drop turn turns, List.drop_eq_getElem_cons bound]
    exact List.perm_middle
  refine (apart.filterMap Stage.ticket?).trans ?_
  rw [List.filterMap_cons]
  cases turns[turn].ticket? with
  | none => exact .refl _
  | some τ => exact .refl _

/-- The invariant is kept by the next stage of a turn, if it is kept with the version of the new stage in
the place of that of the old one. -/
theorem consistent_advance {books : Books} (consistent : h.Consistent key) (fits : stage.Fits key)
    (kept : InStep key (after.slice key)
      (stage.ticket?.toList ++ (h.turns.eraseIdx turn).filterMap Stage.ticket?) books last)
    (begun : turn < h.turns.length) : (({ h with books }).advance turn stage after).Consistent key := by
  have found : (h.turns.set turn stage)[turn]? = some stage := List.getElem?_set_self begun
  constructor
  · refine ⟨last, kept.perm ?_⟩
    -- the other turns are the same before and after
    have apart := tickets_perm found
    rw [List.eraseIdx_set_eq] at apart
    exact apart.symm
  · intro other mem
    obtain mem | rfl := List.mem_or_eq_of_mem_set mem
    · exact consistent.turns other mem
    · exact fits

/-- A turn that has been begun, with its version told apart. -/
theorem Consistent.apart (consistent : h.Consistent key) (found : h.turns[turn]? = some stage) :
    turn < h.turns.length ∧ stage.Fits key ∧ ∃ last, InStep key (h.service.slice key)
      (stage.ticket?.toList ++ (h.turns.eraseIdx turn).filterMap Stage.ticket?) h.books last := by
  obtain ⟨last, inStep⟩ := consistent.inStep
  exact ⟨(List.getElem?_eq_some_iff.1 found).1, consistent.turns stage (List.mem_of_getElem? found), last,
    inStep.perm (tickets_perm found)⟩

/-- The invariant is kept by a call that only concerns the file and the sessions. -/
theorem Consistent.goOn (consistent : h.Consistent key)
    (kept : InStep key (after.slice key) h.tickets h.books last) :
    { h with service := after }.Consistent key :=
  ⟨⟨last, kept⟩, consistent.turns⟩

theorem Consistent.note {accepted : Option Int} (consistent : h.Consistent key)
    (noted : Service.Noted key h.service after h.tickets h.books accepted) :
    (h.note key after accepted).Consistent key :=
  ⟨noted, consistent.turns⟩

theorem beginTurn_consistent (consistent : h.Consistent key) (message : String) :
    (h.beginTurn p key message).Consistent key := by
  obtain ⟨last, inStep⟩ := consistent.inStep
  unfold beginTurn
  split
  next t after begun =>
    obtain ⟨kept, same⟩ := Service.beginTurn_inStep inStep begun
    constructor
    · refine ⟨last, ?_⟩
      show InStep key (after.slice key) ((h.turns ++ [Stage.asked t]).filterMap Stage.ticket?) h.books last
      rw [List.filterMap_append]
      exact (List.append_nil h.tickets).symm ▸ kept
    · intro stage mem
      obtain mem | mem := List.mem_append.1 mem
      · exact consistent.turns stage mem
      · cases List.mem_singleton.1 mem
        exact same t rfl
  next e after refused => exact consistent.goOn (Service.beginTurn_inStep inStep refused).1

theorem receive_consistent (consistent : h.Consistent key) (turn : Nat) (reply : Reply) :
    (h.receive p turn reply).Consistent key := by
  unfold receive
  split
  next t found =>
    obtain ⟨begun, same, last, inStep⟩ := consistent.apart found
    split
    next plan after planned =>
      obtain ⟨kept, sound⟩ := Service.receiveReply_inStep inStep planned
      exact consistent_advance consistent ⟨same, sound plan rfl⟩ kept begun
    next r after _ ended =>
      exact consistent_advance consistent trivial (Service.receiveReply_inStep inStep ended).1 begun
  next => exact consistent

theorem conclude_consistent (engine : p.engine.Sound) (consistent : h.Consistent key) (turn : Nat) :
    (h.conclude p turn).Consistent key := by
  unfold conclude
  split
  next t plan found =>
    obtain ⟨begun, ⟨same, sound⟩, last, inStep⟩ := consistent.apart found
    split
    next result after concluded =>
      obtain ⟨kept, version⟩ := Service.concludeTurn_inStep engine sound inStep concluded
      exact consistent_advance consistent ⟨same, version⟩ kept begun
    next e after refused =>
      have kept := Service.concludeTurn_inStep engine sound inStep refused
      exact consistent_advance consistent trivial kept begun
  next => exact consistent

theorem settle_consistent (consistent : h.Consistent key) (turn : Nat) :
    (h.settle key turn).Consistent key := by
  unfold settle
  split
  next t result found =>
    obtain ⟨begun, ⟨rfl, version⟩, last, inStep⟩ := consistent.apart found
    obtain ⟨last, kept⟩ := Service.settleTurn_noted inStep version rfl
    exact consistent_advance consistent trivial kept begun
  next => exact consistent

theorem restart_consistent (consistent : h.Consistent key) : (h.restart key).Consistent key := by
  obtain ⟨last, inStep⟩ := consistent.inStep
  -- the turns go with the sessions, so nothing is left to be written back
  have kept := inStep.restart
  rw [← Service.slice_restart] at kept
  exact ⟨⟨last, kept⟩, fun stage mem => absurd mem List.not_mem_nil⟩

/-- The invariant is kept by every call, whether it succeeds or fails. -/
theorem step_consistent (engine : p.engine.Sound) (consistent : h.Consistent key) {call : Call}
    (received : call.Received) : (h.step p key call).Consistent key := by
  obtain ⟨last, inStep⟩ := consistent.inStep
  cases call with
  | commit base operations origin =>
    obtain ⟨raw, distinct, checked⟩ := received
    exact consistent.note
      (Service.commit_noted engine (Operation.sound_of_checkList distinct checked) inStep rfl)
  | update name d description base =>
    cases d with
    | none => exact consistent.goOn (Service.update_inStep (p := p) inStep rfl)
    | some d =>
      obtain ⟨payload, distinct, read⟩ := received
      exact consistent.note (Service.update_noted inStep (Document.sound_of_read distinct read) rfl)
  | delete => exact consistent.goOn (Service.delete_inStep inStep rfl)
  | openSession => exact consistent.goOn (Service.openSession_out inStep rfl).2.1
  | beginTurn message => exact beginTurn_consistent consistent message
  | receive turn reply => exact receive_consistent consistent turn reply
  | conclude turn => exact conclude_consistent engine consistent turn
  | settle turn => exact settle_consistent consistent turn
  | restart => exact restart_consistent consistent

theorem play_consistent (engine : p.engine.Sound) (consistent : h.Consistent key) {calls : List Call}
    (received : ∀ call ∈ calls, call.Received) : (h.play p key calls).Consistent key := by
  induction calls generalizing h with
  | nil => exact consistent
  | cons call calls ih =>
    have first := step_consistent engine consistent (received call List.mem_cons_self)
    exact ih first fun other mem => received other (List.mem_cons_of_mem _ mem)

/-- Only a restart loses changes. -/
theorem step_lost {call : Call} (runs : call ≠ .restart) :
    (h.step p key call).books.lost = h.books.lost := by
  cases call with
  | commit base operations origin => rfl
  | update name d description base => cases d <;> rfl
  | delete => rfl
  | openSession => rfl
  | beginTurn message =>
    simp only [step, beginTurn]
    split <;> rfl
  | receive turn reply =>
    simp only [step, receive]
    split
    next t found => split <;> rfl
    next => rfl
  | conclude turn =>
    simp only [step, conclude]
    split
    next t plan found => split <;> rfl
    next => rfl
  | settle turn =>
    simp only [step, settle]
    split <;> rfl
  | restart => exact absurd rfl runs

theorem play_lost {calls : List Call} (runs : .restart ∉ calls) :
    (h.play p key calls).books.lost = h.books.lost := by
  induction calls generalizing h with
  | nil => rfl
  | cons call calls ih =>
    obtain ⟨first, rest⟩ := List.ne_and_not_mem_of_not_mem_cons runs
    exact (ih rest).trans (step_lost (Ne.symm first))

/-! ### From the first save on -/

/-- A flowchart was saved, which has led from one service to another. -/
def start (key : DocumentKey) (s service : Service) : History where
  service
  books := { writes := (Service.written key s service).toList }

theorem start_consistent {store : Store} {owner name : String} {d : Document} {description : Option String}
    {stored : StoredDocument} {service : Service} (sound : d.Sound)
    (saved : (Service.save p owner name d description).out { store } = (.ok stored, service)) :
    (start ⟨owner, stored.id⟩ { store } service).Consistent ⟨owner, stored.id⟩ := by
  obtain ⟨file, filed, readings, sessions, live, opened⟩ := Service.save_out sound saved
  have held : service.slice ⟨owner, stored.id⟩ =
      ⟨some stored.render, service.store.readings, none, fun _ => none, 0⟩ := by
    simp only [Service.slice, Service.live?, Service.session?, file, sessions, live, opened]
    rfl
  have written : Service.written ⟨owner, stored.id⟩ { store } service =
      some (stored.version, stored.document.reread) := by
    -- the clock was read, which it is only when a file is written
    have read : service.store.readings ≠ store.readings := by
      rw [readings]
      exact Nat.succ_ne_self _
    rw [Service.written, if_neg read, file, Option.bind_some, StoredDocument.stamp?_render filed.sound]
  refine ⟨⟨(stored.version, stored.document.reread), ?_⟩, fun stage mem => absurd mem List.not_mem_nil⟩
  simp only [start, held, written, Option.toList_some]
  exact InStep.saved filed _

/-- No turn stands between the commit to its session and the end of the turn. -/
def Settled (h : History) : Prop := ∀ t result, Stage.committed t result ∈ h.turns → result.applied = false

theorem Settled.tickets_eq_nil (settled : h.Settled) : h.tickets = [] := by
  refine List.filterMap_eq_nil_iff.2 fun stage mem => ?_
  cases stage with
  | committed t result => exact Service.SessionTurn.ticket?_of_not_applied (settled t result mem)
  | asked | planned | ended => rfl

/-- The versions of a flowchart are in order: what is written to the file, what the open session holds, and
what the accepted changes are based on. -/
structure InOrder (key : DocumentKey) (h : History) : Prop where
  /-- Whatever is written with a flowchart bears a higher version than all that was written before. -/
  increasing : h.books.writes.Pairwise fun later earlier => earlier.1 < later.1
  /-- The file bears the version and the flowchart that were written last. -/
  newest : ∀ text, h.service.store.text? key.owner key.id = some text →
    StoredDocument.stamp? text = h.books.writes.head?
  /-- The open session is at the version that is fetched, and its flowchart is read back as the one that is
  fetched. -/
  current : h.Settled → ∀ found, ((Service.fetch key).out h.service).1 = .ok found →
    ∀ n, h.service.live? key = some n → ∃ session, h.service.session? n = some session ∧
      (session.timeline.latest : Int) = found.version ∧
      ∀ indent, Document.read (.text (session.timeline.current.render indent)) = .ok found.document
  /-- A batch may be based on the version that is fetched. -/
  accepts : h.Settled → ∀ found, ((Service.fetch key).out h.service).1 = .ok found →
    ∃ n after, (Service.beginCommit key found.version).out h.service = (.ok n, after)
  /-- No two changes that were written are based on the same version. -/
  writtenOnce : ((h.books.accepted.filter Accepted.written).map Accepted.base).Nodup
  /-- No two changes that were accepted are based on the same version, unless some were lost. -/
  acceptedOnce : h.books.lost = false → (h.books.accepted.map Accepted.base).Nodup
  /-- No accepted change would be lost if the service started again. -/
  ahead : h.Settled → h.books.lost = false → ∀ found, ((Service.fetch key).out h.service).1 = .ok found →
    ∀ a ∈ h.books.accepted, a.base < found.version

theorem Consistent.inOrder (consistent : h.Consistent key) : h.InOrder key := by
  obtain ⟨last, inStep⟩ := consistent.inStep
  have fetched {found : StoredDocument} (ok : ((Service.fetch key).out h.service).1 = .ok found) :
      (h.service.slice key).Readable ∧ last = (found.version, found.document) := by
    have holds := (Service.fetch_out (Prod.ext_iff.2 ⟨ok, rfl⟩)).2
    obtain ⟨-, -, same, -⟩ := Service.eq_last_of_holds inStep holds
    exact ⟨Service.readable_iff.2 ⟨found, holds⟩, same⟩
  refine
    { increasing := inStep.increasing
      newest := ?_
      current := ?_
      accepts := ?_
      writtenOnce := inStep.writtenDistinct
      acceptedOnce := inStep.acceptedDistinct
      ahead := ?_ }
  · intro text file
    obtain ⟨stored, rfl, filed, rfl⟩ := inStep.file text file
    rw [inStep.newest, StoredDocument.stamp?_render filed.sound]
  · intro settled found ok n live
    obtain ⟨readable, same⟩ := fetched ok
    obtain ⟨t, timeline⟩ := inStep.held n live
    obtain ⟨session, present, rfl⟩ := Option.map_eq_some_iff.1 timeline
    -- with no version still to be written back, the file has what the open session has
    rw [settled.tickets_eq_nil] at inStep
    have newest := inStep.eq_latest ⟨live, timeline⟩ readable
    obtain ⟨version, document⟩ := Prod.mk.inj (same.symm.trans newest)
    have sound : session.timeline.current.Sound := Service.sound_of_session? inStep present
    refine ⟨session, present, version.symm, fun indent => ?_⟩
    rw [document]
    exact Document.read_render sound indent
  · intro settled found ok
    obtain ⟨readable, rfl⟩ := fetched ok
    rw [settled.tickets_eq_nil] at inStep
    have accepted := Service.beginCommit_accepts inStep readable
    exact accepted
  · intro settled kept found ok a mem
    obtain ⟨readable, rfl⟩ := fetched ok
    rw [settled.tickets_eq_nil] at inStep
    exact inStep.accepted_lt kept readable a mem

end History

/-- After a flowchart was saved, its versions stay in order through any calls, in any order. While the
service is not started again, no two changes that were accepted are based on the same version. -/
theorem play_inOrder {p : Planner} (engine : p.engine = .standard p.catalog) (templates : p.catalog.Sound)
    {payload : Payload} (payloadKeys : payload.DistinctKeys) {d : Document}
    (read : Document.read payload = .ok d) {store : Store} {owner name : String}
    {description : Option String} {stored : StoredDocument} {service : Service}
    (saved : (Service.save p owner name d description).out { store } = (.ok stored, service))
    {calls : List History.Call} (received : ∀ call ∈ calls, call.Received) {h : History}
    (played : (History.start ⟨owner, stored.id⟩ { store } service).play p ⟨owner, stored.id⟩ calls = h) :
    h.InOrder ⟨owner, stored.id⟩ ∧
      (.restart ∉ calls → (h.books.accepted.map Accepted.base).Nodup) := by
  subst played
  have sound : p.engine.Sound := engine ▸ Engine.standard_sound templates
  have started := History.start_consistent (Document.sound_of_read payloadKeys read) saved
  have inOrder := (History.play_consistent sound started received).inOrder
  exact ⟨inOrder, fun runs => inOrder.acceptedOnce (History.play_lost runs)⟩

/-- A planner over the built-in types. -/
def samplePlanner : Planner where
  catalog := .builtin
  engine := .standard .builtin

/-- An empty store; its clock stands still. -/
def sampleStore : Store where
  root := "store"
  clock _ := { micros := 0, offset := some 0 }
  mint n := toString n

/-- A flowchart is edited, renamed and edited again. -/
def sampleCalls : List History.Call :=
  [.commit 0 [] "ui", .update (some "Draft") none none none, .commit 1 [] "ui"]

/-- An empty flowchart is saved and edited; the service starts again, and it is edited once more. -/
theorem play_inOrder_sample : ∃ stored service,
    (Service.save samplePlanner "owner" "Plan" {} none).out { store := sampleStore } =
        (.ok stored, service) ∧
      ((History.start ⟨"owner", stored.id⟩ { store := sampleStore } service).play samplePlanner
        ⟨"owner", stored.id⟩ (sampleCalls ++ [.restart, .commit 2 [] "ui"])).InOrder
          ⟨"owner", stored.id⟩ ∧
      (((History.start ⟨"owner", stored.id⟩ { store := sampleStore } service).play samplePlanner
        ⟨"owner", stored.id⟩ sampleCalls).books.accepted.map Accepted.base).Nodup := by
  have read : Document.read (.value (.object [])) = .ok {} := rfl
  have noOperations : ∃ raw : Json, raw.DistinctKeys ∧ Operation.checkList raw = .ok [] :=
    ⟨.array [], trivial, rfl⟩
  have received : ∀ call ∈ sampleCalls, call.Received := by
    simp only [sampleCalls, List.forall_mem_cons]
    exact ⟨noOperations, trivial, noOperations, fun call mem => absurd mem List.not_mem_nil⟩
  have more : ∀ call ∈ sampleCalls ++ [.restart, .commit 2 [] "ui"], call.Received := by
    refine List.forall_mem_append.2 ⟨received, ?_⟩
    simp only [List.forall_mem_cons]
    exact ⟨trivial, noOperations, fun call mem => absurd mem List.not_mem_nil⟩
  obtain ⟨stored, service, saved⟩ : ∃ stored service,
      (Service.save samplePlanner "owner" "Plan" {} none).out { store := sampleStore } =
        (.ok stored, service) := ⟨_, _, rfl⟩
  obtain ⟨inOrder, -⟩ := play_inOrder rfl builtin_sound Payload.distinctKeys_empty read saved more rfl
  obtain ⟨-, distinct⟩ := play_inOrder rfl builtin_sound Payload.distinctKeys_empty read saved received rfl
  exact ⟨stored, service, saved, inOrder, distinct (by simp [sampleCalls])⟩

end Flowchart
