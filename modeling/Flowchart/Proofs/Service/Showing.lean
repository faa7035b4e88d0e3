import Flowchart.Proofs.Assistant.TurnResults
import Flowchart.Proofs.Service.History
import Flowchart.Proofs.Service.Sessions

/-!
# What a turn shows of a stored flowchart

* `Service.answer`: all that a turn does once its reply is there. `Service.answer_out` says what comes of it.
* `Dialogue`: a service, and the turns about one of its flowcharts that wait for their replies.
* `Dialogue.Steady`: the file, the sessions and the waiting turns are in step. `Dialogue.isSteady_step` and
  `Dialogue.isSteady_play` say that calls keep them so.
* `play_answer_reports`: which results show the flowchart as it is stored when the turn returns.
-/

namespace Flowchart

variable {p : Planner}

/-! ### The answer to a turn -/

namespace Service

variable {key : DocumentKey} {s after : Service} {t : SessionTurn} {reply : Reply}

/-- All that a turn does once its reply is there, with nothing in between. -/
def answer (p : Planner) (t : SessionTurn) (reply : Reply) : Act Service TurnResult := do
  match ← receiveReply p t reply with
  | .inl result => return result
  | .inr plan => finishTurn p t plan

theorem receiveReply_out (owned : s.Owned t.key) {session : Session}
    (present : s.session? t.serial = some session) {r : Except Failure (TurnResult ⊕ Plan)} :
    (receiveReply p t reply).out s = (r, after) → match r with
      | .error _ => Follows t.key s after
      | .ok (.inl result) => Follows t.key s after ∧ after.live? t.key = s.live? t.key ∧
          ∃ new, after.session? t.serial = some new ∧
            (Session.answer p t.turn reply).out session = (.ok (.inl result), new)
      | .ok (.inr plan) => after = s.putSession t.serial session ∧
          (Session.answer p t.turn reply).out session = (.ok (.inr plan), session) := by
  intro done
  unfold receiveReply at done
  rw [Act.out_bind, out_onSession present] at done
  rcases ended : (Session.answer p t.turn reply).out session with ⟨e | ⟨result | plan⟩, new⟩ <;>
    simp only [ended] at done
  · cases done
    obtain rfl := Session.answer_eq_error ended
    exact putSession_follows t.key present new le_rfl fun _ => rfl
  · obtain ⟨stays, generation, rejected⟩ := Session.answer_eq_done ended
    have put := putSession_follows t.key present new generation.ge fun _ => stays
    have idle : result.applied = true → (s.putSession t.serial new).live? t.key = some t.serial := fun applied => by
      rw [rejected] at applied
      cases applied
    obtain ⟨e, refused, rfl⟩ | ⟨_, _, told, last⟩ := Act.out_bind_eq done
    · exact put.trans (settleTurn_undisturbed (s := putSession t.serial new s) owned idle refused).follows
    · have same := settleTurn_undisturbed (s := putSession t.serial new s) owned idle told
      cases settleTurn_told idle told
      cases last
      refine ⟨put.trans same.follows, same.live?, new, ?_, rfl⟩
      exact (same.session? _).trans ((session?_putSession present _ _).trans (if_pos rfl))
  · cases done
    obtain ⟨rfl, -, -⟩ := Session.answer_eq_batch ended
    exact ⟨rfl, rfl⟩

/-- A turn that was given up is discarded, unless the reply strains its reader, and nothing else is done. -/
theorem answer_overtaken {session : Session} (present : s.session? t.serial = some session)
    (overtaken : t.turn.generation ≠ session.generation) (reply : Reply) :
    (∃ strain, p.plan reply = .error (.strained strain) ∧
        (answer p t reply).out s = (.error strain.failure, s.putSession t.serial session)) ∨
      (∀ strain, p.plan reply ≠ .error (.strained strain)) ∧
        (answer p t reply).out s =
          (.ok (session.discarded.finish session.timeline.latest), s.putSession t.serial session) := by
  have ran := out_onSession present (Session.answer p t.turn reply)
  unfold answer receiveReply
  obtain ⟨strain, strained, out⟩ | ⟨readable, out⟩ := Session.answer_overtaken (p := p) overtaken reply
  · refine .inl ⟨strain, strained, ?_⟩
    rw [out] at ran
    rw [Act.out_bind, Act.out_bind, ran]
  · refine .inr ⟨readable, ?_⟩
    rw [out] at ran
    rw [Act.out_bind, Act.out_bind_of_ok ran]
    rfl

theorem finishTurn_out (owned : s.Owned t.key) {session : Session}
    (present : s.session? t.serial = some session) (live : s.live? t.key = some t.serial) {plan : Plan}
    {r : Except Failure TurnResult} (done : (finishTurn p t plan).out s = (r, after)) :
    Follows t.key s after ∧ ∀ result, r = .ok result → ∃ new, after.session? t.serial = some new ∧
      (Session.resolve p t.turn plan).out session = (.ok result, new) := by
  unfold finishTurn concludeTurn at done
  rw [Act.out_bind, out_onSession present] at done
  rcases ended : (Session.resolve p t.turn plan).out session with ⟨e | result, new⟩ <;>
    simp only [ended] at done
  · cases done
    obtain rfl := Session.resolve_eq_error ended
    refine ⟨putSession_follows t.key present new le_rfl fun _ => rfl, fun _ same => ?_⟩
    cases same
  · have put := putSession_follows t.key present new (Session.resolve_generation ended).ge
      fun closed => absurd live closed
    have same := settleTurn_undisturbed (s := putSession t.serial new s) owned (fun _ => live) done
    refine ⟨put.trans same.follows, fun told ok => ⟨new, ?_, ?_⟩⟩
    · exact (same.session? _).trans ((session?_putSession present _ _).trans (if_pos rfl))
    · subst ok
      cases settleTurn_told (s := putSession t.serial new s) (fun _ => live) done
      rfl

/-- A turn that was begun in a session. The count of the session tells whether it was given up since: by
another turn, or with its session. -/
structure SessionTurn.Dated (key : DocumentKey) (t : SessionTurn) (s : Service) : Prop where
  about : t.key = key
  session : ∃ session, s.session? t.serial = some session ∧ t.turn.generation ≤ session.generation ∧
    (s.live? key ≠ some t.serial → t.turn.generation < session.generation)

/-- What a turn has come to. A turn that was given up bears the latest version of its session. -/
inductive SessionTurn.Returns (t : SessionTurn) (result : TurnResult) (live : Option Nat) (session : Session) :
    Prop where
  | discarded (discarded : result.discarded = true)
      (version : result.version = some (session.timeline.latest : Int))
      (document : result.document = session.timeline.current)
  | told (kept : result.discarded = false) (live : live = some t.serial)
      (tells : result.Tells session.timeline t.turn.base)

theorem answer_out (reverts : p.engine.Reverts) (owned : s.Owned t.key) (dated : t.Dated t.key s)
    {r : Except Failure TurnResult} (done : (answer p t reply).out s = (r, after)) :
    Follows t.key s after ∧ ∀ result, r = .ok result →
      ∃ session, after.session? t.serial = some session ∧ t.Returns result (after.live? t.key) session := by
  obtain ⟨session, present, begun, closed⟩ := dated.session
  -- a turn that was not given up has begun in the open session
  have current (same : t.turn.generation = session.generation) : s.live? t.key = some t.serial :=
    Decidable.not_not.1 fun other => (closed other).ne same
  unfold answer at done
  obtain ⟨e, refused, rfl⟩ | ⟨received, mid, taken, rest⟩ := Act.out_bind_eq done
  · refine ⟨receiveReply_out owned present refused, fun result same => ?_⟩
    cases same
  · cases received with
    | inl told =>
      obtain ⟨follows, live, new, found, ended⟩ := receiveReply_out owned present taken
      cases rest
      refine ⟨follows, fun result same => ⟨new, found, ?_⟩⟩
      cases same
      by_cases same : t.turn.generation = session.generation
      · exact .told (Session.answer_remembers same ended).2 (live.trans (current same))
          (Session.answer_tells reverts same ended)
      · obtain ⟨_, -, strained⟩ | ⟨-, discarded⟩ := Session.answer_overtaken (p := p) same reply
        · cases strained.symm.trans ended
        · cases discarded.symm.trans ended
          exact .discarded rfl rfl rfl
    | inr plan =>
      obtain ⟨rfl, batch⟩ := receiveReply_out owned present taken
      have put := putSession_follows t.key present session le_rfl fun _ => rfl
      have found := (session?_putSession present session t.serial).trans (if_pos rfl)
      have live := current (Session.answer_eq_batch batch).2.1
      obtain ⟨follows, finished⟩ := finishTurn_out (s := putSession t.serial session s) owned found live rest
      refine ⟨put.trans follows, fun result same => ?_⟩
      obtain ⟨new, found, concluded⟩ := finished result same
      exact ⟨new, found, .told (Session.resolve_remembers concluded).2 (follows.live _ live)
        (Session.resolve_tells reverts concluded)⟩

/-- A turn goes on waiting while a call is made that closes no session, or one that closes the session. -/
theorem SessionTurn.Dated.follows (dated : t.Dated key s) (follows : Follows key s after) :
    t.Dated key after := by
  obtain ⟨old, before, begun, overtaken⟩ := dated.session
  obtain ⟨new, since, later, -⟩ := follows.session _ _ before
  refine ⟨dated.about, new, since, begun.trans later, fun closed => ?_⟩
  exact (overtaken fun live => closed (follows.live _ live)).trans_le later

theorem SessionTurn.Dated.closes (dated : t.Dated key s) (closes : Closes key s after) :
    t.Dated key after := by
  obtain ⟨old, before, begun, overtaken⟩ := dated.session
  obtain ⟨new, since, -, later, last⟩ := closes.session _ _ before
  refine ⟨dated.about, new, since, begun.trans later, fun _ => ?_⟩
  by_cases live : s.live? key = some t.serial
  · exact begun.trans_lt (last live)
  · exact (overtaken live).trans_le later

end Service

/-- What stands in the file is what was written last. -/
theorem InStep.eq_of_text? {key : DocumentKey} {v : Slice} {tickets : List Ticket} {books : Books}
    {last : Int × Document} (h : InStep key v tickets books last) {stored : StoredDocument}
    (file : v.text? = some stored.render) (sound : stored.document.Sound) :
    last = (stored.version, stored.document.reread) := by
  obtain ⟨other, same, filed, rfl⟩ := h.file _ file
  have stamp := StoredDocument.stamp?_render filed.sound
  rw [← same, StoredDocument.stamp?_render sound] at stamp
  exact (Option.some.inj stamp).symm

namespace Service

variable {key : DocumentKey} {s after : Service} {t : SessionTurn} {reply : Reply}

/-- Nothing is still to be written back, and what was written last is not older than before. -/
def Continues (key : DocumentKey) (last : Int × Document) (s : Service) : Prop :=
  ∃ books later, InStep key (s.slice key) [] books later ∧ last.1 ≤ later.1

theorem continues_of_inStep {books : Books} {last : Int × Document}
    (h : InStep key (s.slice key) [] books last) : Continues key last s := ⟨books, last, h, le_rfl⟩

theorem Noted.continues {tickets : List Ticket} {books : Books} {last : Int × Document} {accepted : Option Int}
    (noted : Noted key s after [] books accepted) (h : InStep key (s.slice key) tickets books last) :
    Continues key last after := by
  obtain ⟨later, kept⟩ := noted
  refine ⟨_, later, kept, ?_⟩
  have newest := kept.newest
  have increasing := kept.increasing
  simp only [Books.note] at newest increasing
  cases wrote : written key s after with
  | none =>
    rw [wrote, Option.toList_none, List.nil_append, h.newest] at newest
    cases newest
    exact le_rfl
  | some w =>
    -- what is written bears a higher version than all before it
    rw [wrote, Option.toList_some, List.singleton_append] at newest increasing
    cases newest
    exact ((List.pairwise_cons.1 increasing).1 last (List.mem_of_mem_head? h.newest)).le

/-- Whatever comes of an answer, the file and the sessions are in step after it. -/
theorem answer_continues (engine : p.engine.Sound) {books : Books} {last : Int × Document}
    (h : InStep t.key (s.slice t.key) [] books last) {r : Except Failure TurnResult}
    (done : (answer p t reply).out s = (r, after)) : Continues t.key last after := by
  unfold answer at done
  obtain ⟨e, refused, rfl⟩ | ⟨received, mid, taken, rest⟩ := Act.out_bind_eq done
  · exact continues_of_inStep (receiveReply_inStep h refused).1
  · obtain ⟨kept, sound⟩ := receiveReply_inStep h taken
    cases received with
    | inl result =>
      cases rest
      exact continues_of_inStep kept
    | inr plan =>
      have each := sound plan rfl
      change (finishTurn p t plan).out mid = (r, after) at rest
      unfold finishTurn at rest
      obtain ⟨e, refused, rfl⟩ | ⟨result, _, concluded, settled⟩ := Act.out_bind_eq rest
      · exact continues_of_inStep (concludeTurn_inStep engine each kept refused)
      · obtain ⟨inStep, version⟩ := concludeTurn_inStep engine each kept concluded
        exact (settleTurn_noted inStep version settled).continues inStep

end Service

/-! ### Calls while turns wait -/

/-- A service, and the turns about one of its flowcharts that wait for their replies. A turn is known by its
place among those that were begun; it is gone once it was answered. -/
structure Dialogue where
  service : Service
  turns : List (Option Service.SessionTurn) := []

namespace Dialogue

/-- A call about the flowchart. -/
inductive Call where
  | commit (base : Int) (operations : List Operation) (origin : String)
  | update (name : Option String) (d : Option Document) (description : Option String) (base : Option Int)
  | delete
  | openSession
  | ask (message : String)
  | answer (turn : Nat) (reply : Reply)
  /-- The service starts again over the same store; its sessions and turns are gone. -/
  | restart

/-- Begins a turn. -/
def ask (p : Planner) (key : DocumentKey) (dialogue : Dialogue) (message : String) : Dialogue :=
  match (Service.beginTurn p key message).out dialogue.service with
  | (.ok t, service) => { service, turns := dialogue.turns ++ [some t] }
  | (.error _, service) => { dialogue with service }

/-- Ends a turn that waits for its reply. -/
def answer (p : Planner) (dialogue : Dialogue) (turn : Nat) (reply : Reply) : Dialogue :=
  match dialogue.turns[turn]? with
  | some (some t) =>
    { service := ((Service.answer p t reply).out dialogue.service).2, turns := dialogue.turns.set turn none }
  | _ => dialogue

def step (p : Planner) (key : DocumentKey) (dialogue : Dialogue) : Call → Dialogue
  | .commit base operations origin =>
    { dialogue with service := ((Service.commit p key base operations origin).out dialogue.service).2 }
  | .update name d description base =>
    { dialogue with service := ((Service.update p key name d description base).out dialogue.service).2 }
  | .delete => { dialogue with service := ((Service.delete key).out dialogue.service).2 }
  | .openSession => { dialogue with service := ((Service.openSession key).out dialogue.service).2 }
  | .ask message => dialogue.ask p key message
  | .answer turn reply => dialogue.answer p turn reply
  | .restart => { service := { store := dialogue.service.store } }

def play (p : Planner) (key : DocumentKey) (dialogue : Dialogue) (calls : List Call) : Dialogue :=
  calls.foldl (step p key) dialogue

/-- Flowcharts and operations come in as text or as decoded values. -/
def Call.Received : Call → Prop
  | .commit _ operations _ => ∃ raw : Json, raw.DistinctKeys ∧ Operation.checkList raw = .ok operations
  | .update _ (some d) _ _ => ∃ payload : Payload, payload.DistinctKeys ∧ Document.read payload = .ok d
  | _ => True

/-- The file, the sessions and the waiting turns are in step. A session that was closed is behind the file. -/
structure Steady (key : DocumentKey) (dialogue : Dialogue) (books : Books) (last : Int × Document) : Prop where
  inStep : InStep key (dialogue.service.slice key) [] books last
  present : ∀ n, dialogue.service.live? key = some n → dialogue.service.IsStored key
  behind : dialogue.service.IsStored key → ∀ n session, dialogue.service.session? n = some session →
    dialogue.service.live? key ≠ some n → session.timeline.latest < last.1
  dated : ∀ t, some t ∈ dialogue.turns → t.Dated key dialogue.service

variable {p : Planner} {key : DocumentKey} {dialogue : Dialogue} {service : Service} {books : Books}
  {last : Int × Document}

/-- The dialogue is in step with some books. -/
def IsSteady (key : DocumentKey) (dialogue : Dialogue) : Prop := ∃ books last, dialogue.Steady key books last

/-- A call that closes no session keeps the invariant. -/
theorem Steady.follows (steady : dialogue.Steady key books last)
    (follows : Service.Follows key dialogue.service service) (continues : service.Continues key last) :
    IsSteady key { dialogue with service } := by
  obtain ⟨books, later, inStep, newer⟩ := continues
  refine ⟨books, later, inStep, fun n live => ?_, fun stored n new since closed => ?_, fun t waits => ?_⟩
  · obtain live | stored := follows.present n live
    · exact follows.stored.2 (steady.present n live)
    · exact follows.stored.2 stored
  · obtain ⟨old, before⟩ | live := follows.opened n new since
    · obtain ⟨other, again, -, stays⟩ := follows.session n old before
      cases since.symm.trans again
      rw [stays closed]
      have behind := steady.behind (follows.stored.1 stored) n old before
        fun live => closed (follows.live n live)
      exact behind.trans_le newer
    · exact absurd live closed
  · exact (steady.dated t waits).follows follows

/-- A call that closes the session keeps the invariant if what is stored then is newer than the session. -/
theorem Steady.closes {others : Books} {later : Int × Document} (steady : dialogue.Steady key books last)
    (closes : Service.Closes key dialogue.service service)
    (inStep : InStep key (service.slice key) [] others later)
    (newer : service.IsStored key → ∀ n old, dialogue.service.session? n = some old →
      old.timeline.latest < later.1) : IsSteady key { dialogue with service } := by
  refine ⟨others, later, inStep, fun n live => ?_, fun stored n new since _ => ?_, fun t waits => ?_⟩
  · cases closes.live.symm.trans live
  · obtain ⟨old, before⟩ := closes.opened n new since
    obtain ⟨other, again, stays, -⟩ := closes.session n old before
    cases since.symm.trans again
    rw [stays]
    exact newer stored n old before
  · exact (steady.dated t waits).closes closes

theorem isSteady_delete (steady : dialogue.Steady key books last) :
    IsSteady key (dialogue.step p key .delete) := by
  rcases done : (Service.delete key).out dialogue.service with ⟨r, service⟩
  simp only [step, done]
  obtain rfl | ⟨closes, gone⟩ := Service.delete_closes done
  · exact ⟨books, last, steady⟩
  · exact steady.closes closes (Service.delete_inStep steady.inStep done) fun stored => absurd stored gone

theorem isSteady_replace (steady : dialogue.Steady key books last) {name description : Option String}
    {d : Document} (sound : d.Sound) {base : Option Int} :
    IsSteady key (dialogue.step p key (.update name (some d) description base)) := by
  rcases done : (Service.update p key name (some d) description base).out dialogue.service with ⟨r, service⟩
  simp only [step, done]
  obtain rfl | ⟨closes, readable, latest, new, isLatest, version, fine, file⟩ :=
    Service.update_closes steady.inStep sound done
  · exact ⟨books, last, steady⟩
  · have noted := Service.update_noted steady.inStep sound done
    obtain ⟨_, later, inStep, -⟩ := noted.continues steady.inStep
    have written : later.1 = latest + 1 := by rw [inStep.eq_of_text? file fine, version]
    refine steady.closes closes inStep fun _ n old before => ?_
    have behind := steady.behind (Service.isStored_of_readable readable) n old before
    obtain ⟨m, t, live, rfl⟩ | ⟨closed, rfl⟩ := isLatest
    · have reached := steady.inStep.le_latest live readable
      by_cases same : dialogue.service.live? key = some n
      · -- the session that is closed now ends with the version before the new one
        obtain ⟨-, timeline⟩ := live.unique ⟨same, congrArg (Option.map Session.timeline) before⟩
        rw [timeline] at written
        omega
      · have older := behind same
        omega
    · have older := behind fun live => nomatch closed.symm.trans live
      omega

theorem isSteady_ask (steady : dialogue.Steady key books last) (message : String) :
    IsSteady key (dialogue.ask p key message) := by
  unfold ask
  split
  next t service begun =>
    obtain ⟨kept, -⟩ := Service.beginTurn_inStep steady.inStep begun
    have follows := Service.beginTurn_follows steady.inStep begun
    obtain ⟨about, -, live, ⟨session, present, current⟩, -⟩ := Service.beginTurn_out steady.inStep begun
    obtain ⟨books, later, steady⟩ := steady.follows follows (Service.continues_of_inStep kept)
    refine ⟨books, later, steady.inStep, steady.present, steady.behind, fun other waits => ?_⟩
    obtain waits | waits := List.mem_append.1 waits
    · exact steady.dated other waits
    · cases List.mem_singleton.1 waits
      exact ⟨about, session, present, current.le, fun closed => absurd live closed⟩
  next e service refused =>
    exact steady.follows (Service.beginTurn_follows steady.inStep refused)
      (Service.continues_of_inStep (Service.beginTurn_inStep steady.inStep refused).1)

theorem isSteady_answer (engine : p.engine.Sound) (reverts : p.engine.Reverts)
    (steady : dialogue.Steady key books last) (turn : Nat) (reply : Reply) :
    IsSteady key (dialogue.answer p turn reply) := by
  unfold answer
  split
  next t found =>
    have dated := steady.dated t (List.mem_of_getElem? found)
    obtain rfl := dated.about
    rcases done : (Service.answer p t reply).out dialogue.service with ⟨r, service⟩
    have follows := (Service.answer_out reverts (Service.owned_of_inStep steady.inStep) dated done).1
    obtain ⟨books, later, kept⟩ :=
      steady.follows follows (Service.answer_continues engine steady.inStep done)
    refine ⟨books, later, kept.inStep, kept.present, kept.behind, fun other waits => ?_⟩
    obtain waits | gone := List.mem_or_eq_of_mem_set waits
    · exact kept.dated other waits
    · cases gone
  next => exact ⟨books, last, steady⟩

/-- The invariant is kept by every call, whether it succeeds or fails. -/
theorem isSteady_step (engine : p.engine.Sound) (reverts : p.engine.Reverts) (steady : IsSteady key dialogue)
    {call : Call} (received : call.Received) : IsSteady key (dialogue.step p key call) := by
  obtain ⟨books, last, steady⟩ := steady
  have inStep := steady.inStep
  cases call with
  | commit base operations origin =>
    obtain ⟨raw, distinct, checked⟩ := received
    rcases done : (Service.commit p key base operations origin).out dialogue.service with ⟨r, service⟩
    simp only [step, done]
    have noted := Service.commit_noted engine (Operation.sound_of_checkList distinct checked) inStep done
    exact steady.follows (Service.commit_follows inStep done) (noted.continues inStep)
  | update name d description base =>
    cases d with
    | none =>
      rcases done : (Service.update p key name none description base).out dialogue.service with ⟨r, service⟩
      simp only [step, done]
      exact steady.follows (Service.update_follows inStep done)
        (Service.continues_of_inStep (Service.update_inStep inStep done))
    | some d =>
      obtain ⟨payload, distinct, read⟩ := received
      exact isSteady_replace steady (Document.sound_of_read distinct read)
  | delete => exact isSteady_delete steady
  | openSession =>
    exact steady.follows (Service.openSession_follows inStep rfl)
      (Service.continues_of_inStep (Service.openSession_out inStep rfl).2.1)
  | ask message => exact isSteady_ask steady message
  | answer turn reply => exact isSteady_answer engine reverts steady turn reply
  | restart =>
    have kept := inStep.restart
    rw [← Service.slice_restart] at kept
    exact ⟨_, last, kept, nofun, fun _ _ _ present => (nomatch present),
      fun _ waits => absurd waits List.not_mem_nil⟩

theorem isSteady_play (engine : p.engine.Sound) (reverts : p.engine.Reverts) (steady : IsSteady key dialogue)
    {calls : List Call} (received : ∀ call ∈ calls, call.Received) :
    IsSteady key (dialogue.play p key calls) := by
  induction calls generalizing dialogue with
  | nil => exact steady
  | cons call calls ih =>
    have first := isSteady_step engine reverts steady (received call List.mem_cons_self)
    exact ih first fun other mem => received other (List.mem_cons_of_mem _ mem)

/-- A flowchart that was just saved has no session, and no turn waits. -/
theorem isSteady_start {store : Store} {owner name : String} {d : Document} {description : Option String}
    {stored : StoredDocument} (sound : d.Sound)
    (saved : (Service.save p owner name d description).out { store } = (.ok stored, service)) :
    IsSteady ⟨owner, stored.id⟩ { service } := by
  obtain ⟨last, inStep⟩ := (History.start_consistent sound saved).inStep
  obtain ⟨-, -, -, sessions, live, -⟩ := Service.save_out sound saved
  refine ⟨_, last, inStep, fun n number => ?_, fun _ n session present => ?_, fun t waits => ?_⟩
  · rw [Service.live?, live] at number
    cases number
  · rw [Service.session?, sessions] at present
    cases present
  · exact absurd waits List.not_mem_nil

end Dialogue

/-! ### Results and the store -/

/-- The result shows the flowchart as it is stored, if it is: its version, and its keys and values. -/
def TurnResult.Shows (result : TurnResult) : Option StoredDocument → Prop
  | none => result.version = none ∧ result.document = .empty
  | some stored => result.version = some stored.version ∧
      result.document.toFields.Perm stored.document.toFields

/-- What the result of a turn has to do with what is found in the store when the turn returns. -/
structure Service.SessionTurn.Reports (t : SessionTurn) (result : TurnResult) (found : Option StoredDocument)
    (after : Service) : Prop where
  /-- A turn that was applied or refused shows the flowchart as it is stored. -/
  settled : result.discarded = false → result.applied = true ∨ result.rejection.isSome = true →
    result.Shows found
  /-- A turn without operations shows the version that it began on, stored or not. -/
  idle : result.discarded = false → result.applied = false → result.rejection = none →
    (result.Shows found ↔ ∃ stored, found = some stored ∧ stored.version = t.turn.base)
  /-- A turn that was given up shows what its session was left with. That is what is stored if the session
  is open, and never if the flowchart was replaced or deleted. -/
  discarded : result.discarded = true → (result.Shows found ↔ after.live? t.key = some t.serial)

namespace Dialogue

variable {p : Planner} {key : DocumentKey} {dialogue : Dialogue} {books : Books} {last : Int × Document}
  {found : Option StoredDocument}

/-- An open session is at the version that is found in the store. -/
theorem Steady.found_of_live (steady : dialogue.Steady key books last) {n : Nat} {session : Session}
    (live : dialogue.service.live? key = some n) (present : dialogue.service.session? n = some session)
    (fetched : ((Store.fetch key.owner key.id).out dialogue.service.store).1 = .ok found) :
    ∃ stored, found = some stored ∧ stored.version = session.timeline.latest ∧
      stored.document = session.timeline.current.reread := by
  cases found with
  | none =>
    have stored := steady.present n live
    rw [Service.IsStored, Store.text?_of_fetch_none (Prod.ext fetched rfl)] at stored
    cases stored
  | some stored =>
    have holds := (Store.fetch_out (Prod.ext fetched rfl)).2
    have same := steady.inStep.eq_latest ⟨live, congrArg (Option.map Session.timeline) present⟩
      (Service.readable_iff.2 ⟨stored, holds⟩)
    obtain ⟨-, -, rfl, -⟩ := Service.eq_last_of_holds steady.inStep holds
    obtain ⟨version, document⟩ := Prod.mk.inj same
    exact ⟨stored, rfl, version, document⟩

/-- A session that was closed is older than what is found in the store. -/
theorem Steady.lt_of_closed (steady : dialogue.Steady key books last) {n : Nat} {session : Session}
    (closed : dialogue.service.live? key ≠ some n) (present : dialogue.service.session? n = some session)
    {stored : StoredDocument}
    (fetched : ((Store.fetch key.owner key.id).out dialogue.service.store).1 = .ok (some stored)) :
    session.timeline.latest < stored.version := by
  have holds := (Store.fetch_out (Prod.ext fetched rfl)).2
  have behind := steady.behind (Service.isStored_of_holds holds) n session present closed
  obtain ⟨-, -, rfl, -⟩ := Service.eq_last_of_holds steady.inStep holds
  exact behind

theorem Steady.reports {t : Service.SessionTurn} (steady : dialogue.Steady t.key books last)
    {result : TurnResult} {session : Session} (present : dialogue.service.session? t.serial = some session)
    (returns : t.Returns result (dialogue.service.live? t.key) session)
    (fetched : ((Store.fetch t.key.owner t.key.id).out dialogue.service.store).1 = .ok found) :
    t.Reports result found dialogue.service := by
  -- the head of an open session is what is stored
  have shows (live : dialogue.service.live? t.key = some t.serial)
      (version : result.version = some (session.timeline.latest : Int))
      (document : result.document = session.timeline.current) : result.Shows found := by
    obtain ⟨stored, rfl, same, reread⟩ := steady.found_of_live live present fetched
    refine ⟨by rw [version, same], ?_⟩
    rw [document, reread]
    exact session.timeline.current.toFields_reread_perm
  cases returns with
  | discarded discarded version document =>
    refine ⟨fun kept => ?_, fun kept => ?_,
      fun _ => ⟨fun shown => ?_, fun live => shows live version document⟩⟩
    · cases discarded.symm.trans kept
    · cases discarded.symm.trans kept
    · by_contra closed
      cases found with
      | none => cases version.symm.trans shown.1
      | some stored =>
        have older := steady.lt_of_closed closed present fetched
        have same := Option.some.inj (version.symm.trans shown.1)
        omega
  | told kept live tells =>
    refine ⟨fun _ decided => ?_, fun _ applied rejection => ?_, fun discarded => ?_⟩
    · cases tells with
      | settled _ version document => exact shows live version document
      | idle applied rejection => simp [applied, rejection] at decided
    · cases tells with
      | settled decided => simp [applied, rejection] at decided
      | idle _ _ version document =>
        obtain ⟨stored, rfl, latest, reread⟩ := steady.found_of_live live present fetched
        refine ⟨fun shown => ⟨stored, rfl, Option.some.inj (shown.1.symm.trans version)⟩, ?_⟩
        rintro ⟨_, ⟨⟩, base⟩
        -- the version that the turn began on is still the latest
        have same : t.turn.base = session.timeline.latest := Int.ofNat_inj.1 (base.symm.trans latest)
        rw [same] at version document
        have current := Timeline.get_natCast_eq_ok_iff.1 document
        rw [Timeline.at?_latest] at current
        exact shows live version (Option.some.inj current).symm
    · cases kept.symm.trans discarded

/-- What a turn that waits comes to, reports what is found in the store when it returns. -/
theorem Steady.answer_reports (engine : p.engine.Sound) (reverts : p.engine.Reverts)
    (steady : dialogue.Steady key books last) {t : Service.SessionTurn} (waits : some t ∈ dialogue.turns)
    {reply : Reply} {result : TurnResult} {after : Service}
    (answered : (Service.answer p t reply).out dialogue.service = (.ok result, after))
    (fetched : ((Store.fetch key.owner key.id).out after.store).1 = .ok found) :
    t.Reports result found after := by
  have dated := steady.dated t waits
  obtain rfl := dated.about
  obtain ⟨follows, returns⟩ :=
    Service.answer_out reverts (Service.owned_of_inStep steady.inStep) dated answered
  obtain ⟨session, present, returns⟩ := returns result rfl
  obtain ⟨books, later, kept⟩ :=
    steady.follows follows (Service.answer_continues engine steady.inStep answered)
  exact kept.reports present returns fetched

end Dialogue

/-- A flowchart was saved, any calls were made about it, and a turn that waits is answered. What the turn
shows is the flowchart as it is stored when the turn returns, except that a turn without operations may show
an older version, and one that was given up a flowchart that was replaced or deleted. -/
theorem play_answer_reports {p : Planner} (engine : p.engine = .standard p.catalog)
    (templates : p.catalog.Sound) {payload : Payload} (payloadKeys : payload.DistinctKeys) {d : Document}
    (read : Document.read payload = .ok d) {store : Store} {owner name : String} {description : Option String}
    {stored : StoredDocument} {service : Service}
    (saved : (Service.save p owner name d description).out { store } = (.ok stored, service))
    {calls : List Dialogue.Call} (received : ∀ call ∈ calls, call.Received) {dialogue : Dialogue}
    (played : Dialogue.play p ⟨owner, stored.id⟩ { service } calls = dialogue)
    {t : Service.SessionTurn} (waits : some t ∈ dialogue.turns) {reply : Reply} {result : TurnResult}
    {after : Service} (answered : (Service.answer p t reply).out dialogue.service = (.ok result, after))
    {found : Option StoredDocument}
    (fetched : ((Store.fetch owner stored.id).out after.store).1 = .ok found) :
    t.Reports result found after := by
  subst played
  have sound : p.engine.Sound := engine ▸ Engine.standard_sound templates
  have reverts : p.engine.Reverts := engine ▸ Engine.standard_reverts p.catalog
  have started := Dialogue.isSteady_start (Document.sound_of_read payloadKeys read) saved
  obtain ⟨books, last, steady⟩ := Dialogue.isSteady_play sound reverts started received
  exact steady.answer_reports sound reverts waits answered fetched

/-- An empty flowchart that was saved can be read. -/
theorem holds_of_saved {service : Service} {store : Store}
    (saved : (Service.save samplePlanner "owner" "Plan" {} none).out { store } = (.ok .sample, service)) :
    ∃ back, service.store.Holds "owner" StoredDocument.sample.id back := by
  obtain ⟨file, -⟩ := Service.save_out StoredDocument.sound_sample saved
  obtain ⟨back, parsed⟩ := StoredDocument.exists_parse_sample service.store.now
  exact ⟨back, _, file, parsed⟩

/-- Two messages are sent before the first of them is answered. -/
def sampleMessages : List Dialogue.Call := [.ask "Hello", .ask "Again"]

/-- A flowchart is saved, and two messages are sent about it. The first turn is given up for the second one,
and shows the flowchart as it is stored. -/
theorem play_answer_reports_overtaken : ∃ service dialogue t result after found,
    (Service.save samplePlanner "owner" "Plan" {} none).out { store := sampleStore } =
        (.ok .sample, service) ∧
      Dialogue.play samplePlanner ⟨"owner", StoredDocument.sample.id⟩ { service } sampleMessages = dialogue ∧
      some t ∈ dialogue.turns ∧
      (Service.answer samplePlanner t .late).out dialogue.service = (.ok result, after) ∧
      ((Store.fetch "owner" StoredDocument.sample.id).out after.store).1 = .ok (some found) ∧
      result.discarded = true ∧ result.Shows (some found) := by
  have read : Document.read (.value (.object [])) = .ok {} := rfl
  have received : ∀ call ∈ sampleMessages, call.Received := by
    simp only [sampleMessages, List.forall_mem_cons]
    exact ⟨trivial, trivial, fun _ mem => absurd mem List.not_mem_nil⟩
  obtain ⟨service, saved⟩ : ∃ service,
      (Service.save samplePlanner "owner" "Plan" {} none).out { store := sampleStore } =
        (.ok .sample, service) := ⟨_, rfl⟩
  obtain ⟨books, last, steady⟩ := Dialogue.isSteady_start StoredDocument.sound_sample saved
  obtain ⟨back, _, file, parsed⟩ := holds_of_saved saved
  have readable : (service.slice ⟨"owner", StoredDocument.sample.id⟩).Readable := ⟨_, _, back, file, parsed⟩
  obtain ⟨t, mid, begun⟩ := Service.beginTurn_accepts (p := samplePlanner) steady.inStep readable "Hello"
  obtain ⟨inStep, -⟩ := Service.beginTurn_inStep steady.inStep begun
  obtain ⟨about, store, live, ⟨session, present, current⟩, -⟩ := Service.beginTurn_out steady.inStep begun
  have still : (mid.slice ⟨"owner", StoredDocument.sample.id⟩).Readable := by
    rw [Service.readable_iff, store]
    exact Service.readable_iff.1 readable
  obtain ⟨u, later, again⟩ := Service.beginTurn_accepts (p := samplePlanner) inStep still "Again"
  obtain ⟨-, kept, lives, ⟨next, since, counted⟩, overtakes⟩ := Service.beginTurn_out inStep again
  -- both turns have begun in the same session, whose count has gone on
  have goes := (Service.beginTurn_follows inStep again).live _ live
  have same : u.serial = t.serial := Option.some.inj (lives.symm.trans goes)
  rw [same] at since overtakes
  have overtaken : t.turn.generation ≠ next.generation := by
    rw [current, ← counted]
    exact (overtakes session present).ne
  obtain ⟨_, strained, -⟩ | ⟨-, answered⟩ :=
    Service.answer_overtaken (p := samplePlanner) since overtaken .late
  · cases (Planner.plan_late _).symm.trans strained
  have played : Dialogue.play samplePlanner ⟨"owner", StoredDocument.sample.id⟩ { service } sampleMessages =
      { service := later, turns := [some t, some u] } := by
    show (Dialogue.ask _ _ (Dialogue.ask _ _ _ _) _) = _
    rw [Dialogue.ask, Dialogue.ask, begun, again]
    rfl
  have holds : (later.putSession t.serial next).store.Holds "owner" StoredDocument.sample.id back := by
    have unchanged : (later.putSession t.serial next).store = service.store := kept.trans store
    rw [unchanged]
    exact ⟨_, file, parsed⟩
  obtain ⟨found, fetched⟩ := Store.exists_fetch holds
  have reports := play_answer_reports (p := samplePlanner) rfl builtin_sound Payload.distinctKeys_empty read saved
    received played List.mem_cons_self answered fetched
  have lives : (later.putSession t.serial next).live? t.key = some t.serial := about ▸ goes
  exact ⟨service, _, t, _, _, found, saved, played, List.mem_cons_self, answered, fetched, rfl,
    (reports.discarded rfl).2 lives⟩

end Flowchart
