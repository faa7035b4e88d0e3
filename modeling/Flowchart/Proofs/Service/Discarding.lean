import Flowchart.Proofs.Service.Desk
import Flowchart.Proofs.Service.Showing

/-!
# Turns that are given up while they wait

* `Desk.Errand`, `Desk.work`: all that may be asked of a service while a turn waits for its reply.
* `Desk.Overtaken`: among the errands is one that replaces or deletes the flowchart, or begins a newer turn on it.
* `Service.Awaits`, `Service.GivenUp`: what the service holds of a turn that waits, before and after such an errand.
  Other errands keep the one, and all errands the other.
* `Service.Discards`, `Service.Untouched`: what comes of a turn that was given up. It is discarded, unless the reply
  strains its reader.
* `work_answer`: that comes of a turn if it was overtaken, and only then.
-/

namespace Flowchart

namespace Service

variable {p : Planner} {key : DocumentKey} {s after : Service} {t : SessionTurn} {reply : Reply}

/-! ### Turns that wait -/

theorem Numbered.withStore (numbered : s.Numbered) (store : Store) : Numbered { s with store } :=
  ⟨numbered.given, numbered.apart, numbered.named⟩

theorem numbered_upheld : Upheld (fun _ => True) (fun _ => True) Numbered where
  told _ numbered := ⟨numbered.given, numbered.apart, numbered.named⟩
  held _ _ := trivial
  changed _ _ _ _ := onStore_keeps_of (fun _ store numbered => numbered.withStore store) _
  current _ _ := trivial
  goesOn _ numbered _ _ _ := ⟨numbered.given, numbered.apart, numbered.named⟩
  enters numbered named _ _ := numbered.enter named _

/-- The session that the turn has begun in is open, and no turn was begun there since. -/
structure Awaits (t : SessionTurn) (s : Service) : Prop where
  numbered : s.Numbered
  live : s.live? t.key = some t.serial
  session : ∃ session, s.session? t.serial = some session ∧ session.generation = t.turn.generation

/-- The session that the turn has begun in has counted on. -/
structure GivenUp (t : SessionTurn) (s : Service) : Prop where
  given : t.serial < s.opened
  session : ∃ session, s.session? t.serial = some session ∧ t.turn.generation < session.generation

theorem Awaits.withStore (awaits : s.Awaits t) (store : Store) : Awaits t { s with store } :=
  ⟨awaits.numbered.withStore store, awaits.live, awaits.session⟩

theorem GivenUp.withStore (givenUp : s.GivenUp t) (store : Store) : GivenUp t { s with store } :=
  ⟨givenUp.given, givenUp.session⟩

theorem Awaits.putSession (awaits : s.Awaits t) {n : Nat} {old new : Session} (present : s.session? n = some old)
    (same : n = t.serial → new.generation = old.generation) : (s.putSession n new).Awaits t := by
  obtain ⟨numbered, live, session, found, current⟩ := awaits
  have found' := session?_putSession present new t.serial
  refine ⟨⟨numbered.given, numbered.apart, numbered.named⟩, live, ?_⟩
  split at found'
  next here =>
    rw [here] at found
    cases present.symm.trans found
    exact ⟨new, found', (same here.symm).trans current⟩
  next => exact ⟨session, found'.trans found, current⟩

theorem GivenUp.putSession (givenUp : s.GivenUp t) {n : Nat} {old new : Session}
    (present : s.session? n = some old) (since : old.generation ≤ new.generation) :
    (s.putSession n new).GivenUp t := by
  obtain ⟨given, session, found, later⟩ := givenUp
  have found' := session?_putSession present new t.serial
  refine ⟨given, ?_⟩
  split at found'
  next here =>
    rw [here] at found
    cases present.symm.trans found
    exact ⟨new, found', later.trans_le since⟩
  next => exact ⟨session, found'.trans found, later⟩

theorem awaits_upheld (t : SessionTurn) : Upheld (fun _ => True) (fun _ => True) (Awaits t) where
  told _ awaits := ⟨numbered_upheld.told _ awaits.numbered, awaits.live, awaits.session⟩
  held _ _ := trivial
  changed _ _ _ _ := onStore_keeps_of (fun _ store awaits => awaits.withStore store) _
  current _ _ := trivial
  goesOn _ awaits present same _ := awaits.putSession present fun _ => same
  enters {s key _} awaits named closed _ := by
    obtain ⟨numbered, live, session, found, current⟩ := awaits
    have apart : t.key ≠ key := fun same => by
      rw [same, closed] at live
      cases live
    refine ⟨numbered.enter named _, ?_, session, ?_, current⟩
    · exact (live?_enter _ _ _ s).trans ((if_neg apart).trans live)
    · exact (session?_enter _ _ s _).trans ((if_neg (numbered.given live).ne).trans found)

theorem givenUp_upheld (t : SessionTurn) : Upheld (fun _ => True) (fun _ => True) (GivenUp t) where
  told _ givenUp := ⟨givenUp.given, givenUp.session⟩
  held _ _ := trivial
  changed _ _ _ _ := onStore_keeps_of (fun _ store givenUp => givenUp.withStore store) _
  current _ _ := trivial
  goesOn _ givenUp present same _ := givenUp.putSession present same.ge
  enters {s _ _} givenUp _ _ _ := by
    obtain ⟨given, session, found, later⟩ := givenUp
    refine ⟨Nat.lt_succ_of_lt given, session, ?_, later⟩
    exact (session?_enter _ _ s _).trans ((if_neg given.ne).trans found)

/-- A turn goes on waiting while the sessions of other flowcharts are closed. -/
theorem Awaits.close_of_ne (awaits : s.Awaits t) (apart : t.key ≠ key) : (s.close key).Awaits t := by
  obtain ⟨numbered, live, session, found, current⟩ := awaits
  have other : s.live? key ≠ some t.serial := fun also => apart (numbered.apart live also)
  refine ⟨numbered.close key, ?_, session, ?_, current⟩
  · exact (live?_close _ _ s).trans ((if_neg apart).trans live)
  · exact (session?_close _ s _).trans ((if_neg other).trans found)

/-- A turn is given up with its session. -/
theorem Awaits.close (awaits : s.Awaits t) : (s.close t.key).GivenUp t := by
  obtain ⟨numbered, live, session, found, current⟩ := awaits
  refine ⟨(close_opened t.key s).symm ▸ numbered.given live, session.cancel, ?_, ?_⟩
  · rw [session?_close, if_pos live, found, Option.map_some]
  · exact current ▸ Nat.lt_succ_self _

/-- A turn is given up when the next one begins in its session. -/
theorem Awaits.cancel (awaits : s.Awaits t) {session : Session} (present : s.session? t.serial = some session) :
    (s.putSession t.serial session.cancel).GivenUp t := by
  obtain ⟨numbered, live, other, found, current⟩ := awaits
  cases present.symm.trans found
  refine ⟨numbered.given live, session.cancel, ?_, current ▸ Nat.lt_succ_self _⟩
  exact (session?_putSession present _ _).trans (if_pos rfl)

theorem GivenUp.close (givenUp : s.GivenUp t) (key : DocumentKey) : (s.close key).GivenUp t := by
  obtain ⟨given, session, found, later⟩ := givenUp
  refine ⟨(close_opened key s).symm ▸ given, ?_⟩
  rw [session?_close, found]
  split
  next => exact ⟨session.cancel, rfl, Nat.lt_succ_of_lt later⟩
  next => exact ⟨session, rfl, later⟩

/-! ### Answers -/

/-- Nothing was stored or told, the same sessions are open, and none has gone on. -/
structure Untouched (s after : Service) : Prop where
  store : after.store = s.store
  events : after.events = s.events
  live : after.live = s.live
  sessions : ∀ n, after.session? n = s.session? n

/-- A turn is discarded. A reply that strains its reader is a failure before it is asked whether the turn was given
up. -/
inductive Discards (p : Planner) (reply : Reply) : Except Failure TurnResult → Prop
  | discarded {result : TurnResult} (readable : ∀ strain, p.plan reply ≠ .error (.strained strain))
      (discarded : result.discarded = true) (idle : result.applied = false) : Discards p reply (.ok result)
  | strained {strain : Json.Strain} (strained : p.plan reply = .error (.strained strain)) :
      Discards p reply (.error strain.failure)

/-- Putting a session in its own place changes nothing. -/
theorem untouched_putSession {n : Nat} {session : Session} (present : s.session? n = some session) :
    Untouched s (s.putSession n session) := by
  refine ⟨rfl, rfl, rfl, fun m => ?_⟩
  rw [session?_putSession present]
  split
  next here => rw [here, present]
  next => rfl

theorem GivenUp.answer (givenUp : s.GivenUp t) {r : Except Failure TurnResult}
    (answered : (answer p t reply).out s = (r, after)) : Discards p reply r ∧ Untouched s after := by
  obtain ⟨-, session, found, later⟩ := givenUp
  obtain ⟨strain, strained, failed⟩ | ⟨readable, discarded⟩ := answer_overtaken (p := p) found later.ne reply
  · cases failed.symm.trans answered
    exact ⟨.strained strained, untouched_putSession found⟩
  · cases discarded.symm.trans answered
    exact ⟨.discarded readable rfl rfl, untouched_putSession found⟩

/-- A turn that was not given up is taken up with its reply. -/
theorem Awaits.answer (awaits : s.Awaits t) {result : TurnResult}
    (answered : (answer p t reply).out s = (.ok result, after)) : result.discarded = false := by
  obtain ⟨-, live, session, present, current⟩ := awaits
  obtain ⟨_, _, failed⟩ | ⟨received, mid, taken, rest⟩ := Act.out_bind_eq answered
  · cases failed
  unfold receiveReply at taken
  rw [Act.out_bind, out_onSession present] at taken
  rcases ended : (Session.answer p t.turn reply).out session with ⟨e | ⟨told | plan⟩, new⟩ <;>
    simp only [ended] at taken
  · cases taken
  · obtain ⟨_, _, failed⟩ | ⟨said, _, settled, returned⟩ := Act.out_bind_eq taken
    · cases failed
    cases returned
    cases rest
    cases settleTurn_told (s := Service.putSession t.serial new _) (fun _ => live) settled
    exact (Session.answer_remembers current.symm ended).2
  · cases taken
    obtain ⟨_, _, failed⟩ | ⟨told, _, concluded, settled⟩ := Act.out_bind_eq rest
    · cases failed
    obtain ⟨_, impossible, -⟩ | ⟨_, newest, -, ended, rfl⟩ := onSession_out concluded
    · cases impossible
    cases settleTurn_told (s := Service.putSession t.serial newest (Service.putSession t.serial new _))
      (fun _ => live) settled
    exact (Session.resolve_remembers ended).2

end Service

/-! ### Runs -/

namespace Desk

/-- What may be asked of a service: a call, or something about flowcharts as they are. -/
inductive Errand where
  | call (c : Call)
  | fetch (key : DocumentKey)
  | list (owner : String)
  | conversation (key : DocumentKey)
  | apply (d : Document) (operations : List Operation)
  | chat (d : Document) (reply : Reply)

def attend (p : Planner) (desk : Desk) : Errand → Desk
  | .call c => desk.step p c
  | .fetch key => desk.after (Service.fetch key)
  | .list owner => desk.after (Service.list owner)
  | .conversation key => desk.after (Service.conversation key)
  | .apply d operations => desk.after (Service.apply p d operations)
  | .chat d reply => desk.after (Service.chat p d reply)

def work (p : Planner) (desk : Desk) (errands : List Errand) : Desk := errands.foldl (attend p) desk

/-- The errand gives up the turns that wait on a flowchart: it replaces the flowchart, deletes it, or begins a newer
turn on it. -/
def Errand.Overtakes (p : Planner) (key : DocumentKey) (s : Service) : Errand → Prop
  | .call (.update other name (some d) description base) =>
    other = key ∧ ((Service.update p other name (some d) description base).out s).1.isOk = true
  | .call (.delete other) => other = key
  | .call (.beginTurn other message) => other = key ∧ ((Service.beginTurn p other message).out s).1.isOk = true
  | _ => False

/-- One of the errands gives up the turns that wait on a flowchart. -/
def Overtaken (p : Planner) (key : DocumentKey) : Desk → List Errand → Prop
  | _, [] => False
  | desk, errand :: errands =>
    errand.Overtakes p key desk.service ∨ Overtaken p key (desk.attend p errand) errands

variable {p : Planner} {Fine : Document → Prop} {P : Service → Prop} {desk : Desk} {t : Service.SessionTurn}
  {errand : Errand}

theorem attend_upholds (upheld : Service.Upheld (fun _ => True) (fun _ => True) P)
    (upholds : desk.Upholds (fun _ => True) P)
    (harmless : ∀ c, errand = .call c → c.Harmless p (fun _ => True) (fun _ => True) P desk.service) :
    (desk.attend p errand).Upholds (fun _ => True) P := by
  have kept := upholds.service
  cases errand with
  | call c => exact step_upholds upheld (fun _ => p.engine.makes_any _) upholds (harmless c rfl)
  | fetch key => exact upholds.after (Service.fetch_reads key P _ kept).1
  | list owner => exact upholds.after (Service.onStore_reads (Store.list_reads owner) P _ kept).1
  | conversation key => exact upholds.after (upheld.conversation_keeps key _ kept).1
  | apply d operations => exact upholds.after (upheld.apply_keeps p d operations _ kept).1
  | chat d reply => exact upholds.after (upheld.chat_keeps p d reply _ kept).1

/-- No call harms what stands any change of the store, and any session being closed or taken over. -/
theorem harmless_of_lasting {c : Call} {s : Service} (stores : ∀ s store, P s → P { s with store })
    (closes : ∀ s key, P s → P (s.close key))
    (cancels : ∀ s n session, P s → s.session? n = some session → P (s.putSession n session.cancel))
    (restarts : ∀ store, c = .restart → P { store }) : c.Harmless p (fun _ => True) (fun _ => True) P s := by
  have stored {β : Type} (act : Act Store β) : (Service.onStore act).Keeps P fun _ => True :=
    Service.onStore_keeps_of stores act
  cases c with
  | save => exact fun _ => stored _
  | update key => exact ⟨fun _ _ => trivial, fun _ _ _ => trivial, fun _ _ mid => closes mid key⟩
  | commit => exact p.engine.makes_any _
  | delete key => exact ⟨stored _, fun mid => closes mid key⟩
  | beginTurn => exact fun _ mid n session holds _ => cancels mid n session holds
  | restart => exact fun _ => restarts _ rfl
  | openSession | receive | conclude | settle => exact trivial

theorem attend_numbered (numbered : desk.Upholds (fun _ => True) Service.Numbered) :
    (desk.attend p errand).Upholds (fun _ => True) Service.Numbered := by
  refine attend_upholds Service.numbered_upheld numbered fun _ _ => ?_
  refine harmless_of_lasting (fun _ store numbered => numbered.withStore store)
    (fun _ key numbered => numbered.close key) (fun _ _ _ numbered _ => ?_) fun store _ => Service.numbered_start store
  exact ⟨numbered.given, numbered.apart, numbered.named⟩

theorem attend_givenUp (givenUp : desk.Upholds (fun _ => True) (Service.GivenUp t))
    (running : errand ≠ .call .restart) :
    (desk.attend p errand).Upholds (fun _ => True) (Service.GivenUp t) := by
  refine attend_upholds (Service.givenUp_upheld t) givenUp fun c same => ?_
  refine harmless_of_lasting (fun _ store givenUp => givenUp.withStore store) (fun _ key givenUp => givenUp.close key)
    (fun _ _ _ givenUp present => givenUp.putSession present (Nat.le_succ _)) fun _ restarts => ?_
  exact absurd (same.trans (congrArg _ restarts)) running

theorem attend_awaits (awaits : desk.Upholds (fun _ => True) (Service.Awaits t))
    (running : errand ≠ .call .restart) (kept : ¬errand.Overtakes p t.key desk.service) :
    (desk.attend p errand).Upholds (fun _ => True) (Service.Awaits t) := by
  refine attend_upholds (Service.awaits_upheld t) awaits fun c same => ?_
  subst same
  have stored {β : Type} (act : Act Store β) : (Service.onStore act).Keeps (Service.Awaits t) fun _ => True :=
    Service.onStore_keeps_of (fun _ store awaits => awaits.withStore store) act
  cases c with
  | save => exact fun _ => stored _
  | update key name d description base =>
    refine ⟨fun _ _ => trivial, fun _ _ _ => trivial, fun replaces done mid awaits => ?_⟩
    refine awaits.close_of_ne fun same => ?_
    obtain ⟨d, rfl⟩ := Option.isSome_iff_exists.1 replaces
    exact kept ⟨same.symm, done⟩
  | commit => exact p.engine.makes_any _
  | delete key => exact ⟨stored _, fun _ awaits => awaits.close_of_ne (Ne.symm kept)⟩
  | beginTurn key message =>
    intro done mid n session awaits live present
    -- the turn has begun in the session of another flowchart
    refine awaits.putSession present fun same => absurd ⟨?_, done⟩ kept
    exact awaits.numbered.apart live (same ▸ awaits.live)
  | restart => exact absurd rfl running
  | openSession | receive | conclude | settle => exact trivial

theorem attend_overtaken (awaits : desk.Upholds (fun _ => True) (Service.Awaits t))
    (overtakes : errand.Overtakes p t.key desk.service) :
    (desk.attend p errand).Upholds (fun _ => True) (Service.GivenUp t) := by
  have upheld := Service.awaits_upheld t
  unfold Errand.Overtakes at overtakes
  split at overtakes
  next other name d description base =>
    obtain ⟨rfl, succeeds⟩ := overtakes
    refine awaits.after (Q := Service.GivenUp t) ?_
    rcases done : (Service.update p t.key name (some d) description base).out desk.service with ⟨e | stored, after⟩
    · rw [done] at succeeds
      cases succeeds
    · obtain ⟨mid, kept, events, rfl⟩ := upheld.update_ends p t.key (fun _ _ => trivial) (fun _ _ _ => trivial)
        description base _ _ _ awaits.service done
      exact (Service.givenUp_upheld t).told events kept.close
  next other =>
    subst overtakes
    refine awaits.after (Q := Service.GivenUp t) ?_
    have erases : (Service.onStore (Store.delete t.key.owner t.key.id)).Keeps (Service.Awaits t) fun _ => True :=
      Service.onStore_keeps_of (fun _ store awaits => awaits.withStore store) _
    have succeeds := Service.delete_isOk (awaits.service.numbered.named awaits.service.live) desk.service
    rcases done : (Service.delete t.key).out desk.service with ⟨e | deleted, after⟩
    · rw [done] at succeeds
      cases succeeds
    · obtain ⟨mid, kept, events, rfl⟩ := Service.delete_ends t.key erases _ _ _ awaits.service done
      exact (Service.givenUp_upheld t).told events kept.close
  next other message =>
    obtain ⟨rfl, succeeds⟩ := overtakes
    refine awaits.beginTurn (Q := Service.GivenUp t) ?_
    rcases done : (Service.beginTurn p t.key message).out desk.service with ⟨e | u, after⟩
    · rw [done] at succeeds
      cases succeeds
    · obtain ⟨mid, kept, session, -, live, present, -, rfl⟩ :=
        upheld.beginTurn_ends p t.key message _ _ _ awaits.service done
      have same : u.serial = t.serial := Option.some.inj (live.symm.trans kept.live)
      rw [same] at present ⊢
      exact kept.cancel present
  next => exact overtakes.elim

theorem work_numbered (numbered : desk.Upholds (fun _ => True) Service.Numbered) (errands : List Errand) :
    (desk.work p errands).Upholds (fun _ => True) Service.Numbered := by
  induction errands generalizing desk with
  | nil => exact numbered
  | cons errand errands ih => exact ih (attend_numbered numbered)

theorem work_givenUp (givenUp : desk.Upholds (fun _ => True) (Service.GivenUp t)) {errands : List Errand}
    (running : .call .restart ∉ errands) :
    (desk.work p errands).Upholds (fun _ => True) (Service.GivenUp t) := by
  induction errands generalizing desk with
  | nil => exact givenUp
  | cons errand errands ih =>
    obtain ⟨first, rest⟩ := not_or.1 (mt List.mem_cons.2 running)
    exact ih (attend_givenUp givenUp (Ne.symm first)) rest

/-- What the service holds of a turn tells whether one of the errands has given it up. -/
theorem work_awaits (awaits : desk.Upholds (fun _ => True) (Service.Awaits t)) {errands : List Errand}
    (running : .call .restart ∉ errands) :
    (Overtaken p t.key desk errands → (desk.work p errands).Upholds (fun _ => True) (Service.GivenUp t)) ∧
      (¬Overtaken p t.key desk errands → (desk.work p errands).Upholds (fun _ => True) (Service.Awaits t)) := by
  induction errands generalizing desk with
  | nil => exact ⟨False.elim, fun _ => awaits⟩
  | cons errand errands ih =>
    obtain ⟨first, rest⟩ := not_or.1 (mt List.mem_cons.2 running)
    by_cases overtakes : errand.Overtakes p t.key desk.service
    · exact ⟨fun _ => work_givenUp (attend_overtaken awaits overtakes) rest,
        fun none => absurd (.inl overtakes) none⟩
    · obtain ⟨overtaken, kept⟩ := ih (attend_awaits awaits (Ne.symm first) overtakes) rest
      exact ⟨fun some => overtaken (some.resolve_left overtakes), fun none => kept fun some => none (.inr some)⟩

/-- A turn waits for its reply as soon as it has begun. -/
theorem awaits_beginTurn (numbered : desk.Upholds (fun _ => True) Service.Numbered) {key : DocumentKey}
    {message : String} {service : Service}
    (begun : (Service.beginTurn p key message).out desk.service = (.ok t, service)) :
    t.key = key ∧ Upholds (fun _ => True) (Service.Awaits t) { desk with service } := by
  obtain ⟨mid, numbered', session, about, live, present, current, rfl⟩ :=
    Service.numbered_upheld.beginTurn_ends p key message _ _ _ numbered.service begun
  refine ⟨about, ⟨⟨numbered'.given, numbered'.apart, numbered'.named⟩, about ▸ live, session.cancel, ?_,
    current.symm⟩, numbered.turns⟩
  exact (Service.session?_putSession present _ _).trans (if_pos rfl)

end Desk

/-- A service has a past over any store. A turn is begun there, any errands are attended to while it waits, and then
it is answered. If one of them has replaced or deleted its flowchart or begun a newer turn on it, the turn is discarded,
unless its reply strains its reader, and leaves all as it was; if not, it is not discarded. -/
theorem work_answer {p : Planner} {store : Store} {past : List Desk.Errand} {desk : Desk}
    (worked : Desk.work p { service := { store } } past = desk) {key : DocumentKey} {message : String}
    {t : Service.SessionTurn} {service : Service}
    (begun : (Service.beginTurn p key message).out desk.service = (.ok t, service))
    {errands : List Desk.Errand} (running : .call .restart ∉ errands) {later : Desk}
    (attended : Desk.work p { desk with service } errands = later) {reply : Reply}
    {r : Except Failure TurnResult} {after : Service}
    (answered : (Service.answer p t reply).out later.service = (r, after)) :
    (Desk.Overtaken p key { desk with service } errands →
        Service.Discards p reply r ∧ Service.Untouched later.service after) ∧
      (¬Desk.Overtaken p key { desk with service } errands →
        ∀ result, r = .ok result → result.discarded = false) := by
  subst worked attended
  have started : Desk.Upholds (fun _ => True) Service.Numbered { service := { store } } :=
    Desk.upholds_start (Service.numbered_start store)
  obtain ⟨rfl, awaits⟩ := Desk.awaits_beginTurn (Desk.work_numbered started past) begun
  obtain ⟨overtaken, kept⟩ := Desk.work_awaits awaits running
  refine ⟨fun some => (overtaken some).service.answer answered, fun none result same => ?_⟩
  subst same
  exact (kept none).service.answer answered

/-- An empty flowchart is saved. -/
def samplePast : List Desk.Errand := [.call (.save "owner" "Plan" {} none)]

/-- A flowchart is deleted while a turn about it waits, which is then discarded: no answer to it came in time. -/
theorem work_answer_deleted : ∃ desk t service later result after,
    Desk.work samplePlanner { service := { store := sampleStore } } samplePast = desk ∧
      (Service.beginTurn samplePlanner ⟨"owner", "1"⟩ "Hello").out desk.service = (.ok t, service) ∧
      Desk.work samplePlanner { desk with service } [.call (.delete ⟨"owner", "1"⟩)] = later ∧
      (Service.answer samplePlanner t .late).out later.service = (.ok result, after) ∧
      result.discarded = true ∧ result.applied = false ∧ Service.Untouched later.service after := by
  obtain ⟨service, saved⟩ : ∃ service,
      (Service.save samplePlanner "owner" "Plan" {} none).out { store := sampleStore } =
        (.ok .sample, service) := ⟨_, rfl⟩
  obtain ⟨books, last, steady⟩ := Dialogue.isSteady_start StoredDocument.sound_sample saved
  obtain ⟨back, _, file, parsed⟩ := holds_of_saved saved
  have readable : (service.slice ⟨"owner", StoredDocument.sample.id⟩).Readable := ⟨_, _, back, file, parsed⟩
  obtain ⟨t, mid, begun⟩ := Service.beginTurn_accepts (p := samplePlanner) steady.inStep readable "Hello"
  have worked : Desk.work samplePlanner { service := { store := sampleStore } } samplePast = { service } :=
    Desk.after_of_out saved
  rcases answered : (Service.answer samplePlanner t .late).out
    (Desk.work samplePlanner { service := mid } [.call (.delete ⟨"owner", "1"⟩)]).service with ⟨r, after⟩
  obtain ⟨discards, untouched⟩ := (work_answer worked begun (by simp) rfl answered).1 (.inl rfl)
  cases discards with
  | discarded _ discarded idle =>
    exact ⟨_, t, mid, _, _, after, worked, begun, rfl, answered, discarded, idle, untouched⟩
  | strained strained => cases (Planner.plan_late _).symm.trans strained

end Flowchart
