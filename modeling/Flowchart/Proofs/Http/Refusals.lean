import Flowchart.Http.Server
import Flowchart.Proofs.Results
import Flowchart.Proofs.Service.History
import Flowchart.Proofs.Service.Refusals

/-!
# What a refused request leaves

* `HttpServer.Reached`: the states of a service that answers requests one after the other.
* `HttpServer.handle_refused`: a request that is refused leaves the stored flowcharts and the versions in the open
  sessions as they were, unless it edits a flowchart whose file cannot be read.
-/

namespace Flowchart

/-- The request edits a flowchart in its session, by a batch or a turn. -/
def HttpRequest.Edits (r : HttpRequest) (key : DocumentKey) : Prop :=
  HttpServer.ownerOf r = .ok key.owner ∧ (Route.find r.method r.path = .found (.commit key.id) ∨
    Route.find r.method r.path = .found (.sessionChat key.id))

namespace HttpServer

open Service

variable {p : Planner} {s after : Service} {reply : Reply} {r : HttpRequest} {editing : DocumentKey → Prop}

/-- The states of a service that starts with any files and answers requests one after the other. -/
inductive Reached (p : Planner) : Service → Prop
  | start (store : Store) : Reached p { store }
  | answer {s : Service} (reached : Reached p s) (reply : Reply) (r : HttpRequest) :
      Reached p (handle p reply r s).2

/-! ### Routes -/

theorem withBody_eq_ok {check : Json → Checked α} {body : Json} {next : α → Call} {call : Call}
    (found : withBody check body next = .ok call) : ∃ a, call = next a := by
  unfold withBody at found
  split at found
  next => cases found
  next =>
    split at found
    next a _ =>
      cases found
      exact ⟨a, rfl⟩
    next => cases found

/-- A call that succeeds is answered so, and one that is refused leaves what there was. -/
structure Orderly (editing : DocumentKey → Prop) (call : Call) : Prop where
  refuses : Refuses editing call
  succeeds : ∀ s status body after, call.out s = (.ok (status, body), after) → status = 200 ∨ status = 201

theorem Orderly.mono {wider : DocumentKey → Prop} {call : Call} (wide : ∀ key, editing key → wider key)
    (orderly : Orderly editing call) : Orderly wider call := ⟨orderly.refuses.mono wide, orderly.succeeds⟩

theorem ok_orderly {answer : Act Service Json} (refuses : Refuses editing answer) :
    Orderly editing (ok answer) where
  refuses := refuses.finish fun _ => finishes_pure _
  succeeds s status body after done := by
    obtain ⟨_, _, failed⟩ | ⟨_, _, _, rest⟩ := Act.out_bind_eq done
    · cases failed
    · cases rest
      exact .inl rfl

theorem chat_orderly (b : ChatBody) : Orderly editing (chat p reply b) := by
  refine ok_orderly (.bind (Q := fun _ => True) (fun s => ?_) fun _ _ =>
    .of_keeps (Q := fun _ => True) fun _ => Act.keeps_pure trivial)
  exact .bind (Act.keeps_ofExcept (Q := fun _ => True) fun _ _ => trivial) fun _ _ =>
    .bind (publish_steady _) fun _ _ => Act.keeps_pure trivial

theorem deleteCall_orderly (key : DocumentKey) : Orderly editing (deleteCall key) := by
  refine ok_orderly fun s r after tidy done => ?_
  obtain ⟨e, failed, rfl⟩ | ⟨deleted, mid, gone, rest⟩ := Act.out_bind_eq done
  · obtain ⟨tidy, same⟩ := delete_tidy tidy failed
    exact ⟨tidy, fun _ _ => .inl (same nofun)⟩
  · obtain ⟨tidy, same⟩ := delete_tidy tidy gone
    cases deleted with
    | true =>
      cases rest
      exact ⟨tidy, nofun⟩
    | false =>
      cases rest
      exact ⟨tidy, fun _ _ => .inl (same nofun)⟩

theorem commitCall_orderly (key : DocumentKey) (base : Int) (operations : List Operation) (origin : String) :
    Orderly (· = key) (ok do Act.ofExcept (committed (← Service.commit p key base operations origin))) := by
  refine ok_orderly fun s r after tidy done => ?_
  obtain ⟨e, failed, rfl⟩ | ⟨o, mid, made, rest⟩ := Act.out_bind_eq done
  · obtain ⟨tidy, -, refused⟩ := commit_refused tidy failed
    refine ⟨tidy, fun report same => refused report ?_⟩
    cases same
    rfl
  · obtain ⟨tidy, rejected, -⟩ := commit_refused tidy made
    obtain ⟨shown, rfl⟩ := Act.ofExcept_out rest
    refine ⟨tidy, fun report same => .inl (rejected o rfl ?_)⟩
    -- only what was not committed becomes an error
    cases settled : o.committed with
    | false => rfl
    | true =>
      simp only [committed, Outcome.rejection?, settled, if_true] at shown
      rw [same] at shown
      cases shown

theorem sessionChat_orderly (key : DocumentKey) (message : String) :
    Orderly (· = key) (sessionChat p reply key message) := by
  refine ok_orderly fun s r after tidy done => ?_
  obtain ⟨e, failed, rfl⟩ | ⟨result, mid, taken, rest⟩ := Act.out_bind_eq done
  · obtain ⟨tidy, -, refused⟩ := chatTurn_refused tidy failed
    refine ⟨tidy, fun report same => refused report ?_⟩
    cases same
    rfl
  · obtain ⟨tidy, isOpen, -⟩ := chatTurn_refused tidy taken
    obtain ⟨n, isOpen⟩ := isOpen result rfl
    obtain ⟨said, shown⟩ := conversation_out isOpen
    rw [Act.out_bind_of_ok shown] at rest
    cases rest
    exact ⟨tidy, nofun⟩

/-- The call of a request only edits the flowchart that the request edits. -/
theorem callOf_orderly {route : Route} (found : Route.find r.method r.path = .found route) {call : Call}
    (made : callOf p reply r route = .ok call) : Orderly r.Edits call := by
  cases route with
  | nodeTypes =>
    cases made
    exact ok_orderly (.of_keeps (Q := fun _ => True) fun _ => Act.keeps_pure trivial)
  | chat =>
    obtain ⟨body, -, made⟩ := bind_eq_ok_iff.1 made
    obtain ⟨b, rfl⟩ := withBody_eq_ok made
    exact chat_orderly b
  | validate =>
    obtain ⟨body, -, made⟩ := bind_eq_ok_iff.1 made
    obtain ⟨d, rfl⟩ := withBody_eq_ok made
    exact ok_orderly (.of_keeps (Q := fun _ => True) fun _ => Act.keeps_pure trivial)
  | mutate =>
    obtain ⟨body, -, made⟩ := bind_eq_ok_iff.1 made
    obtain ⟨⟨d, operations⟩, rfl⟩ := withBody_eq_ok made
    refine ok_orderly (.bind (Q := fun _ => True) (fun s => ?_) fun _ _ =>
      .of_keeps (Q := fun _ => True) fun _ => Act.keeps_ofExcept fun _ _ => trivial)
    exact .bind (Act.keeps_ofExcept (Q := fun _ => True) fun _ _ => trivial) fun _ _ =>
      .bind (publish_steady _) fun _ _ => Act.keeps_pure trivial
  | list =>
    obtain ⟨owner, -, made⟩ := bind_eq_ok_iff.1 made
    cases made
    exact ok_orderly (.bind (fun _ => onStore_reads (Store.list_reads owner) _) fun _ _ =>
      .of_keeps (Q := fun _ => True) fun _ => Act.keeps_pure trivial)
  | save =>
    obtain ⟨body, -, made⟩ := bind_eq_ok_iff.1 made
    obtain ⟨owner, -, made⟩ := bind_eq_ok_iff.1 made
    obtain ⟨b, rfl⟩ := withBody_eq_ok made
    refine ⟨(save_refuses p owner b.name b.document b.description).finish fun _ => finishes_pure _, ?_⟩
    intro s status shown after done
    obtain ⟨_, _, failed⟩ | ⟨_, _, _, rest⟩ := Act.out_bind_eq done
    · cases failed
    · cases rest
      exact .inr rfl
  | fetch id =>
    obtain ⟨owner, -, made⟩ := bind_eq_ok_iff.1 made
    cases made
    exact ok_orderly (.bind (fun _ => fetch_reads _ _) fun _ _ =>
      .of_keeps (Q := fun _ => True) fun _ => Act.keeps_pure trivial)
  | update id =>
    obtain ⟨body, -, made⟩ := bind_eq_ok_iff.1 made
    obtain ⟨owner, -, made⟩ := bind_eq_ok_iff.1 made
    obtain ⟨b, rfl⟩ := withBody_eq_ok made
    exact ok_orderly ((update_refuses p _ _ _ _ _).finish fun _ => finishes_pure _)
  | delete id =>
    obtain ⟨owner, -, made⟩ := bind_eq_ok_iff.1 made
    cases made
    exact deleteCall_orderly _
  | commit id =>
    obtain ⟨body, -, made⟩ := bind_eq_ok_iff.1 made
    obtain ⟨owner, owned, made⟩ := bind_eq_ok_iff.1 made
    obtain ⟨b, rfl⟩ := withBody_eq_ok made
    refine (commitCall_orderly ⟨owner, id⟩ b.base b.operations "ui").mono ?_
    rintro _ rfl
    exact ⟨owned, .inl found⟩
  | sessionChat id =>
    obtain ⟨body, -, made⟩ := bind_eq_ok_iff.1 made
    obtain ⟨owner, owned, made⟩ := bind_eq_ok_iff.1 made
    obtain ⟨b, rfl⟩ := withBody_eq_ok made
    refine (sessionChat_orderly ⟨owner, id⟩ b).mono ?_
    rintro _ rfl
    exact ⟨owned, .inr found⟩

/-! ### Requests -/

/-- What a route answers to a request. -/
def respond (p : Planner) (reply : Reply) (r : HttpRequest) (route : Route) (s : Service) :
    HttpResponse × Service :=
  match callOf p reply r route with
  | .error response => (response, s)
  | .ok call =>
    match call.out s with
    | (.ok (status, body), after) => (.answer status body, after)
    | (.error failure, after) => (.ofFailure failure, after)

theorem handle_of_find {route : Route} (found : Route.find r.method r.path = .found route) (s : Service) :
    handle p reply r s = respond p reply r route s := by
  rw [handle, found]
  rfl

/-- A request is answered at once, or by a call. -/
theorem handle_cases (p : Planner) (reply : Reply) (r : HttpRequest) (s : Service) :
    (handle p reply r s).2 = s ∨ ∃ call, Orderly r.Edits call ∧ handle p reply r s = match call.out s with
      | (.ok (status, body), after) => (.answer status body, after)
      | (.error failure, after) => (.ofFailure failure, after) := by
  cases found : Route.find r.method r.path with
  | unknown => exact .inl (by rw [handle, found])
  | otherMethod => exact .inl (by rw [handle, found])
  | found route =>
    rw [handle_of_find found, respond]
    cases made : callOf p reply r route with
    | error response => exact .inl rfl
    | ok call => exact .inr ⟨call, callOf_orderly found made, rfl⟩

theorem handle_tidy (tidy : s.Tidy) (reply : Reply) (r : HttpRequest) : (handle p reply r s).2.Tidy := by
  obtain same | ⟨call, orderly, same⟩ := handle_cases p reply r s
  · rw [same]
    exact tidy
  · rw [same]
    rcases out : call.out s with ⟨_ | ⟨status, body⟩, after⟩
    · exact (orderly.refuses s _ after tidy out).1
    · exact (orderly.refuses s _ after tidy out).1

theorem Reached.tidy (reached : Reached p s) : s.Tidy := by
  induction reached with
  | start store => exact tidy_start store
  | answer _ reply r ih => exact handle_tidy ih reply r

/-- Only a failure that is reported has such a status. -/
theorem reported_of_status (failure : Failure) (refused : (HttpResponse.ofFailure failure).status ≠ 500) :
    ∃ report, failure = .reported report ∧
      (HttpResponse.ofFailure failure).status = HttpResponse.statusOf report.kind := by
  unfold HttpResponse.ofFailure at *
  cases failure with
  | reported report =>
    dsimp only at *
    split at refused
    next finite => exact ⟨report, rfl, by rw [if_pos finite]⟩
    next => exact absurd rfl refused
  | _ => exact absurd rfl refused

/-- A request that is refused leaves the stored flowcharts and the versions in the open sessions as they were. Only
a request that edits a flowchart in its open session, while its file cannot be read, leaves the session one version
further, with nothing written. -/
theorem handle_refused (reached : Reached p s) (reply : Reply) (r : HttpRequest)
    (refused : (handle p reply r s).1.status ∈ [401, 404, 409, 422, 503]) :
    Unchanged s (handle p reply r s).2 ∨ ∃ key, r.Edits key ∧ (handle p reply r s).1.status = 422 ∧
      Stranded key s (handle p reply r s).2 := by
  obtain same | ⟨call, orderly, same⟩ := handle_cases p reply r s
  · rw [same]
    exact .inl (.refl s)
  · rw [same] at refused ⊢
    rcases out : call.out s with ⟨failure | ⟨status, body⟩, after⟩
    · rw [out] at refused
      obtain ⟨report, rfl, status⟩ := reported_of_status failure fun defect => by
        rw [defect] at refused
        exact absurd refused (by decide)
      obtain unchanged | ⟨key, edits, kind, stranded⟩ :=
        (orderly.refuses s _ after reached.tidy out).2 report rfl
      · exact .inl unchanged
      · exact .inr ⟨key, edits, by rw [status, kind]; rfl, stranded⟩
    · rw [out] at refused
      have refused : status ∈ [401, 404, 409, 422, 503] := refused
      obtain rfl | rfl := orderly.succeeds s status body after out <;> exact absurd refused (by decide)

def sampleSave : HttpRequest where
  method := "POST"
  path := "/api/flowchart"
  owner := some "ann"
  body := some "\x7b\"name\": \"Plan\", \"flowchart\": \x7b\x7d\x7d"

/-- A batch that is based on a version that there is not. -/
def sampleBatch : HttpRequest where
  method := "POST"
  path := "/api/flowchart/1/mutations"
  owner := some "ann"
  body := some "\x7b\"baseVersion\": 7, \"operations\": []\x7d"

theorem find_sampleSave : Route.find sampleSave.method sampleSave.path = .found .save := by
  have decoded : Route.decodedPath sampleSave.path = "/api/flowchart" := by decide +kernel
  have split : "/api/flowchart".splitOn "/" = ["", "api", "flowchart"] := by
    simp +decide [String.splitOn, String.splitOnAux]
  simp only [Route.find, decoded, Route.ofPath, split]
  rfl

theorem find_sampleBatch : Route.find sampleBatch.method sampleBatch.path = .found (.commit "1") := by
  have decoded : Route.decodedPath sampleBatch.path = "/api/flowchart/1/mutations" := by decide +kernel
  have split : "/api/flowchart/1/mutations".splitOn "/" = ["", "api", "flowchart", "1", "mutations"] := by
    simp +decide [String.splitOn, String.splitOnAux]
  simp only [Route.find, decoded, Route.ofPath, split]
  rfl

/-- The batch is refused twice. The first time the session is opened for it. -/
theorem handle_refused_stale :
    let answer (r : HttpRequest) (s : Service) := handle samplePlanner (.text "") r s
    let s := (answer sampleBatch (answer sampleSave { store := sampleStore }).2).2
    (answer sampleBatch s).1.status = 409 ∧ (Unchanged s (answer sampleBatch s).2 ∨
      ∃ key, sampleBatch.Edits key ∧ (answer sampleBatch s).1.status = 422 ∧
        Stranded key s (answer sampleBatch s).2) := by
  intro answer s
  have reached : Reached samplePlanner s := .answer (.answer (.start sampleStore) _ _) _ _
  have status : (answer sampleBatch s).1.status = 409 := by
    simp only [s, answer, handle_of_find find_sampleSave, handle_of_find find_sampleBatch]
    decide +kernel
  exact ⟨status, handle_refused reached (.text "") sampleBatch (by rw [status]; decide)⟩

end HttpServer

end Flowchart
