import InferenceRouter.Service.Agent

/-!
# What a handler reports

A handler publishes what happens to its request: the rejection by the agent, or the decision, and
after it a rollback and one closing event, or none. This file reads the events of a handler as an
account of its calls of the backends and of its response.

A handler that answers has published its decision and, last, the completion, with the figures of
its response. One that raises has not published a completion: the decision may stay the last event,
if the commit is refused, and a `fail_fast` after a decision closes a request that has found no
slot. A rollback is published exactly if it follows a failed remote call; the other clauses roll
back without an event.

## Main definitions

* `InferenceRouter.published`, `InferenceRouter.calls`, `InferenceRouter.rollbacks`: the events, the
  backend calls and the rollbacks of a history.
* `InferenceRouter.Reported`: the events, the calls, the rollbacks and the outcome of a handler that
  has ended.

## Main results

* `InferenceRouter.inference_reports`: the handler reports what it does.
-/

namespace InferenceRouter

open Foundation Handler

/-! ### Events and calls -/

/-- The payload that an event publishes. -/
def payload? : Event signature → Option Payload
  | ⟨.publish payload, _⟩ => some payload
  | ⟨.tryReserve .., _⟩ | ⟨.commit .., _⟩ | ⟨.rollback .., _⟩ | ⟨.readReservation .., _⟩
  | ⟨.budgetSnapshot, _⟩ | ⟨.activeCount, _⟩ | ⟨.isAtCapacity, _⟩ | ⟨.maxConcurrency, _⟩
  | ⟨.acquire, _⟩ | ⟨.release, _⟩ | ⟨.getEstimate .., _⟩ | ⟨.record .., _⟩ | ⟨.countRoute .., _⟩
  | ⟨.simulateLocalInference .., _⟩ | ⟨.simulateRemoteInference .., _⟩ => none

/-- The call of a backend in an event, with its answer. -/
def call? : Event signature → Option (Backend × Except Exn BackendResult)
  | ⟨.simulateLocalInference .., answer⟩ => some (.local, answer)
  | ⟨.simulateRemoteInference .., answer⟩ => some (.remote, answer)
  | ⟨.tryReserve .., _⟩ | ⟨.commit .., _⟩ | ⟨.rollback .., _⟩ | ⟨.readReservation .., _⟩
  | ⟨.budgetSnapshot, _⟩ | ⟨.activeCount, _⟩ | ⟨.isAtCapacity, _⟩ | ⟨.maxConcurrency, _⟩
  | ⟨.acquire, _⟩ | ⟨.release, _⟩ | ⟨.getEstimate .., _⟩ | ⟨.record .., _⟩ | ⟨.countRoute .., _⟩
  | ⟨.publish .., _⟩ => none

/-- The reservation that an event rolls back. -/
def rollback? : Event signature → Option Ref
  | ⟨.rollback ref, .ok _⟩ => some ref
  | ⟨.rollback _, .error _⟩ | ⟨.tryReserve .., _⟩ | ⟨.commit .., _⟩ | ⟨.readReservation .., _⟩
  | ⟨.budgetSnapshot, _⟩ | ⟨.activeCount, _⟩ | ⟨.isAtCapacity, _⟩ | ⟨.maxConcurrency, _⟩
  | ⟨.acquire, _⟩ | ⟨.release, _⟩ | ⟨.getEstimate .., _⟩ | ⟨.record .., _⟩ | ⟨.countRoute .., _⟩
  | ⟨.publish .., _⟩ | ⟨.simulateLocalInference .., _⟩ | ⟨.simulateRemoteInference .., _⟩ => none

/-- What a handler has published, the latest first. -/
def published (h : History signature) : List Payload := h.filterMap payload?

/-- The calls of the backends of a handler, the latest first. -/
def calls (h : History signature) : List (Backend × Except Exn BackendResult) := h.filterMap call?

/-- The reservations that a handler has rolled back, the latest first. -/
def rollbacks (h : History signature) : List Ref := h.filterMap rollback?

/-- The calls of a handler are those that its summary counts. -/
theorem calls_eq_answers (h : History signature) : calls h = (tally h).answers := by
  induction h with
  | nil => rfl
  | cons ev h ih =>
    obtain ⟨e, r⟩ := ev
    rw [tally_cons]
    cases e with
    | simulateLocalInference | simulateRemoteInference => exact congrArg (_ :: ·) ih
    | tryReserve => rcases r with error | _ | ref <;> exact ih
    | commit => rcases r with error | _ <;> exact ih
    | readReservation =>
      dsimp only [Tally.after]
      split_ifs <;> exact ih
    | acquire => cases r <;> exact ih
    | rollback | release | budgetSnapshot | activeCount | isAtCapacity | maxConcurrency
    | getEstimate | record | countRoute | publish => exact ih

/-! ### Reports -/

/-- The backend of a route. -/
def RouteDecision.backend (route : RouteDecision) : Backend :=
  if route = .remote then .remote else .local

/-- The payload publishes the decision to route the request to `route`. -/
def Decided (request : InferenceRequest) (route : RouteDecision) (payload : Payload) : Prop :=
  route ≠ .failFast ∧ ∃ tier reason estimatedLatencyMs queueDepth liquidBudget,
    payload = .routeDecision request.requestId route tier reason estimatedLatencyMs queueDepth
      liquidBudget request.prompt

/-- The payload publishes the rollback of a reservation of the request. -/
def RolledBack (request : InferenceRequest) (reason : String) (payload : Payload) : Prop :=
  ∃ reservationId returned, payload = .rollbackEvent request.requestId reservationId returned reason

/-- The completion that is published for a response. -/
def InferenceResponse.completion (response : InferenceResponse) (outcome : String) : Payload :=
  .executionComplete response.requestId response.route (clip response.actualCost)
    (clip response.actualLatencyMs) response.promptTokens response.completionTokens
    response.cacheReadTokens response.cacheWriteTokens outcome (clip response.budgetRemaining)

/-- The response tells what the backend has returned. -/
structure InferenceResponse.Tells (response : InferenceResponse) (request : InferenceRequest)
    (result : BackendResult) : Prop where
  requestId : response.requestId = request.requestId
  actualLatencyMs : response.actualLatencyMs = result.actualLatencyMs
  promptTokens : response.promptTokens = result.promptTokens
  completionTokens : response.completionTokens = result.completionTokens
  cacheReadTokens : response.cacheReadTokens = result.cacheReadTokens
  cacheWriteTokens : response.cacheWriteTokens = result.cacheWriteTokens
  result : response.result = result.result

/-- The exceptions of the clauses that answer with a 500. -/
def Exn.IsInternal : Exn → Prop
  | .budget _ | .httpException .. | .exception _ => True
  | .runtimeError _ | .remoteInferenceError _ | .baseException _ => False

/-- How the `try` block raises, with the calls of the backends. -/
inductive Tried (route : RouteDecision) : List (Backend × Except Exn BackendResult) → Exn → Prop
  /-- There was no slot for the execution. -/
  | full {message} : Tried route [] (.runtimeError message)
  /-- The backend has raised. -/
  | raised {x} : Tried route [(route.backend, .error x)] x
  /-- The commit has been refused. -/
  | refused {result e} : Tried route [(route.backend, .ok result)] (.budget e)

/-- The exception with which a handler ends that publishes nothing about an exception of its `try`
block, with the reservations that it has rolled back. -/
inductive Closed : Exn → List Ref → Exn → Prop
  | answered {x rollbacks} (hinternal : x.IsInternal) (honce : rollbacks.length ≤ 1) :
      Closed x rollbacks (.httpException 500 x.message)
  | passed {message} : Closed (.baseException message) [] (.baseException message)
  /-- The rollback has been refused. -/
  | refused {x e} : Closed x [] (.budget e)

/-- The rollback after a failed remote call is published, if there is one. -/
inductive Told (request : InferenceRequest) (reason : String) : List Payload → List Ref → Prop
  | nothing : Told request reason [] []
  | rollback {payload ref} (h : RolledBack request reason payload) :
      Told request reason [payload] [ref]

/-- How the local fallback for a failed remote call fails, with its call. -/
inductive Unserved (message : String) : List (Backend × Except Exn BackendResult) → Exn → Prop
  | atCapacity : Unserved message []
      (.httpException 503 ("Remote failed; local at capacity: " ++ message))
  | full : Unserved message [] (.httpException 503 "Remote failed; local also at capacity")
  | runtimeError {reason} : Unserved message [(.local, .error (.runtimeError reason))]
      (.httpException 503 "Remote failed; local also at capacity")
  | raised {x} (hx : ∀ reason, x ≠ .runtimeError reason) : Unserved message [(.local, .error x)] x

/-- The outcome of a handler that has ended, with its events, its calls of the backends and its
rollbacks, the latest first. -/
inductive Reported (request : InferenceRequest) : Except Exn InferenceResponse → List Payload →
    List (Backend × Except Exn BackendResult) → List Ref → Prop
  /-- The agent has raised. -/
  | unrouted {x} : Reported request (.error x) [] [] []
  /-- The agent has rejected the request. -/
  | rejected {reason} :
      Reported request (.error (.httpException 503 reason))
        [.failFast request.requestId reason 503] [] []
  /-- The backend of the decision has answered. -/
  | served {route decided result response} (hdecided : Decided request route decided)
      (htells : response.Tells request result) (hroute : response.route = route)
      (hcost : response.actualCost = result.actualCost) :
      Reported request (.ok response) [response.completion "committed", decided]
        [(route.backend, .ok result)] []
  /-- A local execution has answered for a failed call. -/
  | fellBack {route decided rollback rollbacks message result response}
      (hdecided : Decided request route decided)
      (htold : Told request message rollback rollbacks)
      (htells : response.Tells request result) (hroute : response.route = .queueLocal)
      (hcost : response.actualCost = 0) :
      Reported request (.ok response)
        (response.completion "fallback_local" :: (rollback ++ [decided]))
        [(.local, .ok result), (route.backend, .error (.remoteInferenceError message))] rollbacks
  /-- There was no slot for the execution, or the backend has raised `RuntimeError`. -/
  | full {route decided calls message rollbacks} (hdecided : Decided request route decided)
      (htried : Tried route calls (.runtimeError message)) (honce : rollbacks.length ≤ 1) :
      Reported request (.error (.httpException 503 "Local queue at capacity"))
        [.failFast request.requestId "Local queue at capacity at execution time" 503, decided]
        calls rollbacks
  /-- The call of the backend or the commit has failed. Nothing is published about it. -/
  | failed {route decided calls y x rollbacks} (hdecided : Decided request route decided)
      (htried : Tried route calls y) (hclosed : Closed y rollbacks x) :
      Reported request (.error x) [decided] calls rollbacks
  /-- The remote call has failed, and the local fallback has not answered for it. -/
  | unanswered {route decided rollback message later x rollbacks}
      (hdecided : Decided request route decided)
      (htold : Told request message rollback rollbacks) (hunserved : Unserved message later x) :
      Reported request (.error x) (rollback ++ [decided])
        (later ++ [(route.backend, .error (.remoteInferenceError message))]) rollbacks

/-- The price of a remote call has been set aside for the request. -/
def Funded (config : Config) (request : InferenceRequest) (h : History signature) : Prop :=
  ∃ ref latencyMs, asked request config.costPerRemoteRequest latencyMs (.ok (some ref)) ∈ h

/-- Every call of a backend so far has failed, as remote calls do. -/
def Failed (h : History signature) : Prop :=
  ∀ call ∈ calls h, ∃ message, call.2 = .error (.remoteInferenceError message)

/-- What a handler does is about its request. It sets aside nothing or the price of a remote call.
It calls the remote backend first if at all, with its price set aside, and the local one only if
nothing has answered. -/
def Acts (config : Config) (request : InferenceRequest) (h : History signature) : Effect → Prop
  | .tryReserve requestId cost _ =>
    requestId = request.requestId ∧ (cost = 0 ∨ cost = config.costPerRemoteRequest)
  | .publish payload => payload.requestId = request.requestId
  | .simulateLocalInference prompt requestId =>
    prompt = request.prompt ∧ requestId = request.requestId ∧ Failed h
  | .simulateRemoteInference prompt requestId fail =>
    prompt = request.prompt ∧ requestId = request.requestId ∧ fail = shouldFail request.prompt ∧
      calls h = [] ∧ Funded config request h
  | .commit .. | .rollback .. | .readReservation .. | .budgetSnapshot | .activeCount
  | .isAtCapacity | .maxConcurrency | .acquire | .release | .getEstimate .. | .record ..
  | .countRoute .. => True

theorem Failed.of_nil {h : History signature} (hnone : calls h = []) : Failed h := by
  rw [Failed, hnone]
  simp

theorem Failed.of_singleton {h : History signature} {b : Backend} {message : String}
    (hone : calls h = [(b, .error (.remoteInferenceError message))]) : Failed h := by
  rw [Failed, hone]
  exact List.forall_mem_singleton.mpr ⟨message, rfl⟩

/-- What a handler has published, called and rolled back so far. -/
def Said (ps : List Payload) (as : List (Backend × Except Exn BackendResult)) (rs : List Ref)
    (h : History signature) : Prop :=
  published h = ps ∧ calls h = as ∧ rollbacks h = rs

variable {config : Config} {request : InferenceRequest} {h : History signature}
  {ps : List Payload} {as : List (Backend × Except Exn BackendResult)} {rs : List Ref}

theorem Said.publish (hh : Said ps as rs h) (payload : Payload) :
    Said (payload :: ps) as rs (⟨.publish payload, ()⟩ :: h) :=
  ⟨congrArg (payload :: ·) hh.1, hh.2⟩

theorem Said.callLocal (hh : Said ps as rs h) (prompt requestId : String)
    (answer : Except Exn BackendResult) :
    Said ps ((.local, answer) :: as) rs
      (⟨.simulateLocalInference prompt requestId, answer⟩ :: h) :=
  ⟨hh.1, congrArg (_ :: ·) hh.2.1, hh.2.2⟩

theorem Said.callRemote (hh : Said ps as rs h) (prompt requestId : String) (fail : Bool)
    (answer : Except Exn BackendResult) :
    Said ps ((.remote, answer) :: as) rs
      (⟨.simulateRemoteInference prompt requestId fail, answer⟩ :: h) :=
  ⟨hh.1, congrArg (_ :: ·) hh.2.1, hh.2.2⟩

theorem Said.rollback (hh : Said ps as rs h) (ref : Ref) :
    Said ps as (ref :: rs) (⟨.rollback ref, .ok ()⟩ :: h) :=
  ⟨hh.1, hh.2.1, congrArg (ref :: ·) hh.2.2⟩

/-! ### The agent -/

/-- An attempt to reserve in front of a decision. -/
theorem tryReserve_tells {cost latencyMs : ℚ}
    {decide : Option Ref → Handler RoutingDecision}
    (hcost : cost = 0 ∨ cost = config.costPerRemoteRequest) (hh : Said ps as rs h)
    (hdecide : ∀ h reply, Said ps as rs h → (decide reply).Meets (Acts config request)
      (fun h _ => Said ps as rs h) h) :
    (tryReserve request.requestId cost latencyMs >>= decide).Meets
      (Acts config request)
      (fun h _ => Said ps as rs h) h := by
  refine ⟨⟨rfl, hcost⟩, fun reply => ?_⟩
  cases reply with
  | error e => exact hh
  | ok reply => exact hdecide _ reply hh

theorem reserveRemote_tells {advisory : Advisory} {decide : Option Ref → Handler RoutingDecision}
    (hh : Said ps as rs h)
    (hdecide : ∀ h reply, Said ps as rs h → (decide reply).Meets (Acts config request)
      (fun h _ => Said ps as rs h) h) :
    (reserveRemote config request advisory >>= decide).Meets (Acts config request)
      (fun h _ => Said ps as rs h) h := by
  unfold reserveRemote
  split_ifs
  · exact tryReserve_tells (Or.inr rfl) hh hdecide
  · exact hdecide h none hh

theorem degrade_tells {advisory : Advisory} {reason : ℚ → String} {failReason : String}
    (hh : Said ps as rs h) :
    (degrade request advisory reason failReason).Meets (Acts config request)
      (fun h _ => Said ps as rs h) h := by
  refine Program.Meets.call_bind trivial fun estimate => ?_
  refine tryReserve_tells (Or.inl rfl) ?_ fun h reply hh => ?_
  · exact hh
  · cases reply with
    | none => exact hh
    | some ref => exact hh

theorem routeFast_tells {advisory : Advisory} (hh : Said ps as rs h) :
    (routeFast config request advisory).Meets (Acts config request)
      (fun h _ => Said ps as rs h) h := by
  refine Program.Meets.ite (fun _ => ?_) fun _ => ?_
  · refine tryReserve_tells (Or.inl rfl) hh fun h reply hh => ?_
    cases reply with
    | none => exact hh
    | some ref => exact Program.Meets.call_bind trivial fun _ => hh
  · refine reserveRemote_tells hh fun h reply hh => ?_
    cases reply with
    | none => exact Program.Meets.ite (fun _ => degrade_tells hh) fun _ => hh
    | some ref => exact hh

theorem routeQuality_tells {advisory : Advisory} (hh : Said ps as rs h) :
    (routeQuality config request advisory).Meets (Acts config request)
      (fun h _ => Said ps as rs h) h := by
  refine reserveRemote_tells hh fun h reply hh => ?_
  cases reply with
  | some ref => exact hh
  | none =>
    refine Program.Meets.ite (fun _ => ?_) fun _ =>
      Program.Meets.ite (fun _ => degrade_tells hh) fun _ => hh
    refine tryReserve_tells (Or.inl rfl) hh fun h reply hh => ?_
    cases reply with
    | none => exact hh
    | some ref => exact hh

/-- The agent publishes nothing and calls no backend. -/
theorem route_tells (tier : ComplexityTier) (hh : Said ps as rs h) :
    (route config request tier).Meets (Acts config request)
      (fun h _ => Said ps as rs h) h := by
  refine Program.Meets.call_bind trivial fun n => Program.Meets.call_bind trivial fun c =>
    Program.Meets.call_bind trivial fun l => Program.Meets.call_bind trivial fun r => ?_
  cases tier with
  | quality => exact routeQuality_tells hh
  | fast => exact routeFast_tells hh

theorem Funded.cons (hf : Funded config request h) (ev : Event signature) :
    Funded config request (ev :: h) := by
  obtain ⟨ref, latencyMs, hmem⟩ := hf
  exact ⟨ref, latencyMs, List.mem_cons_of_mem _ hmem⟩

/-- The agent decides for the remote backend only after it has set the price aside. -/
theorem route_funds (config : Config) (request : InferenceRequest) (tier : ComplexityTier) :
    (route config request tier).Meets (Acts config request) (fun h out => Said [] [] [] h ∧
      ∀ decision, out = .ok decision → decision.route = .remote → Funded config request h) [] := by
  have hsilent : Said [] [] [] ([] : History signature) := ⟨rfl, rfl, rfl⟩
  refine (((route_tells tier hsilent).and (route_path config request tier)).imp
    fun h e he => he.1).mono ?_
  rintro h out ⟨hh, n, c, l, r, hpath⟩
  refine ⟨hh, fun decision hdecision hremote => ?_⟩
  subst hdecision
  cases hpath with
  | remote => exact ⟨_, _, List.mem_cons_self⟩
  | «local» | localRefused | degraded | degradedRefused | full => cases hremote

/-! ### The blocks -/

theorem commitIfReserved_tells {reservation : Option Ref} {actualCost actualLatencyMs : ℚ}
    (hh : Said ps as rs h) :
    (commitIfReserved reservation actualCost actualLatencyMs).Meets
      (Acts config request)
      (fun h out => Said ps as rs h ∧ ∀ x, out = .error x → ∃ e, x = .budget e) h := by
  cases reservation with
  | none => exact ⟨hh, nofun⟩
  | some ref =>
    refine Program.Meets.bind (Q := fun h out => Said ps as rs h ∧ ∀ x, out = .error x →
        ∃ e, x = .budget e) ?_ (fun h _ hh => ?_) fun _ _ hx => hx.imp id fun hx x h => ?_
    · refine Program.Meets.call_ofExcept trivial fun reply => ⟨hh, fun x hx => ?_⟩
      cases reply with
      | error e =>
        cases hx
        exact ⟨e, rfl⟩
      | ok _ => cases hx
    · exact Program.Meets.call_bind trivial fun _ => ⟨hh.1, nofun⟩
    · cases h
      exact hx _ rfl

/-- The rule for a rollback with what follows it. -/
theorem rollbackIfPending_tells {reservation : Option Ref} {afterwards : Reservation → Handler Unit}
    {Q : History signature → Except Exn Unit → Prop} (hh : Said ps as rs h)
    (hskipped : ∀ h, Said ps as rs h → Q h (.ok ()))
    (hrefused : ∀ h e, Said ps as rs h → Q h (.error (.budget e)))
    (hafter : ∀ h r ref, Said ps as (ref :: rs) h →
      (afterwards r).Meets (Acts config request) Q h) :
    (rollbackIfPending reservation afterwards).Meets (Acts config request) Q h := by
  cases reservation with
  | none => exact hskipped _ hh
  | some ref =>
    refine Program.Meets.call_bind trivial fun r => Program.Meets.ite (fun _ => ?_) fun _ => ?_
    · refine ⟨trivial, fun reply => ?_⟩
      cases reply with
      | error e => exact hrefused _ e hh
      | ok _ => exact hafter _ r ref (Said.rollback (h := ⟨.readReservation ref, r⟩ :: h) hh ref)
    · exact hskipped _ hh

/-- The rule for the context manager around a local execution. -/
theorem slot_tells {α : Type} {body : Handler α} {Q : History signature → Except Exn α → Prop}
    (hfull : ∀ message, Q (⟨.acquire, false⟩ :: h) (.error (.runtimeError message)))
    (hbody : body.Meets (Acts config request)
      (fun h out => Q (⟨.release, ()⟩ :: h) out) (⟨.acquire, true⟩ :: h)) :
    (slot body).Meets (Acts config request) Q h := by
  refine Program.Meets.call_bind trivial fun acquired => ?_
  cases acquired with
  | false => exact hfull _
  | true => exact hbody.andFinally fun h out hout => ⟨trivial, fun _ => hout⟩

/-! ### The execution -/

/-- How the `try` block ends, with the calls of the backends. -/
inductive Ran (decision : RoutingDecision) :
    List (Backend × Except Exn BackendResult) → Except Exn Execution → Prop
  | done {result} :
      Ran decision [(decision.route.backend, .ok result)]
        (.ok ⟨decision, result, result.actualCost, result.actualLatencyMs, "committed"⟩)
  | raised {as x} (htried : Tried decision.route as x) : Ran decision as (.error x)

/-- The end of the `try` block after an answer: the commit, and the figures of the answer. -/
theorem settle_tells {decision : RoutingDecision} {result : BackendResult}
    {actualCost actualLatencyMs : ℚ}
    (hh : Said ps [(decision.route.backend, .ok result)] rs h) :
    (do
        commitIfReserved decision.reservation actualCost actualLatencyMs
        pure ⟨decision, result, result.actualCost, result.actualLatencyMs,
          "committed"⟩ : Handler Execution).Meets (Acts config request)
      (fun h out => ∃ as, Said ps as rs h ∧ Ran decision as out) h := by
  refine (commitIfReserved_tells hh).bind (fun h _ hh => ⟨_, hh.1, .done⟩) fun h x hx => ?_
  obtain ⟨e, rfl⟩ := hx.2 x rfl
  exact ⟨_, hx.1, .raised .refused⟩

theorem execute_tells {decision : RoutingDecision} (hh : Said ps [] rs h)
    (hfunded : decision.route = .remote → Funded config request h) :
    (execute request decision).Meets (Acts config request)
      (fun h out => ∃ as, Said ps as rs h ∧ Ran decision as out) h := by
  refine Program.Meets.ite (fun hremote => ?_) fun hlocal => ?_
  · have hbackend : decision.route.backend = .remote := if_pos hremote
    refine Program.Meets.bind (Q := fun h out => Said ps [(.remote, out)] rs h) ?_
      (fun h result hh => settle_tells (hbackend ▸ hh))
      fun h x hx => ⟨_, hx, .raised (hbackend ▸ .raised)⟩
    exact Program.Meets.call_ofExcept ⟨rfl, rfl, rfl, hh.2.1, hfunded hremote⟩ fun reply =>
      hh.callRemote _ _ _ reply
  · have hbackend : decision.route.backend = .local := if_neg hlocal
    refine slot_tells (fun message => ⟨_, hh, .raised .full⟩) ?_
    refine Program.Meets.bind (Q := fun h out => Said ps [(.local, out)] rs h) ?_
      (fun h result hh => settle_tells (hbackend ▸ hh))
      fun h x hx => ⟨_, hx, .raised (hbackend ▸ .raised)⟩
    exact Program.Meets.call_ofExcept ⟨rfl, rfl, .of_nil hh.2.1⟩ fun reply =>
      Said.callLocal (h := ⟨.acquire, true⟩ :: h) hh _ _ reply

/-! ### The `except` chain -/

/-- How the `try` statement ends, by the events after the decision, the calls and the rollbacks. -/
inductive Recovered (request : InferenceRequest) (decision : RoutingDecision) :
    List Payload → List (Backend × Except Exn BackendResult) → List Ref →
      Except Exn Execution → Prop
  | done {result} :
      Recovered request decision [] [(decision.route.backend, .ok result)] []
        (.ok ⟨decision, result, result.actualCost, result.actualLatencyMs, "committed"⟩)
  | fellBack {rollback rollbacks message result reason}
      (htold : Told request message rollback rollbacks) :
      Recovered request decision rollback
        [(.local, .ok result), (decision.route.backend, .error (.remoteInferenceError message))]
        rollbacks
        (.ok ⟨⟨.queueLocal, none, result.actualLatencyMs, reason⟩, result, 0,
          result.actualLatencyMs, "fallback_local"⟩)
  | full {calls message rollbacks} (htried : Tried decision.route calls (.runtimeError message))
      (honce : rollbacks.length ≤ 1) :
      Recovered request decision
        [.failFast request.requestId "Local queue at capacity at execution time" 503] calls
        rollbacks (.error (.httpException 503 "Local queue at capacity"))
  | failed {calls y x rollbacks} (htried : Tried decision.route calls y)
      (hclosed : Closed y rollbacks x) : Recovered request decision [] calls rollbacks (.error x)
  | unanswered {rollback message later x rollbacks}
      (htold : Told request message rollback rollbacks) (hunserved : Unserved message later x) :
      Recovered request decision rollback
        (later ++ [(decision.route.backend, .error (.remoteInferenceError message))]) rollbacks
        (.error x)

/-- What the `try` statement owes at its end, after the event of the decision. -/
def Owes (request : InferenceRequest) (decision : RoutingDecision) (decided : Payload)
    (h : History signature) (out : Except Exn Execution) : Prop :=
  ∃ later as rs, Said (later ++ [decided]) as rs h ∧ Recovered request decision later as rs out

variable {decision : RoutingDecision} {decided : Payload} {x : Exn}

/-- Nothing is published after the decision. -/
theorem Owes.of_closed {y : Exn} (hh : Said [decided] as rs h) (htried : Tried decision.route as y)
    (hclosed : Closed y rs x) : Owes request decision decided h (.error x) :=
  ⟨[], as, rs, hh, .failed htried hclosed⟩

/-- How the local fallback ends, with its call. -/
inductive FellBack : List (Backend × Except Exn BackendResult) → Except Exn Execution → Prop
  | done {result reason} : FellBack [(.local, .ok result)]
      (.ok ⟨⟨.queueLocal, none, result.actualLatencyMs, reason⟩, result, 0,
        result.actualLatencyMs, "fallback_local"⟩)
  | full {message} : FellBack [] (.error (.runtimeError message))
  | raised {y} : FellBack [(.local, .error y)] (.error y)

/-- The local execution that answers for a failed call. -/
theorem fallback_tells {message : String}
    (hh : Said ps [(decision.route.backend, .error (.remoteInferenceError message))] rs h) :
    (fallback request).Meets (Acts config request)
      (fun h out => ∃ later, Said ps
          (later ++ [(decision.route.backend, .error (.remoteInferenceError message))]) rs h ∧
        FellBack later out) h := by
  refine slot_tells (fun message => ⟨[], hh, .full⟩) ?_
  refine Program.Meets.bind (Q := fun h out => Said ps
      [(.local, out), (decision.route.backend, .error (.remoteInferenceError message))] rs h) ?_
    (fun h result hh => ⟨[_], hh, .done⟩) fun h x hx => ⟨[_], hx, .raised⟩
  exact Program.Meets.call_ofExcept ⟨rfl, rfl, .of_singleton hh.2.1⟩ fun reply =>
    Said.callLocal (h := ⟨.acquire, true⟩ :: h) hh _ _ reply

/-- The attempt of a fallback, after the rollback. -/
theorem attemptFallback_tells {rollback : List Payload} {message : String}
    (htold : Told request message rollback rs)
    (hh : Said (rollback ++ [decided])
      [(decision.route.backend, .error (.remoteInferenceError message))] rs h) :
    (tryCatch (fallback request) fun
      | .runtimeError _ => throw (Exn.httpException 503 "Remote failed; local also at capacity")
      | x => throw x : Handler Execution).Meets (Acts config request)
      (Owes request decision decided) h := by
  refine Program.Meets.tryCatch (fallback_tells hh) ?_ ?_
  · rintro h execution ⟨later, hh, hfell⟩
    cases hfell with
    | done => exact ⟨_, _, _, hh, .fellBack htold⟩
  · rintro h x ⟨later, hh, hfell⟩
    cases hfell with
    | full => exact ⟨_, _, _, hh, .unanswered htold .full⟩
    | raised =>
      cases x with
      | runtimeError => exact ⟨_, _, _, hh, .unanswered htold .runtimeError⟩
      | budget | remoteInferenceError | httpException | exception | baseException =>
        exact ⟨_, _, _, hh, .unanswered htold (.raised fun _ => Exn.noConfusion)⟩

/-- The clause for a failed remote call. -/
theorem recoverRemoteFailure_tells {reservation : Option Ref} {message : String}
    (hh : Said [decided] [(decision.route.backend, .error (.remoteInferenceError message))] [] h) :
    (recoverRemoteFailure request reservation message).Meets (Acts config request)
      (Owes request decision decided) h := by
  refine Program.Meets.bind (Q := fun h out =>
      (∃ rollback rs, Told request message rollback rs ∧ Said (rollback ++ [decided])
        [(decision.route.backend, .error (.remoteInferenceError message))] rs h) ∧
      ∀ x, out = .error x → ∃ e, x = .budget e ∧ Said [decided]
        [(decision.route.backend, .error (.remoteInferenceError message))] [] h) ?_ ?_ ?_
  · refine rollbackIfPending_tells hh (fun h hh => ⟨⟨[], [], .nothing, hh⟩, nofun⟩)
      (fun h e hh => ⟨⟨[], [], .nothing, hh⟩, fun x hx => ?_⟩) fun h r ref hh => ?_
    · cases hx
      exact ⟨e, rfl, hh⟩
    · exact ⟨rfl, fun _ =>
        ⟨⟨[_], [ref], .rollback ⟨_, _, rfl⟩, hh.publish _⟩, nofun⟩⟩
  · rintro h - ⟨⟨rollback, rs, htold, hh⟩, -⟩
    refine Program.Meets.call_bind trivial fun atCapacity => ?_
    exact Program.Meets.ite (fun _ => attemptFallback_tells htold hh)
      fun _ => ⟨_, [] ++ [_], _, hh, .unanswered htold .atCapacity⟩
  · rintro h x ⟨-, hraised⟩
    obtain ⟨e, rfl, hh⟩ := hraised x rfl
    exact .of_closed hh .raised .refused

/-- A rollback that publishes nothing. -/
theorem quietRollback_tells {reservation : Option Ref} (hh : Said ps as [] h) :
    (rollbackIfPending reservation fun _ => pure ()).Meets (Acts config request)
      (fun h out => (∃ rs, Said ps as rs h ∧ rs.length ≤ 1) ∧
        ∀ x, out = .error x → ∃ e, x = .budget e ∧ Said ps as [] h) h := by
  refine rollbackIfPending_tells hh (fun h hh => ⟨⟨[], hh, Nat.zero_le 1⟩, nofun⟩)
    (fun h e hh => ⟨⟨[], hh, Nat.zero_le 1⟩, fun x hx => ?_⟩)
    fun h r ref hh => ⟨⟨[ref], hh, Nat.le_refl 1⟩, nofun⟩
  cases hx
  exact ⟨e, rfl, hh⟩

/-- A clause that rolls back and answers with a 500. -/
theorem rollback_raise_tells {reservation : Option Ref} (hh : Said [decided] as [] h)
    (htried : Tried decision.route as x) (hinternal : x.IsInternal) :
    (do
        rollbackIfPending reservation fun _ => pure ()
        throw (Exn.httpException 500 x.message) : Handler Execution).Meets (Acts config request)
      (Owes request decision decided) h := by
  refine (quietRollback_tells hh).bind ?_ ?_
  · rintro h - ⟨⟨rs, hh, honce⟩, -⟩
    exact .of_closed hh htried (.answered hinternal honce)
  · rintro h y ⟨-, hrefused⟩
    obtain ⟨e, rfl, hh⟩ := hrefused y rfl
    exact .of_closed hh htried .refused

/-- **The `except` chain.** -/
theorem recover_tells (hh : Said [decided] as [] h) (htried : Tried decision.route as x) :
    (recover request decision x).Meets (Acts config request)
      (Owes request decision decided) h := by
  cases x with
  | budget e =>
    cases e with
    | actualCostExceededReservation | actualLatencyExceededReservation =>
      exact .of_closed hh htried (.answered trivial (Nat.zero_le 1))
    | valueError | invalidReservationState => exact rollback_raise_tells hh htried trivial
  | runtimeError =>
    refine (quietRollback_tells hh).bind ?_ ?_
    · rintro h - ⟨⟨rs, hh, honce⟩, -⟩
      exact Program.Meets.call_bind rfl fun _ =>
        ⟨[_], _, _, hh.publish _, .full htried honce⟩
    · rintro h y ⟨-, hrefused⟩
      obtain ⟨e, rfl, hh⟩ := hrefused y rfl
      exact .of_closed hh htried .refused
  | remoteInferenceError message =>
    cases htried with
    | raised => exact recoverRemoteFailure_tells hh
  | httpException | exception => exact rollback_raise_tells hh htried trivial
  | baseException => exact .of_closed hh htried .passed

/-! ### The handler -/

/-- What a handler owes at its end. -/
def Reports (request : InferenceRequest) (h : History signature)
    (out : Except Exn InferenceResponse) : Prop :=
  Reported request out (published h) (calls h) (rollbacks h)

theorem Reports.of_said {out : Except Exn InferenceResponse} (hh : Said ps as rs h)
    (hreported : Reported request out ps as rs) : Reports request h out := by
  obtain ⟨rfl, rfl, rfl⟩ := hh
  exact hreported

/-- The end of the handler publishes the completion of its response. -/
theorem respond_tells {later : List Payload} {tier : ComplexityTier} {execution : Execution}
    (hdecided : Decided request decision.route decided) (hh : Said (later ++ [decided]) as rs h)
    (hrecovered : Recovered request decision later as rs (.ok execution)) :
    (respond request tier execution).Meets (Acts config request)
      (Reports request) h := by
  refine Program.Meets.call_bind trivial fun _ => Program.Meets.call_bind trivial fun snapshot =>
    Program.Meets.call_bind rfl fun _ => .of_said (hh.publish _) ?_
  cases hrecovered with
  | done => exact .served hdecided ⟨rfl, rfl, rfl, rfl, rfl, rfl, rfl⟩ rfl rfl
  | fellBack htold => exact .fellBack hdecided htold ⟨rfl, rfl, rfl, rfl, rfl, rfl, rfl⟩ rfl rfl

/-- The handler from the event of its decision on. -/
theorem conclude_tells {tier : ComplexityTier}
    (hdecided : Decided request decision.route decided) (hh : Said [decided] [] [] h)
    (hfunded : decision.route = .remote → Funded config request h) :
    (do
        let execution ← tryCatch (execute request decision) (recover request decision)
        respond request tier execution : Handler InferenceResponse).Meets
      (Acts config request) (Reports request) h := by
  refine Program.Meets.bind (Q := Owes request decision decided) ?_ ?_ ?_
  · refine (execute_tells hh hfunded).tryCatch ?_ ?_
    · rintro h execution ⟨as, hh, hran⟩
      cases hran with
      | done => exact ⟨[], _, _, hh, .done⟩
    · rintro h x ⟨as, hh, hran⟩
      cases hran with
      | raised htried => exact recover_tells hh htried
  · rintro h execution ⟨later, as, rs, hh, hrecovered⟩
    exact respond_tells hdecided hh hrecovered
  · rintro h x ⟨later, as, rs, hh, hrecovered⟩
    refine .of_said hh ?_
    cases hrecovered with
    | full htried honce => exact .full hdecided htried honce
    | failed htried hclosed => exact .failed hdecided htried hclosed
    | unanswered htold hunserved => exact .unanswered hdecided htold hunserved

/-- **The handler reports what it does.** -/
theorem inference_reports (config : Config) (classify : String → ComplexityTier)
    (request : InferenceRequest) :
    (inference config classify request).Meets (Acts config request)
      (Reports request) [] := by
  refine (route_funds config request _).bind (fun h decision hh => ?_) fun h x hh =>
    .of_said hh.1 .unrouted
  obtain ⟨hh, hfunded⟩ := hh
  refine Program.Meets.ite (fun _ => ?_) fun hroute => ?_
  · exact Program.Meets.call_bind trivial fun _ => Program.Meets.call_bind rfl fun _ =>
      .of_said (hh.publish _) .rejected
  · refine Program.Meets.call_bind trivial fun _ => Program.Meets.call_bind trivial fun _ =>
      Program.Meets.call_bind trivial fun _ => Program.Meets.call_bind rfl fun _ => ?_
    refine conclude_tells ⟨hroute, _, _, _, _, _, rfl⟩ (hh.publish _) fun hremote => ?_
    exact ((((hfunded decision rfl hremote).cons _).cons _).cons _).cons _

/-- Every handler that has ended has reported what it did. -/
theorem reported_of_run {config : Config} {classify : String → ComplexityTier}
    {p : Pool (service config classify)}
    {tr : List (Pool (service config classify) × Choice (service config classify))}
    (run : Run Pool.Step (initial config classify) tr p)
    {t : Thread (service config classify)} (ht : t ∈ p.threads)
    {out : Except Exn InferenceResponse} (hout : t.outcome = some out) :
    Reported t.arg out (published t.history) (calls t.history) (rollbacks t.history) :=
  Pool.outcome_of_run (Q := Reports)
    (fun request => (inference_reports config classify request).imp fun _ _ _ => trivial) rfl run
    ht hout

end InferenceRouter
