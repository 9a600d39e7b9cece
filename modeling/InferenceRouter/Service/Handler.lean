import InferenceRouter.Service.Effects
import Mathlib.Data.List.Infix

/-!
# The agent and the request handler

The routing decision of `app/decision_agent.py` and the life of one `/inference` request of
`app/main.py`, as programs over the effects of the router.

The agent reads the queue and the latency estimates without a lock, so that other requests may act
between its reads and its reservations. The handler takes the decision, executes the backend call
that it names, settles the reservation and answers. The exceptions of the execution and settlement
phase are told apart by the clauses of one `except` chain (`recover`): a failed remote call is
answered by a local execution if the queue has a slot left.

## Main definitions

* `InferenceRouter.RoutingDecision`, `InferenceRouter.route`.
* `InferenceRouter.slot`: the context manager around a local execution.
* `InferenceRouter.execute`, `InferenceRouter.recover`, `InferenceRouter.inference`.
-/

namespace InferenceRouter

open Foundation Handler

/-! ### The agent -/

/-- The output of a routing evaluation. -/
structure RoutingDecision where
  route : RouteDecision
  reservation : Option Ref
  estimatedLatencyMs : ℚ
  reason : String

/-- The decision to reject a request. -/
def RoutingDecision.reject (estimatedLatencyMs : ℚ) (reason : String) : RoutingDecision :=
  ⟨.failFast, none, estimatedLatencyMs, reason⟩

/-- What the agent has read before it decides. -/
structure Advisory where
  atCapacity : Bool
  estLocalMs : ℚ
  estRemoteMs : ℚ
  localWithinSla : Bool
  remoteWithinSla : Bool
  queueDepth : ℕ

/-- The attempt to reserve for a remote execution, if the estimate is within the request's
budget. -/
def reserveRemote (config : Config) (request : InferenceRequest) (advisory : Advisory) :
    Handler (Option Ref) :=
  if advisory.remoteWithinSla then
    tryReserve request.requestId config.costPerRemoteRequest advisory.estRemoteMs
  else pure none

/-- The degraded local fallback of both tiers (`PATH 3`), with its two texts. -/
def degrade (request : InferenceRequest) (advisory : Advisory) (reason : ℚ → String)
    (failReason : String) : Handler RoutingDecision := do
  let estimate ← getEstimate backendLocal
  let degradedEst := estimate * (advisory.queueDepth + 1)
  match ← tryReserve request.requestId 0 degradedEst with
  | some reservation => pure ⟨.queueLocal, some reservation, degradedEst, reason degradedEst⟩
  | none => pure (.reject 0 failReason)

/-- `DecisionAgent._route_fast`: local, remote, degraded local. -/
def routeFast (config : Config) (request : InferenceRequest) (advisory : Advisory) :
    Handler RoutingDecision :=
  if !advisory.atCapacity && advisory.localWithinSla then do
    match ← tryReserve request.requestId 0 advisory.estLocalMs with
    | some reservation =>
      let maxConcurrency ← maxConcurrency
      pure ⟨.local, some reservation, advisory.estLocalMs,
        "[FAST] Local queue healthy (" ++ toString advisory.queueDepth ++ "/" ++
          toString maxConcurrency ++ "), est latency " ++ renderFixed 0 advisory.estLocalMs ++
          "ms ≤ SLA " ++ renderFixed 0 request.latencyBudgetMs ++ "ms"⟩
    | none =>
      pure (.reject advisory.estLocalMs
        "[FAST] Global cumulative latency cap would be breached by local route")
  else do
    match ← reserveRemote config request advisory with
    | some reservation =>
      pure ⟨.remote, some reservation, advisory.estRemoteMs,
        "[FAST] Local infeasible (capacity=" ++
          (if advisory.atCapacity then "True" else "False") ++ ", est_local=" ++
          renderFixed 0 advisory.estLocalMs ++ "ms); escalating to remote as last resort"⟩
    | none =>
      if !advisory.atCapacity then
        degrade request advisory
          (fun degradedEst => "[FAST] Budget/SLA exhausted; degrading to local queue " ++
            "(SLA will be missed: est " ++ renderFixed 0 degradedEst ++ "ms)")
          "[FAST] Budget exhausted and global latency cap would be breached"
      else
        pure (.reject 0 ("[FAST] All routes exhausted: local at capacity, remote " ++
          if !advisory.remoteWithinSla then "over SLA" else "budget exhausted"))

/-- `DecisionAgent._route_quality`: remote, local, degraded local. -/
def routeQuality (config : Config) (request : InferenceRequest) (advisory : Advisory) :
    Handler RoutingDecision := do
  match ← reserveRemote config request advisory with
  | some reservation =>
    pure ⟨.remote, some reservation, advisory.estRemoteMs,
      "[QUALITY] Remote preferred for high-complexity request; budget available, est " ++
        renderFixed 0 advisory.estRemoteMs ++ "ms ≤ SLA " ++
        renderFixed 0 request.latencyBudgetMs ++ "ms"⟩
  | none =>
    if !advisory.atCapacity && advisory.localWithinSla then
      match ← tryReserve request.requestId 0 advisory.estLocalMs with
      | some reservation =>
        pure ⟨.local, some reservation, advisory.estLocalMs,
          "[QUALITY] Remote budget exhausted or over SLA; falling back to local (est " ++
            renderFixed 0 advisory.estLocalMs ++ "ms)"⟩
      | none =>
        pure (.reject advisory.estLocalMs
          "[QUALITY] Global cumulative latency cap would be breached by local fallback")
    else if !advisory.atCapacity then
      degrade request advisory
        (fun degradedEst => "[QUALITY] All preferred routes exhausted; degrading to local " ++
          "queue (SLA will be missed: est " ++ renderFixed 0 degradedEst ++ "ms)")
        "[QUALITY] Budget exhausted and global latency cap would be breached"
    else
      pure (.reject 0
        "[QUALITY] All routes exhausted: remote budget exhausted, local at capacity")

/-- `DecisionAgent.route`, for a request of the given tier. -/
def route (config : Config) (request : InferenceRequest) (tier : ComplexityTier) :
    Handler RoutingDecision := do
  let queueDepth ← activeCount
  let atCapacity ← isAtCapacity
  let localEstimate ← getEstimate backendLocal
  let estLocalMs := localEstimate * (queueDepth + 1)
  let estRemoteMs ← getEstimate backendRemote
  let advisory : Advisory :=
    { atCapacity := atCapacity
      estLocalMs := estLocalMs
      estRemoteMs := estRemoteMs
      localWithinSla := decide (estLocalMs ≤ request.latencyBudgetMs)
      remoteWithinSla := decide (estRemoteMs ≤ request.latencyBudgetMs)
      queueDepth := queueDepth }
  match tier with
  | .quality => routeQuality config request advisory
  | .fast => routeFast config request advisory

/-! ### Execution and settlement -/

/-- `QueueMonitor.slot`, around a body. -/
def slot {α : Type} (body : Handler α) : Handler α := do
  let acquired ← acquire
  if acquired then body.andFinally release
  else throw (Exn.runtimeError "Local queue is at capacity — cannot acquire slot")

/-- What the handler has in hand after the execution of a backend. -/
structure Execution where
  decision : RoutingDecision
  result : BackendResult
  actualCost : ℚ
  actualLatencyMs : ℚ
  outcome : String

/-- `"fail_remote" in prompt.lower()`. Of the characters that are lowered to a letter of the
pattern and are not upper-case ASCII letters there is only `İ`, which is lowered to two characters
that do not occur in it together. -/
def shouldFail (prompt : String) : Bool :=
  decide ("fail_remote".toList <:+: prompt.toList.map Char.toLower)

/-- `if reservation: await reservation.commit(...)`, with the snapshot for the log. -/
def commitIfReserved (reservation : Option Ref) (actualCost actualLatencyMs : ℚ) :
    Handler Unit := do
  match reservation with
  | some reservation =>
    commit reservation actualCost actualLatencyMs
    let _after ← budgetSnapshot
  | none => pure ()

/-- `if reservation and reservation.state == "pending": await reservation.rollback()`, with what
follows a rollback. -/
def rollbackIfPending (reservation : Option Ref) (afterwards : Reservation → Handler Unit) :
    Handler Unit := do
  match reservation with
  | some ref =>
    let reservation ← readReservation ref
    if reservation.state = .pending then
      rollback ref
      afterwards reservation
  | none => pure ()

/-- The `try` block of `inference`, for a decision that is not `FAIL_FAST`. -/
def execute (request : InferenceRequest) (decision : RoutingDecision) : Handler Execution :=
  if decision.route = .remote then do
    let result ← simulateRemoteInference request.prompt request.requestId
      (shouldFail request.prompt)
    commitIfReserved decision.reservation result.actualCost result.actualLatencyMs
    pure ⟨decision, result, result.actualCost, result.actualLatencyMs, "committed"⟩
  else
    slot do
      let result ← simulateLocalInference request.prompt request.requestId
      -- A local call has no financial cost: only its latency is committed.
      commitIfReserved decision.reservation 0 result.actualLatencyMs
      pure ⟨decision, result, result.actualCost, result.actualLatencyMs, "committed"⟩

/-- The local execution that answers for a failed remote call. -/
def fallback (request : InferenceRequest) : Handler Execution :=
  slot do
    let result ← simulateLocalInference request.prompt request.requestId
    pure ⟨⟨.queueLocal, none, result.actualLatencyMs, "Fallback after remote failure"⟩, result, 0,
      result.actualLatencyMs, "fallback_local"⟩

/-- The clause for `RemoteInferenceError`: roll back and attempt the local fallback. -/
def recoverRemoteFailure (request : InferenceRequest) (reservation : Option Ref)
    (message : String) : Handler Execution := do
  rollbackIfPending reservation fun r =>
    publish (.rollbackEvent request.requestId r.id (clip r.reservedCost) message)
  let atCapacity ← isAtCapacity
  if !atCapacity then
    tryCatch (fallback request) fun
      | .runtimeError _ => throw (Exn.httpException 503 "Remote failed; local also at capacity")
      | x => throw x
  else throw (Exn.httpException 503 ("Remote failed; local at capacity: " ++ message))

/-- The `except` chain of `inference`, from the first clause to the last. An exception outside
`Exception` passes all of them. -/
def recover (request : InferenceRequest) (decision : RoutingDecision) : Exn → Handler Execution
  | .runtimeError _ => do
    rollbackIfPending decision.reservation fun _ => pure ()
    publish (.failFast request.requestId "Local queue at capacity at execution time" 503)
    throw (Exn.httpException 503 "Local queue at capacity")
  | .budget (.actualCostExceededReservation actualCost reservedCost) =>
    throw (Exn.httpException 500
      (BudgetError.actualCostExceededReservation actualCost reservedCost).message)
  | .budget (.actualLatencyExceededReservation actualLatencyMs maxCumulativeLatencyMs) =>
    throw (Exn.httpException 500
      (BudgetError.actualLatencyExceededReservation actualLatencyMs
        maxCumulativeLatencyMs).message)
  | .remoteInferenceError message => recoverRemoteFailure request decision.reservation message
  | .baseException message => throw (Exn.baseException message)
  | x => do
    rollbackIfPending decision.reservation fun _ => pure ()
    throw (Exn.httpException 500 x.message)

/-- The end of `inference`, after the `try` statement: update the latency tracker and answer. -/
def respond (request : InferenceRequest) (complexityTier : ComplexityTier)
    (execution : Execution) : Handler InferenceResponse := do
  let backendKey :=
    if execution.decision.route = .remote then backendRemote else backendLocal
  record backendKey execution.actualLatencyMs
  let finalSnapshot ← budgetSnapshot
  publish (.executionComplete request.requestId execution.decision.route
    (clip execution.actualCost) (clip execution.actualLatencyMs) execution.result.promptTokens
    execution.result.completionTokens execution.result.cacheReadTokens
    execution.result.cacheWriteTokens execution.outcome (clip finalSnapshot.remaining))
  pure
    { requestId := request.requestId
      route := execution.decision.route
      complexityTier := complexityTier
      actualCost := execution.actualCost
      actualLatencyMs := execution.actualLatencyMs
      promptTokens := execution.result.promptTokens
      completionTokens := execution.result.completionTokens
      cacheReadTokens := execution.result.cacheReadTokens
      cacheWriteTokens := execution.result.cacheWriteTokens
      result := execution.result.result
      budgetRemaining := finalSnapshot.remaining }

/-- `inference`, the handler of `POST /inference`. A request without a tier gets the one that
`classify` assigns to its prompt. -/
def inference (config : Config) (classify : String → ComplexityTier)
    (request : InferenceRequest) : Handler InferenceResponse := do
  let complexityTier := request.complexityTier.getD (classify request.prompt)
  let decision ← route config request complexityTier
  if decision.route = .failFast then
    countRoute .failFast
    publish (.failFast request.requestId decision.reason 503)
    throw (Exn.httpException 503 decision.reason)
  else
    let snapshot ← budgetSnapshot
    countRoute decision.route
    let queueDepth ← activeCount
    publish (.routeDecision request.requestId decision.route complexityTier decision.reason
      (clip decision.estimatedLatencyMs) queueDepth (clip snapshot.remaining) request.prompt)
    let execution ← tryCatch (execute request decision) (recover request decision)
    respond request complexityTier execution

end InferenceRouter
