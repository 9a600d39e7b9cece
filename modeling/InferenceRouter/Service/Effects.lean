import InferenceRouter.Budget.Manager
import InferenceRouter.Events.Bus
import InferenceRouter.Foundation.Program
import InferenceRouter.Latency.Tracker
import InferenceRouter.Queue.Monitor
import Mathlib.Logic.Function.Basic

/-!
# The effects of the router

Everything that the agent of `app/decision_agent.py` and the handler of `app/main.py` do outside
their own local variables is one of the effects listed here: a call of a method of one of the
managers, a read of one of their attributes or of a `Reservation` object, a count in
`route_counts`, the publication of an event, or a call of a backend. All effects but the calls of
the backends complete without suspending the handler, because the locks of the managers are never
held across a suspension. The log records that are not published to the event bus have no effect
on any state and are left out.

## Main definitions

* `InferenceRouter.Exn`: the exceptions that can pass through the handler.
* `InferenceRouter.Effect`, `InferenceRouter.signature`, `InferenceRouter.Handler`.
* `InferenceRouter.AppState`: the state shared by the handlers.
* `InferenceRouter.AppState.exec`: what each effect does to the shared state.
-/

namespace InferenceRouter

open Foundation

/-! ### Exceptions -/

/-- The exceptions that can pass through the handler, by the clauses that tell them apart:
the errors of the budget manager, `RuntimeError`, `RemoteInferenceError`, `HTTPException`, the
other subclasses of `Exception`, and the exceptions outside `Exception`, such as
`asyncio.CancelledError`. -/
inductive Exn
  | budget (error : BudgetError)
  | runtimeError (message : String)
  | remoteInferenceError (message : String)
  | httpException (statusCode : ℕ) (detail : String)
  | exception (message : String)
  | baseException (message : String)

/-- The text of an exception. -/
def Exn.message : Exn → String
  | budget error => error.message
  | runtimeError message | remoteInferenceError message | exception message
  | baseException message => message
  | httpException statusCode detail => toString statusCode ++ ": " ++ detail

/-! ### Effects -/

/-- The effects of the agent and of the handler. -/
inductive Effect
  | tryReserve (requestId : String) (cost projectedLatencyMs : ℚ)
  | commit (reservation : Ref) (actualCost actualLatencyMs : ℚ)
  | rollback (reservation : Ref)
  | readReservation (reservation : Ref)
  | budgetSnapshot
  | activeCount
  | isAtCapacity
  | maxConcurrency
  | acquire
  | release
  | getEstimate (backend : String)
  | record (backend : String) (latencyMs : ℚ)
  | countRoute (route : RouteDecision)
  | publish (payload : Payload)
  | simulateLocalInference (prompt requestId : String)
  | simulateRemoteInference (prompt requestId : String) (shouldFail : Bool)

/-- The type of the reply of an effect. An effect that can raise replies with an `Except`. -/
@[reducible] def Effect.Reply : Effect → Type
  | tryReserve .. => Except BudgetError (Option Ref)
  | commit .. | rollback .. => Except BudgetError Unit
  | readReservation .. => Reservation
  | budgetSnapshot => BudgetSnapshot
  | activeCount | maxConcurrency => ℕ
  | isAtCapacity | acquire => Bool
  | getEstimate .. => ℚ
  | release | record .. | countRoute .. | publish .. => Unit
  | simulateLocalInference .. | simulateRemoteInference .. => Except Exn BackendResult

/-- The effect is a call of a backend, the only effects that suspend the handler. -/
def Effect.IsBackendCall : Effect → Prop
  | simulateLocalInference .. | simulateRemoteInference .. => True
  | tryReserve .. | commit .. | rollback .. | readReservation .. | budgetSnapshot | activeCount
  | isAtCapacity | maxConcurrency | acquire | release | getEstimate .. | record ..
  | countRoute .. | publish .. => False

instance : DecidablePred Effect.IsBackendCall
  | .simulateLocalInference .. | .simulateRemoteInference .. => inferInstanceAs (Decidable True)
  | .tryReserve .. | .commit .. | .rollback .. | .readReservation .. | .budgetSnapshot
  | .activeCount | .isAtCapacity | .maxConcurrency | .acquire | .release | .getEstimate ..
  | .record .. | .countRoute .. | .publish .. => inferInstanceAs (Decidable False)

/-- The signature of the router's programs. -/
@[reducible] def signature : Signature where
  Effect := Effect
  Reply := Effect.Reply
  Exn := Exn

/-- The programs of the router. -/
abbrev Handler := Program signature

namespace Handler

/-- `BudgetManager.try_reserve`. -/
def tryReserve (requestId : String) (cost projectedLatencyMs : ℚ) : Handler (Option Ref) := do
  let reply ← Program.call (S := signature) (.tryReserve requestId cost projectedLatencyMs)
  .ofExcept (Except.mapError .budget reply)

/-- `Reservation.commit`. -/
def commit (reservation : Ref) (actualCost actualLatencyMs : ℚ) : Handler Unit := do
  let reply ← Program.call (S := signature) (.commit reservation actualCost actualLatencyMs)
  .ofExcept (Except.mapError .budget reply)

/-- `Reservation.rollback`. -/
def rollback (reservation : Ref) : Handler Unit := do
  let reply ← Program.call (S := signature) (.rollback reservation)
  .ofExcept (Except.mapError .budget reply)

/-- Read the attributes of a `Reservation` object. -/
def readReservation (reservation : Ref) : Handler Reservation :=
  Program.call (S := signature) (.readReservation reservation)

/-- `BudgetManager.budget_snapshot`. -/
def budgetSnapshot : Handler BudgetSnapshot := Program.call (S := signature) .budgetSnapshot

/-- `QueueMonitor.active_count`. -/
def activeCount : Handler ℕ := Program.call (S := signature) .activeCount

/-- `QueueMonitor.is_at_capacity`. -/
def isAtCapacity : Handler Bool := Program.call (S := signature) .isAtCapacity

/-- `QueueMonitor.max_concurrency`. -/
def maxConcurrency : Handler ℕ := Program.call (S := signature) .maxConcurrency

/-- `QueueMonitor.acquire`. -/
def acquire : Handler Bool := Program.call (S := signature) .acquire

/-- `QueueMonitor.release`. -/
def release : Handler Unit := Program.call (S := signature) .release

/-- `LatencyTracker.get_estimate`. -/
def getEstimate (backend : String) : Handler ℚ :=
  Program.call (S := signature) (.getEstimate backend)

/-- `LatencyTracker.record`. -/
def record (backend : String) (latencyMs : ℚ) : Handler Unit :=
  Program.call (S := signature) (.record backend latencyMs)

/-- `route_counts[route] += 1`. -/
def countRoute (route : RouteDecision) : Handler Unit :=
  Program.call (S := signature) (.countRoute route)

/-- `event_bus.publish`. -/
def publish (payload : Payload) : Handler Unit :=
  Program.call (S := signature) (.publish payload)

/-- `simulate_local_inference`. -/
def simulateLocalInference (prompt requestId : String) : Handler BackendResult := do
  let reply ← Program.call (S := signature) (.simulateLocalInference prompt requestId)
  .ofExcept reply

/-- `simulate_remote_inference`. -/
def simulateRemoteInference (prompt requestId : String) (shouldFail : Bool) :
    Handler BackendResult := do
  let reply ← Program.call (S := signature) (.simulateRemoteInference prompt requestId shouldFail)
  .ofExcept reply

end Handler

/-! ### The shared state -/

/-- The state shared by the handlers: the managers in `app.state`, the route counters, the event
bus and the clock `time.monotonic`. -/
structure AppState where
  budgetManager : BudgetManager
  queueMonitor : QueueMonitor
  latencyTracker : LatencyTracker
  routeCounts : RouteDecision → ℕ
  eventBus : EventBus
  clock : ℚ

/-- What the environment supplies to an effect: the id that `uuid4` returns and the reading of
the clock, for a reservation, and the answer of the backend, for a call of one. -/
structure Oracle where
  uuid : String := ""
  now : ℚ := 0
  answer : Except Exn BackendResult := .error (.exception "")

namespace AppState

/-- `lifespan`, up to its `yield`: the managers at start-up. -/
def init (config : Config) : AppState where
  budgetManager := .new ⟨config.maxRemoteBudget, config.maxCumulativeLatencyMs,
    config.reservationTtlSeconds, config.maxRemoteBudget_pos⟩
  queueMonitor := .new config.localQueueCapacity config.localQueueCapacity_pos
  latencyTracker := .new config.emaAlpha config.avgLocalLatencyMs config.avgRemoteLatencyMs
    config.latencyWindowSize
  routeCounts := fun _ => 0
  eventBus := .new
  clock := 0

/-- What an effect replies, and the shared state it leaves. The ids of reservations are fresh, and
the clock does not run backwards. -/
def exec (s : AppState) : (e : Effect) → Oracle → Option (e.Reply × AppState)
  | .tryReserve requestId cost projectedLatencyMs, o =>
    if s.clock ≤ o.now ∧ ∀ r ∈ s.budgetManager.reservations, r.id ≠ o.uuid then
      let call := s.budgetManager.tryReserve requestId cost projectedLatencyMs o.uuid o.now
      some (call.reply, { s with budgetManager := call.manager, clock := o.now })
    else none
  | .commit ref actualCost actualLatencyMs, _ =>
    let call := s.budgetManager.commit (s.budgetManager.deref ref).id actualCost actualLatencyMs
    some (call.reply, { s with budgetManager := call.manager })
  | .rollback ref, _ =>
    let call := s.budgetManager.rollback (s.budgetManager.deref ref).id
    some (call.reply, { s with budgetManager := call.manager })
  | .readReservation ref, _ => some (s.budgetManager.deref ref, s)
  | .budgetSnapshot, _ => some (s.budgetManager.budgetSnapshot, s)
  | .activeCount, _ => some (s.queueMonitor.activeCount, s)
  | .isAtCapacity, _ => some (s.queueMonitor.isAtCapacity, s)
  | .maxConcurrency, _ => some (s.queueMonitor.maxConcurrency, s)
  | .acquire, _ =>
    some (s.queueMonitor.acquire.1, { s with queueMonitor := s.queueMonitor.acquire.2 })
  | .release, _ => some ((), { s with queueMonitor := s.queueMonitor.release })
  | .getEstimate backend, _ => some (s.latencyTracker.getEstimate backend, s)
  | .record backend latencyMs, _ =>
    some ((), { s with latencyTracker := s.latencyTracker.record backend latencyMs })
  | .countRoute route, _ =>
    some ((), { s with
      routeCounts := Function.update s.routeCounts route (s.routeCounts route + 1) })
  | .publish payload, _ =>
    some ((), { s with eventBus := s.eventBus.publish (.payload payload) })
  | .simulateLocalInference .., o | .simulateRemoteInference .., o => some (o.answer, s)

end AppState

end InferenceRouter
