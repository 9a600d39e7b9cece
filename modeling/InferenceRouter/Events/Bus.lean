import InferenceRouter.Models
import Mathlib.Algebra.Order.Ring.Rat
import Mathlib.Algebra.Order.Group.Abs

/-!
# The event bus

The broadcast of messages to the connected clients of `app/event_bus.py`, and the messages that
`app/observability.py` publishes: the payloads of the events of a request, and the markers of the
test runs. Every client has a queue of at most 64 messages, of which the oldest is dropped when a
new one does not fit; the bound is a field of the structure.

## Main definitions

* `InferenceRouter.Payload`, `InferenceRouter.clip`, `InferenceRouter.about`.
* `InferenceRouter.Marker`, `InferenceRouter.Message`, `InferenceRouter.payloadsOf`.
* `InferenceRouter.EventQueue`, `InferenceRouter.EventBus`, with `EventBus.subscribe`,
  `EventBus.unsubscribe`, `EventBus.publish` and `EventBus.consume`.
-/

namespace InferenceRouter

/-- `observability._clip`: suppress noise below `1e-9`. -/
def clip (value : ℚ) : ℚ := if |value| < 1 / 10 ^ 9 then 0 else value

/-- The events of a request that are published. -/
inductive Payload
  | routeDecision (requestId : String) (route : RouteDecision) (complexityTier : ComplexityTier)
      (reason : String) (estimatedLatencyMs : ℚ) (queueDepth : ℕ) (liquidBudget : ℚ)
      (prompt : String)
  | executionComplete (requestId : String) (backend : RouteDecision)
      (actualCost actualLatencyMs : ℚ)
      (promptTokens completionTokens cacheReadTokens cacheWriteTokens : ℤ) (outcome : String)
      (budgetRemaining : ℚ)
  | failFast (requestId reason : String) (statusCode : ℕ)
  | rollbackEvent (requestId reservationId : String) (reservedCostReturned : ℚ) (reason : String)

/-- The request that a payload is about. -/
def Payload.requestId : Payload → String
  | routeDecision requestId .. | executionComplete requestId .. | failFast requestId ..
  | rollbackEvent requestId .. => requestId

/-- The events about the request `id`. -/
def about (id : String) (payloads : List Payload) : List Payload :=
  payloads.filter fun payload => payload.requestId = id

/-- The markers for the start and the end of a test run: `log_run_start` and `log_run_complete`,
without the figures and the routes of the run. -/
inductive Marker
  | runStart (runId : String)
  | runComplete (runId verdict : String)

/-- What is published: the event of a request, or a marker. -/
inductive Message
  | payload (payload : Payload)
  | marker (marker : Marker)

/-- The event of a request in a message. -/
def Message.payload? : Message → Option Payload
  | payload p => some p
  | marker _ => none

/-- The events of requests among some messages. -/
def payloadsOf (messages : List Message) : List Payload := messages.filterMap Message.payload?

/-- The capacity of a client's queue. -/
def maxQueueSize : ℕ := 64

/-- The queue of one client, the oldest message first. -/
structure EventQueue where
  items : List Message
  length_le : items.length ≤ maxQueueSize

namespace EventQueue

/-- The queue of a client that has just connected. -/
def empty : EventQueue := ⟨[], Nat.zero_le _⟩

/-- Put a message into a queue, dropping the oldest one if the queue is full. -/
def put (q : EventQueue) (message : Message) : EventQueue where
  items := (if q.items.length < maxQueueSize then q.items else q.items.tail) ++ [message]
  length_le := by
    have hq := q.length_le
    have hpos : 0 < maxQueueSize := by decide
    split_ifs with h
    · rw [List.length_append, List.length_singleton]
      exact h
    · rw [List.length_append, List.length_singleton, List.length_tail]
      omega

/-- Take the oldest message from a queue. -/
def get (q : EventQueue) : Option (Message × EventQueue) :=
  match q with
  | ⟨[], _⟩ => none
  | ⟨message :: items, h⟩ => some (message, ⟨items, Nat.le_of_succ_le h⟩)

end EventQueue

/-- The module's list of subscribers. Queues are told apart by identity, which is the number of
subscriptions before theirs. -/
structure EventBus where
  subscribers : List (ℕ × EventQueue)
  subscriptions : ℕ

namespace EventBus

/-- A bus that nobody has subscribed to. -/
def new : EventBus := ⟨[], 0⟩

variable (bus : EventBus)

/-- `event_bus.subscribe`. -/
def subscribe : EventBus :=
  ⟨bus.subscribers ++ [(bus.subscriptions, .empty)], bus.subscriptions + 1⟩

/-- `event_bus.unsubscribe`. -/
def unsubscribe (client : ℕ) : EventBus :=
  { bus with subscribers := bus.subscribers.eraseP fun s => s.1 = client }

/-- `event_bus.publish`. -/
def publish (message : Message) : EventBus :=
  { bus with subscribers := bus.subscribers.map fun s => (s.1, s.2.put message) }

/-- A client takes the oldest message from its queue, if there is one. -/
def consume (client : ℕ) : Option (Message × EventBus) :=
  (bus.subscribers.find? fun s => s.1 = client).bind fun s => s.2.get.map fun mq =>
    (mq.1, { bus with
      subscribers := bus.subscribers.map fun s => if s.1 = client then (client, mq.2) else s })

end EventBus

end InferenceRouter
