import InferenceRouter.Budget.Conservation
import InferenceRouter.Events.Delivery
import InferenceRouter.Foundation.Pool
import InferenceRouter.Service.Handler
import Mathlib.Data.Fintype.EquivFin

/-!
# The running service

The service between two resets: any number of `/inference` handlers over one set of managers,
with the scans of the reaper, the `/events` clients and the markers of test runs as actions of the
environment. Handlers interleave at every effect. The event loop switches between them only where
one is suspended, at a call of a backend, so that its runs are among the ones here.

## Main definitions

* `InferenceRouter.ServiceAction`, `InferenceRouter.service`, `InferenceRouter.initial`.
* `InferenceRouter.budgetEvent`, `InferenceRouter.busEvent`: the event of the budget manager, and of
  the event bus, in a step of the service.

## Main results

* `InferenceRouter.budgetRun`: the budget manager of a run of the service makes a run of its own.
* `InferenceRouter.step_eventBus`: a step of the service is one of the bus of the module, or none.
* `InferenceRouter.exec_total`: every effect can be answered.
-/

namespace InferenceRouter

open Foundation

/-- The actions of the environment: a scan of the reaper, with the readings of the clock during
it, the steps of the generator of an `/events` stream, and the markers of `run_start` without a
reset and of `run_complete`. -/
inductive ServiceAction
  | reap (readings : List ℚ)
  | connect
  | consume (client : ℕ)
  | disconnect (client : ℕ)
  | mark (marker : Marker)

namespace AppState

variable (s : AppState)

/-- The clock during a scan that takes the given readings, the last of them for good. -/
def scanClock (readings : List ℚ) (n : ℕ) : ℚ := readings.getD n (readings.getLastD s.clock)

/-- `counts[route] += 1` in the generator of a stream, for a message that it has taken. -/
def countMessage (message : Message) : RouteDecision → ℕ :=
  match message with
  | .payload (.routeDecision _ route ..) =>
      Function.update s.routeCounts route (s.routeCounts route + 1)
  | .payload (.executionComplete ..) | .payload (.failFast ..) | .payload (.rollbackEvent ..)
  | .marker _ => s.routeCounts

/-- What an action of the environment does. -/
def act : ServiceAction → Option AppState
  | .reap readings =>
    if (s.clock :: readings).Pairwise (· ≤ ·) then
      some { s with
        budgetManager := (s.budgetManager.expireStaleReservations (s.scanClock readings)).1
        clock := readings.getLastD s.clock }
    else none
  | .connect => some { s with eventBus := s.eventBus.subscribe }
  | .consume client =>
    (s.eventBus.consume client).map fun mb =>
      { s with routeCounts := s.countMessage mb.1, eventBus := mb.2 }
  | .disconnect client => some { s with eventBus := s.eventBus.unsubscribe client }
  | .mark marker => some { s with eventBus := s.eventBus.publish (.marker marker) }

end AppState

/-- The service, with its configuration and its classifier of prompts. -/
@[reducible] def service (config : Config) (classify : String → ComplexityTier) :
    System signature where
  State := AppState
  Arg := InferenceRequest
  Out := InferenceResponse
  Oracle := Oracle
  Action := ServiceAction
  main := inference config classify
  exec := AppState.exec
  act := AppState.act

variable {config : Config} {classify : String → ComplexityTier}

/-- The service at start-up. -/
def initial (config : Config) (classify : String → ComplexityTier) :
    Pool (service config classify) :=
  ⟨.init config, []⟩

/-- The configuration of the budget manager. -/
def Config.budget (config : Config) : BudgetConfig :=
  ⟨config.maxRemoteBudget, config.maxCumulativeLatencyMs, config.reservationTtlSeconds,
    config.maxRemoteBudget_pos⟩

/-! ### The budget manager of the service -/

/-- The event of the budget manager in an effect. -/
def Effect.budgetEvent (bm : BudgetManager) (o : Oracle) : Effect → Option BudgetEvent
  | tryReserve requestId cost projectedLatencyMs =>
    some (.reserve requestId cost projectedLatencyMs o.uuid o.now
      (bm.tryReserve requestId cost projectedLatencyMs o.uuid o.now).reply)
  | commit ref actualCost actualLatencyMs =>
    some (.commit (bm.deref ref).id actualCost actualLatencyMs
      (bm.commit (bm.deref ref).id actualCost actualLatencyMs).reply)
  | rollback ref => some (.rollback (bm.deref ref).id (bm.rollback (bm.deref ref).id).reply)
  | readReservation .. | budgetSnapshot | activeCount | isAtCapacity | maxConcurrency | acquire
  | release | getEstimate .. | record .. | countRoute .. | publish ..
  | simulateLocalInference .. | simulateRemoteInference .. => none

/-- The event of the budget manager in a step of the service. -/
def budgetEvent (p : Pool (service config classify)) :
    Choice (service config classify) → Option BudgetEvent
  | .resume i o =>
    ((p.threads[i]?).bind Thread.next).bind (Effect.budgetEvent p.state.budgetManager o)
  | .act (.reap readings) =>
    some (.reap (p.state.scanClock readings)
      (p.state.budgetManager.expireStaleReservations (p.state.scanClock readings)).2)
  | .act .connect | .act (.consume _) | .act (.disconnect _) | .act (.mark _) | .spawn _ => none

/-- An effect that is not an event of the budget manager leaves it as it is; an event is a step of
it, with a fresh id. -/
theorem exec_budgetManager {s s' : AppState} {e : Effect} {o : Oracle} {r : e.Reply}
    (h : s.exec e o = some (r, s')) :
    (e.budgetEvent s.budgetManager o = none ∧ s'.budgetManager = s.budgetManager) ∨
      ∃ ev, e.budgetEvent s.budgetManager o = some ev ∧ ev.FreshIn s.budgetManager ∧
        BudgetStep s.budgetManager ev s'.budgetManager := by
  cases e with
  | tryReserve requestId cost projectedLatencyMs =>
    obtain ⟨⟨-, hfresh⟩, h⟩ := Option.ite_none_right_eq_some.mp h
    cases h
    refine Or.inr ⟨_, rfl, ?_, .reserve ..⟩
    generalize (s.budgetManager.tryReserve requestId cost projectedLatencyMs o.uuid o.now).reply
      = reply
    rcases reply with error | _ | ref
    · trivial
    · trivial
    · exact hfresh
  | commit => cases h; exact Or.inr ⟨_, rfl, trivial, .commit ..⟩
  | rollback => cases h; exact Or.inr ⟨_, rfl, trivial, .rollback ..⟩
  | readReservation | budgetSnapshot | activeCount | isAtCapacity | maxConcurrency | acquire
  | release | getEstimate | record | countRoute | publish | simulateLocalInference
  | simulateRemoteInference => cases h; exact Or.inl ⟨rfl, rfl⟩

/-- Of the effects, only the acquisition and the release of a slot concern the queue monitor. -/
theorem exec_queueMonitor {s s' : AppState} {e : Effect} {o : Oracle} {r : e.Reply}
    (h : s.exec e o = some (r, s')) :
    (e = .acquire ∧ s'.queueMonitor = s.queueMonitor.acquire.2) ∨
      (e = .release ∧ s'.queueMonitor = s.queueMonitor.release) ∨
      s'.queueMonitor = s.queueMonitor := by
  cases e with
  | tryReserve =>
    obtain ⟨-, h⟩ := Option.ite_none_right_eq_some.mp h
    cases h
    exact Or.inr (Or.inr rfl)
  | acquire =>
    cases h
    exact Or.inl ⟨rfl, rfl⟩
  | release =>
    cases h
    exact Or.inr (Or.inl ⟨rfl, rfl⟩)
  | commit | rollback | readReservation | budgetSnapshot | activeCount | isAtCapacity
  | maxConcurrency | getEstimate | record | countRoute | publish | simulateLocalInference
  | simulateRemoteInference =>
    cases h
    exact Or.inr (Or.inr rfl)

/-- Of the actions of the environment, only the scans of the reaper concern the budget manager. -/
theorem act_budgetManager {s s' : AppState} {a : ServiceAction} (h : s.act a = some s') :
    (∃ readings, a = .reap readings ∧ s'.budgetManager =
        (s.budgetManager.expireStaleReservations (s.scanClock readings)).1) ∨
      ((∀ readings, a ≠ .reap readings) ∧ s'.budgetManager = s.budgetManager) := by
  cases a with
  | reap readings =>
    obtain ⟨-, h⟩ := Option.ite_none_right_eq_some.mp h
    cases h
    exact Or.inl ⟨readings, rfl, rfl⟩
  | consume client =>
    obtain ⟨mb, -, rfl⟩ := Option.map_eq_some_iff.mp h
    exact Or.inr ⟨nofun, rfl⟩
  | connect | disconnect | mark =>
    cases h
    exact Or.inr ⟨nofun, rfl⟩

/-- No action of the environment concerns the queue monitor. -/
theorem act_queueMonitor {s s' : AppState} {a : ServiceAction} (h : s.act a = some s') :
    s'.queueMonitor = s.queueMonitor := by
  cases a with
  | reap readings =>
    obtain ⟨-, h⟩ := Option.ite_none_right_eq_some.mp h
    cases h
    rfl
  | consume client =>
    obtain ⟨mb, -, rfl⟩ := Option.map_eq_some_iff.mp h
    rfl
  | connect | disconnect | mark =>
    cases h
    rfl

/-- The trace of the budget manager in a trace of the service. -/
def budgetTrace (tr : List (Pool (service config classify) × Choice (service config classify))) :
    List (BudgetManager × BudgetEvent) :=
  tr.filterMap fun t => (budgetEvent t.1 t.2).map fun ev => (t.1.state.budgetManager, ev)

/-- A step of the service that is not an event of the budget manager leaves it as it is; an event
is a step of it, with a fresh id. -/
theorem step_budgetManager {p p' : Pool (service config classify)}
    {c : Choice (service config classify)} (h : p.Step c p') :
    (budgetEvent p c = none ∧ p'.state.budgetManager = p.state.budgetManager) ∨
      ∃ ev, budgetEvent p c = some ev ∧ ev.FreshIn p.state.budgetManager ∧
        BudgetStep p.state.budgetManager ev p'.state.budgetManager := by
  cases h.outcome with
  | spawned arg => exact Or.inl ⟨rfl, rfl⟩
  | @resumed pre t post e k o r s' hthreads hprogram hexec =>
    have hevent : budgetEvent p (.resume pre.length o) =
        Effect.budgetEvent p.state.budgetManager o e := by
      rw [budgetEvent, hthreads, Pool.getElem?_middle, Option.bind_some,
        Thread.next_of_perform hprogram, Option.bind_some]
    rw [hevent]
    exact exec_budgetManager hexec
  | @acted a s' hact =>
    rcases act_budgetManager hact with ⟨readings, rfl, hreap⟩ | ⟨hother, hkept⟩
    · rw [hreap]
      exact Or.inr ⟨_, rfl, trivial, .reap ..⟩
    · cases a with
      | reap readings => exact absurd rfl (hother readings)
      | connect | consume | disconnect | mark => exact Or.inl ⟨rfl, hkept⟩

variable {p q : Pool (service config classify)}
  {tr : List (Pool (service config classify) × Choice (service config classify))}

/-- **The budget manager of a run of the service** makes a run of its own. -/
theorem budgetRun (run : Run Pool.Step p tr q) :
    Run BudgetStep p.state.budgetManager (budgetTrace tr) q.state.budgetManager :=
  run.project (fun p => p.state.budgetManager) budgetEvent fun _ _ _ h =>
    (step_budgetManager h).imp id fun ⟨ev, hev, _, hstep⟩ => ⟨ev, hev, hstep⟩

/-- The budget manager of a run from the start-up. -/
theorem managerRun (run : Run Pool.Step (initial config classify) tr p) :
    Run BudgetStep (.new config.budget) (budgetTrace tr) p.state.budgetManager :=
  budgetRun run

/-- The ids of the reservations in a run of the service are fresh. -/
theorem managerRun_fresh (run : Run Pool.Step (initial config classify) tr p) :
    ∀ t ∈ budgetTrace tr, t.2.FreshIn t.1 := by
  induction run with
  | start => simp [budgetTrace]
  | @step tr p c p' run h ih =>
    intro t ht
    rcases step_budgetManager h with ⟨hnone, -⟩ | ⟨ev, hsome, hfresh, -⟩
    · rw [budgetTrace, List.filterMap_cons_none (by rw [hnone]; rfl)] at ht
      exact ih t ht
    · rw [budgetTrace, List.filterMap_cons_some (by rw [hsome]; rfl)] at ht
      rcases List.mem_cons.mp ht with rfl | ht
      · exact hfresh
      · exact ih t ht

theorem valid_of_service (run : Run Pool.Step (initial config classify) tr p) :
    p.state.budgetManager.Valid :=
  BudgetManager.valid_of_run (managerRun run)

theorem listed_of_service (run : Run Pool.Step (initial config classify) tr p) :
    p.state.budgetManager.Listed :=
  BudgetManager.listed_of_run (managerRun run) (managerRun_fresh run)

/-! ### The event bus of the service -/

/-- The event of the bus in a step of the service. -/
def busEvent (p : Pool (service config classify)) :
    Choice (service config classify) → Option (BroadcastEvent Message)
  | .resume i _ => ((p.threads[i]?).bind Thread.next).bind fun e =>
    match e with
    | .publish payload => some (.publish (.payload payload))
    | _ => none
  | .act .connect => some (.subscribe p.state.eventBus.subscriptions)
  | .act (.consume client) =>
    (p.state.eventBus.consume client).map fun mb => .consume client mb.1
  | .act (.disconnect client) => some (.unsubscribe client)
  | .act (.mark marker) => some (.publish (.marker marker))
  | .act (.reap _) | .spawn _ => none

/-- Of the effects, only a publication concerns the bus. -/
theorem exec_eventBus {s s' : AppState} {e : Effect} {o : Oracle} {r : e.Reply}
    (h : s.exec e o = some (r, s')) :
    (∃ payload, e = .publish payload ∧ s'.eventBus = s.eventBus.publish (.payload payload)) ∨
      ((∀ payload, e ≠ .publish payload) ∧ s'.eventBus = s.eventBus) := by
  cases e with
  | tryReserve =>
    obtain ⟨-, h⟩ := Option.ite_none_right_eq_some.mp h
    cases h
    exact Or.inr ⟨by simp, rfl⟩
  | publish payload =>
    cases h
    exact Or.inl ⟨payload, rfl, rfl⟩
  | commit | rollback | readReservation | budgetSnapshot | activeCount | isAtCapacity
  | maxConcurrency | acquire | release | getEstimate | record | countRoute
  | simulateLocalInference | simulateRemoteInference =>
    cases h
    exact Or.inr ⟨by simp, rfl⟩

/-- A step of the service that is not an event of the bus leaves it as it is; an event is a step of
the bus of the module. -/
theorem step_eventBus {p p' : Pool (service config classify)}
    {c : Choice (service config classify)} {b : Broadcast Message} (hb : b.WellFormed)
    (hrep : p.state.eventBus.Represents b) (h : p.Step c p') :
    (busEvent p c = none ∧ p'.state.eventBus.Represents b) ∨
      ∃ ev b', busEvent p c = some ev ∧ BroadcastStep b ev b' ∧
        p'.state.eventBus.Represents b' := by
  cases h.outcome with
  | spawned arg => exact Or.inl ⟨rfl, hrep⟩
  | @resumed pre t post e k o r s' hthreads hprogram hexec =>
    have hnext : (p.threads[pre.length]?).bind Thread.next = some e := by
      rw [hthreads, Pool.getElem?_middle, Option.bind_some, Thread.next_of_perform hprogram]
    rw [busEvent, hnext, Option.bind_some]
    rcases exec_eventBus hexec with ⟨payload, rfl, hbus⟩ | ⟨hother, hbus⟩
    · obtain ⟨b', hpublish, hrep'⟩ := hrep.publish hb (.payload payload)
      exact Or.inr ⟨_, b', rfl, .publish hpublish, hbus ▸ hrep'⟩
    · refine Or.inl ⟨?_, hbus ▸ hrep⟩
      split
      · exact absurd rfl (hother _)
      · rfl
  | @acted a s' hact =>
    cases a with
    | reap readings =>
      obtain ⟨-, hact⟩ := Option.ite_none_right_eq_some.mp hact
      cases hact
      exact Or.inl ⟨rfl, hrep⟩
    | connect =>
      cases hact
      rw [busEvent, hrep.subscriptions]
      exact Or.inr ⟨_, _, rfl, .subscribe b, hrep.subscribe⟩
    | consume client =>
      obtain ⟨⟨message, bus'⟩, hconsume, rfl⟩ := Option.map_eq_some_iff.mp hact
      obtain ⟨b', htake, hrep'⟩ := hrep.consume hconsume
      rw [busEvent, hconsume]
      exact Or.inr ⟨_, b', rfl, .consume htake, hrep'⟩
    | disconnect client =>
      cases hact
      exact Or.inr ⟨_, _, rfl, .unsubscribe b client, hrep.unsubscribe client⟩
    | mark marker =>
      cases hact
      obtain ⟨b', hpublish, hrep'⟩ := hrep.publish hb (.marker marker)
      exact Or.inr ⟨_, b', rfl, .publish hpublish, hrep'⟩

/-! ### Every effect can be answered -/

/-- **Every effect can be answered.** -/
theorem exec_total (s : AppState) (e : Effect) : ∃ o rs, s.exec e o = some rs := by
  cases e with
  | tryReserve requestId cost projectedLatencyMs =>
    obtain ⟨id, hid⟩ := Infinite.exists_notMem_finset
      (s.budgetManager.reservations.map Reservation.id).toFinset
    refine ⟨{ uuid := id, now := s.clock }, _, if_pos ⟨le_rfl, fun r hr heq => hid ?_⟩⟩
    exact List.mem_toFinset.mpr (List.mem_map.mpr ⟨r, hr, heq⟩)
  | commit | rollback | readReservation | budgetSnapshot | activeCount | isAtCapacity
  | maxConcurrency | acquire | release | getEstimate | record | countRoute | publish
  | simulateLocalInference | simulateRemoteInference => exact ⟨{}, _, rfl⟩

/-! ### Sample runs -/

/-- A request, for the runs that show a behaviour of the service. -/
def sampleRequest : InferenceRequest where
  requestId := "request"
  prompt := "prompt"
  latencyBudgetMs := 1000
  complexityTier := some .quality
  prompt_ne := by decide
  latencyBudgetMs_pos := by decide +kernel

/-- A result of a backend with the given cost and latency. -/
def sampleResult (actualCost actualLatencyMs : ℚ) : BackendResult where
  requestId := "request"
  actualCost := actualCost
  actualLatencyMs := actualLatencyMs
  result := "result"

/-- The thread `i` performs its next `n` effects, with one oracle. -/
def advance (i n : ℕ) (o : Oracle) : List (Choice (service config classify)) :=
  List.replicate n (.resume i o)

end InferenceRouter
