import InferenceRouter.Budget.Manager
import InferenceRouter.Foundation.Ring

/-!
# The lock trace

The ring of lock events in `app/observability.py`, and the methods of the budget manager with their
calls of `lock_event` where the source has them: at the start of a critical section and, by hand, on
every path out of it. The ring belongs to the module, so that all managers of the process write into
one. The readings of the clock `time.perf_counter` are a sequence, of which every call of
`lock_event` takes the next one.

## Main definitions

* `InferenceRouter.LockTrace`, with `LockTrace.lockEvent`, `LockTrace.getLockTrace` and
  `LockTrace.clearLockTrace`.
* `InferenceRouter.Traced.tryReserve`, `InferenceRouter.Traced.commit`,
  `InferenceRouter.Traced.rollback`: the methods as imperative programs.
* `InferenceRouter.TraceState.step`: any call of any manager, and a clear of the trace.
* `InferenceRouter.callsSince`, `InferenceRouter.entriesSince`: the calls since the last clear that
  passed the check of their arguments, and the entries that they make.

## Main results

* `InferenceRouter.Traced.run_tryReserve`, `InferenceRouter.Traced.run_commit`,
  `InferenceRouter.Traced.run_rollback`: the programs are the methods of `BudgetManager`, and every
  path emits a pair of events or none.
* `InferenceRouter.lock_trace_pairs`.
-/

namespace InferenceRouter

open Foundation

/-! ### The ring -/

/-- An entry of `_lock_trace`: the time stamp in microseconds, and the event. -/
structure TraceEntry where
  tsUs : ℚ
  event : LockEvent
  deriving DecidableEq

/-- The capacity of the ring, `_MAX_TRACE_ENTRIES`. -/
def maxTraceEntries : ℕ := 4096

/-- The list `_lock_trace`, and the number of readings of the clock so far. -/
structure LockTrace where
  entries : List TraceEntry
  readings : ℕ

namespace LockTrace

variable (clock : ℕ → ℚ) (trace : LockTrace)

/-- The ring when the module is imported. -/
def new : LockTrace := ⟨[], 0⟩

/-- `observability.lock_event`. -/
def lockEvent (requestId : String) (phase : LockPhase) (action : LockAction) : LockTrace :=
  let tsUs := clock trace.readings * 1000000
  let entries :=
    if maxTraceEntries ≤ trace.entries.length then trace.entries.tail else trace.entries
  { entries := entries ++ [⟨tsUs, ⟨requestId, phase, action⟩⟩]
    readings := trace.readings + 1 }

/-- `observability.get_lock_trace`. The sort is stable. -/
def getLockTrace : List TraceEntry := trace.entries.mergeSort fun e e' => decide (e.tsUs ≤ e'.tsUs)

/-- `observability.clear_lock_trace`. -/
def clearLockTrace : LockTrace := { trace with entries := [] }

/-- The calls of `lock_event` for a list of events. -/
def emit (events : List LockEvent) : LockTrace :=
  events.foldl (fun trace e => trace.lockEvent clock e.requestId e.phase e.action) trace

end LockTrace

/-! ### The methods with their lock events -/

/-- A method of a manager that may raise, and that writes into the lock trace. -/
abbrev Traced (α : Type) := ExceptT BudgetError (StateM (BudgetManager × LockTrace)) α

namespace Traced

variable (clock : ℕ → ℚ)

/-- The manager. -/
def self : Traced BudgetManager := do return (← get).1

/-- Update the manager. -/
def modifySelf (f : BudgetManager → BudgetManager) : Traced Unit := modify fun s => (f s.1, s.2)

/-- A call of `observability.lock_event`. -/
def lockEvent (requestId : String) (phase : LockPhase) (action : LockAction) : Traced Unit :=
  modify fun s => (s.1, s.2.lockEvent clock requestId phase action)

/-- `BudgetManager.try_reserve`. -/
def tryReserve (requestId : String) (cost projectedLatencyMs : ℚ) (uuid : String) (now : ℚ) :
    Traced (Option Ref) := do
  if cost < 0 ∨ projectedLatencyMs < 0 then
    throw (.valueError "cost and projected_latency_ms must be non-negative")
  else if cost = 0 ∧ projectedLatencyMs = 0 then
    throw (.valueError "At least one of cost or projected_latency_ms must be > 0")
  else
    lockEvent clock requestId .reserve .acquire
    let bm ← self
    let liquid := bm.config.maxRemoteBudget - bm.cumulativeRemoteCost - bm.reservedForExecution
    let latencyRemaining := bm.config.maxCumulativeLatencyMs - bm.cumulativeActualLatencyMs -
      bm.reservedLatencyMs
    if liquid < cost - BudgetManager.admissionSlack ∨
        latencyRemaining < projectedLatencyMs - BudgetManager.admissionSlack then
      lockEvent clock requestId .reserve .release
      return none
    else
      modifySelf fun bm => { bm with
        reservedForExecution := bm.reservedForExecution + cost
        reservedLatencyMs := bm.reservedLatencyMs + projectedLatencyMs }
      let reservation : Reservation :=
        { reservedCost := cost
          reservedLatencyMs := projectedLatencyMs
          ttlSeconds := bm.config.reservationTtlSeconds
          id := uuid
          createdAt := now }
      let ref := bm.reservations.length
      modifySelf fun bm => { bm with reservations := bm.reservations ++ [reservation] }
      modifySelf fun bm => { bm with
        activeReservations := bm.activeReservations.set reservation.id ref }
      lockEvent clock requestId .reserve .release
      return some ref

/-- `BudgetManager._commit`. -/
def commit (reservationId : String) (actualCost actualLatencyMs : ℚ) : Traced Unit := do
  lockEvent clock reservationId .settle .acquire
  let bm ← self
  match bm.activeReservations.get? reservationId with
  | none =>
    lockEvent clock reservationId .settle .release
    throw (.invalidReservationState reservationId)
  | some ref =>
    let reservation := bm.deref ref
    if actualCost > reservation.reservedCost + BudgetManager.commitSlack then
      modifySelf fun bm => bm.setState ref .rolledBack
      modifySelf fun bm => { bm with activeReservations := bm.activeReservations.pop reservationId }
      modifySelf fun bm => { bm with
        reservedForExecution := bm.reservedForExecution - reservation.reservedCost
        reservedLatencyMs := bm.reservedLatencyMs - reservation.reservedLatencyMs }
      lockEvent clock reservationId .settle .release
      throw (.actualCostExceededReservation actualCost reservation.reservedCost)
    else if bm.cumulativeActualLatencyMs + actualLatencyMs >
        bm.config.maxCumulativeLatencyMs + BudgetManager.commitSlack then
      modifySelf fun bm => bm.setState ref .rolledBack
      modifySelf fun bm => { bm with activeReservations := bm.activeReservations.pop reservationId }
      modifySelf fun bm => { bm with
        reservedForExecution := bm.reservedForExecution - reservation.reservedCost
        reservedLatencyMs := bm.reservedLatencyMs - reservation.reservedLatencyMs }
      lockEvent clock reservationId .settle .release
      throw (.actualLatencyExceededReservation actualLatencyMs bm.config.maxCumulativeLatencyMs)
    else
      modifySelf fun bm => bm.setState ref .committed
      modifySelf fun bm => { bm with activeReservations := bm.activeReservations.pop reservationId }
      modifySelf fun bm => { bm with
        reservedForExecution := max 0 (bm.reservedForExecution - reservation.reservedCost)
        reservedLatencyMs := max 0 (bm.reservedLatencyMs - reservation.reservedLatencyMs)
        cumulativeRemoteCost := bm.cumulativeRemoteCost + actualCost
        cumulativeActualLatencyMs := bm.cumulativeActualLatencyMs + actualLatencyMs }
      lockEvent clock reservationId .settle .release

/-- `BudgetManager._rollback`. -/
def rollback (reservationId : String) : Traced Unit := do
  lockEvent clock reservationId .settle .acquire
  let bm ← self
  match bm.activeReservations.get? reservationId with
  | none =>
    lockEvent clock reservationId .settle .release
    throw (.invalidReservationState reservationId)
  | some ref =>
    let reservation := bm.deref ref
    modifySelf fun bm => { bm with activeReservations := bm.activeReservations.pop reservationId }
    modifySelf fun bm => bm.setState ref .rolledBack
    modifySelf fun bm => { bm with
      reservedForExecution := max 0 (bm.reservedForExecution - reservation.reservedCost)
      reservedLatencyMs := max 0 (bm.reservedLatencyMs - reservation.reservedLatencyMs) }
    lockEvent clock reservationId .settle .release

section Run

variable {α : Type} (bm : BudgetManager) (trace : LockTrace)

theorem run_self (next : BudgetManager → Traced α) :
    (self >>= next).run (bm, trace) = (next bm).run (bm, trace) := rfl

theorem run_lockEvent (requestId : String) (phase : LockPhase) (action : LockAction)
    (next : Unit → Traced α) :
    (lockEvent clock requestId phase action >>= next).run (bm, trace) =
      (next ()).run (bm, trace.lockEvent clock requestId phase action) := rfl

/-- `try_reserve` is the method of the manager, and emits its lock events. -/
theorem run_tryReserve (requestId : String) (cost projectedLatencyMs : ℚ) (uuid : String)
    (now : ℚ) :
    (tryReserve clock requestId cost projectedLatencyMs uuid now).run (bm, trace) =
      let call := bm.tryReserve requestId cost projectedLatencyMs uuid now
      (call.reply, call.manager, trace.emit clock call.events) := by
  rw [tryReserve, BudgetManager.tryReserve]
  by_cases hnegative : cost < 0 ∨ projectedLatencyMs < 0
  · rw [if_pos hnegative, if_pos hnegative]
    rfl
  by_cases hzero : cost = 0 ∧ projectedLatencyMs = 0
  · rw [if_neg hnegative, if_pos hzero, if_neg hnegative, if_pos hzero]
    rfl
  rw [if_neg hnegative, if_neg hzero, if_neg hnegative, if_neg hzero, run_lockEvent, run_self]
  dsimp only
  split_ifs <;> rfl

/-- `_commit` is the method of the manager, and emits its lock events. -/
theorem run_commit (reservationId : String) (actualCost actualLatencyMs : ℚ) :
    (commit clock reservationId actualCost actualLatencyMs).run (bm, trace) =
      let call := bm.commit reservationId actualCost actualLatencyMs
      (call.reply, call.manager, trace.emit clock call.events) := by
  rw [commit, BudgetManager.commit, run_lockEvent, run_self]
  cases bm.activeReservations.get? reservationId with
  | none => rfl
  | some ref =>
    dsimp only
    split_ifs <;> rfl

/-- `_rollback` is the method of the manager, and emits its lock events. -/
theorem run_rollback (reservationId : String) :
    (rollback clock reservationId).run (bm, trace) =
      let call := bm.rollback reservationId
      (call.reply, call.manager, trace.emit clock call.events) := by
  rw [rollback, BudgetManager.rollback, run_lockEvent, run_self]
  cases bm.activeReservations.get? reservationId with
  | none => rfl
  | some ref => rfl

end Run

end Traced

/-! ### Any sequence of calls -/

/-- The managers of the process, in order of creation, and the lock trace of the module. -/
structure TraceState where
  managers : List BudgetManager
  lockTrace : LockTrace

/-- What happens: a manager is created, a method of the manager `i` is called, its reaper scans, or
the trace is cleared. -/
inductive TraceOp
  | create (config : BudgetConfig)
  | tryReserve (i : ℕ) (requestId : String) (cost projectedLatencyMs : ℚ) (uuid : String) (now : ℚ)
  | commit (i : ℕ) (reservationId : String) (actualCost actualLatencyMs : ℚ)
  | rollback (i : ℕ) (reservationId : String)
  | budgetSnapshot (i : ℕ)
  | expireStaleReservations (i : ℕ) (times : ℕ → ℚ)
  | clearLockTrace

namespace Traced

/-- `BudgetManager.budget_snapshot`. -/
def budgetSnapshot : Traced BudgetSnapshot := do return (← self).budgetSnapshot

/-- `BudgetManager._expire_stale_reservations`, with the readings of `time.monotonic`. -/
def expireStaleReservations (times : ℕ → ℚ) : Traced (List String) := do
  let (bm, expiredIds) := (← self).expireStaleReservations times
  modifySelf fun _ => bm
  return expiredIds

end Traced

namespace TraceState

/-- A call of a method of the manager `i`. -/
def call {α : Type} (s : TraceState) (i : ℕ) (method : Traced α) : Option TraceState :=
  s.managers[i]?.map fun bm =>
    let (_, bm', lockTrace) := method.run (bm, s.lockTrace)
    { managers := s.managers.set i bm', lockTrace := lockTrace }

/-- One step. There is none if the manager does not exist. -/
def step (clock : ℕ → ℚ) (s : TraceState) : TraceOp → Option TraceState
  | .create config => some { s with managers := s.managers ++ [.new config] }
  | .tryReserve i requestId cost projectedLatencyMs uuid now =>
    s.call i (Traced.tryReserve clock requestId cost projectedLatencyMs uuid now)
  | .commit i reservationId actualCost actualLatencyMs =>
    s.call i (Traced.commit clock reservationId actualCost actualLatencyMs)
  | .rollback i reservationId => s.call i (Traced.rollback clock reservationId)
  | .budgetSnapshot i => s.call i Traced.budgetSnapshot
  | .expireStaleReservations i times => s.call i (Traced.expireStaleReservations times)
  | .clearLockTrace => some { s with lockTrace := s.lockTrace.clearLockTrace }

end TraceState

/-- The check of the arguments of `try_reserve`. -/
def ArgumentsPass (cost projectedLatencyMs : ℚ) : Prop :=
  ¬ (cost < 0 ∨ projectedLatencyMs < 0) ∧ ¬ (cost = 0 ∧ projectedLatencyMs = 0)

instance (cost projectedLatencyMs : ℚ) : Decidable (ArgumentsPass cost projectedLatencyMs) :=
  inferInstanceAs (Decidable (_ ∧ _))

/-- The critical section that a call enters, with the id and the phase of its lock events. The
methods that settle a reservation check no argument, and the other ones emit no events. -/
def TraceOp.section? : TraceOp → Option (String × LockPhase)
  | .tryReserve _ requestId cost projectedLatencyMs _ _ =>
    if ArgumentsPass cost projectedLatencyMs then some (requestId, .reserve) else none
  | .commit _ reservationId _ _ => some (reservationId, .settle)
  | .rollback _ reservationId => some (reservationId, .settle)
  | .create _ | .budgetSnapshot _ | .expireStaleReservations _ _ | .clearLockTrace => none

/-- Whether the trace is cleared. -/
def TraceOp.clears : TraceOp → Bool
  | .clearLockTrace => true
  | .create _ | .tryReserve .. | .commit .. | .rollback .. | .budgetSnapshot _
  | .expireStaleReservations .. => false

/-- The calls since the last clear of the trace that passed the check of their arguments, the first
one first, with the id and the phase of each. -/
def callsSince : List (TraceState × TraceOp) → List (String × LockPhase)
  | [] => []
  | (_, op) :: tr => if op.clears then [] else callsSince tr ++ op.section?.toList

/-- The entries that a call makes: one for the acquisition of the lock, and one for its release. -/
def LockTrace.pair (clock : ℕ → ℚ) (trace : LockTrace) (call : String × LockPhase) :
    List TraceEntry :=
  [⟨clock trace.readings * 1000000, ⟨call.1, call.2, .acquire⟩⟩,
    ⟨clock (trace.readings + 1) * 1000000, ⟨call.1, call.2, .release⟩⟩]

/-- The entries that these calls make, in the order of their emission. -/
def entriesSince (clock : ℕ → ℚ) : List (TraceState × TraceOp) → List TraceEntry
  | [] => []
  | (s, op) :: tr =>
    if op.clears then [] else
      entriesSince clock tr ++ op.section?.toList.flatMap (s.lockTrace.pair clock)

/-! ### What a step does to the ring -/

section Step

variable {clock : ℕ → ℚ} {s s' : TraceState} {op : TraceOp}
  {tr : List (TraceState × TraceOp)}

/-- The lock events of `try_reserve`. -/
theorem events_tryReserve (bm : BudgetManager) (requestId : String)
    (cost projectedLatencyMs : ℚ) (uuid : String) (now : ℚ) :
    (bm.tryReserve requestId cost projectedLatencyMs uuid now).events =
      if ArgumentsPass cost projectedLatencyMs then lockEvents requestId .reserve else [] := by
  rw [BudgetManager.tryReserve]
  by_cases hnegative : cost < 0 ∨ projectedLatencyMs < 0
  · rw [if_pos hnegative, if_neg fun h => h.1 hnegative]
  by_cases hzero : cost = 0 ∧ projectedLatencyMs = 0
  · rw [if_neg hnegative, if_pos hzero, if_neg fun h => h.2 hzero]
  have hpass : ArgumentsPass cost projectedLatencyMs := ⟨hnegative, hzero⟩
  rw [if_neg hnegative, if_neg hzero, if_pos hpass]
  dsimp only
  split_ifs <;> rfl

/-- The lock events of `_commit`, on every path. -/
theorem events_commit (bm : BudgetManager) (reservationId : String)
    (actualCost actualLatencyMs : ℚ) :
    (bm.commit reservationId actualCost actualLatencyMs).events =
      lockEvents reservationId .settle := by
  rw [BudgetManager.commit]
  cases bm.activeReservations.get? reservationId with
  | none => rfl
  | some ref =>
    dsimp only
    split_ifs <;> rfl

/-- The lock events of `_rollback`, on every path. -/
theorem events_rollback (bm : BudgetManager) (reservationId : String) :
    (bm.rollback reservationId).events = lockEvents reservationId .settle := by
  rw [BudgetManager.rollback]
  cases bm.activeReservations.get? reservationId <;> rfl

/-- What a call of a method does to the ring, if the method only emits events. -/
theorem lockTrace_of_call {α : Type} (i : ℕ) (method : Traced α) {events : List LockEvent}
    (h : s.call i method = some s')
    (hmethod : ∀ bm, (method.run (bm, s.lockTrace)).2.2 = s.lockTrace.emit clock events) :
    s'.lockTrace = s.lockTrace.emit clock events := by
  obtain ⟨bm, -, rfl⟩ := Option.map_eq_some_iff.mp h
  exact hmethod bm

/-- **The lock events of a step**: a clear empties the ring, and every other step emits the events
of the critical section that it enters, if it does. -/
theorem lockTrace_step (h : s.step clock op = some s') :
    s'.lockTrace = if op.clears then s.lockTrace.clearLockTrace else
      s.lockTrace.emit clock (op.section?.toList.flatMap fun call => lockEvents call.1 call.2) := by
  cases op with
  | create config =>
    cases h
    rfl
  | tryReserve i requestId cost projectedLatencyMs uuid now =>
    refine lockTrace_of_call i
      (Traced.tryReserve clock requestId cost projectedLatencyMs uuid now) h fun bm => ?_
    rw [Traced.run_tryReserve, TraceOp.section?]
    dsimp only
    rw [events_tryReserve]
    split_ifs <;> rfl
  | commit i reservationId actualCost actualLatencyMs =>
    refine lockTrace_of_call i
      (Traced.commit clock reservationId actualCost actualLatencyMs) h fun bm => ?_
    rw [Traced.run_commit]
    dsimp only
    rw [events_commit]
    rfl
  | rollback i reservationId =>
    refine lockTrace_of_call i (Traced.rollback clock reservationId) h fun bm => ?_
    rw [Traced.run_rollback]
    dsimp only
    rw [events_rollback]
    rfl
  | budgetSnapshot i => exact lockTrace_of_call i Traced.budgetSnapshot h fun bm => rfl
  | expireStaleReservations i times =>
    exact lockTrace_of_call i (Traced.expireStaleReservations times) h fun bm => rfl
  | clearLockTrace =>
    cases h
    rfl

/-- A call puts its pair of entries into the ring. -/
theorem emit_lockEvents (trace : LockTrace) (call : String × LockPhase) :
    trace.emit clock (lockEvents call.1 call.2) =
      { entries := (trace.pair clock call).foldl (ringPush maxTraceEntries) trace.entries
        readings := trace.readings + 2 } := rfl

end Step

/-! ### Runs -/

/-- The steps of the process. -/
def TraceStep (clock : ℕ → ℚ) (s : TraceState) (op : TraceOp) (s' : TraceState) : Prop :=
  s.step clock op = some s'

/-- The process when the modules are imported. -/
def TraceState.new : TraceState := ⟨[], .new⟩

section Run

variable {clock : ℕ → ℚ} {s : TraceState} {tr : List (TraceState × TraceOp)}

/-- **The ring holds the latest entries** of the calls since the last clear. -/
theorem entries_of_run (run : Run (TraceStep clock) .new tr s) :
    s.lockTrace.entries = (entriesSince clock tr).rtake maxTraceEntries := by
  have hpos : 0 < maxTraceEntries := by decide
  induction run with
  | start => exact (List.rtake_nil _).symm
  | @step tr s op s' run h ih =>
    rw [lockTrace_step h, entriesSince]
    by_cases hclears : op.clears = true
    · rw [if_pos hclears, if_pos hclears]
      exact (List.rtake_nil _).symm
    · rw [if_neg hclears, if_neg hclears]
      cases op.section? with
      | none =>
        rw [Option.toList_none, List.flatMap_nil, List.flatMap_nil, List.append_nil]
        exact ih
      | some call =>
        rw [Option.toList_some, List.flatMap_singleton, List.flatMap_singleton,
          emit_lockEvents, ih]
        exact foldl_ringPush_rtake hpos _ _

/-- The entries are made in the order of their time stamps, and before now. -/
theorem pairwise_entriesSince (hclock : Monotone clock) (run : Run (TraceStep clock) .new tr s) :
    (entriesSince clock tr).Pairwise (fun e e' => e.tsUs ≤ e'.tsUs) ∧
      ∀ e ∈ entriesSince clock tr, e.tsUs ≤ clock s.lockTrace.readings * 1000000 := by
  induction run with
  | start => exact ⟨.nil, fun e he => by cases he⟩
  | @step tr s op s' run h ih =>
    obtain ⟨hsorted, hle⟩ := ih
    rw [lockTrace_step h, entriesSince]
    by_cases hclears : op.clears = true
    · rw [if_pos hclears]
      exact ⟨.nil, fun e he => by cases he⟩
    rw [if_neg hclears, if_neg hclears]
    cases op.section? with
    | none =>
      rw [Option.toList_none, List.flatMap_nil, List.flatMap_nil, List.append_nil]
      exact ⟨hsorted, hle⟩
    | some call =>
      have hstamp {m n : ℕ} (h : m ≤ n) : clock m * 1000000 ≤ clock n * 1000000 :=
        mul_le_mul_of_nonneg_right (hclock h) (by norm_num)
      rw [Option.toList_some, List.flatMap_singleton, List.flatMap_singleton, emit_lockEvents]
      refine ⟨List.pairwise_append.mpr ⟨hsorted, ?_, ?_⟩, ?_⟩
      · rw [LockTrace.pair, List.pairwise_pair]
        exact hstamp (Nat.le_succ _)
      · intro e he e' he'
        refine (hle e he).trans ?_
        rcases List.mem_pair.mp he' with rfl | rfl
        · exact le_rfl
        · exact hstamp (Nat.le_succ _)
      · intro e he
        rcases List.mem_append.mp he with he | he
        · exact (hle e he).trans (hstamp (Nat.le_add_right _ 2))
        · rcases List.mem_pair.mp he with rfl | rfl
          · exact hstamp (Nat.le_add_right _ 2)
          · exact hstamp (Nat.le_succ _)

/-- The events of the entries are those of the calls. -/
theorem events_entriesSince (clock : ℕ → ℚ) (tr : List (TraceState × TraceOp)) :
    (entriesSince clock tr).map TraceEntry.event =
      (callsSince tr).flatMap fun call => lockEvents call.1 call.2 := by
  induction tr with
  | nil => rfl
  | cons t tr ih =>
    obtain ⟨s, op⟩ := t
    rw [entriesSince, callsSince]
    split_ifs
    · rfl
    · rw [List.map_append, List.flatMap_append, ih]
      cases op.section? <;> rfl

/-- **The lock trace is well formed.** After any sequence of calls on any managers, `get_lock_trace`
returns the latest entries, in the order in which they were made, of the `n` calls since the last
clear that passed the check of their arguments: `2 n` of them, or as many as the ring has room for.
They are the pairs of events, an acquisition and a release with one id and one phase, of the latest
of these calls. -/
theorem lock_trace_pairs (hclock : Monotone clock) (run : Run (TraceStep clock) .new tr s) :
    s.lockTrace.getLockTrace = (entriesSince clock tr).rtake maxTraceEntries ∧
      (entriesSince clock tr).map TraceEntry.event =
        (callsSince tr).flatMap (fun call => lockEvents call.1 call.2) ∧
      s.lockTrace.getLockTrace.length = min (2 * (callsSince tr).length) maxTraceEntries ∧
      s.lockTrace.getLockTrace.map TraceEntry.event =
        ((callsSince tr).rtake (maxTraceEntries / 2)).flatMap
          fun call => lockEvents call.1 call.2 := by
  have hevents := events_entriesSince clock tr
  have hpair (call : String × LockPhase) : (lockEvents call.1 call.2).length = 2 := rfl
  have hlatest : s.lockTrace.getLockTrace = (entriesSince clock tr).rtake maxTraceEntries := by
    have hsorted := (pairwise_entriesSince hclock run).1.sublist
      (List.drop_sublist ((entriesSince clock tr).length - maxTraceEntries) _)
    rw [LockTrace.getLockTrace, entries_of_run run]
    exact List.mergeSort_of_pairwise (hsorted.imp decide_eq_true)
  have hmap : s.lockTrace.getLockTrace.map TraceEntry.event =
      ((callsSince tr).rtake (maxTraceEntries / 2)).flatMap
        fun call => lockEvents call.1 call.2 := by
    -- the ring is cut between two pairs
    have heven : 2 * (maxTraceEntries / 2) = maxTraceEntries := by decide
    rw [← rtake_flatMap_blocks _ _ hpair, ← hevents, hlatest, heven, List.rtake, List.rtake,
      List.map_drop, List.length_map]
  refine ⟨hlatest, hevents, ?_, hmap⟩
  have hlength := congrArg List.length hevents
  rw [List.length_map, length_flatMap_blocks _ hpair] at hlength
  rw [hlatest, length_rtake, hlength, min_comm]

/-- A call before the last clear, one that is refused for its arguments, one that is granted, and a
commit of a reservation that does not exist. -/
theorem lock_trace_pairs_of_four : ∃ tr s, Run (TraceStep fun n => n) .new tr s ∧
    s.lockTrace.getLockTrace.map TraceEntry.event =
      [⟨"b", .reserve, .acquire⟩, ⟨"b", .reserve, .release⟩,
        ⟨"c", .settle, .acquire⟩, ⟨"c", .settle, .release⟩] := by
  have imported : Run (TraceStep fun n => n) .new [] .new := .start
  have run := imported.step (e := TraceOp.create ⟨10, 300, 45, by decide +kernel⟩) rfl
    |>.step (e := TraceOp.rollback 0 "a") rfl |>.step (e := TraceOp.clearLockTrace) rfl
    |>.step (e := TraceOp.tryReserve 0 "b" (-1) 0 "u" 0) rfl
    |>.step (e := TraceOp.tryReserve 0 "b" 1 100 "u" 0) rfl
    |>.step (e := TraceOp.commit 0 "c" 1 100) rfl
  refine ⟨_, _, run, (lock_trace_pairs Nat.mono_cast run).2.2.2.trans ?_⟩
  decide +kernel

end Run

end InferenceRouter
