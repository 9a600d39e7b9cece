import InferenceRouter.Foundation.Dict
import InferenceRouter.Models

/-!
# The budget manager

The two-phase reservation protocol of `app/budget_manager.py`: `tryReserve` sets an amount of
money and of latency aside and returns a `Reservation` object, `commit` and `rollback` settle it,
and the reaper rolls reservations back that have outlived their time to live. Amounts are exact
rationals; every method is one atomic call, since no lock body of the source awaits.

`Reservation` objects are shared: the manager's dictionary and the request that reserved hold
references to one object, whose `_state` the manager updates. The manager here carries the list
`reservations` of all objects it has created, and a reference is a position in it. An object is
never removed from the list, also when the dictionary no longer holds it.

The values that the environment chooses are arguments: the id that `uuid4` returns and the
readings of the clock `time.monotonic`.

## Main definitions

* `InferenceRouter.Reservation`, `InferenceRouter.BudgetManager`.
* `InferenceRouter.BudgetManager.tryReserve`, `InferenceRouter.BudgetManager.commit`,
  `InferenceRouter.BudgetManager.rollback`, `InferenceRouter.BudgetManager.budgetSnapshot`,
  `InferenceRouter.BudgetManager.expireStaleReservations`.
-/

namespace InferenceRouter

open Foundation

/-! ### Errors -/

/-- The exceptions of the manager's methods, with the data in their texts. -/
inductive BudgetError
  | valueError (message : String)
  | invalidReservationState (reservationId : String)
  | actualCostExceededReservation (actualCost reservedCost : ℚ)
  | actualLatencyExceededReservation (actualLatencyMs maxCumulativeLatencyMs : ℚ)
  deriving DecidableEq

/-- The text of an exception. -/
def BudgetError.message : BudgetError → String
  | valueError message => message
  | invalidReservationState reservationId =>
      "Reservation '" ++ reservationId ++ "' is not active. " ++
        "It may have already been settled or expired."
  | actualCostExceededReservation actualCost reservedCost =>
      "actual_cost (" ++ renderFixed 6 actualCost ++ ") > reserved (" ++
        renderFixed 6 reservedCost ++ ")"
  | actualLatencyExceededReservation actualLatencyMs maxCumulativeLatencyMs =>
      "Committing " ++ renderFixed 1 actualLatencyMs ++ "ms would breach global " ++
        "cap of " ++ renderFixed 1 maxCumulativeLatencyMs ++ "ms"

/-! ### Reservations -/

/-- The values of `Reservation._state`. -/
inductive ReservationState
  | pending
  | committed
  | rolledBack
  deriving DecidableEq, Inhabited

/-- A `Reservation` object. -/
structure Reservation where
  reservedCost : ℚ
  reservedLatencyMs : ℚ
  ttlSeconds : ℚ
  id : String
  createdAt : ℚ
  state : ReservationState := .pending
  deriving Inhabited

/-- `Reservation.is_expired` at the clock reading `now`. -/
def Reservation.IsExpired (reservation : Reservation) (now : ℚ) : Prop :=
  reservation.ttlSeconds < now - reservation.createdAt

instance (reservation : Reservation) (now : ℚ) : Decidable (reservation.IsExpired now) :=
  inferInstanceAs (Decidable (_ < _))

/-- A reference to a `Reservation` object: its position among the objects created. -/
abbrev Ref := ℕ

/-! ### The lock trace -/

/-- The phases of `observability.lock_event`. -/
inductive LockPhase
  | reserve
  | settle
  deriving DecidableEq

/-- The actions of `observability.lock_event`. -/
inductive LockAction
  | acquire
  | release
  deriving DecidableEq

/-- A call of `observability.lock_event`, without its time stamp. -/
structure LockEvent where
  requestId : String
  phase : LockPhase
  action : LockAction
  deriving DecidableEq

/-- The two events of a critical section that is entered and left. -/
def lockEvents (requestId : String) (phase : LockPhase) : List LockEvent :=
  [⟨requestId, phase, .acquire⟩, ⟨requestId, phase, .release⟩]

/-! ### The manager -/

/-- The configuration of a manager, immutable after `__init__`, which refuses a budget that is
not positive. -/
structure BudgetConfig where
  maxRemoteBudget : ℚ
  maxCumulativeLatencyMs : ℚ
  reservationTtlSeconds : ℚ
  maxRemoteBudget_pos : 0 < maxRemoteBudget

/-- A `BudgetManager`, with all the `Reservation` objects it has created. -/
@[ext]
structure BudgetManager where
  config : BudgetConfig
  cumulativeRemoteCost : ℚ
  reservedForExecution : ℚ
  cumulativeActualLatencyMs : ℚ
  reservedLatencyMs : ℚ
  /-- The dictionary `_active_reservations`, from ids to objects. -/
  activeReservations : Dict String Ref
  /-- The `Reservation` objects, in order of creation. -/
  reservations : List Reservation

/-- The result of a method: what it returns or raises, the manager it leaves and the lock events
it emits. -/
structure Call (α : Type) where
  reply : Except BudgetError α
  manager : BudgetManager
  events : List LockEvent

/-- A consistent view of the counters, as `budget_snapshot` returns it. -/
structure BudgetSnapshot where
  cumulativeCost : ℚ
  reserved : ℚ
  remaining : ℚ
  cumulativeLatencyMs : ℚ
  reservedLatencyMs : ℚ

namespace BudgetManager

/-- `BudgetManager.__init__` with an accepted configuration. -/
def new (config : BudgetConfig) : BudgetManager where
  config := config
  cumulativeRemoteCost := 0
  reservedForExecution := 0
  cumulativeActualLatencyMs := 0
  reservedLatencyMs := 0
  activeReservations := .empty
  reservations := []

/-- `BudgetManager.__init__`: the budget must be positive. -/
def init (maxRemoteBudget maxCumulativeLatencyMs reservationTtlSeconds : ℚ) :
    Except BudgetError BudgetManager :=
  if h : maxRemoteBudget ≤ 0 then
    .error (.valueError "max_remote_budget must be strictly positive")
  else
    .ok (new ⟨maxRemoteBudget, maxCumulativeLatencyMs, reservationTtlSeconds, not_le.mp h⟩)

variable (bm : BudgetManager)

/-- The object a reference points to. -/
def deref (ref : Ref) : Reservation := bm.reservations.getD ref default

/-- The assignment `reservation._state = state`. -/
def setState (ref : Ref) (state : ReservationState) : BudgetManager :=
  { bm with reservations := bm.reservations.modify ref fun r => { r with state := state } }

/-- The slack of the admission test, `1e-12`. -/
def admissionSlack : ℚ := 1 / 10 ^ 12

/-- The slack of the guards of `commit`, `1e-9`. -/
def commitSlack : ℚ := 1 / 10 ^ 9

/-- `BudgetManager.try_reserve`. -/
def tryReserve (requestId : String) (cost projectedLatencyMs : ℚ) (uuid : String) (now : ℚ) :
    Call (Option Ref) :=
  if cost < 0 ∨ projectedLatencyMs < 0 then
    ⟨.error (.valueError "cost and projected_latency_ms must be non-negative"), bm, []⟩
  else if cost = 0 ∧ projectedLatencyMs = 0 then
    ⟨.error (.valueError "At least one of cost or projected_latency_ms must be > 0"), bm, []⟩
  else
    let liquid := bm.config.maxRemoteBudget - bm.cumulativeRemoteCost - bm.reservedForExecution
    let latencyRemaining := bm.config.maxCumulativeLatencyMs - bm.cumulativeActualLatencyMs -
      bm.reservedLatencyMs
    if liquid < cost - admissionSlack ∨
        latencyRemaining < projectedLatencyMs - admissionSlack then
      ⟨.ok none, bm, lockEvents requestId .reserve⟩
    else
      let reservation : Reservation :=
        { reservedCost := cost
          reservedLatencyMs := projectedLatencyMs
          ttlSeconds := bm.config.reservationTtlSeconds
          id := uuid
          createdAt := now }
      let ref := bm.reservations.length
      ⟨.ok (some ref),
        { bm with
          reservedForExecution := bm.reservedForExecution + cost
          reservedLatencyMs := bm.reservedLatencyMs + projectedLatencyMs
          activeReservations := bm.activeReservations.set reservation.id ref
          reservations := bm.reservations ++ [reservation] },
        lockEvents requestId .reserve⟩

/-- `BudgetManager._commit`. The two rejecting branches settle the reservation and raise. -/
def commit (reservationId : String) (actualCost actualLatencyMs : ℚ) : Call Unit :=
  match bm.activeReservations.get? reservationId with
  | none =>
    ⟨.error (.invalidReservationState reservationId), bm, lockEvents reservationId .settle⟩
  | some ref =>
    let reservation := bm.deref ref
    if actualCost > reservation.reservedCost + commitSlack then
      ⟨.error (.actualCostExceededReservation actualCost reservation.reservedCost),
        { bm.setState ref .rolledBack with
          activeReservations := bm.activeReservations.pop reservationId
          reservedForExecution := bm.reservedForExecution - reservation.reservedCost
          reservedLatencyMs := bm.reservedLatencyMs - reservation.reservedLatencyMs },
        lockEvents reservationId .settle⟩
    else if bm.cumulativeActualLatencyMs + actualLatencyMs >
        bm.config.maxCumulativeLatencyMs + commitSlack then
      ⟨.error (.actualLatencyExceededReservation actualLatencyMs
          bm.config.maxCumulativeLatencyMs),
        { bm.setState ref .rolledBack with
          activeReservations := bm.activeReservations.pop reservationId
          reservedForExecution := bm.reservedForExecution - reservation.reservedCost
          reservedLatencyMs := bm.reservedLatencyMs - reservation.reservedLatencyMs },
        lockEvents reservationId .settle⟩
    else
      ⟨.ok (),
        { bm.setState ref .committed with
          activeReservations := bm.activeReservations.pop reservationId
          reservedForExecution := max 0 (bm.reservedForExecution - reservation.reservedCost)
          reservedLatencyMs := max 0 (bm.reservedLatencyMs - reservation.reservedLatencyMs)
          cumulativeRemoteCost := bm.cumulativeRemoteCost + actualCost
          cumulativeActualLatencyMs := bm.cumulativeActualLatencyMs + actualLatencyMs },
        lockEvents reservationId .settle⟩

/-- `BudgetManager._rollback`. -/
def rollback (reservationId : String) : Call Unit :=
  match bm.activeReservations.get? reservationId with
  | none =>
    ⟨.error (.invalidReservationState reservationId), bm, lockEvents reservationId .settle⟩
  | some ref =>
    let reservation := bm.deref ref
    ⟨.ok (),
      { bm.setState ref .rolledBack with
        activeReservations := bm.activeReservations.pop reservationId
        reservedForExecution := max 0 (bm.reservedForExecution - reservation.reservedCost)
        reservedLatencyMs := max 0 (bm.reservedLatencyMs - reservation.reservedLatencyMs) },
      lockEvents reservationId .settle⟩

/-- `BudgetManager.budget_snapshot`. -/
def budgetSnapshot : BudgetSnapshot where
  cumulativeCost := bm.cumulativeRemoteCost
  reserved := bm.reservedForExecution
  remaining :=
    max 0 (bm.config.maxRemoteBudget - bm.cumulativeRemoteCost - bm.reservedForExecution)
  cumulativeLatencyMs := bm.cumulativeActualLatencyMs
  reservedLatencyMs := bm.reservedLatencyMs

/-- The loop of `_expire_stale_reservations` over the entries listed at its start. The clock is
read anew at every entry, and once more for the log line of an expired one; `n` counts the
readings and `expiredIds` collects the ids. -/
def expireLoop (clock : ℕ → ℚ) :
    List (String × Ref) → ℕ → BudgetManager → List String → BudgetManager × List String
  | [], _, bm, expiredIds => (bm, expiredIds)
  | (resId, ref) :: entries, n, bm, expiredIds =>
    let reservation := bm.deref ref
    if reservation.IsExpired (clock n) then
      expireLoop clock entries (n + 2)
        { bm.setState ref .rolledBack with
          activeReservations := bm.activeReservations.pop resId
          reservedForExecution := max 0 (bm.reservedForExecution - reservation.reservedCost)
          reservedLatencyMs := max 0 (bm.reservedLatencyMs - reservation.reservedLatencyMs) }
        (expiredIds ++ [resId])
    else
      expireLoop clock entries (n + 1) bm expiredIds

/-- `BudgetManager._expire_stale_reservations`, one scan of the reaper, with the readings of the
clock in order: the manager it leaves and the ids it returns. -/
def expireStaleReservations (clock : ℕ → ℚ) : BudgetManager × List String :=
  expireLoop clock bm.activeReservations.items 0 bm []

end BudgetManager

/-! ### The manager as a step relation -/

/-- A call of one of the manager's methods, or a scan of its reaper, with what it returned or
raised. -/
inductive BudgetEvent
  | reserve (requestId : String) (cost projectedLatencyMs : ℚ) (uuid : String) (now : ℚ)
      (reply : Except BudgetError (Option Ref))
  | commit (reservationId : String) (actualCost actualLatencyMs : ℚ)
      (reply : Except BudgetError Unit)
  | rollback (reservationId : String) (reply : Except BudgetError Unit)
  | reap (clock : ℕ → ℚ) (expiredIds : List String)

/-- The manager's steps: any call, with any arguments, and any scan, at any time. -/
inductive BudgetStep : BudgetManager → BudgetEvent → BudgetManager → Prop
  | reserve (bm requestId cost projectedLatencyMs uuid now) :
      BudgetStep bm
        (.reserve requestId cost projectedLatencyMs uuid now
          (bm.tryReserve requestId cost projectedLatencyMs uuid now).reply)
        (bm.tryReserve requestId cost projectedLatencyMs uuid now).manager
  | commit (bm reservationId actualCost actualLatencyMs) :
      BudgetStep bm
        (.commit reservationId actualCost actualLatencyMs
          (bm.commit reservationId actualCost actualLatencyMs).reply)
        (bm.commit reservationId actualCost actualLatencyMs).manager
  | rollback (bm reservationId) :
      BudgetStep bm (.rollback reservationId (bm.rollback reservationId).reply)
        (bm.rollback reservationId).manager
  | reap (bm clock) :
      BudgetStep bm (.reap clock (bm.expireStaleReservations clock).2)
        (bm.expireStaleReservations clock).1

end InferenceRouter
