import InferenceRouter.Budget.Manager
import InferenceRouter.Foundation.Escrow
import InferenceRouter.Foundation.Run
import Mathlib.Algebra.Order.Monoid.Prod
import Mathlib.Tactic.Linarith

/-!
# The budget manager keeps a ledger

The manager stores its totals twice: as running counters, and through the `Reservation` objects
whose state is `pending`. This file shows that the two agree in every reachable state, by
presenting the manager as an escrow account (`Foundation.Escrow`) over pairs of an amount of money
and an amount of latency, keyed by the references to the objects.

Every method acts on the manager as one of two primitive moves: `granted` opens a reservation and
`closed` settles one, with plain subtractions in place of the clamps of the source. In a valid
manager no clamp changes a value, so the branches of the source coincide with these moves
(`BudgetStep.outcome`), and the moves act on the escrow as a grant and a settlement.

Nothing here assumes that ids are fresh: a reservation whose id is reused stays pending, and its
amounts stay reserved, although the dictionary no longer lists it.

## Main definitions

* `InferenceRouter.BudgetManager.escrow`: the manager as an escrow account.
* `InferenceRouter.BudgetManager.Valid`: the counters are those of the escrow.
* `InferenceRouter.BudgetManager.granted`, `InferenceRouter.BudgetManager.closed`,
  `InferenceRouter.BudgetManager.closeAll`: the moves.
* `InferenceRouter.BudgetOutcome`: what each event does.

## Main results

* `InferenceRouter.BudgetManager.escrow_granted`, `InferenceRouter.BudgetManager.escrow_closed`.
* `InferenceRouter.BudgetStep.outcome`: every step of a valid manager is as `BudgetOutcome` says.
* `InferenceRouter.BudgetManager.valid_of_run`: every reachable manager is valid.
-/

namespace InferenceRouter

open Foundation

namespace BudgetManager

/-! ### The objects -/

section Objects

variable (bm : BudgetManager) (ref ref' : Ref) (state : ReservationState)

theorem deref_eq_of_getElem? {bm : BudgetManager} {ref : Ref} {r : Reservation}
    (h : bm.reservations[ref]? = some r) : bm.deref ref = r := by
  rw [deref, List.getD_eq_getElem?_getD, h, Option.getD_some]

theorem getElem?_eq_deref {bm : BudgetManager} {ref : Ref} (h : ref < bm.reservations.length) :
    bm.reservations[ref]? = some (bm.deref ref) := by
  rw [deref, List.getD_eq_getElem?_getD, List.getElem?_eq_getElem h, Option.getD_some]

@[simp] theorem length_setState :
    (bm.setState ref state).reservations.length = bm.reservations.length := by
  simp [setState]

/-- Updating the state of one object: lookup. -/
theorem getElem?_setState : (bm.setState ref state).reservations[ref']? =
    (bm.reservations[ref']?).map fun r => if ref = ref' then { r with state := state } else r := by
  simp [setState, List.getElem?_modify]

theorem getElem?_setState_of_ne {bm : BudgetManager} {ref ref' : Ref} (h : ref ≠ ref') :
    (bm.setState ref state).reservations[ref']? = bm.reservations[ref']? := by
  rw [getElem?_setState]
  simp [h]

theorem deref_setState_of_ne {bm : BudgetManager} {ref ref' : Ref} (h : ref ≠ ref') :
    (bm.setState ref state).deref ref' = bm.deref ref' := by
  rw [deref, deref, List.getD_eq_getElem?_getD, List.getD_eq_getElem?_getD,
    getElem?_setState_of_ne state h]

/-- Only the state of an object is ever updated. -/
theorem deref_setState_eq : ∃ st, (bm.setState ref state).deref ref' =
    { bm.deref ref' with state := st } := by
  rw [deref, deref, List.getD_eq_getElem?_getD, List.getD_eq_getElem?_getD, getElem?_setState]
  cases bm.reservations[ref']? with
  | none => exact ⟨_, rfl⟩
  | some r =>
    by_cases h : ref = ref'
    · exact ⟨state, by simp [h]⟩
    · exact ⟨r.state, by simp [h]⟩

theorem state_deref_setState_self {bm : BudgetManager} {ref : Ref}
    (h : ref < bm.reservations.length) : ((bm.setState ref state).deref ref).state = state := by
  have hget : (bm.setState ref state).reservations[ref]? =
      some { bm.deref ref with state := state } := by
    rw [getElem?_setState, getElem?_eq_deref h]
    simp
  rw [deref_eq_of_getElem? hget]

end Objects

/-! ### The manager as an escrow account -/

/-- The manager as an escrow account of money and latency: a reference is pending while its
object is, and holds the reserved amounts. -/
def escrow (bm : BudgetManager) : Escrow Ref (ℚ × ℚ) where
  spent := (bm.cumulativeRemoteCost, bm.cumulativeActualLatencyMs)
  pending := (Finset.range bm.reservations.length).filter
    fun ref => (bm.deref ref).state = .pending
  amount ref := ((bm.deref ref).reservedCost, (bm.deref ref).reservedLatencyMs)

theorem mem_pending {bm : BudgetManager} {ref : Ref} :
    ref ∈ bm.escrow.pending ↔
      ref < bm.reservations.length ∧ (bm.deref ref).state = .pending := by
  simp [escrow]

/-- A manager whose counters are those of its escrow account, whose amounts are nonnegative and
whose dictionary lists pending objects under their own ids. -/
structure Valid (bm : BudgetManager) : Prop where
  held_eq : bm.escrow.held = (bm.reservedForExecution, bm.reservedLatencyMs)
  amount_nonneg : ∀ ref, 0 ≤ bm.escrow.amount ref
  active : ∀ id ref, bm.activeReservations.get? id = some ref →
    ref ∈ bm.escrow.pending ∧ (bm.deref ref).id = id

/-- The exposure of the account, in the manager's counters. -/
theorem Valid.exposure_eq {bm : BudgetManager} (hv : bm.Valid) :
    bm.escrow.exposure = (bm.cumulativeRemoteCost + bm.reservedForExecution,
      bm.cumulativeActualLatencyMs + bm.reservedLatencyMs) := by
  rw [Escrow.exposure, hv.held_eq]
  rfl

/-- The amounts of a pending object are covered by the reserved totals. -/
theorem Valid.amount_le {bm : BudgetManager} (hv : bm.Valid) {ref : Ref}
    (h : ref ∈ bm.escrow.pending) :
    (bm.deref ref).reservedCost ≤ bm.reservedForExecution ∧
      (bm.deref ref).reservedLatencyMs ≤ bm.reservedLatencyMs := by
  have hle := Escrow.amount_le_held (fun k _ => hv.amount_nonneg k) h
  rw [hv.held_eq] at hle
  exact Prod.mk_le_mk.mp hle

/-- The reserved totals are sums of nonnegative amounts. -/
theorem Valid.reserved_nonneg {bm : BudgetManager} (hv : bm.Valid) :
    0 ≤ bm.reservedForExecution ∧ 0 ≤ bm.reservedLatencyMs := by
  have hheld : 0 ≤ bm.escrow.held := Finset.sum_nonneg fun ref _ => hv.amount_nonneg ref
  rw [hv.held_eq] at hheld
  exact Prod.mk_le_mk.mp hheld

/-- **No clamp changes a value**: subtracting the amounts of a pending object from the reserved
totals leaves them nonnegative. -/
theorem Valid.max_sub_eq {bm : BudgetManager} (hv : bm.Valid) {ref : Ref}
    (h : ref ∈ bm.escrow.pending) :
    max 0 (bm.reservedForExecution - (bm.deref ref).reservedCost) =
        bm.reservedForExecution - (bm.deref ref).reservedCost ∧
      max 0 (bm.reservedLatencyMs - (bm.deref ref).reservedLatencyMs) =
        bm.reservedLatencyMs - (bm.deref ref).reservedLatencyMs :=
  ⟨max_eq_right (sub_nonneg.mpr (hv.amount_le h).1),
    max_eq_right (sub_nonneg.mpr (hv.amount_le h).2)⟩

theorem valid_new (config : BudgetConfig) : (new config).Valid where
  held_eq := rfl
  amount_nonneg _ := Prod.mk_le_mk.mpr ⟨le_rfl, le_rfl⟩
  active _ _ h := by simp [new] at h

/-! ### The moves -/

/-- The manager after a reservation of `cost` and `latencyMs` has been granted. -/
def granted (bm : BudgetManager) (cost latencyMs : ℚ) (uuid : String) (now : ℚ) :
    BudgetManager :=
  { bm with
    reservedForExecution := bm.reservedForExecution + cost
    reservedLatencyMs := bm.reservedLatencyMs + latencyMs
    activeReservations := bm.activeReservations.set uuid bm.reservations.length
    reservations := bm.reservations ++
      [{ reservedCost := cost
         reservedLatencyMs := latencyMs
         ttlSeconds := bm.config.reservationTtlSeconds
         id := uuid
         createdAt := now }] }

/-- The manager after the reservation `ref`, listed under `id`, has been settled with the given
state and charge. -/
def closed (bm : BudgetManager) (id : String) (ref : Ref) (state : ReservationState)
    (charge : ℚ × ℚ) : BudgetManager :=
  { bm.setState ref state with
    activeReservations := bm.activeReservations.pop id
    reservedForExecution := bm.reservedForExecution - (bm.deref ref).reservedCost
    reservedLatencyMs := bm.reservedLatencyMs - (bm.deref ref).reservedLatencyMs
    cumulativeRemoteCost := bm.cumulativeRemoteCost + charge.1
    cumulativeActualLatencyMs := bm.cumulativeActualLatencyMs + charge.2 }

/-- The manager after the listed reservations have been rolled back, one after the other. -/
def closeAll (bm : BudgetManager) (entries : List (String × Ref)) : BudgetManager :=
  entries.foldl (fun bm e => bm.closed e.1 e.2 .rolledBack 0) bm

section Moves

variable (bm : BudgetManager) (cost latencyMs now : ℚ) (uuid id : String) (ref ref' : Ref)
  (state : ReservationState) (charge : ℚ × ℚ)

@[simp] theorem length_granted : (bm.granted cost latencyMs uuid now).reservations.length =
    bm.reservations.length + 1 :=
  List.length_append

@[simp] theorem length_closed :
    (bm.closed id ref state charge).reservations.length = bm.reservations.length :=
  length_setState bm ref state

theorem deref_closed :
    (bm.closed id ref state charge).deref ref' = (bm.setState ref state).deref ref' := rfl

theorem getElem?_granted {bm : BudgetManager} {ref : Ref} (h : ref < bm.reservations.length) :
    (bm.granted cost latencyMs uuid now).reservations[ref]? = bm.reservations[ref]? :=
  List.getElem?_append_left h

theorem getElem?_granted_length :
    (bm.granted cost latencyMs uuid now).reservations[bm.reservations.length]? =
      some { reservedCost := cost
             reservedLatencyMs := latencyMs
             ttlSeconds := bm.config.reservationTtlSeconds
             id := uuid
             createdAt := now } :=
  List.getElem?_concat_length

theorem deref_granted_length :
    (bm.granted cost latencyMs uuid now).deref bm.reservations.length =
      { reservedCost := cost
        reservedLatencyMs := latencyMs
        ttlSeconds := bm.config.reservationTtlSeconds
        id := uuid
        createdAt := now } :=
  deref_eq_of_getElem? (getElem?_granted_length ..)

theorem deref_granted {bm : BudgetManager} {ref : Ref} (h : ref ≠ bm.reservations.length) :
    (bm.granted cost latencyMs uuid now).deref ref = bm.deref ref := by
  rw [deref, deref, List.getD_eq_getElem?_getD, List.getD_eq_getElem?_getD]
  rcases lt_or_gt_of_ne h with h | h
  · rw [getElem?_granted _ _ _ _ h]
  · rw [List.getElem?_eq_none h.le, List.getElem?_eq_none]
    rw [length_granted]
    exact h

/-- **Granting a reservation grants its amounts** in the escrow account. -/
theorem escrow_granted : (bm.granted cost latencyMs uuid now).escrow =
    bm.escrow.grant bm.reservations.length (cost, latencyMs) := by
  refine Escrow.ext rfl ?_ ?_
  · ext r
    rw [mem_pending, Escrow.pending_grant, Finset.mem_insert, mem_pending, length_granted]
    by_cases h : r = bm.reservations.length
    · subst h
      simp [deref_granted_length]
    · rw [deref_granted _ _ _ _ h, or_iff_right h]
      exact and_congr_left fun _ => ⟨fun hr => lt_of_le_of_ne (Nat.le_of_lt_succ hr) h,
        Nat.lt_succ_of_lt⟩
  · funext r
    rw [Escrow.amount_grant]
    split_ifs with h
    · subst h
      simp only [escrow, deref_granted_length]
    · simp only [escrow, deref_granted _ _ _ _ h]

/-- **Settling a reservation settles its amounts** in the escrow account. -/
theorem escrow_closed {bm : BudgetManager} {ref : Ref} (hstate : state ≠ .pending) :
    (bm.closed id ref state charge).escrow = bm.escrow.settle ref charge := by
  refine Escrow.ext rfl ?_ ?_
  · ext r
    rw [mem_pending, Escrow.pending_settle, Finset.mem_erase, mem_pending, length_closed,
      deref_closed]
    by_cases h : ref = r
    · subst h
      simp only [ne_eq, not_true_eq_false, false_and, iff_false, not_and]
      exact fun hlt => by rwa [state_deref_setState_self state hlt]
    · rw [deref_setState_of_ne state h]
      simp [Ne.symm h]
  · funext r
    obtain ⟨st, hst⟩ := deref_setState_eq bm ref r state
    rw [Escrow.amount_settle]
    simp only [escrow, deref_closed, hst]

theorem Valid.granted {bm : BudgetManager} (hv : bm.Valid) (hcost : 0 ≤ cost)
    (hlatency : 0 ≤ latencyMs) : (bm.granted cost latencyMs uuid now).Valid where
  held_eq := by
    have hfresh : bm.reservations.length ∉ bm.escrow.pending := by simp [mem_pending]
    rw [escrow_granted, Escrow.held_grant hfresh, hv.held_eq]
    rfl
  amount_nonneg r := by
    rw [escrow_granted, Escrow.amount_grant]
    split_ifs
    · exact Prod.mk_le_mk.mpr ⟨hcost, hlatency⟩
    · exact hv.amount_nonneg r
  active j r hj := by
    rw [escrow_granted, Escrow.pending_grant, Finset.mem_insert]
    have hset : (bm.activeReservations.set uuid bm.reservations.length).get? j = some r := hj
    rw [Dict.get?_set] at hset
    split_ifs at hset with h
    · obtain rfl := Option.some.inj hset
      refine ⟨Or.inl rfl, ?_⟩
      rw [deref_granted_length, h]
    · obtain ⟨hr, hid⟩ := hv.active j r hset
      refine ⟨Or.inr hr, ?_⟩
      rwa [deref_granted _ _ _ _ (mem_pending.mp hr).1.ne]

theorem Valid.closed {bm : BudgetManager} (hv : bm.Valid) {id : String} {ref : Ref}
    (hactive : bm.activeReservations.get? id = some ref) (hstate : state ≠ .pending) :
    (bm.closed id ref state charge).Valid where
  held_eq := by
    rw [escrow_closed _ _ _ hstate, Escrow.held_settle (hv.active id ref hactive).1, hv.held_eq]
    rfl
  amount_nonneg r := by
    rw [escrow_closed _ _ _ hstate]
    exact hv.amount_nonneg r
  active j r hj := by
    have hpop : (bm.activeReservations.pop id).get? j = some r := hj
    rw [Dict.get?_pop] at hpop
    split_ifs at hpop with h
    obtain ⟨hr, hid⟩ := hv.active j r hpop
    have hne : r ≠ ref := by
      rintro rfl
      exact h (hid.symm.trans (hv.active id r hactive).2)
    rw [escrow_closed _ _ _ hstate, Escrow.pending_settle, Finset.mem_erase, deref_closed,
      deref_setState_of_ne state hne.symm]
    exact ⟨⟨hne, hr⟩, hid⟩

end Moves

/-- In a valid manager, the clamped bookkeeping of a commit is `closed`. -/
theorem Valid.commit_eq {bm : BudgetManager} (hv : bm.Valid) {id : String} {ref : Ref}
    (hactive : bm.activeReservations.get? id = some ref) (state : ReservationState)
    (charge : ℚ × ℚ) :
    { bm.setState ref state with
      activeReservations := bm.activeReservations.pop id
      reservedForExecution := max 0 (bm.reservedForExecution - (bm.deref ref).reservedCost)
      reservedLatencyMs := max 0 (bm.reservedLatencyMs - (bm.deref ref).reservedLatencyMs)
      cumulativeRemoteCost := bm.cumulativeRemoteCost + charge.1
      cumulativeActualLatencyMs := bm.cumulativeActualLatencyMs + charge.2 } =
      bm.closed id ref state charge := by
  obtain ⟨hc, hl⟩ := hv.max_sub_eq (hv.active _ _ hactive).1
  rw [hc, hl, BudgetManager.closed]

/-- Settling without a charge leaves the cumulative counters. -/
theorem closed_zero (bm : BudgetManager) (id : String) (ref : Ref) (state : ReservationState) :
    bm.closed id ref state 0 =
      { bm.setState ref state with
        activeReservations := bm.activeReservations.pop id
        reservedForExecution := bm.reservedForExecution - (bm.deref ref).reservedCost
        reservedLatencyMs := bm.reservedLatencyMs - (bm.deref ref).reservedLatencyMs } := by
  simp only [closed, Prod.fst_zero, Prod.snd_zero, add_zero, setState]

/-- In a valid manager, the clamped bookkeeping of a rollback is `closed`. -/
theorem Valid.rollback_eq {bm : BudgetManager} (hv : bm.Valid) {id : String} {ref : Ref}
    (hactive : bm.activeReservations.get? id = some ref) :
    { bm.setState ref .rolledBack with
      activeReservations := bm.activeReservations.pop id
      reservedForExecution := max 0 (bm.reservedForExecution - (bm.deref ref).reservedCost)
      reservedLatencyMs := max 0 (bm.reservedLatencyMs - (bm.deref ref).reservedLatencyMs) } =
      bm.closed id ref .rolledBack 0 := by
  obtain ⟨hc, hl⟩ := hv.max_sub_eq (hv.active _ _ hactive).1
  rw [hc, hl, closed_zero]

/-! ### Rolling a list of reservations back -/

/-- **Induction along a list of rollbacks.** A property that a rollback of a listed reservation
preserves survives the rollback of a list of distinct ones. -/
theorem closeAll_induction {P : BudgetManager → Prop}
    (step : ∀ bm id ref, bm.Valid → bm.activeReservations.get? id = some ref → P bm →
      P (bm.closed id ref .rolledBack 0))
    {entries : List (String × Ref)} (hkeys : (entries.map Prod.fst).Nodup) {bm : BudgetManager}
    (hv : bm.Valid) (hactive : ∀ e ∈ entries, bm.activeReservations.get? e.1 = some e.2)
    (h : P bm) : (bm.closeAll entries).Valid ∧ P (bm.closeAll entries) := by
  induction entries generalizing bm with
  | nil => exact ⟨hv, h⟩
  | cons e entries ih =>
    rw [List.map_cons, List.nodup_cons] at hkeys
    have he := hactive e List.mem_cons_self
    refine ih hkeys.2 (hv.closed _ _ he (by simp)) (fun e' he' => ?_) (step bm _ _ hv he h)
    have hne : e'.1 ≠ e.1 := fun heq => hkeys.1 (heq ▸ List.mem_map_of_mem he')
    exact (Dict.get?_pop_of_ne _ hne).trans (hactive e' (List.mem_cons_of_mem _ he'))

/-- Looking a key up after a list of rollbacks. -/
theorem get?_closeAll (bm : BudgetManager) (entries : List (String × Ref)) (id : String) :
    (bm.closeAll entries).activeReservations.get? id =
      if id ∈ entries.map Prod.fst then none else bm.activeReservations.get? id := by
  induction entries generalizing bm with
  | nil => rfl
  | cons e entries ih =>
    have hpop : (bm.closed e.1 e.2 .rolledBack 0).activeReservations.get? id =
        if id = e.1 then none else bm.activeReservations.get? id :=
      Dict.get?_pop _ _ _
    refine (ih (bm.closed e.1 e.2 .rolledBack 0)).trans ?_
    rw [hpop]
    by_cases h₁ : id = e.1 <;> by_cases h₂ : id ∈ entries.map Prod.fst <;> simp [h₁, h₂]

/-- A list of rollbacks leaves the other objects as they are. -/
theorem getElem?_closeAll (bm : BudgetManager) {entries : List (String × Ref)} {ref : Ref}
    (h : ref ∉ entries.map Prod.snd) :
    (bm.closeAll entries).reservations[ref]? = bm.reservations[ref]? := by
  induction entries generalizing bm with
  | nil => rfl
  | cons e entries ih =>
    rw [List.map_cons, List.mem_cons, not_or] at h
    exact (ih (bm.closed e.1 e.2 .rolledBack 0) h.2).trans
      (getElem?_setState_of_ne _ (Ne.symm h.1))

/-- The entries that a scan of the reaper finds expired, the clock being read once at each entry
and once more at an expired one; `n` counts the readings. -/
def staleFrom (bm : BudgetManager) (clock : ℕ → ℚ) :
    List (String × Ref) → ℕ → List (String × Ref)
  | [], _ => []
  | e :: entries, n =>
    if (bm.deref e.2).IsExpired (clock n) then e :: bm.staleFrom clock entries (n + 2)
    else bm.staleFrom clock entries (n + 1)

/-- The entries that a scan of the reaper finds expired. -/
def stale (bm : BudgetManager) (clock : ℕ → ℚ) : List (String × Ref) :=
  bm.staleFrom clock bm.activeReservations.items 0

theorem staleFrom_sublist (bm : BudgetManager) (clock : ℕ → ℚ) (entries : List (String × Ref))
    (n : ℕ) : (bm.staleFrom clock entries n).Sublist entries := by
  induction entries generalizing n with
  | nil => exact List.Sublist.slnil
  | cons e entries ih =>
    rw [staleFrom]
    split_ifs
    · exact (ih _).cons_cons e
    · exact (ih _).cons e

/-- Settling a reservation makes no other one older. -/
theorem staleFrom_closed (bm : BudgetManager) (clock : ℕ → ℚ) (id : String) (ref : Ref)
    (state : ReservationState) (charge : ℚ × ℚ) (entries : List (String × Ref)) (n : ℕ) :
    (bm.closed id ref state charge).staleFrom clock entries n =
      bm.staleFrom clock entries n := by
  induction entries generalizing n with
  | nil => rfl
  | cons e entries ih =>
    obtain ⟨st, hst⟩ := deref_setState_eq bm ref e.2 state
    have hexp : ((bm.setState ref state).deref e.2).IsExpired (clock n) ↔
        (bm.deref e.2).IsExpired (clock n) := by
      rw [hst]
      rfl
    simp only [staleFrom, deref_closed, hexp, ih]

/-- The entries of a scan are active and distinct. -/
theorem stale_active {bm : BudgetManager} {clock : ℕ → ℚ} {e : String × Ref}
    (he : e ∈ bm.stale clock) : bm.activeReservations.get? e.1 = some e.2 :=
  Dict.get?_eq_some_iff.mpr ((bm.staleFrom_sublist clock _ 0).subset he)

theorem nodup_stale (bm : BudgetManager) (clock : ℕ → ℚ) :
    ((bm.stale clock).map Prod.fst).Nodup :=
  bm.activeReservations.nodup_keys.sublist ((bm.staleFrom_sublist clock _ 0).map _)

/-- **The reaper's loop**, over distinct active entries of a valid manager, rolls the expired
ones back and lists their ids. -/
theorem expireLoop_eq (clock : ℕ → ℚ) {entries : List (String × Ref)}
    (hkeys : (entries.map Prod.fst).Nodup) {bm : BudgetManager} (hv : bm.Valid)
    (hactive : ∀ e ∈ entries, bm.activeReservations.get? e.1 = some e.2) (n : ℕ)
    (ids : List String) :
    expireLoop clock entries n bm ids = (bm.closeAll (bm.staleFrom clock entries n),
      ids ++ (bm.staleFrom clock entries n).map Prod.fst) := by
  induction entries generalizing bm n ids with
  | nil => simp [expireLoop, staleFrom, closeAll]
  | cons e entries ih =>
    rw [List.map_cons, List.nodup_cons] at hkeys
    have he := hactive e List.mem_cons_self
    rw [expireLoop, staleFrom]
    split_ifs with hexp
    · have hrest : ∀ e' ∈ entries, (bm.closed e.1 e.2 .rolledBack 0).activeReservations.get?
          e'.1 = some e'.2 := by
        intro e' he'
        have hne : e'.1 ≠ e.1 := fun heq => hkeys.1 (heq ▸ List.mem_map_of_mem he')
        exact (Dict.get?_pop_of_ne _ hne).trans (hactive e' (List.mem_cons_of_mem _ he'))
      simp only [hv.rollback_eq he]
      rw [ih hkeys.2 (hv.closed _ _ he (by simp)) hrest, staleFrom_closed, List.append_assoc]
      rfl
    · exact ih hkeys.2 hv (fun e' he' => hactive e' (List.mem_cons_of_mem _ he')) _ _

/-- **One scan of the reaper** rolls the stale reservations back and returns their ids. -/
theorem Valid.expireStaleReservations_eq {bm : BudgetManager} (hv : bm.Valid) (clock : ℕ → ℚ) :
    bm.expireStaleReservations clock =
      (bm.closeAll (bm.stale clock), (bm.stale clock).map Prod.fst) :=
  expireLoop_eq clock bm.activeReservations.nodup_keys hv
    (fun _ he => Dict.get?_eq_some_iff.mpr he) 0 []

end BudgetManager

/-! ### What each event does -/

/-- The admission test of `tryReserve`. -/
def BudgetManager.Fits (bm : BudgetManager) (cost latencyMs : ℚ) : Prop :=
  cost - BudgetManager.admissionSlack ≤
      bm.config.maxRemoteBudget - bm.cumulativeRemoteCost - bm.reservedForExecution ∧
    latencyMs - BudgetManager.admissionSlack ≤
      bm.config.maxCumulativeLatencyMs - bm.cumulativeActualLatencyMs - bm.reservedLatencyMs

/-- The outcomes of the events of a valid manager, with the guards that lead to them. -/
inductive BudgetOutcome (bm : BudgetManager) : BudgetEvent → BudgetManager → Prop
  | malformed {requestId cost latencyMs uuid now message} :
      BudgetOutcome bm
        (.reserve requestId cost latencyMs uuid now (.error (.valueError message))) bm
  | refused {requestId cost latencyMs uuid now} (hfits : ¬ bm.Fits cost latencyMs) :
      BudgetOutcome bm (.reserve requestId cost latencyMs uuid now (.ok none)) bm
  | granted {requestId cost latencyMs uuid now} (hcost : 0 ≤ cost) (hlatency : 0 ≤ latencyMs)
      (hfits : bm.Fits cost latencyMs) :
      BudgetOutcome bm
        (.reserve requestId cost latencyMs uuid now (.ok (some bm.reservations.length)))
        (bm.granted cost latencyMs uuid now)
  | commitInactive {id actualCost actualLatencyMs}
      (hactive : bm.activeReservations.get? id = none) :
      BudgetOutcome bm
        (.commit id actualCost actualLatencyMs (.error (.invalidReservationState id))) bm
  | costOverrun {id actualCost actualLatencyMs ref}
      (hactive : bm.activeReservations.get? id = some ref)
      (hcost : (bm.deref ref).reservedCost + BudgetManager.commitSlack < actualCost) :
      BudgetOutcome bm
        (.commit id actualCost actualLatencyMs
          (.error (.actualCostExceededReservation actualCost (bm.deref ref).reservedCost)))
        (bm.closed id ref .rolledBack 0)
  | latencyBreach {id actualCost actualLatencyMs ref}
      (hactive : bm.activeReservations.get? id = some ref)
      (hcost : actualCost ≤ (bm.deref ref).reservedCost + BudgetManager.commitSlack)
      (hlatency : bm.config.maxCumulativeLatencyMs + BudgetManager.commitSlack <
        bm.cumulativeActualLatencyMs + actualLatencyMs) :
      BudgetOutcome bm
        (.commit id actualCost actualLatencyMs (.error
          (.actualLatencyExceededReservation actualLatencyMs bm.config.maxCumulativeLatencyMs)))
        (bm.closed id ref .rolledBack 0)
  | committed {id actualCost actualLatencyMs ref}
      (hactive : bm.activeReservations.get? id = some ref)
      (hcost : actualCost ≤ (bm.deref ref).reservedCost + BudgetManager.commitSlack)
      (hlatency : bm.cumulativeActualLatencyMs + actualLatencyMs ≤
        bm.config.maxCumulativeLatencyMs + BudgetManager.commitSlack) :
      BudgetOutcome bm (.commit id actualCost actualLatencyMs (.ok ()))
        (bm.closed id ref .committed (actualCost, actualLatencyMs))
  | rollbackInactive {id} (hactive : bm.activeReservations.get? id = none) :
      BudgetOutcome bm (.rollback id (.error (.invalidReservationState id))) bm
  | rolledBack {id ref} (hactive : bm.activeReservations.get? id = some ref) :
      BudgetOutcome bm (.rollback id (.ok ())) (bm.closed id ref .rolledBack 0)
  | reaped (clock) :
      BudgetOutcome bm (.reap clock ((bm.stale clock).map Prod.fst))
        (bm.closeAll (bm.stale clock))

namespace BudgetManager

variable {bm : BudgetManager}

/-- The outcome of `tryReserve`. -/
theorem tryReserve_outcome (requestId : String) (cost latencyMs : ℚ) (uuid : String) (now : ℚ) :
    BudgetOutcome bm
      (.reserve requestId cost latencyMs uuid now
        (bm.tryReserve requestId cost latencyMs uuid now).reply)
      (bm.tryReserve requestId cost latencyMs uuid now).manager := by
  dsimp only [tryReserve]
  split_ifs with hneg hzero hfits
  · exact .malformed
  · exact .malformed
  · refine .refused fun h => ?_
    rcases hfits with hfits | hfits
    · exact absurd h.1 (not_le.mpr hfits)
    · exact absurd h.2 (not_le.mpr hfits)
  · rw [not_or, not_lt, not_lt] at hneg hfits
    exact .granted hneg.1 hneg.2 hfits

/-- The outcome of `commit` in a valid manager. -/
theorem Valid.commit_outcome (hv : bm.Valid) (id : String) (actualCost actualLatencyMs : ℚ) :
    BudgetOutcome bm
      (.commit id actualCost actualLatencyMs (bm.commit id actualCost actualLatencyMs).reply)
      (bm.commit id actualCost actualLatencyMs).manager := by
  dsimp only [commit]
  split
  · exact .commitInactive ‹_›
  · rename_i ref hactive
    split_ifs with hcost hlatency
    · rw [← closed_zero]
      exact .costOverrun hactive hcost
    · rw [← closed_zero]
      exact .latencyBreach hactive (not_lt.mp hcost) hlatency
    · rw [hv.commit_eq hactive .committed (actualCost, actualLatencyMs)]
      exact .committed hactive (not_lt.mp hcost) (not_lt.mp hlatency)

/-- The outcome of `rollback` in a valid manager. -/
theorem Valid.rollback_outcome (hv : bm.Valid) (id : String) :
    BudgetOutcome bm (.rollback id (bm.rollback id).reply) (bm.rollback id).manager := by
  dsimp only [rollback]
  split
  · exact .rollbackInactive ‹_›
  · rename_i ref hactive
    rw [hv.rollback_eq hactive]
    exact .rolledBack hactive

end BudgetManager

open BudgetManager in
/-- **Every step of a valid manager** is one of the outcomes. -/
theorem BudgetStep.outcome {bm bm' : BudgetManager} {ev : BudgetEvent} (h : BudgetStep bm ev bm')
    (hv : bm.Valid) : BudgetOutcome bm ev bm' := by
  cases h with
  | reserve => exact tryReserve_outcome ..
  | commit => exact hv.commit_outcome ..
  | rollback => exact hv.rollback_outcome _
  | reap clock =>
    rw [hv.expireStaleReservations_eq]
    exact .reaped clock

/-- **Induction over the moves.** A property of valid managers that granting and settling
preserve survives every step. -/
theorem BudgetOutcome.preserves {bm bm' : BudgetManager} {ev : BudgetEvent}
    (h : BudgetOutcome bm ev bm') {P : BudgetManager → Prop}
    (grant : ∀ requestId cost latencyMs uuid now ref,
      ev = .reserve requestId cost latencyMs uuid now (.ok (some ref)) → P bm →
      P (bm.granted cost latencyMs uuid now))
    (close : ∀ bm id ref state charge, bm.Valid → bm.activeReservations.get? id = some ref →
      state ≠ .pending → P bm → P (bm.closed id ref state charge))
    (hv : bm.Valid) (hP : P bm) : P bm' := by
  cases h with
  | malformed | refused | commitInactive | rollbackInactive => exact hP
  | granted => exact grant _ _ _ _ _ _ rfl hP
  | costOverrun hactive | latencyBreach hactive | rolledBack hactive =>
    exact close _ _ _ _ _ hv hactive (by simp) hP
  | committed hactive => exact close _ _ _ _ _ hv hactive (by simp) hP
  | reaped clock =>
    exact (BudgetManager.closeAll_induction
      (fun bm id ref hv hactive => close bm id ref _ 0 hv hactive (by simp))
      (bm.nodup_stale clock) hv (fun e he => BudgetManager.stale_active he) hP).2

namespace BudgetManager

variable {bm bm' : BudgetManager} {ev : BudgetEvent}

/-- Validity is preserved by every step. -/
theorem Valid.step (hv : bm.Valid) (h : BudgetStep bm ev bm') : bm'.Valid := by
  have hout := h.outcome hv
  cases hout with
  | malformed | refused | commitInactive | rollbackInactive => exact hv
  | granted hcost hlatency => exact hv.granted _ _ _ _ hcost hlatency
  | costOverrun hactive | latencyBreach hactive | rolledBack hactive =>
    exact hv.closed _ _ hactive (by simp)
  | committed hactive => exact hv.closed _ _ hactive (by simp)
  | reaped clock =>
    exact (closeAll_induction (P := fun _ => True) (fun _ _ _ _ _ _ => trivial)
      (bm.nodup_stale clock) hv (fun e he => stale_active he) trivial).1

/-- **Every reachable manager is valid.** -/
theorem valid_of_run {config : BudgetConfig} {tr : List (BudgetManager × BudgetEvent)}
    (run : Run BudgetStep (new config) tr bm) : bm.Valid :=
  run.invariant_all (valid_new config) fun _ _ _ hv h => hv.step h

/-- The configuration never changes. -/
theorem config_of_run {config : BudgetConfig} {tr : List (BudgetManager × BudgetEvent)}
    (run : Run BudgetStep (new config) tr bm) : bm.config = config := by
  induction run with
  | start => rfl
  | step run h ih =>
    exact (h.outcome (valid_of_run run)).preserves (P := fun bm => bm.config = config)
      (fun _ _ _ _ _ _ _ h => h) (fun _ _ _ _ _ _ _ _ h => h) (valid_of_run run) ih

/-- A configuration, for the runs that show a behaviour of the manager. -/
def sampleConfig : BudgetConfig := ⟨10, 300, 45, by decide +kernel⟩

end BudgetManager

end InferenceRouter
