import InferenceRouter.Budget.Conservation
import Mathlib.Order.Monotone.Defs

/-!
# The reaper removes exactly the stale reservations

A scan of the reaper reads the clock anew at every reservation that the manager lists, and once
more for the log line of an expired one. If the clock does not run backwards during the scan, what
it removes lies between the reservations that are stale at its first reading and those that are
stale at its last; and what it removes determines all that it changes.

## Main definitions

* `InferenceRouter.BudgetManager.readings`: the number of readings of the clock during a scan.

## Main results

* `InferenceRouter.BudgetManager.items_closeAll`, `InferenceRouter.BudgetManager.totals_closeAll`,
  `InferenceRouter.BudgetManager.getElem?_closeAll_of_mem`: what a list of rollbacks leaves.
* `InferenceRouter.reaper_removes_stale`.
-/

namespace InferenceRouter

open Foundation

namespace BudgetManager

/-! ### A list of rollbacks -/

section CloseAll

variable (bm : BudgetManager) (entries : List (String × Ref))

/-- The dictionary after a list of rollbacks: the other entries, in their order. -/
theorem items_closeAll : (bm.closeAll entries).activeReservations.items =
    bm.activeReservations.items.filter fun e => e.1 ∉ entries.map Prod.fst := by
  induction entries generalizing bm with
  | nil => simp [closeAll]
  | cons e entries ih =>
    refine (ih (bm.closed e.1 e.2 .rolledBack 0)).trans ?_
    change (bm.activeReservations.items.filter _).filter _ = _
    rw [List.filter_filter]
    refine List.filter_congr fun x _ => ?_
    by_cases hx : x.1 = e.1 <;> simp [hx]

/-- The counters after a list of rollbacks. -/
theorem totals_closeAll :
    (bm.closeAll entries).reservedForExecution =
        bm.reservedForExecution - (entries.map fun e => (bm.escrow.amount e.2).1).sum ∧
      (bm.closeAll entries).reservedLatencyMs =
        bm.reservedLatencyMs - (entries.map fun e => (bm.escrow.amount e.2).2).sum ∧
      (bm.closeAll entries).escrow.spent = bm.escrow.spent := by
  induction entries generalizing bm with
  | nil => exact ⟨(sub_zero _).symm, (sub_zero _).symm, rfl⟩
  | cons e entries ih =>
    obtain ⟨hcost, hlatency, hspent⟩ := ih (bm.closed e.1 e.2 .rolledBack 0)
    rw [escrow_closed _ _ _ (by simp)] at hcost hlatency hspent
    rw [List.map_cons, List.map_cons, List.sum_cons, List.sum_cons, ← sub_sub, ← sub_sub]
    exact ⟨hcost, hlatency, hspent.trans (add_zero _)⟩

/-- The objects that a list of rollbacks settles. -/
theorem getElem?_closeAll_of_mem {ref : Ref} (hmem : ref ∈ entries.map Prod.snd)
    (hlt : ref < bm.reservations.length) :
    (bm.closeAll entries).reservations[ref]? =
      some { bm.deref ref with state := .rolledBack } := by
  induction entries generalizing bm with
  | nil => simp at hmem
  | cons e entries ih =>
    have hclosed : ref < (bm.closed e.1 e.2 .rolledBack 0).reservations.length := by
      rwa [length_closed]
    obtain ⟨st, hst⟩ := deref_setState_eq bm e.2 ref .rolledBack
    by_cases hlater : ref ∈ entries.map Prod.snd
    · refine (ih (bm.closed e.1 e.2 .rolledBack 0) hlater hclosed).trans ?_
      rw [deref_closed, hst]
    · obtain rfl : ref = e.2 := by simpa [hlater] using hmem
      refine (getElem?_closeAll (bm.closed e.1 e.2 .rolledBack 0) hlater).trans ?_
      rw [getElem?_eq_deref hclosed, deref_closed, hst]
      have hstate := state_deref_setState_self .rolledBack hlt
      rw [hst] at hstate
      rw [← hstate]

end CloseAll

/-! ### What a scan finds stale -/

/-- A reservation that has outlived its time to live stays so. -/
theorem expired_mono {r : Reservation} {now now' : ℚ} (h : r.IsExpired now)
    (hle : now ≤ now') : r.IsExpired now' :=
  lt_of_lt_of_le h (sub_le_sub_right hle _)

section Readings

variable {bm : BudgetManager} {clock : ℕ → ℚ} {entries : List (String × Ref)}

/-- An entry that a scan finds expired is expired at one of its readings. -/
theorem exists_reading_of_mem {e : String × Ref} {n : ℕ}
    (he : e ∈ bm.staleFrom clock entries n) :
    ∃ k, n ≤ k ∧ k < n + entries.length + (bm.staleFrom clock entries n).length ∧
      (bm.deref e.2).IsExpired (clock k) := by
  induction entries generalizing n with
  | nil => cases he
  | cons e' entries ih =>
    rw [staleFrom] at he ⊢
    rw [List.length_cons]
    split_ifs at he ⊢ with hexp
    · rw [List.length_cons]
      rcases List.mem_cons.mp he with rfl | he
      · exact ⟨n, le_rfl, by omega, hexp⟩
      · obtain ⟨k, hle, hlt, hk⟩ := ih he
        exact ⟨k, by omega, by omega, hk⟩
    · obtain ⟨k, hle, hlt, hk⟩ := ih he
      exact ⟨k, by omega, by omega, hk⟩

/-- An entry that a scan does not find expired is not expired at one of its readings. -/
theorem exists_reading_of_notMem {e : String × Ref} {n : ℕ} (hmem : e ∈ entries)
    (he : e ∉ bm.staleFrom clock entries n) :
    ∃ k, n ≤ k ∧ k < n + entries.length + (bm.staleFrom clock entries n).length ∧
      ¬ (bm.deref e.2).IsExpired (clock k) := by
  induction entries generalizing n with
  | nil => cases hmem
  | cons e' entries ih =>
    rw [staleFrom] at he ⊢
    rw [List.length_cons]
    split_ifs at he ⊢ with hexp
    · rw [List.length_cons]
      rw [List.mem_cons, not_or] at he
      obtain ⟨k, hle, hlt, hk⟩ := ih ((List.mem_cons.mp hmem).resolve_left he.1) he.2
      exact ⟨k, by omega, by omega, hk⟩
    · rcases List.mem_cons.mp hmem with rfl | hmem
      · exact ⟨n, le_rfl, by omega, hexp⟩
      · obtain ⟨k, hle, hlt, hk⟩ := ih hmem he
        exact ⟨k, by omega, by omega, hk⟩

end Readings

/-- The number of readings of the clock during a scan: one at each entry, and one more for the log
line of an expired one. -/
def readings (bm : BudgetManager) (clock : ℕ → ℚ) : ℕ :=
  bm.activeReservations.length + (bm.expireStaleReservations clock).2.length

theorem Valid.readings_eq {bm : BudgetManager} (hv : bm.Valid) (clock : ℕ → ℚ) :
    bm.readings clock = bm.activeReservations.items.length + (bm.stale clock).length := by
  rw [readings, hv.expireStaleReservations_eq, List.length_map]
  rfl

end BudgetManager

open BudgetManager

variable {config : BudgetConfig} {tr : List (BudgetManager × BudgetEvent)} {bm : BudgetManager}

/-- **The reaper removes exactly the stale reservations.** In every reachable state, a scan during
which the clock does not run backwards removes every listed reservation that has outlived its time
to live at the first reading, and none that has not at the last. Every removed reservation becomes
rolled back and its id is returned once, in the order of the dictionary; the reserved totals drop
by the sums over the removed reservations, and everything else stays as it is. -/
theorem reaper_removes_stale (run : Run BudgetStep (new config) tr bm) {clock : ℕ → ℚ}
    (hclock : MonotoneOn clock (Set.Iio (bm.readings clock))) :
    ∃ removed : List (String × Ref), removed.Sublist bm.activeReservations.items ∧
      (∀ e ∈ bm.activeReservations.items,
        (bm.deref e.2).IsExpired (clock 0) → e ∈ removed) ∧
      (∀ e ∈ removed, (bm.deref e.2).IsExpired (clock (bm.readings clock - 1))) ∧
      (bm.expireStaleReservations clock).2 = removed.map Prod.fst ∧
      (removed.map Prod.fst).Nodup ∧
      (∀ e ∈ removed, (bm.deref e.2).id = e.1 ∧ (bm.deref e.2).state = .pending ∧
        (bm.expireStaleReservations clock).1.reservations[e.2]? =
          some { bm.deref e.2 with state := .rolledBack }) ∧
      (bm.expireStaleReservations clock).1.activeReservations.items =
        bm.activeReservations.items.filter (fun e => e.1 ∉ removed.map Prod.fst) ∧
      (∀ ref, ref ∉ removed.map Prod.snd →
        (bm.expireStaleReservations clock).1.reservations[ref]? = bm.reservations[ref]?) ∧
      (bm.expireStaleReservations clock).1.reservedForExecution =
        bm.reservedForExecution - (removed.map fun e => (bm.deref e.2).reservedCost).sum ∧
      (bm.expireStaleReservations clock).1.reservedLatencyMs =
        bm.reservedLatencyMs - (removed.map fun e => (bm.deref e.2).reservedLatencyMs).sum ∧
      (bm.expireStaleReservations clock).1.cumulativeRemoteCost = bm.cumulativeRemoteCost ∧
      (bm.expireStaleReservations clock).1.cumulativeActualLatencyMs =
        bm.cumulativeActualLatencyMs := by
  have hv := valid_of_run run
  have hreadings := hv.readings_eq clock
  rw [hv.expireStaleReservations_eq]
  have hactive : ∀ e ∈ bm.stale clock, e.2 ∈ bm.escrow.pending ∧ (bm.deref e.2).id = e.1 :=
    fun e he => hv.active _ _ (stale_active he)
  obtain ⟨hcost, hlatency, hspent⟩ := totals_closeAll bm (bm.stale clock)
  rw [Prod.ext_iff] at hspent
  refine ⟨bm.stale clock, staleFrom_sublist _ _ _ _, fun e he hexp => ?_, fun e he => ?_, rfl,
    bm.nodup_stale clock, fun e he => ?_, items_closeAll _ _, fun ref => getElem?_closeAll bm,
    hcost, hlatency, hspent.1, hspent.2⟩
  · by_contra hspared
    obtain ⟨k, -, hk, hnot⟩ := exists_reading_of_notMem he hspared
    have hlt : k < bm.readings clock := by
      rw [hreadings]
      exact (Nat.zero_add _ ▸ hk :)
    exact hnot (expired_mono hexp (hclock (Set.mem_Iio.mpr (by omega)) hlt (Nat.zero_le k)))
  · obtain ⟨k, -, hk, hexp⟩ := exists_reading_of_mem he
    have hlt : k < bm.readings clock := by
      rw [hreadings]
      exact (Nat.zero_add _ ▸ hk :)
    exact expired_mono hexp (hclock hlt (Set.mem_Iio.mpr (by omega)) (by omega))
  · obtain ⟨hpending, hid⟩ := hactive e he
    obtain ⟨hlt, hstate⟩ := mem_pending.mp hpending
    exact ⟨hid, hstate, getElem?_closeAll_of_mem bm _ (List.mem_map_of_mem he) hlt⟩

/-- A scan that finds the first of two reservations expired, and removes it alone. -/
theorem reaper_removes_first_of_two : ∃ tr bm, Run BudgetStep (new sampleConfig) tr bm ∧
    bm.activeReservations.items = [("a", 0), ("b", 1)] ∧
    ∃ removed : List (String × Ref),
      (bm.expireStaleReservations fun _ => 50).2 = removed.map Prod.fst ∧
      ("a", 0) ∈ removed ∧ ("b", 1) ∉ removed := by
  let run := Run.start |>.step (BudgetStep.reserve (new sampleConfig) "req-a" 5 100 "a" 0)
    |>.step (BudgetStep.reserve _ "req-b" 5 100 "b" 10)
  refine ⟨_, _, run, by decide +kernel, ?_⟩
  have hclock : ∀ bm : BudgetManager,
      MonotoneOn (fun _ => (50 : ℚ)) (Set.Iio (bm.readings fun _ => 50)) :=
    fun _ _ _ _ _ _ => le_rfl
  obtain ⟨removed, -, hfirst, hlast, hids, -⟩ := reaper_removes_stale run (hclock _)
  refine ⟨removed, hids, hfirst _ (by decide +kernel) (by decide +kernel), fun hmem => ?_⟩
  exact absurd (hlast _ hmem) (by decide +kernel)

end InferenceRouter
