import InferenceRouter.Budget.Cap
import InferenceRouter.Foundation.Quantum

/-!
# The cap in multiples of a quantum

The slacks of the budget manager make up for the rounding of floating-point numbers, and let a
commit charge a little more than was reserved for it. If sums are exact, as they are here, and all
prices are multiples of a quantum that is larger than the slacks, nothing is ever let through: every
accepted commit charges at most its reservation, and the money spent and reserved stays within the
cap itself.

## Main definitions

* `InferenceRouter.InQuanta`: the prices in an event of the manager are multiples of a quantum.

## Main results

* `InferenceRouter.BudgetManager.exposure_le_cap`: the cap holds without slack.
-/

namespace InferenceRouter

open Foundation BudgetManager

/-- The prices that an event reserves and charges are multiples of the quantum. -/
def InQuanta (quantum : ℚ) : BudgetEvent → Prop
  | .reserve _ cost _ _ _ (.ok (some _)) => cost ∈ AddSubgroup.zmultiples quantum
  | .commit _ actualCost _ (.ok _) => actualCost ∈ AddSubgroup.zmultiples quantum
  | .reserve _ _ _ _ _ (.ok none) | .reserve _ _ _ _ _ (.error _) | .commit _ _ _ (.error _)
  | .rollback .. | .reap .. => True

namespace BudgetManager

variable {config : BudgetConfig} {tr : List (BudgetManager × BudgetEvent)} {bm : BudgetManager}
  {quantum : ℚ}

/-- A settled reservation keeps the amounts of the account in a subgroup. -/
theorem within_closed {G : AddSubgroup ℚ} (hbm : (bm.account .money).Within G) (id : String)
    (ref : Ref) {state : ReservationState} (hstate : state ≠ .pending) {charge : ℚ × ℚ}
    (hcharge : charge.1 ∈ G) : ((bm.closed id ref state charge).account .money).Within G := by
  rw [account_closed _ _ _ _ hstate]
  exact hbm.settle hcharge

theorem within_rolledBack {G : AddSubgroup ℚ} (hbm : (bm.account .money).Within G) (id : String)
    (ref : Ref) : ((bm.closed id ref .rolledBack 0).account .money).Within G :=
  within_closed hbm id ref (by simp) G.zero_mem

/-- The money in the account comes in multiples of the quantum. -/
theorem within_of_run (run : Run BudgetStep (new config) tr bm)
    (hquanta : ∀ t ∈ tr, InQuanta quantum t.2) :
    (bm.account .money).Within (AddSubgroup.zmultiples quantum) := by
  induction run with
  | start => exact ⟨AddSubgroup.zero_mem _, by simp [account, mem_pending, new]⟩
  | @step tr bm ev bm' run h ih =>
    obtain ⟨hev, hquanta⟩ := List.forall_mem_cons.mp hquanta
    have hv := valid_of_run run
    have hbm := ih hquanta
    cases h.outcome hv with
    | malformed | refused | commitInactive | rollbackInactive => exact hbm
    | granted =>
      rw [account_granted]
      exact hbm.grant hev
    | costOverrun | latencyBreach | rolledBack => exact within_rolledBack hbm _ _
    | committed => exact within_closed hbm _ _ (by simp) hev
    | reaped clock =>
      exact (closeAll_induction
        (P := fun bm => (bm.account .money).Within (AddSubgroup.zmultiples quantum))
        (fun _ id ref _ _ hP => within_rolledBack hP id ref) (bm.nodup_stale clock) hv
        (fun e he => stale_active he) hbm).2

/-- Every accepted commit charges at most the money that it has reserved. -/
theorem chargesWithin_of_quanta (run : Run BudgetStep (new config) tr bm)
    (hslack : commitSlack < quantum) (hquanta : ∀ t ∈ tr, InQuanta quantum t.2) :
    ∀ t ∈ tr, ChargesWithin .money t.1 t.2 := by
  have hpos : 0 < quantum := lt_trans (by norm_num [commitSlack]) hslack
  induction run with
  | start => simp
  | @step tr bm ev bm' run h ih =>
    obtain ⟨hev, hrest⟩ := List.forall_mem_cons.mp hquanta
    refine List.forall_mem_cons.mpr ⟨?_, ih hrest⟩
    have hv := valid_of_run run
    cases h.outcome hv with
    | malformed | refused | granted | commitInactive | costOverrun | latencyBreach
    | rollbackInactive | rolledBack | reaped => trivial
    | @committed id c l ref hactive hcost =>
      intro ref' hactive'
      obtain rfl := Option.some.inj (hactive.symm.trans hactive')
      have hreserved := (within_of_run run hrest).amount ref (hv.active id ref hactive).1
      exact le_of_le_add_of_mem_zmultiples hev hreserved hpos hslack hcost

/-- **The cap holds without slack** in exact arithmetic, if all prices are multiples of a quantum
that is larger than the slacks of the manager. -/
theorem exposure_le_cap (run : Run BudgetStep (new config) tr bm)
    (hslack : commitSlack < quantum) (hquanta : ∀ t ∈ tr, InQuanta quantum t.2)
    (hcap : config.maxRemoteBudget ∈ AddSubgroup.zmultiples quantum) :
    bm.cumulativeRemoteCost + bm.reservedForExecution ≤ config.maxRemoteBudget := by
  have hpos : 0 < quantum := lt_trans (by norm_num [commitSlack]) hslack
  have hadmission : admissionSlack < quantum :=
    lt_trans (by norm_num [commitSlack, admissionSlack]) hslack
  have hexposure := exposure_le_excess .money run (Or.inl config.maxRemoteBudget_pos.le)
  rw [excessSinceGrant_eq_zero (chargesWithin_of_quanta run hslack hquanta), add_zero] at hexposure
  have hmem := (within_of_run run hquanta).exposure
  rw [← (valid_of_run run).exposure_money]
  exact le_of_le_add_of_mem_zmultiples hmem hcap hpos hadmission hexposure

end BudgetManager

end InferenceRouter
