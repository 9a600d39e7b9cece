import InferenceRouter.Budget.Ledger

/-!
# The caps hold in every reachable state

Money and latency are treated alike: each is one coordinate of the manager's escrow account, with
its own cap. A reservation is granted only if the exposure of the account stays within the cap,
up to the slack of the admission test; afterwards the exposure grows only by what commits charge
beyond their reservations (`exposure_le_excess`). The cost guard of `commit` bounds this excess
by its own slack for each commit. Nothing bounds it for latency, where `commit` compares the total
with the cap and not the charge with the reservation, so a reservation of latency can be refused
at its commit once other commits have overrun theirs.

## Main definitions

* `InferenceRouter.Resource`, `InferenceRouter.BudgetManager.account`.
* `InferenceRouter.excessSinceGrant`, `InferenceRouter.commitsSinceGrant`.

## Main results

* `InferenceRouter.exposure_le_excess`.
* `InferenceRouter.budget_cap`: the cap on money and the cap on latency over whole runs.
* `InferenceRouter.commit_within_reservation`: when a commit within its reservation succeeds, with
  the run `InferenceRouter.commit_within_reservation_refused` in which one does not.
-/

namespace InferenceRouter

open Foundation BudgetManager

/-! ### The two resources -/

/-- What a reservation sets aside. -/
inductive Resource
  | money
  | latency

/-- The amount of a resource in a pair of amounts. -/
def Resource.amount : Resource → ℚ × ℚ →+ ℚ
  | money => AddMonoidHom.fst ℚ ℚ
  | latency => AddMonoidHom.snd ℚ ℚ

/-- The configured cap of a resource. -/
def BudgetConfig.cap (config : BudgetConfig) : Resource → ℚ
  | .money => config.maxRemoteBudget
  | .latency => config.maxCumulativeLatencyMs

variable {config : BudgetConfig} {tr : List (BudgetManager × BudgetEvent)} {bm : BudgetManager}

theorem Resource.amount_nonneg (ρ : Resource) {x : ℚ × ℚ} (hx : 0 ≤ x) : 0 ≤ ρ.amount x := by
  cases ρ with
  | money => exact hx.1
  | latency => exact hx.2

/-- The escrow account of one resource. -/
def BudgetManager.account (bm : BudgetManager) (ρ : Resource) : Escrow Ref ℚ :=
  bm.escrow.map ρ.amount

theorem BudgetManager.Valid.exposure_money (hv : bm.Valid) :
    (bm.account .money).exposure = bm.cumulativeRemoteCost + bm.reservedForExecution := by
  rw [account, Escrow.exposure_map, hv.exposure_eq]
  rfl

theorem BudgetManager.Valid.exposure_latency (hv : bm.Valid) :
    (bm.account .latency).exposure = bm.cumulativeActualLatencyMs + bm.reservedLatencyMs := by
  rw [account, Escrow.exposure_map, hv.exposure_eq]
  rfl

theorem account_granted (ρ : Resource) (cost latencyMs now : ℚ) (uuid : String) :
    (bm.granted cost latencyMs uuid now).account ρ =
      (bm.account ρ).grant bm.reservations.length (ρ.amount (cost, latencyMs)) := by
  rw [account, escrow_granted, Escrow.map_grant, account]

theorem account_closed (ρ : Resource) (id : String) (ref : Ref) {state : ReservationState}
    (charge : ℚ × ℚ) (hstate : state ≠ .pending) :
    (bm.closed id ref state charge).account ρ =
      (bm.account ρ).settle ref (ρ.amount charge) := by
  rw [account, escrow_closed _ _ _ hstate, Escrow.map_settle, account]

/-- The admission test keeps every exposure within its cap, up to the slack. -/
theorem exposure_granted_le (hv : bm.Valid) {cost latencyMs : ℚ} (hfits : bm.Fits cost latencyMs)
    (uuid : String) (now : ℚ) (ρ : Resource) :
    ((bm.granted cost latencyMs uuid now).account ρ).exposure ≤
      bm.config.cap ρ + admissionSlack := by
  have hfresh : bm.reservations.length ∉ (bm.account ρ).pending := by
    simp [account, mem_pending]
  rw [account_granted, Escrow.exposure_grant hfresh]
  obtain ⟨hcost, hlatency⟩ := hfits
  cases ρ with
  | money =>
    rw [hv.exposure_money]
    change _ + cost ≤ bm.config.maxRemoteBudget + _
    linarith
  | latency =>
    rw [hv.exposure_latency]
    change _ + latencyMs ≤ bm.config.maxCumulativeLatencyMs + _
    linarith

/-- Settling without a charge keeps every bound on the exposure. -/
theorem exposure_rolledBack_le (hv : bm.Valid) {id : String} {ref : Ref}
    (hactive : bm.activeReservations.get? id = some ref) (ρ : Resource) {c : ℚ}
    (hc : (bm.account ρ).exposure ≤ c) :
    ((bm.closed id ref .rolledBack 0).account ρ).exposure ≤ c := by
  rw [account_closed _ _ _ _ (by simp), map_zero]
  have hmem : ref ∈ (bm.account ρ).pending := (hv.active id ref hactive).1
  exact Escrow.exposure_release_le hmem (ρ.amount_nonneg (hv.amount_nonneg ref)) hc

/-! ### The exposure along a run -/

/-- What a successful commit charges of a resource beyond its reservation. -/
def BudgetManager.excess (bm : BudgetManager) (ρ : Resource) (reservationId : String)
    (charge : ℚ × ℚ) : ℚ :=
  match bm.activeReservations.get? reservationId with
  | some ref => max 0 (ρ.amount charge - ρ.amount (bm.escrow.amount ref))
  | none => 0

/-- What the successful commits since the last granted reservation charged of a resource beyond
their reservations. -/
def excessSinceGrant (ρ : Resource) : List (BudgetManager × BudgetEvent) → ℚ
  | [] => 0
  | (_, .reserve _ _ _ _ _ (.ok (some _))) :: _ => 0
  | (bm, .commit id actualCost actualLatencyMs (.ok _)) :: tr =>
      excessSinceGrant ρ tr + bm.excess ρ id (actualCost, actualLatencyMs)
  | (_, .reserve _ _ _ _ _ (.ok none)) :: tr | (_, .reserve _ _ _ _ _ (.error _)) :: tr
  | (_, .commit _ _ _ (.error _)) :: tr | (_, .rollback _ _) :: tr | (_, .reap _ _) :: tr =>
      excessSinceGrant ρ tr

/-- The number of successful commits since the last granted reservation. -/
def commitsSinceGrant : List (BudgetManager × BudgetEvent) → ℕ
  | [] => 0
  | (_, .reserve _ _ _ _ _ (.ok (some _))) :: _ => 0
  | (_, .commit _ _ _ (.ok _)) :: tr => commitsSinceGrant tr + 1
  | (_, .reserve _ _ _ _ _ (.ok none)) :: tr | (_, .reserve _ _ _ _ _ (.error _)) :: tr
  | (_, .commit _ _ _ (.error _)) :: tr | (_, .rollback _ _) :: tr | (_, .reap _ _) :: tr =>
      commitsSinceGrant tr

/-- A successful commit charges at most the amount of a resource that it reserved. -/
def ChargesWithin (ρ : Resource) (bm : BudgetManager) : BudgetEvent → Prop
  | .commit id actualCost actualLatencyMs (.ok _) =>
      ∀ ref, bm.activeReservations.get? id = some ref →
        ρ.amount (actualCost, actualLatencyMs) ≤
          ρ.amount ((bm.deref ref).reservedCost, (bm.deref ref).reservedLatencyMs)
  | .commit _ _ _ (.error _) | .reserve .. | .rollback .. | .reap .. => True

instance (ρ : Resource) (bm : BudgetManager) : DecidablePred (ChargesWithin ρ bm)
  | .commit id _ _ (.ok _) =>
    inferInstanceAs (Decidable (∀ ref ∈ bm.activeReservations.get? id, _ ≤ _))
  | .commit _ _ _ (.error _) | .reserve .. | .rollback .. | .reap .. =>
    inferInstanceAs (Decidable True)

/-- Commits within their reservations have no excess. -/
theorem excessSinceGrant_eq_zero {ρ : Resource} (hwithin : ∀ t ∈ tr, ChargesWithin ρ t.1 t.2) :
    excessSinceGrant ρ tr = 0 := by
  fun_induction excessSinceGrant ρ tr with
  | case1 | case2 => rfl
  | case3 bm id c l _ tr ih =>
    rw [List.forall_mem_cons] at hwithin
    rw [ih hwithin.2, zero_add]
    unfold BudgetManager.excess
    split
    · rename_i ref hactive
      exact max_eq_left (sub_nonpos.mpr (hwithin.1 ref hactive))
    · rfl
  | case4 _ _ _ _ _ _ tr ih | case5 _ _ _ _ _ _ _ tr ih | case6 _ _ _ _ _ tr ih
  | case7 _ _ _ tr ih | case8 _ _ _ tr ih => exact ih (List.forall_mem_cons.mp hwithin).2

/-- **The exposure along a run.** Once a reservation has been granted, or from the start if the
cap is nonnegative, the exposure of a resource is at most its cap, the slack of the admission
test, and the excess of the commits since the last grant. -/
theorem exposure_le_excess (ρ : Resource) (run : Run BudgetStep (new config) tr bm)
    (hcap : 0 ≤ config.cap ρ ∨ 0 < bm.reservations.length) :
    (bm.account ρ).exposure ≤ config.cap ρ + admissionSlack + excessSinceGrant ρ tr := by
  induction run with
  | start =>
    have h0 : 0 ≤ config.cap ρ := hcap.resolve_right (lt_irrefl 0)
    have hnew : ((new config).account ρ).exposure = 0 := by
      rw [account, Escrow.exposure_map, (valid_new config).exposure_eq]
      simp only [new, add_zero]
      exact map_zero _
    rw [hnew, excessSinceGrant, admissionSlack]
    positivity
  | @step tr bm ev bm' run h ih =>
    have hv := valid_of_run run
    have hout := h.outcome hv
    cases hout with
    | malformed | refused | commitInactive | rollbackInactive => exact ih hcap
    | granted _ _ hfits =>
      refine (exposure_granted_le hv hfits _ _ ρ).trans_eq ?_
      rw [config_of_run run, excessSinceGrant, add_zero]
    | costOverrun hactive | latencyBreach hactive | rolledBack hactive =>
      rw [length_closed] at hcap
      exact exposure_rolledBack_le hv hactive ρ (ih hcap)
    | @committed id c l ref hactive =>
      rw [length_closed] at hcap
      rw [account_closed _ _ _ _ (by simp), excessSinceGrant, ← add_assoc]
      have hmem : ref ∈ (bm.account ρ).pending := (hv.active id ref hactive).1
      refine Escrow.exposure_settle_le hmem ?_ (ih hcap)
      simp only [BudgetManager.excess, hactive]
      exact sub_le_iff_le_add'.mp (le_max_right _ _)
    | reaped clock =>
      have hlen : (bm.closeAll (bm.stale clock)).reservations.length = bm.reservations.length :=
        (closeAll_induction (P := fun bm' => bm'.reservations.length = bm.reservations.length)
          (fun bm' id ref _ _ hP => (length_closed bm' id ref _ _).trans hP)
          (bm.nodup_stale clock) hv (fun e he => stale_active he) rfl).2
      rw [hlen] at hcap
      exact (closeAll_induction
        (P := fun bm' => (bm'.account ρ).exposure ≤
          config.cap ρ + admissionSlack + excessSinceGrant ρ tr)
        (fun bm' id ref hv' hactive => exposure_rolledBack_le hv' hactive ρ)
        (bm.nodup_stale clock) hv (fun e he => stale_active he) (ih hcap)).2

/-! ### The cap on money -/

/-- The guard of `commit` bounds what a commit charges beyond its reservation. -/
theorem excessSinceGrant_money_le (run : Run BudgetStep (new config) tr bm) :
    excessSinceGrant .money tr ≤ commitsSinceGrant tr * commitSlack := by
  induction run with
  | start => simp [excessSinceGrant, commitsSinceGrant]
  | @step tr bm ev bm' run h ih =>
    have hout := h.outcome (valid_of_run run)
    cases hout with
    | malformed | refused | commitInactive | rollbackInactive | costOverrun | latencyBreach
    | rolledBack | reaped => exact ih
    | granted => simp [excessSinceGrant, commitsSinceGrant]
    | @committed id c l ref hactive hcost =>
      have hslack : (0 : ℚ) ≤ commitSlack := by rw [commitSlack]; positivity
      have hexc : bm.excess .money id (c, l) ≤ commitSlack := by
        simp only [BudgetManager.excess, hactive]
        exact max_le hslack (sub_le_iff_le_add'.mpr hcost)
      rw [excessSinceGrant, commitsSinceGrant]
      push_cast
      linarith

/-- The guard of `commit` keeps the committed latency within its cap, up to its slack. -/
theorem cumulative_latency_le (run : Run BudgetStep (new config) tr bm)
    (hcap : 0 ≤ config.maxCumulativeLatencyMs) :
    bm.cumulativeActualLatencyMs ≤ config.maxCumulativeLatencyMs + commitSlack := by
  induction run with
  | start =>
    rw [commitSlack]
    change (0 : ℚ) ≤ _
    positivity
  | @step tr bm ev bm' run h ih =>
    have hout := h.outcome (valid_of_run run)
    cases hout with
    | malformed | refused | commitInactive | rollbackInactive | granted => exact ih
    | costOverrun | latencyBreach | rolledBack =>
      exact (add_zero bm.cumulativeActualLatencyMs).trans_le ih
    | committed _ _ hlatency => rwa [config_of_run run] at hlatency
    | reaped clock =>
      exact (closeAll_induction
        (P := fun bm' => bm'.cumulativeActualLatencyMs ≤
          config.maxCumulativeLatencyMs + commitSlack)
        (fun bm' _ _ _ _ hP => (add_zero bm'.cumulativeActualLatencyMs).trans_le hP)
        (bm.nodup_stale clock) (valid_of_run run) (fun e he => stale_active he) ih).2

/-- **The budget cap over whole runs.** In every state reached by any interleaving of
reservations, commits, rollbacks and scans of the reaper, the money spent and reserved is within
the cap, up to the slack of the admission test and one slack of `commit` for each successful
commit since the last grant; commits that charge at most their reservations use no slack. The
committed latency is within its cap, up to the slack of `commit`. -/
theorem budget_cap (run : Run BudgetStep (new config) tr bm)
    (hcap : 0 ≤ config.maxCumulativeLatencyMs) :
    bm.cumulativeRemoteCost + bm.reservedForExecution ≤
        config.maxRemoteBudget + 1 / 10 ^ 12 + commitsSinceGrant tr * (1 / 10 ^ 9) ∧
      ((∀ t ∈ tr, ChargesWithin .money t.1 t.2) →
        bm.cumulativeRemoteCost + bm.reservedForExecution ≤
          config.maxRemoteBudget + 1 / 10 ^ 12) ∧
      bm.cumulativeActualLatencyMs ≤ config.maxCumulativeLatencyMs + 1 / 10 ^ 9 := by
  have hexp := exposure_le_excess .money run (Or.inl config.maxRemoteBudget_pos.le)
  rw [(valid_of_run run).exposure_money] at hexp
  refine ⟨hexp.trans (add_le_add_right (excessSinceGrant_money_le run) _), fun hwithin => ?_,
    cumulative_latency_le run hcap⟩
  rwa [excessSinceGrant_eq_zero hwithin, add_zero] at hexp

theorem budget_cap_reserve_commit : ∃ tr bm,
    Run BudgetStep (new ⟨1 / 10, 5000, 2, by decide +kernel⟩) tr bm ∧ tr.length = 2 ∧
      bm.cumulativeRemoteCost = 1 / 20 ∧
      bm.cumulativeRemoteCost + bm.reservedForExecution ≤
        1 / 10 + 1 / 10 ^ 12 + commitsSinceGrant tr * (1 / 10 ^ 9) := by
  let run := Run.start |>.step (BudgetStep.reserve (new ⟨1 / 10, 5000, 2, by decide +kernel⟩)
    "test-req" (1 / 20) 200 "r" 0) |>.step (BudgetStep.commit _ "r" (1 / 20) 200)
  exact ⟨_, _, run, rfl, by decide +kernel, (budget_cap run (by decide +kernel)).1⟩

/-! ### Commits within their reservations -/

/-- **A commit within its reservation** is refused only by the guard on the total latency. It
succeeds if the commits since the last grant have overrun their reserved latencies by no more
than the difference of the two slacks, in particular if none has overrun its own. -/
theorem commit_within_reservation (run : Run BudgetStep (new config) tr bm) {id : String}
    {ref : Ref} (hactive : bm.activeReservations.get? id = some ref)
    {actualCost actualLatencyMs : ℚ} (hcost : actualCost ≤ (bm.deref ref).reservedCost)
    (hlatency : actualLatencyMs ≤ (bm.deref ref).reservedLatencyMs) :
    (bm.commit id actualCost actualLatencyMs).reply =
        (if bm.cumulativeActualLatencyMs + actualLatencyMs ≤
            config.maxCumulativeLatencyMs + 1 / 10 ^ 9 then .ok ()
          else .error (.actualLatencyExceededReservation actualLatencyMs
            config.maxCumulativeLatencyMs)) ∧
      (excessSinceGrant .latency tr ≤ 1 / 10 ^ 9 - 1 / 10 ^ 12 →
        (bm.commit id actualCost actualLatencyMs).reply = .ok ()) ∧
      ((∀ t ∈ tr, ChargesWithin .latency t.1 t.2) →
        (bm.commit id actualCost actualLatencyMs).reply = .ok ()) := by
  have hv := valid_of_run run
  obtain ⟨hpending, -⟩ := hv.active id ref hactive
  have hreply : (bm.commit id actualCost actualLatencyMs).reply =
      (if bm.cumulativeActualLatencyMs + actualLatencyMs ≤
          config.maxCumulativeLatencyMs + 1 / 10 ^ 9 then .ok ()
        else .error (.actualLatencyExceededReservation actualLatencyMs
          config.maxCumulativeLatencyMs)) := by
    have hguard : ¬ actualCost > (bm.deref ref).reservedCost + commitSlack := by
      rw [commitSlack, not_lt]
      linarith
    dsimp only [commit]
    rw [hactive]
    dsimp only
    rw [if_neg hguard, config_of_run run, commitSlack]
    by_cases h : bm.cumulativeActualLatencyMs + actualLatencyMs ≤
        config.maxCumulativeLatencyMs + 1 / 10 ^ 9
    · rw [if_neg (not_lt.mpr h), if_pos h]
    · rw [if_pos (not_le.mp h), if_neg h]
  have hexp := exposure_le_excess .latency run (Or.inr (mem_pending.mp hpending).1.pos)
  rw [hv.exposure_latency] at hexp
  have hsucceeds : excessSinceGrant .latency tr ≤ 1 / 10 ^ 9 - 1 / 10 ^ 12 →
      (bm.commit id actualCost actualLatencyMs).reply = .ok () := by
    intro hexcess
    rw [hreply, if_pos]
    change _ ≤ config.maxCumulativeLatencyMs + 1 / 10 ^ 12 + _ at hexp
    linarith [(hv.amount_le hpending).2]
  refine ⟨hreply, hsucceeds, fun hwithin => hsucceeds ?_⟩
  rw [excessSinceGrant_eq_zero hwithin]
  norm_num

theorem commit_within_reservation_single : ∃ tr bm,
    Run BudgetStep (new sampleConfig) tr bm ∧
      bm.activeReservations.length = 1 ∧ (bm.commit "a" (1 / 100) 150).reply = .ok () := by
  let run := Run.start |>.step
    (BudgetStep.reserve (new sampleConfig) "req" (1 / 100) 150 "a" 0)
  have hactive : ((new sampleConfig).tryReserve "req" (1 / 100) 150
      "a" 0).manager.activeReservations.get? "a" = some 0 := by decide +kernel
  refine ⟨_, _, run, by decide +kernel, ?_⟩
  exact (commit_within_reservation run hactive (by decide +kernel) (by decide +kernel)).2.1
    (by decide +kernel)

/-- The charge of a commit is nonnegative. -/
def BudgetEvent.NonnegCharge : BudgetEvent → Prop
  | .commit _ actualCost actualLatencyMs _ => 0 ≤ actualCost ∧ 0 ≤ actualLatencyMs
  | .reserve .. | .rollback .. | .reap .. => True

/-- **A commit within its reservation that is refused**: another commit has used up the latency
that was reserved for it. -/
theorem commit_within_reservation_refused : ∃ tr bm,
    Run BudgetStep (new sampleConfig) tr bm ∧ (∀ t ∈ tr, t.2.NonnegCharge) ∧
      bm.activeReservations.get? "b" = some 1 ∧ (bm.deref 1).state = .pending ∧
      (bm.deref 1).reservedCost = 1 / 100 ∧ (bm.deref 1).reservedLatencyMs = 150 ∧
      (bm.commit "b" (1 / 100) 150).reply =
        .error (.actualLatencyExceededReservation 150 300) := by
  let run := Run.start |>.step (BudgetStep.reserve (new sampleConfig)
    "req-a" (1 / 100) 150 "a" 0) |>.step (BudgetStep.reserve _ "req-b" (1 / 100) 150 "b" 0)
    |>.step (BudgetStep.commit _ "a" (1 / 100) 300)
  refine ⟨_, _, run, ?_, by decide +kernel⟩
  simp only [List.forall_mem_cons, List.not_mem_nil, BudgetEvent.NonnegCharge]
  norm_num

end InferenceRouter
