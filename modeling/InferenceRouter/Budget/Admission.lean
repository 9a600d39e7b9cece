import InferenceRouter.Budget.Cap
import InferenceRouter.Budget.Conservation
import Mathlib.Algebra.Order.Floor.Ring
import Mathlib.Algebra.Order.Floor.Semifield
import Mathlib.Data.Rat.Floor

/-!
# What the admission test lets in

The admission test looks at money and latency together. A request without cost therefore passes
exactly if its latency fits, as long as the money is not overdrawn; and identical requests that
are settled at what they reserved are admitted until one of the two resources is used up.

## Main definitions

* `InferenceRouter.BudgetManager.Admits`: a call of `tryReserve` is granted.
* `InferenceRouter.SpendsWithin`: a commit does not overdraw the money.
* `InferenceRouter.InBurst`, `InferenceRouter.callsAmong`, `InferenceRouter.grantsAmong`.
* `InferenceRouter.Burst`: what holds along a burst of identical requests.

## Main results

* `InferenceRouter.free_work_admitted`: when a request without cost is granted, with the run
  `InferenceRouter.free_work_refused` in which the money blocks one.
* `InferenceRouter.burst_grants`: how many of a number of identical requests are granted.
-/

namespace InferenceRouter

open Foundation BudgetManager

variable {config : BudgetConfig} {tr tr' : List (BudgetManager × BudgetEvent)}
  {bm bm' : BudgetManager}

/-- A call of `tryReserve` with these amounts is granted. -/
def BudgetManager.Admits (bm : BudgetManager) (cost latencyMs : ℚ) : Prop :=
  ∀ requestId uuid now,
    ∃ ref, (bm.tryReserve requestId cost latencyMs uuid now).reply = .ok (some ref)

/-- A call with nonnegative amounts, not both of them zero, is granted if it fits and else
refused. -/
theorem tryReserve_reply (bm : BudgetManager) {cost latencyMs : ℚ} (hcost : 0 ≤ cost)
    (hlatency : 0 < latencyMs) (requestId uuid : String) (now : ℚ) :
    ((bm.tryReserve requestId cost latencyMs uuid now).reply =
        .ok (some bm.reservations.length) ∧ bm.Fits cost latencyMs) ∨
      ((bm.tryReserve requestId cost latencyMs uuid now).reply = .ok none ∧
        ¬ bm.Fits cost latencyMs) := by
  have hneg : ¬ (cost < 0 ∨ latencyMs < 0) := by
    rw [not_or, not_lt, not_lt]
    exact ⟨hcost, hlatency.le⟩
  have hzero : ¬ (cost = 0 ∧ latencyMs = 0) := fun h => hlatency.ne' h.2
  dsimp only [tryReserve]
  rw [if_neg hneg, if_neg hzero]
  split_ifs with hfits
  · refine Or.inr ⟨rfl, fun h => ?_⟩
    rcases hfits with hfits | hfits
    · exact absurd h.1 (not_le.mpr hfits)
    · exact absurd h.2 (not_le.mpr hfits)
  · rw [not_or, not_lt, not_lt] at hfits
    exact Or.inl ⟨rfl, hfits⟩

theorem admits_iff_fits {cost latencyMs : ℚ} (hcost : 0 ≤ cost) (hlatency : 0 < latencyMs) :
    bm.Admits cost latencyMs ↔ bm.Fits cost latencyMs := by
  constructor
  · intro h
    obtain ⟨ref, href⟩ := h "" "" 0
    rcases tryReserve_reply bm hcost hlatency "" "" 0 with ⟨-, hfits⟩ | ⟨hreply, -⟩
    · exact hfits
    · cases href.symm.trans hreply
  · intro hfits requestId uuid now
    rcases tryReserve_reply bm hcost hlatency requestId uuid now with ⟨hreply, -⟩ | ⟨-, hnot⟩
    · exact ⟨_, hreply⟩
    · exact absurd hfits hnot

/-! ### Requests without cost -/

/-- A successful commit leaves the money spent and reserved within the budget, up to the slack of
the admission test. -/
def SpendsWithin (bm : BudgetManager) : BudgetEvent → Prop
  | .commit id actualCost _ (.ok _) =>
      ∀ ref, bm.activeReservations.get? id = some ref →
        bm.cumulativeRemoteCost + bm.reservedForExecution +
            (actualCost - (bm.deref ref).reservedCost) ≤
          bm.config.maxRemoteBudget + admissionSlack
  | .commit _ _ _ (.error _) | .reserve .. | .rollback .. | .reap .. => True

instance (bm : BudgetManager) : DecidablePred (SpendsWithin bm)
  | .commit id _ _ (.ok _) =>
    inferInstanceAs (Decidable (∀ ref ∈ bm.activeReservations.get? id, _ ≤ _))
  | .commit _ _ _ (.error _) | .reserve .. | .rollback .. | .reap .. =>
    inferInstanceAs (Decidable True)

/-- A request without cost is granted if its latency fits and the money is not overdrawn. -/
theorem admits_zero_iff {latencyMs : ℚ} (hlatency : 0 < latencyMs) :
    bm.Admits 0 latencyMs ↔
      bm.cumulativeRemoteCost + bm.reservedForExecution ≤
          bm.config.maxRemoteBudget + admissionSlack ∧
        bm.cumulativeActualLatencyMs + bm.reservedLatencyMs + latencyMs ≤
          bm.config.maxCumulativeLatencyMs + admissionSlack := by
  rw [admits_iff_fits le_rfl hlatency, Fits]
  constructor
  · rintro ⟨hmoney, hfits⟩
    exact ⟨by linarith, by linarith⟩
  · rintro ⟨hmoney, hfits⟩
    exact ⟨by linarith, by linarith⟩

/-- The money is not overdrawn along a run whose commits do not overdraw it. -/
theorem money_le_of_run (run : Run BudgetStep (new config) tr bm)
    (hspends : ∀ t ∈ tr, SpendsWithin t.1 t.2) :
    (bm.account .money).exposure ≤ config.maxRemoteBudget + admissionSlack := by
  induction run with
  | start =>
    rw [(valid_new config).exposure_money, admissionSlack]
    change (0 : ℚ) + 0 ≤ _
    have hbudget := config.maxRemoteBudget_pos
    have hslack : (0 : ℚ) ≤ 1 / 10 ^ 12 := by positivity
    linarith
  | @step tr bm ev bm' run h ih =>
    obtain ⟨hstep, hspends⟩ := List.forall_mem_cons.mp hspends
    have hv := valid_of_run run
    have hmoney := ih hspends
    have hout := h.outcome hv
    cases hout with
    | malformed | refused | commitInactive | rollbackInactive => exact hmoney
    | granted _ _ hfits =>
      have hle := exposure_granted_le hv hfits
      rw [config_of_run run] at hle
      exact hle _ _ .money
    | costOverrun hactive | latencyBreach hactive | rolledBack hactive =>
      exact exposure_rolledBack_le hv hactive .money hmoney
    | @committed id actualCost _ ref hactive =>
      have hmem : ref ∈ (bm.account .money).pending := (hv.active id ref hactive).1
      rw [account_closed _ _ _ _ (by simp), Escrow.exposure_settle hmem, hv.exposure_money]
      have hwithin := hstep ref hactive
      rwa [config_of_run run] at hwithin
    | reaped clock =>
      exact (closeAll_induction
        (P := fun bm' => (bm'.account .money).exposure ≤ config.maxRemoteBudget + admissionSlack)
        (fun bm' id ref hv' hactive => exposure_rolledBack_le hv' hactive .money)
        (bm.nodup_stale clock) hv (fun e he => stale_active he) hmoney).2

/-- **Requests without cost.** In every reachable state, whether a request without cost is granted
depends on its latency alone exactly if the money spent and reserved is within the budget, up to
the slack of the admission test, or the latency does not fit anyway. So it is in every state of a
run in which no commit overdraws the money. -/
theorem free_work_admitted (run : Run BudgetStep (new config) tr bm) :
    (∀ latencyMs, 0 < latencyMs →
      ((bm.Admits 0 latencyMs ↔ bm.cumulativeActualLatencyMs + bm.reservedLatencyMs + latencyMs ≤
          config.maxCumulativeLatencyMs + 1 / 10 ^ 12) ↔
        bm.cumulativeRemoteCost + bm.reservedForExecution ≤
            config.maxRemoteBudget + 1 / 10 ^ 12 ∨
          ¬ bm.cumulativeActualLatencyMs + bm.reservedLatencyMs + latencyMs ≤
            config.maxCumulativeLatencyMs + 1 / 10 ^ 12)) ∧
      ((∀ t ∈ tr, SpendsWithin t.1 t.2) → ∀ latencyMs, 0 < latencyMs →
        (bm.Admits 0 latencyMs ↔ bm.cumulativeActualLatencyMs + bm.reservedLatencyMs + latencyMs ≤
          config.maxCumulativeLatencyMs + 1 / 10 ^ 12)) := by
  have hexact : ∀ latencyMs, 0 < latencyMs →
      (bm.Admits 0 latencyMs ↔
        bm.cumulativeRemoteCost + bm.reservedForExecution ≤
            config.maxRemoteBudget + 1 / 10 ^ 12 ∧
          bm.cumulativeActualLatencyMs + bm.reservedLatencyMs + latencyMs ≤
            config.maxCumulativeLatencyMs + 1 / 10 ^ 12) := by
    intro latencyMs hlatency
    rw [admits_zero_iff hlatency, config_of_run run, admissionSlack]
  refine ⟨fun latencyMs hlatency => ?_, fun hspends latencyMs hlatency => ?_⟩
  · rw [hexact latencyMs hlatency]
    tauto
  · have hmoney := money_le_of_run run hspends
    rw [(valid_of_run run).exposure_money, admissionSlack] at hmoney
    rw [hexact latencyMs hlatency]
    exact and_iff_right hmoney

/-- **A request without cost that the money blocks**: a commit within the tolerance of its guard
has overdrawn the budget by more than the slack of the admission test, and none of the latency is
used up. -/
theorem free_work_refused : ∃ tr bm, Run BudgetStep (new sampleConfig) tr bm ∧
    (∀ t ∈ tr, t.2.FreshIn t.1) ∧ (∀ t ∈ tr, t.2.NonnegCharge) ∧
    bm.cumulativeActualLatencyMs + bm.reservedLatencyMs + 100 ≤
      sampleConfig.maxCumulativeLatencyMs + 1 / 10 ^ 12 ∧
    (bm.tryReserve "req-b" 0 100 "b" 0).reply = .ok none := by
  let run := Run.start |>.step (BudgetStep.reserve (new sampleConfig) "req-a" 10 100 "a" 0)
    |>.step (BudgetStep.commit _ "a" (10 + 1 / 10 ^ 9) 100)
  refine ⟨_, _, run, by decide +kernel, ?_, by decide +kernel, by decide +kernel⟩
  simp only [List.forall_mem_cons, List.not_mem_nil, BudgetEvent.NonnegCharge]
  norm_num

theorem free_work_admitted_single : ∃ tr bm, Run BudgetStep (new sampleConfig) tr bm ∧
    (∀ t ∈ tr, SpendsWithin t.1 t.2) ∧
    (bm.Admits 0 100 ↔ bm.cumulativeActualLatencyMs + bm.reservedLatencyMs + 100 ≤
      sampleConfig.maxCumulativeLatencyMs + 1 / 10 ^ 12) := by
  let run := Run.start |>.step (BudgetStep.reserve (new sampleConfig) "req-a" 10 100 "a" 0)
    |>.step (BudgetStep.commit _ "a" 10 100)
  exact ⟨_, _, run, by decide +kernel,
    (free_work_admitted run).2 (by decide +kernel) 100 (by decide +kernel)⟩

/-! ### A burst of identical requests -/

/-- A step of a burst of calls `try_reserve(cost, latency_ms)` that began when `base` objects had
been created: such a call, or a commit of a pending reservation granted in the burst, at exactly
what it reserved. -/
def InBurst (base : ℕ) (cost latencyMs : ℚ) (bm : BudgetManager) : BudgetEvent → Prop
  | .reserve _ c l _ _ _ => c = cost ∧ l = latencyMs
  | .commit id c l _ => ∃ ref, base ≤ ref ∧ ref ∈ bm.escrow.pending ∧ (bm.deref ref).id = id ∧
      c = (bm.deref ref).reservedCost ∧ l = (bm.deref ref).reservedLatencyMs
  | .rollback .. | .reap .. => False

/-- The event is a call of `try_reserve`. -/
def BudgetEvent.isCall : BudgetEvent → Bool
  | .reserve .. => true
  | .commit .. | .rollback .. | .reap .. => false

/-- The event is a call of `try_reserve` that has been granted. -/
def BudgetEvent.isGrant : BudgetEvent → Bool
  | .reserve _ _ _ _ _ (.ok (some _)) => true
  | .reserve _ _ _ _ _ (.ok none) | .reserve _ _ _ _ _ (.error _) | .commit .. | .rollback ..
  | .reap .. => false

/-- The number of calls of `try_reserve` in a trace. -/
def callsAmong (tr : List (BudgetManager × BudgetEvent)) : ℕ := tr.countP fun t => t.2.isCall

/-- The number of calls of `try_reserve` in a trace that have been granted. -/
def grantsAmong (tr : List (BudgetManager × BudgetEvent)) : ℕ := tr.countP fun t => t.2.isGrant

/-- How many amounts `x` fit into what is left of a resource, up to the slack of the admission
test. -/
def roomFor (remaining x : ℚ) : ℕ := ⌊(remaining + admissionSlack) / x⌋₊

theorem succ_le_roomFor {remaining x : ℚ} (hx : 0 < x) (n : ℕ) :
    n + 1 ≤ roomFor remaining x ↔ x - admissionSlack ≤ remaining - n * x := by
  rw [roomFor, Nat.le_floor_iff' (Nat.succ_ne_zero n), le_div_iff₀ hx]
  push_cast
  constructor
  · intro h
    linarith
  · intro h
    linarith

theorem coe_roomFor (remaining x : ℚ) :
    (roomFor remaining x : ℤ) = max 0 ⌊(remaining + admissionSlack) / x⌋ := by
  rw [roomFor, ← Int.floor_toNat, Int.ofNat_toNat, max_comm]

/-- The money that is neither spent nor reserved. -/
def BudgetManager.liquid (bm : BudgetManager) : ℚ :=
  bm.config.maxRemoteBudget - bm.cumulativeRemoteCost - bm.reservedForExecution

/-- The latency that is neither used nor reserved. -/
def BudgetManager.latencyRemaining (bm : BudgetManager) : ℚ :=
  bm.config.maxCumulativeLatencyMs - bm.cumulativeActualLatencyMs - bm.reservedLatencyMs

theorem fits_iff {cost latencyMs : ℚ} :
    bm.Fits cost latencyMs ↔ cost - admissionSlack ≤ bm.liquid ∧
      latencyMs - admissionSlack ≤ bm.latencyRemaining :=
  Iff.rfl

/-- The manager `bm'` has granted `n` reservations of a burst from `bm`, which have been committed
at what they reserved or are pending. -/
structure Burst (bm : BudgetManager) (cost latencyMs : ℚ) (n : ℕ) (bm' : BudgetManager) :
    Prop where
  length_eq : bm'.reservations.length = bm.reservations.length + n
  liquid_eq : bm'.liquid = bm.liquid - n * cost
  latencyRemaining_eq : bm'.latencyRemaining = bm.latencyRemaining - n * latencyMs
  amount_eq : ∀ ref, bm.reservations.length ≤ ref → ref < bm'.reservations.length →
    bm'.escrow.amount ref = (cost, latencyMs)

theorem Burst.start (bm : BudgetManager) (cost latencyMs : ℚ) : Burst bm cost latencyMs 0 bm where
  length_eq := rfl
  liquid_eq := by simp
  latencyRemaining_eq := by simp
  amount_eq ref hle hlt := absurd hlt (not_lt.mpr hle)

/-- A further call fits if the number of calls granted is below what there was room for. -/
theorem Burst.fits_iff {cost latencyMs : ℚ} {n : ℕ} (hb : Burst bm cost latencyMs n bm')
    (hcost : 0 < cost) (hlatency : 0 < latencyMs) :
    bm'.Fits cost latencyMs ↔
      n + 1 ≤ min (roomFor bm.liquid cost) (roomFor bm.latencyRemaining latencyMs) := by
  rw [InferenceRouter.fits_iff, hb.liquid_eq, hb.latencyRemaining_eq, le_min_iff,
    succ_le_roomFor hcost, succ_le_roomFor hlatency]

theorem Burst.granted {cost latencyMs : ℚ} {n : ℕ} (hb : Burst bm cost latencyMs n bm')
    (uuid : String) (now : ℚ) :
    Burst bm cost latencyMs (n + 1) (bm'.granted cost latencyMs uuid now) where
  length_eq := by
    rw [length_granted, hb.length_eq]
    rfl
  liquid_eq := by
    have hliquid : (bm'.granted cost latencyMs uuid now).liquid = bm'.liquid - cost :=
      (sub_sub _ _ _).symm
    rw [hliquid, hb.liquid_eq]
    push_cast
    ring
  latencyRemaining_eq := by
    have hremaining : (bm'.granted cost latencyMs uuid now).latencyRemaining =
        bm'.latencyRemaining - latencyMs := (sub_sub _ _ _).symm
    rw [hremaining, hb.latencyRemaining_eq]
    push_cast
    ring
  amount_eq ref hle hlt := by
    rw [escrow_granted, Escrow.amount_grant]
    split_ifs with hnew
    · rfl
    · rw [length_granted] at hlt
      exact hb.amount_eq ref hle (lt_of_le_of_ne (Nat.le_of_lt_succ hlt) hnew)

theorem Burst.committed {cost latencyMs : ℚ} {n : ℕ} (hb : Burst bm cost latencyMs n bm')
    (id : String) (ref : Ref) :
    Burst bm cost latencyMs n (bm'.closed id ref .committed (bm'.escrow.amount ref)) where
  length_eq := (length_closed ..).trans hb.length_eq
  liquid_eq := by
    rw [← hb.liquid_eq]
    dsimp only [liquid, closed, setState, escrow]
    ring
  latencyRemaining_eq := by
    rw [← hb.latencyRemaining_eq]
    dsimp only [latencyRemaining, closed, setState, escrow]
    ring
  amount_eq r hle hlt := by
    rw [length_closed] at hlt
    rw [escrow_closed _ _ _ (by simp), Escrow.amount_settle]
    exact hb.amount_eq r hle hlt

/-- **A commit in a burst succeeds**: the latency that it reserved is within the cap. -/
theorem Burst.commit_ok {cost latencyMs : ℚ} {n : ℕ} (hb : Burst bm cost latencyMs n bm')
    (hlatency : 0 < latencyMs) (hn : n ≤ roomFor bm.latencyRemaining latencyMs)
    (hv : bm'.Valid) (hl : bm'.Listed) {ref : Ref} (hle : bm.reservations.length ≤ ref)
    (hpending : ref ∈ bm'.escrow.pending) {reply : Except BudgetError Unit}
    {bm'' : BudgetManager}
    (h : BudgetOutcome bm' (.commit (bm'.deref ref).id (bm'.deref ref).reservedCost
      (bm'.deref ref).reservedLatencyMs reply) bm'') :
    reply = .ok () ∧ Burst bm cost latencyMs n bm'' := by
  have hget := hl.get?_id ref hpending
  have hpos : 1 ≤ n := by
    have hlt := Nat.lt_of_le_of_lt hle (mem_pending.mp hpending).1
    rw [hb.length_eq] at hlt
    omega
  have hslack : admissionSlack ≤ commitSlack := by
    rw [admissionSlack, commitSlack]
    norm_num
  have hslack0 : 0 ≤ commitSlack := by
    rw [commitSlack]
    positivity
  obtain ⟨k, rfl⟩ : ∃ k, n = k + 1 := ⟨n - 1, by omega⟩
  have hroom := (succ_le_roomFor hlatency k).mp hn
  have hremaining := hb.latencyRemaining_eq
  push_cast at hremaining
  have hcovered := (hv.amount_le hpending).2
  have hcap : bm'.cumulativeActualLatencyMs + bm'.reservedLatencyMs ≤
      bm'.config.maxCumulativeLatencyMs + commitSlack := by
    rw [latencyRemaining] at hremaining
    linarith
  generalize hid : (bm'.deref ref).id = id at h hget
  generalize hc : (bm'.deref ref).reservedCost = c at h
  generalize hm : (bm'.deref ref).reservedLatencyMs = m at h hcovered
  cases h with
  | commitInactive hactive => exact absurd (hactive.symm.trans hget) (by simp)
  | costOverrun hactive hover =>
    obtain rfl := Option.some.inj (hget.symm.trans hactive)
    linarith
  | latencyBreach _ _ hbreach => linarith
  | committed hactive =>
    obtain rfl := Option.some.inj (hget.symm.trans hactive)
    subst hc hm
    exact ⟨rfl, hb.committed id ref⟩

/-- A call in a burst is granted if there is room for it, and else refused. -/
theorem Burst.call {cost latencyMs : ℚ} {n : ℕ} (hb : Burst bm cost latencyMs n bm')
    (hcost : 0 < cost) (hlatency : 0 < latencyMs) {requestId uuid : String} {now : ℚ}
    {reply : Except BudgetError (Option Ref)} {bm'' : BudgetManager}
    (h : BudgetStep bm' (.reserve requestId cost latencyMs uuid now reply) bm'') :
    ((BudgetEvent.reserve requestId cost latencyMs uuid now reply).isGrant = true ∧
        n + 1 ≤ min (roomFor bm.liquid cost) (roomFor bm.latencyRemaining latencyMs) ∧
        Burst bm cost latencyMs (n + 1) bm'') ∨
      ((BudgetEvent.reserve requestId cost latencyMs uuid now reply).isGrant = false ∧
        ¬ n + 1 ≤ min (roomFor bm.liquid cost) (roomFor bm.latencyRemaining latencyMs) ∧
        Burst bm cost latencyMs n bm'') := by
  rw [← hb.fits_iff hcost hlatency]
  have hwell := tryReserve_reply bm' hcost.le hlatency requestId uuid now
  have hout : BudgetOutcome bm' _ (bm'.tryReserve requestId cost latencyMs uuid now).manager :=
    tryReserve_outcome ..
  cases h with
  | reserve =>
    generalize bm'.tryReserve requestId cost latencyMs uuid now = call at hwell hout ⊢
    obtain ⟨reply, manager, events⟩ := call
    rcases hwell with ⟨rfl, hfits⟩ | ⟨rfl, hnot⟩
    · cases hout with
      | granted => exact Or.inl ⟨rfl, hfits, hb.granted uuid now⟩
    · cases hout with
      | refused => exact Or.inr ⟨rfl, hnot, hb⟩

/-- A commit that has been made has succeeded. -/
def BudgetEvent.CommitSucceeds : BudgetEvent → Prop
  | .commit _ _ _ reply => reply = .ok ()
  | .reserve .. | .rollback .. | .reap .. => True

/-- What holds along a burst. -/
theorem burst_of_run {cost latencyMs : ℚ} (run : Run BudgetStep (new config) tr bm)
    (hcost : 0 < cost) (hlatency : 0 < latencyMs) (burst : Run BudgetStep bm tr' bm')
    (hfresh : ∀ t ∈ tr' ++ tr, t.2.FreshIn t.1)
    (hburst : ∀ t ∈ tr', InBurst bm.reservations.length cost latencyMs t.1 t.2) :
    Burst bm cost latencyMs (grantsAmong tr') bm' ∧
      grantsAmong tr' = min (callsAmong tr')
        (min (roomFor bm.liquid cost) (roomFor bm.latencyRemaining latencyMs)) ∧
      ∀ t ∈ tr', t.2.CommitSucceeds := by
  induction burst with
  | start => exact ⟨.start bm _ _, by simp [grantsAmong, callsAmong], by simp⟩
  | @step tr' bm' ev bm'' burst h ih =>
    obtain ⟨hev, hburst⟩ := List.forall_mem_cons.mp hburst
    rw [List.cons_append, List.forall_mem_cons] at hfresh
    obtain ⟨hb, hcount, hok⟩ := ih hfresh.2 hburst
    have hwhole := run.trans burst
    rw [List.forall_mem_cons, grantsAmong, callsAmong, List.countP_cons, List.countP_cons,
      ← grantsAmong, ← callsAmong]
    cases ev with
    | reserve requestId c l uuid now reply =>
      obtain ⟨rfl, rfl⟩ := hev
      rcases hb.call hcost hlatency h with ⟨hgrant, hroom, hb'⟩ | ⟨hgrant, hroom, hb'⟩
      · simp only [hgrant, BudgetEvent.isCall, if_true]
        exact ⟨hb', by omega, trivial, hok⟩
      · simp only [hgrant, BudgetEvent.isCall, if_true, Bool.false_eq_true, if_false]
        exact ⟨hb', by omega, trivial, hok⟩
    | commit id c l reply =>
      obtain ⟨ref, hle, hpending, hid, hc, hl⟩ := hev
      dsimp only at hpending hid hc hl
      have hroom : grantsAmong tr' ≤ roomFor bm.latencyRemaining latencyMs := by omega
      have hout := h.outcome (valid_of_run hwhole)
      rw [← hid, hc, hl] at hout
      obtain ⟨hreply, hb'⟩ := hb.commit_ok hlatency hroom (valid_of_run hwhole)
        (listed_of_run hwhole hfresh.2) hle hpending hout
      exact ⟨hb', hcount, hreply, hok⟩
    | rollback | reap => exact absurd hev (by simp [InBurst])

/-- **Admission grants exactly what fits.** From every reachable state, of any number of calls
`try_reserve(cost, latency_ms)` in any order, interleaved with commits of their reservations at
what these reserved, as many are granted as fit into the liquid budget and into the remaining
latency, each up to the slack of the admission test; and no commit raises. -/
theorem burst_grants (run : Run BudgetStep (new config) tr bm) {cost latencyMs : ℚ}
    (hcost : 0 < cost) (hlatency : 0 < latencyMs) (burst : Run BudgetStep bm tr' bm')
    (hfresh : ∀ t ∈ tr' ++ tr, t.2.FreshIn t.1)
    (hburst : ∀ t ∈ tr', InBurst bm.reservations.length cost latencyMs t.1 t.2) :
    (∀ t ∈ tr', t.2.CommitSucceeds) ∧
      (grantsAmong tr' : ℤ) = min (callsAmong tr' : ℤ)
        (min (max 0 ⌊(bm.liquid + 1 / 10 ^ 12) / cost⌋)
          (max 0 ⌊(bm.latencyRemaining + 1 / 10 ^ 12) / latencyMs⌋)) := by
  obtain ⟨-, hcount, hok⟩ := burst_of_run run hcost hlatency burst hfresh hburst
  refine ⟨hok, ?_⟩
  rw [hcount, Nat.cast_min, Nat.cast_min, coe_roomFor, coe_roomFor, admissionSlack]

/-- Three calls against a budget for two, the first of which is committed in between. -/
theorem burst_grants_two_of_three : ∃ tr bm tr' bm', Run BudgetStep (new sampleConfig) tr bm ∧
    Run BudgetStep bm tr' bm' ∧ callsAmong tr' = 3 ∧ (grantsAmong tr' : ℤ) = 2 := by
  let burst := Run.start |>.step (BudgetStep.reserve (new sampleConfig) "req-a" 5 100 "a" 0)
    |>.step (BudgetStep.reserve _ "req-b" 5 100 "b" 0) |>.step (BudgetStep.commit _ "a" 5 100)
    |>.step (BudgetStep.reserve _ "req-c" 5 100 "c" 0)
  have hcost : (0 : ℚ) < 5 := by norm_num
  have hlatency : (0 : ℚ) < 100 := by norm_num
  refine ⟨_, _, _, _, .start, burst, by decide +kernel, ?_⟩
  refine (burst_grants .start hcost hlatency burst (by decide +kernel) ?_).2.trans
    (by decide +kernel)
  simp only [List.forall_mem_cons, InBurst]
  exact ⟨⟨trivial, trivial⟩, ⟨0, by decide +kernel⟩, ⟨trivial, trivial⟩, ⟨trivial, trivial⟩,
    by simp⟩

end InferenceRouter
