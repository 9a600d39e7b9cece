import InferenceRouter.Service.Guarantees

/-!
# The reports and the verdict

The snapshots that the endpoints `/status` and `/metrics` of `app/main.py` report, and the verdict
that `load_generator.py` passes on the metrics after a burst of requests.

## Main definitions

* `InferenceRouter.AppState.status`, `InferenceRouter.AppState.metrics`.
* `InferenceRouter.evaluateVerdict`: the errors that the load generator reports.

## Main results

* `InferenceRouter.verdict_passes_iff`: what the verdict says about a reachable state.
* `InferenceRouter.deployed_verdict`: the deployed service always passes.
* `InferenceRouter.deployed_status_balanced`: the figures of `/status` add up.
-/

namespace InferenceRouter

open Foundation

/-! ### The reports -/

/-- What `/status` reports. -/
structure ResourceState where
  remoteBudgetMax : ℚ
  remoteBudgetSpent : ℚ
  remoteBudgetReserved : ℚ
  remoteBudgetRemaining : ℚ
  latencyMaxMs : ℚ
  latencyCommittedMs : ℚ
  latencyReservedMs : ℚ
  latencyRemainingMs : ℚ
  localCapacityMax : ℤ
  localCapacityActive : ℤ
  localCapacityAvailable : ℤ
  estimatedLocalLatencyMs : ℚ
  estimatedRemoteLatencyMs : ℚ
  activeReservations : ℕ

/-- What `/metrics` reports. -/
structure Metrics where
  cumulativeRemoteCost : ℚ
  reservedRemoteBudget : ℚ
  remainingRemoteBudget : ℚ
  cumulativeActualLatencyMs : ℚ
  reservedLatencyMs : ℚ
  activeLocalInferences : ℕ
  maxLocalConcurrency : ℕ
  activeRemoteReservations : ℕ
  localLatencyEmaMs : ℚ
  remoteLatencyEmaMs : ℚ

/-- `math.isclose` with the given `abs_tol`, and the default `rel_tol` of `1e-9`. -/
def isClose (a b absTol : ℚ) : Bool := decide (|a - b| ≤ max (1 / 10 ^ 9 * max |a| |b|) absTol)

/-- `_clean`: suppress noise up to `1e-9`. -/
def clean (v : ℚ) : ℚ := if isClose v 0 (1 / 10 ^ 9) then 0 else v

namespace BudgetManager

/-- `BudgetManager.active_reservation_count`. -/
def activeReservationCount (bm : BudgetManager) : ℕ := bm.activeReservations.items.length

end BudgetManager

namespace AppState

variable (s : AppState)

/-- `status`, the handler of `GET /status`. -/
def status : ResourceState :=
  let bm := s.budgetManager
  let qm := s.queueMonitor
  let lt := s.latencyTracker
  let snapshot := bm.budgetSnapshot
  { remoteBudgetMax := bm.config.maxRemoteBudget
    remoteBudgetSpent := snapshot.cumulativeCost
    remoteBudgetReserved := snapshot.reserved
    remoteBudgetRemaining := snapshot.remaining
    latencyMaxMs := bm.config.maxCumulativeLatencyMs
    latencyCommittedMs := snapshot.cumulativeLatencyMs
    latencyReservedMs := snapshot.reservedLatencyMs
    latencyRemainingMs := max 0
      (bm.config.maxCumulativeLatencyMs - snapshot.cumulativeLatencyMs - snapshot.reservedLatencyMs)
    localCapacityMax := qm.maxConcurrency
    localCapacityActive := qm.activeCount
    localCapacityAvailable := qm.maxConcurrency - qm.activeCount
    estimatedLocalLatencyMs := lt.getEstimate backendLocal
    estimatedRemoteLatencyMs := lt.getEstimate backendRemote
    activeReservations := bm.activeReservationCount }

/-- `metrics`, the handler of `GET /metrics`. -/
def metrics : Metrics :=
  let bm := s.budgetManager
  let qm := s.queueMonitor
  let lt := s.latencyTracker
  let snapshot := bm.budgetSnapshot
  { cumulativeRemoteCost := clean snapshot.cumulativeCost
    reservedRemoteBudget := clean snapshot.reserved
    remainingRemoteBudget := clean snapshot.remaining
    cumulativeActualLatencyMs := clean snapshot.cumulativeLatencyMs
    reservedLatencyMs := clean snapshot.reservedLatencyMs
    activeLocalInferences := qm.activeCount
    maxLocalConcurrency := qm.maxConcurrency
    activeRemoteReservations := bm.activeReservationCount
    localLatencyEmaMs := clean (lt.getEma backendLocal)
    remoteLatencyEmaMs := clean (lt.getEma backendRemote) }

end AppState

/-! ### The verdict -/

/-- The errors of `evaluate_verdict`, in order. The verdict is `PASS` if there are none. -/
def evaluateVerdict (metrics : Metrics) (maxBudget maxLatency : ℚ) : List String :=
  (if maxBudget + 1 / 10 ^ 9 < metrics.cumulativeRemoteCost then
    ["❌ BUDGET OVERSPEND: $" ++ renderFixed 5 metrics.cumulativeRemoteCost ++ " > $" ++
      renderFixed 5 maxBudget]
  else []) ++
  (if !isClose metrics.reservedRemoteBudget 0 (1 / 10 ^ 9) then
    ["❌ RESERVATION LEAK: reserved=$" ++ renderFixed 6 metrics.reservedRemoteBudget ++
      " (must be 0)"]
  else []) ++
  (if metrics.activeRemoteReservations ≠ 0 then
    ["❌ RESERVATION LEAK: " ++ toString metrics.activeRemoteReservations ++
      " active reservations (must be 0)"]
  else []) ++
  (if metrics.activeLocalInferences ≠ 0 then
    ["❌ QUEUE LEAK: " ++ toString metrics.activeLocalInferences ++
      " active local inferences (must be 0)"]
  else []) ++
  (if !isClose metrics.reservedLatencyMs 0 (1 / 10 ^ 9) then
    ["❌ LATENCY RESERVATION LEAK: " ++ renderFixed 1 metrics.reservedLatencyMs ++
      "ms (must be 0)"]
  else []) ++
  (if maxLatency + 1 / 10 ^ 9 < metrics.cumulativeActualLatencyMs then
    ["❌ LATENCY CAP BREACH: " ++ renderFixed 1 metrics.cumulativeActualLatencyMs ++ "ms > " ++
      renderFixed 1 maxLatency ++ "ms"]
  else [])

/-! ### Noise -/

/-- Below `1e-9` the relative tolerance plays no part. -/
theorem isClose_zero_iff (v : ℚ) : isClose v 0 (1 / 10 ^ 9) = true ↔ |v| ≤ 1 / 10 ^ 9 := by
  rw [isClose, decide_eq_true_iff, sub_zero, abs_zero, max_eq_left (abs_nonneg v), le_max_iff]
  refine or_iff_right_of_imp fun h => ?_
  have hzero : |v| ≤ 0 := by linarith [abs_nonneg v]
  linarith

theorem clean_le_iff {v bound : ℚ} (hbound : 0 ≤ bound) :
    clean v ≤ bound + 1 / 10 ^ 9 ↔ v ≤ bound + 1 / 10 ^ 9 := by
  unfold clean
  split_ifs with hclose
  · have hv := abs_le.mp ((isClose_zero_iff v).mp hclose)
    exact iff_of_true (by linarith) (by linarith)
  · exact Iff.rfl

theorem isClose_clean (v : ℚ) : isClose (clean v) 0 (1 / 10 ^ 9) = isClose v 0 (1 / 10 ^ 9) := by
  unfold clean
  split_ifs with hclose
  · rw [hclose]
    decide +kernel
  · rfl

/-! ### Passing -/

section Passing

variable {config : Config} {classify : String → ComplexityTier}
  {p : Pool (service config classify)}
  {tr : List (Pool (service config classify) × Choice (service config classify))}

/-- The verdict passes exactly if none of its six checks fails. -/
theorem evaluateVerdict_eq_nil_iff (metrics : Metrics) (maxBudget maxLatency : ℚ) :
    evaluateVerdict metrics maxBudget maxLatency = [] ↔
      metrics.cumulativeRemoteCost ≤ maxBudget + 1 / 10 ^ 9 ∧
        isClose metrics.reservedRemoteBudget 0 (1 / 10 ^ 9) = true ∧
        metrics.activeRemoteReservations = 0 ∧ metrics.activeLocalInferences = 0 ∧
        isClose metrics.reservedLatencyMs 0 (1 / 10 ^ 9) = true ∧
        metrics.cumulativeActualLatencyMs ≤ maxLatency + 1 / 10 ^ 9 := by
  have hcheck : ∀ (c : Prop) [Decidable c] (message : String),
      (if c then [message] else []) = [] ↔ ¬ c := fun c _ message => by simp
  simp only [evaluateVerdict, List.append_eq_nil_iff, hcheck, not_lt, Bool.not_eq_true',
    Bool.not_eq_false, not_not, and_assoc]

/-- No reservation is active exactly if none is pending. -/
theorem activeReservationCount_eq_zero_iff (run : Run Pool.Step (initial config classify) tr p) :
    p.state.budgetManager.activeReservationCount = 0 ↔
      p.state.budgetManager.escrow.pending = ∅ := by
  rw [(listed_of_service run).pending_eq (valid_of_service run), List.toFinset_eq_empty_iff,
    List.map_eq_nil_iff, BudgetManager.activeReservationCount, List.length_eq_zero_iff]

/-- No slot is taken exactly if no handler is inside a local execution. -/
theorem activeCount_eq_zero_iff (run : Run Pool.Step (initial config classify) tr p) :
    p.state.queueMonitor.activeCount = 0 ↔ ∀ t ∈ p.threads, ¬ InLocalExecution t := by
  rw [activeCount_eq run, List.countP_eq_zero]
  simp only [decide_eq_true_eq]

/-- The check of the latency never fails. -/
theorem metrics_latency_le (run : Run Pool.Step (initial config classify) tr p)
    (hcap : 0 ≤ config.maxCumulativeLatencyMs) :
    p.state.metrics.cumulativeActualLatencyMs ≤ config.maxCumulativeLatencyMs + 1 / 10 ^ 9 :=
  (clean_le_iff hcap).mpr (cumulative_latency_le (managerRun run) hcap)

/-- The checks of the reserved amounts do not fail if nothing is pending. -/
theorem reserved_isClose_zero (run : Run Pool.Step (initial config classify) tr p)
    (hpending : p.state.budgetManager.escrow.pending = ∅) :
    isClose p.state.metrics.reservedRemoteBudget 0 (1 / 10 ^ 9) = true ∧
      isClose p.state.metrics.reservedLatencyMs 0 (1 / 10 ^ 9) = true := by
  obtain ⟨hmoney, hlatency, -⟩ := (valid_of_service run).reserved_eq_zero hpending
  have hzero : isClose 0 0 (1 / 10 ^ 9) = true := (isClose_zero_iff 0).mpr (by norm_num)
  exact ⟨(isClose_clean _).trans (hmoney ▸ hzero), (isClose_clean _).trans (hlatency ▸ hzero)⟩

/-- The verdict passes if the budget is kept, nothing is pending and nothing executes locally. -/
theorem verdict_passes (run : Run Pool.Step (initial config classify) tr p)
    (hcap : 0 ≤ config.maxCumulativeLatencyMs)
    (hcost : p.state.budgetManager.cumulativeRemoteCost ≤
      config.maxRemoteBudget + BudgetManager.commitSlack)
    (hpending : p.state.budgetManager.escrow.pending = ∅)
    (hlocal : ∀ t ∈ p.threads, ¬ InLocalExecution t) :
    evaluateVerdict p.state.metrics config.maxRemoteBudget config.maxCumulativeLatencyMs = [] := by
  obtain ⟨hmoney, hlatency⟩ := reserved_isClose_zero run hpending
  refine (evaluateVerdict_eq_nil_iff _ _ _).mpr ⟨?_, hmoney, ?_, ?_, hlatency,
    metrics_latency_le run hcap⟩
  · exact (clean_le_iff config.maxRemoteBudget_pos.le).mpr hcost
  · exact (activeReservationCount_eq_zero_iff run).mpr hpending
  · exact (activeCount_eq_zero_iff run).mpr hlocal

/-- **What the verdict says about a reachable state.** It passes exactly if the budget is not
overspent, no reservation is pending and no handler is inside a local execution. The check of the
latency never fails, and those of the reserved amounts fail only with that of the number of
reservations. -/
theorem verdict_passes_iff (run : Run Pool.Step (initial config classify) tr p)
    (hcap : 0 ≤ config.maxCumulativeLatencyMs) :
    (evaluateVerdict p.state.metrics config.maxRemoteBudget config.maxCumulativeLatencyMs = [] ↔
        p.state.budgetManager.cumulativeRemoteCost ≤
            config.maxRemoteBudget + BudgetManager.commitSlack ∧
          p.state.budgetManager.escrow.pending = ∅ ∧
          ∀ t ∈ p.threads, ¬ InLocalExecution t) ∧
      p.state.metrics.cumulativeActualLatencyMs ≤ config.maxCumulativeLatencyMs + 1 / 10 ^ 9 ∧
      (p.state.metrics.activeRemoteReservations = 0 →
        isClose p.state.metrics.reservedRemoteBudget 0 (1 / 10 ^ 9) = true ∧
          isClose p.state.metrics.reservedLatencyMs 0 (1 / 10 ^ 9) = true) := by
  refine ⟨⟨fun hpasses => ?_, fun h => verdict_passes run hcap h.1 h.2.1 h.2.2⟩,
    metrics_latency_le run hcap, fun hcount => ?_⟩
  · obtain ⟨hcost, -, hactive, hlocal, -⟩ := (evaluateVerdict_eq_nil_iff _ _ _).mp hpasses
    exact ⟨(clean_le_iff config.maxRemoteBudget_pos.le).mp hcost,
      (activeReservationCount_eq_zero_iff run).mp hactive, (activeCount_eq_zero_iff run).mp hlocal⟩
  · exact reserved_isClose_zero run ((activeReservationCount_eq_zero_iff run).mp hcount)

/-- A run in which a handler has reserved and not settled yet: the verdict fails. -/
theorem verdict_of_reserved : ∃ tr p, Run Pool.Step (initial .default fun _ => .quality) tr p ∧
    evaluateVerdict p.state.metrics 5 600000 ≠ [] := by
  obtain ⟨tr, p, run, hcount⟩ := Pool.exists_run
    (P := fun (p : Pool (service .default fun _ => .quality)) =>
      p.state.budgetManager.activeReservationCount = 1)
    (initial .default fun _ => .quality) (.spawn sampleRequest :: advance 0 5 {})
    (by decide +kernel)
  refine ⟨tr, p, run, fun hpasses => ?_⟩
  have hempty := ((verdict_passes_iff run (by decide +kernel)).1.mp hpasses).2.1
  rw [(activeReservationCount_eq_zero_iff run).mpr hempty] at hcount
  cases hcount

end Passing

/-! ### The deployed service -/

section Deployed

variable {config : Config} {backends : BackendConfig} {classify : String → ComplexityTier}
  {q : Pool (deployment config backends classify)}
  {tr : List (Pool (deployment config backends classify) ×
    Choice (deployment config backends classify))}

/-- **The deployed service always passes**, once all requests have been answered, if nothing has
been interrupted and the prices are quantized: whatever the servers have answered, nothing is
overspent, no reservation is left and no slot is taken. -/
theorem deployed_verdict {quantum clock : ℚ} (hq : Quantized config backends quantum)
    (hcap : 0 ≤ config.maxCumulativeLatencyMs)
    (run : Run Pool.Step (initialDeployment config backends classify clock) tr q)
    (hdone : ∀ u ∈ q.threads, u.outcome.isSome) (hnot : Uninterrupted q) :
    evaluateVerdict q.state.1.metrics config.maxRemoteBudget config.maxCumulativeLatencyMs =
      [] := by
  obtain ⟨tr', p, run', hdeploys⟩ := exists_deploys run
  have hp := contracted_of_deploys hdeploys
  have hbudget := within_budget hq run' hp
  have hreserved := (valid_of_service run').reserved_nonneg.1
  have hslack : (0 : ℚ) ≤ BudgetManager.commitSlack := by norm_num [BudgetManager.commitSlack]
  rw [hdeploys.state]
  have hended := hdeploys.ended hdone
  obtain ⟨hpending, hlocal⟩ := quiescent run' (hp.raisesOnly (not_not_intro hnot))
    fun t ht hnone => by simpa [hnone] using hended t ht
  exact verdict_passes run' hcap (by linarith) hpending hlocal

/-- A run of the production defaults in which the verdict passes. -/
theorem deployed_verdict_default : ∃ tr q,
    Run Pool.Step (initialDeployment .default .default (fun _ => .quality) 0) tr q ∧
      q.state.1.budgetManager.cumulativeRemoteCost = 15 / 1000 ∧
      evaluateVerdict q.state.1.metrics 5 600000 = [] := by
  obtain ⟨tr, q, run, hdone, hnot, hcost⟩ := Pool.exists_run
    (P := fun (q : Pool (deployment .default .default fun _ => .quality)) =>
      (∀ u ∈ q.threads, u.outcome.isSome) ∧ Uninterrupted q ∧
        q.state.1.budgetManager.cumulativeRemoteCost = 15 / 1000)
    (initialDeployment .default .default (fun _ => .quality) 0) (sampleDeployment 22)
    (by decide +kernel)
  exact ⟨tr, q, run, hcost, deployed_verdict quantized_default (by decide +kernel) run hdone hnot⟩

/-- **The figures of `/status` add up** in the deployed service, in exact arithmetic with quantized
prices: what is spent, reserved and remaining is the budget, and the taken and the free slots are
the capacity. -/
theorem deployed_status_balanced {quantum clock : ℚ} (hq : Quantized config backends quantum)
    (run : Run Pool.Step (initialDeployment config backends classify clock) tr q) :
    q.state.1.status.remoteBudgetSpent + q.state.1.status.remoteBudgetReserved +
        q.state.1.status.remoteBudgetRemaining = q.state.1.status.remoteBudgetMax ∧
      q.state.1.status.localCapacityActive + q.state.1.status.localCapacityAvailable =
        q.state.1.status.localCapacityMax ∧ 0 ≤ q.state.1.status.localCapacityAvailable := by
  obtain ⟨tr', p, run', hdeploys⟩ := exists_deploys run
  have hbudget := within_budget hq run' (contracted_of_deploys hdeploys)
  have hconfig := BudgetManager.config_of_run (managerRun run')
  have hslots := p.state.queueMonitor.activeCount_le
  rw [hdeploys.state]
  dsimp only [AppState.status, BudgetManager.budgetSnapshot]
  rw [hconfig]
  refine ⟨?_, by ring, by omega⟩
  rw [max_eq_right (by simp only [Config.budget]; linarith)]
  ring

/-- A run of the production defaults in which a request has been reserved for. -/
theorem deployed_status_of_reserved : ∃ tr q,
    Run Pool.Step (initialDeployment .default .default (fun _ => .quality) 0) tr q ∧
      q.state.1.status.remoteBudgetReserved = 15 / 100 ∧
      q.state.1.status.remoteBudgetSpent + q.state.1.status.remoteBudgetReserved +
        q.state.1.status.remoteBudgetRemaining = q.state.1.status.remoteBudgetMax := by
  obtain ⟨tr, q, run, hreserved⟩ := Pool.exists_run
    (P := fun (q : Pool (deployment .default .default fun _ => .quality)) =>
      q.state.1.status.remoteBudgetReserved = 15 / 100)
    (initialDeployment .default .default (fun _ => .quality) 0) (sampleDeployment 8)
    (by decide +kernel)
  exact ⟨tr, q, run, hreserved, (deployed_status_balanced quantized_default run).1⟩

end Deployed

end InferenceRouter
