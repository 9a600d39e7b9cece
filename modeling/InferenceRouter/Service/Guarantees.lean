import InferenceRouter.Service.Contracted

/-!
# What the deployed service guarantees

The deployed service, with any servers behind its backends, over whole runs. The money that it
spends and reserves never passes the budget, without any slack, if the prices are multiples of a
quantum. The decimals of the production defaults are, and the amounts of the model are exact. The
doubles of the code are no such multiples, so that there the sums can pass the budget by rounding.
What the service has spent is the price of the tokens that its responses report.

## Main definitions

* `InferenceRouter.BackendConfig.bill`: the price of the tokens of a response.

## Main results

* `InferenceRouter.deployed_within_budget`: the budget holds without slack, with the run
  `InferenceRouter.deployed_within_budget_default` of the production defaults.
* `InferenceRouter.deployed_ledger_eq_bill`: the ledger is the sum of the bills.
* `InferenceRouter.deployed_ledger_add_fallbacks`: the ledger and the answers.
-/

namespace InferenceRouter

open Foundation

variable {config : Config} {backends : BackendConfig} {classify : String → ComplexityTier}
  {q : Pool (deployment config backends classify)}
  {tr : List (Pool (deployment config backends classify) ×
    Choice (deployment config backends classify))}

/-! ### The budget -/

/-- A run within the contract keeps within its budget, if the prices are quantized. -/
theorem within_budget {quantum : ℚ} {interrupted : Prop} {p : Pool (service config classify)}
    {tr : List (Pool (service config classify) × Choice (service config classify))}
    (hq : Quantized config backends quantum) (run : Run Pool.Step (initial config classify) tr p)
    (hp : Contracted backends interrupted p) :
    p.state.budgetManager.cumulativeRemoteCost + p.state.budgetManager.reservedForExecution ≤
      config.maxRemoteBudget :=
  BudgetManager.exposure_le_cap (managerRun run) hq.slack (inQuanta_of_run run hp hq) hq.budget

/-- **The deployed service keeps within its budget**, in exact arithmetic without any slack, and
whatever is interrupted, if the prices are multiples of a quantum that is larger than the slacks. -/
theorem deployed_within_budget {quantum clock : ℚ} (hq : Quantized config backends quantum)
    (run : Run Pool.Step (initialDeployment config backends classify clock) tr q) :
    q.state.1.budgetManager.cumulativeRemoteCost + q.state.1.budgetManager.reservedForExecution ≤
      config.maxRemoteBudget := by
  obtain ⟨tr', p, run', hdeploys⟩ := exists_deploys run
  rw [hdeploys.state]
  exact within_budget hq run' (contracted_of_deploys hdeploys)

/-- The decimals of the production defaults are multiples of a twentieth of the price of an input
token. -/
theorem quantized_default : Quantized .default .default (5 / 10 ^ 7) where
  slack := by norm_num [BudgetManager.commitSlack]
  budget := AddSubgroup.mem_zmultiples_iff.mpr ⟨10 ^ 7, by norm_num [Config.default]⟩
  reservation := AddSubgroup.mem_zmultiples_iff.mpr ⟨300000, by norm_num [Config.default]⟩
  input := AddSubgroup.mem_zmultiples_iff.mpr ⟨20, by norm_num [BackendConfig.default]⟩
  output := AddSubgroup.mem_zmultiples_iff.mpr ⟨100, by norm_num [BackendConfig.default]⟩
  cacheRead := AddSubgroup.mem_zmultiples_iff.mpr ⟨2, by norm_num [BackendConfig.default]⟩
  cacheWrite := AddSubgroup.mem_zmultiples_iff.mpr ⟨25, by norm_num [BackendConfig.default]⟩

/-- A run of the production defaults in which a remote call is served. -/
theorem deployed_within_budget_default : ∃ tr q,
    Run Pool.Step (initialDeployment .default .default (fun _ => .quality) 0) tr q ∧
      q.state.1.budgetManager.cumulativeRemoteCost = 15 / 1000 ∧
      q.state.1.budgetManager.cumulativeRemoteCost +
        q.state.1.budgetManager.reservedForExecution ≤ 5 := by
  obtain ⟨tr, q, run, hcost⟩ := Pool.exists_run
    (P := fun (q : Pool (deployment .default .default fun _ => .quality)) =>
      q.state.1.budgetManager.cumulativeRemoteCost = 15 / 1000)
    (initialDeployment .default .default (fun _ => .quality) 0) (sampleDeployment 22)
    (by decide +kernel)
  exact ⟨tr, q, run, hcost, deployed_within_budget quantized_default run⟩

/-! ### The bills -/

/-- The price of the tokens that a response reports. Local executions are free. -/
def BackendConfig.bill (backends : BackendConfig) (response : InferenceResponse) : ℚ :=
  if response.route = .remote then
    response.promptTokens * backends.remoteLlmInputPricePerToken +
      response.completionTokens * backends.remoteLlmOutputPricePerToken +
      response.cacheReadTokens * backends.remoteLlmCacheReadPricePerToken +
      response.cacheWriteTokens * backends.remoteLlmCacheWritePricePerToken
  else 0

/-- The bill of a handler: that of its response, if it has answered. -/
def BackendConfig.billed (backends : BackendConfig) :
    Option (Except Exn InferenceResponse) → ℚ
  | some (.ok response) => backends.bill response
  | some (.error _) | none => 0

theorem InferenceResponse.Tells.bill_eq {response : InferenceResponse}
    {request : InferenceRequest} {result : BackendResult} (h : response.Tells request result)
    (hroute : response.route = .remote) : backends.bill response = backends.tokenCost result := by
  rw [BackendConfig.bill, if_pos hroute, BackendConfig.tokenCost, h.promptTokens,
    h.completionTokens, h.cacheReadTokens, h.cacheWriteTokens]

section Service

variable {interrupted : Prop} {p : Pool (service config classify)}
  {tr : List (Pool (service config classify) × Choice (service config classify))}

/-- A handler that answers has committed its bill, and answers with it. -/
theorem charges_eq_bill (run : Run Pool.Step (initial config classify) tr p)
    (hp : Contracted backends interrupted p) {t : Thread (service config classify)}
    (ht : t ∈ p.threads) {response : InferenceResponse} (hout : t.outcome = some (.ok response)) :
    (summary t).charges.sum.1 = backends.bill response ∧
      response.actualCost = backends.bill response := by
  have hreported := reported_of_run run ht hout
  have hend := ending_of_run run ht hout
  have hanswers := hp.answers ht
  rw [calls_eq_answers, ← summary] at hreported
  generalize published t.history = ps at hreported
  generalize rollbacks t.history = refs at hreported
  generalize hfigures : Except.map InferenceResponse.figures (.ok response : Except Exn _) = out
    at hend
  generalize summary t = s at hreported hend hanswers ⊢
  obtain ⟨granted, resolved, slots, charges, answers⟩ := s
  cases hreported with
  | @served route decided result _ hdecided htells hroute hcost =>
    have hcontract := hanswers _ List.mem_cons_self
    generalize hbackend : route.backend = b at hend hcontract
    cases hend with
    | failed => cases hfigures
    | served =>
      cases b with
      | remote =>
        have hremote : route = .remote := by
          by_contra hne
          rw [RouteDecision.backend, if_neg hne] at hbackend
          cases hbackend
        rw [htells.bill_eq (hroute.trans hremote), hcost, ← hcontract.1]
        exact ⟨add_zero _, rfl⟩
      | «local» =>
        have hlocal : response.route ≠ .remote := by
          intro hremote
          rw [RouteDecision.backend, if_pos (hroute.symm.trans hremote)] at hbackend
          cases hbackend
        rw [BackendConfig.bill, if_neg hlocal, hcost]
        exact ⟨add_zero _, hcontract.1⟩
  | fellBack hdecided htold htells hroute hcost =>
    rw [BackendConfig.bill, if_neg (by rw [hroute]; simp)]
    cases hend with
    | failed => cases hfigures
    | fellBack => exact ⟨rfl, hcost⟩

/-- A handler that has ended has committed its bill. -/
theorem charges_eq_billed (run : Run Pool.Step (initial config classify) tr p)
    (hp : Contracted backends interrupted p) {t : Thread (service config classify)}
    (ht : t ∈ p.threads) (hdone : t.outcome.isSome) :
    (summary t).charges.sum.1 = backends.billed t.outcome := by
  obtain ⟨out, hout⟩ := Option.isSome_iff_exists.mp hdone
  rw [hout]
  cases out with
  | ok response => exact (charges_eq_bill run hp ht hout).1
  | error x =>
    rw [(ending_of_run run ht hout).charges_of_error]
    rfl

/-- The cumulative cost is the sum of the bills, once all handlers have ended. -/
theorem ledger_eq_bill (run : Run Pool.Step (initial config classify) tr p)
    (hp : Contracted backends interrupted p) (hdone : ∀ t ∈ p.threads, t.outcome.isSome) :
    p.state.budgetManager.cumulativeRemoteCost =
      (p.threads.map fun t => backends.billed t.outcome).sum := by
  have hspent := congrArg (AddMonoidHom.fst ℚ ℚ) (cumulative_eq_committed run)
  rw [committed, map_list_sum, tallies, List.map_map, List.map_map] at hspent
  exact hspent.trans (congrArg List.sum (List.map_congr_left fun t ht =>
    charges_eq_billed run hp ht (hdone t ht)))

end Service

/-- **The ledger of the deployed service is the sum of the bills**, once all requests have been
answered: what the budget manager has recorded is the price of the tokens that the responses report
for remote calls, and every response names its bill. -/
theorem deployed_ledger_eq_bill {clock : ℚ}
    (run : Run Pool.Step (initialDeployment config backends classify clock) tr q)
    (hdone : ∀ u ∈ q.threads, u.outcome.isSome) :
    q.state.1.budgetManager.cumulativeRemoteCost =
        (q.threads.map fun u => backends.billed u.outcome).sum ∧
      ∀ u ∈ q.threads, ∀ response, u.outcome = some (.ok response) →
        response.actualCost = backends.bill response := by
  obtain ⟨tr', p, run', hdeploys⟩ := exists_deploys run
  have hp := contracted_of_deploys hdeploys
  have hbills : (q.threads.map fun u => backends.billed u.outcome) =
      p.threads.map fun t => backends.billed t.outcome := by
    have houtcomes := congrArg (List.map backends.billed) hdeploys.map_outcome
    rwa [List.map_map, List.map_map] at houtcomes
  refine ⟨?_, fun u hu response hout => ?_⟩
  · rw [hdeploys.state, hbills]
    exact ledger_eq_bill run' hp (hdeploys.ended hdone)
  · obtain ⟨i, hi⟩ := List.mem_iff_getElem?.mp hu
    obtain ⟨t, ht, hmatches⟩ := hdeploys.getElem?' hi
    rw [hmatches.outcome] at hout
    exact (charges_eq_bill run' hp (List.mem_of_getElem? ht) hout).2

/-- **The ledger and the answers of the deployed service**, once all requests have been answered. In
the run of the service that matches the deployed one, the cumulative cost is the sum of the costs
answered, and the cumulative latency misses only those of the local executions that have answered
for failed calls. -/
theorem deployed_ledger_add_fallbacks {clock : ℚ}
    (run : Run Pool.Step (initialDeployment config backends classify clock) tr q)
    (hdone : ∀ u ∈ q.threads, u.outcome.isSome) :
    ∃ tr' p, Run Pool.Step (initial config classify) tr' p ∧
      q.threads.map Thread.outcome = p.threads.map Thread.outcome ∧
      q.state.1.budgetManager.cumulativeRemoteCost = ((answered p.threads).map Prod.fst).sum ∧
      q.state.1.budgetManager.cumulativeActualLatencyMs +
          (p.threads.map fun t => (summary t).fallbackLatencyMs).sum =
        ((answered p.threads).map Prod.snd).sum := by
  obtain ⟨tr', p, run', hdeploys⟩ := exists_deploys run
  refine ⟨tr', p, run', hdeploys.map_outcome, ?_⟩
  rw [hdeploys.state]
  exact ledger_add_fallbacks run' (hdeploys.ended hdone) (contracted_of_deploys hdeploys).localFree

/-- A run of the production defaults in which a remote call is served and billed. -/
theorem deployed_bill_of_served : ∃ tr q,
    Run Pool.Step (initialDeployment .default .default (fun _ => .quality) 0) tr q ∧
      q.threads.length = 1 ∧ q.state.1.budgetManager.cumulativeRemoteCost = 15 / 1000 ∧
      q.state.1.budgetManager.cumulativeRemoteCost =
        (q.threads.map fun u => BackendConfig.default.billed u.outcome).sum := by
  obtain ⟨tr, q, run, hlength, hdone, hcost⟩ := Pool.exists_run
    (P := fun (q : Pool (deployment .default .default fun _ => .quality)) =>
      q.threads.length = 1 ∧ (∀ u ∈ q.threads, u.outcome.isSome) ∧
        q.state.1.budgetManager.cumulativeRemoteCost = 15 / 1000)
    (initialDeployment .default .default (fun _ => .quality) 0) (sampleDeployment 22)
    (by decide +kernel)
  exact ⟨tr, q, run, hlength, hcost, (deployed_ledger_eq_bill run hdone).1⟩

end InferenceRouter
