import InferenceRouter.Budget.Quantum
import InferenceRouter.Service.Deployment
import InferenceRouter.Service.Report
import InferenceRouter.Service.Spend

/-!
# Runs whose backends keep to the contract

The runs of the service that match a run of the deployed one: every call of a backend has been
answered within the contract. In such a run a local execution is free, a remote result costs what
its tokens cost, and the only exceptions of the backends are failed remote calls and interruptions.

## Main definitions

* `InferenceRouter.Contracted`: the calls of a pool are answered within the contract.
* `InferenceRouter.Quantized`: the configured prices are multiples of a quantum.

## Main results

* `InferenceRouter.deployment_refines`: **the deployed service refines the service**.
* `InferenceRouter.inQuanta_of_run`: what the budget manager reserves and charges.
-/

namespace InferenceRouter

open Foundation

variable {config : Config} {backends : BackendConfig} {classify : String → ComplexityTier}
  {interrupted : Prop} {p p' : Pool (service config classify)}
  {tr : List (Pool (service config classify) × Choice (service config classify))}

/-- The calls of the backends have been answered within the contract. -/
def Contracted (backends : BackendConfig) (interrupted : Prop)
    (p : Pool (service config classify)) : Prop :=
  ∀ t ∈ p.threads, ∀ ev ∈ t.history, BackendContract backends interrupted ev.effect ev.reply

/-- **A deployed run is matched by a run within the contract.** -/
theorem contracted_of_deploys {q : Pool (deployment config backends classify)}
    (h : Deploys p q) : Contracted backends (¬ Uninterrupted q) p := by
  intro t ht ev hev
  obtain ⟨i, hi⟩ := List.mem_iff_getElem?.mp ht
  obtain ⟨u, -, hmatches⟩ := h.getElem? hi
  obtain ⟨e, r⟩ := ev
  have hhonored := hmatches.honored _ hev
  cases e with
  | simulateLocalInference | simulateRemoteInference => exact hhonored rfl
  | tryReserve | commit | rollback | readReservation | budgetSnapshot | activeCount
  | isAtCapacity | maxConcurrency | acquire | release | getEstimate | record | countRoute
  | publish => trivial

/-- The handlers of the service have ended where those of the deployed one have. -/
theorem Deploys.ended {q : Pool (deployment config backends classify)} (h : Deploys p q)
    (hdone : ∀ u ∈ q.threads, u.outcome.isSome) : ∀ t ∈ p.threads, t.outcome.isSome := by
  intro t ht
  obtain ⟨i, hi⟩ := List.mem_iff_getElem?.mp ht
  obtain ⟨u, hu, hmatches⟩ := h.getElem? hi
  rw [← hmatches.outcome]
  exact hdone u (List.mem_of_getElem? hu)

/-- **The deployed service refines the service.** Every run of the deployed service is matched by a
run of the service that leads to the same state of the managers: every handler has performed the
same effects on the managers and has the same result, if it has ended, and the calls of the backends
are answered within their contract. -/
theorem deployment_refines {clock : ℚ} {q : Pool (deployment config backends classify)}
    {tr : List (Pool (deployment config backends classify) ×
      Choice (deployment config backends classify))}
    (run : Run Pool.Step (initialDeployment config backends classify clock) tr q) :
    ∃ tr' p, Run Pool.Step (initial config classify) tr' p ∧ p.state = q.state.1 ∧
      q.threads.map Thread.outcome = p.threads.map Thread.outcome ∧
      (∀ (i : ℕ) t u, p.threads[i]? = some t → q.threads[i]? = some u →
        primitive (backendImplementation config backends) t.history = outer u.history) ∧
      Contracted backends (¬ Uninterrupted q) p := by
  obtain ⟨tr', p, run', hdeploys⟩ := exists_deploys run
  refine ⟨tr', p, run', hdeploys.state.symm, hdeploys.map_outcome, fun i t u hi hu => ?_,
    contracted_of_deploys hdeploys⟩
  obtain ⟨u', hu', hmatches⟩ := hdeploys.getElem? hi
  obtain rfl := Option.some.inj (hu'.symm.trans hu)
  exact hmatches.primitive

/-- A run in which no server can be reached, and the remote call is mocked. -/
theorem deployment_refines_of_served : ∃ tr q,
    Run Pool.Step (initialDeployment .default .default (fun _ => .quality) 0) tr q ∧
      q.threads.map (fun u => u.outcome.isSome) = [true] ∧
      ∃ tr' p, Run Pool.Step (initial .default fun _ => .quality) tr' p ∧ p.state = q.state.1 := by
  obtain ⟨tr, q, run, hdone⟩ := Pool.exists_run
    (P := fun (q : Pool (deployment .default .default fun _ => .quality)) =>
      q.threads.map (fun u => u.outcome.isSome) = [true])
    (initialDeployment .default .default (fun _ => .quality) 0) (sampleDeployment 22)
    (by decide +kernel)
  obtain ⟨tr', p, run', hstate, -⟩ := deployment_refines run
  exact ⟨tr, q, run, hdone, tr', p, run', hstate⟩

/-- A later pool within the contract comes from an earlier one within it. -/
theorem Contracted.of_step {c : Choice (service config classify)} (h : p.Step c p')
    (hp' : Contracted backends interrupted p') : Contracted backends interrupted p := by
  intro t ht ev hev
  obtain ⟨i, hi⟩ := List.mem_iff_getElem?.mp ht
  obtain ⟨t', hi', -, hsuffix⟩ := Pool.continues_of_run (Run.start.step h) hi
  exact hp' t' (List.mem_of_getElem? hi') ev (hsuffix.subset hev)

/-! ### The answers of the backends -/

/-- What a backend has answered, by the contract. -/
def AnswerContract (backends : BackendConfig) (interrupted : Prop) :
    Backend × Except Exn BackendResult → Prop
  | (.local, .ok result) => result.actualCost = 0 ∧ 0 ≤ result.actualLatencyMs
  | (.remote, .ok result) =>
    result.actualCost = backends.tokenCost result ∧ 0 ≤ result.actualLatencyMs
  | (.local, .error x) => (∃ message, x = .baseException message) ∧ interrupted
  | (.remote, .error x) =>
    (∃ message, x = .remoteInferenceError message) ∨
      (∃ message, x = .baseException message) ∧ interrupted

/-- The answers that a handler has got are within the contract. -/
theorem Contracted.answers (hp : Contracted backends interrupted p)
    {t : Thread (service config classify)} (ht : t ∈ p.threads) :
    ∀ answer ∈ (summary t).answers, AnswerContract backends interrupted answer := by
  intro answer hanswer
  rw [summary, ← calls_eq_answers] at hanswer
  obtain ⟨⟨e, r⟩, hev, hcall⟩ := List.mem_filterMap.mp hanswer
  have hcontract := hp t ht _ hev
  cases e with
  | simulateLocalInference =>
    obtain rfl := Option.some.inj hcall
    cases r with
    | ok result => exact hcontract.2
    | error x => exact hcontract
  | simulateRemoteInference =>
    obtain rfl := Option.some.inj hcall
    cases r with
    | ok result => exact hcontract.2.2
    | error x => exact hcontract
  | tryReserve | commit | rollback | readReservation | budgetSnapshot | activeCount
  | isAtCapacity | maxConcurrency | acquire | release | getEstimate | record | countRoute
  | publish => cases hcall

/-- Local executions within the contract are free. -/
theorem Contracted.localFree (hp : Contracted backends interrupted p) : LocalFree p.threads := by
  rintro t ht ⟨b, out⟩ hanswer rfl result rfl
  exact (hp.answers ht _ hanswer).1

/-- The backends have raised only what is rolled back for, if nothing has been interrupted. -/
theorem Contracted.raisesOnly (hp : Contracted backends interrupted p) (hnot : ¬ interrupted) :
    BackendsRaiseOnly Exn.Caught p.threads := by
  rintro t ht ⟨b, out⟩ hanswer
  have hcontract := hp.answers ht _ hanswer
  rcases out with x | result
  · cases b with
    | «local» => exact absurd hcontract.2 hnot
    | remote =>
      rcases hcontract with ⟨message, rfl⟩ | ⟨-, hinterrupted⟩
      · exact trivial
      · exact absurd hinterrupted hnot
  · exact trivial

/-! ### Quantized prices -/

/-- The configured prices, as exact rationals, are multiples of a quantum that is larger than the
slacks. -/
structure Quantized (config : Config) (backends : BackendConfig) (quantum : ℚ) : Prop where
  slack : BudgetManager.commitSlack < quantum
  budget : config.maxRemoteBudget ∈ AddSubgroup.zmultiples quantum
  reservation : config.costPerRemoteRequest ∈ AddSubgroup.zmultiples quantum
  input : backends.remoteLlmInputPricePerToken ∈ AddSubgroup.zmultiples quantum
  output : backends.remoteLlmOutputPricePerToken ∈ AddSubgroup.zmultiples quantum
  cacheRead : backends.remoteLlmCacheReadPricePerToken ∈ AddSubgroup.zmultiples quantum
  cacheWrite : backends.remoteLlmCacheWritePricePerToken ∈ AddSubgroup.zmultiples quantum

variable {quantum : ℚ}

theorem Quantized.tokenCost (hq : Quantized config backends quantum) (result : BackendResult) :
    backends.tokenCost result ∈ AddSubgroup.zmultiples quantum := by
  have hmul : ∀ (n : ℤ) {price : ℚ}, price ∈ AddSubgroup.zmultiples quantum →
      (n : ℚ) * price ∈ AddSubgroup.zmultiples quantum := fun n price hprice =>
    zsmul_eq_mul price n ▸ AddSubgroup.zsmul_mem _ hprice n
  exact AddSubgroup.add_mem _ (AddSubgroup.add_mem _ (AddSubgroup.add_mem _ (hmul _ hq.input)
    (hmul _ hq.output)) (hmul _ hq.cacheRead)) (hmul _ hq.cacheWrite)

/-- What a handler does next is about its request. -/
theorem about_of_run (run : Run Pool.Step (initial config classify) tr p)
    {t : Thread (service config classify)} (ht : t ∈ p.threads) {e : Effect}
    (he : t.next = some e) : Acts config t.arg t.history e := by
  have hmeets := (Pool.answered_of_run rfl run t ht).meets
    (inference_reports config classify t.arg)
  obtain ⟨k, hprogram⟩ := Thread.exists_perform_of_next he
  rw [hprogram] at hmeets
  exact hmeets.1

/-- What the budget manager reserves and charges in a step comes in multiples of the quantum. -/
theorem inQuanta_of_event (run : Run Pool.Step (initial config classify) tr p)
    (hp : Contracted backends interrupted p) (hq : Quantized config backends quantum)
    {c : Choice (service config classify)} {ev : BudgetEvent} (hev : budgetEvent p c = some ev) :
    InQuanta quantum ev := by
  cases c with
  | spawn => cases hev
  | act a =>
    cases a with
    | reap readings =>
      obtain rfl := Option.some.inj hev
      exact trivial
    | connect | consume | disconnect | mark => cases hev
  | resume i o =>
    obtain ⟨e, hnext, hev⟩ := Option.bind_eq_some_iff.mp hev
    obtain ⟨t, hi, hnext⟩ := Option.bind_eq_some_iff.mp hnext
    have ht := List.mem_of_getElem? hi
    cases e with
    | tryReserve requestId cost latencyMs =>
      obtain rfl := Option.some.inj hev
      have hcost : cost ∈ AddSubgroup.zmultiples quantum := by
        rcases (about_of_run run ht hnext).2 with rfl | rfl
        · exact AddSubgroup.zero_mem _
        · exact hq.reservation
      generalize (p.state.budgetManager.tryReserve requestId cost latencyMs o.uuid o.now).reply
        = reply
      rcases reply with error | _ | ref
      · exact trivial
      · exact trivial
      · exact hcost
    | commit ref actualCost actualLatencyMs =>
      obtain rfl := Option.some.inj hev
      obtain ⟨g, b, result, -, hcharge, htally⟩ := allowed_of_run run ht hnext
      have hanswer : (b, .ok result) ∈ (summary t).answers := by
        rw [summary, htally]
        exact List.mem_cons_self
      have hcost : actualCost ∈ AddSubgroup.zmultiples quantum := by
        have hcontract := hp.answers ht _ hanswer
        cases b with
        | «local» =>
          cases hcharge
          exact AddSubgroup.zero_mem _
        | remote =>
          cases hcharge
          rw [hcontract.1]
          exact hq.tokenCost result
      generalize (p.state.budgetManager.commit (p.state.budgetManager.deref ref).id actualCost
        actualLatencyMs).reply = reply
      rcases reply with error | _
      · exact trivial
      · exact hcost
    | rollback ref =>
      obtain rfl := Option.some.inj hev
      exact trivial
    | readReservation | budgetSnapshot | activeCount | isAtCapacity | maxConcurrency | acquire
    | release | getEstimate | record | countRoute | publish | simulateLocalInference
    | simulateRemoteInference => cases hev

/-- **What the budget manager reserves and charges** in a run comes in multiples of the
quantum. -/
theorem inQuanta_of_run (run : Run Pool.Step (initial config classify) tr p)
    (hp : Contracted backends interrupted p) (hq : Quantized config backends quantum) :
    ∀ t ∈ budgetTrace tr, InQuanta quantum t.2 := by
  induction run with
  | start => simp [budgetTrace]
  | @step tr p c p' run h ih =>
    have hp := Contracted.of_step h hp
    intro t ht
    obtain ⟨⟨p₁, c₁⟩, hmem, hmap⟩ := List.mem_filterMap.mp ht
    rcases List.mem_cons.mp hmem with heq | hmem
    · cases heq
      obtain ⟨ev, hev, rfl⟩ := Option.map_eq_some_iff.mp hmap
      exact inQuanta_of_event run hp hq hev
    · exact ih hp _ (List.mem_filterMap.mpr ⟨_, hmem, hmap⟩)

end InferenceRouter
