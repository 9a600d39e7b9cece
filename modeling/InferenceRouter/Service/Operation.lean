import InferenceRouter.Service.Generations
import InferenceRouter.Service.Verdict

/-!
# The deployed process

The whole program: the handlers of `app/main.py` with the backends of `app/backends.py`, on managers
that a reset replaces while handlers of the old ones are at work. Each of its runs is matched by a
run of the process in which the backends keep to their contract, and seen from the managers of one
generation this is a run of the service within the contract. What the deployed service guarantees,
every generation of the deployed process does.

## Main definitions

* `InferenceRouter.processImplementation`, `InferenceRouter.deployedProcess`.
* `InferenceRouter.ProcessContract`: what the calls of the backends are answered with.
* `InferenceRouter.resets`: the number of resets in a run.

## Main results

* `InferenceRouter.generations_within_budget`: the budget of every generation, and of all of them.
* `InferenceRouter.generations_ledger_eq_bill`: the ledgers are the sum of the bills.
* `InferenceRouter.verdict_after_reset`: the verdict on the current managers.
-/

namespace InferenceRouter

open Foundation

/-! ### The system -/

/-- The calls of the backends as routines, whichever managers the handler has. -/
def processImplementation (config : Config) (backends : BackendConfig) :
    Implementation processSignature backendSignature BackendResult
  | .capture => none
  | .on _ e => backendImplementation config backends e

/-- The process with the backends. -/
@[reducible] def deployedProcess (config : Config) (backends : BackendConfig)
    (classify : String → ComplexityTier) : System (processSignature.sum backendSignature) :=
  (process config classify).implement (processImplementation config backends) backendDevice

/-- The deployed process at start-up, when `time.perf_counter` reads `clock`. -/
def initialDeployedProcess (config : Config) (backends : BackendConfig)
    (classify : String → ComplexityTier) (clock : ℚ) :
    Pool (deployedProcess config backends classify) :=
  ⟨(.init config, clock), []⟩

/-- What the calls of the backends are answered with. -/
def ProcessContract (backends : BackendConfig) (interrupted : Prop) :
    (e : ProcessEffect) → e.Reply → Prop
  | .capture, _ => True
  | .on _ e, r => BackendContract backends interrupted e r

variable {config : Config} {backends : BackendConfig} {classify : String → ComplexityTier}
  {interrupted : Prop}

/-! ### Matching the process -/

/-- Managers that a handler does not change. -/
theorem ProcessState.update_view {s : ProcessState} {g : ℕ} {m : Managers}
    (hm : s.generations[g]? = some m) : s.update g (s.view m) = s := by
  obtain ⟨hlt, rfl⟩ := List.getElem?_eq_some_iff.mp hm
  have hset : s.generations.set g s.generations[g] = s.generations := List.set_getElem_self hlt
  rw [ProcessState.update]
  exact congrArg (fun generations => { s with generations := generations }) hset

/-- **The backends keep to the contract**, whichever managers their handlers have. -/
theorem processImplementation_fulfils : (processImplementation config backends).Fulfils
    (process config classify) backendDevice (ProcessContract backends interrupted)
    (Tolerated interrupted) (RoutineHistory interrupted) := by
  have hf : (backendImplementation config backends).Fulfils (service config classify) backendDevice
      (BackendContract backends interrupted) (Tolerated interrupted)
      (RoutineHistory interrupted) := backendImplementation_fulfils
  refine ⟨hf.keeps, fun e routine hroutine => ?_, fun s e r hsome hr hready => ?_⟩
  · cases e with
    | capture => cases hroutine
    | on g e => exact hf.meets e routine hroutine
  · cases e with
    | capture => cases hsome
    | on g e =>
      obtain ⟨o, rs, hexec⟩ := hready
      obtain ⟨m, hm, -⟩ := Option.bind_eq_some_iff.mp hexec
      obtain ⟨o', hanswer⟩ := hf.answers (s.view m) e r hsome hr (exec_total _ e)
      refine ⟨o', Option.bind_eq_some_iff.mpr ⟨m, hm, ?_⟩⟩
      refine Option.map_eq_some_iff.mpr ⟨_, hanswer, ?_⟩
      dsimp only
      rw [ProcessState.update_view hm]

/-- **No handler of the process is ever blocked**: the managers that it has captured exist. -/
theorem process_live : (process config classify).Live (.init config) := by
  rintro p ⟨tr, run⟩ t ht e hnext
  have hallowed := Pool.allowed_of_run (inferenceAcrossResets_meets config classify) rfl run ht
    hnext
  cases e with
  | capture => exact ⟨{}, _, rfl⟩
  | on g e =>
    have hlt := (agree_of_run run).generation_lt _ (List.mem_map_of_mem ht) g hallowed.1
    obtain ⟨o, rs, hexec⟩ := exec_total (p.state.view p.state.generations[g]) e
    have hexecuted : ((p.state.view p.state.generations[g]).exec e o).map
        (fun rs => (rs.1, p.state.update g rs.2)) = some (rs.1, p.state.update g rs.2) := by
      rw [hexec]
      rfl
    exact ⟨o, _, Option.bind_eq_some_iff.mpr
      ⟨p.state.generations[g], List.getElem?_eq_getElem hlt, hexecuted⟩⟩

/-- The pool `q` of the deployed process has come as far as the pool `p` of the process. -/
abbrev Operates (p : Pool (process config classify))
    (q : Pool (deployedProcess config backends classify)) : Prop :=
  p.Matches (ProcessContract backends (¬ Uninterrupted q)) (RoutineHistory (¬ Uninterrupted q)) q

variable {p : Pool (process config classify)} {q : Pool (deployedProcess config backends classify)}
  {tr : List (Pool (deployedProcess config backends classify) ×
    Choice (deployedProcess config backends classify))}

/-- **Every run of the deployed process is matched** by a run of the process. -/
theorem exists_operates {clock : ℚ}
    (run : Run Pool.Step (initialDeployedProcess config backends classify clock) tr q) :
    ∃ tr' p, Run Pool.Step (initialProcess config classify) tr' p ∧ Operates p q :=
  Pool.exists_matching processImplementation_fulfils process_live run tolerated_of_interruptions

/-! ### The generations -/

/-- An event on the managers of a handler. -/
theorem mem_of_mem_own {h : History processSignature} {ev : Event signature} (hev : ev ∈ own h) :
    ∃ g, (⟨.on g ev.effect, ev.reply⟩ : Event processSignature) ∈ h := by
  fun_induction own h with
  | case1 => cases hev
  | case2 r h ih =>
    obtain ⟨g, hg⟩ := ih hev
    exact ⟨g, List.mem_cons_of_mem _ hg⟩
  | case3 g e r h ih =>
    rcases List.mem_cons.mp hev with rfl | hev
    · exact ⟨g, List.mem_cons_self⟩
    · obtain ⟨g', hg'⟩ := ih hev
      exact ⟨g', List.mem_cons_of_mem _ hg'⟩

/-- The calls of the backends in a process that a deployed one matches are answered within the
contract. -/
theorem Operates.contract (h : Operates p q) {t : Thread (process config classify)}
    (ht : t ∈ p.threads) {g : ℕ} {e : Effect} {r : e.Reply}
    (hev : (⟨.on g e, r⟩ : Event processSignature) ∈ t.history) :
    BackendContract backends (¬ Uninterrupted q) e r := by
  obtain ⟨i, hi⟩ := List.mem_iff_getElem?.mp ht
  obtain ⟨u, -, hmatches⟩ := h.getElem? hi
  have hhonored := hmatches.honored _ hev
  cases e with
  | simulateLocalInference | simulateRemoteInference => exact hhonored rfl
  | tryReserve | commit | rollback | readReservation | budgetSnapshot | activeCount
  | isAtCapacity | maxConcurrency | acquire | release | getEstimate | record | countRoute
  | publish => trivial

/-- **Every generation of a deployed process** is a service whose backends keep to the contract. -/
theorem exists_contracted (h : Operates p q)
    {tr : List (Pool (process config classify) × Choice (process config classify))}
    (run : Run Pool.Step (initialProcess config classify) tr p) {g : ℕ} {m : Managers}
    (hm : p.state.generations[g]? = some m) :
    ∃ tr' r, Run Pool.Step (initial config classify) tr' r ∧ Shadows g p r ∧
      r.state.managers = m ∧ Contracted backends (¬ Uninterrupted q) r := by
  obtain ⟨tr', r, run', hr, hmanagers⟩ := exists_service run hm
  refine ⟨tr', r, run', hr, hmanagers, fun u hu ev hev => ?_⟩
  obtain ⟨t, ht, hfollows⟩ := exists_of_mem hr.threads hu
  cases hfollows with
  | acting hgen =>
    obtain ⟨g', hmem⟩ := mem_of_mem_own hev
    exact h.contract ht hmem
  | idle => cases hev

/-! ### The budget of the process -/

/-- The step is a reset. -/
def isReset : Choice (deployedProcess config backends classify) → Bool
  | .act (.reset _) => true
  | .act (.service _) | .spawn _ | .resume .. => false

/-- The number of resets in a run. -/
def resets (tr : List (Pool (deployedProcess config backends classify) ×
    Choice (deployedProcess config backends classify))) : ℕ :=
  tr.countP fun c => isReset c.2

theorem length_exec {s s' : ProcessState} {e : ProcessEffect} {o : Oracle} {r : e.Reply}
    (h : s.exec e o = some (r, s')) : s'.generations.length = s.generations.length := by
  cases e with
  | capture =>
    cases h
    rfl
  | on g e =>
    obtain ⟨m, -, hmap⟩ := Option.bind_eq_some_iff.mp h
    obtain ⟨⟨r', app⟩, -, heq⟩ := Option.map_eq_some_iff.mp hmap
    cases heq
    exact length_update s g app

theorem length_act {s s' : ProcessState} {a : ProcessAction} (h : s.act config a = some s') :
    s'.generations.length = s.generations.length +
      (if isReset (.act a : Choice (deployedProcess config backends classify)) then 1 else 0) := by
  cases a with
  | service action =>
    obtain ⟨m, -, hmap⟩ := Option.bind_eq_some_iff.mp h
    obtain ⟨app, -, rfl⟩ := Option.map_eq_some_iff.mp hmap
    exact length_update s s.current app
  | reset =>
    cases h
    exact List.length_append

/-- Every reset adds a generation. -/
theorem length_generations {clock : ℚ}
    (run : Run Pool.Step (initialDeployedProcess config backends classify clock) tr q) :
    q.state.1.generations.length = resets tr + 1 := by
  induction run with
  | start => rfl
  | @step tr q c q' run h ih =>
    have hresets : resets ((q, c) :: tr) = resets tr + if isReset c then 1 else 0 :=
      List.countP_cons
    rw [hresets]
    cases h.outcome with
    | spawned arg => exact ih
    | @resumed pre u post e k o r s' hthreads hprogram hexec =>
      cases e with
      | inl e =>
        obtain ⟨⟨r', s₁⟩, hsys, heq⟩ := Option.map_eq_some_iff.mp hexec
        cases heq
        exact (length_exec hsys).trans ih
      | inr e =>
        obtain ⟨⟨r', d⟩, -, heq⟩ := Option.map_eq_some_iff.mp hexec
        cases heq
        exact ih
    | @acted a s' hact =>
      obtain ⟨s₁, hsys, rfl⟩ := Option.map_eq_some_iff.mp hact
      have hlength := @length_act config backends classify _ _ _ hsys
      dsimp only
      omega

/-- **The budget across resets.** In every run of the deployed process, whatever the servers answer,
every generation of managers keeps within the budget, in exact arithmetic without any slack, if the
prices are multiples of a quantum; and the process has not spent more than one budget for its start
and one for every reset. -/
theorem generations_within_budget {quantum clock : ℚ} (hq : Quantized config backends quantum)
    (run : Run Pool.Step (initialDeployedProcess config backends classify clock) tr q) :
    (∀ m ∈ q.state.1.generations, m.budgetManager.cumulativeRemoteCost +
        m.budgetManager.reservedForExecution ≤ config.maxRemoteBudget) ∧
      (q.state.1.generations.map fun m => m.budgetManager.cumulativeRemoteCost).sum ≤
        (resets tr + 1) * config.maxRemoteBudget := by
  obtain ⟨tr', p, run', h⟩ := exists_operates run
  have hbudget : ∀ m ∈ q.state.1.generations, m.budgetManager.cumulativeRemoteCost +
      m.budgetManager.reservedForExecution ≤ config.maxRemoteBudget ∧
      0 ≤ m.budgetManager.reservedForExecution := by
    intro m hm
    rw [h.state] at hm
    obtain ⟨g, hg⟩ := List.mem_iff_getElem?.mp hm
    obtain ⟨tr'', r, run'', -, rfl, hcontracted⟩ := exists_contracted h run' hg
    exact ⟨within_budget hq run'' hcontracted, (valid_of_service run'').reserved_nonneg.1⟩
  refine ⟨fun m hm => (hbudget m hm).1, ?_⟩
  have hle : ∀ x ∈ q.state.1.generations.map fun m => m.budgetManager.cumulativeRemoteCost,
      x ≤ config.maxRemoteBudget := by
    intro x hx
    obtain ⟨m, hm, rfl⟩ := List.mem_map.mp hx
    obtain ⟨hexposure, hreserved⟩ := hbudget m hm
    linarith
  have hsum := List.sum_le_card_nsmul _ _ hle
  rw [List.length_map, length_generations run, nsmul_eq_mul] at hsum
  exact_mod_cast hsum

/-- A request of which the handler performs `n` effects before a reset, and one that is served after
it. -/
def aroundReset (n : ℕ) : List (Choice (deployedProcess .default .default fun _ => .quality)) :=
  .spawn sampleRequest :: List.replicate n (.resume 0 ({}, sampleReply)) ++
  .act (.reset "") :: .spawn sampleRequest :: List.replicate 23 (.resume 1 ({}, sampleReply))

/-- A run in which the budgets of two generations are used. -/
theorem generations_within_budget_default : ∃ tr q,
    Run Pool.Step (initialDeployedProcess .default .default (fun _ => .quality) 0) tr q ∧
      resets tr = 1 ∧
      q.state.1.generations.map (fun m => m.budgetManager.cumulativeRemoteCost) =
        [15 / 1000, 15 / 1000] ∧
      (q.state.1.generations.map fun m => m.budgetManager.cumulativeRemoteCost).sum ≤ 10 := by
  obtain ⟨tr, q, run, hresets, hspent⟩ := Pool.exists_run_trace
    (P := fun tr (q : Pool (deployedProcess .default .default fun _ => .quality)) =>
      resets tr = 1 ∧ q.state.1.generations.map (fun m => m.budgetManager.cumulativeRemoteCost) =
        [15 / 1000, 15 / 1000])
    (initialDeployedProcess .default .default (fun _ => .quality) 0) (aroundReset 23)
    (by decide +kernel)
  have hbudget := (generations_within_budget quantized_default run).2
  rw [hresets] at hbudget
  refine ⟨tr, q, run, hresets, hspent, hbudget.trans ?_⟩
  norm_num [Config.default]

/-! ### The bills -/

/-- A handler that has ended has captured its managers. -/
theorem exists_generation {tr : List (Pool (process config classify) ×
    Choice (process config classify))}
    (run : Run Pool.Step (initialProcess config classify) tr p)
    {t : Thread (process config classify)} (ht : t ∈ p.threads) (hdone : t.outcome.isSome) :
    ∃ g, generation t.history = some g := by
  by_contra hnone
  have hgen : generation t.history = none :=
    Option.eq_none_iff_forall_ne_some.mpr fun g hg => hnone ⟨g, hg⟩
  have hown := own_eq_nil run t ht hgen
  have answered := Pool.answered_of_run rfl run t ht
  obtain ⟨arg, h, program⟩ := t
  cases h with
  | nil =>
    obtain rfl : program = inferenceAcrossResets config classify arg := answered.unique .start
    cases hdone
  | cons ev h =>
    obtain ⟨e, r⟩ := ev
    cases e with
    | capture => cases hgen
    | on g e => cases hown

/-- A handler that has ended has committed its bill to the ledger of its generation. -/
theorem Operates.charges_of_ended (h : Operates p q)
    {tr : List (Pool (process config classify) × Choice (process config classify))}
    (run : Run Pool.Step (initialProcess config classify) tr p)
    {t : Thread (process config classify)} (ht : t ∈ p.threads) (hdone : t.outcome.isSome) :
    (tally (own t.history)).charges.sum.1 = backends.billed t.outcome := by
  obtain ⟨g, hgen⟩ := exists_generation run ht hdone
  have hlt := (agree_of_run run).generation_lt _ (List.mem_map_of_mem ht) g hgen
  obtain ⟨tr', r, run', hr, -, hcontracted⟩ :=
    exists_contracted h run (List.getElem?_eq_getElem hlt)
  obtain ⟨u, hu, hfollows⟩ :=
    exists_of_mem (List.Forall₂.flip (R := flip (Follows g)) hr.threads) ht
  obtain ⟨hhistory, hout⟩ := Follows.outcome hfollows hgen
  rw [← hhistory, ← hout]
  exact charges_eq_billed run' hcontracted hu (hout ▸ hdone)

/-- **The ledgers are the sum of the bills**, across resets: once all requests have been answered,
what the budget managers of all generations have recorded is the price of the tokens that the
responses report for remote calls. -/
theorem generations_ledger_eq_bill {clock : ℚ}
    (run : Run Pool.Step (initialDeployedProcess config backends classify clock) tr q)
    (hdone : ∀ u ∈ q.threads, u.outcome.isSome) :
    (q.state.1.generations.map fun m => m.budgetManager.cumulativeRemoteCost).sum =
      (q.threads.map fun u => backends.billed u.outcome).sum := by
  obtain ⟨tr', p, run', h⟩ := exists_operates run
  have hbills : (q.threads.map fun u => backends.billed u.outcome) =
      p.threads.map fun t => backends.billed t.outcome := by
    have houtcomes := congrArg (List.map backends.billed) h.map_outcome
    rwa [List.map_map, List.map_map] at houtcomes
  have hended : ∀ t ∈ p.threads, t.outcome.isSome := by
    intro t ht
    obtain ⟨u, hu, hmatches⟩ := exists_of_mem h.threads ht
    rw [← hmatches.outcome]
    exact hdone u hu
  have hspent := congrArg (AddMonoidHom.fst ℚ ℚ) (sum_ledgers run')
  rw [committed, map_list_sum, map_list_sum, histories, List.map_map, List.map_map, List.map_map,
    List.map_map] at hspent
  rw [h.state, hbills]
  refine hspent.trans (congrArg List.sum (List.map_congr_left fun t ht => ?_))
  exact h.charges_of_ended run' ht (hended t ht)

/-- A run in which two generations have been billed. -/
theorem generations_bill_of_served : ∃ tr q,
    Run Pool.Step (initialDeployedProcess .default .default (fun _ => .quality) 0) tr q ∧
      q.state.1.generations.length = 2 ∧
      (q.threads.map fun u => BackendConfig.default.billed u.outcome) = [15 / 1000, 15 / 1000] ∧
      (q.state.1.generations.map fun m => m.budgetManager.cumulativeRemoteCost).sum =
        (q.threads.map fun u => BackendConfig.default.billed u.outcome).sum := by
  obtain ⟨tr, q, run, hlength, hdone, hbilled⟩ := Pool.exists_run
    (P := fun (q : Pool (deployedProcess .default .default fun _ => .quality)) =>
      q.state.1.generations.length = 2 ∧ (∀ u ∈ q.threads, u.outcome.isSome) ∧
        (q.threads.map fun u => BackendConfig.default.billed u.outcome) = [15 / 1000, 15 / 1000])
    (initialDeployedProcess .default .default (fun _ => .quality) 0) (aroundReset 23)
    (by decide +kernel)
  exact ⟨tr, q, run, hlength, hbilled, generations_ledger_eq_bill run hdone⟩

/-! ### The verdict -/

/-- The generation that a handler of the deployed process has captured. -/
def capturedBy (u : Thread (deployedProcess config backends classify)) : Option ℕ :=
  generation (outer u.history)

/-- The calls of the backends do not matter for the generation. -/
theorem generation_primitive (h : History processSignature) :
    generation (primitive (processImplementation config backends) h) = generation h := by
  induction h with
  | nil => rfl
  | cons ev h ih =>
    obtain ⟨e, r⟩ := ev
    cases e with
    | capture =>
      rw [primitive_cons_of_none rfl]
      rfl
    | on g e =>
      cases himpl : processImplementation config backends (.on g e) with
      | none =>
        rw [primitive_cons_of_none himpl]
        exact ih
      | some routine =>
        rw [primitive_cons_of_some (Option.isSome_of_eq_some himpl)]
        exact ih

/-- `/metrics` reads the managers only. -/
theorem metrics_of_managers {s s' : AppState} (h : s.managers = s'.managers) :
    s.metrics = s'.metrics := by
  obtain ⟨bm, qm, lt, counts, bus, clock⟩ := s
  cases h
  rfl

/-- **The verdict after a reset.** In every run of the deployed process in which nothing has been
interrupted, with quantized prices, the verdict on the current managers passes once the handlers
that have captured them have ended, whatever the servers have answered and whichever handlers of
older managers are still at work. -/
theorem verdict_after_reset {quantum clock : ℚ} (hq : Quantized config backends quantum)
    (hcap : 0 ≤ config.maxCumulativeLatencyMs)
    (run : Run Pool.Step (initialDeployedProcess config backends classify clock) tr q)
    (hnot : Uninterrupted q) {m : Managers}
    (hm : q.state.1.generations[q.state.1.current]? = some m)
    (hdone : ∀ u ∈ q.threads, capturedBy u = some q.state.1.current → u.outcome.isSome) :
    evaluateVerdict (q.state.1.view m).metrics config.maxRemoteBudget
      config.maxCumulativeLatencyMs = [] := by
  obtain ⟨tr', p, run', h⟩ := exists_operates run
  rw [h.state] at hm hdone
  obtain ⟨tr'', r, run'', hr, hmanagers, hcontracted⟩ := exists_contracted h run' hm
  -- the handlers of the current generation have ended in the process as well
  have hended : ∀ t ∈ p.threads, generation t.history = some p.state.current →
      t.outcome.isSome := by
    intro t ht hgen
    obtain ⟨u, hu, hmatches⟩ := exists_of_mem h.threads ht
    have hcaptured : capturedBy u = generation t.history :=
      (congrArg generation hmatches.primitive).symm.trans (generation_primitive _)
    rw [← hmatches.outcome]
    exact hdone u hu (hcaptured.trans hgen)
  obtain ⟨hpending, hlocal⟩ :=
    quiescent run'' (hcontracted.raisesOnly (not_not_intro hnot)) (hr.idle hended)
  have hbudget := within_budget hq run'' hcontracted
  have hreserved := (valid_of_service run'').reserved_nonneg.1
  have hslack : (0 : ℚ) ≤ BudgetManager.commitSlack := by norm_num [BudgetManager.commitSlack]
  rw [show (q.state.1.view m).metrics = r.state.metrics from metrics_of_managers hmanagers.symm]
  exact verdict_passes run'' hcap (by linarith) hpending hlocal

/-- A run in which the verdict passes after a reset, while a handler of the old managers is still at
work. -/
theorem verdict_with_straggler : ∃ tr q m,
    Run Pool.Step (initialDeployedProcess .default .default (fun _ => .quality) 0) tr q ∧
      q.threads.map (fun u => u.outcome.isSome) = [false, true] ∧
      q.state.1.generations[1]? = some m ∧
      evaluateVerdict (q.state.1.view m).metrics 5 600000 = [] := by
  obtain ⟨tr, q, run, hended, hcurrent, hnot, hdone⟩ := Pool.exists_run
    (P := fun (q : Pool (deployedProcess .default .default fun _ => .quality)) =>
      q.threads.map (fun u => u.outcome.isSome) = [false, true] ∧
        q.state.1.generations.length = 2 ∧ Uninterrupted q ∧
        ∀ u ∈ q.threads, capturedBy u = some 1 → u.outcome.isSome)
    (initialDeployedProcess .default .default (fun _ => .quality) 0) (aroundReset 10)
    (by decide +kernel)
  have hindex : q.state.1.current = 1 := by rw [ProcessState.current, hcurrent]
  have hlt : 1 < q.state.1.generations.length := by omega
  refine ⟨tr, q, _, run, hended, List.getElem?_eq_getElem hlt, ?_⟩
  refine verdict_after_reset quantized_default (by decide +kernel) run hnot ?_ ?_
  · rw [hindex]
    exact List.getElem?_eq_getElem hlt
  · rw [hindex]
    exact hdone

end InferenceRouter
