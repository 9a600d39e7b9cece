import InferenceRouter.Service.Quiescence

/-!
# The ledger and the answers

What the budget manager has recorded is what the handlers have committed. This file compares it
with what the backends have charged, and with what the service has answered.

A remote result is committed exactly once if the handler answers with it. If the commit is refused,
because the reservation has expired, the call has cost more than was reserved for it or the total
latency would pass its cap, the handler raises and nothing is recorded, although the provider has
charged the call. A request that a local execution answers for, after a failed remote call, commits
nothing, so that its latency is missing from the ledger.

## Main definitions

* `InferenceRouter.Tally.remoteResults`, `InferenceRouter.Tally.fallbackLatencyMs`.
* `InferenceRouter.answered`: the figures of the requests that have been served.

## Main results

* `InferenceRouter.answers_iff_accepts`: a handler that commits answers exactly if its commit is
  accepted.
* `InferenceRouter.spend_recorded`: when the cost of a remote result is recorded, with the run
  `InferenceRouter.spend_not_recorded` in which it is not.
* `InferenceRouter.ledger_add_fallbacks`: the ledger misses the latencies of the fallbacks.
* `InferenceRouter.ledger_eq_answers`: when the ledger agrees with the answers, with the run
  `InferenceRouter.fallback_not_in_ledger` in which it does not.
-/

namespace InferenceRouter

open Foundation

variable {config : Config} {classify : String → ComplexityTier}
  {p q : Pool (service config classify)}
  {tr tr' : List (Pool (service config classify) × Choice (service config classify))}

/-! ### What the providers have charged -/

/-- The results that the remote backend has returned to a handler: what the provider has
charged. -/
def Tally.remoteResults (t : Tally) : List BackendResult :=
  t.answers.filterMap fun answer => match answer with
    | (.remote, .ok result) => some result
    | (.remote, .error _) | (.local, _) => none

/-- The cumulative figures of the ledger are what the handlers have committed. -/
theorem cumulative_eq_committed (run : Run Pool.Step (initial config classify) tr p) :
    (p.state.budgetManager.cumulativeRemoteCost,
      p.state.budgetManager.cumulativeActualLatencyMs) = committed (tallies p.threads) :=
  (accounts_of_run run).spent

/-- A handler that answers with a remote result has committed its figures, once; a handler that
raises has committed nothing. -/
theorem Ending.charges_of_remote {t : Tally} {out : Except Exn (ℚ × ℚ)} (h : Ending t out)
    {result : BackendResult} (hresult : result ∈ t.remoteResults) :
    t.charges = match out with
      | .ok _ => [(result.actualCost, result.actualLatencyMs)]
      | .error _ => [] := by
  cases h with
  | rejected => rfl
  | @served g b result' =>
    cases b with
    | «local» => cases hresult
    | remote =>
      obtain rfl := List.mem_singleton.mp hresult
      rfl
  | @fellBack g b => cases b <;> cases hresult
  | failed => rfl
  | leaked => rfl

/-- A handler that raises has committed nothing. -/
theorem Ending.charges_of_error {t : Tally} {x : Exn} (h : Ending t (.error x)) :
    t.charges = [] := by
  cases h <;> rfl

/-- A handler that answers after a successful call has committed something. -/
theorem Ending.charges_ne_nil {t : Tally} {figures : ℚ × ℚ} (h : Ending t (.ok figures))
    {b : Backend} {result : BackendResult} (hfirst : t.answers.getLast? = some (b, .ok result)) :
    t.charges ≠ [] := by
  cases h with
  | served => exact List.cons_ne_nil _ _
  | fellBack => cases hfirst

/-! ### Accepted and refused commits -/

/-- What a commit does to the summary of its handler. -/
theorem step_commit (run : Run Pool.Step (initial config classify) tr p) {i : ℕ} {o : Oracle}
    {t : Thread (service config classify)} (hi : p.threads[i]? = some t) {ref : Ref}
    {actualCost actualLatencyMs : ℚ}
    (hnext : t.next = some (.commit ref actualCost actualLatencyMs))
    (hstep : p.Step (.resume i o) q) :
    ∃ (t' : _) (b : Backend) (result : _), q.threads[i]? = some t' ∧
      (summary t').answers = [(b, .ok result)] ∧ (summary t').resolved ≠ [] ∧
      ((p.state.budgetManager.Accepts ref actualCost actualLatencyMs ∧
          (summary t').charges = [(actualCost, actualLatencyMs)]) ∨
        (¬ p.state.budgetManager.Accepts ref actualCost actualLatencyMs ∧
          (summary t').charges = [])) := by
  have hmem := List.mem_of_getElem? hi
  obtain ⟨g, b, result, rfl, -, htally⟩ := allowed_of_run run hmem hnext
  have hlt : g.ref < p.state.budgetManager.reservations.length := by
    refine (accounts_of_run run).lt_length (List.mem_map_of_mem hmem) ?_
    rw [summary, htally]
    exact List.mem_cons_self
  have haccepts := (listed_of_service run).commit_reply_iff (valid_of_service run) hlt
    actualCost actualLatencyMs
  rcases hstep.thread hi with ⟨hother, -⟩ | ⟨o', e, k, r, heq, hprogram, hexec, hi'⟩
  · exact absurd ⟨o, rfl⟩ hother
  · cases heq
    rw [Thread.next_of_perform hprogram] at hnext
    obtain rfl := Option.some.inj hnext
    generalize q.state = s' at hexec
    cases hexec
    refine ⟨_, b, result, hi', ?_⟩
    simp only [summary, Thread.answered, tally_cons]
    rw [htally]
    generalize (p.state.budgetManager.commit (p.state.budgetManager.deref g.ref).id actualCost
      actualLatencyMs).reply = reply at haccepts ⊢
    rcases reply with error | _
    · exact ⟨rfl, List.cons_ne_nil _ _, Or.inr ⟨mt haccepts.mpr (by simp), rfl⟩⟩
    · exact ⟨rfl, List.cons_ne_nil _ _, Or.inl ⟨haccepts.mp rfl, rfl⟩⟩

/-- A handler that has resolved its reservation commits nothing more. -/
theorem charges_of_resolved (run : Run Pool.Step (initial config classify) tr p) {i : ℕ}
    {t : Thread (service config classify)} (hi : p.threads[i]? = some t)
    (hresolved : (summary t).resolved ≠ []) (run' : Run Pool.Step p tr' q) :
    ∃ u, q.threads[i]? = some u ∧ (summary u).resolved ≠ [] ∧
      (summary u).charges = (summary t).charges := by
  refine Pool.follow (C := fun _ => True) (P := fun _ u => (summary u).resolved ≠ [] ∧
    (summary u).charges = (summary t).charges) hi ⟨hresolved, rfl⟩
    (fun _ _ _ _ _ _ _ _ _ _ h => h) ?_ run' fun _ _ => trivial
  rintro tr₁ q o q' u e k r run₁ hu hprogram - ⟨hresolved, hcharges⟩
  have hallowed := allowed_of_run (run.trans run₁) (List.mem_of_getElem? hu)
    (Thread.next_of_perform hprogram)
  refine ⟨fun hnil => hresolved ?_, ?_⟩
  · have hsuffix := ((summary u).extends_after e r).resolved
    exact List.eq_nil_of_suffix_nil (hnil ▸ hsuffix)
  · refine ((summary u).charges_after r ?_).trans hcharges
    rintro ref actualCost actualLatencyMs rfl
    obtain ⟨g, b, result, -, -, htally⟩ := hallowed
    rw [summary, htally] at hresolved
    exact hresolved rfl

/-- **A handler that commits answers exactly if its commit is accepted.** -/
theorem answers_iff_accepts (run : Run Pool.Step (initial config classify) tr p) {i : ℕ}
    {o : Oracle} {t : Thread (service config classify)} (hi : p.threads[i]? = some t) {ref : Ref}
    {actualCost actualLatencyMs : ℚ}
    (hnext : t.next = some (.commit ref actualCost actualLatencyMs))
    (hstep : p.Step (.resume i o) q) {q' : Pool (service config classify)}
    (run' : Run Pool.Step q tr' q') {u : Thread (service config classify)}
    (hu : q'.threads[i]? = some u) {out : Except Exn InferenceResponse}
    (hout : u.outcome = some out) :
    (∃ response, out = .ok response) ↔
      p.state.budgetManager.Accepts ref actualCost actualLatencyMs := by
  have run₁ := run.step hstep
  have hend := ending_of_run (run₁.trans run') (List.mem_of_getElem? hu) hout
  obtain ⟨t', b, result, hi', hanswers, hresolved, hcases⟩ := step_commit run hi hnext hstep
  obtain ⟨u', hu', -, hcharges⟩ := charges_of_resolved run₁ hi' hresolved run'
  obtain rfl := Option.some.inj (hu'.symm.trans hu)
  have hfirst := (extends_of_run run' hi' hu).getLast?_answers hanswers
  rcases hcases with ⟨haccepts, hcommitted⟩ | ⟨hrefused, hnothing⟩
  · refine iff_of_true ?_ haccepts
    cases out with
    | ok response => exact ⟨response, rfl⟩
    | error x =>
      have hnil := hend.charges_of_error
      rw [hcharges, hcommitted] at hnil
      cases hnil
  · refine iff_of_false ?_ hrefused
    rintro ⟨response, rfl⟩
    exact hend.charges_ne_nil hfirst (hcharges.trans hnothing)

/-! ### What is recorded -/

/-- **When the cost of a remote result is recorded.** At every moment of a run, the cumulative
remote cost is the sum of what the handlers have committed. A handler that the remote backend has
returned a result to, and that has ended, has committed the figures of the result exactly once if
it answers, and nothing if it raises. A handler that commits answers exactly if its commit is
accepted. -/
theorem spend_recorded (run : Run Pool.Step (initial config classify) tr p) :
    p.state.budgetManager.cumulativeRemoteCost =
        (p.threads.map fun t => (summary t).charges.sum.1).sum ∧
      (∀ t ∈ p.threads, ∀ result ∈ (summary t).remoteResults, ∀ out, t.outcome = some out →
        (summary t).charges = match out with
          | .ok _ => [(result.actualCost, result.actualLatencyMs)]
          | .error _ => []) ∧
      ∀ q i o, (q, Choice.resume i o) ∈ tr → ∀ t, q.threads[i]? = some t →
        ∀ ref actualCost actualLatencyMs,
          t.next = some (.commit ref actualCost actualLatencyMs) →
          ∀ u, p.threads[i]? = some u → ∀ out, u.outcome = some out →
            ((∃ response, out = .ok response) ↔
              q.state.budgetManager.Accepts ref actualCost actualLatencyMs) := by
  refine ⟨?_, ?_, ?_⟩
  · have hspent := congrArg (AddMonoidHom.fst ℚ ℚ) (cumulative_eq_committed run)
    rw [committed, map_list_sum, tallies, List.map_map, List.map_map] at hspent
    exact hspent
  · intro t ht result hresult out hout
    have hcharges := (ending_of_run run ht hout).charges_of_remote hresult
    cases out with
    | ok response => exact hcharges
    | error x => exact hcharges
  · intro q i o hmem t hi ref actualCost actualLatencyMs hnext u hu out hout
    obtain ⟨tr₁, q', tr₂, run₁, hstep, run₂⟩ := run.split_of_mem hmem
    exact answers_iff_accepts run₁ hi hnext hstep run₂ hu hout

/-- A run in which a remote call is served. -/
theorem spend_recorded_of_served : ∃ tr p,
    Run Pool.Step (initial .default fun _ => .quality) tr p ∧
      p.state.budgetManager.cumulativeRemoteCost = 1 / 10 := by
  obtain ⟨tr, p, run, hsum⟩ := Pool.exists_run
    (P := fun p => (p.threads.map fun t => (summary t).charges.sum.1).sum = 1 / 10)
    (initial .default fun _ => .quality)
    (.spawn sampleRequest :: advance 0 15 { answer := .ok (sampleResult (1 / 10) 700) })
    (by decide +kernel)
  exact ⟨tr, p, run, (spend_recorded run).1.trans hsum⟩

/-- **A charge that is not recorded**: a remote result costs more than was reserved for it. -/
theorem spend_not_recorded : ∃ tr p, Run Pool.Step (initial .default fun _ => .quality) tr p ∧
    (p.threads.map fun t => (summary t).remoteResults.map BackendResult.actualCost) = [[1 / 5]] ∧
      (∀ t ∈ p.threads, t.outcome.isSome) ∧
      p.state.budgetManager.cumulativeRemoteCost = 0 :=
  Pool.exists_run _ (.spawn sampleRequest ::
    advance 0 11 { answer := .ok (sampleResult (1 / 5) 700) }) (by decide +kernel)

/-! ### What the service has answered -/

/-- The figures that a handler has answered with, if it has. -/
def response? (t : Thread (service config classify)) : Option (ℚ × ℚ) :=
  match t.outcome with
  | some (.ok response) => some response.figures
  | some (.error _) | none => none

/-- The figures of the requests that have been served. -/
def answered (ts : List (Thread (service config classify))) : List (ℚ × ℚ) :=
  ts.filterMap response?

/-- The latency of the local execution that has answered for a failed call, if there is one. -/
def Tally.fallbackLatencyMs (t : Tally) : ℚ :=
  match t.answers with
  | (.local, .ok result) :: (_, .error _) :: _ => result.actualLatencyMs
  | _ => 0

/-- The results of the local backend cost nothing: both `_call_ollama` and
`_mock_local_inference` build them with `actual_cost=0.0`. -/
def LocalFree (ts : List (Thread (service config classify))) : Prop :=
  ∀ t ∈ ts, ∀ answer ∈ (summary t).answers, answer.1 = .local →
    ∀ result, answer.2 = .ok result → result.actualCost = 0

/-- The figures of an answer are those committed for it, and the latency of a fallback. -/
theorem Ending.figures_eq {t : Tally} {figures : ℚ × ℚ} (h : Ending t (.ok figures))
    (hfree : ∀ answer ∈ t.answers, answer.1 = .local →
      ∀ result, answer.2 = .ok result → result.actualCost = 0) :
    figures = t.charges.sum + (0, t.fallbackLatencyMs) := by
  cases h with
  | @served g b result =>
    have hcharge : b.charge result = (result.actualCost, result.actualLatencyMs) := by
      cases b with
      | «local» => rw [hfree _ List.mem_cons_self rfl result rfl, Backend.charge]
      | remote => rfl
    rw [← hcharge]
    simp [Tally.fallbackLatencyMs]
  | fellBack => simp [Tally.fallbackLatencyMs]

/-- No local execution has answered for a handler that raises. -/
theorem Ending.fallbackLatencyMs_of_error {t : Tally} {x : Exn} (h : Ending t (.error x)) :
    t.fallbackLatencyMs = 0 := by
  cases h with
  | rejected => rfl
  | @leaked g b => cases b <;> rfl
  | failed _ _ hfallback =>
    unfold Tally.fallbackLatencyMs
    split
    · rename_i hanswers
      cases hfallback _ _ hanswers
    · rfl

/-- What a handler that has ended answers is what it has committed, and the latency of a
fallback. -/
theorem response_eq (run : Run Pool.Step (initial config classify) tr p)
    {t : Thread (service config classify)} (ht : t ∈ p.threads) (hdone : t.outcome.isSome)
    (hfree : LocalFree p.threads) :
    (response? t).getD 0 = (summary t).charges.sum + (0, (summary t).fallbackLatencyMs) := by
  obtain ⟨out, hout⟩ := Option.isSome_iff_exists.mp hdone
  have hend := ending_of_run run ht hout
  unfold response?
  rw [hout]
  cases out with
  | ok response => exact hend.figures_eq (hfree t ht)
  | error x =>
    rw [hend.charges_of_error, hend.fallbackLatencyMs_of_error]
    exact (add_zero 0).symm

/-- The answers of handlers that have ended are what is committed, and the latencies of the
fallbacks. -/
theorem sum_answered {ts : List (Thread (service config classify))}
    (heq : ∀ t ∈ ts, (response? t).getD 0 =
      (summary t).charges.sum + (0, (summary t).fallbackLatencyMs)) :
    (answered ts).sum = committed (tallies ts) +
      (0, (ts.map fun t => (summary t).fallbackLatencyMs).sum) := by
  induction ts with
  | nil => exact (add_zero 0).symm
  | cons t ts ih =>
    obtain ⟨ht, hts⟩ := List.forall_mem_cons.mp heq
    have hhead : (answered (t :: ts)).sum = (response? t).getD 0 + (answered ts).sum := by
      unfold answered
      cases hresponse : response? t with
      | none => rw [List.filterMap_cons_none hresponse, Option.getD_none, zero_add]
      | some figures =>
        rw [List.filterMap_cons_some hresponse, Option.getD_some, List.sum_cons]
    have hpair : ∀ a b : ℚ, ((0, a + b) : ℚ × ℚ) = (0, a) + (0, b) := fun a b => by simp
    rw [hhead, ht, ih hts, List.map_cons, List.sum_cons, hpair, tallies_cons, committed, committed,
      List.map_cons, List.sum_cons]
    exact add_add_add_comm _ _ _ _

/-- **The ledger and the answers.** Once all handlers have ended, the cumulative cost is that of the
requests that have been served, and the cumulative latency misses only the latencies of the local
executions that have answered for failed calls. -/
theorem ledger_add_fallbacks (run : Run Pool.Step (initial config classify) tr p)
    (hdone : ∀ t ∈ p.threads, t.outcome.isSome) (hfree : LocalFree p.threads) :
    p.state.budgetManager.cumulativeRemoteCost = ((answered p.threads).map Prod.fst).sum ∧
      p.state.budgetManager.cumulativeActualLatencyMs +
          (p.threads.map fun t => (summary t).fallbackLatencyMs).sum =
        ((answered p.threads).map Prod.snd).sum := by
  have hsum := sum_answered fun t ht => response_eq run ht (hdone t ht) hfree
  rw [← cumulative_eq_committed run] at hsum
  constructor
  · rw [← add_zero p.state.budgetManager.cumulativeRemoteCost]
    exact ((map_list_sum (AddMonoidHom.fst ℚ ℚ) _).symm.trans (congrArg Prod.fst hsum)).symm
  · exact ((map_list_sum (AddMonoidHom.snd ℚ ℚ) _).symm.trans (congrArg Prod.snd hsum)).symm

/-- **When the ledger agrees with the answers.** Once all handlers have ended, the cumulative cost
and the cumulative latency are the sums over the requests that have been served, if and only if the
latencies of the local executions that have answered for failed calls sum to zero. -/
theorem ledger_eq_answers (run : Run Pool.Step (initial config classify) tr p)
    (hdone : ∀ t ∈ p.threads, t.outcome.isSome) (hfree : LocalFree p.threads) :
    (p.state.budgetManager.cumulativeRemoteCost = ((answered p.threads).map Prod.fst).sum ∧
        p.state.budgetManager.cumulativeActualLatencyMs =
          ((answered p.threads).map Prod.snd).sum) ↔
      (p.threads.map fun t => (summary t).fallbackLatencyMs).sum = 0 := by
  obtain ⟨hcost, hlatency⟩ := ledger_add_fallbacks run hdone hfree
  rw [← hcost, ← hlatency, left_eq_add]
  exact and_iff_right rfl

/-- A run in which a remote call is served, so that the ledger agrees with the answers. -/
theorem ledger_eq_answers_of_served : ∃ tr p,
    Run Pool.Step (initial .default fun _ => .quality) tr p ∧ (answered p.threads).length = 1 ∧
      p.state.budgetManager.cumulativeRemoteCost = ((answered p.threads).map Prod.fst).sum ∧
      p.state.budgetManager.cumulativeActualLatencyMs =
        ((answered p.threads).map Prod.snd).sum := by
  obtain ⟨tr, p, run, hdone, hremote, hlength, hfallback⟩ := Pool.exists_run
    (P := fun p => (∀ t ∈ p.threads, t.outcome.isSome) ∧
      (∀ t ∈ p.threads, ∀ answer ∈ (summary t).answers, answer.1 = .remote) ∧
      (answered p.threads).length = 1 ∧
      (p.threads.map fun t => (summary t).fallbackLatencyMs).sum = 0)
    (initial .default fun _ => .quality)
    (.spawn sampleRequest :: advance 0 15 { answer := .ok (sampleResult (1 / 10) 700) })
    (by decide +kernel)
  have hfree : LocalFree p.threads := fun t ht answer hanswer hlocal => by
    rw [hremote t ht answer hanswer] at hlocal
    cases hlocal
  exact ⟨tr, p, run, hlength, (ledger_eq_answers run hdone hfree).mpr hfallback⟩

/-- **A latency that is not in the ledger**: a remote call fails, and a local execution answers for
it after 300 milliseconds. -/
theorem fallback_not_in_ledger : ∃ tr p,
    Run Pool.Step (initial .default fun _ => .quality) tr p ∧
      (∀ t ∈ p.threads, t.outcome.isSome) ∧ answered p.threads = [(0, 300)] ∧
      p.state.budgetManager.cumulativeActualLatencyMs = 0 :=
  Pool.exists_run _
    (.spawn sampleRequest :: advance 0 10 { answer := .error (.remoteInferenceError "down") } ++
      advance 0 10 { answer := .ok (sampleResult 0 300) }) (by decide +kernel)

end InferenceRouter
