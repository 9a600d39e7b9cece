import InferenceRouter.Service.Accounts

/-!
# Nothing leaks

A handler that has ended holds no slot, and has resolved its reservation unless a backend raised
an exception that no clause of the `except` chain rolls back for. With the agreement between the
managers and the handlers this says that every pending reservation belongs to exactly one
unfinished handler, and that nothing is held once all handlers have ended.

The clause for the two settlement errors of the budget manager takes their reservation to be
rolled back already. A backend that raised one of them would leave its reservation pending.

## Main definitions

* `InferenceRouter.BackendsRaiseOnly`: a condition on the exceptions of the backends.
* `InferenceRouter.InLocalExecution`: a handler is inside a local execution.

## Main results

* `InferenceRouter.no_leak`: nothing leaks, with the run `InferenceRouter.leak_of_settlement_error`
  of a backend that raises a settlement error.
-/

namespace InferenceRouter

open Foundation

variable {config : Config} {classify : String → ComplexityTier}
  {p : Pool (service config classify)}
  {tr : List (Pool (service config classify) × Choice (service config classify))}

/-! ### The exceptions of the backends -/

instance : DecidablePred Exn.Caught
  | .budget (.actualCostExceededReservation _ _)
  | .budget (.actualLatencyExceededReservation _ _) | .baseException _ =>
    inferInstanceAs (Decidable False)
  | .budget (.valueError _) | .budget (.invalidReservationState _) | .runtimeError _
  | .remoteInferenceError _ | .httpException _ _ | .exception _ =>
    inferInstanceAs (Decidable True)

/-- The exception is a subclass of `Exception`. -/
def Exn.IsException : Exn → Prop
  | .baseException _ => False
  | .budget _ | .runtimeError _ | .remoteInferenceError _ | .httpException _ _ | .exception _ =>
    True

instance : DecidablePred Exn.IsException
  | .baseException _ => inferInstanceAs (Decidable False)
  | .budget _ | .runtimeError _ | .remoteInferenceError _ | .httpException _ _ | .exception _ =>
    inferInstanceAs (Decidable True)

/-- If an answer of a backend is an exception, it meets a condition. -/
def RaisesOnly (P : Exn → Prop) : Except Exn BackendResult → Prop
  | .ok _ => True
  | .error x => P x

instance (P : Exn → Prop) [DecidablePred P] : DecidablePred (RaisesOnly P)
  | .ok _ => inferInstanceAs (Decidable True)
  | .error x => inferInstanceAs (Decidable (P x))

/-- Every exception that a backend has raised so far meets a condition. -/
def BackendsRaiseOnly (P : Exn → Prop) (ts : List (Thread (service config classify))) : Prop :=
  ∀ t ∈ ts, ∀ answer ∈ (summary t).answers, RaisesOnly P answer.2

instance (P : Exn → Prop) [DecidablePred P] (ts : List (Thread (service config classify))) :
    Decidable (BackendsRaiseOnly P ts) :=
  inferInstanceAs (Decidable (∀ t ∈ ts, _))

/-! ### Handlers that have ended -/

/-- A handler is inside a local execution: it has entered `slot()` and not left it. -/
def InLocalExecution (t : Thread (service config classify)) : Prop := (summary t).slots = 1

instance (t : Thread (service config classify)) : Decidable (InLocalExecution t) :=
  inferInstanceAs (Decidable (_ = 1))

/-- A handler that has not ended holds a reservation: the reservation was granted to it. -/
def Holds (t : Thread (service config classify)) (ref : Ref) : Prop :=
  t.outcome = none ∧ ref ∈ (summary t).granted.map Grant.ref

theorem Ending.slots_eq {t : Tally} {out : Except Exn (ℚ × ℚ)} (h : Ending t out) :
    t.slots = 0 := by
  cases h <;> rfl

/-- A handler that has ended has resolved its reservation, if every exception of a backend was one
that is rolled back for. -/
theorem Ending.resolved {t : Tally} {out : Except Exn (ℚ × ℚ)} (h : Ending t out)
    (hcaught : ∀ answer ∈ t.answers, RaisesOnly Exn.Caught answer.2) :
    ∀ g ∈ t.granted, g.ref ∈ t.resolved := by
  cases h with
  | rejected => simp
  | served => simp
  | fellBack _ hresolved | failed hresolved =>
    intro g' hg'
    obtain rfl := List.mem_singleton.mp hg'
    exact hresolved
  | leaked huncaught => exact absurd (hcaught _ List.mem_cons_self) huncaught

/-- A reservation is granted to one handler only. -/
theorem Accounts.owner_unique {bm : BudgetManager} {ts : List Tally} (ha : Accounts bm ts)
    {i j : ℕ} {t u : Tally} (hi : ts[i]? = some t) (hj : ts[j]? = some u) {g g' : Grant}
    (hg : g ∈ t.granted) (hg' : g' ∈ u.granted) (href : g.ref = g'.ref) : i = j := by
  have hnodup := ha.nodup
  rw [grants, List.map_flatMap, List.nodup_flatMap] at hnodup
  have hlt : ∀ {i j : ℕ} {t u : Tally}, ts[i]? = some t → ts[j]? = some u → ∀ {g g' : Grant},
      g ∈ t.granted → g' ∈ u.granted → g.ref = g'.ref → ¬ i < j := by
    intro i j t u hi hj g g' hg hg' href hij
    obtain ⟨hi', rfl⟩ := List.getElem?_eq_some_iff.mp hi
    obtain ⟨hj', rfl⟩ := List.getElem?_eq_some_iff.mp hj
    have hdisjoint := List.pairwise_iff_getElem.mp hnodup.2 i j hi' hj' hij
    exact hdisjoint (List.mem_map_of_mem hg) (href ▸ List.mem_map_of_mem hg')
  rcases Nat.lt_trichotomy i j with h | h | h
  · exact absurd h (hlt hi hj hg hg' href)
  · exact h
  · exact absurd h (hlt hj hi hg' hg href.symm)

/-! ### Nothing leaks -/

/-- If no exception of a backend escapes the rollbacks, every pending reservation was granted to a
handler that has not ended. -/
theorem exists_holder (run : Run Pool.Step (initial config classify) tr p)
    (hcaught : BackendsRaiseOnly Exn.Caught p.threads) {ref : Ref}
    (hpending : ref ∈ p.state.budgetManager.escrow.pending) :
    ∃ (i : ℕ) (t : _), p.threads[i]? = some t ∧ Holds t ref := by
  have ha := accounts_of_run run
  obtain ⟨g, hg, rfl⟩ := ha.owned ref hpending
  obtain ⟨u, hu, hgu⟩ := mem_grants.mp hg
  obtain ⟨t, ht, rfl⟩ := List.mem_map.mp hu
  obtain ⟨i, hi⟩ := List.mem_iff_getElem?.mp ht
  refine ⟨i, t, hi, ?_, List.mem_map_of_mem hgu⟩
  by_contra hout
  obtain ⟨out, hout⟩ := Option.ne_none_iff_exists'.mp hout
  have hresolved := (ending_of_run run ht hout).resolved (hcaught t ht) g hgu
  exact (ha.resolved _ hu _ hresolved).2 hpending

/-- At most one handler holds a reservation. -/
theorem holder_unique (run : Run Pool.Step (initial config classify) tr p) {i j : ℕ}
    {t u : Thread (service config classify)} (hi : p.threads[i]? = some t)
    (hj : p.threads[j]? = some u) {ref : Ref} (ht : Holds t ref) (hu : Holds u ref) : i = j := by
  obtain ⟨g, hg, rfl⟩ := List.mem_map.mp ht.2
  obtain ⟨g', hg', href⟩ := List.mem_map.mp hu.2
  refine (accounts_of_run run).owner_unique (t := summary t) (u := summary u) ?_ ?_ hg hg' href.symm
  · rw [tallies, List.getElem?_map, hi, Option.map_some]
  · rw [tallies, List.getElem?_map, hj, Option.map_some]

/-- The active count is the number of handlers inside a local execution. -/
theorem activeCount_eq (run : Run Pool.Step (initial config classify) tr p) :
    p.state.queueMonitor.activeCount = p.threads.countP (fun t => InLocalExecution t) := by
  rw [(slots_of_run run).activeCount_eq_countP, tallies, List.countP_map]
  rfl

/-- If nothing is pending, then nothing is reserved. -/
theorem BudgetManager.Valid.reserved_eq_zero {bm : BudgetManager} (hv : bm.Valid)
    (hempty : bm.escrow.pending = ∅) :
    bm.reservedForExecution = 0 ∧ bm.reservedLatencyMs = 0 ∧
      bm.activeReservations.length = 0 := by
  have hheld := hv.held_eq
  rw [Escrow.held, hempty, Finset.sum_empty] at hheld
  refine ⟨(congrArg Prod.fst hheld).symm, (congrArg Prod.snd hheld).symm, ?_⟩
  refine List.length_eq_zero_iff.mpr (List.eq_nil_iff_forall_not_mem.mpr fun e he => ?_)
  have hmem := (hv.active e.1 e.2 (Dict.get?_eq_some_iff.mpr he)).1
  rw [hempty] at hmem
  exact Finset.notMem_empty _ hmem

/-- If every handler has ended or has not done anything yet, no reservation is pending and no
handler holds a slot. -/
theorem quiescent (run : Run Pool.Step (initial config classify) tr p)
    (hcaught : BackendsRaiseOnly Exn.Caught p.threads)
    (hidle : ∀ t ∈ p.threads, t.outcome = none → t.history = []) :
    p.state.budgetManager.escrow.pending = ∅ ∧ ∀ t ∈ p.threads, ¬ InLocalExecution t := by
  constructor
  · refine Finset.eq_empty_of_forall_notMem fun ref hpending => ?_
    obtain ⟨i, t, hi, hunfinished, hgranted⟩ := exists_holder run hcaught hpending
    rw [summary, hidle t (List.mem_of_getElem? hi) hunfinished] at hgranted
    exact List.not_mem_nil hgranted
  · intro t ht hinside
    have hslots : (summary t).slots = 1 := hinside
    cases hout : t.outcome with
    | none =>
      rw [summary, hidle t ht hout] at hslots
      cases hslots
    | some out =>
      rw [(ending_of_run run ht hout).slots_eq] at hslots
      cases hslots

/-- **Nothing leaks.** In a run of the service in which no backend has raised an exception outside
`Exception` or a settlement error of the budget manager, every pending reservation belongs to
exactly one handler that has not ended, and the active count is the number of handlers inside a
local execution. Once all handlers have ended, no amount is reserved, no reservation is active and
no slot is taken. -/
theorem no_leak (run : Run Pool.Step (initial config classify) tr p)
    (hcaught : BackendsRaiseOnly Exn.Caught p.threads) :
    (∀ ref ∈ p.state.budgetManager.escrow.pending,
        ∃! i : ℕ, ∃ t, p.threads[i]? = some t ∧ Holds t ref) ∧
      p.state.queueMonitor.activeCount = p.threads.countP (fun t => InLocalExecution t) ∧
      ((∀ t ∈ p.threads, t.outcome.isSome) →
        p.state.budgetManager.reservedForExecution = 0 ∧
          p.state.budgetManager.reservedLatencyMs = 0 ∧
          p.state.budgetManager.activeReservations.length = 0 ∧
          p.state.queueMonitor.activeCount = 0) := by
  refine ⟨fun ref hpending => ?_, activeCount_eq run, fun hdone => ?_⟩
  · obtain ⟨i, t, hi, hholds⟩ := exists_holder run hcaught hpending
    refine ⟨i, ⟨t, hi, hholds⟩, ?_⟩
    rintro j ⟨u, hj, hu⟩
    exact holder_unique run hj hi hu hholds
  · have hempty : p.state.budgetManager.escrow.pending = ∅ := by
      refine Finset.eq_empty_of_forall_notMem fun ref hpending => ?_
      obtain ⟨i, t, hi, hunfinished, -⟩ := exists_holder run hcaught hpending
      have hsome := hdone t (List.mem_of_getElem? hi)
      rw [hunfinished] at hsome
      cases hsome
    obtain ⟨hmoney, hlatency, hactive⟩ := (valid_of_service run).reserved_eq_zero hempty
    refine ⟨hmoney, hlatency, hactive, ?_⟩
    rw [activeCount_eq run, List.countP_eq_zero]
    intro t ht
    obtain ⟨out, hout⟩ := Option.isSome_iff_exists.mp (hdone t ht)
    simp [InLocalExecution, (ending_of_run run ht hout).slots_eq]

/-- A run in which a remote call fails and a local execution answers for it. -/
theorem no_leak_of_fallback : ∃ tr p, Run Pool.Step (initial .default fun _ => .quality) tr p ∧
    p.threads.length = 1 ∧ p.state.budgetManager.reservedForExecution = 0 ∧
      p.state.queueMonitor.activeCount = 0 := by
  obtain ⟨tr, p, run, hcaught, hdone, hlength⟩ := Pool.exists_run
    (P := fun p => BackendsRaiseOnly Exn.Caught p.threads ∧
      (∀ t ∈ p.threads, t.outcome.isSome) ∧ p.threads.length = 1)
    (initial .default fun _ => .quality)
    (.spawn sampleRequest :: advance 0 10 { answer := .error (.remoteInferenceError "down") } ++
      advance 0 10 { answer := .ok (sampleResult 0 300) }) (by decide +kernel)
  obtain ⟨hreserved, -, -, hslots⟩ := (no_leak run hcaught).2.2 hdone
  exact ⟨tr, p, run, hlength, hreserved, hslots⟩

/-- **A leak**: a backend that raises a settlement error leaves its reservation pending. -/
theorem leak_of_settlement_error : ∃ tr p,
    Run Pool.Step (initial .default fun _ => .quality) tr p ∧
      BackendsRaiseOnly Exn.IsException p.threads ∧ (∀ t ∈ p.threads, t.outcome.isSome) ∧
      p.state.budgetManager.reservedForExecution ≠ 0 ∧
      p.state.budgetManager.activeReservations.length ≠ 0 :=
  Pool.exists_run _ (.spawn sampleRequest ::
    advance 0 10 { answer := .error (.budget (.actualCostExceededReservation 1 0)) })
    (by decide +kernel)

end InferenceRouter
