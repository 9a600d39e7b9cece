import InferenceRouter.Budget.Settlement
import InferenceRouter.Service.Quiescence

/-!
# Exceptions delivered at a suspension point

A handler is suspended only while it calls a backend. The exception that it is resumed with may
come from the backend or from outside, as `asyncio.CancelledError` does, and leaves the handler
through the clauses of one `except` chain. The clauses for subclasses of `Exception` settle the
reservation. An exception outside `Exception` passes all of them, and so does a settlement error of
the budget manager, whose clause takes the reservation to be settled already: the reservation stays
pending when such an exception leaves the handler.

## Main definitions

* `InferenceRouter.SettledAtEnd`: a reservation is settled once its handler has ended.

## Main results

* `InferenceRouter.settled_at_end_iff`: which exceptions leave a settled reservation behind, with
  the run `InferenceRouter.pending_after_cancellation` of one that does not.
-/

namespace InferenceRouter

open Foundation

variable {config : Config} {classify : String → ComplexityTier}
  {p q : Pool (service config classify)}
  {tr tr' : List (Pool (service config classify) × Choice (service config classify))}

/-- However the run goes on, with the reaper or without it: once the handler `i` has ended, the
reservation is no longer pending, and the handler holds no slot. -/
def SettledAtEnd (q : Pool (service config classify)) (i : ℕ) (ref : Ref) : Prop :=
  ∀ tr q' t, Run Pool.Step q tr q' → q'.threads[i]? = some t → t.outcome.isSome →
    ref ∉ q'.state.budgetManager.escrow.pending ∧ (summary t).slots = 0

/-! ### What the first answer decides -/

/-- A handler whose first answer is an exception resolves its reservation if and only if the
exception is one that is rolled back for. -/
theorem Ending.mem_resolved_iff {t : Tally} {out : Except Exn (ℚ × ℚ)} (h : Ending t out)
    {b : Backend} {x : Exn} (hfirst : t.answers.getLast? = some (b, .error x)) {g : Grant}
    (hg : g ∈ t.granted) : g.ref ∈ t.resolved ↔ x.Caught := by
  cases h with
  | rejected => cases hg
  | served => cases hfirst
  | fellBack hcaught hresolved =>
    cases hfirst
    obtain rfl := List.mem_singleton.mp hg
    exact iff_of_true hresolved hcaught
  | failed hresolved hcaught =>
    obtain rfl := List.mem_singleton.mp hg
    exact iff_of_true hresolved (hcaught b x hfirst)
  | leaked huncaught =>
    cases hfirst
    exact iff_of_false List.not_mem_nil huncaught

/-- What a handler relies on when it calls a backend. -/
theorem atCall_of_allowed {h : History signature} {e : Effect} (hallowed : Allowed h e)
    (hcall : e.IsBackendCall) : (tally h).AtCall := by
  cases e with
  | simulateLocalInference => exact hallowed.2
  | simulateRemoteInference =>
    obtain ⟨g, hg⟩ := hallowed
    rw [hg]
    exact Or.inl ⟨rfl, rfl⟩
  | tryReserve | commit | rollback | readReservation | budgetSnapshot | activeCount | isAtCapacity
  | maxConcurrency | acquire | release | getEstimate | record | countRoute | publish =>
    exact hcall.elim

/-! ### Following one handler -/

/-- A handler that calls a backend is resumed with its answer, and nothing else changes. -/
theorem step_backendCall {i : ℕ} {o : Oracle} {t : Thread (service config classify)} {e : Effect}
    (hi : p.threads[i]? = some t) (hnext : t.next = some e) (hcall : e.IsBackendCall)
    (hstep : p.Step (.resume i o) q) :
    q.state = p.state ∧ ∃ (t' : _) (b : Backend), q.threads[i]? = some t' ∧
      (summary t').granted = (summary t).granted ∧
      (summary t').answers = (b, o.answer) :: (summary t).answers := by
  rcases hstep.thread hi with ⟨hother, -⟩ | ⟨o', e', k, r, heq, hprogram, hexec, hi'⟩
  · exact absurd ⟨o, rfl⟩ hother
  · cases heq
    rw [Thread.next_of_perform hprogram] at hnext
    obtain rfl := Option.some.inj hnext
    generalize hs : q.state = s' at hexec ⊢
    cases e' with
    | simulateLocalInference => cases hexec; exact ⟨rfl, _, .local, hi', rfl, rfl⟩
    | simulateRemoteInference => cases hexec; exact ⟨rfl, _, .remote, hi', rfl, rfl⟩
    | tryReserve | commit | rollback | readReservation | budgetSnapshot | activeCount
    | isAtCapacity | maxConcurrency | acquire | release | getEstimate | record | countRoute
    | publish => exact hcall.elim

/-- As long as only one handler runs, a pending reservation stays pending until that handler
resolves it. -/
theorem pending_or_resolved (run : Run Pool.Step (initial config classify) tr p) {i : ℕ}
    {t : Thread (service config classify)} (hi : p.threads[i]? = some t)
    (run' : Run Pool.Step p tr' q) (hsolo : ∀ c ∈ tr', Pool.Resumes i c.2) {ref : Ref}
    (hpending : ref ∈ p.state.budgetManager.escrow.pending) :
    ∃ u, q.threads[i]? = some u ∧
      (ref ∈ q.state.budgetManager.escrow.pending ∨ ref ∈ (summary u).resolved) := by
  refine Pool.follow (C := Pool.Resumes i) (P := fun (q : Pool (service config classify)) u =>
    ref ∈ q.state.budgetManager.escrow.pending ∨ ref ∈ (summary u).resolved) hi (Or.inl hpending)
    (fun _ _ _ _ _ _ hresumes _ hother => absurd hresumes hother) ?_ run' hsolo
  intro tr₁ q o q' u e k r run₁ hu hprogram hexec h
  have hrun := run.trans run₁
  have hmem := List.mem_of_getElem? hu
  have hmoved := exec_moved (valid_of_service hrun) (listed_of_service hrun)
    (fun g hg => (accounts_of_run hrun).lt_length (List.mem_map_of_mem hmem) hg)
    (allowed_of_run hrun hmem (Thread.next_of_perform hprogram)) hexec
  rcases h with hpending | hresolved
  · cases hmoved with
    | kept hescrow => exact Or.inl (hescrow ▸ hpending)
    | granted g _ hescrow =>
      rw [hescrow, Escrow.pending_grant]
      exact Or.inl (Finset.mem_insert_of_mem hpending)
    | settled g charge hg hescrow _ _ _ hresolved =>
      by_cases href : ref = g.ref
      · exact Or.inr (hresolved ▸ href ▸ List.mem_cons_self)
      · rw [hescrow, Escrow.pending_settle]
        exact Or.inl (Finset.mem_erase_of_ne_of_mem href hpending)
  · exact Or.inr (((summary u).extends_after e r).resolved.subset hresolved)

/-- A reservation that has been settled is never pending again. -/
theorem notMem_pending_of_run (run : Run Pool.Step (initial config classify) tr p)
    (run' : Run Pool.Step p tr' q) {ref : Ref}
    (hlt : ref < p.state.budgetManager.reservations.length)
    (hsettled : ref ∉ p.state.budgetManager.escrow.pending) :
    ref ∉ q.state.budgetManager.escrow.pending := by
  have hstate : (p.state.budgetManager.deref ref).state ≠ .pending := fun h =>
    hsettled (BudgetManager.mem_pending.mpr ⟨hlt, h⟩)
  have hget := (valid_of_service run).settled_of_run (budgetRun run')
    (BudgetManager.getElem?_eq_deref hlt) hstate
  intro hpending
  have hpending' := (BudgetManager.mem_pending.mp hpending).2
  rw [BudgetManager.deref_eq_of_getElem? hget] at hpending'
  exact hstate hpending'

/-- A handler whose first answer is an exception has resolved its reservation, once it has ended, if
and only if the exception is one that is rolled back for. -/
theorem mem_resolved_iff_of_run (run : Run Pool.Step (initial config classify) tr p) {i : ℕ}
    {t : Thread (service config classify)} (hi : p.threads[i]? = some t) {b : Backend} {x : Exn}
    (hfirst : (summary t).answers = [(b, .error x)]) {g : Grant} (hg : g ∈ (summary t).granted)
    (run' : Run Pool.Step p tr' q) {u : Thread (service config classify)}
    (hu : q.threads[i]? = some u) (hdone : u.outcome.isSome) :
    g.ref ∈ (summary u).resolved ↔ x.Caught := by
  obtain ⟨out, hout⟩ := Option.isSome_iff_exists.mp hdone
  have hextends := extends_of_run run' hi hu
  exact (ending_of_run (run.trans run') (List.mem_of_getElem? hu) hout).mem_resolved_iff
    (hextends.getLast?_answers hfirst) (hextends.granted.subset hg)

/-! ### The settlement guarantee -/

/-- **Which exceptions leave a settled reservation behind.** A handler is resumed, at a call of a
backend, with an exception. However the run goes on, the reservation of the handler is settled and
its slot is free once the handler has ended, if and only if the exception is one that is rolled
back for, or the reservation was no longer pending. -/
theorem settled_at_end_iff (run : Run Pool.Step (initial config classify) tr p) {i : ℕ}
    {t : Thread (service config classify)} (hi : p.threads[i]? = some t) {e : Effect}
    (hnext : t.next = some e) (hcall : e.IsBackendCall) {g : Grant}
    (hg : g ∈ (summary t).granted) {o : Oracle} {x : Exn} (hraised : o.answer = .error x)
    (hstep : p.Step (.resume i o) q) :
    SettledAtEnd q i g.ref ↔ x.Caught ∨ g.ref ∉ p.state.budgetManager.escrow.pending := by
  have hmem : t ∈ p.threads := List.mem_of_getElem? hi
  have ha := accounts_of_run run
  have run' := run.step hstep
  obtain ⟨hstate, t', b, hi', hgranted, hanswers⟩ := step_backendCall hi hnext hcall hstep
  have hslots : ∀ tr q' u, Run Pool.Step q tr q' → q'.threads[i]? = some u → u.outcome.isSome →
      (summary u).slots = 0 := by
    intro tr q' u run'' hu hdone
    obtain ⟨out, hout⟩ := Option.isSome_iff_exists.mp hdone
    exact (ending_of_run (run'.trans run'') (List.mem_of_getElem? hu) hout).slots_eq
  by_cases hpending : g.ref ∈ p.state.budgetManager.escrow.pending
  · rw [or_iff_left (not_not_intro hpending)]
    -- A reservation that is pending at a call has not been resolved: this is the first answer.
    have hfirst : (summary t').answers = [(b, .error x)] := by
      rcases atCall_of_allowed (allowed_of_run run hmem hnext) hcall with h | h
      · rw [hanswers, hraised]
        exact congrArg _ h.1
      · exact absurd hpending (ha.resolved _ (List.mem_map_of_mem hmem) _ (h g hg)).2
    rw [← hgranted] at hg
    constructor
    · intro hsettled
      obtain ⟨tr₁, q₁, u, out, run'', hsolo, hu, hout⟩ := Pool.exists_finish exec_total q hi'
      have hdone : u.outcome.isSome := Option.isSome_of_eq_some hout
      obtain ⟨u', hu', hpending'⟩ := pending_or_resolved run' hi' run'' hsolo (hstate ▸ hpending)
      obtain rfl := Option.some.inj (hu'.symm.trans hu)
      exact (mem_resolved_iff_of_run run' hi' hfirst hg run'' hu hdone).mp
        (hpending'.resolve_left (hsettled _ _ _ run'' hu hdone).1)
    · intro hcaught tr₁ q₁ u run'' hu hdone
      have hresolved := (mem_resolved_iff_of_run run' hi' hfirst hg run'' hu hdone).mpr hcaught
      exact ⟨((accounts_of_run (run'.trans run'')).resolved _
        (List.mem_map_of_mem (List.mem_of_getElem? hu)) _ hresolved).2, hslots _ _ _ run'' hu hdone⟩
  · refine iff_of_true (fun tr₁ q₁ u run'' hu hdone => ⟨?_, hslots _ _ _ run'' hu hdone⟩)
      (Or.inr hpending)
    refine notMem_pending_of_run run' run'' ?_ ?_
    · rw [hstate]
      exact ha.lt_length (List.mem_map_of_mem hmem) hg
    · rwa [hstate]

/-- A run in which a remote call fails, so that its reservation is settled by the handler. -/
theorem settled_at_end_iff_of_failure : ∃ tr p q,
    Run Pool.Step (initial .default fun _ => .quality) tr p ∧
      p.state.budgetManager.activeReservations.length = 1 ∧
      p.Step (.resume 0 { answer := .error (.remoteInferenceError "down") }) q ∧
      SettledAtEnd q 0 0 := by
  obtain ⟨tr, p, run, hlength, hthread, hstep⟩ := Pool.exists_run
    (P := fun p : Pool (service .default fun _ => .quality) =>
      p.state.budgetManager.activeReservations.length = 1 ∧
      (∃ t ∈ p.threads[0]?, (∃ e ∈ t.next, e.IsBackendCall) ∧
        ⟨0, 15 / 100, 800⟩ ∈ (summary t).granted) ∧
      (p.step (.resume 0 { answer := .error (.remoteInferenceError "down") })).isSome)
    (initial .default fun _ => .quality) (.spawn sampleRequest :: advance 0 9 {})
    (by decide +kernel)
  obtain ⟨t, hi, ⟨e, hnext, hcall⟩, hg⟩ := hthread
  obtain ⟨q, hstep⟩ := Option.isSome_iff_exists.mp hstep
  exact ⟨tr, p, q, run, hlength, hstep, (settled_at_end_iff (x := .remoteInferenceError "down")
    run hi hnext hcall hg rfl hstep).mpr (Or.inl trivial)⟩

/-- **A reservation that is left pending**: a handler is cancelled while it waits for the remote
backend. -/
theorem pending_after_cancellation : ∃ tr p,
    Run Pool.Step (initial .default fun _ => .quality) tr p ∧
      (∀ t ∈ p.threads, t.outcome.isSome ∧ (summary t).answers ≠ []) ∧
      BackendsRaiseOnly (fun x => ¬ x.IsException) p.threads ∧
      p.state.budgetManager.activeReservations.length = 1 ∧
      p.state.budgetManager.reservedForExecution = 15 / 100 :=
  Pool.exists_run _ (.spawn sampleRequest ::
    advance 0 10 { answer := .error (.baseException "CancelledError") }) (by decide +kernel)

end InferenceRouter
