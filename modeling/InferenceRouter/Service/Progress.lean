import InferenceRouter.Foundation.Turns
import InferenceRouter.Service.Operation

/-!
# Every request is answered

A handler of the deployed process never waits for another handler: it ends after a bounded number of
its own effects, among them the requests, the pauses and the readings of the clock in its backends,
whatever the servers answer and whatever the other handlers, the reaper and the resets do.

## Main definitions

* `InferenceRouter.weight`, `InferenceRouter.maxTurns`: the weights of the effects of a handler, and
  its bound.
* `InferenceRouter.Answerable`: the effects of the backends that can be answered.

## Main results

* `InferenceRouter.inference_weighs`: the bound of a handler, by those of the backends.
* `InferenceRouter.handlers_end`: the handlers of the deployed process.
-/

namespace InferenceRouter

open Foundation Program

/-! ### The backends -/

/-- The effect can be answered: there is a number in the range that it asks for. -/
def Answerable : BackendEffect → Prop
  | .uniform a b => a ≤ b
  | .randint a b => a ≤ b
  | .post _ | .sleep _ | .perfCounter | .random => True

theorem exec_answerable (clock : ℚ) {e : BackendEffect} (he : Answerable e) :
    ∃ o rs, backendDevice.exec clock e o = some rs := by
  cases e with
  | perfCounter => exact ⟨fun | .perfCounter => some clock | _ => none, _, if_pos le_rfl⟩
  | post | sleep | random => exact ⟨sampleReply, _, rfl⟩
  | uniform a b | randint a b =>
    have hab : a ≤ b := he
    refine ⟨sampleReply, (⟨a, left_mem hab⟩, clock), ?_⟩
    dsimp only [sampleReply]
    rw [dif_pos hab]
    rfl

namespace Backends

open BackendProgram

variable {config : Config} {backends : BackendConfig} {prompt requestId : String}
  {shouldFail : Bool}

theorem post_atMost (request : HttpRequest) :
    (post request).AtMost Answerable (fun _ => 1) 1 := by
  refine AtMost.mono (n := 1 + 0) ?_ le_rfl
  exact AtMost.bind (.call trivial) fun reply => .ofExcept (S := backendSignature) reply

theorem sleep_atMost (seconds : ℚ) : (sleep seconds).AtMost Answerable (fun _ => 1) 1 := by
  refine AtMost.bind (m := 0) (AtMost.call trivial) fun reply => ?_
  cases reply with
  | none => exact .ret ()
  | some message => exact .raise _

theorem perfCounter_atMost : perfCounter.AtMost Answerable (fun _ => 1) 1 := .call trivial

/-- A reading of the clock before an exception. -/
theorem perfCounter_raise_atMost {α : Type} (x : BackendExn) :
    (perfCounter >>= fun _ => (throw x : BackendProgram α)).AtMost Answerable (fun _ => 1) 1 := by
  refine AtMost.mono (n := 1 + 0) ?_ le_rfl
  exact AtMost.bind perfCounter_atMost fun _ => .raise (S := backendSignature) x

/-- One request, and the readings of the clock before and after it, and in a handler. -/
theorem callOllama_atMost :
    (callOllama backends prompt requestId).AtMost Answerable (fun _ => 1) 4 := by
  refine AtMost.mono (n := 1 + (1 + (1 + 0) + 1)) ?_ le_rfl
  refine perfCounter_atMost.bind fun start => .tryCatch ?_ fun x => ?_
  · refine (post_atMost _).bind fun resp => perfCounter_atMost.bind fun stop => .ite ?_ ?_
    · exact .raise _
    · exact (AtMost.ofExcept _).bind fun data => .ret _
  · cases x with
    | remoteInferenceError | baseException => exact (AtMost.raise _).mono (Nat.zero_le _)
    | transientRemoteError | timeoutException | connectError | exception =>
      exact perfCounter_raise_atMost _

theorem mockLocalInference_atMost :
    (mockLocalInference config prompt requestId).AtMost Answerable (fun _ => 1) 4 := by
  refine AtMost.mono (n := 1 + (1 + (1 + (1 + 0)))) ?_ le_rfl
  refine AtMost.bind (.call ?_) fun jitter => perfCounter_atMost.bind fun start =>
    (sleep_atMost _).bind fun _ => perfCounter_atMost.bind fun stop => .ret _
  norm_num [Answerable]

theorem simulateLocalInference_atMost :
    (simulateLocalInference config backends prompt requestId).AtMost Answerable
      (fun _ => 1) 8 := by
  refine .ite (mockLocalInference_atMost.mono (by decide)) ?_
  refine AtMost.mono (n := 4 + 4) ?_ le_rfl
  refine AtMost.tryCatch callOllama_atMost fun x => ?_
  cases x with
  | remoteInferenceError => exact mockLocalInference_atMost
  | transientRemoteError | timeoutException | connectError | exception | baseException =>
    exact (AtMost.raise _).mono (Nat.zero_le _)

theorem attemptTokenrouterRequest_atMost (request : HttpRequest) :
    (attemptTokenrouterRequest request requestId).AtMost Answerable (fun _ => 1) 1 := by
  refine AtMost.mono (n := 1 + 0 + 0) ?_ le_rfl
  refine .tryCatch ?_ fun x => ?_
  · exact (post_atMost _).bind fun resp => .ite (.raise _) (.ret _)
  · cases x <;> exact .raise _

/-- Three attempts and two pauses. -/
theorem executeTokenrouterRequest_atMost (request : HttpRequest) :
    (executeTokenrouterRequest request requestId).AtMost Answerable (fun _ => 1) 5 := by
  refine AtMost.mono (n := 1 + 2 * (1 + 1)) ?_ le_rfl
  exact AtMost.retryFrom (attemptTokenrouterRequest_atMost request) (fun _ => sleep_atMost _) 2 1

theorem callTokenrouter_atMost :
    (callTokenrouter backends prompt requestId shouldFail).AtMost Answerable (fun _ => 1) 8 := by
  refine .ite ((AtMost.raise _).mono (Nat.zero_le _)) ?_
  refine AtMost.mono (n := 1 + (5 + (1 + 0) + 1)) ?_ le_rfl
  refine perfCounter_atMost.bind fun start => .tryCatch ?_ fun x => ?_
  · refine (executeTokenrouterRequest_atMost _).bind fun resp =>
      perfCounter_atMost.bind fun stop => .ite ?_ ?_
    · exact .raise _
    · exact (AtMost.ofExcept _).bind fun data => .ret _
  · cases x with
    | remoteInferenceError | baseException => exact (AtMost.raise _).mono (Nat.zero_le _)
    | transientRemoteError | timeoutException | connectError | exception =>
      exact perfCounter_raise_atMost _

theorem randintOrZero_atMost {a b : ℤ} (hab : a ≤ b) :
    (randintOrZero a b).AtMost Answerable (fun _ => 1) 2 := by
  refine AtMost.mono (n := 1 + (1 + 0)) ?_ le_rfl
  refine AtMost.bind (.call trivial) fun x => .ite ?_ ?_
  · exact AtMost.bind (.call hab) fun n => .ret _
  · exact (AtMost.ret _).mono (Nat.zero_le _)

theorem mockRemoteInference_atMost :
    (mockRemoteInference config backends requestId shouldFail).AtMost Answerable
      (fun _ => 1) 10 := by
  refine AtMost.mono (n := 1 + (1 + (1 + (1 + (1 + (1 + (2 + (2 + 0)))))))) ?_ le_rfl
  refine AtMost.bind (.call ?_) fun jitter => perfCounter_atMost.bind fun start =>
    (sleep_atMost _).bind fun _ => perfCounter_atMost.bind fun stop => .ite ?_ ?_
  · norm_num [Answerable]
  · exact (AtMost.raise _).mono (Nat.zero_le _)
  · refine AtMost.bind (.call ?_) fun promptTokens => .bind (.call ?_) fun completionTokens =>
      (randintOrZero_atMost ?_).bind fun _ => (randintOrZero_atMost ?_).bind fun _ => .ret _
    all_goals norm_num [Answerable]

theorem simulateRemoteInference_atMost :
    (simulateRemoteInference config backends prompt requestId shouldFail).AtMost Answerable
      (fun _ => 1) 10 :=
  .ite mockRemoteInference_atMost
    (.ite mockRemoteInference_atMost (callTokenrouter_atMost.mono (by decide)))

end Backends

/-! ### The handler -/

/-- The weights of the effects of a handler, by the bounds of the two backends. -/
def weight (l r : ℕ) : Effect → ℕ
  | .simulateLocalInference .. => l
  | .simulateRemoteInference .. => r
  | .tryReserve .. | .commit .. | .rollback .. | .readReservation .. | .budgetSnapshot
  | .activeCount | .isAtCapacity | .maxConcurrency | .acquire | .release | .getEstimate ..
  | .record .. | .countRoute .. | .publish .. => 1

/-- The bound of a handler, by those of the two backends. -/
def maxTurns (l r : ℕ) : ℕ := 7 + (1 + (1 + (1 + (1 + (max (r + 2) (l + 4) + (l + 6) + 3)))))

section Handlers

open Handler

variable {config : Config} {request : InferenceRequest} {l r : ℕ}

/-- The program of a handler weighs at most `n`. -/
abbrev Weighs (l r n : ℕ) {α : Type} (p : Handler α) : Prop :=
  p.AtMost (fun _ => True) (weight l r) n

/-- An effect whose reply is turned into a value or an exception. -/
theorem call_weighs (e : Effect) {α : Type} (f : e.Reply → Except Exn α) :
    Weighs l r (weight l r e)
      (Program.call (S := signature) e >>= fun reply => .ofExcept (f reply)) := by
  refine AtMost.mono (n := weight l r e + 0) ?_ le_rfl
  exact AtMost.bind (.call trivial) fun reply => .ofExcept (S := signature) (f reply)

/-- An effect that counts once. -/
theorem effect_weighs {e : Effect} (he : weight l r e = 1) :
    Weighs l r 1 (Program.call (S := signature) e) :=
  he ▸ .call trivial

theorem tryReserve_weighs (requestId : String) (cost latencyMs : ℚ) :
    Weighs l r 1 (tryReserve requestId cost latencyMs) :=
  call_weighs (.tryReserve requestId cost latencyMs) (Except.mapError Exn.budget)

theorem commit_weighs (ref : Ref) (actualCost actualLatencyMs : ℚ) :
    Weighs l r 1 (commit ref actualCost actualLatencyMs) :=
  call_weighs (.commit ref actualCost actualLatencyMs) (Except.mapError Exn.budget)

theorem rollback_weighs (ref : Ref) : Weighs l r 1 (rollback ref) :=
  call_weighs (.rollback ref) (Except.mapError Exn.budget)

theorem simulateLocalInference_weighs (prompt requestId : String) :
    Weighs l r l (simulateLocalInference prompt requestId) :=
  call_weighs (.simulateLocalInference prompt requestId) id

theorem simulateRemoteInference_weighs (prompt requestId : String) (shouldFail : Bool) :
    Weighs l r r (simulateRemoteInference prompt requestId shouldFail) :=
  call_weighs (.simulateRemoteInference prompt requestId shouldFail) id

theorem reserveRemote_weighs (advisory : Advisory) :
    Weighs l r 1 (reserveRemote config request advisory) :=
  .ite (tryReserve_weighs _ _ _) ((AtMost.ret _).mono (Nat.zero_le _))

theorem degrade_weighs (advisory : Advisory) (reason : ℚ → String) (failReason : String) :
    Weighs l r 2 (degrade request advisory reason failReason) := by
  refine AtMost.mono (n := 1 + (1 + 0)) ?_ le_rfl
  refine AtMost.bind (effect_weighs rfl) fun estimate =>
    (tryReserve_weighs _ _ _).bind fun reservation => ?_
  cases reservation <;> exact .ret _

theorem routeFast_weighs (advisory : Advisory) :
    Weighs l r 3 (routeFast config request advisory) := by
  refine .ite ?_ ?_
  · refine AtMost.mono (n := 1 + (1 + 0)) ?_ (by decide)
    refine (tryReserve_weighs _ _ _).bind fun reservation => ?_
    cases reservation with
    | some reservation => exact AtMost.bind (effect_weighs rfl) fun _ => .ret _
    | none => exact (AtMost.ret _).mono (Nat.zero_le _)
  · refine AtMost.mono (n := 1 + 2) ?_ le_rfl
    refine (reserveRemote_weighs _).bind fun reservation => ?_
    cases reservation with
    | some reservation => exact (AtMost.ret _).mono (Nat.zero_le _)
    | none => exact .ite (degrade_weighs _ _ _) ((AtMost.ret _).mono (Nat.zero_le _))

theorem routeQuality_weighs (advisory : Advisory) :
    Weighs l r 3 (routeQuality config request advisory) := by
  refine AtMost.mono (n := 1 + 2) ?_ le_rfl
  refine (reserveRemote_weighs _).bind fun reservation => ?_
  cases reservation with
  | some reservation => exact (AtMost.ret _).mono (Nat.zero_le _)
  | none =>
    refine .ite ?_ (.ite (degrade_weighs _ _ _) ((AtMost.ret _).mono (Nat.zero_le _)))
    refine AtMost.mono (n := 1 + 0) ?_ (by decide)
    refine (tryReserve_weighs _ _ _).bind fun reservation => ?_
    cases reservation <;> exact .ret _

/-- Four reads and at most three effects on the path. -/
theorem route_weighs (tier : ComplexityTier) : Weighs l r 7 (route config request tier) := by
  refine AtMost.mono (n := 1 + (1 + (1 + (1 + 3)))) ?_ le_rfl
  refine AtMost.bind (effect_weighs rfl) fun _ => .bind (effect_weighs rfl) fun _ =>
    .bind (effect_weighs rfl) fun _ => .bind (effect_weighs rfl) fun _ => ?_
  cases tier with
  | quality => exact routeQuality_weighs _
  | fast => exact routeFast_weighs _

theorem slot_weighs {α : Type} {body : Handler α} {n : ℕ} (hbody : Weighs l r n body) :
    Weighs l r (1 + (n + 1)) (slot body) := by
  refine AtMost.bind (effect_weighs rfl) fun acquired => .ite ?_ ?_
  · exact hbody.andFinally (effect_weighs rfl)
  · exact (AtMost.raise _).mono (Nat.zero_le _)

theorem commitIfReserved_weighs (reservation : Option Ref) (actualCost actualLatencyMs : ℚ) :
    Weighs l r 2 (commitIfReserved reservation actualCost actualLatencyMs) := by
  cases reservation with
  | none => exact (AtMost.ret _).mono (Nat.zero_le _)
  | some reservation =>
    refine AtMost.mono (n := 1 + (1 + 0)) ?_ le_rfl
    exact (commit_weighs _ _ _).bind fun _ => .bind (effect_weighs rfl) fun _ => .ret _

theorem rollbackIfPending_weighs (reservation : Option Ref)
    {afterwards : Reservation → Handler Unit} {n : ℕ}
    (hafterwards : ∀ reservation, Weighs l r n (afterwards reservation)) :
    Weighs l r (1 + (1 + n)) (rollbackIfPending reservation afterwards) := by
  cases reservation with
  | none => exact (AtMost.ret _).mono (Nat.zero_le _)
  | some reservation =>
    refine AtMost.bind (effect_weighs rfl) fun reservation => .ite ?_ ?_
    · exact (rollback_weighs _).bind fun _ => hafterwards _
    · exact (AtMost.ret _).mono (Nat.zero_le _)

theorem execute_weighs (decision : RoutingDecision) :
    Weighs l r (max (r + 2) (l + 4)) (execute request decision) := by
  refine .ite ?_ ?_
  · refine AtMost.mono (n := r + (2 + 0)) ?_ (le_max_left _ _)
    exact (simulateRemoteInference_weighs _ _ _).bind fun _ =>
      (commitIfReserved_weighs _ _ _).bind fun _ => .ret _
  · refine (slot_weighs (n := l + (2 + 0)) ?_).mono (le_max_of_le_right (by omega))
    exact (simulateLocalInference_weighs _ _).bind fun _ =>
      (commitIfReserved_weighs _ _ _).bind fun _ => .ret _

theorem fallback_weighs : Weighs l r (l + 2) (fallback request) := by
  refine (slot_weighs (n := l + 0) ?_).mono (by omega)
  exact (simulateLocalInference_weighs _ _).bind fun _ => .ret _

theorem recoverRemoteFailure_weighs (reservation : Option Ref) (message : String) :
    Weighs l r (l + 6) (recoverRemoteFailure request reservation message) := by
  refine AtMost.mono (n := 1 + (1 + 1) + (1 + (l + 2 + 0))) ?_ (by omega)
  refine (rollbackIfPending_weighs _ fun _ => effect_weighs rfl).bind fun _ =>
    .bind (effect_weighs rfl) fun atCapacity => .ite ?_ ?_
  · refine fallback_weighs.tryCatch fun x => ?_
    cases x <;> exact .raise _
  · exact (AtMost.raise _).mono (Nat.zero_le _)

theorem recover_weighs (decision : RoutingDecision) (x : Exn) :
    Weighs l r (l + 6) (recover request decision x) := by
  have hraise : ∀ y : Exn, Weighs l r (l + 6)
      ((rollbackIfPending decision.reservation fun _ => pure ()) >>= fun _ =>
        (throw y : Handler Execution)) := fun y => by
    refine AtMost.mono (n := 1 + (1 + 0) + 0) ?_ (by omega)
    exact (rollbackIfPending_weighs _ fun _ => .ret _).bind fun _ => .raise (S := signature) y
  cases x with
  | runtimeError =>
    refine AtMost.mono (n := 1 + (1 + 0) + (1 + 0)) ?_ (by omega)
    exact (rollbackIfPending_weighs _ fun _ => .ret _).bind fun _ =>
      .bind (effect_weighs rfl) fun _ => .raise _
  | budget error =>
    cases error with
    | actualCostExceededReservation | actualLatencyExceededReservation =>
      exact (AtMost.raise _).mono (Nat.zero_le _)
    | valueError | invalidReservationState => exact hraise _
  | remoteInferenceError message => exact recoverRemoteFailure_weighs _ _
  | baseException => exact (AtMost.raise _).mono (Nat.zero_le _)
  | httpException | exception => exact hraise _

theorem respond_weighs (tier : ComplexityTier) (execution : Execution) :
    Weighs l r 3 (respond request tier execution) := by
  refine AtMost.mono (n := 1 + (1 + (1 + 0))) ?_ le_rfl
  exact AtMost.bind (effect_weighs rfl) fun _ => .bind (effect_weighs rfl) fun _ =>
    .bind (effect_weighs rfl) fun _ => .ret _

/-- **The bound of the handler.** -/
theorem inference_weighs (classify : String → ComplexityTier) :
    Weighs l r (maxTurns l r) (inference config classify request) := by
  refine (route_weighs _).bind fun decision => .ite ?_ ?_
  · refine AtMost.mono (n := 1 + (1 + 0)) ?_ (by omega)
    exact AtMost.bind (effect_weighs rfl) fun _ => .bind (effect_weighs rfl) fun _ => .raise _
  · refine AtMost.bind (effect_weighs rfl) fun _ => .bind (effect_weighs rfl) fun _ =>
      .bind (effect_weighs rfl) fun _ => .bind (effect_weighs rfl) fun _ => ?_
    exact ((execute_weighs decision).tryCatch (recover_weighs decision)).bind fun execution =>
      respond_weighs _ execution

end Handlers

/-! ### The handlers of the deployed process -/

section Process

variable {config : Config} {backends : BackendConfig} {classify : String → ComplexityTier}
  {q : Pool (deployedProcess config backends classify)}
  {tr : List (Pool (deployedProcess config backends classify) ×
    Choice (deployedProcess config backends classify))}

/-- The weights of the effects of a handler with the backends of the deployed process. -/
def processWeight : ProcessEffect → ℕ
  | .capture => 1
  | .on _ e => weight 8 10 e

/-- **The bound of a handler of the deployed process.** -/
theorem main_atMost (request : InferenceRequest) :
    ((deployedProcess config backends classify).main request).AtMost (InnerOk Answerable)
      (fun _ => 1) 41 := by
  have hhandler : (inferenceAcrossResets config classify request).AtMost (fun _ => True)
      processWeight (1 + maxTurns 8 10) :=
    AtMost.bind (.call (S := processSignature) (e := .capture) trivial) fun g =>
      .translate (inference_weighs classify)
  refine AtMost.implement (hhandler.mono (by decide)) (fun e routine hroutine => ?_)
    fun e hnone => ?_
  · cases e with
    | capture => cases hroutine
    | on g e =>
      cases e with
      | simulateLocalInference =>
        cases hroutine
        exact Backends.simulateLocalInference_atMost
      | simulateRemoteInference =>
        cases hroutine
        exact Backends.simulateRemoteInference_atMost
      | tryReserve | commit | rollback | readReservation | budgetSnapshot | activeCount
      | isAtCapacity | maxConcurrency | acquire | release | getEstimate | record | countRoute
      | publish => cases hroutine
  · cases e with
    | capture => exact le_rfl
    | on g e =>
      cases e with
      | simulateLocalInference | simulateRemoteInference => cases hnone
      | tryReserve | commit | rollback | readReservation | budgetSnapshot | activeCount
      | isAtCapacity | maxConcurrency | acquire | release | getEstimate | record | countRoute
      | publish => exact le_rfl

/-- **Every request is answered.** In every run of the deployed process, a handler takes at most 41
turns, whatever the servers answer and whatever the other handlers, the reaper, the streams and the
resets do in between; and as long as it has not ended, it can take a turn. -/
theorem handlers_end {clock : ℚ}
    (run : Run Pool.Step (initialDeployedProcess config backends classify clock) tr q) {i : ℕ}
    {u : Thread (deployedProcess config backends classify)} (hu : q.threads[i]? = some u) :
    turns i tr ≤ 41 ∧ (u.outcome = none → ∃ o q', q.Step (.resume i o) q') := by
  obtain ⟨hturns, hok⟩ := Pool.turns_of_run main_atMost run hu
  refine ⟨hturns, fun hunfinished => ?_⟩
  obtain ⟨e, hnext⟩ := Thread.exists_next hunfinished
  cases e with
  | inr e =>
    obtain ⟨o, rs, hexec⟩ := exec_answerable q.state.2 (hok _ hnext)
    have hstep : (deployedProcess config backends classify).exec q.state (.inr e) ({}, o) =
        some (rs.1, q.state.1, rs.2) := Option.map_eq_some_iff.mpr ⟨rs, hexec, rfl⟩
    obtain ⟨q', h⟩ := Pool.exists_step hu hnext hstep
    exact ⟨_, q', h⟩
  | inl e =>
    obtain ⟨tr', p, run', hoperates⟩ := exists_operates run
    obtain ⟨t, ht, hmatches⟩ := hoperates.getElem?' hu
    obtain ⟨k, hprogram⟩ := Thread.exists_perform_of_next hnext
    have hstands := hmatches.stands
    rw [hprogram] at hstands
    obtain ⟨k₀, -, hp, -⟩ := hstands.of_inl
    obtain ⟨o, rs, hexec⟩ := process_live ⟨tr', run'⟩ t (List.mem_of_getElem? ht) e
      (Thread.next_of_perform hp)
    rw [← hoperates.state] at hexec
    have hstep : (deployedProcess config backends classify).exec q.state (.inl e)
        (o, sampleReply) = some (rs.1, rs.2, q.state.2) :=
      Option.map_eq_some_iff.mpr ⟨rs, hexec, rfl⟩
    obtain ⟨q', h⟩ := Pool.exists_step hu hnext hstep
    exact ⟨_, q', h⟩

/-- A run after which a handler of old managers has taken ten turns, and takes another one. -/
theorem handlers_end_of_straggler : ∃ tr q,
    Run Pool.Step (initialDeployedProcess .default .default (fun _ => .quality) 0) tr q ∧
      turns 0 tr = 10 ∧ turns 1 tr = 23 ∧ ∃ o q', q.Step (.resume 0 o) q' := by
  obtain ⟨tr, q, run, hfirst, hsecond, hthread⟩ := Pool.exists_run_trace
    (P := fun tr (q : Pool (deployedProcess .default .default fun _ => .quality)) =>
      turns 0 tr = 10 ∧ turns 1 tr = 23 ∧
        q.threads[0]?.map (fun u => u.outcome.isNone) = some true)
    (initialDeployedProcess .default .default (fun _ => .quality) 0) (aroundReset 10)
    (by decide +kernel)
  obtain ⟨u, hu, hunfinished⟩ := Option.map_eq_some_iff.mp hthread
  exact ⟨tr, q, run, hfirst, hsecond,
    (handlers_end run hu).2 (Option.isNone_iff_eq_none.mp hunfinished)⟩

end Process

end InferenceRouter
