import InferenceRouter.Backends.Contract
import InferenceRouter.Service.System

/-!
# The deployed service

The service with the backends that it is shipped with. The calls of the backends are the routines
of `app/backends.py`, and the handlers interleave at every request, pause and reading of the clock
inside them as well.

Each run of the deployed service is matched by a run of the service, in which the calls of the
backends are answered at once, within the contract that the backends keep to. What holds of the
service with any backends, or with backends that keep to the contract, holds of the deployed one.

## Main definitions

* `InferenceRouter.backendImplementation`: the calls of the backends as routines.
* `InferenceRouter.deployment`, `InferenceRouter.initialDeployment`.
* `InferenceRouter.BackendContract`: what the calls of the backends are answered with.

## Main results

* `InferenceRouter.exists_deploys`: every run of the deployed service is matched by one of the
  service.
-/

namespace InferenceRouter

open Foundation

/-! ### The calls of the backends -/

/-- An exception of a backend, by the clauses of the handlers. Only those of the first and of the
last kind reach them. -/
def BackendExn.toExn : BackendExn → Exn
  | remoteInferenceError message => .remoteInferenceError message
  | transientRemoteError message | timeoutException _ message | connectError message
  | exception _ message => .exception message
  | baseException message => .baseException message

/-- The calls of the backends as routines. -/
def backendImplementation (config : Config) (backends : BackendConfig) :
    Implementation signature backendSignature BackendResult
  | .simulateLocalInference prompt requestId =>
    some ⟨Backends.simulateLocalInference config backends prompt requestId,
      Except.mapError BackendExn.toExn⟩
  | .simulateRemoteInference prompt requestId shouldFail =>
    some ⟨Backends.simulateRemoteInference config backends prompt requestId shouldFail,
      Except.mapError BackendExn.toExn⟩
  | .tryReserve .. | .commit .. | .rollback .. | .readReservation .. | .budgetSnapshot
  | .activeCount | .isAtCapacity | .maxConcurrency | .acquire | .release | .getEstimate ..
  | .record .. | .countRoute .. | .publish .. => none

/-- The service with the backends. -/
@[reducible] def deployment (config : Config) (backends : BackendConfig)
    (classify : String → ComplexityTier) : System (signature.sum backendSignature) :=
  (service config classify).implement (backendImplementation config backends) backendDevice

/-- The deployed service at start-up, when `time.perf_counter` reads `clock`. -/
def initialDeployment (config : Config) (backends : BackendConfig)
    (classify : String → ComplexityTier) (clock : ℚ) :
    Pool (deployment config backends classify) :=
  ⟨(.init config, clock), []⟩

/-! ### The contract -/

/-- What the calls of the backends are answered with. Exceptions outside `Exception` are among the
answers only if something has been `interrupted`. -/
def BackendContract (backends : BackendConfig) (interrupted : Prop) :
    (e : Effect) → e.Reply → Prop
  | .simulateLocalInference _ requestId, .ok result =>
    result.requestId = requestId ∧ result.actualCost = 0 ∧ 0 ≤ result.actualLatencyMs
  | .simulateLocalInference .., .error x => (∃ message, x = .baseException message) ∧ interrupted
  | .simulateRemoteInference _ requestId shouldFail, .ok result =>
    shouldFail = false ∧ result.requestId = requestId ∧
      result.actualCost = backends.tokenCost result ∧ 0 ≤ result.actualLatencyMs
  | .simulateRemoteInference .., .error x =>
    (∃ message, x = .remoteInferenceError message) ∨
      (∃ message, x = .baseException message) ∧ interrupted
  | .tryReserve .., _ | .commit .., _ | .rollback .., _ | .readReservation .., _
  | .budgetSnapshot, _ | .activeCount, _ | .isAtCapacity, _ | .maxConcurrency, _ | .acquire, _
  | .release, _ | .getEstimate .., _ | .record .., _ | .countRoute .., _ | .publish .., _ => True

/-- The event interrupts nothing, unless there have been interruptions. -/
def Tolerated (interrupted : Prop) (ev : Event backendSignature) : Prop :=
  Interrupts ev → interrupted

/-- The history of a routine: its readings of the clock are in order, and its events tolerated. -/
def RoutineHistory (interrupted : Prop) (clock : ℚ) (h : History backendSignature) : Prop :=
  Timed clock h ∧ ∀ ev ∈ h, Tolerated interrupted ev

variable {config : Config} {backends : BackendConfig} {classify : String → ComplexityTier}
  {interrupted : Prop}

theorem toExn_of_isBase {x : BackendExn} (hx : x.IsBase) :
    ∃ message, x.toExn = .baseException message := by
  cases x with
  | baseException message => exact ⟨message, rfl⟩
  | remoteInferenceError | transientRemoteError | timeoutException | connectError | exception =>
    exact hx.elim

theorem RoutineHistory.of_interrupted {h : History backendSignature} {clock : ℚ}
    (hh : RoutineHistory interrupted clock h) (hinterrupted : Interrupted h) : interrupted := by
  obtain ⟨ev, hev, hinterrupts⟩ := hinterrupted
  exact hh.2 ev hev hinterrupts

/-- **The backends keep to the contract**, whatever the servers answer. -/
theorem backendImplementation_fulfils : (backendImplementation config backends).Fulfils
    (service config classify) backendDevice (BackendContract backends interrupted)
    (Tolerated interrupted) (RoutineHistory interrupted) where
  keeps := backendDevice_keeps _
  meets e routine hroutine := by
    cases e with
    | simulateLocalInference prompt requestId =>
      cases hroutine
      refine ((Backends.simulateLocalInference_meets config backends prompt requestId).imp
        fun _ _ _ => trivial).mono ?_
      rintro h (x | result) hanswer ⟨clock, hh⟩
      · exact ⟨toExn_of_isBase hanswer.1, hh.of_interrupted hanswer.2⟩
      · exact ⟨hanswer.1, hanswer.2.1, hanswer.2.2 (.of_timed hh.1)⟩
    | simulateRemoteInference prompt requestId shouldFail =>
      cases hroutine
      refine ((Backends.simulateRemoteInference_meets config backends prompt requestId
        shouldFail).imp fun _ _ _ => trivial).mono ?_
      rintro h (x | result) hanswer ⟨clock, hh⟩
      · rcases hanswer with ⟨message, rfl⟩ | ⟨hbase, hinterrupted⟩
        · exact Or.inl ⟨message, rfl⟩
        · exact Or.inr ⟨toExn_of_isBase hbase, hh.of_interrupted hinterrupted⟩
      · exact ⟨hanswer.1, hanswer.2.1, hanswer.2.2.1, hanswer.2.2.2 (.of_timed hh.1)⟩
    | tryReserve | commit | rollback | readReservation | budgetSnapshot | activeCount
    | isAtCapacity | maxConcurrency | acquire | release | getEstimate | record | countRoute
    | publish => cases hroutine
  answers s e r hsome _ _ := by
    cases e with
    | simulateLocalInference | simulateRemoteInference => exact ⟨{ answer := r }, rfl⟩
    | tryReserve | commit | rollback | readReservation | budgetSnapshot | activeCount
    | isAtCapacity | maxConcurrency | acquire | release | getEstimate | record | countRoute
    | publish => cases hsome

/-! ### The refinement -/

section Interruptions

variable {S : Signature} {sys : System (S.sum backendSignature)}

/-- No pause and no request of a handler has been interrupted so far. -/
def Uninterrupted (q : Pool sys) : Prop :=
  ∀ u ∈ q.threads, InnerMeet (fun ev => ¬ Interrupts ev) u.history

instance (q : Pool sys) : Decidable (Uninterrupted q) :=
  inferInstanceAs (Decidable (∀ u ∈ q.threads, _))

/-- Every event of a routine is tolerated, if the interruptions of the pool are. -/
theorem tolerated_of_interruptions {q : Pool sys} :
    ∀ u ∈ q.threads, InnerMeet (Tolerated (¬ Uninterrupted q)) u.history := by
  intro u hu ⟨e, r⟩ hev
  cases e with
  | inl e => exact trivial
  | inr e => exact fun hinterrupts huninterrupted => huninterrupted u hu _ hev hinterrupts

end Interruptions

/-- The pool `q` of the deployed service has come as far as the pool `p` of the service. -/
abbrev Deploys (p : Pool (service config classify))
    (q : Pool (deployment config backends classify)) : Prop :=
  p.Matches (BackendContract backends (¬ Uninterrupted q)) (RoutineHistory (¬ Uninterrupted q)) q

variable {q : Pool (deployment config backends classify)}
  {tr : List (Pool (deployment config backends classify) ×
    Choice (deployment config backends classify))}

/-- **Every run of the deployed service is matched** by a run of the service. -/
theorem exists_deploys {clock : ℚ}
    (run : Run Pool.Step (initialDeployment config backends classify clock) tr q) :
    ∃ tr' p, Run Pool.Step (initial config classify) tr' p ∧ Deploys p q :=
  Pool.exists_matching backendImplementation_fulfils (.of_exec exec_total) run
    tolerated_of_interruptions

/-! ### Sample runs -/

theorem left_mem {α : Type} [Preorder α] {a b : α} (h : a ≤ b) : a ≤ a ∧ a ≤ b := ⟨le_refl a, h⟩

theorem zero_mem : (0 : ℚ) ≤ 0 ∧ (0 : ℚ) < 1 := by decide +kernel

/-- Servers that cannot be reached, a clock that stands still, and the smallest random numbers, for
the runs that show a behaviour of the deployed service. -/
def sampleReply : (e : BackendEffect) → Option e.Reply
  | .post _ => some (.error (.connectError "refused"))
  | .sleep _ => some none
  | .perfCounter => some 0
  | .uniform a b => if h : a ≤ b then some ⟨a, left_mem h⟩ else none
  | .randint a b => if h : a ≤ b then some ⟨a, left_mem h⟩ else none
  | .random => some ⟨0, zero_mem⟩

/-- A request arrives, and its handler performs its next `n` effects. -/
def sampleDeployment (n : ℕ) : List (Choice (deployment config backends classify)) :=
  .spawn sampleRequest :: List.replicate n (.resume 0 ({}, sampleReply))

end InferenceRouter
