import InferenceRouter.Service.Handler

/-!
# What a handler has done

The history of a handler, reduced to what matters for the resources it holds: the reservations
granted to it, those it has resolved, the local slots it holds, the charges it has committed and
the answers of the backends it has called. A reservation is resolved for a handler once the
handler has attempted to settle it, or has read that it is no longer pending.

The one condition proved about the handler says what its effects rely on (`Allowed`) and how it
can end (`Ending`).

## Main definitions

* `InferenceRouter.Tally`, `InferenceRouter.tally`.
* `InferenceRouter.Tally.Extends`: what stays in a summary.
* `InferenceRouter.Exn.Caught`: the exceptions that end in a rollback.
* `InferenceRouter.Allowed`, `InferenceRouter.Ending`.

## Main results

* `InferenceRouter.route_meets`: the condition for the agent.
-/

namespace InferenceRouter

open Foundation Handler

/-! ### Tallies -/

/-- A reservation that the agent has obtained, with the amounts it asked for. -/
structure Grant where
  ref : Ref
  cost : ℚ
  latencyMs : ℚ
  deriving DecidableEq

/-- The two backends. -/
inductive Backend
  | «local»
  | remote
  deriving DecidableEq

/-- A summary of the history of a handler, the latest items first. -/
structure Tally where
  granted : List Grant := []
  resolved : List Ref := []
  slots : ℕ := 0
  charges : List (ℚ × ℚ) := []
  answers : List (Backend × Except Exn BackendResult) := []

/-- The summary after one more effect. -/
def Tally.after (t : Tally) : (e : Effect) → e.Reply → Tally
  | .tryReserve _ cost latencyMs, .ok (some ref) =>
    { t with granted := ⟨ref, cost, latencyMs⟩ :: t.granted }
  | .tryReserve .., .ok none | .tryReserve .., .error _ => t
  | .commit ref actualCost actualLatencyMs, .ok _ =>
    { t with
      resolved := ref :: t.resolved
      charges := (actualCost, actualLatencyMs) :: t.charges }
  | .commit ref _ _, .error _ | .rollback ref, _ => { t with resolved := ref :: t.resolved }
  | .readReservation ref, reservation =>
    if reservation.state = .pending then t else { t with resolved := ref :: t.resolved }
  | .acquire, true => { t with slots := t.slots + 1 }
  | .acquire, false => t
  | .release, _ => { t with slots := t.slots - 1 }
  | .simulateLocalInference .., answer => { t with answers := (.local, answer) :: t.answers }
  | .simulateRemoteInference .., answer => { t with answers := (.remote, answer) :: t.answers }
  | .budgetSnapshot, _ | .activeCount, _ | .isAtCapacity, _ | .maxConcurrency, _
  | .getEstimate .., _ | .record .., _ | .countRoute .., _ | .publish .., _ => t

/-- The summary of a history. -/
def tally : History signature → Tally
  | [] => {}
  | ⟨e, r⟩ :: h => (tally h).after e r

theorem tally_cons (e : Effect) (r : e.Reply) (h : History signature) :
    tally (⟨e, r⟩ :: h) = (tally h).after e r := rfl

/-- A later summary: everything of the earlier one is still there, but for the slots. -/
structure Tally.Extends (t t' : Tally) : Prop where
  granted : t.granted <:+ t'.granted
  resolved : t.resolved <:+ t'.resolved
  charges : t.charges <:+ t'.charges
  answers : t.answers <:+ t'.answers

theorem Tally.Extends.refl (t : Tally) : t.Extends t :=
  ⟨List.suffix_refl _, List.suffix_refl _, List.suffix_refl _, List.suffix_refl _⟩

theorem Tally.Extends.trans {t t' t'' : Tally} (h : t.Extends t') (h' : t'.Extends t'') :
    t.Extends t'' :=
  ⟨h.granted.trans h'.granted, h.resolved.trans h'.resolved, h.charges.trans h'.charges,
    h.answers.trans h'.answers⟩

/-- The first answer stays the first one. -/
theorem Tally.Extends.getLast?_answers {t t' : Tally} (h : t.Extends t')
    {answer : Backend × Except Exn BackendResult} (hfirst : t.answers = [answer]) :
    t'.answers.getLast? = some answer := by
  obtain ⟨later, hlater⟩ := h.answers
  rw [← hlater, hfirst, List.getLast?_concat]

/-- An effect takes nothing away. -/
theorem Tally.extends_after (t : Tally) (e : Effect) (r : e.Reply) : t.Extends (t.after e r) := by
  have hself := fun {α : Type} (l : List α) => List.suffix_refl l
  have hcons := fun {α : Type} (a : α) (l : List α) => List.suffix_cons a l
  cases e with
  | tryReserve =>
    rcases r with error | _ | ref
    · exact .refl t
    · exact .refl t
    · exact ⟨hcons _ _, hself _, hself _, hself _⟩
  | commit =>
    rcases r with error | _
    · exact ⟨hself _, hcons _ _, hself _, hself _⟩
    · exact ⟨hself _, hcons _ _, hcons _ _, hself _⟩
  | rollback => exact ⟨hself _, hcons _ _, hself _, hself _⟩
  | readReservation =>
    dsimp only [Tally.after]
    split_ifs
    · exact .refl t
    · exact ⟨hself _, hcons _ _, hself _, hself _⟩
  | acquire => cases r <;> exact ⟨hself _, hself _, hself _, hself _⟩
  | release => exact ⟨hself _, hself _, hself _, hself _⟩
  | simulateLocalInference | simulateRemoteInference =>
    exact ⟨hself _, hself _, hself _, hcons _ _⟩
  | budgetSnapshot | activeCount | isAtCapacity | maxConcurrency | getEstimate | record
  | countRoute | publish => exact .refl t

/-- Only a commit charges. -/
theorem Tally.charges_after (t : Tally) {e : Effect} (r : e.Reply)
    (hcommit : ∀ ref actualCost actualLatencyMs, e ≠ .commit ref actualCost actualLatencyMs) :
    (t.after e r).charges = t.charges := by
  cases e with
  | tryReserve => rcases r with error | _ | ref <;> rfl
  | commit ref actualCost actualLatencyMs => exact absurd rfl (hcommit _ _ _)
  | readReservation =>
    dsimp only [Tally.after]
    split_ifs <;> rfl
  | acquire => cases r <;> rfl
  | rollback | release | simulateLocalInference | simulateRemoteInference | budgetSnapshot
  | activeCount | isAtCapacity | maxConcurrency | getEstimate | record | countRoute
  | publish => rfl

/-- The summary of a longer history is a later summary. -/
theorem tally_extends {h h' : History signature} (hsuffix : h <:+ h') :
    (tally h).Extends (tally h') := by
  obtain ⟨ext, rfl⟩ := hsuffix
  induction ext with
  | nil => exact .refl _
  | cons event ext ih => exact ih.trans (Tally.extends_after _ _ _)

/-! ### What the effects rely on -/

/-- What a commit charges for the result of a backend: only remote calls cost money. -/
def Backend.charge (b : Backend) (result : BackendResult) : ℚ × ℚ :=
  match b with
  | .local => (0, result.actualLatencyMs)
  | .remote => (result.actualCost, result.actualLatencyMs)

/-- No call of a backend has been answered yet and nothing is resolved, or every reservation is. -/
def Tally.AtCall (t : Tally) : Prop :=
  (t.answers = [] ∧ t.resolved = []) ∨ ∀ g ∈ t.granted, g.ref ∈ t.resolved

/-- What the effects of a handler rely on. It commits its reservation at most once, for what a
backend has answered; it reads and rolls back its own reservations only, and rolls back those that
hold money after the call of a backend; it holds at most one slot; and it calls the remote backend
at most once, right after its reservation. -/
def Allowed (h : History signature) : Effect → Prop
  | .commit ref actualCost actualLatencyMs =>
    ∃ g b result, g.ref = ref ∧ b.charge result = (actualCost, actualLatencyMs) ∧
      tally h =
        { granted := [g], slots := (tally h).slots, answers := [(b, .ok result)] }
  | .rollback ref =>
    ∃ g ∈ (tally h).granted, g.ref = ref ∧ (g.cost ≠ 0 → (tally h).answers ≠ [])
  | .acquire => (tally h).slots = 0
  | .release => (tally h).slots = 1
  | .simulateLocalInference .. => (tally h).slots = 1 ∧ (tally h).AtCall
  | .simulateRemoteInference .. => ∃ g, tally h = { granted := [g] }
  | .readReservation ref => ∃ g ∈ (tally h).granted, g.ref = ref
  | .tryReserve .. | .budgetSnapshot | .activeCount | .isAtCapacity | .maxConcurrency
  | .getEstimate .. | .record .. | .countRoute .. | .publish .. => True

/-! ### How a handler ends -/

/-- The exceptions of a backend that end in a rollback: those of a clause that rolls back. -/
def Exn.Caught : Exn → Prop
  | .budget (.actualCostExceededReservation _ _)
  | .budget (.actualLatencyExceededReservation _ _) | .baseException _ => False
  | .budget (.valueError _) | .budget (.invalidReservationState _) | .runtimeError _
  | .remoteInferenceError _ | .httpException _ _ | .exception _ => True

/-- The ways in which a handler ends, by its summary and the cost and the latency that it answers
with, or its exception. -/
inductive Ending : Tally → Except Exn (ℚ × ℚ) → Prop
  /-- Nothing has been reserved. -/
  | rejected {x} : Ending {} (.error x)
  /-- The backend of the decision has answered, and its figures are committed. -/
  | served {g b result} :
      Ending
        { granted := [g]
          resolved := [g.ref]
          charges := [b.charge result]
          answers := [(b, .ok result)] }
        (.ok (result.actualCost, result.actualLatencyMs))
  /-- A local execution has answered for a failed call. Nothing is committed. -/
  | fellBack {g b x result resolved} (hcaught : x.Caught) (hresolved : g.ref ∈ resolved) :
      Ending
        { granted := [g]
          resolved := resolved
          answers := [(.local, .ok result), (b, .error x)] }
        (.ok (0, result.actualLatencyMs))
  /-- The handler has raised with its reservation resolved. No local execution has answered for a
  failed call. -/
  | failed {g resolved answers x} (hresolved : g.ref ∈ resolved)
      (hfirst : ∀ b y, answers.getLast? = some (b, .error y) → y.Caught)
      (hfallback : ∀ result rest, answers = (.local, .ok result) :: rest → rest = []) :
      Ending { granted := [g], resolved := resolved, answers := answers } (.error x)
  /-- The call of the backend has raised an exception that no clause rolls back for. -/
  | leaked {g b x y} (huncaught : ¬ x.Caught) :
      Ending { granted := [g], answers := [(b, .error x)] } (.error y)

/-! ### The agent -/

variable {h : History signature}

/-- How the agent ends, by the summary of the handler. -/
inductive Routed : Tally → Except Exn RoutingDecision → Prop
  | raised {x} : Routed {} (.error x)
  | rejected {decision : RoutingDecision} (hroute : decision.route = .failFast) :
      Routed {} (.ok decision)
  | admitted {decision : RoutingDecision} {g : Grant} (hroute : decision.route ≠ .failFast)
      (hreservation : decision.reservation = some g.ref)
      (hcost : decision.route ≠ .remote → g.cost = 0) :
      Routed { granted := [g] } (.ok decision)

/-- The outcomes of an attempt to reserve, by the summary of a handler that holds nothing. -/
inductive Reserved (cost latencyMs : ℚ) : Tally → Except Exn (Option Ref) → Prop
  | raised {x} : Reserved cost latencyMs {} (.error x)
  | refused : Reserved cost latencyMs {} (.ok none)
  | granted {ref} : Reserved cost latencyMs { granted := [⟨ref, cost, latencyMs⟩] } (.ok (some ref))

theorem tryReserve_meets (htally : tally h = {}) (requestId : String) (cost latencyMs : ℚ) :
    (tryReserve requestId cost latencyMs).Meets Allowed
      (fun h out => Reserved cost latencyMs (tally h) out) h := by
  refine Program.Meets.call_ofExcept trivial fun reply => ?_
  rw [tally_cons, htally]
  rcases reply with error | _ | ref
  · exact .raised
  · exact .refused
  · exact .granted

/-- An attempt to reserve, followed by a decision for each outcome. -/
theorem tryReserve_bind_meets (htally : tally h = {}) {requestId : String} {cost latencyMs : ℚ}
    {decide : Option Ref → Handler RoutingDecision}
    (hnone : ∀ h, tally h = {} →
      (decide none).Meets Allowed (fun h out => Routed (tally h) out) h)
    (hsome : ∀ h ref, tally h = { granted := [⟨ref, cost, latencyMs⟩] } →
      (decide (some ref)).Meets Allowed (fun h out => Routed (tally h) out) h) :
    (tryReserve requestId cost latencyMs >>= decide).Meets Allowed
      (fun h out => Routed (tally h) out) h := by
  refine (tryReserve_meets htally requestId cost latencyMs).bind (fun h reply hreply => ?_)
    fun h x hx => ?_
  · generalize ht : tally h = t at hreply
    cases hreply with
    | refused => exact hnone h ht
    | granted => exact hsome h _ ht
  · dsimp only at hx ⊢
    generalize tally h = t at hx ⊢
    cases hx
    exact .raised

theorem routed_reject (htally : tally h = {}) (estimate : ℚ) (reason : String) :
    (pure (RoutingDecision.reject estimate reason) : Handler RoutingDecision).Meets Allowed
      (fun h out => Routed (tally h) out) h := by
  change Routed (tally h) _
  rw [htally]
  exact .rejected rfl

theorem routed_local {ref : Ref} {estimate estimate' : ℚ} {reason : String}
    (htally : tally h = { granted := [⟨ref, 0, estimate⟩] }) {decision : RouteDecision}
    (hroute : decision ≠ .failFast) :
    (pure ⟨decision, some ref, estimate', reason⟩ : Handler RoutingDecision).Meets Allowed
      (fun h out => Routed (tally h) out) h := by
  change Routed (tally h) _
  rw [htally]
  exact .admitted hroute rfl fun _ => rfl

theorem routed_remote {ref : Ref} {cost estimate estimate' : ℚ} {reason : String}
    (htally : tally h = { granted := [⟨ref, cost, estimate⟩] }) :
    (pure ⟨.remote, some ref, estimate', reason⟩ : Handler RoutingDecision).Meets Allowed
      (fun h out => Routed (tally h) out) h := by
  change Routed (tally h) _
  rw [htally]
  exact .admitted (by simp) rfl fun hne => absurd rfl hne

theorem degrade_meets (htally : tally h = {}) (request : InferenceRequest) (advisory : Advisory)
    (reason : ℚ → String) (failReason : String) :
    (degrade request advisory reason failReason).Meets Allowed
      (fun h out => Routed (tally h) out) h := by
  refine Program.Meets.call_bind trivial fun estimate => ?_
  refine tryReserve_bind_meets ?_ (fun h hh => ?_) fun h ref hh => ?_
  · exact htally
  · exact routed_reject hh _ _
  · exact routed_local hh (by simp)

/-- The attempt to reserve for a remote execution, followed by a decision for each outcome. -/
theorem reserveRemote_bind_meets (htally : tally h = {}) {config : Config}
    {request : InferenceRequest} {advisory : Advisory}
    {decide : Option Ref → Handler RoutingDecision}
    (hnone : ∀ h, tally h = {} →
      (decide none).Meets Allowed (fun h out => Routed (tally h) out) h)
    (hsome : ∀ h ref cost latencyMs, tally h = { granted := [⟨ref, cost, latencyMs⟩] } →
      (decide (some ref)).Meets Allowed (fun h out => Routed (tally h) out) h) :
    (reserveRemote config request advisory >>= decide).Meets Allowed
      (fun h out => Routed (tally h) out) h := by
  unfold reserveRemote
  split_ifs
  · exact tryReserve_bind_meets htally hnone fun h ref => hsome h ref _ _
  · exact hnone h htally

theorem routeFast_meets (htally : tally h = {}) (config : Config) (request : InferenceRequest)
    (advisory : Advisory) : (routeFast config request advisory).Meets Allowed
      (fun h out => Routed (tally h) out) h := by
  refine Program.Meets.ite (fun _ => ?_) fun _ => ?_
  · refine tryReserve_bind_meets htally (fun h hh => ?_) fun h ref hh => ?_
    · exact routed_reject hh _ _
    · exact Program.Meets.call_bind trivial fun _ => routed_local hh (by simp)
  · refine reserveRemote_bind_meets htally (fun h hh => ?_) fun h ref cost latencyMs hh => ?_
    · refine Program.Meets.ite (fun _ => ?_) fun _ => ?_
      · exact degrade_meets hh _ _ _ _
      · exact routed_reject hh _ _
    · exact routed_remote hh

theorem routeQuality_meets (htally : tally h = {}) (config : Config) (request : InferenceRequest)
    (advisory : Advisory) : (routeQuality config request advisory).Meets Allowed
      (fun h out => Routed (tally h) out) h := by
  refine reserveRemote_bind_meets htally (fun h hh => ?_) fun h ref cost latencyMs hh => ?_
  · refine Program.Meets.ite (fun _ => ?_) fun _ => Program.Meets.ite (fun _ => ?_) fun _ => ?_
    · refine tryReserve_bind_meets hh (fun h hh => ?_) fun h ref hh => ?_
      · exact routed_reject hh _ _
      · exact routed_local hh (by simp)
    · exact degrade_meets hh _ _ _ _
    · exact routed_reject hh _ _
  · exact routed_remote hh

/-- **The agent** ends with a reservation exactly when it admits the request; a reservation for a
local execution holds no money. -/
theorem route_meets (htally : tally h = {}) (config : Config) (request : InferenceRequest)
    (tier : ComplexityTier) :
    (route config request tier).Meets Allowed (fun h out => Routed (tally h) out) h := by
  refine Program.Meets.call_bind trivial fun queueDepth => ?_
  refine Program.Meets.call_bind trivial fun atCapacity => ?_
  refine Program.Meets.call_bind trivial fun localEstimate => ?_
  refine Program.Meets.call_bind trivial fun estRemoteMs => ?_
  cases tier with
  | quality =>
    refine routeQuality_meets ?_ _ _ _
    exact htally
  | fast =>
    refine routeFast_meets ?_ _ _ _
    exact htally

end InferenceRouter
