import InferenceRouter.Service.Agent

/-!
# The requests that the agent rejects

The agent, running alone, against one declarative condition: a request is to be rejected exactly if
neither the remote path is feasible, within the budget of the request and admitted by the budget
manager, nor the local one, which needs a slot and latency. The agent meets it but for one early
return of the `FAST` tier, at which the remote path has not been tried.

## Main definitions

* `InferenceRouter.BudgetManager.Refuses`: the budget manager refuses the amounts.
* `InferenceRouter.Exhausted`: no path is feasible.
* `InferenceRouter.ShutOut`: the early return of the `FAST` tier passes a feasible path by.
* `InferenceRouter.Decides`: the decision of the agent when it runs alone.

## Main results

* `InferenceRouter.failFast_iff`: the requests that the agent rejects.
* `InferenceRouter.rejects_iff_exhausted`: when these are those without a feasible path, with the
  request `InferenceRouter.feasible_rejected`.
-/

namespace InferenceRouter

open Foundation

/-! ### Feasibility -/

/-- The budget manager refuses these amounts. -/
def BudgetManager.Refuses (bm : BudgetManager) (cost latencyMs : ℚ) : Prop :=
  ∀ requestId uuid now, (bm.tryReserve requestId cost latencyMs uuid now).reply = .ok none

theorem refuses_iff_not_fits {bm : BudgetManager} {cost latencyMs : ℚ} (hcost : 0 ≤ cost)
    (hlatency : 0 < latencyMs) : bm.Refuses cost latencyMs ↔ ¬ bm.Fits cost latencyMs := by
  constructor
  · intro h hfits
    rcases tryReserve_reply bm hcost hlatency "" "" 0 with ⟨hreply, -⟩ | ⟨-, hnot⟩
    · cases hreply.symm.trans (h "" "" 0)
    · exact hnot hfits
  · intro hnot requestId uuid now
    rcases tryReserve_reply bm hcost hlatency requestId uuid now with ⟨-, hfits⟩ | ⟨hreply, -⟩
    · exact absurd hfits hnot
    · exact hreply

/-- The local estimate of the agent, `get_estimate(local) * (active_count + 1)`. -/
def AppState.estLocalMs (s : AppState) : ℚ :=
  s.latencyTracker.getEstimate backendLocal * (s.queueMonitor.activeCount + 1)

/-- The remote estimate of the agent. -/
def AppState.estRemoteMs (s : AppState) : ℚ := s.latencyTracker.getEstimate backendRemote

section Conditions

variable (config : Config) (s : AppState) (request : InferenceRequest) (tier : ComplexityTier)

/-- The remote path is over the budget of the request, or refused. -/
def RemoteInfeasible : Prop :=
  request.latencyBudgetMs < s.estRemoteMs ∨
    s.budgetManager.Refuses config.costPerRemoteRequest s.estRemoteMs

/-- The queue is at capacity, or the local path is refused. -/
def LocalInfeasible : Prop :=
  s.queueMonitor.isAtCapacity = true ∨ s.budgetManager.Refuses 0 s.estLocalMs

/-- No path is feasible. -/
def Exhausted : Prop := RemoteInfeasible config s request ∧ LocalInfeasible s

/-- A `FAST` request that has a slot and is within its budget locally, but is refused there, while
its remote path is feasible. -/
def ShutOut : Prop :=
  tier = .fast ∧ s.queueMonitor.isAtCapacity = false ∧ s.estLocalMs ≤ request.latencyBudgetMs ∧
    s.budgetManager.Refuses 0 s.estLocalMs ∧ ¬ RemoteInfeasible config s request

/-- The agent, running alone from the state `s`, comes to the decision. -/
def Decides (decision : RoutingDecision) : Prop :=
  ∃ acts s', Program.Among AppState.exec Eq s (route config request tier) acts s' (.ret decision)

end Conditions

/-! ### Running alone -/

/-- The reply of the event is the one that the state `s` gives. -/
def AsIn (s : AppState) : Event signature → Prop
  | ⟨.tryReserve _ cost latencyMs, reply⟩ =>
    ∃ ref?, reply = .ok ref? ∧ (ref? = none ↔ s.budgetManager.Refuses cost latencyMs)
  | ⟨.activeCount, n⟩ => n = s.queueMonitor.activeCount
  | ⟨.isAtCapacity, c⟩ => c = s.queueMonitor.isAtCapacity
  | ⟨.getEstimate b, x⟩ => x = s.latencyTracker.getEstimate b
  | ⟨.commit .., _⟩ | ⟨.rollback .., _⟩ | ⟨.readReservation .., _⟩ | ⟨.budgetSnapshot, _⟩
  | ⟨.maxConcurrency, _⟩ | ⟨.acquire, _⟩ | ⟨.release, _⟩ | ⟨.record .., _⟩ | ⟨.countRoute .., _⟩
  | ⟨.publish .., _⟩ | ⟨.simulateLocalInference .., _⟩ | ⟨.simulateRemoteInference .., _⟩ => True

/-- The state `s'` is the state `s` as far as the agent can see before it is granted a
reservation, and the estimates that it has read are positive. -/
structure Unmoved (s : AppState) (h : History signature) (s' : AppState) : Prop where
  tracker : s'.latencyTracker = s.latencyTracker
  monitor : s'.queueMonitor = s.queueMonitor
  budget : (tally h).granted = [] → s'.budgetManager = s.budgetManager
  estimates : EstimatesPositive h

/-- The agent moves nothing but the budget manager, and that only when it is granted a
reservation. -/
theorem Unmoved.own {config : Config} (hcost : 0 ≤ config.costPerRemoteRequest)
    {s s₁ s₂ : AppState} (hpos : ∀ b, Builtin b → 0 < s.latencyTracker.getEstimate b)
    {h : History signature} {e : Effect} {o : Oracle} {r : e.Reply} (hI : Unmoved s h s₁)
    (hasks : Asks config h e) (hexec : s₁.exec e o = some (r, s₂)) :
    Unmoved s (⟨e, r⟩ :: h) s₂ ∧ AsIn s ⟨e, r⟩ := by
  cases e with
  | tryReserve requestId cost latencyMs =>
    obtain ⟨hcost', hlatency⟩ := hasks.2 hcost hI.estimates
    have hestimates : EstimatesPositive (⟨.tryReserve requestId cost latencyMs, r⟩ :: h) :=
      hI.estimates.cons fun b x heq => by cases congrArg Event.effect heq
    have hrefuses : s.budgetManager.Refuses cost latencyMs ↔
        ¬ s.budgetManager.Fits cost latencyMs :=
      refuses_iff_not_fits hcost' hlatency
    have hbudget := hI.budget hasks.1
    cases attempt_of_exec hcost' hlatency hexec with
    | refused hfits =>
      rw [hbudget] at hfits
      exact ⟨⟨hI.tracker, hI.monitor, hI.budget, hestimates⟩, none, rfl,
        iff_of_true rfl (hrefuses.mpr hfits)⟩
    | granted hfits =>
      rw [hbudget] at hfits
      exact ⟨⟨hI.tracker, hI.monitor, nofun, hestimates⟩, some _, rfl,
        iff_of_false nofun fun h => hrefuses.mp h hfits⟩
  | getEstimate b =>
    cases hexec
    refine ⟨⟨hI.tracker, hI.monitor, hI.budget, hI.estimates.cons fun b' x heq => ?_⟩, ?_⟩
    · cases heq
      rw [hI.tracker]
      exact hpos b hasks
    · rw [AsIn, hI.tracker]
  | activeCount | isAtCapacity | maxConcurrency =>
    cases hexec
    refine ⟨⟨hI.tracker, hI.monitor, hI.budget, hI.estimates.cons fun b x heq => ?_⟩, ?_⟩
    · cases congrArg Event.effect heq
    · simp only [AsIn, hI.monitor]
  | commit | rollback | readReservation | budgetSnapshot | acquire | release | record | countRoute
  | publish | simulateLocalInference | simulateRemoteInference => exact hasks.elim

/-- The advisory reads of the agent in the state `s`. -/
def AppState.reads (s : AppState) : History signature :=
  InferenceRouter.reads s.queueMonitor.activeCount s.queueMonitor.isAtCapacity
    (s.latencyTracker.getEstimate backendLocal) s.estRemoteMs

/-- What the agent makes of its reads in the state `s`. -/
def AppState.advise (s : AppState) (request : InferenceRequest) : Advisory :=
  InferenceRouter.advise request s.queueMonitor.activeCount s.queueMonitor.isAtCapacity
    (s.latencyTracker.getEstimate backendLocal) s.estRemoteMs

section Alone

variable {config : Config} {s s' : AppState} {request : InferenceRequest} {tier : ComplexityTier}
  {acts : List (Performed signature AppState)}

/-- **The agent alone** comes to a decision on one of its paths, with the reads and the refusals of
the state that it starts from. -/
theorem path_of_alone (hcost : 0 ≤ config.costPerRemoteRequest)
    (hpos : ∀ b, Builtin b → 0 < s.latencyTracker.getEstimate b) (out : Except Exn RoutingDecision)
    (among : Program.Among AppState.exec Eq s (route config request tier) acts s'
      (.ofExcept out)) :
    ∃ decision h, out = .ok decision ∧
      Path config request tier (s.advise request) s.reads h (.ok decision) ∧
      ∀ ev ∈ h, AsIn s ev := by
  obtain ⟨hpath, -, hacts⟩ := among.meets (I := Unmoved s) (R := fun a => AsIn s a.event)
    (route_path config request tier)
    ⟨rfl, rfl, fun _ => rfl, fun _ _ h => absurd h List.not_mem_nil⟩
    (fun _ _ _ hI heq => heq ▸ hI) fun _ _ _ _ _ _ hI => hI.own hcost hpos
  rw [List.append_nil] at hpath
  have hasIn : ∀ ev ∈ history acts, AsIn s ev := by
    intro ev hev
    obtain ⟨a, ha, rfl⟩ := List.mem_map.mp (List.mem_reverse.mp hev)
    exact hacts a ha
  obtain ⟨n, c, l, r, hpath⟩ := Program.meets_ofExcept.mp hpath
  cases out with
  | error x =>
    obtain ⟨requestId, cost, latencyMs, error, hmem⟩ := hpath.exists_error
    obtain ⟨ref?, hreply, -⟩ := hasIn _ hmem
    cases hreply
  | ok decision =>
    have hread : ∀ ev ∈ reads n c l r, AsIn s ev :=
      fun ev hev => hasIn ev (hpath.suffix.subset hev)
    simp only [reads, List.forall_mem_cons] at hread
    obtain ⟨rfl, rfl, rfl, rfl, -⟩ := hread
    exact ⟨decision, _, rfl, hpath, hasIn⟩

end Alone

/-! ### What the agent rejects -/

section Path

variable {config : Config} {s : AppState} {request : InferenceRequest} {tier : ComplexityTier}
  {a : Advisory} {h₀ h : History signature}

/-- A refused attempt, in a history of the agent alone. -/
theorem refuses_of_mem {cost latencyMs : ℚ} (hasIn : ∀ ev ∈ h, AsIn s ev)
    (hmem : asked request cost latencyMs (.ok none) ∈ h) :
    s.budgetManager.Refuses cost latencyMs := by
  obtain ⟨ref?, hreply, hrefuses⟩ := hasIn _ hmem
  exact hrefuses.mp (Except.ok.inj hreply).symm

/-- A granted attempt, in a history of the agent alone. -/
theorem not_refuses_of_mem {cost latencyMs : ℚ} {ref : Ref} (hasIn : ∀ ev ∈ h, AsIn s ev)
    (hmem : asked request cost latencyMs (.ok (some ref)) ∈ h) :
    ¬ s.budgetManager.Refuses cost latencyMs := by
  obtain ⟨ref?, hreply, hrefuses⟩ := hasIn _ hmem
  obtain rfl := Except.ok.inj hreply
  exact fun h => by cases hrefuses.mpr h

/-- The remote path that has led to nothing is infeasible. -/
theorem RemoteMissed.infeasible (hasIn : ∀ ev ∈ h, AsIn s ev)
    (hmissed : RemoteMissed config request (s.advise request) h₀ h) :
    RemoteInfeasible config s request := by
  cases hmissed with
  | overSla hsla => exact Or.inl (not_le.mp (of_decide_eq_false hsla))
  | refused => exact Or.inr (refuses_of_mem hasIn List.mem_cons_self)

/-- The estimate of the degraded path is the one that the agent has started with. -/
theorem degraded_estimate {x : ℚ} (hasIn : ∀ ev ∈ h, AsIn s ev)
    (hmem : (⟨.getEstimate backendLocal, x⟩ : Event signature) ∈ h) :
    x * ((s.advise request).queueDepth + 1) = s.estLocalMs := by
  obtain rfl : x = s.latencyTracker.getEstimate backendLocal := hasIn _ hmem
  rfl

/-- **The requests that the agent rejects**: those without a feasible path, and those that the
`FAST` tier shuts out. -/
theorem Path.failFast_iff {decision : RoutingDecision}
    (hpath : Path config request tier (s.advise request) s.reads h (.ok decision))
    (hasIn : ∀ ev ∈ h, AsIn s ev) :
    decision.route = .failFast ↔ Exhausted config s request ∨ ShutOut config s request tier := by
  cases hpath with
  | remote hsla hfast =>
    have hfeasible : ¬ RemoteInfeasible config s request :=
      not_or.mpr ⟨not_lt.mpr (of_decide_eq_true hsla),
        not_refuses_of_mem hasIn List.mem_cons_self⟩
    refine iff_of_false nofun ?_
    rintro (⟨hremote, -⟩ | ⟨htier, hroom, hwithin, -⟩)
    · exact hfeasible hremote
    · exact hfast htier ⟨hroom, decide_eq_true hwithin⟩
  | @«local» _ _ ref _ _ hfeasible hlater =>
    have hmem : asked request 0 s.estLocalMs (.ok (some ref)) ∈ h := by
      rcases hlater with rfl | ⟨m, rfl⟩
      · exact List.mem_cons_self
      · exact List.mem_cons_of_mem _ List.mem_cons_self
    have hgranted := not_refuses_of_mem hasIn hmem
    refine iff_of_false nofun ?_
    rintro (⟨-, hfull | hrefused⟩ | ⟨-, -, -, hrefused, -⟩)
    · exact ne_true_of_eq_false hfeasible.1 hfull
    · exact hgranted hrefused
    · exact hgranted hrefused
  | localRefused hbefore hfeasible =>
    have hrefused : s.budgetManager.Refuses 0 s.estLocalMs :=
      refuses_of_mem hasIn List.mem_cons_self
    refine iff_of_true rfl ?_
    by_cases hremote : RemoteInfeasible config s request
    · exact Or.inl ⟨hremote, Or.inr hrefused⟩
    · cases tier with
      | fast =>
        exact Or.inr ⟨rfl, hfeasible.1, of_decide_eq_true hfeasible.2, hrefused, hremote⟩
      | quality =>
        exact absurd (RemoteMissed.infeasible (List.forall_mem_cons.mp hasIn).2 hbefore) hremote
  | degraded hmissed hroom hover =>
    have hgranted := not_refuses_of_mem hasIn List.mem_cons_self
    rw [degraded_estimate hasIn (List.mem_cons_of_mem _ List.mem_cons_self)] at hgranted
    refine iff_of_false nofun ?_
    rintro (⟨-, hfull | hrefused⟩ | ⟨-, -, -, hrefused, -⟩)
    · exact ne_true_of_eq_false hroom hfull
    · exact hgranted hrefused
    · exact hgranted hrefused
  | degradedRefused hmissed hroom hover =>
    have hrefused := refuses_of_mem hasIn List.mem_cons_self
    rw [degraded_estimate hasIn (List.mem_cons_of_mem _ List.mem_cons_self)] at hrefused
    have hearlier := (List.forall_mem_cons.mp (List.forall_mem_cons.mp hasIn).2).2
    exact iff_of_true rfl (Or.inl ⟨hmissed.infeasible hearlier, Or.inr hrefused⟩)
  | full hmissed hfull =>
    exact iff_of_true rfl (Or.inl ⟨hmissed.infeasible hasIn, Or.inl hfull⟩)

end Path

/-! ### The main result -/

section Decisions

variable {config : Config} {s : AppState} {request request' : InferenceRequest}
  {tier tier' : ComplexityTier} {decision decision' : RoutingDecision}

/-- The requests that the agent, running alone, rejects. -/
theorem failFast_iff (hcost : 0 ≤ config.costPerRemoteRequest)
    (hpos : ∀ b, Builtin b → 0 < s.latencyTracker.getEstimate b)
    (hdecides : Decides config s request tier decision) :
    decision.route = .failFast ↔ Exhausted config s request ∨ ShutOut config s request tier := by
  obtain ⟨acts, s', among⟩ := hdecides
  obtain ⟨decision', h, heq, hpath, hasIn⟩ := path_of_alone hcost hpos (.ok decision) among
  obtain rfl := Except.ok.inj heq
  exact hpath.failFast_iff hasIn

/-- With a larger budget more paths are feasible. -/
theorem Exhausted.mono (hbudget : request.latencyBudgetMs ≤ request'.latencyBudgetMs)
    (hexhausted : Exhausted config s request') : Exhausted config s request :=
  ⟨hexhausted.1.imp hbudget.trans_lt id, hexhausted.2⟩

theorem ShutOut.not_exhausted (hshut : ShutOut config s request tier) :
    ¬ Exhausted config s request :=
  fun hexhausted => hshut.2.2.2.2 hexhausted.1

/-- **Rejections.** With positive estimates, the agent running alone comes to a decision, and
rejects a request exactly if no path is feasible, unless the `FAST` tier shuts the request out.
Then, but for such a request, neither another tier nor a larger latency budget turns an admitted
request into a rejected one. -/
theorem rejects_iff_exhausted (hcost : 0 ≤ config.costPerRemoteRequest)
    (hlocal : 0 < s.latencyTracker.getEstimate backendLocal)
    (hremote : 0 < s.latencyTracker.getEstimate backendRemote) :
    (∀ request tier, ∃ decision, Decides config s request tier decision) ∧
    (∀ request tier acts s' x, ¬ Program.Among AppState.exec Eq s (route config request tier) acts
      s' (.raise x)) ∧
    (∀ request tier decision, Decides config s request tier decision →
      ((decision.route = .failFast ↔ Exhausted config s request) ↔
        ¬ ShutOut config s request tier)) ∧
    ∀ request request' tier tier' decision decision',
      request.latencyBudgetMs ≤ request'.latencyBudgetMs → ¬ ShutOut config s request' tier' →
      Decides config s request tier decision → Decides config s request' tier' decision' →
      decision.route ≠ .failFast → decision'.route ≠ .failFast := by
  have hpos : ∀ b, Builtin b → 0 < s.latencyTracker.getEstimate b := by
    rintro b (rfl | rfl)
    · exact hlocal
    · exact hremote
  refine ⟨fun request tier => ?_, fun request tier acts s' x among => ?_,
    fun request tier decision hdecides => ?_, ?_⟩
  · obtain ⟨acts, s', out, among⟩ : ∃ acts s' out, Program.Among AppState.exec Eq s
        (route config request tier) acts s' (.ofExcept out) :=
      Program.exists_among Eq.refl exec_total s _
    obtain ⟨decision, h, rfl, -⟩ := path_of_alone hcost hpos out among
    exact ⟨decision, acts, s', among⟩
  · obtain ⟨decision, h, heq, -⟩ := path_of_alone hcost hpos (.error x) among
    cases heq
  · rw [failFast_iff hcost hpos hdecides]
    constructor
    · intro hiff hshut
      exact hshut.not_exhausted (hiff.mp (Or.inr hshut))
    · intro hnot
      exact or_iff_left hnot
  · intro request request' tier tier' decision decision' hbudget hnot hdecides hdecides' hadmitted
      hrejected
    refine hadmitted ((failFast_iff hcost hpos hdecides).mpr (Or.inl ?_))
    exact (((failFast_iff hcost hpos hdecides').mp hrejected).resolve_right hnot).mono hbudget

theorem rejects_iff_exhausted_default : ∃ decision,
    Decides .default (.init .default) sampleRequest .quality decision ∧
    (decision.route = .failFast ↔ Exhausted .default (.init .default) sampleRequest) := by
  have hcost : 0 ≤ Config.default.costPerRemoteRequest := by decide +kernel
  have hlocal : 0 < (AppState.init .default).latencyTracker.getEstimate backendLocal := by
    decide +kernel
  have hremote : 0 < (AppState.init .default).latencyTracker.getEstimate backendRemote := by
    decide +kernel
  obtain ⟨hdecide, -, hiff, -⟩ := rejects_iff_exhausted hcost hlocal hremote
  obtain ⟨decision, hdecides⟩ := hdecide sampleRequest .quality
  exact ⟨decision, hdecides, (hiff _ _ _ hdecides).mpr nofun⟩

/-- A configuration with little latency to give away, and a fast remote backend. -/
def scarceConfig : Config :=
  { Config.default with
    maxCumulativeLatencyMs := 200
    avgRemoteLatencyMs := 100 }

/-- **A feasible request that is rejected**: at start-up, a `FAST` request that is within its budget
locally but not within the latency cap is rejected, although the remote path is feasible; as a
`QUALITY` request it is admitted. -/
theorem feasible_rejected :
    0 ≤ scarceConfig.costPerRemoteRequest ∧
    (∀ b, Builtin b → 0 < (AppState.init scarceConfig).latencyTracker.getEstimate b) ∧
    ¬ Exhausted scarceConfig (.init scarceConfig) sampleRequest ∧
    (∃ decision, Decides scarceConfig (.init scarceConfig) sampleRequest .fast decision ∧
      decision.route = .failFast) ∧
    ∃ decision, Decides scarceConfig (.init scarceConfig) sampleRequest .quality decision ∧
      decision.route = .remote := by
  have hdecides : ∀ tier routed, ((route scarceConfig sampleRequest tier).eval AppState.exec {}
      (AppState.init scarceConfig)).any (fun r => decide (r.2.2.toOption.map
        RoutingDecision.route = some routed)) = true →
      ∃ decision, Decides scarceConfig (.init scarceConfig) sampleRequest tier decision ∧
        decision.route = routed := by
    intro tier routed heval
    obtain ⟨acts, s', out, among, hout⟩ := Program.exists_alone
      (P := fun _ out => out.toOption.map RoutingDecision.route = some routed) heval
    cases out with
    | error x => cases hout
    | ok decision => exact ⟨decision, ⟨acts, s', among⟩, Option.some.inj hout⟩
  refine ⟨by decide +kernel, ?_, fun hexhausted => ?_, hdecides _ _ (by decide +kernel),
    hdecides _ _ (by decide +kernel)⟩
  · rintro b (rfl | rfl)
    · decide +kernel
    · decide +kernel
  · rcases hexhausted.1 with hover | hrefused
    · exact absurd hover (by decide +kernel)
    · exact absurd (hrefused "" "" 0) (by decide +kernel)

end Decisions

end InferenceRouter
