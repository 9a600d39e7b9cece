import InferenceRouter.Budget.Admission
import InferenceRouter.Foundation.Interference
import InferenceRouter.Latency.Windows
import InferenceRouter.Service.System
import InferenceRouter.Service.Tally

/-!
# The paths of the agent

The agent reads the queue and the latency estimates, and then goes through the paths of its tier.
What it has performed up to its decision is one of a few histories (`Path`), from which both its
soundness among other requests and the requests it rejects when it runs alone are read off.

## Main definitions

* `InferenceRouter.advise`, `InferenceRouter.reads`: the advisory reads.
* `InferenceRouter.RemoteMissed`, `InferenceRouter.Path`: the histories of the agent.
* `InferenceRouter.Asks`: the amounts that the agent asks for.

## Main results

* `InferenceRouter.route_path`: the agent takes one of its paths.
-/

namespace InferenceRouter

open Foundation Handler

/-! ### The advisory reads -/

/-- What the agent makes of its reads. -/
def advise (request : InferenceRequest) (queueDepth : ℕ) (atCapacity : Bool)
    (localEstimate estRemoteMs : ℚ) : Advisory where
  atCapacity := atCapacity
  estLocalMs := localEstimate * (queueDepth + 1)
  estRemoteMs := estRemoteMs
  localWithinSla := decide (localEstimate * (queueDepth + 1) ≤ request.latencyBudgetMs)
  remoteWithinSla := decide (estRemoteMs ≤ request.latencyBudgetMs)
  queueDepth := queueDepth

/-- The reads of the agent with their replies, the latest first. -/
def reads (queueDepth : ℕ) (atCapacity : Bool) (localEstimate estRemoteMs : ℚ) :
    History signature :=
  [⟨.getEstimate backendRemote, estRemoteMs⟩, ⟨.getEstimate backendLocal, localEstimate⟩,
    ⟨.isAtCapacity, atCapacity⟩, ⟨.activeCount, queueDepth⟩]

/-- All the estimates that have been read are positive. -/
def EstimatesPositive (h : History signature) : Prop :=
  ∀ b x, (⟨.getEstimate b, x⟩ : Event signature) ∈ h → 0 < x

theorem EstimatesPositive.of_cons {ev : Event signature} {h : History signature}
    (hpos : EstimatesPositive (ev :: h)) : EstimatesPositive h :=
  fun b x hx => hpos b x (List.mem_cons_of_mem _ hx)

/-- The estimates of an advisory are positive if those read in the history are. -/
def Advisory.PositiveIn (a : Advisory) (h : History signature) : Prop :=
  EstimatesPositive h → 0 < a.estLocalMs ∧ 0 < a.estRemoteMs

theorem Advisory.PositiveIn.cons {a : Advisory} {h : History signature} (hpos : a.PositiveIn h)
    (ev : Event signature) : a.PositiveIn (ev :: h) :=
  fun hev => hpos hev.of_cons

theorem mul_depth_pos {x : ℚ} (hx : 0 < x) (n : ℕ) : 0 < x * (n + 1) :=
  mul_pos hx (by positivity)

theorem positiveIn_reads (request : InferenceRequest) (n : ℕ) (c : Bool) (l r : ℚ) :
    (advise request n c l r).PositiveIn (reads n c l r) := by
  intro hpos
  have hlocal : 0 < l := hpos backendLocal l (by simp [reads])
  have hremote : 0 < r := hpos backendRemote r (by simp [reads])
  exact ⟨mul_depth_pos hlocal n, hremote⟩

/-! ### Paths -/

section Paths

variable (config : Config) (request : InferenceRequest) (tier : ComplexityTier) (a : Advisory)
  (h₀ : History signature)

/-- The event of an attempt to reserve for the request. -/
def asked (cost latencyMs : ℚ) (reply : Except BudgetError (Option Ref)) : Event signature :=
  ⟨.tryReserve request.requestId cost latencyMs, reply⟩

/-- The remote path has led to nothing: the agent has not attempted to reserve, because the
estimate is over the budget of the request, or its attempt has been refused. -/
inductive RemoteMissed : History signature → Prop
  | overSla (hsla : a.remoteWithinSla = false) : RemoteMissed h₀
  | refused (hsla : a.remoteWithinSla = true) :
      RemoteMissed (asked request config.costPerRemoteRequest a.estRemoteMs (.ok none) :: h₀)

/-- What the agent has performed before it attempts the local path. -/
def BeforeLocal (h : History signature) : Prop :=
  match tier with
  | .fast => h = h₀
  | .quality => RemoteMissed config request a h₀ h

/-- The local path is within the budget of the request, by the advisory reads. -/
def Advisory.LocalFeasible (a : Advisory) : Prop :=
  a.atCapacity = false ∧ a.localWithinSla = true

/-- What the agent has performed when it ends, from its reads `h₀` on, with its decision. -/
inductive Path : History signature → Except Exn RoutingDecision → Prop
  | raised {h requestId cost latencyMs error x}
      (hmem : (⟨.tryReserve requestId cost latencyMs, .error error⟩ : Event signature) ∈ h) :
      Path h (.error x)
  | remote {ref reason} (hsla : a.remoteWithinSla = true)
      (hfast : tier = .fast → ¬ a.LocalFeasible) :
      Path (asked request config.costPerRemoteRequest a.estRemoteMs (.ok (some ref)) :: h₀)
        (.ok ⟨.remote, some ref, a.estRemoteMs, reason⟩)
  | «local» {h h' ref reason} (hbefore : BeforeLocal config request tier a h₀ h)
      (hfeasible : a.LocalFeasible)
      (hlater : h' = asked request 0 a.estLocalMs (.ok (some ref)) :: h ∨
        ∃ m, h' = ⟨.maxConcurrency, m⟩ :: asked request 0 a.estLocalMs (.ok (some ref)) :: h) :
      Path h' (.ok ⟨.local, some ref, a.estLocalMs, reason⟩)
  | localRefused {h estimate reason} (hbefore : BeforeLocal config request tier a h₀ h)
      (hfeasible : a.LocalFeasible) :
      Path (asked request 0 a.estLocalMs (.ok none) :: h) (.ok (.reject estimate reason))
  | degraded {h x ref reason} (hmissed : RemoteMissed config request a h₀ h)
      (hroom : a.atCapacity = false) (hover : a.localWithinSla = false) :
      Path (asked request 0 (x * (a.queueDepth + 1)) (.ok (some ref)) ::
          ⟨.getEstimate backendLocal, x⟩ :: h)
        (.ok ⟨.queueLocal, some ref, x * (a.queueDepth + 1), reason⟩)
  | degradedRefused {h x estimate reason} (hmissed : RemoteMissed config request a h₀ h)
      (hroom : a.atCapacity = false) (hover : a.localWithinSla = false) :
      Path (asked request 0 (x * (a.queueDepth + 1)) (.ok none) ::
          ⟨.getEstimate backendLocal, x⟩ :: h)
        (.ok (.reject estimate reason))
  | full {h estimate reason} (hmissed : RemoteMissed config request a h₀ h)
      (hfull : a.atCapacity = true) : Path h (.ok (.reject estimate reason))

/-- What the agent asks for: its effects are reads and reservations, it reserves nothing after a
reservation has been granted, and never for a nonpositive latency as long as the estimates that it
has read are positive. -/
def Asks (h : History signature) : Effect → Prop
  | .tryReserve _ cost latencyMs =>
    (tally h).granted = [] ∧
      (0 ≤ config.costPerRemoteRequest → EstimatesPositive h → 0 ≤ cost ∧ 0 < latencyMs)
  | .getEstimate b => Builtin b
  | .activeCount | .isAtCapacity | .maxConcurrency => True
  | .commit .. | .rollback .. | .readReservation .. | .budgetSnapshot | .acquire | .release
  | .record .. | .countRoute .. | .publish .. | .simulateLocalInference ..
  | .simulateRemoteInference .. => False

end Paths

variable {config : Config} {request : InferenceRequest} {tier : ComplexityTier} {a : Advisory}
  {h₀ h : History signature}

theorem RemoteMissed.granted (hmissed : RemoteMissed config request a h₀ h)
    (h₀_granted : (tally h₀).granted = []) : (tally h).granted = [] := by
  cases hmissed with
  | overSla => exact h₀_granted
  | refused => exact h₀_granted

theorem RemoteMissed.positiveIn (hmissed : RemoteMissed config request a h₀ h)
    (hpos : a.PositiveIn h₀) : a.PositiveIn h := by
  cases hmissed with
  | overSla => exact hpos
  | refused => exact hpos.cons _

theorem RemoteMissed.suffix (hmissed : RemoteMissed config request a h₀ h) :
    h₀ <:+ h := by
  cases hmissed with
  | overSla => exact List.suffix_refl _
  | refused => exact List.suffix_cons _ _

theorem BeforeLocal.suffix (hbefore : BeforeLocal config request tier a h₀ h) :
    h₀ <:+ h := by
  cases tier with
  | fast => exact hbefore ▸ List.suffix_refl _
  | quality => exact RemoteMissed.suffix hbefore

/-- The agent raises only what an attempt to reserve raises. -/
theorem Path.exists_error {x : Exn} (hpath : Path config request tier a h₀ h (.error x)) :
    ∃ requestId cost latencyMs error,
      (⟨.tryReserve requestId cost latencyMs, .error error⟩ : Event signature) ∈ h := by
  cases hpath with
  | raised hmem => exact ⟨_, _, _, _, hmem⟩

/-- The paths of the agent begin with its reads. -/
theorem Path.suffix {decision : RoutingDecision}
    (hpath : Path config request tier a h₀ h (.ok decision)) :
    h₀ <:+ h := by
  cases hpath with
  | remote => exact List.suffix_cons _ _
  | «local» hbefore _ hlater =>
    rcases hlater with rfl | ⟨m, rfl⟩
    · exact hbefore.suffix.trans (List.suffix_cons _ _)
    · exact (hbefore.suffix.trans (List.suffix_cons _ _)).trans (List.suffix_cons _ _)
  | localRefused hbefore => exact hbefore.suffix.trans (List.suffix_cons _ _)
  | degraded hmissed | degradedRefused hmissed =>
    exact (hmissed.suffix.trans (List.suffix_cons _ _)).trans (List.suffix_cons _ _)
  | full hmissed => exact hmissed.suffix

/-! ### The agent takes one of its paths -/

section Meets

variable {allowed : History signature → Effect → Prop}
  {Q : History signature → Except Exn RoutingDecision → Prop}

/-- The rule for an attempt to reserve in front of a decision. -/
theorem tryReserve_bind {requestId : String} {cost latencyMs : ℚ}
    {decide : Option Ref → Handler RoutingDecision}
    (hallowed : allowed h (.tryReserve requestId cost latencyMs))
    (herror : ∀ error x, Q (⟨.tryReserve requestId cost latencyMs, .error error⟩ :: h) (.error x))
    (hok : ∀ reply, (decide reply).Meets allowed Q
      (⟨.tryReserve requestId cost latencyMs, .ok reply⟩ :: h)) :
    (tryReserve requestId cost latencyMs >>= decide).Meets allowed Q h := by
  refine ⟨hallowed, fun reply => ?_⟩
  cases reply with
  | error error => exact herror error _
  | ok reply => exact hok reply

end Meets

/-- The remote attempt in front of a decision. -/
theorem reserveRemote_bind (hgranted : (tally h₀).granted = []) (hpos : a.PositiveIn h₀)
    {decide : Option Ref → Handler RoutingDecision}
    (hmissed : ∀ h, RemoteMissed config request a h₀ h →
      (decide none).Meets (Asks config) (Path config request tier a h₀) h)
    (hsome : ∀ ref, a.remoteWithinSla = true →
      (decide (some ref)).Meets (Asks config) (Path config request tier a h₀)
        (asked request config.costPerRemoteRequest a.estRemoteMs (.ok (some ref)) :: h₀)) :
    (reserveRemote config request a >>= decide).Meets (Asks config)
      (Path config request tier a h₀) h₀ := by
  unfold reserveRemote
  split_ifs with hsla
  · refine tryReserve_bind ⟨hgranted, fun hcost hread => ⟨hcost, (hpos hread).2⟩⟩
      (fun error x => .raised List.mem_cons_self) fun reply => ?_
    cases reply with
    | none => exact hmissed _ (.refused hsla)
    | some ref => exact hsome ref hsla
  · exact hmissed _ (.overSla (by simpa using hsla))

/-- The degraded local path. -/
theorem degrade_path (hmissed : RemoteMissed config request a h₀ h)
    (hgranted : (tally h₀).granted = []) (hroom : a.atCapacity = false)
    (hover : a.localWithinSla = false) (reason : ℚ → String) (failReason : String) :
    (degrade request a reason failReason).Meets (Asks config)
      (Path config request tier a h₀) h := by
  refine Program.Meets.call_bind (Or.inl rfl) fun x => ?_
  refine tryReserve_bind ⟨hmissed.granted hgranted, fun _ hread => ⟨le_rfl, ?_⟩⟩
    (fun error x => .raised List.mem_cons_self) fun reply => ?_
  · exact mul_depth_pos (hread backendLocal x List.mem_cons_self) _
  · cases reply with
    | none => exact Path.degradedRefused hmissed hroom hover
    | some ref => exact Path.degraded hmissed hroom hover

theorem routeFast_path (hgranted : (tally h₀).granted = []) (hpos : a.PositiveIn h₀) :
    (routeFast config request a).Meets (Asks config) (Path config request .fast a h₀) h₀ := by
  unfold routeFast
  refine Program.Meets.ite (fun hlocal => ?_) fun hlocal => ?_
  · have hfeasible : a.LocalFeasible := by simpa [Advisory.LocalFeasible] using hlocal
    refine tryReserve_bind ⟨hgranted, fun _ hread => ⟨le_rfl, (hpos hread).1⟩⟩
      (fun error x => .raised List.mem_cons_self) fun reply => ?_
    cases reply with
    | none => exact Path.localRefused rfl hfeasible
    | some ref =>
      exact Program.Meets.call_bind trivial fun m => Path.local rfl hfeasible (Or.inr ⟨m, rfl⟩)
  · have hinfeasible : ¬ a.LocalFeasible := by simpa [Advisory.LocalFeasible] using hlocal
    refine reserveRemote_bind hgranted hpos (fun h hmissed => ?_) fun ref hsla =>
      Path.remote hsla fun _ => hinfeasible
    refine Program.Meets.ite (fun hroom => ?_) fun hfull => ?_
    · have hroom : a.atCapacity = false := by simpa using hroom
      have hover : a.localWithinSla = false := by
        simpa [Advisory.LocalFeasible, hroom] using hinfeasible
      exact degrade_path hmissed hgranted hroom hover _ _
    · exact Path.full hmissed (by simpa using hfull)

theorem routeQuality_path (hgranted : (tally h₀).granted = []) (hpos : a.PositiveIn h₀) :
    (routeQuality config request a).Meets (Asks config) (Path config request .quality a h₀) h₀ := by
  refine reserveRemote_bind hgranted hpos (fun h hmissed => ?_) fun ref hsla =>
    Path.remote hsla nofun
  refine Program.Meets.ite (fun hlocal => ?_) fun hlocal =>
    Program.Meets.ite (fun hroom => ?_) fun hfull => ?_
  · have hfeasible : a.LocalFeasible := by simpa [Advisory.LocalFeasible] using hlocal
    refine tryReserve_bind ⟨hmissed.granted hgranted, fun _ hread =>
      ⟨le_rfl, (hmissed.positiveIn hpos hread).1⟩⟩ (fun error x => .raised List.mem_cons_self)
      fun reply => ?_
    cases reply with
    | none => exact Path.localRefused hmissed hfeasible
    | some ref => exact Path.local hmissed hfeasible (Or.inl rfl)
  · have hroom : a.atCapacity = false := by simpa using hroom
    have hover : a.localWithinSla = false := by simpa [hroom] using hlocal
    exact degrade_path hmissed hgranted hroom hover _ _
  · exact Path.full hmissed (by simpa using hfull)

/-- **The agent takes one of its paths**, whatever the replies to its effects. -/
theorem route_path (config : Config) (request : InferenceRequest) (tier : ComplexityTier) :
    (route config request tier).Meets (Asks config)
      (fun h out => ∃ n c l r,
        Path config request tier (advise request n c l r) (reads n c l r) h out) [] := by
  refine Program.Meets.call_bind trivial fun n => Program.Meets.call_bind trivial fun c =>
    Program.Meets.call_bind (Or.inl rfl) fun l =>
    Program.Meets.call_bind (Or.inr rfl) fun r => ?_
  have hpos := positiveIn_reads request n c l r
  cases tier with
  | quality => exact (routeQuality_path rfl hpos).mono fun h out hpath => ⟨n, c, l, r, hpath⟩
  | fast => exact (routeFast_path rfl hpos).mono fun h out hpath => ⟨n, c, l, r, hpath⟩

/-! ### Attempts to reserve -/

/-- What an attempt to reserve does. -/
inductive Attempt (s : AppState) (cost latencyMs : ℚ) (o : Oracle) :
    Except BudgetError (Option Ref) → AppState → Prop
  | refused (hfits : ¬ s.budgetManager.Fits cost latencyMs) :
      Attempt s cost latencyMs o (.ok none) { s with clock := o.now }
  | granted (hfits : s.budgetManager.Fits cost latencyMs)
      (hfresh : ∀ r ∈ s.budgetManager.reservations, r.id ≠ o.uuid) :
      Attempt s cost latencyMs o (.ok (some s.budgetManager.reservations.length))
        { s with
          budgetManager := s.budgetManager.granted cost latencyMs o.uuid o.now
          clock := o.now }

/-- An attempt to reserve for a positive latency does not raise. -/
theorem attempt_of_exec {s s' : AppState} {requestId : String} {cost latencyMs : ℚ} {o : Oracle}
    {r : Except BudgetError (Option Ref)} (hcost : 0 ≤ cost) (hlatency : 0 < latencyMs)
    (hexec : s.exec (.tryReserve requestId cost latencyMs) o = some (r, s')) :
    Attempt s cost latencyMs o r s' := by
  obtain ⟨⟨-, hfresh⟩, hexec⟩ := Option.ite_none_right_eq_some.mp hexec
  have hreply := tryReserve_reply s.budgetManager hcost hlatency requestId o.uuid o.now
  have hout : BudgetOutcome s.budgetManager _ _ :=
    BudgetManager.tryReserve_outcome requestId cost latencyMs o.uuid o.now
  generalize (s.budgetManager.tryReserve requestId cost latencyMs o.uuid o.now).reply = reply,
    (s.budgetManager.tryReserve requestId cost latencyMs o.uuid o.now).manager = manager
    at hreply hout hexec
  cases hexec
  cases hout with
  | malformed => rcases hreply with ⟨hreply, -⟩ | ⟨hreply, -⟩ <;> cases hreply
  | refused hfits => exact .refused hfits
  | granted _ _ hfits => exact .granted hfits hfresh

theorem EstimatesPositive.cons {ev : Event signature} {h : History signature}
    (hpos : EstimatesPositive h)
    (hev : ∀ b x, ev = (⟨.getEstimate b, x⟩ : Event signature) → 0 < x) :
    EstimatesPositive (ev :: h) := by
  intro b x hx
  rcases List.mem_cons.mp hx with heq | hx
  · exact hev b x heq.symm
  · exact hpos b x hx

end InferenceRouter
