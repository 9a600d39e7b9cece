import InferenceRouter.Service.Agent

/-!
# The agent among other requests

The agent takes no lock between its reads and its reservations. Whatever the others do meanwhile,
it comes to a decision, holds a reservation exactly if it admits the request, and its route is
justified by what it has read and by the refusals it has seen.

## Main definitions

* `InferenceRouter.OtherStep`, `InferenceRouter.Others`: what the others may do.
* `InferenceRouter.AppState.Sane`: the invariant of the shared state.
* `InferenceRouter.ownGrowth`: the active reservations that a program itself has added.
* `InferenceRouter.Sound`: what justifies a decision.

## Main results

* `InferenceRouter.routing_sound`: the agent is sound in every run among others.
* `InferenceRouter.decision_sound`: the decisions of the handlers in a run of the service are sound.
-/

namespace InferenceRouter

open Foundation

/-! ### What the others may do -/

/-- The effect does not record a latency that is not positive. -/
def Effect.ObservesPositive (e : Effect) : Prop := ∀ b x, e = .record b x → 0 < x

/-- A step of the others: an effect, an action of the environment or a reset of the tracker. The
latencies that they record are positive. -/
inductive OtherStep (s : AppState) : AppState → Prop
  | effect {e : Effect} {o r s'} (hrecord : e.ObservesPositive)
      (hexec : s.exec e o = some (r, s')) : OtherStep s s'
  | act {a s'} (hact : s.act a = some s') : OtherStep s s'
  | resetTracker : OtherStep s { s with latencyTracker := s.latencyTracker.reset }

/-- Any number of steps of the others. -/
abbrev Others : AppState → AppState → Prop := Relation.ReflTransGen OtherStep

/-! ### The shared state -/

namespace LatencyTracker

variable {lt : LatencyTracker}

/-- The averages are positive, and so are the seeds that a reset goes back to. -/
structure PositiveSeeded (lt : LatencyTracker) : Prop where
  positive : lt.Positive
  avgLocal_pos : 0 < lt.avgLocalLatencyMs
  avgRemote_pos : 0 < lt.avgRemoteLatencyMs

theorem PositiveSeeded.record (h : lt.PositiveSeeded) {x : ℚ} (hx : 0 < x) (b : String) :
    (lt.record b x).PositiveSeeded := by
  have hseeds : (lt.record b x).avgLocalLatencyMs = lt.avgLocalLatencyMs ∧
      (lt.record b x).avgRemoteLatencyMs = lt.avgRemoteLatencyMs := by
    dsimp only [LatencyTracker.record, register]
    cases lt.ema.get? b with
    | some e => exact ⟨rfl, rfl⟩
    | none => exact ⟨rfl, rfl⟩
  exact ⟨h.positive.record hx, hseeds.1 ▸ h.avgLocal_pos, hseeds.2 ▸ h.avgRemote_pos⟩

theorem PositiveSeeded.reset (h : lt.PositiveSeeded) : lt.reset.PositiveSeeded where
  positive :=
    { alpha_pos := h.positive.alpha_pos
      alpha_le_one := h.positive.alpha_le_one
      ema_pos := (positive_new 0 h.positive.alpha_pos h.positive.alpha_le_one h.avgLocal_pos
        h.avgRemote_pos).ema_pos }
  avgLocal_pos := h.avgLocal_pos
  avgRemote_pos := h.avgRemote_pos

end LatencyTracker

/-- The object `ref` exists and holds the given amounts. -/
def BudgetManager.Holds (bm : BudgetManager) (ref : Ref) (amounts : ℚ × ℚ) : Prop :=
  ref < bm.reservations.length ∧ bm.escrow.amount ref = amounts

/-- An object keeps its amounts. -/
theorem BudgetManager.Holds.step {bm bm' : BudgetManager} {ev : BudgetEvent} {ref : Ref}
    {amounts : ℚ × ℚ} (hholds : bm.Holds ref amounts) (hv : bm.Valid)
    (h : BudgetStep bm ev bm') : bm'.Holds ref amounts := by
  refine (h.outcome hv).preserves (P := fun bm => bm.Holds ref amounts) ?_ ?_ hv hholds
  · rintro _ cost latencyMs uuid now _ - ⟨hlt, hamount⟩
    refine ⟨?_, ?_⟩
    · rw [length_granted]
      exact Nat.lt_succ_of_lt hlt
    · rw [escrow_granted, Escrow.amount_grant, if_neg hlt.ne]
      exact hamount
  · rintro bm id ref' state charge - - hstate ⟨hlt, hamount⟩
    refine ⟨?_, ?_⟩
    · rw [length_closed]
      exact hlt
    · rw [escrow_closed _ _ _ hstate, Escrow.amount_settle]
      exact hamount

/-- The invariant of the shared state. -/
structure AppState.Sane (s : AppState) : Prop where
  valid : s.budgetManager.Valid
  positive : s.latencyTracker.PositiveSeeded

/-- What every step preserves: the invariant, and the amounts of the objects. -/
structure Preserves (s s' : AppState) : Prop where
  sane : s.Sane → s'.Sane
  holds : s.Sane → ∀ ref amounts, s.budgetManager.Holds ref amounts →
    s'.budgetManager.Holds ref amounts

theorem Preserves.refl (s : AppState) : Preserves s s := ⟨id, fun _ _ _ h => h⟩

theorem Preserves.trans {s s' s'' : AppState} (h : Preserves s s') (h' : Preserves s' s'') :
    Preserves s s'' :=
  ⟨fun hs => h'.sane (h.sane hs),
    fun hs ref x hholds => h'.holds (h.sane hs) ref x (h.holds hs ref x hholds)⟩

/-- A step that the budget manager and the tracker take separately. -/
theorem Preserves.of_parts {s s' : AppState}
    (hbudget : s'.budgetManager = s.budgetManager ∨
      ∃ ev, BudgetStep s.budgetManager ev s'.budgetManager)
    (htracker : s.latencyTracker.PositiveSeeded → s'.latencyTracker.PositiveSeeded) :
    Preserves s s' := by
  rcases hbudget with heq | ⟨ev, hstep⟩
  · exact ⟨fun hs => ⟨heq ▸ hs.valid, htracker hs.positive⟩, fun _ _ _ h => heq ▸ h⟩
  · exact ⟨fun hs => ⟨hs.valid.step hstep, htracker hs.positive⟩,
      fun hs _ _ h => h.step hs.valid hstep⟩

/-- Only `record` concerns the tracker. -/
theorem exec_latencyTracker {s s' : AppState} {e : Effect} {o : Oracle} {r : e.Reply}
    (h : s.exec e o = some (r, s')) :
    s'.latencyTracker = s.latencyTracker ∨
      ∃ b x, e = .record b x ∧ s'.latencyTracker = s.latencyTracker.record b x := by
  cases e with
  | tryReserve =>
    obtain ⟨-, h⟩ := Option.ite_none_right_eq_some.mp h
    cases h
    exact Or.inl rfl
  | record b x =>
    cases h
    exact Or.inr ⟨b, x, rfl, rfl⟩
  | commit | rollback | readReservation | budgetSnapshot | activeCount | isAtCapacity
  | maxConcurrency | acquire | release | getEstimate | countRoute | publish
  | simulateLocalInference | simulateRemoteInference =>
    cases h
    exact Or.inl rfl

theorem act_latencyTracker {s s' : AppState} {a : ServiceAction} (h : s.act a = some s') :
    s'.latencyTracker = s.latencyTracker := by
  cases a with
  | reap readings =>
    obtain ⟨-, h⟩ := Option.ite_none_right_eq_some.mp h
    cases h
    rfl
  | connect | disconnect | mark =>
    cases h
    rfl
  | consume client =>
    obtain ⟨mb, -, rfl⟩ := Option.map_eq_some_iff.mp h
    rfl

theorem preserves_exec {s s' : AppState} {e : Effect} {o : Oracle} {r : e.Reply}
    (hrecord : e.ObservesPositive) (h : s.exec e o = some (r, s')) : Preserves s s' := by
  refine .of_parts ((exec_budgetManager h).imp And.right ?_) ?_
  · rintro ⟨ev, -, -, hstep⟩
    exact ⟨ev, hstep⟩
  · rcases exec_latencyTracker h with heq | ⟨b, x, he, heq⟩
    · rw [heq]
      exact id
    · rw [heq]
      exact fun hpos => hpos.record (hrecord b x he) b

theorem OtherStep.preserves {s s' : AppState} (h : OtherStep s s') : Preserves s s' := by
  cases h with
  | effect hrecord hexec => exact preserves_exec hrecord hexec
  | act hact =>
    refine .of_parts ?_ ((act_latencyTracker hact).symm ▸ id)
    rcases act_budgetManager hact with ⟨readings, -, hreap⟩ | ⟨-, hkept⟩
    · rw [hreap]
      exact Or.inr ⟨_, .reap ..⟩
    · exact Or.inl hkept
  | resetTracker => exact .of_parts (Or.inl rfl) LatencyTracker.PositiveSeeded.reset

theorem Others.preserves {s s' : AppState} (h : Others s s') : Preserves s s' := by
  induction h with
  | refl => exact .refl s
  | tail _ hstep ih => exact ih.trans hstep.preserves

theorem sane_init {config : Config} (hα : 0 < config.emaAlpha) (hα' : config.emaAlpha ≤ 1)
    (hlocal : 0 < config.avgLocalLatencyMs) (hremote : 0 < config.avgRemoteLatencyMs) :
    (AppState.init config).Sane :=
  ⟨BudgetManager.valid_new _,
    ⟨LatencyTracker.positive_new _ hα hα' hlocal hremote, hlocal, hremote⟩⟩

/-! ### What the agent itself does -/

/-- The reservations granted by one more effect. -/
theorem Tally.granted_after (t : Tally) (e : Effect) (r : e.Reply) :
    (t.after e r).granted = (Tally.after {} e r).granted ++ t.granted := by
  cases e with
  | tryReserve => rcases r with error | _ | ref <;> rfl
  | commit => rcases r with error | _ <;> rfl
  | readReservation =>
    dsimp only [Tally.after]
    split_ifs <;> rfl
  | acquire => cases r <;> rfl
  | rollback | release | simulateLocalInference | simulateRemoteInference | budgetSnapshot
  | activeCount | isAtCapacity | maxConcurrency | getEstimate | record | countRoute
  | publish => rfl

theorem granted_append (h h' : History signature) :
    (tally (h ++ h')).granted = (tally h).granted ++ (tally h').granted := by
  induction h with
  | nil => rfl
  | cons ev h ih =>
    rw [List.cons_append, tally_cons, tally_cons, Tally.granted_after, ih,
      Tally.granted_after (tally h), List.append_assoc]

/-- The number of active reservations. -/
def AppState.activeCount (s : AppState) : ℤ := s.budgetManager.activeReservations.length

/-- How many active reservations what a program has performed has added, the steps of the others
apart. -/
def ownGrowth (acts : List (Performed signature AppState)) : ℤ :=
  (acts.map fun a => a.after.activeCount - a.before.activeCount).sum

/-- What each effect of the agent does: no attempt to reserve raises, and only the reservations
granted become active. -/
structure Orderly (a : Performed signature AppState) : Prop where
  no_error : ∀ requestId cost latencyMs error,
    a.event ≠ ⟨.tryReserve requestId cost latencyMs, .error error⟩
  growth : a.after.activeCount - a.before.activeCount = (tally [a.event]).granted.length

theorem ownGrowth_eq {acts : List (Performed signature AppState)}
    (horderly : ∀ a ∈ acts, Orderly a) :
    ownGrowth acts = (tally (history acts)).granted.length := by
  induction acts with
  | nil => rfl
  | cons a acts ih =>
    obtain ⟨ha, hacts⟩ := List.forall_mem_cons.mp horderly
    have htail : (acts.map fun a => a.after.activeCount - a.before.activeCount).sum =
        (tally (history acts)).granted.length := ih hacts
    rw [ownGrowth, List.map_cons, List.sum_cons, htail, ha.growth, history_cons, granted_append,
      List.length_append]
    push_cast
    exact add_comm _ _

/-- The invariant of the agent: the shared state is sane, the estimates read are positive, and the
objects of the reservations granted hold the amounts asked for. -/
structure Underway (h : History signature) (s : AppState) : Prop where
  sane : s.Sane
  estimates : EstimatesPositive h
  holds : ∀ g ∈ (tally h).granted, s.budgetManager.Holds g.ref (g.cost, g.latencyMs)

theorem Underway.others {h : History signature} {s s' : AppState} (hI : Underway h s)
    (hothers : Others s s') : Underway h s' :=
  ⟨hothers.preserves.sane hI.sane, hI.estimates,
    fun g hg => hothers.preserves.holds hI.sane _ _ (hI.holds g hg)⟩

/-- A read of the agent. -/
theorem Underway.read {h : History signature} {s : AppState} (hI : Underway h s)
    {e : Effect} {r : e.Reply} (hestimate : ∀ b x, (⟨e, r⟩ : Event signature) =
      ⟨.getEstimate b, x⟩ → 0 < x)
    (hreserve : ∀ requestId cost latencyMs, e ≠ .tryReserve requestId cost latencyMs)
    (hgranted : ∀ t : Tally, (t.after e r).granted = t.granted) :
    Underway (⟨e, r⟩ :: h) s ∧ Orderly ⟨s, ⟨e, r⟩, s⟩ := by
  refine ⟨⟨hI.sane, hI.estimates.cons hestimate, fun g hg => ?_⟩, ⟨fun _ _ _ error heq => ?_, ?_⟩⟩
  · rw [tally_cons, hgranted] at hg
    exact hI.holds g hg
  · exact hreserve _ _ _ (congrArg Event.effect heq)
  · rw [tally_cons, hgranted]
    exact sub_self _

/-- An id that no object has is not in the dictionary. -/
theorem BudgetManager.Valid.get?_fresh {bm : BudgetManager} (hv : bm.Valid) {id : String}
    (hfresh : ∀ r ∈ bm.reservations, r.id ≠ id) : bm.activeReservations.get? id = none := by
  rw [Option.eq_none_iff_forall_not_mem]
  intro ref hactive
  obtain ⟨hpending, hid⟩ := hv.active id ref hactive
  have hget := getElem?_eq_deref (mem_pending.mp hpending).1
  exact hfresh _ (List.mem_of_getElem? hget) hid

/-- **The effects of the agent** keep its invariant, and no attempt to reserve raises. -/
theorem Underway.own {config : Config} (hcost : 0 ≤ config.costPerRemoteRequest)
    {h : History signature} {s s' : AppState} {e : Effect} {o : Oracle} {r : e.Reply}
    (hI : Underway h s) (hasks : Asks config h e) (hexec : s.exec e o = some (r, s')) :
    Underway (⟨e, r⟩ :: h) s' ∧ Orderly ⟨s, ⟨e, r⟩, s'⟩ := by
  cases e with
  | tryReserve requestId cost latencyMs =>
    obtain ⟨hcost', hlatency⟩ := hasks.2 hcost hI.estimates
    have hpreserves := preserves_exec (fun b x h => by cases h) hexec
    have hsane := hpreserves.sane hI.sane
    have hestimates : EstimatesPositive (⟨.tryReserve requestId cost latencyMs, r⟩ :: h) :=
      hI.estimates.cons fun b x heq => by cases congrArg Event.effect heq
    cases attempt_of_exec hcost' hlatency hexec with
    | refused =>
      exact ⟨⟨hsane, hestimates, hI.holds⟩, ⟨nofun, sub_self _⟩⟩
    | granted hfits hfresh =>
      refine ⟨⟨hsane, hestimates, fun g hg => ?_⟩, ⟨nofun, ?_⟩⟩
      · rcases List.mem_cons.mp hg with rfl | hg
        · refine ⟨?_, ?_⟩
          · exact Nat.lt_of_lt_of_eq (Nat.lt_succ_self _) (BudgetManager.length_granted ..).symm
          · change (BudgetManager.granted ..).escrow.amount _ = _
            rw [BudgetManager.escrow_granted, Escrow.amount_grant, if_pos rfl]
        · exact hpreserves.holds hI.sane _ _ (hI.holds g hg)
      · have hlength := Dict.length_set (hI.sane.valid.get?_fresh hfresh)
          s.budgetManager.reservations.length
        change ((Dict.set _ _ _).length : ℤ) - s.budgetManager.activeReservations.length = 1
        rw [hlength]
        push_cast
        ring
  | getEstimate b =>
    cases hexec
    refine hI.read (fun b' x heq => ?_) nofun fun _ => rfl
    cases heq
    exact hI.sane.positive.positive.getEstimate_pos b
  | activeCount | isAtCapacity | maxConcurrency =>
    cases hexec
    exact hI.read (fun b x heq => by cases congrArg Event.effect heq) nofun fun _ => rfl
  | commit | rollback | readReservation | budgetSnapshot | acquire | release | record | countRoute
  | publish | simulateLocalInference | simulateRemoteInference => exact hasks.elim

/-! ### What justifies a decision -/

/-- The remote path is over the budget of the request, or an attempt to reserve for it has been
refused. -/
def RemoteUnavailable (config : Config) (request : InferenceRequest) (estRemoteMs : ℚ)
    (h : History signature) : Prop :=
  request.latencyBudgetMs < estRemoteMs ∨
    asked request config.costPerRemoteRequest estRemoteMs (.ok none) ∈ h

/-- What justifies a decision: the reads `n`, `c`, `l` and `r` of the agent, its history and the
reservations that the budget manager holds. -/
structure Sound (config : Config) (request : InferenceRequest) (tier : ComplexityTier) (n : ℕ)
    (c : Bool) (l r : ℚ) (h : History signature) (bm : BudgetManager)
    (decision : RoutingDecision) : Prop where
  reservation_isSome : decision.reservation.isSome = true ↔ decision.route ≠ .failFast
  remote : decision.route = .remote → r ≤ request.latencyBudgetMs ∧
    ∃ ref ∈ decision.reservation, bm.Holds ref (config.costPerRemoteRequest, r)
  «local» : decision.route = .local → c = false ∧ l * (n + 1) ≤ request.latencyBudgetMs ∧
    ∃ ref ∈ decision.reservation, bm.Holds ref (0, l * (n + 1))
  queueLocal : decision.route = .queueLocal → c = false ∧
    request.latencyBudgetMs < l * (n + 1) ∧ RemoteUnavailable config request r h
  fast : tier = .fast → decision.route = .remote → c = true ∨ request.latencyBudgetMs < l * (n + 1)
  quality : tier = .quality → decision.route = .local ∨ decision.route = .queueLocal →
    RemoteUnavailable config request r h

section Path

variable {config : Config} {request : InferenceRequest} {tier : ComplexityTier} {n : ℕ} {c : Bool}
  {l r : ℚ} {h₀ h : History signature} {bm : BudgetManager} {decision : RoutingDecision}

theorem RemoteMissed.unavailable
    (hmissed : RemoteMissed config request (advise request n c l r) h₀ h) :
    RemoteUnavailable config request r h := by
  cases hmissed with
  | overSla hsla => exact Or.inl (not_le.mp (of_decide_eq_false hsla))
  | refused => exact Or.inr List.mem_cons_self

theorem RemoteUnavailable.cons (hremote : RemoteUnavailable config request r h)
    (ev : Event signature) : RemoteUnavailable config request r (ev :: h) :=
  hremote.imp id (List.mem_cons_of_mem _)

theorem BeforeLocal.unavailable
    (hbefore : BeforeLocal config request tier (advise request n c l r) h₀ h)
    (htier : tier = .quality) : RemoteUnavailable config request r h := by
  subst htier
  exact RemoteMissed.unavailable hbefore

theorem BeforeLocal.granted {a : Advisory} (hbefore : BeforeLocal config request tier a h₀ h)
    (hgranted : (tally h₀).granted = []) : (tally h).granted = [] := by
  cases tier with
  | fast => exact hbefore ▸ hgranted
  | quality => exact RemoteMissed.granted hbefore hgranted

/-- What a path has been granted: a reservation for its decision, or nothing. -/
theorem Path.granted {a : Advisory} (hpath : Path config request tier a h₀ h (.ok decision))
    (hgranted : (tally h₀).granted = []) :
    (decision.route = .failFast ∧ decision.reservation = none ∧ (tally h).granted = []) ∨
      ∃ g, decision.route ≠ .failFast ∧ decision.reservation = some g.ref ∧
        (tally h).granted = [g] ∧ g.latencyMs = decision.estimatedLatencyMs ∧
        g.cost = if decision.route = .remote then config.costPerRemoteRequest else 0 := by
  cases hpath with
  | @remote ref =>
    refine Or.inr ⟨⟨ref, _, _⟩, by simp, rfl, ?_, rfl, rfl⟩
    exact congrArg (List.cons _) hgranted
  | @«local» _ _ ref _ hbefore _ hlater =>
    refine Or.inr ⟨⟨ref, _, _⟩, by simp, rfl, ?_, rfl, rfl⟩
    rcases hlater with rfl | ⟨m, rfl⟩
    · exact congrArg (List.cons _) (hbefore.granted hgranted)
    · exact congrArg (List.cons _) (hbefore.granted hgranted)
  | localRefused hbefore => exact Or.inl ⟨rfl, rfl, hbefore.granted hgranted⟩
  | @degraded _ _ ref _ hmissed =>
    refine Or.inr ⟨⟨ref, _, _⟩, by simp, rfl, ?_, rfl, rfl⟩
    exact congrArg (List.cons _) (hmissed.granted hgranted)
  | degradedRefused hmissed => exact Or.inl ⟨rfl, rfl, hmissed.granted hgranted⟩
  | full hmissed => exact Or.inl ⟨rfl, rfl, hmissed.granted hgranted⟩

/-- A rejection holds nothing and claims nothing. -/
theorem Sound.reject (estimate : ℚ) (reason : String) :
    Sound config request tier n c l r h bm (.reject estimate reason) where
  reservation_isSome := by simp [RoutingDecision.reject]
  remote := by simp [RoutingDecision.reject]
  «local» := by simp [RoutingDecision.reject]
  queueLocal := by simp [RoutingDecision.reject]
  fast := by simp [RoutingDecision.reject]
  quality := by simp [RoutingDecision.reject]

/-- **A path justifies its decision**, as long as the objects granted hold what was asked for. -/
theorem Path.sound
    (hpath : Path config request tier (advise request n c l r) h₀ h (.ok decision))
    (hgranted : (tally h₀).granted = [])
    (hholds : ∀ g ∈ (tally h).granted, bm.Holds g.ref (g.cost, g.latencyMs)) :
    Sound config request tier n c l r h bm decision := by
  have hout := hpath.granted hgranted
  cases hpath with
  | remote hsla hfast =>
    obtain ⟨hroute, -⟩ | ⟨g, -, href, hg, hlatency, hcost⟩ := hout
    · cases hroute
    · have hg' := hholds g (hg ▸ List.mem_singleton_self g)
      rw [hlatency, hcost] at hg'
      refine ⟨by simp, fun _ => ⟨of_decide_eq_true hsla, g.ref, href, hg'⟩, by simp, by simp,
        fun htier _ => ?_, by simp⟩
      have hlocal := hfast htier
      rw [Advisory.LocalFeasible, not_and_or] at hlocal
      exact hlocal.imp (by simp [advise]) (by simp [advise])
  | «local» hbefore hfeasible hlater =>
    obtain ⟨hroute, -⟩ | ⟨g, -, href, hg, hlatency, hcost⟩ := hout
    · cases hroute
    · have hg' := hholds g (hg ▸ List.mem_singleton_self g)
      rw [hlatency, hcost] at hg'
      refine ⟨by simp, by simp, fun _ => ⟨hfeasible.1, of_decide_eq_true hfeasible.2, g.ref, href,
        hg'⟩, by simp, by simp, fun htier _ => ?_⟩
      rcases hlater with rfl | ⟨m, rfl⟩
      · exact (hbefore.unavailable htier).cons _
      · exact ((hbefore.unavailable htier).cons _).cons _
  | @degraded h x _ _ hmissed hroom hover =>
    have hremote : ∀ ev ev', RemoteUnavailable config request r (ev' :: ev :: h) :=
      fun ev ev' => (hmissed.unavailable.cons ev).cons ev'
    exact ⟨by simp, by simp, by simp,
      fun _ => ⟨hroom, not_le.mp (of_decide_eq_false hover), hremote _ _⟩, by simp,
      fun _ _ => hremote _ _⟩
  | localRefused | degradedRefused | full => exact .reject _ _

end Path

/-- What a run of the agent among others comes to, from a sane state. -/
theorem sound_of_among {config : Config} (hcost : 0 ≤ config.costPerRemoteRequest)
    {request : InferenceRequest} {tier : ComplexityTier} {s s' : AppState}
    {acts : List (Performed signature AppState)} {out : Except Exn RoutingDecision}
    (hsane : s.Sane)
    (among : Program.Among AppState.exec Others s (route config request tier) acts s'
      (.ofExcept out)) :
    ∃ decision n c l r, out = .ok decision ∧ reads n c l r <:+ history acts ∧
      ownGrowth acts = (if decision.route = .failFast then 0 else 1) ∧
      Sound config request tier n c l r (history acts) s'.budgetManager decision := by
  have hstart : Underway [] s :=
    ⟨hsane, fun _ _ h => absurd h List.not_mem_nil, fun _ h => absurd h List.not_mem_nil⟩
  obtain ⟨hpath, hunderway, horderly⟩ := among.meets (route_path config request tier) hstart
    (fun _ _ _ hI => hI.others) fun _ _ _ _ _ _ hI => hI.own hcost
  rw [List.append_nil] at hpath hunderway
  obtain ⟨n, c, l, r, hpath⟩ := Program.meets_ofExcept.mp hpath
  cases out with
  | error x =>
    obtain ⟨requestId, cost, latencyMs, error, hmem⟩ := hpath.exists_error
    obtain ⟨a, ha, hevent⟩ := List.mem_map.mp (List.mem_reverse.mp hmem)
    exact absurd hevent ((horderly a ha).no_error _ _ _ _)
  | ok decision =>
    refine ⟨decision, n, c, l, r, rfl, hpath.suffix, ?_, hpath.sound rfl hunderway.holds⟩
    rw [ownGrowth_eq horderly]
    rcases hpath.granted rfl with ⟨hroute, -, hnone⟩ | ⟨g, hroute, -, hone, -⟩
    · rw [hnone, if_pos hroute]
      rfl
    · rw [hone, if_neg hroute]
      rfl

/-- **Routing soundness.** Among others who record positive latencies, from every reachable state
and for every request and tier, the agent comes to its end without raising. It then has one more
active reservation if it admits the request and none if it rejects it, and its decision is
sound. -/
theorem routing_sound {config : Config} (hcost : 0 ≤ config.costPerRemoteRequest)
    (hα : 0 < config.emaAlpha) (hα' : config.emaAlpha ≤ 1)
    (hlocal : 0 < config.avgLocalLatencyMs) (hremote : 0 < config.avgRemoteLatencyMs)
    {s : AppState} (hreach : Others (AppState.init config) s) (request : InferenceRequest)
    (tier : ComplexityTier) :
    (∃ acts s' out, Program.Among AppState.exec Others s (route config request tier) acts s'
      (.ofExcept out)) ∧
    ∀ acts s' out, Program.Among AppState.exec Others s (route config request tier) acts s'
        (.ofExcept out) →
      ∃ decision n c l r, out = .ok decision ∧ reads n c l r <:+ history acts ∧
        ownGrowth acts = (if decision.route = .failFast then 0 else 1) ∧
        Sound config request tier n c l r (history acts) s'.budgetManager decision := by
  have hsane := hreach.preserves.sane (sane_init hα hα' hlocal hremote)
  exact ⟨Program.exists_among (fun _ => .refl) exec_total s _,
    fun _ _ _ => sound_of_among hcost hsane⟩

/-- The state `s` in which another request has reserved money, and the state `s'` in which it also
has a slot. -/
theorem exists_others : ∃ s s', Others (AppState.init .default) s ∧ OtherStep s s' ∧
    s.budgetManager.reservedForExecution = 15 / 100 ∧ s.queueMonitor.activeCount = 0 ∧
    s'.queueMonitor.activeCount = 1 ∧ s'.queueMonitor.isAtCapacity = false := by
  have hruns : ∃ rs ∈ (AppState.init .default).exec (.tryReserve "other" (15 / 100) 200)
        { uuid := "other" },
      rs.2.budgetManager.reservedForExecution = 15 / 100 ∧ rs.2.queueMonitor.activeCount = 0 ∧
        ∃ rs' ∈ rs.2.exec .acquire {},
          rs'.2.queueMonitor.activeCount = 1 ∧ rs'.2.queueMonitor.isAtCapacity = false := by
    decide +kernel
  obtain ⟨⟨r, s⟩, hreserve, hmoney, hfree, ⟨r', s'⟩, hacquire, htaken, hroom⟩ := hruns
  exact ⟨s, s', .single (.effect (fun _ _ h => by cases h) hreserve),
    .effect (fun _ _ h => by cases h) hacquire, hmoney, hfree, htaken, hroom⟩

/-- The agent among others: another request has reserved money before, and it takes a slot after the
agent has read their number. -/
theorem routing_sound_default : ∃ s s₁ acts s' decision,
    s.budgetManager.reservedForExecution = 15 / 100 ∧ s₁.queueMonitor.activeCount = 1 ∧
    Program.Among AppState.exec Others s (route .default sampleRequest .quality)
      (⟨s, ⟨.activeCount, 0⟩, s⟩ :: ⟨s₁, ⟨.isAtCapacity, false⟩, s₁⟩ :: acts) s'
      (.ofExcept (.ok decision)) ∧
    ownGrowth (⟨s, ⟨.activeCount, (0 : ℕ)⟩, s⟩ :: ⟨s₁, ⟨.isAtCapacity, false⟩, s₁⟩ :: acts) =
      if decision.route = .failFast then 0 else 1 := by
  obtain ⟨s, s₁, hreach, hstep, hmoney, hfree, htaken, hroom⟩ := exists_others
  obtain ⟨-, hsound⟩ := routing_sound (by decide +kernel) (by decide +kernel) (by decide +kernel)
    (by decide +kernel) (by decide +kernel) hreach sampleRequest .quality
  have hcount : s.exec .activeCount {} = some ((0 : ℕ), s) := by rw [AppState.exec, hfree]
  have hcapacity : s₁.exec .isAtCapacity {} = some (false, s₁) := by rw [AppState.exec, hroom]
  have hends : ∀ (s : AppState) (p : Handler RoutingDecision), ∃ acts s' out,
      Program.Among AppState.exec Others s p acts s' (.ofExcept out) :=
    Program.exists_among (fun _ => .refl) exec_total
  obtain ⟨acts, s', out, hrest⟩ := hends s₁ _
  have among : Program.Among AppState.exec Others s (route .default sampleRequest .quality)
      (⟨s, ⟨.activeCount, (0 : ℕ)⟩, s⟩ :: ⟨s₁, ⟨.isAtCapacity, false⟩, s₁⟩ :: acts) s'
      (.ofExcept out) := .perform .refl hcount (.perform (.single hstep) hcapacity hrest)
  obtain ⟨decision, n, c, l, r, rfl, -, hgrowth, -⟩ := hsound _ s' out among
  exact ⟨s, s₁, acts, s', decision, hmoney, htaken, among, hgrowth⟩

/-! ### The decisions of the handlers -/

section Handlers

variable {config : Config} {classify : String → ComplexityTier}
  {p p' : Pool (service config classify)} {c : Choice (service config classify)}
  {tr : List (Pool (service config classify) × Choice (service config classify))}

/-- A sound decision stays sound while the objects keep their amounts. -/
theorem Sound.preserved {request : InferenceRequest} {tier : ComplexityTier} {n : ℕ} {c : Bool}
    {l r : ℚ} {h : History signature} {bm bm' : BudgetManager} {decision : RoutingDecision}
    (hsound : Sound config request tier n c l r h bm decision)
    (hholds : ∀ ref amounts, bm.Holds ref amounts → bm'.Holds ref amounts) :
    Sound config request tier n c l r h bm' decision where
  reservation_isSome := hsound.reservation_isSome
  remote hroute := by
    obtain ⟨hsla, ref, href, hheld⟩ := hsound.remote hroute
    exact ⟨hsla, ref, href, hholds _ _ hheld⟩
  «local» hroute := by
    obtain ⟨hroom, hsla, ref, href, hheld⟩ := hsound.local hroute
    exact ⟨hroom, hsla, ref, href, hholds _ _ hheld⟩
  queueLocal := hsound.queueLocal
  fast := hsound.fast
  quality := hsound.quality

/-- The step does not record a latency that is not positive. -/
def ObservesPositive (p : Pool (service config classify)) :
    Choice (service config classify) → Prop
  | .resume i _ => ∀ t ∈ p.threads[i]?, ∀ e ∈ t.next, e.ObservesPositive
  | .spawn _ | .act _ => True

/-- A step of the service is one of the others. -/
theorem others_of_step (hpositive : ObservesPositive p c) (h : p.Step c p') :
    Others p.state p'.state := by
  cases h.outcome with
  | spawned arg => exact .refl
  | @resumed pre t post e k o r s' hthreads hprogram hexec =>
    have ht : p.threads[pre.length]? = some t := by
      rw [hthreads]
      exact Pool.getElem?_middle _ _ _
    exact .single (.effect (hpositive t ht e (Thread.next_of_perform hprogram)) hexec)
  | acted hact => exact .single (.act hact)

/-- **The decisions of all handlers are sound**, in every run of the service in which the latencies
recorded are positive. -/
theorem decision_sound (hcost : 0 ≤ config.costPerRemoteRequest) (hα : 0 < config.emaAlpha)
    (hα' : config.emaAlpha ≤ 1) (hlocal : 0 < config.avgLocalLatencyMs)
    (hremote : 0 < config.avgRemoteLatencyMs)
    (run : Run Pool.Step (initial config classify) tr p)
    (hpositive : ∀ t ∈ tr, ObservesPositive t.1 t.2) {t : Thread (service config classify)}
    (ht : t ∈ p.threads) {tier : ComplexityTier}
    (htier : tier = t.arg.complexityTier.getD (classify t.arg.prompt)) {h : History signature}
    {decision : RoutingDecision} (hsuffix : h <:+ t.history)
    (hreturned : (route config t.arg tier).Answered h (.ret decision)) :
    ∃ n c l r, reads n c l r <:+ h ∧
      Sound config t.arg tier n c l r h p.state.budgetManager decision := by
  subst htier
  have hrefl : ∀ s, Others s s := fun _ => .refl
  have htrans : ∀ s s' s'', Others s s' → Others s' s'' → Others s s'' :=
    fun _ _ _ => Relation.ReflTransGen.trans
  obtain ⟨s, acts, hreach, among, hhistory, hacts⟩ := Pool.among_of_run (C := ObservesPositive)
    hrefl htrans (fun _ _ _ => others_of_step) rfl run hpositive t ht
  have hsane := (Others.preserves hreach).sane (sane_init hα hα' hlocal hremote)
  rw [← hhistory] at hsuffix
  obtain ⟨acts₁, acts₂, s₁, rfl, rfl, hagent, hrest⟩ := among.of_returned hrefl hreturned hsuffix
  have hsane₁ : s₁.Sane :=
    (Others.preserves (hagent.env_of_acts htrans fun a ha =>
      hacts a (List.mem_append_left _ ha))).sane hsane
  have hlater : Others s₁ p.state :=
    hrest.env_of_acts htrans fun a ha => hacts a (List.mem_append_right _ ha)
  have hdone : Program.Among AppState.exec Others s (route config t.arg _) acts₁ s₁
      (.ofExcept (.ok decision)) := hagent
  obtain ⟨_, n, c, l, r, heq, hreads, -, hsound⟩ := sound_of_among hcost hsane hdone
  cases heq
  exact ⟨n, c, l, r, hreads, hsound.preserved (hlater.preserves.holds hsane₁)⟩

end Handlers

end InferenceRouter
