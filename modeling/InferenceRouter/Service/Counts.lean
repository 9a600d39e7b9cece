import InferenceRouter.Service.Agent

/-!
# The route counters

The counters that `/summary` reports are written in two places: by the handler, once it has the
decision of the agent, and by the generator of every `/events` stream, for every routing decision
that it takes from its queue. The counters are therefore the decisions of the agent, each counted
once, plus the routing events that the streams have taken.

## Main definitions

* `InferenceRouter.Summary`, `InferenceRouter.AppState.summary`: the endpoint `/summary`.
* `InferenceRouter.Handled`, `InferenceRouter.handled`: the decisions of the agent that the handlers
  have got past counting.
* `InferenceRouter.takenRoute`, `InferenceRouter.taken`: the routing events taken by the streams.

## Main results

* `InferenceRouter.counted_inference`: a handler counts the decision of its agent, once.
* `InferenceRouter.routeCounts_eq`: the counters in every run.
* `InferenceRouter.counts_of_handlers`: when the counters are those of the handlers, with the run
  `InferenceRouter.counts_of_watched` in which they are not.
-/

namespace InferenceRouter

open Foundation Handler

/-! ### The summary -/

/-- What the endpoint `/summary` reports. -/
structure Summary where
  budgetMax : ℚ
  budgetSpent : ℚ
  budgetRemaining : ℚ
  latencyMaxMs : ℚ
  latencyCommittedMs : ℚ
  latencyRemainingMs : ℚ
  queueActive : ℕ
  queueMax : ℕ
  routeCounts : RouteDecision → ℕ

/-- `summary`, the handler of `GET /summary`. -/
def AppState.summary (s : AppState) : Summary :=
  let bm := s.budgetManager
  let snapshot := bm.budgetSnapshot
  { budgetMax := bm.config.maxRemoteBudget
    budgetSpent := snapshot.cumulativeCost
    budgetRemaining := max 0 snapshot.remaining
    latencyMaxMs := bm.config.maxCumulativeLatencyMs
    latencyCommittedMs := snapshot.cumulativeLatencyMs
    latencyRemainingMs := max 0
      (bm.config.maxCumulativeLatencyMs - snapshot.cumulativeLatencyMs - snapshot.reservedLatencyMs)
    queueActive := s.queueMonitor.activeCount
    queueMax := s.queueMonitor.maxConcurrency
    routeCounts := s.routeCounts }

/-! ### The counts of a handler -/

/-- The effect does not count a route. -/
def Effect.Silent (e : Effect) : Prop := ∀ route, e ≠ .countRoute route

/-- The effect counts the route `r`. -/
def Effect.counts (r : RouteDecision) : Effect → Bool
  | .countRoute route => decide (route = r)
  | .tryReserve .. | .commit .. | .rollback .. | .readReservation .. | .budgetSnapshot
  | .activeCount | .isAtCapacity | .maxConcurrency | .acquire | .release | .getEstimate ..
  | .record .. | .publish .. | .simulateLocalInference .. | .simulateRemoteInference .. => false

/-- How often the route has been counted in a history. -/
def counted (r : RouteDecision) (h : History signature) : ℕ := h.countP fun ev => ev.effect.counts r

theorem counted_of_silent {r : RouteDecision} {h : History signature}
    (hsilent : ∀ ev ∈ h, ev.effect.Silent) : counted r h = 0 := by
  refine List.countP_eq_zero.mpr fun ev hev => ?_
  have hev := hsilent ev hev
  cases heffect : ev.effect with
  | countRoute route => exact absurd heffect (hev route)
  | tryReserve | commit | rollback | readReservation | budgetSnapshot | activeCount | isAtCapacity
  | maxConcurrency | acquire | release | getEstimate | record | publish | simulateLocalInference
  | simulateRemoteInference => simp [Effect.counts]

section Silent

open Program

variable (request : InferenceRequest)

theorem commit_silent (ref : Ref) (c l : ℚ) : (commit ref c l).Only Effect.Silent :=
  .bind (.call nofun) fun _ => .ofExcept _

theorem commitIfReserved_silent (reservation : Option Ref) (c l : ℚ) :
    (commitIfReserved reservation c l).Only Effect.Silent := by
  cases reservation with
  | none => exact .ret ()
  | some ref => exact .bind (commit_silent ref c l) fun _ => .bind (.call nofun) fun _ => .ret ()

theorem rollbackIfPending_silent (reservation : Option Ref)
    {afterwards : Reservation → Handler Unit} (hafter : ∀ r, (afterwards r).Only Effect.Silent) :
    (rollbackIfPending reservation afterwards).Only Effect.Silent := by
  cases reservation with
  | none => exact .ret ()
  | some ref =>
    refine .bind (.call nofun) fun r => .ite ?_ (.ret ())
    exact .bind (.bind (.call nofun) fun _ => .ofExcept _) fun _ => hafter r

theorem slot_silent {α : Type} {body : Handler α} (hbody : body.Only Effect.Silent) :
    (slot body).Only Effect.Silent := by
  refine .bind (.call nofun) fun acquired => .ite ?_ (.raise _)
  exact hbody.andFinally (.call nofun)

theorem simulateLocalInference_silent (prompt requestId : String) :
    (simulateLocalInference prompt requestId).Only Effect.Silent :=
  .bind (.call nofun) fun _ => .ofExcept _

theorem execute_silent (decision : RoutingDecision) :
    (execute request decision).Only Effect.Silent := by
  refine .ite ?_ (slot_silent ?_)
  · exact .bind (.bind (.call nofun) fun _ => .ofExcept _) fun _ =>
      .bind (commitIfReserved_silent _ _ _) fun _ => .ret _
  · exact .bind (simulateLocalInference_silent _ _) fun _ =>
      .bind (commitIfReserved_silent _ _ _) fun _ => .ret _

theorem fallback_silent : (fallback request).Only Effect.Silent :=
  slot_silent (.bind (simulateLocalInference_silent _ _) fun _ => .ret _)

theorem recoverRemoteFailure_silent (reservation : Option Ref) (message : String) :
    (recoverRemoteFailure request reservation message).Only Effect.Silent := by
  refine .bind (rollbackIfPending_silent _ fun r => .call nofun) fun _ =>
    .bind (.call nofun) fun atCapacity => .ite ?_ (.raise _)
  refine .tryCatch (fallback_silent request) fun x => ?_
  cases x with
  | runtimeError | budget | remoteInferenceError | httpException | exception | baseException =>
    exact .raise _

theorem recover_silent (decision : RoutingDecision) (x : Exn) :
    (recover request decision x).Only Effect.Silent := by
  have hrollback : (rollbackIfPending decision.reservation fun _ => pure ()).Only Effect.Silent :=
    rollbackIfPending_silent _ fun _ => .ret ()
  cases x with
  | runtimeError => exact .bind hrollback fun _ => .bind (.call nofun) fun _ => .raise _
  | budget error =>
    cases error with
    | actualCostExceededReservation | actualLatencyExceededReservation => exact .raise _
    | valueError | invalidReservationState => exact .bind hrollback fun _ => .raise _
  | remoteInferenceError message => exact recoverRemoteFailure_silent request _ message
  | baseException => exact .raise _
  | httpException | exception => exact .bind hrollback fun _ => .raise _

theorem respond_silent (complexityTier : ComplexityTier) (execution : Execution) :
    (respond request complexityTier execution).Only Effect.Silent :=
  .bind (.call nofun) fun _ => .bind (.call nofun) fun _ => .bind (.call nofun) fun _ => .ret _

/-- The agent counts nothing. -/
theorem route_silent {config : Config} {tier : ComplexityTier} {h : History signature}
    {q : Handler RoutingDecision} (answered : Answered (route config request tier) h q) :
    ∀ ev ∈ h, ev.effect.Silent := by
  rintro ⟨e, r⟩ hev route rfl
  obtain ⟨h', hasks⟩ := answered.exists_allowed (route_path config request tier) _ hev
  exact hasks

end Silent

/-- Nothing has been counted in the history, or the route `x` once. -/
def CountsOnce (x : RouteDecision) (h : History signature) : Prop :=
  (∀ ev ∈ h, ev.effect.Silent) ∨
    (⟨.countRoute x, ()⟩ : Event signature) ∈ h ∧ ∀ r, counted r h = if x = r then 1 else 0

theorem counted_append (r : RouteDecision) (h h' : History signature) :
    counted r (h ++ h') = counted r h + counted r h' :=
  List.countP_append

/-- Earlier events that count nothing. -/
theorem CountsOnce.append {x : RouteDecision} {h h' : History signature} (hh : CountsOnce x h)
    (hsilent : ∀ ev ∈ h', ev.effect.Silent) : CountsOnce x (h ++ h') := by
  rcases hh with hh | ⟨hmem, hcounted⟩
  · exact Or.inl (List.forall_mem_append.mpr ⟨hh, hsilent⟩)
  · refine Or.inr ⟨List.mem_append_left _ hmem, fun r => ?_⟩
    rw [counted_append, hcounted, counted_of_silent hsilent, Nat.add_zero]

/-- A count in front of a program that counts nothing. -/
theorem countsOnce_call {α : Type} {x : RouteDecision} {rest : Unit → Handler α}
    (hrest : (rest ()).Only Effect.Silent) {h : History signature} {q : Handler α}
    (answered : (countRoute x >>= rest).Answered h q) : CountsOnce x h := by
  rcases Program.Answered.of_perform answered with rfl | ⟨r, h', rfl, hafter⟩
  · exact Or.inl (by simp)
  · have hsilent : ∀ ev ∈ h', ev.effect.Silent := hrest.of_mem hafter
    refine Or.inr ⟨List.mem_append_right _ (List.mem_singleton_self _), fun r => ?_⟩
    rw [counted_append, counted_of_silent hsilent, Nat.zero_add]
    simp [counted, Effect.counts]

section Handled

variable (config : Config) (classify : String → ComplexityTier) (request : InferenceRequest)

/-- The agent of the request has returned a decision, and the handler has got past counting it. -/
def Handled (h : History signature) (r : RouteDecision) : Prop :=
  (∃ x, (⟨.countRoute x, ()⟩ : Event signature) ∈ h) ∧
    ∃ decision h', decision.route = r ∧ h' <:+ h ∧
      (route config request (request.complexityTier.getD (classify request.prompt))).Answered h'
        (.ret decision)

variable {config classify request} {h : History signature}

theorem not_handled_of_silent (hsilent : ∀ ev ∈ h, ev.effect.Silent) (r : RouteDecision) :
    ¬ Handled config classify request h r := by
  rintro ⟨⟨x, hx⟩, -⟩
  exact hsilent _ hx x rfl

/-- Once counted, the decision of the agent is the one it has returned. -/
theorem handled_iff {decision : RoutingDecision} {h₁ h₂ : History signature} {x : RouteDecision}
    (hx : (⟨.countRoute x, ()⟩ : Event signature) ∈ h₂)
    (hreturned : (route config request (request.complexityTier.getD
      (classify request.prompt))).Answered h₁ (.ret decision)) (r : RouteDecision) :
    Handled config classify request (h₂ ++ h₁) r ↔ decision.route = r := by
  constructor
  · rintro ⟨-, decision', h', rfl, hsuffix, hreturned'⟩
    obtain ⟨-, rfl⟩ := hreturned.ret_unique hreturned' (List.suffix_append h₂ h₁) hsuffix
    rfl
  · intro hroute
    exact ⟨⟨x, List.mem_append_left _ hx⟩, decision, h₁, hroute, List.suffix_append h₂ h₁,
      hreturned⟩

open Classical in
/-- **A handler counts the decision of its agent**, once. -/
theorem counted_inference {q : Handler InferenceResponse}
    (answered : (inference config classify request).Answered h q) (r : RouteDecision) :
    counted r h = if Handled config classify request h r then 1 else 0 := by
  rcases Program.Answered.of_bind answered with
    ⟨q', hrouting⟩ | ⟨decision, h₁, h₂, rfl, hreturned, hrest⟩
  · have hsilent := route_silent request hrouting
    rw [counted_of_silent hsilent, if_neg (not_handled_of_silent hsilent r)]
  · have hsilent := route_silent request hreturned
    have honce : CountsOnce decision.route h₂ := by
      split_ifs at hrest with hroute
      · rw [hroute]
        exact countsOnce_call (.bind (.call nofun) fun _ => .raise _) hrest
      · rcases Program.Answered.of_perform hrest with rfl | ⟨snapshot, h', rfl, hcount⟩
        · exact Or.inl (by simp)
        · have honce : CountsOnce decision.route h' := by
            refine countsOnce_call ?_ hcount
            refine .bind (.call nofun) fun _ => .bind (.call nofun) fun _ => ?_
            exact .bind (.tryCatch (execute_silent request decision) fun x =>
              recover_silent request decision x) fun _ => respond_silent request _ _
          exact honce.append (List.forall_mem_singleton.mpr nofun)
    rcases honce with hsilent' | ⟨hx, hcounted⟩
    · have hall := List.forall_mem_append.mpr ⟨hsilent', hsilent⟩
      rw [counted_of_silent hall, if_neg (not_handled_of_silent hall r)]
    · rw [counted_append, hcounted, counted_of_silent hsilent, Nat.add_zero]
      simp only [handled_iff hx hreturned]

end Handled

/-! ### The counters of a run -/

/-- The route of a routing event. -/
def Payload.decided : Payload → Option RouteDecision
  | .routeDecision _ route .. => some route
  | .executionComplete .. | .failFast .. | .rollbackEvent .. => none

/-- The route of the routing event in a message. -/
def Message.decided (message : Message) : Option RouteDecision :=
  message.payload?.bind Payload.decided

/-- The route of the routing event that a stream takes in an action of the environment. -/
def AppState.takenRoute (s : AppState) : ServiceAction → Option RouteDecision
  | .consume client => (s.eventBus.consume client).bind fun mb => mb.1.decided
  | .reap _ | .connect | .disconnect _ | .mark _ => none

/-- An effect changes the counters only if it counts a route. -/
theorem exec_routeCounts {s s' : AppState} {e : Effect} {o : Oracle} {r : e.Reply}
    (h : s.exec e o = some (r, s')) (x : RouteDecision) :
    s'.routeCounts x = s.routeCounts x + if e.counts x then 1 else 0 := by
  cases e with
  | tryReserve =>
    obtain ⟨-, h⟩ := Option.ite_none_right_eq_some.mp h
    cases h
    rfl
  | countRoute route =>
    cases h
    dsimp only [Effect.counts]
    rw [Function.update_apply]
    by_cases hroute : route = x
    · subst hroute
      simp
    · simp [hroute, Ne.symm hroute]
  | commit | rollback | readReservation | budgetSnapshot | activeCount | isAtCapacity
  | maxConcurrency | acquire | release | getEstimate | record | publish | simulateLocalInference
  | simulateRemoteInference =>
    cases h
    rfl

/-- An action of the environment changes the counters only if a stream takes a routing event. -/
theorem act_routeCounts {s s' : AppState} {a : ServiceAction} (h : s.act a = some s')
    (x : RouteDecision) :
    s'.routeCounts x = s.routeCounts x + if s.takenRoute a = some x then 1 else 0 := by
  cases a with
  | reap readings =>
    obtain ⟨-, h⟩ := Option.ite_none_right_eq_some.mp h
    cases h
    rfl
  | connect | disconnect | mark =>
    cases h
    rfl
  | consume client =>
    obtain ⟨⟨message, bus⟩, hconsume, rfl⟩ := Option.map_eq_some_iff.mp h
    rw [AppState.takenRoute, hconsume, Option.bind_some]
    cases message with
    | marker => rfl
    | payload payload =>
      cases payload with
      | routeDecision _ route =>
        change Function.update s.routeCounts route (s.routeCounts route + 1) x =
          s.routeCounts x + if some route = some x then 1 else 0
        rw [Function.update_apply]
        by_cases hroute : route = x
        · subst hroute
          simp
        · simp [hroute, Ne.symm hroute]
      | executionComplete | failFast | rollbackEvent => rfl

section Runs

variable {config : Config} {classify : String → ComplexityTier}

/-- The route of the routing event that a stream takes in a step of the service. -/
def takenRoute (p : Pool (service config classify)) :
    Choice (service config classify) → Option RouteDecision
  | .act a => p.state.takenRoute a
  | .spawn _ | .resume .. => none

/-- How many routing events for the route the streams have taken. -/
def taken (r : RouteDecision)
    (tr : List (Pool (service config classify) × Choice (service config classify))) : ℕ :=
  tr.countP fun t => decide (takenRoute t.1 t.2 = some r)

open Classical in
/-- The number of requests whose agent has returned the route and whose handler has got past
counting it. -/
noncomputable def handled (r : RouteDecision) (ts : List (Thread (service config classify))) : ℕ :=
  ts.countP fun t => decide (Handled config classify t.arg t.history r)

variable {p p' : Pool (service config classify)}
  {tr tr' : List (Pool (service config classify) × Choice (service config classify))}

theorem taken_cons (r : RouteDecision) (p : Pool (service config classify))
    (c : Choice (service config classify)) :
    taken r ((p, c) :: tr) = taken r tr + if takenRoute p c = some r then 1 else 0 := by
  simp [taken, List.countP_cons]

theorem sum_counted_eq (r : RouteDecision) (ts : List (Thread (service config classify)))
    (hanswered : ∀ t ∈ ts, (inference config classify t.arg).Answered t.history t.program) :
    (ts.map fun t => counted r t.history).sum = handled r ts := by
  induction ts with
  | nil => rfl
  | cons t ts ih =>
    obtain ⟨ht, hts⟩ := List.forall_mem_cons.mp hanswered
    rw [List.map_cons, List.sum_cons, ih hts, counted_inference ht, handled, handled,
      List.countP_cons, Nat.add_comm]
    by_cases hhandled : Handled config classify t.arg t.history r
    · simp [hhandled]
    · simp [hhandled]

/-- What the handlers have counted, after one of them has performed an effect. -/
theorem sum_counted_answered (r : RouteDecision)
    (pre post : List (Thread (service config classify)))
    (t : Thread (service config classify)) (e : Effect) (reply : e.Reply)
    (q : Handler InferenceResponse) :
    ((pre ++ t.answered e reply q :: post).map fun t => counted r t.history).sum =
      ((pre ++ t :: post).map fun t => counted r t.history).sum + if e.counts r then 1 else 0 := by
  have hcons : counted r (t.answered e reply q).history =
      counted r t.history + if e.counts r then 1 else 0 := List.countP_cons
  simp only [List.map_append, List.map_cons, List.sum_append, List.sum_cons, hcons]
  omega

/-- **The counters in every run**: the decisions that the handlers have counted, and the routing
events that the streams have taken. -/
theorem routeCounts_eq (run : Run Pool.Step (initial config classify) tr p) (r : RouteDecision) :
    p.state.routeCounts r = handled r p.threads + taken r tr := by
  rw [← sum_counted_eq r p.threads (Pool.answered_of_run rfl run)]
  induction run with
  | start => rfl
  | @step tr p c p' run h ih =>
    rw [taken_cons]
    cases h.outcome with
    | spawned arg =>
      rw [List.map_append, List.sum_append]
      exact ih
    | @resumed pre t post e k o reply s' hthreads hprogram hexec =>
      have hcounts := exec_routeCounts hexec r
      rw [hthreads] at ih
      dsimp only
      rw [sum_counted_answered, hcounts, ih]
      change _ = _ + (taken r tr + 0)
      omega
    | @acted a s' hact =>
      have hcounts := act_routeCounts hact r
      dsimp only
      rw [hcounts, ih]
      exact Nat.add_assoc _ _ _

/-! ### Runs that differ in their streams -/

/-- The step is one of an `/events` stream. -/
def IsClient : Choice (service config classify) → Bool
  | .act .connect | .act (.consume _) | .act (.disconnect _) => true
  | .act (.reap _) | .act (.mark _) | .spawn _ | .resume .. => false

/-- The choices of a run but for those of the streams. -/
def handlerChoices
    (tr : List (Pool (service config classify) × Choice (service config classify))) :
    List (Choice (service config classify)) :=
  tr.filterMap fun t => if IsClient t.2 then none else some t.2

/-- The shared state without the counters and the event bus. -/
def AppState.unwatched (s : AppState) : AppState :=
  { s with
    routeCounts := fun _ => 0
    eventBus := .new }

/-- The pool without the counters and the event bus. -/
def unwatched (p : Pool (service config classify)) : Pool (service config classify) :=
  ⟨p.state.unwatched, p.threads⟩

/-- No effect depends on the counters or the event bus. -/
theorem exec_unwatched {s s' : AppState} {e : Effect} {o : Oracle} {r : e.Reply}
    (h : s.exec e o = some (r, s')) :
    ∃ s'', s.unwatched.exec e o = some (r, s'') ∧ s''.unwatched = s'.unwatched := by
  cases e with
  | tryReserve =>
    obtain ⟨hcond, h⟩ := Option.ite_none_right_eq_some.mp h
    cases h
    exact ⟨_, if_pos hcond, rfl⟩
  | commit | rollback | readReservation | budgetSnapshot | activeCount | isAtCapacity
  | maxConcurrency | acquire | release | getEstimate | record | countRoute | publish
  | simulateLocalInference | simulateRemoteInference =>
    cases h
    exact ⟨_, rfl, rfl⟩

/-- A step of a stream does not concern the rest of the pool; every other step can be taken
without the counters and the event bus. -/
theorem step_unwatched {c : Choice (service config classify)} (h : p.Step c p') :
    (IsClient c = true ∧ unwatched p' = unwatched p) ∨
      IsClient c = false ∧ ((unwatched p).step c).map unwatched = some (unwatched p') := by
  cases h.outcome with
  | spawned arg => exact Or.inr ⟨rfl, rfl⟩
  | @resumed pre t post e k o r s' hthreads hprogram hexec =>
    obtain ⟨s'', hexec', heq⟩ := exec_unwatched hexec
    have hout : (unwatched p).Outcome _ _ := .resumed hthreads hprogram hexec'
    refine Or.inr ⟨rfl, ?_⟩
    rw [show (unwatched p).step _ = _ from hout.step, Option.map_some]
    simp only [unwatched, heq]
  | @acted a s' hact =>
    cases a with
    | reap readings =>
      obtain ⟨hcond, hact⟩ := Option.ite_none_right_eq_some.mp hact
      cases hact
      have hout : (unwatched p).Outcome (.act (.reap readings)) _ := .acted (if_pos hcond)
      refine Or.inr ⟨rfl, ?_⟩
      rw [show (unwatched p).step _ = _ from hout.step]
      rfl
    | mark marker =>
      cases hact
      exact Or.inr ⟨rfl, rfl⟩
    | connect | disconnect =>
      cases hact
      exact Or.inl ⟨rfl, rfl⟩
    | consume client =>
      obtain ⟨mb, -, rfl⟩ := Option.map_eq_some_iff.mp hact
      exact Or.inl ⟨rfl, rfl⟩

/-- **Runs that differ only in their streams** have the same handlers. -/
theorem threads_eq_of_handlerChoices (run : Run Pool.Step (initial config classify) tr p)
    (run' : Run Pool.Step (initial config classify) tr' p')
    (hchoices : handlerChoices tr = handlerChoices tr') : p.threads = p'.threads := by
  have hproject : ∀ {tr p}, Run Pool.Step (initial config classify) tr p →
      ∃ tr₀, Run (fun q c q' => (Pool.step q c).map unwatched = some q')
        (unwatched (initial config classify)) tr₀ (unwatched p) ∧
        tr₀.map Prod.snd = handlerChoices tr := by
    intro tr p run
    refine ⟨_, run.project unwatched (fun _ c => if IsClient c then none else some c) ?_, ?_⟩
    · intro p c p' h
      rcases step_unwatched h with ⟨hclient, heq⟩ | ⟨hclient, hstep⟩
      · exact Or.inl ⟨if_pos hclient, heq⟩
      · exact Or.inr ⟨c, if_neg (by simp [hclient]), hstep⟩
    · rw [handlerChoices, List.map_filterMap]
      refine List.filterMap_congr fun t _ => ?_
      split_ifs
      · rfl
      · rfl
  obtain ⟨tr₁, run₁, h₁⟩ := hproject run
  obtain ⟨tr₂, run₂, h₂⟩ := hproject run'
  have heq : unwatched p = unwatched p' := run₁.eq_of_labels
    (fun q c q₁ q₂ h₁ h₂ => Option.some.inj (h₁.symm.trans h₂)) run₂ (by rw [h₁, h₂, hchoices])
  have hthreads : (unwatched p).threads = (unwatched p').threads := congrArg Pool.threads heq
  exact hthreads

/-! ### The main result -/

/-- **The counters of the handlers.** In every run of the service, for every route, `/summary`
reports the number of requests whose agent has returned the route exactly if no stream has taken a
routing event for it. Two runs that differ only in their streams, none of which takes a routing
event, report the same counts. -/
theorem counts_of_handlers (run : Run Pool.Step (initial config classify) tr p) :
    (∀ r, p.state.summary.routeCounts r = handled r p.threads ↔
      ∀ t ∈ tr, takenRoute t.1 t.2 ≠ some r) ∧
    ∀ tr' p', Run Pool.Step (initial config classify) tr' p' →
      handlerChoices tr = handlerChoices tr' → (∀ t ∈ tr, takenRoute t.1 t.2 = none) →
      (∀ t ∈ tr', takenRoute t.1 t.2 = none) →
      p'.state.summary.routeCounts = p.state.summary.routeCounts := by
  have hexact : ∀ {tr p}, Run Pool.Step (initial config classify) tr p → ∀ r,
      (p.state.summary.routeCounts r = handled r p.threads ↔
        ∀ t ∈ tr, takenRoute t.1 t.2 ≠ some r) := by
    intro tr p run r
    have hcounts : p.state.summary.routeCounts r = handled r p.threads + taken r tr :=
      routeCounts_eq run r
    have htaken : taken r tr = 0 ↔ ∀ t ∈ tr, takenRoute t.1 t.2 ≠ some r := by
      rw [taken, List.countP_eq_zero]
      simp
    rw [hcounts, ← htaken]
    omega
  refine ⟨hexact run, fun tr' p' run' hchoices hnone hnone' => ?_⟩
  funext r
  have hthis := (hexact run r).mpr fun t ht => by rw [hnone t ht]; nofun
  have hthat := (hexact run' r).mpr fun t ht => by rw [hnone' t ht]; nofun
  rw [hthis, hthat, threads_eq_of_handlerChoices run run' hchoices]

end Runs

theorem counts_of_handlers_counted : ∃ tr p,
    Run Pool.Step (initial .default fun _ => .fast) tr p ∧ p.state.summary.routeCounts .remote = 1 ∧
    p.state.summary.routeCounts .remote = handled .remote p.threads := by
  obtain ⟨tr, p, run, hcount, hnone⟩ : ∃ tr p,
      Run Pool.Step (initial .default fun _ => .fast) tr p ∧
      p.state.summary.routeCounts .remote = 1 ∧ ∀ t ∈ tr, takenRoute t.1 t.2 ≠ some .remote :=
    Pool.exists_run_trace _ (.spawn sampleRequest :: advance 0 9 {}) (by decide +kernel)
  exact ⟨tr, p, run, hcount, ((counts_of_handlers run).1 .remote).mpr hnone⟩

/-- **A watched run**: a client has connected, and takes the one routing event from its queue. The
counter of the one request that the agent has decided stands at two. -/
theorem counts_of_watched : ∃ tr p, Run Pool.Step (initial .default fun _ => .fast) tr p ∧
    p.threads.length = 1 ∧ handled .remote p.threads = 1 ∧
    p.state.summary.routeCounts .remote = 2 := by
  obtain ⟨tr, p, run, hlength, hcount, htaken⟩ : ∃ tr p,
      Run Pool.Step (initial .default fun _ => .fast) tr p ∧ p.threads.length = 1 ∧
      p.state.routeCounts .remote = 2 ∧ taken .remote tr = 1 :=
    Pool.exists_run_trace _
      (.act .connect :: .spawn sampleRequest :: (advance 0 9 {} ++ [.act (.consume 0)]))
      (by decide +kernel)
  have hcounts := routeCounts_eq run .remote
  exact ⟨tr, p, run, hlength, by omega, hcount⟩

end InferenceRouter
