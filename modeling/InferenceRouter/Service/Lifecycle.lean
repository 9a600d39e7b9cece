import InferenceRouter.Service.Tally

/-!
# How the handler of a request ends

The condition `Allowed` and the postcondition `Ending` for the whole handler, from the blocks of
its `try` statement: the execution of the decision ends in one of four ways (`Executed`), and each
clause of the `except` chain brings the exceptional ones to an end of the handler.

## Main definitions

* `InferenceRouter.Executed`: how the `try` block ends.

## Main results

* `InferenceRouter.slot_meets`, `InferenceRouter.commitIfReserved_meets`,
  `InferenceRouter.rollbackIfPending_meets`: the blocks.
* `InferenceRouter.inference_meets`: the handler.
-/

namespace InferenceRouter

open Foundation Handler

variable {h : History signature} {g : Grant}

/-! ### The blocks -/

/-- The rule for the context manager around a local execution. -/
theorem slot_meets {α : Type} {body : Handler α} {Q : History signature → Except Exn α → Prop}
    (hslots : (tally h).slots = 0)
    (hfull : ∀ message, Q (⟨.acquire, false⟩ :: h) (.error (.runtimeError message)))
    (hbody : body.Meets Allowed (fun h out => (tally h).slots = 1 ∧ Q (⟨.release, ()⟩ :: h) out)
      (⟨.acquire, true⟩ :: h)) :
    (slot body).Meets Allowed Q h := by
  refine Program.Meets.call_bind hslots fun acquired => ?_
  cases acquired with
  | false => exact hfull _
  | true =>
    exact hbody.andFinally fun h out hout => ⟨hout.1, fun _ => hout.2⟩

/-- The outcomes of a commit, by the summaries before and after it. -/
inductive Settled (t : Tally) (ref : Ref) (charge : ℚ × ℚ) : Tally → Except Exn Unit → Prop
  | committed :
      Settled t ref charge
        { t with resolved := ref :: t.resolved, charges := charge :: t.charges } (.ok ())
  | refused {e} :
      Settled t ref charge { t with resolved := ref :: t.resolved } (.error (.budget e))

/-- A commit of what a backend has answered resolves the reservation, and charges its amounts if it
returns. -/
theorem commitIfReserved_meets {t : Tally} {b : Backend} {result : BackendResult} {slots : ℕ}
    (htally : tally h = t)
    (ht : t = { granted := [g], slots := slots, answers := [(b, .ok result)] }) :
    (commitIfReserved (some g.ref) (b.charge result).1 (b.charge result).2).Meets Allowed
      (fun h out => Settled t g.ref (b.charge result) (tally h) out) h := by
  subst htally
  refine Program.Meets.bind (Q := fun h' out =>
    Settled (tally h) g.ref (b.charge result) (tally h') out)
    ?_ (fun h' _ hh => ?_) fun h' x hx => hx
  · refine Program.Meets.call_ofExcept ⟨g, b, result, rfl, rfl, ?_⟩ fun reply => ?_
    · rw [ht]
    · rcases reply with error | _
      · exact .refused
      · exact .committed
  · exact Program.Meets.call_bind trivial fun _ => hh

/-- A rollback of a pending reservation resolves it, and so does the reading that it is no longer
pending. -/
theorem rollbackIfPending_meets {t : Tally} (htally : tally h = t) (hg : g ∈ t.granted)
    (hanswers : g.cost ≠ 0 → t.answers ≠ []) {afterwards : Reservation → Handler Unit}
    (hafter : ∀ h r, (afterwards r).Meets Allowed (fun h' _ => tally h' = tally h) h) :
    (rollbackIfPending (some g.ref) afterwards).Meets Allowed
      (fun h _ => ∃ resolved, g.ref ∈ resolved ∧ tally h = { t with resolved := resolved }) h := by
  subst htally
  refine Program.Meets.call_bind ⟨g, hg, rfl⟩ fun reservation => ?_
  refine Program.Meets.ite (fun hpending => ?_) fun hsettled => ?_
  · have hread : tally (⟨.readReservation g.ref, reservation⟩ :: h) = tally h := if_pos hpending
    refine Program.Meets.bind (Q := fun h' _ => tally h' =
      { tally h with resolved := g.ref :: (tally h).resolved }) ?_ (fun h' _ hh => ?_)
      fun h' x hx => ⟨_, List.mem_cons_self, hx⟩
    · refine Program.Meets.call_ofExcept ?_ fun reply => ?_
      · change ∃ g' ∈ (tally _).granted, _
        rw [hread]
        exact ⟨g, hg, rfl, hanswers⟩
      · rw [tally_cons, hread]
        rfl
    · exact (hafter h' reservation).mono fun h'' _ hh' =>
        ⟨_, List.mem_cons_self, hh'.trans hh⟩
  · exact ⟨_, List.mem_cons_self, if_neg hsettled⟩

/-! ### The execution -/

/-- The cost and the latency that an execution answers with. -/
def Execution.figures (execution : Execution) : ℚ × ℚ :=
  (execution.actualCost, execution.actualLatencyMs)

/-- How the `try` block of a request with the reservation `g` ends, by the summary of the
handler. -/
inductive Executed (g : Grant) : Tally → Except Exn Execution → Prop
  /-- The backend has answered, and its figures are committed. -/
  | done {b result execution}
      (hfigures : execution.figures = (result.actualCost, result.actualLatencyMs)) :
      Executed g
        { granted := [g]
          resolved := [g.ref]
          charges := [b.charge result]
          answers := [(b, .ok result)] }
        (.ok execution)
  /-- There was no slot for a local execution. -/
  | full {message} (hcost : g.cost = 0) :
      Executed g { granted := [g] } (.error (.runtimeError message))
  /-- The call of the backend has raised. -/
  | raised {b x} : Executed g { granted := [g], answers := [(b, .error x)] } (.error x)
  /-- The commit has raised. -/
  | refused {b result e} :
      Executed g { granted := [g], resolved := [g.ref], answers := [(b, .ok result)] }
        (.error (.budget e))

/-- The rule for committing the figures of an answer. -/
theorem commit_answer_meets {b : Backend} {result : BackendResult} {slots : ℕ}
    (htally : tally h =
      { granted := [g], slots := slots, answers := [(b, .ok result)] })
    {execution : Execution}
    (hfigures : execution.figures = (result.actualCost, result.actualLatencyMs)) :
    (do
        commitIfReserved (some g.ref) (b.charge result).1 (b.charge result).2
        pure execution : Handler Execution).Meets Allowed
      (fun h out => (tally h).slots = slots ∧
        Executed g { tally h with slots := 0 } out) h := by
  refine (commitIfReserved_meets htally rfl).bind
    (fun h _ hh => ?_) fun h x hx => ?_
  · change (tally h).slots = slots ∧ Executed g { tally h with slots := 0 } (.ok execution)
    generalize tally h = t at hh
    cases hh
    exact ⟨rfl, .done hfigures⟩
  · dsimp only at hx ⊢
    generalize tally h = t at hx
    cases hx
    exact ⟨rfl, .refused⟩

/-- **The `try` block.** -/
theorem execute_meets (htally : tally h = { granted := [g] }) (request : InferenceRequest)
    {decision : RoutingDecision} (hreservation : decision.reservation = some g.ref)
    (hcost : decision.route ≠ .remote → g.cost = 0) :
    (execute request decision).Meets Allowed (fun h out => Executed g (tally h) out) h := by
  unfold execute
  rw [hreservation]
  refine Program.Meets.ite (fun _ => ?_) fun hlocal => ?_
  · refine Program.Meets.bind (Q := fun h out =>
      tally h = { granted := [g], answers := [(.remote, out)] }) ?_ (fun h result hh => ?_)
      fun h x hx => ?_
    · refine Program.Meets.call_ofExcept ⟨g, htally⟩ fun reply => ?_
      rw [tally_cons, htally]
      rfl
    · refine (commit_answer_meets (b := .remote) hh rfl).mono fun h out hout => ?_
      rw [← hout.1] at hout
      exact hout.2
    · rw [hx]
      exact .raised
  · refine slot_meets (by rw [htally]) (fun message => ?_) ?_
    · rw [tally_cons, htally]
      exact .full (hcost hlocal)
    · have hslot : tally (⟨.acquire, true⟩ :: h) = { granted := [g], slots := 1 } := by
        rw [tally_cons, htally]
        rfl
      refine Program.Meets.bind (Q := fun h out =>
        tally h = { granted := [g], slots := 1, answers := [(.local, out)] }) ?_
        (fun h result hh => ?_) fun h x hx => ?_
      · refine Program.Meets.call_ofExcept ?_ fun reply => ?_
        · change (tally _).slots = 1 ∧ (tally _).AtCall
          rw [hslot]
          exact ⟨rfl, Or.inl ⟨rfl, rfl⟩⟩
        · rw [tally_cons, hslot]
          rfl
      · refine (commit_answer_meets (b := .local) hh rfl).mono fun h out hout => ⟨hout.1, ?_⟩
        have hrelease : tally (⟨.release, ()⟩ :: h) = { tally h with slots := 0 } := by
          rw [tally_cons, Tally.after, hout.1]
        exact hrelease ▸ hout.2
      · rw [tally_cons, hx]
        exact ⟨rfl, .raised⟩

/-! ### The `except` chain -/

/-- The result of a handler, reduced to the figures that it answers with. -/
def figures (out : Except Exn Execution) : Except Exn (ℚ × ℚ) := out.map Execution.figures

/-- If the first answer is an exception that is rolled back for, then every exception that is the
first answer is. -/
theorem Exn.Caught.of_getLast? {x : Exn} (hcaught : x.Caught) {b : Backend}
    {answers : List (Backend × Except Exn BackendResult)}
    (hfirst : answers.getLast? = some (b, .error x)) :
    ∀ b' y, answers.getLast? = some (b', .error y) → y.Caught := by
  intro b' y hlast
  cases hfirst.symm.trans hlast
  exact hcaught

/-- A rollback in an `except` clause, followed by the exception that the clause raises. -/
theorem rollback_raise_meets {t : Tally} (htally : tally h = t) (hg : t.granted = [g])
    (hanswers : g.cost ≠ 0 → t.answers ≠ []) (hslots : t.slots = 0) (hcharges : t.charges = [])
    (hfirst : ∀ b y, t.answers.getLast? = some (b, .error y) → y.Caught)
    (hfallback : ∀ result rest, t.answers = (.local, .ok result) :: rest → rest = [])
    {rest : Handler Execution}
    (hrest : ∀ t h, tally h = t → rest.Meets Allowed
      (fun h out => tally h = t ∧ ∃ x, out = .error x) h) :
    (do
        rollbackIfPending (some g.ref) fun _ => pure ()
        rest : Handler Execution).Meets Allowed
      (fun h out => Ending (tally h) (figures out)) h := by
  have hfailed : ∀ resolved x, g.ref ∈ resolved →
      Ending { t with resolved := resolved } (.error x) := by
    intro resolved x hresolved
    obtain ⟨granted, _, slots, charges, answers⟩ := t
    obtain rfl : granted = [g] := hg
    obtain rfl : slots = 0 := hslots
    obtain rfl : charges = [] := hcharges
    exact .failed hresolved hfirst hfallback
  have hafter : ∀ h, (pure () : Handler Unit).Meets Allowed (fun h' _ => tally h' = tally h) h :=
    fun _ => rfl
  refine (rollbackIfPending_meets htally (hg ▸ List.mem_cons_self) hanswers
    fun h _ => hafter h).bind (fun h _ hh => ?_) fun h x hx => ?_
  · obtain ⟨resolved, hresolved, hh⟩ := hh
    refine (hrest _ h hh).mono fun h out hout => ?_
    obtain ⟨hh, x, rfl⟩ := hout
    rw [hh]
    exact hfailed resolved x hresolved
  · obtain ⟨resolved, hresolved, hh⟩ := hx
    rw [hh]
    exact hfailed resolved x hresolved

/-- A handler that ends in an exception may raise another one. -/
theorem Ending.reraise {t : Tally} {x : Exn} (hend : Ending t (.error x)) (y : Exn) :
    Ending t (.error y) := by
  cases hend with
  | rejected => exact .rejected
  | failed hresolved hfirst hfallback => exact .failed hresolved hfirst hfallback
  | leaked huncaught => exact .leaked huncaught

/-- The local fallback after a failed call. -/
theorem fallback_meets {b : Backend} {x : Exn} {resolved : List Ref}
    (htally : tally h =
      { granted := [g], resolved := resolved, answers := [(b, .error x)] })
    (hcaught : x.Caught) (hresolved : g.ref ∈ resolved) (request : InferenceRequest) :
    (fallback request).Meets Allowed (fun h out => Ending (tally h) (figures out)) h := by
  refine slot_meets (by rw [htally]) (fun message => ?_) ?_
  · rw [tally_cons, htally]
    exact .failed hresolved (hcaught.of_getLast? rfl) (by simp)
  · have hslot : tally (⟨.acquire, true⟩ :: h) =
        { granted := [g], resolved := resolved, slots := 1, answers := [(b, .error x)] } := by
      rw [tally_cons, htally]
      rfl
    refine Program.Meets.bind (Q := fun h out => tally h =
      { granted := [g], resolved := resolved, slots := 1,
        answers := [(.local, out), (b, .error x)] }) ?_ (fun h result hh => ?_) fun h y hy => ?_
    · refine Program.Meets.call_ofExcept ?_ fun reply => ?_
      · change (tally _).slots = 1 ∧ (tally _).AtCall
        rw [hslot]
        refine ⟨rfl, Or.inr fun g' hg' => ?_⟩
        obtain rfl := List.mem_singleton.mp hg'
        exact hresolved
      · rw [tally_cons, hslot]
        rfl
    · change (tally h).slots = 1 ∧ Ending (tally (⟨.release, ()⟩ :: h)) _
      rw [tally_cons, hh]
      exact ⟨rfl, .fellBack hcaught hresolved⟩
    · dsimp only
      rw [tally_cons, hy]
      exact ⟨rfl, .failed hresolved (hcaught.of_getLast? rfl) (by simp)⟩

/-- The clause for a failed remote call. -/
theorem recoverRemoteFailure_meets {b : Backend} {x : Exn}
    (htally : tally h = { granted := [g], answers := [(b, .error x)] }) (hcaught : x.Caught)
    (request : InferenceRequest) (message : String) :
    (recoverRemoteFailure request (some g.ref) message).Meets Allowed
      (fun h out => Ending (tally h) (figures out)) h := by
  have hfailed : ∀ resolved y, g.ref ∈ resolved →
      Ending { granted := [g], resolved := resolved, answers := [(b, .error x)] } (.error y) := by
    intro resolved y hresolved
    exact .failed hresolved (hcaught.of_getLast? rfl) (by simp)
  have hafter : ∀ h (r : Reservation), (publish
      (.rollbackEvent request.requestId r.id (clip r.reservedCost) message)).Meets Allowed
      (fun h' _ => tally h' = tally h) h := fun h r => ⟨trivial, fun _ => rfl⟩
  refine (rollbackIfPending_meets htally List.mem_cons_self (by simp) hafter).bind
    (fun h _ hh => ?_) fun h y hy => ?_
  · obtain ⟨resolved, hresolved, hh⟩ := hh
    refine Program.Meets.call_bind trivial fun atCapacity => ?_
    refine Program.Meets.ite (fun _ => ?_) fun _ => ?_
    · refine Program.Meets.tryCatch (fallback_meets (b := b) ?_ hcaught hresolved request)
        (fun _ _ hout => hout) fun h y hy => ?_
      · exact hh
      · dsimp only
        split
        · exact hy.reraise _
        · exact hy
    · change Ending (tally h) _
      rw [hh]
      exact hfailed resolved _ hresolved
  · obtain ⟨resolved, hresolved, hh⟩ := hy
    rw [hh]
    exact hfailed resolved y hresolved

/-- A clause that rolls back and raises, for an exception of the backend. -/
theorem rollback_raise_of_raised {b : Backend} {x : Exn}
    (htally : tally h = { granted := [g], answers := [(b, .error x)] }) (hcaught : x.Caught)
    {rest : Handler Execution}
    (hrest : ∀ t h, tally h = t → rest.Meets Allowed
      (fun h out => tally h = t ∧ ∃ x, out = .error x) h) :
    (do
        rollbackIfPending (some g.ref) fun _ => pure ()
        rest : Handler Execution).Meets Allowed
      (fun h out => Ending (tally h) (figures out)) h := by
  exact rollback_raise_meets htally rfl (by simp) rfl rfl (hcaught.of_getLast? rfl) (by simp)
    hrest

/-- **The `except` chain.** -/
theorem recover_meets {x : Exn} (hexecuted : Executed g (tally h) (.error x))
    (request : InferenceRequest) {decision : RoutingDecision}
    (hreservation : decision.reservation = some g.ref) :
    (recover request decision x).Meets Allowed
      (fun h out => Ending (tally h) (figures out)) h := by
  have hthrow : ∀ (y : Exn) t h, tally h = t → (throw y : Handler Execution).Meets Allowed
      (fun h out => tally h = t ∧ ∃ x, out = .error x) h := fun y t h hh => ⟨hh, y, rfl⟩
  have hreject : ∀ t h, tally h = t →
      (do
          publish (.failFast request.requestId "Local queue at capacity at execution time" 503)
          throw (Exn.httpException 503 "Local queue at capacity") : Handler Execution).Meets
        Allowed (fun h out => tally h = t ∧ ∃ x, out = .error x) h := fun t h hh =>
    Program.Meets.call_bind trivial fun _ => ⟨hh, _, rfl⟩
  unfold recover
  rw [hreservation]
  generalize ht : tally h = t at hexecuted
  cases hexecuted with
  | full hcost =>
    exact rollback_raise_meets ht rfl (fun hne => absurd hcost hne) rfl rfl (by simp) (by simp)
      hreject
  | raised =>
    cases x with
    | budget e =>
      cases e with
      | actualCostExceededReservation | actualLatencyExceededReservation =>
        change Ending (tally h) _
        rw [ht]
        exact .leaked id
      | valueError | invalidReservationState =>
        exact rollback_raise_of_raised ht trivial (hthrow _)
    | runtimeError => exact rollback_raise_of_raised ht trivial hreject
    | remoteInferenceError message =>
      exact recoverRemoteFailure_meets ht trivial request message
    | httpException | exception => exact rollback_raise_of_raised ht trivial (hthrow _)
    | baseException =>
      change Ending (tally h) _
      rw [ht]
      exact .leaked id
  | @refused b result e =>
    cases e with
    | actualCostExceededReservation | actualLatencyExceededReservation =>
      change Ending (tally h) _
      rw [ht]
      exact .failed List.mem_cons_self (by simp) (by simp)
    | valueError | invalidReservationState =>
      exact rollback_raise_meets ht rfl (by simp) rfl rfl (by simp) (by simp) (hthrow _)

/-! ### The handler -/

/-- The cost and the latency of a response. -/
def InferenceResponse.figures (response : InferenceResponse) : ℚ × ℚ :=
  (response.actualCost, response.actualLatencyMs)

/-- The end of the handler answers with the figures of the execution. -/
theorem respond_meets {t : Tally} (htally : tally h = t) (request : InferenceRequest)
    (complexityTier : ComplexityTier) (execution : Execution) :
    (respond request complexityTier execution).Meets Allowed
      (fun h out => tally h = t ∧ out.map InferenceResponse.figures = .ok execution.figures) h :=
  Program.Meets.call_bind trivial fun _ => Program.Meets.call_bind trivial fun _ =>
    Program.Meets.call_bind trivial fun _ => ⟨htally, rfl⟩

/-- **The handler** performs its effects as `Allowed` says and ends as `Ending` says. -/
theorem inference_meets (config : Config) (classify : String → ComplexityTier)
    (request : InferenceRequest) :
    (inference config classify request).Meets Allowed
      (fun h out => Ending (tally h) (out.map InferenceResponse.figures)) [] := by
  unfold inference
  dsimp only
  refine (route_meets rfl config request _).bind (fun h decision hrouted => ?_) fun h x hx => ?_
  · generalize ht : tally h = t at hrouted
    cases hrouted with
    | rejected hroute =>
      rw [if_pos hroute]
      refine Program.Meets.call_bind trivial fun _ => Program.Meets.call_bind trivial fun _ => ?_
      change Ending (tally h) _
      rw [ht]
      exact .rejected
    | @admitted _ g hroute hreservation hcost =>
      rw [if_neg hroute]
      refine Program.Meets.call_bind trivial fun _ => Program.Meets.call_bind trivial fun _ => ?_
      refine Program.Meets.call_bind trivial fun _ => Program.Meets.call_bind trivial fun _ => ?_
      refine Program.Meets.bind (Q := fun h out => Ending (tally h) (figures out)) ?_
        (fun h execution hend => ?_) fun h x hx => hx
      · refine Program.Meets.tryCatch (execute_meets (g := g) ?_ request hreservation hcost)
          (fun h execution hexecuted => ?_) fun h x hx => recover_meets hx request hreservation
        · exact ht
        · generalize tally h = t at hexecuted
          cases hexecuted with
          | done hfigures =>
            change Ending _ (.ok execution.figures)
            rw [hfigures]
            exact .served
      · refine (respond_meets rfl request _ execution).mono fun h out hout => ?_
        rw [hout.1, hout.2]
        exact hend
  · dsimp only at hx ⊢
    generalize tally h = t at hx
    cases hx
    exact .rejected

end InferenceRouter
