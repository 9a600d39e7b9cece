import InferenceRouter.Dashboard.Rows
import InferenceRouter.Service.Journal

/-!
# What the dashboard tells about a request

The row of a request, on a page that gets the events of a client that keeps up, tells how the
handler has ended: its badge is `OK` exactly if the handler has answered, and then its figures are
those of the response.

## Main definitions

* `InferenceRouter.AnswersFor`: the response is that of the local fallback.
* `InferenceRouter.Shows`: the row tells the outcome of the handler, and the route decided.

## Main results

* `InferenceRouter.dashboard_of_run`.
-/

namespace InferenceRouter

open Foundation

/-- The response is that of a local execution, at no cost, for a failed call of the backend of the
route. -/
def AnswersFor (route : RouteDecision) (response : InferenceResponse)
    (as : List (Backend × Except Exn BackendResult)) : Prop :=
  response.route = .queueLocal ∧ response.actualCost = 0 ∧
    ∃ message, (route.backend, .error (.remoteInferenceError message)) ∈ as

/-- The row of a request tells how its handler has ended, which has published `ps` and called the
backends with the answers `as`. -/
structure Shows (request : InferenceRequest) (out : Except Exn InferenceResponse)
    (ps : List Payload) (as : List (Backend × Except Exn BackendResult)) (row : Option Row) :
    Prop where
  /-- A response is shown, with its figures and the route that has been decided. This is the route
  of the response, unless a local execution has answered for a failed call. -/
  answered : ∀ response, out = .ok response → ∃ r route, row = some r ∧ r.cells.status = .ok ∧
    r.cells.cost = some (clip response.actualCost) ∧
    r.cells.latency = some (clip response.actualLatencyMs) ∧
    r.cells.tokens = some (response.promptTokens, response.completionTokens,
      response.cacheReadTokens, response.cacheWriteTokens) ∧
    r.cells.route = some route ∧ (∃ decided ∈ ps, Decided request route decided) ∧
    (response.route = route ∨ AnswersFor route response as)
  ok : ∀ r, row = some r → r.cells.status = .ok → ∃ response, out = .ok response
  failFast : ∀ r, row = some r → r.cells.status = .failFast →
    ∃ reason, out = .error (.httpException 503 reason)
  /-- A marked row that is `OK` is that of a fallback. -/
  marked : ∀ r response, row = some r → r.isRollback → out = .ok response →
    ∃ route, (∃ decided ∈ ps, Decided request route decided) ∧ AnswersFor route response as

variable {request : InferenceRequest} {out : Except Exn InferenceResponse} {ps : List Payload}
  {as : List (Backend × Except Exn BackendResult)}

/-- The rollback after a failed call tells nothing about the decision. -/
theorem Told.lastInfo_append {message : String} {rollback : List Payload} {refs : List Ref}
    (h : Told request message rollback refs) (ps : List Payload) :
    lastInfo (rollback ++ ps) = lastInfo ps := by
  cases h with
  | nothing => rfl
  | rollback hrollback =>
    obtain ⟨reservationId, returned, rfl⟩ := hrollback
    rfl

/-- The route of a decision. -/
theorem lastInfo_decided {route : RouteDecision} {decided : Payload}
    (hdecided : Decided request route decided) :
    (lastInfo [decided]).map RequestInfo.route = some route := by
  obtain ⟨-, tier, reason, estimatedLatencyMs, queueDepth, liquidBudget, rfl⟩ := hdecided
  rfl

/-- A handler that has raised is not shown as `OK`. -/
theorem Shows.of_error {x : Exn} {row : Option Row}
    (hnot : ∀ r, row = some r → r.cells.status ≠ .ok)
    (hfail : ∀ r, row = some r → r.cells.status = .failFast →
      ∃ reason, x = .httpException 503 reason) : Shows request (.error x) ps as row where
  answered _ h := by cases h
  ok r hr hok := absurd hok (hnot r hr)
  failFast r hr hbadge := by
    obtain ⟨reason, rfl⟩ := hfail r hr hbadge
    exact ⟨reason, rfl⟩
  marked _ _ _ _ h := by cases h

/-- A handler that has answered is shown with its completion. -/
theorem Shows.of_completion {response : InferenceResponse} {outcome : String}
    (houtcome : outcome = "committed" ∨ outcome = "fallback_local") {route : RouteDecision}
    (hdecided : ∃ decided ∈ ps, Decided request route decided)
    (hinfo : (lastInfo ps).map RequestInfo.route = some route)
    (hroute : response.route = route ∨ AnswersFor route response as)
    (hmarked : ps.any Payload.isRollback → AnswersFor route response as) :
    Shows request (.ok response) (response.completion outcome :: ps) as
      (rowOf (response.completion outcome :: ps)) := by
  have hne : outcome ≠ "" := by rcases houtcome with rfl | rfl <;> decide
  have hstatus : statusBadge (response.completion outcome) = .ok := by
    rw [InferenceResponse.completion, statusBadge, if_neg hne, if_pos houtcome]
  have hcells : (cells (response.completion outcome) (lastInfo ps)).route = some route := by
    obtain ⟨info, hlast, rfl⟩ := Option.map_eq_some_iff.mp hinfo
    rw [hlast]
    rfl
  have hrow : rowOf (response.completion outcome :: ps) =
      some ⟨cells (response.completion outcome) (lastInfo ps), ps.any Payload.isRollback⟩ := rfl
  have hpublished : ∃ decided ∈ response.completion outcome :: ps,
      Decided request route decided := by
    obtain ⟨decided, hmem, hdecided⟩ := hdecided
    exact ⟨decided, List.mem_cons_of_mem _ hmem, hdecided⟩
  rw [hrow]
  constructor
  · intro response' heq
    obtain rfl := Except.ok.inj heq
    exact ⟨_, route, rfl, hstatus, rfl, rfl, rfl, hcells, hpublished, hroute⟩
  · exact fun _ _ _ => ⟨response, rfl⟩
  · intro r hr hbadge
    obtain rfl := Option.some.inj hr
    cases hstatus.symm.trans hbadge
  · intro r response' hr hrollback heq
    obtain rfl := Except.ok.inj heq
    obtain rfl := Option.some.inj hr
    exact ⟨route, hpublished, hmarked hrollback⟩

/-- A handler that has published at most a rollback after its decision is not shown as ended. -/
theorem Shows.of_decided {message : String} {rollback : List Payload} {refs : List Ref}
    {route : RouteDecision} {decided : Payload} (hdecided : Decided request route decided)
    (htold : Told request message rollback refs) (x : Exn) :
    Shows request (.error x) (rollback ++ [decided]) as (rowOf (rollback ++ [decided])) := by
  have hbadge : ∀ r, rowOf (rollback ++ [decided]) = some r →
      r.cells.status = .rollback ∨ r.cells.status = .pending := by
    intro r hr
    cases htold with
    | nothing =>
      obtain ⟨-, tier, reason, estimatedLatencyMs, queueDepth, liquidBudget, rfl⟩ := hdecided
      obtain rfl := Option.some.inj hr
      exact .inr rfl
    | rollback hrollback =>
      obtain ⟨reservationId, returned, rfl⟩ := hrollback
      obtain rfl := Option.some.inj hr
      exact .inl rfl
  refine .of_error (fun r hr hok => ?_) fun r hr hfail => ?_
  · rcases hbadge r hr with h | h <;> cases h.symm.trans hok
  · rcases hbadge r hr with h | h <;> cases h.symm.trans hfail

/-- **The account of a handler** tells how it has ended. -/
theorem Reported.shows {refs : List Ref} (h : Reported request out ps as refs) :
    Shows request out ps as (rowOf ps) := by
  cases h with
  | unrouted => exact .of_error (fun _ hr => by cases hr) fun _ hr => by cases hr
  | @rejected reason =>
    refine .of_error (fun r hr => ?_) fun _ _ _ => ⟨reason, rfl⟩
    obtain rfl := Option.some.inj hr
    exact StatusBadge.noConfusion
  | @served route decided result response hdecided htells hroute hcost =>
    refine .of_completion (.inl rfl) ⟨decided, List.mem_cons_self, hdecided⟩
      (lastInfo_decided hdecided) (.inl hroute) fun hmarked => ?_
    obtain ⟨-, tier, reason, estimatedLatencyMs, queueDepth, liquidBudget, rfl⟩ := hdecided
    cases hmarked
  | @fellBack route decided rollback refs message result response hdecided htold htells hroute
      hcost =>
    have hfell : AnswersFor route response [(.local, .ok result),
        (route.backend, .error (.remoteInferenceError message))] :=
      ⟨hroute, hcost, message, List.mem_cons_of_mem _ List.mem_cons_self⟩
    have hinfo : (lastInfo (rollback ++ [decided])).map RequestInfo.route = some route := by
      rw [htold.lastInfo_append]
      exact lastInfo_decided hdecided
    exact .of_completion (.inr rfl)
      ⟨decided, List.mem_append_right _ List.mem_cons_self, hdecided⟩ hinfo (.inr hfell)
      fun _ => hfell
  | full =>
    refine .of_error (fun r hr => ?_) fun _ _ _ => ⟨_, rfl⟩
    obtain rfl := Option.some.inj hr
    exact StatusBadge.noConfusion
  | failed hdecided =>
    have hnothing : Told request "" [] [] := .nothing
    exact .of_decided hdecided hnothing _
  | unanswered hdecided htold => exact .of_decided hdecided htold _

variable {config : Config} {classify : String → ComplexityTier}
  {p : Pool (service config classify)}
  {tr : List (Pool (service config classify) × Choice (service config classify))}

/-- **The dashboard tells the truth about a request.** On a page that has got the messages which a
client has taken, the client keeping up with a request and having taken all events about it, the row
of the request tells how its handler has ended, whatever other requests, test runs and replies the
page has heard of. -/
theorem dashboard_of_run (run : Run Pool.Step (initial config classify) tr p)
    {t : Thread (service config classify)} {id : String} (honly : withId id p.threads = [t])
    {s : ℕ × EventQueue} (hs : s ∈ p.state.eventBus.subscribers) (hkeeps : KeepsUp s.1 id tr)
    (hdrained : about id (payloadsOf s.2.items) = []) {es : List PageEvent}
    (hpage : messages es = takenBy s.1 tr) {out : Except Exn InferenceResponse}
    (hout : t.outcome = some out) :
    Shows t.arg out (published t.history) (calls t.history) ((Page.after es).rows.get? id) := by
  have hmem : t ∈ withId id p.threads := by simp [honly]
  have haccount : about id (payloads es) = published t.history := by
    rw [payloads, hpage, ← journal_eq run honly, ← about_takenBy run hs hkeeps, payloadsOf,
      payloadsOf, about, about, List.filterMap_append, List.filter_append, List.filterMap_reverse,
      List.filter_reverse]
    rw [about, payloadsOf] at hdrained
    rw [hdrained]
    rfl
  rw [Page.get?_rows, haccount]
  exact (reported_of_run run (List.mem_of_mem_filter hmem) hout).shows

/-- The page that gets some messages, all with plain ids. -/
theorem exists_messages {ms : List Message} (hplain : ∀ m ∈ ms, IsPlain m.id) :
    ∃ es, messages es = ms := by
  induction ms with
  | nil => exact ⟨[], rfl⟩
  | cons m ms ih =>
    obtain ⟨hm, hms⟩ := List.forall_mem_cons.mp hplain
    obtain ⟨es, hes⟩ := ih hms
    exact ⟨.message m hm :: es, congrArg (m :: ·) hes⟩

/-- A page on which a request of a test run is shown as `OK`, with the latency of its response. -/
theorem dashboard_of_served : ∃ tr p,
    Run Pool.Step (initial .default fun _ => .quality) tr p ∧ ∃ es r,
      (Page.after es).rows.get? sampleRequest.requestId = some r ∧ r.cells.status = .ok ∧
        r.cells.latency = some 7 := by
  obtain ⟨tr, p, run, hone, hanswered, hclients, htaken⟩ := Pool.exists_run_trace
    (P := fun tr (p : Pool (service .default fun _ => .quality)) =>
      (withId sampleRequest.requestId p.threads).length = 1 ∧
      (∀ t ∈ withId sampleRequest.requestId p.threads,
        (t.outcome.bind Except.toOption).map InferenceResponse.actualLatencyMs = some 7) ∧
      p.state.eventBus.subscribers.length = 1 ∧
      ∀ s ∈ p.state.eventBus.subscribers, s.2.items.length = 0 ∧
        KeepsUp s.1 sampleRequest.requestId tr ∧ ∀ m ∈ takenBy s.1 tr, IsPlain m.id)
    (initial .default fun _ => .quality)
    (.act .connect :: .act (.mark (.runStart "run")) :: .spawn sampleRequest ::
      (advance 0 15 { answer := .ok (sampleResult 0 7) } ++
        [.act (.consume 0), .act (.consume 0), .act (.consume 0)]))
    (by decide +kernel)
  obtain ⟨t, honly⟩ := List.length_eq_one_iff.mp hone
  obtain ⟨s, hs⟩ := List.length_eq_one_iff.mp hclients
  have hmem : s ∈ p.state.eventBus.subscribers := by simp [hs]
  obtain ⟨hempty, hkeeps, hplain⟩ := htaken s hmem
  obtain ⟨es, hpage⟩ := exists_messages hplain
  obtain ⟨response, hbind, hlatency⟩ := Option.map_eq_some_iff.mp (hanswered t (by simp [honly]))
  obtain ⟨out, hout, hok⟩ := Option.bind_eq_some_iff.mp hbind
  have hdrained : about sampleRequest.requestId (payloadsOf s.2.items) = [] := by
    rw [List.length_eq_zero_iff.mp hempty]
    rfl
  have hshows := dashboard_of_run run honly hmem hkeeps hdrained hpage hout
  cases out with
  | error x => cases hok
  | ok response' =>
    obtain rfl : response' = response := Option.some.inj hok
    obtain ⟨r, -, hrow, hstatus, -, hshown, -⟩ := hshows.answered response' rfl
    have hclip : clip 7 = 7 := by norm_num [clip]
    exact ⟨tr, p, run, es, r, hrow, hstatus, by rw [hshown, hlatency, hclip]⟩

end InferenceRouter
