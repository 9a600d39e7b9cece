import InferenceRouter.Foundation.Weaving
import InferenceRouter.Service.Deployment
import InferenceRouter.Service.Report

/-!
# The requests of the deployed service

What a handler of the deployed service sends to the servers behind its backends, in whatever order
the handlers run. It sends the remote provider one request, at most three times, each time after
transient failures only, and never without the price of a remote call set aside for it. It sends the
local server at most one request, as the last one.

## Main definitions

* `InferenceRouter.sent`: the requests that a handler has sent.
* `InferenceRouter.Traffic`: what they may be.

## Main results

* `InferenceRouter.deployed_traffic`: the requests of the handlers of the deployed service.
-/

namespace InferenceRouter

open Foundation Backends

/-! ### What a handler may send -/

/-- The request in an event of a backend. -/
def request? : Event backendSignature → Option HttpRequest
  | ⟨.post request, _⟩ => some request
  | ⟨.sleep _, _⟩ | ⟨.perfCounter, _⟩ | ⟨.uniform _ _, _⟩ | ⟨.randint _ _, _⟩
  | ⟨.random, _⟩ => none

/-- The requests that have been sent, the latest first. -/
def sent (h : History backendSignature) : List HttpRequest := h.filterMap request?

/-- The price of a remote call has been set aside for the request. -/
def Paid (config : Config) (request : InferenceRequest)
    (g : History (signature.sum backendSignature)) : Prop :=
  ∃ ref latencyMs,
    (⟨.inl (.tryReserve request.requestId config.costPerRemoteRequest latencyMs),
      .ok (some ref)⟩ : Event (signature.sum backendSignature)) ∈ g

/-- What a handler may send: the request to the remote provider, up to three times, or the one to
the local server. -/
def HandlerMaySend (config : Config) (backends : BackendConfig) (request : InferenceRequest)
    (g : History (signature.sum backendSignature)) : Effect ⊕ BackendEffect → Prop
  | .inr (.post r) =>
    backends.backendMode ≠ "mock" ∧
      ((r = tokenrouterRequest backends request.prompt ∧ backends.remoteLlmApiKey ≠ "" ∧
          shouldFail request.prompt = false ∧ Paid config request g ∧
          (∃ n < 3, sent (innerEvents g) = List.replicate n r) ∧
          ∀ ev ∈ requests (innerEvents g), Transient ev) ∨
        (r = ollamaRequest backends request.prompt ∧
          ∀ r' ∈ sent (innerEvents g), r' = tokenrouterRequest backends request.prompt))
  | .inr (.sleep _) | .inr .perfCounter | .inr (.uniform _ _) | .inr (.randint _ _) | .inr .random
  | .inl _ => True

variable {config : Config} {backends : BackendConfig} {classify : String → ComplexityTier}
  {request : InferenceRequest}

@[simp] theorem sent_append (h h' : History backendSignature) :
    sent (h ++ h') = sent h ++ sent h' := List.filterMap_append

theorem length_sent (h : History backendSignature) : (sent h).length = (requests h).length := by
  induction h with
  | nil => rfl
  | cons ev h ih =>
    obtain ⟨e, r⟩ := ev
    cases e with
    | post => exact congrArg (· + 1) ih
    | sleep | perfCounter | uniform | randint | random => exact ih

theorem mem_sent {h : History backendSignature} {r : HttpRequest} (hr : r ∈ sent h) :
    ∃ reply, (⟨.post r, reply⟩ : Event backendSignature) ∈ h := by
  obtain ⟨⟨e, reply⟩, hev, hrequest⟩ := List.mem_filterMap.mp hr
  cases e with
  | post r' =>
    obtain rfl := Option.some.inj hrequest
    exact ⟨reply, hev⟩
  | sleep | perfCounter | uniform | randint | random => cases hrequest

/-! ### The routines -/

/-- Whatever a call of the remote backend has sent is the one request. -/
theorem eq_of_mem_sent_remote {prompt requestId : String} {fail : Bool}
    {h : History backendSignature} {b : BackendProgram BackendResult}
    (answered : (simulateRemoteInference config backends prompt requestId fail).Answered h b)
    {r : HttpRequest} (hr : r ∈ sent h) : r = tokenrouterRequest backends prompt := by
  obtain ⟨reply, hev⟩ := mem_sent hr
  obtain ⟨h', hallowed⟩ := answered.exists_allowed
    (simulateRemoteInference_meets config backends prompt requestId fail) _ hev
  exact hallowed.2.2.2.1

/-- The local backend raises no `RemoteInferenceError`. -/
theorem ne_remoteInferenceError_of_local {prompt requestId : String}
    {h : History backendSignature} {out : Except BackendExn BackendResult}
    (answered : (simulateLocalInference config backends prompt requestId).Answered h
      (Program.ofExcept out)) (message : String) :
    out.mapError BackendExn.toExn ≠ .error (.remoteInferenceError message) := by
  have hanswer := Program.meets_ofExcept.mp (answered.meets
    (simulateLocalInference_meets config backends prompt requestId))
  cases out with
  | ok result => simp [Except.mapError]
  | error x =>
    obtain ⟨message', hx⟩ := toExn_of_isBase hanswer.1
    simp [Except.mapError, hx]

/-- A handler that has called no backend has performed primitive effects only. -/
theorem primitive_of_calls_eq_nil {h : History signature} (hnone : calls h = []) :
    ∀ ev ∈ h, backendImplementation config backends ev.effect = none := by
  rintro ⟨e, r⟩ hev
  have hcall := List.filterMap_eq_nil_iff.mp hnone _ hev
  cases e with
  | simulateLocalInference | simulateRemoteInference => cases hcall
  | tryReserve | commit | rollback | readReservation | budgetSnapshot | activeCount
  | isAtCapacity | maxConcurrency | acquire | release | getEstimate | record | countRoute
  | publish => rfl

/-- Whatever a handler has sent, if every call has failed as remote calls do, is the request to the
remote provider. -/
theorem eq_of_mem_sent_of_failed {h : History signature}
    {g : History (signature.sum backendSignature)}
    (woven : Woven (backendImplementation config backends) h g)
    {q : Handler InferenceResponse} (answered : (inference config classify request).Answered h q)
    (hfailed : Failed h) {r : HttpRequest} (hr : r ∈ sent (innerEvents g)) :
    r = tokenrouterRequest backends request.prompt := by
  obtain ⟨reply, hev⟩ := mem_sent hr
  obtain ⟨e, routine, h', out, hsome, hran, hcall, hev⟩ := woven.exists_call hev
  obtain ⟨h₀, hacts⟩ := answered.exists_allowed (inference_reports config classify request) _ hcall
  have hmem : r ∈ sent h' := List.mem_filterMap.mpr ⟨_, hev, rfl⟩
  cases e with
  | simulateLocalInference prompt requestId =>
    cases hsome
    obtain ⟨message, hmessage⟩ := hfailed _ (List.mem_filterMap.mpr ⟨_, hcall, rfl⟩)
    exact absurd hmessage (ne_remoteInferenceError_of_local hran message)
  | simulateRemoteInference prompt requestId fail =>
    cases hsome
    rw [← hacts.1]
    exact eq_of_mem_sent_remote hran hmem
  | tryReserve | commit | rollback | readReservation | budgetSnapshot | activeCount
  | isAtCapacity | maxConcurrency | acquire | release | getEstimate | record | countRoute
  | publish => cases hsome

/-! ### The handlers -/

theorem Funded.paid {h : History signature} {g : History (signature.sum backendSignature)}
    (hf : Funded config request h) (woven : Woven (backendImplementation config backends) h g)
    (h' : History backendSignature) : Paid config request (lift h' ++ g) := by
  obtain ⟨ref, latencyMs, hmem⟩ := hf
  exact ⟨ref, latencyMs, List.mem_append_right _ (woven.mem_of_none rfl hmem)⟩

/-- **What a handler performs** with its backends is allowed. -/
theorem mayHandlerSend_of_nested {g : History (signature.sum backendSignature)}
    {e : Effect ⊕ BackendEffect}
    (nested : Nested (backendImplementation config backends) (inference config classify request)
      g e) : HandlerMaySend config backends request g e := by
  rcases nested with
      ⟨-, -⟩ | @⟨h, e, k, g', routine, h', e', k', woven, answered, hsome, hinside, hg⟩
  · exact trivial
  have hacts := (answered.meets (inference_reports config classify request)).1
  subst hg
  cases e' with
  | sleep | perfCounter | uniform | randint | random => exact trivial
  | post r =>
    rw [HandlerMaySend, innerEvents_lift_append]
    cases e with
    | simulateRemoteInference prompt requestId fail =>
      cases hsome
      obtain ⟨rfl, rfl, rfl, hcalls, hfunded⟩ := hacts
      obtain ⟨hreal, hkey, hfail, rfl, n, hn, htried⟩ := (hinside.meets
        (simulateRemoteInference_meets config backends _ _ _)).1
      rw [woven.innerEvents_eq_nil (primitive_of_calls_eq_nil hcalls), List.append_nil]
      refine ⟨hreal, Or.inl ⟨rfl, hkey, hfail, hfunded.paid woven h', ⟨n, hn, ?_⟩,
        htried.transient⟩⟩
      refine List.eq_replicate_iff.mpr ⟨(length_sent h').trans htried.length, fun r hr => ?_⟩
      exact eq_of_mem_sent_remote hinside hr
    | simulateLocalInference prompt requestId =>
      cases hsome
      obtain ⟨rfl, rfl, hfailed⟩ := hacts
      obtain ⟨hreal, rfl, hnone⟩ := (hinside.meets
        (simulateLocalInference_meets config backends _ _)).1
      refine ⟨hreal, Or.inr ⟨rfl, fun r hr => ?_⟩⟩
      have hempty : sent h' = [] := List.eq_nil_of_length_eq_zero
        ((length_sent h').trans (congrArg List.length hnone))
      rw [sent_append, hempty, List.nil_append] at hr
      exact eq_of_mem_sent_of_failed woven answered hfailed hr
    | tryReserve | commit | rollback | readReservation | budgetSnapshot | activeCount
    | isAtCapacity | maxConcurrency | acquire | release | getEstimate | record | countRoute
    | publish => cases hsome

/-! ### Runs -/

/-- Every time the request has been sent, all requests before it had failed transiently. -/
def SentAgain (r : HttpRequest) : History backendSignature → Prop
  | [] => True
  | ev :: h => (request? ev = some r → ∀ ev' ∈ requests h, Transient ev') ∧ SentAgain r h

/-- What a handler has sent: the request to the remote provider, at most three times, and each time
with its price set aside and after transient failures only, and then at most one request to the
local server. -/
structure Traffic (config : Config) (backends : BackendConfig) (request : InferenceRequest)
    (g : History (signature.sum backendSignature)) : Prop where
  shape : ∃ n ≤ 3, ∃ last, (last = [] ∨ last = [ollamaRequest backends request.prompt]) ∧
    sent (innerEvents g) =
      last ++ List.replicate n (tokenrouterRequest backends request.prompt)
  remote : tokenrouterRequest backends request.prompt ∈ sent (innerEvents g) →
    backends.remoteLlmApiKey ≠ "" ∧ shouldFail request.prompt = false ∧ Paid config request g
  real : sent (innerEvents g) ≠ [] → backends.backendMode ≠ "mock"
  again : SentAgain (tokenrouterRequest backends request.prompt) (innerEvents g)

theorem ollamaRequest_ne_tokenrouterRequest (prompt prompt' : String) :
    ollamaRequest backends prompt ≠ tokenrouterRequest backends prompt' := by
  intro heq
  have hjson := congrArg HttpRequest.json heq
  cases hjson

theorem Paid.cons {g : History (signature.sum backendSignature)} (hpaid : Paid config request g)
    (ev : Event (signature.sum backendSignature)) : Paid config request (ev :: g) := by
  obtain ⟨ref, latencyMs, hmem⟩ := hpaid
  exact ⟨ref, latencyMs, List.mem_cons_of_mem _ hmem⟩

namespace Traffic

variable {g : History (signature.sum backendSignature)}

theorem start : Traffic config backends request [] where
  shape := ⟨0, Nat.zero_le 3, [], Or.inl rfl, rfl⟩
  remote h := by cases h
  real h := absurd rfl h
  again := trivial

/-- An event that is not a request. -/
theorem keep (ht : Traffic config backends request g) {ev : Event (signature.sum backendSignature)}
    (hsent : sent (innerEvents (ev :: g)) = sent (innerEvents g))
    (hagain : SentAgain (tokenrouterRequest backends request.prompt) (innerEvents (ev :: g))) :
    Traffic config backends request (ev :: g) where
  shape := hsent.symm ▸ ht.shape
  remote h := by
    obtain ⟨hkey, hfail, hpaid⟩ := ht.remote (hsent ▸ h)
    exact ⟨hkey, hfail, hpaid.cons ev⟩
  real := hsent.symm ▸ ht.real
  again := hagain

/-- The request to the remote provider. -/
theorem sendRemote (ht : Traffic config backends request g) {n : ℕ} (hn : n < 3)
    (hreal : backends.backendMode ≠ "mock") (hkey : backends.remoteLlmApiKey ≠ "")
    (hfail : shouldFail request.prompt = false) (hpaid : Paid config request g)
    (hsent : sent (innerEvents g) =
      List.replicate n (tokenrouterRequest backends request.prompt))
    (htransient : ∀ ev ∈ requests (innerEvents g), Transient ev)
    (reply : BackendEffect.Reply (.post (tokenrouterRequest backends request.prompt))) :
    Traffic config backends request
      (⟨.inr (.post (tokenrouterRequest backends request.prompt)), reply⟩ :: g) where
  shape := ⟨n + 1, hn, [], Or.inl rfl, congrArg (_ :: ·) hsent⟩
  remote _ := ⟨hkey, hfail, hpaid.cons _⟩
  real _ := hreal
  again := ⟨fun _ => htransient, ht.again⟩

/-- The request to the local server. -/
theorem sendLocal (ht : Traffic config backends request g)
    (hreal : backends.backendMode ≠ "mock")
    (hsent : ∀ r ∈ sent (innerEvents g), r = tokenrouterRequest backends request.prompt)
    (reply : BackendEffect.Reply (.post (ollamaRequest backends request.prompt))) :
    Traffic config backends request
      (⟨.inr (.post (ollamaRequest backends request.prompt)), reply⟩ :: g) where
  shape := by
    obtain ⟨n, hn, last, hlast, hshape⟩ := ht.shape
    refine ⟨n, hn, [_], Or.inr rfl, congrArg (_ :: ·) ?_⟩
    rcases hlast with rfl | rfl
    · exact hshape
    · rw [hshape] at hsent
      exact absurd (hsent _ List.mem_cons_self) (ollamaRequest_ne_tokenrouterRequest _ _)
  remote h := by
    have hold : tokenrouterRequest backends request.prompt ∈ sent (innerEvents g) :=
      (List.mem_cons.mp h).resolve_left (ollamaRequest_ne_tokenrouterRequest _ _).symm
    obtain ⟨hkey, hfail, hpaid⟩ := ht.remote hold
    exact ⟨hkey, hfail, hpaid.cons _⟩
  real _ := hreal
  again := ⟨fun heq => absurd (Option.some.inj heq) (ollamaRequest_ne_tokenrouterRequest _ _),
    ht.again⟩

/-- **What one effect adds.** -/
theorem step (ht : Traffic config backends request g) {e : Effect ⊕ BackendEffect}
    (r : (signature.sum backendSignature).Reply e)
    (he : HandlerMaySend config backends request g e) :
    Traffic config backends request (⟨e, r⟩ :: g) := by
  rcases e with e | e
  · exact ht.keep rfl ht.again
  · cases e with
    | post request' =>
      obtain ⟨hreal, ⟨rfl, hkey, hfail, hpaid, ⟨n, hn, hsent⟩, htransient⟩ | ⟨rfl, hsent⟩⟩ := he
      · exact ht.sendRemote hn hreal hkey hfail hpaid hsent htransient r
      · exact ht.sendLocal hreal hsent r
    | sleep | perfCounter | uniform | randint | random => exact ht.keep rfl ⟨nofun, ht.again⟩

end Traffic

/-- **The requests of the deployed service.** In every reachable state, every handler has sent the
remote provider one request, at most three times, always with the price of a remote call set aside
for it and after transient failures only, and has sent the local server at most one request, as the
last one. In mock mode it has sent nothing. -/
theorem deployed_traffic {clock : ℚ} {q : Pool (deployment config backends classify)}
    {tr : List (Pool (deployment config backends classify) ×
      Choice (deployment config backends classify))}
    (run : Run Pool.Step (initialDeployment config backends classify clock) tr q) :
    ∀ u ∈ q.threads, Traffic config backends u.arg u.history := by
  intro u hu
  have hmeets := Program.implement_meets (backendImplementation config backends)
    (inference config classify u.arg)
  refine (Pool.answered_of_run rfl run u hu).along hmeets .start fun g e r hnested ht => ?_
  exact ht.step r (mayHandlerSend_of_nested hnested)

/-- The production defaults with a key of the provider. -/
def keyedBackends : BackendConfig := { BackendConfig.default with remoteLlmApiKey := "key" }

/-- A run in which no server can be reached: the remote request is sent three times, and then the
local one once. -/
theorem deployed_traffic_unreachable : ∃ tr q,
    Run Pool.Step (initialDeployment .default keyedBackends (fun _ => .quality) 0) tr q ∧
      (q.threads.map fun u => (sent (innerEvents u.history)).length) = [4] ∧
      ∀ u ∈ q.threads, Traffic .default keyedBackends u.arg u.history := by
  obtain ⟨tr, q, run, hlength⟩ := Pool.exists_run
    (P := fun (q : Pool (deployment .default keyedBackends fun _ => .quality)) =>
      (q.threads.map fun u => (sent (innerEvents u.history)).length) = [4])
    (initialDeployment .default keyedBackends (fun _ => .quality) 0) (sampleDeployment 25)
    (by decide +kernel)
  exact ⟨tr, q, run, hlength, deployed_traffic run⟩

end InferenceRouter
