import InferenceRouter.Backends.Inference

/-!
# What the backends answer

A call of a backend ends in one of two ways, whatever the servers and the clock do: with a result
whose cost is the price of the tokens that it reports, and whose latency is the time that has
passed, or with an exception. The remote backend raises `RemoteInferenceError`, the local one
nothing, apart from the exceptions outside `Exception` that end a pause or a request.

On its way a call of the remote backend sends the same request up to three times, and again only
after a transient failure and a pause. A call of the local one sends a request at most once.

## Main definitions

* `InferenceRouter.BackendConfig.tokenCost`: the price of the tokens of a result.
* `InferenceRouter.Backends.LocalAnswer`, `InferenceRouter.Backends.RemoteAnswer`: the contract.
* `InferenceRouter.Backends.LocalMaySend`, `InferenceRouter.Backends.RemoteMaySend`: the requests
  that a call may send.

## Main results

* `InferenceRouter.Backends.executeTokenrouterRequest_meets`: the request with its retries.
* `InferenceRouter.Backends.simulateLocalInference_meets`,
  `InferenceRouter.Backends.simulateRemoteInference_meets`: the backends keep to the contract.
-/

namespace InferenceRouter

open Foundation BackendProgram

/-! ### The contract -/

/-- The price of the tokens that a result reports. -/
def BackendConfig.tokenCost (backends : BackendConfig) (result : BackendResult) : ℚ :=
  result.promptTokens * backends.remoteLlmInputPricePerToken +
    result.completionTokens * backends.remoteLlmOutputPricePerToken +
    result.cacheReadTokens * backends.remoteLlmCacheReadPricePerToken +
    result.cacheWriteTokens * backends.remoteLlmCacheWritePricePerToken

namespace Backends

/-- The readings of the clock in a history are in order. -/
def Ordered (h : History backendSignature) : Prop := (readings h).Pairwise (· ≥ ·)

/-- What a call of the local backend ends in. -/
def LocalAnswer (requestId : String) (h : History backendSignature) :
    Except BackendExn BackendResult → Prop
  | .ok result =>
    result.requestId = requestId ∧ result.actualCost = 0 ∧ (Ordered h → 0 ≤ result.actualLatencyMs)
  | .error x => x.IsBase ∧ Interrupted h

/-- What a call of the remote backend ends in. -/
def RemoteAnswer (backends : BackendConfig) (requestId : String) (shouldFail : Bool)
    (h : History backendSignature) : Except BackendExn BackendResult → Prop
  | .ok result =>
    shouldFail = false ∧ result.requestId = requestId ∧
      result.actualCost = backends.tokenCost result ∧ (Ordered h → 0 ≤ result.actualLatencyMs)
  | .error x => (∃ message, x = .remoteInferenceError message) ∨ x.IsBase ∧ Interrupted h

/-! ### Requests -/

/-- The event is a request. -/
def isRequest : Event backendSignature → Bool
  | ⟨.post _, _⟩ => true
  | ⟨.sleep _, _⟩ | ⟨.perfCounter, _⟩ | ⟨.uniform _ _, _⟩ | ⟨.randint _ _, _⟩
  | ⟨.random, _⟩ => false

/-- The requests of a history, the latest first. -/
def requests (h : History backendSignature) : History backendSignature := h.filter isRequest

/-- The length of the pause in an event. -/
def pause : Event backendSignature → Option ℚ
  | ⟨.sleep seconds, _⟩ => some seconds
  | ⟨.post _, _⟩ | ⟨.perfCounter, _⟩ | ⟨.uniform _ _, _⟩ | ⟨.randint _ _, _⟩ | ⟨.random, _⟩ => none

/-- The pauses of a history, the latest first. -/
def pauses (h : History backendSignature) : List ℚ := h.filterMap pause

/-- The exception asks for another attempt, as it is or once it has been translated. -/
def Unreachable : BackendExn → Prop
  | .transientRemoteError _ | .timeoutException _ _ | .connectError _ => True
  | .remoteInferenceError _ | .exception _ _ | .baseException _ => False

/-- The event is a request that has failed in a way that asks for another attempt. -/
def Transient : Event backendSignature → Prop
  | ⟨.post _, .ok resp⟩ => resp.statusCode ∈ transientStatus
  | ⟨.post _, .error x⟩ => Unreachable x
  | ⟨.sleep _, _⟩ | ⟨.perfCounter, _⟩ | ⟨.uniform _ _, _⟩ | ⟨.randint _ _, _⟩
  | ⟨.random, _⟩ => False

/-- All the requests of the history have failed in a way that asks for another attempt, and each
has been followed by its pause. -/
structure Tried (n : ℕ) (h : History backendSignature) : Prop where
  length : (requests h).length = n
  transient : ∀ ev ∈ requests h, Transient ev
  pauses : (pauses h).reverse = [1, 2].take n

/-- What the request with its retries may perform: `request` up to three times, and the pause
between two of them after a transient failure. -/
def Executes (request : HttpRequest) (h : History backendSignature) : BackendEffect → Prop
  | .post request' => request' = request ∧ ∃ n < 3, Tried n h
  | .sleep seconds =>
    ∃ n < 2, [1, 2][n]? = some seconds ∧ (requests h).length = n + 1 ∧
      ∀ ev ∈ requests h, Transient ev
  | .perfCounter | .uniform _ _ | .randint _ _ | .random => False

/-- What the request with its retries ends in: with the last response, with a transient failure
after three of them, or with an exception of the last request or of an interrupted pause. -/
def Executed (request : HttpRequest) (h : History backendSignature) :
    Except BackendExn (HttpResponse request.json.Data) → Prop
  | .ok resp => h.head? = some ⟨.post request, .ok resp⟩ ∧ resp.statusCode ∉ transientStatus
  | .error x => (x.isTransient = true → (requests h).length = 3 ∧ ∀ ev ∈ requests h, Transient ev) ∧
      (x.IsBase → Interrupted h)

/-- The requests that a call of the local backend may send: one, in real mode. -/
def LocalMaySend (backends : BackendConfig) (prompt : String) (h : History backendSignature) :
    BackendEffect → Prop
  | .post request =>
    backends.backendMode ≠ "mock" ∧ request = ollamaRequest backends prompt ∧ requests h = []
  | .sleep _ | .perfCounter | .uniform _ _ | .randint _ _ | .random => True

/-- The requests that a call of the remote backend may send: the same one up to three times, in
real mode, with an API key and without an injected failure. -/
def RemoteMaySend (backends : BackendConfig) (prompt : String) (shouldFail : Bool)
    (h : History backendSignature) : BackendEffect → Prop
  | .post request =>
    backends.backendMode ≠ "mock" ∧ backends.remoteLlmApiKey ≠ "" ∧ shouldFail = false ∧
      request = tokenrouterRequest backends prompt ∧ ∃ n < 3, Tried n h
  | .sleep _ | .perfCounter | .uniform _ _ | .randint _ _ | .random => True

/-- What is not a request is always allowed. -/
def Unrestricted (allowed : History backendSignature → BackendEffect → Prop) : Prop :=
  ∀ h e, (∀ request, e ≠ .post request) → allowed h e

theorem unrestricted_local (backends : BackendConfig) (prompt : String) :
    Unrestricted (LocalMaySend backends prompt) := by
  intro h e he
  cases e with
  | post request => exact absurd rfl (he request)
  | sleep | perfCounter | uniform | randint | random => trivial

theorem unrestricted_remote (backends : BackendConfig) (prompt : String) (shouldFail : Bool) :
    Unrestricted (RemoteMaySend backends prompt shouldFail) := by
  intro h e he
  cases e with
  | post request => exact absurd rfl (he request)
  | sleep | perfCounter | uniform | randint | random => trivial

/-! ### Readings of the clock -/

variable {h h' : History backendSignature}

theorem Ordered.of_timed {clock : ℚ} (ht : Timed clock h) : Ordered h :=
  (List.pairwise_cons.mp ht).2

theorem mem_readings_of_suffix {x : ℚ} (hx : x ∈ readings h) (hsuffix : h <:+ h') :
    x ∈ readings h' :=
  (hsuffix.sublist.filterMap reading).subset hx

/-- The time between two readings is not negative. -/
theorem elapsed_nonneg {start stop : ℚ} (hstart : start ∈ readings h)
    (hordered : Ordered (⟨.perfCounter, stop⟩ :: h)) : 0 ≤ (stop - start) * 1000 := by
  have hle : start ≤ stop := (List.pairwise_cons.mp hordered).1 start hstart
  linarith

/-! ### The mocks -/

section Mocks

variable {allowed : History backendSignature → BackendEffect → Prop}

/-- A pause ends by itself, or with an exception outside `Exception` that interrupts it. -/
theorem sleep_meets {seconds : ℚ} (hsleep : allowed h (.sleep seconds)) :
    (sleep seconds).Meets allowed (fun h' out => match out with
      | .ok _ => h' = ⟨.sleep seconds, none⟩ :: h
      | .error x => x.IsBase ∧ ∃ ev, Interrupts ev ∧ h' = ev :: h) h := by
  refine Program.Meets.call_bind hsleep fun reply => ?_
  cases reply with
  | none => exact rfl
  | some message => exact ⟨trivial, ⟨.sleep seconds, some message⟩, rfl, rfl⟩

theorem interrupted_cons {ev : Event backendSignature} (hev : Interrupts ev) :
    Interrupted (ev :: h) := ⟨ev, List.mem_cons_self, hev⟩

/-- The text of a response has been interrupted. -/
theorem interrupts_of_json {request : HttpRequest} {resp : HttpResponse request.json.Data}
    {x : BackendExn} (hjson : resp.json = .error x) (hbase : x.IsBase) :
    Interrupts ⟨.post request, .ok resp⟩ := by
  simp only [Interrupts]
  rw [hjson]
  exact hbase

theorem mockLocalInference_meets (hallowed : Unrestricted allowed) (config : Config)
    (prompt requestId : String) (h : History backendSignature) :
    (mockLocalInference config prompt requestId).Meets allowed (LocalAnswer requestId) h := by
  refine Program.Meets.call_bind (hallowed _ _ (by simp)) fun jitter =>
    Program.Meets.call_bind (hallowed _ _ (by simp)) fun start =>
    (sleep_meets (hallowed _ _ (by simp))).bind (fun h' _ hsleep => ?_) ?_
  · obtain rfl := hsleep
    refine Program.Meets.call_bind (hallowed _ _ (by simp)) fun stop => ⟨rfl, rfl, ?_⟩
    exact elapsed_nonneg List.mem_cons_self
  · rintro h' x ⟨hbase, ev, hev, rfl⟩
    exact ⟨hbase, interrupted_cons hev⟩

/-- The rule for a number that is drawn on a hit, in front of a program. -/
theorem randintOrZero_bind (hallowed : Unrestricted allowed) {a b : ℤ}
    {f : ℤ → BackendProgram BackendResult}
    {Q : History backendSignature → Except BackendExn BackendResult → Prop}
    (hf : ∀ h' n, readings h' = readings h → (f n).Meets allowed Q h') :
    (randintOrZero a b >>= f).Meets allowed Q h := by
  have hdraw : (randintOrZero a b).Meets allowed
      (fun h' out => readings h' = readings h ∧ ∃ n, out = .ok n) h := by
    refine Program.Meets.call_bind (hallowed _ _ (by simp)) fun x =>
      Program.Meets.ite (fun _ => ?_) fun _ => ?_
    · exact Program.Meets.call_bind (hallowed _ _ (by simp)) fun n => ⟨rfl, n.1, rfl⟩
    · exact ⟨rfl, 0, rfl⟩
  refine hdraw.bind (fun h' n hn => ?_) fun h' x hx => ?_
  · exact hf h' n hn.1
  · obtain ⟨-, m, heq⟩ := hx
    cases heq

/-- The mock of the remote backend fails exactly if it is told to. -/
theorem mockRemoteInference_meets (hallowed : Unrestricted allowed) (config : Config)
    (backends : BackendConfig) (requestId : String) (shouldFail : Bool)
    (h : History backendSignature) :
    (mockRemoteInference config backends requestId shouldFail).Meets allowed
      (RemoteAnswer backends requestId shouldFail) h := by
  refine Program.Meets.call_bind (hallowed _ _ (by simp)) fun jitter =>
    Program.Meets.call_bind (hallowed _ _ (by simp)) fun start =>
    (sleep_meets (hallowed _ _ (by simp))).bind (fun h' _ hsleep => ?_) ?_
  · obtain rfl := hsleep
    refine Program.Meets.call_bind (hallowed _ _ (by simp)) fun stop => ?_
    cases shouldFail with
    | true => exact Or.inl ⟨_, rfl⟩
    | false =>
      refine Program.Meets.call_bind (hallowed _ _ (by simp)) fun promptTokens =>
        Program.Meets.call_bind (hallowed _ _ (by simp)) fun completionTokens => ?_
      refine randintOrZero_bind hallowed fun h₂ cacheReadTokens hreadings =>
        randintOrZero_bind hallowed fun h₃ cacheWriteTokens hreadings' => ?_
      refine ⟨rfl, rfl, rfl, fun hordered => ?_⟩
      rw [Ordered, hreadings', hreadings] at hordered
      exact elapsed_nonneg List.mem_cons_self hordered
  · rintro h' x ⟨hbase, ev, hev, rfl⟩
    exact Or.inr ⟨hbase, interrupted_cons hev⟩

end Mocks

/-! ### The local backend -/

/-- The outcome is an exception that the public functions know how to handle. -/
def Expected (h : History backendSignature) : BackendExn → Prop
  | .remoteInferenceError _ => True
  | .baseException _ => Interrupted h
  | .transientRemoteError _ | .timeoutException _ _ | .connectError _ | .exception _ _ => False

theorem callOllama_meets {backends : BackendConfig} (hreal : backends.backendMode ≠ "mock")
    (prompt requestId : String) :
    (callOllama backends prompt requestId).Meets (LocalMaySend backends prompt)
      (fun h out => match out with
        | .ok _ => LocalAnswer requestId h out
        | .error x => Expected h x) [] := by
  refine Program.Meets.call_bind trivial fun start => ?_
  refine Program.Meets.tryCatch (R := fun h out => match out with
      | .ok _ => LocalAnswer requestId h out
      | .error x => x.IsBase → Interrupted h) ?_
    (fun h result hresult => hresult) fun h x hx => ?_
  · refine Program.Meets.call_bind ⟨hreal, rfl, rfl⟩ fun reply => ?_
    cases reply with
    | error x => exact fun hbase => interrupted_cons hbase
    | ok resp =>
      refine Program.Meets.call_bind trivial fun stop =>
        Program.Meets.ite (fun _ => nofun) fun _ => ?_
      cases hjson : resp.json with
      | error x =>
        exact fun hbase =>
          ⟨_, List.mem_cons_of_mem _ List.mem_cons_self, interrupts_of_json hjson hbase⟩
      | ok data =>
        exact ⟨rfl, rfl, elapsed_nonneg (List.mem_singleton.mpr rfl)⟩
  · cases x with
    | remoteInferenceError => exact trivial
    | baseException => exact hx trivial
    | timeoutException | connectError | transientRemoteError | exception =>
      exact Program.Meets.call_bind trivial fun _ => trivial

/-- **The local backend** answers for free, and raises nothing but what interrupts a pause or a
request. It sends at most one request. -/
theorem simulateLocalInference_meets (config : Config) (backends : BackendConfig)
    (prompt requestId : String) :
    (simulateLocalInference config backends prompt requestId).Meets (LocalMaySend backends prompt)
      (LocalAnswer requestId) [] := by
  have hmock :=
    mockLocalInference_meets (unrestricted_local backends prompt) config prompt requestId
  refine Program.Meets.ite (fun _ => hmock []) fun hreal => ?_
  refine (callOllama_meets hreal prompt requestId).tryCatch (fun h result hok => hok)
    fun h x hexpected => ?_
  cases x with
  | remoteInferenceError => exact hmock h
  | baseException message => exact ⟨trivial, hexpected⟩
  | timeoutException | connectError | transientRemoteError | exception => exact hexpected.elim

/-! ### The remote backend -/

section Remote

variable {request : HttpRequest} {requestId : String}

/-- The outcome of one attempt, by the reply to its request. -/
def Attempted (request : HttpRequest)
    (reply : Except BackendExn (HttpResponse request.json.Data)) :
    Except BackendExn (HttpResponse request.json.Data) → Prop
  | .ok resp => reply = .ok resp ∧ resp.statusCode ∉ transientStatus
  | .error x => (x.isTransient = true ↔ Transient ⟨.post request, reply⟩) ∧
      (x.IsBase → Interrupts ⟨.post request, reply⟩)

/-- A request ends as it is answered. -/
theorem post_meets {allowed : History backendSignature → BackendEffect → Prop}
    (hallowed : allowed h (.post request)) :
    (post request).Meets allowed (fun h' out => h' = ⟨.post request, out⟩ :: h) h :=
  Program.Meets.call_ofExcept hallowed fun _ => rfl

theorem attemptTokenrouterRequest_meets {allowed : History backendSignature → BackendEffect → Prop}
    (hallowed : allowed h (.post request)) :
    (attemptTokenrouterRequest request requestId).Meets allowed (fun h' out => ∃ reply,
      h' = ⟨.post request, reply⟩ :: h ∧ Attempted request reply out) h := by
  refine Program.Meets.tryCatch (R := fun h' out => ∃ reply, h' = ⟨.post request, reply⟩ :: h ∧
      match out with
      | .ok resp => Attempted request reply (.ok resp)
      | .error x =>
        (x.isTransient = true ∧ Transient ⟨.post request, reply⟩) ∨ reply = .error x) ?_
    (fun h' resp hresp => hresp) ?_
  · refine (post_meets hallowed).bind (fun h' resp hpost => ?_) fun h' x hpost => ?_
    · refine Program.Meets.ite (fun htransient => ?_) fun hfinal => ?_
      · exact ⟨_, hpost, Or.inl ⟨rfl, htransient⟩⟩
      · exact ⟨_, hpost, rfl, hfinal⟩
    · exact ⟨_, hpost, Or.inr rfl⟩
  · rintro h' x ⟨reply, hpost, ⟨htransient, hfailed⟩ | rfl⟩
    · cases x with
      | transientRemoteError => exact ⟨reply, hpost, iff_of_true rfl hfailed, nofun⟩
      | timeoutException | connectError | remoteInferenceError | exception | baseException =>
        cases htransient
    · cases x with
      | timeoutException | connectError | transientRemoteError =>
        exact ⟨_, hpost, iff_of_true rfl trivial, nofun⟩
      | remoteInferenceError | exception => exact ⟨_, hpost, iff_of_false nofun id, nofun⟩
      | baseException => exact ⟨_, hpost, iff_of_false nofun id, id⟩

/-- The requests of the history have failed with `x`, the last one without its pause. -/
structure Missed (n : ℕ) (h : History backendSignature) (x : BackendExn) : Prop where
  length : (requests h).length = n + 1
  pauses : (Backends.pauses h).reverse = [1, 2].take n
  transient : x.isTransient = true → ∀ ev ∈ requests h, Transient ev
  interrupted : x.IsBase → Interrupted h

theorem Tried.missed {n : ℕ} (ht : Tried n h)
    {reply : Except BackendExn (HttpResponse request.json.Data)} {x : BackendExn}
    (hattempt : Attempted request reply (.error x)) : Missed n (⟨.post request, reply⟩ :: h) x where
  length := congrArg (· + 1) ht.length
  pauses := ht.pauses
  transient htransient := List.forall_mem_cons.mpr ⟨hattempt.1.mp htransient, ht.transient⟩
  interrupted hbase := interrupted_cons (hattempt.2 hbase)

/-- The pauses of the policy are of one and of two seconds. -/
theorem getElem?_waits {n : ℕ} (hn : n < 2) :
    [1, 2][n]? = some (waitExponential 1 1 10 (n + 1)) := by
  rcases n with _ | _ | n
  · decide +kernel
  · decide +kernel
  · omega

/-- After the pause the next attempt may be made. -/
theorem Missed.tried {n : ℕ} (hn : n < 2) {x : BackendExn} (hmissed : Missed n h x)
    (htransient : x.isTransient = true) :
    Tried (n + 1) (⟨.sleep (waitExponential 1 1 10 (n + 1)), none⟩ :: h) where
  length := hmissed.length
  transient := hmissed.transient htransient
  pauses := by
    change (_ :: Backends.pauses h).reverse = _
    rw [List.reverse_cons, hmissed.pauses, List.take_add_one, getElem?_waits hn, Option.toList_some]

/-- The attempts at a request: before the attempt `n` the request has been tried `n - 1` times. -/
theorem executeTokenrouterRequest_invariant :
    tokenrouterRetry.Invariant (attemptTokenrouterRequest request requestId) (Executes request)
      (Executed request) (fun n h => ∃ k, n = k + 1 ∧ Tried k h)
      (fun n h x => ∃ k, n = k + 1 ∧ k < 3 ∧ Missed k h x) where
  attempt := by
    rintro n h ⟨k, rfl, ht⟩ hk
    have hk : k < 3 := Nat.lt_of_succ_le hk
    refine (attemptTokenrouterRequest_meets ⟨rfl, k, hk, ht⟩).mono ?_
    rintro h' (x | resp) ⟨reply, rfl, hattempt⟩
    · exact ⟨k, rfl, hk, ht.missed hattempt⟩
    · obtain ⟨rfl, hfinal⟩ := hattempt
      exact ⟨rfl, hfinal⟩
  pause := by
    rintro n h x ⟨k, rfl, -, hmissed⟩ hretry hk
    have hk : k < 2 := Nat.lt_of_succ_lt_succ hk
    have hsleep : Executes request h (.sleep (waitExponential 1 1 10 (k + 1))) :=
      ⟨k, hk, getElem?_waits hk, hmissed.length, hmissed.transient hretry⟩
    refine (sleep_meets hsleep).mono ?_
    rintro h' (y | _) hsleep
    · obtain ⟨hbase, ev, hev, rfl⟩ := hsleep
      refine ⟨fun htransient => ?_, fun _ => interrupted_cons hev⟩
      cases y <;> trivial
    · obtain rfl := hsleep
      exact ⟨k + 1, rfl, hmissed.tried hk hretry⟩
  giveUp := by
    rintro n h x ⟨k, rfl, hk, hmissed⟩ hfinal
    refine ⟨fun htransient => ⟨?_, hmissed.transient htransient⟩, hmissed.interrupted⟩
    rcases hfinal with hfinal | hlast
    · rw [show x.isTransient = false from hfinal] at htransient
      cases htransient
    · have hlast : 3 ≤ k + 1 := hlast
      rw [hmissed.length]
      omega

/-- **The request with its retries** is sent up to three times, and again only after a transient
failure and a pause of one, and then of two seconds. -/
theorem executeTokenrouterRequest_meets (htried : Tried 0 h) :
    (executeTokenrouterRequest request requestId).Meets (Executes request)
      (Executed request) h :=
  RetryPolicy.retry_meets executeTokenrouterRequest_invariant ⟨0, rfl, htried⟩

/-- A call of the remote provider may perform what its request with the retries performs. -/
theorem remoteMaySend_of_executes {backends : BackendConfig} {prompt : String}
    (hreal : backends.backendMode ≠ "mock") (hkey : backends.remoteLlmApiKey ≠ "")
    (h : History backendSignature) (e : BackendEffect)
    (he : Executes (tokenrouterRequest backends prompt) h e) :
    RemoteMaySend backends prompt false h e := by
  cases e with
  | post request => exact ⟨hreal, hkey, rfl, he.1, he.2⟩
  | sleep | perfCounter | uniform | randint | random => trivial

theorem callTokenrouter_meets {backends : BackendConfig}
    (hreal : backends.backendMode ≠ "mock") (hkey : backends.remoteLlmApiKey ≠ "")
    (prompt requestId : String) (shouldFail : Bool) :
    (callTokenrouter backends prompt requestId shouldFail).Meets
      (RemoteMaySend backends prompt shouldFail) (RemoteAnswer backends requestId shouldFail)
      [] := by
  refine Program.Meets.ite (fun _ => Or.inl ⟨_, rfl⟩) fun hnot => ?_
  obtain rfl : shouldFail = false := by simpa using hnot
  refine Program.Meets.call_bind trivial fun start => ?_
  refine Program.Meets.tryCatch (R := fun h out => match out with
      | .ok _ => RemoteAnswer backends requestId false h out
      | .error x => x.IsBase → Interrupted h) ?_ (fun h result hresult => hresult) fun h x hx => ?_
  · have htried : Tried 0 [⟨.perfCounter, start⟩] := ⟨rfl, by simp [requests, isRequest], rfl⟩
    refine ((executeTokenrouterRequest_meets htried).imp
      (remoteMaySend_of_executes hreal hkey)).suffix.bind
      (fun h resp hresp => ?_) fun h x hx => hx.2.2
    refine Program.Meets.call_bind trivial fun stop =>
      Program.Meets.ite (fun _ => nofun) fun _ => ?_
    cases hjson : resp.json with
    | error x =>
      refine fun hbase => ⟨_, List.mem_cons_of_mem _ (List.mem_of_mem_head? hresp.2.1), ?_⟩
      exact interrupts_of_json hjson hbase
    | ok data =>
      refine ⟨rfl, rfl, ?_, elapsed_nonneg ?_⟩
      · simp [tokenrouterResult, BackendConfig.tokenCost]
      · exact mem_readings_of_suffix (List.mem_singleton.mpr rfl) hresp.1
  · cases x with
    | remoteInferenceError message => exact Or.inl ⟨message, rfl⟩
    | baseException message => exact Or.inr ⟨trivial, hx trivial⟩
    | timeoutException | connectError | transientRemoteError | exception =>
      exact Program.Meets.call_bind trivial fun _ => Or.inl ⟨_, rfl⟩

/-- **The remote backend** charges the tokens that it reports, and raises nothing but
`RemoteInferenceError` and what interrupts a pause or a request. -/
theorem simulateRemoteInference_meets (config : Config) (backends : BackendConfig)
    (prompt requestId : String) (shouldFail : Bool) :
    (simulateRemoteInference config backends prompt requestId shouldFail).Meets
      (RemoteMaySend backends prompt shouldFail) (RemoteAnswer backends requestId shouldFail)
      [] := by
  have hmock := mockRemoteInference_meets (unrestricted_remote backends prompt shouldFail) config
    backends requestId shouldFail []
  refine Program.Meets.ite (fun _ => hmock) fun hreal => Program.Meets.ite (fun _ => hmock) ?_
  exact fun hkey => callTokenrouter_meets hreal hkey prompt requestId shouldFail

end Remote

end Backends

end InferenceRouter
