import InferenceRouter.Foundation.Implementation
import InferenceRouter.Models
import Mathlib.Algebra.Order.Ring.Rat

/-!
# The effects of the backends

What the routines of `app/backends.py` do outside their own local variables: HTTP requests, pauses,
readings of the clock `time.perf_counter` and random numbers. The bounds of the random numbers are
part of their types.

The JSON of a response is what the caller looks up in it, with `none` for a key that is missing. A
text that is not JSON, or whose parts are not of the expected types, is an exception instead.

## Main definitions

* `InferenceRouter.BackendConfig`: the tunables of the backends.
* `InferenceRouter.BackendExn`, `InferenceRouter.BackendEffect`, `InferenceRouter.BackendProgram`.
* `InferenceRouter.backendDevice`: what answers the effects of the backends.
* `InferenceRouter.Timed`: the readings of the clock in a history.
* `InferenceRouter.Interrupted`: a pause or a request of a history has been interrupted.
-/

namespace InferenceRouter

open Foundation

/-! ### Tunables -/

/-- The tunables of `app/config.py` that the backends read. -/
structure BackendConfig where
  backendMode : String
  ollamaBaseUrl : String
  ollamaModel : String
  ollamaTimeoutSeconds : ℚ
  remoteLlmApiKey : String
  remoteLlmBaseUrl : String
  remoteLlmModel : String
  remoteLlmTimeoutSeconds : ℚ
  remoteLlmInputPricePerToken : ℚ
  remoteLlmOutputPricePerToken : ℚ
  remoteLlmCacheReadPricePerToken : ℚ
  remoteLlmCacheWritePricePerToken : ℚ

/-- The production defaults, as the decimals of `config.py`. -/
def BackendConfig.default : BackendConfig where
  backendMode := "real"
  ollamaBaseUrl := "http://localhost:11434"
  ollamaModel := "my-nemotron:latest"
  ollamaTimeoutSeconds := 120
  remoteLlmApiKey := ""
  remoteLlmBaseUrl := "https://api.tokenrouter.com/v1"
  remoteLlmModel := "qwen/qwen3.8-max-free"
  remoteLlmTimeoutSeconds := 30
  remoteLlmInputPricePerToken := 10 / 1000000
  remoteLlmOutputPricePerToken := 50 / 1000000
  remoteLlmCacheReadPricePerToken := 1 / 1000000
  remoteLlmCacheWritePricePerToken := (25 / 2) / 1000000

/-! ### Exceptions -/

/-- The exceptions inside the backends, by the clauses that tell them apart: the two classes of the
module, the two classes of `httpx` that it names, the other subclasses of `Exception`, and the
exceptions outside `Exception`. -/
inductive BackendExn
  | remoteInferenceError (message : String)
  | transientRemoteError (message : String)
  | timeoutException (typeName message : String)
  | connectError (message : String)
  | exception (typeName message : String)
  | baseException (message : String)

/-- The name of the class of an exception, with its text. -/
def BackendExn.describe : BackendExn → String
  | remoteInferenceError message => "RemoteInferenceError: " ++ message
  | transientRemoteError message => "TransientRemoteError: " ++ message
  | timeoutException typeName message | exception typeName message => typeName ++ ": " ++ message
  | connectError message => "ConnectError: " ++ message
  | baseException message => message

/-- The exception is a `TransientRemoteError`. -/
def BackendExn.isTransient : BackendExn → Bool
  | transientRemoteError _ => true
  | remoteInferenceError _ | timeoutException _ _ | connectError _ | exception _ _
  | baseException _ => false

/-- The exception is outside `Exception`. -/
def BackendExn.IsBase : BackendExn → Prop
  | baseException _ => True
  | remoteInferenceError _ | transientRemoteError _ | timeoutException _ _ | connectError _
  | exception _ _ => False

instance : DecidablePred BackendExn.IsBase
  | .baseException _ => inferInstanceAs (Decidable True)
  | .remoteInferenceError _ | .transientRemoteError _ | .timeoutException _ _ | .connectError _
  | .exception _ _ => inferInstanceAs (Decidable False)

/-! ### HTTP -/

/-- The JSON payloads of the two requests. -/
inductive HttpBody
  | generate (model prompt : String) (stream : Bool) (numPredict : ℕ)
  | chatCompletions (model prompt : String) (maxTokens : ℕ) (stream includeUsage : Bool)

/-- A `POST` request. -/
structure HttpRequest where
  url : String
  headers : List (String × String)
  json : HttpBody
  timeoutSeconds : ℚ

/-- What `_call_ollama` looks up in a response. -/
structure Generation where
  response : Option String
  promptEvalCount : Option ℤ
  evalCount : Option ℤ

/-- The `usage` of a completion. -/
structure Usage where
  promptTokens : Option ℤ
  completionTokens : Option ℤ

/-- The `message` of a choice. -/
structure ChatMessage where
  content : Option String

/-- One of the `choices` of a completion. -/
structure ChatChoice where
  message : Option ChatMessage

/-- What `_call_tokenrouter` looks up in a response. -/
structure Completion where
  usage : Option Usage
  choices : Option (List ChatChoice)

/-- What the response to a request is expected to hold. -/
@[reducible] def HttpBody.Data : HttpBody → Type
  | generate .. => Generation
  | chatCompletions .. => Completion

/-- A response. -/
structure HttpResponse (Data : Type) where
  statusCode : ℕ
  text : String
  json : Except BackendExn Data

/-! ### Effects -/

/-- The effects of the backends. -/
inductive BackendEffect
  | post (request : HttpRequest)
  | sleep (seconds : ℚ)
  | perfCounter
  | uniform (a b : ℚ)
  | randint (a b : ℤ)
  | random

/-- The type of the reply of an effect. A pause ends by itself, or with the text of the exception
outside `Exception` that ends it. -/
@[reducible] def BackendEffect.Reply : BackendEffect → Type
  | post request => Except BackendExn (HttpResponse request.json.Data)
  | sleep _ => Option String
  | perfCounter => ℚ
  | uniform a b => { x : ℚ // a ≤ x ∧ x ≤ b }
  | randint a b => { n : ℤ // a ≤ n ∧ n ≤ b }
  | random => { x : ℚ // 0 ≤ x ∧ x < 1 }

/-- The signature of the backends' programs. -/
@[reducible] def backendSignature : Signature where
  Effect := BackendEffect
  Reply := BackendEffect.Reply
  Exn := BackendExn

/-- The programs of the backends. -/
abbrev BackendProgram := Program backendSignature

namespace BackendProgram

/-- `client.post`. -/
def post (request : HttpRequest) : BackendProgram (HttpResponse request.json.Data) := do
  let reply ← Program.call (S := backendSignature) (.post request)
  .ofExcept reply

/-- `asyncio.sleep`. -/
def sleep (seconds : ℚ) : BackendProgram Unit := do
  match ← Program.call (S := backendSignature) (.sleep seconds) with
  | none => pure ()
  | some message => throw (BackendExn.baseException message)

/-- `time.perf_counter`. -/
def perfCounter : BackendProgram ℚ := Program.call (S := backendSignature) .perfCounter

/-- `random.uniform`. -/
def uniform (a b : ℚ) : BackendProgram { x : ℚ // a ≤ x ∧ x ≤ b } :=
  Program.call (S := backendSignature) (.uniform a b)

/-- `random.randint`. -/
def randint (a b : ℤ) : BackendProgram { n : ℤ // a ≤ n ∧ n ≤ b } :=
  Program.call (S := backendSignature) (.randint a b)

/-- `random.random`. -/
def random : BackendProgram { x : ℚ // 0 ≤ x ∧ x < 1 } :=
  Program.call (S := backendSignature) .random

end BackendProgram

/-! ### The device -/

/-- What answers the effects of the backends: the reading of a clock that does not run backwards,
and anything for the others. -/
@[reducible] def backendDevice : Device backendSignature where
  State := ℚ
  Oracle := (e : BackendEffect) → Option e.Reply
  exec
    | clock, .perfCounter, o =>
      (o .perfCounter).bind fun now => if clock ≤ now then some (now, now) else none
    | clock, .post request, o => (o (.post request)).map (·, clock)
    | clock, .sleep seconds, o => (o (.sleep seconds)).map (·, clock)
    | clock, .uniform a b, o => (o (.uniform a b)).map (·, clock)
    | clock, .randint a b, o => (o (.randint a b)).map (·, clock)
    | clock, .random, o => (o .random).map (·, clock)

/-- The reading of the clock in an event. -/
def reading : Event backendSignature → Option ℚ
  | ⟨.perfCounter, now⟩ => some now
  | ⟨.post _, _⟩ | ⟨.sleep _, _⟩ | ⟨.uniform _ _, _⟩ | ⟨.randint _ _, _⟩ | ⟨.random, _⟩ => none

/-- The readings of the clock in a history, the latest first. -/
def readings (h : History backendSignature) : List ℚ := h.filterMap reading

/-- The readings of the clock in a history are not later than `clock` and in order. -/
def Timed (clock : ℚ) (h : History backendSignature) : Prop :=
  (clock :: readings h).Pairwise (· ≥ ·)

theorem Timed.later {clock clock' : ℚ} {h : History backendSignature} (ht : Timed clock h)
    (hle : clock ≤ clock') : Timed clock' h := by
  obtain ⟨hhead, htail⟩ := List.pairwise_cons.mp ht
  exact List.pairwise_cons.mpr ⟨fun x hx => (hhead x hx).trans hle, htail⟩

/-- What an answer of the device does to its clock. -/
theorem backendDevice_exec {clock clock' : ℚ} {e : BackendEffect}
    {o : (e : BackendEffect) → Option e.Reply} {r : e.Reply}
    (h : backendDevice.exec clock e o = some (r, clock')) :
    clock ≤ clock' ∧ ∀ now, reading ⟨e, r⟩ = some now → now = clock' := by
  cases e with
  | perfCounter =>
    obtain ⟨now, -, h⟩ := Option.bind_eq_some_iff.mp h
    obtain ⟨hle, h⟩ := Option.ite_none_right_eq_some.mp h
    cases h
    exact ⟨hle, fun now hnow => (Option.some.inj hnow).symm⟩
  | post | sleep | uniform | randint | random =>
    obtain ⟨_, -, h⟩ := Option.map_eq_some_iff.mp h
    cases h
    exact ⟨le_rfl, nofun⟩

/-- **The device keeps time**, and the condition that the events meet. -/
theorem backendDevice_keeps (C : Event backendSignature → Prop) :
    backendDevice.Keeps C fun clock h => Timed clock h ∧ ∀ ev ∈ h, C ev where
  start clock := ⟨List.pairwise_singleton _ _, by simp⟩
  own {clock h e o r clock'} hK hC hexec := by
    obtain ⟨hle, hnow⟩ := backendDevice_exec hexec
    refine ⟨?_, List.forall_mem_cons.mpr ⟨hC, hK.2⟩⟩
    cases hreading : reading ⟨e, r⟩ with
    | none =>
      rw [Timed, readings, List.filterMap_cons_none hreading]
      exact hK.1.later hle
    | some now =>
      obtain rfl := hnow now hreading
      rw [Timed, readings, List.filterMap_cons_some hreading]
      have hlater := hK.1.later hle
      refine List.pairwise_cons.mpr ⟨fun x hx => ?_, hlater⟩
      rcases List.mem_cons.mp hx with rfl | hx
      · exact le_rfl
      · exact (List.pairwise_cons.mp hlater).1 x hx
  other {clock h e o r clock'} hK hexec := ⟨hK.1.later (backendDevice_exec hexec).1, hK.2⟩

/-! ### Interruptions -/

/-- The event ends a pause or a request with an exception outside `Exception`, such as
`asyncio.CancelledError`. -/
def Interrupts : Event backendSignature → Prop
  | ⟨.sleep _, reply⟩ => reply.isSome
  | ⟨.post _, .error x⟩ => x.IsBase
  | ⟨.post _, .ok resp⟩ => match resp.json with
    | .ok _ => False
    | .error x => x.IsBase
  | ⟨.perfCounter, _⟩ | ⟨.uniform _ _, _⟩ | ⟨.randint _ _, _⟩ | ⟨.random, _⟩ => False

instance : DecidablePred Interrupts
  | ⟨.sleep _, reply⟩ => inferInstanceAs (Decidable (reply.isSome = true))
  | ⟨.post _, .error x⟩ => inferInstanceAs (Decidable x.IsBase)
  | ⟨.post _, .ok ⟨_, _, .ok _⟩⟩ => inferInstanceAs (Decidable False)
  | ⟨.post _, .ok ⟨_, _, .error x⟩⟩ => inferInstanceAs (Decidable x.IsBase)
  | ⟨.perfCounter, _⟩ | ⟨.uniform _ _, _⟩ | ⟨.randint _ _, _⟩ | ⟨.random, _⟩ =>
    inferInstanceAs (Decidable False)

/-- A pause or a request of the history has been interrupted. -/
def Interrupted (h : History backendSignature) : Prop := ∃ ev ∈ h, Interrupts ev

theorem Interrupted.mono {h h' : History backendSignature} (hi : Interrupted h)
    (hsubset : h ⊆ h') : Interrupted h' :=
  hi.imp fun _ hev => ⟨hsubset hev.1, hev.2⟩

end InferenceRouter
