import InferenceRouter.Backends.Effects
import InferenceRouter.Foundation.Retry

/-!
# The backends

The routines of `app/backends.py`, as programs over the effects of the backends. Each backend
exists twice: a real one, which asks an HTTP server, and a mock, which pauses and makes figures up.
The public functions choose between the two, and the local one falls back to its mock if the
server cannot be asked.

The remote server is asked up to three times, as long as it answers with a transient status or
cannot be reached. `tenacity` raises the last exception itself (`reraise=True`), so that the clause
for its own `RetryError` is never taken and is left out.

## Main definitions

* `InferenceRouter.Backends.executeTokenrouterRequest`: the request with its retries.
* `InferenceRouter.Backends.callOllama`, `InferenceRouter.Backends.callTokenrouter`: the real
  backends.
* `InferenceRouter.Backends.mockLocalInference`, `InferenceRouter.Backends.mockRemoteInference`:
  the mocks.
* `InferenceRouter.Backends.simulateLocalInference`,
  `InferenceRouter.Backends.simulateRemoteInference`.
-/

namespace InferenceRouter

open Foundation BackendProgram

namespace Backends

/-- `text[:n]`. -/
def firstChars (n : ℕ) (text : String) : String := String.ofList (text.toList.take n)

/-! ### The local backend -/

/-- The request of `_call_ollama`. -/
def ollamaRequest (backends : BackendConfig) (prompt : String) : HttpRequest where
  url := backends.ollamaBaseUrl ++ "/api/generate"
  headers := []
  json := .generate backends.ollamaModel prompt false 256
  timeoutSeconds := backends.ollamaTimeoutSeconds

/-- `_call_ollama`. -/
def callOllama (backends : BackendConfig) (prompt requestId : String) :
    BackendProgram BackendResult := do
  let start ← perfCounter
  tryCatch
    (do
      let resp ← post (ollamaRequest backends prompt)
      let stop ← perfCounter
      if resp.statusCode ≠ 200 then
        throw (BackendExn.remoteInferenceError ("[" ++ requestId ++ "] Ollama returned HTTP " ++
          toString resp.statusCode ++ ": " ++ firstChars 200 resp.text))
      else
        let data : Generation ← Program.ofExcept (S := backendSignature) resp.json
        let responseText := data.response.getD ""
        let promptTokens := data.promptEvalCount.getD 0
        let completionTokens := data.evalCount.getD 0
        pure
          { requestId := requestId
            actualCost := 0
            actualLatencyMs := (stop - start) * 1000
            promptTokens := promptTokens
            completionTokens := completionTokens
            cacheReadTokens := 0
            cacheWriteTokens := 0
            result := "[OLLAMA:" ++ backends.ollamaModel ++ "] tokens=" ++
              toString promptTokens ++ "+" ++ toString completionTokens ++ " | " ++
              firstChars 120 responseText })
    fun
      | .remoteInferenceError message => throw (BackendExn.remoteInferenceError message)
      | .timeoutException typeName message => do
        let _stop ← perfCounter
        throw (BackendExn.remoteInferenceError ("[" ++ requestId ++ "] Ollama unreachable: " ++
          (BackendExn.timeoutException typeName message).describe))
      | .connectError message => do
        let _stop ← perfCounter
        throw (BackendExn.remoteInferenceError ("[" ++ requestId ++ "] Ollama unreachable: " ++
          (BackendExn.connectError message).describe))
      | .baseException message => throw (BackendExn.baseException message)
      | x => do
        let _stop ← perfCounter
        throw (BackendExn.remoteInferenceError ("[" ++ requestId ++
          "] Ollama unexpected error: " ++ x.describe))

/-- `_mock_local_inference`. -/
def mockLocalInference (config : Config) (prompt requestId : String) :
    BackendProgram BackendResult := do
  let jitter ← uniform (8 / 10) (12 / 10)
  let start ← perfCounter
  sleep (config.avgLocalLatencyMs * jitter.1 / 1000)
  let stop ← perfCounter
  pure
    { requestId := requestId
      actualCost := 0
      actualLatencyMs := (stop - start) * 1000
      promptTokens := 0
      completionTokens := 0
      cacheReadTokens := 0
      cacheWriteTokens := 0
      result := "[LOCAL-MOCK] Echo: " ++ firstChars 60 prompt }

/-- `simulate_local_inference`. -/
def simulateLocalInference (config : Config) (backends : BackendConfig)
    (prompt requestId : String) : BackendProgram BackendResult :=
  if backends.backendMode = "mock" then mockLocalInference config prompt requestId
  else
    tryCatch (callOllama backends prompt requestId) fun
      | .remoteInferenceError _ => mockLocalInference config prompt requestId
      | x => throw x

/-! ### The remote backend -/

/-- The answers of the server that ask for another attempt. -/
def transientStatus : List ℕ := [429, 502, 503, 504]

/-- One attempt of `_execute_tokenrouter_request`. -/
def attemptTokenrouterRequest (request : HttpRequest) (requestId : String) :
    BackendProgram (HttpResponse request.json.Data) :=
  tryCatch
    (do
      let resp ← post request
      if resp.statusCode ∈ transientStatus then
        throw (BackendExn.transientRemoteError ("[" ++ requestId ++
          "] Remote LLM Provider transient HTTP " ++ toString resp.statusCode))
      else pure resp)
    fun
      | .timeoutException typeName _ =>
        throw (BackendExn.transientRemoteError ("[" ++ requestId ++
          "] Remote LLM Provider transient unreachable: " ++ typeName))
      | .connectError _ =>
        throw (BackendExn.transientRemoteError ("[" ++ requestId ++
          "] Remote LLM Provider transient unreachable: ConnectError"))
      | x => throw x

/-- The pause of `wait_exponential` after the attempt `n`, in seconds. -/
def waitExponential (multiplier minimum maximum : ℚ) (n : ℕ) : ℚ :=
  max (max 0 minimum) (min (multiplier * 2 ^ (n - 1)) maximum)

/-- The arguments of `@retry`. -/
def tokenrouterRetry : RetryPolicy backendSignature where
  attempts := 3
  wait n := sleep (waitExponential 1 1 10 n)
  retryable := BackendExn.isTransient

/-- `_execute_tokenrouter_request`. -/
def executeTokenrouterRequest (request : HttpRequest) (requestId : String) :
    BackendProgram (HttpResponse request.json.Data) :=
  tokenrouterRetry.retry (attemptTokenrouterRequest request requestId)

/-- The request of `_call_tokenrouter`. -/
def tokenrouterRequest (backends : BackendConfig) (prompt : String) :
    HttpRequest where
  url := backends.remoteLlmBaseUrl ++ "/chat/completions"
  headers := [("Authorization", "Bearer " ++ backends.remoteLlmApiKey),
    ("Content-Type", "application/json")]
  json := .chatCompletions backends.remoteLlmModel prompt 256 false true
  timeoutSeconds := backends.remoteLlmTimeoutSeconds

/-- The result of `_call_tokenrouter` for what it has found in a response. -/
def tokenrouterResult (backends : BackendConfig) (requestId : String)
    (data : Completion) (actualLatencyMs : ℚ) : BackendResult :=
  let usage := data.usage.getD ⟨none, none⟩
  let promptTokens := usage.promptTokens.getD 0
  let completionTokens := usage.completionTokens.getD 0
  let actualCost := promptTokens * backends.remoteLlmInputPricePerToken +
    completionTokens * backends.remoteLlmOutputPricePerToken
  let responseText :=
    match data.choices.getD [] with
    | choice :: _ => (choice.message.getD ⟨none⟩).content.getD ""
    | [] => ""
  { requestId := requestId
    actualCost := actualCost
    actualLatencyMs := actualLatencyMs
    promptTokens := promptTokens
    completionTokens := completionTokens
    cacheReadTokens := 0
    cacheWriteTokens := 0
    result := "[TOKENROUTER:" ++ backends.remoteLlmModel ++ "] tokens=" ++
      toString promptTokens ++ "+" ++ toString completionTokens ++ " cost=$" ++
      renderFixed 6 actualCost ++ " | " ++ firstChars 120 responseText }

/-- `_call_tokenrouter`. -/
def callTokenrouter (backends : BackendConfig) (prompt requestId : String)
    (shouldFail : Bool) : BackendProgram BackendResult :=
  if shouldFail then
    throw (BackendExn.remoteInferenceError ("[" ++ requestId ++
      "] Injected remote failure for rollback test"))
  else do
    let start ← perfCounter
    tryCatch
      (do
        let resp ← executeTokenrouterRequest (tokenrouterRequest backends prompt) requestId
        let stop ← perfCounter
        if 400 ≤ resp.statusCode then
          throw (BackendExn.remoteInferenceError ("[" ++ requestId ++
            "] Remote LLM Provider HTTP " ++ toString resp.statusCode ++ ": " ++
            firstChars 200 resp.text))
        else
          let data ← Program.ofExcept (S := backendSignature) resp.json
          pure (tokenrouterResult backends requestId data ((stop - start) * 1000)))
      fun
        | .remoteInferenceError message => throw (BackendExn.remoteInferenceError message)
        | .transientRemoteError message => do
          let _stop ← perfCounter
          throw (BackendExn.remoteInferenceError ("[" ++ requestId ++
            "] Remote LLM Provider failed after retries: " ++ message))
        | .baseException message => throw (BackendExn.baseException message)
        | x => do
          let _stop ← perfCounter
          throw (BackendExn.remoteInferenceError ("[" ++ requestId ++
            "] Remote LLM Provider unexpected error: " ++ x.describe))

/-- `random.randint(a, b) if random.random() > 0.5 else 0`. -/
def randintOrZero (a b : ℤ) : BackendProgram ℤ := do
  let x ← random
  if x.1 > 1 / 2 then
    let n ← randint a b
    pure n.1
  else pure 0

/-- `_mock_remote_inference`. -/
def mockRemoteInference (config : Config) (backends : BackendConfig) (requestId : String)
    (shouldFail : Bool) : BackendProgram BackendResult := do
  let jitter ← uniform (85 / 100) (115 / 100)
  let start ← perfCounter
  sleep (config.avgRemoteLatencyMs * jitter.1 / 1000)
  let stop ← perfCounter
  if shouldFail then
    throw (BackendExn.remoteInferenceError ("Simulated remote failure for request " ++ requestId))
  else
    let promptTokens ← randint 500 1500
    let completionTokens ← randint 200 800
    let cacheReadTokens ← randintOrZero 500 1500
    let cacheWriteTokens ← randintOrZero 200 1000
    let actualCost := promptTokens.1 * backends.remoteLlmInputPricePerToken +
      completionTokens.1 * backends.remoteLlmOutputPricePerToken +
      cacheReadTokens * backends.remoteLlmCacheReadPricePerToken +
      cacheWriteTokens * backends.remoteLlmCacheWritePricePerToken
    pure
      { requestId := requestId
        actualCost := actualCost
        actualLatencyMs := (stop - start) * 1000
        promptTokens := promptTokens.1
        completionTokens := completionTokens.1
        cacheReadTokens := cacheReadTokens
        cacheWriteTokens := cacheWriteTokens
        result := "[REMOTE-MOCK] tokens=" ++ toString promptTokens.1 ++ " cost=$" ++
          renderFixed 5 actualCost }

/-- `simulate_remote_inference`. -/
def simulateRemoteInference (config : Config) (backends : BackendConfig)
    (prompt requestId : String) (shouldFail : Bool) : BackendProgram BackendResult :=
  if backends.backendMode = "mock" then mockRemoteInference config backends requestId shouldFail
  else if backends.remoteLlmApiKey = "" then
    mockRemoteInference config backends requestId shouldFail
  else callTokenrouter backends prompt requestId shouldFail

end Backends

end InferenceRouter
