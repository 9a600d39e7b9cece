import Mathlib.Data.Rat.Floor

/-!
# Requests, responses and tunables

The data contracts of `app/models.py`, with the two enumerations that the router decides on, and
the tunables of `app/config.py` that its logic reads. A request is refused before it reaches the
router unless its prompt is nonempty and its latency budget positive; a configuration whose money
budget or queue capacity is not positive never gets past start-up. These are fields of the
structures here.

Amounts and readings of clocks are exact rationals, also where the code computes with doubles: what
is proved about them holds in exact arithmetic. They are rendered with the number of decimals that
the format of the code asks for.

## Main definitions

* `InferenceRouter.RouteDecision`, `InferenceRouter.ComplexityTier`.
* `InferenceRouter.InferenceRequest`, `InferenceRouter.BackendResult`,
  `InferenceRouter.InferenceResponse`.
* `InferenceRouter.Config`.
* `InferenceRouter.renderFixed`: the format `f"{q:.{digits}f}"` of the texts.
-/

namespace InferenceRouter

/-! ### Amounts in texts -/

/-- The nearest integer, ties to the even one. -/
def roundHalfEven (q : ℚ) : ℤ :=
  if q - ⌊q⌋ < 1 / 2 then ⌊q⌋
  else if 1 / 2 < q - ⌊q⌋ then ⌊q⌋ + 1
  else if ⌊q⌋ % 2 = 0 then ⌊q⌋ else ⌊q⌋ + 1

/-- The text of `q` with `digits` decimals. The sign is that of `q`, also if `q` rounds to zero. -/
def renderFixed (digits : ℕ) (q : ℚ) : String :=
  let scaled := (roundHalfEven (|q| * 10 ^ digits)).toNat
  let whole := toString (scaled / 10 ^ digits)
  let decimals := toString (scaled % 10 ^ digits)
  let padding := String.ofList (List.replicate (digits - decimals.length) '0')
  let sign := if q < 0 then "-" else ""
  if digits = 0 then sign ++ whole else sign ++ whole ++ "." ++ padding ++ decimals

example : renderFixed 6 (3 / 50) = "0.060000" := by decide +kernel

/-! ### The data contracts -/

/-- The routes that the agent decides between. -/
inductive RouteDecision
  | «local»
  | remote
  | queueLocal
  | failFast
  deriving DecidableEq

/-- The two tiers of requests. -/
inductive ComplexityTier
  | fast
  | quality
  deriving DecidableEq

/-- A request as the router receives it. -/
structure InferenceRequest where
  requestId : String
  prompt : String
  latencyBudgetMs : ℚ
  complexityTier : Option ComplexityTier
  prompt_ne : prompt ≠ ""
  latencyBudgetMs_pos : 0 < latencyBudgetMs

/-- What a backend returns after inference. -/
structure BackendResult where
  requestId : String
  actualCost : ℚ
  actualLatencyMs : ℚ
  promptTokens : ℤ := 0
  completionTokens : ℤ := 0
  cacheReadTokens : ℤ := 0
  cacheWriteTokens : ℤ := 0
  result : String

/-- The answer to a request that has been served. -/
structure InferenceResponse where
  requestId : String
  route : RouteDecision
  complexityTier : ComplexityTier
  actualCost : ℚ
  actualLatencyMs : ℚ
  promptTokens : ℤ := 0
  completionTokens : ℤ := 0
  cacheReadTokens : ℤ := 0
  cacheWriteTokens : ℤ := 0
  result : String
  budgetRemaining : ℚ

/-- The tunables, read from environment variables at start-up. -/
structure Config where
  maxRemoteBudget : ℚ
  costPerRemoteRequest : ℚ
  maxCumulativeLatencyMs : ℚ
  avgLocalLatencyMs : ℚ
  avgRemoteLatencyMs : ℚ
  localQueueCapacity : ℕ
  emaAlpha : ℚ
  latencyWindowSize : ℕ
  reservationTtlSeconds : ℚ
  maxRemoteBudget_pos : 0 < maxRemoteBudget
  localQueueCapacity_pos : 0 < localQueueCapacity

/-- The production defaults, as the decimals of `config.py`. -/
def Config.default : Config where
  maxRemoteBudget := 5
  costPerRemoteRequest := 15 / 100
  maxCumulativeLatencyMs := 600000
  avgLocalLatencyMs := 250
  avgRemoteLatencyMs := 800
  localQueueCapacity := 8
  emaAlpha := 1 / 4
  latencyWindowSize := 5
  reservationTtlSeconds := 45
  maxRemoteBudget_pos := by decide +kernel
  localQueueCapacity_pos := by decide

end InferenceRouter
