import InferenceRouter.Service.System

/-!
# The process across resets

A reset, `POST /run_start` with `reset=true`, builds new managers and puts them in the place of the
old ones in `app.state`. A handler captures the managers when it starts and keeps them to its end,
so that handlers of several generations of managers run side by side. They share the counters, which
the handlers look up in `app.state` at every use, the event bus and the clock.

## Main definitions

* `InferenceRouter.ProcessEffect`, `InferenceRouter.processSignature`.
* `InferenceRouter.Managers`, `InferenceRouter.ProcessState`: all generations of managers.
* `InferenceRouter.inferenceAcrossResets`: the handler of a request, from its capture on.
* `InferenceRouter.process`, `InferenceRouter.initialProcess`.
-/

namespace InferenceRouter

open Foundation

/-! ### Effects -/

/-- The effects of a handler: the capture of the managers in `app.state`, and the effects on the
managers of a generation. -/
inductive ProcessEffect
  | capture
  | on (generation : ℕ) (effect : Effect)

/-- The type of the reply of an effect. A capture replies with the generation. -/
@[reducible] def ProcessEffect.Reply : ProcessEffect → Type
  | capture => ℕ
  | on _ effect => effect.Reply

/-- The signature of the programs of the process. -/
@[reducible] def processSignature : Signature where
  Effect := ProcessEffect
  Reply := ProcessEffect.Reply
  Exn := Exn

/-- The effects of the router on the managers of a generation. -/
def onGeneration (g : ℕ) : Signature.Hom signature processSignature where
  effect := .on g
  reply _ r := r
  exn := id

/-- `inference`, from its capture of the managers on. -/
def inferenceAcrossResets (config : Config) (classify : String → ComplexityTier)
    (request : InferenceRequest) : Program processSignature InferenceResponse := do
  let g ← Program.call (S := processSignature) .capture
  (inference config classify request).translate (onGeneration g)

/-! ### The state of the process -/

/-- One generation of managers. -/
structure Managers where
  budgetManager : BudgetManager
  queueMonitor : QueueMonitor
  latencyTracker : LatencyTracker

/-- The managers that a reset builds. -/
def Managers.new (config : Config) : Managers where
  budgetManager := .new config.budget
  queueMonitor := .new config.localQueueCapacity config.localQueueCapacity_pos
  latencyTracker := .new config.emaAlpha config.avgLocalLatencyMs config.avgRemoteLatencyMs
    config.latencyWindowSize

/-- The state of the process: all the generations of managers, the current one last, and what they
share. -/
structure ProcessState where
  generations : List Managers
  routeCounts : RouteDecision → ℕ
  eventBus : EventBus
  clock : ℚ

namespace ProcessState

variable (s : ProcessState)

/-- The shared state as a handler sees it that has captured the managers `m`. -/
def view (m : Managers) : AppState where
  budgetManager := m.budgetManager
  queueMonitor := m.queueMonitor
  latencyTracker := m.latencyTracker
  routeCounts := s.routeCounts
  eventBus := s.eventBus
  clock := s.clock

/-- The state of the process after a handler of the generation `g` has changed what it sees. -/
def update (g : ℕ) (app : AppState) : ProcessState where
  generations := s.generations.set g ⟨app.budgetManager, app.queueMonitor, app.latencyTracker⟩
  routeCounts := app.routeCounts
  eventBus := app.eventBus
  clock := app.clock

/-- The index of the current generation. -/
def current : ℕ := s.generations.length - 1

/-- `lifespan`, up to its `yield`. -/
def init (config : Config) : ProcessState where
  generations := [.new config]
  routeCounts := fun _ => 0
  eventBus := .new
  clock := 0

/-- What an effect replies, and the state it leaves. -/
def exec : (e : ProcessEffect) → Oracle → Option (e.Reply × ProcessState)
  | .capture, _ => some (s.current, s)
  | .on g e, o =>
    (s.generations[g]?).bind fun m =>
      ((s.view m).exec e o).map fun rs => (rs.1, s.update g rs.2)

/-- `run_start` with `reset=true`: new managers and new counters, and the marker of the run. The
reaper of the old budget manager is stopped. -/
def reset (config : Config) (runId : String) : ProcessState :=
  { s with
    generations := s.generations ++ [.new config]
    routeCounts := fun _ => 0
    eventBus := s.eventBus.publish (.marker (.runStart runId)) }

end ProcessState

/-- The actions of the environment: the reaper of the current managers, the streams and markers, and
resets. -/
inductive ProcessAction
  | service (action : ServiceAction)
  | reset (runId : String)

/-- What an action of the environment does. -/
def ProcessState.act (config : Config) (s : ProcessState) : ProcessAction → Option ProcessState
  | .service action =>
    (s.generations[s.current]?).bind fun m =>
      ((s.view m).act action).map (s.update s.current)
  | .reset runId => some (s.reset config runId)

/-- The process, with its configuration and its classifier of prompts. -/
@[reducible] def process (config : Config) (classify : String → ComplexityTier) :
    System processSignature where
  State := ProcessState
  Arg := InferenceRequest
  Out := InferenceResponse
  Oracle := Oracle
  Action := ProcessAction
  main := inferenceAcrossResets config classify
  exec := ProcessState.exec
  act := ProcessState.act config

/-- The process at start-up. -/
def initialProcess (config : Config) (classify : String → ComplexityTier) :
    Pool (process config classify) :=
  ⟨.init config, []⟩

end InferenceRouter
