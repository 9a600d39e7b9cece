import InferenceRouter.Service.Counts

/-!
# The page of the dashboard

The script of `static/dashboard.html`. It keeps a table with one row for each request that it has
heard of, which shows the latest event about the request with what the latest decision about it has
told, and it collects the events of a test run into a card of the run catalogue. The cells are kept
as data; the time of a row is left out.

The keyed objects of the script and the bodies of its tables are dictionaries in insertion order. A
table shows the latest entry on top. The script finds a row by the id of its element, and writes the
ids of requests and runs into the page without escaping them. The dictionaries stand for the tables
as long as these ids are plain, which every message to the page proves here, and the figures of a
completed run, which are left out, are numbers.

## Main definitions

* `InferenceRouter.Cells`, `InferenceRouter.cells`: what a row shows about a payload.
* `InferenceRouter.Page`, with `Page.addRow`, `Page.patchCardsFromEvent`, `Page.onmessage` and
  `Page.updateCards`.
* `InferenceRouter.IsPlain`, `InferenceRouter.PageEvent`: messages with ids that are plain.
* `InferenceRouter.Page.after`: the page after a list of events.
-/

namespace InferenceRouter

open Foundation

/-! ### What a row shows -/

/-- What the script remembers of a decision. -/
structure RequestInfo where
  route : RouteDecision
  tier : ComplexityTier
  prompt : String

/-- The badges of the column `Status`. -/
inductive StatusBadge
  | failFast
  | rollback
  | pending
  | ok
  | other (outcome : String)
  deriving DecidableEq

/-- `statusBadge`. -/
def statusBadge : Payload → StatusBadge
  | .failFast .. => .failFast
  | .rollbackEvent .. => .rollback
  | .routeDecision .. => .pending
  | .executionComplete _ _ _ _ _ _ _ _ outcome _ =>
    if outcome = "" then .pending
    else if outcome = "committed" ∨ outcome = "fallback_local" then .ok
    else .other outcome

namespace Payload

/-- What a decision tells about its request. -/
def info? : Payload → Option RequestInfo
  | routeDecision _ route tier _ _ _ _ prompt => some ⟨route, tier, prompt⟩
  | executionComplete .. | failFast .. | rollbackEvent .. => none

def isFail : Payload → Bool
  | failFast .. => true
  | routeDecision .. | executionComplete .. | rollbackEvent .. => false

def isRollback : Payload → Bool
  | rollbackEvent .. => true
  | routeDecision .. | executionComplete .. | failFast .. => false

def actualCost? : Payload → Option ℚ
  | executionComplete _ _ actualCost .. => some actualCost
  | routeDecision .. | failFast .. | rollbackEvent .. => none

def actualLatencyMs? : Payload → Option ℚ
  | executionComplete _ _ _ actualLatencyMs .. => some actualLatencyMs
  | routeDecision .. | failFast .. | rollbackEvent .. => none

/-- The tokens of a completion: of the prompt, of the completion, read from and written to the
cache. -/
def tokens? : Payload → Option (ℤ × ℤ × ℤ × ℤ)
  | executionComplete _ _ _ _ pt ct cr cw _ _ => some (pt, ct, cr, cw)
  | routeDecision .. | failFast .. | rollbackEvent .. => none

def budgetRemaining? : Payload → Option ℚ
  | executionComplete _ _ _ _ _ _ _ _ _ budgetRemaining => some budgetRemaining
  | routeDecision .. | failFast .. | rollbackEvent .. => none

end Payload

/-- The cells of a row. A value that is missing is shown as a dash. -/
structure Cells where
  requestId : String
  /-- The tooltip of the request id, as the script writes it. -/
  prompt : Option String
  tier : Option ComplexityTier
  route : Option RouteDecision
  cost : Option ℚ
  tokens : Option (ℤ × ℤ × ℤ × ℤ)
  latency : Option ℚ
  status : StatusBadge

/-- The cells for a payload, with what is remembered of its request. -/
def cells (payload : Payload) (info : Option RequestInfo) : Cells where
  requestId := payload.requestId
  prompt := (info.map RequestInfo.prompt).filter (· ≠ "")
  tier := payload.info?.map RequestInfo.tier <|> info.map RequestInfo.tier
  route := payload.info?.map RequestInfo.route <|> info.map RequestInfo.route <|>
    if payload.isFail then some .failFast else none
  cost := payload.actualCost?
  tokens := payload.tokens?
  latency := payload.actualLatencyMs?
  status := statusBadge payload

/-- A row, with the class `row-rollback`. -/
structure Row where
  cells : Cells
  isRollback : Bool

/-! ### The page -/

/-- A card of the run catalogue, with its rows from top to bottom. -/
structure RunCard where
  runId : String
  isPass : Bool
  events : List (String × Row)

/-- The state of the page. -/
structure Page where
  /-- The rows of the table, by request. -/
  rows : Dict String Row
  requestInfo : Dict String RequestInfo
  totalEvents : ℕ
  rollbackCount : ℕ
  /-- The number on the card `Rejected`. -/
  reject : ℕ
  /-- The amount on the card of the budget. -/
  budget : Option ℚ
  /-- The summary that the other cards show. -/
  summary : Option Summary
  currentRunId : Option String
  /-- The rows of the runs, by request. -/
  runs : Dict String (Dict String Row)
  /-- The run catalogue, from top to bottom. -/
  catalogue : List RunCard

namespace Page

/-- The page when it is loaded. -/
def new : Page where
  rows := .empty
  requestInfo := .empty
  totalEvents := 0
  rollbackCount := 0
  reject := 0
  budget := none
  summary := none
  currentRunId := none
  runs := .empty
  catalogue := []

variable (page : Page)

/-- The run that events are recorded for. -/
def activeRun : Option String := page.currentRunId.filter (· ≠ "")

/-- `addRow`. -/
def addRow (payload : Payload) : Page :=
  let id := payload.requestId
  let requestInfo := match payload.info? with
    | some info => page.requestInfo.set id info
    | none => page.requestInfo
  let shown := cells payload (requestInfo.get? id)
  let marked := (page.rows.get? id).any Row.isRollback || payload.isRollback
  { page with
    requestInfo := requestInfo
    rows := page.rows.set id ⟨shown, marked⟩
    totalEvents := page.totalEvents + 1
    runs := match page.activeRun with
      | some runId =>
        match page.runs.get? runId with
        | some events => page.runs.set runId (events.set id ⟨shown, payload.isRollback⟩)
        | none => page.runs
      | none => page.runs }

/-- `patchCardsFromEvent`. -/
def patchCardsFromEvent (payload : Payload) : Page :=
  { page with
    budget := payload.budgetRemaining? <|> page.budget
    rollbackCount := if payload.isRollback then page.rollbackCount + 1 else page.rollbackCount
    reject := if payload.isFail || payload.isRollback then page.reject + 1 else page.reject }

/-- `buildRunCard`. -/
def buildRunCard (runId verdict : String) : RunCard where
  runId := runId
  isPass := verdict = "PASS"
  events := ((page.runs.get? runId).elim [] Dict.items).reverse

/-- The handler `onmessage` of the event stream. -/
def onmessage : Message → Page
  | .marker (.runStart runId) =>
    { page with currentRunId := runId, runs := page.runs.set runId .empty }
  | .marker (.runComplete runId verdict) =>
    if page.activeRun = some runId then
      { page with
        catalogue := page.buildRunCard runId verdict :: page.catalogue
        currentRunId := none }
    else page
  | .payload payload => (page.addRow payload).patchCardsFromEvent payload

/-- `updateCards`, with a reply of `/summary`. -/
def updateCards (data : Summary) : Page :=
  { page with
    summary := some data
    budget := some data.budgetRemaining
    reject := data.routeCounts .failFast + page.rollbackCount }

end Page

/-- The characters that the page can read as markup. -/
def markup : List Char := ['<', '>', '&', '"', '\'']

/-- The text contains no markup. -/
def IsPlain (text : String) : Prop := ∀ c ∈ text.toList, c ∉ markup

instance (text : String) : Decidable (IsPlain text) :=
  List.decidableBAll (fun c => c ∉ markup) text.toList

/-- The id in a message, which the page shows and finds its rows by: that of the request or that of
the run. -/
def Message.id : Message → String
  | .payload p => p.requestId
  | .marker (.runStart runId) | .marker (.runComplete runId _) => runId

/-- What happens to the page: the stream is connected, a message arrives, or a reply of
`/summary`. -/
inductive PageEvent
  | connected
  | message (message : Message) (plain : IsPlain message.id)
  | summary (data : Summary)

/-- The page after an event. -/
def Page.handle (page : Page) : PageEvent → Page
  | .connected => page
  | .message message _ => page.onmessage message
  | .summary data => page.updateCards data

/-- The page after a list of events, the latest first. -/
def Page.after : List PageEvent → Page
  | [] => .new
  | e :: es => (after es).handle e

end InferenceRouter
