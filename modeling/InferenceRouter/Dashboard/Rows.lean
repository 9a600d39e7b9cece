import InferenceRouter.Dashboard.Page

/-!
# What the dashboard shows

The rows of the page as functions of what has been heard of each request: other requests, however
their events are interleaved, the markers of test runs and the replies of `/summary` do not matter.
A row shows the latest event, with what the latest decision has told, and it is marked once a
rollback has been heard of. The rows of a run are those of the events since its start.

## Main definitions

* `InferenceRouter.payloads`: the payloads among the events of the page.
* `InferenceRouter.rowOf`: the row for an account of a request.
* `InferenceRouter.openRun`: the open run with the payloads since its start.

## Main results

* `InferenceRouter.Page.get?_rows`: the rows of the table.
* `InferenceRouter.Page.recorded_openRun`: the rows of the open run.
-/

namespace InferenceRouter

open Foundation

/-! ### Accounts -/

theorem about_cons_self (payload : Payload) (ps : List Payload) :
    about payload.requestId (payload :: ps) = payload :: about payload.requestId ps :=
  List.filter_cons_of_pos (decide_eq_true rfl)

theorem about_cons_of_ne {id : String} {payload : Payload} (h : id ≠ payload.requestId)
    (ps : List Payload) : about id (payload :: ps) = about id ps :=
  List.filter_cons_of_neg fun hof => h (of_decide_eq_true hof).symm

/-- The message in an event of the page. -/
def PageEvent.message? : PageEvent → Option Message
  | message m _ => some m
  | connected | summary _ => none

/-- The messages that the page has got, the latest first. -/
def messages (es : List PageEvent) : List Message := es.filterMap PageEvent.message?

@[simp] theorem messages_nil : messages [] = [] := rfl

@[simp] theorem messages_message (m : Message) (plain : IsPlain m.id) (es : List PageEvent) :
    messages (.message m plain :: es) = m :: messages es := rfl

/-- The payloads among the messages that the page has got. -/
def payloads (es : List PageEvent) : List Payload := payloadsOf (messages es)

/-- What the latest decision in an account tells. -/
def lastInfo (ps : List Payload) : Option RequestInfo := ps.findSome? Payload.info?

/-- The row for an account of a request, the latest event first. -/
def rowOf : List Payload → Option Row
  | [] => none
  | payload :: ps => some ⟨cells payload (lastInfo (payload :: ps)),
      (payload :: ps).any Payload.isRollback⟩

/-- The row of a run for the account of a request in the run and the whole one. -/
def entryOf (inRun whole : List Payload) : Option Row :=
  inRun.head?.map fun payload => ⟨cells payload (lastInfo whole), payload.isRollback⟩

theorem any_rowOf (ps : List Payload) :
    (rowOf ps).any Row.isRollback = ps.any Payload.isRollback := by
  cases ps <;> rfl

theorem lastInfo_cons (payload : Payload) (ps : List Payload) :
    lastInfo (payload :: ps) = (payload.info? <|> lastInfo ps) := by
  rw [lastInfo, List.findSome?_cons]
  cases payload.info? <;> rfl

/-! ### The rows of the table -/

namespace Page

/-- What the page has of a request by the account of it. -/
structure Knows (page : Page) (ps : List Payload) : Prop where
  requestInfo : ∀ id, page.requestInfo.get? id = lastInfo (about id ps)
  rows : ∀ id, page.rows.get? id = rowOf (about id ps)

variable {page : Page} {ps : List Payload}

theorem Knows.info (h : page.Knows ps) (payload : Payload) (id : String) :
    (page.addRow payload).requestInfo.get? id = lastInfo (about id (payload :: ps)) := by
  have hset : (page.addRow payload).requestInfo.get? id =
      if id = payload.requestId then (payload.info? <|> page.requestInfo.get? id)
      else page.requestInfo.get? id := by
    dsimp only [addRow]
    cases payload.info? with
    | none => split_ifs <;> rfl
    | some info =>
      rw [Dict.get?_set]
      split_ifs <;> rfl
  rw [hset, h.requestInfo]
  split_ifs with hid
  · rw [hid, about_cons_self, lastInfo_cons]
  · rw [about_cons_of_ne hid]

/-- **A payload** changes the row of its request only. -/
theorem Knows.addRow (h : page.Knows ps) (payload : Payload) :
    (page.addRow payload).Knows (payload :: ps) where
  requestInfo := h.info payload
  rows id := by
    have hinfo := h.info payload payload.requestId
    dsimp only [Page.addRow] at hinfo ⊢
    rw [Dict.get?_set, hinfo, h.rows payload.requestId, any_rowOf, h.rows]
    split_ifs with hid
    · rw [hid, about_cons_self, rowOf, List.any_cons, Bool.or_comm]
    · rw [about_cons_of_ne hid]

theorem knows_after (es : List PageEvent) : (after es).Knows (payloads es) := by
  induction es with
  | nil => exact ⟨fun _ => rfl, fun _ => rfl⟩
  | cons e es ih =>
    rcases e with _ | ⟨payload | (_ | ⟨runId, verdict⟩), plain⟩ | data
    · exact ih
    · exact ⟨(ih.addRow payload).requestInfo, (ih.addRow payload).rows⟩
    · exact ⟨ih.requestInfo, ih.rows⟩
    · have hpayloads : payloads (.message (.marker (.runComplete runId verdict)) plain :: es) =
          payloads es := rfl
      rw [hpayloads, after, handle, onmessage]
      split_ifs
      · exact ⟨ih.requestInfo, ih.rows⟩
      · exact ih
    · exact ⟨ih.requestInfo, ih.rows⟩

/-- **A row** shows the account of its request. -/
theorem get?_rows (es : List PageEvent) (id : String) :
    (after es).rows.get? id = rowOf (about id (payloads es)) :=
  (knows_after es).rows id

end Page

/-! ### The rows of a run -/

/-- The run that is open after a list of events, with the payloads since its start. -/
def openRun : List PageEvent → Option (String × List Payload)
  | [] => none
  | .message (.payload payload) _ :: es => (openRun es).map fun run => (run.1, payload :: run.2)
  | .message (.marker (.runStart runId)) _ :: _ => if runId = "" then none else some (runId, [])
  | .message (.marker (.runComplete runId _)) _ :: es =>
    (openRun es).filter fun run => run.1 ≠ runId
  | .connected :: es | .summary _ :: es => openRun es

namespace Page

/-- The page records the open run: the entries of a request are those of its account. -/
def Records (page : Page) (ps : List Payload) (run : Option (String × List Payload)) : Prop :=
  page.activeRun = run.map Prod.fst ∧ ∀ r ∈ run, ∃ events, page.runs.get? r.1 = some events ∧
    ∀ id, events.get? id = entryOf (about id r.2) (about id ps)

variable {page : Page} {ps : List Payload} {run : Option (String × List Payload)}

theorem records_runStart (page : Page) (runId : String) (ps : List Payload) :
    (page.onmessage (.marker (.runStart runId))).Records ps
      (if runId = "" then none else some (runId, [])) := by
  have hactive : (page.onmessage (.marker (.runStart runId))).activeRun =
      if runId = "" then none else some runId := by
    dsimp only [activeRun, onmessage]
    rw [Option.filter_some]
    by_cases hempty : runId = "" <;> simp [hempty]
  split_ifs at hactive ⊢
  · exact ⟨hactive, nofun⟩
  · refine ⟨hactive, fun r hr => ?_⟩
    obtain rfl := Option.some.inj hr
    refine ⟨.empty, ?_, fun id => rfl⟩
    dsimp only [onmessage]
    rw [Dict.get?_set, if_pos rfl]

theorem Records.runComplete (h : page.Records ps run) (runId verdict : String) :
    (page.onmessage (.marker (.runComplete runId verdict))).Records ps
      (run.filter fun r => r.1 ≠ runId) := by
  obtain ⟨hactive, hruns⟩ := h
  rw [onmessage]
  cases run with
  | none =>
    rw [if_neg (by rw [hactive]; simp)]
    exact ⟨hactive, nofun⟩
  | some r =>
    by_cases hid : r.1 = runId
    · rw [if_pos (by rw [hactive, Option.map_some, hid]),
        Option.filter_some_neg (by simpa using hid)]
      exact ⟨rfl, nofun⟩
    · rw [if_neg (by rw [hactive, Option.map_some, Option.some.injEq]; exact hid),
        Option.filter_some_pos (by simpa using hid)]
      exact ⟨hactive, hruns⟩

/-- **A payload** changes the entry of its request in the open run. -/
theorem Records.payload (h : page.Records ps run) (hknows : page.Knows ps) (payload : Payload) :
    (page.onmessage (.payload payload)).Records (payload :: ps)
      (run.map fun r => (r.1, payload :: r.2)) := by
  obtain ⟨hactive, hruns⟩ := h
  have hinfo := hknows.info payload payload.requestId
  cases run with
  | none => exact ⟨hactive, nofun⟩
  | some r =>
    obtain ⟨runId, inRun⟩ := r
    obtain ⟨events, hevents, hentries⟩ := hruns _ rfl
    refine ⟨hactive, fun r hr => ?_⟩
    obtain rfl := Option.some.inj hr
    dsimp only [addRow] at hinfo
    refine ⟨events.set payload.requestId ⟨cells payload
      (lastInfo (about payload.requestId (payload :: ps))), payload.isRollback⟩, ?_, fun id => ?_⟩
    · dsimp only [onmessage, patchCardsFromEvent, addRow]
      rw [hactive, Option.map_some]
      dsimp only
      rw [hevents]
      dsimp only
      rw [Dict.get?_set, if_pos rfl, hinfo]
    · rw [Dict.get?_set, hentries]
      split_ifs with hid
      · rw [hid, about_cons_self payload inRun]
        rfl
      · rw [about_cons_of_ne hid, about_cons_of_ne hid]

/-- **The page records the open run.** -/
theorem records_after (es : List PageEvent) : (after es).Records (payloads es) (openRun es) := by
  induction es with
  | nil => exact ⟨rfl, nofun⟩
  | cons e es ih =>
    rcases e with _ | ⟨payload | (runId | ⟨runId, verdict⟩), plain⟩ | data
    · exact ih
    · exact ih.payload (knows_after es) payload
    · exact records_runStart (after es) runId (payloads es)
    · exact ih.runComplete runId verdict
    · exact ih

end Page

/-- The open run is that of the latest start, with the payloads since then. -/
theorem openRun_eq_some {es : List PageEvent} {runId : String} {inRun : List Payload}
    (h : openRun es = some (runId, inRun)) :
    ∃ since earlier, ∃ plain : IsPlain runId,
      es = since ++ .message (.marker (.runStart runId)) plain :: earlier ∧
      inRun = payloads since ∧ (∀ id, .marker (.runStart id) ∉ messages since) ∧
      ∀ verdict, .marker (.runComplete runId verdict) ∉ messages since := by
  induction es generalizing inRun with
  | nil => cases h
  | cons e es ih =>
    rcases e with _ | ⟨payload | (started | ⟨ended, verdict⟩), plain⟩ | data
    · obtain ⟨since, earlier, hplain, rfl, rfl, hstart, hcomplete⟩ := ih h
      exact ⟨.connected :: since, earlier, hplain, rfl, rfl, hstart, hcomplete⟩
    · obtain ⟨⟨_, earlierInRun⟩, hopen, heq⟩ := Option.map_eq_some_iff.mp h
      cases heq
      obtain ⟨since, earlier, hplain, rfl, rfl, hstart, hcomplete⟩ := ih hopen
      exact ⟨.message _ plain :: since, earlier, hplain, rfl, rfl, by simp [hstart],
        by simp [hcomplete]⟩
    · rw [openRun] at h
      split_ifs at h
      cases h
      exact ⟨[], es, plain, rfl, rfl, by simp, by simp⟩
    · obtain ⟨hopen, hne⟩ := Option.filter_eq_some_iff.mp h
      obtain ⟨since, earlier, hplain, rfl, rfl, hstart, hcomplete⟩ := ih hopen
      refine ⟨.message _ plain :: since, earlier, hplain, rfl, rfl, by simp [hstart],
        fun v hv => ?_⟩
      rcases List.mem_cons.mp hv with heq | hv
      · cases heq
        simp at hne
      · exact hcomplete v hv
    · obtain ⟨since, earlier, hplain, rfl, rfl, hstart, hcomplete⟩ := ih h
      exact ⟨.summary data :: since, earlier, hplain, rfl, rfl, hstart, hcomplete⟩

/-- The card of a test run that was open with the payloads `inRun`, after the events `es`. -/
structure RunCard.Tells (card : RunCard) (verdict : String) (inRun : List Payload)
    (es : List PageEvent) : Prop where
  isPass : card.isPass = decide (verdict = "PASS")
  nodup : (card.events.map Prod.fst).Nodup
  entries : ∀ id row, (id, row) ∈ card.events ↔
    entryOf (about id inRun) (about id (payloads es)) = some row

namespace Page

theorem Records.buildRunCard {page : Page} {es : List PageEvent} {runId : String}
    {inRun : List Payload} (h : page.Records (payloads es) (some (runId, inRun)))
    (verdict : String) : (page.buildRunCard runId verdict).Tells verdict inRun es := by
  obtain ⟨events, hevents, hentries⟩ := h.2 _ rfl
  have hcard : (page.buildRunCard runId verdict).events = events.items.reverse := by
    dsimp only [Page.buildRunCard]
    rw [hevents]
    rfl
  refine ⟨rfl, ?_, fun id row => ?_⟩
  · rw [hcard, List.map_reverse, List.nodup_reverse]
    exact events.nodup_keys
  · rw [hcard, List.mem_reverse, ← Dict.get?_eq_some_iff, hentries]

/-- **The cards of the catalogue.** Each has been built at the end of a run, from the events since
its start. -/
theorem catalogue_after (es : List PageEvent) : ∀ card ∈ (after es).catalogue,
    ∃ later verdict before inRun, ∃ plain : IsPlain card.runId,
      es = later ++ .message (.marker (.runComplete card.runId verdict)) plain :: before ∧
        openRun before = some (card.runId, inRun) ∧ card.Tells verdict inRun before := by
  induction es with
  | nil => simp [after, new]
  | cons e es ih =>
    have hold : ∀ card ∈ (after es).catalogue, ∃ later verdict before inRun,
        ∃ plain : IsPlain card.runId,
          e :: es = later ++ .message (.marker (.runComplete card.runId verdict)) plain :: before ∧
          openRun before = some (card.runId, inRun) ∧ card.Tells verdict inRun before := by
      intro card hcard
      obtain ⟨later, verdict, before, inRun, plain, heq, hcard⟩ := ih card hcard
      exact ⟨e :: later, verdict, before, inRun, plain, congrArg (e :: ·) heq, hcard⟩
    rcases e with _ | ⟨payload | (_ | ⟨runId, verdict⟩), plain⟩ | data
    · exact hold
    · exact hold
    · exact hold
    · have hrecords := records_after es
      rw [after, handle, onmessage]
      split_ifs with hactive
      · rw [hrecords.1] at hactive
        obtain ⟨⟨_, inRun⟩, hopen, rfl⟩ := Option.map_eq_some_iff.mp hactive
        rw [hopen] at hrecords
        exact List.forall_mem_cons.mpr
          ⟨⟨[], verdict, es, inRun, plain, rfl, hopen, hrecords.buildRunCard verdict⟩, hold⟩
      · exact hold
    · exact hold

end Page

/-- **What the dashboard shows** does not depend on how requests are interleaved. After any messages
and replies, the table has one row for each request that has been heard of, with the account of this
request; and each card of the catalogue stands for a run that has been started and completed, with
one entry for each request heard of in between, for the latest event about it. -/
theorem dashboard_shows (es : List PageEvent) :
    (∀ id, (Page.after es).rows.get? id = rowOf (about id (payloads es))) ∧
      ∀ card ∈ (Page.after es).catalogue, ∃ later verdict since earlier,
        ∃ plain : IsPlain card.runId,
          es = later ++ .message (.marker (.runComplete card.runId verdict)) plain ::
            (since ++ .message (.marker (.runStart card.runId)) plain :: earlier) ∧
          (∀ id, .marker (.runStart id) ∉ messages since) ∧
          (∀ v, .marker (.runComplete card.runId v) ∉ messages since) ∧
          card.Tells verdict (payloads since)
            (since ++ .message (.marker (.runStart card.runId)) plain :: earlier) := by
  refine ⟨Page.get?_rows es, fun card hcard => ?_⟩
  obtain ⟨later, verdict, before, inRun, plain, rfl, hopen, hcard⟩ :=
    Page.catalogue_after es card hcard
  obtain ⟨since, earlier, _, rfl, rfl, hstart, hcomplete⟩ := openRun_eq_some hopen
  exact ⟨later, verdict, since, earlier, plain, rfl, hstart, hcomplete, hcard⟩

end InferenceRouter
