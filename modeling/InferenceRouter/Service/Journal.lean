import InferenceRouter.Service.Report

/-!
# The journal of a request

The events about a request, in a run of the service with all its other requests: what the handlers
publish goes to one bus, from which every stream gets it. The events of a handler stand there in
order, and all events are events of the handlers; the markers of test runs come in between. If a
request id is used once, the events about it are therefore the account that the handler gives of its
request, and a client that has been connected all along and that keeps up gets this account,
complete and in order.

## Main definitions

* `InferenceRouter.publications`: the events of requests that have been published in a run.
* `InferenceRouter.takenBy`: the messages that a client has taken from its queue.

## Main results

* `InferenceRouter.journal_of_run`: the events about a request are those of its handler.
* `InferenceRouter.stream_of_run`: a client that keeps up gets the account of the handler.
-/

namespace InferenceRouter

open Foundation

variable {config : Config} {classify : String → ComplexityTier}
  {p p' : Pool (service config classify)} {c : Choice (service config classify)}
  {tr : List (Pool (service config classify) × Choice (service config classify))}

/-! ### What has been published -/

/-- The message that an event of the bus publishes. -/
def BroadcastEvent.message? {α : Type} : BroadcastEvent α → Option α
  | publish message => some message
  | subscribe _ | unsubscribe _ | consume _ _ => none

/-- The message that a step of the service publishes. -/
def publication (p : Pool (service config classify)) (c : Choice (service config classify)) :
    Option Message :=
  (busEvent p c).bind BroadcastEvent.message?

/-- The event of a request that a step of the service publishes. -/
def announced (p : Pool (service config classify)) (c : Choice (service config classify)) :
    Option Payload :=
  (publication p c).bind Message.payload?

/-- The events of requests that have been published in a run, the latest first. -/
def publications
    (tr : List (Pool (service config classify) × Choice (service config classify))) :
    List Payload :=
  tr.filterMap fun t => announced t.1 t.2

/-- What the handlers have published. -/
def accountsOf (ts : List (Thread (service config classify))) : List Payload :=
  ts.flatMap fun t => published t.history

theorem publications_cons :
    publications ((p, c) :: tr) = (announced p c).toList ++ publications tr := by
  rw [publications, List.filterMap_cons]
  cases announced p c <;> rfl

theorem published_cons (ev : Event signature) (h : History signature) :
    published (ev :: h) = (payload? ev).toList ++ published h := by
  rw [published, List.filterMap_cons]
  cases payload? ev <;> rfl

@[simp] theorem published_nil : published ([] : History signature) = [] := rfl

/-- A handler that performs an effect publishes what the effect says. -/
theorem announced_resume {pre post : List (Thread (service config classify))}
    {t : Thread (service config classify)} {e : Effect}
    {k : e.Reply → Program signature InferenceResponse} (hthreads : p.threads = pre ++ t :: post)
    (hprogram : t.program = .perform e k) (o : Oracle) (r : e.Reply) :
    announced p (.resume pre.length o) = payload? ⟨e, r⟩ := by
  have hnext : (p.threads[pre.length]?).bind Thread.next = some e := by
    rw [hthreads, Pool.getElem?_middle, Option.bind_some, Thread.next_of_perform hprogram]
  rw [announced, publication, busEvent, hnext, Option.bind_some]
  cases e <;> rfl

/-- The environment publishes no event of a request. -/
theorem announced_act (p : Pool (service config classify)) (a : ServiceAction) :
    announced p (.act a) = none := by
  cases a with
  | consume client =>
    rw [announced, publication, busEvent]
    cases p.state.eventBus.consume client <;> rfl
  | reap | connect | disconnect | mark => rfl

/-! ### The handlers and the journal -/

/-- **What a step publishes** is published by a handler. -/
theorem accountsOf_step (h : p.Step c p') :
    (accountsOf p'.threads).Perm ((announced p c).toList ++ accountsOf p.threads) := by
  cases h.outcome with
  | spawned arg =>
    rw [accountsOf, List.flatMap_append]
    exact List.Perm.of_eq (List.append_nil _)
  | @resumed pre t post e k o r s' hthreads hprogram =>
    rw [announced_resume hthreads hprogram o r, hthreads, accountsOf, accountsOf,
      List.flatMap_append, List.flatMap_append, List.flatMap_cons, List.flatMap_cons,
      Thread.answered, published_cons, List.append_assoc]
    exact List.perm_append_comm_assoc _ _ _
  | @acted a s' =>
    rw [announced_act]
    exact List.Perm.refl _

/-- **All events are events of the handlers.** -/
theorem publications_perm (run : Run Pool.Step (initial config classify) tr p) :
    (accountsOf p.threads).Perm (publications tr) := by
  induction run with
  | start => exact List.Perm.refl _
  | step run h ih =>
    rw [publications_cons]
    exact (accountsOf_step h).trans (ih.append_left _)

/-- **The events of a handler** stand in the journal, in order. -/
theorem published_sublist (run : Run Pool.Step (initial config classify) tr p) :
    ∀ t ∈ p.threads, (published t.history).Sublist (publications tr) := by
  induction run with
  | start => simp [initial]
  | @step tr p c p' run h ih =>
    have hold : ∀ t ∈ p.threads, (published t.history).Sublist (publications ((p, c) :: tr)) := by
      intro t ht
      rw [publications_cons]
      exact (ih t ht).trans (List.sublist_append_right _ _)
    cases h.outcome with
    | spawned arg =>
      exact List.forall_mem_append.mpr
        ⟨hold, List.forall_mem_singleton.mpr (List.nil_sublist _)⟩
    | @resumed pre t post e k o r s' hthreads hprogram =>
      rw [hthreads] at hold
      refine forall_mem_replace hold fun _ => ?_
      have ht : t ∈ p.threads := hthreads ▸ List.mem_append_right _ List.mem_cons_self
      rw [publications_cons, announced_resume hthreads hprogram o r, Thread.answered,
        published_cons]
      exact (ih t ht).append_left _
    | acted => exact hold

/-- A handler publishes about its request only. -/
theorem requestId_of_published (run : Run Pool.Step (initial config classify) tr p) :
    ∀ t ∈ p.threads, ∀ payload ∈ published t.history, payload.requestId = t.arg.requestId := by
  intro t ht payload hpayload
  obtain ⟨⟨e, r⟩, hev, hpublish⟩ := List.mem_filterMap.mp hpayload
  obtain ⟨h', hacts⟩ := (Pool.answered_of_run rfl run t ht).exists_allowed
    (inference_reports config classify t.arg) _ hev
  cases e with
  | publish payload' =>
    obtain rfl := Option.some.inj hpublish
    exact hacts
  | tryReserve | commit | rollback | readReservation | budgetSnapshot | activeCount
  | isAtCapacity | maxConcurrency | acquire | release | getEstimate | record | countRoute
  | simulateLocalInference | simulateRemoteInference => cases hpublish

/-- The handlers with the request id `id`. -/
def withId (id : String) (ts : List (Thread (service config classify))) :
    List (Thread (service config classify)) :=
  ts.filter fun t => t.arg.requestId = id

/-- The events about a request, among those of all handlers, are those of its handlers. -/
theorem about_accountsOf (id : String) {ts : List (Thread (service config classify))}
    (habout : ∀ t ∈ ts, ∀ payload ∈ published t.history, payload.requestId = t.arg.requestId) :
    about id (accountsOf ts) = accountsOf (withId id ts) := by
  induction ts with
  | nil => rfl
  | cons t ts ih =>
    obtain ⟨hfirst, hrest⟩ := List.forall_mem_cons.mp habout
    have hcons : about id (accountsOf (t :: ts)) =
        about id (published t.history) ++ about id (accountsOf ts) := by
      rw [accountsOf, List.flatMap_cons, about, List.filter_append]
      rfl
    rw [hcons, ih hrest]
    by_cases hid : t.arg.requestId = id
    · have hall : about id (published t.history) = published t.history :=
        List.filter_eq_self.mpr fun payload hpayload =>
          decide_eq_true ((hfirst payload hpayload).trans hid)
      have hkeep : withId id (t :: ts) = t :: withId id ts :=
        List.filter_cons_of_pos (decide_eq_true hid)
      rw [hkeep, hall]
      rfl
    · have hnone : about id (published t.history) = [] :=
        List.filter_eq_nil_iff.mpr fun payload hpayload hof =>
          hid ((hfirst payload hpayload).symm.trans (of_decide_eq_true hof))
      have hdrop : withId id (t :: ts) = withId id ts :=
        List.filter_cons_of_neg fun hof => hid (of_decide_eq_true hof)
      rw [hdrop, hnone]
      rfl

/-- **The events about a request** are those of its handlers. -/
theorem journal_perm (run : Run Pool.Step (initial config classify) tr p) (id : String) :
    (accountsOf (withId id p.threads)).Perm (about id (publications tr)) :=
  about_accountsOf id (requestId_of_published run) ▸ (publications_perm run).filter _

/-- They are those of its handler, in order, if there is one. -/
theorem journal_eq (run : Run Pool.Step (initial config classify) tr p) {id : String}
    {t : Thread (service config classify)} (honly : withId id p.threads = [t]) :
    about id (publications tr) = published t.history := by
  have hmem : t ∈ withId id p.threads := by simp [honly]
  obtain ⟨ht, hid⟩ := List.mem_filter.mp hmem
  have hperm := journal_perm run id
  rw [honly, accountsOf, List.flatMap_singleton] at hperm
  have hsublist := (published_sublist run t ht).filter fun payload => payload.requestId = id
  rw [List.filter_eq_self.mpr fun payload hpayload => decide_eq_true
    ((requestId_of_published run t ht payload hpayload).trans (of_decide_eq_true hid))] at hsublist
  exact (hsublist.eq_of_length hperm.length_eq).symm

/-- **The journal of a request.** In every run of the service, the events about a request, among all
that have been published, are those that its handlers have published. If it has one handler, they
are what this handler has published, in order; and once it has ended they report its outcome, with
its calls of the backends and its rollbacks. -/
theorem journal_of_run (run : Run Pool.Step (initial config classify) tr p) (id : String) :
    (accountsOf (withId id p.threads)).Perm (about id (publications tr)) ∧
      ∀ t, withId id p.threads = [t] → about id (publications tr) = published t.history ∧
        ∀ out, t.outcome = some out →
          Reported t.arg out (about id (publications tr)) (calls t.history)
            (rollbacks t.history) := by
  refine ⟨journal_perm run id, fun t honly => ⟨journal_eq run honly, fun out hout => ?_⟩⟩
  have hmem : t ∈ withId id p.threads := by simp [honly]
  rw [journal_eq run honly]
  exact reported_of_run run (List.mem_of_mem_filter hmem) hout

/-- The journal of a request that is served while another one is at work. -/
theorem journal_of_served : ∃ tr p,
    Run Pool.Step (initial .default fun _ => .quality) tr p ∧
      (publications tr).length = 3 ∧
      ∃ t, withId sampleRequest.requestId p.threads = [t] ∧ t.outcome.isSome ∧
        about sampleRequest.requestId (publications tr) = published t.history := by
  obtain ⟨tr, p, run, hlength, hone, hended⟩ := Pool.exists_run_trace
    (P := fun tr (p : Pool (service .default fun _ => .quality)) =>
      (publications tr).length = 3 ∧
      (withId sampleRequest.requestId p.threads).length = 1 ∧
      ∀ t ∈ withId sampleRequest.requestId p.threads, t.outcome.isSome)
    (initial .default fun _ => .quality)
    (.spawn sampleRequest :: .spawn { sampleRequest with requestId := "other" } ::
      (advance 0 9 { answer := .ok (sampleResult 0 0) } ++ advance 1 9 { uuid := "1" } ++
        advance 0 6 { answer := .ok (sampleResult 0 0) }))
    (by decide +kernel)
  obtain ⟨t, honly⟩ := List.length_eq_one_iff.mp hone
  exact ⟨tr, p, run, hlength, t, honly, hended t (by simp [honly]),
    ((journal_of_run run _).2 t honly).1⟩

/-! ### The streams -/

/-- The message that the client `client` takes in an event of the bus. -/
def BroadcastEvent.taken? {α : Type} (client : ℕ) : BroadcastEvent α → Option α
  | consume q message => if q = client then some message else none
  | publish _ | subscribe _ | unsubscribe _ => none

/-- What the client `client` has taken from its queue in a run, the latest first. -/
def takenBy (client : ℕ)
    (tr : List (Pool (service config classify) × Choice (service config classify))) :
    List Message :=
  tr.filterMap fun t => (busEvent t.1 t.2).bind (BroadcastEvent.taken? client)

/-- The message is an event of the request `id`. -/
def Message.IsAbout (id : String) (message : Message) : Prop :=
  ∃ payload ∈ message.payload?, payload.requestId = id

instance (id : String) : DecidablePred (Message.IsAbout id) := fun message =>
  inferInstanceAs (Decidable (∃ payload ∈ message.payload?, payload.requestId = id))

/-- The client `client` keeps up with the request `id`: it is connected at every publication about
the request, and there is room in its queue at every publication, be it of an event or of a
marker. -/
def KeepsUp (client : ℕ) (id : String)
    (tr : List (Pool (service config classify) × Choice (service config classify))) : Prop :=
  ∀ t ∈ tr, ∀ message ∈ publication t.1 t.2,
    (message.IsAbout id → client ∈ t.1.state.eventBus.subscribers.map Prod.fst) ∧
      ∀ s ∈ t.1.state.eventBus.subscribers, s.1 = client → s.2.items.length < maxQueueSize

instance (client : ℕ) (id : String)
    (tr : List (Pool (service config classify) × Choice (service config classify))) :
    Decidable (KeepsUp client id tr) :=
  inferInstanceAs (Decidable (∀ t ∈ tr, ∀ message ∈ publication t.1 t.2, _ ∧ _))

/-- The events of the bus in a run of the service, with the bus before each of them. -/
def busTrace (tr : List (Pool (service config classify) × Choice (service config classify))) :
    List (EventBus × BroadcastEvent Message) :=
  tr.filterMap fun t => (busEvent t.1 t.2).map fun ev => (t.1.state.eventBus, ev)

/-- The bus of the module stands for that of the service at every event. -/
def Traces (btr : List (Broadcast Message × BroadcastEvent Message))
    (etr : List (EventBus × BroadcastEvent Message)) : Prop :=
  List.Forall₂ (fun t s => s.1.Represents t.1 ∧ s.2 = t.2) btr etr

/-- **The bus in a run of the service** is that of the module at every event. -/
theorem exists_traces (run : Run Pool.Step (initial config classify) tr p) :
    ∃ btr b, Run BroadcastStep .new btr b ∧ p.state.eventBus.Represents b ∧
      Traces btr (busTrace tr) := by
  induction run with
  | start => exact ⟨[], .new, .start, EventBus.represents_new, .nil⟩
  | @step tr p c p' run h ih =>
    obtain ⟨btr, b, brun, hrep, htraces⟩ := ih
    rcases step_eventBus (wellFormed_of_run brun) hrep h with
      ⟨hnone, hrep'⟩ | ⟨ev, b', hsome, hstep, hrep'⟩
    · refine ⟨btr, b, brun, hrep', ?_⟩
      rw [busTrace, List.filterMap_cons_none (by rw [hnone]; rfl)]
      exact htraces
    · refine ⟨_, b', brun.step hstep, hrep', ?_⟩
      rw [busTrace, List.filterMap_cons_some (by rw [hsome]; rfl)]
      exact .cons ⟨hrep, rfl⟩ htraces

variable {btr : List (Broadcast Message × BroadcastEvent Message)}

/-- What is read off the events is the same of both traces. -/
theorem Traces.filterMap {α : Type} (f : BroadcastEvent Message → Option α)
    (h : Traces btr (busTrace tr)) :
    (tr.filterMap fun t => (busEvent t.1 t.2).bind f) = btr.filterMap fun t => f t.2 := by
  have hevents : (tr.filterMap fun t => (busEvent t.1 t.2).bind f) =
      (busTrace tr).filterMap fun s => f s.2 := by
    rw [busTrace, List.filterMap_filterMap]
    refine List.filterMap_congr fun t _ => ?_
    cases busEvent t.1 t.2 <;> rfl
  rw [hevents]
  generalize busTrace tr = etr at h
  induction h with
  | nil => rfl
  | cons hhead htail ih => rw [List.filterMap_cons, List.filterMap_cons, hhead.2, ih]

/-- What a client has taken from its queue. -/
theorem consumedBy_eq {α : Type} (q : ℕ) (btr : List (Broadcast α × BroadcastEvent α)) :
    consumedBy q btr = (btr.filterMap fun t => t.2.taken? q).reverse := by
  induction btr with
  | nil => rfl
  | cons t btr ih =>
    obtain ⟨b, ev⟩ := t
    rw [List.filterMap_cons]
    cases ev with
    | subscribe | unsubscribe | publish => exact ih
    | consume q' payload =>
      rw [consumedBy, BroadcastEvent.taken?]
      split_ifs
      · rw [List.reverse_cons, ih]
      · exact ih

/-- A client that is connected at every event of a kind misses none of them. -/
theorem filter_publishedTo {α : Type} {btr : List (Broadcast α × BroadcastEvent α)}
    {b : Broadcast α} (run : Run BroadcastStep .new btr b) {q : ℕ} {kind : α → Bool}
    (hconnected : ∀ t ∈ btr, ∀ payload, t.2 = .publish payload → kind payload →
      q ∈ t.1.subscribers) :
    (publishedTo q btr).filter kind =
      ((btr.filterMap fun t => t.2.message?).filter kind).reverse := by
  induction run with
  | start => rfl
  | @step btr b ev b' run h ih =>
    have hih := ih fun t ht => hconnected t (List.mem_cons_of_mem _ ht)
    rw [List.filterMap_cons]
    cases ev with
    | subscribe | unsubscribe | consume => exact hih
    | publish payload =>
      dsimp only [BroadcastEvent.message?, publishedTo]
      rw [List.filter_cons]
      by_cases hkind : kind payload = true
      · have hq := hconnected _ List.mem_cons_self payload rfl hkind
        have hone : [payload].filter kind = [payload] := List.filter_cons_of_pos hkind
        rw [if_pos ((connected_iff run q).mpr hq), if_pos hkind, List.filter_append, hih, hone,
          List.reverse_cons]
        rfl
      · have hnone : [payload].filter kind = [] := List.filter_cons_of_neg hkind
        rw [if_neg hkind]
        split_ifs
        · rw [List.filter_append, hnone, List.append_nil]
          exact hih
        · exact hih

/-- A client whose queue is never full at a publication gets all that is published. -/
theorem consumedBy_append_held {α : Type} {btr : List (Broadcast α × BroadcastEvent α)}
    {b : Broadcast α} (run : Run BroadcastStep .new btr b) (q : ℕ)
    (hroom : ∀ t ∈ btr, ∀ payload, t.2 = .publish payload → q ∈ t.1.subscribers →
      (t.1.held q).length < maxQueueSize) :
    consumedBy q btr ++ b.held q = publishedTo q btr := by
  obtain ⟨hputs, htakes, -⟩ := mailTrace_spec run q
  rw [← hputs, ← htakes]
  refine mail_lossless (mailRun run q) fun m hm payload hput => ?_
  obtain ⟨t, ht, hlabel⟩ := List.mem_filterMap.mp hm
  obtain ⟨e, he, rfl⟩ := Option.map_eq_some_iff.mp hlabel
  obtain rfl : e = .put payload := hput
  obtain ⟨hpublish, hq⟩ := mailLabel_eq_put he
  exact hroom t ht payload hpublish hq

/-- A condition on the publications of the service is one on those of the module. -/
theorem Traces.forall_publish {P : EventBus → Message → Prop}
    {Q : Broadcast Message → Message → Prop} (h : Traces btr (busTrace tr))
    (hP : ∀ t ∈ tr, ∀ message ∈ publication t.1 t.2, P t.1.state.eventBus message)
    (hQ : ∀ bus b message, bus.Represents b → P bus message → Q b message) :
    ∀ t ∈ btr, ∀ message, t.2 = .publish message → Q t.1 message := by
  have hbus : ∀ s ∈ busTrace tr, ∀ message, s.2 = .publish message → P s.1 message := by
    intro s hs message hpublish
    obtain ⟨t, ht, hmap⟩ := List.mem_filterMap.mp hs
    obtain ⟨ev, hev, rfl⟩ := Option.map_eq_some_iff.mp hmap
    refine hP t ht message ?_
    obtain rfl : ev = .publish message := hpublish
    rw [publication, hev]
    exact rfl
  generalize busTrace tr = etr at h hbus
  induction h with
  | nil => simp
  | cons hhead htail ih =>
    obtain ⟨hfirst, hrest⟩ := List.forall_mem_cons.mp hbus
    refine List.forall_mem_cons.mpr ⟨fun message hpublish => ?_, ih hrest⟩
    exact hQ _ _ _ hhead.1 (hfirst message (hhead.2.trans hpublish))

/-- The events of a request among some messages. -/
theorem about_payloadsOf (id : String) (messages : List Message) :
    about id (payloadsOf messages) = payloadsOf (messages.filter (Message.IsAbout id)) := by
  rw [about, payloadsOf, payloadsOf, List.filter_filterMap, List.filterMap_filter]
  refine List.filterMap_congr fun message _ => ?_
  cases message with
  | payload p => simp [Message.payload?, Message.IsAbout, Option.filter_some]
  | marker => simp [Message.payload?]

/-- A client that keeps up with a request gets every event about it, in order. -/
theorem about_takenBy (run : Run Pool.Step (initial config classify) tr p) {id : String}
    {s : ℕ × EventQueue} (hs : s ∈ p.state.eventBus.subscribers) (hkeeps : KeepsUp s.1 id tr) :
    about id (payloadsOf (s.2.items.reverse ++ takenBy s.1 tr)) = about id (publications tr) := by
  obtain ⟨btr, b, brun, hrep, htraces⟩ := exists_traces run
  have hconnected : ∀ t ∈ btr, ∀ message, t.2 = .publish message → message.IsAbout id →
      s.1 ∈ t.1.subscribers :=
    htraces.forall_publish (P := fun bus message => message.IsAbout id →
      s.1 ∈ bus.subscribers.map Prod.fst) (fun t ht message hp => (hkeeps t ht message hp).1)
      fun bus b message hrep h => hrep.clients ▸ h
  have hroom : ∀ t ∈ btr, ∀ message, t.2 = .publish message → s.1 ∈ t.1.subscribers →
      (t.1.held s.1).length < maxQueueSize := by
    refine htraces.forall_publish (P := fun bus _ => ∀ s' ∈ bus.subscribers, s'.1 = s.1 →
        s'.2.items.length < maxQueueSize)
      (Q := fun b _ => s.1 ∈ b.subscribers → (b.held s.1).length < maxQueueSize)
      (fun t ht message hp => (hkeeps t ht message hp).2) ?_
    intro bus b message hrep h hmem
    rw [← hrep.clients] at hmem
    obtain ⟨s', hs', heq⟩ := List.mem_map.mp hmem
    rw [← heq, ← hrep.items s' hs']
    exact h s' hs' heq
  have htaken : consumedBy s.1 btr = (takenBy s.1 tr).reverse := by
    rw [consumedBy_eq, ← htraces.filterMap]
    rfl
  have hpublished : (publishedTo s.1 btr).filter (Message.IsAbout id) =
      ((tr.filterMap fun t => publication t.1 t.2).filter (Message.IsAbout id)).reverse := by
    rw [filter_publishedTo brun fun t ht message hp hid =>
      hconnected t ht message hp (of_decide_eq_true hid), ← htraces.filterMap]
    rfl
  have hheld := consumedBy_append_held brun s.1 hroom
  rw [htaken, ← hrep.items s hs] at hheld
  rw [← hheld] at hpublished
  have hgot : (s.2.items.reverse ++ takenBy s.1 tr).filter (Message.IsAbout id) =
      (tr.filterMap fun t => publication t.1 t.2).filter (Message.IsAbout id) := by
    refine List.reverse_injective (hpublished ▸ ?_)
    rw [← List.filter_reverse, List.reverse_append, List.reverse_reverse]
  have hevents : publications tr = payloadsOf (tr.filterMap fun t => publication t.1 t.2) := by
    rw [payloadsOf, List.filterMap_filterMap]
    rfl
  rw [hevents, about_payloadsOf, about_payloadsOf, hgot]

/-- **The stream of a client that keeps up.** A client that is connected at every publication about
a request with one handler, and whose queue has room at every publication, has the events of this
handler in order, of which it has taken the first ones and its queue holds the others. Once the
handler has ended, it has the report of its outcome. -/
theorem stream_of_run (run : Run Pool.Step (initial config classify) tr p)
    {t : Thread (service config classify)} {id : String} (honly : withId id p.threads = [t])
    {s : ℕ × EventQueue} (hs : s ∈ p.state.eventBus.subscribers) (hkeeps : KeepsUp s.1 id tr) :
    about id (payloadsOf (s.2.items.reverse ++ takenBy s.1 tr)) = published t.history ∧
      ∀ out, t.outcome = some out →
        Reported t.arg out (about id (payloadsOf (s.2.items.reverse ++ takenBy s.1 tr)))
          (calls t.history) (rollbacks t.history) := by
  have hmem : t ∈ withId id p.threads := by simp [honly]
  rw [about_takenBy run hs hkeeps, journal_eq run honly]
  exact ⟨rfl, fun out => reported_of_run run (List.mem_of_mem_filter hmem)⟩

/-- A client that takes a marker and the decision about a request, and whose queue holds the
completion. -/
theorem stream_of_served : ∃ tr p,
    Run Pool.Step (initial .default fun _ => .quality) tr p ∧
      ∃ t s, withId sampleRequest.requestId p.threads = [t] ∧ t.outcome.isSome ∧
        s ∈ p.state.eventBus.subscribers ∧ (takenBy s.1 tr).length = 2 ∧
        s.2.items.length = 1 ∧
        about sampleRequest.requestId (payloadsOf (s.2.items.reverse ++ takenBy s.1 tr)) =
          published t.history := by
  obtain ⟨tr, p, run, hone, hended, hclients, htaken⟩ := Pool.exists_run_trace
    (P := fun tr (p : Pool (service .default fun _ => .quality)) =>
      (withId sampleRequest.requestId p.threads).length = 1 ∧
      (∀ t ∈ withId sampleRequest.requestId p.threads, t.outcome.isSome) ∧
      p.state.eventBus.subscribers.length = 1 ∧
      ∀ s ∈ p.state.eventBus.subscribers, (takenBy s.1 tr).length = 2 ∧
        s.2.items.length = 1 ∧ KeepsUp s.1 sampleRequest.requestId tr)
    (initial .default fun _ => .quality)
    (.act .connect :: .act (.mark (.runStart "run")) :: .spawn sampleRequest ::
      (advance 0 9 { answer := .ok (sampleResult 0 0) } ++
        [.act (.consume 0), .act (.consume 0)] ++ advance 0 6 { answer := .ok (sampleResult 0 0) }))
    (by decide +kernel)
  obtain ⟨t, honly⟩ := List.length_eq_one_iff.mp hone
  obtain ⟨s, hs⟩ := List.length_eq_one_iff.mp hclients
  have hmem : s ∈ p.state.eventBus.subscribers := by simp [hs]
  obtain ⟨htook, hholds, hkeeps⟩ := htaken s hmem
  exact ⟨tr, p, run, t, s, honly, hended t (by simp [honly]), hmem, htook, hholds,
    (stream_of_run run honly hmem hkeeps).1⟩

end InferenceRouter
