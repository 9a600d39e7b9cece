import InferenceRouter.Events.Bus
import InferenceRouter.Foundation.Ring
import Mathlib.Data.List.Nodup

/-!
# The delivery of events

The module `app/event_bus.py` with its queues as `asyncio` has them: the bound on a queue is not a
field here, and `put_nowait` and `get_nowait` raise. That `publish` never raises, and what a client
receives under any interleaving with the others, is the result: the queue of every client is a
mailbox of its own.

A queue outlives its subscription. Its identity is the number of queues that were created before
it, and a client may take events from it after it has been unsubscribed.

## Main definitions

* `InferenceRouter.AsyncQueue`, with `AsyncQueue.getNowait` and `AsyncQueue.putNowait`.
* `InferenceRouter.Broadcast`, with `Broadcast.subscribe`, `Broadcast.unsubscribe`,
  `Broadcast.publish` and `Broadcast.consume`; `InferenceRouter.BroadcastStep`.
* `InferenceRouter.publishedTo`, `InferenceRouter.consumedBy`, `InferenceRouter.viewOf`: what a
  trace says about one client.
* `InferenceRouter.EventBus.Represents`: the bus of the service holds the same events.

## Main results

* `InferenceRouter.Broadcast.WellFormed.publish_ok`: `publish` does not raise.
* `InferenceRouter.mailRun`: the queue of a client makes a run of a mailbox.
* `InferenceRouter.event_delivery`.
-/

namespace InferenceRouter

open Foundation

variable {α : Type}

/-! ### Queues -/

/-- The exceptions of an `asyncio.Queue`. -/
inductive QueueError
  | queueEmpty
  | queueFull

/-- An `asyncio.Queue`, the oldest item first. -/
structure AsyncQueue (α : Type) where
  maxsize : ℕ
  items : List α

namespace AsyncQueue

variable (q : AsyncQueue α)

/-- `Queue.full`. A queue with `maxsize` 0 is not bounded. -/
def full : Bool := decide (0 < q.maxsize ∧ q.maxsize ≤ q.items.length)

/-- `Queue.get_nowait`. -/
def getNowait : Except QueueError (α × AsyncQueue α) :=
  match q.items with
  | [] => .error .queueEmpty
  | x :: items => .ok (x, { q with items := items })

/-- `Queue.put_nowait`. -/
def putNowait (x : α) : Except QueueError (AsyncQueue α) :=
  if q.full then .error .queueFull else .ok { q with items := q.items ++ [x] }

/-- The body of the loop of `publish`: make room in a full queue, and put the event into it. -/
def offer (payload : α) : Except QueueError (AsyncQueue α) := do
  let q ←
    if q.full then
      match q.getNowait with
      | .ok (_, rest) => pure rest
      | .error .queueEmpty => pure q
      | .error x => throw x
    else pure q
  match q.putNowait payload with
  | .ok filled => pure filled
  | .error .queueFull => pure q
  | .error x => throw x

/-- The queue has the size that `subscribe` gives it, and does not exceed it. -/
structure Bounded (q : AsyncQueue α) : Prop where
  maxsize_eq : q.maxsize = maxQueueSize
  length_le : q.items.length ≤ maxQueueSize

variable {q}

/-- **An offer never raises**, and the event is put into the queue, which drops its oldest one if
it is full. -/
theorem Bounded.offer_eq (hq : q.Bounded) (payload : α) :
    q.offer payload = .ok ⟨maxQueueSize, ringPush maxQueueSize q.items payload⟩ := by
  obtain ⟨hsize, hle⟩ := hq
  obtain ⟨maxsize, items⟩ := q
  subst hsize
  have hpos : 0 < maxQueueSize := by decide
  cases items with
  | nil => rfl
  | cons x items =>
    by_cases hfull : maxQueueSize ≤ (x :: items).length
    · have hfull' : (⟨maxQueueSize, x :: items⟩ : AsyncQueue α).full = true :=
        decide_eq_true ⟨hpos, hfull⟩
      have hroom : (⟨maxQueueSize, items⟩ : AsyncQueue α).full = false := by
        refine decide_eq_false fun h => ?_
        have hlength := h.2
        rw [List.length_cons] at hle
        dsimp only at hlength
        omega
      rw [offer, hfull', ringPush, if_pos hfull]
      simp [getNowait, putNowait, hroom]
      rfl
    · have hroom : (⟨maxQueueSize, x :: items⟩ : AsyncQueue α).full = false :=
        decide_eq_false fun h => hfull h.2
      rw [offer, hroom, ringPush, if_neg hfull]
      simp [putNowait, hroom]
      rfl

theorem Bounded.ringPush (hq : q.Bounded) (payload : α) :
    Bounded ⟨maxQueueSize, ringPush maxQueueSize q.items payload⟩ where
  maxsize_eq := rfl
  length_le := by
    have hle := hq.length_le
    have hpos : 0 < maxQueueSize := by decide
    dsimp only [Foundation.ringPush]
    rw [List.length_append, List.length_singleton]
    split_ifs
    · rw [List.length_tail]
      omega
    · omega

end AsyncQueue

/-! ### The bus -/

/-- The state of the module: the queues that have been created, and the list `_subscribers` of the
connected ones. -/
structure Broadcast (α : Type) where
  queues : List (AsyncQueue α)
  subscribers : List ℕ

namespace Broadcast

/-- The module when it is imported. -/
def new : Broadcast α := ⟨[], []⟩

variable (b : Broadcast α)

/-- The queue `q`. -/
def queue (q : ℕ) : AsyncQueue α := b.queues.getD q ⟨maxQueueSize, []⟩

/-- The events that the queue `q` holds, the oldest first. -/
def held (q : ℕ) : List α := (b.queue q).items

/-- Update the queue `q`. -/
def setQueue (q : ℕ) (queue : AsyncQueue α) : Broadcast α :=
  { b with queues := b.queues.set q queue }

/-- `event_bus.subscribe`, which returns the queue `b.queues.length`. -/
def subscribe : Broadcast α where
  queues := b.queues ++ [⟨maxQueueSize, []⟩]
  subscribers := b.subscribers ++ [b.queues.length]

/-- `event_bus.unsubscribe`. -/
def unsubscribe (q : ℕ) : Broadcast α := { b with subscribers := b.subscribers.erase q }

/-- The loop of `publish`, over a list of queues. -/
def offerAll (payload : α) : List ℕ → Broadcast α → Except QueueError (Broadcast α)
  | [], b => pure b
  | q :: qs, b => do
    let queue ← (b.queue q).offer payload
    offerAll payload qs (b.setQueue q queue)

/-- `event_bus.publish`. -/
def publish (payload : α) : Except QueueError (Broadcast α) := b.offerAll payload b.subscribers

/-- A client takes the oldest event from the queue `q`, if there is one. -/
def consume (q : ℕ) : Option (α × Broadcast α) :=
  match (b.queue q).getNowait with
  | .ok (payload, queue) => some (payload, b.setQueue q queue)
  | .error _ => none

end Broadcast

/-- What happens on the bus: a client connects and gets the queue `q`, a queue is unsubscribed, an
event is published, or a client takes an event from its queue. -/
inductive BroadcastEvent (α : Type)
  | subscribe (q : ℕ)
  | unsubscribe (q : ℕ)
  | publish (payload : α)
  | consume (q : ℕ) (payload : α)

/-- The steps of the bus. None of the operations awaits, so that each is one step, and `publish`
does not wait for a client. -/
inductive BroadcastStep : Broadcast α → BroadcastEvent α → Broadcast α → Prop
  | subscribe (b) : BroadcastStep b (.subscribe b.queues.length) b.subscribe
  | unsubscribe (b q) : BroadcastStep b (.unsubscribe q) (b.unsubscribe q)
  | publish {b payload b'} (h : b.publish payload = .ok b') :
      BroadcastStep b (.publish payload) b'
  | consume {b q payload b'} (h : b.consume q = some (payload, b')) :
      BroadcastStep b (.consume q payload) b'

/-! ### The invariant -/

namespace Broadcast

/-- No queue is connected twice, every connected queue exists, and all queues are bounded. -/
structure WellFormed (b : Broadcast α) : Prop where
  nodup : b.subscribers.Nodup
  lt_length : ∀ q ∈ b.subscribers, q < b.queues.length
  bounded : ∀ queue ∈ b.queues, queue.Bounded

variable {b b' : Broadcast α}

theorem wellFormed_new : (new : Broadcast α).WellFormed := ⟨List.nodup_nil, by simp [new],
  by simp [new]⟩

theorem WellFormed.bounded_queue (hb : b.WellFormed) (q : ℕ) : (b.queue q).Bounded := by
  rw [queue, List.getD_eq_getElem?_getD]
  cases hget : b.queues[q]? with
  | none => exact ⟨rfl, Nat.zero_le _⟩
  | some queue => exact hb.bounded queue (List.mem_of_getElem? hget)

theorem queue_setQueue {q : ℕ} (hq : q < b.queues.length) (queue : AsyncQueue α) (q' : ℕ) :
    (b.setQueue q queue).queue q' = if q' = q then queue else b.queue q' := by
  dsimp only [Broadcast.queue, setQueue]
  rw [List.getD_eq_getElem?_getD, List.getD_eq_getElem?_getD]
  split_ifs with heq
  · rw [heq, List.getElem?_set_self hq]
    rfl
  · rw [List.getElem?_set_ne (Ne.symm heq)]

theorem WellFormed.setQueue (hb : b.WellFormed) (q : ℕ) {queue : AsyncQueue α}
    (hqueue : queue.Bounded) : (b.setQueue q queue).WellFormed where
  nodup := hb.nodup
  lt_length q' hq' := by
    rw [Broadcast.setQueue, List.length_set]
    exact hb.lt_length q' hq'
  bounded queue' hmem := by
    rcases List.mem_or_eq_of_mem_set hmem with hmem | rfl
    · exact hb.bounded queue' hmem
    · exact hqueue

/-- **The loop of `publish`** puts the event into every queue of the list, and does not raise. -/
theorem WellFormed.offerAll_ok (hb : b.WellFormed) (payload : α) {qs : List ℕ} (hqs : qs.Nodup)
    (hlt : ∀ q ∈ qs, q < b.queues.length) :
    ∃ b', b.offerAll payload qs = .ok b' ∧ b'.WellFormed ∧ b'.subscribers = b.subscribers ∧
      b'.queues.length = b.queues.length ∧
      ∀ q, b'.held q = if q ∈ qs then ringPush maxQueueSize (b.held q) payload else b.held q := by
  induction qs generalizing b with
  | nil => exact ⟨b, rfl, hb, rfl, rfl, by simp⟩
  | cons q qs ih =>
    obtain ⟨hq, hqs⟩ := List.nodup_cons.mp hqs
    obtain ⟨hltq, hlt⟩ := List.forall_mem_cons.mp hlt
    have hbounded := hb.bounded_queue q
    have hlength : (b.setQueue q
        ⟨maxQueueSize, ringPush maxQueueSize (b.held q) payload⟩).queues.length =
        b.queues.length := List.length_set
    obtain ⟨b', hall, hb', hsubscribers, hqueues, hheld⟩ :=
      ih (hb.setQueue q (hbounded.ringPush payload)) hqs (hlength ▸ hlt)
    refine ⟨b', ?_, hb', hsubscribers, hqueues.trans hlength, fun q' => ?_⟩
    · rw [offerAll, hbounded.offer_eq]
      exact hall
    · rw [hheld, held, queue_setQueue hltq]
      by_cases heq : q' = q
      · subst heq
        rw [if_neg hq, if_pos rfl, if_pos List.mem_cons_self]
        rfl
      · simp [heq, held]

/-- **`publish` never raises**: it puts the event into every connected queue, and leaves all others
as they are. -/
theorem WellFormed.publish_ok (hb : b.WellFormed) (payload : α) :
    ∃ b', b.publish payload = .ok b' ∧ b'.WellFormed ∧ b'.subscribers = b.subscribers ∧
      b'.queues.length = b.queues.length ∧ ∀ q, b'.held q =
        if q ∈ b.subscribers then ringPush maxQueueSize (b.held q) payload else b.held q :=
  hb.offerAll_ok payload hb.nodup hb.lt_length

/-- What a publication does. -/
theorem WellFormed.of_publish (hb : b.WellFormed) {payload : α} (h : b.publish payload = .ok b') :
    b'.WellFormed ∧ b'.subscribers = b.subscribers ∧ b'.queues.length = b.queues.length ∧
      ∀ q, b'.held q =
        if q ∈ b.subscribers then ringPush maxQueueSize (b.held q) payload else b.held q := by
  obtain ⟨_, hok, hspec⟩ := hb.publish_ok payload
  rw [h, Except.ok.injEq] at hok
  exact hok ▸ hspec

theorem held_subscribe (q : ℕ) : b.subscribe.held q = b.held q := by
  dsimp only [held, Broadcast.queue, subscribe]
  rw [List.getD_eq_getElem?_getD, List.getD_eq_getElem?_getD, List.getElem?_append]
  split_ifs with hlt
  · rfl
  · rw [List.getElem?_eq_none (Nat.le_of_not_lt hlt)]
    cases q - b.queues.length <;> rfl

/-- What taking an event from a queue does. -/
theorem consume_eq_some {q : ℕ} {payload : α} (h : b.consume q = some (payload, b')) :
    ∃ rest, q < b.queues.length ∧ b.held q = payload :: rest ∧
      b' = b.setQueue q { b.queue q with items := rest } := by
  dsimp only [consume, AsyncQueue.getNowait] at h
  cases hitems : (b.queue q).items with
  | nil =>
    rw [hitems] at h
    cases h
  | cons x rest =>
    rw [hitems] at h
    cases h
    refine ⟨rest, ?_, hitems, rfl⟩
    -- a queue that does not exist is empty
    by_contra hlt
    rw [Broadcast.queue, List.getD_eq_getElem?_getD,
      List.getElem?_eq_none (Nat.le_of_not_lt hlt)] at hitems
    cases hitems

theorem held_consume {q : ℕ} {rest : List α} (hlt : q < b.queues.length) (q' : ℕ)
    (hrest : b' = b.setQueue q { b.queue q with items := rest }) :
    b'.held q' = if q' = q then rest else b.held q' := by
  rw [hrest, held, queue_setQueue hlt]
  split_ifs <;> rfl

theorem WellFormed.step {e : BroadcastEvent α} (hb : b.WellFormed) (h : BroadcastStep b e b') :
    b'.WellFormed := by
  cases h with
  | subscribe =>
    refine ⟨List.nodup_append.mpr ⟨hb.nodup, List.nodup_singleton _, ?_⟩, ?_, ?_⟩
    · intro q hq q' hq'
      rw [List.mem_singleton.mp hq']
      exact (hb.lt_length q hq).ne
    · intro q hq
      dsimp only [subscribe]
      rw [List.length_append, List.length_singleton]
      rcases List.mem_append.mp hq with hq | hq
      · exact Nat.lt_succ_of_lt (hb.lt_length q hq)
      · rw [List.mem_singleton.mp hq]
        exact Nat.lt_succ_self _
    · intro queue hqueue
      rcases List.mem_append.mp hqueue with hqueue | hqueue
      · exact hb.bounded queue hqueue
      · rw [List.mem_singleton.mp hqueue]
        exact ⟨rfl, Nat.zero_le _⟩
  | unsubscribe q =>
    exact ⟨hb.nodup.erase q, fun q' hq' => hb.lt_length q' (List.mem_of_mem_erase hq'), hb.bounded⟩
  | publish hpublish => exact (hb.of_publish hpublish).1
  | @consume q payload _ hconsume =>
    obtain ⟨rest, hlt, hheld, rfl⟩ := consume_eq_some hconsume
    have hqueue := hb.bounded_queue q
    refine hb.setQueue q ⟨hqueue.maxsize_eq, ?_⟩
    have hle := hqueue.length_le
    rw [← held, hheld, List.length_cons] at hle
    exact Nat.le_of_succ_le hle

end Broadcast

/-! ### One client -/

section Client

variable {tr tr' : List (Broadcast α × BroadcastEvent α)} {b b' : Broadcast α} {q q' : ℕ}

/-- Whether the queue `q` is connected after a trace. -/
def connected (q : ℕ) : List (Broadcast α × BroadcastEvent α) → Bool
  | [] => false
  | (_, .subscribe q') :: tr => q' = q || connected q tr
  | (_, .unsubscribe q') :: tr => q' ≠ q && connected q tr
  | (_, .publish _) :: tr => connected q tr
  | (_, .consume _ _) :: tr => connected q tr

/-- The events published while the queue `q` is connected, the first one first. -/
def publishedTo (q : ℕ) : List (Broadcast α × BroadcastEvent α) → List α
  | [] => []
  | (_, .subscribe _) :: tr => publishedTo q tr
  | (_, .unsubscribe _) :: tr => publishedTo q tr
  | (_, .publish payload) :: tr =>
    if connected q tr then publishedTo q tr ++ [payload] else publishedTo q tr
  | (_, .consume _ _) :: tr => publishedTo q tr

/-- The events that have been taken from the queue `q`, the first one first. -/
def consumedBy (q : ℕ) : List (Broadcast α × BroadcastEvent α) → List α
  | [] => []
  | (_, .subscribe _) :: tr => consumedBy q tr
  | (_, .unsubscribe _) :: tr => consumedBy q tr
  | (_, .publish _) :: tr => consumedBy q tr
  | (_, .consume q' payload) :: tr =>
    if q' = q then consumedBy q tr ++ [payload] else consumedBy q tr

/-- What a trace is to the client of the queue `q`, the latest first: the events published while it
is connected, and the times at which it takes one from its queue. -/
def viewOf (q : ℕ) : List (Broadcast α × BroadcastEvent α) → List (Option α)
  | [] => []
  | (_, .subscribe _) :: tr => viewOf q tr
  | (_, .unsubscribe _) :: tr => viewOf q tr
  | (_, .publish payload) :: tr =>
    if connected q tr then some payload :: viewOf q tr else viewOf q tr
  | (_, .consume q' _) :: tr => if q' = q then none :: viewOf q tr else viewOf q tr

/-- What a step of the bus is to the queue `q`. -/
def mailLabel (q : ℕ) (b : Broadcast α) : BroadcastEvent α → Option (MailEvent α)
  | .subscribe _ => none
  | .unsubscribe _ => none
  | .publish payload => if q ∈ b.subscribers then some (.put payload) else none
  | .consume q' payload => if q' = q then some (.take payload) else none

/-- What a trace of the bus is to the queue `q`. -/
def mailTrace (q : ℕ) (tr : List (Broadcast α × BroadcastEvent α)) :
    List (List α × MailEvent α) :=
  tr.filterMap fun t => (mailLabel q t.1 t.2).map fun e => (t.1.held q, e)

/-- A step of the bus leaves the queue `q` as it is, or is a step of a mailbox. -/
theorem mailStep_of_step {e : BroadcastEvent α} (q : ℕ)
    (h : b.WellFormed ∧ BroadcastStep b e b') :
    (mailLabel q b e = none ∧ b'.held q = b.held q) ∨
      ∃ e', mailLabel q b e = some e' ∧ MailStep maxQueueSize (b.held q) e' (b'.held q) := by
  obtain ⟨hb, hstep⟩ := h
  cases hstep with
  | subscribe => exact .inl ⟨rfl, Broadcast.held_subscribe q⟩
  | unsubscribe => exact .inl ⟨rfl, rfl⟩
  | @publish payload _ hpublish =>
    obtain ⟨-, -, -, hheld⟩ := hb.of_publish hpublish
    rw [hheld, mailLabel]
    by_cases hq : q ∈ b.subscribers
    · rw [if_pos hq, if_pos hq]
      exact .inr ⟨_, rfl, .put _ _⟩
    · rw [if_neg hq, if_neg hq]
      exact .inl ⟨rfl, rfl⟩
  | @consume q' payload _ hconsume =>
    obtain ⟨rest, hlt, hitems, hrest⟩ := Broadcast.consume_eq_some hconsume
    rw [Broadcast.held_consume hlt q hrest, mailLabel]
    by_cases hq : q' = q
    · rw [if_pos hq, if_pos hq.symm, ← hq, hitems]
      exact .inr ⟨_, rfl, .take _ _⟩
    · rw [if_neg hq, if_neg (Ne.symm hq)]
      exact .inl ⟨rfl, rfl⟩

theorem mailLabel_eq_put {e : BroadcastEvent α} {payload : α}
    (h : mailLabel q b e = some (.put payload)) : e = .publish payload ∧ q ∈ b.subscribers := by
  cases e with
  | subscribe => cases h
  | unsubscribe => cases h
  | publish payload' =>
    rw [mailLabel] at h
    split_ifs at h with hq
    cases h
    exact ⟨rfl, hq⟩
  | consume q' payload' =>
    rw [mailLabel] at h
    split_ifs at h
    cases h

theorem wellFormed_of_run (run : Run BroadcastStep .new tr b) : b.WellFormed :=
  run.invariant_all Broadcast.wellFormed_new fun _ _ _ hb h => hb.step h

/-- **The queue of a client** makes a run of a mailbox. -/
theorem mailRun (run : Run BroadcastStep .new tr b) (q : ℕ) :
    Run (MailStep maxQueueSize) [] (mailTrace q tr) (b.held q) :=
  (run.restrict Broadcast.wellFormed_new fun _ _ _ hb h => hb.step h).project
    (fun b => b.held q) (mailLabel q) fun _ _ _ h => mailStep_of_step q h

/-- The connected queues are those in the list of the module. -/
theorem connected_iff (run : Run BroadcastStep .new tr b) (q : ℕ) :
    connected q tr = true ↔ q ∈ b.subscribers := by
  induction run with
  | start => simp [connected, Broadcast.new]
  | @step tr b e b' run h ih =>
    have hb := wellFormed_of_run run
    cases h with
    | subscribe =>
      simp only [connected, Broadcast.subscribe, List.mem_append, List.mem_singleton,
        Bool.or_eq_true, decide_eq_true_eq, ih]
      tauto
    | unsubscribe q' =>
      simp only [connected, Broadcast.unsubscribe, hb.nodup.mem_erase_iff, Bool.and_eq_true,
        decide_eq_true_eq, ih, ne_comm]
    | publish hpublish =>
      obtain ⟨-, hsubscribers, -, -⟩ := hb.of_publish hpublish
      rw [connected, ih, hsubscribers]
    | consume hconsume =>
      obtain ⟨rest, -, -, rfl⟩ := Broadcast.consume_eq_some hconsume
      exact ih

theorem mailTrace_cons_of_some {e : BroadcastEvent α} {e' : MailEvent α}
    (h : mailLabel q b e = some e') (tr : List (Broadcast α × BroadcastEvent α)) :
    mailTrace q ((b, e) :: tr) = (b.held q, e') :: mailTrace q tr :=
  List.filterMap_cons_some (by rw [h]; rfl)

theorem mailTrace_cons_of_none {e : BroadcastEvent α} (h : mailLabel q b e = none)
    (tr : List (Broadcast α × BroadcastEvent α)) : mailTrace q ((b, e) :: tr) = mailTrace q tr :=
  List.filterMap_cons_none (by rw [h]; rfl)

/-- What has been put into the mailbox of a client, and what has been taken from it. -/
theorem mailTrace_spec (run : Run BroadcastStep .new tr b) (q : ℕ) :
    puts (mailTrace q tr) = publishedTo q tr ∧ takes (mailTrace q tr) = consumedBy q tr ∧
      (mailTrace q tr).map (fun t => t.2.putItem) = viewOf q tr := by
  induction run with
  | start => exact ⟨rfl, rfl, rfl⟩
  | @step tr b e b' run h ih =>
    have hconnected := connected_iff run q
    obtain ⟨hputs, htakes, hview⟩ := ih
    cases e with
    | subscribe => exact ⟨hputs, htakes, hview⟩
    | unsubscribe => exact ⟨hputs, htakes, hview⟩
    | publish payload =>
      rw [publishedTo, viewOf]
      by_cases hq : q ∈ b.subscribers
      · have hlabel : mailLabel q b (.publish payload) = some (.put payload) := if_pos hq
        rw [mailTrace_cons_of_some hlabel, if_pos (hconnected.mpr hq), if_pos (hconnected.mpr hq)]
        exact ⟨congrArg (· ++ [payload]) hputs, htakes, congrArg (some payload :: ·) hview⟩
      · have hlabel : mailLabel q b (.publish payload) = none := if_neg hq
        have hnot : ¬ connected q tr = true := fun h => hq (hconnected.mp h)
        rw [mailTrace_cons_of_none hlabel, if_neg hnot, if_neg hnot]
        exact ⟨hputs, htakes, hview⟩
    | consume q' payload =>
      rw [consumedBy, viewOf]
      by_cases hq : q' = q
      · have hlabel : mailLabel q b (.consume q' payload) = some (.take payload) := if_pos hq
        rw [mailTrace_cons_of_some hlabel, if_pos hq, if_pos hq]
        exact ⟨hputs, congrArg (· ++ [payload]) htakes, congrArg (none :: ·) hview⟩
      · have hlabel : mailLabel q b (.consume q' payload) = none := if_neg hq
        rw [mailTrace_cons_of_none hlabel, if_neg hq, if_neg hq]
        exact ⟨hputs, htakes, hview⟩

/-- **Event delivery.** In every run of the bus, `publish` returns. For every queue, what its client
has taken and what it still holds is a subsequence of the events published while it was connected,
it holds the latest 64 of those published after the last one that was taken, and nothing is lost if
it held fewer at every publication. What its client gets depends on these publications, and on when
it takes an event, only: another run in which they are the same gives the same, whatever other
clients there are and whatever they do. -/
theorem event_delivery (run : Run BroadcastStep .new tr b) :
    (∀ payload, ∃ b', b.publish payload = .ok b') ∧ ∀ q,
      (consumedBy q tr ++ b.held q).Sublist (publishedTo q tr) ∧
      (b.held q).length ≤ maxQueueSize ∧
      (∃ earlier later, publishedTo q tr = earlier ++ later ∧
        (consumedBy q tr).Sublist earlier ∧ (consumedBy q tr).getLast? = earlier.getLast? ∧
        b.held q = later.rtake maxQueueSize) ∧
      ((∀ t ∈ tr, ∀ payload, t.2 = .publish payload → q ∈ t.1.subscribers →
          (t.1.held q).length < maxQueueSize) →
        consumedBy q tr ++ b.held q = publishedTo q tr) ∧
      ∀ tr' b' q', Run BroadcastStep .new tr' b' → viewOf q tr = viewOf q' tr' →
        consumedBy q tr = consumedBy q' tr' ∧ b.held q = b'.held q' := by
  have hpos : 0 < maxQueueSize := by decide
  refine ⟨fun payload => ?_, fun q => ?_⟩
  · obtain ⟨b', hok, -⟩ := (wellFormed_of_run run).publish_ok payload
    exact ⟨b', hok⟩
  have mail := mailRun run q
  obtain ⟨hputs, htakes, hview⟩ := mailTrace_spec run q
  rw [← hputs, ← htakes]
  refine ⟨mail_sublist hpos mail, mail_length_le hpos mail, mail_of_run hpos mail,
    fun hroom => mail_lossless mail ?_, fun tr' b' q' run' hviews => ?_⟩
  · intro m hm x hx
    obtain ⟨t, ht, hlabel⟩ := List.mem_filterMap.mp hm
    obtain ⟨e, he, rfl⟩ := Option.map_eq_some_iff.mp hlabel
    obtain rfl : e = .put x := hx
    obtain ⟨hpublish, hq⟩ := mailLabel_eq_put he
    exact hroom t ht x hpublish hq
  · obtain ⟨-, htakes', hview'⟩ := mailTrace_spec run' q'
    rw [← htakes']
    exact mail_congr mail (mailRun run' q') (by rw [hview, hview', hviews])

/-- Two clients, of which the second one leaves before the second event. -/
def twoClients : List (Broadcast ℕ × BroadcastEvent ℕ) :=
  [(⟨[⟨maxQueueSize, []⟩, ⟨maxQueueSize, [7]⟩], [0]⟩, .publish 8),
    (⟨[⟨maxQueueSize, []⟩, ⟨maxQueueSize, [7]⟩], [0, 1]⟩, .unsubscribe 1),
    (⟨[⟨maxQueueSize, [7]⟩, ⟨maxQueueSize, [7]⟩], [0, 1]⟩, .consume 0 7),
    (⟨[⟨maxQueueSize, []⟩, ⟨maxQueueSize, []⟩], [0, 1]⟩, .publish 7),
    (⟨[⟨maxQueueSize, []⟩], [0]⟩, .subscribe 1),
    (.new, .subscribe 0)]

/-- The run of the two clients. -/
theorem twoClients_run : Run BroadcastStep .new twoClients
    ⟨[⟨maxQueueSize, [8]⟩, ⟨maxQueueSize, [7]⟩], [0]⟩ :=
  (((((Run.start.step (.subscribe _)).step (.subscribe _)).step (.publish rfl)).step
    (.consume rfl)).step (.unsubscribe _ 1)).step (.publish rfl)

theorem event_delivery_twoClients :
    consumedBy 0 twoClients ++ [8] = publishedTo 0 twoClients ∧
      consumedBy 1 twoClients ++ [7] = publishedTo 1 twoClients := by
  have hdelivery := (event_delivery twoClients_run).2
  have hroom : ∀ q < 2, ∀ t ∈ twoClients, (t.1.held q).length < maxQueueSize := by decide
  exact ⟨(hdelivery 0).2.2.2.1 fun t ht _ _ _ => hroom 0 (by decide) t ht,
    (hdelivery 1).2.2.2.1 fun t ht _ _ _ => hroom 1 (by decide) t ht⟩

end Client

/-! ### The bus of the service -/

namespace EventBus

variable {bus bus' : EventBus} {b : Broadcast Message}

/-- The bus `bus` has the clients of `b`, and their queues hold the same messages. -/
structure Represents (bus : EventBus) (b : Broadcast Message) : Prop where
  subscriptions : bus.subscriptions = b.queues.length
  clients : bus.subscribers.map Prod.fst = b.subscribers
  items : ∀ s ∈ bus.subscribers, s.2.items = b.held s.1

theorem represents_new : Represents new .new := ⟨rfl, rfl, by simp [new]⟩

theorem Represents.subscribe (h : bus.Represents b) : bus.subscribe.Represents b.subscribe where
  subscriptions := by
    dsimp only [EventBus.subscribe, Broadcast.subscribe]
    rw [List.length_append, h.subscriptions, List.length_singleton]
  clients := by
    dsimp only [EventBus.subscribe, Broadcast.subscribe]
    rw [List.map_append, h.clients, List.map_singleton, h.subscriptions]
  items s hs := by
    rw [Broadcast.held_subscribe]
    rcases List.mem_append.mp hs with hs | hs
    · exact h.items s hs
    · rw [List.mem_singleton.mp hs, Broadcast.held, Broadcast.queue, h.subscriptions,
        List.getD_eq_getElem?_getD, List.getElem?_eq_none le_rfl]
      rfl

theorem Represents.unsubscribe (h : bus.Represents b) (client : ℕ) :
    (bus.unsubscribe client).Represents (b.unsubscribe client) where
  subscriptions := h.subscriptions
  clients := by
    dsimp only [EventBus.unsubscribe, Broadcast.unsubscribe]
    rw [← h.clients, List.erase_eq_eraseP, List.eraseP_map]
    congr 2
    funext s
    rw [Function.comp, beq_eq_decide, decide_eq_decide]
    exact eq_comm
  items s hs := h.items s (List.mem_of_mem_eraseP hs)

theorem EventQueue.items_put (q : EventQueue) (message : Message) :
    (q.put message).items = ringPush maxQueueSize q.items message := by
  dsimp only [EventQueue.put, ringPush]
  split_ifs with hlt hle
  · omega
  · rfl
  · rfl
  · omega

/-- `publish` of the model of the service is the `publish` of the module. -/
theorem Represents.publish (h : bus.Represents b) (hb : b.WellFormed) (message : Message) :
    ∃ b', b.publish message = .ok b' ∧ (bus.publish message).Represents b' := by
  obtain ⟨b', hok, -, hsubscribers, hqueues, hheld⟩ := hb.publish_ok message
  refine ⟨b', hok, h.subscriptions.trans hqueues.symm, ?_, fun s hs => ?_⟩
  · rw [hsubscribers, ← h.clients, EventBus.publish, List.map_map]
    rfl
  · obtain ⟨s₀, hs₀, rfl⟩ := List.mem_map.mp hs
    have hmem : s₀.1 ∈ b.subscribers := h.clients ▸ List.mem_map_of_mem hs₀
    rw [EventQueue.items_put, hheld, if_pos hmem, h.items s₀ hs₀]

/-- A client of the model of the service takes what a client of the module takes. -/
theorem Represents.consume (h : bus.Represents b) {client : ℕ} {message : Message}
    (hconsume : bus.consume client = some (message, bus')) :
    ∃ b', b.consume client = some (message, b') ∧ bus'.Represents b' := by
  obtain ⟨s, hfind, hget⟩ := Option.bind_eq_some_iff.mp hconsume
  obtain ⟨⟨taken, rest⟩, hrest, heq⟩ := Option.map_eq_some_iff.mp hget
  cases heq
  obtain rfl : s.1 = client := by simpa using List.find?_some hfind
  have hs : s ∈ bus.subscribers := List.mem_of_find?_eq_some hfind
  have hitems : (b.queue s.1).items = taken :: rest.items := by
    rw [← Broadcast.held, ← h.items s hs]
    obtain ⟨_, ⟨items, hle⟩⟩ := s
    cases items with
    | nil => cases hrest
    | cons x items =>
      cases hrest
      rfl
  have htake : b.consume s.1 =
      some (taken, b.setQueue s.1 { b.queue s.1 with items := rest.items }) := by
    rw [Broadcast.consume, AsyncQueue.getNowait, hitems]
  obtain ⟨_, hlt, hheld, hset⟩ := Broadcast.consume_eq_some htake
  refine ⟨_, htake, ?_, ?_, fun s' hs' => ?_⟩
  · exact h.subscriptions.trans List.length_set.symm
  · rw [List.map_map, Broadcast.setQueue, ← h.clients]
    refine List.map_congr_left fun s' _ => ?_
    dsimp only [Function.comp]
    split_ifs with heq
    · exact heq.symm
    · rfl
  · obtain ⟨s₀, hs₀, rfl⟩ := List.mem_map.mp hs'
    rw [Broadcast.held_consume hlt _ rfl]
    by_cases heq : s₀.1 = s.1
    · rw [if_pos heq, if_pos rfl]
    · rw [if_neg heq, if_neg heq, h.items s₀ hs₀]

end EventBus

end InferenceRouter
