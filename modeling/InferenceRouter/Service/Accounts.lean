import InferenceRouter.Service.Lifecycle
import InferenceRouter.Service.System
import Mathlib.Algebra.BigOperators.Group.List.Basic

/-!
# The managers agree with the handlers

In every reachable state of the service, what the managers hold is what the handlers hold: every
pending reservation was granted to exactly one handler and has not been resolved by it, the active
count of the queue is the number of slots that the handlers hold, and the cumulative figures of
the budget manager are the sums of what the handlers have committed.

Every effect of a handler acts on the escrow account of the budget manager in one of three ways,
and on the summary of the handler accordingly (`Moved`). The invariant is derived from these three
ways, from a scan of the reaper, and from the start of a handler.

## Main definitions

* `InferenceRouter.tallies`: the summaries of the handlers of a pool.
* `InferenceRouter.Moved`: what an effect does to the budget manager and to a summary.
* `InferenceRouter.Accounts`: the invariant for the budget manager.

## Main results

* `InferenceRouter.exec_moved`, `InferenceRouter.accounts_of_run`, `InferenceRouter.slots_of_run`.
* `InferenceRouter.ending_of_run`: every handler that has ended has ended as `Ending` says.
-/

namespace InferenceRouter

open Foundation

variable {config : Config} {classify : String → ComplexityTier}

/-! ### Summaries of a pool -/

/-- The summary of a handler. -/
def summary (t : Thread (service config classify)) : Tally := tally t.history

/-- The summaries of the handlers of a pool, in the order in which they started. -/
def tallies (ts : List (Thread (service config classify))) : List Tally := ts.map summary

@[simp] theorem tallies_append (ts ts' : List (Thread (service config classify))) :
    tallies (ts ++ ts') = tallies ts ++ tallies ts' := List.map_append

@[simp] theorem tallies_cons (t : Thread (service config classify))
    (ts : List (Thread (service config classify))) :
    tallies (t :: ts) = summary t :: tallies ts := rfl

@[simp] theorem tallies_nil : tallies ([] : List (Thread (service config classify))) = [] := rfl

@[simp] theorem summary_start (arg : InferenceRequest) :
    summary (Thread.start arg : Thread (service config classify)) = {} := rfl

/-- The reservations granted to the handlers. -/
def grants (ts : List Tally) : List Grant := ts.flatMap Tally.granted

/-- What the handlers have committed. -/
def committed (ts : List Tally) : ℚ × ℚ := (ts.map fun t => t.charges.sum).sum

/-! ### What an effect does to the budget manager -/

/-- What an effect does to the budget manager and to the summary of the handler. -/
inductive Moved (bm : BudgetManager) (t : Tally) (bm' : BudgetManager) (t' : Tally) : Prop
  /-- The account is left as it is; the handler may read that a reservation is resolved. -/
  | kept (hescrow : bm'.escrow = bm.escrow)
      (hlength : bm'.reservations.length = bm.reservations.length)
      (hgranted : t'.granted = t.granted) (hcharges : t'.charges = t.charges)
      (hresolved : ∀ ref ∈ t'.resolved, ref ∈ t.resolved ∨
        (ref < bm.reservations.length ∧ ref ∉ bm.escrow.pending))
  /-- A reservation is granted. -/
  | granted (g : Grant) (href : g.ref = bm.reservations.length)
      (hescrow : bm'.escrow = bm.escrow.grant g.ref (g.cost, g.latencyMs))
      (hlength : bm'.reservations.length = bm.reservations.length + 1)
      (hgranted : t'.granted = g :: t.granted) (hcharges : t'.charges = t.charges)
      (hresolved : t'.resolved = t.resolved)
  /-- A reservation of the handler is settled, with a charge or without one. -/
  | settled (g : Grant) (charge : ℚ × ℚ) (hg : g ∈ t.granted)
      (hescrow : bm'.escrow = bm.escrow.settle g.ref charge)
      (hlength : bm'.reservations.length = bm.reservations.length)
      (hgranted : t'.granted = t.granted) (hcharges : t'.charges.sum = charge + t.charges.sum)
      (hresolved : t'.resolved = g.ref :: t.resolved)

/-- An effect that leaves the budget manager and everything about reservations as they are. -/
theorem Moved.refl {bm : BudgetManager} {t t' : Tally} (hgranted : t'.granted = t.granted)
    (hcharges : t'.charges = t.charges) (hresolved : t'.resolved = t.resolved) :
    Moved bm t bm t' :=
  .kept rfl rfl hgranted hcharges fun _ href => Or.inl (hresolved ▸ href)

/-- **What an allowed effect does** to a valid budget manager and to the summary. -/
theorem exec_moved {s s' : AppState} {h : History signature} {e : Effect} {o : Oracle}
    {r : e.Reply} (hv : s.budgetManager.Valid) (hl : s.budgetManager.Listed)
    (hissued : ∀ g ∈ (tally h).granted, g.ref < s.budgetManager.reservations.length)
    (hallowed : Allowed h e) (hexec : s.exec e o = some (r, s')) :
    Moved s.budgetManager (tally h) s'.budgetManager ((tally h).after e r) := by
  cases e with
  | tryReserve requestId cost latencyMs =>
    obtain ⟨-, hexec⟩ := Option.ite_none_right_eq_some.mp hexec
    cases hexec
    have hout : BudgetOutcome s.budgetManager _ _ :=
      BudgetManager.tryReserve_outcome requestId cost latencyMs o.uuid o.now
    dsimp only
    generalize (s.budgetManager.tryReserve requestId cost latencyMs o.uuid o.now).reply = reply
      at hout ⊢
    generalize (s.budgetManager.tryReserve requestId cost latencyMs o.uuid o.now).manager = bm'
      at hout ⊢
    cases hout with
    | malformed => exact .refl rfl rfl rfl
    | refused => exact .refl rfl rfl rfl
    | granted =>
      exact .granted ⟨_, cost, latencyMs⟩ rfl (BudgetManager.escrow_granted ..)
        (BudgetManager.length_granted ..) rfl rfl rfl
  | commit ref actualCost actualLatencyMs =>
    obtain ⟨g, b, result, rfl, -, htally⟩ := hallowed
    have hg : g ∈ (tally h).granted := by
      rw [htally]
      exact List.mem_cons_self
    cases hexec
    have hescrow := hl.escrow_commit hv (hissued g hg) actualCost actualLatencyMs
    have hlength := hv.length_commit (s.budgetManager.deref g.ref).id actualCost actualLatencyMs
    dsimp only
    generalize (s.budgetManager.commit (s.budgetManager.deref g.ref).id actualCost
      actualLatencyMs).reply = reply at hescrow ⊢
    rcases reply with error | _
    · exact .settled g 0 hg hescrow hlength rfl (zero_add _).symm rfl
    · exact .settled g _ hg hescrow hlength rfl (List.sum_cons) rfl
  | rollback ref =>
    obtain ⟨g, hg, rfl, -⟩ := hallowed
    cases hexec
    exact .settled g 0 hg (hl.escrow_rollback hv (hissued g hg)) (hv.length_rollback _) rfl
      (zero_add _).symm rfl
  | readReservation ref =>
    obtain ⟨g, hg, rfl⟩ := hallowed
    cases hexec
    dsimp only [Tally.after]
    split_ifs with hstate
    · exact .refl rfl rfl rfl
    · refine .kept rfl rfl rfl rfl fun ref href => ?_
      rcases List.mem_cons.mp href with rfl | href
      · exact Or.inr ⟨hissued g hg, fun hpending =>
          hstate (BudgetManager.mem_pending.mp hpending).2⟩
      · exact Or.inl href
  | acquire =>
    cases hexec
    cases s.queueMonitor.acquire.1 <;> exact .refl rfl rfl rfl
  | budgetSnapshot | activeCount | isAtCapacity | maxConcurrency | release | getEstimate | record
  | countRoute | publish | simulateLocalInference | simulateRemoteInference =>
    cases hexec
    exact .refl rfl rfl rfl

/-! ### The invariant of the budget manager -/

/-- The budget manager and the summaries of the handlers agree. -/
structure Accounts (bm : BudgetManager) (ts : List Tally) : Prop where
  nodup : ((grants ts).map Grant.ref).Nodup
  issued : ∀ g ∈ grants ts, g.ref < bm.reservations.length ∧
    bm.escrow.amount g.ref = (g.cost, g.latencyMs)
  owned : ∀ ref ∈ bm.escrow.pending, ∃ g ∈ grants ts, g.ref = ref
  resolved : ∀ t ∈ ts, ∀ ref ∈ t.resolved,
    ref < bm.reservations.length ∧ ref ∉ bm.escrow.pending
  spent : bm.escrow.spent = committed ts

theorem accounts_new (config : BudgetConfig) : Accounts (.new config) [] where
  nodup := List.nodup_nil
  issued _ h := absurd h List.not_mem_nil
  owned ref h := absurd (BudgetManager.mem_pending.mp h).1 (Nat.not_lt_zero ref)
  resolved _ h := absurd h List.not_mem_nil
  spent := rfl

section Preservation

variable {bm bm' : BudgetManager} {t t' : Tally} {pre post ts : List Tally}

theorem grants_append (ts ts' : List Tally) : grants (ts ++ ts') = grants ts ++ grants ts' :=
  List.flatMap_append

theorem grants_cons (t : Tally) (ts : List Tally) : grants (t :: ts) = t.granted ++ grants ts :=
  List.flatMap_cons

theorem mem_grants {g : Grant} : g ∈ grants ts ↔ ∃ t ∈ ts, g ∈ t.granted := List.mem_flatMap

/-- The reservations of the handlers, those of one of them in front. -/
theorem grants_perm (pre post : List Tally) (t : Tally) :
    (grants (pre ++ t :: post)).Perm (t.granted ++ grants (pre ++ post)) := by
  rw [grants_append, grants_cons, grants_append]
  exact List.perm_append_comm_assoc _ _ _

theorem committed_append_cons (pre post : List Tally) (t : Tally) :
    committed (pre ++ t :: post) = t.charges.sum + committed (pre ++ post) := by
  simp only [committed, List.map_append, List.map_cons, List.sum_append, List.sum_cons]
  exact add_left_comm _ _ _

/-- A reservation that was granted to a handler exists. -/
theorem Accounts.lt_length (ha : Accounts bm ts) (ht : t ∈ ts) {g : Grant} (hg : g ∈ t.granted) :
    g.ref < bm.reservations.length :=
  (ha.issued g (mem_grants.mpr ⟨t, ht, hg⟩)).1

/-- A handler that starts has nothing. -/
theorem Accounts.start (ha : Accounts bm ts) : Accounts bm (ts ++ [({} : Tally)]) := by
  have hgrants : grants (ts ++ [({} : Tally)]) = grants ts := by
    rw [grants_append, grants_cons]
    exact List.append_nil _
  refine ⟨hgrants ▸ ha.nodup, hgrants ▸ ha.issued, hgrants ▸ ha.owned, fun t ht ref href => ?_, ?_⟩
  · rcases List.mem_append.mp ht with ht | ht
    · exact ha.resolved t ht ref href
    · obtain rfl := List.mem_singleton.mp ht
      cases href
  · rw [ha.spent, committed_append_cons, List.append_nil]
    exact (zero_add _).symm

/-- A scan of the reaper changes nothing that the handlers account for. -/
theorem Accounts.reap (ha : Accounts bm ts) (hv : bm.Valid) (clock : ℕ → ℚ) :
    Accounts (bm.expireStaleReservations clock).1 ts := by
  obtain ⟨hspent, hamount, hlength, hpending⟩ := hv.escrow_reap clock
  refine ⟨ha.nodup, fun g hg => ?_, fun ref href => ha.owned ref (hpending href),
    fun t ht ref href => ?_, hspent.trans ha.spent⟩
  · rw [hlength, hamount]
    exact ha.issued g hg
  · obtain ⟨hlt, hnotMem⟩ := ha.resolved t ht ref href
    exact ⟨hlength ▸ hlt, fun h => hnotMem (hpending h)⟩

/-- A handler of the pool after one of them has moved is the moved one, or one from before. -/
theorem eq_or_mem_of_mem {u : Tally} (hu : u ∈ pre ++ t' :: post) :
    u = t' ∨ u ∈ pre ++ t :: post := by
  simp only [List.mem_append, List.mem_cons] at hu ⊢
  tauto

/-- The reservations of the handlers, if one of them moves without being granted any. -/
theorem grants_of_granted_eq (pre post : List Tally) (h : t'.granted = t.granted) :
    grants (pre ++ t' :: post) = grants (pre ++ t :: post) := by
  rw [grants_append, grants_append, grants_cons, grants_cons, h]

/-- The invariant survives an effect that leaves the account as it is. -/
theorem Accounts.kept (ha : Accounts bm (pre ++ t :: post)) (hescrow : bm'.escrow = bm.escrow)
    (hlength : bm'.reservations.length = bm.reservations.length)
    (hgranted : t'.granted = t.granted) (hcharges : t'.charges = t.charges)
    (hresolved : ∀ ref ∈ t'.resolved, ref ∈ t.resolved ∨
      (ref < bm.reservations.length ∧ ref ∉ bm.escrow.pending)) :
    Accounts bm' (pre ++ t' :: post) := by
  have hgrants := grants_of_granted_eq pre post hgranted
  refine ⟨hgrants ▸ ha.nodup, ?_, ?_, fun u hu ref href => ?_, ?_⟩
  · rw [hgrants, hlength, hescrow]
    exact ha.issued
  · rw [hgrants, hescrow]
    exact ha.owned
  · rw [hlength, hescrow]
    rcases eq_or_mem_of_mem (t := t) hu with rfl | hu
    · exact (hresolved ref href).elim
        (ha.resolved t (List.mem_append_right _ List.mem_cons_self) ref) id
    · exact ha.resolved u hu ref href
  · rw [hescrow, ha.spent, committed_append_cons, committed_append_cons, hcharges]

/-- The invariant survives the grant of a reservation. -/
theorem Accounts.granted (ha : Accounts bm (pre ++ t :: post)) (g : Grant)
    (href : g.ref = bm.reservations.length)
    (hescrow : bm'.escrow = bm.escrow.grant g.ref (g.cost, g.latencyMs))
    (hlength : bm'.reservations.length = bm.reservations.length + 1)
    (hgranted : t'.granted = g :: t.granted) (hcharges : t'.charges = t.charges)
    (hresolved : t'.resolved = t.resolved) : Accounts bm' (pre ++ t' :: post) := by
  have hgrants : (grants (pre ++ t' :: post)).Perm (g :: grants (pre ++ t :: post)) := by
    refine (grants_perm pre post t').trans ?_
    rw [hgranted]
    exact (grants_perm pre post t).symm.cons g
  have hold : ∀ g' ∈ grants (pre ++ t :: post), g'.ref ≠ g.ref :=
    fun g' hg' => href ▸ (ha.issued g' hg').1.ne
  refine ⟨?_, fun g' hg' => ?_, fun ref hr => ?_, fun u hu ref hr => ?_, ?_⟩
  · refine (hgrants.map _).nodup_iff.mpr (List.nodup_cons.mpr ⟨fun h => ?_, ha.nodup⟩)
    obtain ⟨g', hg', heq⟩ := List.mem_map.mp h
    exact hold g' hg' heq
  · rw [hescrow, hlength, Escrow.amount_grant]
    rcases List.mem_cons.mp (hgrants.mem_iff.mp hg') with rfl | hg'
    · exact ⟨href ▸ Nat.lt_succ_self _, if_pos rfl⟩
    · rw [if_neg (hold g' hg')]
      exact ⟨Nat.lt_succ_of_lt (ha.issued g' hg').1, (ha.issued g' hg').2⟩
  · rw [hescrow, Escrow.pending_grant, Finset.mem_insert] at hr
    rcases hr with rfl | hr
    · exact ⟨g, hgrants.mem_iff.mpr List.mem_cons_self, rfl⟩
    · obtain ⟨g', hg', heq⟩ := ha.owned ref hr
      exact ⟨g', hgrants.mem_iff.mpr (List.mem_cons_of_mem _ hg'), heq⟩
  · have hold' : ref < bm.reservations.length ∧ ref ∉ bm.escrow.pending := by
      rcases eq_or_mem_of_mem (t := t) hu with rfl | hu
      · exact ha.resolved t (List.mem_append_right _ List.mem_cons_self) ref (hresolved ▸ hr)
      · exact ha.resolved u hu ref hr
    rw [hescrow, hlength, Escrow.pending_grant, Finset.mem_insert, not_or]
    exact ⟨Nat.lt_succ_of_lt hold'.1, href ▸ hold'.1.ne, hold'.2⟩
  · rw [hescrow, Escrow.spent_grant, ha.spent, committed_append_cons, committed_append_cons,
      hcharges]

/-- The invariant survives the settlement of a reservation by its handler. -/
theorem Accounts.settled (ha : Accounts bm (pre ++ t :: post)) (g : Grant) (charge : ℚ × ℚ)
    (hg : g ∈ t.granted) (hescrow : bm'.escrow = bm.escrow.settle g.ref charge)
    (hlength : bm'.reservations.length = bm.reservations.length)
    (hgranted : t'.granted = t.granted) (hcharges : t'.charges.sum = charge + t.charges.sum)
    (hresolved : t'.resolved = g.ref :: t.resolved) : Accounts bm' (pre ++ t' :: post) := by
  have hmem : t ∈ pre ++ t :: post := List.mem_append_right _ List.mem_cons_self
  have hgrants := grants_of_granted_eq pre post hgranted
  refine ⟨hgrants ▸ ha.nodup, ?_, fun ref href => ?_, fun u hu ref href => ?_, ?_⟩
  · rw [hgrants, hlength, hescrow]
    exact ha.issued
  · rw [hescrow, Escrow.pending_settle] at href
    rw [hgrants]
    exact ha.owned ref (Finset.mem_of_mem_erase href)
  · rw [hlength, hescrow, Escrow.pending_settle, Finset.mem_erase, not_and_or, not_not]
    have hold : ref = g.ref ∨ (ref < bm.reservations.length ∧ ref ∉ bm.escrow.pending) := by
      rcases eq_or_mem_of_mem (t := t) hu with rfl | hu
      · rcases List.mem_cons.mp (hresolved ▸ href) with heq | href
        · exact Or.inl heq
        · exact Or.inr (ha.resolved t hmem ref href)
      · exact Or.inr (ha.resolved u hu ref href)
    rcases hold with rfl | hold
    · exact ⟨ha.lt_length hmem hg, Or.inl rfl⟩
    · exact ⟨hold.1, Or.inr hold.2⟩
  · rw [hescrow, Escrow.spent_settle, ha.spent, committed_append_cons, committed_append_cons,
      hcharges]
    abel

/-- **The invariant survives every effect.** -/
theorem Accounts.moved (ha : Accounts bm (pre ++ t :: post)) (hmoved : Moved bm t bm' t') :
    Accounts bm' (pre ++ t' :: post) := by
  cases hmoved with
  | kept hescrow hlength hgranted hcharges hresolved =>
    exact ha.kept hescrow hlength hgranted hcharges hresolved
  | granted g href hescrow hlength hgranted hcharges hresolved =>
    exact ha.granted g href hescrow hlength hgranted hcharges hresolved
  | settled g charge hg hescrow hlength hgranted hcharges hresolved =>
    exact ha.settled g charge hg hescrow hlength hgranted hcharges hresolved

end Preservation

/-! ### The slots -/

/-- The queue monitor and the summaries of the handlers agree: every handler holds at most one
slot, and the active count is the number of those that hold one. -/
structure SlotsAgree (qm : QueueMonitor) (ts : List Tally) : Prop where
  slots_le : ∀ t ∈ ts, t.slots ≤ 1
  activeCount_eq : qm.activeCount = (ts.map Tally.slots).sum

/-- What an allowed effect does to the slots. -/
theorem exec_slots {s s' : AppState} {h : History signature} {e : Effect} {o : Oracle}
    {r : e.Reply} (hallowed : Allowed h e) (hexec : s.exec e o = some (r, s')) :
    (s'.queueMonitor.activeCount = s.queueMonitor.activeCount ∧
        ((tally h).after e r).slots = (tally h).slots) ∨
      (s'.queueMonitor.activeCount = s.queueMonitor.activeCount + 1 ∧ (tally h).slots = 0 ∧
        ((tally h).after e r).slots = 1) ∨
      (s'.queueMonitor.activeCount = s.queueMonitor.activeCount - 1 ∧ (tally h).slots = 1 ∧
        ((tally h).after e r).slots = 0) := by
  cases e with
  | tryReserve requestId cost latencyMs =>
    obtain ⟨-, hexec⟩ := Option.ite_none_right_eq_some.mp hexec
    cases hexec
    refine Or.inl ⟨rfl, ?_⟩
    generalize (s.budgetManager.tryReserve requestId cost latencyMs o.uuid o.now).reply = reply
    rcases reply with error | _ | ref <;> rfl
  | commit ref actualCost actualLatencyMs =>
    cases hexec
    refine Or.inl ⟨rfl, ?_⟩
    generalize (s.budgetManager.commit (s.budgetManager.deref ref).id actualCost
      actualLatencyMs).reply = reply
    rcases reply with error | _ <;> rfl
  | readReservation ref =>
    cases hexec
    refine Or.inl ⟨rfl, ?_⟩
    dsimp only [Tally.after]
    split_ifs <;> rfl
  | acquire =>
    cases hexec
    have hcount := s.queueMonitor.activeCount_acquire
    dsimp only
    generalize s.queueMonitor.acquire.1 = acquired at hcount ⊢
    cases acquired with
    | false => exact Or.inl ⟨hcount, rfl⟩
    | true => exact Or.inr (Or.inl ⟨hcount, hallowed, congrArg (· + 1) hallowed⟩)
  | release =>
    cases hexec
    exact Or.inr (Or.inr ⟨s.queueMonitor.activeCount_release, hallowed,
      congrArg (· - 1) hallowed⟩)
  | rollback | budgetSnapshot | activeCount | isAtCapacity | maxConcurrency | getEstimate
  | record | countRoute | publish | simulateLocalInference | simulateRemoteInference =>
    cases hexec
    exact Or.inl ⟨rfl, rfl⟩

/-- A handler that starts holds no slot. -/
theorem SlotsAgree.start {qm : QueueMonitor} {ts : List Tally} (hs : SlotsAgree qm ts) :
    SlotsAgree qm (ts ++ [({} : Tally)]) := by
  constructor
  · exact List.forall_mem_append.mpr
      ⟨hs.slots_le, List.forall_mem_singleton.mpr (Nat.zero_le 1)⟩
  · rw [hs.activeCount_eq, List.map_append, List.sum_append]
    rfl

/-- The agreement survives every change of the slots of one handler. -/
theorem SlotsAgree.moved {qm qm' : QueueMonitor} {t t' : Tally} {pre post : List Tally}
    (hs : SlotsAgree qm (pre ++ t :: post))
    (h : (qm'.activeCount = qm.activeCount ∧ t'.slots = t.slots) ∨
      (qm'.activeCount = qm.activeCount + 1 ∧ t.slots = 0 ∧ t'.slots = 1) ∨
      (qm'.activeCount = qm.activeCount - 1 ∧ t.slots = 1 ∧ t'.slots = 0)) :
    SlotsAgree qm' (pre ++ t' :: post) := by
  have hle := hs.slots_le t (List.mem_append_right _ List.mem_cons_self)
  have hcount := hs.activeCount_eq
  rw [List.map_append, List.map_cons, List.sum_append, List.sum_cons] at hcount
  constructor
  · refine forall_mem_replace hs.slots_le fun _ => ?_
    omega
  · rw [List.map_append, List.map_cons, List.sum_append, List.sum_cons]
    omega

/-- The active count is the number of handlers that hold a slot. -/
theorem SlotsAgree.activeCount_eq_countP {qm : QueueMonitor} {ts : List Tally}
    (hs : SlotsAgree qm ts) : qm.activeCount = ts.countP (fun t => t.slots = 1) := by
  obtain ⟨hle, hcount⟩ := hs
  rw [hcount]
  clear hcount
  induction ts with
  | nil => rfl
  | cons t ts ih =>
    rw [List.forall_mem_cons] at hle
    rw [List.map_cons, List.sum_cons, ih hle.2, List.countP_cons]
    have ht := hle.1
    split_ifs with h
    · have h1 : t.slots = 1 := by simpa using h
      omega
    · have h0 : t.slots ≠ 1 := by simpa using h
      omega

/-! ### Runs -/

variable {p q : Pool (service config classify)}
  {tr : List (Pool (service config classify) × Choice (service config classify))}

/-- Along a run, the summary of every handler is extended. -/
theorem extends_of_run (run : Run Pool.Step p tr q) {i : ℕ}
    {t u : Thread (service config classify)} (ht : p.threads[i]? = some t)
    (hu : q.threads[i]? = some u) : (summary t).Extends (summary u) := by
  obtain ⟨u', hu', -, hsuffix⟩ := Pool.continues_of_run run ht
  obtain rfl := Option.some.inj (hu'.symm.trans hu)
  exact tally_extends hsuffix

/-- **Every handler that has ended** has ended as `Ending` says. -/
theorem ending_of_run (run : Run Pool.Step (initial config classify) tr p)
    {t : Thread (service config classify)} (ht : t ∈ p.threads)
    {out : Except Exn InferenceResponse} (hout : t.outcome = some out) :
    Ending (summary t) (out.map InferenceResponse.figures) :=
  Pool.outcome_of_run (fun request => inference_meets config classify request) rfl run ht hout

/-- What a handler does next is allowed. -/
theorem allowed_of_run (run : Run Pool.Step (initial config classify) tr p)
    {t : Thread (service config classify)} (ht : t ∈ p.threads) {e : Effect}
    (he : t.next = some e) : Allowed t.history e :=
  Pool.allowed_of_run (fun request => inference_meets config classify request) rfl run ht he

/-- The budget managers that a run passes through are valid, and list what is pending. -/
theorem valid_along_run (run : Run Pool.Step (initial config classify) tr p) :
    ∀ t ∈ tr, t.1.state.budgetManager.Valid ∧ t.1.state.budgetManager.Listed := by
  intro t ht
  obtain ⟨tr', run'⟩ := run.of_mem ht
  exact ⟨valid_of_service run', listed_of_service run'⟩

/-- **The budget manager agrees with the handlers** in every reachable state. -/
theorem accounts_of_run (run : Run Pool.Step (initial config classify) tr p) :
    Accounts p.state.budgetManager (tallies p.threads) := by
  refine Pool.invariant (fun request => inference_meets config classify request)
    (P := fun (s : AppState) ts => Accounts s.budgetManager (tallies ts))
    (C := fun p _ => p.state.budgetManager.Valid ∧ p.state.budgetManager.Listed) rfl
    (accounts_new _) (fun s ts arg ha => ?_) ?_ ?_ run (valid_along_run run)
  · rw [tallies_append]
    exact ha.start
  · intro s s' pre t post e k r o hvalid hallowed _ hexec ha
    rw [tallies_append, tallies_cons] at ha ⊢
    exact ha.moved (exec_moved hvalid.1 hvalid.2
      (fun g hg => ha.lt_length (List.mem_append_right _ List.mem_cons_self) hg) hallowed hexec)
  · intro s ts a s' hvalid hact ha
    rcases act_budgetManager hact with ⟨readings, -, hreap⟩ | ⟨-, hkept⟩
    · rw [hreap]
      exact ha.reap hvalid.1 _
    · rwa [hkept]

/-- **The queue monitor agrees with the handlers** in every reachable state. -/
theorem slots_of_run (run : Run Pool.Step (initial config classify) tr p) :
    SlotsAgree p.state.queueMonitor (tallies p.threads) := by
  refine Pool.invariant (fun request => inference_meets config classify request)
    (P := fun (s : AppState) ts => SlotsAgree s.queueMonitor (tallies ts))
    (C := fun _ _ => True) rfl ⟨by simp, rfl⟩ (fun s ts arg hs => ?_) ?_ ?_ run fun _ _ => trivial
  · rw [tallies_append]
    exact hs.start
  · intro s s' pre t post e k r o _ hallowed _ hexec hs
    rw [tallies_append, tallies_cons] at hs ⊢
    exact hs.moved (exec_slots hallowed hexec)
  · intro s ts a s' _ hact hs
    rwa [act_queueMonitor hact]

end InferenceRouter
