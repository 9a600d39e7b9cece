import InferenceRouter.Budget.Ledger

/-!
# The order of settlements does not matter

Settling several reservations, each by a rollback or by a commit of its own, is a sequence of
moves `closed` at distinct references. These moves commute, the order of the entries that stay in
the dictionary included. The cost guard of a commit looks at its own reservation only, so it
decides the same in every order. The guard on the total latency reads a running total: with
nonnegative charges a sequence that never trips it charges at every point at most what it charges
in all, and so does every reordering of it.

## Main definitions

* `InferenceRouter.SettleAction`, with `SettleAction.perform`.
* `InferenceRouter.BudgetManager.settleAll`: several settlements, one after the other.

## Main results

* `InferenceRouter.BudgetManager.closed_comm`: settlements of distinct reservations commute.
* `InferenceRouter.settlement_order_irrelevant`: reordering settlements changes neither the
  manager they leave nor the reply that each of them gets.
-/

namespace InferenceRouter

open Foundation BudgetManager

variable {bm : BudgetManager}

/-! ### Settle actions -/

/-- One way of settling a reservation. -/
inductive SettleAction
  | rollback
  | commit (actualCost actualLatencyMs : ℚ)

/-- A reply that reports a breach of the cap on the total latency. -/
def LatencyExceeded : Except BudgetError Unit → Prop
  | .error (.actualLatencyExceededReservation _ _) => True
  | .error (.valueError _) | .error (.invalidReservationState _)
  | .error (.actualCostExceededReservation _ _) | .ok _ => False

instance : DecidablePred LatencyExceeded
  | .error (.actualLatencyExceededReservation _ _) => inferInstanceAs (Decidable True)
  | .error (.valueError _) | .error (.invalidReservationState _)
  | .error (.actualCostExceededReservation _ _) | .ok _ => inferInstanceAs (Decidable False)

namespace SettleAction

/-- The amounts that the action charges are nonnegative. -/
def Nonneg : SettleAction → Prop
  | rollback => True
  | commit actualCost actualLatencyMs => 0 ≤ actualCost ∧ 0 ≤ actualLatencyMs

/-- Perform the action on the reservation of an id. -/
def perform (bm : BudgetManager) (reservationId : String) : SettleAction → Call Unit
  | rollback => bm.rollback reservationId
  | commit actualCost actualLatencyMs => bm.commit reservationId actualCost actualLatencyMs

/-- The action is a commit that passes the cost guard of its reservation. -/
def Charges (reservation : Reservation) : SettleAction → Prop
  | rollback => False
  | commit actualCost _ => actualCost ≤ reservation.reservedCost + commitSlack

instance (reservation : Reservation) : (a : SettleAction) → Decidable (a.Charges reservation)
  | rollback => inferInstanceAs (Decidable False)
  | commit _ _ => inferInstanceAs (Decidable (_ ≤ _))

/-- The amounts of the action. -/
def amounts : SettleAction → ℚ × ℚ
  | rollback => 0
  | commit actualCost actualLatencyMs => (actualCost, actualLatencyMs)

/-- What the action charges, unless it breaches the latency cap. -/
def charge (reservation : Reservation) (a : SettleAction) : ℚ × ℚ :=
  if a.Charges reservation then a.amounts else 0

/-- The state in which the action leaves its reservation, unless it breaches the latency cap. -/
def finalState (reservation : Reservation) (a : SettleAction) : ReservationState :=
  if a.Charges reservation then .committed else .rolledBack

/-- The reply to the action, unless it breaches the latency cap. -/
def reply (reservation : Reservation) : SettleAction → Except BudgetError Unit
  | rollback => .ok ()
  | commit actualCost _ =>
      if actualCost ≤ reservation.reservedCost + commitSlack then .ok ()
      else .error (.actualCostExceededReservation actualCost reservation.reservedCost)

/-- The action passes the cost guard and trips the latency guard. -/
def Breaches (bm : BudgetManager) (reservation : Reservation) (a : SettleAction) : Prop :=
  a.Charges reservation ∧ bm.config.maxCumulativeLatencyMs + commitSlack <
    bm.cumulativeActualLatencyMs + (a.charge reservation).2

theorem charge_of_not_charges {r : Reservation} {a : SettleAction} (h : ¬ a.Charges r) :
    a.charge r = 0 :=
  if_neg h

theorem charge_latency_nonneg {a : SettleAction} (h : a.Nonneg) (r : Reservation) :
    0 ≤ (a.charge r).2 := by
  unfold charge
  split_ifs
  · cases a with
    | rollback => exact le_rfl
    | commit c l => exact h.2
  · exact le_rfl

theorem finalState_ne_pending (a : SettleAction) (r : Reservation) :
    a.finalState r ≠ .pending := by
  unfold finalState
  split_ifs <;> simp

/-- The reply to an action is of success or of a cost overrun. -/
theorem reply_cases (a : SettleAction) (r : Reservation) : a.reply r = .ok () ∨
    ∃ actualCost reservedCost,
      a.reply r = .error (.actualCostExceededReservation actualCost reservedCost) := by
  cases a with
  | rollback => exact Or.inl rfl
  | commit c l =>
    by_cases h : c ≤ r.reservedCost + commitSlack
    · exact Or.inl (if_pos h)
    · exact Or.inr ⟨c, r.reservedCost, if_neg h⟩

/-- An action that trips the latency guard says so. -/
theorem latencyExceeded_of_breaches {a : SettleAction} {id : String} {ref : Ref}
    (hactive : bm.activeReservations.get? id = some ref) (h : a.Breaches bm (bm.deref ref)) :
    LatencyExceeded (a.perform bm id).reply := by
  obtain ⟨hcharges, hlatency⟩ := h
  cases a with
  | rollback => exact hcharges.elim
  | commit c l =>
    have hcost : ¬ c > (bm.deref ref).reservedCost + commitSlack := not_lt.mpr hcharges
    rw [charge, if_pos hcharges] at hlatency
    have hbreach : bm.cumulativeActualLatencyMs + l >
      bm.config.maxCumulativeLatencyMs + commitSlack := hlatency
    dsimp only [perform, BudgetManager.commit]
    rw [hactive]
    dsimp only
    rw [if_neg hcost, if_pos hbreach]
    trivial

/-- **An action that does not trip the latency guard** settles its reservation with its own final
state, charge and reply. -/
theorem perform_eq (hv : bm.Valid) {a : SettleAction} {id : String} {ref : Ref}
    (hactive : bm.activeReservations.get? id = some ref)
    (h : ¬ a.Breaches bm (bm.deref ref)) :
    a.perform bm id = ⟨a.reply (bm.deref ref),
      bm.closed id ref (a.finalState (bm.deref ref)) (a.charge (bm.deref ref)),
      lockEvents id .settle⟩ := by
  cases a with
  | rollback =>
    have hcharges : ¬ rollback.Charges (bm.deref ref) := False.elim
    dsimp only [perform, BudgetManager.rollback]
    rw [hactive]
    dsimp only
    rw [hv.rollback_eq hactive, finalState, charge, if_neg hcharges, if_neg hcharges, reply]
  | commit c l =>
    dsimp only [perform, BudgetManager.commit]
    rw [hactive]
    dsimp only
    by_cases hcharges : (commit c l).Charges (bm.deref ref)
    · have hcost : c ≤ (bm.deref ref).reservedCost + commitSlack := hcharges
      have hlatency : ¬ bm.config.maxCumulativeLatencyMs + commitSlack <
          bm.cumulativeActualLatencyMs + l := by
        intro hlt
        refine h ⟨hcharges, ?_⟩
        rw [charge, if_pos hcharges]
        exact hlt
      rw [if_neg (not_lt.mpr hcost), if_neg hlatency,
        hv.commit_eq hactive .committed (c, l), finalState, charge, if_pos hcharges,
        if_pos hcharges, reply, if_pos hcost]
      rfl
    · have hcost : ¬ c ≤ (bm.deref ref).reservedCost + commitSlack := hcharges
      rw [if_pos (not_le.mp hcost), ← closed_zero, finalState, charge, if_neg hcharges,
        if_neg hcharges, reply, if_neg hcost]

end SettleAction

/-! ### Settlements of distinct reservations commute -/

namespace BudgetManager

/-- **Settlements of distinct reservations commute.** -/
theorem closed_comm (bm : BudgetManager) {id id' : String} {ref ref' : Ref} (h : ref ≠ ref')
    (state state' : ReservationState) (charge charge' : ℚ × ℚ) :
    (bm.closed id ref state charge).closed id' ref' state' charge' =
      (bm.closed id' ref' state' charge').closed id ref state charge := by
  have hobj : ((bm.setState ref state).setState ref' state').reservations =
      ((bm.setState ref' state').setState ref state).reservations := by
    refine List.ext_getElem? fun n => ?_
    simp only [getElem?_setState]
    cases bm.reservations[n]? with
    | none => rfl
    | some r =>
      by_cases hn : ref = n
      · subst hn
        simp [Ne.symm h]
      · simp [hn]
  have hleft : (bm.closed id ref state charge).deref ref' = bm.deref ref' :=
    deref_setState_of_ne _ h
  have hright : (bm.closed id' ref' state' charge').deref ref = bm.deref ref :=
    deref_setState_of_ne _ (Ne.symm h)
  refine BudgetManager.ext rfl (add_right_comm _ _ _) ?_ (add_right_comm _ _ _) ?_
    (bm.activeReservations.pop_comm id id') hobj
  · change bm.reservedForExecution - _ - ((bm.closed id ref state charge).deref ref').reservedCost =
      bm.reservedForExecution - _ - ((bm.closed id' ref' state' charge').deref ref).reservedCost
    rw [hleft, hright, sub_right_comm]
  · change bm.reservedLatencyMs - _ -
        ((bm.closed id ref state charge).deref ref').reservedLatencyMs =
      bm.reservedLatencyMs - _ -
        ((bm.closed id' ref' state' charge').deref ref).reservedLatencyMs
    rw [hleft, hright, sub_right_comm]

end BudgetManager

/-- **Two settle actions on distinct reservations commute** if neither trips the latency guard
in one of the two orders: in the other order each gets the reply that it got in the first. -/
theorem SettleAction.perform_comm (hv : bm.Valid) {id id' : String} (hid : id ≠ id')
    {ref ref' : Ref} (hactive : bm.activeReservations.get? id = some ref)
    (hactive' : bm.activeReservations.get? id' = some ref') {a a' : SettleAction}
    (ha : a.Nonneg) (h : ¬ LatencyExceeded (a.perform bm id).reply)
    (h' : ¬ LatencyExceeded (a'.perform (a.perform bm id).manager id').reply) :
    (a'.perform bm id').reply = (a'.perform (a.perform bm id).manager id').reply ∧
      (a.perform (a'.perform bm id').manager id).reply = (a.perform bm id).reply ∧
      (a.perform (a'.perform bm id').manager id).manager =
        (a'.perform (a.perform bm id).manager id').manager := by
  have href : ref ≠ ref' := by
    rintro rfl
    exact hid ((hv.active id _ hactive).2.symm.trans (hv.active id' _ hactive').2)
  have hb : ¬ a.Breaches bm (bm.deref ref) := mt (latencyExceeded_of_breaches hactive) h
  have hperform := perform_eq hv hactive hb
  rw [hperform] at h' ⊢
  dsimp only at h' ⊢
  -- The first order: `a`, then `a'`.
  have hv₁ : (bm.closed id ref (a.finalState (bm.deref ref)) (a.charge (bm.deref ref))).Valid :=
    hv.closed _ _ hactive (a.finalState_ne_pending _)
  have hactive₁ : (bm.closed id ref (a.finalState (bm.deref ref))
      (a.charge (bm.deref ref))).activeReservations.get? id' = some ref' :=
    (Dict.get?_pop_of_ne _ (Ne.symm hid)).trans hactive'
  have hb₁ := mt (latencyExceeded_of_breaches hactive₁) h'
  have hperform₁ := perform_eq hv₁ hactive₁ hb₁
  rw [deref_closed, deref_setState_of_ne _ href] at hb₁ hperform₁
  -- The second order: `a'`, then `a`.
  have hb' : ¬ a'.Breaches bm (bm.deref ref') := by
    rintro ⟨hcharges, hlatency⟩
    refine hb₁ ⟨hcharges, hlatency.trans_le ?_⟩
    exact add_le_add_left (le_add_of_nonneg_right (charge_latency_nonneg ha _)) _
  have hperform' := perform_eq hv hactive' hb'
  rw [hperform']
  dsimp only
  have hv₂ : (bm.closed id' ref' (a'.finalState (bm.deref ref'))
      (a'.charge (bm.deref ref'))).Valid :=
    hv.closed _ _ hactive' (a'.finalState_ne_pending _)
  have hactive₂ : (bm.closed id' ref' (a'.finalState (bm.deref ref'))
      (a'.charge (bm.deref ref'))).activeReservations.get? id = some ref :=
    (Dict.get?_pop_of_ne _ hid).trans hactive
  have hderef₂ : (bm.closed id' ref' (a'.finalState (bm.deref ref'))
      (a'.charge (bm.deref ref'))).deref ref = bm.deref ref :=
    deref_setState_of_ne _ (Ne.symm href)
  have hb₂ : ¬ a.Breaches (bm.closed id' ref' (a'.finalState (bm.deref ref'))
      (a'.charge (bm.deref ref'))) (bm.deref ref) := by
    rintro ⟨hcharges, hlatency⟩
    by_cases hcharges' : a'.Charges (bm.deref ref')
    · exact hb₁ ⟨hcharges', hlatency.trans_eq (add_right_comm _ _ _)⟩
    · rw [charge_of_not_charges hcharges'] at hlatency
      exact hb ⟨hcharges, hlatency.trans_eq (by rw [BudgetManager.closed]; simp)⟩
  have hperform₂ := perform_eq hv₂ hactive₂ (hderef₂.symm ▸ hb₂)
  rw [hderef₂] at hperform₂
  rw [hperform₁, hperform₂]
  exact ⟨rfl, rfl, closed_comm bm (Ne.symm href) _ _ _ _⟩

/-! ### Sequences of settlements -/

/-- Perform settle actions one after the other, and collect the replies. -/
def BudgetManager.settleAll : BudgetManager → List (String × SettleAction) →
    BudgetManager × List (String × Except BudgetError Unit)
  | bm, [] => (bm, [])
  | bm, (reservationId, a) :: acts =>
    let call := a.perform bm reservationId
    let rest := settleAll call.manager acts
    (rest.1, (reservationId, call.reply) :: rest.2)

namespace BudgetManager

variable {acts acts' : List (String × SettleAction)}

/-- The settle actions of a list are on distinct reservations that the dictionary lists. -/
structure Listing (bm : BudgetManager) (acts : List (String × SettleAction)) : Prop where
  nodup : (acts.map Prod.fst).Nodup
  listed : ∀ act ∈ acts, ∃ ref, bm.activeReservations.get? act.1 = some ref

theorem Listing.perm (h : bm.Listing acts) (hperm : acts.Perm acts') : bm.Listing acts' where
  nodup := (hperm.map _).nodup_iff.mp h.nodup
  listed act hact := h.listed act (hperm.mem_iff.mpr hact)

/-- One action of a list that does not trip the latency guard leaves a valid manager in which the
rest of the list is listed. -/
theorem Listing.tail {id : String} {a : SettleAction} (h : bm.Listing ((id, a) :: acts))
    (hv : bm.Valid) (hno : ¬ LatencyExceeded (a.perform bm id).reply) :
    (a.perform bm id).manager.Valid ∧ (a.perform bm id).manager.Listing acts := by
  obtain ⟨ref, hactive⟩ := h.listed _ List.mem_cons_self
  have hnodup := List.nodup_cons.mp h.nodup
  rw [SettleAction.perform_eq hv hactive
    (mt (SettleAction.latencyExceeded_of_breaches hactive) hno)]
  refine ⟨hv.closed _ _ hactive (a.finalState_ne_pending _), hnodup.2, fun act hact => ?_⟩
  have hmem : act.1 ∈ acts.map Prod.fst := List.mem_map_of_mem hact
  have hne : act.1 ≠ id := fun heq => hnodup.1 (heq ▸ hmem)
  obtain ⟨ref', hactive'⟩ := h.listed act (List.mem_cons_of_mem _ hact)
  exact ⟨ref', (Dict.get?_pop_of_ne _ hne).trans hactive'⟩

/-- **Reordering settlements** of a valid manager. -/
theorem Valid.settleAll_perm (hperm : acts.Perm acts') {bm : BudgetManager} (hv : bm.Valid)
    (hlisting : bm.Listing acts) (hnonneg : ∀ act ∈ acts, act.2.Nonneg)
    (hno : ∀ reply ∈ (bm.settleAll acts).2, ¬ LatencyExceeded reply.2) :
    (bm.settleAll acts').1 = (bm.settleAll acts).1 ∧
      (bm.settleAll acts').2.Perm (bm.settleAll acts).2 := by
  induction hperm generalizing bm with
  | nil => exact ⟨rfl, List.Perm.refl _⟩
  | cons act _ ih =>
    obtain ⟨hno₁, hno₂⟩ := List.forall_mem_cons.mp hno
    obtain ⟨hv₁, hlisting₁⟩ := hlisting.tail hv hno₁
    obtain ⟨hmanager, hreplies⟩ :=
      ih hv₁ hlisting₁ (List.forall_mem_cons.mp hnonneg).2 hno₂
    exact ⟨hmanager, hreplies.cons _⟩
  | swap act act' acts =>
    obtain ⟨hno₁, hno₂⟩ := List.forall_mem_cons.mp hno
    have hno₂' := (List.forall_mem_cons.mp hno₂).1
    obtain ⟨ref', hactive'⟩ := hlisting.listed act' List.mem_cons_self
    obtain ⟨ref, hactive⟩ := hlisting.listed act (List.mem_cons_of_mem _ List.mem_cons_self)
    have hne : act'.1 ≠ act.1 := by
      have hnodup := (List.nodup_cons.mp hlisting.nodup).1
      exact fun heq => hnodup (heq ▸ List.mem_map_of_mem List.mem_cons_self)
    obtain ⟨hreply, hreply', hmanager⟩ := SettleAction.perform_comm hv hne hactive' hactive
      (hnonneg act' List.mem_cons_self) hno₁ hno₂'
    simp only [settleAll, hreply, hreply', hmanager, true_and]
    exact List.Perm.swap _ _ _
  | trans hperm _ ih ih' =>
    obtain ⟨hmanager, hreplies⟩ := ih hv hlisting hnonneg hno
    obtain ⟨hmanager', hreplies'⟩ := ih' hv (hlisting.perm hperm)
      (fun act hact => hnonneg act (hperm.mem_iff.mpr hact))
      (fun reply hreply => hno reply (hreplies.mem_iff.mp hreply))
    exact ⟨hmanager'.trans hmanager, hreplies'.trans hreplies⟩

/-- The replies of a list of settlements that never trips the latency guard. -/
theorem Valid.settleAll_replies {bm : BudgetManager} (hv : bm.Valid)
    (hlisting : bm.Listing acts)
    (hno : ∀ reply ∈ (bm.settleAll acts).2, ¬ LatencyExceeded reply.2) :
    ∀ reply ∈ (bm.settleAll acts).2, reply.2 = .ok () ∨ ∃ actualCost reservedCost,
      reply.2 = .error (.actualCostExceededReservation actualCost reservedCost) := by
  induction acts generalizing bm with
  | nil => simp [settleAll]
  | cons act acts ih =>
    obtain ⟨hno₁, hno₂⟩ := List.forall_mem_cons.mp hno
    obtain ⟨hv₁, hlisting₁⟩ := hlisting.tail hv hno₁
    obtain ⟨ref, hactive⟩ := hlisting.listed act List.mem_cons_self
    refine List.forall_mem_cons.mpr ⟨?_, ih hv₁ hlisting₁ hno₂⟩
    have hperform := SettleAction.perform_eq hv hactive
      (mt (SettleAction.latencyExceeded_of_breaches hactive) hno₁)
    exact hperform ▸ act.2.reply_cases _

end BudgetManager

variable {config : BudgetConfig} {tr : List (BudgetManager × BudgetEvent)}
  {acts acts' : List (String × SettleAction)}

/-- **The order of settlements does not matter.** In a reachable state, let each of several
pending reservations be settled by a rollback or by a commit with nonnegative amounts. If one
order of these settlements reports no breach of the latency cap, then every other order leaves the
same manager, with its counters, its dictionary and the state of every reservation, and each
settlement gets the reply that it got in the first order, which is success or a cost overrun. -/
theorem settlement_order_irrelevant (run : Run BudgetStep (new config) tr bm)
    (hlisting : bm.Listing acts) (hnonneg : ∀ act ∈ acts, act.2.Nonneg)
    (hno : ∀ reply ∈ (bm.settleAll acts).2, ¬ LatencyExceeded reply.2)
    (hperm : acts.Perm acts') :
    (bm.settleAll acts').1 = (bm.settleAll acts).1 ∧
      (bm.settleAll acts').2.Perm (bm.settleAll acts).2 ∧
      ∀ reply ∈ (bm.settleAll acts').2, reply.2 = .ok () ∨ ∃ actualCost reservedCost,
        reply.2 = .error (.actualCostExceededReservation actualCost reservedCost) := by
  have hv := valid_of_run run
  obtain ⟨hmanager, hreplies⟩ := hv.settleAll_perm hperm hlisting hnonneg hno
  refine ⟨hmanager, hreplies, fun reply hreply => ?_⟩
  exact hv.settleAll_replies hlisting hno reply (hreplies.mem_iff.mp hreply)

theorem settlement_order_irrelevant_of_two : ∃ tr bm,
    Run BudgetStep (new sampleConfig) tr bm ∧
      (bm.settleAll [("b", .rollback), ("a", .commit (1 / 50) 150)]).1 =
        (bm.settleAll [("a", .commit (1 / 50) 150), ("b", .rollback)]).1 := by
  let run := Run.start |>.step (BudgetStep.reserve (new sampleConfig)
    "req-a" (1 / 100) 150 "a" 0) |>.step (BudgetStep.reserve _ "req-b" (1 / 100) 150 "b" 0)
  refine ⟨_, _, run, (settlement_order_irrelevant run ⟨by decide, ?_⟩ ?_ ?_
    (List.Perm.swap _ _ _)).1⟩
  · simp only [List.forall_mem_cons, List.not_mem_nil]
    exact ⟨⟨0, by decide +kernel⟩, ⟨1, by decide +kernel⟩, by simp⟩
  · simp only [List.forall_mem_cons, List.not_mem_nil, SettleAction.Nonneg]
    norm_num
  · decide +kernel

end InferenceRouter
