import InferenceRouter.Budget.Ledger

/-!
# Conservation of the ledger

When the ids of reservations are fresh, the dictionary of the manager lists exactly the pending
objects, so the reserved totals are the sums over the dictionary, and the cumulative totals are
the sums of what the successful commits were passed.

## Main definitions

* `InferenceRouter.BudgetEvent.FreshIn`: a granted reservation has a fresh id.
* `InferenceRouter.BudgetManager.Listed`: the dictionary lists every pending object.
* `InferenceRouter.charged`: what the successful commits of a trace were passed.
* `InferenceRouter.LedgerConserved`.

## Main results

* `InferenceRouter.BudgetManager.listed_of_run`.
* `InferenceRouter.ledger_conservation`.
-/

namespace InferenceRouter

open Foundation BudgetManager

/-! ### Fresh ids -/

/-- The id of a granted reservation is that of no earlier reservation. -/
def BudgetEvent.FreshIn (bm : BudgetManager) : BudgetEvent → Prop
  | .reserve _ _ _ uuid _ (.ok (some _)) => ∀ r ∈ bm.reservations, r.id ≠ uuid
  | .reserve _ _ _ _ _ (.ok none) | .reserve _ _ _ _ _ (.error _) | .commit .. | .rollback ..
  | .reap .. => True

instance (bm : BudgetManager) : (ev : BudgetEvent) → Decidable (ev.FreshIn bm)
  | .reserve _ _ _ uuid _ (.ok (some _)) =>
      inferInstanceAs (Decidable (∀ r ∈ bm.reservations, r.id ≠ uuid))
  | .reserve _ _ _ _ _ (.ok none) | .reserve _ _ _ _ _ (.error _) | .commit .. | .rollback ..
  | .reap .. => instDecidableTrue

namespace BudgetManager

variable {config : BudgetConfig} {tr : List (BudgetManager × BudgetEvent)}
  {bm bm' : BudgetManager} {ev : BudgetEvent}

/-- The dictionary lists every pending object under its id, and the ids are distinct. -/
structure Listed (bm : BudgetManager) : Prop where
  get?_id : ∀ ref ∈ bm.escrow.pending,
    bm.activeReservations.get? (bm.deref ref).id = some ref
  nodup_ids : (bm.reservations.map Reservation.id).Nodup

theorem listed_new (config : BudgetConfig) : (new config).Listed where
  get?_id ref h := absurd (mem_pending.mp h).1 (Nat.not_lt_zero ref)
  nodup_ids := List.nodup_nil

theorem ids_setState (bm : BudgetManager) (ref : Ref) (state : ReservationState) :
    (bm.setState ref state).reservations.map Reservation.id =
      bm.reservations.map Reservation.id := by
  refine List.ext_getElem? fun i => ?_
  rw [List.getElem?_map, List.getElem?_map, getElem?_setState]
  cases bm.reservations[i]? with
  | none => rfl
  | some r => by_cases h : ref = i <;> simp [h]

/-- Objects of one id are the same object. -/
theorem Listed.ref_unique (hl : bm.Listed) {ref ref' : Ref} {r r' : Reservation}
    (hr : bm.reservations[ref]? = some r) (hr' : bm.reservations[ref']? = some r')
    (hid : r.id = r'.id) : ref = ref' := by
  have hget : (bm.reservations.map Reservation.id)[ref]? = some r.id := by
    rw [List.getElem?_map, hr, Option.map_some]
  have hget' : (bm.reservations.map Reservation.id)[ref']? = some r.id := by
    rw [List.getElem?_map, hr', Option.map_some, hid]
  have hlt := (List.getElem?_eq_some_iff.mp hget).1
  exact (List.getElem?_inj hlt hl.nodup_ids).mp (hget.trans hget'.symm)

theorem Listed.granted (hl : bm.Listed) {cost latencyMs now : ℚ} {uuid : String}
    (hfresh : ∀ r ∈ bm.reservations, r.id ≠ uuid) :
    (bm.granted cost latencyMs uuid now).Listed where
  get?_id ref h := by
    rw [escrow_granted, Escrow.pending_grant, Finset.mem_insert] at h
    change (bm.activeReservations.set uuid bm.reservations.length).get? _ = some ref
    rw [Dict.get?_set]
    by_cases hnew : ref = bm.reservations.length
    · subst hnew
      rw [deref_granted_length, if_pos rfl]
    · have hold := h.resolve_left hnew
      have hmem : bm.deref ref ∈ bm.reservations :=
        List.mem_of_getElem? (getElem?_eq_deref (mem_pending.mp hold).1)
      rw [deref_granted _ _ _ _ hnew, if_neg (hfresh _ hmem)]
      exact hl.get?_id ref hold
  nodup_ids := by
    change ((bm.reservations ++ [_]).map Reservation.id).Nodup
    rw [List.map_append, List.map_singleton]
    refine List.nodup_append_comm.mp (List.nodup_cons.mpr ⟨fun h => ?_, hl.nodup_ids⟩)
    obtain ⟨r, hr, hid⟩ := List.mem_map.mp h
    exact hfresh r hr hid

theorem Listed.closed (hl : bm.Listed) {id : String} {ref : Ref}
    {state : ReservationState} (charge : ℚ × ℚ)
    (hactive : bm.activeReservations.get? id = some ref) (hstate : state ≠ .pending) :
    (bm.closed id ref state charge).Listed where
  get?_id r h := by
    rw [escrow_closed _ _ _ hstate, Escrow.pending_settle, Finset.mem_erase] at h
    rw [deref_closed, deref_setState_of_ne state h.1.symm]
    have hget := hl.get?_id r h.2
    have hne : (bm.deref r).id ≠ id := by
      rintro hid
      rw [hid, hactive] at hget
      exact h.1 (Option.some.inj hget).symm
    exact (Dict.get?_pop_of_ne _ hne).trans hget
  nodup_ids := (ids_setState bm ref state).symm ▸ hl.nodup_ids

/-- **The dictionary lists every pending object** in every state reached with fresh ids. -/
theorem listed_of_run (run : Run BudgetStep (new config) tr bm)
    (hfresh : ∀ t ∈ tr, t.2.FreshIn t.1) : bm.Listed := by
  induction run with
  | start => exact listed_new config
  | step run h ih =>
    rw [List.forall_mem_cons] at hfresh
    refine (h.outcome (valid_of_run run)).preserves (P := Listed) ?_
      (fun _ _ _ _ charge _ hactive hstate hl => hl.closed charge hactive hstate)
      (valid_of_run run) (ih hfresh.2)
    rintro requestId cost latencyMs uuid now ref rfl hl
    exact hl.granted hfresh.1

/-- The dictionary lists a reservation exactly while its object is pending. -/
theorem Listed.pending_iff (hl : bm.Listed) (hv : bm.Valid) {ref : Ref} {r : Reservation}
    (hr : bm.reservations[ref]? = some r) :
    r.state = .pending ↔ bm.activeReservations.get? r.id = some ref := by
  have hderef := deref_eq_of_getElem? hr
  have hlt := (List.getElem?_eq_some_iff.mp hr).1
  constructor
  · intro hstate
    have hget := hl.get?_id ref (mem_pending.mpr ⟨hlt, hderef ▸ hstate⟩)
    rwa [hderef] at hget
  · intro hget
    have hpending := (mem_pending.mp (hv.active _ _ hget).1).2
    rwa [hderef] at hpending

/-! ### The methods on the escrow account -/

/-- What a settlement that has been answered charges. -/
def chargeOf (charge : ℚ × ℚ) : Except BudgetError Unit → ℚ × ℚ
  | .ok _ => charge
  | .error _ => 0

/-- An id that the dictionary lists belongs to one object only. -/
theorem Listed.eq_of_active (hl : bm.Listed) (hv : bm.Valid) {ref ref' : Ref}
    (hlt : ref < bm.reservations.length)
    (hactive : bm.activeReservations.get? (bm.deref ref).id = some ref') : ref' = ref := by
  obtain ⟨hpending, hid⟩ := hv.active _ _ hactive
  exact hl.ref_unique (getElem?_eq_deref (mem_pending.mp hpending).1) (getElem?_eq_deref hlt) hid

theorem Listed.notMem_pending (hl : bm.Listed) {ref : Ref}
    (hactive : bm.activeReservations.get? (bm.deref ref).id = none) : ref ∉ bm.escrow.pending := by
  intro hpending
  have hget := hl.get?_id ref hpending
  rw [hactive] at hget
  cases hget

/-- **A commit of an object settles it** in the escrow account, with its charge if it returns and
without one if it raises. -/
theorem Listed.escrow_commit (hl : bm.Listed) (hv : bm.Valid) {ref : Ref}
    (hlt : ref < bm.reservations.length) (actualCost actualLatencyMs : ℚ) :
    (bm.commit (bm.deref ref).id actualCost actualLatencyMs).manager.escrow =
      bm.escrow.settle ref (chargeOf (actualCost, actualLatencyMs)
        (bm.commit (bm.deref ref).id actualCost actualLatencyMs).reply) := by
  have hout := hv.commit_outcome (bm.deref ref).id actualCost actualLatencyMs
  generalize (bm.commit (bm.deref ref).id actualCost actualLatencyMs).reply = reply at hout ⊢
  generalize (bm.commit (bm.deref ref).id actualCost actualLatencyMs).manager = bm' at hout ⊢
  cases hout with
  | commitInactive hactive => exact (Escrow.release_of_notMem (hl.notMem_pending hactive)).symm
  | costOverrun hactive | latencyBreach hactive | committed hactive =>
    obtain rfl := hl.eq_of_active hv hlt hactive
    exact escrow_closed _ _ _ (by simp)

/-- What the guards of `commit` accept: a commit of a pending object, for at most its reserved
cost, that keeps the total latency within its cap, up to the slack. -/
def Accepts (bm : BudgetManager) (ref : Ref) (actualCost actualLatencyMs : ℚ) : Prop :=
  ref ∈ bm.escrow.pending ∧ actualCost ≤ (bm.deref ref).reservedCost + commitSlack ∧
    bm.cumulativeActualLatencyMs + actualLatencyMs ≤
      bm.config.maxCumulativeLatencyMs + commitSlack

/-- **A commit of an object returns** exactly if the guards accept it. -/
theorem Listed.commit_reply_iff (hl : bm.Listed) (hv : bm.Valid) {ref : Ref}
    (hlt : ref < bm.reservations.length) (actualCost actualLatencyMs : ℚ) :
    (bm.commit (bm.deref ref).id actualCost actualLatencyMs).reply = .ok () ↔
      bm.Accepts ref actualCost actualLatencyMs := by
  have hout := hv.commit_outcome (bm.deref ref).id actualCost actualLatencyMs
  generalize (bm.commit (bm.deref ref).id actualCost actualLatencyMs).reply = reply at hout ⊢
  generalize (bm.commit (bm.deref ref).id actualCost actualLatencyMs).manager = bm' at hout
  cases hout with
  | commitInactive hactive =>
    exact iff_of_false (by simp) fun h => hl.notMem_pending hactive h.1
  | costOverrun hactive hcost =>
    obtain rfl := hl.eq_of_active hv hlt hactive
    exact iff_of_false (by simp) fun h => absurd h.2.1 (not_le.mpr hcost)
  | latencyBreach hactive _ hlatency =>
    exact iff_of_false (by simp) fun h => absurd h.2.2 (not_le.mpr hlatency)
  | committed hactive hcost hlatency =>
    obtain rfl := hl.eq_of_active hv hlt hactive
    exact iff_of_true rfl ⟨(hv.active _ _ hactive).1, hcost, hlatency⟩

/-- **A rollback of an object gives its amounts back** in the escrow account. -/
theorem Listed.escrow_rollback (hl : bm.Listed) (hv : bm.Valid) {ref : Ref}
    (hlt : ref < bm.reservations.length) :
    (bm.rollback (bm.deref ref).id).manager.escrow = bm.escrow.release ref := by
  have hout := hv.rollback_outcome (bm.deref ref).id
  generalize (bm.rollback (bm.deref ref).id).reply = reply at hout
  generalize (bm.rollback (bm.deref ref).id).manager = bm' at hout ⊢
  cases hout with
  | rollbackInactive hactive => exact (Escrow.release_of_notMem (hl.notMem_pending hactive)).symm
  | rolledBack hactive =>
    obtain rfl := hl.eq_of_active hv hlt hactive
    exact escrow_closed _ _ _ (by simp)

/-- The settlements create no object. -/
theorem Valid.length_commit (hv : bm.Valid) (id : String) (actualCost actualLatencyMs : ℚ) :
    (bm.commit id actualCost actualLatencyMs).manager.reservations.length =
      bm.reservations.length := by
  have hout := hv.commit_outcome id actualCost actualLatencyMs
  generalize (bm.commit id actualCost actualLatencyMs).reply = reply at hout
  generalize (bm.commit id actualCost actualLatencyMs).manager = bm' at hout ⊢
  cases hout with
  | commitInactive => rfl
  | costOverrun | latencyBreach | committed => exact length_closed ..

theorem Valid.length_rollback (hv : bm.Valid) (id : String) :
    (bm.rollback id).manager.reservations.length = bm.reservations.length := by
  have hout := hv.rollback_outcome id
  generalize (bm.rollback id).reply = reply at hout
  generalize (bm.rollback id).manager = bm' at hout ⊢
  cases hout with
  | rollbackInactive => rfl
  | rolledBack => exact length_closed ..

/-- **A scan of the reaper** gives the amounts of the stale reservations back, in the escrow
account, and no others. -/
theorem Valid.escrow_reap (hv : bm.Valid) (clock : ℕ → ℚ) :
    (bm.expireStaleReservations clock).1.escrow.spent = bm.escrow.spent ∧
      (bm.expireStaleReservations clock).1.escrow.amount = bm.escrow.amount ∧
      (bm.expireStaleReservations clock).1.reservations.length = bm.reservations.length ∧
      (bm.expireStaleReservations clock).1.escrow.pending ⊆ bm.escrow.pending := by
  rw [hv.expireStaleReservations_eq]
  refine (closeAll_induction (P := fun bm' => bm'.escrow.spent = bm.escrow.spent ∧
    bm'.escrow.amount = bm.escrow.amount ∧ bm'.reservations.length = bm.reservations.length ∧
      bm'.escrow.pending ⊆ bm.escrow.pending) (fun bm' id ref _ _ h => ?_)
    (bm.nodup_stale clock) hv (fun e he => stale_active he) ⟨rfl, rfl, rfl, subset_rfl⟩).2
  obtain ⟨hspent, hamount, hlength, hpending⟩ := h
  rw [escrow_closed _ _ _ (by simp), length_closed]
  exact ⟨(add_zero _).trans hspent, hamount, hlength, (Finset.erase_subset _ _).trans hpending⟩

/-- A reservation that a scan does not find expired stays pending. -/
theorem Valid.mem_pending_reap (hv : bm.Valid) {clock : ℕ → ℚ} {ref : Ref}
    (hpending : ref ∈ bm.escrow.pending) (hspared : ∀ e ∈ bm.stale clock, ref ≠ e.2) :
    ref ∈ (bm.expireStaleReservations clock).1.escrow.pending := by
  obtain ⟨hlt, hstate⟩ := mem_pending.mp hpending
  have hnotMem : ref ∉ (bm.stale clock).map Prod.snd := by
    rintro hmem
    obtain ⟨e, he, rfl⟩ := List.mem_map.mp hmem
    exact hspared e he rfl
  have hlength := (hv.escrow_reap clock).2.2.1
  rw [hv.expireStaleReservations_eq] at hlength ⊢
  have hget := getElem?_closeAll bm hnotMem
  rw [getElem?_eq_deref hlt] at hget
  rw [mem_pending, hlength, deref_eq_of_getElem? hget]
  exact ⟨hlt, hstate⟩

/-! ### The reserved totals -/

/-- The references of the dictionary are distinct. -/
theorem Valid.nodup_refs (hv : bm.Valid) :
    (bm.activeReservations.items.map Prod.snd).Nodup := by
  refine List.Nodup.of_map (fun ref => (bm.deref ref).id) ?_
  rw [List.map_map]
  refine (congrArg List.Nodup (List.map_congr_left fun e he => ?_)).mpr
    bm.activeReservations.nodup_keys
  exact (hv.active e.1 e.2 (Dict.get?_eq_some_iff.mpr he)).2

/-- The dictionary and the escrow account have the same pending references. -/
theorem Listed.pending_eq (hl : bm.Listed) (hv : bm.Valid) :
    bm.escrow.pending = (bm.activeReservations.items.map Prod.snd).toFinset := by
  ext ref
  rw [List.mem_toFinset, List.mem_map]
  constructor
  · exact fun h => ⟨(_, ref), Dict.get?_eq_some_iff.mp (hl.get?_id ref h), rfl⟩
  · rintro ⟨e, he, rfl⟩
    exact (hv.active e.1 e.2 (Dict.get?_eq_some_iff.mpr he)).1

/-- The reserved totals are the sums over the dictionary. -/
theorem Listed.held_eq_sum (hl : bm.Listed) (hv : bm.Valid) :
    (bm.reservedForExecution, bm.reservedLatencyMs) =
      (bm.activeReservations.items.map fun e =>
        ((bm.deref e.2).reservedCost, (bm.deref e.2).reservedLatencyMs)).sum := by
  rw [← hv.held_eq, Escrow.held, hl.pending_eq hv, List.sum_toFinset _ hv.nodup_refs,
    List.map_map]
  rfl

/-- A commit that raises leaves what a rollback leaves. -/
theorem Valid.commit_error_eq_rollback (hv : bm.Valid) {id : String}
    {actualCost actualLatencyMs : ℚ} {error : BudgetError}
    (h : (bm.commit id actualCost actualLatencyMs).reply = .error error) :
    (bm.commit id actualCost actualLatencyMs).manager = (bm.rollback id).manager := by
  dsimp only [commit, rollback] at h ⊢
  cases hactive : bm.activeReservations.get? id with
  | none => rfl
  | some ref =>
    rw [hactive] at h
    dsimp only at h ⊢
    rw [hv.rollback_eq hactive, closed_zero]
    split_ifs at h ⊢
    · rfl
    · rfl

end BudgetManager

/-! ### Conservation -/

variable {config : BudgetConfig} {tr : List (BudgetManager × BudgetEvent)} {bm : BudgetManager}

/-- What the successful commits of a trace were passed, in money and latency. -/
def charged : List (BudgetManager × BudgetEvent) → ℚ × ℚ
  | [] => 0
  | (_, .commit _ actualCost actualLatencyMs (.ok _)) :: tr =>
      charged tr + (actualCost, actualLatencyMs)
  | (_, .commit _ _ _ (.error _)) :: tr | (_, .reserve ..) :: tr | (_, .rollback ..) :: tr
  | (_, .reap ..) :: tr => charged tr

/-- The account has spent what the successful commits were passed. -/
theorem spent_eq_charged (run : Run BudgetStep (new config) tr bm) :
    bm.escrow.spent = charged tr := by
  induction run with
  | start => rfl
  | @step tr bm ev bm' run h ih =>
    have hout := h.outcome (valid_of_run run)
    cases hout with
    | malformed | refused | granted | commitInactive | rollbackInactive => exact ih
    | costOverrun | latencyBreach | rolledBack =>
      rw [escrow_closed _ _ _ (by simp), Escrow.spent_settle, add_zero]
      exact ih
    | committed =>
      rw [escrow_closed _ _ _ (by simp), Escrow.spent_settle, ih, charged]
    | reaped clock =>
      refine (closeAll_induction (P := fun bm => bm.escrow.spent = charged tr) ?_
        (bm.nodup_stale clock) (valid_of_run run) (fun e he => stale_active he) ih).2
      intro bm id ref _ _ hP
      rw [escrow_closed _ _ _ (by simp), Escrow.spent_settle, add_zero]
      exact hP

/-- The ledger of a manager, reached by the trace `tr`, is conserved. -/
structure LedgerConserved (tr : List (BudgetManager × BudgetEvent)) (bm : BudgetManager) :
    Prop where
  reservedForExecution_eq : bm.reservedForExecution =
    (bm.activeReservations.items.map fun e => (bm.deref e.2).reservedCost).sum
  reservedLatencyMs_eq : bm.reservedLatencyMs =
    (bm.activeReservations.items.map fun e => (bm.deref e.2).reservedLatencyMs).sum
  cumulativeRemoteCost_eq : bm.cumulativeRemoteCost = (charged tr).1
  cumulativeActualLatencyMs_eq : bm.cumulativeActualLatencyMs = (charged tr).2
  /-- No clamp of `commit` or `rollback` changes a value. -/
  clamp_settle : ∀ id ref, bm.activeReservations.get? id = some ref →
    max 0 (bm.reservedForExecution - (bm.deref ref).reservedCost) =
        bm.reservedForExecution - (bm.deref ref).reservedCost ∧
      max 0 (bm.reservedLatencyMs - (bm.deref ref).reservedLatencyMs) =
        bm.reservedLatencyMs - (bm.deref ref).reservedLatencyMs
  /-- No clamp of the reaper changes a value: `bm'` is the manager when its loop arrives at the
  entry `e`. -/
  clamp_scan : ∀ clock before e after, bm.activeReservations.items = before ++ e :: after →
    ∀ bm', bm' = (expireLoop clock before 0 bm []).1 →
      max 0 (bm'.reservedForExecution - (bm'.deref e.2).reservedCost) =
          bm'.reservedForExecution - (bm'.deref e.2).reservedCost ∧
        max 0 (bm'.reservedLatencyMs - (bm'.deref e.2).reservedLatencyMs) =
          bm'.reservedLatencyMs - (bm'.deref e.2).reservedLatencyMs
  /-- A rejecting branch of `commit` leaves what a rollback leaves. -/
  reject_eq_rollback : ∀ id actualCost actualLatencyMs error,
    (bm.commit id actualCost actualLatencyMs).reply = .error error →
      (bm.commit id actualCost actualLatencyMs).manager = (bm.rollback id).manager

/-- No clamp of the reaper changes a value, at any entry its loop arrives at. -/
theorem BudgetManager.Valid.clamp_scan (hv : bm.Valid) (clock : ℕ → ℚ)
    {before after : List (String × Ref)} {e : String × Ref}
    (hitems : bm.activeReservations.items = before ++ e :: after) {bm' : BudgetManager}
    (hbm' : bm' = (expireLoop clock before 0 bm []).1) :
    max 0 (bm'.reservedForExecution - (bm'.deref e.2).reservedCost) =
        bm'.reservedForExecution - (bm'.deref e.2).reservedCost ∧
      max 0 (bm'.reservedLatencyMs - (bm'.deref e.2).reservedLatencyMs) =
        bm'.reservedLatencyMs - (bm'.deref e.2).reservedLatencyMs := by
  have hkeys := bm.activeReservations.nodup_keys
  rw [hitems, List.map_append, List.map_cons] at hkeys
  have hbefore := hkeys.of_append_left
  have hactive : ∀ e' ∈ before, bm.activeReservations.get? e'.1 = some e'.2 := fun e' he' =>
    Dict.get?_eq_some_iff.mpr (hitems ▸ List.mem_append_left _ he')
  have hsub := bm.staleFrom_sublist clock before 0
  rw [expireLoop_eq clock hbefore hv hactive] at hbm'
  subst hbm'
  have hvalid := (closeAll_induction (P := fun _ => True) (fun _ _ _ _ _ _ => trivial)
    (hbefore.sublist (hsub.map _)) hv (fun e' he' => hactive e' (hsub.subset he')) trivial).1
  refine hvalid.max_sub_eq (hvalid.active e.1 e.2 ?_).1
  have hnotin : e.1 ∉ (bm.staleFrom clock before 0).map Prod.fst := fun h =>
    List.disjoint_of_nodup_append hkeys ((hsub.map _).subset h) List.mem_cons_self
  rw [get?_closeAll, if_neg hnotin, Dict.get?_eq_some_iff, hitems]
  exact List.mem_append_right _ List.mem_cons_self

/-- **The ledger is conserved** in every state reached with fresh ids by any interleaving of
reservations, commits, rollbacks and scans of the reaper. -/
theorem ledger_conservation (run : Run BudgetStep (new config) tr bm)
    (hfresh : ∀ t ∈ tr, t.2.FreshIn t.1) : LedgerConserved tr bm := by
  have hv := valid_of_run run
  have hheld := (listed_of_run run hfresh).held_eq_sum hv
  have hspent := spent_eq_charged run
  constructor
  · have h := congrArg (AddMonoidHom.fst ℚ ℚ) hheld
    rwa [map_list_sum, List.map_map] at h
  · have h := congrArg (AddMonoidHom.snd ℚ ℚ) hheld
    rwa [map_list_sum, List.map_map] at h
  · exact congrArg Prod.fst hspent
  · exact congrArg Prod.snd hspent
  · exact fun id ref hactive => hv.max_sub_eq (hv.active id ref hactive).1
  · exact fun clock before e after hitems bm' hbm' => hv.clamp_scan clock hitems hbm'
  · exact fun id c l error h => hv.commit_error_eq_rollback h

theorem ledger_conservation_of_three_steps : ∃ tr bm,
    Run BudgetStep (new sampleConfig) tr bm ∧ charged tr = (1 / 100, 90) ∧
      bm.activeReservations.length = 1 ∧ LedgerConserved tr bm := by
  let run := Run.start |>.step (BudgetStep.reserve (new sampleConfig)
    "req-a" (1 / 100) 150 "a" 0) |>.step (BudgetStep.reserve _ "req-b" (1 / 100) 150 "b" 0)
    |>.step (BudgetStep.commit _ "a" (1 / 100) 90)
  refine ⟨_, _, run, by decide +kernel, by decide +kernel, ledger_conservation run ?_⟩
  simp only [List.forall_mem_cons, List.not_mem_nil, false_implies, implies_true, and_true]
  exact ⟨trivial, by decide +kernel, by decide +kernel⟩

end InferenceRouter
