import InferenceRouter.Budget.Conservation

/-!
# A reservation is settled exactly once

A reservation can be settled by a commit, by a commit that is rejected, by a rollback and by the
reaper, and the competing attempts can come in any order. The state of the object and the entry
of the dictionary are updated together by each of them, so that the first one settles the
reservation and the others find it gone.

## Main definitions

* `InferenceRouter.BudgetEvent.commits`, `InferenceRouter.BudgetEvent.settles`: events that commit
  and that settle a reservation.
* `InferenceRouter.SettledOnce`.

## Main results

* `InferenceRouter.BudgetManager.settled_of_run`: a settled object never changes again.
* `InferenceRouter.settled_exactly_once`.
-/

namespace InferenceRouter

open Foundation BudgetManager

/-! ### Settling events -/

/-- A commit on `id` that returns normally. -/
def BudgetEvent.commits (id : String) : BudgetEvent → Bool
  | .commit id' _ _ (.ok _) => id' = id
  | .commit _ _ _ (.error _) | .reserve .. | .rollback .. | .reap .. => false

/-- A commit or a rollback on `id` that returns normally or releases the reserved amounts, as the
rejecting branches of `commit` do. Only `InvalidReservationStateError` releases nothing. -/
def BudgetEvent.settles (id : String) : BudgetEvent → Bool
  | .commit id' _ _ (.ok _) => id' = id
  | .commit id' _ _ (.error (.actualCostExceededReservation ..)) => id' = id
  | .commit id' _ _ (.error (.actualLatencyExceededReservation ..)) => id' = id
  | .rollback id' (.ok _) => id' = id
  | .commit _ _ _ (.error (.invalidReservationState _)) | .commit _ _ _ (.error (.valueError _))
  | .rollback _ (.error _) | .reserve .. | .reap .. => false

namespace BudgetManager

variable {config : BudgetConfig} {tr : List (BudgetManager × BudgetEvent)}
  {bm bm' : BudgetManager} {ev : BudgetEvent} {id : String} {ref : Ref} {r : Reservation}

/-! ### Settled objects -/

/-- Settling a listed reservation changes no settled object. -/
theorem Valid.getElem?_closed_of_settled (hv : bm.Valid)
    (hactive : bm.activeReservations.get? id = some ref) {state : ReservationState}
    (charge : ℚ × ℚ) {ref' : Ref} (hr : bm.reservations[ref']? = some r)
    (hsettled : r.state ≠ .pending) :
    (bm.closed id ref state charge).reservations[ref']? = some r := by
  have hne : ref ≠ ref' := by
    rintro rfl
    have hpending := (mem_pending.mp (hv.active id ref hactive).1).2
    rw [deref_eq_of_getElem? hr] at hpending
    exact hsettled hpending
  exact (getElem?_setState_of_ne state hne).trans hr

/-- A step changes no settled object. -/
theorem Valid.settled_step (hv : bm.Valid) (h : BudgetStep bm ev bm')
    (hr : bm.reservations[ref]? = some r) (hsettled : r.state ≠ .pending) :
    bm'.reservations[ref]? = some r := by
  refine (h.outcome hv).preserves (P := fun bm => bm.reservations[ref]? = some r) ?_ ?_ hv hr
  · intro _ cost latencyMs uuid now _ _ hP
    exact (getElem?_granted _ _ _ _ (List.getElem?_eq_some_iff.mp hr).1).trans hP
  · intro bm id ref' state charge hv hactive _ hP
    exact hv.getElem?_closed_of_settled hactive charge hP hsettled

/-- **A settled object never changes again.** -/
theorem Valid.settled_of_run (hv : bm.Valid) (run : Run BudgetStep bm tr bm')
    (hr : bm.reservations[ref]? = some r) (hsettled : r.state ≠ .pending) :
    bm'.reservations[ref]? = some r :=
  (run.invariant_all (P := fun bm => bm.Valid ∧ bm.reservations[ref]? = some r) ⟨hv, hr⟩
    fun _ _ _ hP h => ⟨hP.1.step h, hP.1.settled_step h hP.2 hsettled⟩).2

/-! ### Attempts on settled reservations -/

theorem commit_of_inactive (hactive : bm.activeReservations.get? id = none)
    (actualCost actualLatencyMs : ℚ) :
    (bm.commit id actualCost actualLatencyMs).reply = .error (.invalidReservationState id) ∧
      (bm.commit id actualCost actualLatencyMs).manager = bm := by
  rw [commit, hactive]
  exact ⟨rfl, rfl⟩

theorem rollback_of_inactive (hactive : bm.activeReservations.get? id = none) :
    (bm.rollback id).reply = .error (.invalidReservationState id) ∧
      (bm.rollback id).manager = bm := by
  rw [rollback, hactive]
  exact ⟨rfl, rfl⟩

/-! ### Frames -/

/-- Two managers agree on a reservation: on its object and on its entry of the dictionary. -/
def SameReservation (bm bm' : BudgetManager) (ref : Ref) (id : String) : Prop :=
  bm'.reservations[ref]? = bm.reservations[ref]? ∧
    bm'.activeReservations.get? id = bm.activeReservations.get? id

/-- Settling a listed reservation touches no reservation with another id. -/
theorem Valid.sameReservation_closed (hv : bm.Valid)
    (hactive : bm.activeReservations.get? id = some ref) (state : ReservationState)
    (charge : ℚ × ℚ) {ref' : Ref} (hr : bm.reservations[ref']? = some r) (hid : r.id ≠ id) :
    bm.SameReservation (bm.closed id ref state charge) ref' r.id := by
  refine ⟨getElem?_setState_of_ne state ?_, Dict.get?_pop_of_ne _ hid⟩
  rintro rfl
  have hderef := (hv.active id ref hactive).2
  rw [deref_eq_of_getElem? hr] at hderef
  exact hid hderef

/-- A commit or a rollback touches no reservation with another id. -/
theorem Valid.sameReservation_settle (hv : bm.Valid) (id : String)
    (actualCost actualLatencyMs : ℚ) {ref' : Ref} (hr : bm.reservations[ref']? = some r)
    (hid : r.id ≠ id) :
    bm.SameReservation (bm.commit id actualCost actualLatencyMs).manager ref' r.id ∧
      bm.SameReservation (bm.rollback id).manager ref' r.id := by
  constructor
  · have hout := hv.commit_outcome id actualCost actualLatencyMs
    generalize (bm.commit id actualCost actualLatencyMs).reply = reply,
      (bm.commit id actualCost actualLatencyMs).manager = bm' at hout
    cases hout with
    | commitInactive => exact ⟨rfl, rfl⟩
    | costOverrun hactive | latencyBreach hactive | committed hactive =>
      exact hv.sameReservation_closed hactive _ _ hr hid
  · have hout := hv.rollback_outcome id
    generalize (bm.rollback id).reply = reply, (bm.rollback id).manager = bm' at hout
    cases hout with
    | rollbackInactive => exact ⟨rfl, rfl⟩
    | rolledBack hactive => exact hv.sameReservation_closed hactive _ _ hr hid

/-- A scan of the reaper touches no reservation whose id it does not return. -/
theorem Valid.sameReservation_reap (hv : bm.Valid) (clock : ℕ → ℚ) {ref' : Ref}
    (hr : bm.reservations[ref']? = some r)
    (hid : r.id ∉ (bm.expireStaleReservations clock).2) :
    bm.SameReservation (bm.expireStaleReservations clock).1 ref' r.id := by
  rw [hv.expireStaleReservations_eq] at hid ⊢
  refine ⟨getElem?_closeAll _ fun hmem => hid ?_, ?_⟩
  · obtain ⟨e, he, rfl⟩ := List.mem_map.mp hmem
    have hderef := (hv.active _ _ (stale_active he)).2
    rw [deref_eq_of_getElem? hr] at hderef
    exact List.mem_map.mpr ⟨e, he, hderef.symm⟩
  · exact (get?_closeAll _ _ _).trans (if_neg hid)

end BudgetManager

/-! ### Counting settlements -/

/-- The number of events of a trace that satisfy a test. -/
def countEvents (test : BudgetEvent → Bool) (tr : List (BudgetManager × BudgetEvent)) : ℕ :=
  tr.countP fun t => test t.2

theorem countEvents_cons (test : BudgetEvent → Bool) (t : BudgetManager × BudgetEvent)
    (tr : List (BudgetManager × BudgetEvent)) :
    countEvents test (t :: tr) = countEvents test tr + if test t.2 then 1 else 0 :=
  List.countP_cons

/-- The counts, for each id, of the successful commits and of the settlements by a commit or a
rollback, as they are in a manager with fresh ids. -/
structure Counted (commits settles : String → ℕ) (bm : BudgetManager) : Prop where
  commits_eq : ∀ (ref : Ref) r, bm.reservations[ref]? = some r →
    commits r.id = if r.state = .committed then 1 else 0
  settles_le : ∀ id, settles id ≤ 1
  settles_active : ∀ id ref, bm.activeReservations.get? id = some ref → settles id = 0
  unused : ∀ id, (∀ r ∈ bm.reservations, r.id ≠ id) → commits id = 0 ∧ settles id = 0

section Counted

variable {config : BudgetConfig} {tr : List (BudgetManager × BudgetEvent)} {bm : BudgetManager}
  {commits settles commits' settles' : String → ℕ}

theorem Counted.granted (h : Counted commits settles bm) (cost latencyMs now : ℚ)
    {uuid : String} (hfresh : ∀ r ∈ bm.reservations, r.id ≠ uuid) :
    Counted commits settles (bm.granted cost latencyMs uuid now) where
  commits_eq ref r hr := by
    by_cases hlt : ref < bm.reservations.length
    · rw [getElem?_granted _ _ _ _ hlt] at hr
      exact h.commits_eq ref r hr
    · have href : ref = bm.reservations.length := by
        have := (List.getElem?_eq_some_iff.mp hr).1
        rw [length_granted] at this
        exact le_antisymm (Nat.le_of_lt_succ this) (not_lt.mp hlt)
      rw [href, getElem?_granted_length] at hr
      obtain rfl := Option.some.inj hr
      exact (h.unused uuid hfresh).1
  settles_le := h.settles_le
  settles_active id ref hget := by
    have hset : (bm.activeReservations.set uuid bm.reservations.length).get? id = some ref := hget
    rw [Dict.get?_set] at hset
    split_ifs at hset with hid
    · exact hid ▸ (h.unused uuid hfresh).2
    · exact h.settles_active id ref hset
  unused id hid := h.unused id fun r hr => hid r (List.mem_append_left _ hr)

/-- Settling a listed reservation counts once for its id, and not for the others. -/
theorem Counted.closed (h : Counted commits settles bm) (hv : bm.Valid) (hl : bm.Listed)
    {id : String} {ref : Ref} (hactive : bm.activeReservations.get? id = some ref)
    (state : ReservationState) (charge : ℚ × ℚ)
    (hother : ∀ j, j ≠ id → commits' j = commits j ∧ settles' j = settles j)
    (hcommits : commits' id = commits id + if state = .committed then 1 else 0)
    (hsettles : settles' id ≤ settles id + 1) :
    Counted commits' settles' (bm.closed id ref state charge) := by
  obtain ⟨hpending, hid⟩ := hv.active id ref hactive
  obtain ⟨hlt, hstate⟩ := mem_pending.mp hpending
  have hobj := getElem?_eq_deref hlt
  constructor
  · intro ref' r hr
    by_cases href : ref = ref'
    · subst href
      have hr' : (bm.setState ref state).reservations[ref]? = some r := hr
      rw [getElem?_setState, hobj] at hr'
      simp only [Option.map_some, if_true, Option.some.injEq] at hr'
      have hzero : commits id = 0 := by
        have hcount := h.commits_eq ref _ hobj
        rw [hid, hstate] at hcount
        exact hcount
      subst hr'
      change commits' (bm.deref ref).id = _
      rw [hid, hcommits, hzero, zero_add]
    · have hr' : bm.reservations[ref']? = some r := by
        rw [← getElem?_setState_of_ne state href]
        exact hr
      have hne : r.id ≠ id := fun hr'' => href (hl.ref_unique hobj hr' (hid.trans hr''.symm))
      rw [(hother _ hne).1]
      exact h.commits_eq ref' r hr'
  · intro j
    by_cases hj : j = id
    · subst hj
      rw [h.settles_active j ref hactive] at hsettles
      exact hsettles
    · exact (hother j hj).2 ▸ h.settles_le j
  · intro j ref' hget
    have hpop : (bm.activeReservations.pop id).get? j = some ref' := hget
    rw [Dict.get?_pop] at hpop
    split_ifs at hpop with hj
    rw [(hother j hj).2]
    exact h.settles_active j ref' hpop
  · intro j hj
    have hids : ∀ r ∈ bm.reservations, r.id ≠ j := by
      intro r hr hrj
      have hmem : r.id ∈ (bm.setState ref state).reservations.map Reservation.id :=
        (ids_setState bm ref state).symm ▸ List.mem_map_of_mem hr
      obtain ⟨r', hr', heq⟩ := List.mem_map.mp hmem
      exact hj r' hr' (heq.trans hrj)
    have hne : j ≠ id := fun h' =>
      hids _ (List.mem_of_getElem? hobj) (hid.trans h'.symm)
    rw [(hother j hne).1, (hother j hne).2]
    exact h.unused j hids

/-- **The counts along a run** with fresh ids. -/
theorem counted_of_run (run : Run BudgetStep (new config) tr bm)
    (hfresh : ∀ t ∈ tr, t.2.FreshIn t.1) :
    Counted (fun id => countEvents (BudgetEvent.commits id) tr)
      (fun id => countEvents (BudgetEvent.settles id) tr) bm := by
  induction run with
  | start =>
    refine ⟨fun ref r hr => ?_, fun _ => Nat.zero_le 1, fun _ _ _ => rfl, fun _ _ => ⟨rfl, rfl⟩⟩
    simp [new] at hr
  | @step tr bm ev bm' run h ih =>
    rw [List.forall_mem_cons] at hfresh
    have hv := valid_of_run run
    have hl := listed_of_run run hfresh.2
    have hc := ih hfresh.2
    have hout := h.outcome hv
    simp only [countEvents_cons]
    cases hout with
    | malformed | refused | commitInactive | rollbackInactive => exact hc
    | granted => exact hc.granted _ _ _ hfresh.1
    | costOverrun hactive | latencyBreach hactive | rolledBack hactive | committed hactive =>
      refine hc.closed hv hl hactive _ _ (fun j hj => ?_) ?_ ?_
      · simp [BudgetEvent.commits, BudgetEvent.settles, hj.symm]
      · simp [BudgetEvent.commits]
      · simp [BudgetEvent.settles]
    | reaped clock =>
      refine (closeAll_induction (P := fun bm => bm.Listed ∧ Counted
        (fun id => countEvents (BudgetEvent.commits id) tr)
        (fun id => countEvents (BudgetEvent.settles id) tr) bm) ?_
        (bm.nodup_stale clock) hv (fun e he => stale_active he) ⟨hl, hc⟩).2.2
      rintro bm id ref hv hactive ⟨hl, hc⟩
      exact ⟨hl.closed 0 hactive (by simp), hc.closed hv hl hactive _ _
        (fun _ _ => ⟨rfl, rfl⟩) (by simp) (Nat.le_succ _)⟩

end Counted

/-! ### Exactly-once settlement -/

variable {config : BudgetConfig} {tr : List (BudgetManager × BudgetEvent)} {bm : BudgetManager}

/-- The reservations of a manager, reached by the trace `tr`, are settled exactly once. -/
structure SettledOnce (tr : List (BudgetManager × BudgetEvent)) (bm : BudgetManager) : Prop where
  /-- The object and the dictionary agree on what is pending. -/
  pending_iff : ∀ (ref : Ref) r, bm.reservations[ref]? = some r →
    (r.state = .pending ↔ bm.activeReservations.get? r.id = some ref)
  /-- The dictionary lists objects, under their ids. -/
  listed : ∀ id ref, bm.activeReservations.get? id = some ref →
    ∃ r, bm.reservations[ref]? = some r ∧ r.id = id
  /-- A settled object never changes again, whatever follows. -/
  settled : ∀ (ref : Ref) r, bm.reservations[ref]? = some r → r.state ≠ .pending →
    ∀ tr' bm', Run BudgetStep bm tr' bm' → bm'.reservations[ref]? = some r
  /-- A reservation is committed exactly when one commit on it has returned normally. -/
  committed_iff : ∀ (ref : Ref) r, bm.reservations[ref]? = some r →
    (r.state = .committed ↔ countEvents (BudgetEvent.commits r.id) tr = 1)
  /-- At most one commit or rollback returns normally or releases the amounts. -/
  settles_le_one : ∀ id, countEvents (BudgetEvent.settles id) tr ≤ 1
  /-- An attempt on an id that is not active raises and changes nothing. -/
  inactive : ∀ id, bm.activeReservations.get? id = none → ∀ actualCost actualLatencyMs,
    ((bm.commit id actualCost actualLatencyMs).reply = .error (.invalidReservationState id) ∧
        (bm.commit id actualCost actualLatencyMs).manager = bm) ∧
      (bm.rollback id).reply = .error (.invalidReservationState id) ∧
        (bm.rollback id).manager = bm
  /-- A settlement touches no other reservation. -/
  frame : ∀ (ref : Ref) r, bm.reservations[ref]? = some r →
    (∀ id, r.id ≠ id → ∀ actualCost actualLatencyMs,
      bm.SameReservation (bm.commit id actualCost actualLatencyMs).manager ref r.id ∧
        bm.SameReservation (bm.rollback id).manager ref r.id) ∧
    ∀ clock, r.id ∉ (bm.expireStaleReservations clock).2 →
      bm.SameReservation (bm.expireStaleReservations clock).1 ref r.id

/-- **Exactly-once settlement** in every state reached with fresh ids by any interleaving of
reservations, commits, rollbacks and scans of the reaper. -/
theorem settled_exactly_once (run : Run BudgetStep (new config) tr bm)
    (hfresh : ∀ t ∈ tr, t.2.FreshIn t.1) : SettledOnce tr bm := by
  have hv := valid_of_run run
  have hl := listed_of_run run hfresh
  have hc := counted_of_run run hfresh
  constructor
  · exact fun ref r hr => hl.pending_iff hv hr
  · intro id ref hactive
    obtain ⟨hpending, hid⟩ := hv.active id ref hactive
    exact ⟨_, getElem?_eq_deref (mem_pending.mp hpending).1, hid⟩
  · exact fun ref r hr hsettled tr' bm' run' => hv.settled_of_run run' hr hsettled
  · intro ref r hr
    have hcount := hc.commits_eq ref r hr
    by_cases hstate : r.state = .committed
    · rw [if_pos hstate] at hcount
      exact iff_of_true hstate hcount
    · rw [if_neg hstate] at hcount
      exact iff_of_false hstate (hcount ▸ zero_ne_one)
  · exact hc.settles_le
  · exact fun id hactive c l => ⟨commit_of_inactive hactive c l, rollback_of_inactive hactive⟩
  · exact fun ref r hr => ⟨fun id hid c l => hv.sameReservation_settle id c l hr hid,
      fun clock hid => hv.sameReservation_reap clock hr hid⟩

theorem settled_exactly_once_of_three_steps : ∃ tr bm,
    Run BudgetStep (new sampleConfig) tr bm ∧
      countEvents (BudgetEvent.settles "a") tr = 1 ∧ SettledOnce tr bm := by
  let run := Run.start |>.step (BudgetStep.reserve (new sampleConfig)
    "req-a" (1 / 100) 150 "a" 0) |>.step (BudgetStep.commit _ "a" (1 / 100) 90)
    |>.step (BudgetStep.rollback _ "a")
  refine ⟨_, _, run, by decide +kernel, settled_exactly_once run ?_⟩
  simp only [List.forall_mem_cons, List.not_mem_nil, false_implies, implies_true, and_true]
  exact ⟨trivial, trivial, by decide +kernel⟩

end InferenceRouter
