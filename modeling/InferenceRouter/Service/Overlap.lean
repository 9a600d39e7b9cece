import InferenceRouter.Service.Generations

/-!
# Money promised to a running remote call

A scan of the reaper gives the money of an expired reservation back without asking whether its
holder is dead or only slow. If the holder is still waiting for its remote call, then the same
money can be reserved again, and two calls spend it. A reset does the same at once: the new budget
manager knows nothing of the calls that are still running on money of the old one.

As long as no scan finds a reservation expired whose handler has not been answered by a backend,
the money of every running remote call is still reserved with the manager that has granted it, so
that the cap of this manager covers what has been spent and what its calls may still spend. If
besides money is only promised by the current manager, then the cap covers all running calls.

## Main definitions

* `InferenceRouter.BudgetManager.Spares`: the condition on the scans of the reaper.
* `InferenceRouter.MoneyStaysCurrent`: the condition on the resets.
* `InferenceRouter.runningCost`: the money of the running remote calls of the process.

## Main results

* `InferenceRouter.running_le_cap`: a service without resets.
* `InferenceRouter.running_within_cap`: when the cap covers the running calls, with the runs
  `InferenceRouter.running_beyond_cap` in which it does not.
-/

namespace InferenceRouter

open Foundation

variable {config : Config} {classify : String → ComplexityTier}

/-! ### Running calls -/

/-- The effect is a call of the remote backend. -/
def Effect.isRemoteCall : Effect → Bool
  | .simulateRemoteInference .. => true
  | .tryReserve .. | .commit .. | .rollback .. | .readReservation .. | .budgetSnapshot
  | .activeCount | .isAtCapacity | .maxConcurrency | .acquire | .release | .getEstimate ..
  | .record .. | .countRoute .. | .publish .. | .simulateLocalInference .. => false

/-- The handler waits for the answer of the remote backend. -/
def RunsRemote (t : Thread (service config classify)) : Bool := t.next.any Effect.isRemoteCall

/-- The sum of the amounts of money of the reservations that have been granted to a handler. -/
def Tally.reservedCost (bm : BudgetManager) (t : Tally) : ℚ :=
  (t.granted.map fun g => (bm.deref g.ref).reservedCost).sum

/-- The reservation holds money, and its handler has neither been answered by a backend nor settled
anything. -/
def Unanswered (t : Tally) (g : Grant) : Prop :=
  t.answers = [] ∧ t.resolved = [] ∧ g.cost ≠ 0

instance (t : Tally) (g : Grant) : Decidable (Unanswered t g) :=
  inferInstanceAs (Decidable (_ ∧ _ ∧ _))

/-- A scan of the reaper finds no reservation expired that holds money and whose handler has not
been answered by a backend yet. -/
def BudgetManager.Spares (bm : BudgetManager) (clock : ℕ → ℚ) (ts : List Tally) : Prop :=
  ∀ t ∈ ts, ∀ g ∈ t.granted, Unanswered t g → ∀ e ∈ bm.stale clock, g.ref ≠ e.2

instance (bm : BudgetManager) (clock : ℕ → ℚ) (ts : List Tally) : Decidable (bm.Spares clock ts) :=
  inferInstanceAs (Decidable (∀ t ∈ ts, ∀ g ∈ t.granted, _))

/-- A scan of the reaper of the service spares those that are not answered yet. -/
def SparesUnanswered (p : Pool (service config classify)) :
    Choice (service config classify) → Prop
  | .act (.reap readings) =>
    p.state.budgetManager.Spares (p.state.scanClock readings) (tallies p.threads)
  | .act .connect | .act (.consume _) | .act (.disconnect _) | .act (.mark _) | .spawn _
  | .resume _ _ => True

/-! ### What is still reserved -/

/-- The money promised to a handler that no backend has answered yet is still reserved. -/
def Covered (bm : BudgetManager) (ts : List Tally) : Prop :=
  ∀ t ∈ ts, ∀ g ∈ t.granted, Unanswered t g → g.ref ∈ bm.escrow.pending

section Preservation

variable {bm bm' : BudgetManager} {t t' : Tally} {pre post : List Tally}

/-- What the references of one handler have to do with those of another. -/
theorem Accounts.ref_ne (ha : Accounts bm (pre ++ t :: post)) {u : Tally}
    (hu : u ∈ pre ++ post) {g g' : Grant} (hg : g ∈ t.granted) (hg' : g' ∈ u.granted) :
    g'.ref ≠ g.ref := by
  have hnodup := ((grants_perm pre post t).map Grant.ref).nodup_iff.mp ha.nodup
  rw [List.map_append, List.nodup_append] at hnodup
  exact (hnodup.2.2 _ (List.mem_map_of_mem hg) _
    (List.mem_map_of_mem (mem_grants.mpr ⟨u, hu, hg'⟩))).symm

/-- **What an effect leaves reserved**: everything, but for a reservation of the handler that
settles it. -/
theorem Covered.moved (hc : Covered bm (pre ++ t :: post)) (ha : Accounts bm (pre ++ t :: post))
    (hmoved : Moved bm t bm' t') (hextends : t.Extends t') : Covered bm' (pre ++ t' :: post) := by
  have hmem : t ∈ pre ++ t :: post := List.mem_append_right _ List.mem_cons_self
  have hother : ∀ u ∈ pre ++ t' :: post, u = t' ∨ u ∈ pre ++ post := by
    simp only [List.mem_append, List.mem_cons]
    tauto
  have hold : ∀ u ∈ pre ++ post, ∀ g ∈ u.granted, Unanswered u g →
      g.ref ∈ bm.escrow.pending := by
    intro u hu
    refine hc u ?_
    simp only [List.mem_append, List.mem_cons] at hu ⊢
    tauto
  have hself : ∀ g ∈ t.granted, Unanswered t' g → g.ref ∈ bm.escrow.pending := by
    rintro g hg ⟨hanswers, hresolved, hcost⟩
    refine hc t hmem g hg ⟨?_, ?_, hcost⟩
    · exact List.eq_nil_of_suffix_nil (hanswers ▸ hextends.answers)
    · exact List.eq_nil_of_suffix_nil (hresolved ▸ hextends.resolved)
  intro u hu g hg hunanswered
  cases hmoved with
  | kept hescrow _ hgranted =>
    rw [hescrow]
    rcases hother u hu with rfl | hu
    · exact hself g (hgranted ▸ hg) hunanswered
    · exact hold u hu g hg hunanswered
  | granted g' _ hescrow _ hgranted =>
    rw [hescrow, Escrow.pending_grant, Finset.mem_insert]
    rcases hother u hu with rfl | hu
    · rcases List.mem_cons.mp (hgranted ▸ hg) with rfl | hmem'
      · exact Or.inl rfl
      · exact Or.inr (hself g hmem' hunanswered)
    · exact Or.inr (hold u hu g hg hunanswered)
  | settled g' charge hg' hescrow _ _ _ hresolved =>
    rw [hescrow, Escrow.pending_settle, Finset.mem_erase]
    rcases hother u hu with rfl | hu
    · exact absurd hunanswered.2.1 (hresolved ▸ List.cons_ne_nil _ _)
    · exact ⟨ha.ref_ne hu hg' hg, hold u hu g hg hunanswered⟩

end Preservation

variable {p : Pool (service config classify)}
  {tr : List (Pool (service config classify) × Choice (service config classify))}

/-- **The money promised to a running call is still reserved**, as long as the reaper spares it. -/
theorem covered_of_run (run : Run Pool.Step (initial config classify) tr p)
    (hspares : ∀ t ∈ tr, SparesUnanswered t.1 t.2) :
    Covered p.state.budgetManager (tallies p.threads) := by
  refine Pool.invariant (fun request => inference_meets config classify request)
    (P := fun (s : AppState) ts => Covered s.budgetManager (tallies ts))
    (C := fun p c => (p.state.budgetManager.Valid ∧ p.state.budgetManager.Listed ∧
      Accounts p.state.budgetManager (tallies p.threads)) ∧ SparesUnanswered p c) rfl
    (fun t ht => absurd ht List.not_mem_nil) (fun s ts arg hc => ?_) ?_ ?_ run fun t ht => ?_
  · rw [tallies_append]
    intro t ht g hg
    rcases List.mem_append.mp ht with ht | ht
    · exact hc t ht g hg
    · obtain rfl := List.mem_singleton.mp ht
      exact absurd hg List.not_mem_nil
  · rintro s s' pre t post e k r o ⟨⟨hv, hl, ha⟩, -⟩ hallowed - hexec hc
    rw [tallies_append, tallies_cons] at hc ha ⊢
    exact hc.moved ha (exec_moved hv hl
      (fun g hg => ha.lt_length (List.mem_append_right _ List.mem_cons_self) hg) hallowed hexec)
      (Tally.extends_after _ _ _)
  · rintro s ts a s' ⟨⟨hv, -, -⟩, hspared⟩ hact hc
    rcases act_budgetManager hact with ⟨readings, rfl, hreap⟩ | ⟨-, hkept⟩
    · rw [hreap]
      exact fun t ht g hg h => hv.mem_pending_reap (hc t ht g hg h) (hspared t ht g hg h)
    · rwa [hkept]
  · obtain ⟨tr', run'⟩ := run.of_mem ht
    exact ⟨⟨valid_of_service run', listed_of_service run', accounts_of_run run'⟩, hspares t ht⟩

/-! ### The running calls are covered -/

/-- The amounts of money under references that are pending if they hold any are covered by what
is reserved. -/
theorem sum_reservedCost_le {bm : BudgetManager} (hv : bm.Valid) {gs : List Grant}
    (hnodup : (gs.map Grant.ref).Nodup)
    (hpending : ∀ g ∈ gs, (bm.deref g.ref).reservedCost ≠ 0 → g.ref ∈ bm.escrow.pending) :
    (gs.map fun g => (bm.deref g.ref).reservedCost).sum ≤ bm.reservedForExecution := by
  let cost : Ref → ℚ := fun ref => (bm.deref ref).reservedCost
  have hsum : (gs.map fun g => (bm.deref g.ref).reservedCost).sum =
      ∑ ref ∈ (gs.map Grant.ref).toFinset with cost ref ≠ 0, cost ref := by
    rw [Finset.sum_filter_ne_zero, List.sum_toFinset _ hnodup, List.map_map]
    rfl
  have hsubset : ((gs.map Grant.ref).toFinset.filter fun ref => cost ref ≠ 0) ⊆
      (bm.account .money).pending := by
    intro ref href
    obtain ⟨hmem, hcost⟩ := Finset.mem_filter.mp href
    obtain ⟨g, hg, rfl⟩ := List.mem_map.mp (List.mem_toFinset.mp hmem)
    exact hpending g hg hcost
  have hheld : (bm.account .money).held = bm.reservedForExecution := by
    have hexposure := hv.exposure_money
    exact add_left_cancel hexposure
  rw [hsum, ← hheld]
  exact Escrow.sum_amount_le_held
    (fun ref _ => Resource.amount_nonneg .money (hv.amount_nonneg ref)) hsubset

/-- A sum over the grants of some handlers, handler by handler. -/
theorem sum_grants (f : Grant → ℚ) (ts : List Tally) :
    ((grants ts).map f).sum = (ts.map fun t => (t.granted.map f).sum).sum := by
  induction ts with
  | nil => rfl
  | cons t ts ih =>
    rw [grants, List.flatMap_cons, List.map_append, List.sum_append, List.map_cons, List.sum_cons,
      ← ih]
    rfl

/-- A handler whose remote call is running has been granted one reservation, and has done nothing
else with a resource. -/
theorem exists_grant_of_runsRemote (run : Run Pool.Step (initial config classify) tr p)
    {t : Thread (service config classify)} (ht : t ∈ p.threads) (hruns : RunsRemote t = true) :
    ∃ g, summary t = { granted := [g] } := by
  rw [RunsRemote] at hruns
  cases hnext : t.next with
  | none =>
    rw [hnext] at hruns
    cases hruns
  | some e =>
    rw [hnext] at hruns
    cases e with
    | simulateRemoteInference => exact allowed_of_run run ht hnext
    | tryReserve | commit | rollback | readReservation | budgetSnapshot | activeCount
    | isAtCapacity | maxConcurrency | acquire | release | getEstimate | record | countRoute
    | publish | simulateLocalInference => cases hruns

/-- **The cap covers the running calls of a service without resets**, if every commit charges at
most its reservation and the scans of the reaper spare those that are not answered yet. -/
theorem running_le_cap (run : Run Pool.Step (initial config classify) tr p)
    (hwithin : ∀ t ∈ budgetTrace tr, ChargesWithin .money t.1 t.2)
    (hspares : ∀ t ∈ tr, SparesUnanswered t.1 t.2) :
    p.state.budgetManager.cumulativeRemoteCost + ((p.threads.filter RunsRemote).map fun t =>
        (summary t).reservedCost p.state.budgetManager).sum ≤
      config.maxRemoteBudget + 1 / 10 ^ 12 := by
  have ha := accounts_of_run run
  have hv := valid_of_service run
  have hc := covered_of_run run hspares
  have hsublist : (grants (tallies (p.threads.filter RunsRemote))).Sublist
      (grants (tallies p.threads)) := (List.filter_sublist.map _).flatMap _
  have hle : ((p.threads.filter RunsRemote).map fun t =>
      (summary t).reservedCost p.state.budgetManager).sum ≤
        p.state.budgetManager.reservedForExecution := by
    have hsum := sum_grants (fun g => (p.state.budgetManager.deref g.ref).reservedCost)
      (tallies (p.threads.filter RunsRemote))
    rw [tallies, List.map_map] at hsum
    refine (le_of_eq hsum.symm).trans
      (sum_reservedCost_le hv (ha.nodup.sublist (hsublist.map _)) fun g hg hcost => ?_)
    obtain ⟨u, hu, hgu⟩ := mem_grants.mp hg
    obtain ⟨t, ht, rfl⟩ := List.mem_map.mp hu
    obtain ⟨ht, hruns⟩ := List.mem_filter.mp ht
    obtain ⟨g', hg'⟩ := exists_grant_of_runsRemote run ht hruns
    refine hc (summary t) (List.mem_map_of_mem ht) g hgu ⟨?_, ?_, ?_⟩
    · rw [hg']
    · rw [hg']
    · have hamount : (p.state.budgetManager.deref g.ref).reservedCost = g.cost :=
        congrArg Prod.fst (ha.issued g (hsublist.subset hg)).2
      exact hamount ▸ hcost
  have hexposure := exposure_le_excess .money (managerRun run)
    (Or.inl config.budget.maxRemoteBudget_pos.le)
  rw [hv.exposure_money, excessSinceGrant_eq_zero hwithin, add_zero] at hexposure
  exact (add_le_add_right hle _).trans hexposure

/-! ### The calls of the process -/

section Process

variable {p : Pool (process config classify)}
  {tr : List (Pool (process config classify) × Choice (process config classify))}

/-- The generation of a call of the remote backend. -/
def ProcessEffect.remoteCall : ProcessEffect → Option ℕ
  | .on g e => if e.isRemoteCall then some g else none
  | .capture => none

/-- The generation in whose remote call a handler is. -/
def remoteCallOf (t : Thread (process config classify)) : Option ℕ :=
  t.next.bind ProcessEffect.remoteCall

/-- The amount of money that the managers of a handler have reserved for it. -/
def ProcessState.reservedCost (s : ProcessState) (t : Thread (process config classify)) : ℚ :=
  ((generation t.history).bind fun g => s.generations[g]?).elim 0 fun m =>
    (tally (own t.history)).reservedCost m.budgetManager

/-- The money reserved for the requests whose remote call is still running, in all generations. -/
def runningCost (p : Pool (process config classify)) : ℚ :=
  ((p.threads.filter fun t => (remoteCallOf t).isSome).map p.state.reservedCost).sum

/-- The money reserved for the requests of the generation `g` whose remote call is still running. -/
def runningCostOn (g : ℕ) (p : Pool (process config classify)) : ℚ :=
  ((p.threads.filter fun t => remoteCallOf t = some g).map p.state.reservedCost).sum

/-- The event of a budget manager in a step of a handler, with the manager. -/
def budgetEventOn (p : Pool (process config classify)) :
    Choice (process config classify) → Option (BudgetManager × BudgetEvent)
  | .resume i o => ((p.threads[i]?).bind Thread.next).bind fun
    | .capture => none
    | .on g e => (p.state.generations[g]?).bind fun m =>
      (e.budgetEvent m.budgetManager o).map fun ev => (m.budgetManager, ev)
  | .spawn _ | .act _ => none

/-- A commit in the step charges at most what it has reserved. -/
def CommitsWithin (p : Pool (process config classify)) (c : Choice (process config classify)) :
    Prop :=
  ∀ x ∈ budgetEventOn p c, ChargesWithin .money x.1 x.2

instance (p : Pool (process config classify)) (c : Choice (process config classify)) :
    Decidable (CommitsWithin p c) :=
  inferInstanceAs (Decidable (∀ x ∈ budgetEventOn p c, _))

/-- A scan of the reaper of the current manager finds no reservation expired that holds money and
whose handler has not been answered by a backend yet. -/
def ScansSpare (p : Pool (process config classify)) : Choice (process config classify) → Prop
  | .act (.service (.reap readings)) =>
    ∀ m ∈ p.state.generations[p.state.current]?, m.budgetManager.Spares
      ((p.state.view m).scanClock readings) ((histories p.threads).map (tallyIn p.state.current))
  | .act (.service .connect) | .act (.service (.consume _)) | .act (.service (.disconnect _))
  | .act (.service (.mark _)) | .act (.reset _) | .spawn _ | .resume _ _ => True

instance (p : Pool (process config classify)) : DecidablePred (ScansSpare p)
  | .act (.service (.reap _)) =>
    inferInstanceAs (Decidable (∀ m ∈ p.state.generations[p.state.current]?, _))
  | .act (.service .connect) | .act (.service (.consume _)) | .act (.service (.disconnect _))
  | .act (.service (.mark _)) | .act (.reset _) | .spawn _ | .resume _ _ =>
    inferInstanceAs (Decidable True)

/-- The conditions on the steps of a process are conditions on those of the services behind its
generations. -/
theorem Echoes.carry {g : ℕ} {q : Pool (service config classify)}
    {c : Choice (process config classify)} {c' : Choice (service config classify)}
    (hq : Shadows g p q) (hecho : Echoes g p q c c') (hwithin : CommitsWithin p c)
    (hspares : ScansSpare p c) :
    (∀ ev ∈ budgetEvent q c', ChargesWithin .money q.state.budgetManager ev) ∧
      SparesUnanswered q c' := by
  cases hecho with
  | spawn => exact ⟨by simp [budgetEvent], trivial⟩
  | @resume i o e m hm hp hq' =>
    refine ⟨fun ev hev => ?_, trivial⟩
    have hmanager : q.state.budgetManager = m.budgetManager :=
      congrArg Managers.budgetManager (hq.behind hm).managers
    rw [budgetEvent, hq', Option.bind_some] at hev
    rw [hmanager] at hev ⊢
    refine hwithin (m.budgetManager, ev) ?_
    rw [budgetEventOn, hp, Option.bind_some]
    dsimp only
    rw [hm, Option.bind_some]
    exact Option.map_eq_some_iff.mpr ⟨ev, hev, rfl⟩
  | @reap readings readings' m hm hcurrent hscan =>
    refine ⟨fun ev hev => ?_, ?_⟩
    · obtain rfl := Option.some.inj hev
      trivial
    · have hmanager : q.state.budgetManager = m.budgetManager :=
        congrArg Managers.budgetManager (hq.behind hm).managers
      have hthis := hspares m (hcurrent ▸ hm)
      rw [SparesUnanswered, hmanager, hscan, hq.tallies_eq]
      rwa [hcurrent] at hthis

/-- A handler in a remote call of a generation has captured that generation; it has been granted one
reservation, and has done nothing else with a resource. -/
theorem exists_grant_of_remoteCall (run : Run Pool.Step (initialProcess config classify) tr p)
    {t : Thread (process config classify)} (ht : t ∈ p.threads) {g : ℕ}
    (hcall : remoteCallOf t = some g) :
    generation t.history = some g ∧ ∃ grant, tally (own t.history) = { granted := [grant] } := by
  obtain ⟨e, hnext, hremote⟩ := Option.bind_eq_some_iff.mp hcall
  have hallowed := Pool.allowed_of_run (inferenceAcrossResets_meets config classify) rfl run ht
    hnext
  cases e with
  | capture => cases hremote
  | on g' e =>
    obtain ⟨hcalls, heq⟩ := Option.ite_none_right_eq_some.mp hremote
    obtain rfl := Option.some.inj heq
    refine ⟨hallowed.1, ?_⟩
    cases e with
    | simulateRemoteInference => exact hallowed.2
    | tryReserve | commit | rollback | readReservation | budgetSnapshot | activeCount
    | isAtCapacity | maxConcurrency | acquire | release | getEstimate | record | countRoute
    | publish | simulateLocalInference => cases hcalls

/-- What the managers of a handler have reserved for it. -/
theorem reservedCost_eq {s : ProcessState} {t : Thread (process config classify)} {g : ℕ}
    {m : Managers} (hgen : generation t.history = some g) (hm : s.generations[g]? = some m) :
    s.reservedCost t = (tally (own t.history)).reservedCost m.budgetManager := by
  rw [ProcessState.reservedCost, hgen, Option.bind_some, hm]
  rfl

/-- The thread of a handler in the service behind its generation waits for the remote backend if
the handler does. -/
theorem Follows.runsRemote {g : ℕ} {u : Thread (service config classify)}
    {t : Thread (process config classify)} (h : Follows g u t)
    (hgen : remoteCallOf t = some g → generation t.history = some g) :
    RunsRemote u = decide (remoteCallOf t = some g) := by
  cases h with
  | @acting arg h q hacting =>
    cases q with
    | ret a => rfl
    | raise x => rfl
    | perform e k =>
      change e.isRemoteCall = decide ((if e.isRemoteCall then some g else none) = some g)
      cases e.isRemoteCall <;> simp
  | idle hne => exact (decide_eq_false fun hcall => hne (hgen hcall)).symm

/-- A sum over some of the items, as one over all of them. -/
theorem sum_map_filter {α : Type} (P : α → Bool) (f : α → ℚ) (l : List α) :
    ((l.filter P).map f).sum = (l.map fun a => if P a then f a else 0).sum := by
  induction l with
  | nil => rfl
  | cons a l ih =>
    rw [List.map_cons, List.sum_cons, ← ih]
    cases hP : P a with
    | true => rw [List.filter_cons_of_pos hP, List.map_cons, List.sum_cons, if_pos rfl]
    | false => simp [hP]

/-- The running calls of the service behind a generation are those of the generation. -/
theorem Shadows.runningCost_eq {g : ℕ} {q : Pool (service config classify)}
    (hq : Shadows g p q) (run : Run Pool.Step (initialProcess config classify) tr p)
    {m : Managers} (hm : p.state.generations[g]? = some m) :
    ((q.threads.filter RunsRemote).map fun u => (summary u).reservedCost m.budgetManager).sum =
      runningCostOn g p := by
  have hthreads : List.Forall₂ (fun t u => t ∈ p.threads ∧ Follows g u t) p.threads q.threads :=
    (List.forall₂_and_left _ _).mpr ⟨fun _ ht => ht, hq.threads.flip⟩
  rw [runningCostOn, sum_map_filter, sum_map_filter]
  refine congrArg List.sum (List.forall₂_eq_eq_eq ▸ List.forall₂_map_left_iff.mpr
    (List.forall₂_map_right_iff.mpr (hthreads.flip.imp ?_)))
  rintro u t ⟨ht, hfollows⟩
  have hcaptured := fun hcall => (exists_grant_of_remoteCall run ht (g := g) hcall).1
  rw [hfollows.runsRemote hcaptured]
  split_ifs with hcall
  · have hgen := hcaptured (of_decide_eq_true hcall)
    rw [reservedCost_eq hgen hm, summary, (hfollows.outcome hgen).1]
  · rfl

/-- **The cap covers the running calls of a generation**, whatever resets there are, if every commit
charges at most its reservation and the scans of the reaper spare those that are not answered
yet. -/
theorem runningOn_le_cap (run : Run Pool.Step (initialProcess config classify) tr p)
    (hwithin : ∀ t ∈ tr, CommitsWithin t.1 t.2) (hspares : ∀ t ∈ tr, ScansSpare t.1 t.2) {g : ℕ}
    {m : Managers} (hm : p.state.generations[g]? = some m) :
    m.budgetManager.cumulativeRemoteCost + runningCostOn g p ≤
      config.maxRemoteBudget + 1 / 10 ^ 12 := by
  obtain ⟨tr', q, run', hq, hconds⟩ := exists_shadows_within (g := g)
    (C := fun p c => CommitsWithin p c ∧ ScansSpare p c)
    (D := fun q c => (∀ ev ∈ budgetEvent q c, ChargesWithin .money q.state.budgetManager ev) ∧
      SparesUnanswered q c)
    (fun _ _ _ _ hq hecho h => hecho.carry hq h.1 h.2) run fun t ht => ⟨hwithin t ht, hspares t ht⟩
  have hmanager : q.state.budgetManager = m.budgetManager :=
    congrArg Managers.budgetManager (hq.behind hm).managers
  have hle := running_le_cap run' (fun t ht => ?_) fun t ht => (hconds t ht).2
  · rwa [hmanager, hq.runningCost_eq run hm] at hle
  · obtain ⟨t', ht', hmap⟩ := List.mem_filterMap.mp ht
    obtain ⟨ev, hev, rfl⟩ := Option.map_eq_some_iff.mp hmap
    exact (hconds t' ht').1 ev hev

/-! ### Resets -/

/-- The generation with whose budget manager an effect reserves money. -/
def ProcessEffect.reservedFrom : ProcessEffect → Option ℕ
  | .on g (.tryReserve _ cost _) => if cost = 0 then none else some g
  | .on _ _ | .capture => none

/-- A reset does not replace a budget manager while it has money reserved for a handler that has
not been answered by a backend yet, and a handler does not reserve money with a budget manager that
has been replaced. -/
def MoneyStaysCurrent (p : Pool (process config classify)) :
    Choice (process config classify) → Prop
  | .act (.reset _) => ∀ h ∈ histories p.threads, ∀ g ∈ (tally (own h)).granted,
      ¬ Unanswered (tally (own h)) g
  | .resume i _ =>
    ∀ g ∈ ((p.threads[i]?).bind Thread.next).bind ProcessEffect.reservedFrom, g = p.state.current
  | .act (.service _) | .spawn _ => True

instance (p : Pool (process config classify)) : DecidablePred (MoneyStaysCurrent p)
  | .act (.reset _) => inferInstanceAs (Decidable (∀ h ∈ histories p.threads, _))
  | .resume i _ =>
    inferInstanceAs (Decidable
      (∀ g ∈ ((p.threads[i]?).bind Thread.next).bind ProcessEffect.reservedFrom, _ = _))
  | .act (.service _) | .spawn _ => inferInstanceAs (Decidable True)

/-- The money of the handlers that have not been answered yet is money of the current manager. -/
def PromisedByCurrent (s : ProcessState) (ts : List (Thread (process config classify))) : Prop :=
  ∀ t ∈ ts, ∀ g ∈ (tally (own t.history)).granted, Unanswered (tally (own t.history)) g →
    generation t.history = some s.current

/-- A reservation of a handler that is not answered yet after an effect was not before it, or is a
new one. -/
theorem unanswered_after {t : Tally} {e : Effect} {r : e.Reply} {g : Grant}
    (hg : g ∈ (t.after e r).granted) (hunanswered : Unanswered (t.after e r) g) :
    (g ∈ t.granted ∧ Unanswered t g) ∨
      ∃ requestId latencyMs, e = .tryReserve requestId g.cost latencyMs := by
  have hextends := t.extends_after e r
  obtain ⟨hanswers, hresolved, hcost⟩ := hunanswered
  have hbefore : Unanswered t g :=
    ⟨List.eq_nil_of_suffix_nil (hanswers ▸ hextends.answers),
      List.eq_nil_of_suffix_nil (hresolved ▸ hextends.resolved), hcost⟩
  cases e with
  | tryReserve requestId cost latencyMs =>
    rcases r with error | _ | ref
    · exact .inl ⟨hg, hbefore⟩
    · exact .inl ⟨hg, hbefore⟩
    · rcases List.mem_cons.mp hg with rfl | hg
      · exact .inr ⟨requestId, latencyMs, rfl⟩
      · exact .inl ⟨hg, hbefore⟩
  | commit => rcases r with error | _ <;> exact .inl ⟨hg, hbefore⟩
  | readReservation =>
    dsimp only [Tally.after] at hg
    split_ifs at hg <;> exact .inl ⟨hg, hbefore⟩
  | acquire => cases r <;> exact .inl ⟨hg, hbefore⟩
  | rollback | release | simulateLocalInference | simulateRemoteInference | budgetSnapshot
  | activeCount | isAtCapacity | maxConcurrency | getEstimate | record | countRoute
  | publish => exact .inl ⟨hg, hbefore⟩

/-- **The money of the handlers that are not answered yet is money of the current manager**, as long
as it stays so at the resets. -/
theorem promisedByCurrent_of_run (run : Run Pool.Step (initialProcess config classify) tr p)
    (hcurrent : ∀ t ∈ tr, MoneyStaysCurrent t.1 t.2) : PromisedByCurrent p.state p.threads := by
  refine Pool.invariant (inferenceAcrossResets_meets config classify) (P := PromisedByCurrent)
    (C := MoneyStaysCurrent) rfl (fun _ ht => absurd ht List.not_mem_nil) (fun s ts arg h => ?_)
    (fun s s' pre t post e k r o hstays hallowed hprogram hexec h => ?_)
    (fun s ts a s' hstays hact h => ?_) run hcurrent
  · exact List.forall_mem_append.mpr
      ⟨h, List.forall_mem_singleton.mpr fun _ hg => absurd hg List.not_mem_nil⟩
  · cases e with
    | capture =>
      cases hexec
      refine forall_mem_replace h fun _ g hg => ?_
      have hnil : own t.history = [] := congrArg own hallowed
      exact absurd (hnil ▸ hg) List.not_mem_nil
    | on g e =>
      obtain ⟨m, hm, hmap⟩ := Option.bind_eq_some_iff.mp hexec
      obtain ⟨⟨r', app⟩, -, heq⟩ := Option.map_eq_some_iff.mp hmap
      cases heq
      have hcurrent : (s.update g app).current = s.current :=
        congrArg (· - 1) (length_update s g app)
      rw [PromisedByCurrent, hcurrent]
      refine forall_mem_replace h fun hself grant hgrant hunanswered => ?_
      rcases unanswered_after hgrant hunanswered with ⟨hold, hbefore⟩ | ⟨requestId, latencyMs, rfl⟩
      · exact hself grant hold hbefore
      · have hreserved : (((pre ++ t :: post)[pre.length]?).bind Thread.next).bind
            ProcessEffect.reservedFrom = some g := by
          rw [Pool.getElem?_middle, Option.bind_some, Thread.next_of_perform hprogram]
          exact if_neg hunanswered.2.2
        exact hstays g hreserved ▸ hallowed.1
  · cases a with
    | service action =>
      obtain ⟨m, -, hmap⟩ := Option.bind_eq_some_iff.mp hact
      obtain ⟨app, -, rfl⟩ := Option.map_eq_some_iff.mp hmap
      have hcurrent : (s.update s.current app).current = s.current :=
        congrArg (· - 1) (length_update s s.current app)
      rw [PromisedByCurrent, hcurrent]
      exact h
    | reset =>
      exact fun t ht g hg hunanswered =>
        absurd hunanswered (hstays t.history (List.mem_map_of_mem ht) g hg)

/-- What the managers of a handler in a remote call have reserved for it is what it has asked
for. -/
theorem reservedCost_of_grant (run : Run Pool.Step (initialProcess config classify) tr p)
    {t : Thread (process config classify)} (ht : t ∈ p.threads) {g : ℕ}
    (hgen : generation t.history = some g) {grant : Grant}
    (htally : tally (own t.history) = { granted := [grant] }) :
    p.state.reservedCost t = grant.cost := by
  have hm := List.getElem?_eq_getElem
    ((agree_of_run run).generation_lt _ (List.mem_map_of_mem ht) g hgen)
  obtain ⟨tr', q, run', hq, hmanagers⟩ := exists_service run hm
  obtain ⟨u, hu, hfollows⟩ :=
    exists_of_mem (List.Forall₂.flip (R := flip (Follows g)) hq.threads) ht
  have hsummary : summary u = { granted := [grant] } := by
    rw [summary, (hfollows.outcome hgen).1, htally]
  have hissued := (accounts_of_run run').issued grant
    (mem_grants.mpr ⟨summary u, List.mem_map_of_mem hu, hsummary ▸ List.mem_singleton_self grant⟩)
  have hmanager := congrArg Managers.budgetManager hmanagers
  rw [reservedCost_eq hgen hm, htally, ← hmanager]
  exact (add_zero _).trans (congrArg Prod.fst hissued.2)

/-- All running calls are calls of the current generation then, but for those that cost nothing. -/
theorem runningCost_eq_current (run : Run Pool.Step (initialProcess config classify) tr p)
    (hcurrent : ∀ t ∈ tr, MoneyStaysCurrent t.1 t.2) :
    runningCost p = runningCostOn p.state.current p := by
  rw [runningCost, runningCostOn, sum_map_filter, sum_map_filter]
  refine congrArg List.sum (List.map_congr_left fun t ht => ?_)
  cases hcall : remoteCallOf t with
  | none => rfl
  | some g =>
    obtain ⟨hgen, grant, htally⟩ := exists_grant_of_remoteCall run ht hcall
    rw [reservedCost_of_grant run ht hgen htally, Option.isSome_some, if_pos rfl]
    split_ifs with hthis
    · rfl
    · by_contra hcost
      have hpromised := promisedByCurrent_of_run run hcurrent t ht grant
        (htally ▸ List.mem_singleton_self grant) ⟨by rw [htally], by rw [htally], hcost⟩
      rw [hgen] at hpromised
      exact hthis (decide_eq_true hpromised)

/-! ### The cap and the running calls -/

/-- **When the cap covers the running calls.** If every commit charges at most its reservation, and
no scan of the reaper finds a reservation expired that holds money and whose handler has not been
answered by a backend yet, then what a budget manager has spent and has reserved for the running
remote calls of its handlers is within the cap, up to the slack of the admission test, whatever
resets there are. If besides no reset replaces a manager that has promised money to a handler that
has not been answered yet, and no handler reserves money with a manager that has been replaced, then
so is what the current manager has spent together with what is reserved for all running calls of the
process. -/
theorem running_within_cap (run : Run Pool.Step (initialProcess config classify) tr p)
    (hwithin : ∀ t ∈ tr, CommitsWithin t.1 t.2) (hspares : ∀ t ∈ tr, ScansSpare t.1 t.2) :
    (∀ g m, p.state.generations[g]? = some m →
        m.budgetManager.cumulativeRemoteCost + runningCostOn g p ≤
          config.maxRemoteBudget + 1 / 10 ^ 12) ∧
      ((∀ t ∈ tr, MoneyStaysCurrent t.1 t.2) →
        ∃ m, p.state.generations[p.state.current]? = some m ∧
          m.budgetManager.cumulativeRemoteCost + runningCost p ≤
            config.maxRemoteBudget + 1 / 10 ^ 12) := by
  refine ⟨fun g m hm => runningOn_le_cap run hwithin hspares hm, fun hcurrent => ?_⟩
  have hlt : p.state.current < p.state.generations.length :=
    Nat.sub_lt (List.length_pos_iff.mpr (agree_of_run run).nonempty) Nat.one_pos
  have hm := List.getElem?_eq_getElem hlt
  refine ⟨_, hm, ?_⟩
  rw [runningCost_eq_current run hcurrent]
  exact runningOn_le_cap run hwithin hspares hm

end Process

/-- The configuration of the runs below: the production defaults, with a budget of 0.20. -/
def tightConfig : Config :=
  { Config.default with
    maxRemoteBudget := 1 / 5
    maxRemoteBudget_pos := by decide +kernel }

/-- The handler `i` of a request comes to its remote call, or to its refusal. -/
def comesToRemoteCall (i : ℕ) (o : Oracle) :
    List (Choice (process tightConfig fun _ => .quality)) :=
  .spawn sampleRequest :: List.replicate 10 (.resume i o)

/-- The figures of the current budget manager and of the running calls. -/
def exposure (p : Pool (process tightConfig fun _ => .quality)) : Option ℚ :=
  p.state.generations[p.state.current]?.map fun m =>
    m.budgetManager.cumulativeRemoteCost + runningCost p

/-- A run in which the reaper scans while a remote call is running, and a second request is then
refused the remote backend. -/
theorem running_within_cap_of_two : ∃ tr p m,
    Run Pool.Step (initialProcess tightConfig fun _ => .quality) tr p ∧
      p.state.generations.length = 2 ∧ runningCost p = 15 / 100 ∧
      p.state.generations[p.state.current]? = some m ∧
      m.budgetManager.cumulativeRemoteCost + runningCost p ≤ 1 / 5 + 1 / 10 ^ 12 := by
  obtain ⟨tr, p, run, hwithin, hspares, hcurrent, hlength, hcost⟩ := Pool.exists_run_trace
    (P := fun tr (p : Pool (process tightConfig fun _ => .quality)) =>
      (∀ t ∈ tr, CommitsWithin t.1 t.2) ∧ (∀ t ∈ tr, ScansSpare t.1 t.2) ∧
      (∀ t ∈ tr, MoneyStaysCurrent t.1 t.2) ∧ p.state.generations.length = 2 ∧
      runningCost p = 15 / 100)
    (initialProcess tightConfig fun _ => .quality)
    (.act (.reset "") :: comesToRemoteCall 0 { uuid := "a" } ++ .act (.service (.reap [30])) ::
      comesToRemoteCall 1 { uuid := "b", now := 30 }) (by decide +kernel)
  obtain ⟨m, hm, hle⟩ := (running_within_cap run hwithin hspares).2 hcurrent
  exact ⟨tr, p, m, run, hlength, hcost, hm, hle⟩

/-- **Money that is granted twice**: a remote call has been running for 50 seconds, the reaper
expires its reservation, and a second request reserves the same money for its own remote call. -/
theorem running_beyond_cap : ∃ tr p,
    Run Pool.Step (initialProcess tightConfig fun _ => .quality) tr p ∧
      (∀ t ∈ tr, CommitsWithin t.1 t.2) ∧ p.state.generations.length = 1 ∧ p.state.clock = 50 ∧
      (exposure p).any (tightConfig.maxRemoteBudget + 1 / 10 ^ 12 < ·) = true :=
  Pool.exists_run_trace _
    (comesToRemoteCall 0 { uuid := "a" } ++ .act (.service (.reap [50])) ::
      comesToRemoteCall 1 { uuid := "b", now := 50 }) (by decide +kernel)

/-- The same without any scan, by a reset while the first call is running. -/
theorem running_beyond_cap_after_reset : ∃ tr p,
    Run Pool.Step (initialProcess tightConfig fun _ => .quality) tr p ∧
      (∀ t ∈ tr, CommitsWithin t.1 t.2) ∧ (∀ t ∈ tr, ScansSpare t.1 t.2) ∧
      (exposure p).any (tightConfig.maxRemoteBudget + 1 / 10 ^ 12 < ·) = true :=
  Pool.exists_run_trace _
    (comesToRemoteCall 0 { uuid := "a" } ++ .act (.reset "") :: comesToRemoteCall 1 { uuid := "b" })
    (by decide +kernel)

end InferenceRouter
