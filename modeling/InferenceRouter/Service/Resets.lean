import InferenceRouter.Service.Accounts
import InferenceRouter.Service.Process

/-!
# Local executions across resets

Every queue monitor limits the local executions of the handlers that have captured it. The process
as a whole has no limit of its own: after a reset the handlers of the old monitor and those of the
new one each fill their own. Together they stay within the capacity as long as no reset replaces a
monitor while one of its slots is taken, and no slot of a replaced monitor is taken afterwards.

## Main definitions

* `InferenceRouter.generation`, `InferenceRouter.own`: what the history of a handler says.
* `InferenceRouter.SlotsStayCurrent`: the condition on the steps.
* `InferenceRouter.localCalls`: the number of handlers in a call of the local backend.

## Main results

* `InferenceRouter.agree_of_run`: the monitors agree with the handlers, generation by generation.
* `InferenceRouter.local_calls_le`: the local calls of a run, with the run
  `InferenceRouter.local_calls_after_reset` in which they exceed the capacity.
-/

namespace InferenceRouter

open Foundation

/-! ### The history of a handler -/

/-- The generation that a handler has captured. -/
def generation : History processSignature → Option ℕ
  | [] => none
  | ⟨.capture, g⟩ :: _ => some g
  | ⟨.on _ _, _⟩ :: h => generation h

/-- The history of a handler on its managers. -/
def own : History processSignature → History signature
  | [] => []
  | ⟨.capture, _⟩ :: h => own h
  | ⟨.on _ e, r⟩ :: h => ⟨e, r⟩ :: own h

/-- What the effects of a handler rely on. It captures its managers first, and then acts on these
only, as `Allowed` says. -/
def ProcessAllowed (h : History processSignature) : ProcessEffect → Prop
  | .capture => h = []
  | .on g e => generation h = some g ∧ Allowed (own h) e

theorem inferenceAcrossResets_meets (config : Config) (classify : String → ComplexityTier)
    (request : InferenceRequest) :
    (inferenceAcrossResets config classify request).Meets ProcessAllowed (fun _ _ => True) [] := by
  refine Program.Meets.call_bind rfl fun g => ?_
  refine Program.Meets.translate own (fun h => generation h = some g) (fun _ _ _ => rfl) ?_ ?_
    (inference_meets config classify request) rfl
  · exact fun _ _ _ hg => hg
  · exact fun _ _ hg hallowed => ⟨hg, hallowed⟩

/-! ### The slots of all generations -/

/-- What a handler has done, as far as the managers of the generation `g` are concerned. -/
def tallyIn (g : ℕ) (h : History processSignature) : Tally :=
  if generation h = some g then tally (own h) else {}

theorem current_reset (config : Config) (s : ProcessState) (runId : String) :
    (s.reset config runId).current = s.generations.length := by
  rw [ProcessState.current, ProcessState.reset, List.length_append]
  rfl

section Agreement

variable (config : Config)

/-- The process and the histories of its handlers agree: every monitor has the configured capacity
and agrees with the handlers that have captured it, and every handler has captured one of the
generations before it does anything. -/
structure Agree (s : ProcessState) (hs : List (History processSignature)) : Prop where
  nonempty : s.generations ≠ []
  capacity : ∀ m ∈ s.generations, m.queueMonitor.maxConcurrency = config.localQueueCapacity
  slots : ∀ g m, s.generations[g]? = some m → SlotsAgree m.queueMonitor (hs.map (tallyIn g))
  generation_lt : ∀ h ∈ hs, ∀ g, generation h = some g → g < s.generations.length

variable {config} {s s' : ProcessState} {hs pre post : List (History processSignature)}
  {h : History processSignature}

theorem agree_init : Agree config (.init config) [] where
  nonempty := by simp [ProcessState.init]
  capacity m hm := by
    obtain rfl := List.mem_singleton.mp hm
    rfl
  slots g m hm := by
    obtain rfl := List.mem_singleton.mp (List.mem_of_getElem? hm)
    exact ⟨by simp, rfl⟩
  generation_lt := by simp

/-- A handler that starts. -/
theorem Agree.spawn (ha : Agree config s hs) : Agree config s (hs ++ [[]]) where
  nonempty := ha.nonempty
  capacity := ha.capacity
  slots g m hm := by
    rw [List.map_append]
    exact (ha.slots g m hm).start
  generation_lt := List.forall_mem_append.mpr
    ⟨ha.generation_lt, List.forall_mem_singleton.mpr fun _ hg => by cases hg⟩

/-- A reset: the new monitor holds no slot, and no handler has captured it yet. -/
theorem Agree.reset (ha : Agree config s hs) (runId : String) :
    Agree config (s.reset config runId) hs where
  nonempty := by simp [ProcessState.reset]
  capacity := List.forall_mem_append.mpr ⟨ha.capacity, List.forall_mem_singleton.mpr rfl⟩
  slots g m hm := by
    rcases Nat.lt_or_ge g s.generations.length with hg | hg
    · have hold : s.generations[g]? = some m :=
        (List.getElem?_append_left hg).symm.trans hm
      exact ha.slots g m hold
    · have hnone : ∀ h ∈ hs, tallyIn g h = {} := by
        intro h hh
        refine if_neg fun hgen => ?_
        exact absurd (ha.generation_lt h hh g hgen) (Nat.not_lt.mpr hg)
      have hnew : m.queueMonitor.activeCount = 0 := by
        have hm' := (List.getElem?_append_right hg).symm.trans hm
        obtain rfl := List.mem_singleton.mp (List.mem_of_getElem? hm')
        rfl
      rw [List.map_congr_left hnone]
      refine ⟨fun t ht => ?_, ?_⟩
      · obtain ⟨h, -, rfl⟩ := List.mem_map.mp ht
        exact Nat.zero_le 1
      · rw [hnew]
        simp
  generation_lt h hh g hg := by
    have hlt := ha.generation_lt h hh g hg
    rw [ProcessState.reset, List.length_append]
    omega

/-- The managers of a generation after a change of the generation `g`. -/
theorem getElem?_update {m m' : Managers} {g g' : ℕ} {app : AppState}
    (hm : s.generations[g]? = some m) (hm' : (s.update g app).generations[g']? = some m') :
    (g' = g ∧ m' = ⟨app.budgetManager, app.queueMonitor, app.latencyTracker⟩) ∨
      (g' ≠ g ∧ s.generations[g']? = some m') := by
  obtain ⟨hlt, -⟩ := List.getElem?_eq_some_iff.mp hm
  rcases eq_or_ne g' g with rfl | hne
  · rw [ProcessState.update, List.getElem?_set_self hlt] at hm'
    exact Or.inl ⟨rfl, (Option.some.inj hm').symm⟩
  · rw [ProcessState.update, List.getElem?_set_ne hne.symm] at hm'
    exact Or.inr ⟨hne, hm'⟩

theorem length_update (s : ProcessState) (g : ℕ) (app : AppState) :
    (s.update g app).generations.length = s.generations.length :=
  List.length_set

/-- A change of the generation `g` that keeps the capacity of its monitor. -/
theorem Agree.capacity_update (ha : Agree config s hs) {m : Managers} {g : ℕ} {app : AppState}
    (hm : s.generations[g]? = some m)
    (hcapacity : app.queueMonitor.maxConcurrency = m.queueMonitor.maxConcurrency) :
    ∀ m' ∈ (s.update g app).generations,
      m'.queueMonitor.maxConcurrency = config.localQueueCapacity := by
  intro m' hm'
  obtain ⟨g', hm'⟩ := List.mem_iff_getElem?.mp hm'
  rcases getElem?_update hm hm' with ⟨-, rfl⟩ | ⟨-, hold⟩
  · exact hcapacity.trans (ha.capacity m (List.mem_of_getElem? hm))
  · exact ha.capacity m' (List.mem_of_getElem? hold)

/-- A change of the generation `g` that does not concern its monitor. -/
theorem Agree.update_of_monitor (ha : Agree config s hs) {m : Managers} {g : ℕ} {app : AppState}
    (hm : s.generations[g]? = some m) (hmonitor : app.queueMonitor = m.queueMonitor) :
    Agree config (s.update g app) hs where
  nonempty := by
    rw [← List.length_pos_iff, length_update]
    exact List.length_pos_iff.mpr ha.nonempty
  capacity := ha.capacity_update hm (congrArg _ hmonitor)
  slots g' m' hm' := by
    rcases getElem?_update hm hm' with ⟨rfl, rfl⟩ | ⟨-, hold⟩
    · exact hmonitor ▸ ha.slots g' m hm
    · exact ha.slots g' m' hold
  generation_lt h hh g' hg' := by
    rw [length_update]
    exact ha.generation_lt h hh g' hg'

/-- A handler captures the current managers. -/
theorem Agree.capture (ha : Agree config s (pre ++ [] :: post)) :
    Agree config s (pre ++ [⟨.capture, s.current⟩] :: post) where
  nonempty := ha.nonempty
  capacity := ha.capacity
  slots g m hm := by
    have hnothing : tallyIn g [⟨.capture, s.current⟩] = tallyIn g [] := by
      rw [tallyIn, tallyIn]
      split_ifs <;> rfl
    have hslots := ha.slots g m hm
    rwa [List.map_append, List.map_cons, ← hnothing, ← List.map_cons, ← List.map_append] at hslots
  generation_lt h hh g hg := by
    have hlt : s.current < s.generations.length :=
      Nat.sub_lt (List.length_pos_iff.mpr ha.nonempty) Nat.one_pos
    refine forall_mem_replace ha.generation_lt (fun _ g' hg' => ?_) h hh g hg
    obtain rfl := Option.some.inj hg'
    exact hlt

/-- An effect keeps the capacity of the monitor. -/
theorem exec_maxConcurrency {s s' : AppState} {e : Effect} {o : Oracle} {r : e.Reply}
    (h : s.exec e o = some (r, s')) :
    s'.queueMonitor.maxConcurrency = s.queueMonitor.maxConcurrency := by
  rcases exec_queueMonitor h with ⟨-, heq⟩ | ⟨-, heq⟩ | heq
  · rw [heq, QueueMonitor.maxConcurrency_acquire]
  · rw [heq, QueueMonitor.maxConcurrency_release]
  · rw [heq]

/-- **A handler acts on its managers.** -/
theorem Agree.effect (ha : Agree config s (pre ++ h :: post)) {m : Managers} {g : ℕ}
    {app : AppState} {e : Effect} {o : Oracle} {r : e.Reply} (hgen : generation h = some g)
    (hallowed : Allowed (own h) e) (hm : s.generations[g]? = some m)
    (hexec : (s.view m).exec e o = some (r, app)) :
    Agree config (s.update g app) (pre ++ (⟨.on g e, r⟩ :: h) :: post) where
  nonempty := by
    rw [← List.length_pos_iff, length_update]
    exact List.length_pos_iff.mpr ha.nonempty
  capacity := ha.capacity_update hm (exec_maxConcurrency hexec)
  slots g' m' hm' := by
    rcases getElem?_update hm hm' with ⟨rfl, rfl⟩ | ⟨hne, hold⟩
    · have hslots := ha.slots g' m hm
      have hbefore : tallyIn g' h = tally (own h) := if_pos hgen
      have hafter : tallyIn g' (⟨.on g' e, r⟩ :: h) = (tally (own h)).after e r := if_pos hgen
      rw [List.map_append, List.map_cons, hbefore] at hslots
      rw [List.map_append, List.map_cons, hafter]
      exact hslots.moved (exec_slots hallowed hexec)
    · have hsome : some g ≠ some g' := fun heq => hne (Option.some.inj heq).symm
      have hbefore : tallyIn g' h = {} := if_neg (hgen ▸ hsome)
      have hafter : tallyIn g' (⟨.on g e, r⟩ :: h) = {} := if_neg (hgen ▸ hsome)
      have hslots := ha.slots g' m' hold
      rw [List.map_append, List.map_cons, hbefore] at hslots
      rw [List.map_append, List.map_cons, hafter]
      exact hslots
  generation_lt := by
    rw [length_update]
    exact forall_mem_replace ha.generation_lt fun hlt => hlt

end Agreement

/-! ### Runs -/

section Runs

variable {config : Config} {classify : String → ComplexityTier}

/-- The histories of the handlers. -/
def histories (ts : List (Thread (process config classify))) : List (History processSignature) :=
  ts.map Thread.history

/-- The agreement after an effect of a handler. -/
theorem Agree.resume {s s' : ProcessState} {pre post : List (Thread (process config classify))}
    {t : Thread (process config classify)} {e : ProcessEffect} {o : Oracle} {r : e.Reply}
    {q : Program processSignature InferenceResponse}
    (ha : Agree config s (histories (pre ++ t :: post))) (hallowed : ProcessAllowed t.history e)
    (hexec : s.exec e o = some (r, s')) :
    Agree config s' (histories (pre ++ t.answered e r q :: post)) := by
  rw [histories, List.map_append, List.map_cons] at ha ⊢
  cases e with
  | capture =>
    cases hexec
    change Agree config s (_ ++ (⟨.capture, s.current⟩ :: t.history) :: _)
    rw [show t.history = [] from hallowed] at ha ⊢
    exact ha.capture
  | on g e =>
    obtain ⟨m, hm, hmap⟩ := Option.bind_eq_some_iff.mp hexec
    obtain ⟨⟨r', app⟩, heffect, heq⟩ := Option.map_eq_some_iff.mp hmap
    cases heq
    exact ha.effect hallowed.1 hallowed.2 hm heffect

/-- The agreement after an action of the environment. -/
theorem Agree.act {s s' : ProcessState} {hs : List (History processSignature)} {a : ProcessAction}
    (ha : Agree config s hs) (hact : s.act config a = some s') : Agree config s' hs := by
  cases a with
  | service action =>
    obtain ⟨m, hm, hmap⟩ := Option.bind_eq_some_iff.mp hact
    obtain ⟨app, hservice, rfl⟩ := Option.map_eq_some_iff.mp hmap
    exact ha.update_of_monitor hm (act_queueMonitor hservice)
  | reset runId =>
    cases hact
    exact ha.reset runId

variable {p : Pool (process config classify)}
  {tr : List (Pool (process config classify) × Choice (process config classify))}

/-- **The monitors agree with the handlers**, generation by generation, in every reachable
state. -/
theorem agree_of_run (run : Run Pool.Step (initialProcess config classify) tr p) :
    Agree config p.state (histories p.threads) := by
  refine Pool.invariant (inferenceAcrossResets_meets config classify)
    (P := fun s ts => Agree config s (histories ts)) (C := fun _ _ => True) rfl agree_init
    (fun s ts arg ha => ?_) (fun s s' pre t post e k r o _ hallowed _ hexec ha => ?_)
    (fun s ts a s' _ hact ha => ha.act hact) run fun _ _ => trivial
  · rw [histories, List.map_append]
    exact ha.spawn
  · exact ha.resume hallowed hexec

/-! ### Local calls -/

/-- The generation of a call of the local backend. -/
def ProcessEffect.localCall : ProcessEffect → Option ℕ
  | .on g (.simulateLocalInference ..) => some g
  | .on _ _ | .capture => none

/-- The generation in whose local call a handler is. -/
def localCallOf (t : Thread (process config classify)) : Option ℕ :=
  t.next.bind ProcessEffect.localCall

/-- The number of handlers in a call of the local backend. -/
def localCalls (ts : List (Thread (process config classify))) : ℕ :=
  ts.countP fun t => (localCallOf t).isSome

/-- The number of handlers of the generation `g` in a call of the local backend. -/
def localCallsOn (g : ℕ) (ts : List (Thread (process config classify))) : ℕ :=
  ts.countP fun t => decide (localCallOf t = some g)

/-- A handler in a local call of a generation has captured that generation, and holds a slot. -/
theorem slots_of_localCall (run : Run Pool.Step (initialProcess config classify) tr p)
    {t : Thread (process config classify)} (ht : t ∈ p.threads) {g : ℕ}
    (hcall : localCallOf t = some g) :
    generation t.history = some g ∧ (tally (own t.history)).slots = 1 := by
  obtain ⟨e, hnext, hlocal⟩ := Option.bind_eq_some_iff.mp hcall
  have hallowed := Pool.allowed_of_run (inferenceAcrossResets_meets config classify) rfl run ht
    hnext
  cases e with
  | capture => cases hlocal
  | on g' e =>
    cases e with
    | simulateLocalInference =>
      obtain rfl := Option.some.inj hlocal
      exact ⟨hallowed.1, hallowed.2.1⟩
    | tryReserve | commit | rollback | readReservation | budgetSnapshot | activeCount
    | isAtCapacity | maxConcurrency | acquire | release | getEstimate | record | countRoute
    | publish | simulateRemoteInference => cases hlocal

theorem countP_le_sum {α : Type} {f : α → ℕ} {P : α → Bool} {l : List α}
    (h : ∀ a ∈ l, P a = true → f a = 1) : l.countP P ≤ (l.map f).sum := by
  induction l with
  | nil => exact Nat.le_refl 0
  | cons a l ih =>
    obtain ⟨ha, hl⟩ := List.forall_mem_cons.mp h
    have hle := ih hl
    rw [List.countP_cons, List.map_cons, List.sum_cons]
    split_ifs with hP
    · have h1 := ha hP
      omega
    · omega

/-- The local calls of a generation hold a slot of its monitor each. -/
theorem localCallsOn_le_activeCount (run : Run Pool.Step (initialProcess config classify) tr p)
    {g : ℕ} {m : Managers} (hm : p.state.generations[g]? = some m) :
    localCallsOn g p.threads ≤ m.queueMonitor.activeCount := by
  rw [((agree_of_run run).slots g m hm).activeCount_eq, histories, List.map_map, List.map_map]
  refine countP_le_sum fun t ht hcall => ?_
  obtain ⟨hgen, hslots⟩ := slots_of_localCall run ht (of_decide_eq_true hcall)
  have htally : tallyIn g t.history = tally (own t.history) := if_pos hgen
  change (tallyIn g t.history).slots = 1
  rw [htally]
  exact hslots

/-- The generation of a local call exists. -/
theorem generation_lt_of_localCall (run : Run Pool.Step (initialProcess config classify) tr p)
    {t : Thread (process config classify)} (ht : t ∈ p.threads) {g : ℕ}
    (hcall : localCallOf t = some g) : g < p.state.generations.length :=
  (agree_of_run run).generation_lt _ (List.mem_map_of_mem ht) g (slots_of_localCall run ht hcall).1

/-- **The local calls of a generation** are within the capacity. -/
theorem localCallsOn_le (run : Run Pool.Step (initialProcess config classify) tr p) (g : ℕ) :
    localCallsOn g p.threads ≤ config.localQueueCapacity := by
  rcases Nat.lt_or_ge g p.state.generations.length with hlt | hge
  · have hm := List.getElem?_eq_getElem hlt
    have hcapacity := (agree_of_run run).capacity _ (List.mem_of_getElem? hm)
    exact (localCallsOn_le_activeCount run hm).trans
      ((QueueMonitor.activeCount_le _).trans hcapacity.le)
  · have hnone : localCallsOn g p.threads = 0 := by
      refine List.countP_eq_zero.mpr fun t ht hcall => ?_
      have hlt := generation_lt_of_localCall run ht (of_decide_eq_true hcall)
      exact absurd hlt (Nat.not_lt.mpr hge)
    rw [hnone]
    exact Nat.zero_le _

/-! ### Slots of replaced monitors -/

/-- The generation whose monitor an effect takes a slot of. -/
def ProcessEffect.acquiredFrom : ProcessEffect → Option ℕ
  | .on g .acquire => some g
  | .on _ _ | .capture => none

/-- A reset does not replace a monitor while one of its slots is taken, and a handler does not take
a slot of a monitor that has been replaced. -/
def SlotsStayCurrent (p : Pool (process config classify)) :
    Choice (process config classify) → Prop
  | .act (.reset _) =>
    ∀ m ∈ p.state.generations[p.state.current]?, m.queueMonitor.activeCount = 0
  | .resume i _ =>
    ∀ g ∈ ((p.threads[i]?).bind Thread.next).bind ProcessEffect.acquiredFrom, g = p.state.current
  | .act (.service _) | .spawn _ => True

instance (p : Pool (process config classify)) : DecidablePred (SlotsStayCurrent p)
  | .act (.reset _) =>
    inferInstanceAs (Decidable (∀ m ∈ p.state.generations[p.state.current]?, _ = _))
  | .resume i _ =>
    inferInstanceAs (Decidable
      (∀ g ∈ ((p.threads[i]?).bind Thread.next).bind ProcessEffect.acquiredFrom, _ = _))
  | .act (.service _) | .spawn _ => inferInstanceAs (Decidable True)

/-- No slot of a monitor that has been replaced is taken. -/
def ProcessState.OldMonitorsFree (s : ProcessState) : Prop :=
  ∀ g m, s.generations[g]? = some m → g ≠ s.current → m.queueMonitor.activeCount = 0

/-- An effect of a handler that does not take a slot of a replaced monitor. -/
theorem ProcessState.OldMonitorsFree.update {s : ProcessState} (hs : s.OldMonitorsFree) {g : ℕ}
    {m : Managers} {app : AppState} (hm : s.generations[g]? = some m)
    (hkept : g ≠ s.current → app.queueMonitor.activeCount ≤ m.queueMonitor.activeCount) :
    (s.update g app).OldMonitorsFree := by
  have hcurrent : (s.update g app).current = s.current := congrArg (· - 1) (length_update s g app)
  intro g' m' hm' hne
  rw [hcurrent] at hne
  rcases getElem?_update hm hm' with ⟨rfl, rfl⟩ | ⟨-, hold⟩
  · have hle := hkept hne
    rw [hs g' m hm hne] at hle
    exact Nat.le_zero.mp hle
  · exact hs g' m' hold hne

/-- Only an acquisition takes a slot. -/
theorem exec_activeCount {s s' : AppState} {e : Effect} {o : Oracle} {r : e.Reply}
    (h : s.exec e o = some (r, s')) (he : e ≠ .acquire) :
    s'.queueMonitor.activeCount ≤ s.queueMonitor.activeCount := by
  rcases exec_queueMonitor h with ⟨rfl, -⟩ | ⟨-, heq⟩ | heq
  · exact absurd rfl he
  · rw [heq, QueueMonitor.activeCount_release]
    exact Nat.sub_le _ _
  · exact heq ▸ Nat.le_refl _

/-- **A step keeps the replaced monitors free.** -/
theorem ProcessState.OldMonitorsFree.step {p' : Pool (process config classify)}
    {c : Choice (process config classify)} (hfree : p.state.OldMonitorsFree)
    (hcurrent : SlotsStayCurrent p c) (h : p.Step c p') : p'.state.OldMonitorsFree := by
  cases h.outcome with
  | spawned arg => exact hfree
  | @resumed pre t post e k o r s' hthreads hprogram hexec =>
    cases e with
    | capture =>
      cases hexec
      exact hfree
    | on g e =>
      obtain ⟨m, hm, hmap⟩ := Option.bind_eq_some_iff.mp hexec
      obtain ⟨⟨r', app⟩, heffect, heq⟩ := Option.map_eq_some_iff.mp hmap
      cases heq
      refine hfree.update hm fun hne => exec_activeCount heffect ?_
      rintro rfl
      have hnext : ((p.threads[pre.length]?).bind Thread.next).bind ProcessEffect.acquiredFrom =
          some g := by
        rw [hthreads, Pool.getElem?_middle, Option.bind_some, Thread.next_of_perform hprogram]
        rfl
      exact hne (hcurrent g hnext)
  | @acted a s' hact =>
    cases a with
    | service action =>
      obtain ⟨m, hm, hmap⟩ := Option.bind_eq_some_iff.mp hact
      obtain ⟨app, -, rfl⟩ := Option.map_eq_some_iff.mp hmap
      exact hfree.update hm fun hne => absurd rfl hne
    | reset =>
      cases hact
      intro g m hm hne
      rw [current_reset] at hne
      have hlt := (List.getElem?_eq_some_iff.mp hm).1
      rw [ProcessState.reset, List.length_append, List.length_singleton] at hlt
      rw [ProcessState.reset, List.getElem?_append_left (by omega)] at hm
      by_cases hold : g = p.state.current
      · exact hcurrent m (hold ▸ hm)
      · exact hfree g m hm hold

theorem oldMonitorsFree_of_run (run : Run Pool.Step (initialProcess config classify) tr p)
    (hcurrent : ∀ t ∈ tr, SlotsStayCurrent t.1 t.2) : p.state.OldMonitorsFree := by
  refine run.invariant (P := fun q => q.state.OldMonitorsFree)
    (C := fun q c => SlotsStayCurrent q c) (fun g m hm hne => ?_)
    (fun _ _ _ hfree hstep h => hfree.step hstep h) hcurrent
  have hlt := (List.getElem?_eq_some_iff.mp hm).1
  exact absurd (Nat.lt_one_iff.mp hlt) hne

/-- Every local call is one of the current generation then. -/
theorem localCalls_eq (run : Run Pool.Step (initialProcess config classify) tr p)
    (hcurrent : ∀ t ∈ tr, SlotsStayCurrent t.1 t.2) :
    localCalls p.threads = localCallsOn p.state.current p.threads := by
  refine List.countP_congr fun t ht => ?_
  rw [decide_eq_true_iff]
  refine ⟨fun hcall => ?_, fun hcall => Option.isSome_of_eq_some hcall⟩
  obtain ⟨g, hg⟩ := Option.isSome_iff_exists.mp hcall
  by_contra hne
  have hold : g ≠ p.state.current := fun heq => hne (heq ▸ hg)
  have hm := List.getElem?_eq_getElem (generation_lt_of_localCall run ht hg)
  have hle := localCallsOn_le_activeCount run hm
  rw [oldMonitorsFree_of_run run hcurrent g _ hm hold] at hle
  exact absurd (decide_eq_true hg) (List.countP_eq_zero.mp (Nat.le_zero.mp hle) t ht)

/-! ### The local calls of the process -/

/-- **Local concurrency across resets.** In every run with any number of resets, the local calls of
the handlers of one generation are within the capacity; and those of all handlers together are, if
no reset replaces a monitor while one of its slots is taken, and no handler takes a slot of a
monitor that has been replaced. -/
theorem local_calls_le (run : Run Pool.Step (initialProcess config classify) tr p) :
    (∀ g, localCallsOn g p.threads ≤ config.localQueueCapacity) ∧
      ((∀ t ∈ tr, SlotsStayCurrent t.1 t.2) →
        localCalls p.threads ≤ config.localQueueCapacity) := by
  refine ⟨localCallsOn_le run, fun hcurrent => ?_⟩
  rw [localCalls_eq run hcurrent]
  exact localCallsOn_le run _

end Runs

/-- A configuration with one slot. -/
def singleSlotConfig : Config :=
  { Config.default with
    localQueueCapacity := 1
    localQueueCapacity_pos := Nat.one_pos }

/-- A request that is executed locally. -/
def localRequest : InferenceRequest :=
  { sampleRequest with complexityTier := some .fast }

/-- The handler of a request that is executed locally comes to its call, in the generation that is
current then. -/
def comesToCall (i : ℕ) {config : Config} {classify : String → ComplexityTier} (o : Oracle) :
    List (Choice (process config classify)) :=
  .spawn localRequest :: List.replicate 12 (.resume i o)

/-- A handler ends before a reset, and another one comes to its local call after it. -/
theorem local_calls_le_single : ∃ tr p,
    Run Pool.Step (initialProcess singleSlotConfig fun _ => .fast) tr p ∧
      p.state.generations.length = 2 ∧ localCalls p.threads = 1 ∧
      localCalls p.threads ≤ singleSlotConfig.localQueueCapacity := by
  obtain ⟨tr, p, run, hlength, hcalls, hcurrent⟩ : ∃ tr p,
      Run Pool.Step (initialProcess singleSlotConfig fun _ => .fast) tr p ∧
        p.state.generations.length = 2 ∧ localCalls p.threads = 1 ∧
        ∀ t ∈ tr, SlotsStayCurrent t.1 t.2 :=
    Pool.exists_run_trace _ (comesToCall 0 {} ++ List.replicate 4 (.resume 0 {}) ++
      .act (.reset "") :: comesToCall 1 {}) (by decide +kernel)
  exact ⟨tr, p, run, hlength, hcalls, (local_calls_le run).2 hcurrent⟩

/-- **A local call on either side of a reset**: with one slot configured, the handler of the old
monitor is still in its local call when a handler of the new one comes to its own. -/
theorem local_calls_after_reset : ∃ tr p,
    Run Pool.Step (initialProcess singleSlotConfig fun _ => .fast) tr p ∧
      singleSlotConfig.localQueueCapacity < localCalls p.threads :=
  Pool.exists_run _ (comesToCall 0 {} ++ .act (.reset "") :: comesToCall 1 {}) (by decide +kernel)

end InferenceRouter
