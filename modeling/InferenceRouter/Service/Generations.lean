import InferenceRouter.Budget.Cap
import InferenceRouter.Service.Resets
import InferenceRouter.Service.Spend
import Mathlib.Algebra.BigOperators.Fin
import Mathlib.Data.List.GetD

/-!
# The generations of a process

A reset leaves the handlers that are at work with their old managers. Seen from the managers of one
generation, the process is the service without resets: the handlers that have captured these
managers act on them, the others have not started. What holds in every run of the service therefore
holds of each generation in every run of the process, whenever and however often it is reset.

## Main definitions

* `InferenceRouter.AppState.managers`: the managers in the state of the service.
* `InferenceRouter.Follows`, `InferenceRouter.Shadows`: the service without resets behind a
  generation.
* `InferenceRouter.Managers.ledger`, `InferenceRouter.GenerationDone`.

## Main results

* `InferenceRouter.generation_refines`: every generation of a process is a service.
* `InferenceRouter.books_of_generations`: what the generations have recorded, and what they hold.
-/

namespace InferenceRouter

open Foundation

/-! ### The managers of a state -/

/-- The managers in the state of the service. -/
def AppState.managers (s : AppState) : Managers :=
  ⟨s.budgetManager, s.queueMonitor, s.latencyTracker⟩

/-- The state `s` has the managers of `s₀`, and its clock is not ahead. -/
structure AppState.Behind (s s₀ : AppState) : Prop where
  managers : s.managers = s₀.managers
  clock : s.clock ≤ s₀.clock

variable {s s₀ s₀' : AppState}

/-- **An effect** depends on the managers only, and on a clock that is not ahead. -/
theorem AppState.Behind.exec (hs : s.Behind s₀) {e : Effect} {o : Oracle} {r : e.Reply}
    (h : s₀.exec e o = some (r, s₀')) : ∃ s', s.exec e o = some (r, s') ∧ s'.Behind s₀' := by
  obtain ⟨hmanagers, hclock⟩ := hs
  obtain ⟨bm, qm, lt, counts, bus, clock⟩ := s
  cases hmanagers
  cases e with
  | tryReserve requestId cost projectedLatencyMs =>
    obtain ⟨⟨hnow, hfresh⟩, h⟩ := Option.ite_none_right_eq_some.mp h
    cases h
    exact ⟨_, if_pos ⟨hclock.trans hnow, hfresh⟩, rfl, le_rfl⟩
  | commit | rollback | readReservation | budgetSnapshot | activeCount | isAtCapacity
  | maxConcurrency | acquire | release | getEstimate | record | countRoute | publish
  | simulateLocalInference | simulateRemoteInference =>
    cases h
    exact ⟨_, rfl, rfl, hclock⟩

/-- The readings of a scan, with the last one once more. The scan does not depend on the clock
then. -/
theorem scanClock_concat (s s₀ : AppState) (readings : List ℚ) :
    s.scanClock (readings ++ [readings.getLastD s₀.clock]) = s₀.scanClock readings := by
  funext n
  rw [AppState.scanClock, AppState.scanClock, List.getLastD_concat]
  rcases Nat.lt_trichotomy n readings.length with hn | rfl | hn
  · rw [List.getD_append _ _ _ _ hn, List.getD_eq_getElem _ _ hn]
  · rw [List.getD_append_right _ _ _ _ le_rfl, Nat.sub_self, List.getD_eq_default _ _ le_rfl]
    rfl
  · have hlength : (readings ++ [readings.getLastD s₀.clock]).length ≤ n := by
      rw [List.length_append]
      exact hn
    rw [List.getD_eq_default _ _ hlength, List.getD_eq_default _ _ hn.le]

/-- The readings of a scan come after the clock. -/
theorem le_getLastD {readings : List ℚ} {clock : ℚ}
    (h : (clock :: readings).Pairwise (· ≤ ·)) : ∀ x ∈ clock :: readings,
      x ≤ readings.getLastD clock := by
  induction readings generalizing clock with
  | nil => exact List.forall_mem_singleton.mpr le_rfl
  | cons reading readings ih =>
    obtain ⟨hclock, hrest⟩ := List.pairwise_cons.mp h
    have hlast := ih hrest
    rw [List.getLastD_cons]
    refine List.forall_mem_cons.mpr ⟨?_, hlast⟩
    exact (hclock reading List.mem_cons_self).trans (hlast reading List.mem_cons_self)

/-- **A scan of the reaper** depends on the managers and on its readings only. -/
theorem AppState.Behind.reap (hs : s.Behind s₀) {readings : List ℚ}
    (h : s₀.act (.reap readings) = some s₀') :
    ∃ readings' s', s.act (.reap readings') = some s' ∧ s'.Behind s₀' ∧
      s.scanClock readings' = s₀.scanClock readings := by
  obtain ⟨hsorted, h⟩ := Option.ite_none_right_eq_some.mp h
  cases h
  have hscan := scanClock_concat s s₀ readings
  have hlast := le_getLastD hsorted
  have hsorted' : (s.clock :: (readings ++ [readings.getLastD s₀.clock])).Pairwise (· ≤ ·) := by
    obtain ⟨hclock, hrest⟩ := List.pairwise_cons.mp hsorted
    obtain ⟨hfirst, hlater⟩ := List.forall_mem_cons.mp hlast
    refine List.pairwise_cons.mpr ⟨List.forall_mem_append.mpr ⟨fun x hx => ?_, ?_⟩,
      List.pairwise_append.mpr ⟨hrest, List.pairwise_singleton _ _, fun x hx y hy => ?_⟩⟩
    · exact hs.clock.trans (hclock x hx)
    · exact List.forall_mem_singleton.mpr (hs.clock.trans hfirst)
    · rw [List.mem_singleton.mp hy]
      exact hlater x hx
  refine ⟨readings ++ [readings.getLastD s₀.clock], _, if_pos hsorted', ⟨?_, ?_⟩, hscan⟩
  · rw [hscan]
    have hmanagers := hs.managers
    simp only [AppState.managers, Managers.mk.injEq] at hmanagers ⊢
    rw [hmanagers.1, hmanagers.2.1, hmanagers.2.2]
    exact ⟨rfl, rfl, rfl⟩
  · dsimp only
    rw [List.getLastD_concat]

/-- An effect does not turn the clock back. -/
theorem clock_le_exec {e : Effect} {o : Oracle} {r : e.Reply}
    (h : s.exec e o = some (r, s₀)) : s.clock ≤ s₀.clock := by
  cases e with
  | tryReserve =>
    obtain ⟨⟨hnow, -⟩, h⟩ := Option.ite_none_right_eq_some.mp h
    cases h
    exact hnow
  | commit | rollback | readReservation | budgetSnapshot | activeCount | isAtCapacity
  | maxConcurrency | acquire | release | getEstimate | record | countRoute | publish
  | simulateLocalInference | simulateRemoteInference =>
    cases h
    exact le_rfl

/-- The environment does not turn the clock back, and of its actions only a scan concerns the
managers. -/
theorem act_managers {a : ServiceAction} (h : s.act a = some s₀) :
    s.clock ≤ s₀.clock ∧ ((∃ readings, a = .reap readings) ∨ s₀.managers = s.managers) := by
  cases a with
  | reap readings =>
    obtain ⟨hsorted, h⟩ := Option.ite_none_right_eq_some.mp h
    cases h
    exact ⟨le_getLastD hsorted _ List.mem_cons_self, .inl ⟨readings, rfl⟩⟩
  | consume client =>
    obtain ⟨mb, -, rfl⟩ := Option.map_eq_some_iff.mp h
    exact ⟨le_rfl, .inr rfl⟩
  | connect | disconnect | mark =>
    cases h
    exact ⟨le_rfl, .inr rfl⟩

/-! ### The service behind a generation -/

variable {config : Config} {classify : String → ComplexityTier} {g : ℕ}

/-- The thread `u` of the service is the handler `t` of the process on the managers of the
generation `g`: a handler of other managers has not started there. -/
inductive Follows (g : ℕ) :
    Thread (service config classify) → Thread (process config classify) → Prop
  | acting {arg h q} (hgen : generation h = some g) :
      Follows g ⟨arg, own h, q⟩ ⟨arg, h, q.translate (onGeneration g)⟩
  | idle {t} (hne : generation t.history ≠ some g) : Follows g (Thread.start t.arg) t

/-- The pool `q` of the service is the pool `p` of the process on the managers of the generation
`g`. Before the reset that builds them they are new. -/
structure Shadows (g : ℕ) (p : Pool (process config classify))
    (q : Pool (service config classify)) : Prop where
  managers : q.state.managers = (p.state.generations[g]?).getD (.new config)
  clock : q.state.clock ≤ p.state.clock
  threads : List.Forall₂ (Follows g) q.threads p.threads

theorem Follows.arg {u : Thread (service config classify)} {t : Thread (process config classify)}
    (h : Follows g u t) : u.arg = t.arg := by
  cases h <;> rfl

/-- A handler on the managers of the generation has ended exactly if its thread has, with the same
result. -/
theorem Follows.outcome {u : Thread (service config classify)}
    {t : Thread (process config classify)} (h : Follows g u t)
    (hgen : generation t.history = some g) : u.history = own t.history ∧ u.outcome = t.outcome := by
  cases h with
  | @acting arg h q =>
    refine ⟨rfl, ?_⟩
    cases q <;> rfl
  | idle hne => exact absurd hgen hne

variable {p p' : Pool (process config classify)} {q : Pool (service config classify)}
  {tr : List (Pool (process config classify) × Choice (process config classify))}

/-- A change of the managers of another generation. -/
theorem Shadows.of_ne (hq : Shadows g p q) {s' : ProcessState}
    (hmanagers : s'.generations[g]? = p.state.generations[g]?) (hclock : p.state.clock ≤ s'.clock)
    {ts : List (Thread (process config classify))}
    (hthreads : List.Forall₂ (Follows g) q.threads ts) :
    Shadows g ⟨s', ts⟩ q :=
  ⟨by rw [hmanagers]; exact hq.managers, hq.clock.trans hclock, hthreads⟩

theorem Shadows.behind (hq : Shadows g p q) {m : Managers} (hm : p.state.generations[g]? = some m) :
    q.state.Behind (p.state.view m) :=
  ⟨by rw [hq.managers, hm]; rfl, hq.clock⟩

/-- The handler that captures its managers. -/
theorem Follows.capture {t : Thread (process config classify)}
    {u : Thread (service config classify)} (h : Follows g u t) (hnil : t.history = [])
    (answered : (inferenceAcrossResets config classify t.arg).Answered t.history t.program)
    {k : ℕ → Program processSignature InferenceResponse}
    (hprogram : t.program = .perform ProcessEffect.capture k) (r : ℕ) :
    Follows g u (t.answered ProcessEffect.capture r (k r)) := by
  cases h with
  | @acting arg h q hgen =>
    obtain rfl : h = [] := hnil
    cases hgen
  | idle hne =>
    obtain ⟨arg, h, program⟩ := t
    obtain rfl : h = [] := hnil
    obtain rfl : program = .perform ProcessEffect.capture k := hprogram
    have hmain : Program.perform (S := processSignature) ProcessEffect.capture k =
        .perform ProcessEffect.capture fun g =>
          (inference config classify arg).translate (onGeneration g) := answered.unique .start
    cases hmain
    rcases eq_or_ne r g with rfl | hr
    · exact .acting (h := [⟨ProcessEffect.capture, r⟩]) rfl
    · exact .idle (t := ⟨arg, [⟨ProcessEffect.capture, r⟩], _⟩) fun hgen =>
        hr (Option.some.inj hgen)

/-- The handler that acts on its managers. -/
theorem Follows.effect {t : Thread (process config classify)}
    {u : Thread (service config classify)} (h : Follows g u t)
    (hgen : generation t.history = some g) {e : Effect}
    {k : e.Reply → Program processSignature InferenceResponse}
    (hprogram : t.program = .perform (ProcessEffect.on g e) k) :
    ∃ k', u.program = .perform e k' ∧
      ∀ r, Follows g (u.answered e r (k' r)) (t.answered (ProcessEffect.on g e) r (k r)) := by
  cases h with
  | @acting arg h q =>
    cases q with
    | ret a => cases hprogram
    | raise x => cases hprogram
    | perform e' k' =>
      cases hprogram
      exact ⟨k', rfl, fun r => .acting (h := ⟨ProcessEffect.on g e, r⟩ :: h) hgen⟩
  | idle hne => exact absurd hgen hne

/-- The handler of other managers. -/
theorem Follows.other {t t' : Thread (process config classify)}
    {u : Thread (service config classify)} (h : Follows g u t)
    (hne : generation t.history ≠ some g) (harg : t'.arg = t.arg)
    (hgen : generation t'.history = generation t.history) : Follows g u t' := by
  cases h with
  | acting hacting => exact absurd hacting hne
  | idle => exact harg ▸ .idle (hgen ▸ hne)

/-- The step `c'` of the service behind the generation `g` stands for the step `c` of the
process. -/
inductive Echoes (g : ℕ) (p : Pool (process config classify)) (q : Pool (service config classify)) :
    Choice (process config classify) → Choice (service config classify) → Prop
  | spawn {arg} : Echoes g p q (.spawn arg) (.spawn arg)
  | resume {i o e m} (hm : p.state.generations[g]? = some m)
      (hp : (p.threads[i]?).bind Thread.next = some (ProcessEffect.on g e))
      (hq : (q.threads[i]?).bind Thread.next = some e) : Echoes g p q (.resume i o) (.resume i o)
  | reap {readings readings' m} (hm : p.state.generations[g]? = some m)
      (hcurrent : p.state.current = g)
      (hscan : q.state.scanClock readings' = (p.state.view m).scanClock readings) :
      Echoes g p q (.act (.service (.reap readings))) (.act (.reap readings'))

/-- The environment acts on the current managers. -/
theorem Shadows.act (hq : Shadows g p q) {m : Managers} {app : AppState} {a : ServiceAction}
    (hm : p.state.generations[p.state.current]? = some m)
    (hact : (p.state.view m).act a = some app) : ∃ tr' q', Run Pool.Step q tr' q' ∧
      Shadows g ⟨p.state.update p.state.current app, p.threads⟩ q' ∧
      ∀ x ∈ tr', x.1 = q ∧ Echoes g p q (.act (.service a)) x.2 := by
  obtain ⟨hclock, hmanagers⟩ := act_managers hact
  obtain ⟨hlt, hget⟩ := List.getElem?_eq_some_iff.mp hm
  rcases eq_or_ne p.state.current g with hcurrent | hne
  · rcases hmanagers with ⟨readings, rfl⟩ | hsame
    · obtain ⟨readings', s₁, hs₁, hbehind, hscan⟩ := (hq.behind (hcurrent ▸ hm)).reap hact
      have hstep : Pool.Step q (.act (.reap readings')) ⟨s₁, q.threads⟩ :=
        (Pool.Outcome.acted hs₁).step
      refine ⟨_, _, Run.start.step hstep, ⟨?_, hbehind.clock, hq.threads⟩,
        List.forall_mem_singleton.mpr ⟨rfl, .reap (hcurrent ▸ hm) hcurrent hscan⟩⟩
      rw [hbehind.managers, ← hcurrent, ProcessState.update, List.getElem?_set_self hlt]
      rfl
    · refine ⟨[], q, .start, hq.of_ne ?_ hclock hq.threads, by simp⟩
      have hset : p.state.generations.set p.state.current app.managers = p.state.generations := by
        rw [hsame]
        exact hget ▸ List.set_getElem_self hlt
      exact congrArg (·[g]?) hset
  · exact ⟨[], q, .start, hq.of_ne (List.getElem?_set_ne hne) hclock hq.threads, by simp⟩

/-- A reset. -/
theorem Shadows.reset (hq : Shadows g p q) (runId : String) :
    Shadows g ⟨p.state.reset config runId, p.threads⟩ q where
  managers := by
    rw [hq.managers, ProcessState.reset]
    rcases Nat.lt_or_ge g p.state.generations.length with hg | hg
    · rw [List.getElem?_append_left hg]
    · rw [List.getElem?_eq_none hg, List.getElem?_append_right hg]
      cases g - p.state.generations.length <;> rfl
  clock := hq.clock
  threads := hq.threads

/-- **One step of the process** is one of the service, or none. -/
theorem Shadows.step (hq : Shadows g p q)
    (run : Run Pool.Step (initialProcess config classify) tr p)
    {c : Choice (process config classify)} (h : p.Step c p') :
    ∃ tr' q', Run Pool.Step q tr' q' ∧ Shadows g p' q' ∧
      ∀ x ∈ tr', x.1 = q ∧ Echoes g p q c x.2 := by
  obtain ⟨s, us⟩ := q
  cases h.outcome with
  | spawned arg =>
    have hspawn : Pool.Step ⟨s, us⟩ (.spawn arg)
        ⟨s, us ++ [(Thread.start arg : Thread (service config classify))]⟩ := rfl
    refine ⟨_, _, Run.start.step hspawn, ⟨hq.managers, hq.clock, ?_⟩,
      List.forall_mem_singleton.mpr ⟨rfl, .spawn⟩⟩
    exact forall₂_replace hq.threads (.idle (t := Thread.start arg) nofun) .nil
  | @resumed pre t post e k o r s' hthreads hprogram hexec =>
    have hmeets := inferenceAcrossResets_meets config classify
    have ht : t ∈ p.threads := hthreads ▸ List.mem_append_right _ List.mem_cons_self
    have hallowed := Pool.allowed_of_run hmeets rfl run ht (Thread.next_of_perform hprogram)
    have hus := hq.threads
    rw [hthreads] at hus
    obtain ⟨pre', u, post', rfl, hpre, hu, hpost⟩ := exists_split hus
    cases e with
    | capture =>
      cases hexec
      refine ⟨[], _, .start, ⟨hq.managers, hq.clock, forall₂_replace hpre ?_ hpost⟩, by simp⟩
      exact hu.capture hallowed (Pool.answered_of_run rfl run t ht) hprogram _
    | on g' e =>
      obtain ⟨m, hm, hmap⟩ := Option.bind_eq_some_iff.mp hexec
      obtain ⟨⟨r', app⟩, heffect, heq⟩ := Option.map_eq_some_iff.mp hmap
      cases heq
      rcases eq_or_ne g' g with rfl | hne
      · obtain ⟨k', hk', hfollows⟩ := hu.effect hallowed.1 hprogram
        obtain ⟨s₁, hs₁, hbehind⟩ := (hq.behind hm).exec heffect
        have hstep : Pool.Step ⟨s, pre' ++ u :: post'⟩ (.resume pre.length o)
            ⟨s₁, pre' ++ u.answered e r' (k' r') :: post'⟩ := by
          rw [← hpre.length_eq]
          exact (Pool.Outcome.resumed rfl hk' hs₁).step
        refine ⟨_, _, Run.start.step hstep, ⟨?_, hbehind.clock,
          forall₂_replace hpre (hfollows r') hpost⟩,
          List.forall_mem_singleton.mpr ⟨rfl, .resume (e := e) hm ?_ ?_⟩⟩
        · obtain ⟨hlt, -⟩ := List.getElem?_eq_some_iff.mp hm
          rw [hbehind.managers, ProcessState.update, List.getElem?_set_self hlt]
          rfl
        · rw [hthreads, Pool.getElem?_middle, Option.bind_some, Thread.next_of_perform hprogram]
        · rw [← hpre.length_eq, Pool.getElem?_middle, Option.bind_some,
            Thread.next_of_perform hk']
      · refine ⟨[], _, .start, hq.of_ne (List.getElem?_set_ne hne) (clock_le_exec heffect)
          (forall₂_replace hpre ?_ hpost), by simp⟩
        exact hu.other (fun heq => hne (Option.some.inj (hallowed.1.symm.trans heq))) rfl rfl
  | @acted a s' hact =>
    cases a with
    | service action =>
      obtain ⟨m, hm, hmap⟩ := Option.bind_eq_some_iff.mp hact
      obtain ⟨app, hservice, rfl⟩ := Option.map_eq_some_iff.mp hmap
      exact hq.act hm hservice
    | reset runId =>
      cases hact
      exact ⟨[], _, .start, hq.reset runId, by simp⟩

theorem shadows_initial (g : ℕ) :
    Shadows g (initialProcess config classify) (initial config classify) where
  managers := by
    dsimp only [initialProcess, ProcessState.init]
    cases g <;> rfl
  clock := le_rfl
  threads := .nil

/-- The service behind a generation of a process, in which the steps meet the conditions that carry
over. -/
theorem exists_shadows_within {C : Pool (process config classify) →
      Choice (process config classify) → Prop}
    {D : Pool (service config classify) → Choice (service config classify) → Prop}
    (hcarry : ∀ p q c c', Shadows g p q → Echoes g p q c c' → C p c → D q c')
    (run : Run Pool.Step (initialProcess config classify) tr p) (hcond : ∀ t ∈ tr, C t.1 t.2) :
    ∃ tr' q, Run Pool.Step (initial config classify) tr' q ∧ Shadows g p q ∧
      ∀ t ∈ tr', D t.1 t.2 := by
  refine run.simulate (shadows_initial g) (fun _ p c p' q run hc h hq => ?_) hcond
  obtain ⟨tr', q', run', hq', hechoes⟩ := hq.step run h
  refine ⟨tr', q', run', hq', fun x hx => ?_⟩
  obtain ⟨rfl, hecho⟩ := hechoes x hx
  exact hcarry p _ c _ hq hecho hc

/-- The service behind a generation of a process. -/
theorem exists_shadows (run : Run Pool.Step (initialProcess config classify) tr p) (g : ℕ) :
    ∃ tr' q, Run Pool.Step (initial config classify) tr' q ∧ Shadows g p q := by
  obtain ⟨tr', q, run', hq, -⟩ := exists_shadows_within (g := g) (C := fun _ _ => True)
    (D := fun _ _ => True) (fun _ _ _ _ _ _ h => h) run fun _ _ => trivial
  exact ⟨tr', q, run', hq⟩

/-- The service behind a generation has its managers. -/
theorem exists_service (run : Run Pool.Step (initialProcess config classify) tr p) {m : Managers}
    (hm : p.state.generations[g]? = some m) :
    ∃ tr' q, Run Pool.Step (initial config classify) tr' q ∧ Shadows g p q ∧
      q.state.managers = m := by
  obtain ⟨tr', q, run', hq⟩ := exists_shadows run g
  exact ⟨tr', q, run', hq, by rw [hq.managers, hm]; rfl⟩

/-- **Every generation of a process is a service.** For every run of the process, with any number of
resets, and every generation of managers, there is a run of the service without resets that leads to
these managers; a handler that has captured them has there the same history on them and the same
outcome, and the others have not started. -/
theorem generation_refines (run : Run Pool.Step (initialProcess config classify) tr p) {g : ℕ}
    {m : Managers} (hm : p.state.generations[g]? = some m) :
    ∃ tr' q, Run Pool.Step (initial config classify) tr' q ∧ q.state.managers = m ∧
      List.Forall₂ (fun u t => u.arg = t.arg ∧
        (generation t.history = some g → u.history = own t.history ∧ u.outcome = t.outcome) ∧
        (generation t.history ≠ some g → u.history = [])) q.threads p.threads := by
  obtain ⟨tr', q, run', hq, hmanagers⟩ := exists_service run hm
  refine ⟨tr', q, run', hmanagers, hq.threads.imp fun u t h => ?_⟩
  refine ⟨h.arg, h.outcome, fun hne => ?_⟩
  cases h with
  | acting hgen => exact absurd hgen hne
  | idle => rfl

/-- A run with a reset after which the handler of the old managers goes on. -/
theorem generation_refines_of_reset : ∃ tr p m,
    Run Pool.Step (initialProcess singleSlotConfig fun _ => .fast) tr p ∧
      p.state.generations.length = 2 ∧ p.state.generations[0]? = some m ∧
      m.queueMonitor.activeCount = 1 ∧
      ∃ tr' q, Run Pool.Step (initial singleSlotConfig fun _ => .fast) tr' q ∧
        q.state.managers = m := by
  obtain ⟨tr, p, run, hlength, hcount⟩ := Pool.exists_run
    (P := fun (p : Pool (process singleSlotConfig fun _ => .fast)) =>
      p.state.generations.length = 2 ∧
        p.state.generations[0]?.map (fun m => m.queueMonitor.activeCount) = some 1)
    (initialProcess singleSlotConfig fun _ => .fast) (comesToCall 0 {} ++ [.act (.reset "")])
    (by decide +kernel)
  obtain ⟨m, hm, hactive⟩ := Option.map_eq_some_iff.mp hcount
  obtain ⟨tr', q, run', hmanagers, -⟩ := generation_refines run hm
  exact ⟨tr, p, m, run, hlength, hm, hactive, tr', q, run', hmanagers⟩

/-! ### The books -/

/-- The cumulative figures of the budget manager. -/
def Managers.ledger (m : Managers) : ℚ × ℚ :=
  (m.budgetManager.cumulativeRemoteCost, m.budgetManager.cumulativeActualLatencyMs)

/-- Every handler that has captured the managers of the generation has ended, and its backends have
raised only what is rolled back for. -/
def GenerationDone (g : ℕ) (ts : List (Thread (process config classify))) : Prop :=
  ∀ t ∈ ts, generation t.history = some g → t.outcome.isSome ∧
    ∀ answer ∈ (tally (own t.history)).answers, RaisesOnly Exn.Caught answer.2

instance (g : ℕ) (ts : List (Thread (process config classify))) :
    Decidable (GenerationDone g ts) :=
  inferInstanceAs (Decidable (∀ t ∈ ts, _))

/-- What the service behind a generation knows of its handlers. -/
theorem Shadows.tallies_eq (hq : Shadows g p q) :
    tallies q.threads = (histories p.threads).map (tallyIn g) := by
  rw [tallies, histories, List.map_map, ← List.forall₂_eq_eq_eq]
  refine List.forall₂_map_left_iff.mpr (List.forall₂_map_right_iff.mpr ?_)
  refine hq.threads.imp fun u t h => ?_
  cases h with
  | acting hgen => exact (if_pos hgen).symm
  | idle hne => exact (if_neg hne).symm

/-- **The ledger of a generation** is what its handlers have committed. -/
theorem ledger_of_generation (run : Run Pool.Step (initialProcess config classify) tr p)
    {m : Managers} (hm : p.state.generations[g]? = some m) :
    m.ledger = committed ((histories p.threads).map (tallyIn g)) := by
  obtain ⟨tr', q, run', hq, rfl⟩ := exists_service run hm
  rw [← hq.tallies_eq]
  exact cumulative_eq_committed run'

/-- The handlers of the service behind a generation have ended where those of the generation have,
and the others have not done anything. -/
theorem Shadows.idle (hq : Shadows g p q)
    (hdone : ∀ t ∈ p.threads, generation t.history = some g → t.outcome.isSome) :
    ∀ u ∈ q.threads, u.outcome = none → u.history = [] := by
  intro u hu hnone
  obtain ⟨t, ht, hfollows⟩ := exists_of_mem hq.threads hu
  by_cases hgen : generation t.history = some g
  · have hended := hdone t ht hgen
    rw [← (hfollows.outcome hgen).2, hnone] at hended
    cases hended
  · cases hfollows with
    | acting hacting => exact absurd hacting hgen
    | idle => rfl

/-- **A generation whose handlers have ended** holds nothing. -/
theorem settled_of_generation (run : Run Pool.Step (initialProcess config classify) tr p)
    {m : Managers} (hm : p.state.generations[g]? = some m) (hdone : GenerationDone g p.threads) :
    m.budgetManager.reservedForExecution = 0 ∧ m.budgetManager.reservedLatencyMs = 0 ∧
      m.budgetManager.activeReservations.length = 0 ∧ m.queueMonitor.activeCount = 0 := by
  obtain ⟨tr', q, run', hq, rfl⟩ := exists_service run hm
  have hcaught : BackendsRaiseOnly Exn.Caught q.threads := by
    intro u hu
    obtain ⟨t, ht, hfollows⟩ := exists_of_mem hq.threads hu
    cases hfollows with
    | acting hgen => exact (hdone _ ht hgen).2
    | idle => exact fun answer hanswer => absurd hanswer List.not_mem_nil
  obtain ⟨hpending, hlocal⟩ :=
    quiescent run' hcaught (hq.idle fun t ht hgen => (hdone t ht hgen).1)
  obtain ⟨hmoney, hlatency, hactive⟩ := (valid_of_service run').reserved_eq_zero hpending
  refine ⟨hmoney, hlatency, hactive, (activeCount_eq run').trans ?_⟩
  exact List.countP_eq_zero.mpr fun u hu hinside => hlocal u hu (of_decide_eq_true hinside)

/-- A handler that has not captured its managers has done nothing. -/
theorem own_eq_nil (run : Run Pool.Step (initialProcess config classify) tr p) :
    ∀ t ∈ p.threads, generation t.history = none → own t.history = [] := by
  refine Pool.invariant (inferenceAcrossResets_meets config classify)
    (P := fun _ ts => ∀ t ∈ ts, generation t.history = none → own t.history = [])
    (C := fun _ _ => True) rfl (fun _ ht => absurd ht List.not_mem_nil)
    (fun s ts arg h => List.forall_mem_append.mpr ⟨h, List.forall_mem_singleton.mpr fun _ => rfl⟩)
    (fun s s' pre t post e k r o _ hallowed _ _ h => forall_mem_replace h fun _ hnone => ?_)
    (fun _ _ _ _ _ _ h => h) run fun _ _ => trivial
  cases e with
  | capture => cases hnone
  | on g e => exact absurd (hallowed.1.symm.trans hnone) (Option.some_ne_none g)

/-- The charges of a handler are in the ledger of its generation. -/
theorem sum_tallyIn {n : ℕ} {h : History processSignature}
    (hnone : generation h = none → own h = [])
    (hlt : ∀ g, generation h = some g → g < n) :
    ∑ i : Fin n, (tallyIn i h).charges.sum = (tally (own h)).charges.sum := by
  cases hgen : generation h with
  | none =>
    rw [hnone hgen]
    refine Finset.sum_eq_zero fun i _ => ?_
    have hne : generation h ≠ some i.val := hgen.trans_ne (Option.some_ne_none _).symm
    rw [tallyIn, if_neg hne]
    rfl
  | some g =>
    rw [Finset.sum_eq_single (⟨g, hlt g hgen⟩ : Fin n)]
    · rw [tallyIn, if_pos hgen]
    · intro i _ hi
      rw [tallyIn, if_neg fun heq => hi (Fin.ext (Option.some.inj (heq.symm.trans hgen)))]
      rfl
    · exact fun hmem => absurd (Finset.mem_univ _) hmem

/-- The charges of some handlers, generation by generation. -/
theorem sum_committed {n : ℕ} {hs : List (History processSignature)}
    (hnone : ∀ h ∈ hs, generation h = none → own h = [])
    (hlt : ∀ h ∈ hs, ∀ g, generation h = some g → g < n) :
    ∑ i : Fin n, committed (hs.map (tallyIn i)) = committed (hs.map fun h => tally (own h)) := by
  induction hs with
  | nil => exact Finset.sum_const_zero
  | cons h hs ih =>
    obtain ⟨hnone, hnones⟩ := List.forall_mem_cons.mp hnone
    obtain ⟨hlt, hlts⟩ := List.forall_mem_cons.mp hlt
    simp only [committed, List.map_cons, List.sum_cons] at ih ⊢
    rw [Finset.sum_add_distrib, sum_tallyIn hnone hlt, ih hnones hlts]

/-- The ledgers of all generations together are what the handlers have committed. -/
theorem sum_ledgers (run : Run Pool.Step (initialProcess config classify) tr p) :
    (p.state.generations.map Managers.ledger).sum =
      committed ((histories p.threads).map fun h => tally (own h)) := by
  have hnone : ∀ h ∈ histories p.threads, generation h = none → own h = [] := by
    intro h hh
    obtain ⟨t, ht, rfl⟩ := List.mem_map.mp hh
    exact own_eq_nil run t ht
  rw [← Fin.sum_univ_fun_getElem, ← sum_committed hnone (agree_of_run run).generation_lt]
  exact Finset.sum_congr rfl fun i _ =>
    ledger_of_generation run (List.getElem?_eq_getElem i.isLt)

/-- **The books across resets.** In every run of the process, whenever and however often it is
reset, the ledger of a generation is what the handlers of that generation have committed; its total
latency is within the cap; and it holds no reservation and no slot once these handlers have ended,
if their backends have raised only what is rolled back for. A reset loses no charge and counts none
twice: all the ledgers together are what all the handlers have committed. -/
theorem books_of_generations (run : Run Pool.Step (initialProcess config classify) tr p) :
    (∀ g m, p.state.generations[g]? = some m →
        m.ledger = committed ((histories p.threads).map (tallyIn g)) ∧
        (0 ≤ config.maxCumulativeLatencyMs → m.budgetManager.cumulativeActualLatencyMs ≤
          config.maxCumulativeLatencyMs + BudgetManager.commitSlack) ∧
        (GenerationDone g p.threads → m.budgetManager.reservedForExecution = 0 ∧
          m.budgetManager.reservedLatencyMs = 0 ∧ m.budgetManager.activeReservations.length = 0 ∧
          m.queueMonitor.activeCount = 0)) ∧
      (p.state.generations.map Managers.ledger).sum =
        committed ((histories p.threads).map fun h => tally (own h)) := by
  refine ⟨fun g m hm => ⟨ledger_of_generation run hm, fun hcap => ?_,
    settled_of_generation run hm⟩, sum_ledgers run⟩
  obtain ⟨tr', q, run', -, rfl⟩ := exists_service run hm
  exact cumulative_latency_le (managerRun run') hcap

/-- A request that is served before a reset and one that is served after it. -/
def servedAroundReset : List (Choice (process .default fun _ => .quality)) :=
  .spawn sampleRequest ::
    List.replicate 16 (.resume 0 { answer := .ok (sampleResult (1 / 100) 300) }) ++
  .act (.reset "") :: .spawn sampleRequest ::
    List.replicate 16 (.resume 1 { answer := .ok (sampleResult (2 / 100) 400) })

/-- The ledger of the current managers misses what was spent before the reset. -/
theorem books_of_reset : ∃ tr p,
    Run Pool.Step (initialProcess .default fun _ => .quality) tr p ∧
      p.state.generations.map Managers.ledger = [(1 / 100, 300), (2 / 100, 400)] ∧
      committed ((histories p.threads).map fun h => tally (own h)) = (3 / 100, 700) ∧
      ∃ m, p.state.generations[0]? = some m ∧ m.budgetManager.reservedForExecution = 0 := by
  obtain ⟨tr, p, run, hledgers, hdone⟩ := Pool.exists_run
    (P := fun (p : Pool (process .default fun _ => .quality)) =>
      p.state.generations.map Managers.ledger = [(1 / 100, 300), (2 / 100, 400)] ∧
        GenerationDone 0 p.threads)
    (initialProcess .default fun _ => .quality) servedAroundReset (by decide +kernel)
  obtain ⟨hgenerations, htotal⟩ := books_of_generations run
  refine ⟨tr, p, run, hledgers, ?_, ?_⟩
  · rw [← htotal, hledgers]
    norm_num
  · have hlength := congrArg List.length hledgers
    rw [List.length_map] at hlength
    have hm := List.getElem?_eq_getElem (l := p.state.generations) (i := 0) (by simp [hlength])
    exact ⟨_, hm, ((hgenerations 0 _ hm).2.2 hdone).1⟩

end InferenceRouter
