import InferenceRouter.Foundation.Answers
import InferenceRouter.Foundation.Run
import Mathlib.Data.List.Forall2

/-!
# Pools of programs over a shared state

A *system* runs any number of instances of one program over a shared state. Each instance is a
thread: the argument it was started with, the history of its effects and the program that is
left. At every step either a new thread starts, or one thread performs its next effect on the
shared state, or the environment acts on the state by itself. Every effect is one step, and the
steps of different threads interleave freely. What the system does not determine, the environment
supplies: an oracle for each effect, and its own actions.

## Main definitions

* `Foundation.System`, `Foundation.Thread`, `Foundation.Pool`, `Foundation.Choice`.
* `Foundation.Pool.step`, and the relation `Foundation.Pool.Step` of its runs.

## Main results

* `Foundation.Pool.answered_of_run`: the history of every thread leads to what is left of its
  program.
* `Foundation.Pool.meets_of_run`: in every reachable pool, the rest of every thread's program
  meets the condition that the whole program was proved to meet.
* `Foundation.Pool.invariant`: invariants of the state and the threads together.
* `Foundation.Pool.follow`: properties of one thread along a run.
* `Foundation.Pool.exists_finish`: a thread that runs alone comes to its end.
-/

namespace Foundation

variable {S : Signature}

/-- A program, with the meaning of its effects on a shared state. -/
structure System (S : Signature) where
  State : Type
  Arg : Type
  Out : Type
  /-- What the environment supplies to an effect. -/
  Oracle : Type
  /-- What the environment does by itself. -/
  Action : Type
  main : Arg → Program S Out
  /-- The reply of an effect and the state it leaves, if the oracle is admissible. -/
  exec : State → (e : S.Effect) → Oracle → Option (S.Reply e × State)
  /-- The state that an action leaves, if it is admissible. -/
  act : State → Action → Option State

/-- An instance of the program of a system. -/
structure Thread (sys : System S) where
  arg : sys.Arg
  history : History S
  program : Program S sys.Out

/-- The shared state, with the threads in the order in which they started. -/
structure Pool (sys : System S) where
  state : sys.State
  threads : List (Thread sys)

/-- The choices of the environment at one step. -/
inductive Choice (sys : System S)
  | spawn (arg : sys.Arg)
  | resume (thread : ℕ) (oracle : sys.Oracle)
  | act (action : sys.Action)

/-- A property of all items of a list, after one of them has been replaced. -/
theorem forall_mem_replace {α : Type} {P : α → Prop} {a b : α} {pre post : List α}
    (h : ∀ x ∈ pre ++ a :: post, P x) (hb : P a → P b) : ∀ x ∈ pre ++ b :: post, P x := by
  rw [List.forall_mem_append, List.forall_mem_cons] at h ⊢
  obtain ⟨hpre, ha, hpost⟩ := h
  exact ⟨hpre, hb ha, hpost⟩

/-- Two lists of related items, split at an item of the second. -/
theorem exists_split {α β : Type} {R : α → β → Prop} {l : List α} {pre post : List β} {b : β}
    (h : List.Forall₂ R l (pre ++ b :: post)) :
    ∃ pre' a post', l = pre' ++ a :: post' ∧ List.Forall₂ R pre' pre ∧ R a b ∧
      List.Forall₂ R post' post := by
  have hdrop := List.forall₂_drop_append _ _ _ h
  obtain ⟨a, post', ha, hpost, heq⟩ := List.forall₂_cons_right_iff.mp hdrop
  refine ⟨_, a, post', ?_, List.forall₂_take_append _ _ _ h, ha, hpost⟩
  rw [← heq, List.take_append_drop]

/-- Two lists of related items, put together around two related items. -/
theorem forall₂_replace {α β : Type} {R : α → β → Prop} {pre' post' : List α} {a : α}
    {pre post : List β} {b : β} (hpre : List.Forall₂ R pre' pre) (h : R a b)
    (hpost : List.Forall₂ R post' post) :
    List.Forall₂ R (pre' ++ a :: post') (pre ++ b :: post) :=
  List.rel_append hpre (.cons h hpost)

/-- The item of the other list. -/
theorem exists_of_mem {α β : Type} {R : α → β → Prop} {l' : List α} {l : List β}
    (h : List.Forall₂ R l' l) {a : α} (ha : a ∈ l') : ∃ b ∈ l, R a b := by
  induction h with
  | nil => cases ha
  | @cons a' b l' l hab _ ih =>
    rcases List.mem_cons.mp ha with rfl | ha
    · exact ⟨b, List.mem_cons_self, hab⟩
    · obtain ⟨b', hb', hrelated⟩ := ih ha
      exact ⟨b', List.mem_cons_of_mem b hb', hrelated⟩

variable {sys : System S}

namespace Thread

/-- A thread that has not performed an effect yet. -/
def start (arg : sys.Arg) : Thread sys := ⟨arg, [], sys.main arg⟩

/-- The thread after its effect `e` has been answered by `r`. -/
def answered (t : Thread sys) (e : S.Effect) (r : S.Reply e) (program : Program S sys.Out) :
    Thread sys :=
  ⟨t.arg, ⟨e, r⟩ :: t.history, program⟩

/-- The result of a thread that has ended. -/
def outcome (t : Thread sys) : Option (Except S.Exn sys.Out) :=
  match t.program with
  | .ret a => some (.ok a)
  | .raise x => some (.error x)
  | .perform _ _ => none

/-- The effect that a thread performs next. -/
def next (t : Thread sys) : Option S.Effect :=
  match t.program with
  | .ret _ | .raise _ => none
  | .perform e _ => some e

/-- Perform the next effect of a thread. -/
def resume (t : Thread sys) (s : sys.State) (o : sys.Oracle) : Option (Thread sys × sys.State) :=
  match t.program with
  | .ret _ | .raise _ => none
  | .perform e k => (sys.exec s e o).map fun rs => (t.answered e rs.1 (k rs.1), rs.2)

theorem exists_next {t : Thread sys} (h : t.outcome = none) : ∃ e, t.next = some e := by
  unfold outcome at h
  unfold next
  cases hprogram : t.program with
  | ret a =>
    rw [hprogram] at h
    cases h
  | raise x =>
    rw [hprogram] at h
    cases h
  | perform e k => exact ⟨e, rfl⟩

theorem exists_perform_of_next {t : Thread sys} {e : S.Effect} (h : t.next = some e) :
    ∃ k, t.program = .perform e k := by
  unfold next at h
  split at h
  · cases h
  · cases h
  · rename_i e' k hprogram
    cases h
    exact ⟨k, hprogram⟩

theorem next_of_perform {t : Thread sys} {e : S.Effect} {k : S.Reply e → Program S sys.Out}
    (h : t.program = .perform e k) : t.next = some e := by
  rw [next, h]

end Thread

namespace Pool

/-- One step of a pool, if the choice is admissible. -/
def step (p : Pool sys) : Choice sys → Option (Pool sys)
  | .spawn arg => some ⟨p.state, p.threads ++ [Thread.start arg]⟩
  | .resume i o =>
    (p.threads[i]?).bind fun t =>
      (t.resume p.state o).map fun ts => ⟨ts.2, p.threads.set i ts.1⟩
  | .act a => (sys.act p.state a).map fun s => ⟨s, p.threads⟩

/-- The steps of a pool, as a relation. -/
def Step (p : Pool sys) (c : Choice sys) (p' : Pool sys) : Prop := p.step c = some p'

/-- What the steps of a pool do. -/
inductive Outcome (p : Pool sys) : Choice sys → Pool sys → Prop
  | spawned (arg) : Outcome p (.spawn arg) ⟨p.state, p.threads ++ [Thread.start arg]⟩
  | resumed {pre t post e k o r s'} (hthreads : p.threads = pre ++ t :: post)
      (hprogram : t.program = .perform e k) (hexec : sys.exec p.state e o = some (r, s')) :
      Outcome p (.resume pre.length o) ⟨s', pre ++ t.answered e r (k r) :: post⟩
  | acted {a s'} (hact : sys.act p.state a = some s') : Outcome p (.act a) ⟨s', p.threads⟩

/-- Every step is one of the outcomes. -/
theorem Step.outcome {p p' : Pool sys} {c : Choice sys} (h : p.Step c p') : p.Outcome c p' := by
  unfold Step at h
  cases c with
  | spawn arg =>
    obtain rfl := Option.some.inj h
    exact .spawned arg
  | resume i o =>
    obtain ⟨t, hget, h⟩ := Option.bind_eq_some_iff.mp h
    obtain ⟨⟨t', s'⟩, hresume, rfl⟩ := Option.map_eq_some_iff.mp h
    obtain ⟨hi, rfl⟩ := List.getElem?_eq_some_iff.mp hget
    unfold Thread.resume at hresume
    split at hresume
    · cases hresume
    · cases hresume
    · rename_i e k hprogram
      obtain ⟨⟨r, s⟩, hexec, heq⟩ := Option.map_eq_some_iff.mp hresume
      cases heq
      have hthreads : p.threads = p.threads.take i ++ p.threads[i] :: p.threads.drop (i + 1) := by
        rw [List.getElem_cons_drop, List.take_append_drop]
      have hset : p.threads.set i ((p.threads[i]).answered e r (k r)) = p.threads.take i ++
          (p.threads[i]).answered e r (k r) :: p.threads.drop (i + 1) := by
        rw [List.set_eq_take_append_cons_drop, if_pos hi]
      have hout := Outcome.resumed hthreads hprogram hexec
      rw [List.length_take_of_le (Nat.le_of_lt hi)] at hout
      exact hset ▸ hout
  | act a =>
    obtain ⟨s, hact, rfl⟩ := Option.map_eq_some_iff.mp h
    exact .acted hact

/-- The thread in the middle of a pool. -/
theorem getElem?_middle (pre post : List (Thread sys)) (t : Thread sys) :
    (pre ++ t :: post)[pre.length]? = some t := by
  rw [List.getElem?_append_right (Nat.le_refl _), Nat.sub_self, List.getElem?_cons_zero]

/-- Every outcome is a step. -/
theorem Outcome.step {p p' : Pool sys} {c : Choice sys} (h : p.Outcome c p') : p.Step c p' := by
  unfold Step
  cases h with
  | spawned arg => rfl
  | @resumed pre t post e k o r s' hthreads hprogram hexec =>
    have hresume : t.resume p.state o = some (t.answered e r (k r), s') := by
      rw [Thread.resume, hprogram]
      dsimp only
      rw [hexec, Option.map_some]
    have hset : (pre ++ t :: post).set pre.length (t.answered e r (k r)) =
        pre ++ t.answered e r (k r) :: post := by
      rw [List.set_append_right _ _ (Nat.le_refl _), Nat.sub_self, List.set_cons_zero]
    rw [Pool.step, hthreads, getElem?_middle, Option.bind_some, hresume, Option.map_some, hset]
  | acted hact => rw [Pool.step, hact, Option.map_some]

variable {p p₀ : Pool sys} {tr : List (Pool sys × Choice sys)}

/-! ### Executing a list of choices -/

/-- Take a list of choices, and collect the trace. -/
def take (p : Pool sys) : List (Choice sys) → Option (List (Pool sys × Choice sys) × Pool sys)
  | [] => some ([], p)
  | c :: cs => (p.step c).bind fun p' => (p'.take cs).map fun r => (r.1 ++ [(p, c)], r.2)

/-- The choices of a list make a run. -/
theorem run_of_take {cs : List (Choice sys)} (h : p₀.take cs = some (tr, p)) :
    Run Step p₀ tr p := by
  induction cs generalizing p₀ tr with
  | nil =>
    cases h
    exact .start
  | cons c cs ih =>
    obtain ⟨p', hstep, h⟩ := Option.bind_eq_some_iff.mp h
    obtain ⟨⟨tr', p''⟩, htake, heq⟩ := Option.map_eq_some_iff.mp h
    cases heq
    exact (Run.start.step hstep).trans (ih htake)

/-- A run found by executing a list of choices and testing its trace and where it leads. -/
theorem exists_run_trace {P : List (Pool sys × Choice sys) → Pool sys → Prop}
    [∀ tr p, Decidable (P tr p)] (p₀ : Pool sys) (cs : List (Choice sys))
    (h : (p₀.take cs).any (fun r => decide (P r.1 r.2)) = true) :
    ∃ tr p, Run Step p₀ tr p ∧ P tr p := by
  cases htake : p₀.take cs with
  | none =>
    rw [htake] at h
    cases h
  | some r =>
    rw [htake] at h
    exact ⟨r.1, r.2, run_of_take htake, of_decide_eq_true h⟩

/-- A run found by executing a list of choices and testing where they lead. -/
theorem exists_run {P : Pool sys → Prop} [DecidablePred P] (p₀ : Pool sys)
    (cs : List (Choice sys)) (h : (p₀.take cs).any (fun r => decide (P r.2)) = true) :
    ∃ tr p, Run Step p₀ tr p ∧ P p :=
  exists_run_trace p₀ cs h

/-! ### What every thread meets -/

/-- **The history of every thread** leads from the program of the system to what is left of it. -/
theorem answered_of_run (hempty : p₀.threads = []) (run : Run Step p₀ tr p) :
    ∀ t ∈ p.threads, (sys.main t.arg).Answered t.history t.program := by
  induction run with
  | start => simp [hempty]
  | step run h ih =>
    cases h.outcome with
    | spawned arg => exact List.forall_mem_append.mpr ⟨ih, List.forall_mem_singleton.mpr .start⟩
    | @resumed pre t post e k o r s' hthreads hprogram hexec =>
      rw [hthreads] at ih
      refine forall_mem_replace ih fun ht => ?_
      rw [hprogram] at ht
      exact ht.answer r
    | acted => exact ih

section Meets

variable {allowed : History S → S.Effect → Prop}
  {Q : sys.Arg → History S → Except S.Exn sys.Out → Prop}

/-- **The rest of every thread's program** meets, from the thread's history, the condition that
the program was proved to meet from the start. -/
theorem meets_of_run (hmain : ∀ arg, (sys.main arg).Meets allowed (Q arg) [])
    (hempty : p₀.threads = []) (run : Run Step p₀ tr p) :
    ∀ t ∈ p.threads, t.program.Meets allowed (Q t.arg) t.history :=
  fun t ht => (answered_of_run hempty run t ht).meets (hmain t.arg)

/-- The effect that a thread performs next is allowed. -/
theorem allowed_of_run (hmain : ∀ arg, (sys.main arg).Meets allowed (Q arg) [])
    (hempty : p₀.threads = []) (run : Run Step p₀ tr p) {t : Thread sys} (ht : t ∈ p.threads)
    {e : S.Effect} (he : t.next = some e) : allowed t.history e := by
  have hmeets := meets_of_run hmain hempty run t ht
  obtain ⟨k, hprogram⟩ := Thread.exists_perform_of_next he
  rw [hprogram] at hmeets
  exact hmeets.1

/-- The result of a thread that has ended satisfies the postcondition. -/
theorem outcome_of_run (hmain : ∀ arg, (sys.main arg).Meets allowed (Q arg) [])
    (hempty : p₀.threads = []) (run : Run Step p₀ tr p) {t : Thread sys} (ht : t ∈ p.threads)
    {out : Except S.Exn sys.Out} (hout : t.outcome = some out) : Q t.arg t.history out := by
  have hmeets := meets_of_run hmain hempty run t ht
  unfold Thread.outcome at hout
  split at hout
  · rename_i a hprogram
    obtain rfl := Option.some.inj hout
    rwa [hprogram] at hmeets
  · rename_i x hprogram
    obtain rfl := Option.some.inj hout
    rwa [hprogram] at hmeets
  · cases hout

/-- **Invariants of the state and the threads**, along runs whose steps meet `C`. An effect is
performed only if it is allowed. -/
theorem invariant (hmain : ∀ arg, (sys.main arg).Meets allowed (Q arg) [])
    {P : sys.State → List (Thread sys) → Prop} {C : Pool sys → Choice sys → Prop}
    (hempty : p₀.threads = []) (start : P p₀.state [])
    (spawn : ∀ s ts arg, P s ts → P s (ts ++ [Thread.start arg]))
    (resume : ∀ s s' pre t post e k r o, C ⟨s, pre ++ t :: post⟩ (.resume pre.length o) →
      allowed t.history e → t.program = .perform e k → sys.exec s e o = some (r, s') →
      P s (pre ++ t :: post) → P s' (pre ++ t.answered e r (k r) :: post))
    (act : ∀ s ts a s', C ⟨s, ts⟩ (.act a) → sys.act s a = some s' → P s ts → P s' ts)
    (run : Run Step p₀ tr p) (cond : ∀ t ∈ tr, C t.1 t.2) : P p.state p.threads := by
  induction run with
  | start => exact hempty ▸ start
  | @step tr p c p' run h ih =>
    obtain ⟨hC, cond⟩ := List.forall_mem_cons.mp cond
    have hP := ih cond
    cases h.outcome with
    | spawned arg => exact spawn _ _ arg hP
    | @resumed pre t post e k o r s' hthreads hprogram hexec =>
      have ht : t ∈ p.threads := hthreads ▸ List.mem_append_right _ List.mem_cons_self
      have hallowed := allowed_of_run hmain hempty run ht (Thread.next_of_perform hprogram)
      obtain ⟨s, ts⟩ := p
      obtain rfl := hthreads
      exact resume _ _ _ _ _ _ _ _ _ hC hallowed hprogram hexec hP
    | acted hact => exact act _ _ _ _ hC hact hP

end Meets

/-! ### Following one thread -/

/-- The choice resumes the thread `i`. -/
def Resumes (i : ℕ) (c : Choice sys) : Prop := ∃ o, c = .resume i o

/-- What a step does to one thread: it resumes it, or leaves it as it is. -/
theorem Step.thread {p p' : Pool sys} {c : Choice sys} (h : p.Step c p') {i : ℕ}
    {t : Thread sys} (ht : p.threads[i]? = some t) :
    (¬ Resumes i c ∧ p'.threads[i]? = some t) ∨
      ∃ o e k r, c = .resume i o ∧ t.program = .perform e k ∧
        sys.exec p.state e o = some (r, p'.state) ∧
        p'.threads[i]? = some (t.answered e r (k r)) := by
  cases h.outcome with
  | spawned arg =>
    refine Or.inl ⟨by simp [Resumes], ?_⟩
    obtain ⟨hi, -⟩ := List.getElem?_eq_some_iff.mp ht
    exact (List.getElem?_append_left hi).trans ht
  | @resumed pre u post e k o r s' hthreads hprogram hexec =>
    rw [hthreads] at ht
    rcases Nat.lt_trichotomy i pre.length with hi | rfl | hi
    · rw [List.getElem?_append_left hi] at ht
      refine Or.inl ⟨?_, (List.getElem?_append_left hi).trans ht⟩
      simp only [Resumes, Choice.resume.injEq]
      omega
    · rw [getElem?_middle] at ht
      obtain rfl := Option.some.inj ht
      exact Or.inr ⟨o, e, k, r, rfl, hprogram, hexec, getElem?_middle _ _ _⟩
    · obtain ⟨j, hj⟩ := Nat.exists_eq_add_of_lt hi
      have hsub : i - pre.length = j + 1 := by omega
      rw [List.getElem?_append_right (Nat.le_of_lt hi), hsub] at ht
      refine Or.inl ⟨?_, ?_⟩
      · simp only [Resumes, Choice.resume.injEq]
        omega
      · rw [List.getElem?_append_right (Nat.le_of_lt hi), hsub]
        exact ht
  | acted hact => exact Or.inl ⟨by simp [Resumes], ht⟩

/-- **Following one thread** along a run whose steps meet `C`: a property of the pool and the thread
that the steps of the others and its own steps preserve. -/
theorem follow {P : Pool sys → Thread sys → Prop} {C : Choice sys → Prop} {i : ℕ}
    {t : Thread sys} (hi : p₀.threads[i]? = some t) (start : P p₀ t)
    (other : ∀ tr q c q' u, Run Step p₀ tr q → C c → q.Step c q' → ¬ Resumes i c →
      q.threads[i]? = some u → P q u → P q' u)
    (own : ∀ tr q o q' u e k r, Run Step p₀ tr q → q.threads[i]? = some u →
      u.program = .perform e k → sys.exec q.state e o = some (r, q'.state) → P q u →
      P q' (u.answered e r (k r)))
    (run : Run Step p₀ tr p) (cond : ∀ c ∈ tr, C c.2) :
    ∃ u, p.threads[i]? = some u ∧ P p u := by
  induction run with
  | start => exact ⟨t, hi, start⟩
  | step run h ih =>
    obtain ⟨hC, cond⟩ := List.forall_mem_cons.mp cond
    obtain ⟨u, hu, hP⟩ := ih cond
    rcases h.thread hu with ⟨hother, hu'⟩ | ⟨o, e, k, r, -, hprogram, hexec, hu'⟩
    · exact ⟨u, hu', other _ _ _ _ _ run hC h hother hu hP⟩
    · exact ⟨_, hu', own _ _ _ _ _ _ _ _ run hu hprogram hexec hP⟩

/-- The thread `t'` continues the thread `t`. -/
def Continues (t t' : Thread sys) : Prop := t'.arg = t.arg ∧ t.history <:+ t'.history

/-- A run continues every thread. -/
theorem continues_of_run (run : Run Step p₀ tr p) {i : ℕ} {t : Thread sys}
    (ht : p₀.threads[i]? = some t) : ∃ t', p.threads[i]? = some t' ∧ Continues t t' := by
  refine follow (P := fun _ => Continues t) (C := fun _ => True) ht ⟨rfl, List.suffix_refl _⟩
    (fun _ _ _ _ _ _ _ _ _ _ h => h) ?_ run fun _ _ => trivial
  rintro tr q o q' u e k r - - - - ⟨harg, hsuffix⟩
  exact ⟨harg, hsuffix.trans (List.suffix_cons _ _)⟩

/-- **A thread that runs alone comes to its end**, if the environment can answer every effect. -/
theorem exists_finish (htotal : ∀ s e, ∃ o rs, sys.exec s e o = some rs) (p : Pool sys) {i : ℕ}
    {t : Thread sys} (ht : p.threads[i]? = some t) :
    ∃ tr p' t' out, Run Step p tr p' ∧ (∀ c ∈ tr, Resumes i c.2) ∧ p'.threads[i]? = some t' ∧
      t'.outcome = some out := by
  obtain ⟨arg, h, program⟩ := t
  induction program generalizing p h with
  | ret a => exact ⟨[], p, _, .ok a, .start, by simp, ht, rfl⟩
  | raise x => exact ⟨[], p, _, .error x, .start, by simp, ht, rfl⟩
  | perform e k ih =>
    obtain ⟨o, ⟨r, s'⟩, hexec⟩ := htotal p.state e
    obtain ⟨hi, -⟩ := List.getElem?_eq_some_iff.mp ht
    have hresume : (⟨arg, h, .perform e k⟩ : Thread sys).resume p.state o =
        some (⟨arg, ⟨e, r⟩ :: h, k r⟩, s') := by
      dsimp only [Thread.resume]
      rw [hexec]
      rfl
    have hstep : p.Step (.resume i o) ⟨s', p.threads.set i ⟨arg, ⟨e, r⟩ :: h, k r⟩⟩ := by
      rw [Step, step, ht, Option.bind_some, hresume]
      rfl
    obtain ⟨tr, p', t', out, run, hresumes, ht', hout⟩ :=
      ih r ⟨s', p.threads.set i ⟨arg, ⟨e, r⟩ :: h, k r⟩⟩ (⟨e, r⟩ :: h)
        (List.getElem?_set_self hi)
    refine ⟨tr ++ [(p, .resume i o)], p', t', out, (Run.start.step hstep).trans run, ?_, ht', hout⟩
    intro c hc
    rcases List.mem_append.mp hc with hc | hc
    · exact hresumes c hc
    · obtain rfl := List.mem_singleton.mp hc
      exact ⟨o, rfl⟩

/-! ### Reachable pools -/

/-- The pool can be reached from the state `s₀`, with no thread started. -/
def Reachable (s₀ : sys.State) (p : Pool sys) : Prop := ∃ tr, Run Step ⟨s₀, []⟩ tr p

theorem Reachable.step {s₀ : sys.State} {p p' : Pool sys} {c : Choice sys} (hp : Reachable s₀ p)
    (h : p.Step c p') : Reachable s₀ p' := by
  obtain ⟨tr, run⟩ := hp
  exact ⟨_, run.step h⟩

end Pool

/-- No thread is ever blocked: in every reachable pool, the environment can answer the next effect
of every thread. -/
def System.Live (sys : System S) (s₀ : sys.State) : Prop :=
  ∀ ⦃p : Pool sys⦄, Pool.Reachable s₀ p → ∀ t ∈ p.threads, ∀ e, t.next = some e →
    ∃ o rs, sys.exec p.state e o = some rs

/-- Systems whose effects can always be answered. -/
theorem System.Live.of_exec {s₀ : sys.State} (htotal : ∀ s e, ∃ o rs, sys.exec s e o = some rs) :
    sys.Live s₀ :=
  fun p _ _ _ e _ => htotal p.state e

end Foundation
