import InferenceRouter.Foundation.Pool
import Mathlib.Logic.Relation

/-!
# One program among others

A program that runs on a shared state on which others act between its effects. What the others may
do is a relation on states, the *interference*; equality stands for a program that runs alone. A
run of the program lists what it has performed, each effect with the states before and after it,
and ends in the program that is left.

A condition on the program (`Program.Meets`) speaks about its history alone. Together with an
invariant of the shared state that the interference and the allowed effects preserve, it gives what
holds of such a run (`Program.Among.meets`). Every thread of a pool is a program among others, if
the interference covers the steps of the pool.

## Main definitions

* `Foundation.Performed`, `Foundation.history`.
* `Foundation.Program.Among`: a program among others.
* `Foundation.Program.eval`: a program that runs alone, with one oracle for all its effects.

## Main results

* `Foundation.Program.Among.meets`: conditions and invariants along a run.
* `Foundation.Program.Among.answered`: the history of a run leads to what is left of the program.
* `Foundation.Program.Among.of_bind`: the run of a sequential composition.
* `Foundation.Program.exists_among`: a program can run to its end.
* `Foundation.Pool.among_of_run`: a thread of a pool is a program among others.
-/

namespace Foundation

variable {S : Signature} {σ ω α β : Type}

/-- An effect that a program has performed, with the shared state before and after it. -/
structure Performed (S : Signature) (σ : Type) where
  before : σ
  event : Event S
  after : σ

/-- The history of what a program has performed. -/
def history (acts : List (Performed S σ)) : History S := (acts.map Performed.event).reverse

@[simp] theorem history_nil : history ([] : List (Performed S σ)) = [] := rfl

theorem history_cons (a : Performed S σ) (acts : List (Performed S σ)) :
    history (a :: acts) = history acts ++ [a.event] := by
  simp [history]

theorem history_append (acts acts' : List (Performed S σ)) :
    history (acts ++ acts') = history acts' ++ history acts := by
  simp [history]

namespace Program

section Among

variable (exec : σ → (e : S.Effect) → ω → Option (S.Reply e × σ)) (env : σ → σ → Prop)

/-- `Among exec env s p acts s' q`: the program `p`, started in the state `s` among others that
change the state as `env` allows before each of its effects and at the end, performs `acts`; the
state is then `s'` and the program `q` is left. -/
inductive Among : σ → Program S α → List (Performed S σ) → σ → Program S α → Prop
  | rest {s s' : σ} {p : Program S α} (henv : env s s') : Among s p [] s' p
  | perform {s s₁ s₂ s' : σ} {e : S.Effect} {k : S.Reply e → Program S α} {o : ω} {r : S.Reply e}
      {acts : List (Performed S σ)} {q : Program S α} (henv : env s s₁)
      (hexec : exec s₁ e o = some (r, s₂)) (among : Among s₂ (k r) acts s' q) :
      Among s (.perform e k) (⟨s₁, ⟨e, r⟩, s₂⟩ :: acts) s' q

namespace Among

variable {exec env} {s s' s'' : σ} {p q : Program S α} {acts : List (Performed S σ)}

/-- **Conditions and invariants along a run.** If the program meets a condition, and an invariant
of its history and the state is preserved by the interference and by every allowed effect, then
what is left of the program meets the condition and the invariant holds at the end; and what the
invariant implies of one effect holds of all that have been performed. -/
theorem meets {allowed : History S → S.Effect → Prop} {Q : History S → Except S.Exn α → Prop}
    {h : History S} {I : History S → σ → Prop} {R : Performed S σ → Prop}
    (among : Among exec env s p acts s' q) (hp : p.Meets allowed Q h) (hI : I h s)
    (henv : ∀ h s s', I h s → env s s' → I h s')
    (hexec : ∀ h s e o r s', I h s → allowed h e → exec s e o = some (r, s') →
      I (⟨e, r⟩ :: h) s' ∧ R ⟨s, ⟨e, r⟩, s'⟩) :
    q.Meets allowed Q (history acts ++ h) ∧ I (history acts ++ h) s' ∧ ∀ a ∈ acts, R a := by
  induction among generalizing h with
  | rest he => exact ⟨hp, henv _ _ _ hI he, by simp⟩
  | @perform s s₁ s₂ s' e k o r acts q he hex _ ih =>
    obtain ⟨hnext, hR⟩ := hexec h s₁ e o r s₂ (henv _ _ _ hI he) hp.1 hex
    obtain ⟨hq, hI', hacts⟩ := ih (hp.2 r) hnext
    rw [history_cons, List.append_assoc]
    exact ⟨hq, hI', List.forall_mem_cons.mpr ⟨hR, hacts⟩⟩

/-- The others may act once more at the end. -/
theorem trans_env (htrans : ∀ s s' s'', env s s' → env s' s'' → env s s'')
    (among : Among exec env s p acts s' q) (he : env s' s'') :
    Among exec env s p acts s'' q := by
  induction among with
  | rest he' => exact .rest (htrans _ _ _ he' he)
  | perform he' hex _ ih => exact .perform he' hex (ih he)

/-- The program performs one more effect. -/
theorem concat (hrefl : ∀ s, env s s) {e : S.Effect} {k : S.Reply e → Program S α} {o : ω}
    {r : S.Reply e} (among : Among exec env s p acts s' (.perform e k))
    (hex : exec s' e o = some (r, s'')) :
    Among exec env s p (acts ++ [⟨s', ⟨e, r⟩, s''⟩]) s'' (k r) := by
  generalize hq : Program.perform e k = q at among
  induction among with
  | rest he =>
    subst hq
    exact .perform he hex (.rest (hrefl _))
  | perform he hex' _ ih => exact .perform he hex' (ih hex hq)

/-- The history of a run leads to what is left of the program. -/
theorem answered (among : Among exec env s p acts s' q) : p.Answered (history acts) q := by
  induction among with
  | rest _ => exact .start
  | @perform _ _ _ _ e k _ r _ _ _ _ _ ih =>
    have hfirst : (Program.perform e k).Answered [⟨e, r⟩] (k r) := .answer r .start
    rw [history_cons]
    exact hfirst.trans ih

/-- A run whose own effects are among what the interference allows is interference itself. -/
theorem env_of_acts (htrans : ∀ s s' s'', env s s' → env s' s'' → env s s'')
    (among : Among exec env s p acts s' q) (hacts : ∀ a ∈ acts, env a.before a.after) :
    env s s' := by
  induction among with
  | rest he => exact he
  | perform he _ _ ih =>
    obtain ⟨hown, hacts⟩ := List.forall_mem_cons.mp hacts
    exact htrans _ _ _ he (htrans _ _ _ hown (ih hacts))

/-- **The run of a sequential composition** is one of its first part, or one that has led to the
result of the first part and one of what follows. -/
theorem of_bind (hrefl : ∀ s, env s s) {f : α → Program S β} {q : Program S β}
    (among : Among exec env s (p >>= f) acts s' q) :
    (∃ p', Among exec env s p acts s' p' ∧ q = (p' >>= f)) ∨
      ∃ a acts₁ acts₂ s₁, acts = acts₁ ++ acts₂ ∧ Among exec env s p acts₁ s₁ (.ret a) ∧
        Among exec env s₁ (f a) acts₂ s' q := by
  change Among exec env s (p.bind f) acts s' q at among
  induction p generalizing s acts with
  | ret a => exact Or.inr ⟨a, [], acts, s, rfl, .rest (hrefl s), among⟩
  | raise x =>
    cases among with
    | rest he => exact Or.inl ⟨_, .rest he, rfl⟩
  | perform e k ih =>
    cases among with
    | rest he => exact Or.inl ⟨_, .rest he, rfl⟩
    | @perform _ _ _ _ _ _ _ r _ _ he hex hrest =>
      rcases ih r hrest with ⟨p', hp', rfl⟩ | ⟨a, acts₁, acts₂, s₁, rfl, hfirst, hsecond⟩
      · exact Or.inl ⟨p', .perform he hex hp', rfl⟩
      · exact Or.inr ⟨a, _ :: acts₁, acts₂, s₁, rfl, .perform he hex hfirst, hsecond⟩

/-- A run of a sequential composition whose first part has returned. -/
theorem of_returned (hrefl : ∀ s, env s s) {f : α → Program S β} {q : Program S β}
    {h : History S} {a : α} (among : Among exec env s (p >>= f) acts s' q)
    (hreturned : p.Answered h (.ret a)) (hsuffix : h <:+ history acts) :
    ∃ acts₁ acts₂ s₁, acts = acts₁ ++ acts₂ ∧ h = history acts₁ ∧
      Among exec env s p acts₁ s₁ (.ret a) ∧ Among exec env s₁ (f a) acts₂ s' q := by
  rcases among.of_bind hrefl with
    ⟨p', hfirst, rfl⟩ | ⟨b, acts₁, acts₂, s₁, rfl, hfirst, hsecond⟩
  · obtain ⟨h', heq⟩ := hsuffix
    obtain ⟨rfl, rfl⟩ := hreturned.of_ret (heq ▸ hfirst.answered)
    exact ⟨acts, [], s', (List.append_nil _).symm, heq, hfirst, .rest (hrefl s')⟩
  · rw [history_append] at hsuffix
    obtain ⟨rfl, rfl⟩ := hreturned.ret_unique hfirst.answered hsuffix (List.suffix_append _ _)
    exact ⟨acts₁, acts₂, s₁, rfl, rfl, hfirst, hsecond⟩

end Among

end Among

/-! ### Running alone -/

/-- A program run alone from a state, with one oracle for all its effects: what it performs, the
state it leaves and its result, if every effect can be answered. -/
def eval (exec : σ → (e : S.Effect) → ω → Option (S.Reply e × σ)) (o : ω) :
    σ → Program S α → Option (List (Performed S σ) × σ × Except S.Exn α)
  | s, ret a => some ([], s, .ok a)
  | s, raise x => some ([], s, .error x)
  | s, perform e k =>
    (exec s e o).bind fun rs =>
      (eval exec o rs.2 (k rs.1)).map fun out => (⟨s, ⟨e, rs.1⟩, rs.2⟩ :: out.1, out.2)

variable {exec : σ → (e : S.Effect) → ω → Option (S.Reply e × σ)}

theorem among_of_eval {o : ω} {s s' : σ} {p : Program S α} {acts : List (Performed S σ)}
    {out : Except S.Exn α} (h : p.eval exec o s = some (acts, s', out)) :
    Among exec Eq s p acts s' (ofExcept out) := by
  induction p generalizing s acts with
  | ret a =>
    cases h
    exact .rest rfl
  | raise x =>
    cases h
    exact .rest rfl
  | perform e k ih =>
    obtain ⟨⟨r, s₁⟩, hexec, h⟩ := Option.bind_eq_some_iff.mp h
    obtain ⟨⟨acts, s', out⟩, heval, heq⟩ := Option.map_eq_some_iff.mp h
    cases heq
    exact .perform rfl hexec (ih r heval)

/-- A run of a program alone, found by executing it and testing what it does. -/
theorem exists_alone {P : List (Performed S σ) → Except S.Exn α → Prop}
    [∀ acts out, Decidable (P acts out)] {o : ω} {s : σ} {p : Program S α}
    (h : (p.eval exec o s).any (fun r => decide (P r.1 r.2.2)) = true) :
    ∃ acts s' out, Among exec Eq s p acts s' (ofExcept out) ∧ P acts out := by
  cases heval : p.eval exec o s with
  | none =>
    rw [heval] at h
    cases h
  | some r =>
    rw [heval] at h
    exact ⟨r.1, r.2.1, r.2.2, among_of_eval heval, of_decide_eq_true h⟩

/-- **A program can run to its end**, if every effect can be answered. -/
theorem exists_among {env : σ → σ → Prop} (hrefl : ∀ s, env s s)
    (htotal : ∀ s e, ∃ o rs, exec s e o = some rs) (s : σ) (p : Program S α) :
    ∃ acts s' out, Among exec env s p acts s' (ofExcept out) := by
  induction p generalizing s with
  | ret a => exact ⟨[], s, .ok a, .rest (hrefl s)⟩
  | raise x => exact ⟨[], s, .error x, .rest (hrefl s)⟩
  | perform e k ih =>
    obtain ⟨o, ⟨r, s₁⟩, hexec⟩ := htotal s e
    obtain ⟨acts, s', out, among⟩ := ih r s₁
    exact ⟨_, s', out, .perform (hrefl s) hexec among⟩

end Program

/-! ### Threads of a pool -/

namespace Pool

variable {sys : System S} {p p₀ : Pool sys} {tr : List (Pool sys × Choice sys)}
  {env : sys.State → sys.State → Prop} {C : Pool sys → Choice sys → Prop}

/-- What a run of a pool does to the state, if the interference covers its steps. -/
theorem env_of_run (hrefl : ∀ s, env s s)
    (htrans : ∀ s s' s'', env s s' → env s' s'' → env s s'')
    (hstep : ∀ q c q', C q c → q.Step c q' → env q.state q'.state)
    (run : Run Step p₀ tr p) (cond : ∀ t ∈ tr, C t.1 t.2) : env p₀.state p.state :=
  run.invariant (P := fun q => env p₀.state q.state) (hrefl _)
    (fun _ _ _ hq hC h => htrans _ _ _ hq (hstep _ _ _ hC h)) cond

/-- **A thread of a pool is a program among others**, if the interference covers the steps of the
pool. Its own effects are covered as well. -/
theorem among_of_run (hrefl : ∀ s, env s s)
    (htrans : ∀ s s' s'', env s s' → env s' s'' → env s s'')
    (hstep : ∀ q c q', C q c → q.Step c q' → env q.state q'.state) (hempty : p₀.threads = [])
    (run : Run Step p₀ tr p) (cond : ∀ t ∈ tr, C t.1 t.2) :
    ∀ t ∈ p.threads, ∃ s acts, env p₀.state s ∧
      Program.Among sys.exec env s (sys.main t.arg) acts p.state t.program ∧
      history acts = t.history ∧ ∀ a ∈ acts, env a.before a.after := by
  induction run with
  | start => simp [hempty]
  | @step tr p c p' run h ih =>
    obtain ⟨hC, hcond⟩ := List.forall_mem_cons.mp cond
    have hstart := env_of_run hrefl htrans hstep run hcond
    have hown := hstep _ _ _ hC h
    have hkept : ∀ t ∈ p.threads, ∃ s acts, env p₀.state s ∧
        Program.Among sys.exec env s (sys.main t.arg) acts p'.state t.program ∧
        history acts = t.history ∧ ∀ a ∈ acts, env a.before a.after := by
      intro t ht
      obtain ⟨s, acts, hs, among, hhistory, hacts⟩ := ih hcond t ht
      exact ⟨s, acts, hs, among.trans_env htrans hown, hhistory, hacts⟩
    cases h.outcome with
    | spawned arg =>
      refine List.forall_mem_append.mpr ⟨hkept, List.forall_mem_singleton.mpr ?_⟩
      exact ⟨p.state, [], hstart, .rest (hrefl _), rfl, by simp⟩
    | @resumed pre t post e k o r s' hthreads hprogram hexec =>
      rw [hthreads] at hkept
      refine forall_mem_replace hkept fun _ => ?_
      obtain ⟨s, acts, hs, among, hhistory, hacts⟩ :=
        ih hcond t (hthreads ▸ List.mem_append_right _ List.mem_cons_self)
      rw [hprogram] at among
      refine ⟨s, _, hs, among.concat hrefl hexec, ?_, ?_⟩
      · rw [history_append, hhistory]
        rfl
      · exact List.forall_mem_append.mpr ⟨hacts, List.forall_mem_singleton.mpr hown⟩
    | acted hact => exact hkept

end Pool

end Foundation
