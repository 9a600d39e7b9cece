import InferenceRouter.Foundation.Pool
import Mathlib.Data.List.Forall2

/-!
# Implementing effects by programs

Some effects of a signature are not primitive: they are calls of routines, which are programs over
a signature of their own and whose results are read as the replies of the effects. A program whose
effects are implemented in this way performs the effects of both signatures, and other threads may
act between any two effects of a routine.

The system with the implemented effects refines the one in which they are primitive, if every
routine keeps to a contract on its replies: each run of the first is matched by a run of the second
over the same states, in which the effects that stand for routines are answered within the
contract, at the moment at which the routine ends.

## Main definitions

* `Foundation.Routine`, `Foundation.Implementation`, `Foundation.Program.implement`.
* `Foundation.Device`, `Foundation.System.implement`: the system with the implemented effects.
* `Foundation.Stands`: where a program stands in its implementation.
* `Foundation.Pool.Matches`: a pool of the system, and one of its implementation.

## Main results

* `Foundation.Pool.exists_matching`: **the implementation refines the system**.
-/

namespace Foundation

/-! ### Programs with implemented effects -/

/-- The effects of two signatures side by side, with the exceptions of the first one. -/
@[reducible] def Signature.sum (S I : Signature) : Signature where
  Effect := S.Effect ⊕ I.Effect
  Reply
    | .inl e => S.Reply e
    | .inr e => I.Reply e
  Exn := S.Exn

/-- A program over `I` with results of the type `β`, and how its outcome is read as a reply of the
type `ρ`. -/
structure Routine (I : Signature) (β ρ : Type) where
  body : Program I β
  reply : Except I.Exn β → ρ

/-- The routines of the effects that are not primitive. -/
abbrev Implementation (S I : Signature) (β : Type) :=
  (e : S.Effect) → Option (Routine I β (S.Reply e))

variable {S I : Signature} {α β : Type}

namespace Program

/-- A routine inside a program that goes on with its outcome. -/
def inside : Program I β → (Except I.Exn β → Program (S.sum I) α) → Program (S.sum I) α
  | ret b, f => f (.ok b)
  | raise x, f => f (.error x)
  | perform e k, f => perform (S := S.sum I) (.inr e) fun r => (k r).inside f

/-- A program whose effects are implemented. -/
def implement (impl : Implementation S I β) : Program S α → Program (S.sum I) α
  | ret a => ret a
  | raise x => raise (S := S.sum I) x
  | perform e k =>
    match impl e with
    | none => perform (S := S.sum I) (.inl e) fun r => (k r).implement impl
    | some routine => routine.body.inside fun out => (k (routine.reply out)).implement impl

variable {impl : Implementation S I β} {e : S.Effect} {k : S.Reply e → Program S α}

theorem implement_of_none (hnone : impl e = none) :
    (perform e k).implement impl =
      perform (S := S.sum I) (.inl e) fun r => (k r).implement impl := by
  rw [implement, hnone]

theorem implement_of_some {routine : Routine I β (S.Reply e)} (hsome : impl e = some routine) :
    (perform e k).implement impl =
      routine.body.inside fun out => (k (routine.reply out)).implement impl := by
  rw [implement, hsome]

end Program

open Program

/-- Where a program stands in its implementation: it has ended, it performs a primitive effect
next, or it waits for a routine that has been answered as the history `h` says, which has the
property `J`. -/
inductive Stands (impl : Implementation S I β) (J : History I → Prop) :
    Program S α → Program (S.sum I) α → Prop
  | ret (a : α) : Stands impl J (.ret a) (.ret a)
  | raise (x : S.Exn) : Stands impl J (.raise x) (.raise (S := S.sum I) x)
  | primitive {e : S.Effect} {k : S.Reply e → Program S α} (hnone : impl e = none) :
      Stands impl J (.perform e k)
        (.perform (S := S.sum I) (.inl e) fun r => (k r).implement impl)
  | inside {e : S.Effect} {k : S.Reply e → Program S α} {routine : Routine I β (S.Reply e)}
      {h : History I} {e' : I.Effect} {k' : I.Reply e' → Program I β}
      (hsome : impl e = some routine) (answered : routine.body.Answered h (.perform e' k'))
      (hJ : J h) :
      Stands impl J (.perform e k) (.perform (S := S.sum I) (.inr e') fun r =>
        (k' r).inside fun out => (k (routine.reply out)).implement impl)

theorem Stands.mono {impl : Implementation S I β} {J J' : History I → Prop} {p : Program S α}
    {q : Program (S.sum I) α} (h : Stands impl J p q) (himp : ∀ h, J h → J' h) :
    Stands impl J' p q := by
  cases h with
  | ret a => exact .ret a
  | raise x => exact .raise x
  | primitive hnone => exact .primitive hnone
  | inside hsome answered hJ => exact .inside hsome answered (himp _ hJ)

/-! ### Systems with implemented effects -/

/-- What answers the effects of the routines. -/
structure Device (I : Signature) where
  State : Type
  Oracle : Type
  exec : State → (e : I.Effect) → Oracle → Option (I.Reply e × State)

/-- A property of the state of a device and the history of a routine that the effects of this
routine and of the others keep, as long as their events meet a condition. -/
structure Device.Keeps (dev : Device I) (C : Event I → Prop) (K : dev.State → History I → Prop) :
    Prop where
  start : ∀ d, K d []
  own : ∀ {d h e o r d'}, K d h → C ⟨e, r⟩ → dev.exec d e o = some (r, d') → K d' (⟨e, r⟩ :: h)
  other : ∀ {d h e o r d'}, K d h → dev.exec d e o = some (r, d') → K d' h

/-- A system with some of its effects implemented by routines on a device. -/
@[reducible] def System.implement (sys : System S) (impl : Implementation S I β) (dev : Device I) :
    System (S.sum I) where
  State := sys.State × dev.State
  Arg := sys.Arg
  Out := sys.Out
  Oracle := sys.Oracle × dev.Oracle
  Action := sys.Action
  main arg := (sys.main arg).implement impl
  exec
    | s, .inl e, o => (sys.exec s.1 e o.1).map fun rs => (rs.1, rs.2, s.2)
    | s, .inr e, o => (dev.exec s.2 e o.2).map fun rs => (rs.1, s.1, rs.2)
  act s a := (sys.act s.1 a).map fun s' => (s', s.2)

/-- The events of a history whose effects are primitive. -/
def primitive (impl : Implementation S I β) (h : History S) : History S :=
  h.filter fun ev => (impl ev.effect).isNone

/-- The events of the first signature in a history over both. -/
def outer (h : History (S.sum I)) : History S :=
  h.filterMap fun ev => match ev with
    | ⟨.inl e, r⟩ => some ⟨e, r⟩
    | ⟨.inr _, _⟩ => none

/-- If the event is one of a routine, it meets a condition. -/
def Inner (C : Event I → Prop) : Event (S.sum I) → Prop
  | ⟨.inl _, _⟩ => True
  | ⟨.inr e, r⟩ => C ⟨e, r⟩

instance (C : Event I → Prop) [DecidablePred C] : DecidablePred (Inner (S := S) C)
  | ⟨.inl _, _⟩ => inferInstanceAs (Decidable True)
  | ⟨.inr e, r⟩ => inferInstanceAs (Decidable (C ⟨e, r⟩))

/-- The events of the routines in a history over both signatures meet a condition. -/
def InnerMeet (C : Event I → Prop) (h : History (S.sum I)) : Prop := ∀ ev ∈ h, Inner C ev

instance (C : Event I → Prop) [DecidablePred C] (h : History (S.sum I)) :
    Decidable (InnerMeet C h) :=
  inferInstanceAs (Decidable (∀ ev ∈ h, _))

variable {sys : System S} {impl : Implementation S I β} {dev : Device I}
  {contract : (e : S.Effect) → S.Reply e → Prop} {C : Event I → Prop}
  {K : dev.State → History I → Prop}

/-- A history in which the effects that stand for routines are answered within the contract. -/
def Honored (impl : Implementation S I β) (contract : (e : S.Effect) → S.Reply e → Prop)
    (h : History S) : Prop :=
  ∀ ev ∈ h, (impl ev.effect).isSome → contract ev.effect ev.reply

/-- A thread of the system, and one of its implementation that has come as far. -/
structure Thread.Matches (contract : (e : S.Effect) → S.Reply e → Prop) (J : History I → Prop)
    (t : Thread sys) (u : Thread (sys.implement impl dev)) : Prop where
  arg : u.arg = t.arg
  stands : Stands impl J t.program u.program
  honored : Honored impl contract t.history
  primitive : primitive impl t.history = outer u.history

/-- A thread has ended exactly if its implementation has, with the same result. -/
theorem Thread.Matches.outcome {J : History I → Prop} {t : Thread sys}
    {u : Thread (sys.implement impl dev)} (h : t.Matches contract J u) :
    u.outcome = t.outcome := by
  have hstands := h.stands
  unfold Thread.outcome
  generalize t.program = p, u.program = q at hstands
  cases hstands <;> rfl

theorem Thread.Matches.mono {J J' : History I → Prop} {t : Thread sys}
    {u : Thread (sys.implement impl dev)} (h : t.Matches contract J u)
    (himp : ∀ h, J h → J' h) : t.Matches contract J' u :=
  ⟨h.arg, h.stands.mono himp, h.honored, h.primitive⟩

/-- A pool of the system, and one of its implementation that has come as far. -/
structure Pool.Matches (contract : (e : S.Effect) → S.Reply e → Prop)
    (K : dev.State → History I → Prop) (p : Pool sys) (q : Pool (sys.implement impl dev)) :
    Prop where
  state : q.state.1 = p.state
  threads : List.Forall₂ (Thread.Matches contract (K q.state.2)) p.threads q.threads

/-- The thread of the implementation that matches a thread of the system. -/
theorem Pool.Matches.getElem? {p : Pool sys} {q : Pool (sys.implement impl dev)}
    (hm : p.Matches contract K q) {i : ℕ} {t : Thread sys} (ht : p.threads[i]? = some t) :
    ∃ u, q.threads[i]? = some u ∧ t.Matches contract (K q.state.2) u := by
  obtain ⟨hlength, hget⟩ := List.forall₂_iff_get.mp hm.threads
  obtain ⟨hi, rfl⟩ := List.getElem?_eq_some_iff.mp ht
  have hi' : i < q.threads.length := hlength ▸ hi
  exact ⟨_, List.getElem?_eq_getElem hi', hget i hi hi'⟩

/-- The thread of the system that a thread of the implementation matches. -/
theorem Pool.Matches.getElem?' {p : Pool sys} {q : Pool (sys.implement impl dev)}
    (hm : p.Matches contract K q) {i : ℕ} {u : Thread (sys.implement impl dev)}
    (hu : q.threads[i]? = some u) :
    ∃ t, p.threads[i]? = some t ∧ t.Matches contract (K q.state.2) u := by
  obtain ⟨hlength, hget⟩ := List.forall₂_iff_get.mp hm.threads
  obtain ⟨hi, rfl⟩ := List.getElem?_eq_some_iff.mp hu
  have hi' : i < p.threads.length := hlength.symm ▸ hi
  exact ⟨_, List.getElem?_eq_getElem hi', hget i hi' hi⟩

/-- The threads of the implementation have ended exactly where those of the system have, with the
same results. -/
theorem Pool.Matches.map_outcome {p : Pool sys} {q : Pool (sys.implement impl dev)}
    (hm : p.Matches contract K q) :
    q.threads.map Thread.outcome = p.threads.map Thread.outcome := by
  have hthreads := hm.threads
  generalize p.threads = ts, q.threads = us at hthreads
  induction hthreads with
  | nil => rfl
  | cons h _ ih => rw [List.map_cons, List.map_cons, ih, h.outcome]

/-- The routines keep to the contract if their histories have the property `K`, which the device
keeps if their events meet `C`, and the system can answer the effects that stand for them with any
reply within the contract, if it can answer them at all. That changes nothing. -/
structure Implementation.Fulfils (impl : Implementation S I β) (sys : System S)
    (dev : Device I) (contract : (e : S.Effect) → S.Reply e → Prop) (C : Event I → Prop)
    (K : dev.State → History I → Prop) : Prop where
  keeps : dev.Keeps C K
  meets : ∀ e routine, impl e = some routine → routine.body.Meets (fun _ _ => True)
    (fun h out => (∃ d, K d h) → contract e (routine.reply out)) []
  answers : ∀ s e r, (impl e).isSome → contract e r → (∃ o rs, sys.exec s e o = some rs) →
    ∃ o, sys.exec s e o = some (r, s)

/-! ### Matching the steps -/

theorem Honored.cons {h : History S} (hh : Honored impl contract h) {e : S.Effect}
    {r : S.Reply e} (hr : (impl e).isSome → contract e r) :
    Honored impl contract (⟨e, r⟩ :: h) :=
  List.forall_mem_cons.mpr ⟨hr, hh⟩

theorem primitive_cons_of_some {e : S.Effect} (hsome : (impl e).isSome) (r : S.Reply e)
    (h : History S) : primitive impl (⟨e, r⟩ :: h) = primitive impl h :=
  List.filter_cons_of_neg (by simpa using Option.isSome_iff_ne_none.mp hsome)

theorem primitive_cons_of_none {e : S.Effect} (hnone : impl e = none) (r : S.Reply e)
    (h : History S) : primitive impl (⟨e, r⟩ :: h) = ⟨e, r⟩ :: primitive impl h :=
  List.filter_cons_of_pos (by simp [hnone])

/-- A thread that goes on to a program standing as the given one does: the effects that it answers
on its way stand for routines. -/
def Reaches (impl : Implementation S I β) (contract : (e : S.Effect) → S.Reply e → Prop)
    (J : History I → Prop) (t : Thread sys) (pre post : List (Thread sys)) (s : sys.State)
    (q : Program (S.sum I) sys.Out) : Prop :=
  ∃ tr t', Run Pool.Step ⟨s, pre ++ t :: post⟩ tr ⟨s, pre ++ t' :: post⟩ ∧ t'.arg = t.arg ∧
    Stands impl J t'.program q ∧
    (Honored impl contract t.history → Honored impl contract t'.history) ∧
    primitive impl t'.history = primitive impl t.history

variable {t : Thread sys} {pre post : List (Thread sys)} {s s₀ : sys.State} {d : dev.State}

/-- A thread that stands there already. -/
theorem Reaches.of_stands {q : Program (S.sum I) sys.Out}
    (hstands : Stands impl (K d) t.program q) : Reaches impl contract (K d) t pre post s q :=
  ⟨[], t, .start, rfl, hstands, id, rfl⟩

/-- The effect of a routine that has ended is answered with its outcome. -/
theorem Reaches.answer (hf : impl.Fulfils sys dev contract C K) (hlive : sys.Live s₀)
    (reachable : Pool.Reachable s₀ ⟨s, pre ++ t :: post⟩) {e : S.Effect}
    {k : S.Reply e → Program S sys.Out} (hprogram : t.program = .perform e k)
    (hsome : (impl e).isSome) {r : S.Reply e} (hr : contract e r) {q : Program (S.sum I) sys.Out}
    (hnext : Pool.Reachable s₀ ⟨s, pre ++ t.answered e r (k r) :: post⟩ →
      Reaches impl contract (K d) (t.answered e r (k r)) pre post s q) :
    Reaches impl contract (K d) t pre post s q := by
  have ht : t ∈ pre ++ t :: post := List.mem_append_right _ List.mem_cons_self
  have hready := hlive reachable t ht e (Thread.next_of_perform hprogram)
  obtain ⟨o, hexec⟩ := hf.answers s e r hsome hr hready
  have hstep : Pool.Step ⟨s, pre ++ t :: post⟩ (.resume pre.length o)
      ⟨s, pre ++ t.answered e r (k r) :: post⟩ :=
    (Pool.Outcome.resumed rfl hprogram hexec).step
  obtain ⟨tr, t', run, harg, hstands, hhonored, hprimitive⟩ := hnext (reachable.step hstep)
  refine ⟨_, t', (Run.start.step hstep).trans run, harg, hstands, fun hh => ?_, ?_⟩
  · exact hhonored (hh.cons fun _ => hr)
  · exact hprimitive.trans (primitive_cons_of_some hsome r _)

/-- A thread inside a routine that has been answered as the history `h` says, and that goes on as
`q` does. If the routine has ended, the thread takes its outcome. -/
theorem Reaches.inside (hf : impl.Fulfils sys dev contract C K) (hlive : sys.Live s₀)
    (reachable : Pool.Reachable s₀ ⟨s, pre ++ t :: post⟩) {e : S.Effect}
    {k : S.Reply e → Program S sys.Out} (hprogram : t.program = .perform e k)
    {routine : Routine I β (S.Reply e)} (hsome : impl e = some routine) {h : History I}
    {q : Program I β} (answered : routine.body.Answered h q) (hK : K d h)
    (hnext : ∀ r, Pool.Reachable s₀ ⟨s, pre ++ t.answered e r (k r) :: post⟩ →
      Reaches impl contract (K d) (t.answered e r (k r)) pre post s ((k r).implement impl)) :
    Reaches impl contract (K d) t pre post s
      (q.inside fun out => (k (routine.reply out)).implement impl) := by
  have hmeets := answered.meets (hf.meets e routine hsome)
  have hcontract : ∀ out, ((∃ d, K d h) → contract e (routine.reply out)) →
      contract e (routine.reply out) := fun out hc => hc ⟨d, hK⟩
  have hisSome : (impl e).isSome := by rw [hsome]; rfl
  cases q with
  | ret b => exact .answer hf hlive reachable hprogram hisSome (hcontract _ hmeets) (hnext _)
  | raise x => exact .answer hf hlive reachable hprogram hisSome (hcontract _ hmeets) (hnext _)
  | perform e' k' =>
    refine .of_stands ?_
    rw [hprogram]
    exact .inside hsome answered hK

/-- **A thread goes on to where its implementation stands**: it answers the effects whose routines
end without performing anything. -/
theorem Reaches.implement (hf : impl.Fulfils sys dev contract C K) (hlive : sys.Live s₀)
    (reachable : Pool.Reachable s₀ ⟨s, pre ++ t :: post⟩) {p : Program S sys.Out}
    (hprogram : t.program = p) : Reaches impl contract (K d) t pre post s (p.implement impl) := by
  induction p generalizing t with
  | ret a =>
    refine .of_stands ?_
    rw [hprogram]
    exact .ret a
  | raise x =>
    refine .of_stands ?_
    rw [hprogram]
    exact .raise x
  | perform e k ih =>
    cases himpl : impl e with
    | none =>
      refine .of_stands ?_
      rw [hprogram, implement_of_none himpl]
      exact .primitive himpl
    | some routine =>
      rw [implement_of_some himpl]
      exact .inside hf hlive reachable hprogram himpl .start (hf.keeps.start d)
        fun r reachable => ih r reachable rfl

/-- Where a program stands whose implementation performs a primitive effect. -/
theorem Stands.of_inl {J : History I → Prop} {p : Program S α} {e : S.Effect}
    {k : S.Reply e → Program (S.sum I) α}
    (h : Stands impl J p (.perform (S := S.sum I) (.inl e) k)) :
    ∃ k₀, impl e = none ∧ p = .perform e k₀ ∧ k = fun r => (k₀ r).implement impl := by
  cases h with
  | primitive hnone => exact ⟨_, hnone, rfl, rfl⟩

/-- Where a program stands whose implementation performs an effect of a routine. -/
theorem Stands.of_inr {J : History I → Prop} {p : Program S α} {e' : I.Effect}
    {k : I.Reply e' → Program (S.sum I) α}
    (h : Stands impl J p (.perform (S := S.sum I) (.inr e') k)) :
    ∃ e k₀ routine h k', impl e = some routine ∧ p = .perform e k₀ ∧
      routine.body.Answered h (.perform e' k') ∧ J h ∧
      k = fun r => (k' r).inside fun out => (k₀ (routine.reply out)).implement impl := by
  cases h with
  | inside hsome answered hJ => exact ⟨_, _, _, _, _, hsome, rfl, answered, hJ, rfl⟩

namespace Pool

variable {p : Pool sys} {q q' : Pool (sys.implement impl dev)}
  {c : Choice (sys.implement impl dev)}

/-- **One step of the implementation** is matched by steps of the system. -/
theorem Matches.step (hf : impl.Fulfils sys dev contract C K) {s₀ : sys.State}
    (hlive : sys.Live s₀) (reachable : Reachable s₀ p) (hm : p.Matches contract K q)
    (h : q.Step c q') (hC : ∀ u ∈ q'.threads, InnerMeet C u.history) :
    ∃ tr p', Run Step p tr p' ∧ p'.Matches contract K q' := by
  obtain ⟨s, ts⟩ := p
  obtain ⟨hstate, hthreads⟩ := hm
  dsimp only at hstate hthreads
  cases h.outcome with
  | spawned arg =>
    have hspawn : Step ⟨s, ts⟩ (.spawn arg) ⟨s, ts ++ [(Thread.start arg : Thread sys)]⟩ := rfl
    have hreaches : Reaches impl contract (K q.state.2) (Thread.start arg : Thread sys) ts [] s _ :=
      .implement hf hlive (reachable.step hspawn) rfl
    obtain ⟨tr, t', run, harg, hstands, hhonored, hprimitive⟩ := hreaches
    refine ⟨_, _, (Run.start.step hspawn).trans run, hstate, ?_⟩
    exact forall₂_replace hthreads
      ⟨harg.symm, hstands, hhonored (by simp [Honored, Thread.start]), hprimitive⟩ .nil
  | @resumed pre u post e k o r s' hsplit hprogram hexec =>
    rw [hsplit] at hthreads
    obtain ⟨pre', t, post', rfl, hpre, ht, hpost⟩ := exists_split hthreads
    have hstands := ht.stands
    rw [hprogram] at hstands
    cases e with
    | inl e =>
      obtain ⟨k₀, hnone, hp, rfl⟩ := hstands.of_inl
      obtain ⟨⟨r', s₁⟩, hsys, heq⟩ := Option.map_eq_some_iff.mp hexec
      cases heq
      rw [hstate] at hsys
      have hstep : Step ⟨s, pre' ++ t :: post'⟩ (.resume pre'.length o.1)
          ⟨s₁, pre' ++ t.answered e r' (k₀ r') :: post'⟩ := (Outcome.resumed rfl hp hsys).step
      have hreaches : Reaches impl contract (K q.state.2) (t.answered e r' (k₀ r')) pre' post' s₁
          _ := .implement hf hlive (reachable.step hstep) rfl
      obtain ⟨tr, t', run, harg, hstands', hhonored, hprimitive⟩ := hreaches
      refine ⟨_, _, (Run.start.step hstep).trans run, rfl,
        forall₂_replace hpre ⟨ht.arg.trans harg.symm, hstands', hhonored ?_, ?_⟩ hpost⟩
      · exact ht.honored.cons fun hsome => by rw [hnone] at hsome; cases hsome
      · exact hprimitive.trans (primitive_cons_of_none hnone r' _ ▸ congrArg _ ht.primitive)
    | inr e' =>
      obtain ⟨e, k₀, routine, h, k', hsome, hp, answered, hK, rfl⟩ := hstands.of_inr
      obtain ⟨⟨r', d'⟩, hdev, heq⟩ := Option.map_eq_some_iff.mp hexec
      cases heq
      have hkept : ∀ h, K q.state.2 h → K d' h := fun _ hh => hf.keeps.other hh hdev
      have hCe : C ⟨e', r'⟩ :=
        hC _ (List.mem_append_right _ List.mem_cons_self) _ List.mem_cons_self
      have hreaches : Reaches impl contract (K d') t pre' post' s _ :=
        .inside hf hlive reachable hp hsome (answered.answer r') (hf.keeps.own hK hCe hdev)
          fun r reachable => .implement hf hlive reachable rfl
      obtain ⟨tr, t', run, harg, hstands', hhonored, hprimitive⟩ := hreaches
      exact ⟨_, _, run, hstate, forall₂_replace (hpre.imp fun _ _ ht => ht.mono hkept)
        ⟨ht.arg.trans harg.symm, hstands', hhonored ht.honored, hprimitive.trans ht.primitive⟩
        (hpost.imp fun _ _ ht => ht.mono hkept)⟩
  | @acted a s' hact =>
    obtain ⟨s₁, hsys, rfl⟩ := Option.map_eq_some_iff.mp hact
    rw [hstate] at hsys
    exact ⟨_, _, Run.start.step (Outcome.acted hsys).step, rfl, hthreads⟩

/-- A step only adds to the histories of the threads. -/
theorem innerMeet_of_step (h : q.Step c q') (hC : ∀ u ∈ q'.threads, InnerMeet C u.history) :
    ∀ u ∈ q.threads, InnerMeet C u.history := by
  intro u hu
  obtain ⟨i, hi⟩ := List.mem_iff_getElem?.mp hu
  obtain ⟨u', hu', -, hsuffix⟩ := continues_of_run (Run.start.step h) hi
  exact fun ev hev => hC u' (List.mem_of_getElem? hu') ev (hsuffix.subset hev)

/-- **The implementation refines the system**, if no thread of the system is ever blocked. Every run
of the implementation from an empty pool in which the events of the routines meet `C` is matched by
a run of the system: it ends in the same state, every thread has come as far and has the same result
if it has ended, it has performed the same primitive effects, and the effects that stand for
routines are answered within the contract. -/
theorem exists_matching (hf : impl.Fulfils sys dev contract C K) {s₀ : sys.State} {d₀ : dev.State}
    (hlive : sys.Live s₀)
    {tr : List (Pool (sys.implement impl dev) × Choice (sys.implement impl dev))}
    (run : Run Step ⟨(s₀, d₀), []⟩ tr q) (hC : ∀ u ∈ q.threads, InnerMeet C u.history) :
    ∃ tr' p, Run Step (⟨s₀, []⟩ : Pool sys) tr' p ∧ p.Matches contract K q := by
  induction run with
  | start => exact ⟨[], _, .start, rfl, .nil⟩
  | step _ h ih =>
    obtain ⟨tr', p, run, hm⟩ := ih (innerMeet_of_step h hC)
    obtain ⟨tr'', p', run', hm'⟩ := hm.step hf hlive ⟨_, run⟩ h hC
    exact ⟨_, p', run.trans run', hm'⟩

end Pool

end Foundation
