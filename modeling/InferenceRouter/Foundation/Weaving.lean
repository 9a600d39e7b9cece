import InferenceRouter.Foundation.Implementation

/-!
# Histories of programs with implemented effects

The history of a program whose effects are implemented by routines is woven from one of the program
itself and from those of the routines: where the program calls a routine, there stand the events of
the routine. At every point of the history it can be said which routine is under way, what the
program has performed before it, and what the routine has performed so far.

## Main definitions

* `Foundation.Woven`: a history of a program, and one of its implementation.
* `Foundation.Nested`: where the implementation of a program stands when it performs an effect.
* `Foundation.innerEvents`: the events of the routines.

## Main results

* `Foundation.Program.implement_meets`: the implementation stands as `Nested` says.
-/

namespace Foundation

open Program

variable {S I : Signature} {α β : Type}

/-! ### The events of the routines -/

/-- The history of a routine, as a history over both signatures. -/
def lift (h : History I) : History (S.sum I) := h.map fun ev => ⟨.inr ev.effect, ev.reply⟩

/-- The events of the routines in a history over both signatures. -/
def innerEvents (g : History (S.sum I)) : History I :=
  g.filterMap fun ev => match ev with
    | ⟨.inl _, _⟩ => none
    | ⟨.inr e, r⟩ => some ⟨e, r⟩

@[simp] theorem innerEvents_nil : innerEvents ([] : History (S.sum I)) = [] := rfl

@[simp] theorem innerEvents_inl (e : S.Effect) (r : S.Reply e) (g : History (S.sum I)) :
    innerEvents (⟨.inl e, r⟩ :: g : History (S.sum I)) = innerEvents g := rfl

@[simp] theorem innerEvents_inr (e : I.Effect) (r : I.Reply e) (g : History (S.sum I)) :
    innerEvents (⟨.inr e, r⟩ :: g : History (S.sum I)) = ⟨e, r⟩ :: innerEvents g := rfl

@[simp] theorem innerEvents_lift_append (h : History I) (g : History (S.sum I)) :
    innerEvents (lift h ++ g) = h ++ innerEvents g := by
  induction h with
  | nil => rfl
  | cons ev h ih => exact congrArg (ev :: ·) ih

/-! ### Woven histories -/

/-- A history of a program, and one of its implementation: the calls of the routines are replaced
by the events of the routines. -/
inductive Woven (impl : Implementation S I β) : History S → History (S.sum I) → Prop
  | nil : Woven impl [] []
  | primitive {h : History S} {g : History (S.sum I)} {e : S.Effect} (r : S.Reply e)
      (hnone : impl e = none) (woven : Woven impl h g) :
      Woven impl (⟨e, r⟩ :: h) (⟨.inl e, r⟩ :: g)
  | routine {h : History S} {g : History (S.sum I)} {e : S.Effect}
      {routine : Routine I β (S.Reply e)} {h' : History I} {out : Except I.Exn β}
      (hsome : impl e = some routine) (answered : routine.body.Answered h' (Program.ofExcept out))
      (woven : Woven impl h g) :
      Woven impl (⟨e, routine.reply out⟩ :: h) (lift h' ++ g)

/-- Where the implementation of the program `p` stands after the history `g`, when it performs its
next effect: at a primitive effect of `p`, or inside a routine that `p` has called. -/
inductive Nested (impl : Implementation S I β) (p : Program S α) (g : History (S.sum I)) :
    S.Effect ⊕ I.Effect → Prop
  | outside {h : History S} {e : S.Effect} {k : S.Reply e → Program S α}
      (woven : Woven impl h g) (answered : p.Answered h (.perform e k)) : Nested impl p g (.inl e)
  | inside {h : History S} {e : S.Effect} {k : S.Reply e → Program S α} {g' : History (S.sum I)}
      {routine : Routine I β (S.Reply e)} {h' : History I} {e' : I.Effect}
      {k' : I.Reply e' → Program I β} (woven : Woven impl h g')
      (answered : p.Answered h (.perform e k)) (hsome : impl e = some routine)
      (hinside : routine.body.Answered h' (.perform e' k')) (hg : g = lift h' ++ g') :
      Nested impl p g (.inr e')

variable {impl : Implementation S I β} {p : Program S α}

/-- A program that calls no routine performs no events of routines. -/
theorem Woven.innerEvents_eq_nil {h : History S} {g : History (S.sum I)} (woven : Woven impl h g)
    (hnone : ∀ ev ∈ h, impl ev.effect = none) : innerEvents g = [] := by
  induction woven with
  | nil => rfl
  | primitive r _ _ ih => exact ih (List.forall_mem_cons.mp hnone).2
  | routine hsome =>
    rw [(List.forall_mem_cons.mp hnone).1] at hsome
    cases hsome

/-- The primitive effects of the program are those of its implementation. -/
theorem Woven.mem_of_none {h : History S} {g : History (S.sum I)} (woven : Woven impl h g)
    {e : S.Effect} {r : S.Reply e} (hnone : impl e = none) (hmem : ⟨e, r⟩ ∈ h) :
    (⟨.inl e, r⟩ : Event (S.sum I)) ∈ g := by
  induction woven with
  | nil => cases hmem
  | primitive r' _ _ ih =>
    rcases List.mem_cons.mp hmem with heq | hmem
    · cases heq
      exact List.mem_cons_self
    · exact List.mem_cons_of_mem _ (ih hmem)
  | routine hsome _ _ ih =>
    rcases List.mem_cons.mp hmem with heq | hmem
    · cases heq
      rw [hnone] at hsome
      cases hsome
    · exact List.mem_append_right _ (ih hmem)

/-- Every event of a routine belongs to a call that the program has performed. -/
theorem Woven.exists_call {h : History S} {g : History (S.sum I)} (woven : Woven impl h g)
    {ev : Event I} (hev : ev ∈ innerEvents g) :
    ∃ (e : S.Effect) (routine : Routine I β (S.Reply e)) (h' : History I) (out : Except I.Exn β),
      impl e = some routine ∧ routine.body.Answered h' (Program.ofExcept out) ∧
        ⟨e, routine.reply out⟩ ∈ h ∧ ev ∈ h' := by
  induction woven with
  | nil => cases hev
  | primitive r hnone woven ih =>
    obtain ⟨e, routine, h', out, hsome, answered, hmem, hev⟩ := ih hev
    exact ⟨e, routine, h', out, hsome, answered, List.mem_cons_of_mem _ hmem, hev⟩
  | @routine h g e routine h' out hsome answered woven ih =>
    rw [innerEvents_lift_append, List.mem_append] at hev
    rcases hev with hev | hev
    · exact ⟨e, routine, h', out, hsome, answered, List.mem_cons_self, hev⟩
    · obtain ⟨e, routine, h', out, hsome, answered, hmem, hev⟩ := ih hev
      exact ⟨e, routine, h', out, hsome, answered, List.mem_cons_of_mem _ hmem, hev⟩

/-! ### Where an implementation stands -/

section Meets

variable {Q : History (S.sum I) → Except S.Exn α → Prop} {h : History S}
  {g : History (S.sum I)}

/-- A routine that the program `p` has called, and that has come to `b`. -/
theorem Program.inside_meets {e : S.Effect} {k : S.Reply e → Program S α}
    {routine : Routine I β (S.Reply e)} (woven : Woven impl h g)
    (answered : p.Answered h (.perform e k)) (hsome : impl e = some routine)
    {f : Except I.Exn β → Program (S.sum I) α}
    (hnext : ∀ h' out, routine.body.Answered h' (Program.ofExcept out) →
      (f out).Meets (Nested impl p) Q (lift h' ++ g))
    {h' : History I} {b : Program I β} (hinside : routine.body.Answered h' b) :
    (b.inside f).Meets (Nested impl p) Q (lift h' ++ g) := by
  induction b generalizing h' with
  | ret a => exact hnext h' (.ok a) hinside
  | raise x => exact hnext h' (.error x) hinside
  | perform e' k' ih =>
    exact ⟨.inside woven answered hsome hinside rfl, fun (r : I.Reply e') =>
      ih r (hinside.answer r)⟩

/-- **The implementation of a program stands** as `Nested` says whenever it performs an effect, and
ends after a history that is woven from one of the program. -/
theorem Program.implement_meets (impl : Implementation S I β) (p : Program S α) :
    (p.implement impl).Meets (Nested impl p)
      (fun g out => ∃ h, Woven impl h g ∧ p.Answered h (Program.ofExcept out)) [] := by
  have hrest : ∀ (q : Program S α) {h g}, Woven impl h g → p.Answered h q →
      (q.implement impl).Meets (Nested impl p)
        (fun g out => ∃ h, Woven impl h g ∧ p.Answered h (Program.ofExcept out)) g := by
    intro q
    induction q with
    | ret a => exact fun woven answered => ⟨_, woven, answered⟩
    | raise x => exact fun woven answered => ⟨_, woven, answered⟩
    | perform e k ih =>
      intro h g woven answered
      cases himpl : impl e with
      | none =>
        rw [implement_of_none himpl]
        exact ⟨.outside woven answered, fun (r : S.Reply e) =>
          ih r (woven.primitive r himpl) (answered.answer r)⟩
      | some routine =>
        rw [implement_of_some himpl]
        exact inside_meets woven answered himpl
          (fun h' out hran => ih _ (woven.routine himpl hran) (answered.answer _)) .start
  exact hrest p .nil .start

end Meets

end Foundation
