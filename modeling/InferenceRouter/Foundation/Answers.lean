import InferenceRouter.Foundation.Program

/-!
# What a history tells about a program

The answers in a history determine where a program stands. A program that has been answered as a
history says splits like the history, and a sequential composition is either still in its first
part or has left it with a result.

## Main definitions

* `Foundation.Program.Answered`: a program has been answered as a history says.
* `Foundation.Program.Only`: all effects of a program are of one kind.

## Main results

* `Foundation.Program.Answered.unique`, `Foundation.Program.Answered.split`.
* `Foundation.Program.Answered.of_bind`: the history of a sequential composition.
* `Foundation.Program.Answered.exists_allowed`: what a condition says about a history.
-/

namespace Foundation

variable {S : Signature} {α β : Type}

namespace Program

/-- `Answered p h q`: answered as the history `h` says, the program `p` has come to `q`. -/
inductive Answered (p : Program S α) : History S → Program S α → Prop
  | start : Answered p [] p
  | answer {h : History S} {e : S.Effect} {k : S.Reply e → Program S α} (r : S.Reply e)
      (answered : Answered p h (.perform e k)) : Answered p (⟨e, r⟩ :: h) (k r)

namespace Answered

variable {p q q' : Program S α} {h h' : History S}

theorem trans (answered : Answered p h q) (answered' : Answered q h' q') :
    Answered p (h' ++ h) q' := by
  induction answered' with
  | start => exact answered
  | answer r _ ih => exact ih.answer r

/-- A history, split at one of its points. -/
theorem split (answered : Answered p (h' ++ h) q) :
    ∃ q₀, Answered p h q₀ ∧ Answered q₀ h' q := by
  induction h' generalizing q with
  | nil => exact ⟨q, answered, .start⟩
  | cons ev h' ih =>
    cases answered with
    | answer r answered =>
      obtain ⟨q₀, hfirst, hsecond⟩ := ih answered
      exact ⟨q₀, hfirst, hsecond.answer r⟩

/-- **The history determines where a program stands.** -/
theorem unique (answered : Answered p h q) (answered' : Answered p h q') : q = q' := by
  induction answered generalizing q' with
  | start =>
    cases answered'
    rfl
  | answer r _ ih =>
    cases answered' with
    | answer _ answered' =>
      cases ih answered'
      rfl

/-- A program that has ended is not answered any more. -/
theorem of_ofExcept (out : Except S.Exn α) (answered : Answered (ofExcept out) h q) :
    h = [] ∧ q = ofExcept out := by
  induction answered with
  | start => exact ⟨rfl, rfl⟩
  | answer r _ ih =>
    obtain ⟨-, heq⟩ := ih
    cases out with
    | ok a => cases heq
    | error x => cases heq

/-- A program that has returned is not answered any more. -/
theorem of_ret {a : α} (answered : Answered p h (.ret a)) (answered' : Answered p (h' ++ h) q) :
    h' = [] ∧ q = .ret a := by
  obtain ⟨q₀, hfirst, hsecond⟩ := answered'.split
  obtain rfl := hfirst.unique answered
  exact of_ofExcept (.ok a) hsecond

/-- **A program returns once** in a history. -/
theorem ret_unique {h₀ : History S} {a b : α} (answered : Answered p h (.ret a))
    (answered' : Answered p h' (.ret b)) (hsuffix : h <:+ h₀) (hsuffix' : h' <:+ h₀) :
    h = h' ∧ a = b := by
  rcases List.suffix_or_suffix_of_suffix hsuffix hsuffix' with ⟨later, rfl⟩ | ⟨later, rfl⟩
  · obtain ⟨rfl, heq⟩ := answered.of_ret answered'
    cases heq
    exact ⟨rfl, rfl⟩
  · obtain ⟨rfl, heq⟩ := answered'.of_ret answered
    cases heq
    exact ⟨rfl, rfl⟩

/-- The first effect of a program. -/
theorem of_perform {e : S.Effect} {k : S.Reply e → Program S α}
    (answered : Answered (.perform e k) h q) :
    h = [] ∨ ∃ r h', h = h' ++ [⟨e, r⟩] ∧ Answered (k r) h' q := by
  induction answered with
  | start => exact Or.inl rfl
  | answer r answered ih =>
    rcases ih with rfl | ⟨r', h', rfl, hrest⟩
    · cases answered
      exact Or.inr ⟨r, [], rfl, .start⟩
    · exact Or.inr ⟨r', _ :: h', rfl, hrest.answer r⟩

/-- **The history of a sequential composition** is one of its first part, or one that has led to
the result of the first part and one of what follows. -/
theorem of_bind {p : Program S α} {f : α → Program S β} {q : Program S β}
    (answered : Answered (p >>= f) h q) :
    (∃ q', Answered p h q') ∨
      ∃ a h₁ h₂, h = h₂ ++ h₁ ∧ Answered p h₁ (.ret a) ∧ Answered (f a) h₂ q := by
  change Answered (p.bind f) h q at answered
  induction p generalizing h with
  | ret a => exact Or.inr ⟨a, [], h, (List.append_nil h).symm, .start, answered⟩
  | raise x =>
    obtain ⟨rfl, -⟩ := of_ofExcept (.error x) answered
    exact Or.inl ⟨_, .start⟩
  | perform e k ih =>
    rcases of_perform answered with rfl | ⟨r, h', rfl, hrest⟩
    · exact Or.inl ⟨_, .start⟩
    · have hfirst : Answered (.perform e k) [⟨e, r⟩] (k r) := .answer r .start
      rcases ih r hrest with ⟨q', hq'⟩ | ⟨a, h₁, h₂, rfl, hret, hsecond⟩
      · exact Or.inl ⟨q', hfirst.trans hq'⟩
      · exact Or.inr ⟨a, h₁ ++ [⟨e, r⟩], h₂, List.append_assoc .., hfirst.trans hret, hsecond⟩

/-- What is left of a program that meets a condition meets it. -/
theorem meets {allowed : History S → S.Effect → Prop} {Q : History S → Except S.Exn α → Prop}
    (answered : Answered p h q) (hp : p.Meets allowed Q []) : q.Meets allowed Q h := by
  induction answered with
  | start => exact hp
  | answer r _ ih => exact ih.2 r

/-- **Induction along a history** of allowed effects. -/
theorem along {allowed : History S → S.Effect → Prop} {Q : History S → Except S.Exn α → Prop}
    {P : History S → Prop} (answered : Answered p h q) (hp : p.Meets allowed Q []) (start : P [])
    (step : ∀ h e (r : S.Reply e), allowed h e → P h → P (⟨e, r⟩ :: h)) : P h := by
  induction answered with
  | start => exact start
  | answer r answered ih => exact step _ _ r (answered.meets hp).1 ih

/-- Every effect that a program has performed was allowed. -/
theorem exists_allowed {allowed : History S → S.Effect → Prop}
    {Q : History S → Except S.Exn α → Prop} (answered : Answered p h q)
    (hp : p.Meets allowed Q []) : ∀ ev ∈ h, ∃ h', allowed h' ev.effect := by
  induction answered with
  | start => simp
  | answer r answered ih =>
    exact List.forall_mem_cons.mpr ⟨⟨_, (answered.meets hp).1⟩, ih⟩

end Answered

/-! ### Programs with effects of one kind -/

/-- All effects of the program are of the kind `P`. -/
def Only (P : S.Effect → Prop) (p : Program S α) : Prop :=
  ∀ h, p.Meets (fun _ => P) (fun _ _ => True) h

namespace Only

variable {P : S.Effect → Prop} {p : Program S α}

theorem ret (a : α) : (Program.ret a).Only (S := S) P := fun _ => trivial

theorem raise (x : S.Exn) : (Program.raise x : Program S α).Only P := fun _ => trivial

theorem call {e : S.Effect} (he : P e) : (Program.call e).Only P :=
  fun _ => Meets.call he fun _ => trivial

theorem ofExcept (out : Except S.Exn α) : (Program.ofExcept out).Only P :=
  fun _ => Meets.ofExcept trivial

theorem bind {f : α → Program S β} (hp : p.Only P) (hf : ∀ a, (f a).Only P) :
    (p >>= f).Only P :=
  fun h => (hp h).bind (fun h a _ => hf a h) fun _ _ _ => trivial

theorem ite {c : Prop} [Decidable c] {q : Program S α} (hp : p.Only P) (hq : q.Only P) :
    (if c then p else q).Only P :=
  fun h => Meets.ite (fun _ => hp h) fun _ => hq h

theorem tryCatch {handle : S.Exn → Program S α} (hp : p.Only P)
    (hhandle : ∀ x, (handle x).Only P) : (p.tryCatch handle).Only P :=
  fun h => (hp h).tryCatch (fun _ _ _ => trivial) fun h x _ => hhandle x h

theorem andFinally {cleanUp : Program S Unit} (hp : p.Only P) (hclean : cleanUp.Only P) :
    (p.andFinally cleanUp).Only P :=
  fun h => (hp h).andFinally fun h _ _ => (hclean h).mono fun _ out _ => by
    cases out <;> trivial

/-- All events of the history are of the kind. -/
theorem of_mem {q : Program S α} {h : History S} (hp : p.Only P) (answered : Answered p h q) :
    ∀ ev ∈ h, P ev.effect :=
  fun ev hev => (answered.exists_allowed (hp []) ev hev).elim fun _ h => h

end Only

end Program

end Foundation
