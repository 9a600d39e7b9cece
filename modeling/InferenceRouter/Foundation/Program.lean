import Mathlib.Data.List.Basic
import Mathlib.Tactic.SplitIfs

/-!
# Programs with effects and exceptions

A program over a signature performs *effects* one after the other, each of which the environment
answers with a reply of the effect's own type, and ends by returning a value or by raising an
exception. Programs form a monad, with handlers of exceptions and with clean-up code that runs on
both ways out of a block.

A condition on a program is a pair of an *allowance*, which every effect must meet when it is
performed, and a postcondition. Both speak about the history of the effects and their replies, so
that what a program knows about the replies it has seen, and what it owes at its end, are
properties of one list.

A program over one signature can be run as a program over another: every effect is performed as its
image, and the replies and the exceptions are translated along. A condition on the program carries
over to its translation, through a reading of the histories of the other signature as histories of
the first.

## Main definitions

* `Foundation.Signature`, `Foundation.Program`, `Foundation.Event`, `Foundation.History`.
* `Foundation.Program.tryCatch`, `Foundation.Program.andFinally`.
* `Foundation.Signature.Hom`, `Foundation.Program.translate`.
* `Foundation.Program.Meets`: a program meets an allowance and a postcondition, whatever the
  replies.

## Main results

* `Foundation.Program.Meets.bind`, `Foundation.Program.Meets.tryCatch`,
  `Foundation.Program.Meets.andFinally`: the rules for composite programs.
* `Foundation.Program.Meets.translate`: conditions on translated programs.
-/

namespace Foundation

/-- The effects of a program, with the types of their replies, and its exceptions. -/
structure Signature where
  Effect : Type
  Reply : Effect → Type
  Exn : Type

/-- A translation of the effects of `S` to effects of `T`. -/
structure Signature.Hom (S T : Signature) where
  effect : S.Effect → T.Effect
  reply : ∀ e, T.Reply (effect e) → S.Reply e
  exn : S.Exn → T.Exn

/-- Programs that perform the effects of a signature. -/
inductive Program (S : Signature) (α : Type) : Type
  | ret (a : α)
  | raise (x : S.Exn)
  | perform (e : S.Effect) (k : S.Reply e → Program S α)

/-- An effect that has been performed, with its reply. -/
structure Event (S : Signature) where
  effect : S.Effect
  reply : S.Reply effect

/-- The events of a program, the latest first. -/
abbrev History (S : Signature) := List (Event S)

namespace Program

variable {S : Signature} {α β : Type}

/-- Sequential composition. -/
def bind : Program S α → (α → Program S β) → Program S β
  | ret a, f => f a
  | raise x, _ => raise x
  | perform e k, f => perform e fun r => (k r).bind f

/-- A handler of the exceptions of a block. -/
def tryCatch : Program S α → (S.Exn → Program S α) → Program S α
  | ret a, _ => ret a
  | raise x, handle => handle x
  | perform e k, handle => perform e fun r => (k r).tryCatch handle

/-- Clean-up code that runs after a block, also if the block raises. -/
def andFinally : Program S α → Program S Unit → Program S α
  | ret a, cleanUp => cleanUp.bind fun _ => ret a
  | raise x, cleanUp => cleanUp.bind fun _ => raise x
  | perform e k, cleanUp => perform e fun r => (k r).andFinally cleanUp

/-- Perform one effect and return its reply. -/
def call (e : S.Effect) : Program S (S.Reply e) := perform e ret

/-- Return a value or raise an exception. -/
def ofExcept : Except S.Exn α → Program S α
  | .ok a => ret a
  | .error x => raise x

instance : Monad (Program S) where
  pure := ret
  bind := bind

instance : MonadExcept S.Exn (Program S) where
  throw := raise
  tryCatch := tryCatch

/-! ### Conditions on programs -/

/-- A program meets the allowance `allowed` and the postcondition `Q` from the history `h`: every
effect is allowed by the history it is performed after, and the history at the end satisfies `Q`
together with the result, whatever the replies. -/
def Meets (allowed : History S → S.Effect → Prop) (Q : History S → Except S.Exn α → Prop) :
    History S → Program S α → Prop
  | h, ret a => Q h (.ok a)
  | h, raise x => Q h (.error x)
  | h, perform e k => allowed h e ∧ ∀ r, Meets allowed Q (⟨e, r⟩ :: h) (k r)

/-- A program that has ended meets its postcondition. -/
theorem meets_ofExcept {allowed : History S → S.Effect → Prop}
    {Q : History S → Except S.Exn α → Prop} {h : History S} {out : Except S.Exn α} :
    (ofExcept out).Meets allowed Q h ↔ Q h out := by
  cases out with
  | ok a => exact Iff.rfl
  | error x => exact Iff.rfl

namespace Meets

variable {allowed : History S → S.Effect → Prop} {Q : History S → Except S.Exn α → Prop}
  {Q' : History S → Except S.Exn β → Prop} {h : History S} {p : Program S α}

/-- Weakening the postcondition. -/
theorem mono {R : History S → Except S.Exn α → Prop} (hp : p.Meets allowed R h)
    (himp : ∀ h out, R h out → Q h out) : p.Meets allowed Q h := by
  induction p generalizing h with
  | ret a => exact himp h _ hp
  | raise x => exact himp h _ hp
  | perform e k ih => exact ⟨hp.1, fun r => ih r (hp.2 r)⟩

/-- Weakening the allowance. -/
theorem imp {allowed' : History S → S.Effect → Prop} (hp : p.Meets allowed Q h)
    (himp : ∀ h e, allowed h e → allowed' h e) : p.Meets allowed' Q h := by
  induction p generalizing h with
  | ret a => exact hp
  | raise x => exact hp
  | perform e k ih => exact ⟨himp h e hp.1, fun r => ih r (hp.2 r)⟩

/-- Two conditions on one program. -/
theorem and {allowed' : History S → S.Effect → Prop} {R : History S → Except S.Exn α → Prop}
    (hp : p.Meets allowed Q h) (hp' : p.Meets allowed' R h) :
    p.Meets (fun h e => allowed h e ∧ allowed' h e) (fun h out => Q h out ∧ R h out) h := by
  induction p generalizing h with
  | ret a => exact ⟨hp, hp'⟩
  | raise x => exact ⟨hp, hp'⟩
  | perform e k ih => exact ⟨⟨hp.1, hp'.1⟩, fun r => ih r (hp.2 r) (hp'.2 r)⟩

/-- A program extends the history. -/
theorem suffix (hp : p.Meets allowed Q h) :
    p.Meets allowed (fun h' out => h <:+ h' ∧ Q h' out) h := by
  induction p generalizing h with
  | ret a => exact ⟨List.suffix_refl h, hp⟩
  | raise x => exact ⟨List.suffix_refl h, hp⟩
  | perform e k ih =>
    exact ⟨hp.1, fun r => (ih r (hp.2 r)).mono fun _ _ hQ =>
      ⟨(List.suffix_cons _ _).trans hQ.1, hQ.2⟩⟩

theorem call {e : S.Effect} {Q : History S → Except S.Exn (S.Reply e) → Prop}
    (hallowed : allowed h e) (hQ : ∀ r, Q (⟨e, r⟩ :: h) (.ok r)) :
    (Program.call e).Meets allowed Q h :=
  ⟨hallowed, hQ⟩

theorem ofExcept {r : Except S.Exn α} (hQ : Q h r) : (Program.ofExcept r).Meets allowed Q h :=
  meets_ofExcept.mpr hQ

/-- **The rule for sequential composition.** -/
theorem bind {f : α → Program S β} (hp : p.Meets allowed Q h)
    (hok : ∀ h a, Q h (.ok a) → (f a).Meets allowed Q' h)
    (herror : ∀ h x, Q h (.error x) → Q' h (.error x)) : (p >>= f).Meets allowed Q' h := by
  change (p.bind f).Meets allowed Q' h
  induction p generalizing h with
  | ret a => exact hok h a hp
  | raise x => exact herror h x hp
  | perform e k ih => exact ⟨hp.1, fun r => ih r (hp.2 r)⟩

/-- An effect in front of a program. -/
theorem call_bind {e : S.Effect} {f : S.Reply e → Program S β} (hallowed : allowed h e)
    (hok : ∀ r, (f r).Meets allowed Q' (⟨e, r⟩ :: h)) :
    (Program.call e >>= f).Meets allowed Q' h :=
  ⟨hallowed, hok⟩

/-- An effect whose reply is turned into a value or an exception. -/
theorem call_ofExcept {e : S.Effect} {f : S.Reply e → Except S.Exn α} (hallowed : allowed h e)
    (hQ : ∀ r, Q (⟨e, r⟩ :: h) (f r)) :
    (Program.call e >>= fun r => Program.ofExcept (f r)).Meets allowed Q h :=
  call_bind hallowed fun r => ofExcept (hQ r)

/-- The rule for conditionals. -/
theorem ite {c : Prop} [Decidable c] {p q : Program S α} (hp : c → p.Meets allowed Q h)
    (hq : ¬ c → q.Meets allowed Q h) : (if c then p else q).Meets allowed Q h := by
  split_ifs with hc
  · exact hp hc
  · exact hq hc

/-- **The rule for handlers.** -/
theorem tryCatch {R : History S → Except S.Exn α → Prop} {handle : S.Exn → Program S α}
    (hp : p.Meets allowed R h) (hok : ∀ h a, R h (.ok a) → Q h (.ok a))
    (herror : ∀ h x, R h (.error x) → (handle x).Meets allowed Q h) :
    (p.tryCatch handle).Meets allowed Q h := by
  induction p generalizing h with
  | ret a => exact hok h a hp
  | raise x => exact herror h x hp
  | perform e k ih => exact ⟨hp.1, fun r => ih r (hp.2 r)⟩

/-- **The rule for clean-up code.** -/
theorem andFinally {R : History S → Except S.Exn α → Prop} {cleanUp : Program S Unit}
    (hp : p.Meets allowed R h)
    (hclean : ∀ h out, R h out →
      cleanUp.Meets allowed (fun h out' => match out' with
        | .ok _ => Q h out
        | .error x => Q h (.error x)) h) :
    (p.andFinally cleanUp).Meets allowed Q h := by
  induction p generalizing h with
  | ret a => exact (hclean h _ hp).bind (fun _ _ hQ => hQ) fun _ _ hQ => hQ
  | raise x => exact (hclean h _ hp).bind (fun _ _ hQ => hQ) fun _ _ hQ => hQ
  | perform e k ih => exact ⟨hp.1, fun r => ih r (hp.2 r)⟩

end Meets

/-! ### Translations -/

variable {S T : Signature} {α : Type}

/-- A program over `S` as a program over `T`. -/
def translate (τ : Signature.Hom S T) : Program S α → Program T α
  | ret a => ret a
  | raise x => raise (τ.exn x)
  | perform e k => perform (τ.effect e) fun r => (k (τ.reply e r)).translate τ

/-- **Conditions on translated programs.** The histories over `T` are read as histories over `S` by
`back`, and meet an invariant `J` that the translated effects preserve. -/
theorem Meets.translate {τ : Signature.Hom S T} {p : Program S α}
    {allowed : History S → S.Effect → Prop} {allowed' : History T → T.Effect → Prop}
    {Q : History S → Except S.Exn α → Prop} (back : History T → History S)
    (J : History T → Prop)
    (hback : ∀ h e r, back (⟨τ.effect e, r⟩ :: h) = ⟨e, τ.reply e r⟩ :: back h)
    (hJ : ∀ h e r, J h → J (⟨τ.effect e, r⟩ :: h))
    (hallowed : ∀ h e, J h → allowed (back h) e → allowed' h (τ.effect e)) {h : History T}
    (hp : p.Meets allowed Q (back h)) (hh : J h) :
    (p.translate τ).Meets allowed' (fun _ _ => True) h := by
  induction p generalizing h with
  | ret a => trivial
  | raise x => trivial
  | perform e k ih =>
    refine ⟨hallowed h e hh hp.1, fun r => ih (τ.reply e r) ?_ (hJ h e r hh)⟩
    rw [hback]
    exact hp.2 (τ.reply e r)

end Program

end Foundation
