import InferenceRouter.Foundation.Implementation
import InferenceRouter.Foundation.Retry
import Mathlib.Tactic.Ring

/-!
# How many turns a thread takes

Every effect has a weight. A program is bounded by a number if the weights of its effects add up to
at most this number, whatever the replies, and if all its effects are of a kind. The bound of a
program whose effects are implemented by routines is that of the program, with the bounds of the
routines as the weights. In a pool, a program of bounded weight takes a bounded number of turns,
whatever the other threads do.

## Main definitions

* `Foundation.Program.AtMost`: the bound of a program.
* `Foundation.turns`: the number of turns of a thread in a run.

## Main results

* `Foundation.Program.AtMost.implement`: programs with implemented effects.
* `Foundation.Pool.turns_of_run`: **a thread takes a bounded number of turns**.
-/

namespace Foundation

variable {S T I : Signature} {α β : Type}

namespace Program

/-- The program performs only effects of the kind `ok`, and their weights add up to at most `n`,
whatever the replies. -/
def AtMost (ok : S.Effect → Prop) (w : S.Effect → ℕ) : ℕ → Program S α → Prop
  | _, ret _ => True
  | _, raise _ => True
  | n, perform e k => ok e ∧ w e ≤ n ∧ ∀ r, AtMost ok w (n - w e) (k r)

namespace AtMost

variable {ok : S.Effect → Prop} {w : S.Effect → ℕ} {n m : ℕ} {p : Program S α}

theorem mono (hp : p.AtMost ok w n) (hle : n ≤ m) : p.AtMost ok w m := by
  induction p generalizing n m with
  | ret a => trivial
  | raise x => trivial
  | perform e k ih =>
    obtain ⟨hok, hw, hk⟩ := hp
    exact ⟨hok, hw.trans hle, fun r => ih r (hk r) (Nat.sub_le_sub_right hle _)⟩

theorem ret (a : α) : (Program.ret a).AtMost ok w 0 := trivial

theorem raise (x : S.Exn) : (Program.raise x : Program S α).AtMost ok w 0 := trivial

theorem ofExcept (out : Except S.Exn α) : (Program.ofExcept out).AtMost ok w 0 := by
  cases out <;> trivial

/-- An effect in front of a program. -/
theorem perform {e : S.Effect} {k : S.Reply e → Program S α} (hok : ok e)
    (hk : ∀ r, (k r).AtMost ok w n) : (Program.perform e k).AtMost ok w (w e + n) := by
  refine ⟨hok, Nat.le_add_right _ _, fun r => ?_⟩
  rw [Nat.add_sub_cancel_left]
  exact hk r

/-- An effect in front of a program whose bound has grown by that of what comes after it. -/
theorem perform_add {e : S.Effect} {k : S.Reply e → Program S α} (hok : ok e) (hw : w e ≤ n)
    (hk : ∀ r, (k r).AtMost ok w (n - w e + m)) : (Program.perform e k).AtMost ok w (n + m) := by
  refine ⟨hok, hw.trans (Nat.le_add_right _ _), fun r => ?_⟩
  rw [← Nat.sub_add_comm hw] at hk
  exact hk r

theorem call {e : S.Effect} (hok : ok e) : (Program.call e).AtMost ok w (w e) :=
  perform hok ret

/-- **Sequential composition.** -/
theorem bind {f : α → Program S β} (hp : p.AtMost ok w n) (hf : ∀ a, (f a).AtMost ok w m) :
    (p >>= f).AtMost ok w (n + m) := by
  change (p.bind f).AtMost ok w (n + m)
  induction p generalizing n with
  | ret a => exact (hf a).mono (Nat.le_add_left _ _)
  | raise x => trivial
  | perform e k ih =>
    obtain ⟨hok, hw, hk⟩ := hp
    exact perform_add hok hw fun r => ih r (hk r)

/-- Handlers. -/
theorem tryCatch {handle : S.Exn → Program S α} (hp : p.AtMost ok w n)
    (hhandle : ∀ x, (handle x).AtMost ok w m) : (p.tryCatch handle).AtMost ok w (n + m) := by
  induction p generalizing n with
  | ret a => trivial
  | raise x => exact (hhandle x).mono (Nat.le_add_left _ _)
  | perform e k ih =>
    obtain ⟨hok, hw, hk⟩ := hp
    exact perform_add hok hw fun r => ih r (hk r)

/-- Clean-up code. -/
theorem andFinally {cleanUp : Program S Unit} (hp : p.AtMost ok w n)
    (hclean : cleanUp.AtMost ok w m) : (p.andFinally cleanUp).AtMost ok w (n + m) := by
  induction p generalizing n with
  | ret a => exact (hclean.bind fun _ => ret a).mono (by omega)
  | raise x => exact (hclean.bind fun _ => raise x).mono (by omega)
  | perform e k ih =>
    obtain ⟨hok, hw, hk⟩ := hp
    exact perform_add hok hw fun r => ih r (hk r)

theorem ite {c : Prop} [Decidable c] {q : Program S α} (hp : p.AtMost ok w n)
    (hq : q.AtMost ok w n) : (if c then p else q).AtMost ok w n := by
  split_ifs
  · exact hp
  · exact hq

/-- Programs that are retried. -/
theorem retryFrom {policy : RetryPolicy S} (hp : p.AtMost ok w n)
    (hwait : ∀ i, (policy.wait i).AtMost ok w m) (left i : ℕ) :
    (policy.retryFrom p left i).AtMost ok w (n + left * (m + n)) := by
  induction left generalizing i with
  | zero => exact hp.mono (Nat.le_add_right _ _)
  | succ left ih =>
    have hagain : ∀ x, (if policy.retryable x then
        policy.wait i >>= fun _ => policy.retryFrom p left (i + 1) else .raise x).AtMost ok w
        (m + (n + left * (m + n))) := fun x =>
      ite ((hwait i).bind fun _ => ih (i + 1)) ((raise x).mono (Nat.zero_le _))
    refine (hp.tryCatch hagain).mono (le_of_eq ?_)
    ring

/-- Translated programs. -/
theorem translate {τ : Signature.Hom S T} {ok : T.Effect → Prop} {w : T.Effect → ℕ}
    (hp : p.AtMost (fun e => ok (τ.effect e)) (fun e => w (τ.effect e)) n) :
    (p.translate τ).AtMost ok w n := by
  induction p generalizing n with
  | ret a => trivial
  | raise x => trivial
  | perform e k ih =>
    obtain ⟨hok, hw, hk⟩ := hp
    exact ⟨hok, hw, fun r => ih _ (hk _)⟩

/-- What the bound says about the history of a program of which every effect counts once. -/
theorem meets (hp : p.AtMost ok (fun _ => 1) n) {h : History S} (hm : h.length + n = m) :
    p.Meets (fun h e => ok e ∧ h.length < m) (fun h _ => h.length ≤ m) h := by
  induction p generalizing n h with
  | ret a => exact hm ▸ Nat.le_add_right _ _
  | raise x => exact hm ▸ Nat.le_add_right _ _
  | perform e k ih =>
    obtain ⟨hok, hw, hk⟩ := hp
    dsimp only at hw hk
    refine ⟨⟨hok, by omega⟩, fun r => ih r (hk r) ?_⟩
    rw [List.length_cons]
    omega

end AtMost

/-! ### Implemented effects -/

/-- The kind of the effects of an implementation, by that of the effects of the routines. -/
def InnerOk (ok : I.Effect → Prop) : (S.sum I).Effect → Prop
  | .inl _ => True
  | .inr e => ok e

namespace AtMost

variable {ok : I.Effect → Prop} {n m : ℕ}

/-- A routine inside a program. -/
theorem inside {p : Program I β} {f : Except I.Exn β → Program (S.sum I) α}
    (hp : p.AtMost ok (fun _ => 1) n) (hf : ∀ out, (f out).AtMost (InnerOk ok) (fun _ => 1) m) :
    (p.inside f).AtMost (InnerOk ok) (fun _ => 1) (n + m) := by
  induction p generalizing n with
  | ret b => exact (hf _).mono (Nat.le_add_left _ _)
  | raise x => exact (hf _).mono (Nat.le_add_left _ _)
  | perform e k ih =>
    obtain ⟨hok, hw, hk⟩ := hp
    exact perform_add (S := S.sum I) (e := .inr e) hok hw fun r => ih r (hk r)

/-- **Programs with implemented effects.** The bounds of the routines are the weights of the effects
that they stand for. -/
theorem implement {impl : Implementation S I β} {w : S.Effect → ℕ} {p : Program S α}
    (hp : p.AtMost (fun _ => True) w n)
    (hroutine : ∀ e routine, impl e = some routine → routine.body.AtMost ok (fun _ => 1) (w e))
    (hprimitive : ∀ e, impl e = none → 1 ≤ w e) :
    (p.implement impl).AtMost (InnerOk ok) (fun _ => 1) n := by
  induction p generalizing n with
  | ret a => trivial
  | raise x => trivial
  | perform e k ih =>
    obtain ⟨-, hw, hk⟩ := hp
    cases himpl : impl e with
    | none =>
      rw [implement_of_none himpl]
      have hpos := hprimitive e himpl
      exact ⟨trivial, hpos.trans hw, fun r => (ih r (hk r)).mono (Nat.sub_le_sub_left hpos n)⟩
    | some routine =>
      rw [implement_of_some himpl]
      have hinside := (hroutine e routine himpl).inside fun out =>
        ih (routine.reply out) (hk _)
      exact hinside.mono (by omega)

end AtMost

end Program

/-! ### Turns -/

variable {sys : System S}

/-- The choice gives the thread `i` a turn. -/
def Choice.resumes (i : ℕ) : Choice sys → Bool
  | .resume j _ => j = i
  | .spawn _ | .act _ => false

/-- The number of turns of the thread `i` in a run. -/
def turns (i : ℕ) (tr : List (Pool sys × Choice sys)) : ℕ := tr.countP fun c => c.2.resumes i

theorem turns_cons (i : ℕ) (p : Pool sys) (c : Choice sys) (tr : List (Pool sys × Choice sys)) :
    turns i ((p, c) :: tr) = turns i tr + if c.resumes i then 1 else 0 :=
  List.countP_cons

namespace Pool

variable {s₀ : sys.State} {p : Pool sys} {tr : List (Pool sys × Choice sys)}

/-- The history of a thread has an event for each of its turns. -/
theorem turns_eq (run : Run Step ⟨s₀, []⟩ tr p) (i : ℕ) :
    turns i tr = (p.threads[i]?.map fun t => t.history.length).getD 0 := by
  induction run with
  | start => rfl
  | @step tr p c p' run h ih =>
    rw [turns_cons, ih]
    cases h.outcome with
    | spawned arg =>
      dsimp only [Choice.resumes]
      rcases Nat.lt_trichotomy i p.threads.length with hi | rfl | hi
      · rw [List.getElem?_append_left hi]
        rfl
      · rw [List.getElem?_concat_length, List.getElem?_eq_none le_rfl]
        rfl
      · have hlength : (p.threads ++ [(Thread.start arg : Thread sys)]).length ≤ i := by
          rw [List.length_append]
          exact hi
        rw [List.getElem?_eq_none hlength, List.getElem?_eq_none hi.le]
        rfl
    | @resumed pre t post e k o r s' hthreads hprogram hexec =>
      rw [hthreads]
      simp only [Choice.resumes, decide_eq_true_eq]
      rcases Nat.lt_trichotomy i pre.length with hi | rfl | hi
      · rw [List.getElem?_append_left hi, List.getElem?_append_left hi, if_neg (Nat.ne_of_gt hi)]
        rfl
      · rw [getElem?_middle, getElem?_middle, if_pos rfl]
        rfl
      · obtain ⟨j, rfl⟩ := Nat.exists_eq_add_of_lt hi
        rw [if_neg (by omega), List.getElem?_append_right (by omega),
          List.getElem?_append_right (by omega), Nat.add_assoc, Nat.add_sub_cancel_left]
        rfl
    | acted hact => rfl

/-- **A thread takes a bounded number of turns**, whatever the others do, and its next effect is of
the kind that its program performs. -/
theorem turns_of_run {ok : S.Effect → Prop} {n : ℕ}
    (hmain : ∀ arg, (sys.main arg).AtMost ok (fun _ => 1) n) (run : Run Step ⟨s₀, []⟩ tr p) {i : ℕ}
    {t : Thread sys} (ht : p.threads[i]? = some t) :
    turns i tr ≤ n ∧ ∀ e, t.next = some e → ok e := by
  have hmeets := (answered_of_run rfl run t (List.mem_of_getElem? ht)).meets
    ((hmain t.arg).meets (h := []) (Nat.zero_add n))
  have hturns : turns i tr = t.history.length := by
    rw [turns_eq run, ht]
    rfl
  rw [hturns]
  unfold Thread.next
  cases hprogram : t.program with
  | ret a =>
    rw [hprogram] at hmeets
    exact ⟨hmeets, fun _ he => (Option.some_ne_none _ he.symm).elim⟩
  | raise x =>
    rw [hprogram] at hmeets
    exact ⟨hmeets, fun _ he => (Option.some_ne_none _ he.symm).elim⟩
  | perform e k =>
    rw [hprogram] at hmeets
    obtain ⟨⟨hok, hlt⟩, -⟩ := hmeets
    refine ⟨hlt.le, fun e' he' => ?_⟩
    obtain rfl := Option.some.inj he'
    exact hok

/-- A thread whose next effect can be answered takes a turn. -/
theorem exists_step {i : ℕ} {t : Thread sys} (ht : p.threads[i]? = some t) {e : S.Effect}
    {o : sys.Oracle} {rs : S.Reply e × sys.State} (hnext : t.next = some e)
    (hexec : sys.exec p.state e o = some rs) : ∃ p', p.Step (.resume i o) p' := by
  obtain ⟨k, hprogram⟩ := Thread.exists_perform_of_next hnext
  have hresume : t.resume p.state o = some (t.answered e rs.1 (k rs.1), rs.2) := by
    rw [Thread.resume, hprogram]
    dsimp only
    rw [hexec]
    rfl
  refine ⟨⟨rs.2, p.threads.set i (t.answered e rs.1 (k rs.1))⟩, ?_⟩
  rw [Step, step, ht, Option.bind_some, hresume]
  rfl

end Pool

end Foundation
