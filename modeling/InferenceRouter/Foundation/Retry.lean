import InferenceRouter.Foundation.Program

/-!
# Retrying a program

A program that is attempted again, after a pause, as long as it raises an exception that asks for
it, up to a number of attempts. The exception of the last attempt is raised as it is.

## Main definitions

* `Foundation.RetryPolicy`, `Foundation.RetryPolicy.retry`.
* `Foundation.RetryPolicy.Invariant`: what holds before and after every attempt.

## Main results

* `Foundation.RetryPolicy.retry_meets`: **the rule for retried programs**.
-/

namespace Foundation

variable {S : Signature} {α : Type}

/-- When to stop retrying, what to do after the failure of the attempt with a given number, and the
exceptions that ask for another attempt. -/
structure RetryPolicy (S : Signature) where
  attempts : ℕ
  wait : ℕ → Program S Unit
  retryable : S.Exn → Bool

namespace RetryPolicy

variable (policy : RetryPolicy S) (body : Program S α)

/-- The attempt with the number `n`, after which `left` more are allowed. -/
def retryFrom : (left n : ℕ) → Program S α
  | 0, _ => body
  | left + 1, n =>
    body.tryCatch fun x =>
      if policy.retryable x then policy.wait n >>= fun _ => retryFrom left (n + 1)
      else .raise x

/-- All attempts at a program. The first one is always made. -/
def retry : Program S α := policy.retryFrom body (policy.attempts - 1) 1

/-- The attempts keep the allowance and lead to the postcondition, by what holds before (`Before`)
and after (`After`) the attempt with a given number. -/
structure Invariant (allowed : History S → S.Effect → Prop)
    (Q : History S → Except S.Exn α → Prop) (Before : ℕ → History S → Prop)
    (After : ℕ → History S → S.Exn → Prop) : Prop where
  attempt : ∀ n h, Before n h → n ≤ max 1 policy.attempts → body.Meets allowed
    (fun h' out => match out with
      | .ok _ => Q h' out
      | .error x => After n h' x) h
  pause : ∀ n h x, After n h x → policy.retryable x = true → n < policy.attempts →
    (policy.wait n).Meets allowed (fun h' out => match out with
      | .ok _ => Before (n + 1) h'
      | .error y => Q h' (.error y)) h
  giveUp : ∀ n h x, After n h x → policy.retryable x = false ∨ policy.attempts ≤ n →
    Q h (.error x)

variable {policy : RetryPolicy S} {body : Program S α} {allowed : History S → S.Effect → Prop}
  {Q : History S → Except S.Exn α → Prop} {Before : ℕ → History S → Prop}
  {After : ℕ → History S → S.Exn → Prop}

theorem retryFrom_meets (hinv : policy.Invariant body allowed Q Before After) {left n : ℕ}
    (hpos : 0 < n) (hn : n + left = max 1 policy.attempts) {h : History S}
    (hbefore : Before n h) :
    (policy.retryFrom body left n).Meets allowed Q h := by
  induction left generalizing n h with
  | zero =>
    refine (hinv.attempt n h hbefore (by omega)).mono fun h' out hout => ?_
    cases out with
    | ok a => exact hout
    | error x => exact hinv.giveUp n h' x hout (Or.inr (by omega))
  | succ left ih =>
    refine (hinv.attempt n h hbefore (by omega)).tryCatch (fun _ _ hok => hok)
      fun h' x hafter => ?_
    refine Program.Meets.ite (fun hretry => ?_) fun hretry => ?_
    · refine (hinv.pause n h' x hafter hretry (by omega)).bind (fun h'' _ hnext => ?_)
        fun _ _ herror => herror
      exact ih (Nat.succ_pos n) (by omega) hnext
    · exact hinv.giveUp n h' x hafter (Or.inl (by simpa using hretry))

/-- **The rule for retried programs.** -/
theorem retry_meets (hinv : policy.Invariant body allowed Q Before After) {h : History S}
    (hbefore : Before 1 h) : (policy.retry body).Meets allowed Q h :=
  retryFrom_meets hinv Nat.one_pos (by omega) hbefore

end RetryPolicy

end Foundation
