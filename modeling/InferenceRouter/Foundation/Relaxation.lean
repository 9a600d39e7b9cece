import Mathlib.Algebra.BigOperators.Group.Finset.Basic
import Mathlib.Algebra.BigOperators.Ring.Finset
import Mathlib.Algebra.Order.Field.Basic
import Mathlib.Data.List.GetD
import Mathlib.Tactic.Linarith
import Mathlib.Tactic.Ring

/-!
# Exponential averages

An exponential average moves at each observation `x` from `e` to `α x + (1 - α) e`. After a list
of observations it is a weighted sum of the start value, whose weight shrinks geometrically, and
of the observations; so it relaxes geometrically to every bound on them.

## Main definitions

* `Foundation.relax`: the average after one observation.
* `Foundation.relaxAll`: the average after a list of observations, the oldest first.

## Main results

* `Foundation.relaxAll_eq_sum`: the closed form.
* `Foundation.relaxAll_le`: the relaxation to a bound.
* `Foundation.relax_pos`: positive observations keep the average positive.
-/

namespace Foundation

section Average

variable {K : Type*} [Field K] (α e x : K) (xs : List K)

/-- The average after one observation. -/
def relax : K := α * x + (1 - α) * e

/-- The average after a list of observations, the oldest first. -/
def relaxAll : K := xs.foldl (relax α) e

@[simp] theorem relaxAll_nil : relaxAll α e [] = e := rfl

@[simp] theorem relaxAll_cons : relaxAll α e (x :: xs) = relaxAll α (relax α e x) xs := rfl

@[simp] theorem relaxAll_concat :
    relaxAll α e (xs ++ [x]) = relax α (relaxAll α e xs) x := by
  simp [relaxAll]

/-- **The closed form of an average.** -/
theorem relaxAll_eq_sum : relaxAll α e xs = (1 - α) ^ xs.length * e +
    ∑ i ∈ Finset.range xs.length, α * (1 - α) ^ (xs.length - (i + 1)) * xs.getD i 0 := by
  induction xs using List.reverseRecOn with
  | nil => simp
  | append_singleton xs x ih =>
    have hterm : ∀ i ∈ Finset.range xs.length,
        α * (1 - α) ^ (xs.length + 1 - (i + 1)) * (xs ++ [x]).getD i 0 =
          (1 - α) * (α * (1 - α) ^ (xs.length - (i + 1)) * xs.getD i 0) := by
      intro i hi
      have hlt := Finset.mem_range.mp hi
      obtain ⟨j, hj⟩ := Nat.exists_eq_add_of_lt hlt
      have hsub : xs.length - (i + 1) = j := by omega
      have hsub' : xs.length + 1 - (i + 1) = j + 1 := by omega
      rw [List.getD_append _ _ _ _ hlt, hsub, hsub', pow_succ]
      ring
    have hlast : (xs ++ [x]).getD xs.length 0 = x := by simp
    rw [relaxAll_concat, ih, relax, List.length_append, List.length_singleton,
      Finset.sum_range_succ, Finset.sum_congr rfl hterm, ← Finset.mul_sum, hlast, Nat.sub_self,
      pow_zero, pow_succ]
    ring

variable [LinearOrder K] [IsStrictOrderedRing K] {α e x xs}

/-- **An average relaxes geometrically** to every bound on the observations. -/
theorem relaxAll_le (hα : 0 ≤ α) (hα' : α ≤ 1) {m : K} (hxs : ∀ x ∈ xs, x ≤ m) :
    relaxAll α e xs ≤ m + (1 - α) ^ xs.length * (e - m) := by
  induction xs using List.reverseRecOn with
  | nil => simp
  | append_singleton xs x ih =>
    have hx : x ≤ m := hxs x (by simp)
    have hprev := ih fun y hy => hxs y (List.mem_append_left _ hy)
    have h1 : α * x ≤ α * m := mul_le_mul_of_nonneg_left hx hα
    have h2 := mul_le_mul_of_nonneg_left hprev (sub_nonneg.mpr hα')
    rw [relaxAll_concat, relax, List.length_append, List.length_singleton, pow_succ]
    linarith

/-- Positive observations keep an average positive. -/
theorem relax_pos (hα : 0 < α) (hα' : α ≤ 1) (he : 0 < e) (hx : 0 < x) : 0 < relax α e x :=
  add_pos_of_pos_of_nonneg (mul_pos hα hx) (mul_nonneg (sub_nonneg.mpr hα') he.le)

end Average

end Foundation
