import InferenceRouter.Foundation.Escrow
import Mathlib.Algebra.Group.Subgroup.ZPowers.Basic
import Mathlib.Algebra.Group.Submonoid.BigOperators
import Mathlib.Algebra.Order.Ring.Rat
import Mathlib.Tactic.Linarith

/-!
# Amounts of a quantum

An escrow account whose amounts lie in a subgroup, for instance in the multiples of a quantum, has
its balances in the subgroup as well. Between two multiples of a quantum, a slack that is smaller
than the quantum makes no difference.

## Main definitions

* `Foundation.Escrow.Within`: the amounts of an account lie in a subgroup.

## Main results

* `Foundation.Escrow.Within.exposure`: so does its exposure.
* `Foundation.le_of_le_add_of_mem_zmultiples`: slacks below a quantum.
-/

namespace Foundation

/-! ### Accounts in a subgroup -/

namespace Escrow

variable {κ M : Type*} [AddCommGroup M] {G : AddSubgroup M} {e : Escrow κ M}

/-- The amounts of an account lie in a subgroup. -/
structure Within (G : AddSubgroup M) (e : Escrow κ M) : Prop where
  spent : e.spent ∈ G
  amount : ∀ k ∈ e.pending, e.amount k ∈ G

theorem Within.exposure (h : e.Within G) : e.exposure ∈ G :=
  G.add_mem h.spent (sum_mem h.amount)

variable [DecidableEq κ] {k : κ} {a : M}

theorem Within.grant (h : e.Within G) (ha : a ∈ G) : (e.grant k a).Within G where
  spent := h.spent
  amount j hj := by
    rw [amount_grant]
    split_ifs with hjk
    · exact ha
    · exact h.amount j (Finset.mem_of_mem_insert_of_ne hj hjk)

theorem Within.settle (h : e.Within G) (ha : a ∈ G) : (e.settle k a).Within G where
  spent := G.add_mem h.spent ha
  amount j hj := h.amount j (Finset.mem_of_mem_erase hj)

end Escrow

/-! ### Slacks below a quantum -/

/-- **A slack below the quantum makes no difference** between two multiples of it. -/
theorem le_of_le_add_of_mem_zmultiples {quantum slack x y : ℚ}
    (hx : x ∈ AddSubgroup.zmultiples quantum) (hy : y ∈ AddSubgroup.zmultiples quantum)
    (hpos : 0 < quantum) (hslack : slack < quantum) (hle : x ≤ y + slack) : x ≤ y := by
  obtain ⟨m, rfl⟩ := AddSubgroup.mem_zmultiples_iff.mp hx
  obtain ⟨n, rfl⟩ := AddSubgroup.mem_zmultiples_iff.mp hy
  rw [zsmul_eq_mul, zsmul_eq_mul] at hle ⊢
  by_contra hlt
  have hmn : n + 1 ≤ m := by
    by_contra hmn
    have hle' : (m : ℚ) ≤ n := by exact_mod_cast Int.lt_add_one_iff.mp (not_le.mp hmn)
    exact hlt (mul_le_mul_of_nonneg_right hle' hpos.le)
  have hmn' : ((n : ℚ) + 1) * quantum ≤ m * quantum :=
    mul_le_mul_of_nonneg_right (by exact_mod_cast hmn) hpos.le
  linarith

end Foundation
