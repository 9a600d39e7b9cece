import Mathlib.Algebra.BigOperators.Group.Finset.Basic
import Mathlib.Algebra.Order.BigOperators.Group.Finset
import Mathlib.Tactic.Abel

/-!
# Escrow accounts

An escrow account promises amounts before they are spent. A *grant* sets an amount aside under a
fresh key, a *settlement* replaces the amount under a pending key by what was really spent, and a
*release* gives the amount back. The account is exposed to what it has spent and to what it still
holds; a grant raises the exposure by its amount, a settlement by what it spends beyond the amount
held for it, and a release lowers it.

Amounts live in any additive commutative group, keys in any type with decidable equality; bounds
need a compatible order on the amounts.

## Main definitions

* `Foundation.Escrow`, with `Escrow.held` and `Escrow.exposure`.
* `Foundation.Escrow.grant`, `Foundation.Escrow.settle`, `Foundation.Escrow.release`.
* `Foundation.Escrow.map`: an account seen through a homomorphism of amounts.

## Main results

* `Foundation.Escrow.exposure_grant`, `Foundation.Escrow.exposure_settle`,
  `Foundation.Escrow.exposure_release`: the change of the exposure.
* `Foundation.Escrow.amount_le_held`, `Foundation.Escrow.sum_amount_le_held`: pending amounts are
  covered by what is held.
* `Foundation.Escrow.exposure_settle_le`, `Foundation.Escrow.exposure_release_le`: bounds on the
  exposure survive a settlement within its amount and a release.
-/

namespace Foundation

open Finset

/-- An escrow account: what has been spent, the keys of the amounts that are pending, and the
amount under each key. -/
@[ext]
structure Escrow (κ M : Type*) where
  /-- The total spent by the settlements. -/
  spent : M
  /-- The keys whose amounts are held. -/
  pending : Finset κ
  /-- The amount granted under each key. -/
  amount : κ → M

namespace Escrow

variable {κ M : Type*} (e : Escrow κ M)

/-- Set the amount `a` aside under the key `k`. -/
def grant [DecidableEq κ] (k : κ) (a : M) : Escrow κ M where
  spent := e.spent
  pending := insert k e.pending
  amount := Function.update e.amount k a

section Grant

variable [DecidableEq κ] (j k : κ) (a : M)

@[simp] theorem spent_grant : (e.grant k a).spent = e.spent := rfl

@[simp] theorem pending_grant : (e.grant k a).pending = insert k e.pending := rfl

theorem amount_grant : (e.grant k a).amount j = if j = k then a else e.amount j :=
  Function.update_apply ..

end Grant

variable [AddCommGroup M]

/-- The total of the pending amounts. -/
def held : M := ∑ k ∈ e.pending, e.amount k

/-- What is spent or may still be spent: the total spent and the total held. -/
def exposure : M := e.spent + e.held

variable [DecidableEq κ]

/-- Replace the pending amount under `k` by the amount `b` really spent. -/
def settle (k : κ) (b : M) : Escrow κ M where
  spent := e.spent + b
  pending := e.pending.erase k
  amount := e.amount

/-- Give the pending amount under `k` back. -/
def release (k : κ) : Escrow κ M := e.settle k 0

section Settle

variable (k : κ) (b : M)

@[simp] theorem spent_settle : (e.settle k b).spent = e.spent + b := rfl

@[simp] theorem pending_settle : (e.settle k b).pending = e.pending.erase k := rfl

@[simp] theorem amount_settle : (e.settle k b).amount = e.amount := rfl

end Settle

variable {e} {k : κ}

/-- Giving back an amount that is not pending changes nothing. -/
theorem release_of_notMem (hk : k ∉ e.pending) : e.release k = e :=
  Escrow.ext (add_zero _) (erase_eq_of_notMem hk) rfl

theorem held_grant (hk : k ∉ e.pending) (a : M) : (e.grant k a).held = e.held + a := by
  have hsum : ∑ j ∈ e.pending, Function.update e.amount k a j = e.held :=
    sum_congr rfl fun j hj => Function.update_of_ne (ne_of_mem_of_not_mem hj hk) _ _
  change ∑ j ∈ insert k e.pending, Function.update e.amount k a j = _
  rw [sum_insert hk, hsum, Function.update_self, add_comm]

theorem held_settle (hk : k ∈ e.pending) (b : M) :
    (e.settle k b).held = e.held - e.amount k :=
  sum_erase_eq_sub hk

theorem exposure_grant (hk : k ∉ e.pending) (a : M) :
    (e.grant k a).exposure = e.exposure + a := by
  rw [exposure, held_grant hk, exposure, add_assoc]
  rfl

theorem exposure_settle (hk : k ∈ e.pending) (b : M) :
    (e.settle k b).exposure = e.exposure + (b - e.amount k) := by
  rw [exposure, held_settle hk, exposure]
  change e.spent + b + (e.held - e.amount k) = _
  abel

theorem exposure_release (hk : k ∈ e.pending) :
    (e.release k).exposure = e.exposure - e.amount k := by
  rw [release, exposure_settle hk, zero_sub, sub_eq_add_neg]

/-! ### Images of an account -/

section Map

variable {N : Type*} [AddCommGroup N] (f : M →+ N)

/-- The account with its amounts seen through a homomorphism, for instance one coordinate. -/
def map (e : Escrow κ M) (f : M →+ N) : Escrow κ N where
  spent := f e.spent
  pending := e.pending
  amount k := f (e.amount k)

omit [DecidableEq κ] in
@[simp] theorem pending_map : (e.map f).pending = e.pending := rfl

omit [DecidableEq κ] in
@[simp] theorem amount_map : (e.map f).amount k = f (e.amount k) := rfl

omit [DecidableEq κ] in
@[simp] theorem exposure_map : (e.map f).exposure = f e.exposure := by
  rw [exposure, exposure, held, held, map_add, map_sum]
  rfl

theorem map_grant (k : κ) (a : M) : (e.grant k a).map f = (e.map f).grant k (f a) := by
  refine Escrow.ext rfl rfl (funext fun j => ?_)
  rw [amount_map, amount_grant, amount_grant, apply_ite f]
  rfl

theorem map_settle (k : κ) (b : M) : (e.settle k b).map f = (e.map f).settle k (f b) :=
  Escrow.ext (map_add f _ _) rfl rfl

end Map

/-! ### Bounds -/

section Order

variable [PartialOrder M] [IsOrderedAddMonoid M]

omit [DecidableEq κ] in
/-- Every set of pending amounts is covered by what is held. -/
theorem sum_amount_le_held (hnonneg : ∀ j ∈ e.pending, 0 ≤ e.amount j) {s : Finset κ}
    (hs : s ⊆ e.pending) : ∑ j ∈ s, e.amount j ≤ e.held :=
  sum_le_sum_of_subset_of_nonneg hs fun j hj _ => hnonneg j hj

omit [DecidableEq κ] in
/-- A pending amount is covered by what is held. -/
theorem amount_le_held (hnonneg : ∀ j ∈ e.pending, 0 ≤ e.amount j) (hk : k ∈ e.pending) :
    e.amount k ≤ e.held :=
  single_le_sum hnonneg hk

/-- A settlement that spends at most `δ` beyond its amount raises a bound on the exposure by at
most `δ`. -/
theorem exposure_settle_le (hk : k ∈ e.pending) {b δ c : M} (hb : b ≤ e.amount k + δ)
    (hc : e.exposure ≤ c) : (e.settle k b).exposure ≤ c + δ := by
  rw [exposure_settle hk]
  exact add_le_add hc (sub_le_iff_le_add'.mpr hb)

/-- A release keeps every bound on the exposure. -/
theorem exposure_release_le (hk : k ∈ e.pending) (hnonneg : 0 ≤ e.amount k) {c : M}
    (hc : e.exposure ≤ c) : (e.release k).exposure ≤ c := by
  rw [exposure_release hk]
  exact (sub_le_self _ hnonneg).trans hc

end Order

end Escrow

end Foundation
