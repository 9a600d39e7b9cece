import InferenceRouter.Foundation.Run
import Mathlib.Data.List.DropRight

/-!
# Rings and mailboxes

A *ring* is a list with a capacity: a new item at its end drops the oldest one once it is full, so
that it holds the latest items (`List.rtake`). A *mailbox* is a ring from which a reader takes the
oldest item. What has been put into it and what has been taken from it are functions of the trace.

## Main definitions

* `Foundation.ringPush`: a new item in a ring.
* `Foundation.MailEvent`, `Foundation.MailStep`: a mailbox, with `Foundation.puts` and
  `Foundation.takes` of a trace.

## Main results

* `Foundation.rtake_concat`, `Foundation.rtake_append_of_le`: the latest items of a list after one
  more and after many.
* `Foundation.rtake_flatMap_blocks`: the latest blocks of a list of blocks.
* `Foundation.ringPush_rtake`, `Foundation.foldl_ringPush_rtake`: a ring holds the latest items.
* `Foundation.mail_of_run`: what a mailbox holds and what has been taken from it.
* `Foundation.mail_lossless`, `Foundation.mail_congr`.
-/

namespace Foundation

section Window

variable {α : Type*} (xs ys : List α) (x : α) (n : ℕ)

/-- The latest items after one more: the oldest one goes if there were `n`. -/
theorem rtake_concat : (xs ++ [x]).rtake n =
    (xs.rtake n ++ [x]).drop ((xs.rtake n).length + 1 - n) := by
  cases n with
  | zero => simp
  | succ n =>
    have hlength : (xs.rtake (n + 1)).length = xs.length - (xs.length - (n + 1)) :=
      List.length_drop
    have hdrop : (xs.rtake (n + 1)).drop (xs.length - (xs.length - (n + 1)) + 1 - (n + 1)) =
        xs.rtake n := by
      rw [List.rtake, List.rtake, List.drop_drop]
      congr 1
      omega
    rw [List.rtake_concat_succ, hlength, List.drop_append_of_le_length (by omega), hdrop]

/-- Once there are `n` later items, the latest ones do not depend on the earlier ones. -/
theorem rtake_append_of_le {n : ℕ} (h : n ≤ ys.length) : (xs ++ ys).rtake n = ys.rtake n := by
  have hdrop : (xs ++ ys).length - n = xs.length + (ys.length - n) := by
    rw [List.length_append]
    omega
  rw [List.rtake, List.rtake, hdrop, List.drop_length_add_append]

theorem length_rtake : (xs.rtake n).length = min n xs.length := by
  rw [List.rtake, List.length_drop]
  omega

variable {xs n} in
theorem rtake_of_length_le (h : xs.length ≤ n) : xs.rtake n = xs := by
  rw [List.rtake, Nat.sub_eq_zero_of_le h, List.drop_zero]

section Blocks

variable {β : Type*} {f : α → List β} {m : ℕ} (hf : ∀ x, (f x).length = m)

include hf

/-- The length of a list of blocks of one length. -/
theorem length_flatMap_blocks : (xs.flatMap f).length = m * xs.length := by
  induction xs with
  | nil => rfl
  | cons x xs ih =>
    rw [List.flatMap_cons, List.length_append, hf, ih, List.length_cons, Nat.mul_succ, Nat.add_comm]

theorem drop_flatMap_blocks : (xs.flatMap f).drop (m * n) = (xs.drop n).flatMap f := by
  induction n generalizing xs with
  | zero => rfl
  | succ n ih =>
    cases xs with
    | nil => simp
    | cons x xs =>
      rw [List.flatMap_cons, Nat.mul_succ, Nat.add_comm, ← List.drop_drop, ← hf x,
        List.drop_left, hf x, ih, List.drop_succ_cons]

/-- **The latest blocks** of a list of blocks of one length. -/
theorem rtake_flatMap_blocks : (xs.flatMap f).rtake (m * n) = (xs.rtake n).flatMap f := by
  rw [List.rtake, List.rtake, length_flatMap_blocks xs hf, ← Nat.mul_sub,
    drop_flatMap_blocks _ _ hf]

end Blocks

end Window

variable {α : Type} {capacity : ℕ}

/-! ### Rings -/

/-- A new item in a ring. -/
def ringPush (capacity : ℕ) (xs : List α) (x : α) : List α :=
  (if capacity ≤ xs.length then xs.tail else xs) ++ [x]

theorem ringPush_of_lt {xs : List α} (h : xs.length < capacity) (x : α) :
    ringPush capacity xs x = xs ++ [x] := by
  rw [ringPush, if_neg (Nat.not_le.mpr h)]

/-- **A ring holds the latest items.** -/
theorem ringPush_rtake (hcapacity : 0 < capacity) (xs : List α) (x : α) :
    ringPush capacity (xs.rtake capacity) x = (xs ++ [x]).rtake capacity := by
  have hlength := length_rtake xs capacity
  rw [rtake_concat, ringPush]
  split_ifs with hfull
  · have hone : (xs.rtake capacity).length + 1 - capacity = 1 := by omega
    rw [hone, ← List.drop_one, List.drop_append_of_le_length (by omega)]
  · have hzero : (xs.rtake capacity).length + 1 - capacity = 0 := by omega
    rw [hzero, List.drop_zero]

/-- Many new items in a ring. -/
theorem foldl_ringPush_rtake (hcapacity : 0 < capacity) (xs ys : List α) :
    ys.foldl (ringPush capacity) (xs.rtake capacity) = (xs ++ ys).rtake capacity := by
  induction ys generalizing xs with
  | nil => rw [List.foldl_nil, List.append_nil]
  | cons y ys ih =>
    rw [List.foldl_cons, ringPush_rtake hcapacity, ih, List.append_assoc, List.singleton_append]

/-! ### Mailboxes -/

/-- What happens to a mailbox: an item is put into it, or taken from it. -/
inductive MailEvent (α : Type)
  | put (x : α)
  | take (x : α)

/-- The item that is put, if one is. -/
def MailEvent.putItem : MailEvent α → Option α
  | put x => some x
  | take _ => none

/-- The steps of a mailbox, given by the items that it holds. -/
inductive MailStep (capacity : ℕ) : List α → MailEvent α → List α → Prop
  | put (xs : List α) (x : α) : MailStep capacity xs (.put x) (ringPush capacity xs x)
  | take (x : α) (xs : List α) : MailStep capacity (x :: xs) (.take x) xs

/-- The items that have been put into a mailbox, the first one first. -/
def puts : List (List α × MailEvent α) → List α
  | [] => []
  | (_, .put x) :: tr => puts tr ++ [x]
  | (_, .take _) :: tr => puts tr

/-- The items that have been taken from a mailbox, the first one first. -/
def takes : List (List α × MailEvent α) → List α
  | [] => []
  | (_, .put _) :: tr => takes tr
  | (_, .take x) :: tr => takes tr ++ [x]

variable {tr tr' : List (List α × MailEvent α)} {xs xs' : List α}

/-- **What a mailbox holds**: of the items put after the one that was taken last, the latest, up to
its capacity. The items that have been taken are among those put before, in order. -/
theorem mail_of_run (hcapacity : 0 < capacity) (run : Run (MailStep capacity) [] tr xs) :
    ∃ earlier later, puts tr = earlier ++ later ∧ (takes tr).Sublist earlier ∧
      (takes tr).getLast? = earlier.getLast? ∧ xs = later.rtake capacity := by
  induction run with
  | start => exact ⟨[], [], rfl, .slnil, rfl, by simp⟩
  | @step tr _ ev rest run h ih =>
    obtain ⟨earlier, later, hputs, htakes, hlast, rfl⟩ := ih
    generalize hheld : later.rtake capacity = held at h
    cases h with
    | put _ x =>
      refine ⟨earlier, later ++ [x], ?_, htakes, hlast, ?_⟩
      · rw [puts, hputs, List.append_assoc]
      · rw [← hheld, ringPush_rtake hcapacity]
    | take x =>
      -- the items in front of `x` have been dropped
      obtain ⟨lost, hlost⟩ : x :: rest <:+ later := hheld ▸ List.drop_suffix _ _
      have hlength : rest.length + 1 ≤ capacity := by
        have hle := length_rtake later capacity
        rw [hheld, List.length_cons] at hle
        omega
      refine ⟨earlier ++ (lost ++ [x]), rest, ?_, ?_, ?_, ?_⟩
      · rw [puts, hputs, ← hlost]
        simp
      · rw [takes]
        exact htakes.append (List.sublist_append_right _ _)
      · rw [takes, ← List.append_assoc, List.getLast?_concat, List.getLast?_concat]
      · rw [rtake_of_length_le (by omega)]

/-- A mailbox never holds more items than its capacity. -/
theorem mail_length_le (hcapacity : 0 < capacity) (run : Run (MailStep capacity) [] tr xs) :
    xs.length ≤ capacity := by
  obtain ⟨_, later, -, -, -, rfl⟩ := mail_of_run hcapacity run
  rw [length_rtake]
  exact min_le_left _ _

/-- **What has been taken and what is held** have been put, in this order. -/
theorem mail_sublist (hcapacity : 0 < capacity) (run : Run (MailStep capacity) [] tr xs) :
    (takes tr ++ xs).Sublist (puts tr) := by
  obtain ⟨earlier, later, hputs, htakes, -, rfl⟩ := mail_of_run hcapacity run
  rw [hputs]
  exact htakes.append (List.drop_sublist _ _)

/-- **A mailbox that is never full when an item is put** loses nothing. -/
theorem mail_lossless (run : Run (MailStep capacity) [] tr xs)
    (hroom : ∀ t ∈ tr, ∀ x, t.2 = .put x → t.1.length < capacity) :
    takes tr ++ xs = puts tr := by
  induction run with
  | start => rfl
  | step run h ih =>
    obtain ⟨hstep, hearlier⟩ := List.forall_mem_cons.mp hroom
    have hkept := ih hearlier
    cases h with
    | put xs x => rw [takes, puts, ringPush_of_lt (hstep x rfl), ← List.append_assoc, hkept]
    | take x xs =>
      rw [takes, puts, ← hkept]
      simp

/-- **What a reader gets** depends only on the items put and on when it takes one. -/
theorem mail_congr (run : Run (MailStep capacity) [] tr xs)
    (run' : Run (MailStep capacity) [] tr' xs')
    (hevents : tr.map (fun t => t.2.putItem) = tr'.map (fun t => t.2.putItem)) :
    takes tr = takes tr' ∧ xs = xs' := by
  induction run generalizing tr' xs' with
  | start =>
    cases run' with
    | start => exact ⟨rfl, rfl⟩
    | step => cases hevents
  | step run h ih =>
    cases run' with
    | start => cases hevents
    | step run' h' =>
      rw [List.map_cons, List.map_cons, List.cons.injEq] at hevents
      obtain ⟨hhead, htail⟩ := hevents
      obtain ⟨htakes, rfl⟩ := ih run' htail
      cases h with
      | put xs x =>
        cases h' with
        | put _ x' =>
          obtain rfl : x = x' := Option.some.inj hhead
          exact ⟨htakes, rfl⟩
        | take => cases hhead
      | take x xs =>
        cases h' with
        | put => cases hhead
        | take => exact ⟨congrArg (· ++ [x]) htakes, rfl⟩

end Foundation
