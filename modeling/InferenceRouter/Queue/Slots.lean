import InferenceRouter.Foundation.Run
import InferenceRouter.Queue.Monitor
import Mathlib.Data.Int.Order.Basic
import Mathlib.Data.List.Count

/-!
# The slots under any interleaving

The context manager `QueueMonitor.slot` under any number of users. Its counters are taken here as
the source has them, without the relation between them that the structure `QueueMonitor` carries
as a field: below capacity, `acquire` takes a permit of the semaphore under the lock, and would
be suspended there, with the lock held, if the semaphore had none; everybody else would then be
suspended on the lock. That this never happens is part of the result.

An uncontended lock and a semaphore with a permit are taken without a suspension, so that an entry
is one step, and so is an exit: `slot` calls `acquire` outside its `try` statement and `release` in
the `finally` clause, whatever way its body has ended.

## Main definitions

* `InferenceRouter.Counters`, with `Counters.acquire` and `Counters.release`.
* `InferenceRouter.User`, `InferenceRouter.Slots`, `InferenceRouter.Slots.step`.
* `InferenceRouter.Slots.Disciplined`: the invariant.

## Main results

* `InferenceRouter.QueueMonitor.counters_acquire`, `InferenceRouter.QueueMonitor.counters_release`:
  the methods of the structure `QueueMonitor` are those of its counters.
* `InferenceRouter.slot_discipline`.
-/

namespace InferenceRouter

open Foundation

/-! ### The counters -/

/-- The attributes of a monitor. -/
structure Counters where
  maxConcurrency : ℕ
  semaphore : ℕ
  activeCount : ℤ
  deriving DecidableEq

/-- How far a call of `acquire` gets. -/
inductive Acquisition
  /-- It returns `False`. -/
  | refused
  /-- It is suspended on the semaphore, with the lock held. -/
  | waits
  /-- It returns `True`. -/
  | acquired (counters : Counters)

namespace Counters

variable (c : Counters)

/-- `QueueMonitor.acquire`, once it has the lock. -/
def acquire : Acquisition :=
  if (c.maxConcurrency : ℤ) ≤ c.activeCount then .refused
  else if c.semaphore = 0 then .waits
  else .acquired { c with semaphore := c.semaphore - 1, activeCount := c.activeCount + 1 }

/-- `QueueMonitor.release`, once it has the lock. -/
def release : Counters :=
  if 0 < c.activeCount then
    { c with activeCount := c.activeCount - 1, semaphore := c.semaphore + 1 }
  else c

end Counters

namespace QueueMonitor

variable (qm : QueueMonitor)

/-- The attributes of a monitor whose counters agree. -/
def counters : Counters := ⟨qm.maxConcurrency, qm.semaphore, qm.activeCount⟩

/-- **The acquisition never waits** in a monitor whose counters agree. -/
theorem counters_acquire : qm.counters.acquire =
    if qm.acquire.1 then .acquired qm.acquire.2.counters else .refused := by
  dsimp only [Counters.acquire, counters]
  rw [acquire]
  by_cases h : qm.maxConcurrency ≤ qm.activeCount
  · rw [if_pos (by exact_mod_cast h), dif_pos h]
    rfl
  · have hpos := semaphore_pos h
    rw [if_neg (by exact_mod_cast h), if_neg (Nat.ne_of_gt hpos), dif_neg h]
    simp

theorem counters_release : qm.counters.release = qm.release.counters := by
  dsimp only [Counters.release, counters]
  rw [release]
  by_cases h : 0 < qm.activeCount
  · rw [if_pos (by exact_mod_cast h), dif_pos h]
    simp only [Counters.mk.injEq, true_and]
    omega
  · rw [if_neg (by exact_mod_cast h), dif_neg h]

end QueueMonitor

/-! ### The users -/

/-- The ways in which a body ends. -/
inductive Exit
  | normal
  | exception
  | cancelled
  deriving DecidableEq

/-- Where a user of `slot` stands. -/
inductive User
  /-- It has not entered. -/
  | outside
  /-- It is suspended in `acquire` or in `release`, on the lock or on the semaphore. -/
  | suspended
  /-- Its body is running. -/
  | running
  /-- Its entry has raised `RuntimeError`. -/
  | refused
  /-- It has left its body, in the way given, and the context manager. -/
  | left (exit : Exit)
  deriving DecidableEq

/-- A monitor and its users. -/
structure Slots where
  counters : Counters
  /-- The lock is held by a user that is suspended. -/
  locked : Bool
  users : List User

/-- What happens in one step: a user comes, enters `slot` or leaves its body. -/
inductive SlotEvent
  | arrive
  | enter (user : ℕ)
  | leave (user : ℕ) (exit : Exit)

namespace Slots

/-- `QueueMonitor.__init__`, without users. -/
def new (maxConcurrency : ℕ) : Slots := ⟨⟨maxConcurrency, maxConcurrency, 0⟩, false, []⟩

variable (s : Slots)

/-- The number of bodies that are running. -/
def running : ℕ := s.users.countP fun u => u = .running

/-- The entry of `slot`. -/
def enter (i : ℕ) : Slots :=
  if s.locked then { s with users := s.users.set i .suspended }
  else
    match s.counters.acquire with
    | .refused => { s with users := s.users.set i .refused }
    | .waits => ⟨s.counters, true, s.users.set i .suspended⟩
    | .acquired counters => ⟨counters, s.locked, s.users.set i .running⟩

/-- The exit of `slot`. -/
def leave (i : ℕ) (exit : Exit) : Slots :=
  if s.locked then { s with users := s.users.set i .suspended }
  else ⟨s.counters.release, s.locked, s.users.set i (.left exit)⟩

/-- One step. -/
def step : SlotEvent → Option Slots
  | .arrive => some { s with users := s.users ++ [.outside] }
  | .enter i => if s.users[i]? = some .outside then some (s.enter i) else none
  | .leave i exit => if s.users[i]? = some .running then some (s.leave i exit) else none

/-- The steps, as a relation. -/
def Step (ev : SlotEvent) (s' : Slots) : Prop := s.step ev = some s'

/-! ### The invariant -/

/-- The counters are those of a monitor whose active count is the number of bodies that are
running, and nobody is suspended. -/
structure Disciplined (maxConcurrency : ℕ) (qm : QueueMonitor) (s : Slots) : Prop where
  counters_eq : s.counters = qm.counters
  maxConcurrency_eq : qm.maxConcurrency = maxConcurrency
  activeCount_eq : qm.activeCount = s.running
  locked_eq : s.locked = false
  not_suspended : User.suspended ∉ s.users

variable {s}

/-- The number of running bodies after one user has moved. -/
theorem countP_running_set {users : List User} {i : ℕ} {u : User} (hu : users[i]? = some u)
    (v : User) :
    (users.set i v).countP (fun u => u = .running) + (if u = .running then 1 else 0) =
      users.countP (fun u => u = .running) + (if v = .running then 1 else 0) := by
  obtain ⟨hi, rfl⟩ := List.getElem?_eq_some_iff.mp hu
  have hle := List.boole_getElem_le_countP (p := fun u : User => decide (u = .running)) hi
  rw [List.countP_set hi]
  simp only [decide_eq_true_eq] at hle ⊢
  omega

theorem suspended_notMem_set {users : List User} (h : User.suspended ∉ users) {i : ℕ} {v : User}
    (hv : v ≠ .suspended) : User.suspended ∉ users.set i v := by
  intro hmem
  rcases List.mem_or_eq_of_mem_set hmem with hmem | heq
  · exact h hmem
  · exact hv heq.symm

theorem disciplined_new {maxConcurrency : ℕ} (h : 0 < maxConcurrency) :
    (new maxConcurrency).Disciplined maxConcurrency (.new maxConcurrency h) where
  counters_eq := rfl
  maxConcurrency_eq := rfl
  activeCount_eq := rfl
  locked_eq := rfl
  not_suspended := List.not_mem_nil

/-- **An entry** is refused exactly at capacity, and then changes nothing but the user. -/
theorem Disciplined.enter {maxConcurrency : ℕ} {qm : QueueMonitor}
    (hs : s.Disciplined maxConcurrency qm) {i : ℕ} (hi : s.users[i]? = some .outside) :
    (s.running = maxConcurrency ∧ s.enter i = { s with users := s.users.set i .refused } ∧
        (s.enter i).Disciplined maxConcurrency qm) ∨
      (s.running ≠ maxConcurrency ∧ (s.enter i).users = s.users.set i .running ∧
        (s.enter i).Disciplined maxConcurrency qm.acquire.2) := by
  have hrunning := hs.activeCount_eq
  have hmax := hs.maxConcurrency_eq
  have hle := qm.activeCount_le
  have hcount := qm.activeCount_acquire
  have henter : s.enter i = if qm.acquire.1 then
      ⟨qm.acquire.2.counters, s.locked, s.users.set i .running⟩
      else { s with users := s.users.set i .refused } := by
    rw [Slots.enter, hs.locked_eq, hs.counters_eq, qm.counters_acquire,
      if_neg Bool.false_ne_true]
    cases qm.acquire.1 with
    | false => rfl
    | true => rfl
  rw [henter]
  by_cases hfull : qm.maxConcurrency ≤ qm.activeCount
  · have hacquire : qm.acquire.1 = false := by
      rw [qm.acquire_fst, QueueMonitor.isAtCapacity, decide_eq_true hfull]
      rfl
    rw [hacquire]
    refine Or.inl ⟨by omega, rfl, hs.counters_eq, hmax, ?_, hs.locked_eq,
      suspended_notMem_set hs.not_suspended (by simp)⟩
    have hset := countP_running_set hi .refused
    simp only [reduceCtorEq, if_false, Nat.add_zero] at hset
    exact hrunning.trans hset.symm
  · have hacquire : qm.acquire.1 = true := by
      rw [qm.acquire_fst, QueueMonitor.isAtCapacity, decide_eq_false hfull]
      rfl
    have hmax' := qm.maxConcurrency_acquire
    rw [hacquire] at hcount ⊢
    refine Or.inr ⟨by omega, rfl, rfl, hmax'.trans hmax, ?_, hs.locked_eq,
      suspended_notMem_set hs.not_suspended (by simp)⟩
    have hset := countP_running_set hi .running
    simp only [reduceCtorEq, if_false, Nat.add_zero, if_true] at hset hcount
    rw [hcount, hrunning]
    exact hset.symm

/-- **An exit** gives the slot back. -/
theorem Disciplined.leave {maxConcurrency : ℕ} {qm : QueueMonitor}
    (hs : s.Disciplined maxConcurrency qm) {i : ℕ} (hi : s.users[i]? = some .running)
    (exit : Exit) : (s.leave i exit).Disciplined maxConcurrency qm.release := by
  have hset := countP_running_set hi (.left exit)
  have hcount := qm.activeCount_release
  have hmax := qm.maxConcurrency_release
  have hleave : s.leave i exit = ⟨qm.release.counters, s.locked, s.users.set i (.left exit)⟩ := by
    rw [Slots.leave, hs.locked_eq, hs.counters_eq, qm.counters_release]
    rfl
  rw [hleave]
  refine ⟨rfl, hmax.trans hs.maxConcurrency_eq, ?_, hs.locked_eq,
    suspended_notMem_set hs.not_suspended (by simp)⟩
  simp only [reduceCtorEq, if_false, Nat.add_zero, if_true] at hset
  rw [hcount, hs.activeCount_eq]
  change s.users.countP _ - 1 = (s.users.set i (.left exit)).countP _
  omega

variable {maxConcurrency : ℕ} {tr : List (Slots × SlotEvent)}

/-- **The invariant holds in every reachable state.** -/
theorem disciplined_of_run (hmax : 0 < maxConcurrency)
    (run : Run Step (new maxConcurrency) tr s) : ∃ qm, s.Disciplined maxConcurrency qm := by
  refine run.invariant_all (P := fun s => ∃ qm, s.Disciplined maxConcurrency qm)
    ⟨_, disciplined_new hmax⟩ ?_
  rintro s ev s' ⟨qm, hs⟩ h
  cases ev with
  | arrive =>
    obtain rfl := Option.some.inj h
    refine ⟨qm, hs.counters_eq, hs.maxConcurrency_eq, hs.activeCount_eq.trans ?_, hs.locked_eq, ?_⟩
    · change _ = (s.users ++ [User.outside]).countP _
      rw [List.countP_append]
      rfl
    · simpa using hs.not_suspended
  | enter i =>
    obtain ⟨hi, h⟩ := Option.ite_none_right_eq_some.mp h
    obtain rfl := Option.some.inj h
    rcases hs.enter hi with ⟨-, -, hs'⟩ | ⟨-, -, hs'⟩
    · exact ⟨_, hs'⟩
    · exact ⟨_, hs'⟩
  | leave i exit =>
    obtain ⟨hi, h⟩ := Option.ite_none_right_eq_some.mp h
    obtain rfl := Option.some.inj h
    exact ⟨_, hs.leave hi exit⟩

end Slots

/-- **Slot discipline.** Under any interleaving of any number of users of `slot`, the active count
is the number of running bodies, it adds up with the semaphore to the capacity, and nobody is ever
suspended on the lock or on the semaphore. An entry is always possible; it raises exactly if as
many bodies are running as the capacity allows, and then changes nothing but the state of its user.
Once no body is running, the active count is zero. -/
theorem slot_discipline {maxConcurrency : ℕ} (hmax : 0 < maxConcurrency)
    {tr : List (Slots × SlotEvent)} {s : Slots}
    (run : Run Slots.Step (.new maxConcurrency) tr s) :
    s.counters.activeCount = s.running ∧
      s.counters.semaphore + s.counters.activeCount = maxConcurrency ∧
      0 ≤ s.counters.activeCount ∧ s.counters.activeCount ≤ maxConcurrency ∧
      s.locked = false ∧ User.suspended ∉ s.users ∧
      (∀ i, s.users[i]? = some .outside → ∃ s', s.Step (.enter i) s' ∧
        (s'.users[i]? = some .refused ↔ s.running = maxConcurrency) ∧
        (s.running = maxConcurrency → s' = { s with users := s.users.set i .refused }) ∧
        (s.running ≠ maxConcurrency → s'.users = s.users.set i .running)) ∧
      (∀ i, s.users[i]? = some .running → ∀ exit, ∃ s', s.Step (.leave i exit) s' ∧
        s'.users = s.users.set i (.left exit)) ∧
      (User.running ∉ s.users → s.counters.activeCount = 0) := by
  obtain ⟨qm, hs⟩ := Slots.disciplined_of_run hmax run
  have hactive : s.counters.activeCount = qm.activeCount := by rw [hs.counters_eq]; rfl
  have hsemaphore : s.counters.semaphore = qm.semaphore := by rw [hs.counters_eq]; rfl
  have hrunning := hs.activeCount_eq
  have hmaxConcurrency := hs.maxConcurrency_eq
  have hsum := qm.semaphore_add_activeCount
  refine ⟨by omega, by omega, by omega, by omega, hs.locked_eq, hs.not_suspended,
    fun i hi => ⟨s.enter i, if_pos hi, ?_⟩, fun i hi exit => ⟨s.leave i exit, if_pos hi, ?_⟩,
    fun hnone => ?_⟩
  · obtain ⟨hlt, -⟩ := List.getElem?_eq_some_iff.mp hi
    rcases hs.enter hi with ⟨hfull, henter, -⟩ | ⟨hroom, husers, -⟩
    · rw [henter]
      exact ⟨iff_of_true (List.getElem?_set_self hlt) hfull, fun _ => rfl,
        fun hroom => absurd hfull hroom⟩
    · rw [husers, List.getElem?_set_self hlt]
      exact ⟨iff_of_false (by simp) hroom, fun hfull => absurd hfull hroom, fun _ => rfl⟩
  · rw [Slots.leave, hs.locked_eq]
    rfl
  · have hzero : s.running = 0 := by
      refine List.countP_eq_zero.mpr fun u hu => ?_
      simpa using ne_of_mem_of_not_mem hu hnone
    omega

/-- Two users of one slot: the first is cancelled in its body, the second is refused. -/
theorem slot_discipline_two_users : ∃ tr s, Run Slots.Step (.new 1) tr s ∧
    s.users = [.left .cancelled, .refused] ∧ s.counters.activeCount = 0 := by
  have empty : Run Slots.Step (.new 1) [] (.new 1) := .start
  have hstep : ∀ (s : Slots) ev, (s.step ev).isSome → s.Step ev ((s.step ev).getD s) := by
    intro s ev h
    obtain ⟨s', hs'⟩ := Option.isSome_iff_exists.mp h
    rw [Slots.Step, hs']
    rfl
  have run := empty |>.step (hstep _ .arrive rfl) |>.step (hstep _ .arrive rfl)
    |>.step (hstep _ (.enter 0) rfl) |>.step (hstep _ (.enter 1) rfl)
    |>.step (hstep _ (.leave 0 .cancelled) rfl)
  exact ⟨_, _, run, rfl, (slot_discipline Nat.one_pos run).2.2.2.2.2.2.2.2 (by decide)⟩

end InferenceRouter
