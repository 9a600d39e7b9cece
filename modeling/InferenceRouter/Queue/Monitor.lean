import Mathlib.Order.Basic

/-!
# The queue monitor

The slots for local execution of `app/queue_monitor.py`. The capacity is kept twice: in a counter
of the active executions and in a semaphore. That the two always add up to the capacity is a field
of the structure. It makes `acquire` total: where the counter lets an execution in, the semaphore
has a permit, so that the acquisition of the semaphore under the lock never waits.

## Main definitions

* `InferenceRouter.QueueMonitor`, with `QueueMonitor.acquire` and `QueueMonitor.release`.

## Main results

* `InferenceRouter.QueueMonitor.semaphore_pos`: below capacity the semaphore has a permit.
-/

namespace InferenceRouter

/-- A `QueueMonitor`: the capacity, the value of the semaphore and the active count. -/
structure QueueMonitor where
  maxConcurrency : ℕ
  semaphore : ℕ
  activeCount : ℕ
  maxConcurrency_pos : 0 < maxConcurrency
  semaphore_add_activeCount : semaphore + activeCount = maxConcurrency

namespace QueueMonitor

/-- `QueueMonitor.__init__` with an accepted capacity. -/
def new (maxConcurrency : ℕ) (h : 0 < maxConcurrency) : QueueMonitor where
  maxConcurrency := maxConcurrency
  semaphore := maxConcurrency
  activeCount := 0
  maxConcurrency_pos := h
  semaphore_add_activeCount := rfl

variable (qm : QueueMonitor)

/-- `QueueMonitor.is_at_capacity`. -/
def isAtCapacity : Bool := decide (qm.maxConcurrency ≤ qm.activeCount)

/-- **Below capacity the semaphore has a permit**, so acquiring it does not wait. -/
theorem semaphore_pos {qm : QueueMonitor} (h : ¬ qm.maxConcurrency ≤ qm.activeCount) :
    0 < qm.semaphore := by
  have := qm.semaphore_add_activeCount
  omega

/-- `QueueMonitor.acquire`: what it returns, and the monitor it leaves. -/
def acquire : Bool × QueueMonitor :=
  if h : qm.maxConcurrency ≤ qm.activeCount then (false, qm)
  else
    (true,
      { qm with
        semaphore := qm.semaphore - 1
        activeCount := qm.activeCount + 1
        semaphore_add_activeCount := by
          have := semaphore_pos h
          have := qm.semaphore_add_activeCount
          omega })

/-- `QueueMonitor.release`. -/
def release : QueueMonitor :=
  if h : 0 < qm.activeCount then
    { qm with
      semaphore := qm.semaphore + 1
      activeCount := qm.activeCount - 1
      semaphore_add_activeCount := by
        have := qm.semaphore_add_activeCount
        omega }
  else qm

theorem activeCount_acquire :
    qm.acquire.2.activeCount = qm.activeCount + if qm.acquire.1 then 1 else 0 := by
  by_cases h : qm.maxConcurrency ≤ qm.activeCount
  · rw [acquire, dif_pos h]
    rfl
  · rw [acquire, dif_neg h]
    rfl

/-- A slot is acquired below the capacity, and only there. -/
theorem acquire_fst : qm.acquire.1 = !qm.isAtCapacity := by
  by_cases h : qm.maxConcurrency ≤ qm.activeCount
  · rw [acquire, dif_pos h, isAtCapacity, decide_eq_true h]
    rfl
  · rw [acquire, dif_neg h, isAtCapacity, decide_eq_false h]
    rfl

theorem maxConcurrency_acquire : qm.acquire.2.maxConcurrency = qm.maxConcurrency := by
  unfold acquire
  split_ifs
  · rfl
  · rfl

theorem activeCount_release : qm.release.activeCount = qm.activeCount - 1 := by
  unfold release
  split_ifs with h
  · rfl
  · omega

theorem maxConcurrency_release : qm.release.maxConcurrency = qm.maxConcurrency := by
  unfold release
  split_ifs
  · rfl
  · rfl

theorem activeCount_le : qm.activeCount ≤ qm.maxConcurrency := by
  have := qm.semaphore_add_activeCount
  omega

end QueueMonitor

end InferenceRouter
