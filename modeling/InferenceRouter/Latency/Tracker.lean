import InferenceRouter.Foundation.Dict
import InferenceRouter.Models
import Mathlib.Algebra.Order.Ring.Rat

/-!
# The latency tracker

The latency estimates of `app/latency_tracker.py`: for each backend an exponential moving average
and a window of the latest observations, whose maximum the estimate never falls below.

## Main definitions

* `InferenceRouter.Deque`: a queue with a maximal length.
* `InferenceRouter.LatencyTracker`, with `LatencyTracker.record`, `LatencyTracker.getEstimate` and
  `LatencyTracker.reset`.
-/

namespace InferenceRouter

open Foundation

/-- A `collections.deque` with a `maxlen`. -/
structure Deque where
  maxlen : ℕ
  items : List ℚ
  length_le : items.length ≤ maxlen

namespace Deque

/-- The empty queue of a given maximal length. -/
def empty (maxlen : ℕ) : Deque := ⟨maxlen, [], Nat.zero_le _⟩

/-- Append an item, and drop items from the front while the queue is too long. -/
def append (d : Deque) (x : ℚ) : Deque where
  maxlen := d.maxlen
  items := (d.items ++ [x]).drop (d.items.length + 1 - d.maxlen)
  length_le := by
    rw [List.length_drop, List.length_append, List.length_singleton]
    omega

/-- Remove all items. -/
def clear (d : Deque) : Deque := empty d.maxlen

end Deque

/-- The key of the local backend. -/
def backendLocal : String := "local"

/-- The key of the remote backend. -/
def backendRemote : String := "remote"

/-- A `LatencyTracker`. The seeds are the tunables that `__init__` and `reset` read. -/
structure LatencyTracker where
  alpha : ℚ
  avgLocalLatencyMs : ℚ
  avgRemoteLatencyMs : ℚ
  ema : Dict String ℚ
  windows : Dict String Deque

namespace LatencyTracker

/-- The averages before any observation. -/
def seeds (avgLocalLatencyMs avgRemoteLatencyMs : ℚ) : Dict String ℚ :=
  (Dict.empty.set backendLocal avgLocalLatencyMs).set backendRemote avgRemoteLatencyMs

/-- `LatencyTracker.__init__`. -/
def new (alpha avgLocalLatencyMs avgRemoteLatencyMs : ℚ) (windowSize : ℕ) : LatencyTracker where
  alpha := alpha
  avgLocalLatencyMs := avgLocalLatencyMs
  avgRemoteLatencyMs := avgRemoteLatencyMs
  ema := seeds avgLocalLatencyMs avgRemoteLatencyMs
  windows := (Dict.empty.set backendLocal (.empty windowSize)).set backendRemote
    (.empty windowSize)

variable (lt : LatencyTracker)

/-- The window of a backend. -/
def window (backend : String) : Deque := (lt.windows.get? backend).getD (.empty 0)

/-- The entries that `record` adds for a backend it does not know. The new window is as long as
the local window is at that moment. -/
def register (backend : String) (latencyMs : ℚ) : LatencyTracker :=
  match lt.ema.get? backend with
  | some _ => lt
  | none =>
    { lt with
      ema := lt.ema.set backend latencyMs
      windows := lt.windows.set backend (.empty (lt.window backendLocal).items.length) }

/-- `LatencyTracker.record`. -/
def record (backend : String) (latencyMs : ℚ) : LatencyTracker :=
  let lt := lt.register backend latencyMs
  { lt with
    ema := lt.ema.set backend
      (lt.alpha * latencyMs + (1 - lt.alpha) * (lt.ema.get? backend).getD 0)
    windows := lt.windows.set backend ((lt.window backend).append latencyMs) }

/-- `LatencyTracker.get_estimate`. -/
def getEstimate (backend : String) : ℚ :=
  let ema := (lt.ema.get? backend).getD 500
  match (lt.window backend).items.max? with
  | some recentMax => max ema recentMax
  | none => ema

/-- `LatencyTracker.get_ema`. -/
def getEma (backend : String) : ℚ := (lt.ema.get? backend).getD 500

/-- `LatencyTracker.reset`. -/
def reset : LatencyTracker :=
  { lt with
    ema := seeds lt.avgLocalLatencyMs lt.avgRemoteLatencyMs
    windows :=
      { items := lt.windows.items.map fun e => (e.1, e.2.clear)
        nodup_keys := by
          rw [List.map_map]
          exact lt.windows.nodup_keys } }

end LatencyTracker

end InferenceRouter
