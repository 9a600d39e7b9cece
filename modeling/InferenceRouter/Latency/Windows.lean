import InferenceRouter.Foundation.Relaxation
import InferenceRouter.Foundation.Ring
import InferenceRouter.Latency.Tracker
import Mathlib.Algebra.Order.Field.Rat

/-!
# What the latency tracker remembers

The averages and the windows of the tracker after any sequence of `record` and `reset` calls. The
average of a backend is an exponential average (`Foundation.relaxAll`), and its window holds the
latest observations since the last reset (`List.rtake`): as many as its maximal length, which for
a backend that is not built in is the length that the local window happens to have when `record`
first meets the backend.

## Main definitions

* `InferenceRouter.TrackerEvent`, `InferenceRouter.TrackerStep`, `InferenceRouter.recorded`.
* `InferenceRouter.LatencyTracker.Windowed`: the window of a backend holds its latest observations.
* `InferenceRouter.LatencyTracker.Positive`: all averages are positive.

## Main results

* `InferenceRouter.LatencyTracker.get?_ema_record`, `InferenceRouter.LatencyTracker.window_record`,
  `InferenceRouter.LatencyTracker.window_reset`: the operations.
* `InferenceRouter.windowed_builtin_of_run`, `InferenceRouter.windowed_of_run`.
* `InferenceRouter.LatencyTracker.Positive.getEstimate_pos`.
-/

namespace InferenceRouter

open Foundation

/-- The backends that the tracker knows from the start. -/
def Builtin (b : String) : Prop := b = backendLocal ∨ b = backendRemote

namespace LatencyTracker

variable (lt : LatencyTracker) (b b' : String) (x : ℚ)

/-! ### The estimate -/

/-- The estimate is at least the average. -/
theorem getEma_le_getEstimate : lt.getEma b ≤ lt.getEstimate b := by
  dsimp only [getEstimate]
  split
  · exact le_max_left _ _
  · exact le_rfl

variable {lt b}

theorem getEstimate_eq {m : ℚ} (h : (lt.window b).items.max? = some m) :
    lt.getEstimate b = max (lt.getEma b) m := by
  dsimp only [getEstimate]
  rw [h]
  rfl

/-- The estimate is at least every observation in the window. -/
theorem le_getEstimate {x : ℚ} (h : x ∈ (lt.window b).items) : x ≤ lt.getEstimate b := by
  cases hmax : (lt.window b).items.max? with
  | none => simp [List.max?_eq_none_iff.mp hmax] at h
  | some m =>
    rw [getEstimate_eq hmax]
    exact ((List.max?_eq_some_iff.mp hmax).2 x h).trans (le_max_right _ _)

variable (lt b)

/-! ### Recording -/

/-- The window that `record` appends to: a new one if the backend has no average. -/
def openWindow : Deque :=
  match lt.ema.get? b with
  | some _ => lt.window b
  | none => .empty (lt.window backendLocal).items.length

/-- The average of a backend after an observation of another or the same one. -/
theorem get?_ema_record : (lt.record b x).ema.get? b' =
    if b' = b then some (relax lt.alpha ((lt.ema.get? b).getD x) x) else lt.ema.get? b' := by
  dsimp only [record, register]
  cases h : lt.ema.get? b with
  | some e =>
    rw [Dict.get?_set, h]
    rfl
  | none =>
    dsimp only
    rw [Dict.get?_set, Dict.get?_set, Dict.get?_set, if_pos rfl]
    split_ifs
    · rfl
    · rfl

/-- The window of a backend after an observation of another or the same one. -/
theorem window_record : (lt.record b x).window b' =
    if b' = b then (lt.openWindow b).append x else lt.window b' := by
  dsimp only [record, register, openWindow]
  cases h : lt.ema.get? b with
  | some e =>
    dsimp only [window]
    rw [Dict.get?_set]
    split_ifs
    · rfl
    · rfl
  | none =>
    dsimp only [window]
    rw [Dict.get?_set, Dict.get?_set, Dict.get?_set, if_pos rfl]
    split_ifs
    · rfl
    · rfl

@[simp] theorem alpha_record : (lt.record b x).alpha = lt.alpha := by
  dsimp only [record, register]
  cases lt.ema.get? b with
  | some e => rfl
  | none => rfl

/-! ### Resetting -/

/-- The averages before any observation. -/
theorem get?_seeds (avgLocal avgRemote : ℚ) : (seeds avgLocal avgRemote).get? b =
    if b = backendRemote then some avgRemote
    else if b = backendLocal then some avgLocal else none := by
  rw [seeds, Dict.get?_set, Dict.get?_set, Dict.get?_empty]

/-- Before any observation, exactly the built-in backends have an average. -/
theorem get?_seeds_ne_none_iff (avgLocal avgRemote : ℚ) :
    (seeds avgLocal avgRemote).get? b ≠ none ↔ Builtin b := by
  rw [get?_seeds]
  split_ifs with hr hl
  · exact iff_of_true (by simp) (Or.inr hr)
  · exact iff_of_true (by simp) (Or.inl hl)
  · exact iff_of_false (by simp) (not_or.mpr ⟨hl, hr⟩)

theorem window_reset : lt.reset.window b = (lt.window b).clear := by
  dsimp only [window, reset, Dict.get?]
  rw [List.find?_map, Option.map_map]
  change ((lt.windows.items.find? fun e => e.1 = b).map fun e => e.2.clear).getD (.empty 0) = _
  cases lt.windows.items.find? fun e => e.1 = b with
  | none => rfl
  | some e => rfl

@[simp] theorem alpha_reset : lt.reset.alpha = lt.alpha := rfl

theorem window_new (alpha avgLocal avgRemote : ℚ) (w : ℕ) :
    (new alpha avgLocal avgRemote w).window b =
      if b = backendRemote then .empty w else if b = backendLocal then .empty w
      else .empty 0 := by
  dsimp only [window, new]
  rw [Dict.get?_set, Dict.get?_set, Dict.get?_empty]
  split_ifs
  · rfl
  · rfl
  · rfl

/-- The window of a built-in backend before any observation. -/
theorem window_new_of_builtin (hb : Builtin b) (alpha avgLocal avgRemote : ℚ) (w : ℕ) :
    (new alpha avgLocal avgRemote w).window b = .empty w := by
  rw [window_new]
  split_ifs with hr hl
  · rfl
  · rfl
  · exact absurd hb (not_or.mpr ⟨hl, hr⟩)

/-! ### Positive averages -/

/-- The averages are positive, and so is the weight of an observation, which is at most one. -/
structure Positive : Prop where
  alpha_pos : 0 < lt.alpha
  alpha_le_one : lt.alpha ≤ 1
  ema_pos : ∀ b e, lt.ema.get? b = some e → 0 < e

variable {lt b}

theorem positive_new {alpha avgLocal avgRemote : ℚ} (w : ℕ) (hα : 0 < alpha) (hα' : alpha ≤ 1)
    (hlocal : 0 < avgLocal) (hremote : 0 < avgRemote) :
    (new alpha avgLocal avgRemote w).Positive where
  alpha_pos := hα
  alpha_le_one := hα'
  ema_pos b e he := by
    change (seeds avgLocal avgRemote).get? b = some e at he
    rw [get?_seeds] at he
    split_ifs at he
    · exact Option.some.inj he ▸ hremote
    · exact Option.some.inj he ▸ hlocal

/-- A positive observation keeps the averages positive. -/
theorem Positive.record (h : lt.Positive) {x : ℚ} (hx : 0 < x) : (lt.record b x).Positive where
  alpha_pos := by
    rw [alpha_record]
    exact h.alpha_pos
  alpha_le_one := by
    rw [alpha_record]
    exact h.alpha_le_one
  ema_pos b' e he := by
    rw [get?_ema_record] at he
    split_ifs at he
    · obtain rfl := Option.some.inj he
      refine relax_pos h.alpha_pos h.alpha_le_one ?_ hx
      cases hold : lt.ema.get? b with
      | none => exact hx
      | some e => exact h.ema_pos b e hold
    · exact h.ema_pos b' e he

/-- **Estimates are positive** as long as the averages are. -/
theorem Positive.getEstimate_pos (h : lt.Positive) (b : String) : 0 < lt.getEstimate b := by
  refine lt_of_lt_of_le ?_ (lt.getEma_le_getEstimate b)
  rw [getEma]
  cases hold : lt.ema.get? b with
  | none => norm_num
  | some e => exact h.ema_pos b e hold

/-! ### Windows -/

/-- The window of a backend has the maximal length `m`, and holds the latest of the observations
`xs`. -/
structure Windowed (lt : LatencyTracker) (b : String) (m : ℕ) (xs : List ℚ) : Prop where
  maxlen_eq : (lt.window b).maxlen = m
  items_eq : (lt.window b).items = xs.rtake m

/-- The window after an append. -/
theorem windowed_append (d : Deque) {m : ℕ} {xs : List ℚ} (hmaxlen : d.maxlen = m)
    (hitems : d.items = xs.rtake m) (x : ℚ) :
    (d.append x).maxlen = m ∧ (d.append x).items = (xs ++ [x]).rtake m := by
  subst hmaxlen
  refine ⟨rfl, ?_⟩
  rw [rtake_concat, ← hitems]
  rfl

/-- An observation of a backend that has an average. -/
theorem Windowed.record {m : ℕ} {xs : List ℚ} (h : lt.Windowed b m xs)
    (hknown : lt.ema.get? b ≠ none) (x : ℚ) : (lt.record b x).Windowed b m (xs ++ [x]) := by
  obtain ⟨e, he⟩ := Option.ne_none_iff_exists'.mp hknown
  have hwindow : (lt.record b x).window b = (lt.window b).append x := by
    rw [window_record, if_pos rfl, openWindow, he]
  obtain ⟨hmaxlen, hitems⟩ := windowed_append _ h.maxlen_eq h.items_eq x
  exact ⟨hwindow ▸ hmaxlen, hwindow ▸ hitems⟩

/-- The first observation of a backend that has no average: its window gets the length of the
local one. -/
theorem windowed_register (hunknown : lt.ema.get? b = none) (x : ℚ) :
    (lt.record b x).Windowed b (lt.window backendLocal).items.length [x] := by
  have hwindow : (lt.record b x).window b =
      (Deque.empty (lt.window backendLocal).items.length).append x := by
    rw [window_record, if_pos rfl, openWindow, hunknown]
  have hempty : (Deque.empty (lt.window backendLocal).items.length).items =
      List.rtake [] (lt.window backendLocal).items.length := by simp [Deque.empty]
  obtain ⟨hmaxlen, hitems⟩ := windowed_append _ rfl hempty x
  exact ⟨hwindow ▸ hmaxlen, hwindow ▸ hitems⟩

/-- An observation of another backend. -/
theorem Windowed.record_of_ne {m : ℕ} {xs : List ℚ} (h : lt.Windowed b m xs) {b' : String}
    (hne : b ≠ b') (x : ℚ) : (lt.record b' x).Windowed b m xs := by
  have hwindow : (lt.record b' x).window b = lt.window b := by rw [window_record, if_neg hne]
  exact ⟨hwindow ▸ h.maxlen_eq, hwindow ▸ h.items_eq⟩

theorem Windowed.reset {m : ℕ} {xs : List ℚ} (h : lt.Windowed b m xs) :
    lt.reset.Windowed b m [] := by
  refine ⟨?_, ?_⟩
  · rw [window_reset]
    exact h.maxlen_eq
  · rw [window_reset]
    simp [Deque.clear, Deque.empty]

end LatencyTracker

/-! ### Runs -/

/-- A call of one of the methods that update the tracker. -/
inductive TrackerEvent
  | record (backend : String) (latencyMs : ℚ)
  | reset

/-- What a call does. -/
def LatencyTracker.perform (lt : LatencyTracker) : TrackerEvent → LatencyTracker
  | .record backend latencyMs => lt.record backend latencyMs
  | .reset => lt.reset

/-- The steps of the tracker: any call, with any arguments. -/
def TrackerStep (lt : LatencyTracker) (ev : TrackerEvent) (lt' : LatencyTracker) : Prop :=
  lt' = lt.perform ev

/-- The latencies recorded for a backend since the last reset, the oldest first. -/
def recorded (b : String) : List (LatencyTracker × TrackerEvent) → List ℚ
  | [] => []
  | (_, .record backend latencyMs) :: tr =>
      if b = backend then recorded b tr ++ [latencyMs] else recorded b tr
  | (_, .reset) :: _ => []

/-- The step does not create the window of the backend with a length other than `w`: `record` meets
it for the first time only while the local window holds `w` observations. -/
def OpensFull (w : ℕ) (b : String) (lt : LatencyTracker) : TrackerEvent → Prop
  | .record backend _ =>
      b = backend → lt.ema.get? b = none → (lt.window backendLocal).items.length = w
  | .reset => True

instance (w : ℕ) (b : String) (lt : LatencyTracker) : DecidablePred (OpensFull w b lt)
  | .record backend _ =>
    inferInstanceAs (Decidable (b = backend → lt.ema.get? b = none → _ = w))
  | .reset => inferInstanceAs (Decidable True)

variable {alpha avgLocal avgRemote : ℚ} {w : ℕ} {tr : List (LatencyTracker × TrackerEvent)}
  {lt : LatencyTracker} {b : String}

open LatencyTracker

/-- The weight of an observation never changes. -/
theorem alpha_of_run (run : Run TrackerStep (new alpha avgLocal avgRemote w) tr lt) :
    lt.alpha = alpha := by
  refine run.invariant_all (P := fun lt => lt.alpha = alpha) rfl ?_
  rintro lt ev lt' hlt rfl
  cases ev with
  | record backend latencyMs => exact (alpha_record ..).trans hlt
  | reset => exact hlt

/-- The built-in backends have an average in every reachable state. -/
theorem ema_builtin_of_run (hb : Builtin b)
    (run : Run TrackerStep (new alpha avgLocal avgRemote w) tr lt) : lt.ema.get? b ≠ none := by
  refine run.invariant_all (P := fun lt => lt.ema.get? b ≠ none)
    ((get?_seeds_ne_none_iff ..).mpr hb) ?_
  rintro lt ev lt' hlt rfl
  cases ev with
  | record backend latencyMs =>
    change (lt.record backend latencyMs).ema.get? b ≠ none
    rw [get?_ema_record]
    split_ifs
    · simp
    · exact hlt
  | reset => exact (get?_seeds_ne_none_iff ..).mpr hb

/-- A backend without an average has no observations since the last reset. -/
theorem recorded_eq_nil_of_run (run : Run TrackerStep (new alpha avgLocal avgRemote w) tr lt)
    (hunknown : lt.ema.get? b = none) : recorded b tr = [] := by
  induction run with
  | start => rfl
  | @step tr lt ev lt' run h ih =>
    subst h
    cases ev with
    | record backend latencyMs =>
      change (lt.record backend latencyMs).ema.get? b = none at hunknown
      rw [get?_ema_record] at hunknown
      split_ifs at hunknown with hne
      rw [recorded, if_neg hne]
      exact ih hunknown
    | reset => rfl

/-- **The window of a built-in backend** holds its latest `window_size` observations. -/
theorem windowed_builtin_of_run (hb : Builtin b)
    (run : Run TrackerStep (new alpha avgLocal avgRemote w) tr lt) :
    lt.Windowed b w (recorded b tr) := by
  induction run with
  | start =>
    have hwindow := window_new_of_builtin b hb alpha avgLocal avgRemote w
    refine ⟨?_, ?_⟩
    · rw [hwindow]
      rfl
    · rw [hwindow]
      simp [Deque.empty, recorded]
  | @step tr lt ev lt' run h ih =>
    subst h
    cases ev with
    | record backend latencyMs =>
      rw [recorded]
      split_ifs with heq
      · subst heq
        exact ih.record (ema_builtin_of_run hb run) latencyMs
      · exact ih.record_of_ne heq latencyMs
    | reset => exact ih.reset

/-- **The window of a backend** holds its latest `window_size` observations, in a run in which
`record` does not meet the backend for the first time before the local window is full. -/
theorem windowed_of_run (run : Run TrackerStep (new alpha avgLocal avgRemote w) tr lt)
    (hfull : ∀ t ∈ tr, OpensFull w b t.1 t.2) (hknown : lt.ema.get? b ≠ none) :
    lt.Windowed b w (recorded b tr) := by
  induction run with
  | start => exact windowed_builtin_of_run ((get?_seeds_ne_none_iff ..).mp hknown) .start
  | @step tr lt ev lt' run h ih =>
    obtain ⟨hstep, hearlier⟩ := List.forall_mem_cons.mp hfull
    subst h
    cases ev with
    | record backend latencyMs =>
      rw [recorded]
      split_ifs with heq
      · subst heq
        cases hold : lt.ema.get? b with
        | none =>
          rw [recorded_eq_nil_of_run run hold, List.nil_append]
          have hopen := windowed_register hold latencyMs
          rwa [hstep rfl hold] at hopen
        | some e => exact (ih hearlier (by simp [hold])).record (by simp [hold]) latencyMs
      · have hsame : lt.ema.get? b ≠ none := by
          change (lt.record backend latencyMs).ema.get? b ≠ none at hknown
          rwa [get?_ema_record, if_neg heq] at hknown
        exact (ih hearlier hsame).record_of_ne heq latencyMs
    | reset =>
      have hb : Builtin b := (get?_seeds_ne_none_iff ..).mp hknown
      exact (windowed_builtin_of_run hb run).reset

end InferenceRouter
