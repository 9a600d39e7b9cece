import InferenceRouter.Latency.Windows

/-!
# Spikes are seen and forgotten

The estimate of a backend covers its latest observations as long as its window is as long as
configured. The built-in backends always have such a window. `record` gives every other backend a
window that is as long as the local one is at that moment, which is too short unless the local
window happens to be full. Once a full window of new observations has come in, the estimate of a
built-in backend depends on the past only through a share of the old average that shrinks
geometrically.

## Main results

* `InferenceRouter.spike_coverage`: the latest observations are covered, with the run
  `InferenceRouter.spike_missed` in which they are not.
* `InferenceRouter.estimate_relaxes`: the closed form of the estimate, and its bound.
-/

namespace InferenceRouter

open Foundation LatencyTracker

variable {alpha avgLocal avgRemote : ℚ} {w : ℕ} {tr tr' : List (LatencyTracker × TrackerEvent)}
  {lt lt' : LatencyTracker} {b : String}

/-! ### Coverage -/

/-- **Spike coverage.** The estimate of a backend is at least its average. It is at least each of
the last `window_size` latencies recorded for the backend since the last reset if the backend is
built in, or if `record` has never met it for the first time, since the start or a reset, before
the local window was full. -/
theorem spike_coverage (run : Run TrackerStep (new alpha avgLocal avgRemote w) tr lt)
    (b : String) :
    lt.getEma b ≤ lt.getEstimate b ∧
      (Builtin b ∨ (∀ t ∈ tr, OpensFull w b t.1 t.2) →
        ∀ x ∈ (recorded b tr).rtake w, x ≤ lt.getEstimate b) := by
  refine ⟨lt.getEma_le_getEstimate b, fun h x hx => ?_⟩
  have hwindowed : lt.ema.get? b ≠ none → lt.Windowed b w (recorded b tr) := by
    intro hknown
    rcases h with hb | hfull
    · exact windowed_builtin_of_run hb run
    · exact windowed_of_run run hfull hknown
  by_cases hknown : lt.ema.get? b = none
  · rw [recorded_eq_nil_of_run run hknown] at hx
    simp [List.rtake] at hx
  · refine le_getEstimate ?_
    rwa [(hwindowed hknown).items_eq]

theorem spike_coverage_three_records : ∃ tr lt,
    Run TrackerStep (new (1 / 4) 250 800 1) tr lt ∧ (recorded "gpu" tr).rtake 1 = [100] ∧
      ∀ x ∈ (recorded "gpu" tr).rtake 1, x ≤ lt.getEstimate "gpu" := by
  have empty : Run TrackerStep (new (1 / 4) 250 800 1) [] _ := .start
  have run := empty |>.step (e := .record backendLocal 20) rfl
    |>.step (e := .record "gpu" 10) rfl |>.step (e := .record "gpu" 100) rfl
  exact ⟨_, _, run, by decide +kernel, (spike_coverage run "gpu").2 (Or.inr (by decide +kernel))⟩

/-- **A spike that is missed**: the tracker has met the backend while the local window was empty, so
that the window of the backend holds nothing. -/
theorem spike_missed : ∃ tr lt, Run TrackerStep (new (1 / 4) 250 800 5) tr lt ∧
    (100 : ℚ) ∈ (recorded "gpu" tr).rtake 5 ∧ lt.getEstimate "gpu" < 100 := by
  have empty : Run TrackerStep (new (1 / 4) 250 800 5) [] _ := .start
  have run := empty |>.step (e := .record "gpu" 10) rfl |>.step (e := .record "gpu" 100) rfl
  exact ⟨_, _, run, by decide +kernel, by decide +kernel⟩

/-! ### Relaxation -/

/-- The average of a built-in backend after calls of `record`. -/
theorem getEma_of_run (hb : Builtin b)
    (run : Run TrackerStep (new alpha avgLocal avgRemote w) tr lt)
    (run' : Run TrackerStep lt tr' lt') (hrecords : ∀ t ∈ tr', t.2 ≠ .reset) :
    lt'.getEma b = relaxAll alpha (lt.getEma b) (recorded b tr') := by
  induction run' with
  | start => rfl
  | @step tr' lt' ev lt'' run' h ih =>
    obtain ⟨hrecord, hearlier⟩ := List.forall_mem_cons.mp hrecords
    have hwhole := run.trans run'
    obtain ⟨e, he⟩ := Option.ne_none_iff_exists'.mp (ema_builtin_of_run hb hwhole)
    have hprev := ih hearlier
    subst h
    cases ev with
    | record backend latencyMs =>
      change (lt'.record backend latencyMs).getEma b = _
      rw [getEma, get?_ema_record, recorded, alpha_of_run hwhole]
      rw [getEma, he] at hprev
      split_ifs with heq
      · subst heq
        rw [relaxAll_concat, ← hprev, he]
        rfl
      · rw [← hprev, he]
    | reset => exact absurd rfl hrecord

/-- Without a reset, what has been recorded is appended. -/
theorem recorded_append (hrecords : ∀ t ∈ tr', t.2 ≠ .reset) :
    recorded b (tr' ++ tr) = recorded b tr ++ recorded b tr' := by
  induction tr' with
  | nil => exact (List.append_nil _).symm
  | cons t tr' ih =>
    obtain ⟨hrecord, hearlier⟩ := List.forall_mem_cons.mp hrecords
    obtain ⟨lt, ev⟩ := t
    cases ev with
    | record backend latencyMs =>
      rw [List.cons_append, recorded, recorded, ih hearlier]
      split_ifs
      · rw [List.append_assoc]
      · rfl
    | reset => exact absurd rfl hrecord

/-- **Estimates relax geometrically.** After at least `window_size` further observations `xs` of a
built-in backend, the oldest first, its estimate is the larger one of a weighted sum, in which the
average that it had before has the weight `(1 - alpha) ^ k`, and of the maximum of the last
`window_size` of them. So it is within every bound on them, up to what is left of the old
average. -/
theorem estimate_relaxes (hb : Builtin b) (hw : 1 ≤ w) (hα : 0 < alpha) (hα' : alpha ≤ 1)
    (run : Run TrackerStep (new alpha avgLocal avgRemote w) tr lt)
    (run' : Run TrackerStep lt tr' lt') (hrecords : ∀ t ∈ tr', t.2 ≠ .reset) {xs : List ℚ}
    (hxs : recorded b tr' = xs) (hk : w ≤ xs.length) :
    ∃ M, (xs.rtake w).max? = some M ∧
      lt'.getEstimate b = max ((1 - alpha) ^ xs.length * lt.getEma b +
        ∑ i ∈ Finset.range xs.length,
          alpha * (1 - alpha) ^ (xs.length - (i + 1)) * xs.getD i 0) M ∧
      ∀ m, (∀ x ∈ xs, x ≤ m) →
        lt'.getEstimate b ≤ max m (m + (1 - alpha) ^ xs.length * (lt.getEma b - m)) := by
  have hema := getEma_of_run hb run run' hrecords
  have hitems := (windowed_builtin_of_run hb (run.trans run')).items_eq
  rw [recorded_append hrecords, hxs, rtake_append_of_le _ _ hk] at hitems
  rw [hxs] at hema
  have hne : xs.rtake w ≠ [] := by
    intro hnil
    have hlength := congrArg List.length hnil
    rw [List.rtake, List.length_drop, List.length_nil] at hlength
    omega
  obtain ⟨M, hM⟩ := Option.ne_none_iff_exists'.mp (mt List.max?_eq_none_iff.mp hne)
  have hestimate := getEstimate_eq (hitems ▸ hM)
  refine ⟨M, hM, ?_, fun m hm => ?_⟩
  · rw [hestimate, hema, relaxAll_eq_sum]
  · rw [hestimate, hema, max_comm]
    have hMle : M ≤ m := hm M (List.drop_subset _ _ (List.max?_mem hM))
    exact max_le_max hMle (relaxAll_le hα.le hα' hm)

/-- A spike of 1000 ms that two observations have pushed out of a window of two. -/
theorem estimate_relaxes_after_two_records : ∃ tr lt tr' lt',
    Run TrackerStep (new (1 / 2) 250 800 2) tr lt ∧ lt.getEstimate backendLocal = 1000 ∧
      Run TrackerStep lt tr' lt' ∧
      lt'.getEstimate backendLocal ≤ max 200 (200 + (1 - 1 / 2) ^ 2 * (625 - 200)) := by
  have empty : Run TrackerStep (new (1 / 2) 250 800 2) [] _ := .start
  have run := empty |>.step (e := .record backendLocal 1000) rfl
  have empty' : Run TrackerStep ((new (1 / 2) 250 800 2).record backendLocal 1000) [] _ := .start
  have run' := empty' |>.step (e := .record backendLocal 200) rfl
    |>.step (e := .record backendRemote 900) rfl |>.step (e := .record backendLocal 100) rfl
  obtain ⟨M, -, -, hle⟩ := estimate_relaxes (w := 2) (Or.inl rfl) one_le_two (by norm_num)
    (by norm_num) run run' (by simp) (show _ = [200, 100] by decide +kernel) le_rfl
  refine ⟨_, _, _, _, run, by decide +kernel, run', (hle 200 (by simp; norm_num)).trans_eq ?_⟩
  decide +kernel

end InferenceRouter
