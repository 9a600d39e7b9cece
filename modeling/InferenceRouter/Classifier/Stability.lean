import InferenceRouter.Classifier.Classify

/-!
# What the tier of a prompt does not depend on

A prompt with a quality signal keeps it in every context: a match of a quality pattern is a match
in the longer text, since the text around it is set off by white space, and the quality patterns are
tried first. The letter case of a prompt does not matter: all that `classify` does to a text is the
same in small letters.

## Main results

* `InferenceRouter.search_strip_append`: a match in a longer text.
* `InferenceRouter.quality_signal_undiluted`.
* `InferenceRouter.classify_ignores_case`.
-/

namespace InferenceRouter

open Foundation

variable (u : UnicodeData)

/-! ### A quality signal in a longer text -/

theorem classify_of_match {prompt : String} {pattern : Pattern}
    (hpattern : pattern ∈ qualityPatterns)
    (hmatch : pattern.search (unicode u) (strip prompt.toList) = true) :
    classify u prompt = .quality :=
  if_pos (List.any_eq_true.mpr ⟨pattern, hpattern, hmatch⟩)

/-- The last character of what is left of a text is that of the text. -/
theorem getLast_of_suffix {left text : List Char} (h : left <:+ text)
    (hlast : ∀ c ∈ text.getLast?, isSpace c = true) : ∀ c ∈ left.getLast?, isSpace c = true := by
  obtain ⟨before, rfl⟩ := h
  intro c hc
  refine hlast c ?_
  rw [List.getLast?_append, Option.mem_def.mp hc]
  rfl

theorem head_of_prefix {right text : List Char} (h : right <+: text)
    (hhead : ∀ c ∈ text.head?, isSpace c = true) : ∀ c ∈ right.head?, isSpace c = true := by
  obtain ⟨after, rfl⟩ := h
  intro c hc
  refine hhead c ?_
  rw [List.head?_append, Option.mem_def.mp hc]
  rfl

/-- **A match in a longer text.** If a quality pattern matches in a stripped text, it matches in
every stripped text around it, if white space sets the text off. -/
theorem search_strip_append {pattern : Pattern} (hpattern : pattern ∈ qualityPatterns)
    {left text right : List Char} (hleft : ∀ c ∈ left.getLast?, isSpace c = true)
    (hright : ∀ c ∈ right.head?, isSpace c = true)
    (hmatch : pattern.search (unicode u) (strip text) = true) :
    pattern.search (unicode u) (strip (left ++ text ++ right)) = true := by
  obtain ⟨hanchors, hlength⟩ := quality_patterns_embed pattern hpattern
  have hne : strip text ≠ [] := by
    intro hnil
    have hle := Regex.minLength_le_of_search hmatch
    rw [hnil, List.length_nil] at hle
    omega
  obtain ⟨before, after, hbefore, hafter, htext⟩ := exists_strip_eq text
  have hwhole : left ++ text ++ right = (left ++ before) ++ strip text ++ (after ++ right) := by
    conv_lhs => rw [htext]
    simp only [List.append_assoc]
  rw [hwhole, strip_append hne (head_strip text) (getLast_strip text)]
  -- the white space of the text itself stands between it and what surrounds it
  have hlast : ∀ c ∈ (left ++ before).getLast?, isSpace c = true := by
    intro c hc
    rw [List.getLast?_append, Option.mem_def, Option.or_eq_some_iff] at hc
    rcases hc with hc | ⟨-, hc⟩
    · exact hbefore c (List.mem_of_getLast? hc)
    · exact hleft c hc
  have hhead : ∀ c ∈ (after ++ right).head?, isSpace c = true := by
    intro c hc
    rw [List.head?_append, Option.mem_def, Option.or_eq_some_iff] at hc
    rcases hc with hc | ⟨-, hc⟩
    · exact hafter c (List.mem_of_head? hc)
    · exact hright c hc
  refine Regex.search_extend (startsWord_of_isSpace u ?_) (startsWord_of_isSpace u ?_) hanchors
    hmatch
  · rw [List.head?_reverse]
    exact getLast_of_suffix (List.dropWhile_suffix _) hlast
  · exact head_of_prefix (List.rdropWhile_prefix _ _) hhead

/-- **A quality signal cannot be diluted.** If a quality pattern matches in a stripped prompt, the
prompt has the tier `quality` in every context that is set off by a blank on both sides, and with
any white space around it. -/
theorem quality_signal_undiluted {prompt : String}
    (hmatch : ∃ pattern ∈ qualityPatterns,
      pattern.search (unicode u) (strip prompt.toList) = true) :
    (∀ a b : String, classify u (a ++ " " ++ prompt ++ " " ++ b) = .quality) ∧
      ∀ before after : String, (∀ c ∈ before.toList, isSpace c = true) →
        (∀ c ∈ after.toList, isSpace c = true) →
        classify u (before ++ prompt ++ after) = .quality := by
  obtain ⟨pattern, hpattern, hsearch⟩ := hmatch
  refine ⟨fun a b => classify_of_match u hpattern ?_,
    fun before after hbefore hafter => classify_of_match u hpattern ?_⟩
  · have hblank : isSpace ' ' = true := by decide
    have htext : (a ++ " " ++ prompt ++ " " ++ b).toList =
        (a.toList ++ [' ']) ++ prompt.toList ++ (' ' :: b.toList) := by
      simp [String.toList_append]
    rw [htext]
    refine search_strip_append u hpattern ?_ ?_ hsearch
    · intro c hc
      rw [List.getLast?_concat] at hc
      exact Option.some.inj hc ▸ hblank
    · intro c hc
      exact Option.some.inj hc ▸ hblank
  · rw [String.toList_append, String.toList_append]
    exact search_strip_append u hpattern (fun c hc => hbefore c (List.mem_of_getLast? hc))
      (fun c hc => hafter c (List.mem_of_head? hc)) hsearch

theorem quality_signal_undiluted_why :
    classify .ascii ("what is" ++ " " ++ "Why?" ++ " " ++ "2 + 2\n") = .quality ∧
      classify .ascii (" \t" ++ "Why?" ++ "\n") = .quality := by
  have hmatch : ∃ pattern ∈ qualityPatterns,
      pattern.search (unicode .ascii) (strip "Why?".toList) = true :=
    ⟨qualityPatterns[1], List.getElem_mem _, by decide +kernel⟩
  have hbefore : " \t".toList.all isSpace = true := by decide +kernel
  have hafter : "\n".toList.all isSpace = true := by decide +kernel
  obtain ⟨hcontext, hblank⟩ := quality_signal_undiluted .ascii hmatch
  exact ⟨hcontext _ _, hblank _ _ (List.all_eq_true.mp hbefore) (List.all_eq_true.mp hafter)⟩

/-! ### Letter case -/

/-- **Classification ignores letter case.** A prompt in which any letters of ASCII are changed to
the other case has the same tier. -/
theorem classify_ignores_case {prompt prompt' : String}
    (h : List.Forall₂ SameLetter prompt.toList prompt'.toList) :
    classify u prompt' = classify u prompt := by
  have hlower := map_toLower_eq h
  have hstrip : (strip prompt'.toList).map Char.toLower =
      (strip prompt.toList).map Char.toLower := by
    rw [← strip_toLower, hlower, strip_toLower]
  have hsearch (pattern : Pattern) :
      pattern.search (unicode u) (strip prompt'.toList) =
        pattern.search (unicode u) (strip prompt.toList) := by
    have hrespects := unicode_toLower u
    rw [← Regex.search_map hrespects, hstrip, Regex.search_map hrespects]
  have hcount : (split (strip prompt'.toList)).length = (split (strip prompt.toList)).length := by
    rw [← length_split_toLower, hstrip, length_split_toLower]
  rw [classify, classify]
  simp only [hsearch, hcount]

theorem classify_ignores_case_why : classify .ascii "wHY nOT?" = classify .ascii "Why not?" :=
  classify_ignores_case .ascii (by decide +kernel)

end InferenceRouter
