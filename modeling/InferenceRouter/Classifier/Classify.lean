import InferenceRouter.Classifier.Text
import InferenceRouter.Foundation.Regex
import InferenceRouter.Models

/-!
# The classifier of prompts

The patterns of `app/complexity_classifier.py`, as regular expressions under `re.IGNORECASE`, and
`classify`. A pattern of the source stands in the comment over its expression.

## Main definitions

* `InferenceRouter.CharClass`, `InferenceRouter.unicode`: the classes of characters of `re`.
* `InferenceRouter.qualityPatterns`, `InferenceRouter.fastPatterns`, `InferenceRouter.classify`.

## Main results

* `InferenceRouter.quality_patterns_embed`: the quality patterns have no anchors, and match no empty
  text.
* `InferenceRouter.unicode_toLower`, `InferenceRouter.startsWord_of_isSpace`: the classes do not see
  letter case, and white space belongs to no word.
-/

namespace InferenceRouter

open Foundation

/-! ### Classes of characters -/

/-- What may stand between the brackets of a class: a character, `\d` or `\s`. -/
inductive ClassItem
  | lit (c : Char)
  | digit
  | space

/-- The classes of characters of the patterns: the dot, and sets. -/
inductive CharClass
  | dot
  | set (items : List ClassItem)

/-- The characters outside ASCII that are equal to a small letter when the letter case is ignored:
the capital I with a dot and the small i without one, the long s, and the sign for kelvin. -/
def otherCases : Char → List Char
  | 'i' => [Char.ofNat 0x130, Char.ofNat 0x131]
  | 's' => [Char.ofNat 0x17f]
  | 'k' => [Char.ofNat 0x212a]
  | _ => []

/-- Whether `c` matches the item under `re.IGNORECASE`. -/
def ClassItem.holds (u : UnicodeData) (c : Char) : ClassItem → Bool
  | lit l => c.toLower == l.toLower || (otherCases l.toLower).contains c
  | digit => u.isDecimal c
  | space => isSpace c

/-- Whether `c` is in a class. -/
def CharClass.holds (u : UnicodeData) (c : Char) : CharClass → Bool
  | dot => c != '\n'
  | set items => items.any (ClassItem.holds u c)

/-- The alphabet of `re`, for patterns of strings. -/
def unicode (u : UnicodeData) : Alphabet CharClass Char where
  holds k c := k.holds u c
  word c := u.isAlnum c || c == '_'
  newline c := c == '\n'

variable (u : UnicodeData)

theorem otherCases_toLower (l c : Char) :
    (otherCases l).contains c.toLower = (otherCases l).contains c := by
  unfold otherCases
  split <;> exact apply_toLower (f := fun c => List.contains _ c) (by decide) c

theorem ClassItem.holds_toLower (item : ClassItem) (c : Char) :
    item.holds u c.toLower = item.holds u c := by
  cases item with
  | lit l => rw [ClassItem.holds, ClassItem.holds, toLower_toLower, otherCases_toLower]
  | digit => exact u.isDecimal_toLower c
  | space => exact isSpace_toLower c

/-- **The classes of characters do not see letter case.** -/
theorem unicode_toLower : (unicode u).Respects (unicode u) Char.toLower where
  holds k c := by
    cases k with
    | dot => exact apply_toLower (f := fun c => c != '\n') (by decide) c
    | set items =>
      dsimp only [unicode, CharClass.holds]
      congr 1
      exact funext fun item => item.holds_toLower u c
  word c := by
    have hunderscore : (c.toLower == '_') = (c == '_') :=
      apply_toLower (f := fun c => c == '_') (by decide) c
    exact congrArg₂ or (u.isAlnum_toLower c) hunderscore
  newline c := apply_toLower (f := fun c => c == '\n') (by decide) c

/-- White space belongs to no word. -/
theorem startsWord_of_isSpace {text : List Char} (h : ∀ c ∈ text.head?, isSpace c = true) :
    Regex.startsWord (unicode u) text = false := by
  cases text with
  | nil => rfl
  | cons c text =>
    have hc : isSpace c = true := h c rfl
    have hunderscore : (c == '_') = false := by
      rw [beq_eq_false_iff_ne]
      rintro rfl
      exact absurd hc (by decide)
    exact congrArg₂ or (u.isAlnum_of_isSpace c hc) hunderscore

/-! ### Patterns -/

/-- A compiled pattern. -/
abbrev Pattern := Regex CharClass

namespace Pattern

/-- `[…]`, of single characters. -/
def oneOf (chars : String) : Pattern := .char (.set (chars.toList.map .lit))

/-- The characters of a string. -/
def text (chars : String) : Pattern :=
  chars.toList.foldr (fun c r => .seq (.char (.set [.lit c])) r) .empty

/-- One pattern after the other. -/
def seqs (rs : List Pattern) : Pattern := rs.foldr .seq .empty

/-- `(…|…)`, of strings. -/
def group (alternatives : String) (others : List String) : Pattern :=
  others.foldl (fun r other => .alt r (text other)) (text alternatives)

/-- `…?`. -/
def opt (r : Pattern) : Pattern := .rep r 0 (some 1)

/-- `.`. -/
def any : Pattern := .char .dot

/-- `\b…\b`. -/
def whole (rs : List Pattern) : Pattern := seqs ([.boundary] ++ rs ++ [.boundary])

/-- `^…\b`. -/
def opening (rs : List Pattern) : Pattern := seqs ([.textStart] ++ rs ++ [.boundary])

end Pattern

open Pattern

/-- `_QUALITY_PATTERNS`. -/
def qualityPatterns : List Pattern :=
  [ -- \bexplain\b
    whole [text "explain"],
    -- \bwhy\b
    whole [text "why"],
    -- \banalys[ei]s?\b
    whole [text "analys", oneOf "ei", opt (text "s")],
    -- \banalyze?\b
    whole [text "analyz", opt (text "e")],
    -- \bcompare\b
    whole [text "compare"],
    -- \bcontrast\b
    whole [text "contrast"],
    -- \bdesign\b
    whole [text "design"],
    -- \barchitect\b
    whole [text "architect"],
    -- \bimplement\b
    whole [text "implement"],
    -- \bcode\b
    whole [text "code"],
    -- \bwrite\b.{0,40}\b(essay|report|letter|function|class|module|script)\b
    whole [text "write", .boundary, .rep any 0 (some 40), .boundary,
      group "essay" ["report", "letter", "function", "class", "module", "script"]],
    -- \bprove\b
    whole [text "prove"],
    -- \bderive\b
    whole [text "derive"],
    -- \boptimi[sz]e?\b
    whole [text "optimi", oneOf "sz", opt (text "e")],
    -- \brefactor\b
    whole [text "refactor"],
    -- \bdebug\b
    whole [text "debug"],
    -- \bstep.by.step\b
    whole [text "step", any, text "by", any, text "step"],
    -- \bbreakdown\b
    whole [text "breakdown"],
    -- \bsummarise\b
    whole [text "summarise"],
    -- \bsummarize\b
    whole [text "summarize"],
    -- \bhow does\b
    whole [text "how does"],
    -- \bhow do\b
    whole [text "how do"],
    -- \bwhat are the\b
    whole [text "what are the"],
    -- \badvantages?\b
    whole [text "advantage", opt (text "s")],
    -- \bdisadvantages?\b
    whole [text "disadvantage", opt (text "s")],
    -- \btrade.?offs?\b
    whole [text "trade", opt any, text "off", opt (text "s")],
    -- \brecommend\b
    whole [text "recommend"],
    -- \bsugggest\b
    whole [text "sugggest"],
    -- \bevaluate\b
    whole [text "evaluate"],
    -- \bcritique\b
    whole [text "critique"]]

/-- `_FAST_PATTERNS`. -/
def fastPatterns : List Pattern :=
  [ -- ^what is\b
    opening [text "what is"],
    -- ^who is\b
    opening [text "who is"],
    -- ^who was\b
    opening [text "who was"],
    -- ^when (is|was|did)\b
    opening [text "when ", group "is" ["was", "did"]],
    -- ^where (is|was)\b
    opening [text "where ", group "is" ["was"]],
    -- ^(hi|hello|hey|good morning|good evening)\b
    opening [group "hi" ["hello", "hey", "good morning", "good evening"]],
    -- ^thanks?\b
    opening [text "thank", opt (text "s")],
    -- ^(yes|no|ok|okay|sure)\b
    opening [group "yes" ["no", "ok", "okay", "sure"]],
    -- \bdefine\b
    whole [text "define"],
    -- \bspell\b
    whole [text "spell"],
    -- \btranslat[ei]\b
    whole [text "translat", oneOf "ei"],
    -- ^list\b.{0,20}\b(of\b)?
    seqs [opening [text "list"], .rep any 0 (some 20), .boundary,
      opt (seqs [text "of", .boundary])],
    -- ^\d[\d\s\+\-\*\/\^]+\=?$
    seqs [.textStart, .char (.set [.digit]),
      .rep (.char (.set ([.digit, .space] ++ "+-*/^".toList.map .lit))) 1 none,
      opt (text "="), .textEnd]]

/-- `_TOKEN_THRESHOLD`. -/
def tokenThreshold : ℕ := 60

/-- The quality patterns have no anchors, and match no empty text. -/
theorem quality_patterns_embed :
    ∀ pattern ∈ qualityPatterns, pattern.anchorFree = true ∧ 0 < pattern.minLength := by
  decide

/-- `complexity_classifier.classify`. -/
def classify (prompt : String) : ComplexityTier :=
  let stripped := strip prompt.toList
  if qualityPatterns.any fun pattern => pattern.search (unicode u) stripped then .quality
  else if fastPatterns.any fun pattern => pattern.search (unicode u) stripped then .fast
  else
    let wordCount := (split stripped).length
    if tokenThreshold ≤ wordCount then .quality else .fast

example : classify .ascii "What is the best way to explain recursion?" = .quality := by
  decide +kernel

example : classify .ascii "2 + 2" = .fast := by decide +kernel

end InferenceRouter
