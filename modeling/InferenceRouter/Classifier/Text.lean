import Mathlib.Data.List.DropRight

/-!
# The text operations of the classifier

The operations of Python on strings that `app/complexity_classifier.py` uses, on lists of
characters: `str.strip` and `str.split` without an argument, and the classes of characters of the
module `re`. White space is listed. Which characters are letters and digits is read off the Unicode
database, which is a parameter: all that is used of it is what it says of ASCII, and that white
space is neither.

## Main definitions

* `InferenceRouter.isSpace`, `InferenceRouter.strip`, `InferenceRouter.split`.
* `InferenceRouter.UnicodeData`, with the instance `InferenceRouter.UnicodeData.ascii`.
* `InferenceRouter.SameLetter`: a character in another case.

## Main results

* `InferenceRouter.exists_strip_eq`, `InferenceRouter.strip_append`: a text around its stripped
  part, and the stripped part of a longer text.
* `InferenceRouter.strip_toLower`, `InferenceRouter.length_split_toLower`: letter case.
-/

namespace InferenceRouter

/-! ### Trimming lists -/

section Trim

variable {α : Type*} {p : α → Bool}

/-- What is in front of an item that is kept is dropped on its own. -/
theorem dropWhile_append_of_head {ys : List α} (hys : ∀ y ∈ ys.head?, p y = false)
    (xs : List α) : (xs ++ ys).dropWhile p = xs.dropWhile p ++ ys := by
  have hkept : ys.dropWhile p = ys := by
    cases ys with
    | nil => rfl
    | cons y ys => exact List.dropWhile_cons_of_neg (by rw [hys y rfl]; exact Bool.false_ne_true)
  rw [List.dropWhile_append, hkept]
  split_ifs with hempty
  · rw [List.isEmpty_iff.mp hempty, List.nil_append]
  · rfl

theorem rdropWhile_append_of_last {xs : List α} (hxs : ∀ x ∈ xs.getLast?, p x = false)
    (ys : List α) : (xs ++ ys).rdropWhile p = xs ++ ys.rdropWhile p := by
  have hrev : ∀ x ∈ xs.reverse.head?, p x = false := by rwa [List.head?_reverse]
  rw [List.rdropWhile, List.reverse_append, dropWhile_append_of_head hrev, List.reverse_append,
    List.reverse_reverse]
  rfl

theorem head_dropWhile (xs : List α) : ∀ x ∈ (xs.dropWhile p).head?, p x = false := by
  intro x hx
  have hhead := List.head?_dropWhile_not p xs
  rwa [Option.mem_def.mp hx] at hhead

theorem getLast_rdropWhile (xs : List α) : ∀ x ∈ (xs.rdropWhile p).getLast?, p x = false := by
  rw [List.rdropWhile, List.getLast?_reverse]
  exact head_dropWhile xs.reverse

end Trim

/-! ### White space -/

/-- The code points that `str.isspace` accepts, as ranges. `str.strip` strips them, `str.split`
splits at them, and `\s` matches them. -/
def spaceRanges : List (ℕ × ℕ) :=
  [(0x9, 0xd), (0x1c, 0x20), (0x85, 0x85), (0xa0, 0xa0), (0x1680, 0x1680), (0x2000, 0x200a),
    (0x2028, 0x2029), (0x202f, 0x202f), (0x205f, 0x205f), (0x3000, 0x3000)]

/-- `str.isspace`, of one character. -/
def isSpace (c : Char) : Bool :=
  spaceRanges.any fun range => decide (range.1 ≤ c.toNat) && decide (c.toNat ≤ range.2)

/-- `str.strip`. -/
def strip (text : List Char) : List Char := (text.dropWhile isSpace).rdropWhile isSpace

/-- `str.split`. -/
def split (text : List Char) : List (List Char) :=
  (text.splitOnP isSpace).filter fun word => !word.isEmpty

/-- The stripped part of a text begins and ends with no white space. -/
theorem head_strip (text : List Char) : ∀ c ∈ (strip text).head?, isSpace c = false := by
  intro c hc
  have hprefix : strip text <+: text.dropWhile isSpace := List.rdropWhile_prefix _ _
  obtain ⟨rest, hrest⟩ := hprefix
  refine head_dropWhile text c ?_
  rw [← hrest, List.head?_append, Option.mem_def.mp hc]
  rfl

theorem getLast_strip (text : List Char) : ∀ c ∈ (strip text).getLast?, isSpace c = false :=
  getLast_rdropWhile _

/-- **A text** is its stripped part, with white space around it. -/
theorem exists_strip_eq (text : List Char) :
    ∃ before after : List Char, (∀ c ∈ before, isSpace c = true) ∧
      (∀ c ∈ after, isSpace c = true) ∧ text = before ++ strip text ++ after := by
  refine ⟨text.takeWhile isSpace, (text.dropWhile isSpace).rtakeWhile isSpace,
    fun c hc => List.mem_takeWhile_imp hc, fun c hc => List.mem_rtakeWhile_imp hc, ?_⟩
  rw [strip, List.append_assoc, List.rdropWhile_append_rtakeWhile, List.takeWhile_append_dropWhile]

/-- **The stripped part of a longer text.** What surrounds a text that begins and ends with no white
space is stripped at its outer ends only. -/
theorem strip_append {text : List Char} (hne : text ≠ [])
    (hhead : ∀ c ∈ text.head?, isSpace c = false) (hlast : ∀ c ∈ text.getLast?, isSpace c = false)
    (left right : List Char) :
    strip (left ++ text ++ right) =
      left.dropWhile isSpace ++ text ++ right.rdropWhile isSpace := by
  have hhead' : ∀ c ∈ (text ++ right).head?, isSpace c = false := by
    rw [List.head?_append_of_ne_nil _ hne]
    exact hhead
  have hlast' : ∀ c ∈ (left.dropWhile isSpace ++ text).getLast?, isSpace c = false := by
    rw [List.getLast?_append_of_ne_nil _ hne]
    exact hlast
  rw [strip, List.append_assoc, dropWhile_append_of_head hhead', ← List.append_assoc,
    rdropWhile_append_of_last hlast']

/-! ### Letter case -/

/-- What does not tell a capital letter of ASCII from its small letter does not see letter case. The
capital letters start at 65 and the small letters at 97. -/
theorem apply_toLower {γ : Type*} {f : Char → γ}
    (h : ∀ n < 26, f (Char.ofNat (97 + n)) = f (Char.ofNat (65 + n))) (c : Char) :
    f c.toLower = f c := by
  by_cases hupper : c.val ≥ 'A'.val ∧ c.val ≤ 'Z'.val
  · have hlo : 65 ≤ c.toNat := hupper.1
    have hhi : c.toNat ≤ 90 := hupper.2
    obtain ⟨n, hn, rfl⟩ : ∃ n < 26, c = Char.ofNat (65 + n) :=
      ⟨c.toNat - 65, by omega, by rw [Nat.add_sub_cancel' hlo, Char.ofNat_toNat]⟩
    have hlower : ∀ n < 26, (Char.ofNat (65 + n)).toLower = Char.ofNat (97 + n) := by decide
    rw [hlower n hn, h n hn]
  · have hsame : c.toLower = c := dif_neg hupper
    rw [hsame]

theorem isSpace_toLower (c : Char) : isSpace c.toLower = isSpace c :=
  apply_toLower (by decide) c

theorem toLower_toLower (c : Char) : c.toLower.toLower = c.toLower :=
  apply_toLower (by decide) c

theorem toLower_toUpper (c : Char) : c.toUpper.toLower = c.toLower := by
  by_cases hlower : 'a'.val ≤ c.val ∧ c.val ≤ 'z'.val
  · have hlo : 97 ≤ c.toNat := hlower.1
    have hhi : c.toNat ≤ 122 := hlower.2
    obtain ⟨n, hn, rfl⟩ : ∃ n < 26, c = Char.ofNat (97 + n) :=
      ⟨c.toNat - 97, by omega, by rw [Nat.add_sub_cancel' hlo, Char.ofNat_toNat]⟩
    have hboth : ∀ n < 26,
        (Char.ofNat (97 + n)).toUpper.toLower = (Char.ofNat (97 + n)).toLower := by decide
    exact hboth n hn
  · have hsame : c.toUpper = c := dif_neg hlower
    rw [hsame]

theorem strip_toLower (text : List Char) :
    strip (text.map Char.toLower) = (strip text).map Char.toLower := by
  have hspace : isSpace ∘ Char.toLower = isSpace := funext isSpace_toLower
  rw [strip, strip, List.dropWhile_map, hspace, List.rdropWhile, List.rdropWhile,
    ← List.map_reverse, List.dropWhile_map, hspace, List.map_reverse]

theorem splitOnP_toLower (text : List Char) :
    (text.map Char.toLower).splitOnP isSpace =
      (text.splitOnP isSpace).map (List.map Char.toLower) := by
  induction text with
  | nil => rfl
  | cons c text ih =>
    rw [List.map_cons, List.splitOnP_cons_eq_if_modifyHead, List.splitOnP_cons_eq_if_modifyHead,
      isSpace_toLower, ih]
    split_ifs
    · rfl
    · cases text.splitOnP isSpace <;> rfl

/-- The number of words. -/
theorem length_split_toLower (text : List Char) :
    (split (text.map Char.toLower)).length = (split text).length := by
  rw [split, split, splitOnP_toLower, List.filter_map, List.length_map]
  congr 2
  funext word
  rw [Function.comp, List.isEmpty_map]

/-- The character `c'` is `c`, or `c` in the other case, if it is a letter of ASCII. -/
def SameLetter (c c' : Char) : Prop := c' = c ∨ c' = c.toUpper ∨ c' = c.toLower

instance (c c' : Char) : Decidable (SameLetter c c') :=
  inferInstanceAs (Decidable (_ ∨ _ ∨ _))

theorem SameLetter.toLower_eq {c c' : Char} (h : SameLetter c c') : c'.toLower = c.toLower := by
  rcases h with rfl | rfl | rfl
  · rfl
  · exact toLower_toUpper c
  · exact toLower_toLower c

/-- Texts that differ in letter case are the same in small letters. -/
theorem map_toLower_eq {text text' : List Char} (h : List.Forall₂ SameLetter text text') :
    text'.map Char.toLower = text.map Char.toLower := by
  induction h with
  | nil => rfl
  | cons hc _ ih => rw [List.map_cons, List.map_cons, hc.toLower_eq, ih]

/-! ### The Unicode database -/

/-- What `str.isalnum` and `str.isdecimal` accept, of one character. -/
structure UnicodeData where
  isAlnum : Char → Bool
  isDecimal : Char → Bool
  isAlnum_ascii : ∀ c : Char, c.toNat < 128 → isAlnum c = c.isAlphanum
  isDecimal_ascii : ∀ c : Char, c.toNat < 128 → isDecimal c = c.isDigit
  isAlnum_of_isSpace : ∀ c : Char, isSpace c = true → isAlnum c = false

namespace UnicodeData

variable (u : UnicodeData)

/-- What agrees on ASCII with something that does not see letter case does not see it either. -/
theorem apply_toLower_of_ascii {f g : Char → Bool} (hfg : ∀ c : Char, c.toNat < 128 → f c = g c)
    (h : ∀ n < 26, g (Char.ofNat (97 + n)) = g (Char.ofNat (65 + n))) (c : Char) :
    f c.toLower = f c := by
  refine apply_toLower (fun n hn => ?_) c
  have hascii : ∀ n < 26,
      (Char.ofNat (97 + n)).toNat < 128 ∧ (Char.ofNat (65 + n)).toNat < 128 := by decide
  obtain ⟨hsmall, hcapital⟩ := hascii n hn
  rw [hfg _ hsmall, hfg _ hcapital, h n hn]

theorem isAlnum_toLower (c : Char) : u.isAlnum c.toLower = u.isAlnum c :=
  apply_toLower_of_ascii u.isAlnum_ascii (by decide) c

theorem isDecimal_toLower (c : Char) : u.isDecimal c.toLower = u.isDecimal c :=
  apply_toLower_of_ascii u.isDecimal_ascii (by decide) c

/-- The letters and digits of ASCII are in ASCII. -/
theorem toNat_lt_of_isAlphanum {c : Char} (h : c.isAlphanum = true) : c.toNat < 128 := by
  have hbelow {d : Char} (hd : d.toNat < 128) (hle : c.val ≤ d.val) : c.toNat < 128 :=
    Nat.lt_of_le_of_lt hle hd
  have hcases : (c.isUpper || c.isLower || c.isDigit) = true := h
  rw [Bool.or_eq_true, Bool.or_eq_true] at hcases
  rcases hcases with (hupper | hlower) | hdigit
  · exact hbelow (d := 'Z') (by decide) (of_decide_eq_true hupper).2
  · exact hbelow (d := 'z') (by decide) (of_decide_eq_true (Bool.and_eq_true_iff.mp hlower).2)
  · exact hbelow (d := '9') (by decide) (of_decide_eq_true (Bool.and_eq_true_iff.mp hdigit).2)

/-- The database, of ASCII only. -/
def ascii : UnicodeData where
  isAlnum := Char.isAlphanum
  isDecimal := Char.isDigit
  isAlnum_ascii _ _ := rfl
  isDecimal_ascii _ _ := rfl
  isAlnum_of_isSpace c hc := by
    by_cases hascii : c.toNat < 128
    · have hdisjoint : ∀ n < 128, isSpace (Char.ofNat n) = true →
          (Char.ofNat n).isAlphanum = false := by decide
      have halnum := hdisjoint c.toNat hascii
      rw [Char.ofNat_toNat] at halnum
      exact halnum hc
    · exact Bool.eq_false_iff.mpr fun halnum => hascii (toNat_lt_of_isAlphanum halnum)

end UnicodeData

end InferenceRouter
