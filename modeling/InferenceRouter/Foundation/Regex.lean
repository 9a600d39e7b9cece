import Mathlib.Data.List.Basic
import Mathlib.Logic.Relation

/-!
# Regular expressions with word boundaries and anchors

Regular expressions as backtracking engines search for them. Whether an expression matches depends
on what stands around the match, at word boundaries and at the ends of the text, so that its meaning
is a relation on the *points* of a text. The classes of characters and the words are a parameter.

## Main definitions

* `Foundation.Point`: a point of a text.
* `Foundation.Regex`, `Foundation.Alphabet`.
* `Foundation.Regex.Leads`: the meaning of an expression.
* `Foundation.Regex.ends`, `Foundation.Regex.search`: the search for a match.

## Main results

* `Foundation.Regex.mem_ends_iff`, `Foundation.Regex.search_iff`: the search finds a match if there
  is one.
* `Foundation.Regex.search_map`: a map of the characters that all classes respect.
* `Foundation.Regex.search_extend`: a match of an expression without anchors is a match in every
  longer text, if no word is continued.
* `Foundation.Regex.minLength_le_of_search`.
-/

namespace Foundation

variable {κ α β : Type*}

/-! ### Points -/

/-- A point of a text: the characters before it, the nearest one first, and those after it. -/
structure Point (α : Type*) where
  before : List α
  after : List α

namespace Point

/-- The points of a text, of which `before` has been passed. -/
def pointsFrom (before : List α) : List α → List (Point α)
  | [] => [⟨before, []⟩]
  | x :: after => ⟨before, x :: after⟩ :: pointsFrom (x :: before) after

/-- The points of a text. -/
def points (text : List α) : List (Point α) := pointsFrom [] text

/-- The text around a point. -/
def text (p : Point α) : List α := p.before.reverse ++ p.after

/-- A point of a text with every character replaced. -/
def map (f : α → β) (p : Point α) : Point β := ⟨p.before.map f, p.after.map f⟩

/-- A point in a longer text, which continues to the left, the nearest character first, and to the
right. -/
def extend (left right : List α) (p : Point α) : Point α := ⟨p.before ++ left, p.after ++ right⟩

end Point

/-! ### Expressions -/

/-- The classes of characters that expressions name, and what they know of the characters. -/
structure Alphabet (κ α : Type*) where
  holds : κ → α → Bool
  word : α → Bool
  newline : α → Bool

/-- A map of the characters that all classes respect. -/
structure Alphabet.Respects (A : Alphabet κ α) (B : Alphabet κ β) (f : α → β) : Prop where
  holds : ∀ k x, B.holds k (f x) = A.holds k x
  word : ∀ x, B.word (f x) = A.word x
  newline : ∀ x, B.newline (f x) = A.newline x

/-- Regular expressions over the classes `κ`. -/
inductive Regex (κ : Type*)
  | empty
  | boundary
  | textStart
  | textEnd
  | char (k : κ)
  | seq (r r' : Regex κ)
  | alt (r r' : Regex κ)
  | rep (r : Regex κ) (lo : ℕ) (hi : Option ℕ)

namespace Regex

section Meaning

variable (A : Alphabet κ α)

/-- Whether there is a character of a word at one end of a list. -/
def startsWord (xs : List α) : Bool := xs.head?.any A.word

/-- A word begins or ends at the point. -/
def atBoundary (p : Point α) : Bool := startsWord A p.before != startsWord A p.after

/-- The text ends at the point, up to one newline. -/
def atTextEnd (p : Point α) : Bool :=
  match p.after with
  | [] => true
  | [x] => A.newline x
  | _ :: _ :: _ => false

/-- The points after the next character, if it is in the class `k`. -/
def charEnds (k : κ) (p : Point α) : List (Point α) :=
  match p.after with
  | [] => []
  | x :: after => if A.holds k x then [⟨x :: p.before, after⟩] else []

/-- A relation, iterated. -/
def Iterate {γ : Type*} (rel : γ → γ → Prop) : ℕ → γ → γ → Prop
  | 0 => Eq
  | n + 1 => Relation.Comp rel (Iterate rel n)

/-- **The meaning of an expression**: the points that a match may lead to. -/
def Leads : Regex κ → Point α → Point α → Prop
  | empty, p, q => q = p
  | boundary, p, q => q = p ∧ atBoundary A p
  | textStart, p, q => q = p ∧ p.before = []
  | textEnd, p, q => q = p ∧ atTextEnd A p
  | char k, p, q => q ∈ charEnds A k p
  | seq r r', p, q => Relation.Comp (Leads r) (Leads r') p q
  | alt r r', p, q => Leads r p q ∨ Leads r' p q
  | rep r lo hi, p, q => ∃ n, lo ≤ n ∧ (∀ m ∈ hi, n ≤ m) ∧ Iterate (Leads r) n p q

/-- A search, iterated. -/
def iterateEnds {γ : Type*} (next : γ → List γ) : ℕ → γ → List γ
  | 0, p => [p]
  | n + 1, p => (next p).flatMap (iterateEnds next n)

/-- The points that a match leads to. A repetition without a bound is tried as often as there are
characters left. -/
def ends : Regex κ → Point α → List (Point α)
  | empty, p => [p]
  | boundary, p => if atBoundary A p then [p] else []
  | textStart, p => if p.before.isEmpty then [p] else []
  | textEnd, p => if atTextEnd A p then [p] else []
  | char k, p => charEnds A k p
  | seq r r', p => (ends r p).flatMap (ends r')
  | alt r r', p => ends r p ++ ends r' p
  | rep r lo hi, p =>
    (List.range (hi.getD (lo + p.after.length) + 1 - lo)).flatMap fun n =>
      iterateEnds (ends r) (lo + n) p

/-- Whether the expression matches somewhere in a text. -/
def search (r : Regex κ) (text : List α) : Bool :=
  (Point.points text).any fun p => !(ends A r p).isEmpty

end Meaning

end Regex

/-! ### Moving through a text -/

namespace Point

variable {p p' q : Point α}

/-- `q` is a later point of the text, or the same one. -/
def Moves (p q : Point α) : Prop :=
  ∃ xs, p.after = xs ++ q.after ∧ q.before = xs.reverse ++ p.before

theorem Moves.refl (p : Point α) : p.Moves p := ⟨[], rfl, rfl⟩

theorem Moves.trans (h : p.Moves p') (h' : p'.Moves q) : p.Moves q := by
  obtain ⟨xs, hafter, hbefore⟩ := h
  obtain ⟨ys, hafter', hbefore'⟩ := h'
  refine ⟨xs ++ ys, ?_, ?_⟩
  · rw [hafter, hafter', List.append_assoc]
  · rw [hbefore', hbefore, List.reverse_append, List.append_assoc]

/-- A match that passes no character stays where it is. -/
theorem Moves.eq_of_length_le (h : p.Moves q) (hle : p.after.length ≤ q.after.length) : q = p := by
  obtain ⟨xs, hafter, hbefore⟩ := h
  obtain rfl : xs = [] := by
    rw [hafter, List.length_append] at hle
    exact List.eq_nil_of_length_eq_zero (by omega)
  obtain ⟨before, after⟩ := p
  obtain ⟨before', after'⟩ := q
  obtain rfl : after = after' := hafter
  obtain rfl : before' = before := hbefore
  rfl

theorem mem_pointsFrom_iff {before text : List α} :
    p ∈ pointsFrom before text ↔
      ∃ xs, text = xs ++ p.after ∧ p.before = xs.reverse ++ before := by
  obtain ⟨pbefore, pafter⟩ := p
  induction text generalizing before with
  | nil =>
    rw [pointsFrom, List.mem_singleton, Point.mk.injEq]
    constructor
    · rintro ⟨rfl, rfl⟩
      exact ⟨[], rfl, rfl⟩
    · rintro ⟨xs, hafter, hbefore⟩
      obtain ⟨rfl, rfl⟩ := List.append_eq_nil_iff.mp hafter.symm
      exact ⟨hbefore, rfl⟩
  | cons x text ih =>
    rw [pointsFrom, List.mem_cons, ih, Point.mk.injEq]
    constructor
    · rintro (⟨rfl, rfl⟩ | ⟨xs, rfl, hbefore⟩)
      · exact ⟨[], rfl, rfl⟩
      · exact ⟨x :: xs, rfl, by simpa using hbefore⟩
    · rintro ⟨xs, htext, hbefore⟩
      cases xs with
      | nil => exact .inl ⟨hbefore, htext.symm⟩
      | cons y xs =>
        rw [List.cons_append, List.cons.injEq] at htext
        obtain ⟨rfl, htext⟩ := htext
        exact .inr ⟨xs, htext, by simpa using hbefore⟩

/-- The points of a text are those around which it stands. -/
theorem mem_points_iff {text : List α} : p ∈ points text ↔ p.text = text := by
  rw [points, mem_pointsFrom_iff, Point.text]
  constructor
  · rintro ⟨xs, rfl, hbefore⟩
    rw [hbefore, List.append_nil, List.reverse_reverse]
  · intro htext
    exact ⟨p.before.reverse, htext.symm, by simp⟩

end Point

namespace Regex

open Point

section Search

variable {A : Alphabet κ α} {r : Regex κ} {p q : Point α} {n : ℕ}

/-! ### Iteration -/

/-- What every step of an iteration respects, it respects as a whole. -/
theorem Iterate.moves {rel : Point α → Point α → Prop} (hrel : ∀ p q, rel p q → p.Moves q)
    (h : Iterate rel n p q) : p.Moves q := by
  induction n generalizing p with
  | zero => exact h ▸ .refl p
  | succ n ih =>
    obtain ⟨p', hstep, hrest⟩ := h
    exact (hrel p p' hstep).trans (ih hrest)

/-- **An iteration needs no more rounds than there are characters left**, besides those that are
asked for: a round that passes no character can be left out. -/
theorem Iterate.shorten {rel : Point α → Point α → Prop} (hrel : ∀ p q, rel p q → p.Moves q)
    {lo : ℕ} (hlo : lo ≤ n) (h : Iterate rel n p q) :
    ∃ m, lo ≤ m ∧ m ≤ lo + p.after.length ∧ Iterate rel m p q := by
  induction n generalizing p lo with
  | zero => exact ⟨0, hlo, Nat.zero_le _, h⟩
  | succ n ih =>
    obtain ⟨p', hstep, hrest⟩ := h
    by_cases hlast : lo = n + 1
    · exact ⟨n + 1, hlo, by omega, p', hstep, hrest⟩
    by_cases hstays : p.after.length ≤ p'.after.length
    · obtain rfl := (hrel p p' hstep).eq_of_length_le hstays
      exact ih (by omega) hrest
    · have hasked : lo - 1 ≤ n := by omega
      obtain ⟨m, hm, hle, hrest'⟩ := ih hasked hrest
      exact ⟨m + 1, by omega, by omega, p', hstep, hrest'⟩

theorem mem_iterateEnds_iff {next : Point α → List (Point α)}
    {rel : Point α → Point α → Prop} (hnext : ∀ p q, q ∈ next p ↔ rel p q) :
    q ∈ iterateEnds next n p ↔ Iterate rel n p q := by
  induction n generalizing p with
  | zero => rw [iterateEnds, List.mem_singleton, Iterate, eq_comm]
  | succ n ih =>
    rw [iterateEnds, List.mem_flatMap]
    exact exists_congr fun p' => and_congr (hnext p p') ih

/-! ### The search finds what matches -/

theorem charEnds_eq_some {k : κ} (h : q ∈ charEnds A k p) :
    ∃ x after, p.after = x :: after ∧ A.holds k x ∧ q = ⟨x :: p.before, after⟩ := by
  rw [charEnds] at h
  cases hafter : p.after with
  | nil =>
    rw [hafter] at h
    cases h
  | cons x after =>
    rw [hafter] at h
    dsimp only at h
    split_ifs at h with hk
    · exact ⟨x, after, rfl, hk, List.mem_singleton.mp h⟩
    · cases h

/-- A match passes the characters between two points. -/
theorem Leads.moves (h : Leads A r p q) : p.Moves q := by
  induction r generalizing p q with
  | empty => exact h ▸ .refl p
  | boundary | textStart | textEnd => exact h.1 ▸ .refl p
  | char k =>
    obtain ⟨x, after, hafter, -, rfl⟩ := charEnds_eq_some h
    exact ⟨[x], hafter, rfl⟩
  | seq r r' ih ih' =>
    obtain ⟨p', h, h'⟩ := h
    exact (ih h).trans (ih' h')
  | alt r r' ih ih' => exact h.elim ih ih'
  | rep r lo hi ih =>
    obtain ⟨n, -, -, h⟩ := h
    exact Iterate.moves (fun _ _ => ih) h

/-- **The ends of a match** are the points that the expression leads to. -/
theorem mem_ends_iff : q ∈ ends A r p ↔ Leads A r p q := by
  induction r generalizing p q with
  | empty => exact List.mem_singleton
  | boundary =>
    rw [ends, Leads]
    split_ifs with h <;> simp [h]
  | textStart =>
    rw [ends, Leads, ← List.isEmpty_iff]
    split_ifs with h <;> simp [h]
  | textEnd =>
    rw [ends, Leads]
    split_ifs with h <;> simp [h]
  | char k => rfl
  | seq r r' ih ih' =>
    rw [ends, List.mem_flatMap]
    exact exists_congr fun p' => and_congr ih ih'
  | alt r r' ih ih' => rw [ends, List.mem_append, ih, ih', Leads]
  | rep r lo hi ih =>
    rw [ends, List.mem_flatMap, Leads]
    simp only [mem_iterateEnds_iff fun p q => ih (p := p) (q := q), List.mem_range]
    constructor
    · rintro ⟨n, hn, h⟩
      refine ⟨lo + n, Nat.le_add_right _ _, fun m hm => ?_, h⟩
      rw [hm, Option.getD_some] at hn
      omega
    · rintro ⟨n, hlo, hhi, h⟩
      cases hi with
      | none =>
        obtain ⟨m, hm, hle, h'⟩ := Iterate.shorten (fun _ _ => Leads.moves) hlo h
        refine ⟨m - lo, ?_, ?_⟩
        · rw [Option.getD_none]
          omega
        · rwa [Nat.add_sub_cancel' hm]
      | some m =>
        have hle := hhi m rfl
        refine ⟨n - lo, ?_, ?_⟩
        · rw [Option.getD_some]
          omega
        · rwa [Nat.add_sub_cancel' hlo]

/-- **The search** finds a match if there is one, anywhere in the text. -/
theorem search_iff {text : List α} :
    search A r text = true ↔ ∃ p q, p.text = text ∧ Leads A r p q := by
  rw [search, List.any_eq_true]
  refine exists_congr fun p => ?_
  rw [mem_points_iff]
  constructor
  · rintro ⟨htext, hends⟩
    rw [Bool.not_eq_true', List.isEmpty_eq_false_iff_exists_mem] at hends
    obtain ⟨q, hq⟩ := hends
    exact ⟨q, htext, mem_ends_iff.mp hq⟩
  · rintro ⟨q, htext, hq⟩
    refine ⟨htext, ?_⟩
    rw [Bool.not_eq_true', List.isEmpty_eq_false_iff_exists_mem]
    exact ⟨q, mem_ends_iff.mpr hq⟩

end Search

/-! ### Maps of the characters -/

section Map

variable {A : Alphabet κ α} {B : Alphabet κ β} {f : α → β}

theorem iterateEnds_map {γ δ : Type*} {next : γ → List γ} {next' : δ → List δ} {g : γ → δ}
    (hnext : ∀ p, next' (g p) = (next p).map g) (n : ℕ) (p : γ) :
    iterateEnds next' n (g p) = (iterateEnds next n p).map g := by
  induction n generalizing p with
  | zero => rfl
  | succ n ih =>
    rw [iterateEnds, iterateEnds, hnext, List.flatMap_map, List.map_flatMap]
    exact List.flatMap_congr fun p' _ => ih p'

theorem startsWord_map (h : A.Respects B f) (xs : List α) :
    startsWord B (xs.map f) = startsWord A xs := by
  cases xs with
  | nil => rfl
  | cons x xs => exact h.word x

/-- **The ends of a match** do not depend on what the classes do not see. -/
theorem ends_map (h : A.Respects B f) (r : Regex κ) (p : Point α) :
    ends B r (p.map f) = (ends A r p).map (Point.map f) := by
  induction r generalizing p with
  | empty => rfl
  | boundary =>
    have hboundary : atBoundary B (p.map f) = atBoundary A p :=
      congrArg₂ bne (startsWord_map h p.before) (startsWord_map h p.after)
    rw [ends, ends, hboundary]
    split_ifs <;> rfl
  | textStart =>
    have hstart : (p.map f).before.isEmpty = p.before.isEmpty := List.isEmpty_map
    rw [ends, ends, hstart]
    split_ifs <;> rfl
  | textEnd =>
    have hend : atTextEnd B (p.map f) = atTextEnd A p := by
      obtain ⟨before, after⟩ := p
      match after with
      | [] => rfl
      | [x] => exact h.newline x
      | _ :: _ :: _ => rfl
    rw [ends, ends, hend]
    split_ifs <;> rfl
  | char k =>
    obtain ⟨before, after⟩ := p
    cases after with
    | nil => rfl
    | cons x after =>
      have hmap : ends B (char k) (Point.map f ⟨before, x :: after⟩) =
          if B.holds k (f x) then [⟨f x :: before.map f, after.map f⟩] else [] := rfl
      rw [hmap, h.holds, ends, charEnds]
      dsimp only
      split_ifs <;> rfl
  | seq r r' ih ih' =>
    rw [ends, ends, ih, List.flatMap_map, List.map_flatMap]
    exact List.flatMap_congr fun p' _ => ih' p'
  | alt r r' ih ih' => rw [ends, ends, ih, ih', List.map_append]
  | rep r lo hi ih =>
    have hlength : (p.map f).after.length = p.after.length := List.length_map f
    rw [ends, ends, hlength, List.map_flatMap]
    exact List.flatMap_congr fun n _ => iterateEnds_map ih (lo + n) p

theorem pointsFrom_map (before text : List α) :
    pointsFrom (before.map f) (text.map f) = (pointsFrom before text).map (Point.map f) := by
  induction text generalizing before with
  | nil => rfl
  | cons x text ih => exact congrArg (_ :: ·) (ih (x :: before))

/-- **A search** does not depend on what the classes do not see. -/
theorem search_map (h : A.Respects B f) (r : Regex κ) (text : List α) :
    search B r (text.map f) = search A r text := by
  have hpoints : points (text.map f) = (points text).map (Point.map f) := pointsFrom_map [] text
  rw [search, search, hpoints, List.any_map]
  congr 1
  funext p
  rw [Function.comp, ends_map h, List.isEmpty_map]

end Map

/-! ### Longer texts -/

section Extend

variable {A : Alphabet κ α} {r : Regex κ} {p q : Point α} {left right : List α}

/-- The expression has no anchors. -/
def anchorFree : Regex κ → Bool
  | empty | boundary | char _ => true
  | textStart | textEnd => false
  | seq r r' | alt r r' => anchorFree r && anchorFree r'
  | rep r _ _ => anchorFree r

theorem startsWord_append (hleft : startsWord A left = false) (xs : List α) :
    startsWord A (xs ++ left) = startsWord A xs := by
  cases xs with
  | nil => exact hleft
  | cons x xs => rfl

/-- A match of an expression without anchors is a match in a longer text. -/
theorem Leads.extend (hleft : startsWord A left = false) (hright : startsWord A right = false)
    (hr : r.anchorFree = true) (h : Leads A r p q) :
    Leads A r (p.extend left right) (q.extend left right) := by
  induction r generalizing p q with
  | empty => exact congrArg (Point.extend left right) h
  | boundary =>
    obtain ⟨rfl, hboundary⟩ := h
    refine ⟨rfl, ?_⟩
    rw [atBoundary] at hboundary ⊢
    dsimp only [Point.extend]
    rwa [startsWord_append hleft, startsWord_append hright]
  | textStart | textEnd => cases hr
  | char k =>
    obtain ⟨x, after, hafter, hk, rfl⟩ := charEnds_eq_some h
    rw [Leads, charEnds]
    dsimp only [Point.extend]
    rw [hafter, List.cons_append]
    dsimp only
    rw [if_pos hk, List.mem_singleton, List.cons_append]
  | seq r r' ih ih' =>
    rw [anchorFree, Bool.and_eq_true] at hr
    obtain ⟨p', h, h'⟩ := h
    exact ⟨p'.extend left right, ih hr.1 h, ih' hr.2 h'⟩
  | alt r r' ih ih' =>
    rw [anchorFree, Bool.and_eq_true] at hr
    exact h.imp (ih hr.1) (ih' hr.2)
  | rep r lo hi ih =>
    obtain ⟨n, hlo, hhi, h⟩ := h
    refine ⟨n, hlo, hhi, ?_⟩
    clear hlo hhi
    induction n generalizing p with
    | zero => exact congrArg (Point.extend left right) h
    | succ n ihn =>
      obtain ⟨p', hstep, hrest⟩ := h
      exact ⟨p'.extend left right, ih hr hstep, ihn hrest⟩

/-- **A match is not diluted**: an expression without anchors that matches in a text matches in
every longer text, if the text around it continues no word. -/
theorem search_extend {text : List α} (hleft : startsWord A left.reverse = false)
    (hright : startsWord A right = false) (hr : r.anchorFree = true)
    (h : search A r text = true) : search A r (left ++ text ++ right) = true := by
  obtain ⟨p, q, rfl, hleads⟩ := search_iff.mp h
  refine search_iff.mpr ⟨_, _, ?_, hleads.extend hleft hright hr⟩
  simp [Point.text, Point.extend]

/-- The number of characters that every match has. -/
def minLength : Regex κ → ℕ
  | empty | boundary | textStart | textEnd => 0
  | char _ => 1
  | seq r r' => minLength r + minLength r'
  | alt r r' => min (minLength r) (minLength r')
  | rep r lo _ => lo * minLength r

theorem Leads.minLength_le (h : Leads A r p q) :
    q.after.length + r.minLength ≤ p.after.length := by
  induction r generalizing p q with
  | empty => exact h ▸ Nat.le_refl _
  | boundary | textStart | textEnd => exact h.1 ▸ Nat.le_refl _
  | char k =>
    obtain ⟨x, after, hafter, -, rfl⟩ := charEnds_eq_some h
    rw [hafter]
    exact Nat.le_refl _
  | seq r r' ih ih' =>
    obtain ⟨p', h, h'⟩ := h
    have := ih h
    have := ih' h'
    rw [minLength]
    omega
  | alt r r' ih ih' =>
    rw [minLength]
    rcases h with h | h
    · have := ih h
      omega
    · have := ih' h
      omega
  | rep r lo hi ih =>
    obtain ⟨n, hlo, -, h⟩ := h
    have hrounds : q.after.length + n * r.minLength ≤ p.after.length := by
      clear hlo
      induction n generalizing p with
      | zero =>
        obtain rfl : p = q := h
        have hzero : 0 * r.minLength = 0 := Nat.zero_mul _
        omega
      | succ n ihn =>
        obtain ⟨p', hstep, hrest⟩ := h
        have := ih hstep
        have := ihn hrest
        rw [Nat.succ_mul]
        omega
    have := Nat.mul_le_mul_right r.minLength hlo
    rw [minLength]
    omega

/-- A text in which an expression matches is long enough for it. -/
theorem minLength_le_of_search {text : List α} (h : search A r text = true) :
    r.minLength ≤ text.length := by
  obtain ⟨p, q, rfl, hleads⟩ := search_iff.mp h
  have := hleads.minLength_le
  rw [Point.text, List.length_append]
  omega

end Extend

end Regex

end Foundation
