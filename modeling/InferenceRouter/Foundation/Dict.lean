import Mathlib.Data.List.Nodup
import Mathlib.Data.List.Perm.Basic

/-!
# Insertion-ordered dictionaries

A dictionary with the order semantics of the scripting languages: its entries are listed in the
order in which their keys were first inserted, assigning to a present key keeps its position, and
deleting a key keeps the order of the others. No key occurs twice, which is a field of the
structure.

## Main definitions

* `Foundation.Dict`, with `Dict.get?`, `Dict.set` and `Dict.pop`.

## Main results

* `Foundation.Dict.get?_eq_some_iff`: looking a key up is membership of its entry.
* `Foundation.Dict.get?_set`, `Foundation.Dict.get?_pop`: lookup after an assignment and after a
  deletion.
* `Foundation.Dict.pop_comm`: deletions commute, entries and their order included.
-/

namespace Foundation

variable {κ ν : Type*}

/-- A dictionary: a list of entries, in insertion order, with distinct keys. -/
@[ext]
structure Dict (κ ν : Type*) where
  /-- The entries, in insertion order. -/
  items : List (κ × ν)
  /-- No key occurs twice. -/
  nodup_keys : (items.map Prod.fst).Nodup

namespace Dict

/-- The dictionary without entries. -/
def empty : Dict κ ν := ⟨[], List.nodup_nil⟩

/-- The number of entries. -/
def length (d : Dict κ ν) : ℕ := d.items.length

/-- Two entries of one key are equal. -/
theorem value_unique (d : Dict κ ν) {k : κ} {v w : ν} (hv : (k, v) ∈ d.items)
    (hw : (k, w) ∈ d.items) : v = w :=
  congrArg Prod.snd (List.inj_on_of_nodup_map d.nodup_keys hv hw rfl)

variable [DecidableEq κ]

/-- The value of a key, if present. -/
def get? (d : Dict κ ν) (k : κ) : Option ν := (d.items.find? fun e => e.1 = k).map Prod.snd

/-- Assign a value to a key: in place if the key is present, else as the last entry. -/
def set (d : Dict κ ν) (k : κ) (v : ν) : Dict κ ν :=
  if h : k ∈ d.items.map Prod.fst then
    { items := d.items.map fun e => if e.1 = k then (k, v) else e
      nodup_keys := by
        have hkeys : (d.items.map fun e => if e.1 = k then (k, v) else e).map Prod.fst =
            d.items.map Prod.fst := by
          rw [List.map_map]
          refine List.map_congr_left fun e _ => ?_
          by_cases he : e.1 = k <;> simp [he]
        exact hkeys ▸ d.nodup_keys }
  else
    { items := d.items ++ [(k, v)]
      nodup_keys := by
        rw [List.map_append, List.map_singleton]
        exact List.nodup_append_comm.mp (List.nodup_cons.mpr ⟨h, d.nodup_keys⟩) }

/-- Delete a key, keeping the order of the other entries. -/
def pop (d : Dict κ ν) (k : κ) : Dict κ ν where
  items := d.items.filter fun e => e.1 ≠ k
  nodup_keys := d.nodup_keys.sublist (List.filter_sublist.map _)

theorem get?_eq_some_iff {d : Dict κ ν} {k : κ} {v : ν} :
    d.get? k = some v ↔ (k, v) ∈ d.items := by
  constructor
  · intro h
    obtain ⟨e, he, rfl⟩ := Option.map_eq_some_iff.mp h
    have hk : e.1 = k := by simpa using List.find?_some he
    exact hk ▸ List.mem_of_find?_eq_some he
  · intro h
    cases hf : d.items.find? fun e => e.1 = k with
    | none => exact absurd (List.find?_eq_none.mp hf (k, v) h) (by simp)
    | some e =>
      have hk : e.1 = k := by simpa using List.find?_some hf
      have he : (k, e.2) ∈ d.items := hk ▸ List.mem_of_find?_eq_some hf
      rw [get?, hf, Option.map_some, d.value_unique he h]

theorem get?_eq_none_iff {d : Dict κ ν} {k : κ} :
    d.get? k = none ↔ ∀ v, (k, v) ∉ d.items := by
  rw [Option.eq_none_iff_forall_not_mem]
  exact forall_congr' fun v => not_congr get?_eq_some_iff

@[simp] theorem get?_empty (k : κ) : (empty : Dict κ ν).get? k = none := rfl

theorem mem_pop {d : Dict κ ν} {k : κ} {e : κ × ν} :
    e ∈ (d.pop k).items ↔ e ∈ d.items ∧ e.1 ≠ k := by
  simp [pop]

@[simp] theorem get?_pop_self (d : Dict κ ν) (k : κ) : (d.pop k).get? k = none :=
  get?_eq_none_iff.mpr fun _ h => (mem_pop.mp h).2 rfl

theorem get?_pop_of_ne (d : Dict κ ν) {j k : κ} (h : j ≠ k) : (d.pop k).get? j = d.get? j := by
  ext v
  simp only [get?_eq_some_iff, mem_pop]
  exact and_iff_left h

/-- Lookup after a deletion. -/
theorem get?_pop (d : Dict κ ν) (j k : κ) :
    (d.pop k).get? j = if j = k then none else d.get? j := by
  split_ifs with h
  · rw [h, get?_pop_self]
  · exact get?_pop_of_ne d h

theorem mem_set_self (d : Dict κ ν) (k : κ) (v : ν) : (k, v) ∈ (d.set k v).items := by
  unfold set
  split_ifs with h
  · obtain ⟨e, he, hk⟩ := List.mem_map.mp h
    exact List.mem_map.mpr ⟨e, he, by simp [hk]⟩
  · simp

theorem mem_set_of_ne {d : Dict κ ν} {j k : κ} {v w : ν} (h : j ≠ k) :
    (j, w) ∈ (d.set k v).items ↔ (j, w) ∈ d.items := by
  unfold set
  split_ifs with hk
  · simp only [List.mem_map]
    constructor
    · rintro ⟨e, he, heq⟩
      split_ifs at heq with hek
      · exact absurd (congrArg Prod.fst heq).symm h
      · exact heq ▸ he
    · exact fun hj => ⟨(j, w), hj, if_neg h⟩
  · simp [h]

/-- Lookup after an assignment. -/
theorem get?_set (d : Dict κ ν) (j k : κ) (v : ν) :
    (d.set k v).get? j = if j = k then some v else d.get? j := by
  split_ifs with h
  · rw [h, get?_eq_some_iff]
    exact mem_set_self d k v
  · ext w
    simp only [get?_eq_some_iff, mem_set_of_ne h]

/-- An assignment to a key that is not present adds an entry. -/
theorem length_set {d : Dict κ ν} {k : κ} (h : d.get? k = none) (v : ν) :
    (d.set k v).length = d.length + 1 := by
  have hk : k ∉ d.items.map Prod.fst := by
    intro hk
    obtain ⟨e, he, rfl⟩ := List.mem_map.mp hk
    exact get?_eq_none_iff.mp h e.2 he
  rw [length, set, dif_neg hk]
  exact List.length_append

/-- **Deletions commute**, the order of the remaining entries included. -/
theorem pop_comm (d : Dict κ ν) (j k : κ) : (d.pop j).pop k = (d.pop k).pop j := by
  refine Dict.ext ?_
  simp only [pop, List.filter_filter]
  exact List.filter_congr fun e _ => Bool.and_comm _ _

end Dict

end Foundation
