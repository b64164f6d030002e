import Mathlib.Data.List.Basic

/-! Maps of the source languages, a Go `map` or the own properties of a JavaScript object,
as lists of entries in the order their keys were first set. -/

namespace Sourcegraph.Entries

variable {κ α : Type}

/-- The keys, in insertion order. -/
def keys (m : List (κ × α)) : List κ := m.map (·.1)

@[simp] theorem keys_nil : keys ([] : List (κ × α)) = [] := rfl

variable [DecidableEq κ]

/-- The value of a key, `none` when the key is absent. -/
def get? : List (κ × α) → κ → Option α
  | [], _ => none
  | e :: rest, k => if e.1 = k then some e.2 else get? rest k

/-- A key set to a value: its entry replaced, or a new entry appended. -/
def set : List (κ × α) → κ → α → List (κ × α)
  | [], k, v => [(k, v)]
  | e :: rest, k, v => if e.1 = k then (k, v) :: rest else e :: set rest k v

theorem get?_set (m : List (κ × α)) (k j : κ) (v : α) :
    get? (set m k v) j = if j = k then some v else get? m j := by
  induction m with
  | nil => simp [set, get?, eq_comm]
  | cons e rest ih =>
    by_cases he : e.1 = k
    · by_cases hj : j = k <;> simp [set, get?, he, hj, Ne.symm]
    · simp only [set, he, ite_false, get?, ih]
      by_cases hj : j = k
      · subst hj; simp [he]
      · simp [hj]

theorem mem_keys_set (m : List (κ × α)) (k j : κ) (v : α) :
    j ∈ keys (set m k v) ↔ j = k ∨ j ∈ keys m := by
  induction m with
  | nil => simp [set, keys]
  | cons e rest ih =>
    simp only [keys] at ih
    by_cases he : e.1 = k <;> simp [set, keys, he, ih, or_left_comm]

theorem nodup_keys_set {m : List (κ × α)} (h : (keys m).Nodup) (k : κ) (v : α) :
    (keys (set m k v)).Nodup := by
  induction m with
  | nil => simp [set, keys]
  | cons e rest ih =>
    simp only [keys, List.map_cons, List.nodup_cons] at h ih
    by_cases he : e.1 = k
    · simpa [set, keys, he] using h
    · have hk := mem_keys_set rest k e.1 v
      simp only [keys] at hk
      simp only [set, he, ite_false, keys, List.map_cons, List.nodup_cons, hk, not_or,
        not_false_eq_true, true_and]
      exact ⟨h.1, ih h.2⟩

theorem get?_of_mem {m : List (κ × α)} (h : (keys m).Nodup) {k : κ} {v : α} (hm : (k, v) ∈ m) :
    get? m k = some v := by
  induction m with
  | nil => simp at hm
  | cons e rest ih =>
    simp only [keys, List.map_cons, List.nodup_cons] at h
    rcases List.mem_cons.mp hm with rfl | hm
    · simp [get?]
    · have hne : e.1 ≠ k := fun he => h.1 (he ▸ List.mem_map_of_mem _ hm)
      simp [get?, hne, ih h.2 hm]

theorem get?_eq_none_iff (m : List (κ × α)) (k : κ) : get? m k = none ↔ k ∉ keys m := by
  induction m with
  | nil => simp [get?]
  | cons e rest ih =>
    simp only [keys, List.map_cons, List.mem_cons] at ih ⊢
    by_cases he : e.1 = k
    · simp [get?, he]
    · simp [get?, he, ih, Ne.symm he]

theorem set_set (m : List (κ × α)) (k : κ) (v w : α) : set (set m k v) k w = set m k w := by
  induction m with
  | nil => simp [set]
  | cons e rest ih => by_cases he : e.1 = k <;> simp [set, he, ih]

end Sourcegraph.Entries
