import Mathlib.Data.List.Infix

/-! `onGrams` and `collectGrams` of the `bitmask` prototype (`cmd/bitmask`). For each
index `i` of the text, `onGrams` passes the slices that end at `i`: a unigram, and,
far enough from the start, a bigram, a trigram, a quadgram, a pentagram and the slice
its comment calls a hexagram, which is `textBytes[i-3 : i+1]`, the quadgram again.
The calls are modelled as the list of slices passed, in order. -/

namespace Sourcegraph.Bitmask

/-- `t[lo : hi]`. -/
def slice (t : List UInt8) (lo hi : Nat) : List UInt8 := (t.drop lo).take (hi - lo)

/-- The slices `onGrams` passes at index `i`, in order. -/
def gramsAt (t : List UInt8) (i : Nat) : List (List UInt8) :=
  slice t i (i + 1) ::
    ((if i > 0 then [slice t (i - 1) (i + 1)] else []) ++
      (if i > 1 then [slice t (i - 2) (i + 1)] else []) ++
      (if i > 2 then [slice t (i - 3) (i + 1)] else []) ++
      (if i > 3 then [slice t (i - 4) (i + 1)] else []) ++
      (if i > 4 then [slice t (i - 3) (i + 1)] else []))

/-- `onGrams`: the slices it passes to its callback, in the order of the calls. -/
def onGrams (t : List UInt8) : List (List UInt8) := (List.range t.length).flatMap (gramsAt t)

/-- `collectGrams`: the grams of the query, appended in the order `onGrams` passes them. -/
def collectGrams (query : List UInt8) : List (List UInt8) := onGrams query

/-- What the comments of `onGrams` say it passes at index `i`: the slices of lengths 1
to 6 that end at `i`, length `k` only when `i ≥ k - 1`. -/
def commentGramsAt (t : List UInt8) (i : Nat) : List (List UInt8) :=
  ((List.range 6).filter (· ≤ i)).map fun j => slice t (i - j) (i + 1)

/-- The grams the comments describe, index after index. -/
def commentGrams (t : List UInt8) : List (List UInt8) := (List.range t.length).flatMap (commentGramsAt t)

/-! ## Slices and infixes -/

theorem length_slice {t : List UInt8} {lo hi : Nat} (h : hi ≤ t.length) : (slice t lo hi).length = hi - lo := by
  simp [slice]; omega

theorem slice_infix (t : List UInt8) (lo hi : Nat) : slice t lo hi <:+: t :=
  ((List.take_prefix _ _).isInfix).trans (List.drop_suffix _ _).isInfix

/-- An infix of `t` is the slice of `t` at its position. -/
theorem exists_slice_of_infix {g t : List UInt8} (h : g <:+: t) :
    ∃ s, s + g.length ≤ t.length ∧ slice t s (s + g.length) = g := by
  obtain ⟨a, b, rfl⟩ := h
  exact ⟨a.length, by simp, by simp [slice, List.drop_left, List.append_assoc]⟩

/-! ## What `onGrams` passes -/

/-- At index `i`, `onGrams` passes the slices of lengths 1 to 5 that end there, and no
other. -/
theorem mem_gramsAt {t g : List UInt8} {i : Nat} :
    g ∈ gramsAt t i ↔ ∃ k, 1 ≤ k ∧ k ≤ 5 ∧ k ≤ i + 1 ∧ g = slice t (i + 1 - k) (i + 1) := by
  constructor
  · intro h
    have mk : ∀ k lo, 1 ≤ k → k ≤ 5 → lo + k = i + 1 →
        ∃ k', 1 ≤ k' ∧ k' ≤ 5 ∧ k' ≤ i + 1 ∧ slice t lo (i + 1) = slice t (i + 1 - k') (i + 1) :=
      fun k lo h1 h5 he => ⟨k, h1, h5, by omega, by rw [show i + 1 - k = lo by omega]⟩
    simp only [gramsAt, List.mem_cons, List.mem_append, List.mem_ite_nil_right, List.mem_singleton,
      List.not_mem_nil, or_false] at h
    rcases h with rfl | ((((⟨_, rfl⟩ | ⟨_, rfl⟩) | ⟨_, rfl⟩) | ⟨_, rfl⟩) | ⟨_, rfl⟩)
    · exact mk 1 i (by omega) (by omega) (by omega)
    · exact mk 2 (i - 1) (by omega) (by omega) (by omega)
    · exact mk 3 (i - 2) (by omega) (by omega) (by omega)
    · exact mk 4 (i - 3) (by omega) (by omega) (by omega)
    · exact mk 5 (i - 4) (by omega) (by omega) (by omega)
    · exact mk 4 (i - 3) (by omega) (by omega) (by omega)
  · rintro ⟨k, h1, h5, hi, rfl⟩
    have e : ∀ j, i + 1 - k = i - j → j + 1 = k → slice t (i + 1 - k) (i + 1) = slice t (i - j) (i + 1) :=
      fun j e _ => by rw [e]
    simp only [gramsAt, List.mem_cons, List.mem_append]
    obtain rfl | rfl | rfl | rfl | rfl : k = 1 ∨ k = 2 ∨ k = 3 ∨ k = 4 ∨ k = 5 := by omega
    · exact .inl (by simp)
    · exact .inr (.inl (.inl (.inl (.inl (by simp [show i > 0 by omega, e 1 (by omega) rfl])))))
    · exact .inr (.inl (.inl (.inl (.inr (by simp [show i > 1 by omega, e 2 (by omega) rfl])))))
    · exact .inr (.inl (.inl (.inr (by simp [show i > 2 by omega, e 3 (by omega) rfl]))))
    · exact .inr (.inl (.inr (by simp [show i > 3 by omega, e 4 (by omega) rfl])))

/-- **The grams of a text.** For every byte string, `onGrams` passes exactly its
non-empty infixes of at most five bytes. -/
theorem mem_onGrams {t g : List UInt8} : g ∈ onGrams t ↔ g ≠ [] ∧ g.length ≤ 5 ∧ g <:+: t := by
  simp only [onGrams, List.mem_flatMap, List.mem_range, mem_gramsAt]
  constructor
  · rintro ⟨i, hi, k, h1, h5, hk, rfl⟩
    have hl := @length_slice t (i + 1 - k) (i + 1) (by omega)
    refine ⟨fun e => ?_, by omega, slice_infix _ _ _⟩
    rw [e] at hl; simp at hl; omega
  · rintro ⟨hne, h5, hg⟩
    obtain ⟨s, hs, e⟩ := exists_slice_of_infix hg
    have h1 : 1 ≤ g.length := List.length_pos.mpr hne
    refine ⟨s + g.length - 1, by omega, g.length, h1, h5, by omega, ?_⟩
    rw [show s + g.length - 1 + 1 - g.length = s by omega, show s + g.length - 1 + 1 = s + g.length by omega, e]

/-- **The comment and the code.** `onGrams` passes what its comments describe exactly on
texts of at most five bytes: on a longer text it never passes the first six bytes. -/
theorem onGrams_eq_commentGrams_iff (t : List UInt8) : onGrams t = commentGrams t ↔ t.length ≤ 5 := by
  constructor
  · intro h
    by_contra hlt
    have hmem : slice t 0 6 ∈ commentGrams t := by
      simp only [commentGrams, commentGramsAt, List.mem_flatMap, List.mem_range, List.mem_map,
        List.mem_filter]
      exact ⟨5, by omega, 5, by simp, rfl⟩
    rw [← h, mem_onGrams] at hmem
    have := @length_slice t 0 6 (by omega)
    omega
  · intro h
    refine List.flatMap_congr fun i hi => ?_
    obtain rfl | rfl | rfl | rfl | rfl : i = 0 ∨ i = 1 ∨ i = 2 ∨ i = 3 ∨ i = 4 := by simp at hi; omega
    all_goals rfl

/-- The text `abcdef`. -/
def abcdef : List UInt8 := [97, 98, 99, 100, 101, 102]

/-- The text `abcdeXbcdef`: it holds every gram `onGrams` passes for `abcdef`, and not
`abcdef`. -/
def abcdeXbcdef : List UInt8 := [97, 98, 99, 100, 101, 88, 98, 99, 100, 101, 102]

/-- On `abcdef` the sixth branch passes the quadgram `cdef` a second time and never the
hexagram the comment names; so the query `abcdef` passes the prefilter of a text that
does not hold it. -/
theorem onGrams_skips_hexagram :
    abcdef ∈ commentGrams abcdef ∧ abcdef ∉ onGrams abcdef ∧
      (onGrams abcdef).count [99, 100, 101, 102] = 2 ∧
      (∀ g ∈ collectGrams abcdef, g ∈ onGrams abcdeXbcdef) ∧ ¬abcdef <:+: abcdeXbcdef := by
  decide

end Sourcegraph.Bitmask
