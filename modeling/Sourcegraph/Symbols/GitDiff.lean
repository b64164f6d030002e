import Mathlib.Data.List.Basic

/-! `parseGitDiffOutput` of the symbols service's gitserver client. The output of
`git diff` it reads is a run of `<status> NUL <path> NUL` blocks: the parser trims the
trailing NULs, splits on NUL, and reads the fields two by two, appending each path to
the list its status byte names. Bytes are `UInt8`, and a Go `string` converted from
bytes holds the same bytes. -/

namespace Sourcegraph.Symbols

/-- `Changes`: the added, modified and deleted paths. -/
structure Changes where
  added : List (List UInt8) := []
  modified : List (List UInt8) := []
  deleted : List (List UInt8) := []
  deriving DecidableEq, Repr

/-- How `parseGitDiffOutput` ends: its return, or the run-time panic of an index out
of range. -/
inductive ParseResult where
  | ok (changes : Changes)
  | error (msg : String)
  | indexOutOfRange
  deriving DecidableEq, Repr

/-- `NUL`. -/
def nul : UInt8 := 0

/-- `bytes.TrimRight(s, string(NUL))`: every trailing NUL removed. -/
def trimRightNul (s : List UInt8) : List UInt8 := (s.reverse.dropWhile (· == nul)).reverse

/-- `bytes.Split(s, NUL)`: the fields between the NULs, empty ones included. -/
def splitNul (s : List UInt8) : List (List UInt8) := s.splitOn nul

/-- The `switch` on a status byte: the path appended to the list it names. -/
def Changes.record (c : Changes) (status : UInt8) (path : List UInt8) : Changes :=
  if status = 'A'.toUInt8 then { c with added := c.added ++ [path] }
  else if status = 'M'.toUInt8 then { c with modified := c.modified ++ [path] }
  else if status = 'D'.toUInt8 then { c with deleted := c.deleted ++ [path] }
  else c

/-- The loop `for i := 0; i < len(slices); i += 2` from `slices[i]` on: `slices[i][0]`
is read first, and `slices[i+1]` only in the three cases of the `switch`. -/
def readPairs : List (List UInt8) → Changes → ParseResult
  | [], c => .ok c
  | [] :: _, _ => .indexOutOfRange
  | (b :: _) :: path :: rest, c => readPairs rest (c.record b path)
  | [b :: _], c =>
    if b = 'A'.toUInt8 ∨ b = 'M'.toUInt8 ∨ b = 'D'.toUInt8 then .indexOutOfRange else .ok c

/-- `parseGitDiffOutput`. -/
def parseGitDiffOutput (output : List UInt8) : ParseResult :=
  if output.length = 0 then .ok {}
  else
    let slices := splitNul (trimRightNul output)
    if slices.length % 2 ≠ 0 then .error "uneven pairs"
    else readPairs slices {}

/-! ## Trimming and splitting -/

theorem trimRightNul_append {x y : List UInt8} (h : ∃ b ∈ y, b ≠ nul) :
    trimRightNul (x ++ y) = x ++ trimRightNul y := by
  obtain ⟨b, hb, hbn⟩ := h
  have hd : y.reverse.dropWhile (· == nul) ≠ [] := fun e =>
    hbn (by simpa using List.dropWhile_eq_nil_iff.mp e b (List.mem_reverse.mpr hb))
  simp [trimRightNul, List.dropWhile_append, List.isEmpty_iff, hd]

theorem trimRightNul_append_nul {p : List UInt8} (hp : p ≠ []) (hn : nul ∉ p) :
    trimRightNul (p ++ [nul]) = p := by
  obtain ⟨q, b, rfl⟩ := (List.eq_nil_or_concat p).resolve_left hp
  have hb : (b == nul) = false := beq_eq_false_iff_ne.mpr fun e => hn (by simp [e])
  simp [trimRightNul, List.dropWhile_cons, hb]

/-! ## Well-formed output -/

/-- A status `git diff` writes. -/
inductive Status where
  | added
  | modified
  | deleted
  deriving DecidableEq, Repr

/-- The byte of a status. -/
def Status.byte : Status → UInt8
  | .added => 'A'.toUInt8
  | .modified => 'M'.toUInt8
  | .deleted => 'D'.toUInt8

/-- The output for a list of entries: `status NUL path NUL` for each, in order. -/
def encode (entries : List (Status × List UInt8)) : List UInt8 :=
  entries.flatMap fun e => e.1.byte :: nul :: e.2 ++ [nul]

/-- The paths of the entries with a status, in order. -/
def pathsWith (st : Status) (entries : List (Status × List UInt8)) : List (List UInt8) :=
  (entries.filter (·.1 = st)).map (·.2)

/-- The changes a list of entries describes. -/
def Changes.ofEntries (entries : List (Status × List UInt8)) : Changes :=
  ⟨pathsWith .added entries, pathsWith .modified entries, pathsWith .deleted entries⟩

/-- The fields of the output of a list of entries: each status byte, then its path. -/
def fields (entries : List (Status × List UInt8)) : List (List UInt8) :=
  entries.flatMap fun e => [[e.1.byte], e.2]

private theorem status_bytes_ne :
    'M'.toUInt8 ≠ 'A'.toUInt8 ∧ 'D'.toUInt8 ≠ 'A'.toUInt8 ∧ 'D'.toUInt8 ≠ 'M'.toUInt8 := by
  decide

theorem length_fields (entries : List (Status × List UInt8)) :
    (fields entries).length = 2 * entries.length := by
  induction entries with
  | nil => rfl
  | cons e es ih => rw [fields, List.flatMap_cons, List.length_append, ← fields, ih]; simp; omega

theorem Changes.record_byte (c : Changes) (st : Status) (p : List UInt8) :
    c.record st.byte p =
      ⟨c.added ++ pathsWith .added [(st, p)], c.modified ++ pathsWith .modified [(st, p)],
        c.deleted ++ pathsWith .deleted [(st, p)]⟩ := by
  cases st <;> simp [record, Status.byte, pathsWith, status_bytes_ne]

theorem readPairs_fields (entries : List (Status × List UInt8)) :
    ∀ c : Changes, readPairs (fields entries) c =
      .ok ⟨c.added ++ pathsWith .added entries, c.modified ++ pathsWith .modified entries,
        c.deleted ++ pathsWith .deleted entries⟩ := by
  induction entries with
  | nil => intro c; simp [fields, pathsWith, readPairs]
  | cons e es ih =>
    intro c
    obtain ⟨st, p⟩ := e
    have hb : [st.byte] = st.byte :: [] := rfl
    rw [fields, List.flatMap_cons, List.cons_append, List.cons_append, List.nil_append, hb, readPairs,
      ← fields, ih, Changes.record_byte]
    simp [pathsWith, List.filter_cons]
    split_ifs <;> simp_all

theorem trimRightNul_encode {entries : List (Status × List UInt8)} (hne : entries ≠ [])
    (hp : ∀ e ∈ entries, e.2 ≠ [] ∧ nul ∉ e.2) :
    trimRightNul (encode entries) = [nul].intercalate (fields entries) := by
  induction entries with
  | nil => exact absurd rfl hne
  | cons e es ih =>
    obtain ⟨hp₁, hn₁⟩ := hp e (List.mem_cons_self _ _)
    cases es with
    | nil =>
      have := @trimRightNul_append [e.1.byte, nul] (e.2 ++ [nul])
        (by obtain ⟨b, hb⟩ := List.exists_mem_of_ne_nil _ hp₁
            exact ⟨b, by simp [hb], fun h => hn₁ (h ▸ hb)⟩)
      simp only [encode, fields, List.flatMap_cons, List.flatMap_nil, List.append_nil] at this ⊢
      rw [show e.1.byte :: nul :: e.2 ++ [nul] = [e.1.byte, nul] ++ (e.2 ++ [nul]) by simp, this,
        trimRightNul_append_nul hp₁ hn₁]
      simp [List.intercalate]
    | cons e' es =>
      have ih := ih (List.cons_ne_nil _ _) fun x hx => hp x (List.mem_cons_of_mem _ hx)
      have hy : ∃ b ∈ encode (e' :: es), b ≠ nul := ⟨e'.1.byte, by simp [encode], by cases e'.1 <;> decide⟩
      rw [encode, List.flatMap_cons, ← encode, show e.1.byte :: nul :: e.2 ++ [nul] ++ encode (e' :: es) =
        (e.1.byte :: nul :: e.2 ++ [nul]) ++ encode (e' :: es) by simp, trimRightNul_append hy, ih]
      simp [fields, List.intercalate, List.intersperse_cons₂]

/-- **Well-formed output parses back.** For every list of entries whose paths are
non-empty and hold no NUL, the output `status NUL path NUL` over the list parses with
no error into the paths of each status, in list order. -/
theorem parseGitDiffOutput_encode (entries : List (Status × List UInt8))
    (hp : ∀ e ∈ entries, e.2 ≠ [] ∧ nul ∉ e.2) :
    parseGitDiffOutput (encode entries) = .ok (Changes.ofEntries entries) := by
  by_cases hne : entries = []
  · subst hne; rfl
  have hlen : (encode entries).length ≠ 0 := by
    obtain ⟨e, he⟩ := List.exists_mem_of_ne_nil _ hne
    exact (List.length_pos_of_mem (List.mem_flatMap.mpr ⟨e, he, List.mem_cons_self _ _⟩)).ne'
  have hsplit : splitNul (trimRightNul (encode entries)) = fields entries := by
    rw [trimRightNul_encode hne hp, splitNul]
    refine List.splitOn_intercalate _ nul (fun l hl => ?_) ?_
    · obtain ⟨e, he, hl⟩ := List.mem_flatMap.mp hl
      rcases List.mem_pair.mp hl with rfl | rfl
      · cases e.1 <;> decide
      · exact (hp e he).2
    · obtain ⟨e, he⟩ := List.exists_mem_of_ne_nil _ hne
      exact List.ne_nil_of_mem (List.mem_flatMap.mpr ⟨e, he, List.mem_cons_self _ _⟩)
  have heven : (fields entries).length % 2 = 0 := by
    rw [length_fields]; omega
  simp only [parseGitDiffOutput, hlen, if_false, hsplit, heven, ne_eq, not_true_eq_false]
  exact (readPairs_fields entries {}).trans (by simp [Changes.ofEntries])

/-- A diff that adds `a`, modifies `b/c` and deletes `d`. -/
def threeEntries : List (Status × List UInt8) := [(.added, [97]), (.modified, [98, 47, 99]), (.deleted, [100])]

theorem parseGitDiffOutput_encode_three :
    parseGitDiffOutput (encode threeEntries) = .ok (Changes.ofEntries threeEntries) :=
  parseGitDiffOutput_encode threeEntries (by decide)

/-! ## Malformed output -/

/-- The status fields: every other field from the first. -/
def statusFields : List (List UInt8) → List (List UInt8)
  | s :: _ :: rest => s :: statusFields rest
  | [s] => [s]
  | [] => []

/-- On an even number of fields the loop panics exactly when a status field is empty,
and returns otherwise. -/
theorem readPairs_eq_indexOutOfRange {F : List (List UInt8)} (h : F.length % 2 = 0) (c : Changes) :
    readPairs F c = .indexOutOfRange ↔ [] ∈ statusFields F := by
  induction F, c using readPairs.induct with
  | case1 c => simp [readPairs, statusFields]
  | case2 rest c => cases rest <;> simp [readPairs, statusFields]
  | case3 b s path rest c ih =>
    rw [readPairs, ih (by simp only [List.length_cons] at h; omega)]
    simp [statusFields]
  | case4 b s c _ => simp at h
  | case5 b s c _ => simp at h

/-- **When the parser panics.** For every output, the parser panics exactly when the
output is not empty, the trim and the split leave an even number of fields, and one of
their status fields is empty. Otherwise it returns `Changes` or an error. -/
theorem parseGitDiffOutput_eq_indexOutOfRange (output : List UInt8) :
    parseGitDiffOutput output = .indexOutOfRange ↔
      output ≠ [] ∧ (splitNul (trimRightNul output)).length % 2 = 0 ∧
        [] ∈ statusFields (splitNul (trimRightNul output)) := by
  unfold parseGitDiffOutput
  by_cases h0 : output = []
  · simp [h0]
  simp only [List.length_eq_zero, h0, if_false]
  split_ifs with h
  · simp [h]
  · rw [readPairs_eq_indexOutOfRange (by omega)]
    simp [h0, show (splitNul (trimRightNul output)).length % 2 = 0 by omega]

/-- The output `"\x00a\x00"`: the trim leaves `"\x00a"`, which splits into an empty
status and the path `a`, and the parser reads the first byte of the empty status. -/
theorem parseGitDiffOutput_empty_status : parseGitDiffOutput [0, 97, 0] = .indexOutOfRange := by
  decide

end Sourcegraph.Symbols
