import Sourcegraph.Bitmask.RepoIndex
import Mathlib.Data.List.Nodup

/-! `RepoIndex.Grep` of the `bitmask` prototype. It runs `PathsMatchingQuery`, reads again
every path the channel yields, and prints each line of the file that holds the query, at
the first column where the query starts; a path with such a line counts as a true
positive, a path without as a false positive. Its loop over the lines also carries `end`,
an offset into a suffix of the text that it then uses as an offset into the text.

Proved here, for every repository `NewRepoIndex` indexes, every query and every schedule
of the goroutines of `PathsMatchingQuery`:

* `grep_refines`: `Grep` never slices out of range, and prints, file by file in some
  order, what a plain search of the lines of every indexed file prints; its true
  positives are the indexed files with a line holding the query, and every path the
  channel yields is counted once;
* `mem_grep_hits`: what it prints is exactly, for each line of an indexed file that
  holds the query, the line's number and the first column where the query starts, and
  each such line once when `git ls-files` lists each path once.

The time and the false-positive ratio printed last are left out. -/

namespace Sourcegraph.Bitmask

/-! ## `strings.Index` and slicing -/

/-- The first position of `t` where `substr` starts. -/
def firstIndex (substr : List UInt8) : List UInt8 → Option Nat
  | [] => if substr.isPrefixOf [] then some 0 else none
  | c :: t => if substr.isPrefixOf (c :: t) then some 0 else (firstIndex substr t).map (· + 1)

/-- `strings.Index(s, substr)`: the first index of `substr` in `s`, or `-1`. -/
def stringsIndex (s substr : List UInt8) : Int := ((firstIndex substr s).map Int.ofNat).getD (-1)

/-- `s[i:]`, `none` where Go panics. -/
def sliceFrom (s : List UInt8) (i : Int) : Option (List UInt8) :=
  if 0 ≤ i ∧ i ≤ s.length then some (s.drop i.toNat) else none

/-- `s[0:i]`, `none` where Go panics. -/
def sliceTo (s : List UInt8) (i : Int) : Option (List UInt8) :=
  if 0 ≤ i ∧ i ≤ s.length then some (s.take i.toNat) else none

/-- `firstIndex` finds the first position where `q` starts. -/
theorem firstIndex_eq_some_iff {q : List UInt8} :
    ∀ {t : List UInt8} {c : Nat}, firstIndex q t = some c ↔ q <+: t.drop c ∧ ∀ j < c, ¬q <+: t.drop j
  | [], 0 => by simp [firstIndex, List.isPrefixOf_iff_prefix]
  | [], c + 1 => by
    simp only [firstIndex, List.isPrefixOf_iff_prefix, List.prefix_nil, List.drop_nil]
    split_ifs with h <;> simp [h]
    exact ⟨0, by omega⟩
  | a :: t, c => by
    rw [firstIndex]
    split_ifs with h
    · rw [List.isPrefixOf_iff_prefix] at h
      cases c with
      | zero => simpa using h
      | succ c =>
        exact iff_of_false (by simp) fun ⟨_, hj⟩ => hj 0 (by omega) h
    · rw [List.isPrefixOf_iff_prefix] at h
      cases c with
      | zero => simpa using h
      | succ c =>
        simp only [Option.map_eq_some', firstIndex_eq_some_iff, Nat.add_right_cancel_iff, exists_eq_right,
          List.drop_succ_cons]
        constructor
        · rintro ⟨hp, hj⟩
          refine ⟨hp, fun j hj' => ?_⟩
          cases j with
          | zero => simpa using h
          | succ j => simpa using hj j (by omega)
        · rintro ⟨hp, hj⟩
          exact ⟨hp, fun j hj' => by simpa using hj (j + 1) (by omega)⟩

/-- The query found at `c` ends within the text. -/
theorem firstIndex_add_length_le {q : List UInt8} : ∀ {t : List UInt8} {c : Nat}, firstIndex q t = some c →
    c + q.length ≤ t.length
  | [], c, h => by
    simp only [firstIndex, Option.ite_none_right_eq_some, Option.some.injEq] at h
    simpa [← h.2] using (List.isPrefixOf_iff_prefix.mp h.1).length_le
  | _ :: _, c, h => by
    simp only [firstIndex] at h
    split_ifs at h with hp
    · cases h
      simpa using (List.isPrefixOf_iff_prefix.mp hp).length_le
    · obtain ⟨c', hc', rfl⟩ := Option.map_eq_some'.mp h
      have := firstIndex_add_length_le hc'
      simp only [List.length_cons]
      omega

theorem stringsIndex_of_none {s q : List UInt8} (h : firstIndex q s = none) : stringsIndex s q = -1 := by
  simp [stringsIndex, h]

theorem stringsIndex_of_some {s q : List UInt8} {c : Nat} (h : firstIndex q s = some c) :
    stringsIndex s q = c := by
  simp [stringsIndex, h]

/-- Where `strings.Index(t, "\n")` points: at `-1`, or at a byte of `t`. -/
theorem stringsIndex_newline (t : List UInt8) : -1 ≤ stringsIndex t [10] ∧ stringsIndex t [10] < t.length := by
  cases h : firstIndex [10] t with
  | none => simp only [stringsIndex_of_none h]; omega
  | some c =>
    have := firstIndex_add_length_le h
    simp only [stringsIndex_of_some h, List.length_singleton] at this ⊢
    omega

/-! ## The loop over the lines -/

/-- What one `fmt.Printf` of the loop over the lines reports: the path, the line number,
the column, and the line before and after the query (`prefix` and `suffix`). -/
structure Hit where
  path : List UInt8
  lineNumber : Nat
  columnNumber : Nat
  before : List UInt8
  after : List UInt8
  deriving DecidableEq, Repr

/-- The decimal digits of `n`, as `%v` prints an int. -/
def decimal (n : Nat) : List UInt8 := (Nat.toDigits 10 n).map fun c => c.toNat.toUInt8

/-- The line `fmt.Printf("%v:%v:%v %v%v%v\n", ...)` prints for a hit, with
`Yellow(query)`, that is `"\033[1;33m%s\033[0m"`. -/
def Hit.text (query : List UInt8) (h : Hit) : List UInt8 :=
  h.path ++ [58] ++ decimal h.lineNumber ++ [58] ++ decimal h.columnNumber ++ [32] ++ h.before ++
    [27, 91, 49, 59, 51, 51, 109] ++ query ++ [27, 91, 48, 109] ++ h.after ++ [10]

/-- The variables the loop over the lines of one file carries: `hasMatch`, `end`, and the
hits printed so far. -/
structure ScanState where
  hasMatch : Bool
  stop : Int
  hits : List Hit

/-- The body of the loop for line `lineNumber`: print the hit if the line holds the query,
then `end = strings.Index(text[end+1:], "\n")`; `none` where a slice panics. -/
def ScanState.step (path text query : List UInt8) (s : ScanState) (lineNumber : Nat) (line : List UInt8) :
    Option ScanState := do
  let columnNumber := stringsIndex line query
  let s ← if 0 ≤ columnNumber then do
      let before ← sliceTo line columnNumber
      let after ← sliceFrom line (columnNumber + query.length)
      pure ⟨true, s.stop, s.hits ++ [⟨path, lineNumber, columnNumber.toNat, before, after⟩]⟩
    else pure s
  let rest ← sliceFrom text (s.stop + 1)
  pure { s with stop := stringsIndex rest [10] }

/-- `for lineNumber, line := range lines`, from line `n`. -/
def scanLines (path text query : List UInt8) : Nat → List (List UInt8) → ScanState → Option ScanState
  | _, [], s => some s
  | n, line :: lines, s => (s.step path text query n line).bind (scanLines path text query (n + 1) lines)

/-- What `Grep` has printed and counted. -/
structure GrepRun where
  hits : List Hit
  truePositive : Nat
  falsePositive : Nat

/-- The body of the loop over the paths: `continue` when the file does not read; else
`end := strings.Index(text[0:], "\n")`, the loop over `strings.Split(text, "\n")`, and
the count of the path. -/
def GrepRun.visit (env : IndexEnv) (query : List UInt8) (g : GrepRun) (path : List UInt8) : Option GrepRun :=
  match env.readFile path with
  | none => some g
  | some text => do
    let s ← scanLines path text query 0 (text.splitOn 10) ⟨false, stringsIndex text [10], []⟩
    pure ⟨g.hits ++ s.hits, if s.hasMatch then g.truePositive + 1 else g.truePositive,
      if s.hasMatch then g.falsePositive else g.falsePositive + 1⟩

/-- `r.Grep(query)`, once `PathsMatchingQuery` has returned its channel holding `res`:
the paths in the order the channel yields them; `none` where it panics. -/
def grep (env : IndexEnv) (query : List UInt8) (res : List (List UInt8)) : Option GrepRun :=
  res.foldlM (GrepRun.visit env query) ⟨[], 0, 0⟩

/-- What `Grep` prints. -/
def GrepRun.output (query : List UInt8) (g : GrepRun) : List UInt8 := g.hits.flatMap (Hit.text query)

/-! ## A plain search -/

/-- The hit a plain search finds on line `n`: at the first column where the query starts. -/
def hitAt (query path : List UInt8) (nl : Nat × List UInt8) : Option Hit :=
  (firstIndex query nl.2).map fun c => ⟨path, nl.1, c, nl.2.take c, nl.2.drop (c + query.length)⟩

/-- A plain search of one file: a hit for each of its lines that holds the query. -/
def IndexEnv.fileHits (env : IndexEnv) (query path : List UInt8) : List Hit :=
  match env.readFile path with
  | some text => (text.splitOn 10).enum.filterMap (hitAt query path)
  | none => []

/-- Whether a plain search of the file finds a hit. -/
def IndexEnv.hasHits (env : IndexEnv) (query path : List UInt8) : Bool := !(env.fileHits query path).isEmpty

/-- Whether `NewRepoIndex` gives the file a filter: it reads, has at most 1 MiB, and is
not binary. -/
def IndexEnv.indexed (env : IndexEnv) (path : List UInt8) : Bool :=
  match env.readFile path with
  | some text => decide (text.length ≤ maxFileSize) && !env.isBinary text
  | none => false

/-! ## One line, one file, the loop over the paths -/

theorem filterMap_cons_toList {α β : Type} (f : α → Option β) (a : α) (l : List α) :
    (a :: l).filterMap f = (f a).toList ++ l.filterMap f := by
  cases h : f a <;> simp [h]

/-- The body of the loop over the lines never panics while `end` points at `-1` or into
the text, keeps it so, and prints the hit of a plain search of the line. -/
theorem ScanState.step_eq {path text query line : List UInt8} {s : ScanState} (n : Nat)
    (h1 : -1 ≤ s.stop) (h2 : s.stop < text.length) :
    ∃ stop : Int, -1 ≤ stop ∧ stop < text.length ∧ s.step path text query n line =
      some ⟨s.hasMatch || (hitAt query path (n, line)).isSome, stop, s.hits ++ (hitAt query path (n, line)).toList⟩ := by
  have hrest : sliceFrom text (s.stop + 1) = some (text.drop (s.stop + 1).toNat) := if_pos ⟨by omega, by omega⟩
  have hb := stringsIndex_newline (text.drop (s.stop + 1).toNat)
  rw [List.length_drop] at hb
  refine ⟨_, hb.1, by omega, ?_⟩
  cases h : firstIndex query line with
  | none =>
    have hc : ¬(0 ≤ stringsIndex line query) := by rw [stringsIndex_of_none h]; omega
    simp [step, hc, hrest, hitAt, h]
  | some c =>
    have hq := firstIndex_add_length_le h
    have hto : sliceTo line c = some (line.take c) := if_pos ⟨by omega, by omega⟩
    have hfrom : sliceFrom line (c + query.length) = some (line.drop (c + query.length)) :=
      if_pos ⟨by omega, by omega⟩
    simp [step, stringsIndex_of_some h, hto, hfrom, hrest, hitAt, h, (by omega : (0 : Int) ≤ c)]

/-- **The loop over the lines never panics**, and prints the hits of a plain search of its
lines. -/
theorem scanLines_eq {path text query : List UInt8} :
    ∀ (lines : List (List UInt8)) (n : Nat) (s : ScanState), -1 ≤ s.stop → s.stop < text.length →
      ∃ stop, scanLines path text query n lines s =
        some ⟨s.hasMatch || !((lines.enumFrom n).filterMap (hitAt query path)).isEmpty, stop,
          s.hits ++ (lines.enumFrom n).filterMap (hitAt query path)⟩
  | [], n, s, _, _ => ⟨s.stop, by simp [scanLines]⟩
  | line :: lines, n, s, h1, h2 => by
    obtain ⟨stop, h1', h2', hs⟩ := @ScanState.step_eq path text query line s n h1 h2
    obtain ⟨stop', hr⟩ := scanLines_eq lines (n + 1) ⟨_, stop, _⟩ h1' h2'
    refine ⟨stop', ?_⟩
    rw [scanLines, hs, Option.some_bind, hr, List.enumFrom_cons, filterMap_cons_toList]
    cases hitAt query path (n, line) <;> simp

/-- One path: its hits are those of a plain search of the file; it counts as a true
positive when there is one, as a false positive when the file reads and there is none. -/
theorem GrepRun.visit_eq (env : IndexEnv) (query : List UInt8) (g : GrepRun) (path : List UInt8) :
    g.visit env query path = some ⟨g.hits ++ env.fileHits query path,
      g.truePositive + if env.hasHits query path then 1 else 0,
      g.falsePositive + if (env.readFile path).isSome && !env.hasHits query path then 1 else 0⟩ := by
  cases ht : env.readFile path with
  | none => simp [visit, IndexEnv.hasHits, IndexEnv.fileHits, ht]
  | some text =>
    have h := stringsIndex_newline text
    obtain ⟨stop, hs⟩ := @scanLines_eq path text query (text.splitOn 10) 0
      ⟨false, stringsIndex text [10], []⟩ h.1 h.2
    simp only [visit, IndexEnv.hasHits, IndexEnv.fileHits, ht, List.enum, hs, Bool.false_or, Option.isSome_some,
      Bool.true_and]
    cases (List.filterMap (hitAt query path) (List.enumFrom 0 (List.splitOn 10 text))).isEmpty <;> rfl

theorem grep_foldlM_eq (env : IndexEnv) (query : List UInt8) :
    ∀ (paths : List (List UInt8)) (g : GrepRun), paths.foldlM (GrepRun.visit env query) g =
      some ⟨g.hits ++ paths.flatMap (env.fileHits query), g.truePositive + paths.countP (env.hasHits query),
        g.falsePositive + paths.countP fun p => (env.readFile p).isSome && !env.hasHits query p⟩
  | [], g => by simp
  | p :: ps, g => by
    rw [List.foldlM_cons, GrepRun.visit_eq, Option.bind_eq_bind, Option.some_bind, grep_foldlM_eq env query ps]
    simp only [List.append_assoc, List.flatMap_cons, List.countP_cons, Option.some.injEq, GrepRun.mk.injEq,
      true_and]
    omega

/-- **`Grep` never panics**: over any paths, it prints the hits of a plain search of each
file, and counts the files with a hit and the files that read without one. -/
theorem grep_eq (env : IndexEnv) (query : List UInt8) (res : List (List UInt8)) :
    grep env query res = some ⟨res.flatMap (env.fileHits query), res.countP (env.hasHits query),
      res.countP fun p => (env.readFile p).isSome && !env.hasHits query p⟩ := by
  simpa using grep_foldlM_eq env query res ⟨[], 0, 0⟩

/-! ## What a plain search of a file prints -/

theorem mem_intersperse_of_mem {α : Type} {a sep : α} : ∀ {ls : List α}, a ∈ ls → a ∈ ls.intersperse sep
  | [_], h => h
  | _ :: _ :: _, h => by
    rw [List.intersperse_cons₂]
    rcases List.mem_cons.mp h with rfl | h
    · exact List.mem_cons_self _ _
    · exact List.mem_cons_of_mem _ (List.mem_cons_of_mem _ (mem_intersperse_of_mem h))

/-- A line of `strings.Split(text, "\n")` is a piece of the text. -/
theorem infix_of_mem_splitOn {t l : List UInt8} (h : l ∈ t.splitOn 10) : l <:+: t := by
  rw [← List.intercalate_splitOn t (10 : UInt8)]
  exact List.infix_of_mem_flatten (mem_intersperse_of_mem h)

/-- A hit on a line is the line cut at the first column where the query starts. -/
theorem hitAt_eq_some_iff {query path line : List UInt8} {n : Nat} {h : Hit} :
    hitAt query path (n, line) = some h ↔ h.path = path ∧ h.lineNumber = n ∧
      line = h.before ++ query ++ h.after ∧ h.columnNumber = h.before.length ∧
      ∀ j < h.columnNumber, ¬query <+: line.drop j := by
  simp only [hitAt, Option.map_eq_some']
  constructor
  · rintro ⟨c, hc, rfl⟩
    have hl := firstIndex_add_length_le hc
    obtain ⟨⟨u, hu⟩, hj⟩ := firstIndex_eq_some_iff.mp hc
    have hu' : line.drop (c + query.length) = u := by
      rw [← List.drop_drop, ← hu, List.drop_left]
    refine ⟨rfl, rfl, ?_, by simp; omega, hj⟩
    calc line = line.take c ++ line.drop c := (List.take_append_drop c line).symm
      _ = _ := by rw [← hu, hu', List.append_assoc]
  · rintro ⟨hp, hn, rfl, hc, hj⟩
    refine ⟨h.columnNumber, firstIndex_eq_some_iff.mpr ⟨⟨h.after, ?_⟩, hj⟩, ?_⟩
    · rw [List.append_assoc, List.drop_left' hc.symm]
    · cases h
      simp only [Hit.mk.injEq] at hp hn hc ⊢
      subst hp hn hc
      simp [List.append_assoc]

/-- **What a plain search prints.** The hits of a file are its lines that hold the query,
each cut at the first column where the query starts. -/
theorem mem_fileHits {env : IndexEnv} {query path : List UInt8} {h : Hit} :
    h ∈ env.fileHits query path ↔ ∃ text, env.readFile path = some text ∧ h.path = path ∧
      (text.splitOn 10)[h.lineNumber]? = some (h.before ++ query ++ h.after) ∧ h.columnNumber = h.before.length ∧
      ∀ j < h.columnNumber, ¬query <+: (h.before ++ query ++ h.after).drop j := by
  unfold IndexEnv.fileHits
  split
  · rename_i text ht
    simp only [List.mem_filterMap, Prod.exists, List.mem_enum_iff_getElem?, hitAt_eq_some_iff, ht,
      Option.some.injEq, exists_eq_left']
    constructor
    · rintro ⟨n, line, hl, hp, rfl, rfl, hc, hj⟩
      exact ⟨hp, hl, hc, hj⟩
    · rintro ⟨hp, hl, hc, hj⟩
      exact ⟨_, _, hl, hp, rfl, rfl, hc, hj⟩
  · simp_all

/-- A plain search of a file prints each of its lines at most once. -/
theorem fileHits_nodup (env : IndexEnv) (query path : List UInt8) : (env.fileHits query path).Nodup := by
  unfold IndexEnv.fileHits
  split
  · refine List.Nodup.filterMap ?_ (List.Nodup.of_map Prod.fst (by simp [List.nodup_range]))
    rintro ⟨n, line⟩ ⟨n', line'⟩ h hb hb'
    obtain ⟨-, rfl, rfl, -⟩ := hitAt_eq_some_iff.mp hb
    obtain ⟨-, rfl, rfl, -⟩ := hitAt_eq_some_iff.mp hb'
    rfl
  · exact List.nodup_nil

/-- A file with a hit holds the query. -/
theorem infix_of_hasHits {env : IndexEnv} {query path : List UInt8} (h : env.hasHits query path = true) :
    ∃ text, env.readFile path = some text ∧ query <:+: text := by
  obtain ⟨hit, hm⟩ := List.exists_mem_of_ne_nil _ (by simpa [IndexEnv.hasHits] using h)
  obtain ⟨text, ht, -, hl, -⟩ := mem_fileHits.mp hm
  exact ⟨text, ht, (List.infix_append _ _ _).trans (infix_of_mem_splitOn (List.getElem?_mem hl))⟩

theorem flatMap_filter_not_isEmpty {α β : Type} (f : α → List β) :
    ∀ l : List α, l.flatMap f = (l.filter fun a => !(f a).isEmpty).flatMap f
  | [] => rfl
  | a :: l => by cases h : f a <;> simp [h, flatMap_filter_not_isEmpty f l]

/-! ## `Grep` over the paths the channel yields -/

section Refines

variable (location : List UInt8 → Nat → Nat) (estimateParameters : Nat → Nat × Nat)

/-- A blob the loop over the lines appends is indexed, under its line. -/
theorem blobIndex_eq_some {env : IndexEnv} {line : List UInt8} {b : BlobIndex}
    (h : env.blobIndex location estimateParameters line = some b) : b.path = line ∧ env.indexed line = true := by
  cases ht : env.readFile line <;> simp [IndexEnv.blobIndex, ht] at h
  obtain ⟨hs, hbin, rfl⟩ := h
  simp [IndexEnv.indexed, ht, hs, hbin]

/-- The paths of the blobs a query keeps are the lines whose blob matches. -/
theorem paths_filter_isMatch (env : IndexEnv) (grams : List (List UInt8)) :
    ∀ lines : List (List UInt8),
      ((lines.filterMap (env.blobIndex location estimateParameters)).filter (·.isMatch location grams)).map (·.path) =
        lines.filter fun p => (env.blobIndex location estimateParameters p).any (·.isMatch location grams)
  | [] => rfl
  | p :: ps => by
    have ih := paths_filter_isMatch env grams ps
    cases hb : env.blobIndex location estimateParameters p with
    | none => simp [hb, ih]
    | some b =>
      by_cases hm : b.isMatch location grams <;>
        simp [hb, hm, ih, List.filter_cons, (blobIndex_eq_some location estimateParameters hb).1]

/-- **The channel yields the matching lines.** Once every goroutine of a run of
`PathsMatchingQuery` is done, `res` holds, once each, the lines of `git ls-files` whose
blob matches the query, and no other path. -/
theorem res_perm_matching {env : IndexEnv} {dir : List UInt8} {r : RepoIndex}
    (hr : newRepoIndex location estimateParameters env dir = .ok r) {lines : List (List UInt8)}
    (hl : env.lsLines = .ok lines) {query : List UInt8} {w : World}
    (hw : r.Reachable location query w) (hd : w.Done) :
    w.res.Perm (lines.filter fun p =>
      (env.blobIndex location estimateParameters p).any (·.isMatch location (collectGrams query))) := by
  have hres := RepoIndex.res_perm_of_done hw hd
  have hr' : r = ⟨dir, List.replicate lines.length ⟨none, []⟩ ++
      lines.filterMap (env.blobIndex location estimateParameters)⟩ := by
    simp only [newRepoIndex, hl] at hr
    exact (Except.ok.inj hr).symm
  subst hr'
  rwa [List.filter_append, List.map_append, List.filter_replicate, if_neg (by simp [BlobIndex.isMatch]),
    List.map_nil, List.nil_append, paths_filter_isMatch] at hres

/-- A file with a hit passes the prefilter exactly when it is indexed. -/
theorem matching_iff_indexed {env : IndexEnv} {query path : List UInt8} (h : env.hasHits query path = true) :
    (env.blobIndex location estimateParameters path).any (·.isMatch location (collectGrams query)) =
      env.indexed path := by
  obtain ⟨text, ht, hq⟩ := infix_of_hasHits h
  by_cases hi : env.indexed path
  · simp only [IndexEnv.indexed, ht, Bool.and_eq_true, decide_eq_true_eq, Bool.not_eq_true'] at hi
    rw [blobIndex_of_indexed location estimateParameters ht hi.1 hi.2]
    simpa [BlobIndex.isMatch, List.all_eq_true, IndexEnv.indexed, ht, hi] using fun g hg =>
      BloomFilter.test_foldl_add location _ _ (.inl (mem_onGrams_of_mem_collectGrams hq hg))
  · cases hb : env.blobIndex location estimateParameters path with
    | none => simp_all
    | some b => exact absurd (blobIndex_eq_some location estimateParameters hb).2 hi

/-- **`Grep` is a plain search of the indexed files.** For every repository
`NewRepoIndex` indexes, every query and every run of `PathsMatchingQuery` whose
goroutines are all done, `Grep` over the paths of the channel never panics; it prints,
file by file in some order, the hits of a plain search of every indexed file that has
one, whatever the hash locations and the filter sizes; its true positives are those
files, and every path the channel yields is counted once. -/
theorem grep_refines {env : IndexEnv} {dir : List UInt8} {r : RepoIndex}
    (hr : newRepoIndex location estimateParameters env dir = .ok r) {lines : List (List UInt8)}
    (hl : env.lsLines = .ok lines) {query : List UInt8} {w : World}
    (hw : r.Reachable location query w) (hd : w.Done) :
    ∃ run, grep env query w.res = some run ∧
      ∃ files : List (List UInt8), files.Perm (lines.filter fun p => env.indexed p && env.hasHits query p) ∧
        run.hits = files.flatMap (env.fileHits query) ∧ run.truePositive = files.length ∧
        run.truePositive + run.falsePositive = w.res.length := by
  have hres := res_perm_matching location estimateParameters hr hl hw hd
  refine ⟨_, grep_eq env query w.res, w.res.filter (env.hasHits query), ?_, ?_, List.countP_eq_length_filter _ _, ?_⟩
  · refine (hres.filter _).trans (List.Perm.of_eq ?_)
    rw [List.filter_filter]
    refine List.filter_congr fun p _ => ?_
    cases hh : env.hasHits query p
    · simp
    · simp [matching_iff_indexed location estimateParameters hh]
  · exact flatMap_filter_not_isEmpty _ _
  · have hread : ∀ p ∈ w.res, (env.readFile p).isSome = true := fun p hp => by
      obtain ⟨-, hm⟩ := List.mem_filter.mp (hres.mem_iff.mp hp)
      cases hb : env.blobIndex location estimateParameters p with
      | none => simp [hb] at hm
      | some b =>
        have := (blobIndex_eq_some location estimateParameters hb).2
        unfold IndexEnv.indexed at this
        split at this <;> simp_all
    rw [List.length_eq_countP_add_countP (env.hasHits query)]
    congr 1
    exact List.countP_congr fun p hp => by simp [hread p hp]

/-- The index of `sampleEnv` with every location at `0`: the two blobs `make` allocates,
and the filter of `a`. -/
def sampleIndex : RepoIndex := ⟨[100], [⟨none, []⟩, ⟨none, []⟩, ⟨some ⟨1, 1, [0, 0, 0]⟩, [97]⟩]⟩

/-- Its one goroutine tests the three blobs and sends `a`, whose filter passes every query. -/
theorem sampleIndex_done (query : List UInt8) : sampleIndex.Reachable (fun _ _ => 0) query ⟨[[]], [[97]]⟩ :=
  .step 0 (.step 0 (.step 0 .start rfl) rfl) (by
    simp [World.step, BlobIndex.isMatch, BloomFilter.test, RepoIndex.pathsMatchingQuery, batches, batchesFrom,
      sampleIndex])

theorem grep_refines_falsePositive :
    newRepoIndex (fun _ _ => 0) (fun _ => (1, 1)) sampleEnv [100] = .ok sampleIndex ∧
      sampleEnv.lsLines = .ok [[97], []] ∧ World.Done ⟨[[]], [[97]]⟩ ∧
      grep sampleEnv [99] [[97]] = some ⟨[], 0, 1⟩ ∧
      ∃ run, grep sampleEnv [99] [[97]] = some run ∧
        ∃ files : List (List UInt8), files.Perm ([[97], []].filter fun p => sampleEnv.indexed p && sampleEnv.hasHits [99] p) ∧
          run.hits = files.flatMap (sampleEnv.fileHits [99]) ∧ run.truePositive = files.length ∧
          run.truePositive + run.falsePositive = [[97]].length :=
  have hr : newRepoIndex (fun _ _ => 0) (fun _ => (1, 1)) sampleEnv [100] = .ok sampleIndex := rfl
  ⟨hr, rfl, by decide, rfl, grep_refines (fun _ _ => 0) (fun _ => (1, 1)) hr rfl (sampleIndex_done [99]) (by decide)⟩

/-- **What `Grep` prints.** For every repository `NewRepoIndex` indexes, every query and
every run of `PathsMatchingQuery` whose goroutines are all done, `Grep` prints a hit
exactly for each line of each indexed file that holds the query: the line, cut at the
first column where the query starts; when `git ls-files` lists each path once, it prints
each such line once. -/
theorem mem_grep_hits {env : IndexEnv} {dir : List UInt8} {r : RepoIndex}
    (hr : newRepoIndex location estimateParameters env dir = .ok r) {lines : List (List UInt8)}
    (hl : env.lsLines = .ok lines) {query : List UInt8} {w : World}
    (hw : r.Reachable location query w) (hd : w.Done) :
    ∃ run, grep env query w.res = some run ∧ (lines.Nodup → run.hits.Nodup) ∧
      ∀ h : Hit, h ∈ run.hits ↔ h.path ∈ lines ∧ env.indexed h.path = true ∧
      ∃ text, env.readFile h.path = some text ∧ (text.splitOn 10)[h.lineNumber]? = some (h.before ++ query ++ h.after) ∧
        h.columnNumber = h.before.length ∧ ∀ j < h.columnNumber, ¬query <+: (h.before ++ query ++ h.after).drop j := by
  have hres := res_perm_matching location estimateParameters hr hl hw hd
  have hhas : ∀ {h : Hit} {p}, h ∈ env.fileHits query p → env.hasHits query p = true := fun hh => by
    simpa [IndexEnv.hasHits] using List.ne_nil_of_mem hh
  refine ⟨_, grep_eq env query w.res, fun hnd => ?_, fun h => ?_⟩
  · have hnd' : w.res.Nodup := hres.nodup_iff.mpr (hnd.filter _)
    refine List.nodup_flatMap.mpr ⟨fun p _ => fileHits_nodup env query p, hnd'.imp fun {p q} hpq h h₁ h₂ => hpq ?_⟩
    obtain ⟨_, _, rfl, -⟩ := mem_fileHits.mp h₁
    obtain ⟨_, _, rfl, -⟩ := mem_fileHits.mp h₂
    rfl
  simp only [List.mem_flatMap, hres.mem_iff, List.mem_filter]
  constructor
  · rintro ⟨p, ⟨hp, hm⟩, hh⟩
    obtain ⟨text, ht, rfl, rest⟩ := mem_fileHits.mp hh
    exact ⟨hp, matching_iff_indexed location estimateParameters (hhas hh) ▸ hm, text, ht, rest⟩
  · rintro ⟨hp, hi, text, ht, rest⟩
    have hh : h ∈ env.fileHits query h.path := mem_fileHits.mpr ⟨text, ht, rfl, rest⟩
    exact ⟨h.path, ⟨hp, (matching_iff_indexed location estimateParameters (hhas hh)).trans hi⟩, hh⟩

theorem mem_grep_hits_sample :
    newRepoIndex (fun _ _ => 0) (fun _ => (1, 1)) sampleEnv [100] = .ok sampleIndex ∧
      sampleEnv.lsLines = .ok [[97], []] ∧ World.Done ⟨[[]], [[97]]⟩ ∧
      grep sampleEnv [98] [[97]] = some ⟨[⟨[97], 0, 1, [97], []⟩], 1, 0⟩ ∧
      ∃ run, grep sampleEnv [98] [[97]] = some run ∧ (([[97], []] : List (List UInt8)).Nodup → run.hits.Nodup) ∧
        ∀ h : Hit, h ∈ run.hits ↔ h.path ∈ [[97], []] ∧
          sampleEnv.indexed h.path = true ∧ ∃ text, sampleEnv.readFile h.path = some text ∧
            (text.splitOn 10)[h.lineNumber]? = some (h.before ++ [98] ++ h.after) ∧ h.columnNumber = h.before.length ∧
            ∀ j < h.columnNumber, ¬[98] <+: (h.before ++ [98] ++ h.after).drop j :=
  have hr : newRepoIndex (fun _ _ => 0) (fun _ => (1, 1)) sampleEnv [100] = .ok sampleIndex := rfl
  have hl : sampleEnv.lsLines = .ok [[97], []] := rfl
  ⟨hr, hl, by decide, rfl, mem_grep_hits (fun _ _ => 0) (fun _ => (1, 1)) hr hl (sampleIndex_done [98]) (by decide)⟩

end Refines

end Sourcegraph.Bitmask
