import Sourcegraph.Bitmask.Grams

/-! `NewRepoIndex` and `RepoIndex.PathsMatchingQuery` of the `bitmask` prototype. The
index keeps, for every file it can read, a Bloom filter of the grams `onGrams` passes
for its content; a query keeps the files whose filter holds every gram of the query.
`PathsMatchingQuery` tests the blobs in batches of 5000, one goroutine a batch, each
sending the matching paths on a channel of capacity `len(r.Blobs)`, and returns once
every goroutine is done. The goroutines are modelled as a world that any of them may
step, the channel as the list of paths sent. Strings are byte lists. -/

namespace Sourcegraph.Bitmask

/-- Modelled from the spec: `bloom.BloomFilter` of bits-and-blooms/bloom/v3 (not under
src/), with `m` bits, `k` locations per key, and the positions set so far. -/
structure BloomFilter where
  m : Nat
  k : Nat
  bits : List Nat
  deriving DecidableEq, Repr

/-- `BlobIndex`: a blob's filter, `nil` for the blobs `make` allocates, and its path. -/
structure BlobIndex where
  filter : Option BloomFilter
  path : List UInt8
  deriving DecidableEq, Repr

/-- `RepoIndex`. -/
structure RepoIndex where
  dir : List UInt8
  blobs : List BlobIndex
  deriving DecidableEq, Repr

/-- `maxFileSize`, `1 << 20`. -/
def maxFileSize : Nat := 1048576

/-- `bloomSizePadding`. -/
def bloomSizePadding : Nat := 10

/-- `batchSize` of `PathsMatchingQuery`. -/
def batchSize : Nat := 5000

section Bloom

/- The `i`-th location of a key before its reduction modulo `m`, `location(baseHashes(data), i)`
of the library: its murmur hashes are a parameter. -/
variable (location : List UInt8 → Nat → Nat)

/-- Modelled from the spec: `bloom.New`, which takes at least one bit and one location. -/
def BloomFilter.new (m k : Nat) : BloomFilter := ⟨max 1 m, max 1 k, []⟩

/-- Modelled from the spec: `BloomFilter.Add` sets the `k` locations of the key. -/
def BloomFilter.add (f : BloomFilter) (data : List UInt8) : BloomFilter :=
  { f with bits := f.bits ++ (List.range f.k).map fun i => location data i % f.m }

/-- Modelled from the spec: `BloomFilter.Test` reads the `k` locations of the key. -/
def BloomFilter.test (f : BloomFilter) (data : List UInt8) : Bool :=
  (List.range f.k).all fun i => decide (location data i % f.m ∈ f.bits)

@[simp] theorem BloomFilter.add_m (f : BloomFilter) (data : List UInt8) : (f.add location data).m = f.m := rfl

@[simp] theorem BloomFilter.add_k (f : BloomFilter) (data : List UInt8) : (f.add location data).k = f.k := rfl

theorem BloomFilter.test_add_self (f : BloomFilter) (data : List UInt8) :
    (f.add location data).test location data = true := by
  simp only [test, add, List.all_eq_true, decide_eq_true_eq, List.mem_range]
  exact fun i hi => List.mem_append_right _ (List.mem_map_of_mem _ (List.mem_range.mpr hi))

theorem BloomFilter.test_add_of_test {f : BloomFilter} {x : List UInt8} (h : f.test location x = true)
    (y : List UInt8) : (f.add location y).test location x = true := by
  simp only [test, List.all_eq_true, decide_eq_true_eq, add_m, add_k] at h ⊢
  exact fun i hi => List.mem_append_left _ (h i hi)

/-- **No false negative.** A filter built by adding keys one after the other holds every
key added, and every key it held before. -/
theorem BloomFilter.test_foldl_add {x : List UInt8} :
    ∀ (xs : List (List UInt8)) (f : BloomFilter), x ∈ xs ∨ f.test location x = true →
      (xs.foldl (·.add location ·) f).test location x = true
  | [], _, h => h.resolve_left (List.not_mem_nil _)
  | y :: ys, f, h => by
    refine test_foldl_add ys _ ?_
    rcases h with h | h
    · rcases List.mem_cons.mp h with rfl | h
      · exact .inr (test_add_self location f _)
      · exact .inl h
    · exact .inr (test_add_of_test location h y)

end Bloom

/-! ## `NewRepoIndex` -/

/-- What `NewRepoIndex` reads of the repository at `dir`: the output of
`git rev-parse --abbrev-ref HEAD` and of `git ls-files -z --with-tree <branch>`, or the
error of the command; `os.ReadFile(path.Join(dir, line))`, `none` on an error; and
`enry.IsBinary`. -/
structure IndexEnv where
  revParse : Except String (List UInt8)
  lsFiles : List UInt8 → Except String (List UInt8)
  readFile : List UInt8 → Option (List UInt8)
  isBinary : List UInt8 → Bool

/-- `strings.Trim(s, "\n")`. -/
def trimNewlines (s : List UInt8) : List UInt8 :=
  ((s.dropWhile (· == 10)).reverse.dropWhile (· == 10)).reverse

/-- The two git commands of `NewRepoIndex`, and `strings.Split(stdout, NUL)`. -/
def IndexEnv.lsLines (env : IndexEnv) : Except String (List (List UInt8)) := do
  let branch ← env.revParse.mapError ("failed to infer the default branch: " ++ ·)
  let stdout ← env.lsFiles (trimNewlines branch)
  pure (stdout.splitOn 0)

section Index

variable (location : List UInt8 → Nat → Nat)

/- `bloom.NewWithEstimates(n, estimate)`: the `(m, k)` of `EstimateParameters(n, 0.01)`,
computed in floating point by the library, is a parameter. -/
variable (estimateParameters : Nat → Nat × Nat)

/-- `bloom.NewWithEstimates`. -/
def BloomFilter.newWithEstimates (n : Nat) : BloomFilter :=
  BloomFilter.new (estimateParameters n).1 (estimateParameters n).2

/-- One iteration of the loop over the lines: the blob it appends, `none` where it
continues. -/
def IndexEnv.blobIndex (env : IndexEnv) (line : List UInt8) : Option BlobIndex := do
  let textBytes ← env.readFile line
  if textBytes.length > maxFileSize then none
  else
    let bloomSize := textBytes.length * bloomSizePadding
    let filter := BloomFilter.newWithEstimates estimateParameters bloomSize
    if env.isBinary textBytes then none
    else some ⟨some ((onGrams textBytes).foldl (·.add location ·) filter), line⟩

/-- `NewRepoIndex`: the `len(lines)` blobs of `make`, then one blob per indexed line. -/
def newRepoIndex (env : IndexEnv) (dir : List UInt8) : Except String RepoIndex := do
  let lines ← env.lsLines
  pure ⟨dir, List.replicate lines.length ⟨none, []⟩ ++ lines.filterMap (env.blobIndex location estimateParameters)⟩

theorem blobIndex_of_indexed {env : IndexEnv} {line T : List UInt8} (hT : env.readFile line = some T)
    (hsize : T.length ≤ maxFileSize) (hbin : env.isBinary T = false) :
    env.blobIndex location estimateParameters line =
      some ⟨some ((onGrams T).foldl (·.add location ·)
        (BloomFilter.newWithEstimates estimateParameters (T.length * bloomSizePadding))), line⟩ := by
  simp [IndexEnv.blobIndex, hT, hbin, Nat.not_lt.mpr hsize]

end Index

/-! ## `PathsMatchingQuery` -/

/-- The batches `r.Blobs[i:j]` of the loop `for i := 0; i < len(r.Blobs); i += batchSize`,
with enough fuel for one batch a blob. -/
def batchesFrom {α : Type} : Nat → List α → List (List α)
  | 0, _ => []
  | _ + 1, [] => []
  | fuel + 1, b :: bs => (b :: bs).take batchSize :: batchesFrom fuel ((b :: bs).drop batchSize)

/-- The batches of the blobs, one goroutine each. -/
def batches {α : Type} (blobs : List α) : List (List α) := batchesFrom blobs.length blobs

theorem flatten_batchesFrom {α : Type} :
    ∀ (fuel : Nat) (xs : List α), xs.length ≤ fuel → (batchesFrom fuel xs).flatten = xs
  | 0, xs, h => by simp [batchesFrom, List.eq_nil_of_length_eq_zero (Nat.le_zero.mp h)]
  | _ + 1, [], _ => rfl
  | fuel + 1, b :: bs, h => by
    have hd := flatten_batchesFrom fuel ((b :: bs).drop batchSize) (by simp [batchSize] at h ⊢; omega)
    simp only [batchesFrom, List.flatten_cons, hd, List.take_append_drop]

@[simp] theorem flatten_batches {α : Type} (xs : List α) : (batches xs).flatten = xs :=
  flatten_batchesFrom _ xs le_rfl

/-- Taking the head of one list of a list of lists leaves the others in place. -/
theorem perm_flatten_set {α : Type} :
    ∀ {l : List (List α)} {g : Nat} {a : α} {rest : List α}, l[g]? = some (a :: rest) →
      (a :: (l.set g rest).flatten).Perm l.flatten
  | [], _, _, _, h => by simp at h
  | x :: xs, 0, a, rest, h => by
    obtain rfl : x = a :: rest := by simpa using h
    simp
  | x :: xs, g + 1, a, rest, h => by
    have ih := @perm_flatten_set _ xs g a rest (by simpa using h)
    simpa using List.perm_middle.symm.trans (List.Perm.append_left x ih)

section Query

variable (location : List UInt8 → Nat → Nat)

/-- The body of a goroutine's loop for one blob: whether it sends the blob's path. -/
def BlobIndex.isMatch (grams : List (List UInt8)) (index : BlobIndex) : Bool :=
  match index.filter with
  | none => false
  | some f => grams.all (f.test location)

/-- The goroutines of `PathsMatchingQuery` and its channel `res`: what each goroutine has
left of its batch, and the paths sent so far. -/
structure World where
  todo : List (List BlobIndex)
  res : List (List UInt8)
  deriving DecidableEq, Repr

/-- Goroutine `g` runs one iteration of its loop: `none` when it has returned, or when
it has a path to send and `res` holds `cap` paths already. -/
def World.step (grams : List (List UInt8)) (cap : Nat) (w : World) (g : Nat) : Option World :=
  match w.todo[g]? with
  | some (index :: rest) =>
    if index.isMatch location grams then
      if w.res.length < cap then some ⟨w.todo.set g rest, w.res ++ [index.path]⟩ else none
    else some ⟨w.todo.set g rest, w.res⟩
  | _ => none

/-- Every goroutine has returned, so `wg.Wait` returns, `res` is closed and returned. -/
def World.Done (w : World) : Prop := ∀ batch ∈ w.todo, batch = []

instance : DecidablePred World.Done := fun w => inferInstanceAs (Decidable (∀ batch ∈ w.todo, batch = []))

/-- The blobs the goroutines have still to test. -/
def World.work (w : World) : Nat := w.todo.flatten.length

/-- The paths the goroutines have still to send. -/
def World.pending (grams : List (List UInt8)) (w : World) : List (List UInt8) :=
  (w.todo.flatten.filter (·.isMatch location grams)).map (·.path)

/-- The goroutines of `r.PathsMatchingQuery` just started: every batch to do, `res` empty. -/
def RepoIndex.pathsMatchingQuery (r : RepoIndex) : World := ⟨batches r.blobs, []⟩

/-- The worlds a run of `r.PathsMatchingQuery(query)` reaches, under any schedule of its
goroutines, with `grams := collectGrams(query)` and `res` of capacity `len(r.Blobs)`. -/
inductive RepoIndex.Reachable (r : RepoIndex) (query : List UInt8) : World → Prop
  | start : Reachable r query r.pathsMatchingQuery
  | step {w w' : World} (g : Nat) : Reachable r query w →
      w.step location (collectGrams query) r.blobs.length g = some w' → Reachable r query w'

/-- `res` and the pending paths are, together, the paths of the matching blobs. -/
def RepoIndex.Conserved (r : RepoIndex) (query : List UInt8) (w : World) : Prop :=
  (w.res ++ w.pending location (collectGrams query)).Perm
    ((r.blobs.filter (·.isMatch location (collectGrams query))).map (·.path))

variable {location} {grams : List (List UInt8)} {cap : Nat}

/-- What one step does: the goroutine takes the head of its batch, and sends its path
when it matches. -/
theorem World.step_eq_some {w w' : World} {g : Nat} (h : w.step location grams cap g = some w') :
    ∃ index rest, w.todo[g]? = some (index :: rest) ∧ w'.todo = w.todo.set g rest ∧
      w'.res = w.res ++ (if index.isMatch location grams then [index.path] else []) := by
  unfold step at h
  split at h
  · rename_i index rest hg
    refine ⟨index, rest, hg, ?_⟩
    split_ifs at h with hm hc <;> cases h <;> simp [hm]
  · cases h

theorem World.step_work {w w' : World} {g : Nat} (h : w.step location grams cap g = some w') :
    w'.work < w.work := by
  obtain ⟨index, rest, hg, ht, -⟩ := step_eq_some h
  have := (perm_flatten_set hg).length_eq
  simp only [work, ht]
  simp only [List.length_cons] at this
  omega

/-- One step moves the path it sends, if any, from the pending paths to `res`. -/
theorem World.step_conserves {w w' : World} {g : Nat} (h : w.step location grams cap g = some w') :
    (w'.res ++ w'.pending location grams).Perm (w.res ++ w.pending location grams) := by
  obtain ⟨index, rest, hg, ht, hr⟩ := step_eq_some h
  have hp := ((perm_flatten_set hg).filter (·.isMatch location grams)).map (·.path)
  rw [hr, List.append_assoc]
  refine List.Perm.append_left _ ?_
  simp only [pending, ht]
  refine List.Perm.trans ?_ hp
  split_ifs with hm <;> simp [List.filter_cons, hm]

theorem RepoIndex.conserved_of_reachable {r : RepoIndex} {query : List UInt8} {w : World}
    (h : r.Reachable location query w) : r.Conserved location query w := by
  induction h with
  | start => simp [Conserved, World.pending, pathsMatchingQuery]
  | step _ _ hs ih => exact (World.step_conserves hs).trans ih

/-- **No send blocks.** A goroutine with a blob left can always run: a send finds room,
since every path still to send has a place among the `len(r.Blobs)` of `res`. -/
theorem RepoIndex.step_of_not_done {r : RepoIndex} {query : List UInt8} {w : World}
    (h : r.Reachable location query w) (hd : ¬w.Done) :
    ∃ g w', w.step location (collectGrams query) r.blobs.length g = some w' := by
  obtain ⟨batch, hb, hne⟩ := not_forall₂.mp hd
  obtain ⟨index, rest, rfl⟩ := List.exists_cons_of_ne_nil hne
  obtain ⟨g, hg⟩ := List.mem_iff_getElem?.mp hb
  refine ⟨g, ?_⟩
  simp only [World.step, hg]
  split_ifs with hm hc
  · exact ⟨_, rfl⟩
  · have hlen := (conserved_of_reachable h).length_eq
    have hpend : index.path ∈ w.pending location (collectGrams query) :=
      List.mem_map_of_mem _ (List.mem_filter.mpr
        ⟨List.mem_flatten.mpr ⟨_, hb, List.mem_cons_self _ _⟩, hm⟩)
    have := List.length_pos_of_mem hpend
    have := List.length_filter_le (·.isMatch location (collectGrams query)) r.blobs
    simp only [List.length_append, List.length_map] at hlen
    omega
  · exact ⟨_, rfl⟩

/-- **What the channel yields.** Once every goroutine is done, `res` holds the path of
every matching blob, once each, and no other. -/
theorem RepoIndex.res_perm_of_done {r : RepoIndex} {query : List UInt8} {w : World}
    (h : r.Reachable location query w) (hd : w.Done) :
    w.res.Perm ((r.blobs.filter (·.isMatch location (collectGrams query))).map (·.path)) := by
  have hw : w.todo.flatten = [] := List.flatten_eq_nil_iff.mpr hd
  simpa [Conserved, World.pending, hw] using conserved_of_reachable h

end Query

/-! ## The prefilter keeps every file that holds the query -/

section Sound

variable (location : List UInt8 → Nat → Nat) (estimateParameters : Nat → Nat × Nat)

/-- Every gram of a query is a gram of every text that holds it. -/
theorem mem_onGrams_of_mem_collectGrams {query T g : List UInt8} (hq : query <:+: T) (hg : g ∈ collectGrams query) :
    g ∈ onGrams T := by
  obtain ⟨hne, h5, hi⟩ := mem_onGrams.mp hg
  exact mem_onGrams.mpr ⟨hne, h5, hi.trans hq⟩

/-- **The index finds every file holding the query.** Take every file `NewRepoIndex`
indexes (a line of `git ls-files` that reads, of at most 1 MiB, not binary) and every
query its content holds. Under every schedule of the goroutines of
`PathsMatchingQuery`, a goroutine can step while one has work left, every step lowers
the work left, so every run ends with every goroutine returned, and `res` then holds
the file's path. -/
theorem pathsMatchingQuery_yields_path {env : IndexEnv} {dir : List UInt8} {r : RepoIndex}
    (hr : newRepoIndex location estimateParameters env dir = .ok r) {lines : List (List UInt8)}
    (hl : env.lsLines = .ok lines) {line T : List UInt8} (hline : line ∈ lines)
    (hT : env.readFile line = some T) (hsize : T.length ≤ maxFileSize) (hbin : env.isBinary T = false)
    {query : List UInt8} (hq : query <:+: T) :
    (∀ w : World, r.Reachable location query w → ¬w.Done →
      ∃ g w', w.step location (collectGrams query) r.blobs.length g = some w') ∧
    (∀ (w : World) g (w' : World), w.step location (collectGrams query) r.blobs.length g = some w' →
      w'.work < w.work) ∧
    (∀ w : World, r.Reachable location query w → w.Done → line ∈ w.res) := by
  refine ⟨fun w h hd => RepoIndex.step_of_not_done h hd, fun w g w' h => World.step_work h,
    fun w h hd => (RepoIndex.res_perm_of_done h hd).mem_iff.mpr ?_⟩
  have hb := blobIndex_of_indexed location estimateParameters hT hsize hbin
  have hr' : r = ⟨dir, List.replicate lines.length ⟨none, []⟩ ++
      lines.filterMap (env.blobIndex location estimateParameters)⟩ := by
    simp only [newRepoIndex, hl] at hr
    exact (Except.ok.inj hr).symm
  subst hr'
  refine List.mem_map.mpr ⟨_, List.mem_filter.mpr
    ⟨List.mem_append_right _ (List.mem_filterMap.mpr ⟨line, hline, hb⟩), ?_⟩, rfl⟩
  simp only [BlobIndex.isMatch, List.all_eq_true]
  exact fun g hg => BloomFilter.test_foldl_add location _ _ (.inl (mem_onGrams_of_mem_collectGrams hq hg))

/-- A repository on branch `m` whose one file `a` holds `ab`. -/
def sampleEnv : IndexEnv where
  revParse := .ok [109, 10]
  lsFiles := fun _ => .ok [97, 0]
  readFile := fun line => if line = [97] then some [97, 98] else none
  isBinary := fun _ => false

theorem pathsMatchingQuery_yields_path_ab :
    newRepoIndex (fun _ _ => 0) (fun _ => (1, 1)) sampleEnv [100] =
        .ok ⟨[100], [⟨none, []⟩, ⟨none, []⟩, ⟨some ⟨1, 1, [0, 0, 0]⟩, [97]⟩]⟩ ∧
      [97] <:+: [97, 98] ∧
      ∀ w : World, RepoIndex.Reachable (fun _ _ => 0) ⟨[100], [⟨none, []⟩, ⟨none, []⟩, ⟨some ⟨1, 1, [0, 0, 0]⟩, [97]⟩]⟩
        [97] w → w.Done → [97] ∈ w.res :=
  ⟨rfl, by decide, (@pathsMatchingQuery_yields_path (fun _ _ => 0) (fun _ => (1, 1)) sampleEnv [100] _ rfl
    [[97], []] rfl [97] [97, 98] (by decide) rfl (by decide) rfl [97] (by decide)).2.2⟩

end Sound

end Sourcegraph.Bitmask
