import Sourcegraph.Lang.Entries
import Mathlib.Data.List.Sort
import Mathlib.Data.List.Perm.Basic

/-! The grouping that `LocationsList` of the web client's `CoolCodeIntel` panel computes:
the locations by file path into `LocationGroup`s, each labelled with the repository of
its first location, then the groups by that label into `RepoLocationGroup`s. Both
`Record<string, …>` are plain objects `{}`. A key is an own property of the object or one
it inherits from `Object.prototype`, which the `=== undefined` test takes for a set key;
and `Object.keys` lists the array-index keys in ascending order, then the others in the
order they were created. The `useMemo` is modelled as a computation that returns the
groups or throws a `TypeError`. -/

namespace Sourcegraph.Web

open Entries

/-- The fields of a `Location` the grouping reads, its repository's name and its path;
`url` stands for the fields it carries along unread. -/
structure Location where
  repoName : String
  path : String
  url : String
  deriving DecidableEq, Repr

/-- `LocationGroup`. -/
structure LocationGroup where
  repoName : String
  path : String
  locations : List Location
  deriving DecidableEq, Repr

/-- `RepoLocationGroup`. -/
structure RepoLocationGroup where
  repoName : String
  referenceGroups : List LocationGroup
  deriving DecidableEq, Repr

/-- The properties every plain object inherits from `Object.prototype`. -/
def objectPrototypeKeys : List String :=
  ["constructor", "__defineGetter__", "__defineSetter__", "hasOwnProperty", "__lookupGetter__",
    "__lookupSetter__", "isPrototypeOf", "propertyIsEnumerable", "toString", "valueOf", "__proto__",
    "toLocaleString"]

/-- A plain object used as a `Record<string, T>`: its own properties, in creation order. -/
structure JsObject (α : Type) where
  props : List (String × α)
  deriving DecidableEq, Repr

variable {α : Type}

/-- `o[k] === undefined`: `k` is neither an own property nor an inherited one. -/
def JsObject.isUndefined (o : JsObject α) (k : String) : Bool :=
  (get? o.props k).isNone && decide (k ∉ objectPrototypeKeys)

/-- `o[k] = v`, for a key that is not inherited. -/
def JsObject.assign (o : JsObject α) (k : String) (v : α) : JsObject α := ⟨set o.props k v⟩

/-- `o[k].push(x)`: a `TypeError` unless `o[k]` is an own array. -/
def JsObject.push (o : JsObject (List α)) (k : String) (x : α) : Except String (JsObject (List α)) :=
  match get? o.props k with
  | some xs => .ok (o.assign k (xs ++ [x]))
  | none =>
    if k ∈ objectPrototypeKeys then .error "TypeError: push is not a function"
    else .error "TypeError: Cannot read properties of undefined (reading 'push')"

/-- The value of a string of decimal digits. -/
def digitsValue (cs : List Char) : Nat := cs.foldl (fun n c => 10 * n + (c.toNat - '0'.toNat)) 0

/-- An array index: a canonical decimal numeral below `2 ^ 32 - 1 = 4294967295`. -/
def isArrayIndex (k : String) : Bool :=
  !k.data.isEmpty && k.data.all Char.isDigit && (k.data.head? != some '0' || k.data == ['0']) &&
    decide (digitsValue k.data < 4294967295)

/-- `Object.keys(o)`: the array indices in ascending order, then the other keys in
creation order. -/
def JsObject.keys (o : JsObject α) : List String :=
  ((Entries.keys o.props).filter isArrayIndex).insertionSort (fun a b => digitsValue a.data ≤ digitsValue b.data) ++
    (Entries.keys o.props).filter (!isArrayIndex ·)

/-! ## The grouping -/

/-- One iteration of a grouping loop: `if (o[k] === undefined) o[k] = []`, then
`o[k].push(x)`. -/
def groupStep (key : α → String) (o : JsObject (List α)) (x : α) : Except String (JsObject (List α)) :=
  let o := if o.isUndefined (key x) then o.assign (key x) [] else o
  o.push (key x) x

/-- A grouping loop over `xs`, from `{}`. -/
def groupBy (key : α → String) (xs : List α) : Except String (JsObject (List α)) :=
  xs.foldlM (groupStep key) ⟨[]⟩

/-- The loop over `Object.keys(byFile)`: a `LocationGroup` per path, labelled with the
repository of `references[0]`. -/
def locationsGroups (byFile : JsObject (List Location)) : Except String (List LocationGroup) :=
  byFile.keys.mapM fun path =>
    match get? byFile.props path with
    | some (first :: rest) => .ok ⟨first.repoName, path, first :: rest⟩
    | _ => .error "TypeError: Cannot read properties of undefined (reading 'resource')"

/-- The loop over `Object.keys(byRepo)`: a `RepoLocationGroup` per repository name. -/
def repoLocationGroups (byRepo : JsObject (List LocationGroup)) : List RepoLocationGroup :=
  byRepo.keys.filterMap fun repoName => (get? byRepo.props repoName).map (⟨repoName, ·⟩)

/-- The `useMemo` of `LocationsList`: `byFile`, the location groups, `byRepo`, the repo
groups. -/
def locationsList (locations : List Location) : Except String (List RepoLocationGroup) := do
  let byFile ← groupBy (·.path) locations
  let locationsGroups ← locationsGroups byFile
  let byRepo ← groupBy (·.repoName) locationsGroups
  pure (repoLocationGroups byRepo)

/-! ## `Object.keys` -/

theorem JsObject.keys_perm (o : JsObject α) : o.keys.Perm (Entries.keys o.props) :=
  ((List.perm_insertionSort _ _).append_right _).trans (List.filter_append_perm _ _)

/-! ## Grouping loops -/

section Group

variable (key : α → String)

/-- What a grouping loop has built from `xs`: one own property per key of `xs`, holding
the elements of that key in order. -/
structure Grouped (xs : List α) (o : JsObject (List α)) : Prop where
  nodup : (Entries.keys o.props).Nodup
  get : ∀ k, get? o.props k = if xs.any (key · == k) then some (xs.filter (key · == k)) else none

theorem groupStep_of_not_mem {o : JsObject (List α)} {x : α} (hx : key x ∉ objectPrototypeKeys) :
    groupStep key o x = .ok ⟨set o.props (key x) ((get? o.props (key x)).getD [] ++ [x])⟩ := by
  unfold groupStep
  rcases hg : get? o.props (key x) with _ | xs
  · simp [JsObject.isUndefined, JsObject.assign, JsObject.push, hg, hx, get?_set, set_set]
  · simp [JsObject.isUndefined, JsObject.assign, JsObject.push, hg]

theorem groupStep_of_mem {o : JsObject (List α)} {x : α} (hx : key x ∈ objectPrototypeKeys)
    (hn : get? o.props (key x) = none) : ∃ e, groupStep key o x = .error e := by
  simp [groupStep, JsObject.isUndefined, JsObject.push, hn, hx]

theorem Grouped.groupStep {xs : List α} {o : JsObject (List α)} (h : Grouped key xs o) (x : α) :
    Grouped key (xs ++ [x]) ⟨set o.props (key x) ((get? o.props (key x)).getD [] ++ [x])⟩ where
  nodup := nodup_keys_set h.nodup _ _
  get k := by
    rw [get?_set]
    by_cases hk : k = key x
    · subst hk
      rw [if_pos rfl, h.get]
      by_cases ha : xs.any (key · == key x) <;> simp [ha, List.filter_append]
      simpa using ha
    · rw [if_neg hk, h.get]
      simp [Ne.symm hk, List.filter_append]

/-- A grouping loop over elements whose keys are not inherited builds the groups. -/
theorem groupBy_ok_of (xs : List α) (hxs : ∀ x ∈ xs, key x ∉ objectPrototypeKeys) :
    ∃ o, groupBy key xs = .ok o ∧ Grouped key xs o := by
  suffices h : ∀ (rest pre : List α) (o : JsObject (List α)), Grouped key pre o →
      (∀ x ∈ rest, key x ∉ objectPrototypeKeys) →
      ∃ o', rest.foldlM (groupStep key) o = .ok o' ∧ Grouped key (pre ++ rest) o' from
    h xs [] ⟨[]⟩ ⟨List.nodup_nil, by simp [get?]⟩ hxs
  intro rest
  induction rest with
  | nil => exact fun pre o h _ => ⟨o, rfl, by simpa using h⟩
  | cons x rest ih =>
    intro pre o h hr
    have hx := hr x (List.mem_cons_self _ _)
    obtain ⟨o', ho', h'⟩ := ih _ _ (h.groupStep key x) fun y hy => hr y (List.mem_cons_of_mem _ hy)
    refine ⟨o', ?_, by simpa using h'⟩
    rw [List.foldlM_cons, groupStep_of_not_mem key hx]
    exact ho'

/-- A grouping loop that meets an element whose key is inherited throws. -/
theorem groupBy_error_of (xs : List α) (hxs : ∃ x ∈ xs, key x ∈ objectPrototypeKeys) :
    ∃ e, groupBy key xs = .error e := by
  suffices h : ∀ (rest pre : List α) (o : JsObject (List α)), Grouped key pre o →
      (∀ x ∈ pre, key x ∉ objectPrototypeKeys) → (∃ x ∈ rest, key x ∈ objectPrototypeKeys) →
      ∃ e, rest.foldlM (groupStep key) o = .error e from
    h xs [] ⟨[]⟩ ⟨List.nodup_nil, by simp [get?]⟩ (by simp) hxs
  intro rest
  induction rest with
  | nil => simp
  | cons x rest ih =>
    intro pre o h hp hr
    rw [List.foldlM_cons]
    by_cases hx : key x ∈ objectPrototypeKeys
    · have hn : get? o.props (key x) = none := by
        rw [h.get]
        simp only [List.any_eq_true, beq_iff_eq, ite_eq_right_iff, reduceCtorEq, imp_false, not_exists, not_and]
        exact fun y hy e => hp y hy (e ▸ hx)
      obtain ⟨e, he⟩ := groupStep_of_mem key hx hn
      exact ⟨e, by rw [he]; rfl⟩
    · rw [groupStep_of_not_mem key hx]
      exact ih _ _ (h.groupStep key x) (fun y hy => by
          rcases List.mem_append.mp hy with hy | hy
          · exact hp y hy
          · rw [List.mem_singleton.mp hy]; exact hx)
        (by simpa [hx] using hr)

theorem Grouped.mem_keys {xs : List α} {o : JsObject (List α)} (h : Grouped key xs o) (k : String) :
    k ∈ Entries.keys o.props ↔ ∃ x ∈ xs, key x = k := by
  rw [← not_iff_not, ← get?_eq_none_iff, h.get]
  simp

/-- The groups of distinct keys that hold every key of `xs`, one after the other, are a
permutation of `xs`. -/
theorem perm_flatMap_filter {K : List String} (hK : K.Nodup) :
    ∀ {xs : List α}, (∀ x ∈ xs, key x ∈ K) → (K.flatMap fun k => xs.filter (key · == k)).Perm xs
  | [], _ => by simp
  | x :: rest, h => by
    have ih := perm_flatMap_filter hK fun y hy => h y (List.mem_cons_of_mem _ hy)
    have hsplit : ∀ k, (x :: rest).filter (key · == k) =
        (if key x = k then [x] else []) ++ rest.filter (key · == k) := fun k => by
      by_cases hk : key x = k <;> simp [List.filter_cons, hk]
    have hx : (K.flatMap fun k => if key x = k then [x] else []) = [x] :=
      flatMap_ite_eq_singleton hK (h x (List.mem_cons_self _ _))
    simp only [hsplit]
    refine (List.flatMap_append_perm _ _ _).symm.trans ?_
    rw [hx]
    exact ih.cons x
where
  flatMap_ite_eq_singleton {K : List String} (hK : K.Nodup) {x : α} (hx : key x ∈ K) :
      (K.flatMap fun k => if key x = k then [x] else []) = [x] := by
    induction K with
    | nil => simp at hx
    | cons k K ih =>
      rw [List.nodup_cons] at hK
      by_cases hk : key x = k
      · subst hk
        simp only [List.flatMap_cons, ite_true, List.singleton_append, List.cons.injEq, true_and]
        exact List.flatMap_eq_nil_iff.mpr fun j hj => by simp [show key x ≠ j from fun e => hK.1 (e ▸ hj)]
      · simp [hk, ih hK.2 ((List.mem_cons.mp hx).resolve_left hk)]

end Group

/-! ## The groups `LocationsList` shows -/

theorem mapM_ok {β γ : Type} {f : β → Except String γ} {g : β → γ} :
    ∀ {l : List β}, (∀ x ∈ l, f x = .ok (g x)) → l.mapM f = .ok (l.map g)
  | [], _ => rfl
  | x :: l, h => by
    rw [List.mapM_cons, h x (List.mem_cons_self _ _),
      mapM_ok fun y hy => h y (List.mem_cons_of_mem _ hy)]
    rfl

/-- The label of the group of a path: the repository of its first location. -/
def labelOf (locations : List Location) (path : String) : String :=
  ((locations.filter (·.path == path)).head?.map (·.repoName)).getD ""

theorem locationsGroups_of_grouped {locations : List Location} {byFile : JsObject (List Location)}
    (h : Grouped (·.path) locations byFile) :
    locationsGroups byFile = .ok (byFile.keys.map fun path =>
      ⟨labelOf locations path, path, locations.filter (·.path == path)⟩) := by
  refine mapM_ok fun path hp => ?_
  have hk := (h.mem_keys _ path).mp ((byFile.keys_perm).mem_iff.mp hp)
  have ha : locations.any (·.path == path) := by simpa using hk
  rw [h.get, if_pos ha]
  obtain ⟨l, hl⟩ : ∃ l, l ∈ locations.filter (·.path == path) := by
    obtain ⟨x, hx, e⟩ := hk
    exact ⟨x, List.mem_filter.mpr ⟨hx, by simpa using e⟩⟩
  obtain ⟨first, rest, hfr⟩ := List.exists_cons_of_ne_nil (List.ne_nil_of_mem hl)
  simp [hfr, labelOf]

theorem repoLocationGroups_of_grouped {groups : List LocationGroup} {byRepo : JsObject (List LocationGroup)}
    (h : Grouped (·.repoName) groups byRepo) :
    repoLocationGroups byRepo = byRepo.keys.map fun repoName =>
      ⟨repoName, groups.filter (·.repoName == repoName)⟩ := by
  unfold repoLocationGroups
  rw [List.filterMap_eq_map_iff_forall_eq_some]
  intro repoName hr
  have hk := (h.mem_keys _ repoName).mp ((byRepo.keys_perm).mem_iff.mp hr)
  rw [h.get, if_pos (by simpa using hk)]
  rfl

/-- The label of a path is the repository of one of its locations. -/
theorem labelOf_mem {locations : List Location} {l : Location} (hl : l ∈ locations) :
    ∃ x ∈ locations, x.path = l.path ∧ labelOf locations l.path = x.repoName := by
  obtain ⟨first, rest, hfr⟩ : ∃ first rest, locations.filter (·.path == l.path) = first :: rest :=
    List.exists_cons_of_ne_nil (List.ne_nil_of_mem (List.mem_filter.mpr ⟨hl, by simp⟩))
  have hfirst := List.mem_filter.mp (hfr ▸ List.mem_cons_self first rest)
  exact ⟨first, hfirst.1, by simpa using hfirst.2, by simp [labelOf, hfr]⟩

/-- **What `LocationsList` shows.** On every list of locations whose paths and repository
names are not inherited keys, the grouping returns, and: the locations of each group are
those of its path, in input order, and all the groups together hold every location once;
no two groups share a path; every group in a repo group carries its repository name;
no two repo groups share a repository name; and each group carries the repository of
the first location of its path. -/
theorem locationsList_groups (locations : List Location)
    (hkeys : ∀ l ∈ locations, l.path ∉ objectPrototypeKeys ∧ l.repoName ∉ objectPrototypeKeys) :
    ∃ res, locationsList locations = .ok res ∧
      (∀ r ∈ res, ∀ g ∈ r.referenceGroups,
        g.locations = locations.filter (·.path == g.path) ∧ g.repoName = labelOf locations g.path ∧
          g.repoName = r.repoName) ∧
      ((res.flatMap (·.referenceGroups)).flatMap (·.locations)).Perm locations ∧
      ((res.flatMap (·.referenceGroups)).map (·.path)).Nodup ∧
      (res.map (·.repoName)).Nodup := by
  obtain ⟨byFile, hf, hgf⟩ := groupBy_ok_of (·.path) locations fun l hl => (hkeys l hl).1
  set groups := byFile.keys.map fun path =>
    (⟨labelOf locations path, path, locations.filter (·.path == path)⟩ : LocationGroup) with hgroups
  have hlabel : ∀ g ∈ groups, g.repoName ∉ objectPrototypeKeys := by
    intro g hg
    obtain ⟨path, hp, rfl⟩ := List.mem_map.mp hg
    obtain ⟨x, hx, rfl⟩ := (hgf.mem_keys _ path).mp ((byFile.keys_perm).mem_iff.mp hp)
    obtain ⟨y, hy, -, hxy⟩ := labelOf_mem hx
    exact hxy ▸ (hkeys y hy).2
  obtain ⟨byRepo, hr, hgr⟩ := groupBy_ok_of (·.repoName) groups hlabel
  have hnodupF : byFile.keys.Nodup := byFile.keys_perm.nodup_iff.mpr hgf.nodup
  have hnodupR : byRepo.keys.Nodup := byRepo.keys_perm.nodup_iff.mpr hgr.nodup
  have hres := repoLocationGroups_of_grouped hgr
  have hall : ((repoLocationGroups byRepo).flatMap (·.referenceGroups)).Perm groups := by
    rw [hres, List.flatMap_map]
    exact perm_flatMap_filter (·.repoName) hnodupR fun g hg =>
      byRepo.keys_perm.mem_iff.mpr ((hgr.mem_keys _ _).mpr ⟨g, hg, rfl⟩)
  have hpaths : groups.map (·.path) = byFile.keys := by simp [hgroups, List.map_map, Function.comp_def]
  have hrun : locationsList locations = .ok (repoLocationGroups byRepo) := by
    have hlg : locationsGroups byFile = .ok groups := locationsGroups_of_grouped hgf
    simp only [locationsList, hf, bind, Except.bind, hlg, hr]
    rfl
  refine ⟨repoLocationGroups byRepo, hrun, ?_, ?_, ?_, ?_⟩
  · intro r hr' g hg
    rw [hres] at hr'
    obtain ⟨repoName, -, rfl⟩ := List.mem_map.mp hr'
    obtain ⟨hg, hgn⟩ := List.mem_filter.mp hg
    obtain ⟨path, -, rfl⟩ := List.mem_map.mp hg
    exact ⟨rfl, rfl, by simpa using hgn⟩
  · refine (hall.flatMap_right _).trans ?_
    rw [hgroups, List.flatMap_map]
    exact perm_flatMap_filter (·.path) hnodupF fun l hl =>
      byFile.keys_perm.mem_iff.mpr ((hgf.mem_keys _ _).mpr ⟨l, hl, rfl⟩)
  · exact (hall.map _).nodup_iff.mpr (hpaths ▸ hnodupF)
  · rw [hres, List.map_map]
    simpa [Function.comp_def] using hnodupR

/-- When no two repositories share a path, every location of a group has the group's
repository name. -/
theorem locationsList_labels_of_paths (locations : List Location)
    (hkeys : ∀ l ∈ locations, l.path ∉ objectPrototypeKeys ∧ l.repoName ∉ objectPrototypeKeys)
    (hpaths : ∀ l ∈ locations, ∀ l' ∈ locations, l.path = l'.path → l.repoName = l'.repoName)
    {res : List RepoLocationGroup} (hres : locationsList locations = .ok res) :
    ∀ r ∈ res, ∀ g ∈ r.referenceGroups, ∀ l ∈ g.locations, l.path = g.path ∧ l.repoName = g.repoName := by
  obtain ⟨res', hres', hgroups, -⟩ := locationsList_groups locations hkeys
  obtain rfl : res = res' := Except.ok.inj (hres.symm.trans hres')
  intro r hr g hg l hl
  obtain ⟨hloc, hlabel, -⟩ := hgroups r hr g hg
  rw [hloc] at hl
  obtain ⟨hl, hp⟩ := List.mem_filter.mp hl
  have hp : l.path = g.path := by simpa using hp
  obtain ⟨x, hx, hxp, hxl⟩ := labelOf_mem hl
  exact ⟨hp, by rw [hlabel, ← hp, hxl]; exact hpaths l hl x hx hxp.symm⟩

/-- **Groups are keyed by path alone.** On every list of locations in which two
repositories have a file at the same path, the grouping returns a group holding a location
of another repository than the one the group names. -/
theorem locationsList_mislabels (locations : List Location)
    (hkeys : ∀ l ∈ locations, l.path ∉ objectPrototypeKeys ∧ l.repoName ∉ objectPrototypeKeys)
    {l l' : Location} (hl : l ∈ locations) (hl' : l' ∈ locations) (hp : l.path = l'.path)
    (hn : l.repoName ≠ l'.repoName) :
    ∃ res, locationsList locations = .ok res ∧
      ∃ r ∈ res, ∃ g ∈ r.referenceGroups, ∃ x ∈ g.locations, x.repoName ≠ g.repoName := by
  obtain ⟨res, hres, hgroups, hperm, -⟩ := locationsList_groups locations hkeys
  refine ⟨res, hres, ?_⟩
  obtain ⟨g, hg, hlg⟩ := List.mem_flatMap.mp (hperm.mem_iff.mpr hl)
  obtain ⟨r, hr, hgr⟩ := List.mem_flatMap.mp hg
  obtain ⟨hloc, -, -⟩ := hgroups r hr g hgr
  have hpath : g.path = l.path := by
    rw [hloc] at hlg
    exact (by simpa using (List.mem_filter.mp hlg).2 : l.path = g.path).symm
  have hlg' : l' ∈ g.locations := by
    rw [hloc]
    exact List.mem_filter.mpr ⟨hl', by simp [hpath, hp]⟩
  by_cases he : l.repoName = g.repoName
  · exact ⟨r, hr, g, hgr, l', hlg', fun e => hn (he.trans e.symm)⟩
  · exact ⟨r, hr, g, hgr, l, hlg, he⟩

/-- Two repositories with a `README.md`: the one group is labelled `a` and holds the
location in `b`. -/
theorem locationsList_mislabels_readme :
    locationsList [⟨"a", "README.md", "1"⟩, ⟨"b", "README.md", "2"⟩] =
        .ok [⟨"a", [⟨"a", "README.md", [⟨"a", "README.md", "1"⟩, ⟨"b", "README.md", "2"⟩]⟩]⟩] ∧
      ∃ res, locationsList [⟨"a", "README.md", "1"⟩, ⟨"b", "README.md", "2"⟩] = .ok res ∧
        ∃ r ∈ res, ∃ g ∈ r.referenceGroups, ∃ x ∈ g.locations, x.repoName ≠ g.repoName :=
  ⟨rfl, locationsList_mislabels _ (by decide) (List.mem_cons_self _ _)
    (List.mem_cons_of_mem _ (List.mem_singleton_self _)) rfl (by decide)⟩

/-- A file named `constructor` makes the grouping throw: `byFile["constructor"]` is the
inherited `Object` function, which has no `push`. -/
theorem locationsList_error_of_path (locations : List Location)
    (h : ∃ l ∈ locations, l.path ∈ objectPrototypeKeys) : ∃ e, locationsList locations = .error e := by
  obtain ⟨e, he⟩ := groupBy_error_of (·.path) locations h
  exact ⟨e, by simp only [locationsList, he, bind, Except.bind]⟩

end Sourcegraph.Web
