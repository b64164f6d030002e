import Sourcegraph.Repos.Sync

/-! The unique constraints of the `repo` table on names and on external repo specs,
as an invariant of the reconciler. Every write of a run (per-repo apply, prune,
lazy-path delete) keeps them. From them, the lookup of `sync` finds at most two
rows, and two only in the name conflict that `case 2` resolves, so neither the
`unreachable` panic nor a nil dereference of `conflicting` or `existing` happens. -/

namespace Sourcegraph.Repos

/-- No two rows share a name, and no two share an external repo spec. -/
structure Store.UniqueKeys (st : Store) : Prop where
  names : (st.repos.map (·.name)).Nodup
  specs : (st.repos.map (·.externalRepo)).Nodup

namespace Store

theorem repos_nodup (st : Store) : st.repos.Nodup := st.ids_nodup.of_map _

/-! ## Unique keys -/

section Keys

variable {α : Type} {key : Repo → α} {st : Store}

/-- At most one row holds a given value of a unique key. -/
theorem length_filter_key_le_one [DecidableEq α] {l : List Repo} (hk : (l.map key).Nodup) (v : α) :
    (l.filter fun r => key r == v).length ≤ 1 := by
  have := List.nodup_iff_count_le_one.mp hk v
  rwa [List.count, List.countP_map, List.countP_eq_length_filter] at this

theorem length_filter_or_le (l : List Repo) (p q : Repo → Bool) :
    (l.filter fun r => p r || q r).length ≤ (l.filter p).length + (l.filter q).length := by
  induction l with
  | nil => simp
  | cons r l ih => cases hp : p r <;> cases hq : q r <;> simp [List.filter_cons, hp, hq] <;> omega

/-- Two rows with the same value of a unique key are the same row. -/
theorem eq_of_key_eq (hk : (st.repos.map key).Nodup) {a b : Repo} (ha : a ∈ st.repos)
    (hb : b ∈ st.repos) (h : key a = key b) : a = b :=
  List.inj_on_of_nodup_map hk ha hb h

/-- Writing `r` over the row of its id keeps a key unique when no row of another
id holds the key of `r`. -/
theorem nodup_map_writeRow (svc : ExternalService) (r : Repo) (hk : (st.repos.map key).Nodup)
    (hw : ∀ x, key (writeRow svc r x) = if x.id = r.id then key r else key x)
    (hr : ∀ x ∈ st.repos, key x = key r → x.id = r.id) :
    ((st.repos.map (writeRow svc r)).map key).Nodup := by
  rw [List.map_map]
  refine List.Nodup.map_on (fun x hx y hy hxy => ?_) st.repos_nodup
  simp only [Function.comp_apply, hw] at hxy
  by_cases hxr : x.id = r.id <;> by_cases hyr : y.id = r.id <;> simp only [hxr, hyr, ite_true,
    ite_false] at hxy
  · exact eq_of_id_eq hx hy (hxr.trans hyr.symm)
  · exact absurd (hr y hy hxy.symm) hyr
  · exact absurd (hr x hx hxy) hxr
  · exact eq_of_key_eq hk hx hy hxy

end Keys

namespace UniqueKeys

variable {st : Store} (h : st.UniqueKeys) (svc : ExternalService)
include h

/-- A write that leaves the repo table keeps the unique keys. -/
theorem of_repos_eq {st' : Store} (he : st'.repos = st.repos) : st'.UniqueKeys :=
  ⟨he ▸ h.names, he ▸ h.specs⟩

theorem deleteRepo (id : Nat) : (st.deleteRepo id).UniqueKeys where
  names := ((List.filter_sublist _).map _).nodup h.names
  specs := ((List.filter_sublist _).map _).nodup h.specs

theorem deleteExternalServiceRepos (ids : List Nat) :
    (st.deleteExternalServiceRepos svc ids).UniqueKeys where
  names := by simpa [Function.comp_def] using h.names
  specs := by simpa [Function.comp_def] using h.specs

theorem updateExternalServiceRepo {r : Repo}
    (hr : ∀ x ∈ st.repos, x.name = r.name ∨ x.externalRepo = r.externalRepo → x.id = r.id) :
    (st.updateExternalServiceRepo svc r).UniqueKeys where
  names := nodup_map_writeRow svc r h.names (by simp) fun x hx e => hr x hx (.inl e)
  specs := nodup_map_writeRow svc r h.specs (by simp) fun x hx e => hr x hx (.inr e)

theorem createExternalServiceRepo {r : Repo} (hr : st.listByNameOrSpec r.name r.externalRepo = []) :
    (st.createExternalServiceRepo svc r).UniqueKeys := by
  have hn : ∀ x ∈ st.repos, x.name ≠ r.name ∧ x.externalRepo ≠ r.externalRepo := fun x hx => by
    have := List.filter_eq_nil_iff.mp hr x hx
    simp_all
  constructor <;> simp only [createExternalServiceRepo_repos, List.map_append, List.map_singleton,
    List.nodup_append, List.nodup_singleton, List.disjoint_singleton, List.mem_map, not_exists,
    not_and, newRow, true_and]
  · exact ⟨h.names, fun x hx e => (hn x hx).1 e⟩
  · exact ⟨h.specs, fun x hx e => (hn x hx).2 e⟩

/-! ## What the lookup of `sync` finds -/

theorem length_lookup_le_two (sourced : Repo) :
    (st.listByNameOrSpec sourced.name sourced.externalRepo).length ≤ 2 :=
  (length_filter_or_le _ _ _).trans (Nat.add_le_add
    (length_filter_key_le_one h.names _) (length_filter_key_le_one h.specs _))

/-- Two rows found: one has the sourced spec and not the sourced name, the other
the sourced name and not the sourced spec. -/
theorem lookup_pair {sourced a b : Repo}
    (hab : st.listByNameOrSpec sourced.name sourced.externalRepo = [a, b]) :
    (a.externalRepo = sourced.externalRepo ∧ a.name ≠ sourced.name ∧
      b.name = sourced.name ∧ b.externalRepo ≠ sourced.externalRepo) ∨
    (b.externalRepo = sourced.externalRepo ∧ b.name ≠ sourced.name ∧
      a.name = sourced.name ∧ a.externalRepo ≠ sourced.externalRepo) := by
  have hmem : ∀ x ∈ [a, b], x ∈ st.repos ∧
      (x.name = sourced.name ∨ x.externalRepo = sourced.externalRepo) :=
    fun x hx => mem_listByNameOrSpec.mp (hab ▸ hx)
  have hne : a ≠ b := by
    have hnd : (st.listByNameOrSpec sourced.name sourced.externalRepo).Nodup :=
      (List.filter_sublist _).nodup st.repos_nodup
    rw [hab] at hnd
    simpa using hnd
  obtain ⟨ha, hma⟩ := hmem a (by simp)
  obtain ⟨hb, hmb⟩ := hmem b (by simp)
  have hspec : a.externalRepo = sourced.externalRepo → b.externalRepo ≠ sourced.externalRepo :=
    fun e₁ e₂ => hne (eq_of_key_eq h.specs ha hb (e₁.trans e₂.symm))
  have hname : a.name = sourced.name → b.name ≠ sourced.name :=
    fun e₁ e₂ => hne (eq_of_key_eq h.names ha hb (e₁.trans e₂.symm))
  by_cases ea : a.externalRepo = sourced.externalRepo
  · have nb := hmb.resolve_right (hspec ea)
    exact .inl ⟨ea, fun na => hname na nb, nb, hspec ea⟩
  · have na := hma.resolve_right ea
    exact .inr ⟨hmb.resolve_left (hname na), hname na, na, ea⟩

end UniqueKeys

end Store

namespace Syncer

open Store

variable (s : Syncer) (f : Faults) {st : Store} (svc : ExternalService) (sourced : Repo)

theorem pickConflict_of_spec {sp : ExternalRepoSpec} {e c : Repo} (he : e.externalRepo = sp)
    (hc : c.externalRepo ≠ sp) :
    pickConflict sp [e, c] = (some c, some e) ∧ pickConflict sp [c, e] = (some c, some e) := by
  simp [pickConflict, he, hc]

/-- The two rows `case 2` picks are the two rows the lookup found. -/
theorem pickConflict_pair {sp : ExternalRepoSpec} {a b c e : Repo}
    (h : pickConflict sp [a, b] = (some c, some e)) : c = a ∧ e = b ∨ c = b ∧ e = a := by
  simp only [pickConflict, List.foldl] at h
  split_ifs at h <;> simp_all

/-- After `case 2` deletes the row it picked to lose, the lookup finds only the row it
keeps. -/
theorem lookup_deleteRepo_pickConflict {sp spec : ExternalRepoSpec} {name : String} {a b c e : Repo}
    (hl : st.listByNameOrSpec name spec = [a, b]) (hp : pickConflict sp [a, b] = (some c, some e)) :
    (st.deleteRepo c.id).listByNameOrSpec name spec = [e] := by
  have hnd : ((st.listByNameOrSpec name spec).map (·.id)).Nodup :=
    ((List.filter_sublist _).map _).nodup st.ids_nodup
  rw [hl] at hnd
  have hab : a.id ≠ b.id := by simpa using hnd
  simp only [listByNameOrSpec, deleteRepo_repos, List.filter_filter] at hl ⊢
  rw [List.filter_congr fun y _ => Bool.and_comm _ _, ← List.filter_filter, hl]
  rcases pickConflict_pair hp with ⟨rfl, rfl⟩ | ⟨rfl, rfl⟩
  · simp [Ne.symm hab]
  · simp [hab]

/-- The lookup found the conflicting row `c` and the existing row `e` and nothing
else: `case 2` keeps the unique keys. -/
theorem syncConflict_uniqueKeys (h : st.UniqueKeys) {a b c e : Repo}
    (hp : pickConflict sourced.externalRepo [a, b] = (some c, some e))
    (hce : c.id ≠ e.id)
    (hm : ∀ x ∈ st.repos, x.name = sourced.name ∨ x.externalRepo = sourced.externalRepo →
      x = c ∨ x = e) :
    (syncConflict f st svc sourced a b).2.UniqueKeys := by
  have hd := h.deleteRepo c.id
  simp only [syncConflict, hp]
  split
  · exact h
  · rcases syncUpdate_store f (st.deleteRepo c.id) svc sourced e with he | he <;> rw [he]
    · exact hd
    · refine hd.updateExternalServiceRepo svc fun x hx hxm => ?_
      simp only [deleteRepo_repos, List.mem_filter, bne_iff_ne, ne_eq] at hx
      rcases hm x hx.1 (by simpa using hxm) with rfl | rfl
      · exact absurd rfl hx.2
      · simp

theorem syncTx_uniqueKeys (h : st.UniqueKeys) : (s.syncTx f st svc sourced).2.UniqueKeys := by
  unfold syncTx
  split
  · exact h
  split
  · rcases s.syncCreate_store f st svc sourced with e | e <;> rw [e]
    · exact h
    · exact h.createExternalServiceRepo svc ‹_›
  · rename_i row hrow
    rcases syncUpdate_store f st svc sourced row with e | e <;> rw [e]
    · exact h
    · refine h.updateExternalServiceRepo svc fun x hx hm => ?_
      have : x ∈ [row] := hrow ▸ mem_listByNameOrSpec.mpr ⟨hx, by simpa using hm⟩
      simp_all
  · rename_i a b hab
    have hm : ∀ x ∈ st.repos, x.name = sourced.name ∨ x.externalRepo = sourced.externalRepo →
        x = a ∨ x = b := fun x hx hxm => by
      simpa [hab] using mem_listByNameOrSpec.mpr ⟨hx, hxm⟩
    have hab' : a.id ≠ b.id := fun e => by
      have ⟨ha, _⟩ := mem_listByNameOrSpec.mp (hab ▸ List.mem_cons_self a [b])
      have ⟨hb, _⟩ := mem_listByNameOrSpec.mp (hab ▸ List.mem_cons_of_mem a (List.mem_singleton_self b))
      rcases h.lookup_pair hab with ⟨ea, -, -, eb⟩ | ⟨eb, -, -, ea⟩
      · exact eb (eq_of_id_eq ha hb e ▸ ea)
      · exact ea (eq_of_id_eq ha hb e ▸ eb)
    rcases h.lookup_pair hab with ⟨ea, -, -, eb⟩ | ⟨eb, -, -, ea⟩
    · exact syncConflict_uniqueKeys f svc sourced h (pickConflict_of_spec ea eb).1 hab'.symm
        fun x hx hxm => (hm x hx hxm).symm
    · exact syncConflict_uniqueKeys f svc sourced h (pickConflict_of_spec eb ea).2 hab' hm
  · exact h

/-- `sync` keeps the unique keys: a rolled back call leaves the store, a committed
one leaves the body's store. -/
theorem sync_uniqueKeys (h : st.UniqueKeys) : (s.sync f st svc sourced).2.1.UniqueKeys := by
  rcases s.sync_store f st svc sourced with e | e <;> rw [e]
  · exact h
  · exact s.syncTx_uniqueKeys f svc sourced h

/-! ## `sync` does not panic -/

theorem syncUpdate_ne_panic (tx : Store) (row : Repo) (msg : String) :
    (syncUpdate f tx svc sourced row).1 ≠ .panic msg := by
  cases h : (row.update sourced).2 <;> cases hu : f.update <;> simp [syncUpdate, h, hu]

theorem syncCreate_ne_panic (tx : Store) (msg : String) :
    (s.syncCreate f tx svc sourced).1 ≠ .panic msg := by
  unfold syncCreate
  split <;> (try split_ifs) <;> simp

theorem syncTx_ne_panic (h : st.UniqueKeys) (msg : String) :
    (s.syncTx f st svc sourced).1 ≠ .panic msg := by
  have hlen := h.length_lookup_le_two sourced
  unfold syncTx
  split
  · simp
  match hl : st.listByNameOrSpec sourced.name sourced.externalRepo, hlen with
  | [], _ => exact s.syncCreate_ne_panic f svc sourced st msg
  | [row], _ => exact syncUpdate_ne_panic f svc sourced st row msg
  | [a, b], _ =>
    have hp : ∃ c e, pickConflict sourced.externalRepo [a, b] = (some c, some e) := by
      rcases h.lookup_pair hl with ⟨ea, -, -, eb⟩ | ⟨eb, -, -, ea⟩
      · exact ⟨b, a, (pickConflict_of_spec ea eb).1⟩
      · exact ⟨a, b, (pickConflict_of_spec eb ea).2⟩
    obtain ⟨c, e, hp⟩ := hp
    simp only [syncConflict, hp]
    split
    · simp
    · exact syncUpdate_ne_panic f svc sourced _ e msg
  | _ :: _ :: _ :: _, hlen => simp at hlen

theorem sync_ne_panic (h : st.UniqueKeys) (msg : String) :
    (s.sync f st svc sourced).1 ≠ .panic msg := by
  have := s.syncTx_ne_panic f svc sourced h msg
  unfold sync
  split
  · simp
  · split <;> rename_i heq <;> (try split) <;> simp_all

end Syncer

/-! ## Runs -/

/-- What the lookup of `sync` can find for a sourced repo: at most two rows, and two
only as the name conflict of `case 2`, where one row has the sourced spec and the
other only the sourced name. -/
def LookupFits (st : Store) (sourced : Repo) : Prop :=
  (st.listByNameOrSpec sourced.name sourced.externalRepo).length ≤ 2 ∧
  ∀ a b, st.listByNameOrSpec sourced.name sourced.externalRepo = [a, b] →
    (a.externalRepo = sourced.externalRepo ∧ a.name ≠ sourced.name ∧
      b.name = sourced.name ∧ b.externalRepo ≠ sourced.externalRepo) ∨
    (b.externalRepo = sourced.externalRepo ∧ b.name ≠ sourced.name ∧
      a.name = sourced.name ∧ a.externalRepo ≠ sourced.externalRepo)

/-- One write of the reconciler to the repo table: a per-repo apply (`Syncer.sync`),
an end-of-pass prune (`DeleteExternalServiceReposNotIn`), or the delete of the lazy
path (`DeleteExternalServiceRepo`). -/
inductive Write where
  | apply (s : Syncer) (f : Faults) (svc : ExternalService) (sourced : Repo)
  | prune (svc : ExternalService) (seen : List Nat) (fails : Nat → Bool)
  | lazyDelete (svc : ExternalService) (id : Nat)

/-- The store after one write. -/
def Write.run : Write → Store → Store
  | .apply s f svc sourced, st => (s.sync f st svc sourced).2.1
  | .prune svc seen fails, st => (st.deleteExternalServiceReposNotIn svc seen fails).2.2
  | .lazyDelete svc id, st => st.deleteExternalServiceRepo svc id

/-- The store after a run of writes, in order. -/
def runWrites (ws : List Write) (st : Store) : Store := ws.foldl (fun st w => w.run st) st

theorem Write.run_uniqueKeys (w : Write) {st : Store} (h : st.UniqueKeys) : (w.run st).UniqueKeys := by
  cases w with
  | apply s f svc sourced => exact s.sync_uniqueKeys f svc sourced h
  | prune svc seen fails => exact h.deleteExternalServiceRepos svc _
  | lazyDelete svc id => exact h.deleteExternalServiceRepos svc _

theorem runWrites_uniqueKeys (ws : List Write) {st : Store} (h : st.UniqueKeys) :
    (runWrites ws st).UniqueKeys := by
  induction ws generalizing st with
  | nil => exact h
  | cons w ws ih => exact ih (w.run_uniqueKeys h)

theorem lookupFits_of_uniqueKeys {st : Store} (h : st.UniqueKeys) (sourced : Repo) :
    LookupFits st sourced :=
  ⟨h.length_lookup_le_two sourced, fun _ _ hab => h.lookup_pair hab⟩

/-- **Unique keys over every run.** From a store whose names and external repo specs
are unique, every run of applies, prunes and lazy deletes reaches a store whose names
and specs are unique, where every lookup of `sync` fits its `switch` and no call of
`sync` panics. -/
theorem run_keeps_unique_keys (ws : List Write) (st : Store) (h : st.UniqueKeys) :
    (runWrites ws st).UniqueKeys ∧
      ∀ sourced : Repo, LookupFits (runWrites ws st) sourced ∧
        ∀ (s : Syncer) (f : Faults) (svc : ExternalService) (msg : String),
          (s.sync f (runWrites ws st) svc sourced).1 ≠ .panic msg :=
  have hr := runWrites_uniqueKeys ws h
  ⟨hr, fun sourced => ⟨lookupFits_of_uniqueKeys hr sourced,
    fun s f svc msg => s.sync_ne_panic f svc sourced hr msg⟩⟩

/-! ## The rename scenario of the spec -/

/-- A site-owned GitHub service. -/
def githubService : ExternalService :=
  ⟨1, "GITHUB", "GitHub", "{}", 0, 0, false, 0, 0, 0⟩

/-- A live GitHub row owned by `githubService`. -/
def githubRow (id : Nat) (name extId : String) : Repo :=
  ⟨id, name, ⟨extId, "github", "https://github.com/"⟩, "", false, false, false,
    [githubService.source]⟩

/-- Rows `C` and `D`; the source now reports `C`'s repository under `D`'s name. -/
def renameStore : Store :=
  ⟨[githubRow 1 "github.com/o/c" "MDc", githubRow 2 "github.com/o/d" "MDd"], 3, [githubService],
    by decide, by decide⟩

/-- `C`'s repository under `D`'s name. -/
def renamedRepo : Repo := githubRow 0 "github.com/o/d" "MDc"

/-- A syncer with `Synced` set and limits of ten repos. -/
def testSyncer : Syncer := ⟨true, 0, 0, 10, 10⟩

theorem renameStore_uniqueKeys : renameStore.UniqueKeys := ⟨by decide, by decide⟩

/-- The unique keys on the rename store, after it applies the renamed repo. -/
theorem run_keeps_unique_keys_rename :
    renameStore.UniqueKeys ∧
    (runWrites [.apply testSyncer {} githubService renamedRepo] renameStore).UniqueKeys ∧
      ∀ sourced : Repo,
        LookupFits (runWrites [.apply testSyncer {} githubService renamedRepo] renameStore) sourced ∧
        ∀ (s : Syncer) (f : Faults) (svc : ExternalService) (msg : String),
          (s.sync f (runWrites [.apply testSyncer {} githubService renamedRepo] renameStore) svc
            sourced).1 ≠ .panic msg :=
  ⟨renameStore_uniqueKeys,
    run_keeps_unique_keys [.apply testSyncer {} githubService renamedRepo] renameStore
      renameStore_uniqueKeys⟩

end Sourcegraph.Repos
