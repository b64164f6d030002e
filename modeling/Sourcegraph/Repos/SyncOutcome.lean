import Sourcegraph.Repos.SyncSpec

/-! What a call of `Syncer.sync` that returns a diff has committed. On every store the
unique constraints allow, the sourced repo's row is the one row of its name and holds
its spec; every other row stays as it was, except the row `case 2` deletes, which held
the sourced name only; and the diff holds that row in exactly one of `Added`, `Modified`
and `Unmodified`. Each write of the `switch` gets one lemma saying which rows it keeps,
and the conflict case is the update case on the store with the loser deleted. -/

namespace Sourcegraph.Repos

namespace Store

theorem mem_updateExternalServiceRepo_of_id_ne {st : Store} {svc : ExternalService} {u y : Repo}
    (hy : y.id ≠ u.id) : y ∈ (st.updateExternalServiceRepo svc u).repos ↔ y ∈ st.repos := by
  simp only [updateExternalServiceRepo_repos, List.mem_map]
  constructor
  · rintro ⟨x, hx, rfl⟩
    by_cases h : x.id = u.id
    · simp [writeRow, h] at hy
    · simpa [writeRow, h] using hx
  · exact fun hy' => ⟨y, hy', by simp [writeRow, hy]⟩

theorem mem_of_lookup_eq_singleton {st : Store} {name : String} {spec : ExternalRepoSpec} {x : Repo}
    (hl : st.listByNameOrSpec name spec = [x]) : x ∈ st.repos :=
  (mem_listByNameOrSpec.mp (hl ▸ List.mem_singleton_self x)).1

end Store

namespace Syncer

open Store

/-- What a successful `sync` of `sourced` commits and returns, about the row `row` of the
sourced repo: the store part of the postcondition, then the diff part. -/
structure Committed (svc : ExternalService) (sourced : Repo) (st st' : Store) (d : Diff) (row : Repo) :
    Prop where
  only : st'.repos.filter (·.name == sourced.name) = [row]
  spec : row.externalRepo = sourced.externalRepo
  kept : ∀ y ∈ st.repos, y.id ≠ row.id → (y ∈ st'.repos ↔ y.name ≠ sourced.name)
  fresh : ∀ y ∈ st'.repos, y.id ≠ row.id → y ∈ st.repos
  deleted : d.deleted = []
  one_of : (d.added = [row] ∧ d.modified = [] ∧ d.unmodified = []) ∨
    (∃ r, d.modified = [r] ∧ row = { r with sources := r.sources.insert svc.source } ∧
      d.added = [] ∧ d.unmodified = []) ∨
    (d.unmodified = [row] ∧ d.added = [] ∧ d.modified = [])
  added_iff : d.added ≠ [] ↔ st.listByNameOrSpec sourced.name sourced.externalRepo = []
  unmodified_iff : d.unmodified ≠ [] ↔
    ∃ x, st.listByNameOrSpec sourced.name sourced.externalRepo = [x] ∧ (x.update sourced).2 = false
  unmodified_store : d.unmodified ≠ [] → st' = st

variable (svc : ExternalService) (sourced : Repo)

/-- The row of the sourced repo in `tx'`; every other row of `tx` kept unless it holds the
sourced name, and no other row added. -/
structure RowFrame (tx tx' : Store) (row : Repo) : Prop where
  mem : row ∈ tx'.repos
  name : row.name = sourced.name
  spec : row.externalRepo = sourced.externalRepo
  kept : ∀ y ∈ tx.repos, y.id ≠ row.id → y.name ≠ sourced.name → y ∈ tx'.repos
  fresh : ∀ y ∈ tx'.repos, y.id ≠ row.id → y ∈ tx.repos

theorem rowFrame_create (tx : Store) :
    RowFrame sourced tx (tx.createExternalServiceRepo svc sourced) (tx.newRow svc sourced) where
  mem := by simp
  name := rfl
  spec := rfl
  kept _ hy _ _ := by simp [hy]
  fresh y hy hid := by
    rcases List.mem_append.mp hy with hy | hy
    · exact hy
    · exact absurd (by simpa using congrArg Repo.id (List.mem_singleton.mp hy)) hid

theorem rowFrame_unmodified {tx : Store} {x : Repo} (hx : x ∈ tx.repos) (hu : (x.update sourced).2 = false) :
    RowFrame sourced tx tx x where
  mem := hx
  name := by simpa using (congrArg Repo.name (Repo.update_fst_of_snd hu)).symm
  spec := by simpa using (congrArg Repo.externalRepo (Repo.update_fst_of_snd hu)).symm
  kept _ hy _ _ := hy
  fresh _ hy _ := hy

theorem rowFrame_update {tx : Store} {x : Repo} (hx : x ∈ tx.repos) :
    RowFrame sourced tx (tx.updateExternalServiceRepo svc (x.update sourced).1)
      { (x.update sourced).1 with sources := (x.update sourced).1.sources.insert svc.source } where
  mem := List.mem_map.mpr ⟨x, hx, by simp [writeRow]⟩
  name := rfl
  spec := rfl
  kept _ hy hid _ := (mem_updateExternalServiceRepo_of_id_ne (show _ ≠ (x.update sourced).1.id from hid)).mpr hy
  fresh _ hy hid := (mem_updateExternalServiceRepo_of_id_ne (show _ ≠ (x.update sourced).1.id from hid)).mp hy

variable {svc sourced}

/-- Deleting a row that holds the sourced name before the write keeps the frame. -/
theorem RowFrame.deleteRepo {tx tx' : Store} {row c : Repo} (hf : RowFrame sourced (tx.deleteRepo c.id) tx' row)
    (hc : c ∈ tx.repos) (hcn : c.name = sourced.name) : RowFrame sourced tx tx' row where
  mem := hf.mem
  name := hf.name
  spec := hf.spec
  kept y hy hid hn := hf.kept y (by
    simp only [deleteRepo_repos, List.mem_filter, bne_iff_ne, ne_eq, decide_eq_true_eq]
    exact ⟨hy, fun e => hn (eq_of_id_eq hy hc e ▸ hcn)⟩) hid hn
  fresh y hy hid := (List.mem_filter.mp (hf.fresh y hy hid)).1

/-- On a store with unique names, the row of the frame is the only row of its name. -/
theorem RowFrame.only {tx tx' : Store} {row : Repo} (h' : tx'.UniqueKeys) (hf : RowFrame sourced tx tx' row) :
    tx'.repos.filter (·.name == sourced.name) = [row] := by
  have hm : row ∈ tx'.repos.filter (·.name == sourced.name) :=
    List.mem_filter.mpr ⟨hf.mem, by simp [hf.name]⟩
  have hl := length_filter_key_le_one h'.names sourced.name
  generalize tx'.repos.filter (·.name == sourced.name) = l at hm hl ⊢
  rcases l with _ | ⟨a, _ | ⟨b, l⟩⟩
  · simp at hm
  · rw [List.mem_singleton.mp hm]
  · simp at hl

/-- On a store with unique names, a kept row is one without the sourced name. -/
theorem RowFrame.kept_iff {tx tx' : Store} {row : Repo} (h' : tx'.UniqueKeys) (hf : RowFrame sourced tx tx' row) :
    ∀ y ∈ tx.repos, y.id ≠ row.id → (y ∈ tx'.repos ↔ y.name ≠ sourced.name) := fun y hy hid =>
  ⟨fun hy' hn => hid (congrArg Repo.id (eq_of_key_eq h'.names hy' hf.mem (hn.trans hf.name.symm))),
    hf.kept y hy hid⟩

/-- The store part of `Committed` from a frame, and the diff part as given. -/
theorem RowFrame.committed {st st' : Store} {d : Diff} {row : Repo} (h' : st'.UniqueKeys)
    (hf : RowFrame sourced st st' row) (hd : d.deleted = [])
    (h₁ : (d.added = [row] ∧ d.modified = [] ∧ d.unmodified = []) ∨
      (∃ r, d.modified = [r] ∧ row = { r with sources := r.sources.insert svc.source } ∧
        d.added = [] ∧ d.unmodified = []) ∨
      (d.unmodified = [row] ∧ d.added = [] ∧ d.modified = []))
    (h₂ : d.added ≠ [] ↔ st.listByNameOrSpec sourced.name sourced.externalRepo = [])
    (h₃ : d.unmodified ≠ [] ↔
      ∃ x, st.listByNameOrSpec sourced.name sourced.externalRepo = [x] ∧ (x.update sourced).2 = false)
    (h₄ : d.unmodified ≠ [] → st' = st) : Committed svc sourced st st' d row :=
  ⟨hf.only h', hf.spec, hf.kept_iff h', hf.fresh, hd, h₁, h₂, h₃, h₄⟩

variable (f : Faults) {st : Store} (svc sourced)

/-- `case 1` on the row `x`: unmodified with nothing written, or modified and written. -/
theorem syncUpdate_frame {tx tx' : Store} {x : Repo} {d : Diff} (hx : x ∈ tx.repos)
    (hs : syncUpdate f tx svc sourced x = (.ok d, tx')) :
    ((x.update sourced).2 = false ∧ d = { unmodified := [x] } ∧ tx' = tx ∧ RowFrame sourced tx tx' x) ∨
    ((x.update sourced).2 = true ∧ ∃ u, d = { modified := [u] } ∧
      RowFrame sourced tx tx' { u with sources := u.sources.insert svc.source }) := by
  rcases syncUpdate_ok f tx svc sourced hs with ⟨hu, rfl, rfl⟩ | ⟨hu, rfl, rfl⟩
  · exact .inl ⟨hu, rfl, rfl, rowFrame_unmodified sourced hx hu⟩
  · exact .inr ⟨hu, _, rfl, rowFrame_update svc sourced hx⟩

/-- The rows `case 2` picks: the loser holds the sourced name, the winner does not. -/
theorem pickConflict_roles (h : st.UniqueKeys) {a b c e : Repo}
    (hl : st.listByNameOrSpec sourced.name sourced.externalRepo = [a, b])
    (hp : pickConflict sourced.externalRepo [a, b] = (some c, some e)) :
    c ∈ st.repos ∧ c.name = sourced.name ∧ e.name ≠ sourced.name := by
  have hmem : ∀ x ∈ [a, b], x ∈ st.repos := fun x hx => (mem_listByNameOrSpec.mp (hl ▸ hx)).1
  rcases h.lookup_pair hl with ⟨ea, na, nb, eb⟩ | ⟨eb, nb, na, ea⟩
  · have := hp.symm.trans (pickConflict_of_spec ea eb).1
    simp only [Prod.mk.injEq, Option.some.injEq] at this
    obtain ⟨rfl, rfl⟩ := this
    exact ⟨hmem _ (by simp), nb, na⟩
  · have := hp.symm.trans (pickConflict_of_spec eb ea).2
    simp only [Prod.mk.injEq, Option.some.injEq] at this
    obtain ⟨rfl, rfl⟩ := this
    exact ⟨hmem _ (by simp), na, nb⟩

/-- What a body of `sync` that returns a diff commits and returns. -/
theorem syncTx_committed (s : Syncer) (h : st.UniqueKeys) {d : Diff} {st' : Store}
    (hs : s.syncTx f st svc sourced = (.ok d, st')) : ∃ row, Committed svc sourced st st' d row := by
  have h' : st'.UniqueKeys := by
    have := s.syncTx_uniqueKeys f svc sourced h
    rwa [hs] at this
  rcases s.syncTx_ok f st svc sourced hs with ⟨hl, -, rfl, rfl⟩ | ⟨x, hl, hx⟩ | ⟨a, b, c, e, hl, hp, hx⟩
  · exact ⟨_, (rowFrame_create svc sourced st).committed h' rfl (.inl ⟨rfl, rfl, rfl⟩) (by simp [hl])
      (by simp [hl]) (by simp)⟩
  · rcases syncUpdate_frame svc sourced f (mem_of_lookup_eq_singleton hl) hx with
      ⟨hu, rfl, rfl, hf⟩ | ⟨hu, u, rfl, hf⟩
    · exact ⟨_, hf.committed h' rfl (.inr (.inr ⟨rfl, rfl, rfl⟩)) (by simp [hl])
        (by simpa [hl] using hu) (fun _ => rfl)⟩
    · exact ⟨_, hf.committed h' rfl (.inr (.inl ⟨u, rfl, rfl, rfl, rfl⟩)) (by simp [hl])
        (by simp [hl, hu]) (by simp)⟩
  · obtain ⟨hc, hcn, hen⟩ := pickConflict_roles sourced h hl hp
    have hl₁ := lookup_deleteRepo_pickConflict hl hp
    rcases syncUpdate_frame svc sourced f (mem_of_lookup_eq_singleton hl₁) hx with
      ⟨hu, -, -, -⟩ | ⟨-, u, rfl, hf⟩
    · exact absurd (by simpa using (congrArg Repo.name (Repo.update_fst_of_snd hu)).symm) hen
    · exact ⟨_, (hf.deleteRepo hc hcn).committed h' rfl (.inr (.inl ⟨u, rfl, rfl, rfl, rfl⟩))
        (by simp [hl]) (by simp [hl]) (by simp)⟩

/-- **What a successful `sync` commits.** On every store with distinct names and distinct
external repo specs, a call of `sync` that returns a nil error commits a store in which
exactly one row has the sourced name and that row has the sourced spec; every other row
is kept as it was, except the row holding the sourced name that `case 2` deletes, and no
other row is added. The diff holds that row, with its store id, in exactly one of `Added`,
`Modified` and `Unmodified`, as the diff's row in the first and last case and as the row
before the write records the service's ownership in the second, and nothing in
`Deleted`. It is `Added` exactly when the lookup found no row, and `Unmodified` exactly
when it found one row that `Repo.Update` left as it was, and then nothing was written. -/
theorem sync_ok_committed (s : Syncer) (h : st.UniqueKeys) {d : Diff} {st' : Store} {effs : List Effect}
    (hs : s.sync f st svc sourced = (.ok d, st', effs)) :
    effs = .commit :: s.publish d ∧ ∃ row, Committed svc sourced st st' d row := by
  obtain ⟨htx, heffs⟩ := s.sync_ok f st svc sourced hs
  exact ⟨heffs, syncTx_committed svc sourced f s h htx⟩

end Syncer

/-- The rename scenario: the lookup finds `C` by spec and `D` by name, `D` is deleted and
`C` takes its name. -/
theorem sync_ok_committed_rename :
    renameStore.UniqueKeys ∧
      testSyncer.sync {} renameStore githubService renamedRepo =
        (.ok { modified := [((githubRow 1 "github.com/o/c" "MDc").update renamedRepo).1] },
          (testSyncer.sync {} renameStore githubService renamedRepo).2.1,
          (testSyncer.sync {} renameStore githubService renamedRepo).2.2) ∧
      (testSyncer.sync {} renameStore githubService renamedRepo).2.2 =
          .commit :: testSyncer.publish { modified := [((githubRow 1 "github.com/o/c" "MDc").update renamedRepo).1] } ∧
        ∃ row, Syncer.Committed githubService renamedRepo renameStore
          (testSyncer.sync {} renameStore githubService renamedRepo).2.1
          { modified := [((githubRow 1 "github.com/o/c" "MDc").update renamedRepo).1] } row :=
  ⟨renameStore_uniqueKeys, rfl,
    Syncer.sync_ok_committed githubService renamedRepo {} testSyncer renameStore_uniqueKeys rfl⟩

end Sourcegraph.Repos
