import Sourcegraph.Repos.SyncSpec

/-! The repo limits of user and org services. Before `sync` creates a row for a service that
is not site owned, it counts the repos of every user and org service and those of the
service's namespace, and fails with a `RepoLimitError` when either count has reached its
limit. The update path (a stored row with the sourced name or spec) checks nothing: it
attaches the row to the service, and undeletes it, whatever the counts.

Proved here:

* `run_within_limits`: sequential runs of applies, prunes and lazy deletes keep both
  limits when no apply attaches a stored row to a namespace it did not count in or
  undeletes it;
* `sync_attaches_past_limit`: an apply that does attach a stored row takes a namespace at
  its limit past it, with no `RepoLimitError`;
* `concurrent_creates_pass_limit`: two transactions that both count before either commits
  both pass the check, and take a namespace one below its limit one past it. -/

namespace Sourcegraph.Repos

namespace Store

variable (st : Store) (svc : ExternalService)

/-! ## How each write moves the counts -/

/-- A service's ownership row counts for the site when the service is not site owned,
and for the service's own namespace. -/
theorem inNamespace_source {u o : Nat} :
    inNamespace u o svc.source = true ↔ if u = 0 ∧ o = 0 then svc.isSiteOwned = false
      else svc.namespaceUserId = u ∧ svc.namespaceOrgId = o := by
  by_cases h : u = 0 ∧ o = 0
  · obtain ⟨rfl, rfl⟩ := h
    simp [inNamespace, ExternalService.source, ExternalService.isSiteOwned, or_iff_not_imp_left]
  · have : (u == 0 && o == 0) = false := by simpa using h
    simp [inNamespace, ExternalService.source, h, this]

/-- A created row counts once in the namespaces its service counts in. -/
theorem countNamespacedRepos_create (r : Repo) (u o : Nat) :
    (st.createExternalServiceRepo svc r).countNamespacedRepos u o =
      st.countNamespacedRepos u o + if inNamespace u o svc.source then 1 else 0 := by
  simp only [countNamespacedRepos, createExternalServiceRepo_repos, List.filter_append,
    List.length_append, newRow]
  split <;> simp_all

theorem countNamespacedRepos_deleteRepo_le (id u o : Nat) :
    (st.deleteRepo id).countNamespacedRepos u o ≤ st.countNamespacedRepos u o := by
  exact ((List.filter_sublist _).filter _).length_le

/-- Dropping an owner never adds a namespace, and never undeletes. -/
theorem countNamespacedRepos_deleteExternalServiceRepos_le (ids : List Nat) (u o : Nat) :
    (st.deleteExternalServiceRepos svc ids).countNamespacedRepos u o ≤ st.countNamespacedRepos u o := by
  simp only [countNamespacedRepos, deleteExternalServiceRepos_repos, ← List.countP_eq_length_filter,
    List.countP_map]
  refine List.countP_mono_left fun r _ h => ?_
  simp only [Function.comp_apply, dropOwner] at h
  split_ifs at h
  · simp only [Bool.and_eq_true, Bool.not_eq_true', Bool.or_eq_false_iff, List.any_eq_true,
      List.mem_filter] at h ⊢
    obtain ⟨⟨hd, -⟩, x, ⟨hx, -⟩, hn⟩ := h
    exact ⟨hd, x, hx, hn⟩
  · exact h

end Store

/-- Both repo limits of `s` hold: the live repos of all user and org services number at
most `userReposMaxPerSite`, and those of each namespace at most `userReposMaxPerUser`. -/
structure WithinLimits (s : Syncer) (st : Store) : Prop where
  site : st.countNamespacedRepos 0 0 ≤ s.userReposMaxPerSite
  namespaced : ∀ u o, ¬(u = 0 ∧ o = 0) → st.countNamespacedRepos u o ≤ s.userReposMaxPerUser

namespace WithinLimits

variable {s : Syncer} {st : Store} (hl : WithinLimits s st)
include hl

/-- A write that raises no count keeps the limits. -/
theorem of_le {st' : Store} (h : ∀ u o, st'.countNamespacedRepos u o ≤ st.countNamespacedRepos u o) :
    WithinLimits s st' :=
  ⟨(h 0 0).trans hl.site, fun u o hu => (h u o).trans (hl.namespaced u o hu)⟩

/-- The row created after the limit check, or for a site-owned service, keeps the limits. -/
theorem create {f : Faults} {svc : ExternalService} (r : Repo)
    (hc : svc.isSiteOwned = true ∨ s.checkRepoLimits f st svc = none) :
    WithinLimits s (st.createExternalServiceRepo svc r) := by
  have below : svc.isSiteOwned = false → st.countNamespacedRepos 0 0 < s.userReposMaxPerSite ∧
      st.countNamespacedRepos svc.namespaceUserId svc.namespaceOrgId < s.userReposMaxPerUser := by
    intro hso
    have hnone : s.checkRepoLimits f st svc = none := by simpa [hso] using hc
    simp only [Syncer.checkRepoLimits] at hnone
    split_ifs at hnone with h1 h2 h3
    omega
  constructor
  · rw [Store.countNamespacedRepos_create]
    split <;> rename_i hn
    · exact (below (by simpa using (Store.inNamespace_source svc).mp hn)).1
    · simpa using hl.site
  · intro u o hu
    rw [Store.countNamespacedRepos_create]
    split <;> rename_i hn
    · obtain ⟨rfl, rfl⟩ : svc.namespaceUserId = u ∧ svc.namespaceOrgId = o := by
        simpa [hu] using (Store.inNamespace_source svc).mp hn
      have hso : svc.isSiteOwned = false := by simpa [ExternalService.isSiteOwned] using hu
      exact (below hso).2
    · simpa using hl.namespaced u o hu

end WithinLimits

/-! ## Which rows count -/

namespace Repo

/-- The row counts for `CountNamespacedRepos(u, o)`: it is live, and owned through a
service the namespace counts. -/
def countsIn (u o : Nat) (r : Repo) : Bool := !r.deleted && r.sources.any (Store.inNamespace u o)

/-- Written over the row `r`, the row `r'` counts in a namespace that `r` does not count in:
the site, or the namespace of one of the owners of `r'`, the only namespaces `r'` can
count in. The update path does this when it attaches a row to a new namespace or
undeletes it. -/
def widens (r r' : Repo) : Bool :=
  ((0, 0) :: r'.sources.map fun x => (x.userId, x.orgId)).any fun p => r'.countsIn p.1 p.2 && !r.countsIn p.1 p.2

/-- A row written over `r` that does not widen it counts only where `r` did. -/
theorem countsIn_of_widens_eq_false {r r' : Repo} (h : r.widens r' = false) {u o : Nat}
    (hc : r'.countsIn u o = true) : r.countsIn u o = true := by
  have hmem : (u, o) ∈ (0, 0) :: r'.sources.map fun x => (x.userId, x.orgId) := by
    by_cases h0 : u = 0 ∧ o = 0
    · obtain ⟨rfl, rfl⟩ := h0
      exact List.mem_cons_self _ _
    · have hb : (u == 0 && o == 0) = false := by simpa using h0
      simp only [countsIn, Store.inNamespace, hb, Bool.false_eq_true, ite_false, Bool.and_eq_true,
        Bool.not_eq_true', List.any_eq_true, beq_iff_eq] at hc
      obtain ⟨-, x, hx, rfl, rfl⟩ := hc
      exact List.mem_cons_of_mem _ (List.mem_map_of_mem _ hx)
  have := List.any_eq_false.mp h _ hmem
  simp_all

end Repo

namespace Store

variable {st : Store} {svc : ExternalService}

theorem countNamespacedRepos_eq (st : Store) (u o : Nat) :
    st.countNamespacedRepos u o = (st.repos.filter (Repo.countsIn u o)).length := rfl

/-- Writing `u` over the row of its id raises no count where that row counts after the
write only if it counted before. -/
theorem countNamespacedRepos_update_le {u : Repo} (a b : Nat)
    (hw : ∀ x ∈ st.repos, x.id = u.id → (writeRow svc u x).countsIn a b = true → x.countsIn a b = true) :
    (st.updateExternalServiceRepo svc u).countNamespacedRepos a b ≤ st.countNamespacedRepos a b := by
  simp only [countNamespacedRepos_eq, updateExternalServiceRepo_repos, ← List.countP_eq_length_filter,
    List.countP_map]
  refine List.countP_mono_left fun x hx h => ?_
  by_cases hid : x.id = u.id
  · exact hw x hx hid h
  · simpa [writeRow, hid] using h

/-- Writing `u` over a stored row that did not count and counts after the write raises
the count by one. -/
theorem countNamespacedRepos_update_eq {u row : Repo} {a b : Nat} (hrow : row ∈ st.repos) (hid : row.id = u.id)
    (hno : row.countsIn a b = false) (hyes : (writeRow svc u row).countsIn a b = true) :
    (st.updateExternalServiceRepo svc u).countNamespacedRepos a b = st.countNamespacedRepos a b + 1 := by
  obtain ⟨l₁, l₂, hl⟩ := List.append_of_mem hrow
  have hn := st.ids_nodup
  rw [hl, List.map_append, List.map_cons, List.nodup_middle, List.nodup_cons, ← List.map_append] at hn
  have hkeep : ∀ x ∈ l₁ ++ l₂, writeRow svc u x = x := fun x hx => by
    have hne : x.id ≠ u.id := fun h => hn.1 (hid ▸ h ▸ List.mem_map_of_mem _ hx)
    simp [writeRow, hne]
  have h₁ : l₁.map (writeRow svc u) = l₁ :=
    (List.map_congr_left fun x hx => hkeep x (List.mem_append_left _ hx)).trans (List.map_id _)
  have h₂ : l₂.map (writeRow svc u) = l₂ :=
    (List.map_congr_left fun x hx => hkeep x (List.mem_append_right _ hx)).trans (List.map_id _)
  simp only [countNamespacedRepos_eq, updateExternalServiceRepo_repos, hl, List.map_append, List.map_cons, h₁, h₂,
    List.filter_append, List.filter_cons, hno, hyes, List.length_append, List.length_cons]
  simp only [Bool.false_eq_true, ite_false, ite_true, List.length_cons]
  omega

end Store

/-! ## What an apply can write -/

namespace Syncer

variable (s : Syncer) (f : Faults) (tx st : Store) (svc : ExternalService) (sourced : Repo)

/-- The update path leaves its store, or writes the updated row and reports it modified. -/
theorem syncUpdate_store_cases (row : Repo) :
    (syncUpdate f tx svc sourced row).2 = tx ∨
      (syncUpdate f tx svc sourced row).1 = .ok { modified := [(row.update sourced).1] } ∧
        (syncUpdate f tx svc sourced row).2 = tx.updateExternalServiceRepo svc (row.update sourced).1 := by
  cases h : (row.update sourced).2 <;> cases hu : f.update <;> simp [syncUpdate, h, hu]

/-- The create path leaves its store, or creates the row after the limit check. -/
theorem syncCreate_store_cases :
    (s.syncCreate f tx svc sourced).2 = tx ∨
      (svc.isSiteOwned = true ∨ s.checkRepoLimits f tx svc = none) ∧
        (s.syncCreate f tx svc sourced).2 = tx.createExternalServiceRepo svc sourced := by
  unfold syncCreate
  split <;> rename_i hc
  · exact .inl rfl
  · split_ifs
    · exact .inl rfl
    · refine .inr ⟨?_, rfl⟩
      cases hso : svc.isSiteOwned <;> simp_all

/-- Every store the body of `sync` can leave: its own, one without a conflicting row, a
created row after the limit check, or a row written over by the update path, on the
store or on the store without the conflicting row, with the diff that reports it
modified. -/
theorem syncTx_store_cases :
    (s.syncTx f tx svc sourced).2 = tx ∨ (∃ id, (s.syncTx f tx svc sourced).2 = tx.deleteRepo id) ∨
      ((svc.isSiteOwned = true ∨ s.checkRepoLimits f tx svc = none) ∧
        (s.syncTx f tx svc sourced).2 = tx.createExternalServiceRepo svc sourced) ∨
      ∃ t u, (t = tx ∨ ∃ id, t = tx.deleteRepo id) ∧ (s.syncTx f tx svc sourced).1 = .ok { modified := [u] } ∧
        (s.syncTx f tx svc sourced).2 = t.updateExternalServiceRepo svc u := by
  unfold syncTx
  split
  · exact .inl rfl
  split
  · rcases s.syncCreate_store_cases f tx svc sourced with h | h
    · exact .inl h
    · exact .inr (.inr (.inl h))
  · rcases syncUpdate_store_cases f tx svc sourced _ with h | ⟨hr, h⟩
    · exact .inl h
    · exact .inr (.inr (.inr ⟨tx, _, .inl rfl, hr, h⟩))
  · unfold syncConflict
    split
    · exact .inl rfl
    · split
      · exact .inl rfl
      · split
        · exact .inr (.inl ⟨_, rfl⟩)
        · rcases syncUpdate_store_cases f (tx.deleteRepo _) svc sourced _ with h | ⟨hr, h⟩
          · exact .inr (.inl ⟨_, h⟩)
          · exact .inr (.inr (.inr ⟨_, _, .inr ⟨_, rfl⟩, hr, h⟩))
  · exact .inl rfl

/-- `sync` keeps the store it was given, or commits the body's store and returns what
the body returned. -/
theorem sync_store_of_syncTx :
    (s.sync f st svc sourced).2.1 = st ∨
      (s.sync f st svc sourced).2.1 = (s.syncTx f st svc sourced).2 ∧
        (s.sync f st svc sourced).1 = (s.syncTx f st svc sourced).1 := by
  unfold sync
  split
  · exact .inl rfl
  · split <;> rename_i heq <;> (try split) <;> simp [heq]

/-- An apply that writes a stored row so that it counts in a namespace it did not count
in: the update path attaching the row to a new namespace or undeleting it. -/
def attaches : Bool :=
  match (s.sync f st svc sourced).1 with
  | .ok d => d.modified.any fun u => st.repos.any fun r => r.id == u.id && r.widens (Store.writeRow svc u r)
  | _ => false

end Syncer

/-! ## Runs -/

/-- Only an apply that attaches a stored row to a new namespace or undeletes it can break
the limits: from a store within both limits, every other apply leaves a store within
both limits. -/
theorem Syncer.sync_withinLimits_or_attaches (s : Syncer) (f : Faults) {st : Store}
    (svc : ExternalService) (sourced : Repo) (hl : WithinLimits s st) :
    WithinLimits s (s.sync f st svc sourced).2.1 ∨ s.attaches f st svc sourced = true := by
  rcases s.sync_store_of_syncTx f st svc sourced with he | ⟨he, hr⟩
  · rw [he]; exact .inl hl
  rw [he]
  rcases s.syncTx_store_cases f st svc sourced with h | ⟨id, h⟩ | ⟨hc, h⟩ | ⟨t, u, ht, hret, h⟩
  · rw [h]; exact .inl hl
  · rw [h]; exact .inl (hl.of_le fun a b => st.countNamespacedRepos_deleteRepo_le id a b)
  · rw [h]; exact .inl (hl.create sourced hc)
  cases ha : s.attaches f st svc sourced
  · have hno : ∀ x ∈ st.repos, x.id = u.id → x.widens (Store.writeRow svc u x) = false := by
      simpa [Syncer.attaches, hr, hret, List.any_eq_false] using ha
    have hsub : ∀ x ∈ t.repos, x ∈ st.repos := by
      rcases ht with rfl | ⟨id, rfl⟩
      · exact fun _ hx => hx
      · exact fun _ hx => (List.mem_filter.mp hx).1
    have hle : ∀ a b, t.countNamespacedRepos a b ≤ st.countNamespacedRepos a b := by
      rcases ht with rfl | ⟨id, rfl⟩
      · exact fun _ _ => le_rfl
      · exact st.countNamespacedRepos_deleteRepo_le id
    rw [h]
    exact .inl (hl.of_le fun a b => (Store.countNamespacedRepos_update_le a b fun x hx hid hc =>
      Repo.countsIn_of_widens_eq_false (hno x (hsub x hx) hid) hc).trans (hle a b))
  · exact .inr rfl

/-- The write is not an apply, or an apply by `s` that attaches no stored row to a new
namespace and undeletes none. -/
def Write.attachesNoRow (s : Syncer) (st : Store) : Write → Bool
  | .apply s' f svc sourced => s' == s && !s.attaches f st svc sourced
  | _ => true

/-- Every apply of the run is made by `s` and attaches no row where it runs. -/
def AttachesNoRow (s : Syncer) : Store → List Write → Bool
  | _, [] => true
  | st, w :: ws => w.attachesNoRow s st && AttachesNoRow s (w.run st) ws

theorem Write.run_withinLimits {s : Syncer} {st : Store} (w : Write) (hl : WithinLimits s st)
    (hw : w.attachesNoRow s st = true) : WithinLimits s (w.run st) := by
  cases w with
  | apply s' f svc sourced =>
    simp only [Write.attachesNoRow, Bool.and_eq_true, beq_iff_eq, Bool.not_eq_true'] at hw
    obtain ⟨rfl, hm⟩ := hw
    rcases s'.sync_withinLimits_or_attaches f svc sourced hl with h | h
    · exact h
    · exact absurd (hm ▸ h) Bool.false_ne_true
  | prune svc seen fails =>
    exact hl.of_le fun u o => st.countNamespacedRepos_deleteExternalServiceRepos_le svc _ u o
  | lazyDelete svc id =>
    exact hl.of_le fun u o => st.countNamespacedRepos_deleteExternalServiceRepos_le svc _ u o

/-- **The limits over sequential runs.** From a store within both limits of `s`, every
run of applies by `s`, prunes and lazy deletes ends within both limits when no apply
attaches a stored row to a namespace it did not count in or undeletes it: the create
path counts before it inserts, an update that moves no row into a namespace moves no
count, and deletes only lower the counts. -/
theorem run_within_limits (s : Syncer) (ws : List Write) :
    ∀ st : Store, WithinLimits s st → AttachesNoRow s st ws = true →
      WithinLimits s (runWrites ws st) := by
  induction ws with
  | nil => exact fun _ hl _ => hl
  | cons w ws ih =>
    intro st hl hr
    simp only [AttachesNoRow, Bool.and_eq_true] at hr
    exact ih (w.run st) (w.run_withinLimits hl hr.1) hr.2

/-! ## The update path attaches past the limit -/

/-- **The update path checks no limit.** For every store and every service of a user or
an org whose namespace has reached its limit: when the service lists a repository
stored under one row that does not count for the namespace (a row of another namespace
or a deleted one), the fault-free apply succeeds, reports the row modified, attaches it
to the namespace, and leaves the namespace one repo past its limit, with no
`RepoLimitError`. -/
theorem sync_attaches_past_limit (s : Syncer) {st : Store} {svc : ExternalService} {sourced row : Repo}
    (hso : svc.isSiteOwned = false) (hsrc : svc.source ∈ sourced.sources)
    (hl : st.listByNameOrSpec sourced.name sourced.externalRepo = [row])
    (hrow : row.countsIn svc.namespaceUserId svc.namespaceOrgId = false)
    (hat : s.userReposMaxPerUser ≤ st.countNamespacedRepos svc.namespaceUserId svc.namespaceOrgId) :
    (s.sync {} st svc sourced).1 = .ok { modified := [(row.update sourced).1] } ∧
      (s.sync {} st svc sourced).2.1.countNamespacedRepos svc.namespaceUserId svc.namespaceOrgId =
        st.countNamespacedRepos svc.namespaceUserId svc.namespaceOrgId + 1 ∧
      s.userReposMaxPerUser < (s.sync {} st svc sourced).2.1.countNamespacedRepos svc.namespaceUserId
        svc.namespaceOrgId := by
  have hns : Store.inNamespace svc.namespaceUserId svc.namespaceOrgId svc.source = true := by
    rw [Store.inNamespace_source]
    split_ifs with h0
    · simp [ExternalService.isSiteOwned, h0] at hso
    · exact ⟨rfl, rfl⟩
  have hcounts : ((row.update sourced).1).countsIn svc.namespaceUserId svc.namespaceOrgId = true := by
    simp only [Repo.countsIn, Repo.update, Bool.not_false, Bool.true_and, List.any_eq_true]
    exact ⟨_, List.mem_union_iff.mpr (.inl hsrc), hns⟩
  have hmod : (row.update sourced).2 = true := by
    rw [Repo.update_snd]
    simp only [Bool.not_eq_true', decide_eq_false_iff_not]
    exact fun h => by rw [h] at hcounts; simp [hcounts] at hrow
  have hsync : s.sync {} st svc sourced = (.ok { modified := [(row.update sourced).1] },
      st.updateExternalServiceRepo svc (row.update sourced).1, .commit :: s.publish { modified := [(row.update sourced).1] }) := by
    simp [Syncer.sync, Syncer.syncTx, hl, Syncer.syncUpdate, hmod]
  have hrow' : row ∈ st.repos := (Store.mem_listByNameOrSpec.mp (hl ▸ List.mem_singleton_self row)).1
  have hcount := @Store.countNamespacedRepos_update_eq st svc _ row _ _ hrow' (Repo.update_id row sourced).symm hrow
    (by simp [Store.writeRow, Repo.countsIn, List.any_insert, hns, Repo.update])
  rw [hsync]
  exact ⟨rfl, hcount, by rw [hcount]; omega⟩

/-! ## Two transactions that read before either commits -/

/-- Modelled from the spec: the store is transactional (its isolation level is not under
src/), and with PostgreSQL's default, READ COMMITTED, a statement sees what was committed
before it began. A transaction of `sync` whose body ran all its reads on the committed
store `read`, and took the create path with no store failure, lands its insert on the
committed store `cur` when it commits, under the next id of the sequence. Only the create
path is modelled. -/
def Syncer.commitCreate (s : Syncer) (read : Store) (svc : ExternalService) (sourced : Repo) (cur : Store) : Store :=
  match s.syncTx {} read svc sourced with
  | (.ok d, _) => if d.added.isEmpty then cur else cur.createExternalServiceRepo svc sourced
  | _ => cur

/-- **Concurrent creates pass the check together.** For every store and every two new
repositories listed by services of one user or org namespace, when the namespace is one
repo below its limit and the site below its limit: if the two transactions of `sync` both
run their reads before either commits, both limit checks count the same store and pass,
both inserts land, and the namespace ends one repo past its limit. -/
theorem concurrent_creates_pass_limit (s : Syncer) {st : Store} {svc₁ svc₂ : ExternalService} {r₁ r₂ : Repo}
    (hso : svc₁.isSiteOwned = false) (hu : svc₂.namespaceUserId = svc₁.namespaceUserId)
    (ho : svc₂.namespaceOrgId = svc₁.namespaceOrgId)
    (hl₁ : st.listByNameOrSpec r₁.name r₁.externalRepo = []) (hl₂ : st.listByNameOrSpec r₂.name r₂.externalRepo = [])
    (hsite : st.countNamespacedRepos 0 0 < s.userReposMaxPerSite)
    (hbelow : st.countNamespacedRepos svc₁.namespaceUserId svc₁.namespaceOrgId + 1 = s.userReposMaxPerUser) :
    (s.commitCreate st svc₂ r₂ (s.commitCreate st svc₁ r₁ st)).countNamespacedRepos
      svc₁.namespaceUserId svc₁.namespaceOrgId = s.userReposMaxPerUser + 1 := by
  have hso₂ : svc₂.isSiteOwned = false := by
    simpa [ExternalService.isSiteOwned, hu, ho] using hso
  have hcheck : ∀ {svc : ExternalService}, svc.namespaceUserId = svc₁.namespaceUserId →
      svc.namespaceOrgId = svc₁.namespaceOrgId → s.checkRepoLimits {} st svc = none := fun hu' ho' => by
    simp [Syncer.checkRepoLimits, hu', ho']
    omega
  have hin : ∀ {svc : ExternalService}, svc.namespaceUserId = svc₁.namespaceUserId →
      svc.namespaceOrgId = svc₁.namespaceOrgId →
      Store.inNamespace svc₁.namespaceUserId svc₁.namespaceOrgId svc.source = true := fun hu' ho' => by
    rw [Store.inNamespace_source]
    split_ifs with h0
    · simp [ExternalService.isSiteOwned, h0] at hso
    · exact ⟨hu', ho'⟩
  have hc₁ : s.commitCreate st svc₁ r₁ st = st.createExternalServiceRepo svc₁ r₁ := by
    simp [Syncer.commitCreate, Syncer.syncTx, hl₁, Syncer.syncCreate, hso, hcheck rfl rfl]
  have hc₂ : ∀ cur, s.commitCreate st svc₂ r₂ cur = cur.createExternalServiceRepo svc₂ r₂ := fun cur => by
    simp [Syncer.commitCreate, Syncer.syncTx, hl₂, Syncer.syncCreate, hso₂, hcheck hu ho]
  rw [hc₂, hc₁, Store.countNamespacedRepos_create, Store.countNamespacedRepos_create, hin hu ho, hin rfl rfl]
  simp only [ite_true]
  omega

/-! ## A user at the limit -/

/-- A GitHub service of user 7. -/
def userService : ExternalService := ⟨2, "GITHUB", "GitHub (user 7)", "{}", 7, 0, false, 0, 0, 0⟩

/-- A syncer with a limit of one repo per user. -/
def oneRepoSyncer : Syncer := ⟨true, 1, 0, 10, 10⟩

/-- User 7 owns one repo; the site service owns another. -/
def limitStore : Store :=
  ⟨[{ githubRow 1 "github.com/u/a" "MDa" with sources := [userService.source] },
    githubRow 2 "github.com/o/c" "MDc"], 3, [githubService, userService], by decide, by decide⟩

/-- The site service's repo, as user 7's service lists it. -/
def userSourced : Repo := { githubRow 0 "github.com/o/c" "MDc" with sources := [userService.source] }

/-- A repo no service has synced, as user 7's service lists it. -/
def newUserRepo : Repo := { githubRow 0 "github.com/u/e" "MDe" with sources := [userService.source] }

theorem limitStore_within : WithinLimits oneRepoSyncer limitStore := by
  refine ⟨by decide, fun u o hu => ?_⟩
  have h : (u == 0 && o == 0) = false := by simpa using hu
  simp [limitStore, Store.countNamespacedRepos, List.filter_cons, githubRow, Store.inNamespace,
    ExternalService.source, githubService, userService, h]
  split_ifs <;> first | omega | decide

theorem renameStore_within : WithinLimits testSyncer renameStore := by
  refine ⟨by decide, fun u o hu => ?_⟩
  have h : (u == 0 && o == 0) = false := by simpa using hu
  simp [renameStore, Store.countNamespacedRepos, List.filter_cons, githubRow, Store.inNamespace,
    ExternalService.source, githubService, h]
  split_ifs <;> first | omega | decide

set_option maxRecDepth 20000 in
/-- User 7's service creates a repo on the rename store, within the limits. -/
theorem run_within_limits_create :
    WithinLimits testSyncer renameStore ∧
      AttachesNoRow testSyncer renameStore [.apply testSyncer {} userService newUserRepo] = true ∧
      WithinLimits testSyncer (runWrites [.apply testSyncer {} userService newUserRepo] renameStore) :=
  have h : AttachesNoRow testSyncer renameStore [.apply testSyncer {} userService newUserRepo] = true := by
    decide
  ⟨renameStore_within, h, run_within_limits testSyncer _ renameStore renameStore_within h⟩

set_option maxRecDepth 20000 in
/-- User 7 is at its limit of one repo and its service lists the repo of the site
service: the update path attaches it to user 7 without a check, and user 7 then has two
repos. -/
theorem sync_attaches_past_limit_user :
    userService.isSiteOwned = false ∧ userService.source ∈ userSourced.sources ∧
      limitStore.listByNameOrSpec userSourced.name userSourced.externalRepo = [githubRow 2 "github.com/o/c" "MDc"] ∧
      (githubRow 2 "github.com/o/c" "MDc").countsIn 7 0 = false ∧
      oneRepoSyncer.userReposMaxPerUser ≤ limitStore.countNamespacedRepos 7 0 ∧
      (oneRepoSyncer.sync {} limitStore userService userSourced).1 =
        .ok { modified := [((githubRow 2 "github.com/o/c" "MDc").update userSourced).1] } ∧
      (oneRepoSyncer.sync {} limitStore userService userSourced).2.1.countNamespacedRepos 7 0 =
        limitStore.countNamespacedRepos 7 0 + 1 ∧
      oneRepoSyncer.userReposMaxPerUser < (oneRepoSyncer.sync {} limitStore userService userSourced).2.1.countNamespacedRepos 7 0 :=
  ⟨rfl, by decide, by decide, by decide, by decide,
    @sync_attaches_past_limit oneRepoSyncer limitStore userService userSourced _ rfl (by decide) (by decide)
      (by decide) (by decide)⟩

/-- A GitLab service of user 7. -/
def userGitLab : ExternalService := ⟨3, "GITLAB", "GitLab (user 7)", "{}", 7, 0, false, 0, 0, 0⟩

/-- A repo of GitLab no service has synced, as user 7's GitLab service lists it. -/
def gitlabRepo : Repo :=
  ⟨0, "gitlab.com/u/g", ⟨"gid://gitlab/Project/1", "gitlab", "https://gitlab.com/"⟩, "", false, false, false,
    [userGitLab.source]⟩

set_option maxRecDepth 20000 in
/-- User 7 has no repo and a limit of one: a pass of its GitHub service and a pass of its
GitLab service run at once, both transactions count before either commits, and user 7
ends with two repos. -/
theorem concurrent_creates_pass_limit_user :
    userService.isSiteOwned = false ∧ userGitLab.namespaceUserId = userService.namespaceUserId ∧
      userGitLab.namespaceOrgId = userService.namespaceOrgId ∧
      renameStore.listByNameOrSpec newUserRepo.name newUserRepo.externalRepo = [] ∧
      renameStore.listByNameOrSpec gitlabRepo.name gitlabRepo.externalRepo = [] ∧
      renameStore.countNamespacedRepos 0 0 < oneRepoSyncer.userReposMaxPerSite ∧
      renameStore.countNamespacedRepos 7 0 + 1 = oneRepoSyncer.userReposMaxPerUser ∧
      (oneRepoSyncer.commitCreate renameStore userGitLab gitlabRepo
        (oneRepoSyncer.commitCreate renameStore userService newUserRepo renameStore)).countNamespacedRepos 7 0 =
        oneRepoSyncer.userReposMaxPerUser + 1 :=
  ⟨rfl, rfl, rfl, by decide, by decide, by decide, by decide,
    concurrent_creates_pass_limit oneRepoSyncer rfl rfl rfl (by decide) (by decide) (by decide) (by decide)⟩

end Sourcegraph.Repos
