import Sourcegraph.Repos.Notifications
import Sourcegraph.Repos.SecondPass
import Sourcegraph.Repos.SyncOutcome

/-! The diffs one `SyncExternalService` pass sends on `Synced`, taken together: the four
sets of the spec's pass-level `Diff`. Every successful apply sends a one-repo diff and
the prune sends one diff of the ids it deleted. Over a stream whose repos have pairwise
distinct names and pairwise distinct specs, no two successful applies touch one row: the
row an apply writes holds the sourced name and spec, and every later apply looks up
other ones. So the ids the pass announces live are those of the successful applies, each
once, each the row of a repo the source delivered; the ids it announces deleted are rows
of the service the seen set left out, each once, and none of them is announced live
unless a fatal error emptied the seen set. -/

namespace Sourcegraph.Repos

/-- The ids announced live along a run of effects. -/
def liveIds (effs : List Effect) : List Nat :=
  effs.flatMap fun | .publish d => d.liveIds | _ => []

/-- The repos of a stream of source results, in order. -/
def streamRepos (rs : List SourceResult) : List Repo :=
  rs.filterMap fun | .repo r => some r | .err _ => none

@[simp] theorem liveIds_append (a b : List Effect) : liveIds (a ++ b) = liveIds a ++ liveIds b :=
  List.flatMap_append _ _ _

@[simp] theorem streamRepos_append (a b : List SourceResult) :
    streamRepos (a ++ b) = streamRepos a ++ streamRepos b :=
  List.filterMap_append a b _

@[simp] theorem streamRepos_nil : streamRepos [] = [] := rfl

@[simp] theorem streamRepos_repo (r : Repo) (rs : List SourceResult) :
    streamRepos (.repo r :: rs) = r :: streamRepos rs := rfl

@[simp] theorem streamRepos_err (cls : ErrorClass) (rs : List SourceResult) :
    streamRepos (.err cls :: rs) = streamRepos rs := rfl

/-- `notifyDeleted` announces nothing live. -/
theorem liveIds_notifyDeleted (s : Syncer) (D : List Nat) : liveIds (s.notifyDeleted D) = [] := by
  unfold Syncer.notifyDeleted Syncer.publish
  split_ifs <;> simp [liveIds, Diff.liveIds]

/-- The store holds a row with id `i` under the name and the spec of `n`. -/
def Keyed (st : Store) (n : Repo) (i : Nat) : Prop :=
  ∃ row ∈ st.repos, row.id = i ∧ row.name = n.name ∧ row.externalRepo = n.externalRepo

/-- Two rows keyed by one id are one row, so they hold the same name. -/
theorem Keyed.name_eq {st : Store} {n n' : Repo} {i : Nat} (h : Keyed st n i) (h' : Keyed st n' i) :
    n.name = n'.name := by
  obtain ⟨y, hy, rfl, hyn, -⟩ := h
  obtain ⟨y', hy', hid, hyn', -⟩ := h'
  obtain rfl := Store.eq_of_id_eq hy hy' hid.symm
  exact hyn.symm.trans hyn'

namespace Syncer

variable (s : Syncer) (svc : ExternalService) {st : Store}

/-- What a successful body of `sync` leaves: the sourced repo keyed on the one id its
diff announces live, and nothing announced deleted. -/
theorem syncTx_keyed (f : Faults) {r : Repo} {d : Diff} {st' : Store} (h : st.UniqueKeys)
    (hd : s.syncTx f st svc r = (.ok d, st')) :
    ∃ i, Keyed st' r i ∧ d.liveIds = [i] ∧ d.repos.map (·.id) = [i] := by
  obtain ⟨row, hc⟩ := syncTx_committed svc r f s h hd
  have hrow : row ∈ st'.repos.filter (·.name == r.name) := hc.only ▸ List.mem_singleton_self row
  refine ⟨row.id, ⟨row, (List.mem_filter.mp hrow).1, rfl, by simpa using (List.mem_filter.mp hrow).2, hc.spec⟩, ?_⟩
  rcases hc.one_of with ⟨ha, hm, hu⟩ | ⟨x, hm, rfl, ha, hu⟩ | ⟨hu, ha, hm⟩ <;>
    simp [Diff.liveIds, Diff.repos, ha, hm, hu, hc.deleted]

/-- An apply of a repo with another name and another spec keeps a keyed repo keyed. -/
theorem sync_keyed (f : Faults) {r n : Repo} {i : Nat} (h : st.UniqueKeys) (hK : Keyed st n i)
    (hr : r.name ≠ n.name) (hs : r.externalRepo ≠ n.externalRepo) : Keyed (s.sync f st svc r).2.1 n i := by
  obtain ⟨y, hy, rfl, hyn, hys⟩ := hK
  have keep : ∀ {tx : Store}, y ∈ tx.repos → Keyed tx n y.id := fun h => ⟨y, h, rfl, hyn, hys⟩
  have hlk : ∀ x ∈ st.listByNameOrSpec r.name r.externalRepo, x.id ≠ y.id := fun x hx e => by
    have hx := Store.mem_listByNameOrSpec.mp hx
    obtain rfl := Store.eq_of_id_eq hx.1 hy e
    exact hx.2.elim (fun e' => hr (e'.symm.trans hyn)) fun e' => hs (e'.symm.trans hys)
  have hupd : ∀ {tx tx' : Store} {x : Repo} {d : Diff}, y ∈ tx.repos → x.id ≠ y.id →
      syncUpdate f tx svc r x = (.ok d, tx') → y ∈ tx'.repos := fun hy hx h => by
    rcases syncUpdate_ok f _ svc r h with ⟨-, -, rfl⟩ | ⟨-, -, rfl⟩
    · exact hy
    · exact (Store.mem_updateExternalServiceRepo_of_id_ne (by simpa using hx.symm)).mpr hy
  rcases s.sync_store_cases svc f r h with he | ⟨d, hd⟩
  · rw [he]; exact keep hy
  rcases s.syncTx_ok f st svc r hd with ⟨-, -, -, he⟩ | ⟨x, hl, hx⟩ | ⟨a, b, c, e, hl, hp, hx⟩
  · rw [he]; exact keep (by simp [Store.createExternalServiceRepo, hy])
  · exact keep (hupd hy (hlk x (by simp [hl])) hx)
  · have hce : c ∈ [a, b] ∧ e ∈ [a, b] := by
      rcases pickConflict_pair hp with ⟨rfl, rfl⟩ | ⟨rfl, rfl⟩ <;> simp
    have hc := hlk c (hl ▸ hce.1)
    exact keep (hupd (by simpa [hy] using hc.symm) (hlk e (hl ▸ hce.2)) hx)

/-- With `Synced` set, an apply announces live exactly the ids of the diff it returns, and
nothing deleted. -/
theorem sync_announces (hs : s.synced = true) (f : Faults) (r : Repo) (h : st.UniqueKeys) :
    liveIds (s.sync f st svc r).2.2 = okIds [(s.sync f st svc r).1] ∧ deletedIds (s.sync f st svc r).2.2 = [] := by
  have hp := s.syncTx_ne_panic f svc r h
  unfold sync
  split
  · simp [liveIds, deletedIds, okIds]
  split <;> rename_i d tx heq
  · split
    · simp [liveIds, deletedIds, okIds]
    · obtain ⟨i, -, hl, hr⟩ := s.syncTx_keyed svc f h heq
      have hlen : d.len = 1 := by rw [Diff.len_eq_length_repos, ← List.length_map _ (·.id), hr]; rfl
      have hdel : d.deletedIds = [] := by
        obtain ⟨row, hc⟩ := syncTx_committed svc r f s h heq
        simp [Diff.deletedIds, hc.deleted]
      simp [publish, hs, hlen, liveIds, deletedIds, okIds, hl, hr, hdel]
  · simp [liveIds, deletedIds, okIds]
  · exact absurd (congrArg Prod.fst heq) (hp _)

end Syncer

/-! ## The loop -/

theorem okIds_append (a b : List Return) : okIds (a ++ b) = okIds a ++ okIds b := List.flatMap_append _ _ _

namespace Syncer

variable (s : Syncer) (svc : ExternalService) {st : Store}

/-- An apply's diff announces no id, or one id keyed by the sourced repo. -/
theorem sync_okIds (f : Faults) (r : Repo) (h : st.UniqueKeys) :
    okIds [(s.sync f st svc r).1] = [] ∨ ∃ j, okIds [(s.sync f st svc r).1] = [j] ∧ Keyed (s.sync f st svc r).2.1 r j := by
  rcases hret : s.sync f st svc r with ⟨ret, st', effs⟩
  cases ret with
  | ok d =>
    obtain ⟨j, hK, -, hj⟩ := s.syncTx_keyed svc f h (s.sync_ok f st svc r hret).1
    exact .inr ⟨j, by simpa [okIds] using hj, hK⟩
  | error e => exact .inl rfl
  | panic msg => exact .inl rfl

end Syncer

/-- What the loop keeps for the partition, with `rest` the stream still to come: the
unique keys; the diffs sent so far announce live the ids of the successful applies'
diffs and nothing deleted; those ids are distinct, and each is keyed by a repo the
source delivered whose name and spec no repo still to come shares. -/
structure PartInv (rest : List SourceResult) (ls : LoopState) : Prop where
  unique : ls.store.UniqueKeys
  live : liveIds ls.effects = okIds ls.returns
  deleted : deletedIds ls.effects = []
  nodup : (okIds ls.returns).Nodup
  keyed : ∀ i ∈ okIds ls.returns, ∃ n ∈ streamRepos ls.delivered, Keyed ls.store n i ∧
    ∀ r ∈ streamRepos rest, r.name ≠ n.name ∧ r.externalRepo ≠ n.externalRepo

namespace PartInv

variable {rest : List SourceResult} {ls ls' : LoopState}

theorem init {st : Store} (h : st.UniqueKeys) (rs : List SourceResult) : PartInv rs (.init st) :=
  ⟨h, rfl, rfl, List.nodup_nil, fun _ hi => by simp [LoopState.init, okIds] at hi⟩

/-- The invariant reads the store, the effects, the returns and the delivered items;
the stream still to come may shrink to its tail, or to nothing once the loop stops. -/
theorem congr {rest' : List SourceResult} (h : PartInv rest ls) (hsub : streamRepos rest' ⊆ streamRepos rest)
    (hst : ls'.store = ls.store) (he : ls'.effects = ls.effects) (hr : ls'.returns = ls.returns)
    (hd : streamRepos ls.delivered ⊆ streamRepos ls'.delivered) : PartInv rest' ls' where
  unique := hst ▸ h.unique
  live := he ▸ hr ▸ h.live
  deleted := he ▸ h.deleted
  nodup := hr ▸ h.nodup
  keyed i hi :=
    let ⟨n, hn, hK, hn'⟩ := h.keyed i (hr ▸ hi)
    ⟨n, hd hn, hst ▸ hK, fun r hr' => hn' r (hsub hr')⟩

end PartInv

namespace Syncer

variable (s : Syncer) (faults : Nat → Faults) (svc : ExternalService) (allowed : Repo → Bool)

/-- **Step.** One apply of the repo `r` at the head of the rest of a stream whose names and
specs are distinct. -/
theorem PartInv.apply (hs : s.synced = true) {r : Repo} {rest : List SourceResult} {ls : LoopState}
    (h : PartInv (.repo r :: rest) ls) (hnames : r.name ∉ (streamRepos rest).map (·.name))
    (hspecs : r.externalRepo ∉ (streamRepos rest).map (·.externalRepo)) :
    PartInv rest { ls with
      delivered := ls.delivered ++ [.repo r],
      store := (s.sync (faults ls.returns.length) ls.store svc r).2.1,
      effects := ls.effects ++ (s.sync (faults ls.returns.length) ls.store svc r).2.2,
      returns := ls.returns ++ [(s.sync (faults ls.returns.length) ls.store svc r).1] } := by
  set f := faults ls.returns.length
  obtain ⟨hlive, hdel⟩ := s.sync_announces svc hs f r h.unique
  have hnew : ∀ r' ∈ streamRepos rest, r'.name ≠ r.name ∧ r'.externalRepo ≠ r.externalRepo := fun r' hr' =>
    ⟨fun e => hnames (e ▸ List.mem_map_of_mem _ hr'), fun e => hspecs (e ▸ List.mem_map_of_mem _ hr')⟩
  have hkept : ∀ i ∈ okIds ls.returns, ∃ n ∈ streamRepos ls.delivered, r.name ≠ n.name ∧
      Keyed (s.sync f ls.store svc r).2.1 n i ∧
      ∀ r' ∈ streamRepos rest, r'.name ≠ n.name ∧ r'.externalRepo ≠ n.externalRepo := fun i hi =>
    let ⟨n, hn, hK, hr⟩ := h.keyed i hi
    have hrn := hr r (List.mem_cons_self _ _)
    ⟨n, hn, hrn.1, s.sync_keyed svc f h.unique hK hrn.1 hrn.2, fun r' hr' => hr r' (List.mem_cons_of_mem _ hr')⟩
  refine ⟨s.sync_uniqueKeys f svc r h.unique, by simp [h.live, hlive, okIds_append],
    by simp [h.deleted, hdel], ?_, ?_⟩ <;> rw [okIds_append] <;>
    rcases s.sync_okIds svc f r h.unique with hn | ⟨j, hj, hK⟩
  · rw [hn, List.append_nil]; exact h.nodup
  · rw [hj]
    refine List.nodup_append.mpr ⟨h.nodup, List.nodup_singleton j, fun i hi hj' => ?_⟩
    obtain rfl := List.mem_singleton.mp hj'
    obtain ⟨n, -, hrn, hKn, -⟩ := hkept i hi
    exact hrn (hK.name_eq hKn)
  all_goals
    intro i hi
    rw [List.mem_append] at hi
  · rw [hn] at hi
    obtain ⟨n, hn, -, hK, hr⟩ := hkept i (hi.resolve_right (List.not_mem_nil i))
    exact ⟨n, by simp [hn], hK, hr⟩
  · rw [hj, List.mem_singleton] at hi
    rcases hi with hi | rfl
    · obtain ⟨n, hn, -, hK, hr⟩ := hkept i hi
      exact ⟨n, by simp [hn], hK, hr⟩
    · exact ⟨r, by simp, hK, hnew⟩

/-- **Run.** Over a stream whose repos have distinct names and distinct specs, the loop
keeps the invariant to its end. -/
theorem syncLoop_partInv (hs : s.synced = true) (rs : List SourceResult) :
    ∀ ls : LoopState, ((streamRepos rs).map (·.name)).Nodup → ((streamRepos rs).map (·.externalRepo)).Nodup →
      PartInv rs ls → PartInv [] (s.syncLoop faults svc allowed ls rs) := by
  induction rs with
  | nil => exact fun _ _ _ h => h
  | cons res rest ih =>
    intro ls hnames hspecs h
    cases res with
    | err cls =>
      simp only [syncLoop]
      split
      · exact h.congr (by simp) rfl rfl rfl (by simp)
      · exact ih _ hnames hspecs (h.congr (by simp) rfl rfl rfl (by simp))
    | repo r =>
      simp only [streamRepos_repo, List.map_cons, List.nodup_cons] at hnames hspecs
      simp only [syncLoop]
      split
      · exact ih _ hnames.2 hspecs.2 (h.congr (by simp) rfl rfl rfl (by simp))
      · have h' := PartInv.apply s faults svc hs h hnames.1 hspecs.1
        generalize s.sync (faults ls.returns.length) ls.store svc r = res at h'
        obtain ⟨ret, st, effs⟩ := res
        cases ret with
        | ok d => exact ih _ hnames.2 hspecs.2 (h'.congr (List.Subset.refl _) rfl rfl rfl (List.Subset.refl _))
        | error e =>
          dsimp only
          split
          · exact h'.congr (by simp) rfl rfl rfl (List.Subset.refl _)
          · exact ih _ hnames.2 hspecs.2 (h'.congr (List.Subset.refl _) rfl rfl rfl (List.Subset.refl _))
        | panic msg => exact h'.congr (by simp) rfl rfl rfl (List.Subset.refl _)

end Syncer

/-! ## The pass -/

theorem Store.ownedNotIn_nodup (st : Store) (svc : ExternalService) (seen : List Nat) :
    (st.ownedNotIn svc seen).Nodup :=
  ((List.filter_sublist _).map _).nodup st.ids_nodup

namespace Syncer

variable (s : Syncer) (svc : ExternalService)

/-- The prune announces deleted the rows of the service that the seen set leaves out,
each once, and nothing live. -/
theorem prune_announces (hs : s.synced = true) (env : PassEnv) (ls : LoopState) :
    liveIds (s.prune svc env ls).effects = [] ∧ (deletedIds (s.prune svc env ls).effects).Nodup ∧
      ∀ i ∈ deletedIds (s.prune svc env ls).effects, i ∈ ls.store.ownedNotIn svc ls.seen := by
  unfold prune
  split_ifs
  · simp only [deletedIds_notifyDeleted hs, liveIds_notifyDeleted, Store.deleteExternalServiceReposNotIn]
    exact ⟨trivial, (ls.store.ownedNotIn_nodup svc ls.seen).filter _, fun i hi => (List.mem_filter.mp hi).1⟩
  · simp [liveIds, deletedIds]

end Syncer

end Sourcegraph.Repos
