import Sourcegraph.Repos.ExternalServiceSync
import Mathlib.Data.List.Lattice

/-! Two `SyncExternalService` passes of one service over the same listing, with no store
failure and no other writer. After the first pass each repository of the listing it
applied is settled: the lookup of `sync` finds one row, which `Update` leaves as it
is. The applies of the other repositories of the listing never touch that row, since
they look up other names and specs, and the prune spares it, since it was seen. So
the second pass finds every such repository unmodified, stops at the repo limit where
the first did, and has nothing left to prune. -/

namespace Sourcegraph.Repos

/-- A row map that leaves every row the filter keeps as it is, and keeps each row's
verdict, keeps what the filter finds. -/
theorem filter_map_of_fixed {p : Repo → Bool} {g : Repo → Repo} {l : List Repo}
    (hp : ∀ y ∈ l, p (g y) = p y) (hg : ∀ y ∈ l, p y = true → g y = y) : (l.map g).filter p = l.filter p := by
  induction l with
  | nil => rfl
  | cons y l ih =>
    have ih := ih (fun x hx => hp x (List.mem_cons_of_mem _ hx)) fun x hx => hg x (List.mem_cons_of_mem _ hx)
    by_cases h : p y = true
    · simp [List.filter_cons, h, hg y (List.mem_cons_self _ _) h, ih]
    · simp [List.filter_cons, hp y (List.mem_cons_self _ _), h, ih]

/-! ## Settled repos -/

/-- The lookup of `sync` for the sourced repo `n` finds the one row `row`, and `Update`
leaves `row` as it is: applying `n` again is unmodified. -/
def Settled (st : Store) (n row : Repo) : Prop :=
  st.listByNameOrSpec n.name n.externalRepo = [row] ∧ (row.update n).2 = false

namespace Settled

variable {st : Store} {n row : Repo}

theorem mem (h : Settled st n row) : row ∈ st.repos :=
  (Store.mem_listByNameOrSpec.mp (h.1 ▸ List.mem_singleton_self row)).1

theorem keys (h : Settled st n row) : row.name = n.name ∧ row.externalRepo = n.externalRepo := by
  have e := Repo.update_fst_of_snd h.2
  exact ⟨e ▸ Repo.update_name row n, e ▸ Repo.update_externalRepo row n⟩

theorem congr {st' : Store} (h : Settled st n row) (he : st'.repos = st.repos) : Settled st' n row := by
  refine ⟨?_, h.2⟩
  rw [← h.1]
  simp [Store.listByNameOrSpec, he]

/-- A row the lookup for `r` finds is not the settled row of `n`, when `r` has another
name and another spec. -/
theorem id_ne (h : Settled st n row) {r x : Repo} (hx : x ∈ st.repos)
    (hxr : x.name = r.name ∨ x.externalRepo = r.externalRepo) (hr : r.name ≠ n.name)
    (hs : r.externalRepo ≠ n.externalRepo) : x.id ≠ row.id := fun e => by
  obtain rfl := Store.eq_of_id_eq hx h.mem e
  obtain ⟨h₁, h₂⟩ := h.keys
  exact hxr.elim (fun e' => hr (e'.symm.trans h₁)) fun e' => hs (e'.symm.trans h₂)

variable (svc : ExternalService)

theorem create {r : Repo} (h : Settled st n row) (hr : r.name ≠ n.name) (hs : r.externalRepo ≠ n.externalRepo) :
    Settled (st.createExternalServiceRepo svc r) n row := by
  refine ⟨?_, h.2⟩
  have := h.1
  simp only [Store.listByNameOrSpec] at this ⊢
  simp [List.filter_append, this, Store.newRow, hr, hs]

theorem deleteRepo {c : Nat} (h : Settled st n row) (hc : c ≠ row.id) : Settled (st.deleteRepo c) n row := by
  refine ⟨?_, h.2⟩
  have := h.1
  simp only [Store.listByNameOrSpec, Store.deleteRepo_repos, List.filter_filter] at this ⊢
  rw [List.filter_congr fun y _ => Bool.and_comm _ _, ← List.filter_filter, this]
  simp [Ne.symm hc]

theorem update {u : Repo} (h : Settled st n row) (hid : u.id ≠ row.id) (hr : u.name ≠ n.name)
    (hs : u.externalRepo ≠ n.externalRepo) : Settled (st.updateExternalServiceRepo svc u) n row := by
  refine ⟨?_, h.2⟩
  simp only [Store.listByNameOrSpec, Store.updateExternalServiceRepo_repos]
  rw [filter_map_of_fixed (fun y hy => ?_) fun y hy hp => ?_]
  · exact h.1
  · unfold Store.writeRow; split
    · rename_i hy'
      have hnot : ¬y ∈ st.listByNameOrSpec n.name n.externalRepo := by
        rw [h.1, List.mem_singleton]; rintro rfl; exact hid hy'.symm
      simp only [Store.mem_listByNameOrSpec, not_and, not_or] at hnot
      rw [Bool.eq_iff_iff]
      simp [hr, hs, (hnot hy).1, (hnot hy).2]
    · rfl
  · unfold Store.writeRow; split
    · rename_i hy'
      have : y ∈ st.listByNameOrSpec n.name n.externalRepo := by
        simpa [Store.listByNameOrSpec, hy] using hp
      rw [h.1, List.mem_singleton] at this
      exact absurd (this ▸ hy').symm hid
    · rfl

theorem dropOwner {D : List Nat} (h : Settled st n row) (hD : row.id ∉ D) :
    Settled (st.deleteExternalServiceRepos svc D) n row := by
  refine ⟨?_, h.2⟩
  simp only [Store.listByNameOrSpec, Store.deleteExternalServiceRepos_repos]
  rw [filter_map_of_fixed (fun y _ => by simp) fun y hy hp => ?_]
  · exact h.1
  · have : y ∈ st.listByNameOrSpec n.name n.externalRepo := by
      simpa [Store.listByNameOrSpec, hy] using hp
    rw [h.1, List.mem_singleton] at this
    subst this
    simp [Store.dropOwner, hD]

end Settled

/-! ## One apply -/

namespace Syncer

variable (s : Syncer) (svc : ExternalService) {st : Store} {n row : Repo}

/-- Under unique keys `sync` keeps its store, or commits the store of a body that
returned a diff. -/
theorem sync_store_cases (f : Faults) (r : Repo) (h : st.UniqueKeys) :
    (s.sync f st svc r).2.1 = st ∨ ∃ d, s.syncTx f st svc r = (.ok d, (s.sync f st svc r).2.1) := by
  unfold sync
  split
  · exact .inl rfl
  split <;> rename_i heq
  · split
    · exact .inl rfl
    · exact .inr ⟨_, heq⟩
  · exact .inl rfl
  · exact absurd (congrArg Prod.fst heq) (s.syncTx_ne_panic _ svc r h _)

/-- An apply of a repo with another name and another spec leaves a settled repo
settled on its row. -/
theorem sync_settled (f : Faults) {r : Repo} (h : st.UniqueKeys) (hS : Settled st n row)
    (hr : r.name ≠ n.name) (hs : r.externalRepo ≠ n.externalRepo) : Settled (s.sync f st svc r).2.1 n row := by
  rcases s.sync_store_cases svc f r h with he | ⟨d, hd⟩
  · rw [he]; exact hS
  have hlk : ∀ x ∈ st.listByNameOrSpec r.name r.externalRepo, x.id ≠ row.id := fun x hx =>
    have hx := Store.mem_listByNameOrSpec.mp hx
    hS.id_ne hx.1 hx.2 hr hs
  have hupd : ∀ {tx tx' : Store} {x : Repo} {d : Diff}, Settled tx n row → x.id ≠ row.id →
      syncUpdate f tx svc r x = (.ok d, tx') → Settled tx' n row := fun hS hx h => by
    rcases syncUpdate_ok f _ svc r h with ⟨-, -, rfl⟩ | ⟨-, -, rfl⟩
    · exact hS
    · exact hS.update svc hx (by simpa using hr) (by simpa using hs)
  rcases s.syncTx_ok f st svc r hd with ⟨-, -, -, he⟩ | ⟨x, hl, hx⟩ | ⟨a, b, c, e, hl, hp, hx⟩
  · rw [he]; exact hS.create svc hr hs
  · exact hupd hS (hlk x (by simp [hl])) hx
  · have hmem : ∀ y ∈ [a, b], y.id ≠ row.id := fun y hy => hlk y (hl ▸ hy)
    have hce : c ∈ [a, b] ∧ e ∈ [a, b] := by
      rcases pickConflict_pair hp with ⟨rfl, rfl⟩ | ⟨rfl, rfl⟩ <;> simp
    exact hupd (hS.deleteRepo (hmem c hce.1)) (hmem e hce.2) hx

/-- The update path leaves `n` settled on the row it wrote or found. -/
theorem syncUpdate_settles (f : Faults) {tx tx' : Store} {x : Repo} {d : Diff}
    (hl : tx.listByNameOrSpec n.name n.externalRepo = [x]) (h : syncUpdate f tx svc n x = (.ok d, tx')) :
    ∃ row, Settled tx' n row ∧ d.repos.map (·.id) = [row.id] := by
  rcases syncUpdate_ok f tx svc n h with ⟨hc, rfl, rfl⟩ | ⟨-, rfl, rfl⟩
  · exact ⟨x, ⟨hl, hc⟩, rfl⟩
  have hx : x ∈ tx.listByNameOrSpec n.name n.externalRepo := hl ▸ List.mem_singleton_self x
  have hxr : x ∈ tx.repos := (Store.mem_listByNameOrSpec.mp hx).1
  refine ⟨Store.writeRow svc (x.update n).1 x, ⟨?_, ?_⟩, by simp [Diff.repos, Store.writeRow]⟩
  · simp only [Store.listByNameOrSpec, Store.updateExternalServiceRepo_repos, List.filter_map] at hl hx ⊢
    rw [List.filter_congr fun y hy => ?_, hl]
    · rfl
    · simp only [Function.comp_apply, Store.writeRow]
      split
      · rename_i hyx
        obtain rfl := Store.eq_of_id_eq hy hxr hyx
        simpa using (List.mem_filter.mp hx).2
      · rfl
  · have hsub : n.sources ⊆ (n.sources ∪ x.sources).insert svc.source := fun a ha =>
      List.mem_insert_of_mem (List.mem_union_left ha _)
    simp [Store.writeRow, Repo.update, List.Subset.union_eq_right hsub]

/-- A body of `sync` that returns a diff leaves `n` settled on the one row of the
diff, when the sourced repo names only its own service as owner. -/
theorem syncTx_settles {f : Faults} {d : Diff} {tx' : Store} (hsrc : n.sources ⊆ [svc.source])
    (h : s.syncTx f st svc n = (.ok d, tx')) : ∃ row, Settled tx' n row ∧ d.repos.map (·.id) = [row.id] := by
  rcases s.syncTx_ok f st svc n h with ⟨hl, -, rfl, rfl⟩ | ⟨x, hl, hx⟩ | ⟨a, b, c, e, hl, hp, hx⟩
  · refine ⟨st.newRow svc n, ⟨?_, ?_⟩, rfl⟩
    · simp only [Store.listByNameOrSpec] at hl ⊢
      simp [List.filter_append, hl, Store.newRow]
    · simp [Repo.update, Store.newRow, List.Subset.union_eq_right hsrc]
  · exact syncUpdate_settles svc f hl hx
  · exact syncUpdate_settles svc f (lookup_deleteRepo_pickConflict hl hp) hx

/-- A settled repo applied again with no store failure: unmodified, and nothing written. -/
theorem sync_of_settled (hS : Settled st n row) :
    s.sync {} st svc n = (.ok { unmodified := [row] }, st, .commit :: s.publish { unmodified := [row] }) := by
  simp [sync, syncTx, hS.1, syncUpdate, hS.2, Repo.update_fst_of_snd hS.2]

theorem syncUpdate_ne_error (tx : Store) (x : Repo) (e : SyncError) :
    (syncUpdate {} tx svc n x).1 ≠ .error e := by
  cases hu : (x.update n).2 <;> simp [syncUpdate, hu]

/-- With no store failure the only error of a body is the repo limit of `case 0`. -/
theorem syncTx_error {e : SyncError} {tx : Store} (h : s.syncTx {} st svc n = (.error e, tx)) :
    st.listByNameOrSpec n.name n.externalRepo = [] ∧ svc.isSiteOwned = false ∧
      s.checkRepoLimits {} st svc = some e := by
  unfold syncTx at h
  split at h
  · rename_i hf; exact absurd hf (by decide)
  split at h <;> rename_i hl
  · unfold syncCreate at h
    split at h <;> rename_i hc
    · simp only [Prod.mk.injEq, Return.error.injEq] at h
      obtain ⟨rfl, -⟩ := h
      cases hso : svc.isSiteOwned <;> simp_all
    · simp at h
  · exact absurd (congrArg Prod.fst h) (syncUpdate_ne_error svc _ _ e)
  · unfold syncConflict at h
    split at h
    · cases h
    · split at h
      · rename_i hf; exact absurd hf (by decide)
      · split at h
        · cases h
        · exact absurd (congrArg Prod.fst h) (syncUpdate_ne_error svc _ _ e)
  · cases h

/-- An apply with no store failure that returns an error rolls back at the repo limit. -/
theorem sync_error {e : SyncError} {st' : Store} {effs : List Effect} (h : s.sync {} st svc n = (.error e, st', effs)) :
    st' = st ∧ st.listByNameOrSpec n.name n.externalRepo = [] ∧ svc.isSiteOwned = false ∧
      s.checkRepoLimits {} st svc = some e := by
  unfold sync at h
  split at h
  · rename_i hf; exact absurd hf (by decide)
  split at h <;> rename_i heq
  · cases h
  · simp only [Prod.mk.injEq, Return.error.injEq] at h
    obtain ⟨rfl, rfl, -⟩ := h
    exact ⟨rfl, s.syncTx_error svc heq⟩
  · cases h

theorem checkRepoLimits_isRepoLimit {f : Faults} {e : SyncError} (h : s.checkRepoLimits f st svc = some e)
    (hf : f = {}) : e.isRepoLimit = true := by
  subst hf
  simp only [checkRepoLimits] at h
  split_ifs at h <;> first | contradiction | (cases h; rfl)

/-- The limit check reads only the rows and the service's namespace. -/
theorem checkRepoLimits_congr (f : Faults) {st₂ : Store} {svc₂ : ExternalService} (hr : st₂.repos = st.repos)
    (hu : svc₂.namespaceUserId = svc.namespaceUserId) (ho : svc₂.namespaceOrgId = svc.namespaceOrgId) :
    s.checkRepoLimits f st₂ svc₂ = s.checkRepoLimits f st svc := by
  simp only [checkRepoLimits, Store.countNamespacedRepos, hr, hu, ho]

/-- On the same rows, for a service of the same namespace, a repo that hit the limit
hits it again. -/
theorem sync_of_limit {st₂ : Store} {svc₂ : ExternalService} {e : SyncError} (hr : st₂.repos = st.repos)
    (hu : svc₂.namespaceUserId = svc.namespaceUserId) (ho : svc₂.namespaceOrgId = svc.namespaceOrgId)
    (hl : st.listByNameOrSpec n.name n.externalRepo = []) (hso : svc.isSiteOwned = false)
    (hc : s.checkRepoLimits {} st svc = some e) : s.sync {} st₂ svc₂ n = (.error e, st₂, [.rollback]) := by
  have hl₂ : st₂.listByNameOrSpec n.name n.externalRepo = [] := by
    rw [← hl]; simp [Store.listByNameOrSpec, hr]
  have hso₂ : svc₂.isSiteOwned = false := by simpa [ExternalService.isSiteOwned, hu, ho] using hso
  simp [sync, syncTx, hl₂, syncCreate, hso₂, s.checkRepoLimits_congr svc {} hr hu ho, hc]

/-! ## The loop -/

variable (allowed : Repo → Bool)

/-- Over a stream of repositories only, the seen set only grows. -/
theorem syncLoop_seen (faults : Nat → Faults) (L : List Repo) :
    ∀ ls : LoopState, ls.seen <+: (s.syncLoop faults svc allowed ls (L.map .repo)).seen := by
  induction L with
  | nil => exact fun ls => List.prefix_refl _
  | cons r L ih =>
    intro ls
    simp only [List.map_cons, syncLoop]
    split
    · refine List.IsPrefix.trans ?_ (ih _)
      exact List.prefix_refl _
    · generalize s.sync (faults ls.returns.length) ls.store svc r = res
      obtain ⟨ret, st, effs⟩ := res
      cases ret with
      | ok d =>
        dsimp only
        refine List.IsPrefix.trans ?_ (ih _)
        exact List.prefix_append _ _
      | error e =>
        dsimp only
        split
        · exact List.prefix_refl _
        · refine List.IsPrefix.trans ?_ (ih _)
          exact List.prefix_refl _
      | panic msg => exact List.prefix_refl _

/-- The applies of repos with other names and specs leave a settled repo settled. -/
theorem syncLoop_settled (faults : Nat → Faults) (L : List Repo)
    (hL : ∀ r ∈ L, r.name ≠ n.name ∧ r.externalRepo ≠ n.externalRepo) (ls : LoopState)
    (h : ls.store.UniqueKeys) (hS : Settled ls.store n row) :
    Settled (s.syncLoop faults svc allowed ls (L.map .repo)).store n row :=
  (s.syncLoop_keeps faults svc allowed (fun _ st => st.UniqueKeys ∧ Settled st n row) (L.map .repo)
    (fun f st r _ hr h =>
      have hr := hL r (by simpa using hr)
      ⟨s.sync_uniqueKeys f svc r h.1, s.sync_settled svc f h.1 h.2 hr.1 hr.2⟩) ls ⟨h, hS⟩).2

end Syncer

/-! ## The second loop against the first -/

theorem mem_publish {s : Syncer} {d d' : Diff} (h : Effect.publish d' ∈ s.publish d) : d' = d := by
  unfold Syncer.publish at h
  split at h <;> simp_all

/-- What the second loop, from `ls₂` to `F₂`, does against the first, from `ls₁` to
`F₁`: it writes nothing, modifies no repo, sends only unmodified diffs, marks seen the ids the first one
did and records its errors. -/
structure Replays (ls₁ F₁ ls₂ F₂ : LoopState) : Prop where
  store : F₂.store = ls₂.store
  modified : F₂.modified = ls₂.modified
  unmodified : ∀ d, .publish d ∈ F₂.effects → .publish d ∈ ls₂.effects ∨
    d.added = [] ∧ d.modified = [] ∧ d.deleted = []
  seen : ∃ δ, F₁.seen = ls₁.seen ++ δ ∧ F₂.seen = ls₂.seen ++ δ
  errs : ∃ ε, F₁.errs = ls₁.errs ++ ε ∧ F₂.errs = ls₂.errs ++ ε
  panic : F₂.panic = ls₂.panic

/-- One step of both loops in front of a replay. -/
theorem Replays.cons {ls₁ ls₁' F₁ ls₂ ls₂' F₂ : LoopState} (h : Replays ls₁' F₁ ls₂' F₂) (x : List Nat)
    (hs₁ : ls₁'.seen = ls₁.seen ++ x) (hs₂ : ls₂'.seen = ls₂.seen ++ x) (he₁ : ls₁'.errs = ls₁.errs)
    (he₂ : ls₂'.errs = ls₂.errs) (hst : ls₂'.store = ls₂.store) (hm : ls₂'.modified = ls₂.modified)
    (hef : ∀ d, .publish d ∈ ls₂'.effects → .publish d ∈ ls₂.effects ∨
      d.added = [] ∧ d.modified = [] ∧ d.deleted = [])
    (hp : ls₂'.panic = ls₂.panic) : Replays ls₁ F₁ ls₂ F₂ where
  store := h.store.trans hst
  modified := h.modified.trans hm
  unmodified d hd := (h.unmodified d hd).elim (hef d) .inr
  seen :=
    let ⟨δ, h₁, h₂⟩ := h.seen
    ⟨x ++ δ, by rw [h₁, hs₁, List.append_assoc], by rw [h₂, hs₂, List.append_assoc]⟩
  errs := let ⟨ε, h₁, h₂⟩ := h.errs; ⟨ε, by rw [h₁, he₁], by rw [h₂, he₂]⟩
  panic := h.panic.trans hp

/-- The store the second loop reads, against the first loop from `ls₁` to `F₁`: each
repo the first loop left settled on a row it marked seen is settled on that row, and
once the first loop recorded an error, the rows are those it left. -/
structure Agrees (ls₁ F₁ : LoopState) (st : Store) : Prop where
  settled : ∀ n row, Settled F₁.store n row → row.id ∈ F₁.seen → Settled st n row
  rows : F₁.errs ≠ ls₁.errs → st.repos = F₁.store.repos

namespace Syncer

variable (s : Syncer) (svc : ExternalService) (allowed : Repo → Bool)

/-- **The second loop replays the first.** With no store failure, over a listing of
distinct names and distinct specs whose repos name only `svc` as owner, a loop on a
store that agrees with what the first loop left finds unmodified each repo the first
one applied, and stops at the repo limit where the first one did. -/
theorem syncLoop_replays (svc₂ : ExternalService) (hu : svc₂.namespaceUserId = svc.namespaceUserId)
    (ho : svc₂.namespaceOrgId = svc.namespaceOrgId) (L : List Repo)
    (hnames : (L.map (·.name)).Nodup) (hspecs : (L.map (·.externalRepo)).Nodup)
    (hsrc : ∀ r ∈ L, r.sources ⊆ [svc.source]) :
    ∀ ls₁ ls₂ : LoopState, ls₁.store.UniqueKeys →
      Agrees ls₁ (s.syncLoop (fun _ => {}) svc allowed ls₁ (L.map .repo)) ls₂.store →
      Replays ls₁ (s.syncLoop (fun _ => {}) svc allowed ls₁ (L.map .repo)) ls₂
        (s.syncLoop (fun _ => {}) svc₂ allowed ls₂ (L.map .repo)) := by
  induction L with
  | nil => exact fun _ _ _ _ => ⟨rfl, rfl, fun _ h => .inl h, ⟨[], by simp [syncLoop]⟩, ⟨[], by simp [syncLoop]⟩, rfl⟩
  | cons n L ih =>
    rw [List.map_cons, List.nodup_cons] at hnames hspecs
    have hL : ∀ r ∈ L, r.name ≠ n.name ∧ r.externalRepo ≠ n.externalRepo := fun r hr =>
      ⟨fun e => hnames.1 (e ▸ List.mem_map_of_mem _ hr), fun e => hspecs.1 (e ▸ List.mem_map_of_mem _ hr)⟩
    have ih := ih hnames.2 hspecs.2 fun r hr => hsrc r (List.mem_cons_of_mem _ hr)
    intro ls₁ ls₂ hu₁
    simp only [List.map_cons, syncLoop]
    by_cases ha : allowed n = true
    swap
    · simp only [ha, Bool.not_false, if_true]
      intro hA
      refine (ih _ _ ?_ ?_).cons [] (by simp) (by simp) rfl rfl rfl rfl (fun _ h => .inl h) rfl
      · exact hu₁
      · exact ⟨hA.settled, hA.rows⟩
    simp only [ha, Bool.not_true, Bool.false_eq_true, if_false]
    rcases h₁ : s.sync {} ls₁.store svc n with ⟨ret, st₁, effs₁⟩
    cases ret with
    | ok d =>
      obtain ⟨row, hS, hid⟩ := s.syncTx_settles svc (hsrc n (List.mem_cons_self _ _)) (s.sync_ok _ _ _ _ h₁).1
      have hu₁' : st₁.UniqueKeys := by simpa [h₁] using s.sync_uniqueKeys {} svc n hu₁
      intro hA
      have hS₂ := hA.settled n row (s.syncLoop_settled svc allowed _ L hL _ hu₁' hS)
        ((s.syncLoop_seen svc allowed _ L _).subset (by simp [hid]))
      rw [s.sync_of_settled svc₂ hS₂]
      refine (ih _ _ ?_ ?_).cons [row.id] (by simp [hid]) (by simp [Diff.repos]) rfl rfl rfl (by simp)
        (fun d' h => ?_) rfl
      · exact hu₁'
      · exact ⟨hA.settled, hA.rows⟩
      rcases List.mem_append.mp h with h | h
      · exact .inl h
      rcases List.mem_cons.mp h with h | h
      · cases h
      obtain rfl := mem_publish h
      exact .inr ⟨rfl, rfl, rfl⟩
    | error e =>
      obtain ⟨rfl, hl, hso, hc⟩ := s.sync_error svc h₁
      have hlim := s.checkRepoLimits_isRepoLimit svc hc rfl
      simp only [hlim, ite_true]
      intro hA
      rw [s.sync_of_limit svc (hA.rows (by simp)) hu ho hl hso hc]
      simp only [hlim, ite_true]
      exact ⟨rfl, rfl, fun _ h => .inl (by simpa using h), ⟨[], by simp, by simp⟩, ⟨[e], rfl, rfl⟩, rfl⟩
    | panic msg => exact absurd (congrArg Prod.fst h₁) (s.sync_ne_panic {} svc n hu₁ msg)

end Syncer

/-! ## Two passes -/

namespace Syncer

variable (s : Syncer) (svc : ExternalService)

theorem syncTx_externalServices (f : Faults) (st : Store) (r : Repo) :
    (s.syncTx f st svc r).2.externalServices = st.externalServices := by
  have hu : ∀ tx x, (syncUpdate f tx svc r x).2.externalServices = tx.externalServices := fun tx x => by
    rcases syncUpdate_store f tx svc r x with h | h
    · rw [h]
    · rw [h]; rfl
  unfold syncTx
  split
  · rfl
  split
  · rcases s.syncCreate_store f st svc r with h | h
    · rw [h]
    · rw [h]; rfl
  · exact hu _ _
  · unfold syncConflict
    split
    · rfl
    · split
      · rfl
      · split
        · rfl
        · exact hu _ _
  · rfl

/-- The loop writes only the `repo` table. -/
theorem syncLoop_externalServices (faults : Nat → Faults) (allowed : Repo → Bool) (rs : List SourceResult)
    (ls : LoopState) :
    (s.syncLoop faults svc allowed ls rs).store.externalServices = ls.store.externalServices :=
  s.syncLoop_keeps faults svc allowed (fun _ st => st.externalServices = ls.store.externalServices) rs
    (fun f st r _ _ h => by
      rcases s.sync_store f st svc r with e | e <;> rw [e]
      · exact h
      · exact (s.syncTx_externalServices svc f st r).trans h) ls rfl

/-- Over a stream of repositories only, the loop records no fatal error. -/
theorem syncLoop_fatalAll (faults : Nat → Faults) (allowed : Repo → Bool) {st : Store} (h : st.UniqueKeys)
    (L : List Repo) : fatalAll (s.syncLoop faults svc allowed (.init st) (L.map .repo)).errs = false := by
  rcases (s.syncLoop_inv faults svc allowed (L.map .repo) (.init st) h rfl rfl rfl rfl).seen with
    ⟨-, -, hf⟩ | ⟨hn, -, -⟩
  · exact hf
  · obtain ⟨d, hd, he⟩ := s.syncLoop_delivered faults svc allowed (L.map .repo) (.init st)
    rw [he] at hn
    obtain ⟨x, hx, hf⟩ := List.any_eq_true.mp hn
    obtain ⟨r, -, rfl⟩ := List.mem_map.mp (hd.subset (by simpa [LoopState.init] using hx))
    simp [SourceResult.isFatal] at hf

/-- The prune spares a settled row that was seen. -/
theorem prune_settled (env : PassEnv) {ls : LoopState} {n row : Repo} (hS : Settled ls.store n row)
    (hrow : row.id ∈ ls.seen) : Settled (s.prune svc env ls).store n row := by
  simp only [prune, Store.deleteExternalServiceReposNotIn]
  split
  · refine hS.dropOwner svc fun h => ?_
    simp [Store.ownedNotIn] at h
    obtain ⟨⟨r, ⟨-, -, hn⟩, he⟩, -⟩ := h
    exact hn (he ▸ hrow)
  · exact hS

/-- After an error that is not fatal there is no prune. -/
theorem prune_of_errs (env : PassEnv) {ls : LoopState} (he : ls.errs ≠ []) (hf : fatalAll ls.errs = false) :
    (s.prune svc env ls).store = ls.store := by
  simp [prune, shouldPrune, List.isEmpty_iff, he, hf]

/-- A prune with no failure leaves nothing of `svc` unseen. -/
theorem prune_ownedNotIn (env : PassEnv) {ls : LoopState} (hd : env.deleteFails = fun _ => false)
    (hp : shouldPrune svc ls.errs = true) : (s.prune svc env ls).store.ownedNotIn svc ls.seen = [] := by
  simp only [prune, hp, ite_true, Store.deleteExternalServiceReposNotIn, hd, Bool.not_false, List.filter_true]
  rw [List.eq_nil_iff_forall_not_mem]
  intro i hi
  obtain ⟨y, hy, rfl⟩ := List.mem_map.mp hi
  obtain ⟨hy, hown⟩ := List.mem_filter.mp hy
  obtain ⟨x, hx, rfl⟩ := List.mem_map.mp hy
  by_cases hc : (ls.store.ownedNotIn svc ls.seen).contains x.id = true
  · rw [Store.dropOwner, if_pos hc] at hown
    simp at hown
  · rw [Store.dropOwner, if_neg hc] at hown
    exact hc (List.elem_eq_true_of_mem (List.mem_map_of_mem _ (List.mem_filter.mpr ⟨hx, hown⟩)))

/-- A prune that finds nothing unseen deletes nothing, leaves the rows as they are and
sends nothing. -/
theorem prune_nothing (env : PassEnv) (ls : LoopState)
    (h : shouldPrune svc ls.errs = true → ls.store.ownedNotIn svc ls.seen = []) :
    (s.prune svc env ls).store.repos = ls.store.repos ∧ (s.prune svc env ls).effects = [] ∧
      (s.prune svc env ls).deleted = [] := by
  simp only [prune, Store.deleteExternalServiceReposNotIn]
  split
  · rename_i hp
    simp only [h hp]
    exact ⟨List.map_id'' (fun _ => rfl) _, by simp [notifyDeleted, publish, Diff.len], rfl⟩
  · exact ⟨rfl, rfl, rfl⟩

theorem prune_externalServices (env : PassEnv) (ls : LoopState) :
    (s.prune svc env ls).store.externalServices = ls.store.externalServices := by
  unfold prune; split <;> rfl

theorem finishPass_outcome (m : Int) (env : PassEnv) {ls : LoopState} (hp : ls.panic = none) :
    (s.finishPass svc m env ls).outcome = some (outcome env ls (s.prune svc env ls)) := by
  unfold finishPass
  rw [hp]
  dsimp only
  split <;> rfl

/-- With no other writer, a pass that did not panic leaves the record of its service as
it read it, but for the schedule. -/
theorem finishPass_record (m : Int) (env : PassEnv) {ls : LoopState} (hp : ls.panic = none)
    (ho : env.others = []) (hsvc : ls.store.getExternalService svc.id = some svc) :
    ∃ last next : Int, (s.finishPass svc m env ls).store.getExternalService svc.id =
      some { svc with lastSyncAt := last, nextSyncAt := next } := by
  unfold finishPass
  rw [hp, ho]
  dsimp only [List.foldl]
  split
  · refine ⟨svc.lastSyncAt, svc.nextSyncAt, ?_⟩
    unfold Store.getExternalService Store.serviceRecord at hsvc ⊢
    rw [s.prune_externalServices svc env ls]
    exact hsvc
  · exact ⟨_, _, Store.getExternalService_upsert _ (Store.getExternalService_eq_some.mp hsvc).2⟩

/-- A pass of a stored service that is not cloud default, that gets its mode and whose
sourcer succeeds, runs the loop on the stored repos and finishes. -/
theorem syncExternalService_of_mode {st : Store} {id : Nat} (m : Int) (env : PassEnv) {mode : ExternalServiceMode}
    (hsvc : st.getExternalService id = some svc) (hcd : svc.cloudDefault = false)
    (hm : (if svc.namespaceUserId != 0 then env.userMode else some .all) = some mode)
    (he : env.sourcerErr = none) :
    s.syncExternalService st id m env =
      s.finishPass svc m env (s.syncLoop env.faults svc (allowedBy svc mode) (.init st) env.results) := by
  unfold syncExternalService
  rw [hsvc]
  dsimp only
  rw [if_neg (by simp [hcd]), hm, he]

/-- A pass of a stored service that gets no mode, or whose sourcer fails, returns before
the loop: it writes nothing, sends nothing and hands nothing to `calcSyncInterval`. -/
theorem syncExternalService_early {st : Store} {id : Nat} (m : Int) (env : PassEnv)
    (hsvc : st.getExternalService id = some svc)
    (h : (if svc.namespaceUserId != 0 then env.userMode else some .all) = none ∨ env.sourcerErr ≠ none) :
    (s.syncExternalService st id m env).store = st ∧ (s.syncExternalService st id m env).effects = [] ∧
      (s.syncExternalService st id m env).outcome = none := by
  unfold syncExternalService
  rw [hsvc]
  dsimp only
  split
  · exact ⟨rfl, rfl, rfl⟩
  rcases h with h | h
  · rw [h]; exact ⟨rfl, rfl, rfl⟩
  · obtain ⟨c, hc⟩ := Option.ne_none_iff_exists'.mp h
    cases (if svc.namespaceUserId != 0 then env.userMode else some .all) with
    | none => exact ⟨rfl, rfl, rfl⟩
    | some mode => rw [hc]; exact ⟨rfl, rfl, rfl⟩

end Syncer

theorem Store.ownedNotIn_congr {st st' : Store} (h : st'.repos = st.repos) (svc : ExternalService)
    (seen : List Nat) : st'.ownedNotIn svc seen = st.ownedNotIn svc seen := by
  simp only [Store.ownedNotIn, h]

/-! ## The second pass -/

namespace Syncer

variable (s : Syncer)

/-- **A second pass over the same listing changes nothing.** For any store with unique
names and specs, any stored service that is not cloud default, and any listing of
repositories of distinct names and distinct specs whose repos name only the service as
owner: after a first pass over the listing with no sourcer error, no store failure and
no other writer, a second pass over the same listing with no store failure, whatever
its clock, its sourcer and the writes to the service table during it, leaves every
repo row as the first pass left it, publishes only diffs with nothing added, modified
or deleted, and reports to `calcSyncInterval` that it changed no repo. -/
theorem second_pass_unmodified {st : Store} {id : Nat} {svc : ExternalService} (m : Int) (L : List Repo)
    (env₁ env₂ : PassEnv) (h : st.UniqueKeys) (hsvc : st.getExternalService id = some svc)
    (hcd : svc.cloudDefault = false) (hnames : (L.map (·.name)).Nodup)
    (hspecs : (L.map (·.externalRepo)).Nodup) (hsrc : ∀ r ∈ L, r.sources ⊆ [svc.source])
    (hr₁ : env₁.results = L.map .repo) (hr₂ : env₂.results = L.map .repo)
    (hmode : env₂.userMode = env₁.userMode) (he₁ : env₁.sourcerErr = none)
    (hf₁ : env₁.faults = fun _ => {}) (hf₂ : env₂.faults = fun _ => {})
    (hd₁ : env₁.deleteFails = fun _ => false) (ho₁ : env₁.others = []) :
    (s.syncExternalService (s.syncExternalService st id m env₁).store id m env₂).store.repos =
        (s.syncExternalService st id m env₁).store.repos ∧
      (∀ d, .publish d ∈ (s.syncExternalService (s.syncExternalService st id m env₁).store id m env₂).effects →
        d.added = [] ∧ d.modified = [] ∧ d.deleted = []) ∧
      ∀ o, (s.syncExternalService (s.syncExternalService st id m env₁).store id m env₂).outcome = some o →
        o.modified = false := by
  obtain rfl := Store.getExternalService_id hsvc
  cases hm : (if svc.namespaceUserId != 0 then env₁.userMode else some .all) with
  | none =>
    obtain ⟨h₁, -, -⟩ := s.syncExternalService_early svc m env₁ hsvc (.inl hm)
    rw [h₁]
    obtain ⟨h₂, he₂, ho₂⟩ := s.syncExternalService_early svc m env₂ hsvc (.inl (by rw [hmode]; exact hm))
    exact ⟨by rw [h₂], fun d hd => by simp [he₂] at hd, fun o ho => by simp [ho₂] at ho⟩
  | some mode =>
    rw [s.syncExternalService_of_mode svc m env₁ hsvc hcd hm he₁, hr₁, hf₁]
    set F₁ := s.syncLoop (fun _ => {}) svc (allowedBy svc mode) (.init st) (L.map .repo)
    have inv₁ : LoopInv F₁ := s.syncLoop_inv _ svc _ _ _ h rfl rfl rfl rfl
    have hfat := s.syncLoop_fatalAll svc (fun _ => {}) (allowedBy svc mode) h L
    have hrows₁ := (s.finishPass_store_of_noPanic svc m env₁ inv₁.noPanic).1
    have hsvc₁ : F₁.store.getExternalService svc.id = some svc := by
      unfold Store.getExternalService Store.serviceRecord at hsvc ⊢
      rw [s.syncLoop_externalServices]
      exact hsvc
    obtain ⟨last, next, hsvc₂⟩ := s.finishPass_record svc m env₁ inv₁.noPanic ho₁ hsvc₁
    have hm₂ : (if svc.namespaceUserId != 0 then env₂.userMode else some .all) = some mode := by
      rw [hmode]; exact hm
    cases hs₂ : env₂.sourcerErr with
    | some c =>
      obtain ⟨h₂, he₂, ho₂⟩ := s.syncExternalService_early _ m env₂ hsvc₂ (.inr (by simp [hs₂]))
      exact ⟨by rw [h₂], fun d hd => by simp [he₂] at hd, fun o ho => by simp [ho₂] at ho⟩
    | none =>
      rw [s.syncExternalService_of_mode _ m env₂ hsvc₂ hcd hm₂ hs₂, hr₂, hf₂,
        show allowedBy { svc with lastSyncAt := last, nextSyncAt := next } mode = allowedBy svc mode from rfl]
      set R₁ := s.finishPass svc m env₁ F₁
      have hA : Agrees (.init st) F₁ R₁.store :=
        ⟨fun n row hS hrow => (s.prune_settled svc env₁ hS hrow).congr hrows₁,
          fun he => hrows₁.trans (congrArg Store.repos (s.prune_of_errs svc env₁ he hfat))⟩
      have hR := s.syncLoop_replays svc (allowedBy svc mode) { svc with lastSyncAt := last, nextSyncAt := next }
        rfl rfl L hnames hspecs hsrc (.init st) (.init R₁.store) h hA
      set F₂ := s.syncLoop (fun _ => {}) { svc with lastSyncAt := last, nextSyncAt := next }
        (allowedBy svc mode) (.init R₁.store) (L.map .repo)
      obtain ⟨δ, hδ₁, hδ₂⟩ := hR.seen
      obtain ⟨ε, hε₁, hε₂⟩ := hR.errs
      have hseen : F₂.seen = F₁.seen := by rw [hδ₁, hδ₂]; rfl
      have herrs : F₂.errs = F₁.errs := by rw [hε₁, hε₂]; rfl
      obtain ⟨hp₂, hpe₂, hpd₂⟩ := s.prune_nothing { svc with lastSyncAt := last, nextSyncAt := next } env₂ F₂
        fun hp => by
          rw [hR.store, hseen]
          rw [herrs] at hp
          exact (Store.ownedNotIn_congr hrows₁ svc F₁.seen).trans (s.prune_ownedNotIn svc env₁ hd₁ hp)
      obtain ⟨hrows₂, -, heffs₂⟩ := s.finishPass_store_of_noPanic _ m env₂ hR.panic
      refine ⟨hrows₂.trans (hp₂.trans (congrArg Store.repos hR.store)), fun d hd => ?_, fun o ho => ?_⟩
      · rw [heffs₂, hpe₂, List.append_nil] at hd
        exact (hR.unmodified d hd).resolve_left (by simp [LoopState.init])
      · rw [s.finishPass_outcome _ m env₂ hR.panic, Option.some.injEq] at ho
        subst ho
        simp [outcome, hR.modified, hpd₂, LoopState.init]

end Syncer

/-! ## The rename listing twice -/

/-- A listing that renames row 1 to the name of row 2 and adds a new repo. -/
def renameListing : List Repo := [renamedRepo, githubRow 0 "github.com/o/e" "MDe"]

/-- A pass over the rename listing with no failure. -/
def renameListingEnv : PassEnv :=
  ⟨none, none, renameListing.map .repo, fun _ => {}, fun _ => false, false, 100, []⟩

theorem second_pass_unmodified_rename :
    (testSyncer.syncExternalService (testSyncer.syncExternalService renameStore 1 60 renameListingEnv).store 1 60
        renameListingEnv).store.repos = (testSyncer.syncExternalService renameStore 1 60 renameListingEnv).store.repos ∧
      (∀ d, .publish d ∈ (testSyncer.syncExternalService
          (testSyncer.syncExternalService renameStore 1 60 renameListingEnv).store 1 60 renameListingEnv).effects →
        d.added = [] ∧ d.modified = [] ∧ d.deleted = []) ∧
      ∀ o, (testSyncer.syncExternalService (testSyncer.syncExternalService renameStore 1 60 renameListingEnv).store 1 60
          renameListingEnv).outcome = some o → o.modified = false :=
  Syncer.second_pass_unmodified testSyncer 60 renameListing renameListingEnv renameListingEnv renameStore_uniqueKeys
    rfl rfl (by decide) (by decide) (by decide) rfl rfl rfl rfl rfl rfl rfl rfl

/-- The first pass over the rename listing does change the rows. -/
example : (testSyncer.syncExternalService renameStore 1 60 renameListingEnv).store.repos ≠ renameStore.repos := by
  decide

end Sourcegraph.Repos
