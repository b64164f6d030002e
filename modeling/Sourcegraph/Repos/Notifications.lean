import Sourcegraph.Repos.PassSchedule
import Sourcegraph.Repos.SyncGroup

/-! What a reader of `Synced` learns about the repo table. From startup, when
`initialUnmodifiedDiffFromStore` sends the stored repos as unmodified, the reconciler
runs `SyncExternalService` passes and `SyncRepo` lazy syncs one after the other. A
consumer that starts empty and folds every diff it receives (inserting the ids of
`Added`, `Modified` and `Unmodified`, removing those of `Deleted`) never holds the id
of a soft-deleted row: every id it holds is live, or its row is gone from the table,
as the loser of a name conflict is, whose delete `sync` never announces. It holds
every live id when no row was blocked at startup and every deletion an operation
announces has left its repo deleted. -/

namespace Sourcegraph.Repos

/-! ## The consumer -/

/-- The ids a diff announces live: those of `Added`, `Modified` and `Unmodified`. -/
def Diff.liveIds (d : Diff) : List Nat := (d.added ++ d.modified ++ d.unmodified).map (·.id)

/-- The ids a diff announces deleted. -/
def Diff.deletedIds (d : Diff) : List Nat := d.deleted.map (·.id)

/-- A consumer holding `K` after it receives `d`: the ids of `d.liveIds` inserted,
those of `d.deletedIds` removed. -/
def Diff.applyTo (d : Diff) (K : List Nat) : List Nat :=
  (K ++ d.liveIds).filter fun x => !d.deletedIds.contains x

/-- The consumer after one effect: only a diff sent on `Synced` changes it. -/
def receive (K : List Nat) : Effect → List Nat
  | .publish d => d.applyTo K
  | _ => K

/-- The consumer after a run of effects, in order. -/
def consume (K : List Nat) (effs : List Effect) : List Nat := effs.foldl receive K

/-- The ids announced deleted along a run of effects. -/
def deletedIds (effs : List Effect) : List Nat :=
  effs.flatMap fun | .publish d => d.deletedIds | _ => []

theorem Diff.mem_applyTo {d : Diff} {K : List Nat} {x : Nat} :
    x ∈ d.applyTo K ↔ (x ∈ K ∨ x ∈ d.liveIds) ∧ x ∉ d.deletedIds := by
  simp [applyTo, or_and_right]

@[simp] theorem consume_append (K : List Nat) (a b : List Effect) :
    consume K (a ++ b) = consume (consume K a) b := List.foldl_append _ _ _ _

@[simp] theorem consume_cons (K : List Nat) (e : Effect) (effs : List Effect) :
    consume K (e :: effs) = consume (receive K e) effs := rfl

@[simp] theorem consume_nil (K : List Nat) : consume K [] = K := rfl

@[simp] theorem deletedIds_append (a b : List Effect) :
    deletedIds (a ++ b) = deletedIds a ++ deletedIds b := List.flatMap_append _ _ _

/-- What a committed apply sends: its diff, received whole when `Synced` is set. -/
theorem consume_commit_publish {s : Syncer} (hs : s.synced = true) {d : Diff} (hd : d.len = 1)
    (K : List Nat) : consume K (.commit :: s.publish d) = d.applyTo K := by
  simp [Syncer.publish, hs, hd, receive]

/-- `notifyDeleted` removes exactly its ids from the consumer when `Synced` is set. -/
theorem consume_notifyDeleted {s : Syncer} (hs : s.synced = true) (D K : List Nat) :
    consume K (s.notifyDeleted D) = K.filter fun x => !D.contains x := by
  cases D with
  | nil => simp [Syncer.notifyDeleted, Syncer.publish, Diff.len]
  | cons i D =>
    simp [Syncer.notifyDeleted, Syncer.publish, hs, Diff.len, receive, Diff.applyTo, Diff.liveIds,
      Diff.deletedIds, Function.comp_def]

theorem deletedIds_notifyDeleted {s : Syncer} (hs : s.synced = true) (D : List Nat) :
    deletedIds (s.notifyDeleted D) = D := by
  cases D <;> simp [Syncer.notifyDeleted, Syncer.publish, hs, Diff.len, deletedIds, Diff.deletedIds,
    Function.comp_def]

/-! ## Live rows -/

namespace Store

/-- The ids of the rows of the table, deleted or not. -/
def ids (st : Store) : List Nat := st.repos.map (·.id)

/-- The ids of the rows that are not deleted. -/
def liveIds (st : Store) : List Nat := (st.repos.filter (!·.deleted)).map (·.id)

variable {st : Store} {x : Nat}

theorem mem_liveIds : x ∈ st.liveIds ↔ ∃ r ∈ st.repos, r.deleted = false ∧ r.id = x := by
  simp [liveIds, and_assoc]

theorem lt_nextId_of_mem_ids (h : x ∈ st.ids) : x < st.nextId := by
  obtain ⟨r, hr, rfl⟩ := List.mem_map.mp h
  exact st.ids_lt r hr

theorem liveIds_congr {st' : Store} (h : st'.repos = st.repos) : st'.liveIds = st.liveIds := by
  simp [liveIds, h]

theorem ids_congr {st' : Store} (h : st'.repos = st.repos) : st'.ids = st.ids := by
  simp [ids, h]

variable (svc : ExternalService)

@[simp] theorem liveIds_create (r : Repo) :
    (st.createExternalServiceRepo svc r).liveIds = st.liveIds ++ [st.nextId] := by
  simp [liveIds, newRow]

@[simp] theorem ids_create (r : Repo) :
    (st.createExternalServiceRepo svc r).ids = st.ids ++ [st.nextId] := by
  simp [ids, newRow]

theorem mem_ids_deleteRepo {c : Nat} : x ∈ (st.deleteRepo c).ids ↔ x ∈ st.ids ∧ x ≠ c := by
  simp only [ids, deleteRepo_repos, List.mem_map, List.mem_filter, bne_iff_ne, ne_eq]
  constructor
  · rintro ⟨r, ⟨hr, hc⟩, rfl⟩; exact ⟨⟨r, hr, rfl⟩, hc⟩
  · rintro ⟨⟨r, hr, rfl⟩, hc⟩; exact ⟨r, ⟨hr, hc⟩, rfl⟩

theorem mem_liveIds_deleteRepo {c : Nat} : x ∈ (st.deleteRepo c).liveIds ↔ x ∈ st.liveIds ∧ x ≠ c := by
  simp only [mem_liveIds, deleteRepo_repos, List.mem_filter, bne_iff_ne, ne_eq]
  constructor
  · rintro ⟨r, ⟨hr, hc⟩, hd, rfl⟩; exact ⟨⟨r, hr, hd, rfl⟩, hc⟩
  · rintro ⟨⟨r, hr, hd, rfl⟩, hc⟩; exact ⟨r, ⟨hr, hc⟩, hd, rfl⟩

@[simp] theorem ids_update (r : Repo) : (st.updateExternalServiceRepo svc r).ids = st.ids := by
  simp only [ids, updateExternalServiceRepo_repos, List.map_map]
  congr 1; funext x; simp only [Function.comp_apply, writeRow]; split <;> simp_all

/-- Writing a live row over a stored row of its id makes that id live and leaves the
others as they were. -/
theorem mem_liveIds_update {r : Repo} (hd : r.deleted = false) (hid : r.id ∈ st.ids) :
    x ∈ (st.updateExternalServiceRepo svc r).liveIds ↔ x ∈ st.liveIds ∨ x = r.id := by
  simp only [mem_liveIds, updateExternalServiceRepo_repos, List.mem_map]
  constructor
  · rintro ⟨_, ⟨y, hy, rfl⟩, hd', rfl⟩
    unfold writeRow at hd' ⊢
    split
    · exact .inr rfl
    · simp_all only [if_false]; exact .inl ⟨y, hy, hd', rfl⟩
  · rintro (⟨y, hy, hdy, rfl⟩ | rfl)
    · refine ⟨_, ⟨y, hy, rfl⟩, ?_⟩
      unfold writeRow; split <;> simp_all
    · obtain ⟨y, hy, hyr⟩ := List.mem_map.mp hid
      exact ⟨_, ⟨y, hy, rfl⟩, by simp [writeRow, hyr, hd]⟩

/-- `st'` is `st` with at most the rows of `D` deleted: no row comes or goes, and the
others keep their state. -/
structure DropsWithin (D : List Nat) (st st' : Store) : Prop where
  ids : st'.ids = st.ids
  nextId : st'.nextId = st.nextId
  live : ∀ x ∈ st'.liveIds, x ∈ st.liveIds
  keep : ∀ x ∈ st.liveIds, x ∉ D → x ∈ st'.liveIds

theorem DropsWithin.refl (D : List Nat) (st : Store) : DropsWithin D st st :=
  ⟨rfl, rfl, fun _ => id, fun _ h _ => h⟩

theorem dropsWithin_deleteExternalServiceRepos (D : List Nat) :
    DropsWithin D st (st.deleteExternalServiceRepos svc D) where
  ids := by simp [ids, Function.comp_def]
  nextId := rfl
  live x h := by
    obtain ⟨_, ⟨r, hr, rfl⟩, hd, rfl⟩ := by simpa only [mem_liveIds, deleteExternalServiceRepos_repos,
      List.mem_map] using h
    refine mem_liveIds.mpr ⟨r, hr, ?_, by simp⟩
    unfold dropOwner at hd; split at hd <;> simp_all
  keep x h hx := by
    obtain ⟨r, hr, hd, rfl⟩ := mem_liveIds.mp h
    refine mem_liveIds.mpr ⟨_, List.mem_map_of_mem _ hr, ?_, by simp⟩
    simp [dropOwner, hx, hd]

end Store

/-! ## The consumer against the store -/

/-- The consumer's ids `K` against the store: each is below the id sequence, and is
live or its row is gone from the table. -/
structure Tracks (K : List Nat) (st : Store) : Prop where
  lt : ∀ x ∈ K, x < st.nextId
  held : ∀ x ∈ K, x ∈ st.liveIds ∨ x ∉ st.ids

theorem Tracks.congr {K : List Nat} {st st' : Store} (h : Tracks K st) (hr : st'.repos = st.repos)
    (hn : st'.nextId = st.nextId) : Tracks K st' where
  lt x hx := hn ▸ h.lt x hx
  held x hx := by rw [Store.liveIds_congr hr, Store.ids_congr hr]; exact h.held x hx

/-- The consumer goes from `K` to `K'` while the store goes from `st` to `st'`: `Tracks`
is kept, and so is holding every live id when `ok` holds. -/
structure Follows (ok : Prop) (K : List Nat) (st : Store) (K' : List Nat) (st' : Store) : Prop where
  tracks : Tracks K st → Tracks K' st'
  covers : ok → st.liveIds ⊆ K → st'.liveIds ⊆ K'

namespace Follows

variable {p q : Prop} {K K' K'' : List Nat} {st st' st'' : Store}

theorem refl (p : Prop) (K : List Nat) (st : Store) : Follows p K st K st := ⟨id, fun _ => id⟩

theorem trans (h : Follows p K st K' st') (h' : Follows q K' st' K'' st'') :
    Follows (p ∧ q) K st K'' st'' :=
  ⟨h'.tracks ∘ h.tracks, fun hpq hc => h'.covers hpq.2 (h.covers hpq.1 hc)⟩

theorem weaken (h : Follows p K st K' st') (hqp : q → p) : Follows q K st K' st' :=
  ⟨h.tracks, fun hq => h.covers (hqp hq)⟩

theorem congr (h : Follows p K st K' st') {st₂ : Store} (hr : st₂.repos = st'.repos)
    (hn : st₂.nextId = st'.nextId) : Follows p K st K' st₂ :=
  ⟨fun ht => (h.tracks ht).congr hr hn, fun hp hc => by rw [Store.liveIds_congr hr]; exact h.covers hp hc⟩

/-- A write that makes the id `i` live and leaves the other rows as they were, with
new rows only at the end of the id sequence, while the consumer adds `i`. -/
theorem announce {i : Nat} (hK : ∀ x, x ∈ K' ↔ x ∈ K ∨ x = i)
    (hlive : ∀ x, x ∈ st'.liveIds ↔ x ∈ st.liveIds ∨ x = i) (hids : ∀ x ∈ st'.ids, x ∈ st.ids ∨ x = i)
    (hi : i ∈ st.ids ∨ st.nextId ≤ i) (hn : st.nextId ≤ st'.nextId) (hin : i < st'.nextId) :
    Follows p K st K' st' where
  tracks ht := by
    refine ⟨fun x hx => ?_, fun x hx => ?_⟩ <;> rcases (hK x).mp hx with hx | rfl
    · exact lt_of_lt_of_le (ht.lt x hx) hn
    · exact hin
    · refine (ht.held x hx).imp (fun h => (hlive x).mpr (.inl h)) fun h h' => ?_
      rcases hids x h' with h'' | rfl
      · exact h h''
      · exact hi.elim h fun hi => absurd (ht.lt _ hx) (not_lt.mpr hi)
    · exact .inl ((hlive _).mpr (.inr rfl))
  covers _ hc x hx := (hK x).mpr (((hlive x).mp hx).imp (fun h => hc h) id)

/-- The conflict delete: a row leaves the table, unannounced. -/
theorem deleteRepo (c : Nat) : Follows p K st K (st.deleteRepo c) where
  tracks ht := ⟨ht.lt, fun x hx => by
    by_cases hxc : x = c
    · exact .inr fun h => (Store.mem_ids_deleteRepo.mp h).2 hxc
    · exact (ht.held x hx).imp (fun h => Store.mem_liveIds_deleteRepo.mpr ⟨h, hxc⟩)
        fun h h' => h (Store.mem_ids_deleteRepo.mp h').1⟩
  covers _ hc _ hx := hc (Store.mem_liveIds_deleteRepo.mp hx).1

/-- A delete of the rows of `D`, which may have failed, announced by `notifyDeleted`. -/
theorem drop {s : Syncer} (hs : s.synced = true) {D : List Nat} (hd : Store.DropsWithin D st st') :
    Follows (∀ x ∈ D, x ∉ st'.liveIds) K st (consume K (s.notifyDeleted D)) st' := by
  rw [consume_notifyDeleted hs]
  refine ⟨fun ht => ⟨fun x hx => ?_, fun x hx => ?_⟩, fun hok hc x hx => ?_⟩
  · rw [hd.nextId]; exact ht.lt x (List.mem_filter.mp hx).1
  · obtain ⟨hx, hxD⟩ := List.mem_filter.mp hx
    rw [hd.ids]
    exact (ht.held x hx).imp_left fun h => hd.keep x h (by simpa using hxD)
  · exact List.mem_filter.mpr ⟨hc (hd.live x hx), by simpa using fun h => hok x h hx⟩

end Follows

/-! ## One apply -/

namespace Syncer

variable (s : Syncer) (f : Faults) (svc : ExternalService) (sourced : Repo) {p : Prop}
  {st : Store} {K : List Nat}

theorem syncUpdate_follows {tx tx' : Store} {row : Repo} {d : Diff} (hrow : row ∈ tx.repos)
    (h : syncUpdate f tx svc sourced row = (.ok d, tx')) : Follows p K tx (d.applyTo K) tx' := by
  have hid : row.id ∈ tx.ids := List.mem_map_of_mem _ hrow
  rcases syncUpdate_ok f tx svc sourced h with ⟨hc, rfl, htx⟩ | ⟨-, rfl, rfl⟩
  · subst tx'
    have hl : row.id ∈ tx.liveIds := by
      refine Store.mem_liveIds.mpr ⟨row, hrow, ?_, rfl⟩
      rw [← Repo.update_fst_of_snd hc]; rfl
    exact .announce (fun x => by simp [Diff.mem_applyTo, Diff.liveIds, Diff.deletedIds])
      (fun x => ⟨.inl, fun h => h.elim id (· ▸ hl)⟩) (fun x h => .inl h) (.inl hid) le_rfl
      (Store.lt_nextId_of_mem_ids hid)
  · exact .announce (fun x => by simp [Diff.mem_applyTo, Diff.liveIds, Diff.deletedIds])
      (fun x => Store.mem_liveIds_update svc rfl hid) (fun x h => .inl (by simpa using h)) (.inl hid)
      le_rfl (Store.lt_nextId_of_mem_ids hid :)

/-- Every body of `sync` that returns a diff announces in it what it wrote. -/
theorem syncTx_follows {tx' : Store} {d : Diff} (h : s.syncTx f st svc sourced = (.ok d, tx')) :
    Follows p K st (d.applyTo K) tx' := by
  rcases s.syncTx_ok f st svc sourced h with ⟨-, -, rfl, rfl⟩ | ⟨row, hl, h⟩ | ⟨a, b, c, e, hl, hp, h⟩
  · exact .announce (fun x => by simp [Diff.mem_applyTo, Diff.liveIds, Diff.deletedIds, Store.newRow])
      (fun x => by simp) (fun x h => by simpa using h) (.inr le_rfl) (Nat.le_succ _) (Nat.lt_succ_self _)
  · exact syncUpdate_follows f svc sourced (Store.mem_listByNameOrSpec.mp (hl ▸ List.mem_singleton_self row)).1 h
  · have he : e ∈ (st.deleteRepo c.id).repos :=
      (Store.mem_listByNameOrSpec.mp (lookup_deleteRepo_pickConflict hl hp ▸ List.mem_singleton_self e)).1
    exact ((Follows.deleteRepo c.id).trans (syncUpdate_follows f svc sourced he h)).weaken fun h => ⟨h, h⟩

/-- A body of `sync` that panics has at most deleted the conflicting row. -/
theorem syncTx_panic_store {msg : String} {tx : Store} (h : s.syncTx f st svc sourced = (.panic msg, tx)) :
    tx = st ∨ ∃ c, tx = st.deleteRepo c := by
  unfold syncTx at h
  split at h
  · cases h
  split at h
  · exact absurd (congrArg Prod.fst h) (s.syncCreate_ne_panic f svc sourced st msg)
  · exact absurd (congrArg Prod.fst h) (syncUpdate_ne_panic f svc sourced st _ msg)
  · unfold syncConflict at h
    split at h
    · exact .inl (Prod.mk.inj h).2.symm
    · split at h
      · cases h
      · split at h
        · exact .inr ⟨_, (Prod.mk.inj h).2.symm⟩
        · exact absurd (congrArg Prod.fst h) (syncUpdate_ne_panic f svc sourced _ _ msg)
  · exact .inl (Prod.mk.inj h).2.symm

/-- **One apply.** With `Synced` set, every call of `sync` keeps the consumer in step
with the store: what it commits it announces, except the conflict delete. -/
theorem sync_follows (hs : s.synced = true) (st : Store) (K : List Nat) :
    Follows p K st (consume K (s.sync f st svc sourced).2.2) (s.sync f st svc sourced).2.1 := by
  unfold sync
  split
  · exact .refl ..
  split <;> rename_i heq
  · split
    · exact .refl ..
    · rw [consume_commit_publish hs (s.syncTx_ok_len f st svc sourced heq)]
      exact s.syncTx_follows f svc sourced heq
  · exact .refl ..
  · split
    · exact .refl ..
    · rcases s.syncTx_panic_store f svc sourced heq with rfl | ⟨c, rfl⟩
      · exact .refl ..
      · exact .deleteRepo c

end Syncer

/-! ## One pass -/

namespace Syncer

variable (s : Syncer) (svc : ExternalService) {p : Prop} {K : List Nat}

theorem prune_follows (hs : s.synced = true) (env : PassEnv) (ls : LoopState) :
    Follows (∀ x ∈ (s.prune svc env ls).deleted, x ∉ (s.prune svc env ls).store.liveIds) K ls.store
      (consume K (s.prune svc env ls).effects) (s.prune svc env ls).store := by
  simp only [prune, Store.deleteExternalServiceReposNotIn]
  split
  · exact .drop hs (Store.dropsWithin_deleteExternalServiceRepos svc _)
  · exact .refl ..

theorem deletedIds_prune (hs : s.synced = true) (env : PassEnv) (ls : LoopState) :
    deletedIds (s.prune svc env ls).effects = (s.prune svc env ls).deleted := by
  simp only [prune, Store.deleteExternalServiceReposNotIn]
  split
  · exact deletedIds_notifyDeleted hs _
  · rfl

/-- **One pass.** With `Synced` set, a pass keeps the consumer in step with the store;
it keeps every live id held when each deletion it announced left its repo deleted. -/
theorem syncExternalService_follows (hs : s.synced = true) (st : Store) (id : Nat) (m : Int)
    (env : PassEnv) (K : List Nat) :
    Follows (∀ x ∈ deletedIds (s.syncExternalService st id m env).effects,
        x ∉ (s.syncExternalService st id m env).store.liveIds)
      K st (consume K (s.syncExternalService st id m env).effects) (s.syncExternalService st id m env).store := by
  rcases s.syncExternalService_cases st id m env with ⟨errs, he⟩ | ⟨svc, mode, -, -, he⟩ <;> rw [he]
  · exact .refl ..
  set ls := s.syncLoop env.faults svc (allowedBy svc mode) (.init st) env.results
  have hl : Follows True K st (consume K ls.effects) ls.store :=
    s.syncLoop_keeps env.faults svc _ (fun effs st' => Follows True K st (consume K effs) st') env.results
      (fun f st' r effs _ h => by
        dsimp only at h ⊢
        rw [consume_append]
        exact (h.trans (s.sync_follows f svc r hs st' _)).weaken fun _ => ⟨trivial, trivial⟩)
      (.init st) (.refl ..)
  rcases s.finishPass_store_effects svc m env ls with ⟨hst, hef⟩ | ⟨hr, hn, hef⟩
  · rw [hst, hef]; exact hl.weaken fun _ => trivial
  · rw [hef, consume_append]
    refine ((hl.trans (s.prune_follows svc hs env ls)).congr hr hn).weaken fun hok => ⟨trivial, fun x hx => ?_⟩
    rw [← Store.liveIds_congr hr]
    exact hok x (by rw [deletedIds_append, deletedIds_prune s svc hs]; exact List.mem_append_right _ hx)

/-! ## One lazy sync -/

theorem fetchAndSync_follows (hs : s.synced = true) (st : Store) (env : LazyEnv) (K : List Nat) :
    Follows True K st (consume K (s.fetchAndSync st svc env).2.2) (s.fetchAndSync st svc env).2.1 := by
  unfold fetchAndSync
  split
  · exact .refl ..
  · rename_i repo _
    split
    · exact .refl ..
    · have h : Follows True K st (consume K (s.sync env.faults st svc repo).2.2) (s.sync env.faults st svc repo).2.1 :=
        s.sync_follows env.faults svc repo hs st K
      generalize s.sync env.faults st svc repo = r at h ⊢
      obtain ⟨ret, st', effs⟩ := r
      cases ret <;> exact h

theorem dropStored_follows (hs : s.synced = true) (stored : Option Repo) (fails : Bool) {st : Store}
    (res : LazyResult) (st' : Store) (effs : List Effect) (h : Follows True K st (consume K effs) st') :
    Follows (∀ x ∈ deletedIds (s.dropStored svc stored fails (res, st', effs)).2.2,
        x ∉ (s.dropStored svc stored fails (res, st', effs)).2.1.liveIds)
      K st (consume K (s.dropStored svc stored fails (res, st', effs)).2.2)
      (s.dropStored svc stored fails (res, st', effs)).2.1 := by
  cases res with
  | ok r => exact h.weaken fun _ => trivial
  | panic msg => exact h.weaken fun _ => trivial
  | error e =>
    cases stored with
    | none => exact h.weaken fun _ => trivial
    | some row =>
      simp only [dropStored]
      split
      · have hd : Store.DropsWithin [row.id] st'
            (if fails then st' else st'.deleteExternalServiceRepo svc row.id) := by
          split
          · exact .refl _ _
          · exact Store.dropsWithin_deleteExternalServiceRepos svc _
        rw [consume_append]
        refine (h.trans (.drop hs hd)).weaken fun hok => ⟨trivial, fun x hx => hok x ?_⟩
        simp [deletedIds_notifyDeleted hs, List.mem_singleton.mp hx]
      · exact h.weaken fun _ => trivial

/-- **One lazy sync.** With `Synced` set, `syncRepo` keeps the consumer in step with the
store; it keeps every live id held when the deletion it may announce left the repo
deleted. -/
theorem syncRepo_follows (hs : s.synced = true) (st : Store) (codehost : CodeHost) (stored : Option Repo)
    (env : LazyEnv) (K : List Nat) :
    Follows (∀ x ∈ deletedIds (s.syncRepo st codehost stored env).2.2,
        x ∉ (s.syncRepo st codehost stored env).2.1.liveIds)
      K st (consume K (s.syncRepo st codehost stored env).2.2) (s.syncRepo st codehost stored env).2.1 := by
  unfold syncRepo
  split
  · exact .refl ..
  · exact .refl ..
  · rename_i svc _
    split
    · exact .refl ..
    · split
      · exact .refl ..
      · have h := s.fetchAndSync_follows svc hs st env K
        generalize s.fetchAndSync st svc env = r at h ⊢
        obtain ⟨res, st', effs⟩ := r
        exact s.dropStored_follows svc hs stored env.deleteFails res st' effs h

end Syncer

/-! ## Runs from startup -/

/-- One operation of the reconciler after startup: a `SyncExternalService` pass, or a
`SyncRepo` lazy sync with the row its caller had stored. -/
inductive Op where
  | pass (externalServiceId : Nat) (minSyncInterval : Int) (env : PassEnv)
  | lazy (codehost : CodeHost) (stored : Option Repo) (env : LazyEnv)

/-- The store an operation leaves, and its effects. -/
def Op.run (s : Syncer) (st : Store) : Op → Store × List Effect
  | .pass id m env => ((s.syncExternalService st id m env).store, (s.syncExternalService st id m env).effects)
  | .lazy codehost stored env => (s.syncRepo st codehost stored env).2

/-- Operations one after the other, each on the store the previous one left. -/
def runOps (s : Syncer) : Store → List Op → Store × List Effect
  | st, [] => (st, [])
  | st, op :: ops => ((runOps s (op.run s st).1 ops).1, (op.run s st).2 ++ (runOps s (op.run s st).1 ops).2)

/-- Whether every operation of a run left deleted each repo whose deletion it announced. -/
def deletesLand (s : Syncer) : Store → List Op → Bool
  | _, [] => true
  | st, op :: ops =>
    (deletedIds (op.run s st).2).all (fun x => !(op.run s st).1.liveIds.contains x) &&
      deletesLand s (op.run s st).1 ops

namespace Syncer

/-- `initialUnmodifiedDiffFromStore`: with `Synced` set, the repos `RepoStore.List` returns
are sent as one unmodified diff, unless the listing fails. -/
def initialUnmodifiedDiffFromStore (s : Syncer) (st : Store) (listFails : Bool) : List Effect :=
  if !s.synced then []
  else if listFails then []
  else [.publish { unmodified := st.listRepos }]

/-- The reconciler from startup: the initial diff, then the operations in order. -/
def reconcile (s : Syncer) (st : Store) (listFails : Bool) (ops : List Op) : Store × List Effect :=
  ((runOps s st ops).1, s.initialUnmodifiedDiffFromStore st listFails ++ (runOps s st ops).2)

variable (s : Syncer)

theorem Op.run_follows (hs : s.synced = true) (op : Op) (st : Store) (K : List Nat) :
    Follows (∀ x ∈ deletedIds (op.run s st).2, x ∉ (op.run s st).1.liveIds) K st
      (consume K (op.run s st).2) (op.run s st).1 := by
  cases op with
  | pass id m env => exact s.syncExternalService_follows hs st id m env K
  | lazy codehost stored env => exact s.syncRepo_follows hs st codehost stored env K

theorem runOps_follows (hs : s.synced = true) (ops : List Op) :
    ∀ (st : Store) (K : List Nat),
      Follows (deletesLand s st ops = true) K st (consume K (runOps s st ops).2) (runOps s st ops).1 := by
  induction ops with
  | nil => exact fun st K => .refl ..
  | cons op ops ih =>
    intro st K
    rw [runOps, consume_append]
    refine ((Op.run_follows s hs op st K).trans (ih _ _)).weaken fun h => ?_
    simp only [deletesLand, Bool.and_eq_true, List.all_eq_true] at h
    exact ⟨fun x hx => by simpa using h.1 x hx, h.2⟩

/-- The initial diff holds the live ids of the rows that are not blocked, so every live
id when no live row is blocked. -/
theorem initial_tracks (st : Store) (listFails : Bool) :
    Tracks (consume [] (s.initialUnmodifiedDiffFromStore st listFails)) st ∧
      (s.synced = true → listFails = false → (st.repos.all fun r => r.deleted || !r.blocked) = true →
        st.liveIds ⊆ consume [] (s.initialUnmodifiedDiffFromStore st listFails)) := by
  unfold initialUnmodifiedDiffFromStore
  split_ifs with h₁ h₂
  · exact ⟨⟨nofun, nofun⟩, fun hs => by simp_all⟩
  · exact ⟨⟨nofun, nofun⟩, fun _ hl => by simp_all⟩
  · have hK : ∀ x, x ∈ consume [] [.publish { unmodified := st.listRepos }] ↔
        ∃ r ∈ st.repos, r.deleted = false ∧ r.blocked = false ∧ r.id = x := fun x => by
      simp [receive, Diff.mem_applyTo, Diff.liveIds, Diff.deletedIds, Store.listRepos, and_assoc]
    refine ⟨⟨fun x hx => ?_, fun x hx => ?_⟩, fun _ _ hb x hx => ?_⟩
    · obtain ⟨r, hr, -, -, rfl⟩ := (hK x).mp hx
      exact st.ids_lt r hr
    · obtain ⟨r, hr, hd, -, rfl⟩ := (hK x).mp hx
      exact .inl (Store.mem_liveIds.mpr ⟨r, hr, hd, rfl⟩)
    · obtain ⟨r, hr, hd, rfl⟩ := Store.mem_liveIds.mp hx
      exact (hK _).mpr ⟨r, hr, hd, by simpa [hd] using List.all_eq_true.mp hb r hr, rfl⟩

/-- **What the consumer holds.** With `Synced` set, after any run from startup, every
id the consumer holds is the id of a live repo or of no row at all, as a conflict
loser's is; and it holds the id of every live repo when the initial listing succeeded,
no live row was blocked at startup, and each operation left deleted every repo whose
deletion it announced. -/
theorem consumer_tracks_store (hs : s.synced = true) (st : Store) (listFails : Bool) (ops : List Op) :
    (∀ x ∈ consume [] (s.reconcile st listFails ops).2,
      x ∈ (s.reconcile st listFails ops).1.liveIds ∨ x ∉ (s.reconcile st listFails ops).1.ids) ∧
    (listFails = false → (st.repos.all fun r => r.deleted || !r.blocked) = true →
      deletesLand s st ops = true →
      (s.reconcile st listFails ops).1.liveIds ⊆ consume [] (s.reconcile st listFails ops).2) := by
  have h0 := s.initial_tracks st listFails
  have hr := s.runOps_follows hs ops st (consume [] (s.initialUnmodifiedDiffFromStore st listFails))
  simp only [reconcile, consume_append]
  exact ⟨(hr.tracks h0.1).held, fun hl hb hd => hr.covers hd (h0.2 hs hl hb)⟩

end Syncer

/-! ## A rename, and a lazy delete that fails -/

/-- The rename listing alone, with no error and no store failure. -/
def quietRenameEnv : PassEnv :=
  ⟨none, none, [.repo renamedRepo], fun _ => {}, fun _ => false, false, 100, []⟩

/-- The consumer law on the rename pass. -/
theorem consumer_tracks_store_rename :
    testSyncer.synced = true ∧
    (∀ x ∈ consume [] (testSyncer.reconcile renameStore false [.pass 1 60 quietRenameEnv]).2,
      x ∈ (testSyncer.reconcile renameStore false [.pass 1 60 quietRenameEnv]).1.liveIds ∨
        x ∉ (testSyncer.reconcile renameStore false [.pass 1 60 quietRenameEnv]).1.ids) ∧
    (false = false → (renameStore.repos.all fun r => r.deleted || !r.blocked) = true →
      deletesLand testSyncer renameStore [.pass 1 60 quietRenameEnv] = true →
      (testSyncer.reconcile renameStore false [.pass 1 60 quietRenameEnv]).1.liveIds ⊆
        consume [] (testSyncer.reconcile renameStore false [.pass 1 60 quietRenameEnv]).2) :=
  ⟨rfl, Syncer.consumer_tracks_store testSyncer rfl renameStore false _⟩

/-- The lazy repository stored under id 1, owned by the cloud default service. -/
def lazyRow : Repo := { lazyRepo with id := 1 }

/-- The store holding that row. -/
def lazyRowStore : Store := ⟨[lazyRow], 2, [cloudService], by decide, by decide⟩

/-- The code host says the repository is gone, and the deferred delete fails. -/
def goneEnv : LazyEnv := ⟨.ok (some cloudService), none, true, .error .notFound, {}, true⟩

set_option maxRecDepth 20000 in
/-- After the rename pass the consumer still holds `D`, whose row the conflict delete
removed without announcing it; after a lazy sync whose delete failed, the repository
is live and the consumer has dropped it. -/
theorem consumer_misses_loser_and_failed_delete :
    2 ∈ consume [] (testSyncer.reconcile renameStore false [.pass 1 60 quietRenameEnv]).2 ∧
      2 ∉ (testSyncer.reconcile renameStore false [.pass 1 60 quietRenameEnv]).1.liveIds ∧
    1 ∈ (testSyncer.reconcile lazyRowStore false [.lazy githubHost (some lazyRow) goneEnv]).1.liveIds ∧
      1 ∉ consume [] (testSyncer.reconcile lazyRowStore false [.lazy githubHost (some lazyRow) goneEnv]).2 :=
  ⟨by decide, by decide, by decide, by decide⟩

end Sourcegraph.Repos
