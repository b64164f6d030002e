import Sourcegraph.Repos.Notifications

/-! The relay thread of the repo-updater, `watchSyncer`. For every diff it receives on
`Synced` it hands the diff to the scheduler unless `DisableAutoGitUpdates` is set, hands
the ids of the private repos of `Added` and `Modified` to `ScheduleRepos` of the
permissions syncer when one is set, and starts a sync of the diff's repos on the
`GitolitePhabricatorMetadataSyncer` when one is set. It receives the diffs of a run from
startup (`reconcile`) in the order they are sent.

Proved here, for a syncer with `Synced` set, every store and every run of passes and lazy
syncs:

* `watchSyncer_schedules_private`: every repository that is live and private after the
  run, and was not at startup, has had its id handed to `ScheduleRepos`;
* `lazy_syncs_add_no_private`: a run of lazy syncs alone makes no repository live and
  private, since `SyncRepo` refuses a private repository before `sync`. -/

namespace Sourcegraph.Repos

/-- What `watchSyncer` reads besides the diffs: `conf.Get().DisableAutoGitUpdates`, and
whether a permissions syncer and a `GitolitePhabricatorMetadataSyncer` are set. -/
structure RelayConfig where
  disableAutoGitUpdates : Bool
  permsSyncer : Bool
  gps : Bool
  deriving DecidableEq, Repr

/-- A call the relay makes: `sched.UpdateFromDiff`, `permsSyncer.ScheduleRepos`, and the
goroutine that runs `gps.Sync`. -/
inductive RelayCall where
  | updateFromDiff (d : Diff)
  | scheduleRepos (ids : List Nat)
  | gpsSync (repos : List Repo)
  deriving DecidableEq, Repr

/-- The ids of the private repos of `Added`, then of `Modified`. -/
def Diff.privateIds (d : Diff) : List Nat :=
  (d.added.filter (·.isPrivate)).map (·.id) ++ (d.modified.filter (·.isPrivate)).map (·.id)

/-- The body of the loop for a diff received on `Synced`. -/
def relayDiff (cfg : RelayConfig) (d : Diff) : List RelayCall :=
  (if !cfg.disableAutoGitUpdates then [.updateFromDiff d] else []) ++
    (if cfg.permsSyncer then [.scheduleRepos d.privateIds] else []) ++
    (if cfg.gps then [.gpsSync d.repos] else [])

/-- `watchSyncer` over the effects of a run: a diff sent on `Synced` reaches it, nothing
else does. -/
def watchSyncer (cfg : RelayConfig) (effs : List Effect) : List RelayCall :=
  effs.flatMap fun | .publish d => relayDiff cfg d | _ => []

/-- The ids handed to `ScheduleRepos`. -/
def scheduledIds (calls : List RelayCall) : List Nat :=
  calls.flatMap fun | .scheduleRepos ids => ids | _ => []

@[simp] theorem watchSyncer_append (cfg : RelayConfig) (e e' : List Effect) :
    watchSyncer cfg (e ++ e') = watchSyncer cfg e ++ watchSyncer cfg e' := List.flatMap_append ..

@[simp] theorem scheduledIds_append (c c' : List RelayCall) :
    scheduledIds (c ++ c') = scheduledIds c ++ scheduledIds c' := List.flatMap_append ..

/-- With a permissions syncer, the relay schedules the private repos of each diff. -/
theorem scheduledIds_relayDiff {cfg : RelayConfig} (hp : cfg.permsSyncer = true) (d : Diff) :
    scheduledIds (relayDiff cfg d) = d.privateIds := by
  unfold relayDiff
  split_ifs <;> simp_all [scheduledIds]

/-! ## Private rows -/

namespace Store

/-- The ids of the rows that are live and private. -/
def privateIds (st : Store) : List Nat := (st.repos.filter fun r => !r.deleted && r.isPrivate).map (·.id)

theorem mem_privateIds {st : Store} {x : Nat} :
    x ∈ st.privateIds ↔ ∃ r ∈ st.repos, r.deleted = false ∧ r.isPrivate = true ∧ r.id = x := by
  simp [privateIds, and_assoc]

end Store

/-- From `st` to `st'`: every row live and private in `st'` was so in `st`, or its id is
in `S`. -/
def Grants (S : List Nat) (st st' : Store) : Prop := ∀ x ∈ st'.privateIds, x ∈ st.privateIds ∨ x ∈ S

namespace Grants

variable {S S' : List Nat} {st st' st'' : Store}

theorem refl (S : List Nat) (st : Store) : Grants S st st := fun _ h => .inl h

theorem trans (h : Grants S st st') (h' : Grants S' st' st'') : Grants (S ++ S') st st'' := fun x hx =>
  (h' x hx).elim (fun hx' => (h x hx').imp_right (List.mem_append_left _)) (.inr ∘ List.mem_append_right _)

theorem mono (h : Grants S st st') (hS : S ⊆ S') : Grants S' st st' := fun x hx => (h x hx).imp_right (@hS x)

/-- A write that makes no row private, after one that makes those of `S` private. -/
theorem then_nil (h : Grants S st st') (h' : Grants [] st' st'') (S' : List Nat) : Grants (S ++ S') st st'' :=
  (h.trans h').mono fun _ hx => List.mem_append_left _ (by simpa using hx)

theorem congr (h : Grants S st st') {st₂ : Store} (hr : st₂.repos = st'.repos) : Grants S st st₂ := fun x hx =>
  h x (by rwa [Store.privateIds, hr] at hx)

/-- A write each of whose rows is a row of the store before with its id, at least as
deleted and as private, or a row whose id is in `S` when it is private. -/
theorem of_rows (h : ∀ r' ∈ st'.repos, (∃ r ∈ st.repos, r.id = r'.id ∧ (r'.deleted = false → r.deleted = false) ∧
    r.isPrivate = r'.isPrivate) ∨ (r'.isPrivate = true → r'.id ∈ S)) : Grants S st st' := fun x hx => by
  obtain ⟨r', hr', hd, hp, rfl⟩ := Store.mem_privateIds.mp hx
  rcases h r' hr' with ⟨r, hr, hid, hdel, hpr⟩ | hS
  · exact .inl (Store.mem_privateIds.mpr ⟨r, hr, hdel hd, hpr ▸ hp, hid⟩)
  · exact .inr (hS hp)

end Grants

/-! ## The writes of the syncer -/

variable (svc : ExternalService) {st : Store} {S : List Nat}

theorem grants_deleteRepo (c : Nat) : Grants S st (st.deleteRepo c) :=
  .of_rows fun r' hr' => .inl ⟨r', (List.mem_filter.mp hr').1, rfl, id, rfl⟩

theorem grants_deleteExternalServiceRepos (ids : List Nat) : Grants S st (st.deleteExternalServiceRepos svc ids) :=
  .of_rows fun r' hr' => by
    obtain ⟨r, hr, rfl⟩ := List.mem_map.mp hr'
    refine .inl ⟨r, hr, ?_⟩
    unfold Store.dropOwner
    split <;> simp_all

theorem grants_create (r : Repo) :
    Grants ({ added := [st.newRow svc r] } : Diff).privateIds st (st.createExternalServiceRepo svc r) :=
  .of_rows fun r' hr' => by
    rcases List.mem_append.mp hr' with hr' | hr'
    · exact .inl ⟨r', hr', rfl, id, rfl⟩
    · obtain rfl := List.mem_singleton.mp hr'
      exact .inr fun hp => by simp [Diff.privateIds, hp]

theorem grants_update (u : Repo) :
    Grants ({ modified := [u] } : Diff).privateIds st (st.updateExternalServiceRepo svc u) :=
  .of_rows fun r' hr' => by
    obtain ⟨x, hx, rfl⟩ := List.mem_map.mp hr'
    unfold Store.writeRow
    split
    · exact .inr fun hp => by simp_all [Diff.privateIds]
    · exact .inl ⟨x, hx, rfl, id, rfl⟩

namespace Syncer

variable (s : Syncer) (f : Faults) (sourced : Repo)

theorem syncUpdate_grants {tx tx' : Store} {row : Repo} {d : Diff}
    (h : syncUpdate f tx svc sourced row = (.ok d, tx')) : Grants d.privateIds tx tx' := by
  rcases syncUpdate_ok f tx svc sourced h with ⟨-, rfl, rfl⟩ | ⟨-, rfl, rfl⟩
  · exact .refl _ _
  · exact grants_update svc _

/-- Every body of `sync` that returns a diff leaves private only rows that were, or rows
of the diff's `Added` and `Modified`. -/
theorem syncTx_grants {tx' : Store} {d : Diff} (h : s.syncTx f st svc sourced = (.ok d, tx')) :
    Grants d.privateIds st tx' := by
  rcases s.syncTx_ok f st svc sourced h with ⟨-, -, rfl, rfl⟩ | ⟨row, -, h⟩ | ⟨a, b, c, e, -, -, h⟩
  · exact grants_create svc sourced
  · exact syncUpdate_grants svc f sourced h
  · exact ((@grants_deleteRepo st [] c.id).trans (syncUpdate_grants svc f sourced h)).mono
      fun x hx => by simpa using hx

/-- Every call of `sync` leaves private only rows that were, or rows whose ids `G` reads
off its effects, when `G` reads off `Commit` and the publication of each committed diff
the diff's new private rows. -/
theorem sync_grants_of (G : List Effect → List Nat) (st : Store)
    (hok : ∀ {d : Diff} {tx' : Store}, s.syncTx f st svc sourced = (.ok d, tx') →
      Grants (G (.commit :: s.publish d)) st tx') :
    Grants (G (s.sync f st svc sourced).2.2) st (s.sync f st svc sourced).2.1 := by
  unfold sync
  split
  · exact .refl _ _
  split <;> rename_i heq
  · split
    · exact .refl _ _
    · exact hok heq
  · exact .refl _ _
  · split
    · exact .refl _ _
    · rcases s.syncTx_panic_store f svc sourced heq with rfl | ⟨c, rfl⟩
      · exact .refl _ _
      · exact grants_deleteRepo c

/-- **One apply.** With `Synced` set and a permissions syncer, every call of `sync` leaves
private only rows that were, or rows the relay schedules from what it sends. -/
theorem sync_grants (hs : s.synced = true) {cfg : RelayConfig} (hp : cfg.permsSyncer = true) (st : Store) :
    Grants (scheduledIds (watchSyncer cfg (s.sync f st svc sourced).2.2)) st (s.sync f st svc sourced).2.1 :=
  s.sync_grants_of svc f sourced (fun effs => scheduledIds (watchSyncer cfg effs)) st fun {d} {_} heq => by
    have hpub : watchSyncer cfg (.commit :: s.publish d) = relayDiff cfg d := by
      simp [publish, hs, s.syncTx_ok_len f st svc sourced heq, watchSyncer]
    simpa only [hpub, scheduledIds_relayDiff hp] using s.syncTx_grants svc f sourced heq

end Syncer

/-! ## Passes and lazy syncs -/

namespace Syncer

variable (s : Syncer) {cfg : RelayConfig}

theorem syncExternalService_grants (hs : s.synced = true) (hp : cfg.permsSyncer = true) (st : Store) (id : Nat)
    (m : Int) (env : PassEnv) :
    Grants (scheduledIds (watchSyncer cfg (s.syncExternalService st id m env).effects)) st
      (s.syncExternalService st id m env).store := by
  rcases s.syncExternalService_cases st id m env with ⟨errs, he⟩ | ⟨svc, mode, -, -, he⟩ <;> rw [he]
  · exact .refl _ _
  set ls := s.syncLoop env.faults svc (allowedBy svc mode) (.init st) env.results
  have hl : Grants (scheduledIds (watchSyncer cfg ls.effects)) st ls.store :=
    s.syncLoop_keeps env.faults svc _ (fun effs st' => Grants (scheduledIds (watchSyncer cfg effs)) st st')
      env.results (fun f st' r effs _ h => by
        dsimp only at h ⊢
        rw [watchSyncer_append, scheduledIds_append]
        exact h.trans (s.sync_grants svc f r hs hp st'))
      (.init st) (.refl _ _)
  have hprune : Grants [] ls.store (s.prune svc env ls).store := by
    simp only [prune, Store.deleteExternalServiceReposNotIn]
    split
    · exact grants_deleteExternalServiceRepos svc _
    · exact .refl _ _
  rcases s.finishPass_store_effects svc m env ls with ⟨hst, hef⟩ | ⟨hr, -, hef⟩
  · rw [hst, hef]; exact hl
  · rw [hef, watchSyncer_append, scheduledIds_append]
    exact (hl.then_nil hprune _).congr hr

section Lazy

/-! The lazy path, for any ids `G` reads off the effects: `GetRepo` adds none, and `G` of
effects one after the other is `G` of each. -/

variable (G : List Effect → List Nat)

theorem fetchAndSync_grants_of (hf : ∀ effs, G (.fetch :: effs) = G effs) (svc : ExternalService)
    (st : Store) (env : LazyEnv)
    (hsync : ∀ repo : Repo, repo.isPrivate = false →
      Grants (G (s.sync env.faults st svc repo).2.2) st (s.sync env.faults st svc repo).2.1) :
    Grants (G (s.fetchAndSync st svc env).2.2) st (s.fetchAndSync st svc env).2.1 := by
  unfold fetchAndSync
  split
  · exact .refl _ _
  · rename_i repo _
    split
    · exact .refl _ _
    · rename_i hpub
      have h := hsync repo (by simpa using hpub)
      generalize s.sync env.faults st svc repo = r at h ⊢
      obtain ⟨ret, st', effs⟩ := r
      cases ret <;> simpa only [hf] using h

theorem dropStored_grants (hG : ∀ e e', G (e ++ e') = G e ++ G e') (svc : ExternalService)
    (stored : Option Repo) (fails : Bool) {st : Store} (res : LazyResult) (st' : Store) (effs : List Effect)
    (h : Grants (G effs) st st') :
    Grants (G (s.dropStored svc stored fails (res, st', effs)).2.2) st
      (s.dropStored svc stored fails (res, st', effs)).2.1 := by
  cases res with
  | ok r => exact h
  | panic msg => exact h
  | error e =>
    cases stored with
    | none => exact h
    | some row =>
      simp only [dropStored]
      split
      · have hd : Grants [] st' (if fails then st' else st'.deleteExternalServiceRepo svc row.id) := by
          split
          · exact .refl _ _
          · exact grants_deleteExternalServiceRepos svc _
        rw [hG]
        exact h.then_nil hd _
      · exact h

theorem syncRepo_grants_of (hG : ∀ e e', G (e ++ e') = G e ++ G e') (st : Store) (codehost : CodeHost)
    (stored : Option Repo) (env : LazyEnv)
    (hfetch : ∀ svc, Grants (G (s.fetchAndSync st svc env).2.2) st (s.fetchAndSync st svc env).2.1) :
    Grants (G (s.syncRepo st codehost stored env).2.2) st (s.syncRepo st codehost stored env).2.1 := by
  unfold syncRepo
  split
  · exact .refl _ _
  · exact .refl _ _
  · rename_i svc _
    split
    · exact .refl _ _
    · split
      · exact .refl _ _
      · have h := hfetch svc
        generalize s.fetchAndSync st svc env = r at h ⊢
        obtain ⟨res, st', effs⟩ := r
        exact s.dropStored_grants G hG svc stored env.deleteFails res st' effs h

end Lazy

theorem syncRepo_grants (hs : s.synced = true) (hp : cfg.permsSyncer = true) (st : Store) (codehost : CodeHost)
    (stored : Option Repo) (env : LazyEnv) :
    Grants (scheduledIds (watchSyncer cfg (s.syncRepo st codehost stored env).2.2)) st
      (s.syncRepo st codehost stored env).2.1 :=
  s.syncRepo_grants_of (fun effs => scheduledIds (watchSyncer cfg effs)) (fun _ _ => by simp) st codehost stored
    env fun svc => s.fetchAndSync_grants_of (fun effs => scheduledIds (watchSyncer cfg effs))
      (fun _ => by simp [watchSyncer]) svc st env fun repo _ => s.sync_grants svc env.faults repo hs hp st

/-! ## Runs from startup -/

theorem runOps_grants (hs : s.synced = true) (hp : cfg.permsSyncer = true) :
    ∀ (ops : List Op) (st : Store), Grants (scheduledIds (watchSyncer cfg (runOps s st ops).2)) st (runOps s st ops).1
  | [], st => .refl _ _
  | op :: ops, st => by
    have hop : Grants (scheduledIds (watchSyncer cfg (op.run s st).2)) st (op.run s st).1 := by
      cases op with
      | pass id m env => exact s.syncExternalService_grants hs hp st id m env
      | lazy codehost stored env => exact s.syncRepo_grants hs hp st codehost stored env
    rw [runOps, watchSyncer_append, scheduledIds_append]
    exact hop.trans (runOps_grants hs hp ops _)

end Syncer

/-- A private repository the rename store does not hold. -/
def privateRepo : Repo := { githubRow 0 "github.com/o/e" "MDe" with isPrivate := true }

/-- A listing of the private repository, with no store failure. -/
def privateEnv : PassEnv := ⟨none, none, [.repo privateRepo], fun _ => {}, fun _ => false, false, 100, []⟩

/-- A relay with a permissions syncer and auto git updates on. -/
def permsRelay : RelayConfig := ⟨false, true, false⟩

namespace Syncer

variable (s : Syncer) (svc : ExternalService) (f : Faults) (sourced : Repo)

/-- The diff of a `sync` of a public repository names no private repo. -/
theorem syncTx_privateIds_public (hp : sourced.isPrivate = false) {st tx' : Store} {d : Diff}
    (h : s.syncTx f st svc sourced = (.ok d, tx')) : d.privateIds = [] := by
  have hu : ∀ {t : Store} {row : Repo}, syncUpdate f t svc sourced row = (.ok d, tx') → d.privateIds = [] :=
    fun h' => by
      rcases syncUpdate_ok f _ svc sourced h' with ⟨-, rfl, -⟩ | ⟨-, rfl, -⟩
      · rfl
      · simp [Diff.privateIds, Repo.update, hp]
  rcases s.syncTx_ok f st svc sourced h with ⟨-, -, rfl, -⟩ | ⟨_, -, h'⟩ | ⟨_, _, _, _, -, -, h'⟩
  · simp [Diff.privateIds, Store.newRow, hp]
  · exact hu h'
  · exact hu h'

/-- One lazy sync: `GetRepo`'s repository is synced only when public, and the deferred
delete only drops an owner. -/
theorem syncRepo_grants_nil (st : Store) (codehost : CodeHost) (stored : Option Repo) (env : LazyEnv) :
    Grants [] st (s.syncRepo st codehost stored env).2.1 :=
  s.syncRepo_grants_of (fun _ => []) (fun _ _ => rfl) st codehost stored env fun svc =>
    s.fetchAndSync_grants_of (fun _ => []) (fun _ => rfl) svc st env fun repo hp =>
      s.sync_grants_of svc env.faults repo (fun _ => []) st fun heq =>
        s.syncTx_privateIds_public svc env.faults repo hp heq ▸ s.syncTx_grants svc env.faults repo heq

/-- **The lazy path adds no private repository.** After any run of lazy `SyncRepo` calls,
from any store and with any store faults, every repository that is live and private was
live and private before: `syncRepo` drops a private repository before `sync`, so no lazy
sync creates a private row, or turns a row private by an update or a rename. -/
theorem lazy_syncs_add_no_private (st : Store) :
    ∀ calls : List (CodeHost × Option Repo × LazyEnv),
      ∀ x ∈ (runOps s st (calls.map fun c => .lazy c.1 c.2.1 c.2.2)).1.privateIds, x ∈ st.privateIds := by
  suffices h : ∀ (calls : List (CodeHost × Option Repo × LazyEnv)) (st : Store),
      Grants [] st (runOps s st (calls.map fun c => .lazy c.1 c.2.1 c.2.2)).1 from
    fun calls x hx => ((h calls st) x hx).resolve_right (List.not_mem_nil x)
  intro calls
  induction calls with
  | nil => exact fun st => .refl _ _
  | cons c calls ih => exact fun st => (s.syncRepo_grants_nil st c.1 c.2.1 c.2.2).trans (ih _)

end Syncer

/-- The lazy repository, stored private under id 1. -/
def privateLazyStore : Store := ⟨[{ lazyRow with isPrivate := true }], 2, [cloudService], by decide, by decide⟩

/-- `GetRepo` returns the private repository `E`. -/
def privateFetchEnv : LazyEnv := ⟨.ok (some cloudService), none, true, .ok privateRepo, {}, false⟩

/-- `syncRepo` refuses the private `E`: the only private row after the call is the stored one. -/
theorem lazy_syncs_add_no_private_refused :
    (runOps testSyncer privateLazyStore
        ([(githubHost, none, privateFetchEnv)].map fun c => .lazy c.1 c.2.1 c.2.2)).1.privateIds = [1] ∧
      1 ∈ (runOps testSyncer privateLazyStore
        ([(githubHost, none, privateFetchEnv)].map fun c => .lazy c.1 c.2.1 c.2.2)).1.privateIds ∧
      1 ∈ privateLazyStore.privateIds :=
  ⟨rfl, by decide, Syncer.lazy_syncs_add_no_private testSyncer privateLazyStore
    [(githubHost, none, privateFetchEnv)] 1 (by decide)⟩

end Sourcegraph.Repos
