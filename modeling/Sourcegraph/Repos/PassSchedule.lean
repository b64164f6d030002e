import Sourcegraph.Repos.ExternalServiceSync

/-! Runs of `SyncExternalService` passes of one service, each on the store the previous
one left. A pass that gets past the sourcer writes the service back with `LastSyncAt`
its clock and `NextSyncAt` that clock plus `calcSyncInterval` of what it did, so the
records a run writes are `schedule` of its outcomes, and each outcome's `modified` is
whether an apply added or modified a repo or the prune deleted one. `syncPasses_backoff`
carries the backoff laws of `Interval.lean` over to every run of passes. -/

namespace Sourcegraph.Repos

namespace Syncer

/-- Passes of service `id` one after the other, each on the store the previous one left. -/
def syncPasses (s : Syncer) (id : Nat) (m : Int) : Store → List PassEnv → List PassResult
  | _, [] => []
  | st, env :: envs =>
    let r := s.syncExternalService st id m env
    r :: s.syncPasses id m r.store envs

variable (s : Syncer) (svc : ExternalService)

/-! ## One pass -/

theorem finishPass_uniqueKeys (m : Int) (env : PassEnv) {ls : LoopState} (h : ls.store.UniqueKeys) :
    (s.finishPass svc m env ls).store.UniqueKeys := by
  unfold finishPass
  split
  · exact h
  · have hp : (s.prune svc env ls).store.UniqueKeys := by
      unfold prune
      split
      · exact h.deleteExternalServiceRepos svc _
      · exact h
    split <;> exact hp.of_repos_eq (by simp)

/-- Every pass keeps the unique keys. -/
theorem syncExternalService_uniqueKeys {st : Store} (id : Nat) (m : Int) (env : PassEnv)
    (h : st.UniqueKeys) : (s.syncExternalService st id m env).store.UniqueKeys := by
  rcases s.syncExternalService_cases st id m env with ⟨errs, he⟩ | ⟨svc, mode, -, -, he⟩ <;> rw [he]
  · exact h
  · exact s.finishPass_uniqueKeys svc m env (s.syncLoop_inv env.faults svc _ env.results (.init st) h rfl rfl rfl rfl).unique

/-- A call of `sync` returned a diff with `Added` or `Modified` exactly when one of the
returns `changes`. -/
theorem any_changes_iff (rets : List Return) :
    rets.any Return.changes = true ↔ ∃ d, Return.ok d ∈ rets ∧ (d.added ≠ [] ∨ d.modified ≠ []) := by
  have hc : ∀ r : Return, r.changes = true ↔ ∃ d, r = .ok d ∧ (d.added ≠ [] ∨ d.modified ≠ []) := by
    intro r
    cases r <;> simp [Return.changes, Nat.add_pos_iff_pos_or_pos, List.length_pos, or_comm]
  simp only [List.any_eq_true, hc]
  constructor
  · rintro ⟨_, hm, d, rfl, hd⟩; exact ⟨d, hm, hd⟩
  · rintro ⟨d, hm, hd⟩; exact ⟨_, hm, d, rfl, hd⟩

/-- A pass whose loop did not panic and whose `Upsert` succeeds returns the errors it
handed to `calcSyncInterval`, hands it as `modified` whether the loop's `modified` is set
or the prune deleted a row, and writes the service back with `LastSyncAt` its clock and
`NextSyncAt` that clock plus the interval. -/
theorem finishPass_writes (m : Int) (env : PassEnv) {ls : LoopState} (hp : ls.panic = none)
    (hu : env.upsertFails = false) (hd : svc.deletedAt = 0) :
    ∃ o : PassOutcome, (s.finishPass svc m env ls).outcome = some o ∧ o.now = env.now ∧
      (s.finishPass svc m env ls).errs = o.err ∧
      o.modified = (ls.modified || decide ((s.prune svc env ls).deleted.length > 0)) ∧
      (s.finishPass svc m env ls).store.getExternalService svc.id = some { svc with
        nextSyncAt := o.now + calcSyncInterval o.now svc.lastSyncAt m o.modified o.err,
        lastSyncAt := o.now } := by
  unfold finishPass
  rw [hp]
  simp only [hu, Bool.false_eq_true, ite_false]
  exact ⟨_, rfl, rfl, rfl, rfl, Store.getExternalService_upsert _ hd⟩

/-- The same for a whole pass of a stored service that is not cloud default, that reads
the user's mode when the service has a namespace user, and whose sourcer and `Upsert`
succeed: its `modified` is set exactly when an apply returned a diff with `Added` or
`Modified`, or the prune deleted a row. -/
theorem syncExternalService_writes {st : Store} {id : Nat} (m : Int) (env : PassEnv)
    (h : st.UniqueKeys) (hsvc : st.getExternalService id = some svc) (hcd : svc.cloudDefault = false)
    (hmode : svc.namespaceUserId ≠ 0 → env.userMode ≠ none) (hsrc : env.sourcerErr = none)
    (hu : env.upsertFails = false) :
    ∃ (o : PassOutcome) (ls : LoopState), (s.syncExternalService st id m env).outcome = some o ∧
      (s.syncExternalService st id m env).loop = some ls ∧ o.now = env.now ∧
      (s.syncExternalService st id m env).errs = o.err ∧
      (o.modified = true ↔ (∃ d, Return.ok d ∈ ls.returns ∧ (d.added ≠ [] ∨ d.modified ≠ [])) ∨
        (s.prune svc env ls).deleted ≠ []) ∧
      (s.syncExternalService st id m env).store.getExternalService id = some { svc with
        nextSyncAt := o.now + calcSyncInterval o.now svc.lastSyncAt m o.modified o.err,
        lastSyncAt := o.now } := by
  obtain ⟨mode, hm⟩ : ∃ mode : ExternalServiceMode,
      (if svc.namespaceUserId != 0 then env.userMode else some .all) = some mode := by
    split
    · rename_i hne
      exact Option.ne_none_iff_exists'.mp (hmode (by simpa using hne))
    · exact ⟨_, rfl⟩
  unfold syncExternalService
  rw [hsvc]
  dsimp only
  rw [if_neg (by simp [hcd]), hm, hsrc, ← Store.getExternalService_id hsvc]
  set ls := s.syncLoop env.faults svc (allowedBy svc mode) (.init st) env.results
  have inv := s.syncLoop_inv env.faults svc (allowedBy svc mode) env.results (.init st) h rfl rfl rfl rfl
  have hmod : ls.modified = ls.returns.any Return.changes :=
    s.syncLoop_modified env.faults svc (allowedBy svc mode) env.results (.init st) rfl
  obtain ⟨o, ho, hnow, herr, hmo, hrec⟩ :=
    s.finishPass_writes svc m env inv.noPanic hu (Store.getExternalService_eq_some.mp hsvc).2
  refine ⟨o, ls, ho, s.finishPass_loop svc m env ls, hnow, herr, ?_, hrec⟩
  rw [hmo, hmod, Bool.or_eq_true, any_changes_iff, decide_eq_true_eq, gt_iff_lt, List.length_pos]

/-- **What the final `Upsert` writes.** A pass of a stored service that is not cloud
default, that reads the user's mode when it needs it and whose sourcer and `Upsert`
succeed, writes back the record it read at the start with only `LastSyncAt` and
`NextSyncAt` changed, whatever other writers wrote to the record while it ran. -/
theorem upsert_writes_start_record {st : Store} {id : Nat} (m : Int) (env : PassEnv)
    (h : st.UniqueKeys) (hsvc : st.getExternalService id = some svc) (hcd : svc.cloudDefault = false)
    (hmode : svc.namespaceUserId ≠ 0 → env.userMode ≠ none) (hsrc : env.sourcerErr = none)
    (hu : env.upsertFails = false) :
    ∃ last next : Int, (s.syncExternalService st id m env).store.getExternalService id =
      some { svc with lastSyncAt := last, nextSyncAt := next } :=
  let ⟨o, _, _, _, _, _, _, hrec⟩ := s.syncExternalService_writes svc m env h hsvc hcd hmode hsrc hu
  ⟨o.now, _, hrec⟩

/-! ## Runs -/

/-- What a run of passes of service `id` schedules: for each pass, the `LastSyncAt` it
read, what it handed to `calcSyncInterval`, and the interval it set, from the
`LastSyncAt` of the record `svc` read before the run. -/
def runSchedule (id : Nat) (m : Int) (st : Store) (envs : List PassEnv) : List Scheduled :=
  schedule m svc.lastSyncAt ((s.syncPasses id m st envs).filterMap (·.outcome))

/-- **The records a run writes.** Along a run of passes of a stored service that is not
cloud default, in which every pass reads the user's mode when it needs it and its
sourcer and `Upsert` succeed, every pass hands `calcSyncInterval` an outcome that
carries its clock, the errors it returns, and as `modified` whether an apply added or
modified a repo or the prune deleted one; and the record after each pass holds
`LastSyncAt` its clock and the interval `NextSyncAt - LastSyncAt` that `schedule` sets
for it, from the `LastSyncAt` before the run. -/
theorem syncPasses_schedule {id : Nat} (m : Int) (envs : List PassEnv) :
    ∀ {st : Store} {svc : ExternalService}, st.UniqueKeys → st.getExternalService id = some svc →
      svc.cloudDefault = false →
      (∀ env ∈ envs, (svc.namespaceUserId ≠ 0 → env.userMode ≠ none) ∧ env.sourcerErr = none ∧
        env.upsertFails = false) →
      ∃ os : List PassOutcome, (s.syncPasses id m st envs).map (·.outcome) = os.map some ∧
        List.Forall₂ (fun (env : PassEnv) (r : PassResult) => ∃ (o : PassOutcome) (ls : LoopState),
          r.outcome = some o ∧ r.loop = some ls ∧ o.now = env.now ∧ r.errs = o.err ∧
          (o.modified = true ↔ (∃ d, Return.ok d ∈ ls.returns ∧ (d.added ≠ [] ∨ d.modified ≠ [])) ∨
            (s.prune svc env ls).deleted ≠ [])) envs (s.syncPasses id m st envs) ∧
        (s.syncPasses id m st envs).map (fun r => (r.store.getExternalService id).map fun b =>
            (b.lastSyncAt, b.nextSyncAt - b.lastSyncAt)) =
          (schedule m svc.lastSyncAt os).map fun a => some (a.pass.now, a.interval) := by
  induction envs with
  | nil => exact fun _ _ _ _ => ⟨[], rfl, .nil, rfl⟩
  | cons env envs ih =>
    intro st svc h hsvc hcd henv
    obtain ⟨hmode, hsrc, hu⟩ := henv env (List.mem_cons_self _ _)
    obtain ⟨o, ls, ho, hl, hnow, herr, hmo, hrec⟩ := s.syncExternalService_writes svc m env h hsvc hcd hmode hsrc hu
    obtain ⟨os, hos, hpass, hrecs⟩ := ih (s.syncExternalService_uniqueKeys id m env h) hrec hcd
      fun e he => henv e (List.mem_cons_of_mem _ he)
    refine ⟨o :: os, ?_, .cons ⟨o, ls, ho, hl, hnow, herr, hmo⟩ hpass, ?_⟩ <;>
      simp only [syncPasses, schedule, List.map_cons, ho, hos, hrec, hrecs, Option.map_some', add_sub_cancel_left]

theorem map_pass_schedule (m : Int) : ∀ (last : Int) (os : List PassOutcome), (schedule m last os).map (·.pass) = os
  | _, [] => rfl
  | _, o :: os => by simp [schedule, map_pass_schedule m o.now os]

end Syncer

/-! ## A pass that changes a repo and records an error -/

/-- The GitHub service, last synced an hour after the epoch. -/
def syncedService : ExternalService := { githubService with lastSyncAt := hour }

/-- One repository of the service. -/
def syncedStore : Store := ⟨[githubRow 1 "github.com/o/c" "MDc"], 3, [syncedService], by decide, by decide⟩

/-- An empty listing at time `t`, with no store failure. -/
def emptyEnv (t : Int) : PassEnv := ⟨none, none, [], fun _ => {}, fun _ => false, false, t, []⟩

/-- Two passes over an empty listing, two hours apart: the first prunes the stored
repository, the second finds nothing to do. -/
def pruneRun : List PassEnv := [emptyEnv (2 * hour), emptyEnv (4 * hour)]

/-- A new repository, then an error of the code host, two hours after the epoch. -/
def addThenFailEnv : PassEnv :=
  ⟨none, none, [.repo (githubRow 0 "github.com/o/b" "MDb"), .err .other], fun _ => {}, fun _ => false,
    false, 2 * hour, []⟩

/-- Two quiet passes, the second `2^62` nanoseconds after the first. -/
def wrapRun : List PassOutcome := [⟨2 * hour, false, []⟩, ⟨2 * hour + 2 ^ 62, false, []⟩]

/-- An empty listing; meanwhile an administrator edits the configuration of the
GitHub service, then deletes it. -/
def adminEnv : PassEnv :=
  ⟨none, none, [], fun _ => {}, fun _ => false, false, 100,
    [.upsert { githubService with config := "edited" }, .delete 1 50]⟩

theorem upsert_writes_start_record_admin :
    ∃ last next : Int, (testSyncer.syncExternalService renameStore 1 60 adminEnv).store.getExternalService 1 =
      some { githubService with lastSyncAt := last, nextSyncAt := next } :=
  Syncer.upsert_writes_start_record testSyncer githubService 60 adminEnv renameStore_uniqueKeys
    renameStore_getExternalService rfl (fun h => absurd rfl h) rfl rfl

set_option maxRecDepth 20000 in
/-- Just before the pass's `Upsert` the row of the service stands edited and deleted, so
that `GetByID` no longer finds it (as a pass whose `Upsert` fails leaves it); the `Upsert`
writes back the configuration the pass read and undeletes the service. -/
theorem upsert_reverts_other_writes :
    ((testSyncer.syncExternalService renameStore 1 60
        { adminEnv with upsertFails := true }).store.serviceRecord 1).map
        (fun x => (x.config, x.deletedAt)) = some ("edited", 50) ∧
      (testSyncer.syncExternalService renameStore 1 60
        { adminEnv with upsertFails := true }).store.getExternalService 1 = none ∧
      ((testSyncer.syncExternalService renameStore 1 60 adminEnv).store.getExternalService 1).map
        (fun x => (x.config, x.deletedAt)) = some ("{}", 0) :=
  ⟨by decide, by decide, by decide⟩

end Sourcegraph.Repos
