import Sourcegraph.Repos.SyncSpec
import Sourcegraph.Repos.Interval

/-! `Syncer.SyncExternalService`: one pass over the stream a source sends for one
external service. Every sourced repo the service may add is applied by `sync` in its
own transaction and marked seen; errors are aggregated; the loop stops at a fatal
error of the code host or at a repo limit. The end-of-pass prune deletes what was not
seen when there was no error, or when a service that is not site owned hit a fatal
error. Last, the service record is written back with its new schedule. -/

namespace Sourcegraph.Repos

/-- One item of the stream a source sends: a repository, or an error of some class. -/
inductive SourceResult where
  | repo (r : Repo)
  | err (cls : ErrorClass)
  deriving DecidableEq, Repr

/-- `conf.ExternalServiceMode`. -/
inductive ExternalServiceMode where
  | disabled
  | publicOnly
  | all
  deriving DecidableEq, Repr

/-- A write of another writer to the `external_services` table: the `Upsert` of a
whole record (an administrator's edit, or the record the dependency sync scheduler
read with its `NextSyncAt` set), or an administrator's delete of a service. -/
inductive ServiceWrite where
  | upsert (svc : ExternalService)
  | delete (id : Nat) (t : Int)
  deriving DecidableEq, Repr

/-- The store after another writer's write. -/
def ServiceWrite.run : ServiceWrite → Store → Store
  | .upsert svc, st => st.upsertExternalService svc
  | .delete id t, st => st.deleteExternalService id t

@[simp] theorem ServiceWrite.run_repos (w : ServiceWrite) (st : Store) : (w.run st).repos = st.repos := by
  cases w <;> rfl

@[simp] theorem ServiceWrite.foldl_run_repos (ws : List ServiceWrite) (st : Store) :
    (ws.foldl (fun st w => w.run st) st).repos = st.repos := by
  induction ws generalizing st <;> simp [*]

@[simp] theorem ServiceWrite.run_nextId (w : ServiceWrite) (st : Store) : (w.run st).nextId = st.nextId := by
  cases w <;> rfl

@[simp] theorem ServiceWrite.foldl_run_nextId (ws : List ServiceWrite) (st : Store) :
    (ws.foldl (fun st w => w.run st) st).nextId = st.nextId := by
  induction ws generalizing st <;> simp [*]

/-- What a pass reads besides the store: what `UserAllowedExternalServices` returns for
the namespace user (`none` when it fails), the error of `Sourcer` if it fails, the stream of the
source, which store calls fail (`faults n` for the `n`-th call of `sync`,
`deleteFails` for the repos whose prune fails, `upsertFails`), the clock, and the
writes of other writers to the `external_services` table that land after the pass
read its service and before its `Upsert`. The pass does not read that table in
between, so where in that window each lands does not matter. -/
structure PassEnv where
  userMode : Option ExternalServiceMode
  sourcerErr : Option ErrorClass
  results : List SourceResult
  faults : Nat → Faults
  deleteFails : Nat → Bool
  upsertFails : Bool
  now : Int
  others : List ServiceWrite

/-- A fatal error of the code host. -/
def SourceResult.isFatal : SourceResult → Bool
  | .err cls => cls.isFatal
  | .repo _ => false

/-- The variables of the loop over the stream: the store, `modified`, `seen`, `errs`
and the effects so far; `panic` is set when a call of `sync` panicked. Two ghost
variables record the items received and the returns of the calls of `sync`; the
number of calls picks the faults of the next one. -/
structure LoopState where
  store : Store
  modified : Bool
  seen : List Nat
  errs : List SyncError
  effects : List Effect
  delivered : List SourceResult
  returns : List Return
  panic : Option String

/-- The loop state before the first item. -/
def LoopState.init (st : Store) : LoopState := ⟨st, false, [], [], [], [], [], none⟩

/-- The filter of sourced repos: a user's service whose mode is not `all` only adds
public repos. -/
def allowedBy (svc : ExternalService) (mode : ExternalServiceMode) (r : Repo) : Bool :=
  svc.namespaceUserId == 0 || mode == .all || !r.isPrivate

namespace Syncer

/-- The error a failed fetch from the code host is recorded as. -/
def fetchError (svc : ExternalService) (cls : ErrorClass) : SyncError :=
  .wrapped ("fetching from code host " ++ svc.displayName) cls

/-- The loop `for res := range results`. -/
def syncLoop (s : Syncer) (faults : Nat → Faults) (svc : ExternalService) (allowed : Repo → Bool) :
    LoopState → List SourceResult → LoopState
  | ls, [] => ls
  | ls, .err cls :: rest =>
    let ls := { ls with delivered := ls.delivered ++ [.err cls], errs := ls.errs ++ [fetchError svc cls] }
    if (fetchError svc cls).fatal then { ls with seen := [] }
    else syncLoop s faults svc allowed ls rest
  | ls, .repo r :: rest =>
    let ls := { ls with delivered := ls.delivered ++ [.repo r] }
    if !allowed r then syncLoop s faults svc allowed ls rest
    else
      let (ret, st, effs) := s.sync (faults ls.returns.length) ls.store svc r
      let ls := { ls with store := st, effects := ls.effects ++ effs, returns := ls.returns ++ [ret] }
      match ret with
      | .ok d => syncLoop s faults svc allowed { ls with
          seen := ls.seen ++ d.repos.map (·.id),
          modified := ls.modified || decide (d.modified.length + d.added.length > 0) } rest
      | .error e =>
        let ls := { ls with errs := ls.errs ++ [e] }
        if e.isRepoLimit then ls else syncLoop s faults svc allowed ls rest
      | .panic msg => { ls with panic := some msg }

/-- `notifyDeleted`: one diff with a repo of each id in `Deleted`, sent when it is not
empty. -/
def notifyDeleted (s : Syncer) (ids : List Nat) : List Effect :=
  s.publish { deleted := ids.map fun id => ⟨id, "", ⟨"", "", ""⟩, "", false, false, false, []⟩ }

/-- Whether the pass prunes: with no error, or with a fatal error of a service that is
not site owned. -/
def shouldPrune (svc : ExternalService) (errs : List SyncError) : Bool :=
  errs.isEmpty || (!svc.isSiteOwned && fatalAll errs)

end Syncer

/-- What a pass leaves: the error it returns (the aggregate, nil when empty), a panic
of `sync`, the store, and the effects in order; and, for the proofs, the loop's final
variables, the seen set the prune was called with, and what the pass handed to
`calcSyncInterval`. -/
structure PassResult where
  errs : List SyncError
  panic : Option String
  store : Store
  effects : List Effect
  loop : Option LoopState
  pruneSeen : Option (List Nat)
  outcome : Option PassOutcome

namespace Syncer

/-- The end-of-pass prune, run only when `shouldPrune`: the ids it deleted, the error
it adds, the store and effects it leaves, and the seen set it was called with. -/
structure Pruned where
  deleted : List Nat
  errs : List SyncError
  store : Store
  effects : List Effect
  seen : Option (List Nat)

/-- `s.delete(ctx, svc, seen)` when `shouldPrune`. -/
def prune (s : Syncer) (svc : ExternalService) (env : PassEnv) (ls : LoopState) : Pruned :=
  if shouldPrune svc ls.errs then
    let (ids, failed, st) := ls.store.deleteExternalServiceReposNotIn svc ls.seen env.deleteFails
    ⟨ids, if failed then [.wrapped "some repos couldn't be deleted" .other] else [], st,
      s.notifyDeleted ids, some ls.seen⟩
  else ⟨[], [], ls.store, [], none⟩

/-- What the pass hands to `calcSyncInterval`: the clock, whether it changed a repo
(an apply added or modified one, or the prune deleted one), and its errors. -/
def outcome (env : PassEnv) (ls : LoopState) (p : Pruned) : PassOutcome :=
  ⟨env.now, ls.modified || decide (p.deleted.length > 0), ls.errs ++ p.errs⟩

/-- The pass after the loop: the prune, the schedule, the `Upsert` of the service. -/
def finishPass (s : Syncer) (svc : ExternalService) (minSyncInterval : Int) (env : PassEnv)
    (ls : LoopState) : PassResult :=
  match ls.panic with
  | some msg => ⟨ls.errs, some msg, ls.store, ls.effects, some ls, none, none⟩
  | none =>
    let p := s.prune svc env ls
    let o := outcome env ls p
    let svc := { svc with
      nextSyncAt := o.now + calcSyncInterval o.now svc.lastSyncAt minSyncInterval o.modified o.err,
      lastSyncAt := o.now }
    let st := env.others.foldl (fun st w => w.run st) p.store
    if env.upsertFails then
      ⟨o.err ++ [.wrapped "upserting external service" .other], none, st, ls.effects ++ p.effects,
        some ls, p.seen, some o⟩
    else ⟨o.err, none, st.upsertExternalService svc, ls.effects ++ p.effects, some ls, p.seen, some o⟩

/-- `Syncer.SyncExternalService`. -/
def syncExternalService (s : Syncer) (st : Store) (externalServiceId : Nat) (minSyncInterval : Int)
    (env : PassEnv) : PassResult :=
  match st.getExternalService externalServiceId with
  | none => ⟨[.wrapped "fetching external services" .notFound], none, st, [], none, none, none⟩
  | some svc =>
    if svc.cloudDefault then ⟨[.cloudDefaultSync], none, st, [], none, none, none⟩
    else
      let mode : Option ExternalServiceMode :=
        if svc.namespaceUserId != 0 then env.userMode else some .all
      match mode with
      | none => ⟨[.wrapped "checking if user can add private code" .other], none, st, [], none, none, none⟩
      | some mode =>
        match env.sourcerErr with
        | some cls => ⟨[.plain cls], none, st, [], none, none, none⟩
        | none =>
          s.finishPass svc minSyncInterval env
            (s.syncLoop env.faults svc (allowedBy svc mode) (.init st) env.results)

end Syncer

/-! ## The loop -/

/-- The ids in the diffs of the calls of `sync` that returned one. -/
def okIds (rets : List Return) : List Nat :=
  rets.flatMap fun | .ok d => d.repos.map (·.id) | _ => []

@[simp] theorem okIds_append_ok (rets : List Return) (d : Diff) :
    okIds (rets ++ [.ok d]) = okIds rets ++ d.repos.map (·.id) := by
  simp [okIds]

@[simp] theorem okIds_append_error (rets : List Return) (e : SyncError) :
    okIds (rets ++ [.error e]) = okIds rets := by
  simp [okIds]

/-- A call of `sync` that added or modified a repo: it returned a diff with `Added` or
`Modified`. -/
def Return.changes : Return → Bool
  | .ok d => decide (d.modified.length + d.added.length > 0)
  | _ => false

@[simp] theorem fatalAll_append (errs : List SyncError) (e : SyncError) :
    fatalAll (errs ++ [e]) = (fatalAll errs || e.fatal) := by
  simp [fatalAll]

/-- What the loop keeps from a state with no fatal error delivered: the unique keys
and no panic; and either still no fatal error delivered, `seen` the ids of the
successful calls' diffs and no fatal error recorded, or a fatal error delivered last,
`seen` empty and a fatal error recorded. -/
structure LoopInv (ls : LoopState) : Prop where
  unique : ls.store.UniqueKeys
  noPanic : ls.panic = none
  seen :
    (ls.delivered.any SourceResult.isFatal = false ∧ ls.seen = okIds ls.returns ∧
      fatalAll ls.errs = false) ∨
    (ls.delivered.any SourceResult.isFatal = true ∧ ls.seen = [] ∧ fatalAll ls.errs = true)

namespace Syncer

variable (s : Syncer) (faults : Nat → Faults) (svc : ExternalService) (allowed : Repo → Bool)

theorem syncLoop_inv (rs : List SourceResult) :
    ∀ ls : LoopState, ls.store.UniqueKeys → ls.panic = none →
      ls.delivered.any SourceResult.isFatal = false → ls.seen = okIds ls.returns →
      fatalAll ls.errs = false → LoopInv (s.syncLoop faults svc allowed ls rs) := by
  induction rs with
  | nil => exact fun ls hu hp hn hs hf => ⟨hu, hp, .inl ⟨hn, hs, hf⟩⟩
  | cons res rest ih =>
    intro ls hu hp hn hs hf
    cases res with
    | err cls =>
      simp only [syncLoop]
      by_cases hc : (fetchError svc cls).fatal = true
      · simp only [hc, ite_true]
        exact ⟨hu, hp, .inr ⟨by simp_all [SourceResult.isFatal, fetchError, SyncError.fatal,
          SyncError.errClass], rfl, by simp [hf, hc]⟩⟩
      · simp only [hc, Bool.false_eq_true, ite_false]
        exact ih _ hu hp (by simp_all [SourceResult.isFatal, fetchError, SyncError.fatal,
          SyncError.errClass]) hs (by simp_all)
    | repo r =>
      simp only [syncLoop]
      split
      · exact ih _ hu hp (by simpa [SourceResult.isFatal] using hn) hs hf
      · have hsu := s.sync_uniqueKeys (faults ls.returns.length) svc r hu
        have hnp := s.sync_ne_panic (faults ls.returns.length) svc r hu
        have hnf := s.sync_nonFatal (faults ls.returns.length) ls.store svc r
        have hn' : (ls.delivered ++ [SourceResult.repo r]).any SourceResult.isFatal = false := by
          simpa [SourceResult.isFatal] using hn
        generalize s.sync (faults ls.returns.length) ls.store svc r = res at hsu hnp hnf
        obtain ⟨ret, st, effs⟩ := res
        cases ret with
        | ok d => exact ih _ hsu hp hn' (by simp [hs]) hf
        | error e =>
          simp only [Return.nonFatal] at hnf
          dsimp only
          split
          · exact ⟨hsu, hp, .inl ⟨hn', by simp [hs], by simp [hf, hnf]⟩⟩
          · exact ih _ hsu hp hn' (by simp [hs]) (by simp [hf, hnf])
        | panic msg => exact absurd rfl (hnp msg)

/-- The loop receives a prefix of the stream. -/
theorem syncLoop_delivered (rs : List SourceResult) :
    ∀ ls : LoopState, ∃ d, d <+: rs ∧
      (s.syncLoop faults svc allowed ls rs).delivered = ls.delivered ++ d := by
  induction rs with
  | nil => exact fun ls => ⟨[], List.nil_prefix, by simp [syncLoop]⟩
  | cons res rest ih =>
    intro ls
    cases res with
    | err cls =>
      simp only [syncLoop]
      split
      · exact ⟨[.err cls], by simp, rfl⟩
      · obtain ⟨d, hd, he⟩ :=
          ih { ls with delivered := ls.delivered ++ [.err cls], errs := ls.errs ++ [fetchError svc cls] }
        exact ⟨.err cls :: d, List.prefix_cons_inj _ |>.mpr hd, by simp [he]⟩
    | repo r =>
      simp only [syncLoop]
      have step : ∀ ls' : LoopState, ls'.delivered = ls.delivered ++ [.repo r] →
          ∃ d, d <+: .repo r :: rest ∧
            (s.syncLoop faults svc allowed ls' rest).delivered = ls.delivered ++ d := fun ls' h => by
        obtain ⟨d, hd, he⟩ := ih ls'
        exact ⟨.repo r :: d, List.prefix_cons_inj _ |>.mpr hd, by simp [he, h]⟩
      split
      · exact step _ rfl
      · split
        · exact step _ rfl
        · split
          · exact ⟨[.repo r], by simp, rfl⟩
          · exact step _ rfl
        · exact ⟨[.repo r], by simp, rfl⟩

/-- `modified` is whether a call of `sync` so far added or modified a repo. -/
theorem syncLoop_modified (rs : List SourceResult) :
    ∀ ls : LoopState, ls.modified = ls.returns.any Return.changes →
      (s.syncLoop faults svc allowed ls rs).modified = (s.syncLoop faults svc allowed ls rs).returns.any Return.changes := by
  induction rs with
  | nil => exact fun _ h => h
  | cons res rest ih =>
    intro ls h
    cases res with
    | err cls =>
      simp only [syncLoop]
      split
      · exact h
      · exact ih _ h
    | repo r =>
      simp only [syncLoop]
      split
      · exact ih _ h
      · generalize s.sync (faults ls.returns.length) ls.store svc r = res
        obtain ⟨ret, st, effs⟩ := res
        cases ret with
        | ok d => exact ih _ (by simp [h, Return.changes])
        | error e =>
          dsimp only
          split
          · simp [h, Return.changes]
          · exact ih _ (by simp [h, Return.changes])
        | panic msg => simp [h, Return.changes]

/-- A property of the effects so far and the store that every call of `sync` on a
repo of the stream keeps is kept by the loop. -/
theorem syncLoop_keeps (P : List Effect → Store → Prop) (rs : List SourceResult)
    (hsync : ∀ f st r effs, .repo r ∈ rs → P effs st →
      P (effs ++ (s.sync f st svc r).2.2) (s.sync f st svc r).2.1) :
    ∀ ls : LoopState, P ls.effects ls.store →
      P (s.syncLoop faults svc allowed ls rs).effects (s.syncLoop faults svc allowed ls rs).store := by
  induction rs with
  | nil => exact fun _ h => h
  | cons res rest ih =>
    have ih := ih fun f st r effs hr => hsync f st r effs (List.mem_cons_of_mem _ hr)
    intro ls h
    cases res with
    | err cls =>
      simp only [syncLoop]
      split
      · exact h
      · exact ih _ h
    | repo r =>
      simp only [syncLoop]
      split
      · exact ih _ h
      · have h' := hsync (faults ls.returns.length) ls.store r ls.effects (List.mem_cons_self _ _) h
        generalize s.sync (faults ls.returns.length) ls.store svc r = res at h'
        obtain ⟨ret, st, effs⟩ := res
        cases ret with
        | ok d => exact ih _ h'
        | error e =>
          dsimp only
          split
          · exact h'
          · exact ih _ h'
        | panic msg => exact h'

/-! ## The prune -/

theorem finishPass_of_noPanic (m : Int) (env : PassEnv) {ls : LoopState} (hp : ls.panic = none) :
    (s.finishPass svc m env ls).loop = some ls ∧
      (s.finishPass svc m env ls).pruneSeen = if shouldPrune svc ls.errs then some ls.seen else none := by
  unfold finishPass prune
  rw [hp]
  split_ifs <;> simp_all

/-- After a loop that did not panic, a pass prunes and then writes only the
`external_services` table. -/
theorem finishPass_store_of_noPanic (m : Int) (env : PassEnv) {ls : LoopState} (hp : ls.panic = none) :
    (s.finishPass svc m env ls).store.repos = (s.prune svc env ls).store.repos ∧
      (s.finishPass svc m env ls).store.nextId = (s.prune svc env ls).store.nextId ∧
      (s.finishPass svc m env ls).effects = ls.effects ++ (s.prune svc env ls).effects := by
  unfold finishPass
  rw [hp]
  dsimp only
  split <;> simp

/-- After the loop a pass keeps what the loop left, or prunes and then writes only the
`external_services` table. -/
theorem finishPass_store_effects (m : Int) (env : PassEnv) (ls : LoopState) :
    (s.finishPass svc m env ls).store = ls.store ∧ (s.finishPass svc m env ls).effects = ls.effects ∨
      (s.finishPass svc m env ls).store.repos = (s.prune svc env ls).store.repos ∧
      (s.finishPass svc m env ls).store.nextId = (s.prune svc env ls).store.nextId ∧
      (s.finishPass svc m env ls).effects = ls.effects ++ (s.prune svc env ls).effects := by
  cases hp : ls.panic with
  | none => exact .inr (s.finishPass_store_of_noPanic svc m env hp)
  | some msg => unfold finishPass; rw [hp]; exact .inl ⟨rfl, rfl⟩

/-- What a pass can do: return before the loop, leaving the store as it is, or run the
loop from the stored repos of a service that is not cloud default, then finish. -/
theorem syncExternalService_cases (st : Store) (id : Nat) (m : Int) (env : PassEnv) :
    (∃ errs, s.syncExternalService st id m env = ⟨errs, none, st, [], none, none, none⟩) ∨
    ∃ svc mode, st.getExternalService id = some svc ∧ svc.cloudDefault = false ∧
      s.syncExternalService st id m env =
        s.finishPass svc m env (s.syncLoop env.faults svc (allowedBy svc mode) (.init st) env.results) := by
  unfold syncExternalService
  split
  · exact .inl ⟨_, rfl⟩
  · rename_i svc hsvc
    split
    · exact .inl ⟨_, rfl⟩
    · rename_i hcd
      dsimp only
      generalize (if svc.namespaceUserId != 0 then env.userMode else some .all) = mode
      cases mode with
      | none => exact .inl ⟨_, rfl⟩
      | some mode =>
        cases env.sourcerErr with
        | some cls => exact .inl ⟨_, rfl⟩
        | none => exact .inr ⟨svc, mode, hsvc, by simpa using hcd, rfl⟩

/-- Whatever the loop did, the pass keeps its final variables. -/
theorem finishPass_loop (m : Int) (env : PassEnv) (ls : LoopState) :
    (s.finishPass svc m env ls).loop = some ls := by
  unfold finishPass
  split
  · rfl
  · dsimp only
    split <;> rfl

/-- The store the prune leaves: the one `DeleteExternalServiceReposNotIn` leaves when the
pass prunes, the loop's otherwise. -/
theorem prune_store (env : PassEnv) (ls : LoopState) :
    (s.prune svc env ls).store =
      if shouldPrune svc ls.errs then (ls.store.deleteExternalServiceReposNotIn svc ls.seen env.deleteFails).2.2
      else ls.store := by
  unfold prune
  split <;> rfl

/-- The loop of a pass of a stored service runs exactly when the service is not cloud
default, the user's mode is read when the service has a namespace user, and `Sourcer`
succeeds. -/
theorem syncExternalService_loop_iff {st : Store} {id : Nat} (m : Int) (env : PassEnv)
    (hsvc : st.getExternalService id = some svc) :
    (∃ ls, (s.syncExternalService st id m env).loop = some ls) ↔
      svc.cloudDefault = false ∧ (svc.namespaceUserId ≠ 0 → env.userMode ≠ none) ∧ env.sourcerErr = none := by
  unfold syncExternalService
  rw [hsvc]
  dsimp only
  cases hcd : svc.cloudDefault
  · have hmode : (∃ mode, (if svc.namespaceUserId != 0 then env.userMode else some .all) = some mode) ↔
        (svc.namespaceUserId ≠ 0 → env.userMode ≠ none) := by
      by_cases hu : svc.namespaceUserId = 0 <;> simp [hu, Option.ne_none_iff_exists']
    simp only [Bool.false_eq_true, ite_false, true_and, ← hmode]
    cases (if svc.namespaceUserId != 0 then env.userMode else some .all) <;>
      cases env.sourcerErr <;> simp [finishPass_loop]
  · simp

end Syncer

/-- The rename listing followed by an unauthorized error, with no store failure. -/
def renameEnv : PassEnv :=
  ⟨none, none, [.repo renamedRepo, .err .unauthorized], fun _ => {}, fun _ => false, false, 100, []⟩

theorem renameStore_getExternalService : renameStore.getExternalService 1 = some githubService := rfl

end Sourcegraph.Repos
