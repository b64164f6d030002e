import Sourcegraph.Repos.ExternalServiceSync

/-! The lazy path: `Syncer.SyncRepo` and its body `Syncer.syncRepo`, which fetch one
repository by name from the cloud default or package host service of its code host
and apply it with `sync`. When the caller had a stored row and the fetch says the
repository is gone (not found, unauthorized, forbidden, account suspended), a
deferred function removes the service's ownership of the row and announces the row
deleted, whether or not that removal succeeded. -/

namespace Sourcegraph.Repos

/-- A code host of `extsvc.PublicCodeHosts`; `syncRepo` reads only its service type. -/
structure CodeHost where
  serviceType : String
  deriving DecidableEq, Repr

/-- What `syncRepo` reads besides the store: the service the listing of cloud default or
package host services returns (`.error` when the listing fails, `.ok none` when it
finds none), the error of `Sourcer` if it fails, whether the source is a
`RepoGetter`, what `GetRepo` returns, the store faults of its `sync`, and whether the
deferred `DeleteExternalServiceRepo` fails. -/
structure LazyEnv where
  listing : Except ErrorClass (Option ExternalService)
  sourcerErr : Option ErrorClass
  getter : Bool
  fetched : Except ErrorClass Repo
  faults : Faults
  deleteFails : Bool

/-- How `syncRepo` ends: the repository it fetched, an error, or a panic of `sync`. -/
inductive LazyResult where
  | ok (r : Repo)
  | error (e : SyncError)
  | panic (msg : String)
  deriving DecidableEq, Repr

/-- The classes of errors after which `syncRepo` drops the stored row: those of
`errcode.IsNotFound`, `IsUnauthorized`, `IsForbidden`, `IsAccountSuspended`. -/
def ErrorClass.isGone : ErrorClass → Bool
  | .other => false
  | _ => true

namespace Syncer

/-- `GetRepo`, the check that the repository is public, and `sync`. -/
def fetchAndSync (s : Syncer) (st : Store) (svc : ExternalService) (env : LazyEnv) :
    LazyResult × Store × List Effect :=
  match env.fetched with
  | .error cls => (.error (.plain cls), st, [.fetch])
  | .ok repo =>
    if repo.isPrivate then (.error (.plain .notFound), st, [.fetch])
    else match s.sync env.faults st svc repo with
      | (.ok _, st', effs) => (.ok repo, st', .fetch :: effs)
      | (.error e, st', effs) => (.error e, st', .fetch :: effs)
      | (.panic msg, st', effs) => (.panic msg, st', .fetch :: effs)

/-- The deferred function of `syncRepo`, registered when a row was stored: after an
error of a gone class it deletes the service's ownership of the row, unless that
fails, and announces the row deleted. -/
def dropStored (s : Syncer) (svc : ExternalService) (stored : Option Repo) (deleteFails : Bool) :
    LazyResult × Store × List Effect → LazyResult × Store × List Effect
  | (.error e, st, effs) =>
    match stored with
    | some row =>
      if e.errClass.isGone then
        (.error e, if deleteFails then st else st.deleteExternalServiceRepo svc row.id,
          effs ++ s.notifyDeleted [row.id])
      else (.error e, st, effs)
    | none => (.error e, st, effs)
  | r => r

/-- `Syncer.syncRepo`. -/
def syncRepo (s : Syncer) (st : Store) (codehost : CodeHost) (stored : Option Repo) (env : LazyEnv) :
    LazyResult × Store × List Effect :=
  match env.listing with
  | .error cls => (.error (.wrapped "listing external services" cls), st, [])
  | .ok none =>
    (.error (.wrapped ("cloud default external service of type \"" ++ codehost.serviceType ++
      "\" not found") .notFound), st, [])
  | .ok (some svc) =>
    match env.sourcerErr with
    | some cls => (.error (.plain cls), st, [])
    | none =>
      if !env.getter then
        (.error (.wrapped ("can't get repo metadata for service of type \"" ++ codehost.serviceType ++
          "\"") .notFound), st, [])
      else s.dropStored svc stored env.deleteFails (s.fetchAndSync st svc env)

end Syncer

/-! ## What one call of `syncRepo` does -/

/-- The end of a transaction: its commit or its rollback. -/
def Effect.isTx : Effect → Bool
  | .commit | .rollback => true
  | _ => false

namespace Syncer

variable (s : Syncer)

theorem publish_effects (d : Diff) :
    (s.publish d).count .fetch = 0 ∧ (s.publish d).filter Effect.isTx = [] := by
  unfold publish; split <;> simp [Effect.isTx]

/-- `sync` fetches nothing and ends at most one transaction. -/
theorem sync_effects (f : Faults) (st : Store) (svc : ExternalService) (r : Repo) :
    (s.sync f st svc r).2.2.count .fetch = 0 ∧ ((s.sync f st svc r).2.2.filter Effect.isTx).length ≤ 1 := by
  unfold sync
  split
  · simp
  · split <;> (try split) <;> simp [Effect.isTx, (s.publish_effects _).1, (s.publish_effects _).2]

/-- **One fetch, one transaction.** A call of `syncRepo` fetches from the code host at
most once and ends at most one transaction; the deletion it may announce afterwards
is neither. -/
theorem syncRepo_effects (st : Store) (codehost : CodeHost) (stored : Option Repo) (env : LazyEnv) :
    (s.syncRepo st codehost stored env).2.2.count .fetch ≤ 1 ∧
      ((s.syncRepo st codehost stored env).2.2.filter Effect.isTx).length ≤ 1 := by
  have hfs : ∀ svc, (s.fetchAndSync st svc env).2.2.count .fetch ≤ 1 ∧
      ((s.fetchAndSync st svc env).2.2.filter Effect.isTx).length ≤ 1 := fun svc => by
    unfold fetchAndSync
    split
    · simp [Effect.isTx]
    · rename_i repo _
      split
      · simp [Effect.isTx]
      · have := s.sync_effects env.faults st svc repo
        split <;> rename_i h <;> simp only [h] at this <;> simp [Effect.isTx, this]
  have hdrop : ∀ svc r, (s.dropStored svc stored env.deleteFails r).2.2.count .fetch = r.2.2.count .fetch ∧
      ((s.dropStored svc stored env.deleteFails r).2.2.filter Effect.isTx).length =
        (r.2.2.filter Effect.isTx).length := fun svc r => by
    unfold dropStored notifyDeleted
    split
    · split
      · split <;> simp [(s.publish_effects _).1, (s.publish_effects _).2]
      · simp
    · simp
  unfold syncRepo
  split
  · simp
  · simp
  · split
    · simp
    · split
      · simp
      · rw [(hdrop _ _).1, (hdrop _ _).2]; exact hfs _

end Syncer

end Sourcegraph.Repos
