import Sourcegraph.Repos.Store

/-! `Syncer.sync`: one sourced repository reconciled against the store inside one
transaction. The body runs on the transaction's copy of the store. The deferred
`tx.Done(err)` commits that copy when the named result `err` is nil and rolls it
back otherwise, and only a committed diff is sent on `Synced`. -/

namespace Sourcegraph.Repos

/-- Modelled from the spec: `types.Repo.Update` is not under src/. It copies onto
the stored row every field the sourced repo reports, undeletes it, adds the sourced
repo's owners, and reports whether the row changed. -/
def Repo.update (r n : Repo) : Repo × Bool :=
  let r' := { r with
    name := n.name, externalRepo := n.externalRepo, description := n.description,
    isPrivate := n.isPrivate, deleted := false, sources := n.sources ∪ r.sources }
  (r', r' != r)

/-- Which store calls of one `Syncer.sync` fail. -/
structure Faults where
  transact : Bool := false
  list : Bool := false
  delete : Bool := false
  update : Bool := false
  countSite : Bool := false
  countUser : Bool := false
  create : Bool := false
  commit : Bool := false
  deriving DecidableEq, Repr

/-- The `Syncer` fields `sync` reads: whether `Synced` is set, the overrides
`UserReposMaxPerUser` and `UserReposMaxPerSite`, and the configured limits. -/
structure Syncer where
  synced : Bool
  overrideMaxPerUser : Nat
  overrideMaxPerSite : Nat
  confUserReposMaxPerUser : Nat
  confUserReposMaxPerSite : Nat
  deriving DecidableEq, Repr

/-- What a call does besides returning, in order: its transaction commits or rolls
back, a diff is sent on `Synced`, and, on the lazy path, the repository is fetched
from the code host. -/
inductive Effect where
  | commit
  | rollback
  | publish (d : Diff)
  | fetch
  deriving DecidableEq, Repr

/-- How a call of `sync` ends: its two results, or a Go panic. -/
inductive Return where
  | ok (d : Diff)
  | error (e : SyncError)
  | panic (msg : String)
  deriving DecidableEq, Repr

namespace Syncer

/-- The override when it is set, the configured value otherwise. -/
def overrideOr (override conf : Nat) : Nat := if override > 0 then override else conf

/-- `userReposMaxPerSite`. -/
def userReposMaxPerSite (s : Syncer) : Nat := overrideOr s.overrideMaxPerSite s.confUserReposMaxPerSite

/-- `userReposMaxPerUser`. -/
def userReposMaxPerUser (s : Syncer) : Nat := overrideOr s.overrideMaxPerUser s.confUserReposMaxPerUser

/-- The repo limit check of `case 0` for a service that is not site owned. -/
def checkRepoLimits (s : Syncer) (f : Faults) (tx : Store) (svc : ExternalService) :
    Option SyncError :=
  if f.countSite then some (.wrapped "counting total user added repos" .other)
  else if f.countUser then some (.wrapped "counting repos added by user or organization" .other)
  else
    let siteAdded := tx.countNamespacedRepos 0 0
    let userAdded := tx.countNamespacedRepos svc.namespaceUserId svc.namespaceOrgId
    let userLimit := s.userReposMaxPerUser
    let siteLimit := s.userReposMaxPerSite
    if siteLimit ≤ siteAdded ∨ userLimit ≤ userAdded then
      some (.repoLimit ⟨siteAdded, siteLimit, userAdded, userLimit,
        svc.namespaceUserId, svc.namespaceOrgId⟩)
    else none

/-- `case 0`: a new repo, created after the limit check. -/
def syncCreate (s : Syncer) (f : Faults) (tx : Store) (svc : ExternalService) (sourced : Repo) :
    Return × Store :=
  match (if svc.isSiteOwned then none else s.checkRepoLimits f tx svc) with
  | some e => (.error e, tx)
  | none =>
    if f.create then (.error (.wrapped "syncer: failed to create external service repo" .other), tx)
    else (.ok { added := [tx.newRow svc sourced] }, tx.createExternalServiceRepo svc sourced)

/-- `case 1`: the stored row `row` updated from the sourced repo. -/
def syncUpdate (f : Faults) (tx : Store) (svc : ExternalService) (sourced row : Repo) :
    Return × Store :=
  let u := row.update sourced
  if !u.2 then (.ok { unmodified := [u.1] }, tx)
  else if f.update then
    (.error (.wrapped "syncer: failed to update external service repo" .other), tx)
  else (.ok { modified := [u.1] }, tx.updateExternalServiceRepo svc u.1)

/-- The loop of `case 2`: a row with the sourced spec becomes `existing`, any other
row `conflicting`, a later row replacing an earlier one. -/
def pickConflict (spec : ExternalRepoSpec) (stored : List Repo) : Option Repo × Option Repo :=
  stored.foldl (fun (c, e) r => if r.externalRepo = spec then (c, some r) else (some r, e))
    (none, none)

/-- `case 2`: the conflicting row is deleted, then `case 1` runs on the existing one. -/
def syncConflict (f : Faults) (tx : Store) (svc : ExternalService) (sourced a b : Repo) :
    Return × Store :=
  match pickConflict sourced.externalRepo [a, b] with
  | (none, _) => (.panic "nil pointer dereference", tx)
  | (some c, existing) =>
    if f.delete then (.error (.wrapped "syncer: failed to delete conflicting repo" .other), tx)
    else match existing with
      | none => (.panic "nil pointer dereference", tx.deleteRepo c.id)
      | some e => syncUpdate f (tx.deleteRepo c.id) svc sourced e

/-- The body of `sync` on the transaction's store: the lookup, then the switch on
the number of rows found. -/
def syncTx (s : Syncer) (f : Faults) (tx : Store) (svc : ExternalService) (sourced : Repo) :
    Return × Store :=
  if f.list then (.error (.wrapped "syncer: getting repo from the database" .other), tx)
  else match tx.listByNameOrSpec sourced.name sourced.externalRepo with
    | [] => s.syncCreate f tx svc sourced
    | [row] => syncUpdate f tx svc sourced row
    | [a, b] => syncConflict f tx svc sourced a b
    | _ => (.panic "unreachable", tx)

/-- The send on `Synced` after the commit. -/
def publish (s : Syncer) (d : Diff) : List Effect :=
  if s.synced && d.len > 0 then [.publish d] else []

/-- `Syncer.sync`: the transaction around `syncTx`, and the deferred `tx.Done`. -/
def sync (s : Syncer) (f : Faults) (st : Store) (svc : ExternalService) (sourced : Repo) :
    Return × Store × List Effect :=
  if f.transact then (.error (.wrapped "syncer: opening transaction" .other), st, [])
  else match s.syncTx f st svc sourced with
    | (.ok d, tx) => if f.commit then (.error .commit, st, [.rollback]) else (.ok d, tx, .commit :: s.publish d)
    | (.error e, _) => (.error e, st, [.rollback])
    | (.panic msg, tx) => if f.commit then (.panic msg, st, [.rollback]) else (.panic msg, tx, [.commit])

end Syncer

end Sourcegraph.Repos

namespace Sourcegraph.Repos

/-! ## Small lemmas -/

@[simp] theorem Repo.update_id (r n : Repo) : (r.update n).1.id = r.id := rfl
@[simp] theorem Repo.update_name (r n : Repo) : (r.update n).1.name = n.name := rfl
@[simp] theorem Repo.update_externalRepo (r n : Repo) :
    (r.update n).1.externalRepo = n.externalRepo := rfl

/-- `Update` reports a change exactly when the row it returns differs. -/
theorem Repo.update_snd (r n : Repo) : (r.update n).2 = !decide ((r.update n).1 = r) := by
  simp only [Repo.update, bne_iff_ne, ne_eq, decide_not]; rfl

namespace Syncer

variable (s : Syncer) (f : Faults) (tx st : Store) (svc : ExternalService) (sourced : Repo)

theorem syncUpdate_store (row : Repo) :
    (syncUpdate f tx svc sourced row).2 = tx ∨
      (syncUpdate f tx svc sourced row).2 = tx.updateExternalServiceRepo svc (row.update sourced).1 := by
  cases h : (row.update sourced).2 <;> cases hu : f.update <;> simp [syncUpdate, h, hu]

theorem syncCreate_store :
    (s.syncCreate f tx svc sourced).2 = tx ∨
      (s.syncCreate f tx svc sourced).2 = tx.createExternalServiceRepo svc sourced := by
  unfold syncCreate
  split <;> (try split_ifs) <;> simp

/-- The store `sync` leaves: the one it was given, or the body's committed store. -/
theorem sync_store :
    (s.sync f st svc sourced).2.1 = st ∨ (s.sync f st svc sourced).2.1 = (s.syncTx f st svc sourced).2 := by
  unfold sync; split
  · simp
  · split <;> rename_i h <;> (try split) <;> simp [h]

end Syncer

end Sourcegraph.Repos
