import Mathlib.Data.List.Basic

/-! The data the repository syncer of `internal/repos` works on: repository rows,
external services, the `Diff` a sync publishes on `Synced`, and the errors a sync
pass aggregates. A `time.Time` is an `Int` of nanoseconds since Go's zero time,
January 1 of year 1, and a `time.Duration` an `Int` of nanoseconds. -/

namespace Sourcegraph.Repos

/-- `api.ExternalRepoSpec`: the code host's stable identity of a repository. -/
structure ExternalRepoSpec where
  id : String
  serviceType : String
  serviceID : String
  deriving DecidableEq, Repr

/-- A row of `external_service_repos`: one external service owning a repository,
with the namespace of that service. -/
structure ExternalServiceRepo where
  externalServiceId : Nat
  userId : Nat
  orgId : Nat
  deriving DecidableEq, Repr

/-- A repository as `types.Repo` carries it. `description` stands for the metadata
fields `Repo.Update` compares and copies besides the ones named here. -/
structure Repo where
  id : Nat
  name : String
  externalRepo : ExternalRepoSpec
  description : String
  isPrivate : Bool
  deleted : Bool
  blocked : Bool
  sources : List ExternalServiceRepo
  deriving DecidableEq, Repr

/-- `types.ExternalService`. -/
structure ExternalService where
  id : Nat
  kind : String
  displayName : String
  config : String
  namespaceUserId : Nat
  namespaceOrgId : Nat
  cloudDefault : Bool
  lastSyncAt : Int
  nextSyncAt : Int
  deletedAt : Int
  deriving DecidableEq, Repr

namespace ExternalService

/-- Modelled from the spec: `ExternalService.IsSiteOwned` is not under src/. A service
is site owned when it has neither a namespace user nor a namespace org. -/
def isSiteOwned (svc : ExternalService) : Bool :=
  svc.namespaceUserId == 0 && svc.namespaceOrgId == 0

/-- The `external_service_repos` row that ties a repository to `svc`. -/
def source (svc : ExternalService) : ExternalServiceRepo :=
  ⟨svc.id, svc.namespaceUserId, svc.namespaceOrgId⟩

end ExternalService

/-- `Diff`: what one sync found, by class. -/
structure Diff where
  added : List Repo := []
  deleted : List Repo := []
  modified : List Repo := []
  unmodified : List Repo := []
  deriving DecidableEq, Repr

namespace Diff

/-- `Diff.Repos`: all repos of the diff, in the order of the Go code. -/
def repos (d : Diff) : List Repo := d.added ++ d.deleted ++ d.modified ++ d.unmodified

/-- `Diff.Len`. -/
def len (d : Diff) : Nat :=
  d.deleted.length + d.modified.length + d.added.length + d.unmodified.length

theorem len_eq_length_repos (d : Diff) : d.len = d.repos.length := by
  simp only [len, repos, List.length_append]; omega

end Diff

/-- What the `errcode` predicates can tell about an error; `other` is every error
that none of `IsUnauthorized`, `IsForbidden`, `IsAccountSuspended`, `IsNotFound`
accepts. -/
inductive ErrorClass where
  | unauthorized
  | forbidden
  | accountSuspended
  | notFound
  | other
  deriving DecidableEq, Repr

/-- The classes `fatal` of `SyncExternalService` accepts: unauthorized, forbidden,
account suspended. -/
def ErrorClass.isFatal : ErrorClass → Bool
  | .unauthorized | .forbidden | .accountSuspended => true
  | _ => false

/-- `RepoLimitError`. -/
structure RepoLimitError where
  siteAdded : Nat
  siteLimit : Nat
  reposCount : Nat
  reposLimit : Nat
  userId : Nat
  orgId : Nat
  deriving DecidableEq, Repr

/-- The errors a sync pass records. `wrapped msg cls` is `errors.Wrap` of an error
of class `cls` with the message `msg`. -/
inductive SyncError where
  | wrapped (msg : String) (cls : ErrorClass)
  /-- an error of class `cls` returned as it is -/
  | plain (cls : ErrorClass)
  | repoLimit (e : RepoLimitError)
  | cloudDefaultSync
  /-- the error `tx.Done` returns when the commit fails -/
  | commit
  deriving DecidableEq, Repr

namespace SyncError

/-- The class `errcode` sees through the wrapping. -/
def errClass : SyncError → ErrorClass
  | wrapped _ cls | plain cls => cls
  | _ => .other

/-- `fatal` of `SyncExternalService`. -/
def fatal (e : SyncError) : Bool := e.errClass.isFatal

/-- `errors.HasType(err, &RepoLimitError{})`. -/
def isRepoLimit : SyncError → Bool
  | repoLimit _ => true
  | _ => false

end SyncError

/-- Modelled from the spec: `lib/errors` and `errcode` are not under src/. An
aggregate of errors (`errors.Append`) is fatal when one of its errors is. -/
def fatalAll (errs : List SyncError) : Bool := errs.any SyncError.fatal

end Sourcegraph.Repos
