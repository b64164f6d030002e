import Sourcegraph.Repos.Types
import Mathlib.Data.List.Nodup

/-! The store the syncer reads and writes: the `repo` table with its
`external_service_repos` ownership rows, and the `external_services` table. The
store's code is not part of the sources, so each operation is modelled from the
spec's CRUD interface. The primary key of `repo` is part of the type; the two
unique constraints on names and external repo specs are not, since the syncer's
own logic is what keeps them (`Uniqueness.lean`). -/

namespace Sourcegraph.Repos

/-- The tables. Row ids are distinct and below the id sequence `nextId`. -/
structure Store where
  repos : List Repo
  nextId : Nat
  externalServices : List ExternalService
  ids_nodup : (repos.map (·.id)).Nodup
  ids_lt : ∀ r ∈ repos, r.id < nextId
  deriving DecidableEq

namespace Store

/-! ## Reads -/

/-- Modelled from the spec: `RepoStore.List` with `Names`, `ExternalRepos`, `UseOr`,
`IncludeDeleted` and `IncludeBlocked`, every row with the name or the spec. -/
def listByNameOrSpec (st : Store) (name : String) (spec : ExternalRepoSpec) : List Repo :=
  st.repos.filter fun r => r.name == name || r.externalRepo == spec

/-- Modelled from the spec: `RepoStore.List` with default options, the rows that
are neither deleted nor blocked. -/
def listRepos (st : Store) : List Repo :=
  st.repos.filter fun r => !r.deleted && !r.blocked

/-- Modelled from the spec: `RepoStore.GetByName`, the live row of the name. -/
def getByName (st : Store) (name : String) : Option Repo :=
  st.repos.find? fun r => r.name == name && !r.deleted

/-- Whether an ownership row counts for `CountNamespacedRepos(userID, orgID)`: for
`(0, 0)` every row of a user or org service, otherwise the rows of that namespace. -/
def inNamespace (userId orgId : Nat) (s : ExternalServiceRepo) : Bool :=
  if userId == 0 && orgId == 0 then s.userId != 0 || s.orgId != 0
  else s.userId == userId && s.orgId == orgId

/-- Modelled from the spec: `CountNamespacedRepos`, the live repositories owned
through a service of the namespace. -/
def countNamespacedRepos (st : Store) (userId orgId : Nat) : Nat :=
  (st.repos.filter fun r => !r.deleted && r.sources.any (inNamespace userId orgId)).length

/-- The ids of the repositories `svc` owns that are not in `seen`. -/
def ownedNotIn (st : Store) (svc : ExternalService) (seen : List Nat) : List Nat :=
  (st.repos.filter fun r =>
    r.sources.any (·.externalServiceId == svc.id) && !seen.contains r.id).map (·.id)

/-- The row of the `external_services` table with the id, deleted or not. -/
def serviceRecord (st : Store) (id : Nat) : Option ExternalService :=
  st.externalServices.find? (·.id == id)

/-- Modelled from the spec: `ExternalServiceStore.GetByID`, the record of the id unless it
is deleted: after `Delete` sets `DeletedAt`, `GetByID` returns "external service not
found" (`TestExternalServicesStore_GetByID`, src/internal/codeintel/dependencies.go). -/
def getExternalService (st : Store) (id : Nat) : Option ExternalService :=
  (st.serviceRecord id).filter (·.deletedAt == 0)

/-! ## Writes -/

private theorem nodup_ids_filter (st : Store) (p : Repo → Bool) :
    ((st.repos.filter p).map (·.id)).Nodup :=
  ((List.filter_sublist _).map _).nodup st.ids_nodup

/-- Every row map that keeps ids keeps the primary key. -/
def mapRepos (st : Store) (g : Repo → Repo) (hg : ∀ r, (g r).id = r.id) : Store where
  repos := st.repos.map g
  nextId := st.nextId
  externalServices := st.externalServices
  ids_nodup := by
    have : (st.repos.map g).map (·.id) = st.repos.map (·.id) := by simp [Function.comp_def, hg]
    rw [this]; exact st.ids_nodup
  ids_lt r hr := by
    obtain ⟨x, hx, rfl⟩ := List.mem_map.mp hr
    rw [hg]; exact st.ids_lt x hx

/-- Modelled from the spec: `RepoStore.Delete` of a name-conflict loser. The row
is gone: the spec says the loser is re-created if its host still has it. -/
def deleteRepo (st : Store) (id : Nat) : Store where
  repos := st.repos.filter fun r => r.id != id
  nextId := st.nextId
  externalServices := st.externalServices
  ids_nodup := nodup_ids_filter st _
  ids_lt r hr := st.ids_lt r (List.mem_filter.mp hr).1

/-- The row `r` written over the row of its id, owned by `svc` too. -/
def writeRow (svc : ExternalService) (r x : Repo) : Repo :=
  if x.id = r.id then { r with sources := r.sources.insert svc.source } else x

/-- Modelled from the spec: `UpdateExternalServiceRepo` writes the row and records
`svc` among its owners. -/
def updateExternalServiceRepo (st : Store) (svc : ExternalService) (r : Repo) : Store :=
  st.mapRepos (writeRow svc r) fun x => by unfold writeRow; split <;> simp_all

/-- The row `CreateExternalServiceRepo` inserts for a sourced repo. -/
def newRow (st : Store) (svc : ExternalService) (r : Repo) : Repo :=
  { r with id := st.nextId, deleted := false, blocked := false, sources := [svc.source] }

/-- Modelled from the spec: `CreateExternalServiceRepo` inserts a live row for the
sourced repo under the next id of the sequence, owned by `svc`. -/
def createExternalServiceRepo (st : Store) (svc : ExternalService) (r : Repo) : Store where
  repos := st.repos ++ [st.newRow svc r]
  nextId := st.nextId + 1
  externalServices := st.externalServices
  ids_nodup := by
    rw [List.map_append, List.nodup_append]
    refine ⟨st.ids_nodup, List.nodup_singleton _, ?_⟩
    intro x hx hx'
    simp only [List.map_cons, List.map_nil, List.mem_singleton, newRow] at hx'
    obtain ⟨y, hy, rfl⟩ := List.mem_map.mp hx
    exact absurd (hx' ▸ st.ids_lt y hy) (Nat.lt_irrefl _)
  ids_lt r hr := by
    rcases List.mem_append.mp hr with h | h
    · exact Nat.lt_succ_of_lt (st.ids_lt r h)
    · simp only [List.mem_singleton] at h; subst h; exact Nat.lt_succ_self _

/-- `svc` no longer owns the row, which is soft-deleted once nobody owns it. -/
def dropOwner (svc : ExternalService) (ids : List Nat) (r : Repo) : Repo :=
  if ids.contains r.id then
    let rest := r.sources.filter (·.externalServiceId != svc.id)
    { r with sources := rest, deleted := r.deleted || rest.isEmpty }
  else r

/-- Modelled from the spec: `DeleteExternalServiceRepo` for every id of `ids`. -/
def deleteExternalServiceRepos (st : Store) (svc : ExternalService) (ids : List Nat) : Store :=
  st.mapRepos (dropOwner svc ids) fun r => by unfold dropOwner; split <;> rfl

/-- Modelled from the spec: `DeleteExternalServiceRepo`, one repository. -/
def deleteExternalServiceRepo (st : Store) (svc : ExternalService) (id : Nat) : Store :=
  st.deleteExternalServiceRepos svc [id]

/-- Modelled from the spec: `DeleteExternalServiceReposNotIn` deletes, best effort,
every repository of `svc` not in `seen`. The ids in `fails` are the ones whose
deletion fails; it returns the ids it deleted and whether some deletion failed. -/
def deleteExternalServiceReposNotIn (st : Store) (svc : ExternalService) (seen : List Nat)
    (fails : Nat → Bool) : List Nat × Bool × Store :=
  let ids := st.ownedNotIn svc seen
  let deleted := ids.filter (!fails ·)
  (deleted, ids.any fails, st.deleteExternalServiceRepos svc deleted)

/-- Modelled from the spec: `ExternalServiceStore.Upsert` writes the whole record
over the one of its id, or adds it. -/
def upsertExternalService (st : Store) (svc : ExternalService) : Store :=
  { st with externalServices :=
      if st.externalServices.any (·.id == svc.id) then
        st.externalServices.map fun x => if x.id = svc.id then svc else x
      else st.externalServices ++ [svc] }

/-- Modelled from the spec: `ExternalServiceStore.Delete`, an administrator's soft
delete of the service at time `t`. -/
def deleteExternalService (st : Store) (id : Nat) (t : Int) : Store :=
  { st with externalServices :=
      st.externalServices.map fun x => if x.id = id then { x with deletedAt := t } else x }

/-! ## Small lemmas -/

@[simp] theorem mapRepos_repos (st : Store) (g : Repo → Repo) (hg) :
    (st.mapRepos g hg).repos = st.repos.map g := rfl
@[simp] theorem mapRepos_nextId (st : Store) (g : Repo → Repo) (hg) :
    (st.mapRepos g hg).nextId = st.nextId := rfl
@[simp] theorem deleteRepo_repos (st : Store) (id : Nat) :
    (st.deleteRepo id).repos = st.repos.filter fun r => r.id != id := rfl
@[simp] theorem deleteRepo_nextId (st : Store) (id : Nat) :
    (st.deleteRepo id).nextId = st.nextId := rfl
@[simp] theorem createExternalServiceRepo_repos (st : Store) (svc : ExternalService) (r : Repo) :
    (st.createExternalServiceRepo svc r).repos = st.repos ++ [st.newRow svc r] := rfl
@[simp] theorem createExternalServiceRepo_nextId (st : Store) (svc : ExternalService) (r : Repo) :
    (st.createExternalServiceRepo svc r).nextId = st.nextId + 1 := rfl
@[simp] theorem updateExternalServiceRepo_repos (st : Store) (svc : ExternalService) (r : Repo) :
    (st.updateExternalServiceRepo svc r).repos = st.repos.map (writeRow svc r) := rfl
@[simp] theorem deleteExternalServiceRepos_repos (st : Store) (svc : ExternalService)
    (ids : List Nat) :
    (st.deleteExternalServiceRepos svc ids).repos = st.repos.map (dropOwner svc ids) := rfl
@[simp] theorem upsertExternalService_repos (st : Store) (svc : ExternalService) :
    (st.upsertExternalService svc).repos = st.repos := rfl
@[simp] theorem deleteExternalService_repos (st : Store) (id : Nat) (t : Int) :
    (st.deleteExternalService id t).repos = st.repos := rfl
@[simp] theorem upsertExternalService_nextId (st : Store) (svc : ExternalService) :
    (st.upsertExternalService svc).nextId = st.nextId := rfl

@[simp] theorem mapRepos_externalServices (st : Store) (g : Repo → Repo) (hg) :
    (st.mapRepos g hg).externalServices = st.externalServices := rfl

/-- The table holds the record `Upsert` wrote. -/
theorem serviceRecord_upsert (st : Store) (svc : ExternalService) :
    (st.upsertExternalService svc).serviceRecord svc.id = some svc := by
  simp only [upsertExternalService, serviceRecord]
  split
  · rename_i h
    obtain ⟨x, hid⟩ := Option.isSome_iff_exists.mp (List.find?_isSome.mpr (List.any_eq_true.mp h))
    have hp : (fun x => (if x.id = svc.id then svc else x).id == svc.id) = (·.id == svc.id) := by
      funext x; split <;> simp_all
    simp only [List.find?_map, Function.comp_def, hp, hid, Option.map_some']
    simp [by simpa using List.find?_some hid]
  · rename_i h
    rw [List.find?_append, List.find?_eq_none.mpr (by simpa using h)]
    simp

/-- `GetByID` reads back the record `Upsert` wrote when that record is not deleted. -/
theorem getExternalService_upsert (st : Store) {svc : ExternalService} (h : svc.deletedAt = 0) :
    (st.upsertExternalService svc).getExternalService svc.id = some svc := by
  simp [getExternalService, serviceRecord_upsert, h]

theorem getExternalService_eq_some {st : Store} {id : Nat} {svc : ExternalService} :
    st.getExternalService id = some svc ↔ st.serviceRecord id = some svc ∧ svc.deletedAt = 0 := by
  simp [getExternalService, and_comm]

theorem getExternalService_id {st : Store} {id : Nat} {svc : ExternalService}
    (h : st.getExternalService id = some svc) : svc.id = id := by
  simpa using List.find?_some (getExternalService_eq_some.mp h).1

theorem mem_listByNameOrSpec {st : Store} {name : String} {spec : ExternalRepoSpec} {r : Repo} :
    r ∈ st.listByNameOrSpec name spec ↔ r ∈ st.repos ∧ (r.name = name ∨ r.externalRepo = spec) := by
  simp [listByNameOrSpec]

/-- Two rows of a store with the same id are the same row. -/
theorem eq_of_id_eq {st : Store} {a b : Repo} (ha : a ∈ st.repos) (hb : b ∈ st.repos)
    (h : a.id = b.id) : a = b :=
  List.inj_on_of_nodup_map st.ids_nodup ha hb h

@[simp] theorem writeRow_name (svc : ExternalService) (r x : Repo) :
    (writeRow svc r x).name = if x.id = r.id then r.name else x.name := by
  unfold writeRow; split <;> rfl
@[simp] theorem writeRow_externalRepo (svc : ExternalService) (r x : Repo) :
    (writeRow svc r x).externalRepo = if x.id = r.id then r.externalRepo else x.externalRepo := by
  unfold writeRow; split <;> rfl
@[simp] theorem dropOwner_name (svc : ExternalService) (ids : List Nat) (r : Repo) :
    (dropOwner svc ids r).name = r.name := by
  unfold dropOwner; split <;> rfl
@[simp] theorem dropOwner_externalRepo (svc : ExternalService) (ids : List Nat) (r : Repo) :
    (dropOwner svc ids r).externalRepo = r.externalRepo := by
  unfold dropOwner; split <;> rfl
@[simp] theorem dropOwner_id (svc : ExternalService) (ids : List Nat) (r : Repo) :
    (dropOwner svc ids r).id = r.id := by
  unfold dropOwner; split <;> rfl

end Store

end Sourcegraph.Repos
