import Sourcegraph.Repos.ExternalServiceSync
import Sourcegraph.Lang.Entries

/-! `dependencySyncSchedulerHandler.Handle`, the worker that takes a dependency syncing
job for an upload. It scans the upload's package references, records the external
service kind of each scheme in a Go map `kinds` (the empty kind for a scheme it does not
know) and inserts a cloneable dependency repo for each package of a known scheme. If it
saw a known kind it lists the external services of those kinds and writes each back
with `NextSyncAt` set to now, so that the syncer picks it up; then, for uploads indexed
by `lsif-go`, `lsif-java` or `lsif-tsc`, it inserts one dependency indexing job per kind.
Errors of single calls are collected and returned together; a failing `Next`, `List` or
`GetUploadByID` returns early. The deferred `Close` assigns its error to a local `err`
that is not the function's result, so a failed `Close` never reaches the caller. -/

namespace Sourcegraph.Codeintel

open Repos

/-- Modelled from the spec: an error as `lib/errors` builds it (not under src/): a store's
error by its text, `errors.Wrap` of an error with a message, or the aggregate error that
`errors.Append` joins, its errors in order. -/
inductive HandleError where
  | store (text : String)
  | wrap (msg : String) (cause : HandleError)
  | append (errs : List HandleError)
  deriving Repr

/-- A package reference the scanner of `ReferencesForUpload` yields, with the fields of
its `precise.Package`. -/
structure PackageReference where
  scheme : String
  name : String
  version : String
  deriving DecidableEq, Repr

/-- The fields of `dbstore.DependencySyncingJob` that `Handle` reads. -/
structure DependencySyncingJob where
  id : Nat
  uploadId : Nat
  deriving DecidableEq, Repr

/-- What `Handle` reads besides its job: `autoIndexingEnabled()`; what
`ReferencesForUpload` returns, an error or the references its scanner yields, then the
error `Next` returns after them if any; what
`InsertCloneableDependencyRepo` returns for each package (an error, or whether the repo
is new); what `List` returns for a filter of kinds; which `Upsert` fails; what
`GetUploadByID` returns, an error or the upload's indexer; which
`InsertDependencyIndexingJob` fails, by kind; what the scanner's `Close` returns; the
clock; and the order in which Go ranges over the keys of a map. -/
structure HandleEnv where
  autoIndexingEnabled : Bool
  references : Except String (List PackageReference)
  nextErr : Option String
  insert : PackageReference → Except String Bool
  list : List String → Except String (List ExternalService)
  upsertErr : ExternalService → Option String
  upload : Except String String
  insertJobErr : String → Option String
  closeErr : Option String
  now : Int
  order : List String → List String

/-- A store call of `Handle`, in the order it makes them. -/
inductive HandleEffect where
  | insertDependencyRepo (pkg : PackageReference)
  | list (kinds : List String)
  | upsert (svc : ExternalService)
  | insertDependencyIndexingJob (uploadId : Nat) (kind : String) (nextSync : Int)
  | close
  deriving DecidableEq, Repr

section Handler

/-! `schemeToExternalService` maps the package schemes the syncer can clone to their
external service kinds. Its constants are defined outside src/, so the map is a
parameter. -/
variable (schemeToExternalService : List (String × String)) (env : HandleEnv)

/-- The variables of the loop over the scanner: the map `kinds` (a set: its keys in the
order they were first set), the errors `errs` and the store calls so far. -/
structure ScanState where
  kinds : List (String × Unit)
  errs : List HandleError
  effects : List HandleEffect

/-- `insertDependencyRepo`: `InsertCloneableDependencyRepo`, its error wrapped. -/
def insertDependencyRepo (pkg : PackageReference) : Except HandleError Bool :=
  match env.insert pkg with
  | .error e => .error (.wrap "dbstore.InsertCloneableDependencyRepos" (.store e))
  | .ok new => .ok new

/-- One iteration of the loop over the scanner. The counts of new and old repos only
feed a log line. -/
def scanReference (ss : ScanState) (packageReference : PackageReference) : ScanState :=
  let pkg : PackageReference := ⟨packageReference.scheme, packageReference.name, packageReference.version⟩
  let extsvcKind := Entries.get? schemeToExternalService packageReference.scheme
  let ss := { ss with kinds := Entries.set ss.kinds (extsvcKind.getD "") () }
  match extsvcKind with
  | none => ss
  | some _ =>
    let ss := { ss with effects := ss.effects ++ [.insertDependencyRepo pkg] }
    match insertDependencyRepo env pkg with
    | .error err => { ss with errs := ss.errs ++ [err] }
    | .ok _ => ss

/-- The loop over the references the scanner yields. -/
def scan (ss : ScanState) : List PackageReference → ScanState
  | [] => ss
  | packageReference :: rest => scan (scanReference schemeToExternalService env ss packageReference) rest

/-- `kindsToArray`: the keys of `kinds` but the empty one, in Go's order. -/
def kindsToArray (kinds : List (String × Unit)) : List String :=
  (env.order (Entries.keys kinds)).filter (· != "")

/-- The error collected for an `Upsert` of a service, if it fails. -/
def upsertError (externalService : ExternalService) : Option HandleError :=
  (env.upsertErr externalService).map fun err =>
    .wrap ("extsvcStore.Upsert: error setting next_sync_at for external service " ++
      toString externalService.id ++ " - " ++ externalService.displayName) (.store err)

/-- The loop over the listed services: each written back with `NextSyncAt` set, and the
error of a failed `Upsert` collected. -/
def upsertAll (nextSync : Int) : List ExternalService → List HandleError × List HandleEffect
  | [] => ([], [])
  | externalService :: rest =>
    let externalService := { externalService with nextSyncAt := nextSync }
    let (errs, effects) := upsertAll nextSync rest
    ((upsertError env externalService).toList ++ errs, .upsert externalService :: effects)

/-- The block on the kinds with an external service: when some kind is not empty, `List`
and the `Upsert`s, or the early return of a failed `List`. It gives `nextSync`, the zero
time when no kind was listed, with the errors and calls so far. -/
def scheduleSyncs (ss : ScanState) :
    Except (HandleError × List HandleEffect) (Int × List HandleError × List HandleEffect) :=
  if (kindsToArray env ss.kinds).length > 0 then
    let nextSync := env.now
    let effects := ss.effects ++ [.list (kindsToArray env ss.kinds)]
    match env.list (kindsToArray env ss.kinds) with
    | .error err =>
      if ss.errs.length = 0 then .error (.wrap "dbstore.List" (.store err), effects)
      else .error (.append (.store err :: ss.errs), effects)
    | .ok externalServices =>
      let (errs, effects') := upsertAll env nextSync externalServices
      .ok (nextSync, ss.errs ++ errs, effects ++ effects')
  else .ok (0, ss.errs, ss.effects)

/-- `shouldIndexDependencies`: whether the upload was indexed by `lsif-go`, `lsif-java`
or `lsif-tsc`. -/
def shouldIndexDependencies : Except HandleError Bool :=
  match env.upload with
  | .error err => .error (.wrap "dbstore.GetUploadByID" (.store err))
  | .ok indexer => .ok (indexer == "lsif-go" || indexer == "lsif-java" || indexer == "lsif-tsc")

/-- The error collected for an `InsertDependencyIndexingJob` of a kind, if it fails. -/
def indexingJobError (kind : String) : Option HandleError :=
  (env.insertJobErr kind).map fun err => .wrap "dbstore.InsertDependencyIndexingJob" (.store err)

/-- The loop over `kinds` inserting one dependency indexing job per kind. -/
def insertIndexingJobs (uploadId : Nat) (nextSync : Int) : List String → List HandleError × List HandleEffect
  | [] => ([], [])
  | kind :: rest =>
    let (errs, effects) := insertIndexingJobs uploadId nextSync rest
    ((indexingJobError env kind).toList ++ errs, .insertDependencyIndexingJob uploadId kind nextSync :: effects)

/-- The three returns at the end: nil, the one error, or `errors.Append(nil, errs...)`. -/
def aggregate : List HandleError → Except HandleError Unit
  | [] => .ok ()
  | [err] => .error err
  | errs => .error (.append errs)

/-- The frame of `Handle` when a return statement has run: the unnamed result the return
wrote, and the local `err` of `scanner, err := h.dbStore.ReferencesForUpload(...)`. -/
structure HandleFrame where
  result : Except HandleError Unit
  err : Option HandleError

/-- `Handle` from the scan on: its frame at the return it reaches, and its store calls
before the deferred `Close`. Of the statements that set an `err`, only
`shouldIndex, err := h.shouldIndexDependencies(...)` assigns the local one; the others
declare an `err` of an inner block. -/
def afterOpen (job : DependencySyncingJob) (references : List PackageReference) :
    HandleFrame × List HandleEffect :=
  let ss := scan schemeToExternalService env ⟨[], [], []⟩ references
  match env.nextErr with
  | some err => (⟨.error (.wrap "dbstore.ReferencesForUpload.Next" (.store err)), none⟩, ss.effects)
  | none =>
    match scheduleSyncs env ss with
    | .error (err, effects) => (⟨.error err, none⟩, effects)
    | .ok (nextSync, errs, effects) =>
      match shouldIndexDependencies env with
      | .error err => (⟨.error err, some err⟩, effects)
      | .ok false => (⟨aggregate errs, none⟩, effects)
      | .ok true =>
        let (errs', effects') := insertIndexingJobs env job.uploadId nextSync (env.order (Entries.keys ss.kinds))
        (⟨aggregate (errs ++ errs'), none⟩, effects ++ effects')

/-- The error the deferred func builds when `Close` fails. -/
def closeError : Option HandleError :=
  env.closeErr.map fun closeErr => .wrap "dbstore.ReferencesForUpload.Close" (.store closeErr)

/-- The deferred func, on the frame: `err = errors.Append(err, ...)` when `Close` fails. -/
def deferClose (frame : HandleFrame) : HandleFrame :=
  match closeError env with
  | some closeErr => { frame with err := some (.append (frame.err.toList ++ [closeErr])) }
  | none => frame

/-- `dependencySyncSchedulerHandler.Handle`: the error it returns and its store calls. The
deferred `Close` runs at every return after `ReferencesForUpload`, and the caller gets
the result of the frame it leaves. -/
def handle (job : DependencySyncingJob) : Except HandleError Unit × List HandleEffect :=
  if !env.autoIndexingEnabled then (.ok (), [])
  else
    match env.references with
    | .error err => (.error (.wrap "dbstore.ReferencesForUpload" (.store err)), [])
    | .ok references =>
      let (frame, effects) := afterOpen schemeToExternalService env job references
      ((deferClose env frame).result, effects ++ [.close])

end Handler

/-! ## The calls and their errors -/

/-- The error of a store call of `Handle` that fails: the wrapped error of a failed insert,
`Upsert` or `Close`, the raw error of a failed `List`. -/
def HandleEffect.failure (env : HandleEnv) : HandleEffect → Option HandleError
  | .insertDependencyRepo pkg =>
    match Codeintel.insertDependencyRepo env pkg with
    | .error err => some err
    | .ok _ => none
  | .list kinds =>
    match env.list kinds with
    | .error err => some (.store err)
    | .ok _ => none
  | .upsert svc => upsertError env svc
  | .insertDependencyIndexingJob _ kind _ => indexingJobError env kind
  | .close => closeError env

/-- The `external_services` write of a store call, an `Upsert` of the whole record. -/
def HandleEffect.write? : HandleEffect → Option ServiceWrite
  | .upsert svc => some (.upsert svc)
  | _ => none

/-- The filter of a `List` call. -/
def HandleEffect.list? : HandleEffect → Option (List String)
  | .list kinds => some kinds
  | _ => none

/-- The writes a `List` call leads to: each service it returned, written back whole with
`NextSyncAt` set to the clock. -/
def listedWrites (env : HandleEnv) (kinds : List String) : List ServiceWrite :=
  match env.list kinds with
  | .ok svcs => svcs.map fun svc => .upsert { svc with nextSyncAt := env.now }
  | .error _ => []

section Lemmas

variable (schemeToExternalService : List (String × String)) (env : HandleEnv)

/-- The deferred func writes the local `err` only. -/
@[simp] theorem deferClose_result (frame : HandleFrame) : (deferClose env frame).result = frame.result := by
  unfold deferClose
  split <;> rfl

/-! What `Close` returns reaches none of the loops. -/

theorem scan_closeErr (c : Option String) (references : List PackageReference) : ∀ ss : ScanState,
    scan schemeToExternalService { env with closeErr := c } ss references = scan schemeToExternalService env ss references := by
  induction references with
  | nil => intro; rfl
  | cons r rest ih => intro ss; exact ih _

theorem upsertAll_closeErr (c : Option String) (nextSync : Int) (svcs : List ExternalService) :
    upsertAll { env with closeErr := c } nextSync svcs = upsertAll env nextSync svcs := by
  induction svcs with
  | nil => rfl
  | cons svc rest ih => simp only [upsertAll, ih]; rfl

theorem insertIndexingJobs_closeErr (c : Option String) (uploadId : Nat) (nextSync : Int) (kinds : List String) :
    insertIndexingJobs { env with closeErr := c } uploadId nextSync kinds = insertIndexingJobs env uploadId nextSync kinds := by
  induction kinds with
  | nil => rfl
  | cons kind rest ih => simp only [insertIndexingJobs, ih]; rfl

/-- Past the opening of the scanner, nothing reads what `Close` returns. -/
theorem afterOpen_closeErr (c : Option String) (job : DependencySyncingJob) (references : List PackageReference) :
    afterOpen schemeToExternalService { env with closeErr := c } job references =
      afterOpen schemeToExternalService env job references := by
  simp only [afterOpen, scheduleSyncs, scan_closeErr, upsertAll_closeErr, insertIndexingJobs_closeErr]
  rfl

theorem filterMap_map_eq_nil {α β : Type} {g : HandleEffect → Option β} {f : α → HandleEffect} (l : List α)
    (h : ∀ a, g (f a) = none) : (l.map f).filterMap g = [] := by
  simp [List.filterMap_map, List.filterMap_eq_nil_iff, h]

theorem filterMap_map_eq_map {α β : Type} {g : HandleEffect → Option β} {f : α → HandleEffect} {f' : α → β}
    (l : List α) (h : ∀ a, g (f a) = some (f' a)) : (l.map f).filterMap g = l.map f' := by
  induction l <;> simp [*]

theorem upserts_list? (t : Int) (svcs : List ExternalService) :
    (svcs.map fun svc => HandleEffect.upsert { svc with nextSyncAt := t }).filterMap HandleEffect.list? = [] :=
  filterMap_map_eq_nil _ fun _ => rfl

theorem upserts_write? (t : Int) (svcs : List ExternalService) :
    (svcs.map fun svc => HandleEffect.upsert { svc with nextSyncAt := t }).filterMap HandleEffect.write? =
      svcs.map fun svc => .upsert { svc with nextSyncAt := t } :=
  filterMap_map_eq_map _ fun _ => rfl

theorem jobs_list? (uploadId : Nat) (t : Int) (kinds : List String) :
    (kinds.map fun kind => HandleEffect.insertDependencyIndexingJob uploadId kind t).filterMap HandleEffect.list? = [] :=
  filterMap_map_eq_nil _ fun _ => rfl

theorem jobs_write? (uploadId : Nat) (t : Int) (kinds : List String) :
    (kinds.map fun kind => HandleEffect.insertDependencyIndexingJob uploadId kind t).filterMap HandleEffect.write? = [] :=
  filterMap_map_eq_nil _ fun _ => rfl

/-- Whether a reference has a scheme with an external service kind. -/
def isCloneable (packageReference : PackageReference) : Bool :=
  (Entries.get? schemeToExternalService packageReference.scheme).isSome

theorem scan_effects (references : List PackageReference) : ∀ ss : ScanState,
    (scan schemeToExternalService env ss references).effects =
      ss.effects ++ (references.filter (isCloneable schemeToExternalService)).map .insertDependencyRepo := by
  induction references with
  | nil => simp [scan]
  | cons r rest ih =>
    intro ss
    rw [scan, ih]
    unfold scanReference isCloneable
    rcases h : Entries.get? schemeToExternalService r.scheme with _ | k
    · simp [h, List.filter_cons]
    · dsimp only
      split <;> simp [h, List.filter_cons]

theorem scan_errs (references : List PackageReference) : ∀ ss : ScanState,
    (scan schemeToExternalService env ss references).errs =
      ss.errs ++ ((references.filter (isCloneable schemeToExternalService)).map .insertDependencyRepo).filterMap
        (HandleEffect.failure env) := by
  induction references with
  | nil => simp [scan]
  | cons r rest ih =>
    intro ss
    rw [scan, ih]
    unfold scanReference isCloneable
    rcases h : Entries.get? schemeToExternalService r.scheme with _ | k
    · simp [h, List.filter_cons]
    · dsimp only
      split <;> rename_i hi <;> simp [h, List.filter_cons, HandleEffect.failure, hi]

@[simp] theorem scanReference_kinds (ss : ScanState) (r : PackageReference) :
    (scanReference schemeToExternalService env ss r).kinds =
      Entries.set ss.kinds ((Entries.get? schemeToExternalService r.scheme).getD "") () := by
  unfold scanReference
  dsimp only
  split
  · rfl
  · split <;> rfl

theorem mem_keys_scan (references : List PackageReference) (k : String) : ∀ ss : ScanState,
    k ∈ Entries.keys (scan schemeToExternalService env ss references).kinds ↔
      k ∈ Entries.keys ss.kinds ∨ ∃ r ∈ references, (Entries.get? schemeToExternalService r.scheme).getD "" = k := by
  induction references with
  | nil => simp [scan]
  | cons r rest ih =>
    intro ss
    rw [scan, ih, scanReference_kinds, Entries.mem_keys_set]
    simp only [List.mem_cons, exists_eq_or_imp]
    tauto

theorem upsertAll_eq (nextSync : Int) (svcs : List ExternalService) :
    upsertAll env nextSync svcs =
      ((svcs.map fun svc => HandleEffect.upsert { svc with nextSyncAt := nextSync }).filterMap (HandleEffect.failure env),
        svcs.map fun svc => .upsert { svc with nextSyncAt := nextSync }) := by
  induction svcs with
  | nil => rfl
  | cons svc rest ih =>
    rw [upsertAll, ih]
    cases h : upsertError env { svc with nextSyncAt := nextSync } <;> simp [HandleEffect.failure, h]

theorem insertIndexingJobs_eq (uploadId : Nat) (nextSync : Int) (kinds : List String) :
    insertIndexingJobs env uploadId nextSync kinds =
      ((kinds.map fun kind => HandleEffect.insertDependencyIndexingJob uploadId kind nextSync).filterMap
        (HandleEffect.failure env), kinds.map fun kind => .insertDependencyIndexingJob uploadId kind nextSync) := by
  induction kinds with
  | nil => rfl
  | cons kind rest ih =>
    rw [insertIndexingJobs, ih]
    cases h : indexingJobError env kind <;> simp [HandleEffect.failure, h]

theorem aggregate_eq_ok (errs : List HandleError) : aggregate errs = .ok () ↔ errs = [] := by
  match errs with
  | [] => simp [aggregate]
  | [_] => simp [aggregate]
  | _ :: _ :: _ => simp [aggregate]

/-- The failures of the calls past the scan: a listed `List` that succeeded adds none. -/
theorem failures_list {kinds : List String} {svcs : List ExternalService} (h : env.list kinds = .ok svcs) :
    HandleEffect.failure env (.list kinds) = none := by
  simp [HandleEffect.failure, h]

/-- Past the scan, when `Next` returned no error, `List` succeeded if it was called and
`GetUploadByID` succeeded, `Handle` returns the aggregate of the failures of its calls,
in call order. -/
theorem afterOpen_of_ok (job : DependencySyncingJob) (references : List PackageReference)
    (hn : env.nextErr = none)
    (hl : ∀ kinds, .list kinds ∈ (afterOpen schemeToExternalService env job references).2 → (env.list kinds).toBool)
    (hu : env.upload.toBool) :
    (afterOpen schemeToExternalService env job references).1.result =
      aggregate ((afterOpen schemeToExternalService env job references).2.filterMap (HandleEffect.failure env)) := by
  obtain ⟨indexer, hi⟩ : ∃ indexer, env.upload = .ok indexer := by
    cases h : env.upload <;> simp_all [Except.toBool]
  unfold afterOpen at hl ⊢
  set ss := scan schemeToExternalService env ⟨[], [], []⟩ references with hss
  have hs : ss.effects.filterMap (HandleEffect.failure env) = ss.errs := by simp [hss, scan_effects, scan_errs]
  simp only [hn] at hl ⊢
  unfold scheduleSyncs at hl ⊢
  by_cases hk : (kindsToArray env ss.kinds).length > 0
  · simp only [hk, if_true] at hl ⊢
    rcases hlist : env.list (kindsToArray env ss.kinds) with e | svcs
    · have := hl (kindsToArray env ss.kinds) (by split_ifs <;> simp [hlist])
      simp [hlist, Except.toBool] at this
    · simp only [hlist, upsertAll_eq, shouldIndexDependencies, hi]
      cases indexer == "lsif-go" || indexer == "lsif-java" || indexer == "lsif-tsc" <;>
        simp [insertIndexingJobs_eq, List.filterMap_append, hs, failures_list env hlist]
  · simp only [hk, if_false, shouldIndexDependencies, hi]
    cases indexer == "lsif-go" || indexer == "lsif-java" || indexer == "lsif-tsc" <;>
      simp [insertIndexingJobs_eq, List.filterMap_append, hs]

/-- A nil result past the scan needs `Next` to have returned no error, `GetUploadByID` to
have succeeded, and every `List` call to have succeeded. -/
theorem afterOpen_ok (job : DependencySyncingJob) (references : List PackageReference)
    (hok : (afterOpen schemeToExternalService env job references).1.result = .ok ()) :
    env.nextErr = none ∧ env.upload.toBool ∧
      ∀ kinds, .list kinds ∈ (afterOpen schemeToExternalService env job references).2 → (env.list kinds).toBool := by
  unfold afterOpen at hok ⊢
  set ss := scan schemeToExternalService env ⟨[], [], []⟩ references with hss
  cases hn : env.nextErr with
  | some e => simp [hn] at hok
  | none =>
    simp only [hn] at hok ⊢
    unfold scheduleSyncs at hok ⊢
    by_cases hk : (kindsToArray env ss.kinds).length > 0
    · simp only [hk, if_true] at hok ⊢
      rcases hlist : env.list (kindsToArray env ss.kinds) with e | svcs
      · simp only [hlist] at hok
        split_ifs at hok
      · cases hu : env.upload with
        | error e => simp [hlist, shouldIndexDependencies, hu] at hok
        | ok indexer =>
          refine ⟨trivial, by simp [Except.toBool], fun kinds hm => ?_⟩
          simp only [hlist, upsertAll_eq, shouldIndexDependencies, hu] at hm
          split at hm <;>
            simp [hss, scan_effects, insertIndexingJobs_eq] at hm <;> simp [hm, hlist, Except.toBool]
    · simp only [hk, if_false] at hok ⊢
      cases hu : env.upload with
      | error e => simp [shouldIndexDependencies, hu] at hok
      | ok indexer =>
        refine ⟨trivial, by simp [Except.toBool], fun kinds hm => ?_⟩
        simp only [shouldIndexDependencies, hu] at hm
        split at hm <;> simp [hss, scan_effects, insertIndexingJobs_eq] at hm

/-- The `List` calls and the `external_services` writes past the scan: none, or the one
`List` of the kinds with a service and the writes of what it returned. -/
theorem afterOpen_calls (job : DependencySyncingJob) (references : List PackageReference) :
    ∃ rest, (afterOpen schemeToExternalService env job references).2 =
        (scan schemeToExternalService env ⟨[], [], []⟩ references).effects ++ rest ∧
      (rest.filterMap HandleEffect.list? = [] ∧ rest.filterMap HandleEffect.write? = [] ∨
        let kinds := kindsToArray env (scan schemeToExternalService env ⟨[], [], []⟩ references).kinds
        0 < kinds.length ∧ rest.filterMap HandleEffect.list? = [kinds] ∧
          rest.filterMap HandleEffect.write? = listedWrites env kinds) := by
  unfold afterOpen
  set ss := scan schemeToExternalService env ⟨[], [], []⟩ references
  set kinds := kindsToArray env ss.kinds
  cases env.nextErr with
  | some e => exact ⟨[], by simp, .inl ⟨rfl, rfl⟩⟩
  | none =>
  unfold scheduleSyncs
  dsimp only
  set upserts := fun svcs : List ExternalService => svcs.map fun svc => HandleEffect.upsert { svc with nextSyncAt := env.now }
  set jobs := fun t : Int => (env.order (Entries.keys ss.kinds)).map fun kind =>
    HandleEffect.insertDependencyIndexingJob job.uploadId kind t
  by_cases hk : kinds.length > 0
  · simp only [kinds] at hk
    rcases hlist : env.list kinds with e | svcs <;> simp only [kinds] at hlist <;>
      simp only [if_pos hk, hlist, upsertAll_eq, insertIndexingJobs_eq]
    · split_ifs <;> exact ⟨[.list kinds], rfl, .inr ⟨hk, rfl, by simp [listedWrites, hlist, HandleEffect.write?]⟩⟩
    · have hw : listedWrites env kinds = svcs.map fun svc => .upsert { svc with nextSyncAt := env.now } := by
        simp [listedWrites, kinds, hlist]
      have hA : ∃ rest, ss.effects ++ [.list kinds] ++ upserts svcs = ss.effects ++ rest ∧
          (rest.filterMap HandleEffect.list? = [] ∧ rest.filterMap HandleEffect.write? = [] ∨
            0 < kinds.length ∧ rest.filterMap HandleEffect.list? = [kinds] ∧
              rest.filterMap HandleEffect.write? = listedWrites env kinds) :=
        ⟨.list kinds :: upserts svcs, by simp, .inr ⟨hk,
          by simp only [List.filterMap_cons, HandleEffect.list?, upserts, upserts_list?],
          by simp only [List.filterMap_cons, HandleEffect.write?, upserts, upserts_write?, hw]⟩⟩
      split
      · exact hA
      · exact hA
      · exact ⟨.list kinds :: (upserts svcs ++ jobs env.now), by simp [upserts, jobs], .inr ⟨hk,
          by simp only [List.filterMap_cons, List.filterMap_append, HandleEffect.list?, upserts, upserts_list?, jobs,
            jobs_list?, List.append_nil],
          by simp only [List.filterMap_cons, List.filterMap_append, HandleEffect.write?, upserts, upserts_write?, hw,
            jobs, jobs_write?, List.append_nil]⟩⟩
  · simp only [kinds] at hk
    simp only [hk, if_false, insertIndexingJobs_eq]
    split
    · exact ⟨[], by simp, .inl ⟨rfl, rfl⟩⟩
    · exact ⟨[], by simp, .inl ⟨rfl, rfl⟩⟩
    · exact ⟨jobs 0, rfl, .inl ⟨jobs_list? _ _ _, jobs_write? _ _ _⟩⟩

end Lemmas

/-! ## What `Handle` returns -/

section Handle

variable (schemeToExternalService : List (String × String)) (env : HandleEnv)

/-- **Every failure is reported, in order.** When auto-indexing is on,
`ReferencesForUpload`, `Next` and `GetUploadByID` succeed and so does the `List` it
calls, `Handle` returns the errors of exactly the store calls before the deferred `Close`
that failed, in the order it made them: nil when none did, the error itself when one
did, their aggregate otherwise. -/
theorem handle_reports_failures (job : DependencySyncingJob) (he : env.autoIndexingEnabled = true)
    (hr : env.references.toBool) (hn : env.nextErr = none)
    (hl : ∀ kinds, .list kinds ∈ (handle schemeToExternalService env job).2 → (env.list kinds).toBool)
    (hu : env.upload.toBool) :
    (handle schemeToExternalService env job).1 =
      aggregate ((handle schemeToExternalService env job).2.dropLast.filterMap (HandleEffect.failure env)) := by
  obtain ⟨references, hrefs⟩ : ∃ references, env.references = .ok references := by
    cases h : env.references <;> simp_all [Except.toBool]
  simp only [handle, he, hrefs, Bool.not_true, Bool.false_eq_true, if_false, deferClose_result,
    List.dropLast_concat] at hl ⊢
  rw [
    afterOpen_of_ok schemeToExternalService env job references hn (fun k hk => hl k (List.mem_append_left _ hk)) hu]

/-- The npm scheme, the one the sample handler knows. -/
def npmSchemes : List (String × String) := [("npm", "NPMPACKAGES")]

/-- An npm packages service. -/
def npmService : ExternalService := ⟨2, "NPMPACKAGES", "npm packages", "{}", 0, 0, false, 0, 0, 0⟩

/-- A job whose upload references an npm package and a Go package, where inserting the
npm repo, the indexing job of the empty kind and the scanner's `Close` fail. -/
def sampleEnv : HandleEnv where
  autoIndexingEnabled := true
  references := .ok [⟨"npm", "left-pad", "1.3.0"⟩, ⟨"go", "github.com/x/y", "v1.0.0"⟩]
  nextErr := none
  insert _ := .error "duplicate key"
  list _ := .ok [npmService]
  upsertErr _ := none
  upload := .ok "lsif-tsc"
  insertJobErr kind := if kind = "" then some "connection reset" else none
  closeErr := some "bad connection"
  now := 100
  order := id

/-- The failures the sample job reports: the failed insert, then the failed indexing job. -/
theorem handle_reports_failures_sample :
    (handle npmSchemes sampleEnv ⟨1, 7⟩).1 =
      aggregate ((handle npmSchemes sampleEnv ⟨1, 7⟩).2.dropLast.filterMap (HandleEffect.failure sampleEnv)) :=
  handle_reports_failures npmSchemes sampleEnv ⟨1, 7⟩ rfl rfl rfl (fun _ _ => rfl) rfl

/-- **Nil means every call succeeded but `Close`.** For every job and every behaviour of
the stores, what `Close` returns changes neither what `Handle` returns nor its calls; and
`Handle` returns nil exactly when auto-indexing is off, or when `ReferencesForUpload`,
`Next` and `GetUploadByID` succeeded and so did every store call before the deferred
`Close`: each insert of a dependency repo, the `List` of services, each `Upsert` and each
insert of an indexing job. -/
theorem handle_ok_iff (job : DependencySyncingJob) :
    (∀ c, handle schemeToExternalService { env with closeErr := c } job = handle schemeToExternalService env job) ∧
    ((handle schemeToExternalService env job).1 = .ok () ↔
      env.autoIndexingEnabled = false ∨
        (env.references.toBool ∧ env.nextErr = none ∧ env.upload.toBool ∧
          ∀ eff ∈ (handle schemeToExternalService env job).2.dropLast, eff.failure env = none)) := by
  refine ⟨fun c => by simp only [handle, deferClose_result, afterOpen_closeErr], ?_⟩
  cases he : env.autoIndexingEnabled with
  | false => simp [handle, he]
  | true =>
    cases hr : env.references with
    | error e => simp [handle, he, hr, Except.toBool]
    | ok references =>
      simp only [handle, he, hr, Bool.not_true, Bool.false_eq_true, if_false, Bool.true_eq_false, false_or,
        Except.toBool, true_and, deferClose_result, List.dropLast_concat]
      constructor
      · intro hok
        obtain ⟨hn, hu, hl⟩ := afterOpen_ok schemeToExternalService env job references hok
        rw [afterOpen_of_ok schemeToExternalService env job references hn hl hu, aggregate_eq_ok,
          List.filterMap_eq_nil_iff] at hok
        exact ⟨hn, by simpa [Except.toBool] using hu, hok⟩
      · rintro ⟨hn, hu, hall⟩
        have hl : ∀ kinds, .list kinds ∈ (afterOpen schemeToExternalService env job references).2 →
            (env.list kinds).toBool := fun kinds hm => by
          have := hall _ hm
          cases h : env.list kinds <;> simp_all [HandleEffect.failure, Except.toBool]
        rw [afterOpen_of_ok schemeToExternalService env job references hn hl (by simpa [Except.toBool] using hu),
          aggregate_eq_ok, List.filterMap_eq_nil_iff]
        exact hall

/-- **It never lists every service.** For every job, with Go ranging over `kinds` in any
order: `Handle` calls `List` at most once, and only with a non-empty filter of non-empty
kinds, each the kind of the scheme of a package reference of the upload, so it never asks
for every service. Its writes to `external_services` are whole-record `Upsert`s of
exactly the services that `List` returned, each once and in order, with `NextSyncAt` set
to the clock. -/
theorem handle_writes_listed (job : DependencySyncingJob) (horder : ∀ l, (env.order l).Perm l) :
    ((handle schemeToExternalService env job).2.filterMap HandleEffect.list?).length ≤ 1 ∧
    (∀ kinds ∈ (handle schemeToExternalService env job).2.filterMap HandleEffect.list?, kinds ≠ [] ∧
      ∀ k ∈ kinds, k ≠ "" ∧ ∃ references, env.references = .ok references ∧
        ∃ r ∈ references, Entries.get? schemeToExternalService r.scheme = some k) ∧
    (handle schemeToExternalService env job).2.filterMap HandleEffect.write? =
      ((handle schemeToExternalService env job).2.filterMap HandleEffect.list?).flatMap (listedWrites env) := by
  cases he : env.autoIndexingEnabled with
  | false => simp [handle, he]
  | true =>
  cases hr : env.references with
  | error e => simp [handle, he, hr]
  | ok references =>
  simp only [handle, he, hr, Bool.not_true, Bool.false_eq_true, if_false]
  set ss := scan schemeToExternalService env ⟨[], [], []⟩ references with hss
  have hl : ss.effects.filterMap HandleEffect.list? = [] := by
    rw [hss, scan_effects]; exact filterMap_map_eq_nil _ fun _ => rfl
  have hw : ss.effects.filterMap HandleEffect.write? = [] := by
    rw [hss, scan_effects]; exact filterMap_map_eq_nil _ fun _ => rfl
  obtain ⟨rest, heff, hrest⟩ := afterOpen_calls schemeToExternalService env job references
  rw [heff]
  simp only [List.filterMap_append, hl, hw, List.nil_append, List.filterMap_cons, List.filterMap_nil,
    HandleEffect.list?, HandleEffect.write?, List.append_nil]
  rcases hrest with ⟨hrl, hrw⟩ | ⟨hk, hrl, hrw⟩
  · simp [hrl, hrw]
  · refine ⟨by simp [hrl], fun kinds hkinds => ?_, by simp [hrl, hrw]⟩
    rw [hrl, List.mem_singleton] at hkinds
    subst hkinds
    refine ⟨List.ne_nil_of_length_pos hk, fun k hk' => ?_⟩
    simp only [kindsToArray, List.mem_filter, bne_iff_ne, ne_eq] at hk'
    obtain ⟨hk', hne⟩ := hk'
    rcases (mem_keys_scan schemeToExternalService env references k _).mp ((horder _).mem_iff.mp hk') with
      h | ⟨r, hr', hrk⟩
    · simp at h
    · refine ⟨hne, references, rfl, r, hr', ?_⟩
      cases h : Entries.get? schemeToExternalService r.scheme <;> simp_all

/-- The sample job lists the npm kind and writes back the npm service. -/
theorem handle_writes_listed_sample :
    ((handle npmSchemes sampleEnv ⟨1, 7⟩).2.filterMap HandleEffect.list?).length ≤ 1 ∧
    (∀ kinds ∈ (handle npmSchemes sampleEnv ⟨1, 7⟩).2.filterMap HandleEffect.list?, kinds ≠ [] ∧
      ∀ k ∈ kinds, k ≠ "" ∧ ∃ references, sampleEnv.references = .ok references ∧
        ∃ r ∈ references, Entries.get? npmSchemes r.scheme = some k) ∧
    (handle npmSchemes sampleEnv ⟨1, 7⟩).2.filterMap HandleEffect.write? =
      ((handle npmSchemes sampleEnv ⟨1, 7⟩).2.filterMap HandleEffect.list?).flatMap (listedWrites sampleEnv) :=
  handle_writes_listed npmSchemes sampleEnv ⟨1, 7⟩ fun _ => List.Perm.refl _

end Handle



end Sourcegraph.Codeintel
