import Mathlib.Data.List.Basic
import Mathlib.Data.List.GetD
import Mathlib.Logic.Function.Basic

/-! `DependenciesService.Dependencies`. For every (repository, revision) pair an errgroup
task lists the revision's dependencies; for every dependency it acquires a permit and
starts a second task, which upserts the dependency, syncs its repository, records its
revision and releases the permit. All tasks share one weighted semaphore of 32
permits, and a pair's task holds one of them from its first `Acquire` until it
returns, across the `Acquire` of each dependency. With no call failing the errgroup
context is never cancelled, so a task blocked in `Acquire` waits for a `Release`.

The main goroutine starts every pair's task before `g.Wait`; a started task that has
not run yet is the same as one not started, so the model starts them all at once. -/

namespace Sourcegraph.Codeintel

/-- The weight of `semaphore.NewWeighted(32)`. -/
def semSize : Nat := 32

/-- Modelled from the spec: what `Dependencies` reads of a dependency that
`ListDependencies` returns, `dep.RepoName()` and `dep.GitTagFromVersion()`. -/
structure Dep where
  repoName : String
  gitTag : String
  deriving DecidableEq, Repr

/-- Where the task of one (repository, revision) pair is. -/
inductive PairPc where
  /-- before its first `sem.Acquire` -/
  | start
  /-- blocked in its first `sem.Acquire` -/
  | waitSelf
  /-- holds its permit, has listed the dependencies, and is at dependency `j` -/
  | holding (j : Nat)
  /-- blocked in the `sem.Acquire` for dependency `j` -/
  | waitDep (j : Nat)
  /-- returned, its permit released -/
  | done
  deriving DecidableEq, Repr

/-- The tasks and the semaphore. `deps` are the dependency tasks started, each with
whether it finished; `cur` the permits held; `waiters` the pair tasks blocked in
`Acquire`, first come first; `result` the entries of `dependencyRevs`. -/
@[ext] structure State where
  pairs : Nat → PairPc
  deps : List (Dep × Bool)
  cur : Nat
  waiters : List Nat
  result : List (String × String)

/-- Every pair's task started, no permit held. -/
def State.init : State := ⟨fun _ => .start, [], 0, [], []⟩

variable (input : List (List Dep))

/-- The dependencies `ListDependencies` returns for pair `k`. -/
def depsOf (k : Nat) : List Dep := input.getD k []

/-- The task of pair `k` continues with a permit: after its first `Acquire` it is at its
first dependency; after the one for dependency `j` it starts that dependency's task
and goes on to the next. -/
def grant (s : State) (k : Nat) : State :=
  match s.pairs k with
  | .waitSelf => { s with pairs := Function.update s.pairs k (.holding 0) }
  | .waitDep j =>
    { s with
      pairs := Function.update s.pairs k (.holding (j + 1))
      deps := s.deps ++ [((depsOf input k).getD j ⟨"", ""⟩, false)] }
  | _ => s

/-- `sem.Acquire(ctx, 1)` by pair task `k`, which waits at `waiting`: the permit is
taken at once when one is free and nobody waits, and the task queues otherwise. -/
def acquire (s : State) (k : Nat) (waiting : PairPc) : State :=
  let s' := { s with pairs := Function.update s.pairs k waiting }
  if s.cur < semSize ∧ s.waiters = [] then grant input { s' with cur := s.cur + 1 } k
  else { s' with waiters := s.waiters ++ [k] }

/-- `notifyWaiters`: while the first waiter fits, it takes a permit and goes on. -/
def notifyWaiters : Nat → State → State
  | 0, s => s
  | fuel + 1, s =>
    match s.waiters with
    | [] => s
    | k :: rest =>
      if s.cur < semSize then notifyWaiters fuel (grant input { s with waiters := rest, cur := s.cur + 1 } k)
      else s

/-- `sem.Release(1)`. -/
def release (s : State) : State :=
  notifyWaiters input s.waiters.length { s with cur := s.cur - 1 }

/-- One step of one task. -/
inductive Step where
  /-- pair task `k` calls its first `sem.Acquire` -/
  | acquireSelf (k : Nat)
  /-- pair task `k` calls `sem.Acquire` for its next dependency -/
  | acquireDep (k : Nat)
  /-- pair task `k` has started every dependency's task and returns -/
  | finishPair (k : Nat)
  /-- dependency task `m` upserts, syncs, records its revision and returns -/
  | runDep (m : Nat)
  deriving DecidableEq, Repr

/-- The state after a step, when the task can take it. -/
def next (s : State) : Step → Option State
  | .acquireSelf k =>
    if k < input.length ∧ s.pairs k = .start then some (acquire input s k .waitSelf) else none
  | .acquireDep k =>
    match s.pairs k with
    | .holding j => if j < (depsOf input k).length then some (acquire input s k (.waitDep j)) else none
    | _ => none
  | .finishPair k =>
    match s.pairs k with
    | .holding j =>
      if j = (depsOf input k).length then
        some (release input { s with pairs := Function.update s.pairs k .done })
      else none
    | _ => none
  | .runDep m =>
    match s.deps[m]? with
    | some (d, false) =>
      some (release input
        { s with
          deps := s.deps.set m (d, true)
          result := s.result ++ [(d.repoName, d.gitTag)] })
    | _ => none

/-- The states the tasks reach from the start. -/
inductive Reachable : State → Prop where
  | init : Reachable .init
  | step {s s' : State} {a : Step} : Reachable s → next input s a = some s' → Reachable s'

/-! ## The result when every task returns -/

/-- The entry a dependency adds to `dependencyRevs`: its repository and its revision. -/
def Dep.entry (d : Dep) : String × String := (d.repoName, d.gitTag)

/-- How many of its dependencies' tasks the task of pair `k` has started. -/
def started (k : Nat) : PairPc → Nat
  | .start | .waitSelf => 0
  | .holding j | .waitDep j => j
  | .done => (depsOf input k).length

/-- The `j`-th dependency of pair `k`. -/
def depAt (k j : Nat) : Dep := (depsOf input k).getD j ⟨"", ""⟩

/-- What the tasks keep about the dependencies: the started dependency tasks are those
of each pair's first `started` dependencies; a task that finished recorded its entry;
every entry comes from a finished task. -/
structure ResultInv (s : State) : Prop where
  idle : ∀ k, input.length ≤ k → s.pairs k = .start
  started_le : ∀ k, started input k (s.pairs k) ≤ (depsOf input k).length
  waitDep_lt : ∀ k j, s.pairs k = .waitDep j → j < (depsOf input k).length
  spawned : ∀ d ∈ s.deps.map Prod.fst, ∃ k, ∃ j < started input k (s.pairs k), d = depAt input k j
  complete : ∀ k, ∀ j < started input k (s.pairs k), depAt input k j ∈ s.deps.map Prod.fst
  recorded : ∀ p ∈ s.deps, p.2 = true → p.1.entry ∈ s.result
  result : ∀ x ∈ s.result, ∃ d, (d, true) ∈ s.deps ∧ d.entry = x

namespace ResultInv

theorem init : ResultInv input .init where
  idle _ _ := rfl
  started_le _ := Nat.zero_le _
  waitDep_lt _ _ h := by cases h
  spawned _ h := by simp [State.init] at h
  complete _ _ h := by simp [started, State.init] at h
  recorded _ h := by simp [State.init] at h
  result _ h := by simp [State.init] at h

variable {input} {s : State} (h : ResultInv input s)
include h

/-- Moving a pair task to a place with the same number of started dependencies. -/
theorem setPc {k : Nat} {p : PairPc} (hk : k < input.length ∨ p = .start)
    (hs : started input k p = started input k (s.pairs k))
    (hw : ∀ j, p = .waitDep j → j < (depsOf input k).length) :
    ResultInv input { s with pairs := Function.update s.pairs k p } := by
  have hst : ∀ i, started input i (Function.update s.pairs k p i) = started input i (s.pairs i) := by
    intro i; by_cases hi : i = k
    · subst hi; simpa using hs
    · simp [Function.update_noteq hi]
  refine ⟨fun i hi => ?_, fun i => (hst i).symm ▸ h.started_le i, fun i j hij => ?_,
    fun d hd => ?_, fun i j hj => ?_, h.recorded, h.result⟩
  · by_cases hik : i = k
    · subst hik; simp only [Function.update_same]
      rcases hk with hk | rfl
      · omega
      · rfl
    · simpa [Function.update_noteq hik] using h.idle i hi
  · by_cases hik : i = k
    · subst hik; exact hw j (by simpa using hij)
    · exact h.waitDep_lt i j (by simpa [Function.update_noteq hik] using hij)
  · obtain ⟨i, j, hj, rfl⟩ := h.spawned d hd
    exact ⟨i, j, (hst i).symm ▸ hj, rfl⟩
  · exact h.complete i j ((hst i) ▸ hj)

theorem sem (c : Nat) (w : List Nat) : ResultInv input { s with cur := c, waiters := w } :=
  ⟨h.1, h.2, h.3, h.4, h.5, h.6, h.7⟩

theorem lt_of_ne_start {k : Nat} (hk : s.pairs k ≠ .start) : k < input.length :=
  Nat.lt_of_not_le fun hle => hk (h.idle k hle)

/-- The task at dependency `j` starts that dependency's task. -/
theorem spawn {k j : Nat} (hk : k < input.length) (hj : j < (depsOf input k).length) (hs : started input k (s.pairs k) = j) :
    ResultInv input { s with
      pairs := Function.update s.pairs k (.holding (j + 1))
      deps := s.deps ++ [(depAt input k j, false)] } := by
  have hst : ∀ i, started input i (Function.update s.pairs k (.holding (j + 1)) i) =
      if i = k then j + 1 else started input i (s.pairs i) := by
    intro i; by_cases hi : i = k
    · subst hi; simp [started]
    · simp [Function.update_noteq hi, hi]
  refine ⟨fun i hi => ?_, fun i => ?_, fun i j' hij => ?_, fun d hd => ?_, fun i j' hj' => ?_,
    fun p hp hp2 => ?_, fun x hx => ?_⟩
  · have : i ≠ k := by omega
    simpa [Function.update_noteq this] using h.idle i hi
  · rw [hst]; split
    · subst_vars; omega
    · exact h.started_le i
  · by_cases hik : i = k
    · subst hik; simp at hij
    · exact h.waitDep_lt i j' (by simpa [Function.update_noteq hik] using hij)
  · simp only [List.map_append, List.map_cons, List.map_nil, List.mem_append, List.mem_singleton] at hd
    rcases hd with hd | rfl
    · obtain ⟨i, j', hj', rfl⟩ := h.spawned d hd
      refine ⟨i, j', ?_, rfl⟩
      rw [hst]; split
      · subst_vars; omega
      · exact hj'
    · exact ⟨k, j, by rw [hst]; simp, rfl⟩
  · rw [hst] at hj'
    simp only [List.map_append, List.map_cons, List.map_nil, List.mem_append, List.mem_singleton]
    split at hj'
    · rename_i hik
      subst hik
      rcases Nat.lt_succ_iff_lt_or_eq.mp hj' with hlt | rfl
      · exact .inl (h.complete _ j' (by rw [hs]; exact hlt))
      · exact .inr rfl
    · exact .inl (h.complete i j' hj')
  · simp only [List.mem_append, List.mem_singleton] at hp
    rcases hp with hp | rfl
    · exact h.recorded p hp hp2
    · cases hp2
  · obtain ⟨d, hd, rfl⟩ := h.result x hx
    exact ⟨d, List.mem_append_left _ hd, rfl⟩

theorem grant (k : Nat) : ResultInv input (grant input s k) := by
  unfold Codeintel.grant
  split
  · rename_i hpc
    exact h.setPc (.inl (h.lt_of_ne_start (by simp [hpc]))) (by simp [hpc, started]) (by simp)
  · rename_i j hpc
    exact h.spawn (h.lt_of_ne_start (by simp [hpc])) (h.waitDep_lt k j hpc) (by simp [hpc, started])
  · exact h

/-- A dependency task finishes and records its entry. -/
theorem finishDep {m : Nat} {d : Dep} (hm : s.deps[m]? = some (d, false)) :
    ResultInv input { s with
      deps := s.deps.set m (d, true)
      result := s.result ++ [d.entry] } := by
  obtain ⟨hlt, hdm⟩ := List.getElem?_eq_some_iff.mp hm
  have hfst : (s.deps.set m (d, true)).map Prod.fst = s.deps.map Prod.fst := by
    rw [List.map_set]
    apply List.ext_getElem (by simp)
    intro i h1 _
    rw [List.getElem_set]
    split
    · subst_vars; simp [hdm]
    · rfl
  have hkeep : ∀ p ∈ s.deps, p ≠ (d, false) → p ∈ s.deps.set m (d, true) := by
    intro p hp hne
    obtain ⟨i, hi, rfl⟩ := List.mem_iff_getElem.mp hp
    have him : m ≠ i := by rintro rfl; exact hne hdm
    exact List.mem_iff_getElem.mpr ⟨i, by simpa using hi, by simp [List.getElem_set_ne him]⟩
  refine ⟨h.idle, h.started_le, h.waitDep_lt, fun d' hd' => h.spawned d' (hfst ▸ hd'),
    fun k j hj => hfst ▸ h.complete k j hj, fun p hp hp2 => ?_, fun x hx => ?_⟩
  · rcases List.mem_or_eq_of_mem_set hp with hp | rfl
    · exact List.mem_append_left _ (h.recorded p hp hp2)
    · simp
  · rcases List.mem_append.mp hx with hx | hx
    · obtain ⟨d', hd', rfl⟩ := h.result x hx
      exact ⟨d', hkeep _ hd' (by simp), rfl⟩
    · simp only [List.mem_singleton] at hx
      exact ⟨d, List.mem_set _ _ hlt _, hx.symm⟩

end ResultInv

theorem ResultInv.notifyWaiters : ∀ (fuel : Nat) {s : State}, ResultInv input s →
    ResultInv input (notifyWaiters input fuel s)
  | 0, _, h => h
  | fuel + 1, s, h => by
    unfold Codeintel.notifyWaiters
    split
    · exact h
    · split
      · exact ResultInv.notifyWaiters fuel ((h.sem _ _).grant _)
      · exact h

theorem ResultInv.release {s : State} (h : ResultInv input s) : ResultInv input (release input s) :=
  ResultInv.notifyWaiters input _ (h.sem _ _)

theorem ResultInv.acquire {s : State} {k : Nat} {p : PairPc}
    (h : ResultInv input { s with pairs := Function.update s.pairs k p }) :
    ResultInv input (acquire input s k p) := by
  unfold Codeintel.acquire
  split
  · exact (h.sem _ _).grant _
  · exact h.sem _ _

/-- **The step lemma.** Every step keeps `ResultInv`. -/
theorem ResultInv.next {s s' : State} {a : Step} (h : ResultInv input s)
    (hn : next input s a = some s') : ResultInv input s' := by
  cases a with
  | acquireSelf k =>
    simp only [Codeintel.next] at hn
    split at hn
    · rename_i hk; cases hn
      exact ResultInv.acquire input (h.setPc (.inl hk.1) (by simp [hk.2, started]) (by simp))
    · cases hn
  | acquireDep k =>
    simp only [Codeintel.next] at hn
    split at hn
    · rename_i j hpc
      split at hn
      · rename_i hj; cases hn
        exact ResultInv.acquire input (h.setPc (.inl (h.lt_of_ne_start (by simp [hpc])))
          (by simp [hpc, started]) (by simpa using hj))
      · cases hn
    · cases hn
  | finishPair k =>
    simp only [Codeintel.next] at hn
    split at hn
    · rename_i j hpc
      split at hn
      · rename_i hj; cases hn
        exact (h.setPc (.inl (h.lt_of_ne_start (by simp [hpc]))) (by simp [hpc, started, hj])
          (by simp)).release input
      · cases hn
    · cases hn
  | runDep m =>
    simp only [Codeintel.next] at hn
    split at hn
    · rename_i d hm; cases hn
      exact (h.finishDep hm).release input
    · cases hn

theorem Reachable.resultInv {s : State} (h : Reachable input s) : ResultInv input s := by
  induction h with
  | init => exact ResultInv.init input
  | step _ hn ih => exact ih.next input hn

theorem depAt_mem {k j : Nat} (hk : k < input.length) (hj : j < (depsOf input k).length) :
    depAt input k j ∈ input[k] := by
  simp only [depAt, depsOf, List.getD_eq_getElem _ _ hk] at hj ⊢
  rw [List.getD_eq_getElem _ _ hj]
  exact List.getElem_mem ..

/-- **The result.** When every task has returned, so that `g.Wait` returns nil,
`dependencyRevs` holds exactly the entries (dependency repository, `GitTagFromVersion`
revision) of the dependencies of all pairs. -/
theorem dependencies_result {s : State} (h : Reachable input s)
    (hpairs : ∀ k < input.length, s.pairs k = .done) (hdone : ∀ p ∈ s.deps, p.2 = true) :
    ∀ x, x ∈ s.result ↔ ∃ ds ∈ input, ∃ d ∈ ds, d.entry = x := by
  have inv := h.resultInv
  intro x
  constructor
  · intro hx
    obtain ⟨d, hd, rfl⟩ := inv.result x hx
    obtain ⟨k, j, hj, rfl⟩ := inv.spawned d (List.mem_map_of_mem _ hd)
    have hk : k < input.length := Nat.lt_of_not_le fun hle => by
      simp [inv.idle k hle, started] at hj
    simp only [hpairs k hk, started] at hj
    exact ⟨_, List.getElem_mem .., _, depAt_mem input hk hj, rfl⟩
  · rintro ⟨ds, hds, d, hd, rfl⟩
    obtain ⟨k, hk, rfl⟩ := List.mem_iff_getElem.mp hds
    obtain ⟨j, hj, rfl⟩ := List.mem_iff_getElem.mp hd
    have hj' : j < (depsOf input k).length := by rw [depsOf, List.getD_eq_getElem _ _ hk]; exact hj
    have hc := inv.complete k j (by simpa [hpairs k hk, started] using hj')
    obtain ⟨⟨d', b⟩, hp, hd'⟩ := List.mem_map.mp hc
    have hb : b = true := hdone _ hp
    subst hb
    have := inv.recorded _ hp rfl
    simp only at hd'
    rw [hd', depAt, depsOf, List.getD_eq_getElem _ _ hk, List.getD_eq_getElem _ _ hj] at this
    exact this

/-! ## A deadlock -/

/-- Pair tasks `0 … k-1` took their first permits and stand at their first dependency. -/
def afterSelf (k : Nat) : State := ⟨fun i => if i < k then .holding 0 else .start, [], k, [], []⟩

/-- The first 32 pair tasks hold permits, and tasks `0 … k-1` queued for their first
dependency. -/
def afterDep (k : Nat) : State :=
  ⟨fun i => if i < k then .waitDep 0 else if i < semSize then .holding 0 else .start, [], semSize,
    List.range k, []⟩

/-- The first 32 pair tasks queued for their first dependency, and tasks `32 … k-1` for
their first permit. -/
def afterQueue (k : Nat) : State :=
  ⟨fun i => if i < semSize then .waitDep 0 else if i < k then .waitSelf else .start, [], semSize,
    List.range k, []⟩

/-- Moving task `k` to where tasks `0 … k-1` are. -/
theorem update_ite_lt {α : Type} (a : α) (k : Nat) (f : Nat → α) :
    Function.update (fun i => if i < k then a else f i) k a = fun i => if i < k + 1 then a else f i := by
  funext i
  rcases Nat.lt_trichotomy i k with h | rfl | h
  · simp [Function.update_noteq h.ne, h, Nat.lt_succ_of_lt h]
  · simp
  · simp [Function.update_noteq h.ne', Nat.not_lt.mpr h.le, Nat.not_lt.mpr h]

theorem next_afterSelf {k : Nat} (hk : k < semSize) (hn : k < input.length) :
    next input (afterSelf k) (.acquireSelf k) = some (afterSelf (k + 1)) := by
  simp only [next, afterSelf, lt_irrefl, if_false, hn, true_and, if_true, acquire, hk, and_self,
    grant, Function.update_same, Function.update_idem, update_ite_lt]

theorem next_afterDep {k : Nat} (hk : k < semSize) (hd : depsOf input k ≠ []) :
    next input (afterDep k) (.acquireDep k) = some (afterDep (k + 1)) := by
  simp only [next, afterDep, lt_irrefl, if_false, hk, if_true, List.length_pos.mpr hd, acquire,
    false_and, List.range_succ]
  congr 1
  ext : 1
  · exact update_ite_lt _ k _
  all_goals rfl

theorem next_afterQueue {k : Nat} (hk : semSize ≤ k) (hn : k < input.length) :
    next input (afterQueue k) (.acquireSelf k) = some (afterQueue (k + 1)) := by
  simp only [next, afterQueue, Nat.not_lt.mpr hk, lt_irrefl, if_false, hn, true_and, if_true,
    acquire, false_and, List.range_succ]
  congr 1
  ext : 1
  · funext i
    simp only [Function.update_apply]
    rcases Nat.lt_trichotomy i k with h | rfl | h
    · simp [h.ne, h, Nat.lt_succ_of_lt h]
    · simp [Nat.not_lt.mpr hk]
    · simp [h.ne', Nat.not_lt.mpr h.le, Nat.not_lt.mpr h, Nat.not_lt.mpr (hk.trans h.le)]
  all_goals rfl

theorem reachable_afterSelf : ∀ k ≤ semSize, k ≤ input.length → Reachable input (afterSelf k)
  | 0, _, _ => .init
  | k + 1, hk, hn =>
    (reachable_afterSelf k (Nat.le_of_succ_le hk) (Nat.le_of_succ_le hn)).step (next_afterSelf input hk hn)

theorem reachable_afterDep (h32 : semSize ≤ input.length) (hdeps : ∀ ds ∈ input, ds ≠ []) :
    ∀ k ≤ semSize, Reachable input (afterDep k)
  | 0, _ => by
    have : afterDep 0 = afterSelf semSize := by
      ext : 1
      · funext i; simp [afterDep, afterSelf]
      all_goals rfl
    exact this ▸ reachable_afterSelf input semSize le_rfl h32
  | k + 1, hk => by
    have hn : k < input.length := Nat.lt_of_lt_of_le hk h32
    have hd : depsOf input k ≠ [] := by
      rw [depsOf, List.getD_eq_getElem _ _ hn]; exact hdeps _ (List.getElem_mem ..)
    exact (reachable_afterDep h32 hdeps k (Nat.le_of_succ_le hk)).step (next_afterDep input hk hd)

theorem reachable_afterQueue (h32 : semSize ≤ input.length) (hdeps : ∀ ds ∈ input, ds ≠ []) :
    ∀ k, semSize ≤ k → k ≤ input.length → Reachable input (afterQueue k)
  | k, hk, hn => by
    induction k, hk using Nat.le_induction with
    | base =>
      have : afterQueue semSize = afterDep semSize := by
        ext : 1
        · funext i; by_cases h : i < semSize <;> simp [afterDep, afterQueue, h]
        all_goals rfl
      exact this ▸ reachable_afterDep input h32 hdeps semSize le_rfl
    | succ k hk ih => exact (ih (Nat.le_of_succ_le hn)).step (next_afterQueue input hk hn)

/-- **Deadlock.** From at least 32 (repository, revision) pairs, each with a dependency,
the tasks reach a state in which every pair's task is blocked in `sem.Acquire` and
queued in the semaphore, no dependency task has started, and no task can take a
step: 32 tasks hold the 32 permits, each waiting for a permit for its first
dependency, and the others wait for their first permit behind them. -/
theorem dependencies_deadlock (h32 : semSize ≤ input.length) (hdeps : ∀ ds ∈ input, ds ≠ []) :
    ∃ s, Reachable input s ∧ (∀ a, next input s a = none) ∧ s.deps = [] ∧
      ∀ k < input.length, (s.pairs k = .waitSelf ∨ ∃ j, s.pairs k = .waitDep j) ∧ k ∈ s.waiters := by
  refine ⟨afterQueue input.length, reachable_afterQueue input h32 hdeps _ h32 le_rfl, ?_, rfl, ?_⟩
  · intro a
    cases a with
    | acquireSelf k =>
      simp only [next, afterQueue]
      split_ifs <;> simp_all
    | acquireDep k => simp only [next, afterQueue]; split_ifs <;> rfl
    | finishPair k => simp only [next, afterQueue]; split_ifs <;> rfl
    | runDep m => rfl
  · intro k hk
    refine ⟨?_, List.mem_range.mpr hk⟩
    by_cases h : k < semSize <;> simp [afterQueue, h, hk]

/-- 32 (repository, revision) pairs, each depending on one npm package. -/
def thirtyTwoPairs : List (List Dep) := List.replicate 32 [⟨"npm/left-pad", "v1.3.0"⟩]

/-- The deadlock on 32 pairs with one dependency each. -/
theorem dependencies_deadlock_thirtyTwo :
    semSize ≤ thirtyTwoPairs.length ∧ (∀ ds ∈ thirtyTwoPairs, ds ≠ []) ∧
    ∃ s, Reachable thirtyTwoPairs s ∧ (∀ a, next thirtyTwoPairs s a = none) ∧ s.deps = [] ∧
      ∀ k < thirtyTwoPairs.length, (s.pairs k = .waitSelf ∨ ∃ j, s.pairs k = .waitDep j) ∧
        k ∈ s.waiters :=
  have h32 : semSize ≤ thirtyTwoPairs.length := by decide
  have hdeps : ∀ ds ∈ thirtyTwoPairs, ds ≠ [] := by simp [thirtyTwoPairs]
  ⟨h32, hdeps, dependencies_deadlock thirtyTwoPairs h32 hdeps⟩

end Sourcegraph.Codeintel
