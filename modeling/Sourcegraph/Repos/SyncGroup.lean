import Sourcegraph.Repos.LazySync

/-! Concurrent foreground calls of `Syncer.SyncRepo` for one repository name. Each call
looks the name up with `GetByName`, returns the stored row when it was updated within
the last minute (the clock is not modelled, so a caller that finds a public row may
return it or go on), and otherwise calls `syncGroup.Do`, which joins the call of
`syncRepo` in flight for the name or starts one. The group is the deduplication: a
caller that joins gets the leader's result, and a caller whose `Do` comes after the
call finished starts a new one. -/

namespace Sourcegraph.Repos

/-- Where one foreground `SyncRepo` call is. -/
inductive Pc where
  | start
  /-- `GetByName` returned the row of the name, if any -/
  | looked (stored : Option Repo)
  /-- in `Do`, waiting for call `c`, which another caller leads -/
  | waiting (c : Nat)
  /-- in `Do`, leading call `c` with the row it looked up -/
  | leading (c : Nat) (stored : Option Repo)
  /-- `syncRepo` of call `c` returned `res`; the key is still in the group's map -/
  | finishing (c : Nat) (res : LazyResult)
  /-- the call returned `res`: the result of call `c` it led or joined, or (`none`)
  what it found or a lookup error -/
  | returned (res : LazyResult) (c : Option Nat)
  deriving DecidableEq, Repr

/-- The call a caller leads, from `Do` until its key leaves the map. -/
def Pc.leads : Pc → Option Nat
  | .leading c _ | .finishing c _ => some c
  | _ => none

/-- Modelled from the spec: `singleflight.Group` is not under src/. The state of one
name: the store, the call in the group's map, the results of the finished calls, the
number of calls started, what the calls of `syncRepo` did in order, and every
caller's place. -/
structure World where
  store : Store
  inflight : Option Nat
  results : List (Nat × LazyResult)
  calls : Nat
  log : List Effect
  pc : Nat → Pc

/-- The callers before any step, on a store. -/
def World.init (st : Store) : World := ⟨st, none, [], 0, [], fun _ => .start⟩

/-- One step of one caller. -/
inductive Step where
  /-- `GetByName` -/
  | lookup
  /-- `GetByName` fails with an error that is not a not-found error -/
  | lookupFails (cls : ErrorClass)
  /-- a found row is returned: an error if it is private, the row if it is fresh -/
  | returnStored
  /-- `syncGroup.Do` -/
  | doCall
  /-- the leader's `syncRepo` runs -/
  | run (env : LazyEnv)
  /-- `Do` deletes the key and returns to the leader -/
  | release
  /-- a joined `Do` returns the finished call's result -/
  | wake

namespace World

/-- The world with caller `i` at `p`. -/
def setPc (w : World) (i : Nat) (p : Pc) : World := { w with pc := Function.update w.pc i p }

/-- Caller `i` takes step `st`, when it can. -/
def next (s : Syncer) (codehost : CodeHost) (name : String) (w : World) (i : Nat) : Step → Option World
  | .lookup => match w.pc i with
    | .start => some (w.setPc i (.looked (w.store.getByName name)))
    | _ => none
  | .lookupFails cls => match w.pc i with
    | .start => if cls = .notFound then none else some (w.setPc i (.returned (.error (.plain cls)) none))
    | _ => none
  | .returnStored => match w.pc i with
    | .looked (some r) =>
      some (w.setPc i (.returned (if r.isPrivate then .error (.plain .notFound) else .ok r) none))
    | _ => none
  | .doCall => match w.pc i with
    | .looked stored =>
      if stored.any (·.isPrivate) then none
      else match w.inflight with
        | some c => some (w.setPc i (.waiting c))
        | none => some ({ w with inflight := some w.calls, calls := w.calls + 1 }.setPc i
            (.leading w.calls stored))
    | _ => none
  | .run env => match w.pc i with
    | .leading c stored =>
      let (res, st, effs) := s.syncRepo w.store codehost stored env
      some ({ w with store := st, log := w.log ++ effs, results := (c, res) :: w.results }.setPc i
        (.finishing c res))
    | _ => none
  | .release => match w.pc i with
    | .finishing c res => some ({ w with inflight := none }.setPc i (.returned res (some c)))
    | _ => none
  | .wake => match w.pc i with
    | .waiting c => (w.results.find? (·.1 == c)).map fun p => w.setPc i (.returned p.2 (some c))
    | _ => none

end World

/-- The worlds reachable from a store by steps of any callers. -/
inductive Reachable (s : Syncer) (codehost : CodeHost) (name : String) (st : Store) : World → Prop where
  | init : Reachable s codehost name st (.init st)
  | step {w w' : World} {i : Nat} {a : Step} :
      Reachable s codehost name st w → w.next s codehost name i a = some w' →
        Reachable s codehost name st w'

namespace World

@[simp] theorem setPc_pc (w : World) (i : Nat) (p : Pc) (j : Nat) :
    (w.setPc i p).pc j = if j = i then p else w.pc j := by
  simp [setPc, Function.update_apply]

@[simp] theorem setPc_inflight (w : World) (i : Nat) (p : Pc) : (w.setPc i p).inflight = w.inflight := rfl
@[simp] theorem setPc_results (w : World) (i : Nat) (p : Pc) : (w.setPc i p).results = w.results := rfl
@[simp] theorem setPc_calls (w : World) (i : Nat) (p : Pc) : (w.setPc i p).calls = w.calls := rfl

/-- What a caller's place says about the group: a leader's call is the one in the map,
unfinished while it runs; a waiter's call is in the map or finished; a caller that
returned from a call returned that call's result. -/
def PcOk (w : World) : Pc → Prop
  | .leading c _ => w.inflight = some c ∧ c ∉ w.results.map (·.1)
  | .finishing c res => w.inflight = some c ∧ (c, res) ∈ w.results
  | .waiting c => w.inflight = some c ∨ c ∈ w.results.map (·.1)
  | .returned res (some c) => (c, res) ∈ w.results
  | _ => True

/-- What every reachable world keeps: the places of the callers are consistent with
the group, there is at most one leader and it leads the call in the map, and each
finished call has one result. -/
structure Inv (w : World) : Prop where
  pcOk : ∀ i, w.PcOk (w.pc i)
  one_leader : ∀ i j, (w.pc i).leads.isSome → (w.pc j).leads.isSome → i = j
  led : ∀ c, w.inflight = some c → ∃ i, (w.pc i).leads = some c
  keys_nodup : (w.results.map (·.1)).Nodup
  keys_lt : ∀ k ∈ w.results.map (·.1), k < w.calls
  inflight_lt : ∀ c, w.inflight = some c → c < w.calls

theorem init_inv (st : Store) : (init st).Inv where
  pcOk _ := trivial
  one_leader _ _ h := by simp [init, Pc.leads] at h
  led _ h := by simp [init] at h
  keys_nodup := List.nodup_nil
  keys_lt _ h := by simp [init] at h
  inflight_lt _ h := by simp [init] at h

theorem pcOk_setPc (w : World) (i : Nat) (p q : Pc) : (w.setPc i p).PcOk q ↔ w.PcOk q := by
  cases q with
  | returned res c => cases c <;> rfl
  | _ => rfl

namespace Inv

variable {w : World} (hw : w.Inv) {i : Nat}
include hw

/-- A step that moves one caller between places outside a call of the group. -/
theorem setPc {p : Pc} (hi : (w.pc i).leads = none) (hp : p.leads = none) (hok : w.PcOk p) :
    (w.setPc i p).Inv where
  pcOk j := by
    rw [pcOk_setPc, setPc_pc]
    split
    · exact hok
    · exact hw.pcOk j
  one_leader j k hj hk := by
    simp only [setPc_pc] at hj hk
    split at hj <;> split at hk <;> simp_all [hw.one_leader j k]
  led c hc := by
    obtain ⟨j, hj⟩ := hw.led c hc
    refine ⟨j, ?_⟩
    rw [setPc_pc, if_neg]
    · exact hj
    · rintro rfl; simp [hi] at hj
  keys_nodup := hw.keys_nodup
  keys_lt := hw.keys_lt
  inflight_lt := hw.inflight_lt

/-- With no call in the map, nobody leads. -/
theorem leads_of_inflight_none (hn : w.inflight = none) (j : Nat) : (w.pc j).leads = none := by
  have := hw.pcOk j
  cases hj : w.pc j <;> simp_all [PcOk, Pc.leads]

/-- `Do` with no call in the map starts call `w.calls`. -/
theorem start {stored : Option Repo} (hn : w.inflight = none) :
    ({ w with inflight := some w.calls, calls := w.calls + 1 }.setPc i (.leading w.calls stored)).Inv where
  pcOk j := by
    rw [pcOk_setPc, setPc_pc]
    split
    · exact ⟨rfl, fun h => absurd (hw.keys_lt _ h) (Nat.lt_irrefl _)⟩
    · have := hw.pcOk j
      cases hj : w.pc j with
      | waiting c => simp_all [PcOk]
      | returned res c => cases c <;> simp_all [PcOk]
      | _ => simp_all [PcOk]
  one_leader j k hj hk := by
    simp only [setPc_pc] at hj hk
    split at hj <;> split at hk <;> simp_all [hw.leads_of_inflight_none hn]
  led c hc := ⟨i, by simp_all [Pc.leads]⟩
  keys_nodup := hw.keys_nodup
  keys_lt k hk := Nat.lt_succ_of_lt (hw.keys_lt k hk)
  inflight_lt c hc := by simp_all

/-- Only the leader leads. -/
theorem leads_of_ne {c : Nat} (hi : (w.pc i).leads = some c) {j : Nat} (hj : j ≠ i) :
    (w.pc j).leads = none := by
  cases h : (w.pc j).leads
  · rfl
  · exact absurd (hw.one_leader j i (by simp [h]) (by simp [hi])) hj

/-- The leader's `syncRepo` returns, and the call's result is recorded. -/
theorem finish {c : Nat} {stored : Option Repo} (hi : w.pc i = .leading c stored) (st : Store)
    (log : List Effect) (res : LazyResult) :
    ({ w with store := st, log := log, results := (c, res) :: w.results }.setPc i
      (.finishing c res)).Inv := by
  have hok : w.inflight = some c ∧ c ∉ w.results.map (·.1) := by simpa [hi, PcOk] using hw.pcOk i
  have hlead : (w.pc i).leads = some c := by simp [hi, Pc.leads]
  refine ⟨fun j => ?_, fun j k hj hk => ?_, fun c' hc => ⟨i, ?_⟩, ?_, ?_, hw.inflight_lt⟩
  · rw [pcOk_setPc, setPc_pc]
    split
    · exact ⟨hok.1, List.mem_cons_self _ _⟩
    · rename_i hj
      have hnl := hw.leads_of_ne hlead hj
      have := hw.pcOk j
      cases hpj : w.pc j with
      | waiting c' =>
        simp only [hpj, PcOk] at this ⊢
        rcases this with h | h
        · exact .inl h
        · exact .inr (List.mem_cons_of_mem _ h)
      | returned r c'' => cases c'' <;> simp_all [PcOk]
      | _ => simp_all [PcOk, Pc.leads]
  · simp only [setPc_pc] at hj hk
    split at hj <;> split at hk
    · rename_i h1 h2; exact h1.trans h2.symm
    · rename_i h1 _; exact h1 ▸ hw.one_leader i k (by simp [hlead]) hk
    · rename_i _ h2; exact h2 ▸ hw.one_leader j i hj (by simp [hlead])
    · exact hw.one_leader j k hj hk
  · simp_all [Pc.leads]
  · exact List.nodup_cons.mpr ⟨hok.2, hw.keys_nodup⟩
  · intro k hk
    rcases List.mem_cons.mp hk with rfl | hk
    · exact hw.inflight_lt _ hok.1
    · exact hw.keys_lt k hk

/-- `Do` deletes the key of the finished call and returns its result to the leader. -/
theorem release {c : Nat} {res : LazyResult} (hi : w.pc i = .finishing c res) :
    ({ w with inflight := none }.setPc i (.returned res (some c))).Inv := by
  have hok : w.inflight = some c ∧ (c, res) ∈ w.results := by simpa [hi, PcOk] using hw.pcOk i
  have hlead : (w.pc i).leads = some c := by simp [hi, Pc.leads]
  refine ⟨fun j => ?_, fun j k hj hk => ?_, fun c' hc => by simp at hc, hw.keys_nodup, hw.keys_lt,
    fun c' hc => by simp at hc⟩
  · rw [pcOk_setPc, setPc_pc]
    split
    · exact hok.2
    · rename_i hj
      have hnl := hw.leads_of_ne hlead hj
      have := hw.pcOk j
      cases hpj : w.pc j with
      | waiting c' =>
        simp only [hpj, PcOk] at this ⊢
        rcases this with h | h
        · rw [hok.1] at h; cases h
          exact .inr (List.mem_map.mpr ⟨_, hok.2, rfl⟩)
        · exact .inr h
      | returned r c'' => cases c'' <;> simp_all [PcOk]
      | _ => simp_all [PcOk, Pc.leads]
  · simp only [setPc_pc] at hj hk
    split at hj <;> split at hk
    · rename_i h1 h2; exact h1.trans h2.symm
    · simp [Pc.leads] at hj
    · simp [Pc.leads] at hk
    · exact hw.one_leader j k hj hk

/-- **The step lemma.** Every step of every caller keeps the invariant. -/
theorem next {s : Syncer} {codehost : CodeHost} {name : String} {w' : World} {a : Step}
    (h : w.next s codehost name i a = some w') : w'.Inv := by
  cases a with
  | lookup =>
    simp only [World.next] at h
    split at h <;> rename_i hi <;> cases h
    exact hw.setPc (by simp [hi, Pc.leads]) rfl trivial
  | lookupFails cls =>
    simp only [World.next] at h
    split at h <;> rename_i hi
    · split at h <;> cases h
      exact hw.setPc (by simp [hi, Pc.leads]) rfl trivial
    · cases h
  | returnStored =>
    simp only [World.next] at h
    split at h <;> rename_i hi <;> cases h
    exact hw.setPc (by simp [hi, Pc.leads]) rfl trivial
  | doCall =>
    simp only [World.next] at h
    split at h
    · rename_i stored hi
      split at h
      · cases h
      · split at h <;> rename_i hn <;> cases h
        · exact hw.setPc (by simp [hi, Pc.leads]) rfl (.inl hn)
        · exact hw.start hn
    · cases h
  | run env =>
    simp only [World.next] at h
    split at h
    · rename_i c stored hi; cases h; exact hw.finish hi _ _ _
    · cases h
  | release =>
    simp only [World.next] at h
    split at h
    · rename_i c res hi; cases h; exact hw.release hi
    · cases h
  | wake =>
    simp only [World.next] at h
    split at h
    · rename_i c hi
      obtain ⟨⟨c', res⟩, hres, rfl⟩ := Option.map_eq_some'.mp h
      obtain rfl : c' = c := by simpa using List.find?_some hres
      exact hw.setPc (by simp [hi, Pc.leads]) rfl (List.mem_of_find?_eq_some hres)
    · cases h

end Inv

/-- The log grows only when a leader's `syncRepo` runs, by what that call did, and
the call's result is recorded with it. -/
theorem next_log {s : Syncer} {codehost : CodeHost} {name : String} {w w' : World} {i : Nat}
    {a : Step} (h : w.next s codehost name i a = some w') :
    w'.log = w.log ∧ w'.results = w.results ∨
      ∃ c stored env, w'.log = w.log ++ (s.syncRepo w.store codehost stored env).2.2 ∧
        w'.results = (c, (s.syncRepo w.store codehost stored env).1) :: w.results := by
  cases a with
  | run env =>
    simp only [next] at h
    split at h
    · rename_i c stored _; cases h; exact .inr ⟨c, stored, env, rfl, rfl⟩
    · cases h
  | wake =>
    simp only [next] at h
    split at h
    · obtain ⟨res, -, rfl⟩ := Option.map_eq_some'.mp h; exact .inl ⟨rfl, rfl⟩
    · cases h
  | _ =>
    simp only [next] at h
    repeat' split at h
    all_goals first | (cases h; exact .inl ⟨rfl, rfl⟩) | cases h

/-- Each finished call fetched at most once and ended at most one transaction. -/
def LogBound (w : World) : Prop :=
  w.log.count .fetch ≤ w.results.length ∧ (w.log.filter Effect.isTx).length ≤ w.results.length

theorem LogBound.next {s : Syncer} {codehost : CodeHost} {name : String} {w w' : World} {i : Nat}
    {a : Step} (hb : w.LogBound) (h : w.next s codehost name i a = some w') : w'.LogBound := by
  rcases next_log h with ⟨hl, hr⟩ | ⟨c, stored, env, hl, hr⟩
  · rw [LogBound, hl, hr]; exact hb
  · have := s.syncRepo_effects w.store codehost stored env
    simp only [LogBound, hl, hr, List.count_append, List.filter_append, List.length_append,
      List.length_cons] at hb ⊢
    omega

end World

/-- Steps of callers in order, from a world; `none` when one cannot be taken. -/
def World.run (s : Syncer) (codehost : CodeHost) (name : String) : World → List (Nat × Step) → Option World
  | w, [] => some w
  | w, (i, a) :: rest => (w.next s codehost name i a).bind (run s codehost name · rest)

variable {s : Syncer} {codehost : CodeHost} {name : String} {st : Store}

theorem Reachable.run {w w' : World} (hw : Reachable s codehost name st w) :
    ∀ l : List (Nat × Step), w.run s codehost name l = some w' → Reachable s codehost name st w'
  | [], h => by cases h; exact hw
  | (i, a) :: rest, h => by
    simp only [World.run] at h
    cases hn : w.next s codehost name i a with
    | none => simp [hn] at h
    | some w₁ => simp only [hn, Option.bind_some] at h; exact (Reachable.step hw hn).run rest h

theorem Reachable.inv {w : World} (h : Reachable s codehost name st w) : w.Inv ∧ w.LogBound := by
  induction h with
  | init => exact ⟨World.init_inv st, by simp [World.LogBound, World.init]⟩
  | step _ hn ih => exact ⟨ih.1.next hn, ih.2.next hn⟩

/-- **Deduplication.** In every world that any interleaving of foreground `SyncRepo`
calls for one name reaches: at most one caller is in a call of the group, from the
`Do` that starts it until its key leaves the map; two callers that returned from the
same call returned the same result; and every finished call fetched from the code host
at most once and ended at most one transaction, so the fetches and the transactions
number at most the calls the group started. -/
theorem syncRepo_calls_deduplicated {w : World} (h : Reachable s codehost name st w) :
    (∀ i j, (w.pc i).leads.isSome → (w.pc j).leads.isSome → i = j) ∧
    (∀ i j c r r', w.pc i = .returned r (some c) → w.pc j = .returned r' (some c) → r = r') ∧
    w.log.count .fetch ≤ w.results.length ∧ (w.log.filter Effect.isTx).length ≤ w.results.length ∧
    w.results.length ≤ w.calls := by
  obtain ⟨hw, hb⟩ := h.inv
  refine ⟨hw.one_leader, fun i j c r r' hi hj => ?_, hb.1, hb.2, ?_⟩
  · have hri : (c, r) ∈ w.results := by simpa [hi, World.PcOk] using hw.pcOk i
    have hrj : (c, r') ∈ w.results := by simpa [hj, World.PcOk] using hw.pcOk j
    exact (Prod.mk.inj (List.inj_on_of_nodup_map hw.keys_nodup hri hrj rfl)).2
  · have hsub : w.results.map (·.1) ⊆ List.range w.calls := fun k hk =>
      List.mem_range.mpr (hw.keys_lt k hk)
    simpa using (List.subperm_of_subset hw.keys_nodup hsub).length_le

/-! ## Two callers -/

/-- The cloud default GitHub service. -/
def cloudService : ExternalService := ⟨3, "GITHUB", "GitHub.com", "{}", 0, 0, true, 0, 0, 0⟩

/-- github.com. -/
def githubHost : CodeHost := ⟨"github"⟩

/-- A public repository of github.com that is not stored yet. -/
def lazyRepo : Repo := { githubRow 0 "github.com/o/lazy" "MDl" with sources := [cloudService.source] }

/-- A store with no repository. -/
def lazyStore : Store := ⟨[], 1, [cloudService], by decide, by decide⟩

/-- `syncRepo` finds the cloud default service and fetches `lazyRepo`. -/
def lazyEnv : LazyEnv := ⟨.ok (some cloudService), none, true, .ok lazyRepo, {}, false⟩

/-- Caller 1 calls `Do` while caller 0's call is in flight, and joins it. -/
def joinTrace : List (Nat × Step) :=
  [(0, .lookup), (1, .lookup), (0, .doCall), (1, .doCall), (0, .run lazyEnv), (0, .release),
   (1, .wake)]

/-- Caller 1 looks the name up before caller 0's call commits, and calls `Do` after that
call left the map. -/
def lateTrace : List (Nat × Step) :=
  [(0, .lookup), (1, .lookup), (0, .doCall), (0, .run lazyEnv), (0, .release), (1, .doCall),
   (1, .run lazyEnv), (1, .release)]

/-- The world after `joinTrace`. -/
def joinWorld : World :=
  ((World.init lazyStore).run testSyncer githubHost "github.com/o/lazy" joinTrace).getD (.init lazyStore)

/-- The world after `lateTrace`. -/
def lateWorld : World :=
  ((World.init lazyStore).run testSyncer githubHost "github.com/o/lazy" lateTrace).getD (.init lazyStore)

set_option maxRecDepth 20000 in
theorem joinWorld_reachable : Reachable testSyncer githubHost "github.com/o/lazy" lazyStore joinWorld :=
  Reachable.init.run joinTrace rfl

set_option maxRecDepth 20000 in
theorem lateWorld_reachable : Reachable testSyncer githubHost "github.com/o/lazy" lazyStore lateWorld :=
  Reachable.init.run lateTrace rfl

/-- Deduplication where caller 1 joins caller 0's call. -/
theorem syncRepo_calls_deduplicated_join :
    Reachable testSyncer githubHost "github.com/o/lazy" lazyStore joinWorld ∧
    (∀ i j, (joinWorld.pc i).leads.isSome → (joinWorld.pc j).leads.isSome → i = j) ∧
    (∀ i j c r r', joinWorld.pc i = .returned r (some c) → joinWorld.pc j = .returned r' (some c) →
      r = r') ∧
    joinWorld.log.count .fetch ≤ joinWorld.results.length ∧
    (joinWorld.log.filter Effect.isTx).length ≤ joinWorld.results.length ∧
    joinWorld.results.length ≤ joinWorld.calls :=
  ⟨joinWorld_reachable, syncRepo_calls_deduplicated joinWorld_reachable⟩

set_option maxRecDepth 20000 in
example : joinWorld.log.count .fetch = 1 ∧ joinWorld.pc 1 = .returned (.ok lazyRepo) (some 0) := by
  decide

set_option maxRecDepth 20000 in
/-- Caller 1 misses caller 0's call: it starts a second one, and the name is fetched
twice and applied in two transactions. -/
theorem late_caller_fetches_again :
    Reachable testSyncer githubHost "github.com/o/lazy" lazyStore lateWorld ∧
      lateWorld.log.count .fetch = 2 ∧ (lateWorld.log.filter Effect.isTx).length = 2 ∧
      lateWorld.pc 0 = .returned (.ok lazyRepo) (some 0) ∧
      lateWorld.pc 1 = .returned (.ok lazyRepo) (some 1) :=
  ⟨lateWorld_reachable, by decide⟩

end Sourcegraph.Repos
