import Sourcegraph.Repos.Types
import Mathlib.Tactic.NormNum
import Mathlib.Data.List.Chain

/-! `calcSyncInterval`, the backoff of `SyncExternalService`, with Go's time
arithmetic: `Time.Sub` saturates to the range of `Duration`, and multiplying a
`Duration` wraps around in int64. -/

namespace Sourcegraph.Repos

/-- The largest `Duration`, `2^63 - 1` nanoseconds. -/
def maxDuration : Int := 2 ^ 63 - 1

/-- The smallest `Duration`, `-2^63` nanoseconds. -/
def minDuration : Int := -2 ^ 63

/-- `time.Minute`. -/
def minute : Int := 60 * 10 ^ 9

/-- `time.Hour`. -/
def hour : Int := 3600 * 10 ^ 9

/-- `Time.IsZero`. -/
def Time.isZero (t : Int) : Bool := t == 0

/-- `Time.Sub`: the difference, saturated to the range of `Duration`. -/
def Time.sub (t u : Int) : Int := max minDuration (min maxDuration (t - u))

/-- `d * k` for a `Duration`: int64 multiplication, which wraps around. -/
def Duration.mul (d k : Int) : Int := Int.bmod (d * k) (2 ^ 64)

/-- `calcSyncInterval`. `err` is the aggregate error of the pass, nil when empty. -/
def calcSyncInterval (now lastSync minSyncInterval : Int) (modified : Bool)
    (err : List SyncError) : Int :=
  let maxSyncInterval := 8 * hour
  if err.isEmpty && (Time.isZero lastSync || modified) then minSyncInterval
  else
    let interval := Duration.mul (Time.sub now lastSync) 2
    if interval < minSyncInterval then minSyncInterval
    else if interval > maxSyncInterval then maxSyncInterval
    else interval

/-! ## Small lemmas -/

/-- The doubling does not wrap while the elapsed time is below `2^62` nanoseconds. -/
theorem mul_two_of_lt {d : Int} (h0 : -2 ^ 62 ≤ d) (h : d < 2 ^ 62) : Duration.mul d 2 = 2 * d := by
  norm_num [Duration.mul, Int.bmod_def] at *
  split_ifs <;> omega

theorem sub_of_mem {t u : Int} (h0 : minDuration ≤ t - u) (h : t - u ≤ maxDuration) :
    Time.sub t u = t - u := by
  simp only [Time.sub, min_eq_right h, max_eq_right h0]

/-- Outside the special case, the interval is the doubled elapsed time clamped to
`[minSyncInterval, 8h]`, the lower bound checked first. -/
theorem calcSyncInterval_backoff {now lastSync m : Int} {modified : Bool} {err : List SyncError}
    (h : (err.isEmpty && (Time.isZero lastSync || modified)) = false) :
    calcSyncInterval now lastSync m modified err =
      let i := Duration.mul (Time.sub now lastSync) 2
      if i < m then m else if i > 8 * hour then 8 * hour else i := by
  simp only [calcSyncInterval, h, Bool.false_eq_true, ↓reduceIte]

end Sourcegraph.Repos

namespace Sourcegraph.Repos

/-! ## Bounds of one interval -/

section Bounds

variable {now lastSync m : Int} {modified : Bool} {err : List SyncError}

theorem calcSyncInterval_of_quiet (hz : Time.isZero lastSync = false) :
    calcSyncInterval now lastSync m false [] =
      let i := Duration.mul (Time.sub now lastSync) 2
      if i < m then m else if i > 8 * hour then 8 * hour else i :=
  calcSyncInterval_backoff (by simp [hz])

/-- With no error, a first pass or a pass that changed something is rescheduled after
the minimum interval. -/
theorem calcSyncInterval_of_changed (he : err = []) (h : Time.isZero lastSync = true ∨ modified = true) :
    calcSyncInterval now lastSync m modified err = m := by
  subst he; rcases h with h | h <;> simp [calcSyncInterval, h]

/-- A pass that recorded an error backs off, whatever it changed. -/
theorem calcSyncInterval_of_error (he : err ≠ []) :
    calcSyncInterval now lastSync m modified err =
      let i := Duration.mul (Time.sub now lastSync) 2
      if i < m then m else if i > 8 * hour then 8 * hour else i :=
  calcSyncInterval_backoff (by simp [List.isEmpty_iff, he])

theorem le_calcSyncInterval (hm : m ≤ 8 * hour) : m ≤ calcSyncInterval now lastSync m modified err := by
  unfold calcSyncInterval; split_ifs <;> simp only at * <;> omega

theorem calcSyncInterval_le (hm : m ≤ 8 * hour) : calcSyncInterval now lastSync m modified err ≤ 8 * hour := by
  unfold calcSyncInterval; split_ifs <;> simp only at * <;> omega

/-- **The bounds of one interval.** For every clock reading, last sync, minimum,
modified flag and error, the interval lies between the minimum and the 8-hour ceiling,
whichever order they come in: when the minimum is above the ceiling, the ceiling check
wins over it. -/
theorem calcSyncInterval_bounds (now lastSync m : Int) (modified : Bool) (err : List SyncError) :
    min m (8 * hour) ≤ calcSyncInterval now lastSync m modified err ∧
      calcSyncInterval now lastSync m modified err ≤ max m (8 * hour) := by
  unfold calcSyncInterval; split_ifs <;> simp only at * <;> omega

/-- A minimum of nine hours, and a quiet pass nine hours after the last: the doubled
elapsed time is above both, and the pass is rescheduled after eight hours. -/
theorem calcSyncInterval_ceiling_wins :
    calcSyncInterval (10 * hour) hour (9 * hour) false [] = 8 * hour ∧ 8 * hour < 9 * hour := by
  decide

/-- A quiet pass that ran at least `prev` after the last one, and less than `2^62`
nanoseconds after it, sets an interval of at least `prev`. -/
theorem calcSyncInterval_mono {prev : Int} (hm : m ≤ prev) (hp : prev ≤ 8 * hour) (hm0 : 0 ≤ m)
    (hz : Time.isZero lastSync = false) (hge : lastSync + prev ≤ now) (hlt : now - lastSync < 2 ^ 62) :
    prev ≤ calcSyncInterval now lastSync m false [] := by
  have hsub : Time.sub now lastSync = now - lastSync :=
    sub_of_mem (by simp only [minDuration]; omega) (by simp only [maxDuration]; omega)
  rw [calcSyncInterval_of_quiet hz, hsub, mul_two_of_lt (by omega) hlt]
  simp only
  split_ifs <;> omega

end Bounds

/-! ## Runs of passes -/

/-- What one pass of a service hands to `calcSyncInterval`: the time it read from the
clock, whether it changed a repo, and its aggregate error. -/
structure PassOutcome where
  now : Int
  modified : Bool
  err : List SyncError
  deriving DecidableEq, Repr

/-- A pass that changed nothing and recorded no error. -/
def PassOutcome.quiet (p : PassOutcome) : Bool := !p.modified && p.err.isEmpty

/-- One pass of a run as it is scheduled: the `LastSyncAt` it read, what it hands to
`calcSyncInterval`, and the interval `NextSyncAt - LastSyncAt` it sets. -/
structure Scheduled where
  lastSync : Int
  pass : PassOutcome
  interval : Int
  deriving DecidableEq, Repr

/-- A run of passes of one service with minimum interval `m`, from the `LastSyncAt`
before the first pass: each pass reads the `LastSyncAt` the previous one wrote. -/
def schedule (m : Int) : Int → List PassOutcome → List Scheduled
  | _, [] => []
  | lastSync, p :: ps =>
    ⟨lastSync, p, calcSyncInterval p.now lastSync m p.modified p.err⟩ :: schedule m p.now ps

theorem interval_of_mem_schedule {m : Int} :
    ∀ {last : Int} {ps : List PassOutcome} {a : Scheduled}, a ∈ schedule m last ps →
      a.interval = calcSyncInterval a.pass.now a.lastSync m a.pass.modified a.pass.err
  | _, [], _, h => by simp [schedule] at h
  | _, _ :: _, _, h => by
    rcases List.mem_cons.mp h with rfl | h
    · rfl
    · exact interval_of_mem_schedule h

/-- Each pass runs no earlier than the `NextSyncAt` of the previous one, ends after the
zero time, and the next one ends less than `2^62` nanoseconds later. -/
def Paced (a b : Scheduled) : Prop :=
  a.pass.now + a.interval ≤ b.pass.now ∧ 0 < a.pass.now ∧ b.pass.now - a.pass.now < 2 ^ 62

instance : DecidableRel Paced := fun _ _ => inferInstanceAs (Decidable (_ ∧ _ ∧ _))

theorem schedule_chain_mono {m : Int} (hm0 : 0 ≤ m) (hm : m ≤ 8 * hour) :
    ∀ (last : Int) (ps : List PassOutcome), (schedule m last ps).Chain' Paced →
      (schedule m last ps).Chain' fun a b => b.pass.quiet = true → a.interval ≤ b.interval
  | _, [], _ => List.chain'_nil
  | _, [_], _ => List.chain'_singleton _
  | last, p :: q :: ps, h => by
    simp only [schedule, List.chain'_cons] at h ⊢
    refine ⟨fun hq => ?_, schedule_chain_mono hm0 hm p.now (q :: ps) (by simpa [schedule] using h.2)⟩
    simp only [Paced] at h
    obtain ⟨hge, hpos, hlt⟩ := h.1
    simp only [PassOutcome.quiet, Bool.and_eq_true, Bool.not_eq_true', List.isEmpty_iff] at hq
    rw [hq.1, hq.2]
    exact calcSyncInterval_mono (le_calcSyncInterval hm) (calcSyncInterval_le hm) hm0
      (by simp [Time.isZero]; omega) hge hlt

/-- **The backoff of a run.** With a minimum interval between zero and eight hours,
every pass without an error that is the service's first or changed something is
rescheduled after the minimum; every pass with an error backs off, by the doubled
elapsed time clamped to `[minSyncInterval, 8h]`; every interval is at most eight
hours; and along a paced run every pass that changes nothing and records no error
sets an interval no shorter than the previous pass's. -/
theorem schedule_backoff (m last : Int) (ps : List PassOutcome) (hm0 : 0 ≤ m) (hm : m ≤ 8 * hour)
    (hrun : (schedule m last ps).Chain' Paced) :
    (∀ a ∈ schedule m last ps, a.pass.err = [] →
      Time.isZero a.lastSync = true ∨ a.pass.modified = true → a.interval = m) ∧
    (∀ a ∈ schedule m last ps, a.pass.err ≠ [] →
      a.interval = let i := Duration.mul (Time.sub a.pass.now a.lastSync) 2
        if i < m then m else if i > 8 * hour then 8 * hour else i) ∧
    (∀ a ∈ schedule m last ps, a.interval ≤ 8 * hour) ∧
    (schedule m last ps).Chain' fun a b => b.pass.quiet = true → a.interval ≤ b.interval :=
  ⟨fun _ ha he h => (interval_of_mem_schedule ha).trans (calcSyncInterval_of_changed he h),
   fun _ ha he => (interval_of_mem_schedule ha).trans (calcSyncInterval_of_error he),
   fun _ ha => (interval_of_mem_schedule ha).trans_le (calcSyncInterval_le hm),
   schedule_chain_mono hm0 hm last ps hrun⟩

end Sourcegraph.Repos
