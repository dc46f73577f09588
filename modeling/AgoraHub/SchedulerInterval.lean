/-
# Due times of an interval

The due times of an interval lie on a grid: a first one, and every other one a whole
number of intervals after it.  An evaluation puts out the grid times from the one after
the last run up to now, as the misfire policy has it, and moves the last run on to
one of them.
-/
import AgoraHub.Scheduler
import AgoraHub.DueTimes

namespace Workers

open Fallible List Datetime

/-- The times that are a whole number of intervals of that many seconds after the anchor. -/
def grid (anchor : Datetime) (seconds : ℤ) : Set Datetime :=
  { d | ∃ k : ℕ, (d.val : ℤ) = anchor.val + k * (seconds * microsPerSecond) }

theorem mem_grid_self (anchor : Datetime) (seconds : ℤ) : anchor ∈ grid anchor seconds :=
  ⟨0, by simp⟩

variable {anchor : Datetime}

theorem grid_subset_of_mem {d : Datetime} {seconds : ℤ} (h : d ∈ grid anchor seconds) :
    grid d seconds ⊆ grid anchor seconds := by
  rcases h with ⟨k, hk⟩
  rintro e ⟨j, hj⟩
  exact ⟨k + j, by rw [hj, hk]; push_cast; ring⟩

/-- A time of the grid after another one is a whole number of intervals after it. -/
theorem add_le_of_mem_grid {d e : Datetime} {seconds : ℤ} (hpos : 0 < seconds)
    (hd : d ∈ grid anchor seconds) (he : e ∈ grid anchor seconds) (hlt : d < e) :
    (d.val : ℤ) + seconds * microsPerSecond ≤ e.val := by
  rcases hd with ⟨j, hj⟩
  rcases he with ⟨k, hk⟩
  have hinterval : 0 < seconds * microsPerSecond := mul_pos hpos (by decide)
  have hval : (d.val : ℤ) < e.val := by exact_mod_cast Fin.lt_def.mp hlt
  rw [hj, hk] at hval
  have hjk : (j : ℤ) + 1 ≤ k := Int.add_one_le_of_lt (lt_of_mul_lt_mul_right (by omega) hinterval.le)
  have hmul := mul_le_mul_of_nonneg_right hjk hinterval.le
  rw [add_mul, one_mul] at hmul
  omega

/-! ## The computed times -/

theorem moment_eq_ok {x : Except OverflowError Datetime} {t : Datetime} :
    moment x = .ok t ↔ x = .ok t := by
  cases x <;> simp [moment]

theorem intervalTime_eq_ok {base t : Datetime} {interval : ℤ} {index : ℕ} :
    intervalTime base interval index = .ok t ↔ (t.val : ℤ) = base.val + index * interval := by
  unfold intervalTime
  rw [moment_eq_ok, addMicros_eq_ok_iff]

theorem exists_datetime {n : ℤ} {now : Datetime} (h0 : 0 ≤ n) (h : n ≤ now.val) :
    ∃ t : Datetime, (t.val : ℤ) = n := by
  refine ⟨⟨n.toNat, by omega⟩, ?_⟩
  show ((n.toNat : ℕ) : ℤ) = n
  omega

theorem exists_datetime_lt {n : ℤ} (h0 : 0 ≤ n) (h : n < datetimeRange) :
    ∃ t : Datetime, (t.val : ℤ) = n := by
  refine ⟨⟨n.toNat, by omega⟩, ?_⟩
  show ((n.toNat : ℕ) : ℤ) = n
  omega

/-- The first times of the grid from the base on, all of which are not later than `now`. -/
theorem exists_firstTimes {base now : Datetime} {interval : ℤ} {count : ℕ} (hpos : 0 < interval)
    (hcount : 0 < count) (hnow : (base.val : ℤ) + (count - 1 : ℕ) * interval ≤ now.val) :
    ∃ ts u, (List.range count).mapM (intervalTime base interval) = .ok ts ∧ ts.Pairwise (· < ·) ∧
      (∀ t ∈ ts, ∃ i < count, (t.val : ℤ) = base.val + (i : ℕ) * interval) ∧
      ts.getLast? = some u ∧ (u.val : ℤ) = base.val + (count - 1 : ℕ) * interval := by
  let index (t : Datetime) : ℕ := (((t.val : ℤ) - base.val) / interval).toNat
  have hindex : ∀ (t : Datetime) (i : ℕ), (t.val : ℤ) = base.val + i * interval → index t = i := by
    intro t i ht
    show (((t.val : ℤ) - base.val) / interval).toNat = i
    rw [ht, add_sub_cancel_left, Int.mul_ediv_cancel _ hpos.ne']
    exact Int.toNat_natCast i
  have heach : ∀ i ∈ List.range count, ∃ t, intervalTime base interval i = .ok t ∧ index t = i := by
    intro i hi
    have hle : (i : ℤ) ≤ ((count - 1 : ℕ) : ℤ) := by
      have := mem_range.mp hi
      omega
    have hmul : (i : ℤ) * interval ≤ ((count - 1 : ℕ) : ℤ) * interval :=
      mul_le_mul_of_nonneg_right hle hpos.le
    have hnonneg : 0 ≤ (i : ℤ) * interval := by positivity
    rcases @exists_datetime (base.val + i * interval) now (by omega) (by omega)
      with ⟨t, ht⟩
    exact ⟨t, intervalTime_eq_ok.mpr ht, hindex t i ht⟩
  rcases exists_mapM_key index (List.range count) heach with ⟨ts, hts, hmap, hall⟩
  have hvalue : ∀ t ∈ ts, (t.val : ℤ) = base.val + (index t : ℕ) * interval := fun t ht =>
    intervalTime_eq_ok.mp (hall t ht)
  have hlen : ts.length = count := by
    rw [← length_map index, hmap, length_range]
  have hsorted : ts.Pairwise fun t t' => index t < index t' := by
    rw [← pairwise_map, hmap]
    exact pairwise_lt_range
  have hlast : ∃ u, ts.getLast? = some u := by
    cases h : ts.getLast? with
    | none =>
      rw [getLast?_eq_none_iff] at h
      rw [h] at hlen
      simp at hlen
      omega
    | some u => exact ⟨u, rfl⟩
  rcases hlast with ⟨u, hu⟩
  refine ⟨ts, u, hts, ?_, ?_, hu, ?_⟩
  · refine hsorted.imp_of_mem ?_
    intro t t' ht ht' hlt
    have hcast : (index t : ℤ) < index t' := by exact_mod_cast hlt
    have hmul := mul_lt_mul_of_pos_right hcast hpos
    have h := hvalue t ht
    have h' := hvalue t' ht'
    apply Fin.lt_def.mpr
    omega
  · intro t ht
    refine ⟨index t, ?_, hvalue t ht⟩
    have hmem : index t ∈ ts.map index := mem_map_of_mem ht
    rw [hmap] at hmem
    exact mem_range.mp hmem
  · have huindex : index u = count - 1 := by
      have hmapped : (ts.map index).getLast? = some (index u) := by
        rw [getLast?_map, hu]
        rfl
      rw [hmap, getLast?_range] at hmapped
      split at hmapped
      · omega
      · exact (Option.some.inj hmapped).symm
    rw [hvalue u (mem_of_getLast? hu), huindex]

/-! ## What an evaluation puts out -/

/-- What the feedback of a tick remembers of an evaluation. -/
def ScheduleEvaluation.update (e : ScheduleEvaluation) : Option Datetime :=
  if e.dueTimes = [] then e.stateUpdateAt else e.dueTimes.getLast?

variable {e : ScheduleEvaluation}

theorem ScheduleEvaluation.tick_skip {D : Set Datetime} {last : Option Datetime}
    {now u : Datetime} (hnone : e.dueTimes = []) (hstate : e.stateUpdateAt = some u) (hu : u ∈ D)
    (hnow : u ≤ now) (hlast : ∀ l ∈ last, l < u) :
    DueTimes.Tick D last now e.dueTimes e.update ∧ e.update ≠ none := by
  have hupdate : e.update = some u := by rw [ScheduleEvaluation.update, if_pos hnone, hstate]
  rw [hupdate, hnone]
  exact ⟨DueTimes.Tick.skip hu hnow hlast, Option.some_ne_none u⟩

/-- An evaluation that puts out due times. -/
theorem ScheduleEvaluation.tick_fire {D : Set Datetime} {last : Option Datetime} {now : Datetime}
    (hne : e.dueTimes ≠ []) (hsorted : e.dueTimes.Pairwise (· < ·))
    (hdue : ∀ d ∈ e.dueTimes, d ∈ D ∧ d ≤ now ∧ ∀ l ∈ last, l < d) :
    DueTimes.Tick D last now e.dueTimes e.update := by
  have hupdate : e.update = e.dueTimes.getLast? := by rw [ScheduleEvaluation.update, if_neg hne]
  cases hu : e.dueTimes.getLast? with
  | none => exact absurd (getLast?_eq_none_iff.mp hu) hne
  | some u =>
    rw [hupdate, hu]
    exact DueTimes.Tick.fire hsorted hdue hu

namespace ScheduleSpec

variable (schedule : ScheduleSpec)

/-- The seconds of the interval. -/
def seconds : ℤ := schedule.intervalSeconds.getD 0

theorem seconds_pos (h : schedule.triggerType = .interval) : 0 < schedule.seconds := by
  rcases schedule.interval_pos h with ⟨n, hn, hpos⟩
  unfold seconds
  rw [hn]
  exact hpos

/-- The first time that is due after the last run. -/
def firstDue (now : Datetime) (last : Option Datetime) : ℤ :=
  match last with
  | none => (schedule.runAt.getD now).val
  | some lastRunAt => lastRunAt.val + schedule.seconds * microsPerSecond

/-- The number of due times from the first one up to now. -/
def dueCount (now : Datetime) (last : Option Datetime) : ℕ :=
  ((now.val : ℤ) - schedule.firstDue now last).toNat / (10 ^ 6 * schedule.seconds.toNat) + 1

/-- The number of due times up to the last one that is reported. -/
def reportedRuns (now : Datetime) (last : Option Datetime) : ℕ :=
  if schedule.misfirePolicy = .catchUp ∨ schedule.misfirePolicy = .catchUpLimited then
    min (schedule.dueCount now last) schedule.maxCatchupRuns.toNat
  else schedule.dueCount now last

/-- The elapsed seconds are not rounded up to another due time, and the time after the last
reported one is a date. -/
structure IntervalFits (now : Datetime) (last : Option Datetime) : Prop where
  exact : ¬ PyNumber.RoundsUp ((now.val : ℤ) - schedule.firstDue now last).toNat
    schedule.seconds.toNat
  next : schedule.firstDue now last +
    schedule.reportedRuns now last * (schedule.seconds * microsPerSecond) < datetimeRange

end ScheduleSpec

section Evaluation

variable {schedule : ScheduleSpec} {now : Datetime} {last : Option Datetime}

theorem duration_timedelta {d : ℤ} (h0 : 0 ≤ d) (h : d < datetimeRange) :
    duration (Datetime.timedelta d) = .ok d := by
  unfold Datetime.timedelta
  unfold datetimeRange at h
  rw [if_pos ⟨by omega, by omega⟩]
  rfl

theorem eq_of_duration {d interval : ℤ} (h : duration (Datetime.timedelta d) = .ok interval) :
    interval = d := by
  unfold duration Datetime.timedelta at h
  split at h
  · rename_i d' hd
    split at hd
    · rw [← ok_inj h, ← ok_inj hd]
    · cases hd
  · cases h

/-- Before the first due time nothing happens. -/
theorem evaluateInterval_idle (h : (now.val : ℤ) < schedule.firstDue now last)
    (he : evaluateInterval schedule now last = .ok e) :
    e.dueTimes = [] ∧ e.stateUpdateAt = none := by
  unfold evaluateInterval at he
  obtain ⟨interval, hinterval, he⟩ := bind_inv he
  obtain ⟨base, hbase, he⟩ := bind_inv he
  have hvalue : (base.val : ℤ) = schedule.firstDue now last := by
    cases last with
    | none =>
      rw [← ok_inj hbase]
      rfl
    | some lastRunAt =>
      rw [val_of_addMicros (moment_eq_ok.mp hbase), eq_of_duration hinterval]
      rfl
  have hlt : now < base := Fin.lt_def.mpr (by omega)
  rw [if_pos hlt] at he
  rw [← ok_inj he]
  exact ⟨rfl, rfl⟩

theorem toNat_mul_micros (seconds : ℤ) (h : 0 < seconds) :
    ((10 ^ 6 * seconds.toNat : ℕ) : ℤ) = seconds * microsPerSecond := by
  push_cast
  rw [Int.toNat_of_nonneg h.le]
  unfold microsPerSecond
  ring

/-- The last due time up to now is not after now. -/
theorem lastDue_le (hpos : 0 < schedule.seconds) (hdue : schedule.firstDue now last ≤ now.val) :
    schedule.firstDue now last + (schedule.dueCount now last - 1 : ℕ) *
      (schedule.seconds * microsPerSecond) ≤ now.val := by
  have hdiv := Nat.div_mul_le_self ((now.val : ℤ) - schedule.firstDue now last).toNat
    (10 ^ 6 * schedule.seconds.toNat)
  have hcast : (((now.val : ℤ) - schedule.firstDue now last).toNat : ℤ) =
      now.val - schedule.firstDue now last := Int.toNat_of_nonneg (by omega)
  unfold ScheduleSpec.dueCount
  rw [Nat.add_sub_cancel, ← toNat_mul_micros _ hpos]
  have hle : ((((now.val : ℤ) - schedule.firstDue now last).toNat /
      (10 ^ 6 * schedule.seconds.toNat) * (10 ^ 6 * schedule.seconds.toNat) : ℕ) : ℤ) ≤
        now.val - schedule.firstDue now last := by
    rw [← hcast]
    exact_mod_cast hdiv
  rw [Nat.cast_mul] at hle
  omega

theorem lt_firstDue (hpos : 0 < schedule.seconds) {l : Datetime} :
    (l.val : ℤ) < schedule.firstDue now (some l) := by
  have hinterval : 0 < schedule.seconds * microsPerSecond := mul_pos hpos (by decide)
  show (l.val : ℤ) < l.val + schedule.seconds * microsPerSecond
  omega

theorem reportedRuns_pos : 0 < schedule.reportedRuns now last := by
  have hcatchup := schedule.maxCatchupRuns_pos
  have hcount : 0 < schedule.dueCount now last := Nat.succ_pos _
  unfold ScheduleSpec.reportedRuns
  split <;> omega

/-- The base of an evaluation is the first due time, when that is not after now. -/
theorem exists_base (hpos : 0 < schedule.seconds) (hdue : schedule.firstDue now last ≤ now.val) :
    ∃ base : Datetime, (base.val : ℤ) = schedule.firstDue now last ∧
      baseDueAt schedule now (schedule.seconds * microsPerSecond) last = .ok base := by
  cases last with
  | none => exact ⟨schedule.runAt.getD now, rfl, rfl⟩
  | some l =>
    have hl := @lt_firstDue schedule now hpos l
    rcases exists_datetime (n := schedule.firstDue now (some l)) (by omega) hdue with ⟨base, hbase⟩
    refine ⟨base, hbase, ?_⟩
    show moment _ = _
    rw [moment_eq_ok, addMicros_eq_ok_iff, hbase]
    rfl

/-- What is reported unless the tick is skipped: grid times up to the last reported one. -/
theorem exists_reported (hpos : 0 < schedule.seconds) (hdue : schedule.firstDue now last ≤ now.val)
    {base : Datetime} (hbase : (base.val : ℤ) = schedule.firstDue now last)
    (hreport : ¬ (1 < schedule.dueCount now last ∧ schedule.misfirePolicy = .skip)) :
    ∃ ts u, intervalDueTimes base (schedule.seconds * microsPerSecond)
        (schedule.dueCount now last) schedule.misfirePolicy schedule.maxCatchupRuns = .ok ts ∧
      ts.Pairwise (· < ·) ∧ (∀ t ∈ ts, t ≤ now ∧ ∃ i : ℕ, (t.val : ℤ) = base.val +
        i * (schedule.seconds * microsPerSecond)) ∧
      ts.getLast? = some u ∧ (u.val : ℤ) = base.val + (schedule.reportedRuns now last - 1 : ℕ) *
          (schedule.seconds * microsPerSecond) := by
  have hinterval : 0 < schedule.seconds * microsPerSecond := mul_pos hpos (by decide)
  have hlatest := lastDue_le hpos hdue
  have hcatchup := schedule.maxCatchupRuns_pos
  have hcount : 0 < schedule.dueCount now last := Nat.succ_pos _
  unfold intervalDueTimes
  by_cases honce : schedule.misfirePolicy = .runOnce
  · have hnonneg : (0 : ℤ) ≤ (schedule.dueCount now last - 1 : ℕ) *
      (schedule.seconds * microsPerSecond) := by positivity
    rcases @exists_datetime (base.val + (schedule.dueCount now last - 1 : ℕ) *
      (schedule.seconds * microsPerSecond)) now (by omega) (by omega)
      with ⟨latest, hlatestVal⟩
    have hruns : schedule.reportedRuns now last = schedule.dueCount now last := by
      unfold ScheduleSpec.reportedRuns
      rw [honce]
      simp
    refine ⟨[latest], latest, ?_, pairwise_singleton _ _, ?_, rfl, by rw [hruns, hlatestVal]⟩
    · rw [if_pos honce, intervalTime_eq_ok.mpr hlatestVal]
      rfl
    · intro t ht
      obtain rfl := mem_singleton.mp ht
      exact ⟨Fin.le_def.mpr (by omega), _, hlatestVal⟩
  · have hruns : schedule.reportedRuns now last =
        min (schedule.dueCount now last) schedule.maxCatchupRuns.toNat := by
      unfold ScheduleSpec.reportedRuns
      cases hpolicy : schedule.misfirePolicy with
      | skip =>
        have hone : schedule.dueCount now last = 1 := by
          by_contra hne
          exact hreport ⟨by omega, hpolicy⟩
        rw [hone]
        simp
        omega
      | runOnce => exact (honce hpolicy).elim
      | catchUp => simp
      | catchUpLimited => simp
    have hle : ((min (schedule.dueCount now last) schedule.maxCatchupRuns.toNat - 1 : ℕ) : ℤ) ≤
        (schedule.dueCount now last - 1 : ℕ) := by
      have := Nat.min_le_left (schedule.dueCount now last) schedule.maxCatchupRuns.toNat
      omega
    have hmul := mul_le_mul_of_nonneg_right hle hinterval.le
    rcases @exists_firstTimes base now _
      (min (schedule.dueCount now last) schedule.maxCatchupRuns.toNat) hinterval (by omega) (by omega)
      with ⟨ts, u, hts, hsorted, hall, hu, huVal⟩
    refine ⟨ts, u, by rw [if_neg honce, hts], hsorted, ?_, hu, by rw [hruns, huVal]⟩
    intro t ht
    rcases hall t ht with ⟨i, hi, hval⟩
    have hile : (i : ℤ) ≤ (schedule.dueCount now last - 1 : ℕ) := by
      have := Nat.min_le_left (schedule.dueCount now last) schedule.maxCatchupRuns.toNat
      omega
    have himul := mul_le_mul_of_nonneg_right hile hinterval.le
    exact ⟨Fin.le_def.mpr (by omega), i, hval⟩

/-- A due tick that fits puts out due times, or under `SKIP` moves on to the last one. -/
theorem evaluateInterval_fires (htrigger : schedule.triggerType = .interval)
    (hdue : schedule.firstDue now last ≤ now.val) (hfits : schedule.IntervalFits now last)
    (hanchor : ∀ base : Datetime, (base.val : ℤ) = schedule.firstDue now last →
      base ∈ grid anchor schedule.seconds) : ∃ e, evaluateInterval schedule now last = .ok e ∧
      DueTimes.Tick (grid anchor schedule.seconds) last now e.dueTimes e.update ∧
      (e.dueTimes ≠ [] ∨ (schedule.misfirePolicy = .skip ∧ e.update ≠ none)) := by
  have hpos := schedule.seconds_pos htrigger
  have hinterval : 0 < schedule.seconds * microsPerSecond := mul_pos hpos (by decide)
  have hruns : 0 < schedule.reportedRuns now last := reportedRuns_pos
  rcases exists_base hpos hdue with ⟨base, hbase, hbaseDue⟩
  -- what the code computes
  have hduration : duration (Datetime.timedelta (schedule.seconds * microsPerSecond)) =
        .ok (schedule.seconds * microsPerSecond) := by
    refine duration_timedelta hinterval.le ?_
    have hnext := hfits.next
    have hone : schedule.seconds * microsPerSecond ≤
        schedule.reportedRuns now last * (schedule.seconds * microsPerSecond) := by
      have hcast : (1 : ℤ) ≤ schedule.reportedRuns now last := by exact_mod_cast hruns
      nlinarith
    have hnonneg : (0 : ℤ) ≤ base.val := Int.natCast_nonneg _
    omega
  have hcount : intervalDueCount base now schedule.seconds = schedule.dueCount now last := by
    have helapsed : now.val - base.val = ((now.val : ℤ) - schedule.firstDue now last).toNat := by
      omega
    unfold intervalDueCount ScheduleSpec.dueCount
    rw [helapsed, PyNumber.floorDivSeconds_eq (by omega) hfits.exact]
  have hlatest := lastDue_le hpos hdue
  have honGrid : ∀ (t : Datetime) (i : ℕ), (t.val : ℤ) = base.val +
      i * (schedule.seconds * microsPerSecond) → t ∈ grid anchor schedule.seconds := by
    intro t i ht
    exact grid_subset_of_mem (hanchor base hbase) ⟨i, ht⟩
  have hafter : ∀ t : Datetime, base.val ≤ t.val → ∀ l ∈ last, l < t := by
    intro t ht l hl
    cases last with
    | none => cases hl
    | some l' =>
      obtain rfl := Option.mem_some_iff.mp hl
      have := @lt_firstDue schedule now hpos l'
      apply Fin.lt_def.mpr
      omega
  have hbaseNow : ¬ now < base := not_lt.mpr (Fin.le_def.mpr (by omega))
  have hnonneg : (0 : ℤ) ≤ (schedule.dueCount now last - 1 : ℕ) *
    (schedule.seconds * microsPerSecond) := by positivity
  rcases @exists_datetime (base.val + (schedule.dueCount now last - 1 : ℕ) *
    (schedule.seconds * microsPerSecond)) now (by omega) (by omega)
    with ⟨latest, hlatestVal⟩
  -- the time after the last reported one is a date
  have hnext : ∀ u : Datetime, (u.val : ℤ) = base.val +
      (schedule.reportedRuns now last - 1 : ℕ) * (schedule.seconds * microsPerSecond) →
      ∃ next, moment (u.addMicros (schedule.seconds * microsPerSecond)) = .ok next := by
    intro u hu
    have hsum : (u.val : ℤ) + schedule.seconds * microsPerSecond =
        schedule.firstDue now last +
          schedule.reportedRuns now last * (schedule.seconds * microsPerSecond) := by
      have hcast : ((schedule.reportedRuns now last - 1 : ℕ) : ℤ) =
          schedule.reportedRuns now last - 1 := by omega
      rw [hu, hcast, hbase]
      ring
    rcases exists_datetime_lt (n := u.val + schedule.seconds * microsPerSecond) (by omega)
      (by rw [hsum]; exact hfits.next) with ⟨next, hval⟩
    exact ⟨next, moment_eq_ok.mpr (addMicros_eq_ok_iff.mpr hval)⟩
  have hcode : evaluateInterval schedule now last =
      (if 1 < schedule.dueCount now last ∧ schedule.misfirePolicy = .skip then do
        let next ← moment (latest.addMicros (schedule.seconds * microsPerSecond))
        .ok {
          scheduleId := schedule.scheduleId, triggerType := schedule.triggerType
          nextRunAt := some next, stateUpdateAt := some latest, reason := some "misfire_skipped" }
      else do
        let dueTimes ← intervalDueTimes base (schedule.seconds * microsPerSecond)
          (schedule.dueCount now last) schedule.misfirePolicy schedule.maxCatchupRuns
        let final ← lastOf dueTimes
        let next ← moment (final.addMicros (schedule.seconds * microsPerSecond))
        .ok {
          scheduleId := schedule.scheduleId, triggerType := schedule.triggerType
          dueTimes := dueTimes, nextRunAt := some next, stateUpdateAt := some final }) := by
    unfold evaluateInterval
    show (duration (Datetime.timedelta (schedule.seconds * microsPerSecond)) >>= _) = _
    rw [hduration, ok_bind, hbaseDue, ok_bind, if_neg hbaseNow]
    have hcount' : intervalDueCount base now (schedule.intervalSeconds.getD 0) =
      schedule.dueCount now last := hcount
    simp only [hcount', intervalTime_eq_ok.mpr hlatestVal, ok_bind]
  by_cases hskip : 1 < schedule.dueCount now last ∧ schedule.misfirePolicy = .skip
  · have hreported : schedule.reportedRuns now last = schedule.dueCount now last := by
      unfold ScheduleSpec.reportedRuns
      rw [hskip.2]
      simp
    rcases hnext latest (by rw [hreported, hlatestVal]) with ⟨next, hnextEq⟩
    rw [hcode, if_pos hskip, hnextEq]
    have htick := ScheduleEvaluation.tick_skip (e := {
        scheduleId := schedule.scheduleId, triggerType := schedule.triggerType
        nextRunAt := some next, stateUpdateAt := some latest, reason := some "misfire_skipped" })
      rfl rfl (honGrid latest _ hlatestVal) (Fin.le_def.mpr (show latest.val ≤ now.val by omega))
      (hafter latest (by omega))
    exact ⟨_, rfl, htick.1, Or.inr ⟨hskip.2, htick.2⟩⟩
  · rcases exists_reported hpos hdue hbase hskip with ⟨ts, u, hts, hsorted, hall, hu, huVal⟩
    rcases hnext u huVal with ⟨next, hnextEq⟩
    have hne : ts ≠ [] := by
      rintro rfl
      cases hu
    have hlast : lastOf ts = .ok u := by
      unfold lastOf
      rw [hu]
      rfl
    rw [hcode, if_neg hskip, hts, ok_bind, hlast, ok_bind, hnextEq]
    refine ⟨_, rfl, ScheduleEvaluation.tick_fire hne hsorted (fun t ht => ?_), Or.inl hne⟩
    rcases hall t ht with ⟨hnow, i, hval⟩
    have hi : (0 : ℤ) ≤ i * (schedule.seconds * microsPerSecond) := by positivity
    exact ⟨honGrid t i hval, hnow, hafter t (by omega)⟩

end Evaluation

end Workers
