/-
# Due times of a cron expression

The due times are the whole minutes that the expression matches.  An evaluation scans
the minutes after the last run, but only the first ones, up to a bound.  When one of
those matches, the evaluation puts out due times or moves the last run on to one; when
none does, it leaves everything as it is, whatever matches later in the window.
-/
import AgoraHub.SchedulerInterval

namespace Workers

open Fallible List Datetime ScheduleEvaluation

/-! ## Minutes -/

/-- The whole minutes that the expression matches. -/
def cronDue (expression : String) : Set Datetime :=
  { m | m.floorMinute = m ∧ cronMatches expression m = .ok true }

/-- `_cron_matches` accepts the expression: it raises at no moment. -/
def CronAccepted (expression : String) : Prop := ∀ m, ∃ b, cronMatches expression m = .ok b

theorem nextMinute_eq_ok {t u : Datetime} :
    nextMinute t = .ok u ↔ (u.val : ℤ) = t.val + microsPerMinute := by
  unfold nextMinute
  rw [moment_eq_ok, addMicros_eq_ok_iff]

theorem floorMinute_le (t : Datetime) : t.floorMinute ≤ t := Fin.le_def.mpr (Nat.sub_le _ _)

theorem lt_floorMinute_add (t : Datetime) :
    t.val < t.floorMinute.val + microsPerMinute := by
  have h : t.floorMinute.val = t.val - t.val % microsPerMinute := rfl
  have hmod := Nat.mod_lt t.val (show 0 < microsPerMinute by decide)
  omega

/-- A moment that is a whole number of minutes after a whole minute is one. -/
theorem floorMinute_eq_self_iff {t : Datetime} :
    t.floorMinute = t ↔ t.val % microsPerMinute = 0 := by
  have hle := Nat.mod_le t.val microsPerMinute
  constructor
  · intro h
    have hval : t.val - t.val % microsPerMinute = t.val := congrArg Fin.val h
    omega
  · intro h
    apply Fin.ext
    show t.val - t.val % microsPerMinute = t.val
    omega

theorem floorMinute_floorMinute (t : Datetime) : t.floorMinute.floorMinute = t.floorMinute := by
  rw [floorMinute_eq_self_iff, val_floorMinute, Nat.mul_mod_right]

/-- A whole minute that is not after a moment is not after the minute of that moment. -/
theorem le_floorMinute_iff {m t : Datetime} (hm : m.floorMinute = m) :
    m ≤ t.floorMinute ↔ m ≤ t := by
  refine ⟨fun h => h.trans (floorMinute_le t), fun h => ?_⟩
  rw [floorMinute_eq_self_iff] at hm
  have hdiv := Nat.div_add_mod m.val microsPerMinute
  have hle : m.val / microsPerMinute ≤ t.val / microsPerMinute :=
    Nat.div_le_div_right (Fin.le_def.mp h)
  have hmul := Nat.mul_le_mul_left microsPerMinute hle
  apply Fin.le_def.mpr
  rw [val_floorMinute]
  unfold Datetime.minutes
  omega

/-! ## Scans -/

/-- A minute that an evaluation of a schedule that ran last at `l` scans. -/
def Scanned (bound : ℕ) (l now m : Datetime) : Prop :=
  ∃ k : ℕ, k < bound ∧
    m.val = l.floorMinute.val + (k + 1) * microsPerMinute ∧ m ≤ now

/-- A scanned minute is a whole minute after the last run and not after now. -/
theorem Scanned.spec {bound : ℕ} {l now m : Datetime} (h : Scanned bound l now m) :
    m.floorMinute = m ∧ l < m ∧ m ≤ now := by
  rcases h with ⟨k, -, hval, hnow⟩
  refine ⟨?_, ?_, hnow⟩
  · rw [floorMinute_eq_self_iff, hval, val_floorMinute, Nat.mul_comm (k + 1), ← Nat.mul_add,
      Nat.mul_mod_right]
  · have hl := lt_floorMinute_add l
    have hk : microsPerMinute ≤ (k + 1) * microsPerMinute :=
      Nat.le_mul_of_pos_left _ (Nat.succ_pos k)
    apply Fin.lt_def.mpr
    omega

/-- What `_minute_range` returns. -/
theorem minuteRange_spec {end_ : Datetime} : ∀ {n : ℕ} {current : Datetime} {ms : List Datetime},
    minuteRange end_ n current = .ok ms → ms.Pairwise (· < ·) ∧ ∀ m : Datetime, m ∈ ms ↔
        ∃ k : ℕ, k < n ∧ m.val = current.val + k * microsPerMinute ∧ m ≤ end_ := by
  intro n
  induction n with
  | zero =>
    intro current ms h
    rw [← ok_inj h]
    exact ⟨List.Pairwise.nil, by simp⟩
  | succ n ih =>
    intro current ms h
    unfold minuteRange at h
    by_cases hend : current ≤ end_
    · rw [if_pos hend] at h
      obtain ⟨next, hnext, h⟩ := bind_inv h
      obtain ⟨rest, hrest, h⟩ := bind_inv h
      rw [← ok_inj h]
      rcases ih hrest with ⟨hsorted, hmem⟩
      have hval := nextMinute_eq_ok.mp hnext
      have hpos : 0 < microsPerMinute := by decide
      refine ⟨pairwise_cons.mpr ⟨fun m hm => ?_, hsorted⟩, fun m => ?_⟩
      · rcases (hmem m).mp hm with ⟨k, -, hk, -⟩
        apply Fin.lt_def.mpr
        omega
      · rw [mem_cons, hmem]
        constructor
        · rintro (rfl | ⟨k, hk, hm, hle⟩)
          · exact ⟨0, Nat.succ_pos n, by omega, hend⟩
          · refine ⟨k + 1, by omega, ?_, hle⟩
            rw [Nat.add_mul, Nat.one_mul]
            omega
        · rintro ⟨k, hk, hm, hle⟩
          cases k with
          | zero => exact Or.inl (Fin.ext (by omega))
          | succ k =>
            refine Or.inr ⟨k, by omega, ?_, hle⟩
            rw [Nat.add_mul, Nat.one_mul] at hm
            omega
    · rw [if_neg hend] at h
      rw [← ok_inj h]
      refine ⟨List.Pairwise.nil, fun m => ⟨by simp, ?_⟩⟩
      rintro ⟨k, -, hm, hle⟩
      refine (hend (le_trans (Fin.le_def.mpr ?_) hle)).elim
      rw [hm]
      exact Nat.le_add_right _ _

/-- `_minute_range` returns when every minute that it passes has a next one. -/
theorem minuteRange_ok {end_ : Datetime} : ∀ {n : ℕ} {current : Datetime},
    (∀ m : Datetime, (∃ k : ℕ, k < n ∧ m.val = current.val + k * microsPerMinute ∧
      m ≤ end_) → m.val + microsPerMinute < datetimeRange) →
      ∃ ms, minuteRange end_ n current = .ok ms := by
  intro n
  induction n with
  | zero => exact fun _ => ⟨[], rfl⟩
  | succ n ih =>
    intro current hroom
    unfold minuteRange
    by_cases hend : current ≤ end_
    · have hnext := hroom current ⟨0, Nat.succ_pos n, by omega, hend⟩
      have hok : nextMinute current = .ok ⟨current.val + microsPerMinute, hnext⟩ := by
        rw [nextMinute_eq_ok]
        push_cast
        rfl
      rcases @ih ⟨current.val + microsPerMinute, hnext⟩ (by
        rintro m ⟨k, hk, hm, hle⟩
        refine hroom m ⟨k + 1, by omega, ?_, hle⟩
        rw [Nat.add_mul, Nat.one_mul, hm]
        show current.val + microsPerMinute + k * microsPerMinute = _
        omega) with ⟨rest, hrest⟩
      exact ⟨current :: rest, by rw [if_pos hend, hok, ok_bind, hrest]; rfl⟩
    · exact ⟨[], by rw [if_neg hend]⟩

/-- The matching minutes among those scanned. -/
theorem matchingMinutes_spec {expression : String} : ∀ {ms matched : List Datetime},
    matchingMinutes expression ms = .ok matched →
      matched.Sublist ms ∧ ∀ m, m ∈ matched ↔ m ∈ ms ∧ cronMatches expression m = .ok true := by
  intro ms
  induction ms with
  | nil =>
    intro matched h
    rw [← ok_inj h]
    exact ⟨List.Sublist.refl _, by simp⟩
  | cons x ms ih =>
    intro matched h
    unfold matchingMinutes at h
    obtain ⟨b, hb, h⟩ := bind_inv h
    obtain ⟨later, hlater, h⟩ := bind_inv h
    rw [← ok_inj h]
    rcases ih hlater with ⟨hsub, hmem⟩
    cases b with
    | true =>
      refine ⟨hsub.cons_cons x, fun m => ?_⟩
      rw [if_pos rfl, mem_cons, mem_cons, hmem]
      constructor
      · rintro (rfl | ⟨hm, hmatch⟩)
        · exact ⟨Or.inl rfl, hb⟩
        · exact ⟨Or.inr hm, hmatch⟩
      · rintro ⟨rfl | hm, hmatch⟩
        · exact Or.inl rfl
        · exact Or.inr ⟨hm, hmatch⟩
    | false =>
      refine ⟨hsub.cons x, fun m => ?_⟩
      rw [if_neg Bool.false_ne_true, mem_cons, hmem]
      constructor
      · rintro ⟨hm, hmatch⟩
        exact ⟨Or.inr hm, hmatch⟩
      · rintro ⟨rfl | hm, hmatch⟩
        · rw [hb] at hmatch
          cases hmatch
        · exact ⟨hm, hmatch⟩

theorem matchingMinutes_ok {expression : String} (haccepted : CronAccepted expression)
    (ms : List Datetime) : ∃ matched, matchingMinutes expression ms = .ok matched := by
  induction ms with
  | nil => exact ⟨[], rfl⟩
  | cons x ms ih =>
    rcases ih with ⟨later, hlater⟩
    rcases haccepted x with ⟨b, hb⟩
    exact ⟨_, by rw [matchingMinutes, hb, ok_bind, hlater, ok_bind]⟩

/-! ## What an evaluation puts out -/

namespace Scheduler

variable {scheduler : Scheduler} {schedule : ScheduleSpec} {expression : String} {now : Datetime}

/-- The bound of the scan. -/
def scanBound (scheduler : Scheduler) : ℕ := scheduler.maxCronCatchupMinutes.toNat

/-- What a due tick of a schedule that ran last at `l` needs: some due time is among the minutes
that are scanned, and the dates that the evaluation computes are in range. -/
structure NextCronFits (scheduler : Scheduler) (expression : String) (now l : Datetime) : Prop where
  bound : (scheduler.maxCronCatchupMinutes - 1) * microsPerMinute < 86400000000000000000
  inScan : ∃ m, Scanned scheduler.scanBound l now m ∧ cronMatches expression m = .ok true
  room : ∀ m, Scanned scheduler.scanBound l now m →
    m.val + microsPerMinute < datetimeRange
  next : ∀ m, Scanned scheduler.scanBound l now m → cronMatches expression m = .ok true →
    ∃ next, nextCronTime expression m = .ok next

/-- What a due tick needs. -/
def CronFits (scheduler : Scheduler) (expression : String) (now : Datetime) : Option Datetime → Prop
  | none => ∃ next, nextCronTime expression now.floorMinute = .ok next
  | some l => NextCronFits scheduler expression now l

/-- The start of a scan, and its minutes. -/
theorem mem_scan {l start : Datetime} (hstart : nextMinute l.floorMinute = .ok start) {n : ℕ}
    {m : Datetime} :
    (∃ k : ℕ, k < n ∧ m.val = start.val + k * microsPerMinute ∧ m ≤ now.floorMinute) ↔
      Scanned n l now m := by
  have hval : start.val = l.floorMinute.val + microsPerMinute := by
    have := nextMinute_eq_ok.mp hstart
    omega
  constructor
  · rintro ⟨k, hk, hm, hle⟩
    refine ⟨k, hk, ?_, hle.trans (floorMinute_le now)⟩
    rw [hm, hval, Nat.add_mul, Nat.one_mul]
    omega
  · intro h
    have hwhole := h.spec.1
    rcases h with ⟨k, hk, hm, hle⟩
    refine ⟨k, hk, ?_, (le_floorMinute_iff hwhole).mpr hle⟩
    rw [hm, hval, Nat.add_mul, Nat.one_mul]
    omega

variable {e : ScheduleEvaluation}

/-- Without a due time in the window an evaluation that returns changes nothing. -/
theorem evaluateNextCron_idle {l : Datetime} (h : ∀ d ∈ cronDue expression, ¬ (l < d ∧ d ≤ now))
    (he : scheduler.evaluateNextCron schedule expression now.floorMinute l = .ok e) :
    e.dueTimes = [] ∧ e.stateUpdateAt = none := by
  unfold evaluateNextCron at he
  obtain ⟨start, hstart, he⟩ := bind_inv he
  split at he
  · obtain ⟨next, -, he⟩ := bind_inv he
    rw [← ok_inj he]
    exact ⟨rfl, rfl⟩
  · obtain ⟨ms, hms, he⟩ := bind_inv he
    obtain ⟨bound, -, he⟩ := bind_inv he
    obtain ⟨dueTimes, hdue, he⟩ := bind_inv he
    have hempty : dueTimes = [] := by
      rw [eq_nil_iff_forall_not_mem]
      intro m hm
      rcases ((matchingMinutes_spec hdue).2 m).mp hm with ⟨hmem, hmatch⟩
      have hscanned := (mem_scan hstart).mp (((minuteRange_spec hms).2 m).mp hmem)
      exact h m ⟨hscanned.spec.1, hmatch⟩ hscanned.spec.2
    rw [if_pos hempty] at he
    obtain ⟨next, -, he⟩ := bind_inv he
    rw [← ok_inj he]
    exact ⟨rfl, rfl⟩

/-- What is kept of the due times is an end of them, with the last one. -/
theorem keptDueTimes_spec (schedule : ScheduleSpec) {dueTimes : List Datetime}
    (hne : dueTimes ≠ []) :
    (keptDueTimes schedule dueTimes).Sublist dueTimes ∧ keptDueTimes schedule dueTimes ≠ [] := by
  have hpos := length_pos_iff.mpr hne
  have hcatchup := schedule.maxCatchupRuns_pos
  have hdrop : ∀ n, n < dueTimes.length → dueTimes.drop n ≠ [] := by
    intro n hn hnil
    rw [drop_eq_nil_iff] at hnil
    omega
  unfold keptDueTimes
  split
  · exact ⟨drop_sublist _ _, hdrop _ (by omega)⟩
  · split
    · exact ⟨drop_sublist _ _, hdrop _ (by omega)⟩
    · exact ⟨List.Sublist.refl _, hne⟩

theorem exists_lastOf {ts : List Datetime} (h : ts ≠ []) :
    ∃ u, ts.getLast? = some u ∧ lastOf ts = .ok u := by
  cases hlast : ts.getLast? with
  | none => exact absurd (getLast?_eq_none_iff.mp hlast) h
  | some u => exact ⟨u, rfl, by rw [lastOf, hlast]; rfl⟩

variable {last : Option Datetime}

/-- A scan that has found due times puts out some of them, or under `SKIP` moves on to one. -/
theorem evaluateDueCron_fires {dueTimes : List Datetime} (hne : dueTimes ≠ [])
    (hsorted : dueTimes.Pairwise (· < ·))
    (hdue : ∀ m ∈ dueTimes, m ∈ cronDue expression ∧ m ≤ now ∧ ∀ l ∈ last, l < m)
    (hnext : ∀ m ∈ dueTimes, ∃ next, nextCronTime expression m = .ok next) (bounded : Bool) :
    ∃ e, evaluateDueCron schedule expression bounded dueTimes = .ok e ∧
      DueTimes.Tick (cronDue expression) last now e.dueTimes e.update ∧
      (e.dueTimes ≠ [] ∨ (schedule.misfirePolicy = .skip ∧ e.update ≠ none)) := by
  unfold evaluateDueCron
  by_cases hskip : 1 < dueTimes.length ∧ schedule.misfirePolicy = .skip
  · rcases exists_lastOf hne with ⟨u, hu, hlast⟩
    have hmem := mem_of_getLast? hu
    rcases hnext u hmem with ⟨next, hnextEq⟩
    have htick := tick_skip (e := {
        scheduleId := schedule.scheduleId, triggerType := schedule.triggerType
        nextRunAt := next, stateUpdateAt := some u
        reason := some (if bounded then "catchup_bounded_skipped" else "misfire_skipped") })
      rfl rfl (hdue u hmem).1 (hdue u hmem).2.1 (hdue u hmem).2.2
    rw [if_pos hskip, hlast, ok_bind, hnextEq, ok_bind]
    exact ⟨_, rfl, htick.1, Or.inr ⟨hskip.2, htick.2⟩⟩
  · rcases keptDueTimes_spec schedule hne with ⟨hsub, hkept⟩
    rcases exists_lastOf hkept with ⟨u, hu, hlast⟩
    rcases hnext u (hsub.subset (mem_of_getLast? hu)) with ⟨next, hnextEq⟩
    have htick := tick_fire (e := {
        scheduleId := schedule.scheduleId, triggerType := schedule.triggerType
        dueTimes := keptDueTimes schedule dueTimes, nextRunAt := next, stateUpdateAt := some u
        reason := if bounded then some "catchup_bounded" else none })
      hkept (hsorted.sublist hsub) fun m hm => hdue m (hsub.subset hm)
    rw [if_neg hskip]
    show ∃ e, (lastOf (keptDueTimes schedule dueTimes) >>= _) = Except.ok e ∧ _
    rw [hlast, ok_bind, hnextEq, ok_bind]
    exact ⟨_, rfl, htick, Or.inl hkept⟩

/-- A due tick that fits puts out due times, or under `SKIP` moves on to one. -/
theorem evaluateNextCron_fires {l : Datetime} (haccepted : CronAccepted expression)
    (hfits : NextCronFits scheduler expression now l) :
    ∃ e, scheduler.evaluateNextCron schedule expression now.floorMinute l = .ok e ∧
      DueTimes.Tick (cronDue expression) (some l) now e.dueTimes e.update ∧
      (e.dueTimes ≠ [] ∨ (schedule.misfirePolicy = .skip ∧ e.update ≠ none)) := by
  rcases hfits.inScan with ⟨m, hm, hmatch⟩
  -- the scan starts at the minute after the last run, which is not after `m`
  have hstart : ∃ start, nextMinute l.floorMinute = .ok start ∧ start ≤ now.floorMinute := by
    rcases hm with ⟨k, hk, hval, hle⟩
    have hk' : microsPerMinute ≤ (k + 1) * microsPerMinute :=
      Nat.le_mul_of_pos_left _ (Nat.succ_pos k)
    have hlt := m.isLt
    rcases @exists_datetime (l.floorMinute.val + microsPerMinute) m (by omega) (by omega)
      with ⟨start, hstart⟩
    have hnat : start.val = l.floorMinute.val + microsPerMinute := by omega
    have hwhole : start.floorMinute = start := by
      rw [floorMinute_eq_self_iff, hnat, Nat.add_mod_right]
      exact floorMinute_eq_self_iff.mp (floorMinute_floorMinute l)
    refine ⟨start, nextMinute_eq_ok.mpr hstart, ?_⟩
    rw [le_floorMinute_iff hwhole]
    exact le_trans (Fin.le_def.mpr (by omega)) hle
  rcases hstart with ⟨start, hstart, hstartNow⟩
  rcases @minuteRange_ok now.floorMinute scheduler.scanBound start
    fun x hx => hfits.room x ((mem_scan hstart).mp hx) with ⟨ms, hms⟩
  rcases matchingMinutes_ok haccepted ms with ⟨dueTimes, hdueTimes⟩
  have hscanned : ∀ x, x ∈ dueTimes ↔
      Scanned scheduler.scanBound l now x ∧ cronMatches expression x = .ok true := by
    intro x
    rw [(matchingMinutes_spec hdueTimes).2, (minuteRange_spec hms).2, mem_scan hstart]
  have hne : dueTimes ≠ [] := ne_nil_of_mem ((hscanned m).mpr ⟨hm, hmatch⟩)
  have hbound : ∃ bound, duration (Datetime.timedelta
      ((scheduler.maxCronCatchupMinutes - 1) * microsPerMinute)) = .ok bound := by
    refine ⟨(scheduler.maxCronCatchupMinutes - 1) * microsPerMinute, ?_⟩
    have hpos := scheduler.maxCronCatchupMinutes_pos
    have hnonneg : 0 ≤ (scheduler.maxCronCatchupMinutes - 1) * (microsPerMinute : ℤ) :=
      mul_nonneg (by omega) (Int.natCast_nonneg _)
    have hlt := hfits.bound
    unfold Datetime.timedelta
    rw [if_pos ⟨by omega, hlt⟩]
    rfl
  rcases hbound with ⟨bound, hbound⟩
  have hcode : scheduler.evaluateNextCron schedule expression now.floorMinute l =
      evaluateDueCron schedule expression
        (decide (bound < (now.floorMinute.val : ℤ) - start.val)) dueTimes := by
    unfold evaluateNextCron
    have hms' : minuteRange now.floorMinute scheduler.maxCronCatchupMinutes.toNat start = .ok ms :=
      hms
    rw [hstart, ok_bind, if_neg (not_lt.mpr hstartNow), hms', ok_bind, hbound, ok_bind, hdueTimes,
      ok_bind, if_neg hne]
  rw [hcode]
  refine evaluateDueCron_fires hne
    ((minuteRange_spec hms).1.sublist (matchingMinutes_spec hdueTimes).1) ?_ ?_ _
  · intro x hx
    rcases (hscanned x).mp hx with ⟨hscan, hx⟩
    refine ⟨⟨hscan.spec.1, hx⟩, hscan.spec.2.2, fun l' hl' => ?_⟩
    obtain rfl := Option.mem_some_iff.mp hl'
    exact hscan.spec.2.1
  · intro x hx
    rcases (hscanned x).mp hx with ⟨hscan, hx⟩
    exact hfits.next x hscan hx

/-- The first tick of a schedule puts out its minute, when that matches. -/
theorem evaluateFirstCron_fires (hdue : now.floorMinute ∈ cronDue expression)
    (hnext : ∃ next, nextCronTime expression now.floorMinute = .ok next) :
    ∃ e, evaluateFirstCron schedule expression now.floorMinute = .ok e ∧
      DueTimes.Tick (cronDue expression) none now e.dueTimes e.update ∧ e.dueTimes ≠ [] := by
  rcases hnext with ⟨next, hnext⟩
  unfold evaluateFirstCron
  rw [hdue.2, ok_bind, if_pos rfl, hnext, ok_bind]
  refine ⟨_, rfl, tick_fire ?_ ?_ ?_, ?_⟩
  · exact cons_ne_nil _ _
  · exact pairwise_singleton _ _
  · intro d hd
    obtain rfl := mem_singleton.mp hd
    exact ⟨hdue, floorMinute_le now, by simp⟩
  · exact cons_ne_nil _ _

/-- The first tick of a schedule changes nothing when its minute does not match. -/
theorem evaluateFirstCron_idle (h : now.floorMinute ∉ cronDue expression)
    (he : evaluateFirstCron schedule expression now.floorMinute = .ok e) :
    e.dueTimes = [] ∧ e.stateUpdateAt = none := by
  unfold evaluateFirstCron at he
  obtain ⟨b, hb, he⟩ := bind_inv he
  cases b with
  | true => exact (h ⟨floorMinute_floorMinute now, hb⟩).elim
  | false =>
    rw [if_neg Bool.false_ne_true] at he
    obtain ⟨next, -, he⟩ := bind_inv he
    rw [← ok_inj he]
    exact ⟨rfl, rfl⟩

/-- A time is due at a tick: it is in the window after the last run, or it is the minute of the
first tick. -/
def CronWindow (now : Datetime) (last : Option Datetime) (d : Datetime) : Prop :=
  match last with
  | none => d = now.floorMinute
  | some l => l < d ∧ d ≤ now

/-- A due tick that fits puts out due times, or under `SKIP` moves on to one. -/
theorem evaluateCron_fires (hcron : schedule.cron = some expression) (hne : expression ≠ "")
    (haccepted : CronAccepted expression) (hdue : ∃ d ∈ cronDue expression, CronWindow now last d)
    (hfits : CronFits scheduler expression now last) :
    ∃ e, scheduler.evaluateCron schedule now last = .ok e ∧
      DueTimes.Tick (cronDue expression) last now e.dueTimes e.update ∧
      (e.dueTimes ≠ [] ∨ (schedule.misfirePolicy = .skip ∧ e.update ≠ none)) := by
  unfold evaluateCron
  simp only [hcron, if_neg hne]
  cases last with
  | none =>
    rcases hdue with ⟨d, hd, rfl⟩
    rcases @evaluateFirstCron_fires schedule _ _ hd hfits with ⟨e, he, htick, hout⟩
    exact ⟨e, he, htick, Or.inl hout⟩
  | some l => exact evaluateNextCron_fires haccepted hfits

/-- Without a due time in its window an evaluation that returns changes nothing. -/
theorem evaluateCron_idle (hcron : schedule.cron = some expression) (hne : expression ≠ "")
    (h : ¬ ∃ d ∈ cronDue expression, CronWindow now last d)
    (he : scheduler.evaluateCron schedule now last = .ok e) :
    e.dueTimes = [] ∧ e.stateUpdateAt = none := by
  unfold evaluateCron at he
  simp only [hcron, if_neg hne] at he
  cases last with
  | none => exact evaluateFirstCron_idle (fun hmem => h ⟨_, hmem, rfl⟩) he
  | some l => exact evaluateNextCron_idle (fun d hd hwindow => h ⟨d, hd, hwindow⟩) he

end Scheduler

end Workers
