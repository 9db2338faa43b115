import SimpleLink.Timer.CcTimer

/-!
# The alarm of the real time clock (`rtc_hal.c`)

The clock is read from the slow domain, or put together from a reference and the
counter of the fast domain. `time_to_alarm` takes the difference of the alarm and
the clock with a borrow, but writes both its parts to `nsec`: the seconds of the
caller's structure are not touched. `is_alarm_cfg_valid` adds the borrow to the
seconds of the clock in 32 bits.
-/

namespace SimpleLink.Timer.RtcHal

open CcTimer

/-! ## Reading the clock -/

/-- `struct hw_rtc64`, less what no function here reads. -/
structure HwRtc64 where
  dontRdhw : Bool
  refValue : U64Time
  alarmVal : U64Time
  hasAlarm : Bool

/-- What the hardware answers: the successive values of `PRCMSlowClkCtrFastGet`, the match register
and the clock of the slow domain, each with seconds and cycles. -/
structure PrcmRtc where
  slowClkCtrFast : Nat → UInt64
  matchSecs : UInt32
  matchCycles : UInt16
  secs : UInt32
  cycles : UInt16

def u16msU32ns (msec : UInt32) : UInt32 := msec * 1000000

def cyclesU16ms (cycles : UInt32) : UInt32 := cycles * 1000 / 1024

def cyclesNsec (cycles : UInt32) : UInt32 :=
  u16msU32ns (cyclesU16ms (if cycles ≠ 0 then cycles + 1 else cycles))

/-- `rtc_fast_domain_counter_rd` from the `i`-th read on. Every way out of the loop leaves 1 in `itr`,
so that the second read is the one that counts. -/
def rtcFastDomainCounterRd (hw : PrcmRtc) : Nat → Nat → Option U64Time
  | 0, _ => none
  | fuel + 1, i =>
    let rtcCount1 := hw.slowClkCtrFast i
    let rtcCount2 := hw.slowClkCtrFast (i + 1)
    let rtcCount3 := hw.slowClkCtrFast (i + 2)
    if rtcCount2 - rtcCount1 ≤ 1 ∨ rtcCount3 - rtcCount2 ≤ 1 ∨ rtcCount3 - rtcCount1 ≤ 1 then
      let evalCount := rtcCount2 >>> 5
      some ⟨(evalCount >>> 10).toUInt32, cyclesNsec (evalCount &&& 0x3FF).toUInt32⟩
    else rtcFastDomainCounterRd hw fuel (i + 3)

/-- `util_u64_time_add` -/
def utilU64TimeAdd (time1 time2 : U64Time) : U64Time :=
  let result := utilU32NsecAdd time1.nsec time2.nsec
  { result with secs := result.secs + (time1.secs + time2.secs) }

/-- `RTC_ACCESS_TIME_NSEC` -/
def rtcAccessTimeNsec : UInt32 := 5000000

def hwAccessTimeAddup (value : U64Time) : U64Time := utilU64TimeAdd value ⟨0, rtcAccessTimeNsec⟩

/-- The cycles of a register, raised by one in 16 bits before they are converted. -/
def registerNsec (cycles : UInt16) : UInt32 :=
  u16msU32ns (cyclesU16ms (if cycles ≠ 0 then cycles + 1 else cycles).toUInt32)

def rtcAlarmRd (rtc : HwRtc64) (hw : PrcmRtc) : U64Time :=
  if rtc.dontRdhw then rtc.alarmVal else ⟨hw.matchSecs, registerNsec hw.matchCycles⟩

/-- `rtc_value_rd`; the fuel is for the reads of the counter of the fast domain. -/
def rtcValueRd (rtc : HwRtc64) (hw : PrcmRtc) (fuel : Nat) : Option U64Time :=
  if rtc.dontRdhw then
    (rtcFastDomainCounterRd hw fuel 0).map fun counter => utilU64TimeAdd rtc.refValue counter
  else some (hwAccessTimeAddup ⟨hw.secs, registerNsec hw.cycles⟩)

/-! ## The alarm -/

/-- `is_alarm_cfg_valid`: the borrow of a valid alarm. -/
def isAlarmCfgValid (alarm clock : U64Time) : Option UInt32 :=
  let borrow : UInt32 := if alarm.nsec ≤ clock.nsec then 1 else 0
  if alarm.secs < clock.secs + borrow then none else some borrow

/-- `time_to_alarm`: what is left in `tta`, and the result. -/
def timeToAlarm (rtc : HwRtc64) (hw : PrcmRtc) (fuel : Nat) (tta : U64Time) :
    Option (U64Time × Int) :=
  if rtc.hasAlarm = false then some (tta, -1)
  else
    (rtcValueRd rtc hw fuel).map fun value =>
      let alarm := rtcAlarmRd rtc hw
      match isAlarmCfgValid alarm value with
      | none => (tta, -1)
      | some borrow =>
        let tta := { tta with nsec :=
          if borrow ≠ 0 then alarm.nsec + ~~~value.nsec + 1 else alarm.nsec - value.nsec }
        let tta := { tta with nsec := alarm.secs - value.secs - borrow }
        (tta, 0)

/-! ## Times -/

def timeNs (t : U64Time) : Nat := t.secs.toNat * 1000000000 + t.nsec.toNat

def Before (t u : U64Time) : Prop :=
  t.secs.toNat < u.secs.toNat ∨ t.secs.toNat = u.secs.toNat ∧ t.nsec.toNat < u.nsec.toNat

def secsLeft (alarm value : U64Time) : Nat :=
  alarm.secs.toNat - value.secs.toNat - if alarm.nsec ≤ value.nsec then 1 else 0

theorem toNat_borrow (b : Prop) [Decidable b] :
    (if b then (1 : UInt32) else 0).toNat = if b then 1 else 0 := by
  split <;> rfl

theorem isAlarmCfgValid_isSome_iff (alarm clock : U64Time) :
    (isAlarmCfgValid alarm clock).isSome ↔
      Before clock alarm ∨ clock.secs.toNat = 2 ^ 32 - 1 ∧ alarm.nsec ≤ clock.nsec := by
  have ha := alarm.secs.toNat_lt
  have hc := clock.secs.toNat_lt
  unfold isAlarmCfgValid Before
  dsimp only
  simp only [UInt32.lt_iff_toNat_lt, UInt32.toNat_add, UInt32.le_iff_toNat_le]
  by_cases hb : alarm.nsec.toNat ≤ clock.nsec.toNat
  · simp only [hb, if_true, and_true, UInt32.toNat_one]
    split
    · simp only [Option.isSome_none, Bool.false_eq_true, false_iff]
      omega
    · simp only [Option.isSome_some, true_iff]
      omega
  · simp only [hb, if_false, and_false, or_false, UInt32.toNat_zero]
    split
    · simp only [Option.isSome_none, Bool.false_eq_true, false_iff]
      omega
    · simp only [Option.isSome_some, true_iff]
      omega

theorem not_wraps {alarm clock : U64Time} (h : Before clock alarm) :
    ¬ (clock.secs.toNat = 2 ^ 32 - 1 ∧ alarm.nsec ≤ clock.nsec) := by
  have ha := alarm.secs.toNat_lt
  rw [UInt32.le_iff_toNat_le]
  unfold Before at h
  omega

/-- What is left in the caller's structure for a later alarm: the seconds in the place of the
nanoseconds. -/
theorem timeToAlarm_of_before {rtc : HwRtc64} {hw : PrcmRtc} {fuel : Nat} {value : U64Time}
    (hhas : rtc.hasAlarm = true) (hvalue : rtcValueRd rtc hw fuel = some value)
    (hlater : Before value (rtcAlarmRd rtc hw)) (tta : U64Time) :
    ∃ t, timeToAlarm rtc hw fuel tta = some (t, 0) ∧ t.secs = tta.secs ∧
      t.nsec.toNat = secsLeft (rtcAlarmRd rtc hw) value := by
  have hvalid := (isAlarmCfgValid_isSome_iff (rtcAlarmRd rtc hw) value).2 (.inl hlater)
  obtain ⟨borrow, hborrow⟩ := Option.isSome_iff_exists.1 hvalid
  refine ⟨⟨tta.secs, (rtcAlarmRd rtc hw).secs - value.secs - borrow⟩, ?_, rfl, ?_⟩
  · rw [timeToAlarm, if_neg (by simp [hhas]), hvalue]
    simp only [Option.map_some, hborrow]
  · have hb : borrow.toNat = if (rtcAlarmRd rtc hw).nsec ≤ value.nsec then 1 else 0 := by
      simp only [isAlarmCfgValid, Option.ite_none_left_eq_some, Option.some.injEq] at hborrow
      rw [← toNat_borrow, ← hborrow.2]
    have ha := (rtcAlarmRd rtc hw).secs.toNat_lt
    have hv := value.secs.toNat_lt
    unfold Before at hlater
    simp only [UInt32.le_iff_toNat_le] at hb
    simp only [secsLeft, UInt32.le_iff_toNat_le, ← hb, UInt32.toNat_sub]
    split at hb
    · omega
    · omega

/-- The alarm is accepted if it is later than now, and the time that is left until then is
normalized and leads from now to the alarm. -/
structure AlarmRight (rtc : HwRtc64) (hw : PrcmRtc) (fuel : Nat) (value tta : U64Time) : Prop where
  accepts : (isAlarmCfgValid (rtcAlarmRd rtc hw) value).isSome ↔ Before value (rtcAlarmRd rtc hw)
  left : Before value (rtcAlarmRd rtc hw) → ∃ t, timeToAlarm rtc hw fuel tta = some (t, 0) ∧
    t.nsec.toNat < 1000000000 ∧ timeNs value + timeNs t = timeNs (rtcAlarmRd rtc hw)

theorem timeNs_add_iff {value t alarm : U64Time} (hle : timeNs value ≤ timeNs alarm) :
    t.nsec.toNat < 1000000000 ∧ timeNs value + timeNs t = timeNs alarm ↔
      t.secs.toNat = (timeNs alarm - timeNs value) / 1000000000 ∧
        t.nsec.toNat = (timeNs alarm - timeNs value) % 1000000000 := by
  rw [show timeNs t = t.secs.toNat * 1000000000 + t.nsec.toNat from rfl]
  omega

/-- **When the time to the alarm is right**: now is not in the last second that 32 bits hold, with
an alarm that needs the borrow; and for a later alarm, the structure of the caller has the seconds
that are left already, and there are as many nanoseconds left as seconds. -/
theorem timeToAlarm_right_iff {rtc : HwRtc64} {hw : PrcmRtc} {fuel : Nat} {value : U64Time}
    (hhas : rtc.hasAlarm = true) (hvalue : rtcValueRd rtc hw fuel = some value)
    (hv : value.nsec.toNat < 1000000000) (ha : (rtcAlarmRd rtc hw).nsec.toNat < 1000000000)
    (tta : U64Time) :
    AlarmRight rtc hw fuel value tta ↔
      ¬ (value.secs.toNat = 2 ^ 32 - 1 ∧ (rtcAlarmRd rtc hw).nsec ≤ value.nsec) ∧
        (Before value (rtcAlarmRd rtc hw) →
          tta.secs.toNat = (timeNs (rtcAlarmRd rtc hw) - timeNs value) / 1000000000 ∧
          secsLeft (rtcAlarmRd rtc hw) value =
            (timeNs (rtcAlarmRd rtc hw) - timeNs value) % 1000000000) := by
  have hns : Before value (rtcAlarmRd rtc hw) → timeNs value ≤ timeNs (rtcAlarmRd rtc hw) := by
    simp only [Before, timeNs]
    omega
  have hvalid := isAlarmCfgValid_isSome_iff (rtcAlarmRd rtc hw) value
  constructor
  · rintro ⟨haccepts, hleft⟩
    refine ⟨fun hwrap => ?_, fun hlater => ?_⟩
    · exact not_wraps (haccepts.1 (hvalid.2 (.inr hwrap))) hwrap
    · obtain ⟨t, ht, hright⟩ := hleft hlater
      obtain ⟨t', ht', hsecs, hnsec⟩ := timeToAlarm_of_before hhas hvalue hlater tta
      obtain ⟨rfl, -⟩ := Prod.mk.inj (Option.some.inj (ht'.symm.trans ht))
      rwa [timeNs_add_iff (hns hlater), hsecs, hnsec] at hright
  · rintro ⟨hwrap, hleft⟩
    refine ⟨?_, fun hlater => ?_⟩
    · rw [hvalid]
      exact ⟨fun h => h.resolve_right hwrap, .inl⟩
    · obtain ⟨t, ht, hsecs, hnsec⟩ := timeToAlarm_of_before hhas hvalue hlater tta
      refine ⟨t, ht, ?_⟩
      rw [timeNs_add_iff (hns hlater), hsecs, hnsec]
      exact hleft hlater

/-! ## An alarm in ten seconds -/

def prcmRtcStill : PrcmRtc := ⟨fun _ => 0, 0, 0, 0, 0⟩

def rtcAt20 (nsec : UInt32) : HwRtc64 := ⟨true, ⟨10, 0⟩, ⟨20, nsec⟩, true⟩

/-- Ten seconds and ten nanoseconds are left, and the caller has set the seconds. -/
theorem timeToAlarm_right_ten :
    AlarmRight (rtcAt20 10) prcmRtcStill 1 ⟨10, 0⟩ ⟨10, 0⟩ :=
  (timeToAlarm_right_iff rfl rfl (by decide) (by decide) ⟨10, 0⟩).2
    ⟨by decide, fun _ => by decide⟩

/-- A tenth of a second more than ten seconds is left: the answer is ten nanoseconds. -/
theorem timeToAlarm_not_right : ¬ AlarmRight (rtcAt20 100000000) prcmRtcStill 1 ⟨10, 0⟩ ⟨0, 0⟩ := by
  intro h
  have hlater : Before ⟨10, 0⟩ (rtcAlarmRd (rtcAt20 100000000) prcmRtcStill) := .inl (by decide)
  obtain ⟨t, ht, -, hns⟩ := h.left hlater
  have hrun : timeToAlarm (rtcAt20 100000000) prcmRtcStill 1 ⟨0, 0⟩ = some (⟨0, 10⟩, 0) := rfl
  obtain ⟨rfl, -⟩ := Prod.mk.inj (Option.some.inj (hrun.symm.trans ht))
  exact absurd hns (by decide)

end SimpleLink.Timer.RtcHal
