import Live2dStm32.Libc.Time
import Live2dStm32.Hal.Rtc

/-
  The RTC device (drivers/drv_rtc.c): setting the calendar to a timestamp and reading it back.

  `setGet_iff`: setting either holds the timestamp or leaves the calendar alone exactly when
  nothing is written, or both calls of the HAL succeed before the year 2100, or what has been
  written when a call fails was there before. The driver refuses years below 2000 and does not
  ask for those above 2099; the time goes in with one call of the HAL and the date with another.
-/

namespace Live2dStm32.Rtc

open Live2dStm32.Lib
open Live2dStm32.Libc
open Live2dStm32.Hal.Rtc

def rtEok : Int := 0

def rtError : Int := 1

/-- A cast to `uint8_t`. -/
def byte (x : Int) : BitVec 8 := BitVec.ofInt 8 x

/-- `RTC_TimeStruct` and `RTC_DateStruct` of a time. -/
def timeOf (pTm : Tm) : RtcTime := ⟨byte pTm.tmHour, byte pTm.tmMin, byte pTm.tmSec⟩

def dateOf (pTm : Tm) : RtcDate :=
  ⟨byte (pTm.tmWday + 1), byte (pTm.tmMon + 1), byte pTm.tmMday, byte (pTm.tmYear - 100)⟩

/-- `tm_new`; `mktime` does not read `tm_wday`, which is not set. -/
def tmNew (rtc : RtcCalendar) : Tm :=
  let time := halRtcGetTime rtc
  let date := halRtcGetDate rtc
  { tmSec := time.seconds.toNat
    tmMin := time.minutes.toNat
    tmHour := time.hours.toNat
    tmMday := date.date.toNat
    tmMon := date.month.toNat - 1
    tmYear := date.year.toNat + 100
    tmWday := 0 }

def getRtcTimestamp (rtc : RtcCalendar) : Int := mktime 0 (tmNew rtc)

/-- `c₁` and `c₂` are how the two calls go. -/
def setRtcTimeStamp (hw : RtcHw) (c₁ c₂ : RtcCall) (timeStamp : Int) (rtc : RtcCalendar) :
    Int × RtcCalendar :=
  let pTm := localtime 0 timeStamp
  if pTm.tmYear < 100 then (-rtError, rtc)
  else
    let (status, rtc) := halRtcSetTime c₁ (timeOf pTm) rtc
    if status ≠ .ok then (-rtError, rtc)
    else
      let (status, rtc) := halRtcSetDate hw c₂ (dateOf pTm) rtc
      if status ≠ .ok then (-rtError, rtc) else (rtEok, rtc)

/-- RT_DEVICE_CTRL_RTC_GET_TIME, RT_DEVICE_CTRL_RTC_SET_TIME and the commands it does not know. -/
inductive RtcCmd where
  | getTime
  | setTime (args : BitVec 32)
  | other
  deriving DecidableEq, Repr

/-- The result, what a GET_TIME leaves in `args`, and the calendar. -/
def rtRtcControl (hw : RtcHw) (c₁ c₂ : RtcCall) (cmd : RtcCmd) (rtc : RtcCalendar) :
    Int × Option (BitVec 32) × RtcCalendar :=
  match cmd with
  | .getTime => (rtEok, some (BitVec.ofInt 32 (getRtcTimestamp rtc)), rtc)
  | .setTime args =>
    let (ret, rtc) := setRtcTimeStamp hw c₁ c₂ args.toNat rtc
    (if ret ≠ 0 then -rtError else rtEok, none, rtc)
  | .other => (rtEok, none, rtc)

/-! ## The law -/

/-- Year, month and day. -/
def dateShown (rtc : RtcCalendar) : BitVec 8 × BitVec 8 × BitVec 8 :=
  let date := halRtcGetDate rtc
  (date.year, date.month, date.date)

/-- The same date and time. -/
def Same (rtc rtc' : RtcCalendar) : Prop :=
  halRtcGetTime rtc = halRtcGetTime rtc' ∧ dateShown rtc = dateShown rtc'

/-- A SET_TIME that returns RT_EOK has set the calendar to `t`, and one that does not has left
    it alone. The calls of a GET_TIME do not fail. -/
structure SetGet (hw : RtcHw) (c₁ c₂ : RtcCall) (t : BitVec 32) (rtc : RtcCalendar) : Prop where
  set : (rtRtcControl hw c₁ c₂ (.setTime t) rtc).1 = rtEok →
    (rtRtcControl hw c₁ c₂ .getTime (rtRtcControl hw c₁ c₂ (.setTime t) rtc).2.2).2.1 = some t
  kept : (rtRtcControl hw c₁ c₂ (.setTime t) rtc).1 ≠ rtEok →
    Same (rtRtcControl hw c₁ c₂ (.setTime t) rtc).2.2 rtc

/-- The calendar with the time, and with the date, of `t` written to it. -/
def withTime (t : BitVec 32) (rtc : RtcCalendar) : RtcCalendar :=
  { rtc with tr := trWord (timeOf (localtime 0 t.toNat)) &&& rtcTrReservedMask }

def withDate (hw : RtcHw) (t : BitVec 32) (rtc : RtcCalendar) : RtcCalendar :=
  { rtc with dr := hw.hold (drWord (dateOf (localtime 0 t.toNat)) &&& rtcDrReservedMask) }

/-- A call failed, and what was written before was there already. -/
structure Unseen (hw : RtcHw) (c₁ c₂ : RtcCall) (t : BitVec 32) (rtc : RtcCalendar) : Prop where
  fails : ¬ (c₁.succeeds = true ∧ c₂.succeeds = true)
  time : halRtcGetTime rtc = timeOf (localtime 0 t.toNat)
  date : c₁.succeeds = true → c₂.writes = true → dateShown rtc = dateShown (withDate hw t rtc)

/-! ## The fields of a timestamp -/

variable {hw : RtcHw} {c₁ c₂ : RtcCall} {t : BitVec 32} {rtc : RtcCalendar}

theorem toNat_byte {x : Int} (h0 : 0 ≤ x) (h : x < 256) : ((byte x).toNat : Int) = x := by
  unfold byte
  rw [BitVec.toNat_ofInt, Int.toNat_of_nonneg (Int.emod_nonneg _ (by decide))]
  exact Int.emod_eq_of_lt h0 h

theorem byte_lt {x : Int} {n : Nat} (h0 : 0 ≤ x) (h : x < n) (hn : n < 256) :
    byte x < BitVec.ofNat 8 n := by
  have hx := toNat_byte h0 (by omega)
  rw [BitVec.lt_def, BitVec.toNat_ofNat]
  omega

/-- The bytes of a timestamp are in range, from 2000 on. -/
theorem timeOf_valid {tm : Tm} (h : tm.Valid) : (timeOf tm).Valid :=
  ⟨byte_lt h.hour.1 h.hour.2 (by decide), byte_lt h.min.1 h.min.2 (by decide),
    byte_lt h.sec.1 h.sec.2 (by decide)⟩

theorem dateOf_valid {tm : Tm} (h : tm.Valid) (hw : 0 ≤ tm.tmWday ∧ tm.tmWday ≤ 6) :
    (dateOf tm).Valid := by
  have hmday := h.mday
  have hmon := h.mon
  refine ⟨byte_lt (n := 8) (by omega) (by omega) (by decide), ?_, ?_⟩
  · have hx := toNat_byte (x := tm.tmMon + 1) (by omega) (by omega)
    rw [BitVec.le_def]
    change (byte (tm.tmMon + 1)).toNat ≤ 12
    omega
  · have hx := toNat_byte (x := tm.tmMday) (by omega) (by omega)
    rw [BitVec.le_def]
    change (byte tm.tmMday).toNat ≤ 31
    omega

/-- The fields of a timestamp that is not before 2000. -/
structure Since2000 (tm : Tm) : Prop where
  valid : tm.Valid
  wday : 0 ≤ tm.tmWday ∧ tm.tmWday ≤ 6
  year : 100 ≤ tm.tmYear ∧ tm.tmYear ≤ 206

theorem tmYear_lt_100_iff (t : BitVec 32) :
    (localtime 0 t.toNat).tmYear < 100 ↔ t.toNat < 946684800 := by
  have h := tmYear_lt_iff (Int.natCast_nonneg t.toNat) 30
  rw [show daysTo 1970 30 = 10957 by decide +kernel] at h
  omega

theorem tmYear_lt_200_iff (t : BitVec 32) :
    (localtime 0 t.toNat).tmYear < 200 ↔ t.toNat < 4102444800 := by
  have h := tmYear_lt_iff (Int.natCast_nonneg t.toNat) 130
  rw [show daysTo 1970 130 = 47482 by decide +kernel] at h
  omega

theorem since2000 (h : ¬ t.toNat < 946684800) : Since2000 (localtime 0 t.toNat) := by
  have h100 := tmYear_lt_100_iff t
  have h207 := tmYear_lt_iff (Int.natCast_nonneg t.toNat) 137
  rw [show daysTo 1970 137 = 50038 by decide +kernel] at h207
  have ht : t.toNat < 2 ^ 32 := t.isLt
  obtain ⟨hvalid, hwday, -⟩ := gmtimeR_spec (Int.natCast_nonneg t.toNat)
  rw [← localtime_zero] at hvalid hwday
  exact ⟨hvalid, hwday, by omega, by omega⟩

/-! ## Reading back -/

theorem getTime_withTime (h : ¬ t.toNat < 946684800) (rtc : RtcCalendar) :
    halRtcGetTime (withTime t rtc) = timeOf (localtime 0 t.toNat) :=
  getTime_setTime (timeOf_valid (since2000 h).valid) rtc.dr

/-- The bytes of a time are its fields. -/
theorem toNat_timeOf {tm : Tm} (h : tm.Valid) : ((timeOf tm).seconds.toNat : Int) = tm.tmSec ∧
    ((timeOf tm).minutes.toNat : Int) = tm.tmMin ∧ ((timeOf tm).hours.toNat : Int) = tm.tmHour := by
  have hsec := h.sec
  have hmin := h.min
  have hhour := h.hour
  exact ⟨toNat_byte (by omega) (by omega), toNat_byte (by omega) (by omega),
    toNat_byte (by omega) (by omega)⟩

theorem toNat_dateOf {tm : Tm} (h : Since2000 tm) : ((dateOf tm).date.toNat : Int) = tm.tmMday ∧
    ((dateOf tm).month.toNat : Int) = tm.tmMon + 1 ∧
    ((dateOf tm).year.toNat : Int) = tm.tmYear - 100 := by
  have hmday := h.valid.mday
  have hmon := h.valid.mon
  have hyear := h.year
  exact ⟨toNat_byte (by omega) (by omega), toNat_byte (by omega) (by omega),
    toNat_byte (by omega) (by omega)⟩

/-- The calendar that both calls leave, as `get_rtc_timestamp` sees it. -/
theorem tmNew_both (h : ¬ t.toNat < 946684800) (hw : RtcHw) (rtc : RtcCalendar) :
    ∃ year : Nat, year < 100 ∧
      ((localtime 0 t.toNat).tmYear < 200 → 100 + year = (localtime 0 t.toNat).tmYear) ∧
      tmNew (withDate hw t (withTime t rtc)) =
        { localtime 0 t.toNat with tmYear := 100 + year, tmWday := 0 } := by
  have hs := since2000 h
  have hyear := hs.year
  obtain ⟨hsec, hmin, hhour⟩ := toNat_timeOf hs.valid
  obtain ⟨hmday, hmon, hyear'⟩ := toNat_dateOf hs
  obtain ⟨hm, hd, hlt, hy⟩ := getDate_setDate hw (dateOf_valid hs.valid hs.wday)
    (withTime t rtc).tr
  have htime : halRtcGetTime (withDate hw t (withTime t rtc)) = timeOf (localtime 0 t.toNat) :=
    getTime_withTime h rtc
  refine ⟨(halRtcGetDate (withDate hw t (withTime t rtc))).year.toNat, hlt, fun h200 => ?_, ?_⟩
  · have hless : (dateOf (localtime 0 t.toNat)).year < 100 := by
      rw [BitVec.lt_def]
      change (dateOf (localtime 0 t.toNat)).year.toNat < 100
      omega
    have hback := hy hless
    change 100 + ((halRtcGetDate ⟨(withTime t rtc).tr, _⟩).year.toNat : Int) = _
    rw [hback]
    omega
  · unfold tmNew
    rw [htime]
    change Tm.mk _ _ _ ((halRtcGetDate ⟨(withTime t rtc).tr, _⟩).date.toNat)
      ((halRtcGetDate ⟨(withTime t rtc).tr, _⟩).month.toNat - 1) _ 0 = _
    rw [hm, hd, hsec, hmin, hhour, hmday, hmon, Int.add_sub_cancel, Int.add_comm]

/-- Both calls set the calendar to the timestamp exactly before 2100. -/
theorem get_both_iff (h : ¬ t.toNat < 946684800) (hw : RtcHw) (rtc : RtcCalendar) :
    BitVec.ofInt 32 (getRtcTimestamp (withDate hw t (withTime t rtc))) = t ↔
      t.toNat < 4102444800 := by
  obtain ⟨hvalid, -, hyear⟩ := since2000 h
  obtain ⟨year, hlt, hback, heq⟩ := tmNew_both h hw rtc
  have hvalid' : (tmNew (withDate hw t (withTime t rtc))).Valid := by
    rw [heq]
    exact ⟨hvalid.sec, hvalid.min, hvalid.hour, hvalid.mday, hvalid.mon, by dsimp only; omega⟩
  constructor
  · intro hget
    -- whatever two-digit year is held, the time read is in it
    obtain ⟨hlo, hhi⟩ := mktime_bounds hvalid' (m := year + 30) (by omega)
      (by rw [heq]; dsimp only; omega)
    have hlast := daysTo_mono 1970 (show year + 30 + 1 ≤ 130 by omega)
    have hfirst := daysTo_mono 1970 (Nat.zero_le (year + 30))
    rw [show daysTo 1970 130 = 47482 by decide +kernel] at hlast
    rw [show daysTo 1970 0 = 0 from rfl] at hfirst
    have hnat := congrArg BitVec.toNat hget
    rw [BitVec.toNat_ofInt] at hnat
    change (mktime 0 (tmNew (withDate hw t (withTime t rtc))) % 2 ^ 32).toNat = t.toNat at hnat
    omega
  · intro hless
    have hsame : 100 + (year : Int) = (localtime 0 t.toNat).tmYear :=
      hback ((tmYear_lt_200_iff t).mpr hless)
    have htime : getRtcTimestamp (withDate hw t (withTime t rtc)) = t.toNat := by
      have hback := mktime_localtime (Int.natCast_nonneg t.toNat) (by omega)
      rw [mktime, timegm_of_valid hvalid] at hback
      rw [getRtcTimestamp, mktime, timegm_of_valid hvalid', heq]
      dsimp only
      rw [hsame]
      exact hback
    rw [htime]
    apply BitVec.eq_of_toNat_eq
    rw [BitVec.toNat_ofInt]
    have ht : t.toNat < 2 ^ 32 := t.isLt
    omega

/-! ## Setting -/

/-- Before 2000 nothing is written. -/
theorem setTime_before2000 (h : t.toNat < 946684800) :
    rtRtcControl hw c₁ c₂ (.setTime t) rtc = (-rtError, none, rtc) := by
  unfold rtRtcControl setRtcTimeStamp
  dsimp only
  rw [if_pos ((tmYear_lt_100_iff t).mpr h)]
  rfl

/-- From 2000 on: the result, and what the two calls leave. -/
theorem setTime_since2000 (h : ¬ t.toNat < 946684800) :
    rtRtcControl hw c₁ c₂ (.setTime t) rtc =
      if c₁.succeeds = true then
        (if c₂.succeeds = true then rtEok else -rtError, none,
          if c₂.writes then withDate hw t (withTime t rtc) else withTime t rtc)
      else (-rtError, none, if c₁.writes then withTime t rtc else rtc) := by
  have hyear := (tmYear_lt_100_iff t).not.mpr h
  have hok₁ := c₁.access_ok_iff (fun _ => withTime t rtc) rtc
  have hok₂ := c₂.access_ok_iff (fun _ => withDate hw t (withTime t rtc)) (withTime t rtc)
  have hset : halRtcSetTime c₁ (timeOf (localtime 0 t.toNat)) rtc =
      c₁.access (fun _ => withTime t rtc) rtc := rfl
  unfold rtRtcControl setRtcTimeStamp
  dsimp only
  rw [if_neg hyear, hset, c₁.access_snd]
  by_cases h₁ : c₁.succeeds = true
  · have hset₂ : halRtcSetDate hw c₂ (dateOf (localtime 0 t.toNat)) (withTime t rtc) =
        c₂.access (fun _ => withDate hw t (withTime t rtc)) (withTime t rtc) := rfl
    rw [if_neg (not_not.mpr (hok₁.mpr h₁)), if_pos h₁, if_pos (RtcCall.writes_of_succeeds h₁),
      hset₂, c₂.access_snd]
    by_cases h₂ : c₂.succeeds = true
    · rw [if_neg (not_not.mpr (hok₂.mpr h₂)), if_pos h₂]
      rfl
    · rw [if_pos (hok₂.not.mpr h₂), if_neg h₂]
      rfl
  · rw [if_pos (hok₁.not.mpr h₁), if_neg h₁]
    rfl

/-- The calls succeed. -/
theorem setGet_succeeds (h : ¬ t.toNat < 946684800) (h₁ : c₁.succeeds = true)
    (h₂ : c₂.succeeds = true) : SetGet hw c₁ c₂ t rtc ↔ t.toNat < 4102444800 := by
  have hset : rtRtcControl hw c₁ c₂ (.setTime t) rtc =
      (rtEok, none, withDate hw t (withTime t rtc)) := by
    rw [setTime_since2000 h, if_pos h₁, if_pos h₂, if_pos (RtcCall.writes_of_succeeds h₂)]
  have hget := get_both_iff h hw rtc
  constructor
  · intro hok
    have := hok.set (by rw [hset])
    rw [hset] at this
    exact hget.mp (Option.some.inj this)
  · intro hless
    refine ⟨fun _ => ?_, fun hne => ?_⟩
    · rw [hset]
      exact congrArg some (hget.mpr hless)
    · rw [hset] at hne
      exact absurd rfl hne

/-- An error is as it should be when the calendar shows what it did. -/
theorem setGet_of_error {rtc' : RtcCalendar}
    (hset : rtRtcControl hw c₁ c₂ (.setTime t) rtc = (-rtError, none, rtc')) :
    SetGet hw c₁ c₂ t rtc ↔ Same rtc' rtc := by
  have hne : -rtError ≠ rtEok := by decide
  constructor
  · intro hok
    have := hok.kept (by rw [hset]; exact hne)
    rwa [hset] at this
  · intro hsame
    refine ⟨fun heq => ?_, fun _ => ?_⟩
    · rw [hset] at heq
      exact absurd heq hne
    · rwa [hset]

/-- A call fails, after the first has written. -/
theorem setGet_fails (h : ¬ t.toNat < 946684800) (hw₁ : c₁.writes = true)
    (hfail : ¬ (c₁.succeeds = true ∧ c₂.succeeds = true)) :
    SetGet hw c₁ c₂ t rtc ↔ Unseen hw c₁ c₂ t rtc := by
  have htime := getTime_withTime h rtc
  have hset := @setTime_since2000 hw c₁ c₂ t rtc h
  by_cases h₁ : c₁.succeeds = true
  · have h₂ : ¬ c₂.succeeds = true := fun h₂ => hfail ⟨h₁, h₂⟩
    rw [if_pos h₁, if_neg h₂] at hset
    rw [setGet_of_error hset]
    by_cases hw₂ : c₂.writes = true
    · rw [if_pos hw₂]
      constructor
      · intro ⟨ht, hd⟩
        exact ⟨hfail, ht.symm.trans htime, fun _ _ => hd.symm⟩
      · intro ⟨_, ht, hd⟩
        exact ⟨htime.trans ht.symm, (hd h₁ hw₂).symm⟩
    · rw [if_neg hw₂]
      constructor
      · intro ⟨ht, _⟩
        exact ⟨hfail, ht.symm.trans htime, fun _ hw => absurd hw hw₂⟩
      · intro ⟨_, ht, _⟩
        exact ⟨htime.trans ht.symm, rfl⟩
  · rw [if_neg h₁, if_pos hw₁] at hset
    rw [setGet_of_error hset]
    constructor
    · intro ⟨ht, _⟩
      exact ⟨hfail, ht.symm.trans htime, fun hs => absurd hs h₁⟩
    · intro ⟨_, ht, _⟩
      exact ⟨htime.trans ht.symm, rfl⟩

/-- For every timestamp of 32 bits, every calendar, and every way the two calls can go. -/
theorem setGet_iff (hw : RtcHw) (c₁ c₂ : RtcCall) (t : BitVec 32) (rtc : RtcCalendar) :
    SetGet hw c₁ c₂ t rtc ↔ t.toNat < 946684800 ∨ c₁.writes = false ∨
      c₁.succeeds = true ∧ c₂.succeeds = true ∧ t.toNat < 4102444800 ∨
        Unseen hw c₁ c₂ t rtc := by
  by_cases h : t.toNat < 946684800
  · exact iff_of_true ((setGet_of_error (setTime_before2000 h)).mpr ⟨rfl, rfl⟩) (Or.inl h)
  · by_cases hw₁ : c₁.writes = true
    · have hwrites : c₁.writes ≠ false := fun hf => by rw [hw₁] at hf; cases hf
      rw [or_iff_right h, or_iff_right hwrites]
      by_cases hok : c₁.succeeds = true ∧ c₂.succeeds = true
      · rw [setGet_succeeds h hok.1 hok.2]
        constructor
        · exact fun hless => Or.inl ⟨hok.1, hok.2, hless⟩
        · rintro (⟨-, -, hless⟩ | hunseen)
          · exact hless
          · exact absurd hok hunseen.fails
      · rw [setGet_fails h hw₁ hok]
        constructor
        · exact Or.inr
        · rintro (⟨h₁, h₂, -⟩ | hunseen)
          · exact absurd ⟨h₁, h₂⟩ hok
          · exact hunseen
    · have hf : c₁.writes = false := Bool.eq_false_iff.mpr hw₁
      have hs : ¬ c₁.succeeds = true := fun hs => hw₁ (RtcCall.writes_of_succeeds hs)
      have hset := @setTime_since2000 hw c₁ c₂ t rtc h
      rw [if_neg hs, if_neg hw₁] at hset
      exact iff_of_true ((setGet_of_error hset).mpr ⟨rfl, rfl⟩) (Or.inr (Or.inl hf))

/-- A calendar that holds a year of 0 in place of one it cannot. -/
def zeroHw : RtcHw where
  hold dr := if TwoDigit dr then dr else dr &&& ~~~yearMask
  hold_twoDigit _ h := if_pos h
  twoDigit_hold dr := by
    have hzero : (~~~yearMask &&& yearMask : BitVec 32) = 0 := by decide
    have hfield : field (dr &&& ~~~yearMask) yearMask 16 = 0 := by
      rw [field, BitVec.and_assoc, hzero, show dr &&& 0 = 0 from BitVec.and_zero]
      rfl
    by_cases h : TwoDigit dr
    · rwa [if_pos h]
    · rw [if_neg h, TwoDigit, hfield]
      decide
  hold_other dr := by
    by_cases h : TwoDigit dr
    · rw [if_pos h]
    · rw [if_neg h, BitVec.and_assoc, BitVec.and_self]

/-- From 2000-01-01 00:00:00. To one second later, with the handle locked before the second
    call: an error, and the second has passed. To 2100-01-01 00:00:00: no error, and another
    year. -/
theorem setGet_fails_locked_2100 :
    let ok : RtcCall := ⟨false, false, false⟩
    let locked : RtcCall := ⟨true, false, false⟩
    ¬ SetGet zeroHw ok locked 946684801 ⟨0, 0x0000C101⟩ ∧
      ¬ SetGet zeroHw ok ok 4102444800 ⟨0, 0x0000C101⟩ := by
  intro ok locked
  constructor
  · rw [setGet_fails (by decide) (by decide) (by decide)]
    intro ⟨_, htime, _⟩
    obtain ⟨m, yday, heq, -⟩ := gmtimeR_eq (Int.natCast_nonneg (946684801 : BitVec 32).toNat)
    rw [localtime_zero, heq] at htime
    have hsec : (halRtcGetTime ⟨0, 0x0000C101⟩).seconds =
        byte (((946684801 : BitVec 32).toNat : Int) % 86400 % 60) :=
      congrArg RtcTime.seconds htime
    exact absurd hsec (by decide)
  · rw [setGet_succeeds (by decide) (by decide) (by decide)]
    decide

end Live2dStm32.Rtc
