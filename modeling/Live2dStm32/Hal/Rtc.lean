import Mathlib.Tactic.Common
import Mathlib.Algebra.Group.Nat.Defs
import Live2dStm32.Hal.Dma

/-
  The calendar of the RTC and its access functions in the HAL (stm32h7xx_hal_rtc.c):
  HAL_RTC_SetTime, HAL_RTC_SetDate, HAL_RTC_GetTime and HAL_RTC_GetDate with RTC_FORMAT_BIN.
  The calendar is set to 24 hours, and the parameters are not asserted (USE_FULL_ASSERT is not
  defined).

  A call fails before it writes its register, when the handle is locked or the calendar does
  not enter initialization mode, or after, when the calendar does not synchronize.

  `getTime_setTime`, `getDate_setDate`: what was written reads back, except that the calendar
  only holds years of two decimal digits.
-/

namespace Live2dStm32.Hal.Rtc

open Live2dStm32.Hal.Dma (HalStatus)

/-- `RTC_TimeTypeDef` and `RTC_DateTypeDef`. -/
structure RtcTime where
  hours : BitVec 8
  minutes : BitVec 8
  seconds : BitVec 8
  deriving DecidableEq, Repr

structure RtcDate where
  weekDay : BitVec 8
  month : BitVec 8
  date : BitVec 8
  year : BitVec 8
  deriving DecidableEq, Repr

/-- The registers TR and DR. -/
structure RtcCalendar where
  tr : BitVec 32
  dr : BitVec 32
  deriving DecidableEq, Repr

/-- What goes wrong in a call: `hrtc->Lock` is taken, RTC_EnterInitMode times out,
    HAL_RTC_WaitForSynchro times out. -/
structure RtcCall where
  locked : Bool
  initTimeout : Bool
  synchroTimeout : Bool
  deriving DecidableEq, Repr

/-- The `while` of RTC_ByteToBcd2, at most `fuel` rounds. -/
def bcdLoop : Nat → BitVec 32 → BitVec 8 → BitVec 32 × BitVec 8
  | 0, bcdhigh, bcdlow => (bcdhigh, bcdlow)
  | fuel + 1, bcdhigh, bcdlow =>
    if 10 ≤ bcdlow then bcdLoop fuel (bcdhigh + 1) (bcdlow - 10) else (bcdhigh, bcdlow)

def rtcByteToBcd2 (value : BitVec 8) : BitVec 8 :=
  let (bcdhigh, bcdlow) := bcdLoop value.toNat 0 value
  (bcdhigh <<< 4).setWidth 8 ||| bcdlow

def rtcBcd2ToByte (value : BitVec 8) : BitVec 8 :=
  let tmp := ((value &&& 0xF0) >>> 4) * 10
  tmp + (value &&& 0x0F)

def rtcTrReservedMask : BitVec 32 := 0x007F7F7F

def rtcDrReservedMask : BitVec 32 := 0x00FFFF3F

/-- A field of a register, cast to `uint8_t`. -/
def field (reg mask : BitVec 32) (pos : Nat) : BitVec 8 := ((reg &&& mask) >>> pos).setWidth 8

/-- The `tmpreg` of HAL_RTC_SetTime and the `datetmpreg` of HAL_RTC_SetDate. `TimeFormat` is 0. -/
def trWord (sTime : RtcTime) : BitVec 32 :=
  (rtcByteToBcd2 sTime.hours).setWidth 32 <<< 16 |||
    (rtcByteToBcd2 sTime.minutes).setWidth 32 <<< 8 |||
    (rtcByteToBcd2 sTime.seconds).setWidth 32 <<< 0

def drWord (sDate : RtcDate) : BitVec 32 :=
  let month := if sDate.month &&& 0x10 = 0x10 then (sDate.month &&& ~~~0x10) + 0x0A
    else sDate.month
  (rtcByteToBcd2 sDate.year).setWidth 32 <<< 16 |||
    (rtcByteToBcd2 month).setWidth 32 <<< 8 |||
    (rtcByteToBcd2 sDate.date).setWidth 32 <<< 0 |||
    sDate.weekDay.setWidth 32 <<< 13

/-- The year of a DR word, and whether it is two decimal digits. -/
def yearMask : BitVec 32 := 0x00FF0000

def TwoDigit (dr : BitVec 32) : Prop :=
  field dr yearMask 16 >>> 4 ≤ 9 ∧ field dr yearMask 16 &&& 0x0F ≤ 9

instance (dr : BitVec 32) : Decidable (TwoDigit dr) := inferInstanceAs (Decidable (_ ∧ _))

/-- What the calendar holds of a word written to DR: everything, when the year is two decimal
    digits, and else some other year that is. -/
structure RtcHw where
  hold : BitVec 32 → BitVec 32
  hold_twoDigit : ∀ dr, TwoDigit dr → hold dr = dr
  twoDigit_hold : ∀ dr, TwoDigit (hold dr)
  hold_other : ∀ dr, hold dr &&& ~~~yearMask = dr &&& ~~~yearMask

/-- HAL_RTC_SetTime and HAL_RTC_SetDate alike: lock, enter initialization mode, write, leave it
    and wait for the registers to synchronize. -/
def RtcCall.access (c : RtcCall) (write : RtcCalendar → RtcCalendar) (rtc : RtcCalendar) :
    HalStatus × RtcCalendar :=
  if c.locked then (.busy, rtc)
  else if c.initTimeout then (.error, rtc)
  else if c.synchroTimeout then (.error, write rtc)
  else (.ok, write rtc)

def halRtcSetTime (c : RtcCall) (sTime : RtcTime) (rtc : RtcCalendar) : HalStatus × RtcCalendar :=
  c.access (fun rtc => { rtc with tr := trWord sTime &&& rtcTrReservedMask }) rtc

def halRtcSetDate (hw : RtcHw) (c : RtcCall) (sDate : RtcDate) (rtc : RtcCalendar) :
    HalStatus × RtcCalendar :=
  c.access (fun rtc => { rtc with dr := hw.hold (drWord sDate &&& rtcDrReservedMask) }) rtc

def halRtcGetTime (rtc : RtcCalendar) : RtcTime :=
  let tmpreg := rtc.tr &&& rtcTrReservedMask
  ⟨rtcBcd2ToByte (field tmpreg 0x003F0000 16), rtcBcd2ToByte (field tmpreg 0x00007F00 8),
    rtcBcd2ToByte (field tmpreg 0x0000007F 0)⟩

def halRtcGetDate (rtc : RtcCalendar) : RtcDate :=
  let datetmpreg := rtc.dr &&& rtcDrReservedMask
  ⟨field datetmpreg 0x0000E000 13, rtcBcd2ToByte (field datetmpreg 0x00001F00 8),
    rtcBcd2ToByte (field datetmpreg 0x0000003F 0), rtcBcd2ToByte (field datetmpreg yearMask 16)⟩

/-! ## Fields -/

theorem field_or (a b mask : BitVec 32) (pos : Nat) :
    field (a ||| b) mask pos = field a mask pos ||| field b mask pos := by
  unfold field
  rw [BitVec.and_or_distrib_right, BitVec.ushiftRight_or_distrib, BitVec.setWidth_or]

/-- A mask of the register keeps the fields inside it. -/
theorem field_and (a : BitVec 32) {m mask : BitVec 32} (h : m &&& mask = mask) (pos : Nat) :
    field (a &&& m) mask pos = field a mask pos := by
  unfold field
  rw [BitVec.and_assoc, h]

theorem byte_or_zero (b : BitVec 8) : b ||| 0 = b := BitVec.or_zero

theorem byte_zero_or (b : BitVec 8) : 0 ||| b = b := BitVec.zero_or

/-- A value below `2 ^ n` is in the `n` low bits. -/
theorem and_low {b : BitVec 8} {n : Nat} {m : BitVec 32} (hm : m.toNat = 2 ^ n - 1)
    (h : b.toNat < 2 ^ n) : b.setWidth 32 &&& m = b.setWidth 32 := by
  apply BitVec.eq_of_toNat_eq
  rw [BitVec.toNat_and, hm, BitVec.toNat_setWidth_of_le (by decide),
    Nat.and_two_pow_sub_one_of_lt_two_pow h]

/-- A byte at its own place in a register. -/
theorem field_own (b : BitVec 8) {mask : BitVec 32} {pos : Nat} {m : BitVec 8} (hpos : pos ≤ 24)
    (hm : (mask >>> pos).setWidth 8 = m) : field (b.setWidth 32 <<< pos) mask pos = b &&& m := by
  apply BitVec.eq_of_getLsbD_eq
  intro i hi
  have hback : i + pos - pos = i := Nat.add_sub_cancel i pos
  have h32 : i < 32 := by omega
  have hp : i + pos < 32 := by omega
  have hlt : ¬ i + pos < pos := by omega
  rw [← hm, field]
  simp only [BitVec.getLsbD_setWidth, BitVec.getLsbD_ushiftRight, BitVec.getLsbD_and,
    BitVec.getLsbD_shiftLeft, Nat.add_comm pos i, hback]
  simp [hi, h32, hp, hlt]

/-- A field that the place of the value has no bit of. -/
theorem field_other {a m mask : BitVec 32} {p : Nat} (q : Nat) (ha : a &&& m = a)
    (h : m <<< p &&& mask = 0) : field (a <<< p) mask q = 0 := by
  have hnone : a <<< p &&& mask = 0 := by
    rw [← ha, BitVec.shiftLeft_and_distrib, BitVec.and_assoc, h]
    exact BitVec.and_zero
  rw [field, hnone, show (0 : BitVec 32) >>> q = 0 from BitVec.zero_ushiftRight]
  rfl

theorem field_byte (b : BitVec 8) {mask : BitVec 32} {p : Nat} (q : Nat)
    (h : (0xFF : BitVec 32) <<< p &&& mask = 0) : field (b.setWidth 32 <<< p) mask q = 0 :=
  field_other q (and_low (n := 8) rfl b.isLt) h

/-- A byte at its own place, and its neighbours, in the fields of TR and DR. -/
theorem field_byte16 (b : BitVec 8) :
    field (b.setWidth 32 <<< 16) 0x003F0000 16 = b &&& 0x3F ∧
      field (b.setWidth 32 <<< 16) yearMask 16 = b ∧
      field (b.setWidth 32 <<< 16) 0x00007F00 8 = 0 ∧
      field (b.setWidth 32 <<< 16) 0x00001F00 8 = 0 ∧
      field (b.setWidth 32 <<< 16) 0x0000007F 0 = 0 ∧
      field (b.setWidth 32 <<< 16) 0x0000003F 0 = 0 :=
  ⟨field_own b (by decide) (by decide),
    (field_own b (by decide) (by decide)).trans BitVec.and_allOnes,
    field_byte b 8 (by decide), field_byte b 8 (by decide), field_byte b 0 (by decide),
    field_byte b 0 (by decide)⟩

theorem field_byte8 (b : BitVec 8) :
    field (b.setWidth 32 <<< 8) 0x003F0000 16 = 0 ∧
      field (b.setWidth 32 <<< 8) yearMask 16 = 0 ∧
      field (b.setWidth 32 <<< 8) 0x00007F00 8 = b &&& 0x7F ∧
      field (b.setWidth 32 <<< 8) 0x00001F00 8 = b &&& 0x1F ∧
      field (b.setWidth 32 <<< 8) 0x0000007F 0 = 0 ∧
      field (b.setWidth 32 <<< 8) 0x0000003F 0 = 0 :=
  ⟨field_byte b 16 (by decide), field_byte b 16 (by decide), field_own b (by decide) (by decide),
    field_own b (by decide) (by decide), field_byte b 0 (by decide), field_byte b 0 (by decide)⟩

theorem field_byte0 (b : BitVec 8) :
    field (b.setWidth 32 <<< 0) 0x003F0000 16 = 0 ∧
      field (b.setWidth 32 <<< 0) yearMask 16 = 0 ∧
      field (b.setWidth 32 <<< 0) 0x00007F00 8 = 0 ∧
      field (b.setWidth 32 <<< 0) 0x00001F00 8 = 0 ∧
      field (b.setWidth 32 <<< 0) 0x0000007F 0 = b &&& 0x7F ∧
      field (b.setWidth 32 <<< 0) 0x0000003F 0 = b &&& 0x3F :=
  ⟨field_byte b 16 (by decide), field_byte b 16 (by decide), field_byte b 8 (by decide),
    field_byte b 8 (by decide), field_own b (by decide) (by decide),
    field_own b (by decide) (by decide)⟩

/-- A day of the week has three bits. -/
theorem field_weekDay {b : BitVec 8} (h : b < 8) :
    field (b.setWidth 32 <<< 13) yearMask 16 = 0 ∧
      field (b.setWidth 32 <<< 13) 0x00001F00 8 = 0 ∧
      field (b.setWidth 32 <<< 13) 0x0000003F 0 = 0 := by
  have hlow : b.setWidth 32 &&& 0x7 = b.setWidth 32 := and_low (n := 3) rfl h
  exact ⟨field_other 16 hlow (by decide), field_other 8 hlow (by decide),
    field_other 0 hlow (by decide)⟩

/-- RTC_ByteToBcd2 ends. -/
theorem bcdLoop_lt : ∀ value : BitVec 8, (bcdLoop value.toNat 0 value).2 < 10 := by
  decide +kernel

/-- Two decimal digits and back, in fields that are just wide enough. -/
theorem bcd_back : ∀ value : BitVec 8,
    (value < 24 → rtcBcd2ToByte (rtcByteToBcd2 value &&& 0x3F) = value) ∧
    (value < 60 → rtcBcd2ToByte (rtcByteToBcd2 value &&& 0x7F) = value) ∧
    (value ≤ 12 → value &&& 0x10 ≠ 0x10 ∧ rtcBcd2ToByte (rtcByteToBcd2 value &&& 0x1F) = value) ∧
    (value ≤ 31 → rtcBcd2ToByte (rtcByteToBcd2 value &&& 0x3F) = value) ∧
    (value < 100 → rtcBcd2ToByte (rtcByteToBcd2 value) = value ∧
      rtcByteToBcd2 value >>> 4 ≤ 9 ∧ rtcByteToBcd2 value &&& 0x0F ≤ 9) := by
  decide +kernel

theorem bcd2ToByte_lt : ∀ b : BitVec 8, b >>> 4 ≤ 9 → b &&& 0x0F ≤ 9 → rtcBcd2ToByte b < 100 := by
  decide +kernel

/-! ## What reads back -/

structure RtcTime.Valid (t : RtcTime) : Prop where
  hours : t.hours < 24
  minutes : t.minutes < 60
  seconds : t.seconds < 60

/-- All but the year. -/
structure RtcDate.Valid (d : RtcDate) : Prop where
  weekDay : d.weekDay < 8
  month : d.month ≤ 12
  date : d.date ≤ 31

theorem getTime_setTime {t : RtcTime} (h : t.Valid) (dr : BitVec 32) :
    halRtcGetTime ⟨trWord t &&& rtcTrReservedMask, dr⟩ = t := by
  obtain ⟨hh, -, hm, -, hs, -⟩ := field_byte16 (rtcByteToBcd2 t.hours)
  obtain ⟨mh, -, mm, -, ms, -⟩ := field_byte8 (rtcByteToBcd2 t.minutes)
  obtain ⟨sh, -, sm, -, ss, -⟩ := field_byte0 (rtcByteToBcd2 t.seconds)
  have hhours := (bcd_back t.hours).1 h.hours
  have hminutes := (bcd_back t.minutes).2.1 h.minutes
  have hseconds := (bcd_back t.seconds).2.1 h.seconds
  have h1 : rtcTrReservedMask &&& 0x003F0000 = 0x003F0000 := by decide
  have h2 : rtcTrReservedMask &&& 0x00007F00 = 0x00007F00 := by decide
  have h3 : rtcTrReservedMask &&& 0x0000007F = 0x0000007F := by decide
  unfold halRtcGetTime
  dsimp only
  rw [field_and _ h1, field_and _ h1, field_and _ h2, field_and _ h2, field_and _ h3,
    field_and _ h3]
  unfold trWord
  simp only [field_or, hh, mh, sh, hm, mm, sm, hs, ms, ss, byte_or_zero, byte_zero_or, hhours,
    hminutes, hseconds]

/-- The fields that `hold` does not touch. -/
theorem field_hold (hw : RtcHw) (dr : BitVec 32) {mask : BitVec 32}
    (h : ~~~yearMask &&& mask = mask) (pos : Nat) :
    field (hw.hold dr) mask pos = field dr mask pos := by
  rw [← field_and (hw.hold dr) h, hw.hold_other, field_and dr h]

/-- The fields of a DR word. -/
theorem field_drWord {d : RtcDate} (h : d.Valid) :
    field (drWord d) yearMask 16 = rtcByteToBcd2 d.year ∧
      rtcBcd2ToByte (field (drWord d) 0x00001F00 8) = d.month ∧
      rtcBcd2ToByte (field (drWord d) 0x0000003F 0) = d.date := by
  obtain ⟨-, yy, -, ym, -, yd⟩ := field_byte16 (rtcByteToBcd2 d.year)
  obtain ⟨-, my, -, mm, -, md⟩ := field_byte8 (rtcByteToBcd2 d.month)
  obtain ⟨-, dy, -, dm, -, dd⟩ := field_byte0 (rtcByteToBcd2 d.date)
  obtain ⟨wy, wm, wd⟩ := field_weekDay h.weekDay
  obtain ⟨hten, hmonth⟩ := (bcd_back d.month).2.2.1 h.month
  have hdate := (bcd_back d.date).2.2.2.1 h.date
  unfold drWord
  dsimp only
  rw [if_neg hten]
  simp only [field_or, yy, my, dy, wy, ym, mm, dm, wm, yd, md, dd, wd, byte_or_zero, byte_zero_or,
    hmonth, hdate, and_self]

/-- Month and date read back, and the year if it has two digits; it always reads below 100. -/
theorem getDate_setDate (hw : RtcHw) {d : RtcDate} (h : d.Valid) (tr : BitVec 32) :
    (halRtcGetDate ⟨tr, hw.hold (drWord d &&& rtcDrReservedMask)⟩).month = d.month ∧
      (halRtcGetDate ⟨tr, hw.hold (drWord d &&& rtcDrReservedMask)⟩).date = d.date ∧
      (halRtcGetDate ⟨tr, hw.hold (drWord d &&& rtcDrReservedMask)⟩).year < 100 ∧
      (d.year < 100 →
        (halRtcGetDate ⟨tr, hw.hold (drWord d &&& rtcDrReservedMask)⟩).year = d.year) := by
  obtain ⟨hyear, hmonth, hdate⟩ := field_drWord h
  have hm : rtcDrReservedMask &&& 0x00001F00 = 0x00001F00 := by decide
  have hd : rtcDrReservedMask &&& 0x0000003F = 0x0000003F := by decide
  have hy : rtcDrReservedMask &&& yearMask = yearMask := by decide
  unfold halRtcGetDate
  dsimp only
  rw [field_and _ hm, field_and _ hd, field_and _ hy, field_hold hw _ (by decide), field_and _ hm,
    field_hold hw _ (by decide), field_and _ hd]
  refine ⟨hmonth, hdate, ?_, fun hlt => ?_⟩
  · obtain ⟨htens, hunits⟩ := hw.twoDigit_hold (drWord d &&& rtcDrReservedMask)
    exact bcd2ToByte_lt _ htens hunits
  · obtain ⟨hback, htens, hunits⟩ := (bcd_back d.year).2.2.2.2 hlt
    have htwo : TwoDigit (drWord d &&& rtcDrReservedMask) := by
      unfold TwoDigit
      rw [field_and _ hy, hyear]
      exact ⟨htens, hunits⟩
    rw [hw.hold_twoDigit _ htwo, field_and _ hy, hyear, hback]

/-! ## What a call leaves -/

/-- The register is written. -/
def RtcCall.writes (c : RtcCall) : Bool := !c.locked && !c.initTimeout

def RtcCall.succeeds (c : RtcCall) : Bool := c.writes && !c.synchroTimeout

theorem RtcCall.writes_of_succeeds {c : RtcCall} (h : c.succeeds = true) : c.writes = true :=
  (Bool.and_eq_true_iff.mp h).1

theorem RtcCall.access_ok_iff (c : RtcCall) (write : RtcCalendar → RtcCalendar)
    (rtc : RtcCalendar) : (c.access write rtc).1 = .ok ↔ c.succeeds = true := by
  obtain ⟨locked, initTimeout, synchroTimeout⟩ := c
  cases locked <;> cases initTimeout <;> cases synchroTimeout <;>
    simp [RtcCall.access, RtcCall.succeeds, RtcCall.writes]

theorem RtcCall.access_snd (c : RtcCall) (write : RtcCalendar → RtcCalendar)
    (rtc : RtcCalendar) : (c.access write rtc).2 = if c.writes then write rtc else rtc := by
  obtain ⟨locked, initTimeout, synchroTimeout⟩ := c
  cases locked <;> cases initTimeout <;> cases synchroTimeout <;> rfl

end Live2dStm32.Hal.Rtc
