import Live2dStm32.Lib.Gregorian

/-
  The calendar functions of the C library (components/libc/compilers/common/time.c):
  `gmtime_r`, `timegm`, and `localtime`, `mktime` with the fixed time zone of `tz_get`.

  `time_t` has 64 bits, which no value here leaves, so that it is an integer; `/` and `%` round
  to 0 as in C. `tm_yday` and `tm_isdst` are left out: nothing below reads them.

  `mktime_localtime`: without a time zone, `mktime` undoes `localtime` for every timestamp of
  32 bits.
-/

namespace Live2dStm32.Libc

open Live2dStm32.Lib

structure Tm where
  tmSec : Int
  tmMin : Int
  tmHour : Int
  tmMday : Int
  tmMon : Int
  tmYear : Int
  tmWday : Int
  deriving DecidableEq, Repr

/-- `__spm`: the days before each month of a year that is not a leap year. -/
def spm (i : Int) : Int :=
  [0, 31, 59, 90, 120, 151, 181, 212, 243, 273, 304, 334, 365].getD i.toNat 0

/-- `__isleap`. -/
def isleap (year : Int) : Bool :=
  year.tmod 4 == 0 && (year.tmod 100 != 0 || year.tmod 400 == 0)

/-- `for (i = 1970;; ++i)`: the year of a day, and the day in that year. -/
def yearLoop (i work : Int) : Int × Int :=
  let k : Int := if isleap i then 366 else 365
  if _h : k ≤ work then yearLoop (i + 1) (work - k) else (i, work)
termination_by work.toNat
decreasing_by
  have hk : 365 ≤ k := by
    unfold k
    split <;> decide
  omega

/-- `for (i = 11; i && (__spm[i] > work); --i)`. -/
def monthLoop (work : Int) : Nat → Nat
  | 0 => 0
  | i + 1 => if work < spm (i + 1 : Nat) then monthLoop work i else i + 1

/-- `tm_mon` and `tm_mday` of a day in the year. -/
def monthMday (leap : Bool) (work : Int) : Int × Int :=
  let (mday, work) :=
    if leap && 58 < work then (if work = 59 then 2 else 1, work - 1) else (1, work)
  let i := monthLoop work 11
  (i, mday + (work - spm i))

def gmtimeR (timep : Int) : Tm :=
  let work := timep.tmod 86400
  let sec := work.tmod 60
  let work := work.tdiv 60
  let days := timep.tdiv 86400
  let (i, yday) := yearLoop 1970 days
  let (mon, mday) := monthMday (isleap i) yday
  ⟨sec, work.tmod 60, work.tdiv 60, mday, mon, i - 1900, (4 + days).tmod 7⟩

def localtime (tz : Int) (t : Int) : Tm := gmtimeR (t + tz * 3600)

theorem spm_ge {i : Int} (h1 : 1 ≤ i) (h2 : i ≤ 12) : 31 ≤ spm i := by
  obtain ⟨n, rfl⟩ := Int.eq_ofNat_of_zero_le (show 0 ≤ i by omega)
  have hall : ∀ n : Nat, n ≤ 12 → 1 ≤ n → 31 ≤ spm n := by decide
  exact hall n (by omega) (by omega)

theorem spm_nonneg (i : Int) : 0 ≤ spm i := by
  unfold spm
  rcases Nat.lt_or_ge i.toNat 13 with hlt | hge
  · have hall : ∀ n < 13,
        0 ≤ [0, 31, 59, 90, 120, 151, 181, 212, 243, 273, 304, 334, (365 : Int)].getD n 0 := by
      decide
    exact hall _ hlt
  · rw [List.getD_eq_getElem?_getD, List.getElem?_eq_none hge]
    rfl

/-- How far a month is from the end of the table, for the termination below. -/
def monRank (mon : Int) : Nat := if 12 < mon then 13 else (12 - mon).toNat

theorem monRank_spec (mon : Int) :
    (12 < mon → monRank mon = 13) ∧ (mon ≤ 12 → (monRank mon : Int) = 12 - mon) := by
  unfold monRank
  split <;> omega

/-- The `while` of `timegm`: months that are too long. -/
def normMday (t : Tm) : Tm :=
  if _h : spm (1 + t.tmMon) < t.tmMday then
    let mday :=
      (if t.tmMon = 1 && isleap (t.tmYear + 1900) then t.tmMday - 1 else t.tmMday) - spm t.tmMon
    let mon := t.tmMon + 1
    if _h : 11 < mon then normMday { t with tmMday := mday, tmMon := 0, tmYear := t.tmYear + 1 }
    else normMday { t with tmMday := mday, tmMon := mon }
  else t
termination_by t.tmMday.toNat * 14 + monRank t.tmMon
decreasing_by
  all_goals
    have hnext := spm_nonneg (1 + t.tmMon)
    have hmday : mday ≤ t.tmMday - spm t.tmMon := by
      unfold mday
      split <;> omega
    have hspm := spm_nonneg t.tmMon
    have hlong : 1 ≤ t.tmMon → t.tmMon ≤ 12 → 31 ≤ spm t.tmMon := spm_ge
    have hrank := monRank_spec t.tmMon
    have hrank' := monRank_spec (t.tmMon + 1)
    have hrank0 : monRank 0 = 12 := rfl
    omega

/-- The days of `years` years since 1970. -/
def yearDays (years : Int) : Int :=
  let day := years * 365 + (years + 1).tdiv 4
  if 131 ≤ years then
    -- a century is 3 of 4 times without its leap day; `years >> 2`, `years &= 3`
    let years := (years - 131).tdiv 100
    let day := day - (years / 4 * 3 + 1)
    let years := years % 4
    day - (if years = 3 then years - 1 else years)
  else day

def timegm (t : Tm) : Int :=
  let years := t.tmYear - 70
  let t := if 60 < t.tmSec then
    { t with tmMin := t.tmMin + t.tmSec.tdiv 60, tmSec := t.tmSec.tmod 60 } else t
  let t := if 60 < t.tmMin then
    { t with tmHour := t.tmHour + t.tmMin.tdiv 60, tmMin := t.tmMin.tmod 60 } else t
  let t := if 24 < t.tmHour then
    { t with tmMday := t.tmMday + t.tmHour.tdiv 24, tmHour := t.tmHour.tmod 24 } else t
  let t := if 12 < t.tmMon then
    { t with tmYear := t.tmYear + t.tmMon.tdiv 12, tmMon := t.tmMon.tmod 12 } else t
  let t := normMday t
  if t.tmYear < 70 then -1
  else
    let leap : Int := if isleap (t.tmYear + 1900) && 1 < t.tmMon then 1 else 0
    let day := yearDays years + (spm t.tmMon + t.tmMday - 1 + leap)
    ((day * 24 + t.tmHour) * 60 + t.tmMin) * 60 + t.tmSec

def mktime (tz : Int) (t : Tm) : Int := timegm t - 3600 * tz

/-! ## The year -/

theorem isleap_eq (year : Int) : isleap year = isLeap year := by
  have h : ∀ n : Int, (year.tmod n == 0) = (year % n == 0) := by
    intro n
    rw [Bool.eq_iff_iff, beq_iff_eq, beq_iff_eq, ← Int.dvd_iff_tmod_eq_zero,
      ← Int.dvd_iff_emod_eq_zero]
  unfold isleap isLeap
  rw [h 4, h 400]
  unfold bne
  rw [h 100]

/-- The loop splits a day into whole years and the rest. -/
theorem yearLoop_spec (n : Nat) (work : Int) (h : 0 ≤ work) :
    ∃ m, n ≤ m ∧ (yearLoop (1970 + n) work).1 = 1970 + m ∧
      daysTo 1970 m + (yearLoop (1970 + n) work).2 = daysTo 1970 n + work ∧
      0 ≤ (yearLoop (1970 + n) work).2 ∧
      (yearLoop (1970 + n) work).2 < yearLen (1970 + m) := by
  induction hk : work.toNat using Nat.strongRecOn generalizing n work with
  | ind k ih =>
    have hlen : (if isleap (1970 + n) then 366 else 365) = yearLen (1970 + n) := by
      rw [isleap_eq]
      rfl
    rw [yearLoop, hlen]
    by_cases hle : yearLen (1970 + n) ≤ work
    · have hge := yearLen_ge (1970 + n)
      obtain ⟨m, hm, hfst, hsum, hnn, hlt⟩ := ih (work - yearLen (1970 + n)).toNat (by omega)
        (n + 1) (work - yearLen (1970 + n)) (by omega) rfl
      have hi : (1970 + (n + 1 : Nat) : Int) = 1970 + n + 1 := by omega
      rw [hi] at hfst hsum hnn hlt
      rw [dif_pos hle]
      refine ⟨m, by omega, hfst, ?_, hnn, hlt⟩
      rw [hsum, daysTo]
      omega
    · rw [dif_neg hle]
      exact ⟨n, Nat.le_refl n, rfl, rfl, h, Int.not_le.mp hle⟩

/-- The closed form of `timegm`, up to the last year of a timestamp of 32 bits. -/
theorem yearDays_eq {n : Nat} (h : n ≤ 136) : yearDays n = daysTo 1970 n := by
  have hall : ∀ n : Nat, n ≤ 136 → yearDays n = daysTo 1970 n := by decide +kernel
  exact hall n h

/-- The month found is the one the day is in: it starts no later, and the next one after it. -/
theorem monthLoop_spec {work : Int} (h0 : 0 ≤ work) (n : Nat) (h : work < spm (n + 1 : Nat)) :
    monthLoop work n ≤ n ∧ spm (monthLoop work n) ≤ work ∧
      work < spm (monthLoop work n + 1 : Nat) := by
  induction n with
  | zero => exact ⟨Nat.le_refl 0, h0, h⟩
  | succ n ih =>
    unfold monthLoop
    split
    case isTrue hlt =>
      obtain ⟨hle, hspm⟩ := ih hlt
      exact ⟨Nat.le_succ_of_le hle, hspm⟩
    case isFalse hge => exact ⟨Nat.le_refl _, Int.not_lt.mp hge, h⟩

/-- No month has more than 31 days. -/
theorem spm_succ_le {i : Nat} (h : i ≤ 11) : spm (i + 1 : Nat) ≤ spm i + 31 := by
  have hall : ∀ i : Nat, i ≤ 11 → spm (i + 1 : Nat) ≤ spm i + 31 := by decide
  exact hall i h

/-- March starts on day 59. -/
theorem march_le_iff {i : Nat} (h : i ≤ 12) : 59 ≤ spm i ↔ 1 < i := by
  have hall : ∀ i : Nat, i ≤ 12 → (59 ≤ spm i ↔ 1 < i) := by decide
  exact hall i h

theorem march_lt_iff {i : Nat} (h : i ≤ 11) : 59 < spm (i + 1 : Nat) ↔ 1 < i := by
  have hall : ∀ i : Nat, i ≤ 11 → (59 < spm (i + 1 : Nat) ↔ 1 < i) := by decide
  exact hall i h

/-- On the 29th of February `work` is taken for the 28th, and the day is one more. -/
theorem monthMday_leapDay : monthMday true 59 = (1, 29) := by decide

/-- The month and day of a day in the year, and back. -/
theorem monthMday_spec {leap : Bool} {work : Int} (h0 : 0 ≤ work)
    (h : work < if leap then 366 else 365) :
    0 ≤ (monthMday leap work).1 ∧ (monthMday leap work).1 ≤ 11 ∧
      1 ≤ (monthMday leap work).2 ∧ (monthMday leap work).2 ≤ 31 ∧
      spm (monthMday leap work).1 + (monthMday leap work).2 - 1 +
        (if leap && 1 < (monthMday leap work).1 then 1 else 0) = work := by
  have hdec : spm (11 + 1 : Nat) = 365 := rfl
  by_cases hlate : (leap && decide (58 < work)) = true
  · -- from the 29th of February on, the table is one day short
    obtain ⟨rfl, h58⟩ : leap = true ∧ 58 < work := by
      rwa [Bool.and_eq_true, decide_eq_true_eq] at hlate
    rw [if_pos rfl] at h
    by_cases h59 : work = 59
    · rw [h59, monthMday_leapDay]
      decide
    · have heq : monthMday true work = ((monthLoop (work - 1) 11 : Int),
          1 + (work - 1 - spm (monthLoop (work - 1) 11))) := by
        rw [monthMday, if_pos hlate, if_neg h59]
      rw [heq]
      dsimp only
      obtain ⟨hle, hlo, hhi⟩ := @monthLoop_spec (work - 1) (by omega) 11 (by omega)
      generalize monthLoop (work - 1) 11 = i at hle hlo hhi ⊢
      have hlen := spm_succ_le hle
      have hmarch := march_lt_iff hle
      have hfeb : (1 : Int) < i := by omega
      rw [Bool.true_and, if_pos (by rwa [decide_eq_true_eq])]
      omega
  · have hearly : leap = true → work ≤ 58 := by
      intro hl
      rw [hl, Bool.true_and, decide_eq_true_eq] at hlate
      exact Int.not_lt.mp hlate
    have hyear : work < 365 := by
      cases leap with
      | false => exact h
      | true => exact Int.lt_of_le_of_lt (hearly rfl) (by decide)
    have heq : monthMday leap work = ((monthLoop work 11 : Int),
        1 + (work - spm (monthLoop work 11))) := by
      rw [monthMday, if_neg hlate]
    rw [heq]
    dsimp only
    obtain ⟨hle, hlo, hhi⟩ := monthLoop_spec h0 11 (by omega)
    generalize monthLoop work 11 = i at hle hlo hhi ⊢
    have hlen := spm_succ_le hle
    have hmarch := march_le_iff (Nat.le_succ_of_le hle)
    have hnone : ¬ (leap && decide ((1 : Int) < i)) = true := by
      rw [Bool.and_eq_true, decide_eq_true_eq]
      intro ⟨hl, hi⟩
      have := hearly hl
      omega
    rw [if_neg hnone]
    omega

/-! ## Both ways -/

/-- The fields in their ranges, from 1970 on. -/
structure Tm.Valid (t : Tm) : Prop where
  sec : 0 ≤ t.tmSec ∧ t.tmSec < 60
  min : 0 ≤ t.tmMin ∧ t.tmMin < 60
  hour : 0 ≤ t.tmHour ∧ t.tmHour < 24
  mday : 1 ≤ t.tmMday ∧ t.tmMday ≤ 31
  mon : 0 ≤ t.tmMon ∧ t.tmMon ≤ 11
  year : 70 ≤ t.tmYear

/-- `timegm` has nothing to carry over. -/
theorem timegm_of_valid {t : Tm} (h : t.Valid) : timegm t =
    ((((yearDays (t.tmYear - 70) + (spm t.tmMon + t.tmMday - 1 +
      (if isleap (t.tmYear + 1900) && 1 < t.tmMon then 1 else 0))) * 24 + t.tmHour) * 60 +
      t.tmMin) * 60 + t.tmSec) := by
  have hsec := h.sec
  have hmin := h.min
  have hhour := h.hour
  have hmday := h.mday
  have hmon := h.mon
  have hyear := h.year
  have hspm := spm_ge (i := 1 + t.tmMon) (by omega) (by omega)
  have hnorm : normMday t = t := by
    rw [normMday, dif_neg (by omega)]
  have hsec60 : ¬ 60 < t.tmSec := by omega
  have hmin60 : ¬ 60 < t.tmMin := by omega
  have hhour24 : ¬ 24 < t.tmHour := by omega
  have hmon12 : ¬ 12 < t.tmMon := by omega
  have hyear70 : ¬ t.tmYear < 70 := by omega
  unfold timegm
  dsimp only
  rw [if_neg hsec60, if_neg hmin60, if_neg hhour24, if_neg hmon12, hnorm, if_neg hyear70]

/-- The fields of a timestamp, by its day and the seconds in that. -/
theorem gmtimeR_eq {t : Int} (ht : 0 ≤ t) : ∃ (m : Nat) (yday : Int),
    gmtimeR t = ⟨t % 86400 % 60, t % 86400 / 60 % 60, t % 86400 / 60 / 60,
      (monthMday (isleap (1970 + m)) yday).2, (monthMday (isleap (1970 + m)) yday).1, 70 + m,
      (4 + t / 86400) % 7⟩ ∧
    daysTo 1970 m + yday = t / 86400 ∧ 0 ≤ yday ∧ yday < yearLen (1970 + m) := by
  have hw0 : 0 ≤ t % 86400 := Int.emod_nonneg _ (by decide)
  have hq0 : 0 ≤ t % 86400 / 60 := Int.ediv_nonneg hw0 (by decide)
  have hd0 : 0 ≤ t / 86400 := Int.ediv_nonneg ht (by decide)
  have hw40 : 0 ≤ 4 + t / 86400 := by omega
  obtain ⟨m, -, hfst, hsum, hnn, hlt⟩ := yearLoop_spec 0 (t / 86400) hd0
  rw [show (1970 + (0 : Nat) : Int) = 1970 from rfl] at hfst hsum hnn hlt
  rw [show daysTo 1970 0 + t / 86400 = t / 86400 from Int.zero_add _] at hsum
  refine ⟨m, _, ?_, hsum, hnn, hlt⟩
  have hyear : (1970 + m - 1900 : Int) = 70 + m := by omega
  unfold gmtimeR
  dsimp only
  rw [Int.tdiv_eq_ediv_of_nonneg ht, Int.tmod_eq_emod_of_nonneg ht,
    Int.tmod_eq_emod_of_nonneg hw0, Int.tdiv_eq_ediv_of_nonneg hw0,
    Int.tmod_eq_emod_of_nonneg hq0, Int.tdiv_eq_ediv_of_nonneg hq0,
    Int.tmod_eq_emod_of_nonneg hw40, hfst, hyear]

/-- What `gmtime_r` gives: valid fields, and the year and the day in it of the timestamp. -/
theorem gmtimeR_spec {t : Int} (ht : 0 ≤ t) : (gmtimeR t).Valid ∧
    (0 ≤ (gmtimeR t).tmWday ∧ (gmtimeR t).tmWday ≤ 6) ∧
    ∃ m : Nat, (gmtimeR t).tmYear = 70 + m ∧ daysTo 1970 m ≤ t / 86400 ∧
      t / 86400 < daysTo 1970 (m + 1) ∧
      daysTo 1970 m + (spm (gmtimeR t).tmMon + (gmtimeR t).tmMday - 1 +
        (if isleap ((gmtimeR t).tmYear + 1900) && 1 < (gmtimeR t).tmMon then 1 else 0)) =
        t / 86400 ∧
      t % 86400 = ((gmtimeR t).tmHour * 60 + (gmtimeR t).tmMin) * 60 + (gmtimeR t).tmSec := by
  obtain ⟨m, yday, heq, hsum, hnn, hlt⟩ := gmtimeR_eq ht
  have hnext : daysTo 1970 (m + 1) = daysTo 1970 m + yearLen (1970 + m) := rfl
  have hleap : yearLen (1970 + m) = if isleap (1970 + m) then 366 else 365 := by
    rw [isleap_eq]
    rfl
  have hyear : (70 + m + 1900 : Int) = 1970 + m := by omega
  obtain ⟨hmon0, hmon, hmday0, hmday, hback⟩ := monthMday_spec hnn (hleap ▸ hlt)
  rw [heq]
  dsimp only
  rw [hyear, hback]
  refine ⟨⟨?sec, ?min, ?hour, ⟨hmday0, hmday⟩, ⟨hmon0, hmon⟩, ?year⟩, by omega, m, rfl,
    by omega, by omega, hsum, by omega⟩
  all_goals
    dsimp only
    omega

theorem localtime_zero (t : Int) : localtime 0 t = gmtimeR t := by
  unfold localtime
  rw [Int.zero_mul, Int.add_zero]

theorem yearDays_of_tmYear {m : Nat} (h : m ≤ 136) : yearDays (70 + m - 70) = daysTo 1970 m := by
  rw [← yearDays_eq h, Int.add_comm 70, Int.add_sub_cancel]

/-- Without a time zone, for a timestamp of 32 bits. -/
theorem mktime_localtime {t : Int} (h0 : 0 ≤ t) (h : t < 2 ^ 32) :
    mktime 0 (localtime 0 t) = t := by
  obtain ⟨hvalid, -, m, hyear, hlo, -, hday, hsec⟩ := gmtimeR_spec h0
  have hlast : daysTo 1970 137 = 50038 := by decide +kernel
  have hm : m < 137 := @lt_of_daysTo_lt 1970 m 137 (by omega)
  rw [mktime, localtime_zero, timegm_of_valid hvalid]
  rw [hyear] at hday ⊢
  rw [yearDays_of_tmYear (by omega), hday]
  omega

/-- The year of a timestamp, by days. -/
theorem tmYear_lt_iff {t : Int} (ht : 0 ≤ t) (n : Nat) :
    (localtime 0 t).tmYear < 70 + n ↔ t < daysTo 1970 n * 86400 := by
  obtain ⟨-, -, m, hyear, hlo, hhi, -, -⟩ := gmtimeR_spec ht
  rw [localtime_zero, hyear]
  constructor
  · intro h
    have := daysTo_mono 1970 (show m + 1 ≤ n by omega)
    omega
  · intro h
    have := @lt_of_daysTo_lt 1970 m n (by omega)
    omega

/-- A valid day is in its year, whatever the month. -/
theorem day_lt_yearLen {leap : Bool} {mon mday : Int} (h0 : 0 ≤ mon) (h : mon ≤ 11)
    (hmday : mday ≤ 31) :
    spm mon + mday - 1 + (if leap && 1 < mon then 1 else 0) < if leap then 366 else 365 := by
  have hspm : spm mon ≤ 334 := by
    obtain ⟨n, rfl⟩ := Int.eq_ofNat_of_zero_le h0
    have hall : ∀ n : Nat, n ≤ 11 → spm n ≤ 334 := by decide
    exact hall n (by omega)
  cases leap with
  | false =>
    rw [if_neg Bool.false_ne_true, if_neg (by rw [Bool.false_and]; exact Bool.false_ne_true)]
    omega
  | true =>
    rw [if_pos rfl]
    split <;> omega

/-- A valid time in the `m`th year is in that year. -/
theorem mktime_bounds {t : Tm} (h : t.Valid) {m : Nat} (hm : m ≤ 136) (hyear : t.tmYear = 70 + m) :
    daysTo 1970 m * 86400 ≤ mktime 0 t ∧ mktime 0 t < daysTo 1970 (m + 1) * 86400 := by
  have hsec := h.sec
  have hmin := h.min
  have hhour := h.hour
  have hmday := h.mday
  have hspm := spm_nonneg t.tmMon
  have hleap : (70 + m + 1900 : Int) = 1970 + m := by omega
  have hday := @day_lt_yearLen (isleap (1970 + m)) _ _ h.mon.1 h.mon.2 hmday.2
  have hnext : daysTo 1970 (m + 1) = daysTo 1970 m + if isleap (1970 + m) then 366 else 365 := by
    rw [isleap_eq]
    rfl
  have hnn : 0 ≤ (if isleap (1970 + m) && 1 < t.tmMon then 1 else 0 : Int) := by
    split <;> decide
  rw [mktime, timegm_of_valid h, hyear, yearDays_of_tmYear hm, hleap, hnext]
  constructor <;> omega

end Live2dStm32.Libc
