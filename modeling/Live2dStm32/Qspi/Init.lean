import Mathlib.Algebra.Order.Field.Basic
import Mathlib.Data.Rat.Cast.Order
import Mathlib.Order.Bounds.Basic
import Live2dStm32.Hal.Dma
import Live2dStm32.Kernel.Semaphore

/-
  The QSPI driver's setting of the flash clock (drivers/drv_qspi.c, stm32h7xx_hal_qspi.c):
  `stm32_qspi_init` and `HAL_QSPI_Init`.

  `clockOk_iff`: the prescaler is the least one from 1 to 255 that keeps the flash at or below
  `max_hz`, and an error means that there is none, except in two cases. The loop compares the
  truncated quotient, and it gives up before it has tried 255. `flashClock_lt`: the flash is
  never clocked a whole hertz too fast.
-/

namespace Live2dStm32.Qspi

open Live2dStm32.Kernel Live2dStm32.Hal.Dma

/-! ## The handle and the registers -/

/-- QSPI_InitTypeDef. -/
structure QspiInit where
  clockPrescaler : BitVec 32
  fifoThreshold : BitVec 32
  sampleShifting : BitVec 32
  flashSize : BitVec 32
  chipSelectHighTime : BitVec 32
  clockMode : BitVec 32
  flashID : BitVec 32
  dualFlash : BitVec 32
  deriving DecidableEq, Repr

inductive QspiState where
  | reset
  | ready
  | error
  deriving DecidableEq, Repr

structure QspiHandle where
  init : QspiInit
  lock : Bool
  state : QspiState
  errorCode : BitVec 32
  timeout : BitVec 32
  deriving DecidableEq, Repr

/-- The two registers the setting writes. -/
structure QspiRegs where
  cr : BitVec 32
  dcr : BitVec 32
  deriving DecidableEq, Repr

/-- struct stm32_qspi_bus, with the peripheral its handler names. -/
structure QspiBus where
  handler : QspiHandle
  quadspi : QspiRegs
  deriving DecidableEq, Repr

/-- The fields of struct rt_qspi_configuration the driver reads. -/
structure QspiConfiguration where
  mode : BitVec 8
  maxHz : BitVec 32
  mediumSize : BitVec 32
  deriving DecidableEq, Repr

def crEn : BitVec 32 := 0x1
def crSshift : BitVec 32 := 0x10
def crDfm : BitVec 32 := 0x40
def crFsel : BitVec 32 := 0x80
def crFthres : BitVec 32 := 0xF00
def crPrescaler : BitVec 32 := 0xFF000000
def dcrCkmode : BitVec 32 := 0x1
def dcrCsht : BitVec 32 := 0x700
def dcrFsize : BitVec 32 := 0x1F0000

def qspiSampleShiftingHalfcycle : BitVec 32 := crSshift
def qspiCsHighTime4Cycle : BitVec 32 := 0x300
def qspiClockMode0 : BitVec 32 := 0
def qspiClockMode3 : BitVec 32 := dcrCkmode

def halQspiErrorNone : BitVec 32 := 0
def halQspiErrorTimeout : BitVec 32 := 1
def halQpsiTimeoutDefaultValue : BitVec 32 := 5000

def rtSpiCpol : BitVec 8 := 1 <<< 1

/-- QSPI_BUS_CONFIG. -/
def qspiBusConfig : QspiHandle where
  init := ⟨0, 4, qspiSampleShiftingHalfcycle, 0, qspiCsHighTime4Cycle, 0, 0, 0⟩
  lock := false
  state := .reset
  errorCode := 0
  timeout := 0

/-! ## HAL_QSPI_Init -/

/-- MODIFY_REG. -/
def modifyReg (reg clearmask setmask : BitVec 32) : BitVec 32 := (reg &&& ~~~clearmask) ||| setmask

/-- `busy`: the BUSY flag stays set for the whole timeout. -/
def halQspiInit (busy : Bool) (hqspi : QspiHandle) (quadspi : QspiRegs) :
    QspiHandle × QspiRegs × HalStatus :=
  if hqspi.lock then (hqspi, quadspi, .busy)
  else
    let hqspi :=
      if hqspi.state = .reset then { hqspi with timeout := halQpsiTimeoutDefaultValue } else hqspi
    let init := hqspi.init
    let quadspi :=
      { quadspi with cr := modifyReg quadspi.cr crFthres ((init.fifoThreshold - 1) <<< 8) }
    if busy then
      ({ hqspi with
          state := .error
          errorCode := hqspi.errorCode ||| halQspiErrorTimeout }, quadspi, .error)
    else
      let cr := modifyReg quadspi.cr (crPrescaler ||| crSshift ||| crFsel ||| crDfm)
        ((init.clockPrescaler <<< 24) ||| init.sampleShifting ||| init.flashID ||| init.dualFlash)
      let dcr := modifyReg quadspi.dcr (dcrFsize ||| dcrCsht ||| dcrCkmode)
        ((init.flashSize <<< 16) ||| init.chipSelectHighTime ||| init.clockMode)
      ({ hqspi with state := .ready, errorCode := halQspiErrorNone }, ⟨cr ||| crEn, dcr⟩, .ok)

/-- A HAL_StatusTypeDef as an `int`. -/
def halCode : HalStatus → Int
  | .ok => 0
  | .error => 1
  | .busy => 2
  | .timeout => 3

/-! ## stm32_qspi_init -/

/-- The loop, entered with `i`: the prescaler, or none if the frequency is too low. -/
def prescalerFrom (maxHz hclk i : BitVec 32) : Option (BitVec 32) :=
  if maxHz < hclk / (i + 1) then
    if i + 1 = 255 then none else prescalerFrom maxHz hclk (i + 1)
  else some i
termination_by (254 - i).toNat
decreasing_by bv_omega

/-- POSITION_VAL: the leading zeros of the reversed word. -/
def positionVal (v : BitVec 32) : BitVec 32 := v.reverse.clz

/-- Without BSP_QSPI_USING_DMA. -/
def stm32QspiInit (hclk : BitVec 32) (busy : Bool) (qspiBus : QspiBus) (cfg : QspiConfiguration) :
    QspiBus × Int :=
  match prescalerFrom cfg.maxHz hclk 1 with
  | none => ({ qspiBus with handler := qspiBusConfig }, -rtError)
  | some i =>
    let init := { qspiBusConfig.init with
      clockPrescaler := i
      clockMode := if cfg.mode &&& rtSpiCpol = 0 then qspiClockMode0 else qspiClockMode3
      flashSize := positionVal cfg.mediumSize - 1 }
    let (handler, quadspi, result) :=
      halQspiInit busy { qspiBusConfig with init := init } qspiBus.quadspi
    (⟨handler, quadspi⟩, halCode result)

/-! ## The loop -/

theorem lt_udiv_iff {maxHz hclk i : BitVec 32} (hi : i.toNat ≤ 254) :
    maxHz < hclk / (i + 1) ↔ ¬ hclk.toNat / (i.toNat + 1) ≤ maxHz.toNat := by
  have hsucc : (i + 1).toNat = i.toNat + 1 := by bv_omega
  rw [BitVec.lt_def, BitVec.toNat_udiv, hsucc]
  omega

/-- The loop looks for the first of 1 to 254 with a quotient of `max_hz` or less. -/
theorem prescalerFrom_eq {maxHz hclk i : BitVec 32} (hi : i.toNat ≤ 254) :
    (prescalerFrom maxHz hclk i).map BitVec.toNat =
      (List.range' i.toNat (255 - i.toNat)).find?
        fun k => hclk.toNat / (k + 1) ≤ maxHz.toNat := by
  have hrange : List.range' i.toNat (255 - i.toNat) =
      i.toNat :: List.range' (i.toNat + 1) (255 - (i.toNat + 1)) := by
    rw [← List.range'_succ]
    congr 1
    omega
  rw [hrange, List.find?_cons]
  unfold prescalerFrom
  by_cases hlt : maxHz < hclk / (i + 1)
  · have hfalse := (lt_udiv_iff hi).mp hlt
    rw [if_pos hlt, decide_eq_false hfalse]
    by_cases hlast : i + 1 = 255
    · have hzero : 255 - (i.toNat + 1) = 0 := by bv_omega
      rw [if_pos hlast, hzero]
      rfl
    · have hsucc : (i + 1).toNat = i.toNat + 1 := by bv_omega
      rw [if_neg hlast, ← hsucc]
      exact prescalerFrom_eq (by bv_omega)
  · have htrue := not_not.mp (mt (lt_udiv_iff hi).mpr hlt)
    rw [if_neg hlt, decide_eq_true htrue]
    rfl
termination_by (254 - i).toNat
decreasing_by bv_omega

/-- What the loop takes for a prescaler that is slow enough. -/
def Truncated (hclk maxHz : BitVec 32) : Set Nat :=
  {i | 1 ≤ i ∧ i ≤ 254 ∧ hclk.toNat / (i + 1) ≤ maxHz.toNat}

/-- A search of 1 to 254 in order, as the least number with the property. -/
theorem find?_isLeast {p : Nat → Prop} [DecidablePred p] {i : Nat} :
    (List.range' 1 254).find? (fun k => p k) = some i ↔
      IsLeast {k | 1 ≤ k ∧ k ≤ 254 ∧ p k} i := by
  rw [List.find?_range'_eq_some, List.mem_range'_1]
  constructor
  · intro ⟨hp, hrange, hbefore⟩
    refine ⟨⟨hrange.1, by omega, of_decide_eq_true hp⟩, ?_⟩
    intro k hk
    by_contra hlt
    have := hbefore k hk.1 (by omega)
    simp [hk.2.2] at this
  · intro h
    obtain ⟨hone, hle, hp⟩ := h.1
    refine ⟨decide_eq_true hp, ⟨hone, by omega⟩, fun k hk hlt => ?_⟩
    rw [Bool.not_eq_true', decide_eq_false_iff_not]
    intro hpk
    exact absurd (h.2 ⟨hk, by omega, hpk⟩) (by omega)

theorem prescaler_some {maxHz hclk i : BitVec 32} (h : prescalerFrom maxHz hclk 1 = some i) :
    IsLeast (Truncated hclk maxHz) i.toNat := by
  have heq := @prescalerFrom_eq maxHz hclk 1 (by decide)
  rw [h] at heq
  exact find?_isLeast.mp heq.symm

theorem prescaler_none {maxHz hclk : BitVec 32} (h : prescalerFrom maxHz hclk 1 = none) :
    Truncated hclk maxHz = ∅ := by
  have heq := @prescalerFrom_eq maxHz hclk 1 (by decide)
  rw [h] at heq
  have hnone := List.find?_range'_eq_none.mp heq.symm
  refine Set.eq_empty_of_forall_notMem fun i hi => ?_
  have := hnone i hi.1 (by have := hi.2.1; change i < 1 + 254; omega)
  simp [hi.2.2] at this

/-! ## The exact clock -/

/-- The prescalers that keep the flash clock at or below `max_hz`. -/
def Slow (hclk maxHz : BitVec 32) : Set Nat :=
  {i | 1 ≤ i ∧ i ≤ 255 ∧ (hclk.toNat : ℚ) / (i + 1) ≤ maxHz.toNat}

/-- An error if there is none of them, else the least one. -/
structure ClockOk (hclk maxHz : BitVec 32) (out : QspiBus × Int) : Prop where
  tooLow : out.2 = -rtError ↔ Slow hclk maxHz = ∅
  least : out.2 ≠ -rtError → IsLeast (Slow hclk maxHz) out.1.handler.init.clockPrescaler.toNat

/-- The frequencies at which the loop decides as the exact quotients do: none of them is above
    `max_hz` by a fraction of a hertz, and it is not 255 alone that is slow enough. -/
structure Exact (hclk maxHz : Nat) : Prop where
  whole : ∀ i, 1 ≤ i → i ≤ 254 → ¬ (maxHz * (i + 1) < hclk ∧ hclk < (maxHz + 1) * (i + 1))
  last : ¬ (255 * (maxHz + 1) ≤ hclk ∧ hclk ≤ 256 * maxHz)

variable {hclk maxHz : BitVec 32} {i : Nat}

theorem mem_slow_iff :
    i ∈ Slow hclk maxHz ↔ 1 ≤ i ∧ i ≤ 255 ∧ hclk.toNat ≤ maxHz.toNat * (i + 1) := by
  have hpos : (0 : ℚ) < i + 1 := Nat.cast_add_one_pos i
  change 1 ≤ i ∧ i ≤ 255 ∧ (hclk.toNat : ℚ) / (i + 1) ≤ maxHz.toNat ↔ _
  rw [div_le_iff₀ hpos]
  norm_cast

theorem mem_truncated_iff :
    i ∈ Truncated hclk maxHz ↔ 1 ≤ i ∧ i ≤ 254 ∧ hclk.toNat < (maxHz.toNat + 1) * (i + 1) := by
  have hdiv : hclk.toNat / (i + 1) ≤ maxHz.toNat ↔ hclk.toNat < (maxHz.toNat + 1) * (i + 1) :=
    Nat.lt_succ_iff.symm.trans (Nat.div_lt_iff_lt_mul (Nat.succ_pos i))
  change 1 ≤ i ∧ i ≤ 254 ∧ hclk.toNat / (i + 1) ≤ maxHz.toNat ↔ _
  rw [hdiv]

theorem truncated_of_slow (h : i ∈ Slow hclk maxHz) (hle : i ≤ 254) :
    i ∈ Truncated hclk maxHz := by
  obtain ⟨hone, -, hslow⟩ := mem_slow_iff.mp h
  refine mem_truncated_iff.mpr ⟨hone, hle, Nat.lt_of_le_of_lt hslow ?_⟩
  exact Nat.mul_lt_mul_of_pos_right (Nat.lt_succ_self _) (Nat.succ_pos i)

/-- The prescaler of the loop is the least one if it is slow enough. -/
theorem isLeast_slow_iff (h : IsLeast (Truncated hclk maxHz) i) :
    IsLeast (Slow hclk maxHz) i ↔ hclk.toNat ≤ maxHz.toNat * (i + 1) := by
  obtain ⟨hone, hle, -⟩ := mem_truncated_iff.mp h.1
  constructor
  · intro hleast
    exact (mem_slow_iff.mp hleast.1).2.2
  · intro hslow
    refine ⟨mem_slow_iff.mpr ⟨hone, by omega, hslow⟩, fun k hk => ?_⟩
    by_cases hk254 : k ≤ 254
    · exact h.2 (truncated_of_slow hk hk254)
    · omega

theorem exact_iff_of_isLeast (h : IsLeast (Truncated hclk maxHz) i) :
    Exact hclk.toNat maxHz.toNat ↔ hclk.toNat ≤ maxHz.toNat * (i + 1) := by
  obtain ⟨hone, hle, hlt⟩ := mem_truncated_iff.mp h.1
  constructor
  · intro hexact
    by_contra hfast
    exact hexact.whole i hone hle ⟨by omega, hlt⟩
  · intro hslow
    refine ⟨fun k hk1 hk254 hk => ?_, fun hlast => ?_⟩
    · have hik : i ≤ k := h.2 (mem_truncated_iff.mpr ⟨hk1, hk254, hk.2⟩)
      have hmono := Nat.mul_le_mul_left maxHz.toNat (Nat.add_le_add_right hik 1)
      omega
    · have hmono := Nat.mul_le_mul_left (maxHz.toNat + 1) (Nat.add_le_add_right hle 1)
      omega

/-- When the loop gives up, only 255 is left. -/
theorem slow_eq_empty_iff (h : Truncated hclk maxHz = ∅) :
    Slow hclk maxHz = ∅ ↔ 256 * maxHz.toNat < hclk.toNat := by
  constructor
  · intro hempty
    by_contra hle
    have h255 : 255 ∈ Slow hclk maxHz := mem_slow_iff.mpr ⟨by omega, by omega, by omega⟩
    rw [hempty] at h255
    exact h255
  · intro hlt
    refine Set.eq_empty_of_forall_notMem fun k hk => ?_
    by_cases hk254 : k ≤ 254
    · have hmem := truncated_of_slow hk hk254
      rw [h] at hmem
      exact hmem
    · obtain ⟨-, hk255, hslow⟩ := mem_slow_iff.mp hk
      have : k = 255 := by omega
      subst this
      omega

theorem exact_iff_of_empty (h : Truncated hclk maxHz = ∅) :
    Exact hclk.toNat maxHz.toNat ↔ 256 * maxHz.toNat < hclk.toNat := by
  have hout : ∀ k, 1 ≤ k → k ≤ 254 → ¬ hclk.toNat < (maxHz.toNat + 1) * (k + 1) := by
    intro k hk1 hk254 hlt
    have hmem : k ∈ Truncated hclk maxHz := mem_truncated_iff.mpr ⟨hk1, hk254, hlt⟩
    rw [h] at hmem
    exact hmem
  have hlarge := hout 254 (by omega) (by omega)
  constructor
  · intro hexact
    have := hexact.last
    omega
  · intro hlt
    exact ⟨fun k hk1 hk254 hk => hout k hk1 hk254 hk.2, by omega⟩

/-! ## The whole call -/

theorem halQspiInit_init (busy : Bool) (hqspi : QspiHandle) (quadspi : QspiRegs) :
    (halQspiInit busy hqspi quadspi).1.init = hqspi.init := by
  unfold halQspiInit
  dsimp only
  split
  · rfl
  · split <;> split <;> rfl

theorem halCode_ne (status : HalStatus) : halCode status ≠ -rtError := by
  cases status <;> decide

theorem init_none (busy : Bool) (qspiBus : QspiBus) {cfg : QspiConfiguration}
    (h : prescalerFrom cfg.maxHz hclk 1 = none) :
    (stm32QspiInit hclk busy qspiBus cfg).2 = -rtError := by
  unfold stm32QspiInit
  rw [h]

theorem init_some (busy : Bool) (qspiBus : QspiBus) {cfg : QspiConfiguration} {i : BitVec 32}
    (h : prescalerFrom cfg.maxHz hclk 1 = some i) :
    (stm32QspiInit hclk busy qspiBus cfg).2 ≠ -rtError ∧
      (stm32QspiInit hclk busy qspiBus cfg).1.handler.init.clockPrescaler = i := by
  unfold stm32QspiInit
  rw [h]
  exact ⟨halCode_ne _, congrArg QspiInit.clockPrescaler (halQspiInit_init _ _ _)⟩

theorem clockOk_none (busy : Bool) (qspiBus : QspiBus) {cfg : QspiConfiguration}
    (h : prescalerFrom cfg.maxHz hclk 1 = none) :
    ClockOk hclk cfg.maxHz (stm32QspiInit hclk busy qspiBus cfg) ↔
      256 * cfg.maxHz.toNat < hclk.toNat := by
  have hresult := init_none busy qspiBus h
  rw [← slow_eq_empty_iff (prescaler_none h)]
  constructor
  · intro hok
    exact hok.tooLow.mp hresult
  · intro hempty
    exact ⟨⟨fun _ => hempty, fun _ => hresult⟩, fun hne => absurd hresult hne⟩

theorem clockOk_some (busy : Bool) (qspiBus : QspiBus) {cfg : QspiConfiguration} {i : BitVec 32}
    (h : prescalerFrom cfg.maxHz hclk 1 = some i) :
    ClockOk hclk cfg.maxHz (stm32QspiInit hclk busy qspiBus cfg) ↔
      hclk.toNat ≤ cfg.maxHz.toNat * (i.toNat + 1) := by
  obtain ⟨hresult, hprescaler⟩ := init_some busy qspiBus h
  rw [← isLeast_slow_iff (prescaler_some h)]
  constructor
  · intro hok
    exact hprescaler ▸ hok.least hresult
  · intro hleast
    refine ⟨⟨fun herr => absurd herr hresult, fun hempty => ?_⟩, fun _ => hprescaler ▸ hleast⟩
    have hmem := hleast.1
    rw [hempty] at hmem
    exact absurd hmem (Set.notMem_empty _)

/-- For every frequency of the bus and every `max_hz`; the loop ends for all of them. -/
theorem clockOk_iff (hclk : BitVec 32) (busy : Bool) (qspiBus : QspiBus)
    (cfg : QspiConfiguration) :
    ClockOk hclk cfg.maxHz (stm32QspiInit hclk busy qspiBus cfg) ↔
      Exact hclk.toNat cfg.maxHz.toNat := by
  cases hloop : prescalerFrom cfg.maxHz hclk 1 with
  | none => rw [clockOk_none busy qspiBus hloop, exact_iff_of_empty (prescaler_none hloop)]
  | some i => rw [clockOk_some busy qspiBus hloop, exact_iff_of_isLeast (prescaler_some hloop)]

/-- The flash is clocked two thirds of a hertz too fast, and a clock of 200 MHz / 256 is
    refused. -/
theorem clockOk_fails :
    (¬ ClockOk 200000000 66666666 (stm32QspiInit 200000000 false ⟨qspiBusConfig, ⟨0, 0⟩⟩
      ⟨0, 66666666, 0x800000⟩)) ∧
    ¬ ClockOk 200000000 781250 (stm32QspiInit 200000000 false ⟨qspiBusConfig, ⟨0, 0⟩⟩
      ⟨0, 781250, 0x800000⟩) := by
  constructor
  · have htwo : 2 ∈ Truncated 200000000 66666666 := mem_truncated_iff.mpr (by decide)
    cases hloop : prescalerFrom 66666666 200000000 1 with
    | none =>
      have hempty := prescaler_none hloop
      exact absurd (hempty ▸ htwo) (Set.notMem_empty _)
    | some i =>
      have hle : i.toNat ≤ 2 := (prescaler_some hloop).2 htwo
      intro hok
      have hslow := (@clockOk_some 200000000 false _ ⟨0, 66666666, 0x800000⟩ i hloop).mp hok
      change 200000000 ≤ 66666666 * (i.toNat + 1) at hslow
      omega
  · cases hloop : prescalerFrom 781250 200000000 1 with
    | none =>
      intro hok
      exact absurd ((@clockOk_none 200000000 false _ ⟨0, 781250, 0x800000⟩ hloop).mp hok)
        (by decide)
    | some i =>
      obtain ⟨-, hle, hlt⟩ := mem_truncated_iff.mp (prescaler_some hloop).1
      change 200000000 < 781251 * (i.toNat + 1) at hlt
      omega

/-! ## The clock of the flash -/

/-- The PRESCALER field of CR. -/
def prescalerField (quadspi : QspiRegs) : Nat := (quadspi.cr >>> 24).toNat

/-- In hertz: the AHB clock over the prescaler and one. -/
def flashClock (hclk : BitVec 32) (quadspi : QspiRegs) : ℚ :=
  (hclk.toNat : ℚ) / (prescalerField quadspi + 1)

/-- Above bit 24, CR is what is written there. -/
theorem modifyReg_field (reg : BitVec 32) {pre : BitVec 32} (hpre : pre.toNat < 256) :
    ((modifyReg reg (crPrescaler ||| crSshift ||| crFsel ||| crDfm)
      ((pre <<< 24) ||| qspiSampleShiftingHalfcycle ||| 0 ||| 0) ||| crEn) >>> 24) = pre := by
  have hkept : ~~~(crPrescaler ||| crSshift ||| crFsel ||| crDfm) >>> 24 = 0 := by decide
  have hshift : qspiSampleShiftingHalfcycle >>> 24 = 0 := by decide
  have hen : crEn >>> 24 = 0 := by decide
  have hback : pre <<< 24 >>> 24 = pre := by
    refine BitVec.eq_of_toNat_eq ?_
    rw [BitVec.toNat_ushiftRight, BitVec.toNat_shiftLeft, Nat.shiftLeft_eq,
      Nat.shiftRight_eq_div_pow]
    omega
  unfold modifyReg
  simp only [BitVec.ushiftRight_or_distrib, BitVec.ushiftRight_and_distrib, hkept, hshift, hen,
    hback]
  simp

/-- A call that succeeds leaves its prescaler in the field. -/
theorem init_ok (busy : Bool) (qspiBus : QspiBus) {cfg : QspiConfiguration}
    (hok : (stm32QspiInit hclk busy qspiBus cfg).2 = halCode .ok) :
    IsLeast (Truncated hclk cfg.maxHz)
      (prescalerField (stm32QspiInit hclk busy qspiBus cfg).1.quadspi) := by
  cases hloop : prescalerFrom cfg.maxHz hclk 1 with
  | none =>
    rw [init_none busy qspiBus hloop] at hok
    exact absurd hok (by decide)
  | some i =>
    have hleast := prescaler_some hloop
    have hsmall : i.toNat < 256 := Nat.lt_of_le_of_lt hleast.1.2.1 (by decide)
    cases busy with
    | true =>
      rw [stm32QspiInit, hloop] at hok
      change halCode .error = halCode .ok at hok
      exact absurd hok (by decide)
    | false =>
      have hfield : (stm32QspiInit hclk false qspiBus cfg).1.quadspi.cr >>> 24 = i := by
        unfold stm32QspiInit
        rw [hloop]
        exact modifyReg_field _ hsmall
      rw [prescalerField, hfield]
      exact hleast

/-- Never a whole hertz too fast. -/
theorem flashClock_lt (busy : Bool) (qspiBus : QspiBus) {cfg : QspiConfiguration}
    (hok : (stm32QspiInit hclk busy qspiBus cfg).2 = halCode .ok) :
    flashClock hclk (stm32QspiInit hclk busy qspiBus cfg).1.quadspi < cfg.maxHz.toNat + 1 := by
  obtain ⟨-, -, hlt⟩ := mem_truncated_iff.mp (init_ok busy qspiBus hok).1
  rw [flashClock, div_lt_iff₀ (Nat.cast_add_one_pos _)]
  exact_mod_cast hlt

/-- And not too fast at all at the frequencies where the loop is exact. -/
theorem flashClock_le_iff (busy : Bool) (qspiBus : QspiBus) {cfg : QspiConfiguration}
    (hok : (stm32QspiInit hclk busy qspiBus cfg).2 = halCode .ok) :
    flashClock hclk (stm32QspiInit hclk busy qspiBus cfg).1.quadspi ≤ cfg.maxHz.toNat ↔
      Exact hclk.toNat cfg.maxHz.toNat := by
  rw [exact_iff_of_isLeast (init_ok busy qspiBus hok), flashClock,
    div_le_iff₀ (Nat.cast_add_one_pos _)]
  norm_cast

end Live2dStm32.Qspi
