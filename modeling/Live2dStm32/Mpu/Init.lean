import Mathlib.Data.List.Basic
import Live2dStm32.Hal.Mpu

/-
  The MPU setting of the board (drivers/drv_mpu.c): `mpu_init`.

  The window of the SDRAM and the one of the FMC memories are both given MPU_REGION_NUMBER1.
  `mpuOk_iff`: from a unit without enabled regions, every window has the attributes programmed
  for it exactly when BSP_USING_SDRAM is not defined. When it is, the SDRAM is left to the
  default map, which makes it a device.
-/

namespace Live2dStm32.Mpu

open Live2dStm32.Hal.Mpu

/-- AXI SRAM, write-through. -/
def axiSram : RegionInit :=
  { enable := 0x01
    baseAddress := 0x24000000
    size := 0x12
    accessPermission := 0x03
    isBufferable := 0x00
    isCacheable := 0x01
    isShareable := 0x00
    number := 0x00
    typeExtField := 0x00
    subRegionDisable := 0x00
    disableExec := 0x00 }

/-- SDRAM, write-through. -/
def sdram : RegionInit :=
  { enable := 0x01
    baseAddress := 0xC0000000
    size := 0x18
    accessPermission := 0x03
    isBufferable := 0x00
    isCacheable := 0x01
    isShareable := 0x00
    number := 0x01
    typeExtField := 0x00
    subRegionDisable := 0x00
    disableExec := 0x00 }

/-- SRAM and LCD on the FMC, not cacheable. -/
def fmc : RegionInit :=
  { enable := 0x01
    baseAddress := 0x60000000
    size := 0x1B
    accessPermission := 0x03
    isBufferable := 0x00
    isCacheable := 0x00
    isShareable := 0x00
    number := 0x01
    typeExtField := 0x00
    subRegionDisable := 0x00
    disableExec := 0x00 }

/-- What `mpu_init` hands to `HAL_MPU_ConfigRegion`; `usingSdram`: BSP_USING_SDRAM is defined. -/
def regionInits (usingSdram : Bool) : List RegionInit :=
  axiSram :: (if usingSdram then [sdram] else []) ++ [fmc]

/-- Enabling the caches leaves the unit as it is. -/
def mpuInit (usingSdram : Bool) (mpu : Regs) : Regs :=
  let mpu := halMpuDisable mpu
  let mpu := (regionInits usingSdram).foldl halMpuConfigRegion mpu
  halMpuEnable mpu ctrlPrivdefena

/-! ## The law -/

/-- Every window has the type programmed for it, and no call replaces the region of another. -/
structure MpuOk (usingSdram : Bool) (mpu : Regs) : Prop where
  axiSram : ∀ a, Within 0x24000000 (512 * 1024) a → mpu.typeAt a = some .writeThrough
  sdram : usingSdram = true → ∀ a, Within 0xC0000000 (32 * 1024 * 1024) a →
    mpu.typeAt a = some .writeThrough
  fmc : ∀ a, Within 0x60000000 (256 * 1024 * 1024) a → mpu.typeAt a = some .stronglyOrdered
  distinct : ((regionInits usingSdram).map RegionInit.number).Nodup

/-- Before `mpu_init` no region is enabled. -/
def NoneEnabled (mpu : Regs) : Prop := ∀ i, (mpu.region i).enabled = false

/-! ## The regions -/

/-- A region as `HAL_MPU_ConfigRegion` leaves it. -/
def regionOf (init : RegionInit) : Region := ⟨init.baseAddress &&& rbarAddr, init.rasr⟩

theorem axiSram_covers_iff (a : Word) :
    (regionOf axiSram).covers a = true ↔ Within 0x24000000 (512 * 1024) a :=
  covers_iff_within (by decide) (by decide) (by decide) a

theorem sdram_covers_iff (a : Word) :
    (regionOf sdram).covers a = true ↔ Within 0xC0000000 (32 * 1024 * 1024) a :=
  covers_iff_within (by decide) (by decide) (by decide) a

theorem fmc_covers_iff (a : Word) :
    (regionOf fmc).covers a = true ↔ Within 0x60000000 (256 * 1024 * 1024) a :=
  covers_iff_within (by decide) (by decide) (by decide) a

/-- What the two kinds of windows are programmed to be. -/
theorem type_regionOf :
    (regionOf axiSram).type = .writeThrough ∧ (regionOf sdram).type = .writeThrough ∧
      (regionOf fmc).type = .stronglyOrdered ∧ MemType.writeThrough.cacheable = true ∧
      MemType.stronglyOrdered.cacheable = false := by decide

/-- Region 1 is the one of the FMC memories in either case. -/
theorem region_mpuInit (usingSdram : Bool) (mpu : Regs) :
    (mpuInit usingSdram mpu).region =
      Function.update (Function.update mpu.region 0 (regionOf axiSram)) 1 (regionOf fmc) := by
  have haxi := @region_configRegion axiSram (by decide) (by decide)
  have hsdram := @region_configRegion sdram (by decide) (by decide)
  have hfmc := @region_configRegion fmc (by decide) (by decide)
  cases usingSdram
  · change (halMpuConfigRegion (halMpuConfigRegion (halMpuDisable mpu) axiSram) fmc).region = _
    rw [hfmc, haxi]
    rfl
  · change (halMpuConfigRegion (halMpuConfigRegion
      (halMpuConfigRegion (halMpuDisable mpu) axiSram) sdram) fmc).region = _
    rw [hfmc, hsdram, haxi]
    exact Function.update_idem _ _ _

theorem ctrl_mpuInit (usingSdram : Bool) (mpu : Regs) :
    (mpuInit usingSdram mpu).ctrl &&& ctrlEnable ≠ 0 ∧
      (mpuInit usingSdram mpu).ctrl &&& ctrlPrivdefena ≠ 0 := by
  change (ctrlPrivdefena ||| ctrlEnable) &&& ctrlEnable ≠ 0 ∧
    (ctrlPrivdefena ||| ctrlEnable) &&& ctrlPrivdefena ≠ 0
  decide

section Windows

variable {usingSdram : Bool} {mpu : Regs} {a : Word}

/-- Only regions 0 and 1 are enabled. -/
theorem covers_of_two_le (h : NoneEnabled mpu) {j : Nat} (hj : 1 < j) :
    ((mpuInit usingSdram mpu).region j).covers a = false := by
  rw [region_mpuInit, Function.update_of_ne (by omega), Function.update_of_ne (by omega)]
  exact covers_of_disabled (h j) a

theorem region_zero (usingSdram : Bool) (mpu : Regs) :
    (mpuInit usingSdram mpu).region 0 = regionOf axiSram := by
  rw [region_mpuInit]
  rfl

theorem region_one (usingSdram : Bool) (mpu : Regs) :
    (mpuInit usingSdram mpu).region 1 = regionOf fmc := by
  rw [region_mpuInit]
  rfl

theorem covers_zero_iff : ((mpuInit usingSdram mpu).region 0).covers a = true ↔
    Within 0x24000000 (512 * 1024) a := by
  rw [region_zero, axiSram_covers_iff]

theorem covers_one_iff : ((mpuInit usingSdram mpu).region 1).covers a = true ↔
    Within 0x60000000 (256 * 1024 * 1024) a := by
  rw [region_one, fmc_covers_iff]

theorem typeAt_axiSram (h : NoneEnabled mpu) (ha : Within 0x24000000 (512 * 1024) a) :
    (mpuInit usingSdram mpu).typeAt a = some .writeThrough := by
  rw [typeAt_of_highest (ctrl_mpuInit _ _).1 (by decide : 0 < regionNum) (covers_zero_iff.mpr ha),
    region_zero]
  · exact congrArg some type_regionOf.1
  · intro j hj _
    rcases Nat.lt_or_eq_of_le hj with hlt | rfl
    · exact covers_of_two_le h hlt
    · refine Bool.eq_false_iff.mpr (mt covers_one_iff.mp ?_)
      unfold Within at ha ⊢
      omega

theorem typeAt_fmc (h : NoneEnabled mpu) (ha : Within 0x60000000 (256 * 1024 * 1024) a) :
    (mpuInit usingSdram mpu).typeAt a = some .stronglyOrdered := by
  rw [typeAt_of_highest (ctrl_mpuInit _ _).1 (by decide : 1 < regionNum) (covers_one_iff.mpr ha),
    region_one]
  · exact congrArg some type_regionOf.2.2.1
  · intro j hj _
    exact covers_of_two_le h hj

/-- The SDRAM is in no region. -/
theorem typeAt_sdram (h : NoneEnabled mpu) (ha : Within 0xC0000000 (32 * 1024 * 1024) a) :
    (mpuInit usingSdram mpu).typeAt a = some (defaultMap a) := by
  refine typeAt_of_none (ctrl_mpuInit _ _).1 (ctrl_mpuInit _ _).2 fun j _ => ?_
  unfold Within at ha
  rcases j with _ | _ | j
  · refine Bool.eq_false_iff.mpr (mt covers_zero_iff.mp ?_)
    unfold Within
    omega
  · refine Bool.eq_false_iff.mpr (mt covers_one_iff.mp ?_)
    unfold Within
    omega
  · exact covers_of_two_le h (by omega)

end Windows

/-- From any unit without enabled regions, in both configurations of the build. -/
theorem mpuOk_iff (usingSdram : Bool) {mpu : Regs} (h : NoneEnabled mpu) :
    MpuOk usingSdram (mpuInit usingSdram mpu) ↔ usingSdram = false := by
  constructor
  · intro hok
    by_contra husing
    have hnodup := hok.distinct
    rw [Bool.not_eq_false] at husing
    rw [husing] at hnodup
    exact absurd hnodup (by decide)
  · intro hnot
    constructor
    case axiSram => exact fun a ha => typeAt_axiSram h ha
    case sdram =>
      intro husing
      rw [hnot] at husing
      simp at husing
    case fmc => exact fun a ha => typeAt_fmc h ha
    case distinct =>
      rw [hnot]
      decide

/-- The unit after a reset. -/
def resetMpu : Regs := ⟨0, 0, fun _ => ⟨0, 0⟩, 0⟩

theorem noneEnabled_reset : NoneEnabled resetMpu := by
  intro i
  simp [resetMpu, Region.enabled]

/-- The two builds. -/
theorem mpuOk_reset : MpuOk false (mpuInit false resetMpu) ∧ ¬ MpuOk true (mpuInit true resetMpu) :=
  ⟨(mpuOk_iff false noneEnabled_reset).mpr rfl,
    fun h => Bool.false_ne_true ((mpuOk_iff true noneEnabled_reset).mp h).symm⟩

/-- With an SDRAM its first address, where the framebuffer may be, is a device. -/
theorem mpuOk_fails_sdram :
    ¬ ∀ (usingSdram : Bool) (mpu : Regs), NoneEnabled mpu →
      MpuOk usingSdram (mpuInit usingSdram mpu) := by
  intro hall
  have hwithin : Within 0xC0000000 (32 * 1024 * 1024) 0xC0000000 := by
    unfold Within
    decide
  have htype := (hall true resetMpu noneEnabled_reset).sdram rfl 0xC0000000 hwithin
  rw [typeAt_sdram noneEnabled_reset hwithin] at htype
  exact absurd htype (by decide)

end Live2dStm32.Mpu
