import Mathlib.Algebra.Group.Nat.Defs
import Mathlib.Logic.Function.Basic
import Mathlib.Tactic.Common

/-
  The memory protection unit of ARMv7-M under `HAL_MPU_Disable`, `HAL_MPU_ConfigRegion` and
  `HAL_MPU_Enable` (stm32h7xx_hal_cortex.c): the register file banked by MPU->RNR, and the memory
  type it gives each address. The enabled region with the highest number wins; outside of all
  regions the default map applies to privileged accesses.

  `typeAt_of_highest`, `typeAt_of_none`: the type of an address, from the regions that cover it.
-/

namespace Live2dStm32.Hal.Mpu

abbrev Word := BitVec 32

/-! ## Memory types -/

inductive CachePolicy where
  | nonCacheable
  | writeBackAllocate
  | writeThrough
  | writeBack
  deriving DecidableEq, Repr

inductive MemType where
  | stronglyOrdered
  | device
  | normal (outer inner : CachePolicy)
  | reserved
  deriving DecidableEq, Repr

/-- Normal memory, write-through for both levels of cache. -/
def MemType.writeThrough : MemType := .normal .writeThrough .writeThrough

def MemType.writeBackAllocate : MemType := .normal .writeBackAllocate .writeBackAllocate

def MemType.cacheable : MemType → Bool
  | .normal outer inner => outer ≠ .nonCacheable || inner ≠ .nonCacheable
  | _ => false

/-- The two-bit cache policy of the TEX encodings from 4 on. -/
def cachePolicy (bits : BitVec 2) : CachePolicy :=
  match bits.toNat with
  | 0 => .nonCacheable
  | 1 => .writeBackAllocate
  | 2 => .writeThrough
  | _ => .writeBack

/-- The encoding of TEX, C and B. -/
def memType (tex : BitVec 3) (c b : Bool) : MemType :=
  match tex.toNat, c, b with
  | 0, false, false => .stronglyOrdered
  | 0, false, true => .device
  | 0, true, false => .writeThrough
  | 0, true, true => .normal .writeBack .writeBack
  | 1, false, false => .normal .nonCacheable .nonCacheable
  | 1, true, true => .writeBackAllocate
  | 2, false, false => .device
  | 1, _, _ | 2, _, _ | 3, _, _ => .reserved
  | _, c, b => .normal (cachePolicy (tex.setWidth 2))
      (cachePolicy (BitVec.ofBool c ++ BitVec.ofBool b))

/-- The default map: eight blocks of 512 MB, of which the last holds the private peripherals. -/
def defaultMap (a : Word) : MemType :=
  match (a >>> 29).toNat with
  | 0 => .writeThrough
  | 1 => .writeBackAllocate
  | 2 => .device
  | 3 => .writeBackAllocate
  | 4 => .writeThrough
  | 5 | 6 => .device
  | _ => if a < 0xE0100000 then .stronglyOrdered else .device

/-! ## Registers -/

/-- RBAR and RASR of one region. -/
structure Region where
  rbar : Word
  rasr : Word
  deriving DecidableEq, Repr

/-- `shcsr` is SCB->SHCSR. Sixteen of the regions exist. -/
structure Regs where
  ctrl : Word
  rnr : Word
  region : Nat → Region
  shcsr : Word

/-- MPU_REGION_NUMBER15 is the last one. -/
def regionNum : Nat := 16

def ctrlEnable : Word := 0x1
def ctrlPrivdefena : Word := 0x4
def shcsrMemfaultena : Word := 0x10000
def rbarAddr : Word := 0xFFFFFFE0
def rbarValid : Word := 0x10
def rbarRegion : Word := 0xF

namespace Region

def enabled (r : Region) : Bool := r.rasr.getLsbD 0

/-- The region has `2 ^ (size + 1)` bytes. -/
def size (r : Region) : Nat := ((r.rasr >>> 1) &&& 0x1F).toNat

/-- The eighth of the region that holds the address is switched off. -/
def subRegionDisabled (r : Region) (a : Word) : Bool :=
  7 ≤ r.size && (r.rasr >>> 8).getLsbD ((a >>> (r.size - 2)) &&& 7).toNat

def covers (r : Region) (a : Word) : Bool :=
  r.enabled && (a >>> (r.size + 1) == r.rbar >>> (r.size + 1)) && !r.subRegionDisabled a

def type (r : Region) : MemType :=
  memType ((r.rasr >>> 19).setWidth 3) (r.rasr.getLsbD 17) (r.rasr.getLsbD 16)

end Region

/-- MPU->RBAR = v. With VALID set the write also selects a region. -/
def Regs.writeRbar (mpu : Regs) (v : Word) : Regs :=
  let rnr := if v &&& rbarValid ≠ 0 then v &&& rbarRegion else mpu.rnr
  { mpu with
    rnr
    region := Function.update mpu.region rnr.toNat
      { mpu.region rnr.toNat with rbar := v &&& rbarAddr } }

/-- MPU->RASR = v. -/
def Regs.writeRasr (mpu : Regs) (v : Word) : Regs :=
  { mpu with
    region := Function.update mpu.region mpu.rnr.toNat { mpu.region mpu.rnr.toNat with rasr := v } }

/-! ## The HAL -/

/-- MPU_Region_InitTypeDef. -/
structure RegionInit where
  enable : BitVec 8
  number : BitVec 8
  baseAddress : Word
  size : BitVec 8
  subRegionDisable : BitVec 8
  typeExtField : BitVec 8
  accessPermission : BitVec 8
  disableExec : BitVec 8
  isShareable : BitVec 8
  isCacheable : BitVec 8
  isBufferable : BitVec 8
  deriving DecidableEq, Repr

def halMpuDisable (mpu : Regs) : Regs :=
  { mpu with shcsr := mpu.shcsr &&& ~~~shcsrMemfaultena, ctrl := 0 }

def halMpuEnable (mpu : Regs) (control : Word) : Regs :=
  { mpu with ctrl := control ||| ctrlEnable, shcsr := mpu.shcsr ||| shcsrMemfaultena }

/-- The word for MPU->RASR. -/
def RegionInit.rasr (init : RegionInit) : Word :=
  (init.disableExec.setWidth 32 <<< 28) |||
  (init.accessPermission.setWidth 32 <<< 24) |||
  (init.typeExtField.setWidth 32 <<< 19) |||
  (init.isShareable.setWidth 32 <<< 18) |||
  (init.isCacheable.setWidth 32 <<< 17) |||
  (init.isBufferable.setWidth 32 <<< 16) |||
  (init.subRegionDisable.setWidth 32 <<< 8) |||
  (init.size.setWidth 32 <<< 1) |||
  init.enable.setWidth 32

def halMpuConfigRegion (mpu : Regs) (init : RegionInit) : Regs :=
  let mpu := { mpu with rnr := init.number.setWidth 32 }
  if init.enable ≠ 0 then (mpu.writeRbar init.baseAddress).writeRasr init.rasr
  else (mpu.writeRbar 0).writeRasr 0

/-! ## The type of an address -/

/-- The largest number below `n` with `p`. -/
def highest (p : Nat → Bool) : Nat → Option Nat
  | 0 => none
  | n + 1 => if p n then some n else highest p n

/-- The memory type of a privileged access, if it is allowed. -/
def Regs.typeAt (mpu : Regs) (a : Word) : Option MemType :=
  if mpu.ctrl &&& ctrlEnable = 0 then some (defaultMap a)
  else
    match highest (fun i => (mpu.region i).covers a) regionNum with
    | some i => some (mpu.region i).type
    | none => if mpu.ctrl &&& ctrlPrivdefena ≠ 0 then some (defaultMap a) else none

theorem highest_eq_some {p : Nat → Bool} {n i : Nat} (hi : i < n) (hp : p i = true)
    (hnone : ∀ j, i < j → j < n → p j = false) : highest p n = some i := by
  induction n with
  | zero => exact absurd hi (Nat.not_lt_zero i)
  | succ n ih =>
    rw [highest]
    rcases Nat.lt_or_eq_of_le (Nat.le_of_lt_succ hi) with hlt | heq
    · rw [if_neg (by simp [hnone n hlt (Nat.lt_succ_self n)])]
      exact ih hlt fun j hij hj => hnone j hij (Nat.lt_succ_of_lt hj)
    · rw [if_pos (heq ▸ hp), heq]

theorem highest_eq_none {p : Nat → Bool} {n : Nat} (h : ∀ j < n, p j = false) :
    highest p n = none := by
  induction n with
  | zero => rfl
  | succ n ih =>
    rw [highest, if_neg (by simp [h n (Nat.lt_succ_self n)])]
    exact ih fun j hj => h j (Nat.lt_succ_of_lt hj)

section TypeAt

variable {mpu : Regs} {a : Word}

theorem typeAt_of_highest (hon : mpu.ctrl &&& ctrlEnable ≠ 0) {i : Nat} (hi : i < regionNum)
    (hcovers : (mpu.region i).covers a = true)
    (hnone : ∀ j, i < j → j < regionNum → (mpu.region j).covers a = false) :
    mpu.typeAt a = some (mpu.region i).type := by
  rw [Regs.typeAt, if_neg hon,
    highest_eq_some (p := fun i => (mpu.region i).covers a) hi hcovers hnone]

theorem typeAt_of_none (hon : mpu.ctrl &&& ctrlEnable ≠ 0)
    (hpriv : mpu.ctrl &&& ctrlPrivdefena ≠ 0)
    (hnone : ∀ j < regionNum, (mpu.region j).covers a = false) :
    mpu.typeAt a = some (defaultMap a) := by
  rw [Regs.typeAt, if_neg hon, highest_eq_none hnone]
  exact if_pos hpriv

end TypeAt

theorem covers_of_disabled {r : Region} (h : r.enabled = false) (a : Word) :
    r.covers a = false := by
  rw [Region.covers, h]
  rfl

/-- A region without disabled eighths covers the block of its base. -/
theorem covers_iff {r : Region} (hon : r.enabled = true)
    (hsub : ∀ i < 8, (r.rasr >>> 8).getLsbD i = false) (a : Word) :
    r.covers a = true ↔ a.toNat / 2 ^ (r.size + 1) = r.rbar.toNat / 2 ^ (r.size + 1) := by
  have hidx : ((a >>> (r.size - 2)) &&& 7).toNat < 8 := by
    rw [BitVec.toNat_and]
    exact Nat.lt_of_le_of_lt Nat.and_le_right (by decide)
  have hdisabled : r.subRegionDisabled a = false := by
    rw [Region.subRegionDisabled, hsub _ hidx, Bool.and_false]
  rw [Region.covers, hon, hdisabled]
  simp [← BitVec.toNat_inj, Nat.shiftRight_eq_div_pow]

/-- `a` is one of the `n` addresses from `base` on. -/
def Within (base n : Nat) (a : Word) : Prop := base ≤ a.toNat ∧ a.toNat < base + n

theorem covers_iff_within {r : Region} (hon : r.enabled = true)
    (hsub : ∀ i < 8, (r.rasr >>> 8).getLsbD i = false)
    (haligned : 2 ^ (r.size + 1) ∣ r.rbar.toNat) (a : Word) :
    r.covers a = true ↔ Within r.rbar.toNat (2 ^ (r.size + 1)) a := by
  rw [covers_iff hon hsub, Nat.div_eq_iff (Nat.two_pow_pos _), Nat.div_mul_cancel haligned, Within]
  have hpos := Nat.two_pow_pos (r.size + 1)
  omega

/-- The region a call configures, and the others. -/
theorem region_configRegion {init : RegionInit} (hon : init.enable ≠ 0)
    (hbase : init.baseAddress &&& rbarValid = 0) (mpu : Regs) :
    (halMpuConfigRegion mpu init).region =
      Function.update mpu.region init.number.toNat ⟨init.baseAddress &&& rbarAddr, init.rasr⟩ := by
  have hnumber : (init.number.setWidth 32).toNat = init.number.toNat := by
    have := init.number.isLt
    rw [BitVec.toNat_setWidth]
    omega
  unfold halMpuConfigRegion
  dsimp only
  rw [if_pos hon]
  simp [Regs.writeRbar, Regs.writeRasr, hbase, hnumber]

end Live2dStm32.Hal.Mpu
