import Mathlib.Order.Bounds.Basic
import Live2dStm32.Lib.Quantize
import Live2dStm32.Sdio.Command

/-
  The clock and bus setting of the SDIO driver (drivers/drv_sdio.c): `rthw_sdio_iocfg`.

  `iocfg_spec`: for every clock but 0 the clock register is a divider and the width bits and
  nothing else. The divider is the least one up to 1023 that keeps the card clock at or below the
  requested clock and the limit of the host, or 1023 if there is none. At clock 0 no divider is
  computed and `temp` is what it was on the stack.
-/

namespace Live2dStm32.Sdio

open Live2dStm32.Lib

/-! ## The host and what the core asks of it -/

def sdioClockFreq : Word := 200 * 1000 * 1000
def sdioMaxFreq : Word := 25 * 1000 * 1000

def clkcrClkdiv : Word := 0x3FF
def clkcrWidbus : Word := 0xC000
def clkcrWidbus0 : Word := 0x4000
def clkcrWidbus1 : Word := 0x8000
def powerPwrctrl : Word := 0x3

def mmcsdPowerOn : BitVec 8 := 2
def mmcsdBusWidth1 : BitVec 8 := 0
def mmcsdBusWidth4 : BitVec 8 := 2
def mmcsdBusWidth8 : BitVec 8 := 3

/-- The fields of struct rt_mmcsd_io_cfg the driver reads. -/
structure MmcsdIoCfg where
  clock : Word
  powerMode : BitVec 8
  busWidth : BitVec 8
  deriving DecidableEq, Repr

/-- The limits of struct rt_mmcsd_host. -/
structure MmcsdHost where
  freqMin : Word
  freqMax : Word
  deriving DecidableEq, Repr

/-- As `sdio_host_create` sets them. -/
def sdioHost : MmcsdHost := ⟨400 * 1000, sdioMaxFreq⟩

/-- The two registers the setting writes. -/
structure IoRegs where
  power : Word
  clkcr : Word
  deriving DecidableEq, Repr

/-! ## rthw_sdio_iocfg -/

/-- DIV_ROUND_UP. -/
def divRoundUp (n d : Word) : Word := (n + d - 1) / d

def limitClock (host : MmcsdHost) (clk : Word) : Word :=
  if clk > host.freqMax then host.freqMax else clk

/-- `temp` for a clock other than 0. -/
def divider (host : MmcsdHost) (clk : Word) : Word :=
  let temp := divRoundUp sdioClockFreq (2 * limitClock host clk)
  if temp > 0x3FF then 0x3FF else temp

/-- The bits the width adds to `temp`. -/
def widthBits (busWidth : BitVec 8) : Word :=
  if busWidth = mmcsdBusWidth4 then clkcrWidbus0
  else if busWidth = mmcsdBusWidth8 then clkcrWidbus1
  else 0

/-- `stack` is what `temp` holds before anything is assigned to it. -/
def rthwSdioIocfg (stack : Word) (host : MmcsdHost) (ioCfg : MmcsdIoCfg) (hwSdio : IoRegs) :
    IoRegs :=
  let temp := if ioCfg.clock > 0 then divider host ioCfg.clock else stack
  let temp := temp ||| widthBits ioCfg.busWidth
  let hwSdio := { hwSdio with clkcr := temp }
  if ioCfg.powerMode = mmcsdPowerOn then { hwSdio with power := hwSdio.power ||| powerPwrctrl }
  else hwSdio

/-! ## The divider -/

/-- The dividers that fit the field and give a card clock of `clk` or less. -/
def SlowEnough (clk : Nat) : Set Nat :=
  {d | 1 ≤ d ∧ d ≤ 1023 ∧ sdioClockFreq.toNat ≤ 2 * d * clk}

/-- The least of them, or the largest the field takes. -/
def BestDivider (clk d : Nat) : Prop :=
  IsLeast (SlowEnough clk) d ∨ (SlowEnough clk = ∅ ∧ d = 1023)

theorem divRoundUp_toNat {n d : Word} (hd : 0 < d.toNat) (h : n.toNat + d.toNat ≤ 2 ^ 32) :
    (divRoundUp n d).toNat = n.toNat ⌈/⌉ d.toNat := by
  have hsub : (n + d - 1).toNat = n.toNat + d.toNat - 1 := by bv_omega
  rw [divRoundUp, BitVec.toNat_udiv, hsub, Nat.ceilDiv_eq_add_pred_div]

theorem limitClock_toNat (host : MmcsdHost) (clk : Word) :
    (limitClock host clk).toNat = min clk.toNat host.freqMax.toNat :=
  toNat_limitAbove clk host.freqMax

theorem divider_toNat {host : MmcsdHost} {clk : Word} (hclk : 0 < clk.toNat)
    (hmin : 0 < host.freqMax.toNat) (hmax : host.freqMax.toNat ≤ 10 ^ 9) :
    (divider host clk).toNat =
      min 1023 (sdioClockFreq.toNat ⌈/⌉ (2 * min clk.toNat host.freqMax.toNat)) := by
  have hlimit := limitClock_toNat host clk
  have htwo : (2 * limitClock host clk).toNat = 2 * min clk.toNat host.freqMax.toNat := by
    rw [← hlimit]
    bv_omega
  have hdiv := @divRoundUp_toNat sdioClockFreq (2 * limitClock host clk) (by omega)
    (by rw [htwo]; change 200000000 + _ ≤ _; omega)
  rw [htwo] at hdiv
  rw [divider, toNat_limitAbove, hdiv]
  exact Nat.min_comm _ _

theorem mem_slowEnough_iff {clk d : Nat} (hclk : 0 < clk) :
    d ∈ SlowEnough clk ↔ d ≤ 1023 ∧ sdioClockFreq.toNat ⌈/⌉ (2 * clk) ≤ d := by
  rw [ceilDiv_le_iff_le_mul (by omega), Nat.mul_right_comm 2 clk d]
  change 1 ≤ d ∧ d ≤ 1023 ∧ _ ↔ _
  refine ⟨fun h => h.2, fun h => ⟨?_, h⟩⟩
  rcases Nat.eq_zero_or_pos d with hd | hd
  · rw [hd] at h
    exact absurd h.2 (by change ¬ 200000000 ≤ _; omega)
  · exact hd

theorem bestDivider {clk : Nat} (hclk : 0 < clk) :
    BestDivider clk (min 1023 (sdioClockFreq.toNat ⌈/⌉ (2 * clk))) := by
  by_cases hfits : sdioClockFreq.toNat ⌈/⌉ (2 * clk) ≤ 1023
  · rw [Nat.min_eq_right hfits]
    refine .inl ⟨(mem_slowEnough_iff hclk).mpr ⟨hfits, Nat.le_refl _⟩, ?_⟩
    intro d hd
    exact ((mem_slowEnough_iff hclk).mp hd).2
  · rw [Nat.min_eq_left (by omega)]
    refine .inr ⟨Set.eq_empty_of_forall_notMem ?_, rfl⟩
    intro d hd
    have := (mem_slowEnough_iff hclk).mp hd
    omega

/-! ## The clock register -/

/-- Width bits for the width, the best divider for the clock, and nothing else. -/
structure ClkcrOk (host : MmcsdHost) (ioCfg : MmcsdIoCfg) (clkcr : Word) : Prop where
  width : (ioCfg.busWidth = mmcsdBusWidth4 ∧ clkcr &&& clkcrWidbus = clkcrWidbus0) ∨
    (ioCfg.busWidth = mmcsdBusWidth8 ∧ clkcr &&& clkcrWidbus = clkcrWidbus1) ∨
    (ioCfg.busWidth ≠ mmcsdBusWidth4 ∧ ioCfg.busWidth ≠ mmcsdBusWidth8 ∧
      clkcr &&& clkcrWidbus = 0)
  range : 1 ≤ (clkcr &&& clkcrClkdiv).toNat ∧ (clkcr &&& clkcrClkdiv).toNat ≤ 1023
  divider : BestDivider (min ioCfg.clock.toNat host.freqMax.toNat) (clkcr &&& clkcrClkdiv).toNat
  rest : clkcr &&& ~~~(clkcrClkdiv ||| clkcrWidbus) = 0

theorem and_clkdiv {temp : Word} (h : temp.toNat ≤ 1023) : temp &&& clkcrClkdiv = temp := by
  refine BitVec.eq_of_toNat_eq ?_
  rw [BitVec.toNat_and]
  change temp.toNat &&& (2 ^ 10 - 1) = temp.toNat
  rw [Nat.and_two_pow_sub_one_eq_mod]
  omega

/-- A divider under a mask that has none of the divider's bits. -/
theorem and_disjoint {temp mask : Word} (h : temp.toNat ≤ 1023) (hmask : clkcrClkdiv &&& mask = 0) :
    temp &&& mask = 0 := by
  rw [← and_clkdiv h, BitVec.and_assoc, hmask]
  exact BitVec.and_zero

theorem widthBits_cases (busWidth : BitVec 8) :
    (busWidth = mmcsdBusWidth4 ∧ widthBits busWidth = clkcrWidbus0) ∨
      (busWidth = mmcsdBusWidth8 ∧ widthBits busWidth = clkcrWidbus1) ∨
      (busWidth ≠ mmcsdBusWidth4 ∧ busWidth ≠ mmcsdBusWidth8 ∧ widthBits busWidth = 0) := by
  unfold widthBits
  by_cases h4 : busWidth = mmcsdBusWidth4
  · exact .inl ⟨h4, if_pos h4⟩
  · by_cases h8 : busWidth = mmcsdBusWidth8
    · exact .inr (.inl ⟨h8, by rw [if_neg h4, if_pos h8]⟩)
    · exact .inr (.inr ⟨h4, h8, by rw [if_neg h4, if_neg h8]⟩)

theorem widthBits_and (busWidth : BitVec 8) :
    widthBits busWidth &&& clkcrWidbus = widthBits busWidth ∧
      widthBits busWidth &&& clkcrClkdiv = 0 ∧
      widthBits busWidth &&& ~~~(clkcrClkdiv ||| clkcrWidbus) = 0 := by
  obtain ⟨-, h⟩ | ⟨-, h⟩ | ⟨-, -, h⟩ := widthBits_cases busWidth
  all_goals
    rw [h]
    decide

theorem iocfg_clkcr (stack : Word) (host : MmcsdHost) {ioCfg : MmcsdIoCfg} (hwSdio : IoRegs)
    (h : 0 < ioCfg.clock) :
    (rthwSdioIocfg stack host ioCfg hwSdio).clkcr =
      divider host ioCfg.clock ||| widthBits ioCfg.busWidth := by
  unfold rthwSdioIocfg
  rw [if_pos h]
  dsimp only
  split <;> rfl

theorem clkcrOk {host : MmcsdHost} (hmin : 0 < host.freqMax.toNat)
    (hmax : host.freqMax.toNat ≤ 10 ^ 9) {ioCfg : MmcsdIoCfg} (h : 0 < ioCfg.clock) :
    ClkcrOk host ioCfg (divider host ioCfg.clock ||| widthBits ioCfg.busWidth) := by
  have hpos : 0 < ioCfg.clock.toNat := h
  have hdivider := divider_toNat hpos hmin hmax
  have hbest := @bestDivider (min ioCfg.clock.toNat host.freqMax.toNat) (by omega)
  rw [← hdivider] at hbest
  have hle : (divider host ioCfg.clock).toNat ≤ 1023 := by omega
  obtain ⟨hwidbus, hclkdiv, hrest⟩ := widthBits_and ioCfg.busWidth
  have hfield : (divider host ioCfg.clock ||| widthBits ioCfg.busWidth) &&& clkcrClkdiv =
      divider host ioCfg.clock := by
    rw [BitVec.and_or_distrib_right, and_clkdiv hle, hclkdiv]
    exact BitVec.or_zero
  have hwidth : (divider host ioCfg.clock ||| widthBits ioCfg.busWidth) &&& clkcrWidbus =
      widthBits ioCfg.busWidth := by
    rw [BitVec.and_or_distrib_right, and_disjoint hle (by decide), hwidbus]
    exact BitVec.zero_or
  constructor
  case width =>
    rw [hwidth]
    exact widthBits_cases ioCfg.busWidth
  case range =>
    rw [hfield]
    obtain hleast | ⟨-, hlargest⟩ := hbest
    · exact ⟨hleast.1.1, hle⟩
    · exact ⟨by omega, hle⟩
  case divider =>
    rw [hfield]
    exact hbest
  case rest =>
    rw [BitVec.and_or_distrib_right, and_disjoint hle (by decide), hrest]
    exact BitVec.zero_or

/-- For every setting with a clock, the register does not depend on what was on the stack. -/
theorem iocfg_spec (stack : Word) (ioCfg : MmcsdIoCfg) (hwSdio : IoRegs) (h : 0 < ioCfg.clock) :
    (∀ (stack' : Word) (hwSdio' : IoRegs),
      (rthwSdioIocfg stack' sdioHost ioCfg hwSdio').clkcr =
        (rthwSdioIocfg stack sdioHost ioCfg hwSdio).clkcr) ∧
      ClkcrOk sdioHost ioCfg (rthwSdioIocfg stack sdioHost ioCfg hwSdio).clkcr := by
  refine ⟨fun stack' hwSdio' => ?_, ?_⟩
  · rw [iocfg_clkcr stack' sdioHost hwSdio' h, iocfg_clkcr stack sdioHost hwSdio h]
  · rw [iocfg_clkcr stack sdioHost hwSdio h]
    exact clkcrOk (by decide) (by decide) h

/-- The last setting of `mmcsd_power_up`, and the one of a card at 25 MHz on four lines: the first
    keeps nothing of the second. -/
theorem iocfg_spec_powerUp :
    ClkcrOk sdioHost ⟨400000, mmcsdPowerOn, mmcsdBusWidth1⟩
        (rthwSdioIocfg 0 sdioHost ⟨400000, mmcsdPowerOn, mmcsdBusWidth1⟩ ⟨0, 0⟩).clkcr ∧
      ClkcrOk sdioHost ⟨25000000, mmcsdPowerOn, mmcsdBusWidth4⟩
        (rthwSdioIocfg 7 sdioHost ⟨25000000, mmcsdPowerOn, mmcsdBusWidth4⟩ ⟨3, 0xFA⟩).clkcr :=
  ⟨(iocfg_spec 0 ⟨400000, mmcsdPowerOn, mmcsdBusWidth1⟩ ⟨0, 0⟩ (by decide)).2,
    (iocfg_spec 7 ⟨25000000, mmcsdPowerOn, mmcsdBusWidth4⟩ ⟨3, 0xFA⟩ (by decide)).2⟩

/-- At 1 Hz the card clock is too fast; at clock 0 the register is the stack's. -/
theorem iocfg_fails_slow :
    (¬ ∀ (stack : Word) (ioCfg : MmcsdIoCfg) (hwSdio : IoRegs), 0 < ioCfg.clock →
      ((rthwSdioIocfg stack sdioHost ioCfg hwSdio).clkcr &&& clkcrClkdiv).toNat ∈
        SlowEnough (min ioCfg.clock.toNat sdioHost.freqMax.toNat)) ∧
    ¬ ∀ (stack stack' : Word) (ioCfg : MmcsdIoCfg) (hwSdio : IoRegs),
      (rthwSdioIocfg stack sdioHost ioCfg hwSdio).clkcr =
        (rthwSdioIocfg stack' sdioHost ioCfg hwSdio).clkcr := by
  constructor
  · intro hall
    have hslow := hall 0 ⟨1, mmcsdPowerOn, mmcsdBusWidth1⟩ ⟨0, 0⟩ (by decide)
    exact absurd hslow.2.2 (by decide)
  · intro hall
    exact absurd (hall 0 1 ⟨0, mmcsdPowerOn, mmcsdBusWidth1⟩ ⟨0, 0⟩) (by decide)

end Live2dStm32.Sdio
