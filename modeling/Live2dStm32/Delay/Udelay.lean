import Live2dStm32.Delay.Systick
import Live2dStm32.Lib.Loop

/-
  The wait of the software I2C bus (drivers/drv_soft_i2c.c): `stm32_udelay`, which adds up the
  differences between its samples of SysTick->VAL.

  A wrap is taken for LOAD steps and is LOAD + 1. `udelay_spec`: `tcnt` is the number of steps
  less the number of wraps after every sample, and the wait ends at the first sample where that
  reaches its target.
-/

namespace Live2dStm32.Delay.Udelay

open Live2dStm32.Lib

structure State where
  told : BitVec 32
  tcnt : BitVec 32
  deriving DecidableEq, Repr

def ticks (us reload : BitVec 32) : BitVec 32 := us * reload / (1000000 / rtTickPerSecond)

/-- One round of `while (1)`, with the sample it takes. -/
def round (reload ticks : BitVec 32) (s : State) (tnow : BitVec 32) : Round State State :=
  if tnow ≠ s.told then
    let tcnt := if tnow < s.told then s.tcnt + (s.told - tnow)
      else s.tcnt + (reload - tnow + s.told)
    let s := ⟨tnow, tcnt⟩
    if tcnt ≥ ticks then .ends s else .goesOn s
  else .goesOn s

/-- The wait enters its loop with the first sample, and takes the next one in every round. -/
def Enters (systick : SysTick) (us : BitVec 32) (samples : Samples systick) :
    Nat → State → Prop :=
  Loop.Enters (round systick.reload (ticks us systick.reload))
    ⟨systick.val (samples.instant 0), 0⟩ (fun n => systick.val (samples.instant (n + 1)))

def EndsAt (systick : SysTick) (us : BitVec 32) (samples : Samples systick) :
    Nat → State → Prop :=
  Loop.EndsAt (round systick.reload (ticks us systick.reload))
    ⟨systick.val (samples.instant 0), 0⟩ (fun n => systick.val (samples.instant (n + 1)))

/-! ## The law -/

/-- The steps the wait counts: all but the wraps. -/
def counted (systick : SysTick) (e : Nat) : Nat := e - systick.wraps e

/-- Time passes: some sample is as late as one likes. -/
def Unbounded {systick : SysTick} (samples : Samples systick) : Prop :=
  ∀ e, ∃ n, e ≤ samples.instant n

/-- The state after the sample at step `e`. -/
def stateAt (systick : SysTick) (e : Nat) : State :=
  ⟨systick.val e, BitVec.ofNat 32 (counted systick e)⟩

/-! ## One round -/

section Round

variable (systick : SysTick) {e e' : Nat}

theorem counted_add_wraps (e : Nat) : counted systick e + systick.wraps e = e :=
  Nat.sub_add_cancel (DownCounter.wraps_le _ _ _)

/-- What a sample adds, by the counter alone. -/
theorem counted_cases (hle : e ≤ e') (hgap : e' < e + (systick.load.toNat + 1)) :
    (systick.count e' = systick.count e ∧ e' = e) ∨
    (systick.count e' < systick.count e ∧
      counted systick e' = counted systick e + (systick.count e - systick.count e')) ∨
    (systick.count e < systick.count e' ∧ counted systick e' =
      counted systick e + (systick.load.toNat - systick.count e' + systick.count e)) := by
  have hcounted := counted_add_wraps systick e
  have hcounted' := counted_add_wraps systick e'
  have hcount' := systick.count_le e'
  obtain ⟨hval, hwraps, hsteps⟩ | ⟨hval, hwraps, hsteps⟩ :=
    DownCounter.sample_cases systick.startLe hle hgap
  · change systick.count e' ≤ systick.count e at hval
    change systick.wraps e' = systick.wraps e at hwraps
    change e' = e + (systick.count e - systick.count e') at hsteps
    rcases Nat.lt_or_eq_of_le hval with hlt | heq
    · exact .inr (.inl ⟨hlt, by omega⟩)
    · exact .inl ⟨heq, by omega⟩
  · change systick.count e < systick.count e' at hval
    change systick.wraps e' = systick.wraps e + 1 at hwraps
    change e' + systick.count e' = e + systick.count e + (systick.load.toNat + 1) at hsteps
    exact .inr (.inr ⟨hval, by omega⟩)

theorem stateAt_eq_iff {tcnt : BitVec 32} (h : counted systick e < 2 ^ 32) :
    stateAt systick e = ⟨systick.val e, tcnt⟩ ↔ tcnt.toNat = counted systick e := by
  have htcnt : BitVec.ofNat 32 (counted systick e) = tcnt ↔
      tcnt.toNat = counted systick e := by
    rw [← BitVec.toNat_inj, BitVec.toNat_ofNat, Nat.mod_eq_of_lt h]
    exact eq_comm
  rw [stateAt, State.mk.injEq, htcnt]
  exact and_iff_right rfl

theorem tcnt_stateAt (h : counted systick e < 2 ^ 32) :
    (stateAt systick e).tcnt.toNat = counted systick e := by
  rw [stateAt, BitVec.toNat_ofNat, Nat.mod_eq_of_lt h]

/-- A round whose sample has moved, from what it adds up to. -/
theorem round_moved {reload ticks tnow tcnt : BitVec 32} {s : State} (hmoved : tnow ≠ s.told)
    (htcnt : (if tnow < s.told then s.tcnt + (s.told - tnow)
      else s.tcnt + (reload - tnow + s.told)) = tcnt) :
    round reload ticks s tnow =
      if ticks.toNat ≤ tcnt.toNat then .ends ⟨tnow, tcnt⟩ else .goesOn ⟨tnow, tcnt⟩ := by
  rw [round, if_pos hmoved, htcnt]
  rfl

/-- The state of the sample before it gives the state of a sample, and the test. -/
theorem round_stateAt {ticks : BitVec 32} (hle : e ≤ e')
    (hgap : e' < e + (systick.load.toNat + 1)) (hbefore : counted systick e < ticks.toNat)
    (hticks : ticks.toNat < 2 ^ 31) :
    counted systick e' < 2 ^ 32 ∧
      round systick.reload ticks (stateAt systick e) (systick.val e') =
        if ticks.toNat ≤ counted systick e' then .ends (stateAt systick e')
        else .goesOn (stateAt systick e') := by
  have hload := systick.load_lt
  have hcount := systick.count_le e
  have hcount' := systick.count_le e'
  have hval := systick.val_toNat e
  have hval' := systick.val_toNat e'
  have hreload := systick.reload_toNat
  have htcnt := @tcnt_stateAt systick e (by omega)
  have hne : systick.val e' = systick.val e ↔ systick.count e' = systick.count e := by
    rw [← BitVec.toNat_inj, hval, hval']
  have hlt : systick.val e' < systick.val e ↔ systick.count e' < systick.count e := by
    rw [BitVec.lt_def, hval, hval']
  obtain ⟨-, rfl⟩ | ⟨hdown, hcounted⟩ | ⟨hup, hcounted⟩ := counted_cases systick hle hgap
  · -- the counter has not moved
    refine ⟨by omega, ?_⟩
    rw [if_neg (by omega)]
    simp [round, stateAt]
  · have hsmall : counted systick e' < 2 ^ 32 := by omega
    have hadd : ((stateAt systick e).tcnt + (systick.val e - systick.val e')).toNat =
        counted systick e' := by
      rw [BitVec.toNat_add, BitVec.toNat_sub_of_le (BitVec.le_def.mpr (by omega)), htcnt]
      omega
    rw [(stateAt_eq_iff systick hsmall).mpr hadd, ← hadd]
    exact ⟨hadd ▸ hsmall, round_moved (mt hne.mp (by omega)) (if_pos (hlt.mpr hdown))⟩
  · have hsmall : counted systick e' < 2 ^ 32 := by omega
    have hadd : ((stateAt systick e).tcnt +
        (systick.reload - systick.val e' + systick.val e)).toNat = counted systick e' := by
      rw [BitVec.toNat_add, BitVec.toNat_add,
        BitVec.toNat_sub_of_le (BitVec.le_def.mpr (by omega)), htcnt]
      omega
    rw [(stateAt_eq_iff systick hsmall).mpr hadd, ← hadd]
    exact ⟨hadd ▸ hsmall, round_moved (mt hne.mp (by omega)) (if_neg (mt hlt.mp (by omega)))⟩

end Round

/-! ## The whole wait -/

section Wait

variable {systick : SysTick} {us : BitVec 32} {samples : Samples systick} {n : Nat} {s : State}

theorem ticks_toNat (hus : us.toNat * systick.load.toNat < 2 ^ 32) :
    (ticks us systick.reload).toNat = us.toNat * systick.load.toNat / 1000 := by
  have hthousand : (1000000 / rtTickPerSecond : BitVec 32).toNat = 1000 := rfl
  rw [ticks, BitVec.toNat_udiv, BitVec.toNat_mul, systick.reload_toNat, hthousand,
    Nat.mod_eq_of_lt hus]

theorem counted_zero (systick : SysTick) : counted systick 0 = 0 := Nat.zero_sub _

/-- Where a round is entered: in the state of the last sample, below the target. -/
theorem Enters.spec (hticks : (ticks us systick.reload).toNat < 2 ^ 31)
    (hpos : 0 < (ticks us systick.reload).toNat) (h : Enters systick us samples n s) :
    s = stateAt systick (samples.instant n) ∧
      counted systick (samples.instant n) < (ticks us systick.reload).toNat := by
  refine Loop.Enters.invariant (fun n s => s = stateAt systick (samples.instant n) ∧
    counted systick (samples.instant n) < (ticks us systick.reload).toNat) ?_ ?_ h
  · rw [samples.zero, counted_zero]
    refine ⟨?_, hpos⟩
    rw [stateAt, counted_zero]
    rfl
  · intro n t u ⟨ht, hbefore⟩ hnext
    obtain ⟨-, hround⟩ := round_stateAt systick (samples.mono n) (samples.gap n) hbefore hticks
    rw [ht, hround] at hnext
    split at hnext
    case isTrue => simp at hnext
    case isFalse hbelow =>
      exact ⟨(Round.goesOn.inj hnext).symm, Nat.lt_of_not_le hbelow⟩

/-- Where the wait ends: in the state of a sample that reaches the target. -/
theorem EndsAt.spec (hticks : (ticks us systick.reload).toNat < 2 ^ 31)
    (hpos : 0 < (ticks us systick.reload).toNat) (h : EndsAt systick us samples n s) :
    s = stateAt systick (samples.instant (n + 1)) ∧
      counted systick (samples.instant (n + 1)) < 2 ^ 32 ∧
      (ticks us systick.reload).toNat ≤ counted systick (samples.instant (n + 1)) := by
  obtain ⟨t, ht, hends⟩ := h
  obtain ⟨hstate, hbefore⟩ := Enters.spec hticks hpos ht
  obtain ⟨hsmall, hround⟩ := round_stateAt systick (samples.mono n) (samples.gap n) hbefore hticks
  rw [hstate, hround] at hends
  split at hends
  case isTrue hreached => exact ⟨(Round.ends.inj hends).symm, hsmall, hreached⟩
  case isFalse => simp at hends

/-- Late enough, the target is reached whatever the samples. -/
theorem le_counted (hload : 0 < systick.load.toNat) {e T : Nat}
    (he : 2 * T + systick.load.toNat ≤ e) : T ≤ counted systick e := by
  have hwraps : 2 * systick.wraps e ≤ systick.load.toNat + e :=
    DownCounter.two_mul_wraps_le hload systick.startLe e
  unfold counted
  omega

theorem exists_endsAt (hload : 0 < systick.load.toNat) (hunbounded : Unbounded samples)
    (hticks : (ticks us systick.reload).toNat < 2 ^ 31)
    (hpos : 0 < (ticks us systick.reload).toNat) : ∃ n s, EndsAt systick us samples n s := by
  obtain ⟨n, hn⟩ :=
    hunbounded (2 * (ticks us systick.reload).toNat + systick.load.toNat)
  refine @Loop.exists_endsAt_of_not_enters _ _ _ _ _ _ n fun t ht => ?_
  have hbefore := (Enters.spec hticks hpos ht).2
  have := le_counted hload hn
  omega

end Wait

/-- For every LOAD but 0, every starting phase, every delay whose product with LOAD fits, and
    every series of samples less than a period apart. -/
theorem udelay_spec (systick : SysTick) (us : BitVec 32) (samples : Samples systick)
    (hload : 0 < systick.load.toNat) (hunbounded : Unbounded samples)
    (hus : us.toNat * systick.load.toNat < 2 ^ 32)
    (hT : 0 < us.toNat * systick.load.toNat / 1000) :
    let E := samples.instant
    let w := fun n => systick.wraps (E n)
    let T := us.toNat * systick.load.toNat / 1000
    (∀ n s, Enters systick us samples n s → s.tcnt.toNat + w n = E n) ∧
      ∃ n s, EndsAt systick us samples n s ∧ s.tcnt.toNat + w (n + 1) = E (n + 1) ∧
        T ≤ E (n + 1) - w (n + 1) ∧ (∀ m ≤ n, E m - w m < T) ∧
        T ≤ E (n + 1) ∧ E (n + 1) ≤ T + (E (n + 1) - E n) + w (n + 1) := by
  intro E w T
  have hticks : (ticks us systick.reload).toNat = T := ticks_toNat hus
  have hsmall : (ticks us systick.reload).toNat < 2 ^ 31 := by
    rw [hticks]
    omega
  have hpos : 0 < (ticks us systick.reload).toNat := by
    rw [hticks]
    exact hT
  constructor
  · intro n s hs
    obtain ⟨rfl, hbefore⟩ := Enters.spec hsmall hpos hs
    rw [tcnt_stateAt systick (by omega)]
    exact counted_add_wraps systick (E n)
  · obtain ⟨n, s, hends⟩ := exists_endsAt hload hunbounded hsmall hpos
    obtain ⟨hstate, hcounted, hreached⟩ := EndsAt.spec hsmall hpos hends
    have hfirst : ∀ m ≤ n, counted systick (E m) < T := by
      intro m hm
      obtain ⟨t, ht, -⟩ := hends
      obtain ⟨u, hu⟩ := ht.of_le hm
      exact hticks ▸ (Enters.spec hsmall hpos hu).2
    have hadd := counted_add_wraps systick (E (n + 1))
    have hlast : counted systick (E n) < T := hfirst n (Nat.le_refl n)
    have hmono : w n ≤ w (n + 1) := DownCounter.wraps_mono _ _ (samples.mono n)
    have hbefore := counted_add_wraps systick (E n)
    refine ⟨n, s, hends, ?_, ?_, hfirst, ?_, ?_⟩
    · rw [hstate, tcnt_stateAt systick hcounted]
      exact hadd
    · exact hticks ▸ hreached
    · rw [hticks] at hreached
      exact Nat.le_trans hreached (Nat.sub_le _ _)
    · change systick.wraps (E n) ≤ systick.wraps (E (n + 1)) at hmono
      change E (n + 1) ≤ T + (E (n + 1) - E n) + systick.wraps (E (n + 1))
      have := samples.mono n
      change E n ≤ E (n + 1) at this
      omega

/-- 10 µs at 240 MHz. -/
theorem udelay_spec_240 : ∃ n s, EndsAt systick240 10 everyHundred n s ∧
    s.tcnt.toNat + systick240.wraps (everyHundred.instant (n + 1)) =
      everyHundred.instant (n + 1) := by
  have hunbounded : Unbounded everyHundred := fun e => ⟨e, by change e ≤ e * 100; omega⟩
  obtain ⟨n, s, hends, htcnt, -⟩ :=
    (udelay_spec systick240 10 everyHundred (by decide) hunbounded (by decide) (by decide)).2
  exact ⟨n, s, hends, htcnt⟩

end Live2dStm32.Delay.Udelay
