import Live2dStm32.Gpio.Irq
import Live2dStm32.Lib.Machine

/-
  The books of the interrupt controller: an EXTI interrupt should be enabled in the NVIC
  exactly while some pin bit that `pin_irq_map` assigns to it is set in
  `pin_irq_enable_mask` (`NvicOk`).

  The grouping is written twice, as data in `pin_irq_map` and by hand in the disable branch,
  and the two preprocessor conditions differ: the L0 is in the first and not in the second.
  `nvicOk_iff`: on every series and every run, the books are right after each call exactly when
  the series is not the L0 or no DISABLE call leaves a bit of the interrupt set without leaving
  one of the lines 5–9 or 10–15 the pin is among. So on every other series they are always
  right.
-/

namespace Live2dStm32.Gpio

open Live2dStm32.Lib Live2dStm32.Hal.Gpio

variable {H : Type}

/-- Every interrupt of `pin_irq_map` is enabled iff a bit assigned to it is set. -/
def NvicOk (soc : Soc) (b : Board H) : Prop :=
  ∀ j < 16, b.nvic (irqnoOf soc.series j) = true ↔
    ∃ k < 16, irqnoOf soc.series k = irqnoOf soc.series j ∧
      b.pinIrqEnableMask.getLsbD k = true

/-- A DISABLE call on a pin that leaves a bit of the pin's interrupt set also leaves one of its
    sub-group 5–9 or 10–15. -/
def LeavesSubgroup (soc : Soc) (b : Board H) : PinOp → Prop
  | .irqEnable pin enabled _ =>
    enabled = pinIrqDisable → IsPin soc pin →
      (∃ k < 16, irqnoOf soc.series k = irqnoOf soc.series (lineNo pin) ∧
        (b.maskWithout (lineNo pin)).getLsbD k = true) →
      ∃ k, SameSubgroup (lineNo pin) k ∧ (b.maskWithout (lineNo pin)).getLsbD k = true
  | _ => True

/-- Two masks with the same bits for interrupt `n`. -/
theorem exists_line_congr {series : SocSeries} {n : IrqN} {m m' : BitVec 32}
    (h : ∀ k, irqnoOf series k = n → m.getLsbD k = m'.getLsbD k) :
    (∃ k < 16, irqnoOf series k = n ∧ m.getLsbD k = true) ↔
      ∃ k < 16, irqnoOf series k = n ∧ m'.getLsbD k = true := by
  constructor
  · intro ⟨k, hk, hi, hb⟩
    exact ⟨k, hk, hi, (h k hi).symm.trans hb⟩
  · intro ⟨k, hk, hi, hb⟩
    exact ⟨k, hk, hi, (h k hi).trans hb⟩

theorem nvicOk_reset (soc : Soc) (hw : H) : NvicOk soc (Board.reset hw) := by
  intro j _
  constructor
  · intro h
    cases h
  · intro ⟨k, _, _, h⟩
    rw [show (Board.reset hw).pinIrqEnableMask.getLsbD k = false from BitVec.getLsbD_zero] at h
    cases h

theorem nvicOk_enabled {soc : Soc} (hal : GpioHal H) {b : Board H} (h : NvicOk soc b) (pin : Int)
    (stack : GpioInit) : NvicOk soc (enabled soc hal b pin stack) := by
  intro j hj
  have hl : lineNo pin < 32 := by have := lineNo_lt pin; omega
  simp only [enabled, halNvicEnableIRQ]
  split
  case isTrue hn =>
    refine iff_of_true rfl ⟨lineNo pin, lineNo_lt pin, hn.symm, ?_⟩
    simp [getLsbD_or_bit _ hl]
  case isFalse hn =>
    rw [h j hj]
    refine exists_line_congr fun k hi => ?_
    -- the new bit belongs to another interrupt
    have hne : lineNo pin ≠ k := fun he => hn (by rw [he]; exact hi.symm)
    simp [getLsbD_or_bit _ hl, hne]

/-! ## Disabling -/

/-- After a disable of line `l` the books are right exactly when turning the interrupt off
    means that no bit assigned to it is left. -/
theorem nvicOk_disabled_iff {soc : Soc} {hal : GpioHal H} {b b' : Board H} {pin : Int}
    (h : NvicOk soc b) (hd : Disabled soc hal b pin b')
    (hsub : ∀ k, Keeps soc.series (lineNo pin) k →
      k < 16 ∧ irqnoOf soc.series k = irqnoOf soc.series (lineNo pin)) :
    NvicOk soc b' ↔ (TurnsOff soc b (lineNo pin) →
      ∀ k < 16, irqnoOf soc.series k = irqnoOf soc.series (lineNo pin) →
        (b.maskWithout (lineNo pin)).getLsbD k = false) := by
  have hl : lineNo pin < 16 := lineNo_lt pin
  have hl' : lineNo pin < 32 := by omega
  have hmask : ∀ k, (b.maskWithout (lineNo pin)).getLsbD k =
      (b.pinIrqEnableMask.getLsbD k && !decide (lineNo pin = k)) :=
    getLsbD_and_not_bit b.pinIrqEnableMask hl'
  constructor
  · intro hok ht k hk hi
    cases hb : (b.maskWithout (lineNo pin)).getLsbD k with
    | false => rfl
    | true =>
      have hon := (hok (lineNo pin) hl).mpr ⟨k, hk, hi, by rw [hd.mask]; exact hb⟩
      rw [hd.off ht, halNvicDisableIRQ, if_pos rfl] at hon
      cases hon
  · intro hoff j hj
    rw [hd.mask]
    by_cases hij : irqnoOf soc.series j = irqnoOf soc.series (lineNo pin)
    · -- the interrupt of the pin
      rw [hij]
      by_cases ht : TurnsOff soc b (lineNo pin)
      · rw [hd.off ht, halNvicDisableIRQ, if_pos rfl]
        refine iff_of_false Bool.false_ne_true ?_
        intro ⟨k, hk, hi, hb⟩
        rw [hoff ht k hk hi] at hb
        cases hb
      · rw [hd.on ht]
        simp only [TurnsOff, not_forall, Bool.not_eq_false] at ht
        obtain ⟨k, hkeep, hb⟩ := ht
        obtain ⟨hk, hi⟩ := hsub k hkeep
        refine iff_of_true ((h _ hl).mpr ⟨k, hk, hi, ?_⟩) ⟨k, hk, hi, hb⟩
        rw [hmask, Bool.and_eq_true] at hb
        exact hb.1
    · -- another interrupt: neither its enable nor its bits change
      have hn : b'.nvic (irqnoOf soc.series j) = b.nvic (irqnoOf soc.series j) := by
        by_cases ht : TurnsOff soc b (lineNo pin)
        · rw [hd.off ht, halNvicDisableIRQ, if_neg hij]
        · rw [hd.on ht]
      rw [hn, h j hj]
      refine exists_line_congr fun k hi => ?_
      have hne : lineNo pin ≠ k := fun he => hij (by rw [← hi, he])
      rw [hmask]
      simp [hne]

/-- The lines that keep the interrupt of `l` on are among its own. -/
theorem keeps_sub (series : SocSeries) {l : Nat} (hl : l < 16) {k : Nat} (h : Keeps series l k) :
    k < 16 ∧ irqnoOf series k = irqnoOf series l := by
  unfold Keeps at h
  split at h
  case isTrue hs =>
    refine ⟨h.2, ?_⟩
    rcases hs with rfl | rfl
    · exact h.1.symm
    · exact h.1.symm
  case isFalse hs =>
    have hk : k < 16 := by unfold SameSubgroup at h; omega
    have h7 : irqno7 k = irqno7 l := ((irqno7_eq_iff hl hk).mpr (Or.inr h)).symm
    have h3 : irqno3 k = irqno3 l := by
      rw [irqno3_eq_iff]
      unfold SameSubgroup at h
      omega
    refine ⟨hk, ?_⟩
    unfold irqnoOf
    split
    · exact h3
    · exact h3
    · exact h3
    · exact h7

/-- Off the L0, a pin that is disabled leaves its interrupt on or unused. -/
theorem turnsOff_sound {soc : Soc} (hs : soc.series ≠ .l0) (b : Board H) {l : Nat} (hl : l < 16)
    (ht : TurnsOff soc b l) {k : Nat} (hk : k < 16)
    (hi : irqnoOf soc.series k = irqnoOf soc.series l) : (b.maskWithout l).getLsbD k = false := by
  by_cases hkl : l = k
  · subst hkl
    rw [Board.maskWithout, getLsbD_and_not_bit _ (by omega)]
    simp
  · apply ht k
    unfold Keeps
    split
    case isTrue hg =>
      refine ⟨?_, hk⟩
      rcases hg with hg | hg
      · rw [hg] at hi
        exact hi.symm
      · rw [hg] at hi
        exact hi.symm
    case isFalse hg =>
      have h7 : irqno7 k = irqno7 l := by
        cases hser : soc.series <;> simp_all [irqnoOf]
      exact ((irqno7_eq_iff hl hk).mp h7.symm).resolve_left hkl

/-- On the L0, whose hand-written masks are those of lines 5–9 and 10–15, it does so exactly when
    a bit of the interrupt that is left means one of the sub-group is. -/
theorem turnsOff_sound_iff {soc : Soc} (hs : soc.series = .l0) (b : Board H) {l : Nat} :
    (TurnsOff soc b l → ∀ k < 16, irqnoOf soc.series k = irqnoOf soc.series l →
        (b.maskWithout l).getLsbD k = false) ↔
      ((∃ k < 16, irqnoOf soc.series k = irqnoOf soc.series l ∧
          (b.maskWithout l).getLsbD k = true) →
        ∃ k, SameSubgroup l k ∧ (b.maskWithout l).getLsbD k = true) := by
  have hkeep : ∀ k, Keeps soc.series l k ↔ SameSubgroup l k := by
    intro k
    unfold Keeps
    rw [hs, if_neg (by decide)]
  have hturns : TurnsOff soc b l ↔
      ¬ ∃ k, SameSubgroup l k ∧ (b.maskWithout l).getLsbD k = true := by
    unfold TurnsOff
    simp only [hkeep, not_exists, not_and, Bool.not_eq_true]
  constructor
  · intro hoff ⟨k, hk, hi, hb⟩
    by_contra hnone
    rw [hoff (hturns.mpr hnone) k hk hi] at hb
    cases hb
  · intro hleft ht k hk hi
    cases hb : (b.maskWithout l).getLsbD k with
    | false => rfl
    | true => exact absurd (hleft ⟨k, hk, hi, hb⟩) (hturns.mp ht)

/-! ## Each call -/

/-- Where the books are right, a call keeps them right exactly under the condition. -/
theorem nvicOk_after_iff (soc : Soc) (hal : GpioHal H) {b : Board H} (h : NvicOk soc b)
    (op : PinOp) : NvicOk soc (after soc hal b op) ↔
      (soc.series = .l0 → LeavesSubgroup soc b op) := by
  cases op with
  | attach pin mode hdr args =>
    refine iff_of_true ?_ fun _ => trivial
    unfold after call
    dsimp only
    by_cases hp : IsPin soc pin
    · rw [attach_pin soc b hp]
      dsimp only
      split_ifs <;> exact h
    · rw [attach_not_pin soc b hp]
      exact h
  | dettach pin =>
    refine iff_of_true ?_ fun _ => trivial
    unfold after call
    dsimp only
    by_cases hp : IsPin soc pin
    · rw [dettach_pin soc b hp]
      split_ifs <;> exact h
    · rw [dettach_not_pin soc b hp]
      exact h
  | irqEnable pin value stack =>
    unfold after call
    dsimp only
    by_cases hp : IsPin soc pin
    case neg =>
      rw [irqEnable_not_pin soc hal b hp]
      exact iff_of_true h fun _ _ hc => absurd hc hp
    case pos =>
      by_cases h1 : value = pinIrqEnable
      · subst h1
        rw [irqEnable_enable soc hal b hp]
        refine iff_of_true ?_ fun _ hc => absurd hc (by decide)
        split_ifs
        · exact h
        · exact nvicOk_enabled hal h pin stack
      by_cases h0 : value = pinIrqDisable
      · subst h0
        obtain ⟨b', he, hd⟩ := irqEnable_disable soc hal b hp stack
        rw [he]
        dsimp only
        rw [nvicOk_disabled_iff h hd fun k => keeps_sub soc.series (lineNo_lt pin)]
        by_cases hs : soc.series = .l0
        · rw [turnsOff_sound_iff hs]
          exact ⟨fun hleft _ _ _ => hleft, fun hleft => hleft hs rfl hp⟩
        · exact iff_of_true (fun ht k hk hi => turnsOff_sound hs b (lineNo_lt pin) ht hk hi)
            fun hc => absurd hc hs
      · rw [irqEnable_other soc hal b hp h1 h0]
        exact iff_of_true h fun _ hc => absurd hc h0

/-! ## Runs -/

/-- For every series, every HAL and every run of calls from reset. -/
theorem nvicOk_iff (soc : Soc) (hal : GpioHal H) (hw : H) (ops : List PinOp) :
    EachStep (after soc hal) (fun b op => NvicOk soc (after soc hal b op)) (Board.reset hw) ops ↔
      EachStep (after soc hal) (fun b op => soc.series = .l0 → LeavesSubgroup soc b op)
        (Board.reset hw) ops :=
  eachStep_iff (NvicOk soc) (fun _ op h => nvicOk_after_iff soc hal h op) (fun _ _ _ h => h)
    (nvicOk_reset soc hw) ops

/-- On an L0, pins PA4 and PA5 share EXTI4_15. Disabling PA4 turns it off under PA5. -/
theorem nvicOk_fails_l0 :
    ¬ ∀ (soc : Soc) (hal : GpioHal GpioHw) (ops : List PinOp),
      EachStep (after soc hal) (fun b op => NvicOk soc (after soc hal b op))
        (Board.reset gpioReset) ops := by
  intro hall
  let soc : Soc := ⟨.l0, 11, Nat.le_refl _⟩
  let stack : GpioInit := ⟨0, 0, 0, 0, 0⟩
  have h := hall soc h7Hal [.attach 4 0 1 0, .attach 5 0 1 0, .irqEnable 4 pinIrqEnable stack,
    .irqEnable 5 pinIrqEnable stack, .irqEnable 4 pinIrqDisable stack]
  obtain ⟨-, -, -, -, hlast, -⟩ := h
  have hon := (hlast 5 (by decide)).mpr ⟨5, by decide, rfl, by decide⟩
  exact absurd hon (by decide)

end Live2dStm32.Gpio
