import Live2dStm32.Hal.Dma
import Live2dStm32.Kernel.Semaphore
import Live2dStm32.Lib.Machine

/-
  The independent watchdog (drivers/drv_wdt.c): `rt_wdt_init` and `wdt_control`, over
  `HAL_IWDG_Init` and `HAL_IWDG_Refresh` (stm32h7xx_hal_iwdg.c). LSI_VALUE is 32000, so a
  timeout of `s` seconds is a reload value of 125 s, and the largest is 32 s.

  `wdt_control` stores the reload value before it checks it, and computes it in 32 bits.
  `timeoutsOk_iff`: the timeout state is right in a run of commands exactly when no command of
  the run asks for more than 32 s. A larger timeout is either refused after it was stored, or
  accepted because its product wrapped.
-/

namespace Live2dStm32.Wdt

open Live2dStm32.Kernel Live2dStm32.Lib
open Live2dStm32.Hal.Dma (HalStatus)

def lsiValue : BitVec 32 := 32000
def iwdgPrescaler256 : BitVec 32 := 6

structure IwdgInit where
  prescaler : BitVec 32
  reload : BitVec 32
  window : BitVec 32
  deriving DecidableEq, Repr

/-- The registers of the watchdog and its counter. -/
structure Iwdg where
  started : Bool
  pr : BitVec 32
  rlr : BitVec 32
  winr : BitVec 32
  counter : BitVec 32
  deriving DecidableEq, Repr

/-- `programmed` records the reload values `HAL_IWDG_Init` was called with. -/
structure Stm32WdtObj where
  init : IwdgInit
  isStart : BitVec 16
  iwdg : Iwdg
  programmed : List (BitVec 32)
  deriving DecidableEq, Repr

/-- `rt_wdt_init`. -/
def rtWdtInit (iwdg : Iwdg) : Stm32WdtObj where
  init := ⟨iwdgPrescaler256, 0x00000FFF, 0x00000FFF⟩
  isStart := 0
  iwdg := iwdg
  programmed := []

def halIwdgRefresh (wdt : Stm32WdtObj) : Stm32WdtObj × HalStatus :=
  ({ wdt with iwdg := { wdt.iwdg with counter := wdt.iwdg.rlr } }, .ok)

/-- `updated`: SR clears before the time limit. Writing WINR reloads the counter too. -/
def halIwdgInit (updated : Bool) (wdt : Stm32WdtObj) : Stm32WdtObj × HalStatus :=
  let iwdg := { wdt.iwdg with started := true, pr := wdt.init.prescaler, rlr := wdt.init.reload }
  let wdt := { wdt with programmed := wdt.init.reload :: wdt.programmed }
  if updated then
    ({ wdt with iwdg := { iwdg with winr := wdt.init.window, counter := iwdg.rlr } }, .ok)
  else ({ wdt with iwdg }, .timeout)

inductive WdtCmd where
  | keepalive
  | setTimeout (s : BitVec 32)
  | getTimeout
  | start
  | other
  deriving DecidableEq, Repr

/-- The second result is the returned code, the third what is written to `arg`. -/
def wdtControl (updated : Bool) (wdt : Stm32WdtObj) :
    WdtCmd → Stm32WdtObj × Int × Option (BitVec 32)
  | .keepalive => ((halIwdgRefresh wdt).1, rtEok, none)
  | .setTimeout s =>
    let wdt := if lsiValue ≠ 0 then
        { wdt with init := { wdt.init with reload := s * lsiValue / 256 } }
      else wdt
    if 0xFFF < wdt.init.reload then (wdt, -rtEinval, none)
    else if wdt.isStart ≠ 0 then
      match halIwdgInit updated wdt with
      | (wdt, .ok) => (wdt, rtEok, none)
      | (wdt, _) => (wdt, -rtError, none)
    else (wdt, rtEok, none)
  | .getTimeout =>
    (wdt, rtEok, if lsiValue ≠ 0 then some (wdt.init.reload * 256 / lsiValue) else none)
  | .start =>
    match halIwdgInit updated wdt with
    | (wdt, .ok) => ({ wdt with isStart := 1 }, rtEok, none)
    | (wdt, _) => (wdt, -rtError, none)
  | .other => (wdt, -rtError, none)

/-! ## The law -/

/-- The driver, and the last timeout it accepted. -/
structure Session where
  wdt : Stm32WdtObj
  accepted : Option (BitVec 32)
  deriving DecidableEq, Repr

def Session.boot (iwdg : Iwdg) : Session := ⟨rtWdtInit iwdg, none⟩

/-- A command, with `HAL_IWDG_Init` in time. -/
def after (c : Session) (cmd : WdtCmd) : Session :=
  let (wdt, err, _) := wdtControl true c.wdt cmd
  ⟨wdt, match cmd with
    | .setTimeout s => if err = rtEok then some s else c.accepted
    | _ => c.accepted⟩

/-- The reload value fits its register, now and whenever it was programmed. -/
structure ReloadOk (wdt : Stm32WdtObj) : Prop where
  reload : wdt.init.reload.toNat ≤ 0xFFF
  programmed : ∀ r ∈ wdt.programmed, r.toNat ≤ 0xFFF

/-- What a command should do. The timeout in units of the reload value is `s * LSI / 256`,
    without wrapping. -/
def TimeoutOk (c : Session) (cmd : WdtCmd) : Prop :=
  ReloadOk (after c cmd).wdt ∧
    match cmd with
    | .setTimeout s =>
      ((wdtControl true c.wdt cmd).2.1 = rtEok ↔ s.toNat * lsiValue.toNat / 256 ≤ 0xFFF) ∧
        ((wdtControl true c.wdt cmd).2.1 ≠ rtEok →
          (after c cmd).wdt.init.reload = c.wdt.init.reload ∧
            (after c cmd).wdt.iwdg = c.wdt.iwdg)
    | .getTimeout => ∀ s, c.accepted = some s → (wdtControl true c.wdt cmd).2.2 = some s
    | _ => True

/-- A timeout of at most 32 s. -/
def Short : WdtCmd → Prop
  | .setTimeout s => s.toNat ≤ 32
  | _ => True

/-! ## Each command -/

structure Inv (c : Session) : Prop where
  ok : ReloadOk c.wdt
  reload : ∀ s, c.accepted = some s → s.toNat ≤ 32 ∧ c.wdt.init.reload.toNat = 125 * s.toNat

theorem inv_boot (iwdg : Iwdg) : Inv (Session.boot iwdg) :=
  ⟨⟨Nat.le_refl _, fun _ h => (nomatch h)⟩, fun _ h => (nomatch h)⟩

theorem ReloadOk.programmed_cons {wdt : Stm32WdtObj} (h : ReloadOk wdt) :
    ∀ r ∈ wdt.init.reload :: wdt.programmed, r.toNat ≤ 0xFFF :=
  List.forall_mem_cons.mpr ⟨h.reload, h.programmed⟩

/-- The product of a short timeout does not wrap. -/
theorem reload_short {s : BitVec 32} (h : s.toNat ≤ 32) :
    (s * lsiValue / 256).toNat = 125 * s.toNat := by
  rw [BitVec.toNat_udiv, BitVec.toNat_mul]
  change s.toNat * 32000 % 2 ^ 32 / 256 = 125 * s.toNat
  rw [Nat.mod_eq_of_lt (by omega)]
  omega

/-- What a SET_TIMEOUT does, by the reload value it computes. -/
theorem setTimeout_cases (wdt : Stm32WdtObj) (s : BitVec 32) :
    (0xFFF < (s * lsiValue / 256).toNat ∧ wdtControl true wdt (.setTimeout s) =
        ({ wdt with init := { wdt.init with reload := s * lsiValue / 256 } }, -rtEinval, none)) ∨
      ((s * lsiValue / 256).toNat ≤ 0xFFF ∧ ∃ iwdg programmed,
        (programmed = wdt.programmed ∨ programmed = s * lsiValue / 256 :: wdt.programmed) ∧
        wdtControl true wdt (.setTimeout s) =
          ({ wdt with init := { wdt.init with reload := s * lsiValue / 256 }, iwdg, programmed },
            rtEok, none)) := by
  unfold wdtControl
  dsimp only
  rw [if_pos (by decide : lsiValue ≠ 0)]
  by_cases hlt : (0xFFF : BitVec 32) < s * lsiValue / 256
  · exact .inl ⟨hlt, if_pos hlt⟩
  · refine .inr ⟨Nat.not_lt.mp hlt, ?_⟩
    rw [if_neg hlt]
    by_cases hstart : wdt.isStart = 0
    · exact ⟨wdt.iwdg, wdt.programmed, .inl rfl, if_neg (not_not.mpr hstart)⟩
    · rw [if_pos hstart]
      exact ⟨_, _, .inr rfl, rfl⟩

theorem after_setTimeout {c : Session} {s : BitVec 32} {wdt : Stm32WdtObj} {err : Int}
    (he : wdtControl true c.wdt (.setTimeout s) = (wdt, err, none)) :
    after c (.setTimeout s) = ⟨wdt, if err = rtEok then some s else c.accepted⟩ := by
  rw [after, he]

theorem setTimeout_iff {c : Session} (h : Inv c) (s : BitVec 32) :
    TimeoutOk c (.setTimeout s) ↔ s.toNat ≤ 32 := by
  rcases setTimeout_cases c.wdt s with ⟨hlt, he⟩ | ⟨hle, iwdg, programmed, hp, he⟩
  · -- refused, but stored
    refine iff_of_false (fun hok => ?_) fun hshort => ?_
    case refine_2 =>
      rw [reload_short hshort] at hlt
      omega
    have hreload := hok.1.reload
    rw [after_setTimeout he] at hreload
    exact absurd hreload (Nat.not_le.mpr hlt)
  · have hlsi : lsiValue.toNat = 32000 := rfl
    unfold TimeoutOk
    rw [after_setTimeout he]
    dsimp only
    rw [he, hlsi]
    constructor
    · intro ⟨_, hiff, _⟩
      have := hiff.mp rfl
      omega
    · intro hshort
      refine ⟨⟨hle, fun r hr => ?_⟩, iff_of_true rfl (by omega), fun hne => absurd rfl hne⟩
      rcases hp with rfl | rfl
      · exact h.ok.programmed r hr
      · rcases List.mem_cons.mp hr with rfl | hr
        · exact hle
        · exact h.ok.programmed r hr

/-- The reload value of an accepted timeout reads back as the timeout. -/
theorem getTimeout_accepted {c : Session} (h : Inv c) : TimeoutOk c .getTimeout := by
  refine ⟨h.ok, fun s hs => ?_⟩
  obtain ⟨hle, hreload⟩ := h.reload s hs
  have hback : c.wdt.init.reload * 256 / lsiValue = s := by
    apply BitVec.eq_of_toNat_eq
    rw [BitVec.toNat_udiv, BitVec.toNat_mul, hreload]
    change 125 * s.toNat * 256 % 2 ^ 32 / 32000 = s.toNat
    omega
  change (if lsiValue ≠ 0 then some (c.wdt.init.reload * 256 / lsiValue) else none) = some s
  rw [if_pos (by decide : lsiValue ≠ 0), hback]

theorem timeoutOk_iff {c : Session} (h : Inv c) (cmd : WdtCmd) : TimeoutOk c cmd ↔ Short cmd := by
  cases cmd with
  | keepalive => exact iff_of_true ⟨⟨h.ok.reload, h.ok.programmed⟩, trivial⟩ trivial
  | setTimeout s => exact setTimeout_iff h s
  | getTimeout => exact iff_of_true (getTimeout_accepted h) trivial
  | start => exact iff_of_true ⟨⟨h.ok.reload, h.ok.programmed_cons⟩, trivial⟩ trivial
  | other => exact iff_of_true ⟨h.ok, trivial⟩ trivial

/-- A command that does what it should keeps the invariant. -/
theorem inv_after {c : Session} (h : Inv c) {cmd : WdtCmd} (hok : TimeoutOk c cmd) :
    Inv (after c cmd) := by
  refine ⟨hok.1, ?_⟩
  cases cmd with
  | setTimeout s =>
    have hshort := (setTimeout_iff h s).mp hok
    have hr := reload_short hshort
    rcases setTimeout_cases c.wdt s with ⟨hlt, he⟩ | ⟨-, iwdg, programmed, -, he⟩
    · omega
    · rw [after_setTimeout he, if_pos rfl]
      intro s' hs'
      obtain rfl := Option.some.inj hs'
      exact ⟨hshort, hr⟩
  | keepalive => exact h.reload
  | getTimeout => exact h.reload
  | start => exact h.reload
  | other => exact h.reload

/-! ## Runs -/

/-- For every run of commands from `rt_wdt_init`. -/
theorem timeoutsOk_iff (iwdg : Iwdg) (cmds : List WdtCmd) :
    EachStep after TimeoutOk (Session.boot iwdg) cmds ↔
      ∀ s, WdtCmd.setTimeout s ∈ cmds → s.toNat ≤ 32 := by
  rw [eachStep_iff Inv (fun c cmd h => timeoutOk_iff h cmd) (fun _ _ h hok => inv_after h hok)
    (inv_boot iwdg) cmds, eachStep_label_iff]
  constructor
  · intro h s hs
    exact h _ hs
  · intro h cmd hcmd
    cases cmd with
    | setTimeout s => exact h s hcmd
    | _ => trivial

/-- 2^27 s: the product wraps to 0, which is accepted. -/
theorem timeoutsOk_fails_wrap : ¬ ∀ (iwdg : Iwdg) (cmds : List WdtCmd),
    EachStep after TimeoutOk (Session.boot iwdg) cmds := by
  intro h
  obtain ⟨⟨-, hiff, -⟩, -⟩ := h ⟨false, 0, 0xFFF, 0xFFF, 0xFFF⟩ [.setTimeout 0x8000000]
  have := hiff.mp (by decide)
  exact absurd this (by decide)

end Live2dStm32.Wdt
