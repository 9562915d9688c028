import Mathlib.Tactic.Common

/-
  SD card hot plug (drivers/filesystem.c): the thread `sd_mount`, which reads SD_CHECK_PIN once
  at start-up and then polls it. The levels are a stream, one for each `rt_pin_read`; the loop
  reads it once or twice in an iteration.

  `hotPlugOk_iff`: the calls of `_sdcard_mount` and `_sdcard_unmount` alternate and agree with
  the pin exactly when the pin is low at the start-up read. The start-up branch mounts on a high
  level, the loop on a low one, and `re_sd_check_pin` does not remember the mount.
-/

namespace Live2dStm32.App.HotPlug

/-- PIN_LOW and PIN_HIGH. -/
inductive Level where
  | low
  | high
  deriving DecidableEq, Repr

/-- What `rt_pin_read` returns, in an `rt_uint8_t`. -/
def Level.byte : Level → BitVec 8
  | .low => 0
  | .high => 1

@[simp] theorem Level.byte_eq_zero_iff (l : Level) : l.byte = 0 ↔ l = .low := by
  cases l <;> decide

inductive Call where
  | mount
  | unmount
  deriving DecidableEq, Repr

/-- `reads` counts the calls of `rt_pin_read`; `calls` has the latest first. -/
structure Poll where
  reSdCheckPin : BitVec 8
  reads : Nat
  calls : List Call
  deriving DecidableEq, Repr

/-- `re_sd_check_pin = rt_pin_read(SD_CHECK_PIN)`. -/
def Poll.readPin (levels : Nat → Level) (s : Poll) : Poll :=
  { s with reSdCheckPin := (levels s.reads).byte, reads := s.reads + 1 }

def Poll.call (c : Call) (s : Poll) : Poll := { s with calls := c :: s.calls }

/-- `sd_mount` up to its loop. The level read here is not kept. -/
def begin (levels : Nat → Level) : Poll :=
  let s : Poll := ⟨1, 1, []⟩
  if (levels 0).byte ≠ 0 then s.call .mount else s

/-- `if (!re_sd_check_pin && (re_sd_check_pin = rt_pin_read(..)) != 0)`. -/
def checkRemoved (levels : Nat → Level) (s : Poll) : Poll :=
  if s.reSdCheckPin = 0 then
    let s := s.readPin levels
    if s.reSdCheckPin ≠ 0 then s.call .unmount else s
  else s

/-- `if (re_sd_check_pin && (re_sd_check_pin = rt_pin_read(..)) == 0)`. -/
def checkInserted (levels : Nat → Level) (s : Poll) : Poll :=
  if s.reSdCheckPin ≠ 0 then
    let s := s.readPin levels
    if s.reSdCheckPin = 0 then s.call .mount else s
  else s

def iteration (levels : Nat → Level) (s : Poll) : Poll :=
  checkInserted levels (checkRemoved levels s)

/-- `sd_mount` after `n` iterations of its loop. -/
def sdMount (levels : Nat → Level) : Nat → Poll
  | 0 => begin levels
  | n + 1 => iteration levels (sdMount levels n)

/-! ## The law -/

/-- The card is mounted: the latest call is a mount. -/
def mounted : List Call → Bool
  | .mount :: _ => true
  | _ => false

/-- No mount while mounted, no unmount while not. The first call is then a mount. -/
def Alternates : List Call → Prop
  | [] => True
  | .mount :: cs => mounted cs = false ∧ Alternates cs
  | .unmount :: cs => mounted cs = true ∧ Alternates cs

/-- At every moment the calls so far alternate, and after an iteration the card is mounted
    exactly when the latest level read is low. -/
def HotPlugOk (levels : Nat → Level) : Prop :=
  ∀ n, Alternates (sdMount levels n).calls ∧
    (0 < n → (mounted (sdMount levels n).calls = true ↔
      levels ((sdMount levels n).reads - 1) = .low))

/-! ## The loop -/

/-- What the loop keeps: `re_sd_check_pin` says whether the card is mounted. -/
structure Inv (s : Poll) : Prop where
  alternates : Alternates s.calls
  mounted : mounted s.calls = true ↔ s.reSdCheckPin = 0

/-- `re_sd_check_pin` is the latest level read. -/
def Latest (levels : Nat → Level) (s : Poll) : Prop :=
  s.reSdCheckPin = (levels (s.reads - 1)).byte

theorem latest_readPin (levels : Nat → Level) (s : Poll) : Latest levels (s.readPin levels) := rfl

theorem inv_checkRemoved {levels : Nat → Level} {s : Poll} (h : Inv s) :
    Inv (checkRemoved levels s) := by
  unfold checkRemoved
  split
  case isFalse => exact h
  case isTrue hre =>
    have hm : mounted s.calls = true := h.mounted.mpr hre
    dsimp only
    split
    case isTrue hhigh => exact ⟨⟨hm, h.alternates⟩, iff_of_false Bool.false_ne_true hhigh⟩
    case isFalse hlow => exact ⟨h.alternates, iff_of_true hm (not_not.mp hlow)⟩

theorem inv_checkInserted {levels : Nat → Level} {s : Poll} (h : Inv s) :
    Inv (checkInserted levels s) := by
  unfold checkInserted
  split
  case isFalse => exact h
  case isTrue hre =>
    have hm : mounted s.calls = false := by
      rw [← Bool.not_eq_true]
      exact fun hm => hre (h.mounted.mp hm)
    dsimp only
    split
    case isTrue hlow => exact ⟨⟨hm, h.alternates⟩, iff_of_true rfl hlow⟩
    case isFalse hhigh =>
      exact ⟨h.alternates, iff_of_false (fun hc => Bool.false_ne_true (hm.symm.trans hc)) hhigh⟩

/-- Each iteration reads the pin: if the first test does not, the second does. -/
theorem latest_iteration (levels : Nat → Level) (s : Poll) :
    Latest levels (iteration levels s) := by
  by_cases hre : s.reSdCheckPin = 0
  · have hr : Latest levels (checkRemoved levels s) := by
      unfold checkRemoved
      rw [if_pos hre]
      dsimp only
      split <;> exact latest_readPin levels s
    unfold iteration checkInserted
    split
    · dsimp only
      split <;> exact latest_readPin levels _
    · exact hr
  · have hr : checkRemoved levels s = s := if_neg hre
    unfold iteration checkInserted
    rw [hr, if_pos hre]
    dsimp only
    split <;> exact latest_readPin levels s

theorem inv_sdMount {levels : Nat → Level} (h0 : levels 0 = .low) (n : Nat) :
    Inv (sdMount levels n) := by
  induction n with
  | zero =>
    have hb : sdMount levels 0 = ⟨1, 1, []⟩ := by
      unfold sdMount begin
      rw [h0]
      rfl
    rw [hb]
    exact ⟨trivial, by decide⟩
  | succ n ih => exact inv_checkInserted (inv_checkRemoved ih)

/-- A level high at the start-up read is wrong after the first iteration, whatever is read
    there: a second mount if it is low, a mounted card under a high level if it is not. -/
theorem low_of_hotPlugOk {levels : Nat → Level} (h : HotPlugOk levels) : levels 0 = .low := by
  by_contra h0
  have hb : begin levels = ⟨1, 1, [.mount]⟩ := if_pos (mt (Level.byte_eq_zero_iff _).mp h0)
  have h1 : sdMount levels 1 = checkInserted levels ⟨1, 1, [.mount]⟩ := by
    unfold sdMount sdMount iteration
    rw [hb]
    rfl
  obtain ⟨halt, hm⟩ := h 1
  rw [h1] at halt hm
  cases hl : levels 1 with
  | low =>
    have hc : checkInserted levels ⟨1, 1, [.mount]⟩ = ⟨0, 2, [.mount, .mount]⟩ := by
      simp [checkInserted, Poll.readPin, Poll.call, hl, Level.byte]
    rw [hc] at halt
    exact Bool.noConfusion halt.1
  | high =>
    have hc : checkInserted levels ⟨1, 1, [.mount]⟩ = ⟨1, 2, [.mount]⟩ := by
      simp [checkInserted, Poll.readPin, hl, Level.byte]
    rw [hc] at hm
    have hlow : levels 1 = .low := (hm Nat.one_pos).mp rfl
    rw [hl] at hlow
    cases hlow

/-- For every sequence of levels. -/
theorem hotPlugOk_iff (levels : Nat → Level) : HotPlugOk levels ↔ levels 0 = .low := by
  refine ⟨low_of_hotPlugOk, fun h0 n => ?_⟩
  have hi := inv_sdMount h0 n
  refine ⟨hi.alternates, fun hn => ?_⟩
  obtain ⟨m, rfl⟩ := Nat.exists_eq_succ_of_ne_zero (Nat.ne_of_gt hn)
  have hlast : Latest levels (sdMount levels (m + 1)) := latest_iteration levels _
  rw [hi.mounted, hlast, Level.byte_eq_zero_iff]

/-- A pin that is high at start-up, with no card in the slot. -/
theorem hotPlugOk_fails_high : ¬ ∀ levels, HotPlugOk levels := by
  intro h
  have h0 : Level.high = Level.low := low_of_hotPlugOk (h fun _ => .high)
  cases h0

end Live2dStm32.App.HotPlug
