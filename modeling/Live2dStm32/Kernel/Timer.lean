import Live2dStm32.Kernel.Semaphore
import Live2dStm32.Lib.Insert
import Live2dStm32.Lib.Machine
import Mathlib.Data.List.Nodup
import Mathlib.Logic.Function.Basic
import Mathlib.Algebra.Group.Nat.Defs

/-
  The hard timers (rt-thread/src/timer.c, one skip list level): a list that is sorted by ticks of
  32 bits, which wrap around. The tick interrupt counts, and later calls `rt_timer_check`; the
  functions of the timers run inside of it and may start and stop timers, their own ones too.

  `τ` names timers. `tick` counts without end, `rt_tick` is its low 32 bits; `started` says when
  and for how long a timer was started last, and how many starts there had been before.
-/

namespace Live2dStm32.Kernel

open Live2dStm32.Lib

def rtTickMax : BitVec 32 := 0xffffffff

structure RtTimer where
  timeoutTick : BitVec 32
  initTick : BitVec 32
  activated : Bool
  periodic : Bool
  deriving DecidableEq, Repr

structure Started where
  tick : Nat
  wait : Nat
  order : Nat
  deriving DecidableEq, Repr

/-- Between interrupts, in the tick interrupt before `rt_timer_check`, in its loop, and in the
    function of a timer. -/
inductive TimerPhase (τ : Type) where
  | idle
  | ticked
  | checking
  | calling (t : τ)
  deriving DecidableEq, Repr

/-- `list` is the temporary list of `rt_timer_check`. -/
structure Timers (τ : Type) where
  tick : Nat
  timer : τ → RtTimer
  timerList : List τ
  list : List τ
  phase : TimerPhase τ
  starts : Nat
  started : τ → Started

namespace Timers

variable {τ : Type} [DecidableEq τ] (s : Timers τ)

def rtTick : BitVec 32 := BitVec.ofNat 32 s.tick

def setTimer (t : τ) (timer : RtTimer) : Timers τ :=
  { s with timer := Function.update s.timer t timer }

def setPhase (phase : TimerPhase τ) : Timers τ := { s with phase := phase }

/-- `_timer_remove`, from whatever list the timer is on. -/
def timerRemove (t : τ) : Timers τ :=
  { s with
    timerList := s.timerList.erase t
    list := s.list.erase t }

/-- Where the scan of `rt_timer_start` stops: a difference of 0 goes on. -/
def later (timeoutTick : BitVec 32) (x : τ) : Bool :=
  let diff := (s.timer x).timeoutTick - timeoutTick
  diff ≠ 0 && decide (diff < rtTickMax / 2)

/-- `none`: the assert on `init_tick` fails. -/
def rtTimerStart (t : τ) : Option (Timers τ) :=
  let s := s.timerRemove t
  let timer := s.timer t
  if timer.initTick < rtTickMax / 2 then
    let timeoutTick := s.rtTick + timer.initTick
    some { s.setTimer t { timer with
        timeoutTick := timeoutTick
        activated := true } with
      timerList := scanInsert (s.later timeoutTick) t s.timerList
      starts := s.starts + 1
      started := Function.update s.started t ⟨s.tick, timer.initTick.toNat, s.starts⟩ }
  else none

def rtTimerStop (t : τ) : Timers τ × Int :=
  if (s.timer t).activated then
    ((s.timerRemove t).setTimer t { s.timer t with activated := false }, rtEok)
  else (s, -rtError)

def rtTimerDetach (t : τ) : Timers τ :=
  (s.timerRemove t).setTimer t { s.timer t with activated := false }

/-- `current_tick - t->timeout_tick < RT_TICK_MAX / 2`. -/
def due (t : τ) : Bool := decide (s.rtTick - (s.timer t).timeoutTick < rtTickMax / 2)

inductive Act (τ : Type) where
  | tick
  | check
  | loop
  | finish
  | start (t : τ)
  | stop (t : τ)
  | detach (t : τ)
  | setTime (t : τ) (time : BitVec 32)
  | setOneshot (t : τ)
  | setPeriodic (t : τ)

def step : Act τ → Option (Timers τ)
  | .tick => if s.phase = .idle then some { s with
      tick := s.tick + 1
      phase := .ticked } else none
  | .check => if s.phase = .ticked then some (s.setPhase .checking) else none
  -- one round of the loop in rt_timer_check, up to the call of the function
  | .loop =>
    if s.phase = .checking then
      match s.timerList with
      | t :: _ =>
        if s.due t then
          let s := s.timerRemove t
          let timer := s.timer t
          some { s.setTimer t { timer with activated := timer.activated && timer.periodic } with
            list := t :: s.list
            phase := .calling t }
        else some (s.setPhase .idle)
      | [] => some (s.setPhase .idle)
    else none
  -- and behind it
  | .finish =>
    match s.phase with
    | .calling t =>
      let s := s.setPhase .checking
      if s.list = [] then some s
      else
        let s := s.timerRemove t
        if (s.timer t).periodic && (s.timer t).activated then
          (s.setTimer t { s.timer t with activated := false }).rtTimerStart t
        else some s
    | _ => none
  | .start t => s.rtTimerStart t
  | .stop t => some (s.rtTimerStop t).1
  | .detach t => some (s.rtTimerDetach t)
  | .setTime t time => some (s.setTimer t { s.timer t with initTick := time })
  | .setOneshot t => some (s.setTimer t { s.timer t with periodic := false })
  | .setPeriodic t => some (s.setTimer t { s.timer t with periodic := true })

/-- `rt_system_timer_init`, and timers that were initialized. -/
def boot (initTick : τ → BitVec 32) (periodic : τ → Bool) : Timers τ where
  tick := 0
  timer t := ⟨0, initTick t, false, periodic t⟩
  timerList := []
  list := []
  phase := .idle
  starts := 0
  started _ := ⟨0, 0, 0⟩

/-! ## What holds of every state -/

/-- When the timer goes off, without wrapping around. -/
def deadline (t : τ) : Nat := (s.started t).tick + (s.started t).wait

/-- The order in which timers go off. -/
def Before (a b : τ) : Prop :=
  s.deadline a < s.deadline b ∨
    s.deadline a = s.deadline b ∧ (s.started a).order < (s.started b).order

/-- A timer of the list at one point of time: it is not overdue, where a wait of no ticks lasts to
    the next tick, and its tick is the low bits of its deadline. -/
structure Running (s : Timers τ) (t : τ) : Prop where
  activated : (s.timer t).activated = true
  timeout : (s.timer t).timeoutTick = BitVec.ofNat 32 (s.deadline t)
  tick : (s.started t).tick ≤ s.tick
  wait : (s.started t).wait < 2 ^ 31 - 1
  order : (s.started t).order < s.starts
  notLate : s.tick ≤ (s.started t).tick + max (s.started t).wait 1
  early : s.phase = .idle → s.tick < (s.started t).tick + max (s.started t).wait 1

structure Inv (s : Timers τ) : Prop where
  nodup : s.timerList.Nodup
  running : ∀ t ∈ s.timerList, Running s t
  sorted : s.timerList.Pairwise s.Before
  /-- The temporary list holds the timer whose function runs, unless that was started again. -/
  temp : s.list = [] ∨ ∃ t, s.phase = .calling t ∧ s.list = [t] ∧ t ∉ s.timerList ∧
    ((s.timer t).activated = true → (s.timer t).periodic = true)
  listed : ∀ t, (s.timer t).activated = true → t ∈ s.timerList ∨ t ∈ s.list

/-- No function makes the timer that called it a one-shot timer. -/
def Own (s : Timers τ) : Act τ → Prop
  | .setOneshot t => s.phase ≠ .calling t
  | _ => True

instance : (a : Act τ) → Decidable (Own s a)
  | .setOneshot t => inferInstanceAs (Decidable (s.phase ≠ .calling t))
  | .tick | .check | .loop | .finish | .start _ | .stop _ | .detach _ | .setTime _ _
  | .setPeriodic _ => isTrue trivial

variable {s} {s' : Timers τ}

/-! ### Ticks that wrap around -/

theorem sub_lt_half {a b : Nat} (hab : b < a + 2 ^ 31) (hba : a < b + (2 ^ 31 - 1)) :
    BitVec.ofNat 32 a - BitVec.ofNat 32 b < rtTickMax / 2 ↔ b ≤ a := by
  rw [BitVec.lt_def, BitVec.toNat_sub, BitVec.toNat_ofNat, BitVec.toNat_ofNat,
    show (rtTickMax / 2).toNat = 2 ^ 31 - 1 from rfl]
  omega

theorem sub_ne_zero {a b : Nat} (hab : b < a + 2 ^ 31) (hba : a < b + 2 ^ 31) :
    BitVec.ofNat 32 a - BitVec.ofNat 32 b ≠ 0 ↔ a ≠ b := by
  refine not_congr ?_
  rw [← BitVec.toNat_inj, BitVec.toNat_sub, BitVec.toNat_ofNat, BitVec.toNat_ofNat]
  change _ = 0 ↔ _
  omega

omit [DecidableEq τ] in
theorem Running.window {x : τ} (h : Running s x) :
    s.deadline x < s.tick + (2 ^ 31 - 1) ∧ s.tick ≤ s.deadline x + 1 := by
  obtain ⟨-, -, htick, hwait, -, hlate, -⟩ := h
  unfold deadline
  omega

omit [DecidableEq τ] in
theorem due_iff {x : τ} (h : Running s x) : s.due x = true ↔ s.deadline x ≤ s.tick := by
  obtain ⟨hlt, hge⟩ := h.window
  rw [due, decide_eq_true_iff, h.timeout, rtTick]
  exact sub_lt_half (by omega) (by omega)

omit [DecidableEq τ] in
theorem later_iff {x : τ} (h : Running s x) {wait : Nat} (hwait : wait < 2 ^ 31 - 1) :
    s.later (BitVec.ofNat 32 (s.tick + wait)) x = true ↔ s.tick + wait < s.deadline x := by
  obtain ⟨hlt, hge⟩ := h.window
  unfold later
  dsimp only
  rw [Bool.and_eq_true, decide_eq_true_iff, decide_eq_true_iff, h.timeout,
    sub_ne_zero (by omega) (by omega), sub_lt_half (by omega) (by omega)]
  omega

/-! ### Steps -/

omit [DecidableEq τ] in
theorem before_trans {a b c : τ} (hab : s.Before a b) (hbc : s.Before b c) : s.Before a c := by
  unfold Before at *
  omega

omit [DecidableEq τ] in
theorem before_congr {a b : τ} (ha : s'.started a = s.started a) (hb : s'.started b = s.started b) :
    s'.Before a b ↔ s.Before a b := by
  unfold Before deadline
  rw [ha, hb]

omit [DecidableEq τ] in
/-- A timer that nothing happens to. -/
theorem Running.same {x : τ} (h : Running s x)
    (hact : (s'.timer x).activated = (s.timer x).activated)
    (htime : (s'.timer x).timeoutTick = (s.timer x).timeoutTick)
    (hstarted : s'.started x = s.started x) (htick : s'.tick = s.tick)
    (hstarts : s.starts ≤ s'.starts) (hphase : s'.phase = .idle → s.phase = .idle) :
    Running s' x := by
  obtain ⟨hactive, htimeout, hstart, hwait, horder, hlate, hearly⟩ := h
  refine ⟨hact.trans hactive, ?_, ?_, ?_, ?_, ?_, fun hidle => ?_⟩
  · rw [htime, htimeout, deadline, deadline, hstarted]
  · rw [hstarted, htick]
    exact hstart
  · rw [hstarted]
    exact hwait
  · rw [hstarted]
    exact Nat.lt_of_lt_of_le horder hstarts
  · rw [hstarted, htick]
    exact hlate
  · rw [hstarted, htick]
    exact hearly (hphase hidle)

/-- A timer leaves the lists. -/
theorem Inv.drop (h : Inv s) (t : τ) {timer : RtTimer} (ht : timer.activated = false) :
    Inv ((s.timerRemove t).setTimer t timer) := by
  have hother : ∀ x, x ≠ t → ((s.timerRemove t).setTimer t timer).timer x = s.timer x :=
    fun x hx => Function.update_of_ne hx ..
  have hself : ((s.timerRemove t).setTimer t timer).timer t = timer := Function.update_self ..
  refine ⟨h.nodup.erase t, fun x hx => ?_, h.sorted.sublist List.erase_sublist, ?_,
    fun x hx => ?_⟩
  · obtain ⟨hxt, hx⟩ := h.nodup.mem_erase_iff.mp hx
    exact (h.running x hx).same (congrArg _ (hother x hxt)) (congrArg _ (hother x hxt)) rfl rfl
      (Nat.le_refl _) id
  · obtain hnil | ⟨u, hphase, hlist, hout, hper⟩ := h.temp
    · refine .inl ?_
      change s.list.erase t = []
      rw [hnil, List.erase_nil]
    · by_cases hut : u = t
      · refine .inl ?_
        change s.list.erase t = []
        rw [hlist, hut, List.erase_cons_head]
      · refine .inr ⟨u, hphase, ?_, fun hmem => hout (List.mem_of_mem_erase hmem), ?_⟩
        · change s.list.erase t = [u]
          rw [hlist, List.erase_of_not_mem fun hmem => hut (List.mem_singleton.mp hmem).symm]
        · rw [hother u hut]
          exact hper
  · by_cases hxt : x = t
    · rw [hxt, hself, ht] at hx
      exact nomatch hx
    · rw [hother x hxt] at hx
      exact (h.listed x hx).imp (List.mem_erase_of_ne hxt).mpr (List.mem_erase_of_ne hxt).mpr

/-- A timer changes neither its tick nor whether it is activated. -/
theorem Inv.set (h : Inv s) (t : τ) {timer : RtTimer}
    (hact : timer.activated = (s.timer t).activated)
    (htime : timer.timeoutTick = (s.timer t).timeoutTick)
    (hper : s.phase = .calling t → (s.timer t).periodic = true → timer.periodic = true) :
    Inv (s.setTimer t timer) := by
  have hcase : ∀ x, x = t ∧ (s.setTimer t timer).timer x = timer ∨
      x ≠ t ∧ (s.setTimer t timer).timer x = s.timer x := by
    intro x
    by_cases hxt : x = t
    · exact .inl ⟨hxt, hxt ▸ Function.update_self ..⟩
    · exact .inr ⟨hxt, Function.update_of_ne hxt ..⟩
  have hactive : ∀ x, ((s.setTimer t timer).timer x).activated = (s.timer x).activated := by
    intro x
    obtain ⟨rfl, hx⟩ | ⟨-, hx⟩ := hcase x <;> rw [hx]
    exact hact
  refine ⟨h.nodup, fun x hx => ?_, h.sorted, h.temp.imp id ?_, fun x hx => ?_⟩
  · refine (h.running x hx).same (hactive x) ?_ rfl rfl (Nat.le_refl _) id
    obtain ⟨rfl, hx⟩ | ⟨-, hx⟩ := hcase x <;> rw [hx]
    exact htime
  · rintro ⟨u, hphase, hlist, hout, hu⟩
    refine ⟨u, hphase, hlist, hout, ?_⟩
    rw [hactive]
    intro hactu
    obtain ⟨rfl, hx⟩ | ⟨-, hx⟩ := hcase u <;> rw [hx]
    · exact hper hphase (hu hactu)
    · exact hu hactu
  · rw [hactive] at hx
    exact h.listed x hx

/-- A timer is put into the list, or moved in it. -/
theorem start_inv (h : Inv s) {t : τ} (hs : s.rtTimerStart t = some s') :
    Inv s' ∧ s'.phase = s.phase := by
  unfold rtTimerStart at hs
  dsimp only at hs
  obtain ⟨hlt, hs⟩ := Option.ite_none_right_eq_some.mp hs
  have hwait : (s.timer t).initTick.toNat < 2 ^ 31 - 1 := BitVec.lt_def.mp hlt
  have htick : s.rtTick + (s.timer t).initTick =
      BitVec.ofNat 32 (s.tick + (s.timer t).initTick.toNat) := by
    rw [BitVec.ofNat_add, BitVec.ofNat_toNat, BitVec.setWidth_eq]
    rfl
  have hlist : s'.timerList =
      scanInsert (s.later (BitVec.ofNat 32 (s.tick + (s.timer t).initTick.toNat))) t
        (s.timerList.erase t) := by
    rw [← htick]
    exact (congrArg timerList (Option.some.inj hs)).symm
  have hself : (s'.timer t).activated = true ∧
      (s'.timer t).timeoutTick = BitVec.ofNat 32 (s.tick + (s.timer t).initTick.toNat) ∧
      s'.started t = ⟨s.tick, (s.timer t).initTick.toNat, s.starts⟩ := by
    rw [← htick, ← Option.some.inj hs]
    exact ⟨congrArg _ (Function.update_self ..), congrArg _ (Function.update_self ..),
      Function.update_self ..⟩
  have hother : ∀ x, x ≠ t → s'.timer x = s.timer x ∧ s'.started x = s.started x := by
    intro x hx
    rw [← Option.some.inj hs]
    exact ⟨Function.update_of_ne hx .., Function.update_of_ne hx ..⟩
  have hrest : s'.tick = s.tick ∧ s'.starts = s.starts + 1 ∧ s'.phase = s.phase ∧
      s'.list = s.list.erase t := by
    rw [← Option.some.inj hs]
    exact ⟨rfl, rfl, rfl, rfl⟩
  clear hs
  generalize (s.timer t).initTick.toNat = wait at *
  obtain ⟨hact, htime, hstarted⟩ := hself
  obtain ⟨hnow, hstarts, hphase, htemp⟩ := hrest
  have hperm := perm_scanInsert (s.later (BitVec.ofNat 32 (s.tick + wait))) t (s.timerList.erase t)
  rw [← hlist] at hperm
  have hnot : t ∉ s.timerList.erase t := fun hmem => (h.nodup.mem_erase_iff.mp hmem).1 rfl
  have herase : ∀ x ∈ s.timerList.erase t, x ≠ t ∧ x ∈ s.timerList := fun x hx =>
    h.nodup.mem_erase_iff.mp hx
  have hmem : ∀ x, x ∈ s'.timerList ↔ x = t ∨ x ∈ s.timerList.erase t := fun x => by
    rw [hperm.mem_iff, List.mem_cons]
  have hdeadline : s'.deadline t = s.tick + wait := by
    unfold deadline
    rw [hstarted]
  have hdeadlines : ∀ x, x ≠ t → s'.deadline x = s.deadline x := fun x hx => by
    unfold deadline
    rw [(hother x hx).2]
  refine ⟨⟨hperm.nodup_iff.mpr (List.nodup_cons.mpr ⟨hnot, h.nodup.erase t⟩), fun x hx => ?_, ?_,
    ?_, fun x hx => ?_⟩, hphase⟩
  · obtain rfl | hx := (hmem x).mp hx
    · refine ⟨hact, htime.trans (congrArg _ hdeadline.symm), ?_, ?_, ?_, ?_, fun _ => ?_⟩
      · exact Nat.le_of_eq (by rw [hstarted, hnow])
      · rw [hstarted]
        exact hwait
      · rw [hstarted, hstarts]
        exact Nat.lt_succ_self _
      · rw [hstarted, hnow]
        exact Nat.le_add_right ..
      · rw [hstarted, hnow]
        dsimp only
        omega
    · obtain ⟨hxt, hx⟩ := herase x hx
      obtain ⟨htimer, hstart⟩ := hother x hxt
      exact (h.running x hx).same (congrArg _ htimer) (congrArg _ htimer) hstart hnow
        (hstarts ▸ Nat.le_succ _) fun hidle => hphase ▸ hidle
  · rw [hlist]
    refine pairwise_scanInsert ?_ (fun x hx hl => ?_) (fun x hx hl => ?_)
      fun _ _ _ _ => before_trans
    · refine (h.sorted.sublist List.erase_sublist).imp_of_mem fun {x y} hx hy hxy => ?_
      exact (before_congr (hother x (herase x hx).1).2 (hother y (herase y hy).1).2).mpr hxy
    · obtain ⟨hxt, hx⟩ := herase x hx
      have hrun := h.running x hx
      have hle : ¬ s.tick + wait < s.deadline x := fun hgt => by
        rw [(later_iff hrun hwait).mpr hgt] at hl
        exact nomatch hl
      have horder := hrun.order
      unfold Before
      rw [hdeadline, hdeadlines x hxt, (hother x hxt).2, hstarted]
      dsimp only
      omega
    · obtain ⟨hxt, hx⟩ := herase x hx
      have hgt := (later_iff (h.running x hx) hwait).mp hl
      refine .inl ?_
      rw [hdeadline, hdeadlines x hxt]
      exact hgt
  · rw [htemp, hphase]
    obtain hnil | ⟨u, hcalling, hu, hout, hper⟩ := h.temp
    · rw [hnil]
      exact .inl (List.erase_nil t)
    · by_cases hut : u = t
      · rw [hu, hut]
        exact .inl (List.erase_cons_head ..)
      · refine .inr ⟨u, hcalling, ?_, fun hin => ?_, ?_⟩
        · rw [hu, List.erase_of_not_mem fun hin => hut (List.mem_singleton.mp hin).symm]
        · exact ((hmem u).mp hin).elim hut fun hin => hout (herase u hin).2
        · rw [(hother u hut).1]
          exact hper
  · by_cases hxt : x = t
    · exact .inl ((hmem x).mpr (.inl hxt))
    · rw [(hother x hxt).1] at hx
      rw [hmem, htemp]
      exact (h.listed x hx).imp (fun hin => .inr ((List.mem_erase_of_ne hxt).mpr hin))
        (List.mem_erase_of_ne hxt).mpr

omit [DecidableEq τ] in
/-- Only the phase changes, and no function of a timer runs. -/
theorem Inv.move (h : Inv s) {phase : TimerPhase τ} (hlist : s.list = [])
    (hearly : phase = .idle → ∀ t ∈ s.timerList,
      s.tick < (s.started t).tick + max (s.started t).wait 1) :
    Inv (s.setPhase phase) where
  nodup := h.nodup
  running t ht :=
    let hrun := h.running t ht
    ⟨hrun.activated, hrun.timeout, hrun.tick, hrun.wait, hrun.order, hrun.notLate,
      fun hidle => hearly hidle t ht⟩
  sorted := h.sorted
  temp := .inl hlist
  listed := h.listed

omit [DecidableEq τ] in
theorem Inv.list_nil (h : Inv s) (hphase : ∀ t, s.phase ≠ .calling t) : s.list = [] :=
  h.temp.resolve_right fun ⟨t, hcalling, _⟩ => hphase t hcalling

theorem loop_inv (h : Inv s) (hs : s.step .loop = some s') :
    Inv s' ∧ ∀ t, s'.phase = .calling t → t ∈ s.timerList ∧ s.deadline t ≤ s.tick ∧
      ∀ x ∈ s.timerList, x ≠ t → s.Before t x := by
  obtain ⟨hphase, hs⟩ := Option.ite_none_right_eq_some.mp hs
  have hnil : s.list = [] := h.list_nil fun t ht => nomatch hphase.symm.trans ht
  by_cases hempty : s.timerList = []
  · rw [hempty] at hs
    obtain rfl := Option.some.inj hs
    exact ⟨h.move hnil fun _ t ht => (nomatch hempty ▸ ht), fun t ht => nomatch ht⟩
  obtain ⟨t, ts, hlist⟩ := List.exists_cons_of_ne_nil hempty
  rw [hlist] at hs
  dsimp only at hs
  have ht : t ∈ s.timerList := hlist ▸ List.mem_cons_self
  have hsorted := h.sorted
  rw [hlist, List.pairwise_cons] at hsorted
  by_cases hdue : s.due t = true
  swap
  · -- the first one is not due, so none is
    rw [if_neg hdue] at hs
    obtain rfl := Option.some.inj hs
    have hfirst : s.tick < s.deadline t :=
      Nat.lt_of_not_le fun hle => hdue ((due_iff (h.running t ht)).mpr hle)
    refine ⟨h.move hnil fun _ x hx => ?_, fun t ht => nomatch ht⟩
    have hle : s.deadline t ≤ s.deadline x := by
      rw [hlist] at hx
      obtain rfl | hx := List.mem_cons.mp hx
      · exact Nat.le_refl _
      · exact (hsorted.1 x hx).elim Nat.le_of_lt fun heq => Nat.le_of_eq heq.1
    unfold deadline at hle hfirst
    omega
  rw [if_pos hdue] at hs
  have hdone : s.deadline t ≤ s.tick := (due_iff (h.running t ht)).mp hdue
  obtain rfl := Option.some.inj hs
  refine ⟨?_, fun u hu => ?_⟩
  swap
  · obtain rfl := TimerPhase.calling.inj hu
    refine ⟨ht, hdone, fun x hx hxt => ?_⟩
    rw [hlist] at hx
    exact hsorted.1 x ((List.mem_cons.mp hx).resolve_left hxt)
  have hother : ∀ x, x ≠ t → ((s.timerRemove t).setTimer t { s.timer t with
      activated := (s.timer t).activated && (s.timer t).periodic }).timer x = s.timer x :=
    fun x hx => Function.update_of_ne hx ..
  have hself : ((s.timerRemove t).setTimer t { s.timer t with
      activated := (s.timer t).activated && (s.timer t).periodic }).timer t = { s.timer t with
      activated := (s.timer t).activated && (s.timer t).periodic } := Function.update_self ..
  have htemp : t :: s.list.erase t = [t] := by rw [hnil, List.erase_nil]
  refine ⟨h.nodup.erase t, fun x hx => ?_, h.sorted.sublist List.erase_sublist,
    .inr ⟨t, rfl, htemp, fun hmem => (h.nodup.mem_erase_iff.mp hmem).1 rfl, fun hact => ?_⟩,
    fun x hx => ?_⟩
  · obtain ⟨hxt, hx⟩ := h.nodup.mem_erase_iff.mp hx
    exact (h.running x hx).same (congrArg _ (hother x hxt)) (congrArg _ (hother x hxt)) rfl rfl
      (Nat.le_refl _) fun hidle => nomatch hidle
  · have hboth := (congrArg RtTimer.activated hself).symm.trans hact
    exact (congrArg RtTimer.periodic hself).trans (Bool.and_eq_true_iff.mp hboth).2
  · by_cases hxt : x = t
    · rw [hxt]
      exact .inr List.mem_cons_self
    · have hact := (congrArg RtTimer.activated (hother x hxt)).symm.trans hx
      obtain hin | hin := h.listed x hact
      · exact .inl ((List.mem_erase_of_ne hxt).mpr hin)
      · exact nomatch hnil ▸ hin

theorem finish_inv (h : Inv s) (hs : s.step .finish = some s') : Inv s' := by
  unfold step at hs
  dsimp only at hs
  split at hs
  next t hphase =>
    obtain hnil | ⟨u, hu, hlist, hout, hper⟩ := h.temp
    · rw [if_pos (show (s.setPhase .checking).list = [] from hnil)] at hs
      obtain rfl := Option.some.inj hs
      exact h.move hnil fun hidle => nomatch hidle
    · obtain rfl := TimerPhase.calling.inj (hphase.symm.trans hu)
      have hgone : s.list.erase t = [] := by
        rw [hlist]
        exact List.erase_cons_head ..
      have hdrop : ∀ timer : RtTimer, timer.activated = false →
          Inv (((s.setPhase .checking).timerRemove t).setTimer t timer) := fun timer ht =>
        (h.drop t ht).move hgone fun hidle => nomatch hidle
      rw [if_neg (show ¬ (s.setPhase .checking).list = [] from hlist ▸ nofun)] at hs
      split at hs
      · exact (start_inv (hdrop _ rfl) hs).1
      next hnot =>
        obtain rfl := Option.some.inj hs
        have hact : (s.timer t).activated = false := Bool.eq_false_iff.mpr fun hact =>
          hnot (Bool.and_eq_true_iff.mpr ⟨hper hact, hact⟩)
        have hsame : (((s.setPhase .checking).timerRemove t).setTimer t (s.timer t)) =
            (s.setPhase .checking).timerRemove t :=
          congrArg (fun f => ({ (s.setPhase .checking).timerRemove t with
            timer := f } : Timers τ)) (Function.update_eq_self t s.timer)
        exact hsame ▸ hdrop (s.timer t) hact
  next => exact nomatch hs

theorem tick_inv (h : Inv s) (hs : s.step .tick = some s') : Inv s' := by
  obtain ⟨hphase, ⟨⟩⟩ := Option.ite_none_right_eq_some.mp hs
  have hnil : s.list = [] := h.list_nil fun t ht => nomatch hphase.symm.trans ht
  refine ⟨h.nodup, fun t ht => ?_, h.sorted, .inl hnil, h.listed⟩
  obtain ⟨hact, htime, htick, hwait, horder, -, hearly⟩ := h.running t ht
  exact ⟨hact, htime, Nat.le_succ_of_le htick, hwait, horder, hearly hphase, fun hi => nomatch hi⟩

theorem inv_step (s : Timers τ) (a : Act τ) (s' : Timers τ) (h : Inv s) (hown : Own s a)
    (hs : s.step a = some s') : Inv s' := by
  cases a with
  | tick => exact tick_inv h hs
  | check =>
    obtain ⟨hphase, hs⟩ := Option.ite_none_right_eq_some.mp hs
    obtain rfl := Option.some.inj hs
    exact h.move (h.list_nil fun t ht => nomatch hphase.symm.trans ht) fun hi => nomatch hi
  | loop => exact (loop_inv h hs).1
  | finish => exact finish_inv h hs
  | start t => exact (start_inv h hs).1
  | stop t =>
    obtain rfl := Option.some.inj hs
    unfold rtTimerStop
    split
    · exact h.drop t rfl
    · exact h
  | detach t =>
    obtain rfl := Option.some.inj hs
    exact h.drop t rfl
  | setTime t time =>
    obtain rfl := Option.some.inj hs
    exact h.set t rfl rfl fun _ hp => hp
  | setOneshot t =>
    obtain rfl := Option.some.inj hs
    exact h.set t rfl rfl fun hphase => absurd hphase hown
  | setPeriodic t =>
    obtain rfl := Option.some.inj hs
    exact h.set t rfl rfl fun _ _ => rfl

omit [DecidableEq τ] in
theorem inv_boot (initTick : τ → BitVec 32) (periodic : τ → Bool) :
    Inv (boot initTick periodic) where
  nodup := List.nodup_nil
  running _ ht := nomatch ht
  sorted := List.Pairwise.nil
  temp := .inl rfl
  listed _ ht := nomatch ht

/-- For any number of timers, in every order of ticks, of rounds of `rt_timer_check` and of starts
    and stops, from the functions of the timers too, and however often `rt_tick` wraps around: the
    list is sorted by the deadlines, and by the starts among equal ones; a function is called
    when the deadline has come, the first in this order, and no later than that or than the next
    tick, if the wait was 0; and between interrupts the timers that are activated are those that
    wait for a later tick. -/
theorem timer_run {initTick : τ → BitVec 32} {periodic : τ → Bool} {s : Timers τ}
    (h : Reach (fun s a => s.step a) Own (boot initTick periodic) s) :
    s.timerList.Pairwise s.Before ∧
      (∀ t ∈ s.timerList, s.tick ≤ (s.started t).tick + max (s.started t).wait 1) ∧
      (s.phase = .idle → ∀ t, (s.timer t).activated = true ↔
        t ∈ s.timerList ∧ s.tick < (s.started t).tick + max (s.started t).wait 1) ∧
      ∀ t s', s.step .loop = some s' → s'.phase = .calling t →
        (s.started t).tick + (s.started t).wait ≤ s.tick ∧
          s.tick ≤ (s.started t).tick + max (s.started t).wait 1 ∧
          ∀ x ∈ s.timerList, x ≠ t → s.Before t x := by
  have hinv : Inv s := h.invariant Inv (inv_boot initTick periodic) inv_step
  refine ⟨hinv.sorted, fun t ht => (hinv.running t ht).notLate, fun hidle t => ⟨fun hact => ?_,
    fun ht => (hinv.running t ht.1).activated⟩, fun t s' hs hcalling => ?_⟩
  · have hnil : s.list = [] := hinv.list_nil fun t ht => nomatch hidle.symm.trans ht
    have ht := (hinv.listed t hact).resolve_right fun hin => nomatch hnil ▸ hin
    exact ⟨ht, (hinv.running t ht).early hidle⟩
  · obtain ⟨-, hcall⟩ := loop_inv hinv hs
    obtain ⟨ht, hdue, hfirst⟩ := hcall t hcalling
    exact ⟨hdue, (hinv.running t ht).notLate, hfirst⟩

/-- A periodic timer goes off for the second time while a longer one runs. -/
theorem timer_run_two : ∃ s : Timers (Fin 2),
    (s.tick = 4 ∧ s.timerList = [0, 1] ∧ s.phase = .checking ∧ s.due 0 = true) ∧
    s.timerList.Pairwise s.Before ∧
      (∀ t ∈ s.timerList, s.tick ≤ (s.started t).tick + max (s.started t).wait 1) ∧
      (s.phase = .idle → ∀ t, (s.timer t).activated = true ↔
        t ∈ s.timerList ∧ s.tick < (s.started t).tick + max (s.started t).wait 1) ∧
      ∀ t s', s.step .loop = some s' → s'.phase = .calling t →
        (s.started t).tick + (s.started t).wait ≤ s.tick ∧
          s.tick ≤ (s.started t).tick + max (s.started t).wait 1 ∧
          ∀ x ∈ s.timerList, x ≠ t → s.Before t x := by
  have hrun : (exec (guarded (fun (s : Timers (Fin 2)) a => s.step a) Own)
      (boot (fun t => if t = 0 then 2 else 5) fun t => t = 0)
      [.start 0, .start 1, .tick, .check, .loop, .tick, .check, .loop, .finish, .loop, .tick,
        .check, .loop, .tick, .check]).any
      (fun s => s.tick = 4 ∧ s.timerList = [0, 1] ∧ s.phase = .checking ∧ s.due 0 = true) =
      true := by decide +kernel
  obtain ⟨s, hs, hstate⟩ := (Option.any_eq_true ..).mp hrun
  exact ⟨s, of_decide_eq_true hstate, timer_run (reach_of_exec .start hs)⟩

/-- A periodic timer whose function makes it a one-shot timer stays activated, on no list. -/
example : (exec (guarded (fun (s : Timers Unit) a => s.step a) Free)
    (boot (fun _ => 1) fun _ => true)
    [.start (), .tick, .check, .loop, .setOneshot (), .finish, .loop]).any
    (fun s => s.phase = .idle ∧ (s.timer ()).activated = true ∧ s.timerList = []) = true := by
  decide +kernel

end Timers

end Live2dStm32.Kernel
