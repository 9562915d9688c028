import Mathlib.Logic.Function.Basic
import Live2dStm32.Kernel.Semaphore
import Live2dStm32.Lib.Bits
import Live2dStm32.Lib.Machine

/-
  Pipes of the USB host (drivers/drv_usbh.c): the bitmap of channels, `drv_open_pipe` and
  `drv_close_pipe`, over `HAL_HCD_HC_Init` (stm32h7xx_hal_hcd.c) on the channels `hc[16]`. The
  memory from `hc[0]` on is indexed without a bound, so that an access past the array can be
  seen. `P` names pipes.

  `drv_get_free_pipe_index` returns 0xff when no channel is free and `drv_open_pipe` uses it as
  a channel. `pipesOk_iff`: in a run that closes open pipes only, every call does what it should
  exactly when every call to open is for a pipe that is not open and finds a free channel.
-/

namespace Live2dStm32.Usb

open Live2dStm32.Kernel Live2dStm32.Lib

def usbOtgSpeedFull : BitVec 8 := 3

/-- A host channel: what `HAL_HCD_HC_Init` and the driver write of it. -/
structure HcdHc where
  doPing : BitVec 8
  devAddr : BitVec 8
  maxPacket : BitVec 16
  chNum : BitVec 8
  epType : BitVec 8
  epNum : BitVec 8
  epIsIn : BitVec 8
  speed : BitVec 8
  toggleIn : BitVec 8
  toggleOut : BitVec 8
  deriving DecidableEq, Repr

/-- A pipe: `ep` is its endpoint descriptor, `address` that of its device. -/
structure Upipe where
  pipeIndex : BitVec 8
  bEndpointAddress : BitVec 8
  bmAttributes : BitVec 8
  wMaxPacketSize : BitVec 16
  address : BitVec 8
  deriving DecidableEq, Repr

/-- `opened`: the pipes that have been opened and not closed since. -/
structure Usbh (P : Type) where
  pipeIndex : BitVec 16
  hc : Nat → HcdHc
  pipes : P → Upipe
  opened : P → Bool

variable {P : Type} [DecidableEq P]

def halHcdHcInit (hc : Nat → HcdHc) (chNum epnum devAddress speed epType : BitVec 8)
    (mps : BitVec 16) : Nat → HcdHc :=
  Function.update hc chNum.toNat { hc chNum.toNat with
    doPing := 0
    devAddr := devAddress
    maxPacket := mps
    chNum := chNum
    epType := epType
    epNum := epnum &&& 0x7F
    epIsIn := if epnum &&& 0x80 = 0x80 then 1 else 0
    speed := speed }

/-- The loop of `drv_get_free_pipe_index`, with `n` channels from `idx` still to look at. -/
def freePipeIndexFrom (pipeIndex : BitVec 16) : Nat → Nat → BitVec 16 × BitVec 8
  | _, 0 => (pipeIndex, 0xff)
  | idx, n + 1 =>
    if pipeIndex &&& bit 16 idx = 0 then (pipeIndex ||| bit 16 idx, BitVec.ofNat 8 idx)
    else freePipeIndexFrom pipeIndex (idx + 1) n

def drvGetFreePipeIndex (pipeIndex : BitVec 16) : BitVec 16 × BitVec 8 :=
  freePipeIndexFrom pipeIndex 1 15

/-- The shift is one of 32 bits; the target gives 0 for a count of 32 or more. -/
def drvFreePipeIndex (pipeIndex : BitVec 16) (index : BitVec 8) : BitVec 16 :=
  pipeIndex &&& ~~~(1#32 <<< index.toNat).setWidth 16

def drvOpenPipe (s : Usbh P) (p : P) : Usbh P × Int :=
  let (pipeIndex, index) := drvGetFreePipeIndex s.pipeIndex
  let pipe := { s.pipes p with pipeIndex := index }
  let hc := halHcdHcInit s.hc pipe.pipeIndex pipe.bEndpointAddress pipe.address usbOtgSpeedFull
    pipe.bmAttributes pipe.wMaxPacketSize
  let ch := hc pipe.pipeIndex.toNat
  let ch := if ch.epIsIn ≠ 0 then { ch with toggleIn := 0 } else { ch with toggleOut := 0 }
  ({ s with
      pipeIndex
      hc := Function.update hc pipe.pipeIndex.toNat ch
      pipes := Function.update s.pipes p pipe }, rtEok)

/-- Halting the channel is between the HAL and the core. -/
def drvClosePipe (s : Usbh P) (p : P) : Usbh P × Int :=
  ({ s with pipeIndex := drvFreePipeIndex s.pipeIndex (s.pipes p).pipeIndex }, rtEok)

/-- No pipe is open; the pipes and the channels hold anything. -/
def boot (hc : Nat → HcdHc) (pipes : P → Upipe) : Usbh P := ⟨0, hc, pipes, fun _ => false⟩

inductive PipeOp (P : Type) where
  | openPipe (p : P)
  | closePipe (p : P)
  deriving DecidableEq, Repr

def call (s : Usbh P) : PipeOp P → Usbh P × Int
  | .openPipe p => drvOpenPipe s p
  | .closePipe p => drvClosePipe s p

/-- A call, and which pipes are open after it. -/
def after (s : Usbh P) (op : PipeOp P) : Usbh P :=
  let (s', err) := call s op
  match op with
  | .openPipe p =>
    if err = rtEok then { s' with opened := Function.update s'.opened p true } else s'
  | .closePipe p => { s' with opened := Function.update s'.opened p false }

/-! ## The law -/

/-- The channel of a pipe. -/
def Usbh.channel (s : Usbh P) (p : P) : Nat := (s.pipes p).pipeIndex.toNat

/-- The open pipes have channels of their own, and the bitmap has exactly these. -/
structure PipesOk (s : Usbh P) : Prop where
  range : ∀ p, s.opened p = true → 1 ≤ s.channel p ∧ s.channel p ≤ 15
  distinct : ∀ p q, s.opened p = true → s.opened q = true → s.channel p = s.channel q → p = q
  bitmap : ∀ i, s.pipeIndex.getLsbD i = true ↔ ∃ p, s.opened p = true ∧ s.channel p = i

/-- Every channel is that of an open pipe. -/
def Exhausted (s : Usbh P) : Prop :=
  ∀ i, 1 ≤ i → i ≤ 15 → ∃ p, s.opened p = true ∧ s.channel p = i

/-- What a call should do. -/
def CallOk (s : Usbh P) (op : PipeOp P) : Prop :=
  PipesOk (after s op) ∧
    match op with
    | .openPipe _ => Exhausted s →
      (call s op).2 ≠ rtEok ∧ (after s op).pipeIndex = s.pipeIndex ∧ (after s op).hc = s.hc
    | .closePipe p => ∀ i, (after s op).pipeIndex.getLsbD i =
      (s.pipeIndex.getLsbD i && !decide (s.channel p = i))

/-- Only open pipes are closed. -/
def Legal (s : Usbh P) : PipeOp P → Prop
  | .openPipe _ => True
  | .closePipe p => s.opened p = true

/-- A call to open is for a pipe that is not open, and some channel is free. -/
def Vacant (s : Usbh P) : PipeOp P → Prop
  | .openPipe p => s.opened p = false ∧ ∃ i, 1 ≤ i ∧ i ≤ 15 ∧ s.pipeIndex.getLsbD i = false
  | .closePipe _ => True

/-! ## The bitmap -/

theorem freePipeIndexFrom_cases (pipeIndex : BitVec 16) (idx n : Nat) (h : idx + n ≤ 16) :
    (∃ k, idx ≤ k ∧ k < idx + n ∧ pipeIndex.getLsbD k = false ∧
      freePipeIndexFrom pipeIndex idx n = (pipeIndex ||| bit 16 k, BitVec.ofNat 8 k)) ∨
    ((∀ k, idx ≤ k → k < idx + n → pipeIndex.getLsbD k = true) ∧
      freePipeIndexFrom pipeIndex idx n = (pipeIndex, 0xff)) := by
  induction n generalizing idx with
  | zero => exact .inr ⟨fun k hk hk' => absurd hk' (Nat.not_lt.mpr hk), rfl⟩
  | succ n ih =>
    have hbit := and_bit_eq_zero_iff pipeIndex (show idx < 16 by omega)
    unfold freePipeIndexFrom
    split
    case isTrue hz => exact .inl ⟨idx, Nat.le_refl _, by omega, hbit.mp hz, rfl⟩
    case isFalse hnz =>
      rcases ih (idx + 1) (by omega) with ⟨k, hk, hk', hf, he⟩ | ⟨hall, he⟩
      · exact .inl ⟨k, by omega, by omega, hf, he⟩
      · refine .inr ⟨fun k hk hk' => ?_, he⟩
        rcases Nat.eq_or_lt_of_le hk with rfl | hlt
        · exact Bool.not_eq_false _ ▸ mt hbit.mpr hnz
        · exact hall k hlt (by omega)

/-- The allocator finds a free channel, or there is none. -/
theorem drvGetFreePipeIndex_cases (pipeIndex : BitVec 16) :
    (∃ k, 1 ≤ k ∧ k ≤ 15 ∧ pipeIndex.getLsbD k = false ∧
      drvGetFreePipeIndex pipeIndex = (pipeIndex ||| bit 16 k, BitVec.ofNat 8 k)) ∨
    ((∀ k, 1 ≤ k → k ≤ 15 → pipeIndex.getLsbD k = true) ∧
      drvGetFreePipeIndex pipeIndex = (pipeIndex, 0xff)) := by
  rcases freePipeIndexFrom_cases pipeIndex 1 15 (Nat.le_refl _) with
    ⟨k, hk, hk', hf, he⟩ | ⟨hall, he⟩
  · exact .inl ⟨k, hk, by omega, hf, he⟩
  · exact .inr ⟨fun k hk hk' => hall k hk (by omega), he⟩

theorem getLsbD_drvFreePipeIndex (pipeIndex : BitVec 16) {index : BitVec 8}
    (h : index.toNat ≤ 15) (i : Nat) : (drvFreePipeIndex pipeIndex index).getLsbD i =
      (pipeIndex.getLsbD i && !decide (index.toNat = i)) := by
  have hbit : (1#32 <<< index.toNat).setWidth 16 = bit 16 index.toNat := by
    apply BitVec.eq_of_getLsbD_eq
    intro j hj
    rw [BitVec.getLsbD_setWidth, show 1#32 <<< index.toNat = bit 32 index.toNat from rfl,
      getLsbD_bit, getLsbD_bit]
    have h32 : index.toNat < 32 := by omega
    have h16 : index.toNat < 16 := by omega
    simp [hj, h32, h16]
  rw [drvFreePipeIndex, hbit, getLsbD_and_not_bit _ (by omega)]

/-! ## Each call -/

theorem after_open_opened (s : Usbh P) (p q : P) :
    (after s (.openPipe p)).opened q = (decide (q = p) || s.opened q) := by
  change Function.update s.opened p true q = _
  by_cases h : q = p
  · subst h
    simp
  · simp [h]

theorem after_open_channel (s : Usbh P) (p q : P) : (after s (.openPipe p)).channel q =
    if q = p then (drvGetFreePipeIndex s.pipeIndex).2.toNat else s.channel q := by
  change (Function.update s.pipes p _ q).pipeIndex.toNat = _
  by_cases h : q = p
  · subst h
    rw [Function.update_self, if_pos rfl]
    rfl
  · rw [Function.update_of_ne h, if_neg h]
    rfl

theorem after_close_opened (s : Usbh P) (p q : P) :
    (after s (.closePipe p)).opened q = (!decide (q = p) && s.opened q) := by
  change Function.update s.opened p false q = _
  by_cases h : q = p
  · subst h
    simp
  · simp [h]

/-- A call to open leaves the other pipes as they were. -/
theorem open_other (s : Usbh P) {p q : P} (hne : q ≠ p) :
    (after s (.openPipe p)).opened q = s.opened q ∧
      (after s (.openPipe p)).channel q = s.channel q := by
  rw [after_open_opened, after_open_channel, if_neg hne]
  simp [hne]

theorem open_self {s : Usbh P} (p : P) {k : Nat} (h15 : k ≤ 15)
    (he : drvGetFreePipeIndex s.pipeIndex = (s.pipeIndex ||| bit 16 k, BitVec.ofNat 8 k)) :
    (after s (.openPipe p)).opened p = true ∧ (after s (.openPipe p)).channel p = k := by
  have hidx : (drvGetFreePipeIndex s.pipeIndex).2.toNat = k := by
    rw [he, BitVec.toNat_ofNat]
    omega
  rw [after_open_opened, after_open_channel, if_pos rfl, hidx]
  simp

/-- A new pipe gets a channel nobody has. -/
theorem open_vacant {s : Usbh P} (h : PipesOk s) {p : P} (hp : s.opened p = false) {k : Nat}
    (h1 : 1 ≤ k) (h15 : k ≤ 15) (hk : s.pipeIndex.getLsbD k = false)
    (he : drvGetFreePipeIndex s.pipeIndex = (s.pipeIndex ||| bit 16 k, BitVec.ofNat 8 k)) :
    PipesOk (after s (.openPipe p)) := by
  -- no open pipe has channel `k`
  have hnone : ∀ q, s.opened q = true → s.channel q ≠ k := by
    intro q hq hc
    rw [(h.bitmap k).mpr ⟨q, hq, hc⟩] at hk
    cases hk
  have hnew := open_self p h15 he
  constructor
  case range =>
    intro q hq
    by_cases hne : q = p
    · rw [hne, hnew.2]
      exact ⟨h1, h15⟩
    · rw [(open_other s hne).2]
      exact h.range q ((open_other s hne).1 ▸ hq)
  case distinct =>
    intro q r hq hr hqr
    by_cases hqp : q = p
    · by_cases hrp : r = p
      · rw [hqp, hrp]
      · rw [hqp, hnew.2, (open_other s hrp).2] at hqr
        exact absurd hqr.symm (hnone r ((open_other s hrp).1 ▸ hr))
    · by_cases hrp : r = p
      · rw [hrp, hnew.2, (open_other s hqp).2] at hqr
        exact absurd hqr (hnone q ((open_other s hqp).1 ▸ hq))
      · rw [(open_other s hqp).2, (open_other s hrp).2] at hqr
        exact h.distinct q r ((open_other s hqp).1 ▸ hq) ((open_other s hrp).1 ▸ hr) hqr
  case bitmap =>
    intro i
    have hb : (after s (.openPipe p)).pipeIndex = s.pipeIndex ||| bit 16 k := congrArg Prod.fst he
    rw [hb, getLsbD_or_bit _ (by omega), Bool.or_eq_true, decide_eq_true_eq, h.bitmap i]
    constructor
    · rintro (⟨q, hq, hc⟩ | rfl)
      · have hne : q ≠ p := fun hqp => by rw [hqp, hp] at hq; cases hq
        exact ⟨q, (open_other s hne).1.trans hq, (open_other s hne).2.trans hc⟩
      · exact ⟨p, hnew⟩
    · intro ⟨q, hq, hc⟩
      by_cases hne : q = p
      · rw [hne, hnew.2] at hc
        exact .inr hc
      · exact .inl ⟨q, (open_other s hne).1 ▸ hq, (open_other s hne).2 ▸ hc⟩

/-- Opening an open pipe again loses its old channel: no open pipe has it, its bit stays. -/
theorem not_open_reopened {s : Usbh P} (h : PipesOk s) {p : P} (hp : s.opened p = true) {k : Nat}
    (h15 : k ≤ 15) (hk : s.pipeIndex.getLsbD k = false)
    (he : drvGetFreePipeIndex s.pipeIndex = (s.pipeIndex ||| bit 16 k, BitVec.ofNat 8 k)) :
    ¬ PipesOk (after s (.openPipe p)) := by
  intro hok
  have hold : s.pipeIndex.getLsbD (s.channel p) = true := (h.bitmap _).mpr ⟨p, hp, rfl⟩
  have hb : (after s (.openPipe p)).pipeIndex = s.pipeIndex ||| bit 16 k := congrArg Prod.fst he
  have hbit : (after s (.openPipe p)).pipeIndex.getLsbD (s.channel p) = true := by
    rw [hb, getLsbD_or_bit _ (by omega), hold]
    rfl
  obtain ⟨q, hq, hc⟩ := (hok.bitmap _).mp hbit
  by_cases hqp : q = p
  · rw [hqp, (open_self p h15 he).2] at hc
    rw [← hc, hk] at hold
    cases hold
  · rw [(open_other s hqp).1] at hq
    rw [(open_other s hqp).2] at hc
    exact hqp (h.distinct q p hq hp hc)

theorem open_iff {s : Usbh P} (h : PipesOk s) (p : P) :
    CallOk s (.openPipe p) ↔ Vacant s (.openPipe p) := by
  rcases drvGetFreePipeIndex_cases s.pipeIndex with ⟨k, h1, h15, hk, he⟩ | ⟨hall, -⟩
  · -- channel `k` is free
    have hnex : ¬ Exhausted s := by
      intro hex
      rw [(h.bitmap k).mpr (hex k h1 h15)] at hk
      cases hk
    cases hp : s.opened p with
    | true =>
      refine iff_of_false (fun hok => not_open_reopened h hp h15 hk he hok.1) fun hv => ?_
      rw [hv.1] at hp
      cases hp
    | false =>
      exact iff_of_true ⟨open_vacant h hp h1 h15 hk he, fun hex => absurd hex hnex⟩
        ⟨hp, k, h1, h15, hk⟩
  · -- no channel is free, and the call says RT_EOK
    refine iff_of_false (fun hok => ?_) ?_
    · have hex : Exhausted s := fun i h1 h15 => (h.bitmap i).mp (hall i h1 h15)
      exact (hok.2 hex).1 rfl
    · intro ⟨_, i, h1, h15, hi⟩
      rw [hall i h1 h15] at hi
      cases hi

theorem close_ok {s : Usbh P} (h : PipesOk s) {p : P} (hp : s.opened p = true) :
    CallOk s (.closePipe p) := by
  have hbit : ∀ i, (after s (.closePipe p)).pipeIndex.getLsbD i =
      (s.pipeIndex.getLsbD i && !decide (s.channel p = i)) :=
    getLsbD_drvFreePipeIndex s.pipeIndex (h.range p hp).2
  have hopen : ∀ q, (after s (.closePipe p)).opened q = true ↔ q ≠ p ∧ s.opened q = true := by
    intro q
    rw [after_close_opened]
    simp
  refine ⟨?_, hbit⟩
  constructor
  case range =>
    intro q hq
    exact h.range q ((hopen q).mp hq).2
  case distinct =>
    intro q r hq hr hqr
    exact h.distinct q r ((hopen q).mp hq).2 ((hopen r).mp hr).2 hqr
  case bitmap =>
    intro i
    rw [hbit, Bool.and_eq_true, Bool.not_eq_true', decide_eq_false_iff_not, h.bitmap i]
    constructor
    · intro ⟨⟨q, hq, hc⟩, hne⟩
      exact ⟨q, (hopen q).mpr ⟨fun hqp => hne (hqp ▸ hc), hq⟩, hc⟩
    · intro ⟨q, hq, hc⟩
      obtain ⟨hne, hq⟩ := (hopen q).mp hq
      exact ⟨⟨q, hq, hc⟩, fun hp' => hne (h.distinct q p hq hp (hc.trans hp'.symm))⟩

/-! ## Runs -/

omit [DecidableEq P] in
theorem pipesOk_boot (hc : Nat → HcdHc) (pipes : P → Upipe) : PipesOk (boot hc pipes) := by
  refine ⟨fun _ h => (nomatch h), fun _ _ h => (nomatch h), fun i => ?_⟩
  refine iff_of_false ?_ fun ⟨_, h, _⟩ => (nomatch h)
  rw [show (boot hc pipes).pipeIndex.getLsbD i = false from BitVec.getLsbD_zero]
  exact Bool.false_ne_true

/-- For every run that closes open pipes only. -/
theorem pipesOk_iff (hc : Nat → HcdHc) (pipes : P → Upipe) (ops : List (PipeOp P))
    (hlegal : EachStep after Legal (boot hc pipes) ops) :
    EachStep after CallOk (boot hc pipes) ops ↔ EachStep after Vacant (boot hc pipes) ops := by
  have hstep : ∀ (s : Usbh P) op, PipesOk s →
      (Legal s op ∧ CallOk s op ↔ Legal s op ∧ Vacant s op) := by
    intro s op h
    cases op with
    | openPipe p => exact and_congr_right fun _ => open_iff h p
    | closePipe p => exact and_congr_right fun hp => iff_of_true (close_ok h hp) trivial
  have hrun := eachStep_iff PipesOk hstep (fun _ _ _ hok => hok.2.1) (pipesOk_boot hc pipes) ops
  rw [eachStep_and, eachStep_and, and_congr_right_iff] at hrun
  exact hrun hlegal

/-- A pipe of an endpoint that only its address matters of. -/
def endpoint (address : BitVec 8) : Upipe := ⟨0, address, 2, 64, 1⟩

def idleHc : HcdHc := ⟨0, 0, 0, 0, 0, 0, 0, 0, 0, 0⟩

/-- Two pipes, one of them closed, and a third that gets its channel. -/
theorem pipesOk_iff_reuse : EachStep after CallOk (boot (fun _ => idleHc) fun _ : Nat => endpoint 1)
    [.openPipe 0, .openPipe 1, .closePipe 0, .openPipe 2] := by
  have hlegal : EachStep after Legal (boot (fun _ => idleHc) fun _ : Nat => endpoint 1)
      [.openPipe 0, .openPipe 1, .closePipe 0, .openPipe 2] :=
    ⟨trivial, trivial, rfl, trivial, trivial⟩
  refine (pipesOk_iff _ _ _ hlegal).mpr ?_
  exact ⟨⟨rfl, 1, by decide⟩, ⟨rfl, 2, by decide⟩, trivial, ⟨rfl, 1, by decide⟩, trivial⟩

theorem legal_open (s : Usbh P) (ps : List P) : EachStep after Legal s (ps.map .openPipe) := by
  induction ps generalizing s with
  | nil => trivial
  | cons p ps ih => exact ⟨trivial, ih _⟩

/-- Sixteen pipes: the last gets channel 255. -/
theorem pipesOk_fails_sixteen : ¬ ∀ (hc : Nat → HcdHc) (pipes : Nat → Upipe)
    (ops : List (PipeOp Nat)), EachStep after Legal (boot hc pipes) ops →
      EachStep after CallOk (boot hc pipes) ops := by
  intro hall
  let s0 : Usbh Nat := boot (fun _ => idleHc) fun _ => endpoint 1
  have h := hall _ _ _ (legal_open s0 (List.range 16))
  rw [List.range_succ, List.map_append, List.map_singleton, eachStep_concat] at h
  have hok : PipesOk (((List.range 15).map .openPipe).foldl after s0) :=
    EachStep.foldl PipesOk (fun _ _ _ hok => hok.1) (pipesOk_boot _ _) h.1
  obtain ⟨-, i, h1, h15, hi⟩ := (open_iff hok 15).mp h.2
  have hbits : (((List.range 15).map .openPipe).foldl after s0).pipeIndex = 0xFFFE := by
    decide +kernel
  have hall' : ∀ i < 16, 1 ≤ i → (0xFFFE : BitVec 16).getLsbD i = true := by decide
  rw [hbits, hall' i (by omega) h1] at hi
  cases hi

end Live2dStm32.Usb
