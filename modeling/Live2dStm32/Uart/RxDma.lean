import Mathlib.Tactic.Common
import Mathlib.Algebra.GroupWithZero.Nat
import Live2dStm32.Lib.Machine

/-
  Reception by circular DMA in the UART driver (drivers/drv_usart.c, RT_SERIAL_USING_DMA): the
  idle branch of `uart_isr`, and `dma_isr`, which the half-transfer and transfer-complete
  callbacks of the HAL call. Both take the position of the DMA in the ring from its counter and
  report how far it moved since the last service.

  The DMA stores bytes at any time, and flags wait for their service any time. A service is one
  step: it reads the counter once, with interrupts disabled.

  `accounted_iff`: the reports account for every byte exactly when no idle service finds the
  position wrapped since the last service, and no service of the DMA finds it wrapped and past
  index 0, or at index 0 with nothing new.
-/

namespace Live2dStm32.Uart

open Live2dStm32.Lib

/-- `serial->config.bufsz`, a field of 16 bits, and the position the DMA raises the
    half-transfer flag at. -/
structure RxConfig where
  bufsz : BitVec 16
  half : Nat
  one_lt : 1 < bufsz.toNat

/-- Which interrupts of the UART and the DMA stream are enabled. -/
structure ItSource where
  rxne : Bool
  idle : Bool
  dmaTc : Bool
  dmaHt : Bool

/-- What `stm32_dma_config` leaves for RT_DEVICE_FLAG_DMA_RX: IDLE is enabled in place of RXNE,
    and HAL_DMA_Start_IT has enabled both DMA interrupts. -/
def ItSource.dmaRx : ItSource := ⟨false, true, true, true⟩

/-- `stored`: the bytes the DMA has stored since it was started; `seen`: how many those were
    when the counter was last read. `reported`: the `recv_len` of each RX_DMADONE, newest
    first. -/
structure RxDma where
  stored : Nat
  htFlag : Bool
  tcFlag : Bool
  idleFlag : Bool
  lastIndex : BitVec 32
  seen : Nat
  reported : List (BitVec 32)
  deriving DecidableEq, Repr

def RxDma.start : RxDma := ⟨0, false, false, false, 0, 0, []⟩

/-- `__HAL_DMA_GET_COUNTER`: counts down from `bufsz`, and from 1 back to it. -/
def RxDma.counter (c : RxConfig) (s : RxDma) : BitVec 32 :=
  BitVec.ofNat 32 (c.bufsz.toNat - s.stored % c.bufsz.toNat)

/-- The new `last_index`, and the event unless `recv_len` is 0. -/
def RxDma.report (s : RxDma) (recvTotalIndex recvLen : BitVec 32) : RxDma :=
  { s with
    lastIndex := recvTotalIndex
    seen := s.stored
    reported := if recvLen ≠ 0 then recvLen :: s.reported else s.reported }

/-- `uart_isr`; `rxne` is the RXNE flag. The other branches leave the reception alone. -/
def uartIsr (c : RxConfig) (it : ItSource) (rxne : Bool) (s : RxDma) : RxDma :=
  if rxne && it.rxne then s
  else if s.idleFlag && it.idle then
    let recvTotalIndex := c.bufsz.setWidth 32 - s.counter c
    let recvLen := recvTotalIndex - s.lastIndex
    { s.report recvTotalIndex recvLen with idleFlag := false }
  else s

def dmaIsr (c : RxConfig) (it : ItSource) (s : RxDma) : RxDma :=
  if it.dmaTc || it.dmaHt then
    let recvTotalIndex := c.bufsz.setWidth 32 - s.counter c
    let recvLen :=
      if recvTotalIndex = 0 then c.bufsz.setWidth 32 - s.lastIndex
      else recvTotalIndex - s.lastIndex
    s.report recvTotalIndex recvLen
  else s

/-- The DMA stores a byte; the line goes idle; the UART interrupt; the two parts of
    `HAL_DMA_IRQHandler`, half transfer and transfer complete. -/
inductive RxEvent where
  | store
  | lineIdle
  | uart (rxne : Bool)
  | dmaHalf
  | dmaComplete
  deriving DecidableEq, Repr

def step (c : RxConfig) (s : RxDma) : RxEvent → RxDma
  | .store =>
    { s with
      stored := s.stored + 1
      htFlag := s.htFlag || (s.stored + 1) % c.bufsz.toNat == c.half
      tcFlag := s.tcFlag || (s.stored + 1) % c.bufsz.toNat == 0 }
  | .lineIdle => { s with idleFlag := true }
  | .uart rxne => uartIsr c .dmaRx rxne s
  | .dmaHalf => if s.htFlag then dmaIsr c .dmaRx { s with htFlag := false } else s
  | .dmaComplete => if s.tcFlag then dmaIsr c .dmaRx { s with tcFlag := false } else s

/-! ## The law -/

/-- Fewer than `bufsz` bytes come between two services. -/
def Paced (c : RxConfig) (s : RxDma) : RxEvent → Prop
  | .store => s.stored + 1 - s.seen < c.bufsz.toNat
  | _ => True

instance (c : RxConfig) (s : RxDma) : (e : RxEvent) → Decidable (Paced c s e)
  | .store => inferInstanceAs (Decidable (_ < _))
  | .lineIdle | .uart _ | .dmaHalf | .dmaComplete => inferInstanceAs (Decidable True)

/-- The reports add up to the bytes stored when the counter was last read. -/
structure Accounted (c : RxConfig) (s : RxDma) : Prop where
  sum : (s.reported.map BitVec.toNat).sum = s.seen
  index : s.lastIndex.toNat = s.seen % c.bufsz.toNat
  each : ∀ recvLen ∈ s.reported, recvLen.toNat ≤ c.bufsz.toNat

/-- Where the DMA is, counted from the start of the lap it was in at the last service. -/
def RxDma.into (c : RxConfig) (s : RxDma) : Nat := s.seen % c.bufsz.toNat + (s.stored - s.seen)

/-- The services that find the DMA where their handler expects it. -/
def InLap (c : RxConfig) (s : RxDma) : RxEvent → Prop
  | .uart _ => s.idleFlag = true → s.into c < c.bufsz.toNat
  | .dmaHalf => s.htFlag = true → 0 < s.into c ∧ s.into c ≤ c.bufsz.toNat
  | .dmaComplete => s.tcFlag = true → 0 < s.into c ∧ s.into c ≤ c.bufsz.toNat
  | _ => True

/-! ## One service -/

variable {c : RxConfig} {s : RxDma}

@[simp] theorem toNat_bufsz (c : RxConfig) : (c.bufsz.setWidth 32).toNat = c.bufsz.toNat :=
  BitVec.toNat_setWidth_of_le (by decide)

theorem RxConfig.bufsz_pos (c : RxConfig) : 0 < c.bufsz.toNat := Nat.lt_of_succ_lt c.one_lt

/-- `recv_total_index` is the position in the ring. -/
theorem recvTotalIndex_toNat (c : RxConfig) (s : RxDma) :
    (c.bufsz.setWidth 32 - s.counter c).toNat = s.stored % c.bufsz.toNat := by
  have hb : c.bufsz.toNat < 2 ^ 16 := c.bufsz.isLt
  have hm := Nat.mod_lt s.stored c.bufsz_pos
  have hc : (s.counter c).toNat = c.bufsz.toNat - s.stored % c.bufsz.toNat := by
    unfold RxDma.counter
    rw [BitVec.toNat_ofNat, Nat.mod_eq_of_lt (by omega)]
  have hle : s.counter c ≤ c.bufsz.setWidth 32 := by
    rw [BitVec.le_def, toNat_bufsz, hc]
    omega
  rw [BitVec.toNat_sub_of_le hle, toNat_bufsz, hc]
  omega

/-- What the DMA has stored since, as a sum with the position. -/
structure Inv (c : RxConfig) (s : RxDma) : Prop where
  accounted : Accounted c s
  seen_le : s.seen ≤ s.stored

theorem inv_start (c : RxConfig) : Inv c .start :=
  ⟨⟨rfl, (Nat.zero_mod _).symm, fun _ h => (nomatch h)⟩, Nat.le_refl 0⟩

/-- The flags are no part of the account. -/
theorem accounted_congr {t : RxDma} (hr : s.reported = t.reported) (hs : s.seen = t.seen)
    (hl : s.lastIndex = t.lastIndex) : Accounted c s ↔ Accounted c t := by
  constructor
  · intro ⟨h1, h2, h3⟩
    exact ⟨hr ▸ hs ▸ h1, hs ▸ hl ▸ h2, hr ▸ h3⟩
  · intro ⟨h1, h2, h3⟩
    exact ⟨hr ▸ hs ▸ h1, hs ▸ hl ▸ h2, hr ▸ h3⟩

/-- A report keeps the account exactly when it is the number of new bytes. -/
theorem accounted_report_iff (h : Inv c s) {total recvLen : BitVec 32}
    (ht : total.toNat = s.stored % c.bufsz.toNat) :
    Accounted c (s.report total recvLen) ↔
      recvLen.toNat = s.stored - s.seen ∧ recvLen.toNat ≤ c.bufsz.toNat := by
  have hseen := h.seen_le
  have hsum := h.accounted.sum
  by_cases h0 : recvLen = 0
  · subst h0
    have hr : (s.report total 0).reported = s.reported := rfl
    have hz : (0 : BitVec 32).toNat = 0 := rfl
    rw [hz]
    constructor
    · intro ha
      have := ha.sum
      rw [hr, hsum] at this
      change s.seen = s.stored at this
      exact ⟨by omega, Nat.zero_le _⟩
    · intro ⟨hd, _⟩
      refine ⟨?_, ht, ?_⟩
      · rw [hr, hsum]
        change s.seen = s.stored
        omega
      · rw [hr]
        exact h.accounted.each
  · have hr : (s.report total recvLen).reported = recvLen :: s.reported := if_pos h0
    constructor
    · intro ha
      have := ha.sum
      rw [hr, List.map_cons, List.sum_cons, hsum] at this
      change recvLen.toNat + s.seen = s.stored at this
      refine ⟨by omega, ha.each recvLen ?_⟩
      rw [hr]
      exact List.mem_cons_self
    · intro ⟨hd, hle⟩
      refine ⟨?_, ht, ?_⟩
      · rw [hr, List.map_cons, List.sum_cons, hsum]
        change recvLen.toNat + s.seen = s.stored
        omega
      · rw [hr]
        exact List.forall_mem_cons.mpr ⟨hle, h.accounted.each⟩

theorem lastIndex_lt (h : Inv c s) : s.lastIndex.toNat < c.bufsz.toNat :=
  h.accounted.index ▸ Nat.mod_lt _ c.bufsz_pos

theorem into_eq (h : Inv c s) : s.into c = s.lastIndex.toNat + (s.stored - s.seen) := by
  rw [h.accounted.index]
  rfl

/-- The position by laps: the same lap, or later ones. -/
theorem stored_mod (h : s.seen ≤ s.stored) (c : RxConfig) :
    s.stored % c.bufsz.toNat = s.into c % c.bufsz.toNat := by
  unfold RxDma.into
  rw [Nat.mod_add_mod]
  congr 1
  omega

/-- In 32 bits, the difference of two positions is the distance only without a wrap. -/
theorem sub_eq_iff {n d : Nat} {total last : BitVec 32} (hlast : last.toNat < n)
    (hn : n < 2 ^ 16) (ht : total.toNat = (last.toNat + d) % n) :
    ((total - last).toNat = d ∧ (total - last).toNat ≤ n) ↔ last.toNat + d < n := by
  have hlt : total.toNat < n := ht ▸ Nat.mod_lt _ (by omega)
  rw [BitVec.toNat_sub]
  constructor
  · intro ⟨hd, hle⟩
    omega
  · intro h
    rw [Nat.mod_eq_of_lt h] at ht
    omega

theorem idle_iff (h : Inv c s) (rxne : Bool) :
    Accounted c (uartIsr c .dmaRx rxne s) ↔ InLap c s (.uart rxne) := by
  have hrxne : ¬ (rxne && ItSource.dmaRx.rxne) = true := by cases rxne <;> decide
  unfold uartIsr InLap
  rw [if_neg hrxne]
  cases hi : s.idleFlag with
  | false => exact iff_of_true h.accounted fun h => nomatch h
  | true =>
    have ht := recvTotalIndex_toNat c s
    have hpos : (c.bufsz.setWidth 32 - s.counter c).toNat =
        (s.lastIndex.toNat + (s.stored - s.seen)) % c.bufsz.toNat := by
      rw [ht, stored_mod h.seen_le, into_eq h]
    have hr := (accounted_report_iff h ht).trans
      (sub_eq_iff (lastIndex_lt h) c.bufsz.isLt hpos)
    rw [← into_eq h] at hr
    rw [if_pos (by decide)]
    dsimp only
    rw [forall_prop_of_true rfl, ← hr]
    exact accounted_congr rfl rfl rfl

/-- The service of the DMA takes index 0 for the end of the lap. -/
theorem dmaIsr_iff (h : Inv c s) : Accounted c (dmaIsr c .dmaRx s) ↔
    0 < s.into c ∧ s.into c ≤ c.bufsz.toNat := by
  have ht := recvTotalIndex_toNat c s
  have hb : c.bufsz.toNat < 2 ^ 16 := c.bufsz.isLt
  have hlast := lastIndex_lt h
  have hinto := into_eq h
  have hmod := stored_mod h.seen_le c
  unfold dmaIsr
  rw [if_pos (by decide)]
  dsimp only
  rw [accounted_report_iff h ht]
  by_cases h0 : c.bufsz.setWidth 32 - s.counter c = 0
  · have hz : s.into c % c.bufsz.toNat = 0 := by
      rw [← hmod, ← ht, h0]
      rfl
    have hle : s.lastIndex ≤ c.bufsz.setWidth 32 := by
      rw [BitVec.le_def, toNat_bufsz]
      exact Nat.le_of_lt hlast
    rw [if_pos h0, BitVec.toNat_sub_of_le hle, toNat_bufsz]
    constructor
    · omega
    · intro ⟨hpos, hn⟩
      have hfull : s.into c = c.bufsz.toNat := by
        rcases Nat.lt_or_eq_of_le hn with hlt | heq
        · rw [Nat.mod_eq_of_lt hlt] at hz
          omega
        · exact heq
      omega
  · have hpos : s.stored % c.bufsz.toNat ≠ 0 := fun hz =>
      h0 (BitVec.eq_of_toNat_eq (ht.trans hz))
    have hd := sub_eq_iff (d := s.stored - s.seen) hlast hb (by rw [ht, hmod, hinto])
    rw [if_neg h0, hd, ← hinto]
    -- not at index 0: not at the end of the lap either
    have hne : s.into c ≠ c.bufsz.toNat := fun heq => by
      rw [hmod, heq, Nat.mod_self] at hpos
      exact hpos rfl
    have hne0 : s.into c ≠ 0 := fun heq => by
      rw [hmod, heq, Nat.zero_mod] at hpos
      exact hpos rfl
    omega

/-- A service of the DMA takes place when its flag is set; `t` has the flag cleared. -/
theorem dmaService_iff {t : RxDma} (h : Inv c s) (ht : Inv c t) (hinto : t.into c = s.into c)
    (flag : Bool) : Accounted c (if flag then dmaIsr c .dmaRx t else s) ↔
      (flag = true → 0 < s.into c ∧ s.into c ≤ c.bufsz.toNat) := by
  cases flag with
  | false => exact iff_of_true h.accounted fun h => nomatch h
  | true =>
    rw [if_pos rfl, forall_prop_of_true rfl, ← hinto]
    exact dmaIsr_iff ht

theorem accounted_step_iff (h : Inv c s) (e : RxEvent) :
    Accounted c (step c s e) ↔ InLap c s e := by
  cases e with
  | store => exact iff_of_true ⟨h.accounted.sum, h.accounted.index, h.accounted.each⟩ trivial
  | lineIdle => exact iff_of_true ⟨h.accounted.sum, h.accounted.index, h.accounted.each⟩ trivial
  | uart rxne => exact idle_iff h rxne
  | dmaHalf =>
    have hi : Inv c { s with htFlag := false } :=
      ⟨⟨h.accounted.sum, h.accounted.index, h.accounted.each⟩, h.seen_le⟩
    exact dmaService_iff h hi rfl s.htFlag
  | dmaComplete =>
    have hi : Inv c { s with tcFlag := false } :=
      ⟨⟨h.accounted.sum, h.accounted.index, h.accounted.each⟩, h.seen_le⟩
    exact dmaService_iff h hi rfl s.tcFlag

/-- A service reads the counter at the bytes stored, and stores none. -/
theorem seen_le_step (h : s.seen ≤ s.stored) (e : RxEvent) :
    (step c s e).seen ≤ (step c s e).stored := by
  cases e with
  | store => exact Nat.le_succ_of_le h
  | lineIdle => exact h
  | uart rxne =>
    change (uartIsr c .dmaRx rxne s).seen ≤ (uartIsr c .dmaRx rxne s).stored
    unfold uartIsr
    split
    · exact h
    · split
      · exact Nat.le_refl s.stored
      · exact h
  | dmaHalf =>
    unfold step
    dsimp only
    split
    · exact Nat.le_refl s.stored
    · exact h
  | dmaComplete =>
    unfold step
    dsimp only
    split
    · exact Nat.le_refl s.stored
    · exact h

/-! ## Runs -/

/-- For every buffer size and every interleaving. -/
theorem accounted_iff (c : RxConfig) (events : List RxEvent) :
    EachStep (step c) (fun s e => Accounted c (step c s e)) .start events ↔
      EachStep (step c) (InLap c) .start events :=
  eachStep_iff (Inv c) (fun _ e h => accounted_step_iff h e)
    (fun _ e h ha => ⟨ha, seen_le_step h.seen_le e⟩) (inv_start c) events

/-- Five bytes in a ring of four, three of them reported. The idle service comes before the one
    for the wrap and finds the position at 1: its `recv_len` is 1 - 3 in 32 bits. -/
theorem accounted_fails_idle : let c : RxConfig := ⟨4, 2, by decide⟩
    let events : List RxEvent := [.store, .store, .store, .dmaHalf, .store, .store, .lineIdle,
      .uart false]
    EachStep (step c) (Paced c) .start events ∧
      ¬ EachStep (step c) (fun s e => Accounted c (step c s e)) .start events := by
  refine ⟨⟨by decide, by decide, by decide, trivial, by decide, by decide, trivial, trivial,
    trivial⟩, ?_⟩
  intro ⟨_, _, _, _, _, _, _, h, _⟩
  exact absurd h.sum (by decide)

end Live2dStm32.Uart
