import Mathlib.Data.Nat.ModEq
import Live2dStm32.Lib.Paged

/-
  What the two directions of the Ethernet driver (drivers/drv_eth.c) share: the ring of DMA
  descriptors with one buffer each, the pbufs of lwIP, and the restart of the DMA at the end.
  The HAL that sets the ring up is not part of the sources; its constants are fields of `Ring`.

  The buffers are memory of the board and a pbuf has less than 2^16 bytes, so that the counters
  of the copy loops stay far below 2^32 and are natural numbers here.
-/

namespace Live2dStm32.Eth

open Live2dStm32.Lib

/-- ETH_TXBUFNB buffers of ETH_TX_BUF_SIZE bytes, or the same of RX. `own` is the OWN bit of a
    descriptor's status, `stopped` the flag of DMASR for a DMA that found no descriptor. -/
structure Ring where
  nb : Nat
  size : Nat
  own : BitVec 32
  stopped : BitVec 32
  nb_pos : 0 < nb
  size_pos : 0 < size

/-- `polls`: the writes to the poll demand register. -/
structure DmaRing (r : Ring) where
  status : Fin r.nb → BitVec 32
  buf : Fin r.nb × Nat → BitVec 8
  dmasr : BitVec 32
  polls : Nat

/-- `Buffer2NextDescAddr`. -/
def Ring.next (r : Ring) (d : Fin r.nb) : Fin r.nb := ⟨(d + 1) % r.nb, Nat.mod_lt _ r.nb_pos⟩

/-- The `j`th descriptor from `d` on. -/
def Ring.desc (r : Ring) (d : Fin r.nb) (j : Nat) : Fin r.nb :=
  ⟨(d + j) % r.nb, Nat.mod_lt _ r.nb_pos⟩

def Ring.owned (r : Ring) (status : Fin r.nb → BitVec 32) (d : Fin r.nb) : Bool :=
  status d &&& r.own != 0

/-- DMASR is cleared by writing ones. -/
def DmaRing.resume {r : Ring} (h : DmaRing r) : DmaRing r :=
  if h.dmasr &&& r.stopped ≠ 0 then
    { h with dmasr := h.dmasr &&& ~~~r.stopped, polls := h.polls + 1 }
  else h

/-- A pbuf of a chain; `len` is the length of the payload. -/
structure Pbuf where
  payload : List (BitVec 8)
  len_lt : payload.length < 2 ^ 16

def totLen (p : List Pbuf) : Nat := (p.map (·.payload.length)).sum

@[simp] theorem Ring.desc_zero (r : Ring) (d : Fin r.nb) : r.desc d 0 = d :=
  Fin.ext (Nat.mod_eq_of_lt d.isLt)

@[simp] theorem Ring.next_desc (r : Ring) (d : Fin r.nb) (j : Nat) :
    r.next (r.desc d j) = r.desc d (j + 1) := by
  apply Fin.ext
  change ((d + j) % r.nb + 1) % r.nb = (d + (j + 1)) % r.nb
  rw [Nat.mod_add_mod, Nat.add_assoc]

theorem Ring.desc_next (r : Ring) (d : Fin r.nb) (j : Nat) :
    r.desc (r.next d) j = r.desc d (j + 1) := by
  apply Fin.ext
  change ((d + 1) % r.nb + j) % r.nb = (d + (j + 1)) % r.nb
  rw [Nat.mod_add_mod, Nat.add_assoc, Nat.add_comm 1 j]

/-- The ring comes round after `nb` descriptors. -/
theorem Ring.desc_inj (r : Ring) (d : Fin r.nb) :
    ∀ i < r.nb, ∀ j < r.nb, r.desc d i = r.desc d j → i = j := by
  intro i hi j hj h
  have hmod : (d + i) % r.nb = (d + j) % r.nb := congrArg Fin.val h
  have hij : i ≡ j [MOD r.nb] := Nat.ModEq.add_left_cancel' d.val hmod
  rw [Nat.ModEq, Nat.mod_eq_of_lt hi, Nat.mod_eq_of_lt hj] at hij
  exact hij

@[simp] theorem resume_status {r : Ring} (h : DmaRing r) : h.resume.status = h.status := by
  unfold DmaRing.resume
  split <;> rfl

/-- Four buffers of four bytes. -/
def smallRing : Ring := ⟨4, 4, 0x80000000, 0x20, by decide, by decide⟩

theorem length_payloads (p : List Pbuf) : (p.flatMap (·.payload)).length = totLen p := by
  rw [List.length_flatMap]
  rfl

end Live2dStm32.Eth
