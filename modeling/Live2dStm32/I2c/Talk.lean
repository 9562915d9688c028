import Live2dStm32.I2c.Levels

/-
  The master one level up: start conditions, stop conditions and clock pulses. What a slave does
  is the list of the bits it gives at the pulses to come, 0 to hold the data line. The functions
  of i2c-bit-ops.c above the byte are the same as on the wires, with `talkByteOps` below them.

  `Follows` relates the two: some bits of a slave make the upper level do what the wires did.
-/

namespace Live2dStm32.I2c

open Live2dStm32.Lib.TwoWire Live2dStm32.Kernel

/-- Free; in a transfer, the master holding the clock; free but for a slave on the data line. -/
inductive Phase where
  | idle
  | busy
  | stuck
  deriving DecidableEq, Repr

/-- `symbols` the latest first; `sda` is what the master drives. -/
structure Talk where
  bits : List Bool
  symbols : List Symbol
  phase : Phase
  sda : Bool
  deriving DecidableEq, Repr

namespace Talk

/-- A clock pulse: the bit on the wire is the master's and the slave's. -/
def pulse (t : Talk) (drive : Bool) : Talk × Bool :=
  let b := drive && t.bits.headD true
  (⟨t.bits.tail, .bit b :: t.symbols, .busy, drive⟩, b)

/-- From a bus that is not free there is no start condition. -/
def start (t : Talk) : Talk :=
  match t.phase with
  | .idle => ⟨t.bits, .start :: t.symbols, .busy, false⟩
  | .stuck => ⟨t.bits, .bit false :: t.symbols, .busy, false⟩
  | .busy => ⟨t.bits, t.symbols, .busy, false⟩

/-- A slave that holds the data line makes the restart a bit, and the stop nothing. -/
def restart (t : Talk) : Talk :=
  ⟨t.bits.tail, (if t.bits.headD true then .start else .bit false) :: t.symbols, .busy, false⟩

def stop (t : Talk) : Talk :=
  if t.bits.headD true then ⟨t.bits.tail, .stop :: t.symbols, .idle, true⟩
  else ⟨t.bits.tail, t.symbols, .stuck, true⟩

def writeBits (data : BitVec 8) : Nat → Talk → Talk
  | 0, t => t
  | i + 1, t => writeBits data i (t.pulse (data.getLsbD i)).1

/-- 1 for an acknowledge. -/
def writeb (t : Talk) (data : BitVec 8) : Talk × Int :=
  let r := (writeBits data 8 t).pulse true
  (r.1, if r.2 then 0 else 1)

def readBits (data : BitVec 8) : Nat → Talk → Talk × Int
  | 0, t => (t, data.toNat)
  | rounds + 1, t =>
    let r := t.pulse true
    readBits (if r.2 then (data <<< 1) ||| 1 else data <<< 1) rounds r.1

/-- The master has let the data line go, also before a pulse. -/
def readb (t : Talk) : Talk × Int := readBits 0 8 { t with sda := true }

def sendAckOrNack (t : Talk) (ack : Nat) : Talk × Int :=
  ((t.pulse (if ack ≠ 0 then false else t.sda)).1, rtEok)

end Talk

def talkByteOps : ByteOps Talk where
  writeb := Talk.writeb
  readb := Talk.readb
  sendAckOrNack := Talk.sendAckOrNack
  start := Talk.start
  restart := Talk.restart
  stop := Talk.stop
  delay2 := id

/-! ## The two levels -/

variable {M : Type} {dev : PinDev M} {slave : Slave} {cfg : SoftI2cConfig dev}

/-- In a transfer. -/
structure Busy (slave : Slave) (cfg : SoftI2cConfig dev) (b : Bus M) (t : Talk) : Prop where
  phase : t.phase = .busy
  low : Low slave cfg b t.sda t.symbols

/-- Between transfers: the clock is high, and the data line says which phase it is. -/
structure Resting (slave : Slave) (cfg : SoftI2cConfig dev) (b : Bus M) (t : Talk) : Prop where
  phase : t.phase = if wireOf slave cfg.sda b.acts then .idle else .stuck
  clock : wireOf slave cfg.scl b.acts = true
  released : ∃ pending, Released slave cfg b true pending t.symbols ∧
    (wireOf slave cfg.sda b.acts = false → pending = some false)

/-- What the wires did from `t` on is what the upper level does, for some bits of a slave. -/
def Follows {α : Type} (P : Bus M → Talk → Prop) (r : Bus M × α) (F : Talk → Talk × α)
    (t : Talk) : Prop :=
  ∃ bits t', P r.1 t' ∧
    ∀ rest, F { t with bits := bits ++ rest } = ({ t' with bits := rest }, r.2)

variable {α γ : Type} {P Q : Bus M → Talk → Prop} {r : Bus M × α} {F : Talk → Talk × α} {t : Talk}

/-- `P` does not look at the bits to come. -/
theorem Follows.pure {b : Bus M} {a : α} (h : P b t) : Follows P (b, a) (fun t => (t, a)) t :=
  ⟨[], t, h, fun _ => rfl⟩

/-- One after the other: `K` goes on at the upper level. -/
theorem Follows.bind {r' : Bus M × γ} (K : Talk × α → Talk × γ) (h : Follows P r F t)
    (hk : ∀ t', P r.1 t' → Follows Q r' (fun t => K (t, r.2)) t') :
    Follows Q r' (fun t => K (F t)) t := by
  obtain ⟨bits, t', hp, hF⟩ := h
  obtain ⟨bits', t'', hq, hK⟩ := hk t' hp
  refine ⟨bits ++ bits', t'', hq, fun rest => ?_⟩
  rw [List.append_assoc]
  change K (F _) = _
  rw [hF]
  exact hK rest

/-- After a function without a result. -/
theorem Follows.step {b : Bus M} {r' : Bus M × γ} {f : Talk → Talk} (K : Talk → Talk × γ)
    (h : Follows P (b, ()) (fun t => (f t, ())) t) (hk : ∀ t', P b t' → Follows Q r' K t') :
    Follows Q r' (fun t => K (f t)) t :=
  Follows.bind (fun r => K r.1) h hk

theorem Follows.weaken (h : Follows P r F t) (hq : ∀ b t, P b t → Q b t) : Follows Q r F t := by
  obtain ⟨bits, t', hp, hF⟩ := h
  exact ⟨bits, t', hq _ _ hp, hF⟩

end Live2dStm32.I2c
