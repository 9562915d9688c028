import Live2dStm32.I2c.BitOps
import Live2dStm32.Lib.WireCode

/-
  The primitives of the bit-banging master on the wires. `Device` is what a slave may do: it
  moves the data line only while the clock is low, and it starts to hold the clock only then.

  Between two primitives the bus is `Low`, the master holding the clock, or `Released`: the clock
  let go, high or held by the slave. The lemmas say what each primitive makes of these, and of
  what has been decoded.
-/

namespace Live2dStm32.I2c

open Live2dStm32.Lib.TwoWire Live2dStm32.Kernel Live2dStm32.Hal.Gpio Live2dStm32.Gpio

/-- Whether the master lets the wire of a pin go: its latest write. -/
def drives (pin : Int) : List Act → Bool
  | [] => true
  | .write p value :: acts => if p = pin then value ≠ 0 else drives pin acts
  | _ :: acts => drives pin acts

/-- The level of a wire of two open drains. -/
def wireOf (slave : Slave) (pin : Int) (acts : List Act) : Bool :=
  drives pin acts && slave acts pin

/-- While the clock is high, and stays so for the master, the slave leaves both lines alone. -/
structure Device (slave : Slave) (scl sda : Int) : Prop where
  clock : ∀ act acts, wireOf slave scl acts = true → drives scl (act :: acts) = true →
    slave (act :: acts) scl = true
  data : ∀ act acts, wireOf slave scl acts = true → drives scl (act :: acts) = true →
    slave (act :: acts) sda = slave acts sda

variable {M : Type} {dev : PinDev M} {slave : Slave} {cfg : SoftI2cConfig dev} {b : Bus M}

/-! ## Pins and acts -/

/-- Both pins are open drains set by the latest writes. -/
structure Tracks (cfg : SoftI2cConfig dev) (b : Bus M) : Prop where
  scl : dev.pad b.pins cfg.scl = ⟨true, true, drives cfg.scl b.acts⟩
  sda : dev.pad b.pins cfg.sda = ⟨true, true, drives cfg.sda b.acts⟩

/-- What is on the two wires. -/
def linesOf (slave : Slave) (cfg : SoftI2cConfig dev) (acts : List Act) : Lines :=
  ⟨wireOf slave cfg.scl acts, wireOf slave cfg.sda acts⟩

theorem level_of_pad {pin : Int} {out : Bool} (h : dev.pad b.pins pin = ⟨true, true, out⟩) :
    level dev slave b pin = (out && slave b.acts pin) := by
  simp [level, h, Pad.low]

theorem Tracks.lines (h : Tracks cfg b) :
    (⟨level dev slave b cfg.scl, level dev slave b cfg.sda⟩ : Lines) =
      linesOf slave cfg b.acts := by
  rw [level_of_pad h.scl, level_of_pad h.sda]
  rfl

/-- What was seen on the wires of a bus. -/
def seen (cfg : SoftI2cConfig dev) (b : Bus M) : Wire :=
  decode (b.wave.map fun level => ⟨level cfg.scl, level cfg.sda⟩)

/-- An act that writes neither pin. -/
def Passive (cfg : SoftI2cConfig dev) (act : Act) : Prop :=
  ∀ pin value, act = .write pin value → pin ≠ cfg.scl ∧ pin ≠ cfg.sda

theorem drives_passive {act : Act} {pin : Int} (acts : List Act)
    (h : ∀ p value, act = .write p value → p ≠ pin) :
    drives pin (act :: acts) = drives pin acts := by
  cases act with
  | write p value => exact if_neg (h p value rfl)
  | mode p mode => rfl
  | read p => rfl
  | delay us => rfl

theorem Tracks.passive {act : Act} (h : Tracks cfg b) (ha : Passive cfg act) :
    Tracks cfg (b.after dev slave act b.pins) where
  scl := by
    change dev.pad b.pins cfg.scl = ⟨true, true, drives cfg.scl (act :: b.acts)⟩
    rw [drives_passive b.acts fun p v hw => (ha p v hw).1]
    exact h.scl
  sda := by
    change dev.pad b.pins cfg.sda = ⟨true, true, drives cfg.sda (act :: b.acts)⟩
    rw [drives_passive b.acts fun p v hw => (ha p v hw).2]
    exact h.sda

theorem Tracks.writeSda (h : Tracks cfg b) (value : Int) :
    Tracks cfg (rtPinWrite dev slave b cfg.sda value) where
  scl := by
    rw [pad_write_scl, h.scl]
    exact congrArg (Pad.mk true true) (if_neg cfg.sdaNe).symm
  sda := by
    change dev.pad (dev.pinWrite b.pins cfg.sda value) cfg.sda = _
    rw [dev.pad_write _ _ _ cfg.sdaPin, h.sda]
    exact congrArg (Pad.mk true true) (if_pos rfl).symm

theorem Tracks.writeScl (h : Tracks cfg b) (value : Int) :
    Tracks cfg (rtPinWrite dev slave b cfg.scl value) where
  scl := by
    change dev.pad (dev.pinWrite b.pins cfg.scl value) cfg.scl = _
    rw [dev.pad_write _ _ _ cfg.sclPin, h.scl]
    exact congrArg (Pad.mk true true) (if_pos rfl).symm
  sda := by
    change dev.pad (dev.pinWrite b.pins cfg.scl value) cfg.sda = _
    rw [dev.pad_write_ne _ _ _ _ cfg.sclPin cfg.sdaPin cfg.sdaNe, h.sda]
    exact congrArg (Pad.mk true true) (if_neg cfg.sdaNe.symm).symm

/-- Every act is one sample more. -/
theorem seen_after (act : Act) (pins : M) (h : Tracks cfg (b.after dev slave act pins)) :
    seen cfg (b.after dev slave act pins) =
      (seen cfg b).feed (linesOf slave cfg (act :: b.acts)) := by
  change (seen cfg b).feed ⟨level dev slave _ cfg.scl, level dev slave _ cfg.sda⟩ = _
  exact congrArg _ h.lines

/-! ## The phases of a clock pulse -/

/-- The master holds the clock, and drives the data line with `v`. -/
structure Low (slave : Slave) (cfg : SoftI2cConfig dev) (b : Bus M) (v : Bool)
    (symbols : List Symbol) : Prop where
  tracks : Tracks cfg b
  scl : drives cfg.scl b.acts = false
  sda : drives cfg.sda b.acts = v
  wire : seen cfg b = ⟨linesOf slave cfg b.acts, none, symbols⟩

/-- The master lets the clock go; `pending` is what a high clock stands for. -/
structure Released (slave : Slave) (cfg : SoftI2cConfig dev) (b : Bus M) (v : Bool)
    (pending : Option Bool) (symbols : List Symbol) : Prop where
  tracks : Tracks cfg b
  scl : drives cfg.scl b.acts = true
  sda : drives cfg.sda b.acts = v
  wire : seen cfg b = ⟨linesOf slave cfg b.acts, pending, symbols⟩

/-- In the pulse of a bit: once the clock is high, its bit is the data line. -/
def Rising (slave : Slave) (cfg : SoftI2cConfig dev) (b : Bus M) (v : Bool)
    (symbols : List Symbol) : Prop :=
  Released slave cfg b v
    (if wireOf slave cfg.scl b.acts then some (wireOf slave cfg.sda b.acts) else none) symbols

variable {v : Bool} {symbols : List Symbol} {pending : Option Bool}

theorem wireOf_of_drives {pin : Int} {acts : List Act} (h : drives pin acts = false) :
    wireOf slave pin acts = false := by
  simp [wireOf, h]

theorem drives_write_same (pin value : Int) (acts : List Act) :
    drives pin (.write pin value :: acts) = decide (value ≠ 0) := if_pos rfl

theorem drives_write_ne {pin other : Int} (h : other ≠ pin) (value : Int) (acts : List Act) :
    drives pin (.write other value :: acts) = drives pin acts := if_neg h

theorem Passive.keeps {act : Act} (h : Passive cfg act) (acts : List Act) :
    drives cfg.scl (act :: acts) = drives cfg.scl acts ∧
      drives cfg.sda (act :: acts) = drives cfg.sda acts :=
  ⟨drives_passive acts fun p v hw => (h p v hw).1, drives_passive acts fun p v hw => (h p v hw).2⟩

/-! ### A low clock -/

/-- Whatever the data line does under a low clock means nothing. -/
theorem seen_of_low (h : Low slave cfg b v symbols) {act : Act} {pins : M}
    (ht : Tracks cfg (b.after dev slave act pins))
    (hc : wireOf slave cfg.scl (act :: b.acts) = false) :
    seen cfg (b.after dev slave act pins) = ⟨linesOf slave cfg (act :: b.acts), none, symbols⟩ := by
  have hlow : (linesOf slave cfg b.acts).scl = false := wireOf_of_drives h.scl
  have hlow' : (linesOf slave cfg (act :: b.acts)).scl = false := hc
  rw [seen_after act pins ht, h.wire, feed_of_low hlow, hlow']
  rfl

theorem Low.passive (h : Low slave cfg b v symbols) {act : Act} (ha : Passive cfg act) :
    Low slave cfg (b.after dev slave act b.pins) v symbols := by
  obtain ⟨hscl, hsda⟩ := ha.keeps b.acts
  have hc : wireOf slave cfg.scl (act :: b.acts) = false := wireOf_of_drives (hscl.trans h.scl)
  exact ⟨h.tracks.passive ha, hscl.trans h.scl, hsda.trans h.sda,
    seen_of_low h (h.tracks.passive ha) hc⟩

theorem Low.writeSda (h : Low slave cfg b v symbols) (value : Int) :
    Low slave cfg (rtPinWrite dev slave b cfg.sda value) (decide (value ≠ 0)) symbols := by
  have hscl := (drives_write_ne cfg.sdaNe value b.acts).trans h.scl
  exact ⟨h.tracks.writeSda value, hscl, drives_write_same _ _ _,
    seen_of_low h (h.tracks.writeSda value) (wireOf_of_drives hscl)⟩

theorem Low.writeScl (h : Low slave cfg b v symbols) :
    Low slave cfg (rtPinWrite dev slave b cfg.scl pinLow) v symbols := by
  have hscl : drives cfg.scl (.write cfg.scl pinLow :: b.acts) = false := drives_write_same _ _ _
  exact ⟨h.tracks.writeScl pinLow, hscl,
    (drives_write_ne cfg.sdaNe.symm pinLow b.acts).trans h.sda,
    seen_of_low h (h.tracks.writeScl pinLow) (wireOf_of_drives hscl)⟩

/-! ### The clock goes up -/

/-- A sample after a low clock. -/
theorem feed_rising {w : Wire} {acts : List Act} (hw : w.lines.scl = false)
    (hp : w.pending = none) :
    w.feed (linesOf slave cfg acts) = ⟨linesOf slave cfg acts,
      if wireOf slave cfg.scl acts then some (wireOf slave cfg.sda acts) else none,
      w.symbols⟩ := by
  obtain ⟨lines, pending, symbols⟩ := w
  subst hp
  rw [feed_of_low hw]
  by_cases hc : wireOf slave cfg.scl acts = true <;> simp [linesOf, hc]

theorem Low.release (h : Low slave cfg b v symbols) :
    Rising slave cfg (rtPinWrite dev slave b cfg.scl pinHigh) v symbols := by
  refine ⟨h.tracks.writeScl pinHigh, drives_write_same _ _ _,
    (drives_write_ne cfg.sdaNe.symm pinHigh b.acts).trans h.sda, ?_⟩
  have hlow : (seen cfg b).lines.scl = false := by
    rw [h.wire]
    exact wireOf_of_drives h.scl
  have hp : (seen cfg b).pending = none := by rw [h.wire]
  refine (seen_after _ _ (h.tracks.writeScl pinHigh)).trans ?_
  rw [feed_rising hlow hp, h.wire]
  rfl

/-! ### A high clock -/

/-- A sample under a high clock at which the master lets the clock go. -/
theorem seen_of_high (hd : Device slave cfg.scl cfg.sda)
    (h : Released slave cfg b v pending symbols) (hc : wireOf slave cfg.scl b.acts = true)
    {act : Act} {pins : M}
    (ht : Tracks cfg (b.after dev slave act pins)) (hscl : drives cfg.scl (act :: b.acts) = true) :
    wireOf slave cfg.scl (act :: b.acts) = true ∧
      slave (act :: b.acts) cfg.sda = slave b.acts cfg.sda ∧
      seen cfg (b.after dev slave act pins) =
        if wireOf slave cfg.sda b.acts = wireOf slave cfg.sda (act :: b.acts) then
          ⟨linesOf slave cfg (act :: b.acts), pending, symbols⟩
        else ⟨linesOf slave cfg (act :: b.acts), none,
          (if wireOf slave cfg.sda (act :: b.acts) then .stop else .start) :: symbols⟩ := by
  have hc' : wireOf slave cfg.scl (act :: b.acts) = true := by
    rw [wireOf, hscl, hd.clock act b.acts hc hscl]
    rfl
  refine ⟨hc', hd.data act b.acts hc hscl, ?_⟩
  rw [seen_after act pins ht, h.wire, feed_of_high hc hc']
  rfl

theorem Released.passive (hd : Device slave cfg.scl cfg.sda)
    (h : Released slave cfg b v pending symbols) (hc : wireOf slave cfg.scl b.acts = true)
    {act : Act} (ha : Passive cfg act) :
    Released slave cfg (b.after dev slave act b.pins) v pending symbols ∧
      wireOf slave cfg.scl (act :: b.acts) = true ∧
      wireOf slave cfg.sda (act :: b.acts) = wireOf slave cfg.sda b.acts := by
  obtain ⟨hscl, hsda⟩ := ha.keeps b.acts
  have ht : Tracks cfg (b.after dev slave act b.pins) := h.tracks.passive ha
  obtain ⟨hc', hdata, hseen⟩ := seen_of_high hd h hc ht (hscl.trans h.scl)
  have hline : wireOf slave cfg.sda (act :: b.acts) = wireOf slave cfg.sda b.acts := by
    rw [wireOf, hsda, hdata]
    rfl
  refine ⟨⟨ht, hscl.trans h.scl, hsda.trans h.sda, ?_⟩, hc', hline⟩
  rw [hseen, if_pos hline.symm]
  rfl

/-- The clock held by the slave, or high: both stay, unless the slave lets the clock go. -/
theorem Rising.passive (hd : Device slave cfg.scl cfg.sda) (h : Rising slave cfg b v symbols)
    {act : Act} (ha : Passive cfg act) :
    Rising slave cfg (b.after dev slave act b.pins) v symbols := by
  unfold Rising at h
  by_cases hc : wireOf slave cfg.scl b.acts = true
  · rw [if_pos hc] at h
    obtain ⟨hr, hc', hline⟩ := h.passive hd hc ha
    unfold Rising
    change Released slave cfg _ v (if wireOf slave cfg.scl (act :: b.acts) then
      some (wireOf slave cfg.sda (act :: b.acts)) else none) symbols
    rw [if_pos hc', hline]
    exact hr
  · rw [if_neg hc] at h
    obtain ⟨hscl, hsda⟩ := ha.keeps b.acts
    have ht : Tracks cfg (b.after dev slave act b.pins) := h.tracks.passive ha
    refine ⟨ht, hscl.trans h.scl, hsda.trans h.sda, ?_⟩
    have hlow : (seen cfg b).lines.scl = false := by
      rw [h.wire]
      exact Bool.eq_false_iff.mpr hc
    have hp : (seen cfg b).pending = none := by rw [h.wire]
    rw [seen_after act b.pins ht, feed_rising hlow hp, h.wire]
    rfl

/-- The master pulls the clock low: the pulse is over. -/
theorem Released.fall (h : Released slave cfg b v pending symbols)
    (hc : wireOf slave cfg.scl b.acts = true) :
    Low slave cfg (rtPinWrite dev slave b cfg.scl pinLow) v
      ((pending.map Symbol.bit).toList ++ symbols) := by
  have hscl : drives cfg.scl (.write cfg.scl pinLow :: b.acts) = false := drives_write_same _ _ _
  have hlow : (linesOf slave cfg (.write cfg.scl pinLow :: b.acts)).scl = false :=
    wireOf_of_drives hscl
  refine ⟨h.tracks.writeScl pinLow, hscl,
    (drives_write_ne cfg.sdaNe.symm pinLow b.acts).trans h.sda, ?_⟩
  refine (seen_after _ _ (h.tracks.writeScl pinLow)).trans ?_
  rw [h.wire, feed_fall hc hlow]
  rfl

/-- The master pulls a high data line low under a high clock: a start condition. -/
theorem Released.start (hd : Device slave cfg.scl cfg.sda)
    (h : Released slave cfg b v pending symbols) (hc : wireOf slave cfg.scl b.acts = true)
    (hs : wireOf slave cfg.sda b.acts = true) :
    Released slave cfg (rtPinWrite dev slave b cfg.sda pinLow) false none (.start :: symbols) ∧
      wireOf slave cfg.scl (rtPinWrite dev slave b cfg.sda pinLow).acts = true := by
  have hscl := (drives_write_ne cfg.sdaNe pinLow b.acts).trans h.scl
  have hsda : drives cfg.sda (.write cfg.sda pinLow :: b.acts) = false := drives_write_same _ _ _
  have ht : Tracks cfg (rtPinWrite dev slave b cfg.sda pinLow) := h.tracks.writeSda pinLow
  obtain ⟨hc', -, hseen⟩ := seen_of_high hd h hc ht hscl
  have hlow : wireOf slave cfg.sda (.write cfg.sda pinLow :: b.acts) = false :=
    wireOf_of_drives hsda
  refine ⟨⟨ht, hscl, hsda, ?_⟩, hc'⟩
  refine hseen.trans ?_
  rw [hs, hlow, if_neg (by simp)]
  rfl

/-- And when the slave holds the data line, nothing. -/
theorem Released.noStart (hd : Device slave cfg.scl cfg.sda)
    (h : Released slave cfg b v pending symbols) (hc : wireOf slave cfg.scl b.acts = true)
    (hs : wireOf slave cfg.sda b.acts = false) :
    Released slave cfg (rtPinWrite dev slave b cfg.sda pinLow) false pending symbols ∧
      wireOf slave cfg.scl (rtPinWrite dev slave b cfg.sda pinLow).acts = true := by
  have hscl := (drives_write_ne cfg.sdaNe pinLow b.acts).trans h.scl
  have hsda : drives cfg.sda (.write cfg.sda pinLow :: b.acts) = false := drives_write_same _ _ _
  have ht : Tracks cfg (rtPinWrite dev slave b cfg.sda pinLow) := h.tracks.writeSda pinLow
  obtain ⟨hc', -, hseen⟩ := seen_of_high hd h hc ht hscl
  have hlow : wireOf slave cfg.sda (.write cfg.sda pinLow :: b.acts) = false :=
    wireOf_of_drives hsda
  refine ⟨⟨ht, hscl, hsda, ?_⟩, hc'⟩
  refine hseen.trans ?_
  rw [hs, hlow, if_pos rfl]
  rfl

/-- The master lets a low data line go under a high clock: a stop condition, unless the slave
    holds the line. -/
theorem Released.letGo (hd : Device slave cfg.scl cfg.sda)
    (h : Released slave cfg b false pending symbols) (hc : wireOf slave cfg.scl b.acts = true) :
    let b' := rtPinWrite dev slave b cfg.sda pinHigh
    wireOf slave cfg.scl b'.acts = true ∧ wireOf slave cfg.sda b'.acts = slave b.acts cfg.sda ∧
      if slave b.acts cfg.sda then Released slave cfg b' true none (.stop :: symbols)
      else Released slave cfg b' true pending symbols := by
  have hscl := (drives_write_ne cfg.sdaNe pinHigh b.acts).trans h.scl
  have hsda : drives cfg.sda (.write cfg.sda pinHigh :: b.acts) = true := drives_write_same _ _ _
  have ht : Tracks cfg (rtPinWrite dev slave b cfg.sda pinHigh) := h.tracks.writeSda pinHigh
  obtain ⟨hc', hdata, hseen⟩ := seen_of_high hd h hc ht hscl
  have hbefore : wireOf slave cfg.sda b.acts = false := wireOf_of_drives h.sda
  have hafter : wireOf slave cfg.sda (.write cfg.sda pinHigh :: b.acts) =
      slave b.acts cfg.sda := by
    rw [wireOf, hsda, hdata, Bool.true_and]
  rw [hbefore, hafter] at hseen
  refine ⟨hc', hafter, ?_⟩
  split
  next hfree =>
    refine ⟨ht, hscl, hsda, hseen.trans ?_⟩
    rw [hfree, if_neg (by simp)]
    rfl
  next hheld =>
    refine ⟨ht, hscl, hsda, hseen.trans ?_⟩
    rw [Bool.eq_false_iff.mpr hheld, if_pos rfl]
    rfl

end Live2dStm32.I2c
