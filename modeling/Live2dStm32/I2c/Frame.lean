import Live2dStm32.I2c.Transfer
import Mathlib.Computability.Language

/-
  What a transfer that reports success put on the wires: the languages of a byte, of an address,
  of a message and of a transfer. The slave may pull a bit of the master low, keep an address
  waiting, or hold the data line where a condition should be; the languages say what is seen then.
-/

namespace Live2dStm32.I2c

open Live2dStm32.Lib.TwoWire Live2dStm32.Kernel

/-! ## The languages -/

/-- One of the two. -/
def anyBit : Language Symbol := {[.bit false]} + {[.bit true]}

/-- The acknowledge of a byte the master sends: one it insists on, or not. -/
def ackBit (must : Bool) : Language Symbol := if must then {[.bit false]} else anyBit

/-- Bits the master sends; a slave can make a 1 a 0. -/
def sentBits (bits : List Bool) : Language Symbol :=
  {σ | ∃ pulls : List Bool, pulls.length = bits.length ∧
    σ = (List.zipWith (· && ·) bits pulls).map .bit}

def sentByte (must : Bool) (data : BitVec 8) : Language Symbol :=
  sentBits (byteBits data) * ackBit must

def sentBytes (must : Bool) : List (BitVec 8) → Language Symbol
  | [] => 1
  | data :: rest => sentByte must data * sentBytes must rest

/-- Bytes the master reads, each with an acknowledge but the last. -/
def readBytes (noReadAck : Bool) : List (BitVec 8) → Language Symbol
  | [] => 1
  | data :: rest => {(byteBits data).map .bit} *
      (if noReadAck then 1 else if rest.isEmpty then anyBit else {[.bit false]}) *
      readBytes noReadAck rest

/-- A condition in a transfer; a slave that holds the data line makes it a bit. -/
def opening : Language Symbol := {[.start]} + {[.bit false]}

/-- An address that nobody acknowledges, and the conditions before the next try. -/
def refused (addr : BitVec 8) : Language Symbol :=
  sentBits (byteBits addr) * {[.bit true]} * ({[.stop, .start]} + {[.bit false]})

def addressed (must : Bool) (addr : BitVec 8) : Nat → Language Symbol
  | 0 => sentByte must addr
  | retries + 1 => sentByte must addr + refused addr * addressed must addr retries

def addressFrame (busRetries : Nat) (msg : RtI2cMsg) : Language Symbol :=
  let must := !msg.has rtI2cIgnoreNack
  let retries := if msg.has rtI2cIgnoreNack then 0 else busRetries
  if msg.has rtI2cAddr10bit then
    addressed must (tenBitHead msg.addr) retries * sentByte must (msg.addr.setWidth 8) *
      if msg.has rtI2cRd then opening * addressed must (tenBitHead msg.addr ||| 0x01) retries else 1
  else addressed must (sevenBitHead msg) retries

def messageFrame (busRetries i : Nat) (msg : RtI2cMsg) (got : List (BitVec 8)) : Language Symbol :=
  (if msg.has rtI2cNoStart then 1
    else (if i ≠ 0 then opening else {[.start]}) * addressFrame busRetries msg) *
  if msg.has rtI2cRd then readBytes (msg.has rtI2cNoReadAck) got
  else sentBytes (!msg.has rtI2cIgnoreNack) msg.buf

/-- The messages from number `i` on, with what was read by each. -/
def frames (busRetries : Nat) : Nat → List RtI2cMsg → List (List (BitVec 8)) → Language Symbol
  | i, msg :: rest, got :: gots =>
    messageFrame busRetries i msg got * frames busRetries (i + 1) rest gots
  | _, _, _ => 1

/-! ## What is added to the symbols -/

/-- From `t` to `t'` a word of the language was added. -/
def Shows (t t' : Talk) (l : Language Symbol) : Prop :=
  ∃ σ ∈ l, t'.symbols = σ.reverse ++ t.symbols

variable {t t₁ t₂ : Talk} {l m : Language Symbol}

theorem Shows.refl (h : t₁.symbols = t.symbols) : Shows t t₁ 1 := ⟨[], Language.nil_mem_one, h⟩

theorem Shows.trans (h : Shows t t₁ l) (h' : Shows t₁ t₂ m) : Shows t t₂ (l * m) := by
  obtain ⟨σ, hσ, h⟩ := h
  obtain ⟨τ, hτ, h'⟩ := h'
  refine ⟨σ ++ τ, Language.append_mem_mul hσ hτ, ?_⟩
  rw [h', h, List.reverse_append, List.append_assoc]

theorem Shows.mono (h : Shows t t₁ l) (hl : ∀ σ ∈ l, σ ∈ m) : Shows t t₁ m := by
  obtain ⟨σ, hσ, h⟩ := h
  exact ⟨σ, hl σ hσ, h⟩

theorem Shows.left (h : Shows t t₁ l) : Shows t t₁ (l + m) := h.mono fun _ hσ => .inl hσ

theorem Shows.right (h : Shows t t₁ m) : Shows t t₁ (l + m) := h.mono fun _ hσ => .inr hσ

theorem shows_word (σ : List Symbol) (h : t₁.symbols = σ.reverse ++ t.symbols) :
    Shows t t₁ {σ} := ⟨σ, rfl, h⟩

theorem pulse_shows (t : Talk) (drive : Bool) :
    Shows t (t.pulse drive).1 {[.bit (t.pulse drive).2]} := shows_word _ rfl

theorem shows_anyBit {b : Bool} (h : Shows t t₁ {[.bit b]}) : Shows t t₁ anyBit := by
  cases b with
  | false => exact h.left
  | true => exact h.right

/-! ### Bytes -/

theorem writeBits_shows (data : BitVec 8) (n : Nat) (t : Talk) :
    Shows t (t.writeBits data n) (sentBits (lowBits data n)) := by
  induction n generalizing t with
  | zero => exact ⟨[], ⟨[], rfl, rfl⟩, rfl⟩
  | succ n ih =>
    obtain ⟨σ, ⟨pulls, hlen, rfl⟩, h⟩ := ih (t.pulse (data.getLsbD n)).1
    refine ⟨_, ⟨t.bits.headD true :: pulls, congrArg (· + 1) hlen, rfl⟩, h.trans ?_⟩
    simp [lowBits, Talk.pulse]

theorem writeb_code (t : Talk) (data : BitVec 8) :
    (t.writeb data).2 = if ((Talk.writeBits data 8 t).pulse true).2 then 0 else 1 := rfl

theorem writeb_shows (t : Talk) (data : BitVec 8) :
    Shows t (t.writeb data).1
      (sentBits (byteBits data) * {[.bit (decide ((t.writeb data).2 ≠ 1))]}) := by
  refine (writeBits_shows data 8 t).trans ?_
  have h := pulse_shows (Talk.writeBits data 8 t) true
  rw [writeb_code]
  cases hack : ((Talk.writeBits data 8 t).pulse true).2 <;> rw [hack] at h <;> exact h

theorem writeb_sent {must : Bool} {data : BitVec 8} (h : must = true → (t.writeb data).2 = 1) :
    Shows t (t.writeb data).1 (sentByte must data) := by
  have hshow := writeb_shows t data
  cases must with
  | true =>
    rw [h rfl] at hshow
    exact hshow
  | false =>
    refine hshow.mono fun σ hσ => ?_
    obtain ⟨a, ha, b, hb, rfl⟩ := Language.mem_mul.mp hσ
    refine Language.append_mem_mul ha ?_
    rw [Set.mem_singleton_iff.mp hb]
    cases decide ((t.writeb data).2 ≠ 1) with
    | false => exact .inl rfl
    | true => exact .inr rfl

theorem sendBytes_shows (ignoreNack : Bool) (data : List (BitVec 8)) (bytes : Nat) (t : Talk)
    (h : ¬ (i2cSendBytes talkByteOps ignoreNack data bytes t).2 < (bytes + data.length : Nat)) :
    Shows t (i2cSendBytes talkByteOps ignoreNack data bytes t).1
      (sentBytes (!ignoreNack) data) := by
  induction data generalizing bytes t with
  | nil => exact Shows.refl rfl
  | cons byte rest ih =>
    have hlen : bytes + (byte :: rest).length = bytes + 1 + rest.length :=
      (Nat.succ_add_eq_add_succ bytes rest.length).symm
    rw [hlen] at h
    unfold i2cSendBytes at h ⊢
    dsimp only at h ⊢
    have hcode : (talkByteOps.writeb t byte).2 =
        if ((Talk.writeBits byte 8 t).pulse true).2 then 0 else 1 := writeb_code t byte
    split at h
    next hgo =>
      rw [if_pos hgo]
      refine (writeb_sent fun hmust => ?_).trans (ih (bytes + 1) _ h)
      obtain hpos | ⟨hign, -⟩ := hgo
      · rw [hcode] at hpos
        rw [writeb_code]
        split at hpos
        next => exact absurd hpos (by decide)
        next hack => exact if_neg hack
      · rw [hign] at hmust
        exact absurd hmust Bool.false_ne_true
    next hgo =>
      split at h
      next => exact absurd (Int.natCast_pos.mpr (by omega)) h
      next hne =>
        rw [hcode] at hne hgo
        split at hne
        next => exact absurd rfl hne
        next hack => exact absurd (.inl (by rw [if_neg hack]; decide)) hgo

theorem readBits_shows (data : BitVec 8) (n : Nat) (t : Talk) :
    ∃ bits : List Bool, bits.length = n ∧
      (t.readBits data n).2 = (bits.foldl shiftIn data).toNat ∧
      Shows t (t.readBits data n).1 {bits.map .bit} := by
  induction n generalizing data t with
  | zero => exact ⟨[], rfl, rfl, shows_word _ rfl⟩
  | succ n ih =>
    obtain ⟨bits, hlen, hcode, σ, rfl, h⟩ :=
      ih (shiftIn data (t.pulse true).2) (t.pulse true).1
    refine ⟨(t.pulse true).2 :: bits, congrArg (· + 1) hlen, hcode, shows_word _ (h.trans ?_)⟩
    simp [Talk.pulse]

theorem readb_shows (t : Talk) : 0 ≤ t.readb.2 ∧
    Shows t t.readb.1 {(byteBits (BitVec.ofInt 8 t.readb.2)).map .bit} := by
  obtain ⟨bits, hlen, hcode, h⟩ := readBits_shows 0 8 { t with sda := true }
  change t.readb.2 = ((bitsByte bits).toNat : Int) at hcode
  rw [hcode, BitVec.ofInt_natCast, BitVec.ofNat_toNat, BitVec.setWidth_eq, byteBits_bitsByte hlen]
  exact ⟨Int.natCast_nonneg _, h⟩

theorem recvBytes_shows (noReadAck : Bool) (count : Nat) (got : List (BitVec 8)) (t : Talk) :
    ∃ new, new.length = count ∧
      (i2cRecvBytes talkByteOps noReadAck count got t).2 =
        (got ++ new, ((got.length + count : Nat) : Int)) ∧
      Shows t (i2cRecvBytes talkByteOps noReadAck count got t).1 (readBytes noReadAck new) := by
  induction count generalizing got t with
  | zero => exact ⟨[], rfl, by simp [i2cRecvBytes], Shows.refl rfl⟩
  | succ count ih =>
    obtain ⟨hcode, hbyte⟩ := readb_shows t
    unfold i2cRecvBytes
    dsimp only [talkByteOps]
    rw [if_neg (Int.not_lt.mpr hcode)]
    generalize hd : BitVec.ofInt 8 t.readb.2 = data at hbyte ⊢
    have hlen : (got ++ [data]).length + count = got.length + (count + 1) := by
      rw [List.length_append, List.length_singleton, Nat.add_assoc, Nat.add_comm 1]
    cases noReadAck with
    | true =>
      obtain ⟨new, hnew, hres, hshow⟩ := ih (got ++ [data]) t.readb.1
      refine ⟨data :: new, congrArg (· + 1) hnew, ?_, ?_⟩
      · rw [hlen, List.append_assoc] at hres
        exact hres
      · exact (hbyte.trans (Shows.refl rfl)).trans hshow
    | false =>
      obtain ⟨new, hnew, hres, hshow⟩ := ih (got ++ [data]) (t.readb.1.sendAckOrNack count).1
      refine ⟨data :: new, congrArg (· + 1) hnew, ?_, ?_⟩
      · rw [hlen, List.append_assoc] at hres
        exact hres
      · refine (hbyte.trans ?_).trans hshow
        have hack := pulse_shows t.readb.1 (if count ≠ 0 then false else t.readb.1.sda)
        cases new with
        | nil => exact shows_anyBit hack
        | cons _ _ =>
          have hne : count ≠ 0 := hnew ▸ Nat.succ_ne_zero _
          change Shows _ (t.readb.1.pulse (if count ≠ 0 then false else t.readb.1.sda)).1 _
          rw [if_pos hne] at hack ⊢
          exact hack

/-! ### Addresses -/

theorem stop_start_shows (t : Talk) :
    Shows t t.stop.start ({[.stop, .start]} + {[.bit false]}) := by
  cases hfree : t.bits.headD true with
  | true =>
    exact (shows_word _ (by
      simp [Talk.stop, Talk.start, -List.headD_eq_head?_getD, hfree])).left
  | false =>
    exact (shows_word _ (by
      simp [Talk.stop, Talk.start, -List.headD_eq_head?_getD, hfree])).right

theorem restart_shows (t : Talk) : Shows t t.restart opening := by
  cases hfree : t.bits.headD true with
  | true => exact (shows_word _ (by simp [Talk.restart, -List.headD_eq_head?_getD, hfree])).left
  | false => exact (shows_word _ (by simp [Talk.restart, -List.headD_eq_head?_getD, hfree])).right

theorem sendAddress_shows {must : Bool} (addr : BitVec 8) (retries : Nat) (t : Talk)
    (h : must = true → (i2cSendAddress talkByteOps addr retries t).2 = 1) :
    Shows t (i2cSendAddress talkByteOps addr retries t).1 (addressed must addr retries) := by
  induction retries generalizing t with
  | zero => exact writeb_sent h
  | succ retries ih =>
    unfold i2cSendAddress at h ⊢
    dsimp only [talkByteOps] at h ⊢
    by_cases hack : (t.writeb addr).2 = 1
    · rw [if_pos hack]
      exact (writeb_sent fun _ => hack).left
    · rw [if_neg hack] at h ⊢
      have hbyte := writeb_shows t addr
      rw [decide_eq_true hack] at hbyte
      exact ((hbyte.trans (stop_start_shows _)).trans (ih _ h)).right

/-- A code that does not end the transfer is the acknowledge the message insists on. -/
theorem must_ack {ignoreNack : Bool} {code ok : Int} (h : ¬ (code ≠ ok ∧ ignoreNack = false)) :
    (!ignoreNack) = true → code = ok := by
  intro hmust
  by_contra hne
  exact h ⟨hne, (Bool.not_eq_true' _).mp hmust⟩

theorem bitSendAddress_code {β : Type} (ops : ByteOps β) (busRetries : Nat) (msg : RtI2cMsg)
    (b : β) : (i2cBitSendAddress ops busRetries msg b).2 = rtEok ∨
      (i2cBitSendAddress ops busRetries msg b).2 = -rtEio := by
  unfold i2cBitSendAddress
  dsimp only
  split_ifs <;> simp

theorem bitSendAddress_shows (busRetries : Nat) (msg : RtI2cMsg) (t : Talk)
    (h : ¬ ((i2cBitSendAddress talkByteOps busRetries msg t).2 ≠ rtEok ∧
      msg.has rtI2cIgnoreNack = false)) :
    Shows t (i2cBitSendAddress talkByteOps busRetries msg t).1 (addressFrame busRetries msg) := by
  have hio : -rtEio ≠ rtEok := by decide
  unfold i2cBitSendAddress addressFrame at *
  dsimp only at h ⊢
  generalize (if msg.has rtI2cIgnoreNack then 0 else busRetries) = retries at h ⊢
  by_cases hten : msg.has rtI2cAddr10bit = true
  · rw [if_pos hten] at h ⊢
    rw [if_pos hten]
    split at h
    next hcode => exact absurd ⟨hio, hcode.2⟩ h
    next hhead =>
      rw [if_neg hhead]
      have hfirst := sendAddress_shows (tenBitHead msg.addr) retries t (must_ack hhead)
      split at h
      next hcode => exact absurd ⟨hio, hcode.2⟩ h
      next hlow =>
        rw [if_neg hlow]
        have hsecond := hfirst.trans (writeb_sent (must_ack hlow))
        split at h
        next hrd =>
          rw [if_pos hrd]
          split at h
          next hcode => exact absurd ⟨hio, hcode.2⟩ h
          next hagain =>
            rw [if_neg hagain, if_pos hrd]
            exact hsecond.trans ((restart_shows _).trans
              (sendAddress_shows _ retries _ (must_ack hagain)))
        next hrd =>
          rw [if_neg hrd, if_neg hrd]
          exact hsecond.trans (Shows.refl rfl)
  · rw [if_neg hten] at h ⊢
    rw [if_neg hten]
    split at h
    next hcode => exact absurd ⟨hio, hcode.2⟩ h
    next hhead =>
      rw [if_neg hhead]
      exact sendAddress_shows (sevenBitHead msg) retries t (must_ack hhead)

/-! ### Messages -/

theorem xferStart_code {β : Type} (ops : ByteOps β) (busRetries i : Nat) (msg : RtI2cMsg) (b : β) :
    (xferStart ops busRetries i msg b).2 = rtEok ∨
      (xferStart ops busRetries i msg b).2 = -rtEio := by
  unfold xferStart
  split
  · exact .inl rfl
  · exact bitSendAddress_code ops busRetries msg _

theorem xferStart_shows (busRetries i : Nat) (msg : RtI2cMsg) (t : Talk)
    (h0 : i = 0 → t.phase = .idle)
    (h : ¬ ((xferStart talkByteOps busRetries i msg t).2 ≠ rtEok ∧
      msg.has rtI2cIgnoreNack = false)) :
    Shows t (xferStart talkByteOps busRetries i msg t).1
      (if msg.has rtI2cNoStart then 1
        else (if i ≠ 0 then opening else {[.start]}) * addressFrame busRetries msg) := by
  unfold xferStart at h ⊢
  by_cases hno : msg.has rtI2cNoStart = true
  · rw [if_pos hno, if_pos hno]
    exact Shows.refl rfl
  · rw [if_neg hno] at h ⊢
    rw [if_neg hno]
    refine Shows.trans ?_ (bitSendAddress_shows busRetries msg _ h)
    by_cases hi : i ≠ 0
    · rw [if_pos hi, if_pos hi]
      exact restart_shows t
    · rw [if_neg hi, if_neg hi]
      refine shows_word _ ?_
      change t.start.symbols = _
      rw [Talk.start, h0 (not_not.mp hi)]
      rfl

/-- How much of the buffer of a message is filled. -/
def RtI2cMsg.filled (msg : RtI2cMsg) : Nat := if msg.has rtI2cRd then msg.buf.length else 0

theorem xferData_shows (msg : RtI2cMsg) (t : Talk) (h : (xferData talkByteOps msg t).2.2 = none) :
    (xferData talkByteOps msg t).2.1.length = msg.filled ∧
      Shows t (xferData talkByteOps msg t).1
        (if msg.has rtI2cRd then readBytes (msg.has rtI2cNoReadAck) (xferData talkByteOps msg t).2.1
          else sentBytes (!msg.has rtI2cIgnoreNack) msg.buf) := by
  unfold xferData RtI2cMsg.filled at *
  by_cases hrd : msg.has rtI2cRd = true
  · rw [if_pos hrd] at h ⊢
    rw [if_pos hrd, if_pos hrd]
    obtain ⟨new, hlen, hres, hshow⟩ :=
      recvBytes_shows (msg.has rtI2cNoReadAck) msg.buf.length [] t
    dsimp only at h ⊢
    split at h
    next => exact nomatch h
    next hfull =>
      rw [if_neg hfull, hres]
      exact ⟨hlen, hshow⟩
  · rw [if_neg hrd] at h ⊢
    rw [if_neg hrd, if_neg hrd]
    dsimp only at h ⊢
    split at h
    next => exact nomatch h
    next hfull =>
      rw [if_neg hfull]
      refine ⟨rfl, sendBytes_shows _ msg.buf 0 t ?_⟩
      rw [Nat.zero_add]
      exact hfull

theorem xferMsg_shows (busRetries i : Nat) (msg : RtI2cMsg) (t : Talk)
    (h0 : i = 0 → t.phase = .idle)
    (h : (xferMsg talkByteOps busRetries i msg t).2.2 = none) :
    (xferMsg talkByteOps busRetries i msg t).2.1.length = msg.filled ∧
      Shows t (xferMsg talkByteOps busRetries i msg t).1
        (messageFrame busRetries i msg (xferMsg talkByteOps busRetries i msg t).2.1) := by
  unfold xferMsg at h ⊢
  dsimp only at h ⊢
  split at h
  next => exact nomatch h
  next hgo =>
    rw [if_neg hgo]
    obtain ⟨hlen, hshow⟩ := xferData_shows msg _ h
    exact ⟨hlen, (xferStart_shows busRetries i msg t h0 hgo).trans hshow⟩

/-- The codes that end a transfer are negative. -/
theorem xferMsg_err {β : Type} (ops : ByteOps β) (busRetries i : Nat) (msg : RtI2cMsg) (b : β)
    {err : Int} (h : (xferMsg ops busRetries i msg b).2.2 = some err) : err < 0 := by
  unfold xferMsg at h
  dsimp only at h
  split at h
  next hcode =>
    have herr := (xferStart_code ops busRetries i msg b).resolve_left hcode.1
    rw [← Option.some.inj h, herr]
    decide
  next =>
    unfold xferData at h
    split at h <;> dsimp only at h <;> split at h
    next =>
      rw [← Option.some.inj h]
      split
      · decide
      · omega
    next => exact nomatch h
    next =>
      rw [← Option.some.inj h]
      split
      · decide
      · omega
    next => exact nomatch h

/-! ### Transfers -/

/-- `out:`, after the last message. -/
def closed (msgs : List RtI2cMsg) (t : Talk) : Talk :=
  match msgs.getLast? with
  | none => t
  | some msg => xferOut talkByteOps msg t

theorem xferMsgs_shows (busRetries i : Nat) (msgs : List RtI2cMsg) (t : Talk)
    (h0 : i = 0 → t.phase = .idle)
    (h : (xferMsgs talkByteOps busRetries i msgs t).2.2 = ((i + msgs.length : Nat) : Int)) :
    (xferMsgs talkByteOps busRetries i msgs t).2.1.map List.length = msgs.map RtI2cMsg.filled ∧
      ∃ t', Shows t t' (frames busRetries i msgs (xferMsgs talkByteOps busRetries i msgs t).2.1) ∧
        (xferMsgs talkByteOps busRetries i msgs t).1 = closed msgs t' := by
  induction msgs generalizing i t with
  | nil => exact ⟨rfl, t, Shows.refl rfl, rfl⟩
  | cons msg rest ih =>
    unfold xferMsgs at h ⊢
    dsimp only at h ⊢
    cases hcode : (xferMsg talkByteOps busRetries i msg t).2.2 with
    | some err =>
      rw [hcode] at h
      have hneg := xferMsg_err talkByteOps busRetries i msg t hcode
      change err = _ at h
      omega
    | none =>
      rw [hcode] at h
      obtain ⟨hlen, hshow⟩ := xferMsg_shows busRetries i msg t h0 hcode
      dsimp only at h ⊢
      cases rest with
      | nil =>
        exact ⟨congrArg (fun n => [n]) hlen, _, hshow.trans (Shows.refl rfl), rfl⟩
      | cons next rest =>
        have hnum : i + (msg :: next :: rest).length = i + 1 + (next :: rest).length :=
          (Nat.succ_add_eq_add_succ i _).symm
        rw [hnum] at h
        obtain ⟨hlens, t', hshow', hclosed⟩ := ih (i + 1) _ (fun h => absurd h i.succ_ne_zero) h
        refine ⟨?_, t', hshow.trans hshow', hclosed⟩
        exact congr (congrArg List.cons hlen) hlens

/-- What `out:` adds: a stop condition, unless the last message wants none or the slave holds the
    data line, which is then low afterwards. -/
def closing (msgs : List RtI2cMsg) (free : Bool) : List Symbol :=
  match msgs.getLast? with
  | none => []
  | some msg => if msg.has rtI2cNoStop || !free then [] else [.stop]

theorem closed_symbols {M : Type} {dev : PinDev M} {slave : Slave} {cfg : SoftI2cConfig dev}
    {b : Bus M} {msgs : List RtI2cMsg} (h : Between slave cfg b (closed msgs t)) :
    (closed msgs t).symbols =
      (closing msgs (wireOf slave cfg.sda b.acts)).reverse ++ t.symbols := by
  unfold closed closing at *
  generalize msgs.getLast? = last at h ⊢
  cases last with
  | none => rfl
  | some msg =>
    dsimp only at h ⊢
    unfold xferOut at h ⊢
    generalize msg.has rtI2cNoStop = noStop at h ⊢
    cases noStop with
    | true => rfl
    | false =>
      change Between slave cfg b t.stop at h
      have hsda := h.sda_of_stop
      change t.stop.symbols = _
      rw [hsda]
      unfold Talk.stop
      cases t.bits.headD true <;> rfl

/-- How often the master has pulled the clock low. -/
def falls (scl : Int) : List Act → Nat
  | [] => 0
  | act :: acts => falls scl acts + if drives scl acts && !drives scl (act :: acts) then 1 else 0

/-- A slave that acknowledges every byte: it holds the data line from the end of each eighth
    pulse to the end of the ninth. -/
def obliging : Slave := fun acts pin =>
  pin ≠ 25 || falls 24 acts = 0 || falls 24 acts % 9 ≠ 0

theorem obliging_device : Device obliging 24 25 where
  clock _ _ _ _ := rfl
  data act acts _ hdrive := by
    have hsame : falls 24 (act :: acts) = falls 24 acts := by
      rw [falls, hdrive, Bool.not_true, Bool.and_false]
      rfl
    rw [obliging, obliging, hsame]

end Live2dStm32.I2c
