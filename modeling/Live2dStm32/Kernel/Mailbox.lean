import Live2dStm32.Kernel.Threads
import Live2dStm32.Lib.Box
import Live2dStm32.Lib.Machine
import Live2dStm32.Lib.Ring

/-
  The mailboxes of src/rt-thread/src/ipc.c: a ring of words between threads and interrupts, which
  `rt_mb_send_wait` fills at the end and `rt_mb_urgent` at the front. A thread that finds the ring
  full, or empty, waits and tests again each time it is resumed; the lists of those that wait are
  in the order of arrival or of priority, by the flag of the mailbox.

  `mailbox_run`: in every reachable state the calls that went through, in their order, are those of
  a box of `size` words, and with nobody resumed a thread waits to receive only at an empty box
  and to send only at a full one. `rt_mb_detach`, `rt_mb_delete` and `rt_mb_control` are left out.

  Sizes are 1 to 65535: `rt_mb_init` cuts its `rt_size_t` to 16 bits. Offsets and entries are at
  most the size, so they are natural numbers here.
-/

namespace Live2dStm32.Kernel

open Live2dStm32.Lib Live2dStm32.Lib.Ring

/-! ## The code -/

/-- `RT_MB_ENTRY_MAX`. -/
def rtMbEntryMax : Nat := 65535

/-- `struct rt_mailbox`; its lists of threads are in `MbSys`. -/
structure Mailbox where
  msgPool : Nat → BitVec 32
  size : Nat
  entry : Nat
  inOffset : Nat
  outOffset : Nat

/-- `rt_mb_init`; `mb->size` has 16 bits. -/
def rtMbInit (msgPool : Nat → BitVec 32) (size : Nat) : Mailbox :=
  ⟨msgPool, size % 65536, 0, 0, 0⟩

/-- The word of `rt_mb_send_wait` goes in, not yet counted. -/
def Mailbox.store (mb : Mailbox) (value : BitVec 32) : Mailbox :=
  { mb with
    msgPool := Function.update mb.msgPool mb.inOffset value
    inOffset := if mb.inOffset + 1 ≥ mb.size then 0 else mb.inOffset + 1 }

/-- The word of `rt_mb_urgent` goes in front of the others. -/
def Mailbox.storeFront (mb : Mailbox) (value : BitVec 32) : Mailbox :=
  { mb with
    msgPool := Function.update mb.msgPool
      (if mb.outOffset > 0 then mb.outOffset - 1 else mb.size - 1) value
    outOffset := if mb.outOffset > 0 then mb.outOffset - 1 else mb.size - 1
    entry := mb.entry + 1 }

/-- The word `rt_mb_recv` takes, and the mailbox after it. -/
def Mailbox.fetch (mb : Mailbox) : BitVec 32 × Mailbox :=
  (mb.msgPool mb.outOffset,
    { mb with
      outOffset := if mb.outOffset + 1 ≥ mb.size then 0 else mb.outOffset + 1
      entry := if mb.entry > 0 then mb.entry - 1 else mb.entry })

/-- The words in the mailbox, the next one to be received first. -/
def Mailbox.items (mb : Mailbox) : List (BitVec 32) :=
  content mb.size mb.msgPool mb.outOffset mb.entry

/-! ## The ring -/

variable {mb : Mailbox}

structure Mailbox.Inv (mb : Mailbox) : Prop where
  out : mb.outOffset < mb.size
  fits : mb.entry ≤ mb.size
  inOffset : mb.inOffset = (mb.outOffset + mb.entry) % mb.size

@[simp] theorem Mailbox.length_items : mb.items.length = mb.entry := length_content

theorem mbInit_size (msgPool : Nat → BitVec 32) {size : Nat} (hmax : size ≤ rtMbEntryMax) :
    (rtMbInit msgPool size).size = size :=
  Nat.mod_eq_of_lt (Nat.lt_succ_of_le hmax)

theorem inv_mbInit (msgPool : Nat → BitVec 32) {size : Nat} (h : 0 < size)
    (hmax : size ≤ rtMbEntryMax) : (rtMbInit msgPool size).Inv := by
  have hpos : 0 < (rtMbInit msgPool size).size := (mbInit_size msgPool hmax).symm ▸ h
  exact ⟨hpos, Nat.zero_le _, (Nat.mod_eq_of_lt hpos).symm⟩

theorem Mailbox.Inv.store (h : mb.Inv) (hroom : mb.entry < mb.size) (value : BitVec 32) :
    Mailbox.Inv { mb.store value with entry := mb.entry + 1 } where
  out := h.out
  fits := hroom
  inOffset := by
    have hlt : mb.inOffset < mb.size := h.inOffset ▸ Nat.mod_lt _ (Nat.zero_lt_of_lt h.out)
    change next mb.size mb.inOffset = (mb.outOffset + (mb.entry + 1)) % mb.size
    rw [next_eq_mod hlt, h.inOffset, Nat.mod_add_mod, Nat.add_assoc]

theorem Mailbox.Inv.store_items (h : mb.Inv) (hroom : mb.entry < mb.size) (value : BitVec 32) :
    Mailbox.items { mb.store value with entry := mb.entry + 1 } = mb.items ++ [value] := by
  change content mb.size (Function.update mb.msgPool mb.inOffset value) mb.outOffset
    (mb.entry + 1) = mb.items ++ [value]
  rw [h.inOffset, content_put hroom]
  rfl

theorem Mailbox.Inv.storeFront_lt (h : mb.Inv) (value : BitVec 32) :
    (mb.storeFront value).outOffset < mb.size := by
  have hout := h.out
  unfold Mailbox.storeFront
  dsimp only
  split <;> omega

/-- The place in front of the first word is one step back around the ring. -/
theorem Mailbox.Inv.storeFront_next (h : mb.Inv) (value : BitVec 32) :
    ((mb.storeFront value).outOffset + 1) % mb.size = mb.outOffset := by
  have hout := h.out
  rw [← next_eq_mod (h.storeFront_lt value)]
  unfold next Mailbox.storeFront
  dsimp only
  split <;> split <;> omega

/-- The offsets from there on, seen from the first word. -/
theorem Mailbox.Inv.storeFront_add (h : mb.Inv) (value : BitVec 32) (i : Nat) :
    ((mb.storeFront value).outOffset + (i + 1)) % mb.size = (mb.outOffset + i) % mb.size := by
  rw [Nat.add_comm i 1, ← Nat.add_assoc, ← Nat.mod_add_mod, h.storeFront_next]

theorem Mailbox.Inv.storeFront (h : mb.Inv) (hroom : mb.entry < mb.size) (value : BitVec 32) :
    (mb.storeFront value).Inv where
  out := h.storeFront_lt value
  fits := hroom
  inOffset := h.inOffset.trans (h.storeFront_add value mb.entry).symm

theorem Mailbox.Inv.storeFront_items (h : mb.Inv) (hroom : mb.entry < mb.size)
    (value : BitVec 32) : (mb.storeFront value).items = value :: mb.items := by
  have hlt := h.storeFront_lt value
  change content mb.size (Function.update mb.msgPool (mb.storeFront value).outOffset value)
    (mb.storeFront value).outOffset (mb.entry + 1) = value :: mb.items
  rw [content_cons, Nat.mod_eq_of_lt hlt, Function.update_self,
    content_of_mod_eq (h.storeFront_add value 0)]
  congr 1
  apply content_congr fun i hi => ?_
  have hne : ((mb.storeFront value).outOffset + 0) % mb.size ≠
      ((mb.storeFront value).outOffset + (i + 1)) % mb.size :=
    add_mod_ne (Nat.succ_pos i) (by have := h.fits; omega)
  rw [Nat.add_zero, Nat.mod_eq_of_lt hlt, h.storeFront_add] at hne
  exact Function.update_of_ne hne.symm ..

theorem Mailbox.Inv.fetch (h : mb.Inv) (hone : 0 < mb.entry) : mb.fetch.2.Inv where
  out := by
    have hout := h.out
    change (if mb.outOffset + 1 ≥ mb.size then 0 else mb.outOffset + 1) < mb.size
    split <;> omega
  fits := by
    have hfits := h.fits
    change (if mb.entry > 0 then mb.entry - 1 else mb.entry) ≤ mb.size
    split <;> omega
  inOffset := by
    change mb.inOffset = (next mb.size mb.outOffset +
      if mb.entry > 0 then mb.entry - 1 else mb.entry) % mb.size
    rw [if_pos hone, next_eq_mod h.out, Nat.mod_add_mod, Nat.add_assoc, Nat.add_sub_cancel' hone]
    exact h.inOffset

theorem Mailbox.Inv.fetch_items (h : mb.Inv) (hone : 0 < mb.entry) :
    mb.items = mb.fetch.1 :: mb.fetch.2.items := by
  obtain ⟨k, hk⟩ := Nat.exists_eq_succ_of_ne_zero (Nat.ne_of_gt hone)
  change content mb.size mb.msgPool mb.outOffset mb.entry = mb.msgPool mb.outOffset ::
    content mb.size mb.msgPool (next mb.size mb.outOffset)
      (if mb.entry > 0 then mb.entry - 1 else mb.entry)
  rw [if_pos hone, hk, content_cons, Nat.mod_eq_of_lt h.out, next_eq_mod h.out, content_mod]
  rfl

/-! ## Threads -/

/-- The mailbox with the threads in its calls. A thread on a suspended list waits; a resumed one
    is ready, and has yet to test the mailbox again. `log` are the calls that went through. -/
structure MbSys where
  mb : Mailbox
  flag : IpcFlag
  prio : Nat → Nat
  suspendSender : List (Nat × BitVec 32)
  suspendThread : List Nat
  resumedSender : List (Nat × BitVec 32)
  resumedThread : List Nat
  log : List (BoxEvent (BitVec 32))

def MbSys.start (mb : Mailbox) (flag : IpcFlag) (prio : Nat → Nat) : MbSys :=
  ⟨mb, flag, prio, [], [], [], [], []⟩

/-- The first waiting receiver is resumed. -/
def MbSys.wakeThread (s : MbSys) (event : BoxEvent (BitVec 32)) : MbSys :=
  { s with
    suspendThread := s.suspendThread.tail
    resumedThread := s.resumedThread ++ s.suspendThread.take 1
    log := s.log ++ [event] }

/-- `rt_mb_send_wait` past the wait; without room in the counter it stops at `-RT_EFULL`. -/
def MbSys.put (s : MbSys) (value : BitVec 32) : MbSys :=
  if s.mb.entry < rtMbEntryMax then
    { s with mb := { s.mb.store value with entry := s.mb.entry + 1 } }.wakeThread (.sent value)
  else { s with mb := s.mb.store value }

/-- One pass of the loop of `rt_mb_send_wait`, up to the suspension or to the end. -/
def MbSys.rtMbSendWait (s : MbSys) (thread : Nat) (value : BitVec 32) (wait : Bool) : MbSys :=
  if s.mb.entry = s.mb.size then
    if wait then
      { s with
        suspendSender :=
          ipcInsert (fun sender => s.prio sender.1) s.flag s.suspendSender (thread, value) }
    else s
  else s.put value

def MbSys.rtMbUrgent (s : MbSys) (value : BitVec 32) : MbSys :=
  if s.mb.entry = s.mb.size then s
  else { s with mb := s.mb.storeFront value }.wakeThread (.urgent value)

/-- `rt_mb_recv` past the wait. -/
def MbSys.get (s : MbSys) : MbSys :=
  { s with
    mb := s.mb.fetch.2
    suspendSender := s.suspendSender.tail
    resumedSender := s.resumedSender ++ s.suspendSender.take 1
    log := s.log ++ [.received s.mb.fetch.1] }

/-- One pass of the loop of `rt_mb_recv`. -/
def MbSys.rtMbRecv (s : MbSys) (thread : Nat) (wait : Bool) : MbSys :=
  if s.mb.entry = 0 then
    if wait then { s with suspendThread := ipcInsert s.prio s.flag s.suspendThread thread } else s
  else s.get

/-- A call begins, `wait` unless its timeout is 0; a resumed thread goes on, `wait` while it has
    time left; the timer of a waiting thread takes it off its list, with -RT_ETIMEOUT for its
    call; a thread gets another priority. -/
inductive MbAct where
  | send (thread : Nat) (value : BitVec 32) (wait : Bool)
  | sendAgain (thread : Nat) (value : BitVec 32) (wait : Bool)
  | sendTimeout (thread : Nat) (value : BitVec 32)
  | urgent (value : BitVec 32)
  | recv (thread : Nat) (wait : Bool)
  | recvAgain (thread : Nat) (wait : Bool)
  | recvTimeout (thread : Nat)
  | setPriority (thread priority : Nat)
  deriving DecidableEq, Repr

def mbStep (s : MbSys) : MbAct → Option MbSys
  | .send thread value wait => some (s.rtMbSendWait thread value wait)
  | .sendAgain thread value wait =>
    if (thread, value) ∈ s.resumedSender then
      some ({ s with resumedSender := s.resumedSender.erase (thread, value) }.rtMbSendWait
        thread value wait)
    else none
  | .sendTimeout thread value =>
    if (thread, value) ∈ s.suspendSender then
      some { s with suspendSender := s.suspendSender.erase (thread, value) }
    else none
  | .urgent value => some (s.rtMbUrgent value)
  | .recv thread wait => some (s.rtMbRecv thread wait)
  | .recvAgain thread wait =>
    if thread ∈ s.resumedThread then
      some ({ s with resumedThread := s.resumedThread.erase thread }.rtMbRecv thread wait)
    else none
  | .recvTimeout thread =>
    if thread ∈ s.suspendThread then
      some { s with suspendThread := s.suspendThread.erase thread }
    else none
  | .setPriority thread priority =>
    some { s with prio := Function.update s.prio thread priority }

/-! ## The box -/

/-- The calls are those of a box; and the threads resumed make up for the ones that wait. -/
structure MbSys.Inv (n : Nat) (s : MbSys) : Prop where
  size : s.mb.size = n
  ring : s.mb.Inv
  box : boxRun n s.log = some s.mb.items
  threads : s.suspendThread ≠ [] → s.mb.entry ≤ s.resumedThread.length
  senders : s.suspendSender ≠ [] → n ≤ s.mb.entry + s.resumedSender.length

variable {n : Nat} {s : MbSys}

/-- A call that leaves one word more, by a sender that had been resumed, `spare` 1, or not,
    `spare` 0. -/
theorem wakeThread_inv {mb : Mailbox} {event : BoxEvent (BitVec 32)} {spare : Nat}
    (hspare : spare ≤ 1) (h : MbSys.Inv n { s with suspendSender := [] })
    (hsend : s.suspendSender ≠ [] → n ≤ s.mb.entry + (s.resumedSender.length + spare))
    (hsize : mb.size = n) (hring : mb.Inv) (hentry : mb.entry = s.mb.entry + 1)
    (hbox : boxStep n s.mb.items event = some mb.items) :
    (MbSys.wakeThread { s with mb := mb } event).Inv n where
  size := hsize
  ring := hring
  box := boxRun_concat h.box hbox
  threads := by
    intro hw
    change mb.entry ≤ (s.resumedThread ++ s.suspendThread.take 1).length
    rw [length_append_take_one hw, hentry]
    exact Nat.succ_le_succ (h.threads (ne_nil_of_tail hw))
  senders := by
    intro hw
    have := hsend hw
    change n ≤ mb.entry + s.resumedSender.length
    omega

theorem send_inv {spare : Nat} (hspare : spare ≤ 1) (hmax : n ≤ rtMbEntryMax)
    (h : MbSys.Inv n { s with suspendSender := [] })
    (hsend : s.suspendSender ≠ [] → n ≤ s.mb.entry + (s.resumedSender.length + spare))
    (thread : Nat) (value : BitVec 32) (wait : Bool) :
    (s.rtMbSendWait thread value wait).Inv n := by
  have hsize : s.mb.size = n := h.size
  have hring : s.mb.Inv := h.ring
  have hfits := hring.fits
  unfold MbSys.rtMbSendWait
  split
  next hfull =>
    have hle : n ≤ s.mb.entry + s.resumedSender.length := by omega
    split
    · exact ⟨h.size, h.ring, h.box, h.threads, fun _ => hle⟩
    · exact ⟨h.size, h.ring, h.box, h.threads, fun _ => hle⟩
  next hno =>
    have hroom : s.mb.entry < s.mb.size := by omega
    unfold MbSys.put
    rw [if_pos (by omega)]
    refine wakeThread_inv hspare h hsend hsize (hring.store hroom value) rfl ?_
    rw [hring.store_items hroom]
    exact boxStep_sent (by rw [Mailbox.length_items, ← hsize]; exact hroom)

theorem urgent_inv (h : s.Inv n) (value : BitVec 32) : (s.rtMbUrgent value).Inv n := by
  have hfits := h.ring.fits
  unfold MbSys.rtMbUrgent
  split
  next => exact h
  next hno =>
    have hroom : s.mb.entry < s.mb.size := by omega
    refine wakeThread_inv (Nat.zero_le 1)
      ⟨h.size, h.ring, h.box, h.threads, fun hw => absurd rfl hw⟩ h.senders h.size
      (h.ring.storeFront hroom value) rfl ?_
    rw [h.ring.storeFront_items hroom]
    exact boxStep_urgent (by rw [Mailbox.length_items, ← h.size]; exact hroom)

/-- A pass of `rt_mb_recv`, by a receiver that had been resumed, `spare` 1, or not. -/
theorem recv_inv {spare : Nat} (hspare : spare ≤ 1)
    (h : MbSys.Inv n { s with suspendThread := [] })
    (hrecv : s.suspendThread ≠ [] → s.mb.entry ≤ s.resumedThread.length + spare)
    (thread : Nat) (wait : Bool) : (s.rtMbRecv thread wait).Inv n := by
  have hring : s.mb.Inv := h.ring
  unfold MbSys.rtMbRecv
  split
  next hempty =>
    have hle : s.mb.entry ≤ s.resumedThread.length := hempty ▸ Nat.zero_le _
    split
    · exact ⟨h.size, h.ring, h.box, fun _ => hle, h.senders⟩
    · exact ⟨h.size, h.ring, h.box, fun _ => hle, h.senders⟩
  next hno =>
    have hone : 0 < s.mb.entry := Nat.pos_of_ne_zero hno
    have hentry : s.mb.fetch.2.entry = s.mb.entry - 1 := if_pos hone
    refine ⟨h.size, hring.fetch hone, boxRun_concat h.box ?_, fun hw => ?_, fun hw => ?_⟩
    · change boxStep n s.mb.items _ = some s.mb.fetch.2.items
      rw [hring.fetch_items hone]
      exact boxStep_received
    · have := hrecv hw
      change s.mb.fetch.2.entry ≤ s.resumedThread.length
      omega
    · have := h.senders (ne_nil_of_tail hw)
      change n ≤ s.mb.entry + s.resumedSender.length at this
      change n ≤ s.mb.fetch.2.entry + (s.resumedSender ++ s.suspendSender.take 1).length
      rw [length_append_take_one hw]
      omega

theorem inv_mbStep (hmax : n ≤ rtMbEntryMax) (s : MbSys) (a : MbAct) (s' : MbSys)
    (h : s.Inv n) (hstep : mbStep s a = some s') : s'.Inv n := by
  have hcalm : MbSys.Inv n { s with suspendSender := [] } :=
    ⟨h.size, h.ring, h.box, h.threads, fun hw => absurd rfl hw⟩
  have hquiet : MbSys.Inv n { s with suspendThread := [] } :=
    ⟨h.size, h.ring, h.box, fun hw => absurd rfl hw, h.senders⟩
  cases a with
  | send thread value wait =>
    cases hstep
    exact send_inv (Nat.zero_le 1) hmax hcalm h.senders thread value wait
  | sendAgain thread value wait =>
    obtain ⟨hmem, ⟨⟩⟩ := Option.ite_none_right_eq_some.mp hstep
    refine send_inv (s := { s with resumedSender := s.resumedSender.erase (thread, value) })
      (Nat.le_refl 1) hmax ⟨h.size, h.ring, h.box, h.threads, fun hw => absurd rfl hw⟩
      (fun hw => ?_) thread value wait
    dsimp only
    rw [length_erase_add_one hmem]
    exact h.senders hw
  | sendTimeout thread value =>
    obtain ⟨-, ⟨⟩⟩ := Option.ite_none_right_eq_some.mp hstep
    exact ⟨h.size, h.ring, h.box, h.threads, fun hw =>
      h.senders (ne_nil_of_erase (a := (thread, value)) hw)⟩
  | urgent value =>
    cases hstep
    exact urgent_inv h value
  | recv thread wait =>
    cases hstep
    exact recv_inv (Nat.zero_le 1) hquiet h.threads thread wait
  | recvAgain thread wait =>
    obtain ⟨hmem, ⟨⟩⟩ := Option.ite_none_right_eq_some.mp hstep
    refine recv_inv (s := { s with resumedThread := s.resumedThread.erase thread })
      (Nat.le_refl 1) ⟨h.size, h.ring, h.box, fun hw => absurd rfl hw, h.senders⟩
      (fun hw => ?_) thread wait
    dsimp only
    rw [length_erase_add_one hmem]
    exact h.threads hw
  | recvTimeout thread =>
    obtain ⟨-, ⟨⟩⟩ := Option.ite_none_right_eq_some.mp hstep
    exact ⟨h.size, h.ring, h.box, fun hw =>
      h.threads (ne_nil_of_erase (a := thread) hw), h.senders⟩
  | setPriority thread priority =>
    cases hstep
    exact ⟨h.size, h.ring, h.box, h.threads, h.senders⟩

/-- For every mailbox of 1 to 65535 words, every number of threads and every interleaving of their
    calls, their timeouts and the passes of the resumed ones. -/
theorem mailbox_run (msgPool : Nat → BitVec 32) {size : Nat} (h0 : 0 < size)
    (hmax : size ≤ rtMbEntryMax) (flag : IpcFlag) (prio : Nat → Nat) {s : MbSys}
    (h : Reach mbStep Free (.start (rtMbInit msgPool size) flag prio) s) :
    boxRun size s.log = some s.mb.items ∧
      (s.resumedThread = [] → s.suspendThread ≠ [] → s.mb.items = []) ∧
      (s.resumedSender = [] → s.suspendSender ≠ [] → s.mb.items.length = size) := by
  have hinv : s.Inv size :=
    h.invariant (MbSys.Inv size) ⟨mbInit_size msgPool hmax, inv_mbInit msgPool h0 hmax, rfl,
      fun hw => absurd rfl hw, fun hw => absurd rfl hw⟩
      fun s a s' hs _ hstep => inv_mbStep hmax s a s' hs hstep
  refine ⟨hinv.box, fun hr hw => ?_, fun hr hw => ?_⟩
  · have := hinv.threads hw
    rw [hr] at this
    exact List.eq_nil_of_length_eq_zero (Mailbox.length_items.trans (Nat.le_zero.mp this))
  · have hle := hinv.senders hw
    have hfits := hinv.ring.fits
    rw [hr, List.length_nil] at hle
    rw [hinv.size] at hfits
    rw [Mailbox.length_items]
    omega

/-- Two words: the third waits and a fourth, urgent, is refused; a word received lets the third
    in. -/
theorem mailbox_run_two : ∃ s : MbSys,
    (boxRun 2 s.log = some s.mb.items ∧
      (s.resumedThread = [] → s.suspendThread ≠ [] → s.mb.items = []) ∧
      (s.resumedSender = [] → s.suspendSender ≠ [] → s.mb.items.length = 2)) ∧
      s.log = [.sent 1, .urgent 2, .received 2, .sent 3] := by
  have hrun : ∃ s, exec (guarded mbStep Free)
      (.start (rtMbInit (fun _ => 0) 2) .prio fun _ => 0)
      [.send 1 1 true, .urgent 2, .send 2 3 true, .urgent 4, .recv 3 true, .sendAgain 2 3 true] =
        some s ∧ s.log = [.sent 1, .urgent 2, .received 2, .sent 3] := ⟨_, rfl, by decide⟩
  obtain ⟨s, hs, hlog⟩ := hrun
  exact ⟨s, mailbox_run (fun _ => 0) (by decide) (by decide) .prio (fun _ => 0)
    (reach_of_exec .start hs), hlog⟩

end Live2dStm32.Kernel
