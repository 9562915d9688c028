import Live2dStm32.Kernel.Mempool
import Live2dStm32.Kernel.Threads
import Live2dStm32.Lib.Box

/-
  The message queues of src/rt-thread/src/ipc.c. A message is on the list of free messages, on the
  queue, or out with a thread: `rt_mq_send_wait` and `rt_mq_urgent` take a free one, fill it with
  the interrupts on and then link it; `rt_mq_recv` takes the first of the queue, copies it with the
  interrupts on and then gives it back. Other calls run in between.

  `message_queue_run`: in every reachable state the messages linked and received, in their order,
  are those of a box of `max_msgs` messages, one that is out to be read begins with the bytes
  logged at its receive, and so does the receiver's copy as far as its buffer goes, and with nobody
  resumed a thread waits to receive only at an empty queue, and to send only with no message free.
  `rt_mq_detach`, `rt_mq_delete` and `rt_mq_control` are left out.
-/

namespace Live2dStm32.Kernel

open Live2dStm32.Lib

/-! ## The code -/

/-- `RT_MQ_ENTRY_MAX`. -/
def rtMqEntryMax : Nat := 65535

/-- `struct rt_messagequeue`, with the links and the bytes of its messages; its lists of threads
    are in `MqSys`. -/
structure MessageQueue where
  msgPool : Nat
  msgSize : Nat
  maxMsgs : Nat
  entry : Nat
  msgQueueHead : Nat
  msgQueueTail : Nat
  msgQueueFree : Nat
  next : Nat → Nat
  body : Nat → List (BitVec 8)

/-- The address of a message of the pool. -/
def MessageQueue.msgAt (mq : MessageQueue) (i : Nat) : Nat := mq.msgPool + i * (mq.msgSize + 4)

/-- A message goes to the front of the free list. -/
def MessageQueue.release (mq : MessageQueue) (msg : Nat) : MessageQueue :=
  { mq with next := Function.update mq.next msg mq.msgQueueFree, msgQueueFree := msg }

/-- The first `temp` rounds of the loop of `rt_mq_init`. -/
def MessageQueue.initFree (mq : MessageQueue) : Nat → MessageQueue
  | 0 => mq
  | temp + 1 => (mq.initFree temp).release (mq.msgAt temp)

/-- `rt_mq_init`; the size of a message and their number have 16 bits. -/
def rtMqInit (msgPool msgSize poolSize : Nat) (next : Nat → Nat)
    (body : Nat → List (BitVec 8)) : MessageQueue :=
  MessageQueue.initFree
    ⟨msgPool, rtAlign msgSize % 65536, poolSize / (rtAlign msgSize % 65536 + 4) % 65536, 0, 0, 0, 0,
      next, body⟩
    (poolSize / (rtAlign msgSize % 65536 + 4) % 65536)

/-- The link of `rt_mq_send_wait`: behind the last message. -/
def MessageQueue.link (mq : MessageQueue) (msg : Nat) : MessageQueue :=
  { mq with
    next := if mq.msgQueueTail ≠ 0 then Function.update mq.next mq.msgQueueTail msg else mq.next
    msgQueueTail := msg
    msgQueueHead := if mq.msgQueueHead = 0 then msg else mq.msgQueueHead }

/-- The link of `rt_mq_urgent`: in front of the first. -/
def MessageQueue.linkFront (mq : MessageQueue) (msg : Nat) : MessageQueue :=
  { mq with
    next := Function.update mq.next msg mq.msgQueueHead
    msgQueueHead := msg
    msgQueueTail := if mq.msgQueueTail = 0 then msg else mq.msgQueueTail }

/-- The message of `rt_mq_recv` leaves the queue. -/
def MessageQueue.unlink (mq : MessageQueue) : MessageQueue :=
  { mq with
    msgQueueHead := mq.next mq.msgQueueHead
    msgQueueTail := if mq.msgQueueTail = mq.msgQueueHead then 0 else mq.msgQueueTail
    entry := if mq.entry > 0 then mq.entry - 1 else mq.entry }

/-! ## Threads -/

/-- A message out with a thread that sends, before and after the thread filled it. -/
structure Pending where
  msg : Nat
  data : List (BitVec 8)
  urgent : Bool
  filled : Bool
  deriving DecidableEq, Repr

/-- A message out with a thread that receives into a buffer of `size` bytes: `data` is what was
    logged at its receive, `buffer` what the thread copied. -/
structure Taken where
  msg : Nat
  size : Nat
  data : List (BitVec 8)
  buffer : Option (List (BitVec 8))
  deriving DecidableEq, Repr

/-- The queue with the threads in its calls, the receivers with their sizes. A thread on a
    suspended list waits; a resumed one is ready, and has yet to test the queue again. `pending`
    and `taken` are the messages out with senders and receivers, `data` is what was last put into
    a message, and `log` the messages linked and received. -/
structure MqSys where
  mq : MessageQueue
  flag : IpcFlag
  prio : Nat → Nat
  suspendSender : List (Nat × List (BitVec 8))
  suspendThread : List (Nat × Nat)
  resumedSender : List (Nat × List (BitVec 8))
  resumedThread : List (Nat × Nat)
  pending : List Pending
  taken : List Taken
  data : Nat → List (BitVec 8)
  log : List (BoxEvent (List (BitVec 8)))

def MqSys.start (mq : MessageQueue) (flag : IpcFlag) (prio : Nat → Nat) : MqSys :=
  ⟨mq, flag, prio, [], [], [], [], [], [], fun _ => [], []⟩

/-- A free message goes out with a sender. -/
def MqSys.grab (s : MqSys) (data : List (BitVec 8)) (urgent : Bool) : MqSys :=
  { s with
    mq := { s.mq with msgQueueFree := s.mq.next s.mq.msgQueueFree }
    pending := ⟨s.mq.msgQueueFree, data, urgent, false⟩ :: s.pending }

/-- One pass of the loop of `rt_mq_send_wait`, up to the suspension or to the free message. -/
def MqSys.sendPass (s : MqSys) (thread : Nat) (data : List (BitVec 8)) (wait : Bool) : MqSys :=
  if s.mq.msgQueueFree = 0 then
    if wait then
      { s with
        suspendSender :=
          ipcInsert (fun sender => s.prio sender.1) s.flag s.suspendSender (thread, data) }
    else s
  else s.grab data false

/-- The call begins; data that no message holds are refused. -/
def MqSys.rtMqSendWait (s : MqSys) (thread : Nat) (data : List (BitVec 8)) (wait : Bool) :
    MqSys :=
  if data.length > s.mq.msgSize then s else s.sendPass thread data wait

def MqSys.rtMqUrgent (s : MqSys) (data : List (BitVec 8)) : MqSys :=
  if data.length > s.mq.msgSize then s
  else if s.mq.msgQueueFree = 0 then s else s.grab data true

/-- The part with the interrupts on: `rt_mq_send_wait` also ends the list here. -/
def MqSys.fill (s : MqSys) (p : Pending) : MqSys :=
  { s with
    mq := { s.mq with
      next := if p.urgent then s.mq.next else Function.update s.mq.next p.msg 0
      body := Function.update s.mq.body p.msg
        (p.data ++ (s.mq.body p.msg).drop p.data.length) }
    pending := { p with filled := true } :: s.pending.erase p
    data := Function.update s.data p.msg p.data }

/-- A message is linked. -/
def MessageQueue.place (mq : MessageQueue) (p : Pending) : MessageQueue :=
  if p.urgent then mq.linkFront p.msg else mq.link p.msg

/-- It is counted, and the first waiting receiver is resumed; without room in the counter the call
    stops at `-RT_EFULL`. -/
def MqSys.post (s : MqSys) (p : Pending) : MqSys :=
  if s.mq.entry < rtMqEntryMax then
    { s with
      mq := { s.mq.place p with entry := s.mq.entry + 1 }
      pending := s.pending.erase p
      suspendThread := s.suspendThread.tail
      resumedThread := s.resumedThread ++ s.suspendThread.take 1
      log := s.log ++ [if p.urgent then .urgent p.data else .sent p.data] }
  else { s with mq := s.mq.place p, pending := s.pending.erase p }

/-- One pass of the loop of `rt_mq_recv`, up to the suspension or to the message. -/
def MqSys.rtMqRecv (s : MqSys) (thread size : Nat) (wait : Bool) : MqSys :=
  if s.mq.entry = 0 then
    if wait then
      { s with
        suspendThread :=
          ipcInsert (fun receiver => s.prio receiver.1) s.flag s.suspendThread (thread, size) }
    else s
  else
    { s with
      mq := s.mq.unlink
      taken := ⟨s.mq.msgQueueHead, size, s.data s.mq.msgQueueHead, none⟩ :: s.taken
      log := s.log ++ [.received (s.data s.mq.msgQueueHead)] }

/-- The part of `rt_mq_recv` with the interrupts on. -/
def MqSys.copy (s : MqSys) (t : Taken) : MqSys :=
  { s with
    taken := { t with buffer := some ((s.mq.body t.msg).take
      (if t.size > s.mq.msgSize then s.mq.msgSize else t.size)) } :: s.taken.erase t }

/-- The end of `rt_mq_recv`: the message is free, and the first waiting sender resumed. -/
def MqSys.giveBack (s : MqSys) (t : Taken) : MqSys :=
  { s with
    mq := s.mq.release t.msg
    taken := s.taken.erase t
    suspendSender := s.suspendSender.tail
    resumedSender := s.resumedSender ++ s.suspendSender.take 1 }

/-- A call begins, `wait` unless its timeout is 0; a resumed thread goes on, `wait` while it has
    time left; the timer of a waiting thread takes it off its list; a thread fills its message or
    links it, copies the one it took or gives it back; a thread gets another priority. -/
inductive MqAct where
  | send (thread : Nat) (data : List (BitVec 8)) (wait : Bool)
  | sendAgain (thread : Nat) (data : List (BitVec 8)) (wait : Bool)
  | sendTimeout (thread : Nat) (data : List (BitVec 8))
  | urgent (data : List (BitVec 8))
  | fill (p : Pending)
  | post (p : Pending)
  | recv (thread size : Nat) (wait : Bool)
  | recvAgain (thread size : Nat) (wait : Bool)
  | recvTimeout (thread size : Nat)
  | copy (t : Taken)
  | giveBack (t : Taken)
  | setPriority (thread priority : Nat)
  deriving DecidableEq, Repr

def mqStep (s : MqSys) : MqAct → Option MqSys
  | .send thread data wait => some (s.rtMqSendWait thread data wait)
  | .sendAgain thread data wait =>
    if (thread, data) ∈ s.resumedSender then
      some ({ s with resumedSender := s.resumedSender.erase (thread, data) }.sendPass
        thread data wait)
    else none
  | .sendTimeout thread data =>
    if (thread, data) ∈ s.suspendSender then
      some { s with suspendSender := s.suspendSender.erase (thread, data) }
    else none
  | .urgent data => some (s.rtMqUrgent data)
  | .fill p => if p ∈ s.pending ∧ p.filled = false then some (s.fill p) else none
  | .post p => if p ∈ s.pending ∧ p.filled = true then some (s.post p) else none
  | .recv thread size wait => some (s.rtMqRecv thread size wait)
  | .recvAgain thread size wait =>
    if (thread, size) ∈ s.resumedThread then
      some ({ s with resumedThread := s.resumedThread.erase (thread, size) }.rtMqRecv
        thread size wait)
    else none
  | .recvTimeout thread size =>
    if (thread, size) ∈ s.suspendThread then
      some { s with suspendThread := s.suspendThread.erase (thread, size) }
    else none
  | .copy t => if t ∈ s.taken ∧ t.buffer = none then some (s.copy t) else none
  | .giveBack t => if t ∈ s.taken ∧ t.buffer ≠ none then some (s.giveBack t) else none
  | .setPriority thread priority =>
    some { s with prio := Function.update s.prio thread priority }

/-! ## The law of the queue -/

/-- The messages out: those being sent and those being read. -/
def MqSys.out (s : MqSys) : List Nat := s.pending.map Pending.msg ++ s.taken.map Taken.msg

/-- A pool of messages: no two at one place, none at RT_NULL, and as many as the counter counts. -/
structure Pool (msgs : List Nat) : Prop where
  nodup : msgs.Nodup
  nonnull : 0 ∉ msgs
  counted : msgs.length ≤ rtMqEntryMax

/-- The bytes `body` of a message out to be read begin with those logged at its receive, and so do
    the bytes that its receiver copied, of which there are `msgSize` at most. -/
structure Taken.Holds (t : Taken) (body : Nat → List (BitVec 8)) (msgSize : Nat)
    (log : List (BoxEvent (List (BitVec 8)))) : Prop where
  logged : .received t.data ∈ log
  body : t.data <+: body t.msg
  buffer : ∀ buffer, t.buffer = some buffer → t.data.take (min t.size msgSize) <+: buffer

theorem Taken.Holds.append {t : Taken} {body : Nat → List (BitVec 8)} {msgSize : Nat}
    {log : List (BoxEvent (List (BitVec 8)))} (h : t.Holds body msgSize log)
    (e : BoxEvent (List (BitVec 8))) : t.Holds body msgSize (log ++ [e]) :=
  ⟨List.mem_append_left _ h.logged, h.body, h.buffer⟩

/-- `fr` are the messages on the free list and `q` those on the queue. -/
structure MqSys.Inv (msgs : List Nat) (s : MqSys) (fr q : List Nat) : Prop where
  free : Threaded 0 s.mq.next s.mq.msgQueueFree fr
  queue : Threaded 0 s.mq.next s.mq.msgQueueHead q
  tail : s.mq.msgQueueTail = q.getLast?.getD 0
  entry : s.mq.entry = q.length
  perm : (fr ++ (q ++ s.out)).Perm msgs
  filled : ∀ p ∈ s.pending, p.filled = true →
    s.data p.msg = p.data ∧ (p.urgent = false → s.mq.next p.msg = 0)
  bodies : ∀ m, m ∈ q ∨ (∃ p ∈ s.pending, p.msg = m ∧ p.filled = true) →
    s.data m <+: s.mq.body m
  taken : ∀ t ∈ s.taken, t.Holds s.mq.body s.mq.msgSize s.log
  box : boxRun msgs.length s.log = some (q.map s.data)
  threads : s.suspendThread ≠ [] → s.mq.entry ≤ s.resumedThread.length
  senders : s.suspendSender ≠ [] → fr.length ≤ s.resumedSender.length

variable {msgs fr q : List Nat} {s : MqSys} {m : Nat}

theorem MqSys.Inv.nodup (hp : Pool msgs) (h : s.Inv msgs fr q) : (fr ++ (q ++ s.out)).Nodup :=
  h.perm.nodup_iff.mpr hp.nodup

theorem MqSys.Inv.ne_zero (hp : Pool msgs) (h : s.Inv msgs fr q)
    (hm : m ∈ fr ++ (q ++ s.out)) : m ≠ 0 := by
  rintro rfl
  exact hp.nonnull (h.perm.mem_iff.mp hm)

/-- A message that is out is on neither list. -/
theorem MqSys.Inv.apart (hp : Pool msgs) (h : s.Inv msgs fr q) (hm : m ∈ s.out) :
    m ∉ fr ∧ m ∉ q := by
  have hnodup := List.nodup_append.mp (h.nodup hp)
  exact ⟨fun hmem => hnodup.2.2 m hmem m (List.mem_append_right q hm) rfl,
    fun hmem => (List.nodup_append.mp hnodup.2.1).2.2 m hmem m hm rfl⟩

/-- One of the messages being sent, and the others. -/
theorem perm_pending {p : Pending} (hmem : p ∈ s.pending) :
    s.out.Perm (p.msg :: ((s.pending.erase p).map Pending.msg ++ s.taken.map Taken.msg)) :=
  ((List.perm_cons_erase hmem).map Pending.msg).append_right _

theorem MqSys.Inv.others (hp : Pool msgs) (h : s.Inv msgs fr q) {p : Pending}
    (hmem : p ∈ s.pending) :
    p.msg ∉ (s.pending.erase p).map Pending.msg ∧ p.msg ∉ s.taken.map Taken.msg := by
  have hnodup := (List.nodup_append.mp (List.nodup_append.mp (h.nodup hp)).2.1).2.1
  have hcons := (perm_pending hmem).nodup_iff.mp hnodup
  have hout := (List.nodup_cons.mp hcons).1
  exact ⟨fun hm => hout (List.mem_append_left _ hm), fun hm => hout (List.mem_append_right _ hm)⟩

theorem grab_inv {spare : Nat} (hspare : spare ≤ 1)
    (h : MqSys.Inv msgs { s with suspendSender := [] } fr q)
    (hsend : s.suspendSender ≠ [] → fr.length ≤ s.resumedSender.length + spare)
    (hne : s.mq.msgQueueFree ≠ 0) (data : List (BitVec 8)) (urgent : Bool) :
    ∃ fr', (s.grab data urgent).Inv msgs fr' q := by
  cases fr with
  | nil => exact absurd h.free hne
  | cons c rest =>
    obtain ⟨rfl, -, hrest⟩ := h.free
    have hperm : (rest ++ (q ++ (s.grab data urgent).out)).Perm msgs := by
      refine List.Perm.trans (List.perm_iff_count.mpr fun x => ?_) h.perm
      simp only [MqSys.out, MqSys.grab, List.map_cons, List.cons_append, List.count_append,
        List.count_cons]
      omega
    refine ⟨rest, hrest, h.queue, h.tail, h.entry, hperm, fun p hmem hf => ?_, fun m hm => ?_,
      h.taken, h.box, h.threads, fun hw => ?_⟩
    · obtain rfl | hmem := List.mem_cons.mp hmem
      · exact absurd hf Bool.false_ne_true
      · exact h.filled p hmem hf
    · refine h.bodies m (hm.imp_right ?_)
      rintro ⟨p, hmem, hmsg, hf⟩
      obtain rfl | hmem := List.mem_cons.mp hmem
      · exact absurd hf Bool.false_ne_true
      · exact ⟨p, hmem, hmsg, hf⟩
    · have := hsend hw
      rw [List.length_cons] at this
      change rest.length ≤ s.resumedSender.length
      omega

theorem sendPass_inv {spare : Nat} (hspare : spare ≤ 1)
    (h : MqSys.Inv msgs { s with suspendSender := [] } fr q)
    (hsend : s.suspendSender ≠ [] → fr.length ≤ s.resumedSender.length + spare)
    (thread : Nat) (data : List (BitVec 8)) (wait : Bool) :
    ∃ fr', (s.sendPass thread data wait).Inv msgs fr' q := by
  unfold MqSys.sendPass
  split
  next hnone =>
    have hnil : fr = [] := by
      by_contra hne
      exact Threaded.ne_null h.free hne hnone
    have hle : fr.length ≤ s.resumedSender.length := by
      rw [hnil]
      exact Nat.zero_le _
    refine ⟨fr, ?_⟩
    split
    · exact { h with senders := fun _ => hle }
    · exact { h with senders := fun _ => hle }
  next hsome => exact grab_inv hspare h hsend hsome data false

/-- What a sender writes is in its own message. -/
theorem fill_inv (hp : Pool msgs) (h : s.Inv msgs fr q) {p : Pending} (hmem : p ∈ s.pending) :
    (s.fill p).Inv msgs fr q := by
  have hout : p.msg ∈ s.out := List.mem_append_left _ (List.mem_map_of_mem hmem)
  obtain ⟨hfr, hq⟩ := h.apart hp hout
  obtain ⟨hpend, htaken⟩ := h.others hp hmem
  have hne : ∀ p' ∈ s.pending.erase p, p'.msg ≠ p.msg := fun p' hp' heq =>
    hpend (heq ▸ List.mem_map_of_mem hp')
  have hlink : ∀ a xs, Threaded 0 s.mq.next a xs → p.msg ∉ xs →
      Threaded 0 (s.fill p).mq.next a xs := by
    intro a xs ht hxs
    unfold MqSys.fill
    dsimp only
    split
    · exact ht
    · exact ht.update hxs 0
  have hperm : (s.fill p).out.Perm s.out := (perm_pending hmem).symm
  refine ⟨hlink _ _ h.free hfr, hlink _ _ h.queue hq, h.tail, h.entry,
    ((hperm.append_left q).append_left fr).trans h.perm, fun p' hmem' hf => ?_, fun m hm => ?_,
    fun t ht => ?_, ?_, h.threads, h.senders⟩
  · obtain rfl | hmem' := List.mem_cons.mp hmem'
    · refine ⟨Function.update_self .., fun hurgent => ?_⟩
      change (if p.urgent = true then s.mq.next else Function.update s.mq.next p.msg 0) p.msg = 0
      rw [if_neg (by rw [hurgent]; decide), Function.update_self]
    · obtain ⟨hdata, hnext⟩ := h.filled p' (List.mem_of_mem_erase hmem') hf
      refine ⟨(Function.update_of_ne (hne p' hmem') ..).trans hdata, fun hurgent => ?_⟩
      change (if p.urgent = true then s.mq.next else Function.update s.mq.next p.msg 0) p'.msg = 0
      split
      · exact hnext hurgent
      · rw [Function.update_of_ne (hne p' hmem')]
        exact hnext hurgent
  · change Function.update s.data p.msg p.data m <+: Function.update s.mq.body p.msg _ m
    by_cases heq : m = p.msg
    · rw [heq, Function.update_self, Function.update_self]
      exact List.prefix_append ..
    · rw [Function.update_of_ne heq, Function.update_of_ne heq]
      refine h.bodies m (hm.imp_right ?_)
      rintro ⟨p', hmem', hmsg, hf⟩
      obtain rfl | hmem' := List.mem_cons.mp hmem'
      · exact absurd hmsg.symm heq
      · exact ⟨p', List.mem_of_mem_erase hmem', hmsg, hf⟩
  · have hother : t.msg ≠ p.msg := fun heq => htaken (heq ▸ List.mem_map_of_mem ht)
    obtain ⟨hlogged, hbody, hbuffer⟩ := h.taken t ht
    refine ⟨hlogged, ?_, hbuffer⟩
    change t.data <+: Function.update s.mq.body p.msg _ t.msg
    rw [Function.update_of_ne hother]
    exact hbody
  · refine h.box.trans (congrArg some (List.map_congr_left fun m hm => ?_))
    exact (Function.update_of_ne (ne_of_mem_of_not_mem hm hq) ..).symm

section Links

variable {mq : MessageQueue} {msg : Nat}

theorem link_spec (hq : Threaded 0 mq.next mq.msgQueueHead q)
    (htail : mq.msgQueueTail = q.getLast?.getD 0) (hnodup : (msg :: q).Nodup) (hmsg : msg ≠ 0)
    (hend : mq.next msg = 0) :
    Threaded 0 (mq.link msg).next (mq.link msg).msgQueueHead (q ++ [msg]) ∧
      ∀ m, m ∉ q → (mq.link msg).next m = mq.next m := by
  unfold MessageQueue.link
  dsimp only
  obtain rfl | ⟨xs, last, rfl⟩ := List.eq_nil_or_concat q
  · have hhead : mq.msgQueueHead = 0 := hq
    have htail : mq.msgQueueTail = 0 := htail
    rw [if_neg (not_not.mpr htail), if_pos hhead]
    exact ⟨⟨rfl, hmsg, hend⟩, fun _ _ => rfl⟩
  · rw [List.concat_eq_append] at *
    have hlast : mq.msgQueueTail = last := by
      rw [htail, List.getLast?_append]
      rfl
    have hne : last ≠ 0 := hq.mem_ne_null (by simp)
    have hhead : mq.msgQueueHead ≠ 0 := hq.ne_null (by simp)
    rw [hlast, if_pos hne, if_neg hhead]
    refine ⟨hq.concat hnodup hmsg hend, fun m hm => Function.update_of_ne ?_ ..⟩
    rintro rfl
    exact hm (by simp)

theorem linkFront_spec (hq : Threaded 0 mq.next mq.msgQueueHead q)
    (htail : mq.msgQueueTail = q.getLast?.getD 0) (hout : msg ∉ q) (hmsg : msg ≠ 0) :
    Threaded 0 (mq.linkFront msg).next (mq.linkFront msg).msgQueueHead (msg :: q) ∧
      (mq.linkFront msg).msgQueueTail = (msg :: q).getLast?.getD 0 := by
  refine ⟨hq.push hmsg hout, ?_⟩
  unfold MessageQueue.linkFront
  dsimp only
  obtain rfl | ⟨xs, last, rfl⟩ := List.eq_nil_or_concat q
  · exact if_pos htail
  · rw [List.concat_eq_append] at *
    have hlast : mq.msgQueueTail = last := by
      rw [htail, List.getLast?_append]
      rfl
    rw [hlast, if_neg (hq.mem_ne_null (by simp)), ← List.cons_append, List.getLast?_append]
    rfl

theorem unlink_spec (hq : Threaded 0 mq.next mq.msgQueueHead (msg :: q))
    (htail : mq.msgQueueTail = (msg :: q).getLast?.getD 0) (hout : msg ∉ q) :
    mq.msgQueueHead = msg ∧ Threaded 0 mq.unlink.next mq.unlink.msgQueueHead q ∧
      mq.unlink.msgQueueTail = q.getLast?.getD 0 := by
  obtain ⟨hhead, -, hrest⟩ := hq
  refine ⟨hhead, by unfold MessageQueue.unlink; rw [hhead]; exact hrest, ?_⟩
  unfold MessageQueue.unlink
  dsimp only
  rw [hhead]
  obtain rfl | ⟨xs, last, rfl⟩ := List.eq_nil_or_concat q
  · exact if_pos htail
  · rw [List.concat_eq_append] at *
    have hlast : mq.msgQueueTail = last := by
      rw [htail, ← List.cons_append, List.getLast?_append]
      rfl
    have hne : last ≠ msg := by
      rintro rfl
      exact hout (by simp)
    rw [hlast, if_neg hne, List.getLast?_append]
    rfl

end Links

/-- The queue after a message is linked. -/
def placed (p : Pending) (q : List Nat) : List Nat :=
  if p.urgent then p.msg :: q else q ++ [p.msg]

theorem mem_placed {p : Pending} : m ∈ placed p q ↔ m = p.msg ∨ m ∈ q := by
  unfold placed
  split <;> simp [or_comm]

theorem length_placed {p : Pending} : (placed p q).length = q.length + 1 := by
  unfold placed
  split <;> simp

theorem place_spec (hp : Pool msgs) (h : s.Inv msgs fr q) {p : Pending} (hmem : p ∈ s.pending)
    (hf : p.filled = true) :
    Threaded 0 (s.mq.place p).next (s.mq.place p).msgQueueHead (placed p q) ∧
      (s.mq.place p).msgQueueTail = (placed p q).getLast?.getD 0 ∧
      ∀ m, m ∉ placed p q → (s.mq.place p).next m = s.mq.next m := by
  have hout : p.msg ∈ s.out := List.mem_append_left _ (List.mem_map_of_mem hmem)
  have hq := (h.apart hp hout).2
  have hne := h.ne_zero hp (List.mem_append_right fr (List.mem_append_right q hout))
  have hnodup := (List.nodup_append.mp (List.nodup_append.mp (h.nodup hp)).2.1).1
  unfold MessageQueue.place placed
  cases hurgent : p.urgent with
  | true =>
    obtain ⟨hlist, htail⟩ := linkFront_spec h.queue h.tail hq hne
    exact ⟨hlist, htail, fun m hm => Function.update_of_ne (List.ne_of_not_mem_cons hm) ..⟩
  | false =>
    obtain ⟨hlist, hkept⟩ := link_spec h.queue h.tail (List.nodup_cons.mpr ⟨hq, hnodup⟩) hne
      ((h.filled p hmem hf).2 hurgent)
    refine ⟨hlist, ?_, fun m hm => hkept m fun hm' => hm (List.mem_append_left _ hm')⟩
    change p.msg = (q ++ [p.msg]).getLast?.getD 0
    rw [List.getLast?_append]
    rfl

/-- Neither a free message nor one of another sender is on the queue then. -/
theorem MqSys.Inv.not_placed (hp : Pool msgs) (h : s.Inv msgs fr q) {p : Pending}
    (hmem : p ∈ s.pending) (hm : m ∈ fr ∨ m ∈ (s.pending.erase p).map Pending.msg) :
    m ∉ placed p q := by
  have hout : ∀ p' ∈ s.pending, p'.msg ∈ s.out := fun p' hp' =>
    List.mem_append_left _ (List.mem_map_of_mem hp')
  intro hplaced
  obtain rfl | hq := mem_placed.mp hplaced
  · exact hm.elim (h.apart hp (hout p hmem)).1 (h.others hp hmem).1
  · obtain hfr | hm := hm
    · exact (List.nodup_append.mp (h.nodup hp)).2.2 m hfr m (List.mem_append_left _ hq) rfl
    · obtain ⟨p', hp', rfl⟩ := List.mem_map.mp hm
      exact (h.apart hp (hout p' (List.mem_of_mem_erase hp'))).2 hq

theorem post_inv (hp : Pool msgs) (h : s.Inv msgs fr q) {p : Pending} (hmem : p ∈ s.pending)
    (hf : p.filled = true) : (s.post p).Inv msgs fr (placed p q) := by
  obtain ⟨hlist, htail, hkept⟩ := place_spec hp h hmem hf
  have hout : p.msg ∈ s.out := List.mem_append_left _ (List.mem_map_of_mem hmem)
  have hdata := (h.filled p hmem hf).1
  have hlen := h.perm.length_eq
  have hpos := List.length_pos_of_mem hout
  rw [List.length_append, List.length_append] at hlen
  have hroom : q.length < msgs.length := by omega
  have hcount : s.mq.entry < rtMqEntryMax := by
    rw [h.entry]
    exact Nat.lt_of_lt_of_le hroom hp.counted
  unfold MqSys.post
  rw [if_pos hcount]
  have hbody : (s.mq.place p).body = s.mq.body ∧ (s.mq.place p).msgSize = s.mq.msgSize := by
    unfold MessageQueue.place
    split <;> exact ⟨rfl, rfl⟩
  refine ⟨?_, hlist, htail, ?_, ?_, fun p' hp' hf' => ?_, fun m hm => ?_, fun t ht => ?_, ?_,
    fun hw => ?_, h.senders⟩
  · have hfree : (s.mq.place p).msgQueueFree = s.mq.msgQueueFree := by
      unfold MessageQueue.place
      split <;> rfl
    change Threaded 0 (s.mq.place p).next (s.mq.place p).msgQueueFree fr
    rw [hfree]
    exact h.free.congr fun m hm => hkept m (h.not_placed hp hmem (.inl hm))
  · exact (congrArg (· + 1) h.entry).trans length_placed.symm
  · refine List.Perm.trans (List.perm_iff_count.mpr fun x => ?_) h.perm
    have hcnt := (perm_pending hmem).count_eq x
    unfold placed
    simp only [MqSys.out, List.count_append, List.count_cons] at hcnt ⊢
    split <;> simp only [List.count_append, List.count_cons, List.count_nil] <;> omega
  · obtain ⟨hd, hnext⟩ := h.filled p' (List.mem_of_mem_erase hp') hf'
    exact ⟨hd, fun hurgent =>
      (hkept p'.msg (h.not_placed hp hmem (.inr (List.mem_map_of_mem hp')))).trans (hnext hurgent)⟩
  · change s.data m <+: (s.mq.place p).body m
    rw [hbody.1]
    apply h.bodies
    obtain hm | ⟨p', hp', hmsg, hf'⟩ := hm
    · obtain rfl | hm := mem_placed.mp hm
      · exact .inr ⟨p, hmem, rfl, hf⟩
      · exact .inl hm
    · exact .inr ⟨p', List.mem_of_mem_erase hp', hmsg, hf'⟩
  · change t.Holds (s.mq.place p).body (s.mq.place p).msgSize _
    rw [hbody.1, hbody.2]
    exact (h.taken t ht).append _
  · refine boxRun_concat h.box ?_
    have hbox : (q.map s.data).length < msgs.length := by rwa [List.length_map]
    unfold placed
    split
    · rw [boxStep_urgent hbox, List.map_cons, hdata]
    · rw [boxStep_sent hbox, List.map_append, List.map_singleton, hdata]
  · change s.mq.entry + 1 ≤ (s.resumedThread ++ s.suspendThread.take 1).length
    rw [length_append_take_one hw]
    exact Nat.succ_le_succ (h.threads (ne_nil_of_tail hw))

/-- A pass of `rt_mq_recv`, by a receiver that had been resumed, `spare` 1, or not. -/
theorem mqRecv_inv {spare : Nat} (hspare : spare ≤ 1) (hp : Pool msgs)
    (h : MqSys.Inv msgs { s with suspendThread := [] } fr q)
    (hrecv : s.suspendThread ≠ [] → s.mq.entry ≤ s.resumedThread.length + spare)
    (thread size : Nat) (wait : Bool) : ∃ q', (s.rtMqRecv thread size wait).Inv msgs fr q' := by
  have hentry : s.mq.entry = q.length := h.entry
  unfold MqSys.rtMqRecv
  split
  next hempty =>
    have hle : s.mq.entry ≤ s.resumedThread.length := hempty ▸ Nat.zero_le _
    refine ⟨q, ?_⟩
    split
    · exact { h with threads := fun _ => hle }
    · exact { h with threads := fun _ => hle }
  next hsome =>
    cases q with
    | nil => exact absurd hentry hsome
    | cons msg q =>
      have hnodup := (List.nodup_append.mp (List.nodup_append.mp (h.nodup hp)).2.1).1
      obtain ⟨hhead, hlist, htail⟩ :=
        unlink_spec h.queue h.tail (List.nodup_cons.mp hnodup).1
      have hcount : s.mq.unlink.entry = s.mq.entry - 1 := if_pos (Nat.pos_of_ne_zero hsome)
      rw [List.length_cons] at hentry
      rw [hhead]
      refine ⟨q, h.free, hlist, htail, ?_, ?_, h.filled, fun m hm => ?_, fun t ht => ?_, ?_,
        fun hw => ?_, h.senders⟩
      · change s.mq.unlink.entry = q.length
        omega
      · refine List.Perm.trans (List.perm_iff_count.mpr fun x => ?_) h.perm
        simp only [MqSys.out, List.map_cons, List.cons_append, List.count_append,
          List.count_cons]
        omega
      · exact h.bodies m (hm.imp_left (List.mem_cons_of_mem msg))
      · obtain rfl | ht := List.mem_cons.mp ht
        · refine ⟨List.mem_append_right _ List.mem_cons_self, ?_, fun _ hcopied => nomatch hcopied⟩
          exact h.bodies msg (.inl List.mem_cons_self)
        · exact (h.taken t ht).append _
      · exact boxRun_concat h.box boxStep_received
      · have := hrecv hw
        change s.mq.unlink.entry ≤ s.resumedThread.length
        omega

/-- The copy is of the bytes that were sent: nobody else writes a message that is out. -/
theorem copy_inv (h : s.Inv msgs fr q) {t : Taken} (ht : t ∈ s.taken) :
    (s.copy t).Inv msgs fr q := by
  have hperm : (s.copy t).out.Perm s.out :=
    ((List.perm_cons_erase ht).map Taken.msg).symm.append_left _
  refine ⟨h.free, h.queue, h.tail, h.entry, ((hperm.append_left q).append_left fr).trans h.perm,
    h.filled, h.bodies, fun t' ht' => ?_, h.box, h.threads, h.senders⟩
  obtain rfl | ht' := List.mem_cons.mp ht'
  · obtain ⟨hlogged, hbody, -⟩ := h.taken t ht
    refine ⟨hlogged, hbody, fun buffer hcopied => ?_⟩
    have hmin : (if t.size > s.mq.msgSize then s.mq.msgSize else t.size) =
        min t.size s.mq.msgSize := by
      split <;> omega
    cases hcopied
    rw [hmin]
    exact hbody.take _
  · exact h.taken t' (List.mem_of_mem_erase ht')

theorem giveBack_inv (hp : Pool msgs) (h : s.Inv msgs fr q) {t : Taken} (ht : t ∈ s.taken) :
    (s.giveBack t).Inv msgs (t.msg :: fr) q := by
  have hm : t.msg ∈ s.taken.map Taken.msg := List.mem_map_of_mem ht
  have hout : t.msg ∈ s.out := List.mem_append_right _ hm
  obtain ⟨hfr, hq⟩ := h.apart hp hout
  have hne := h.ne_zero hp (List.mem_append_right fr (List.mem_append_right q hout))
  have hperm := (List.perm_cons_erase ht).map Taken.msg
  have hdisj : ∀ p ∈ s.pending, p.msg ≠ t.msg := by
    have hnodup := (List.nodup_append.mp (List.nodup_append.mp (h.nodup hp)).2.1).2.1
    exact fun p hmem => (List.nodup_append.mp hnodup).2.2 _ (List.mem_map_of_mem hmem) t.msg hm
  refine ⟨h.free.push hne hfr, h.queue.update hq _, h.tail, h.entry, ?_, fun p hmem hf => ?_,
    h.bodies, fun t' ht' => h.taken t' (List.mem_of_mem_erase ht'), h.box, h.threads,
    fun hw => ?_⟩
  · refine List.Perm.trans (List.perm_iff_count.mpr fun x => ?_) h.perm
    have hcnt := hperm.count_eq x
    simp only [MqSys.out, MqSys.giveBack, List.map_cons, List.cons_append, List.count_append,
      List.count_cons] at hcnt ⊢
    omega
  · obtain ⟨hd, hnext⟩ := h.filled p hmem hf
    exact ⟨hd, fun hurgent =>
      (Function.update_of_ne (hdisj p hmem) ..).trans (hnext hurgent)⟩
  · change fr.length + 1 ≤ (s.resumedSender ++ s.suspendSender.take 1).length
    rw [length_append_take_one hw]
    exact Nat.succ_le_succ (h.senders (ne_nil_of_tail hw))

theorem inv_mqStep (hp : Pool msgs) (s : MqSys) (a : MqAct) (s' : MqSys)
    (h : ∃ fr q, s.Inv msgs fr q) (hstep : mqStep s a = some s') :
    ∃ fr q, s'.Inv msgs fr q := by
  obtain ⟨fr, q, h⟩ := h
  have hcalm : MqSys.Inv msgs { s with suspendSender := [] } fr q :=
    { h with senders := fun hw => absurd rfl hw }
  have hquiet : MqSys.Inv msgs { s with suspendThread := [] } fr q :=
    { h with threads := fun hw => absurd rfl hw }
  cases a with
  | send thread data wait =>
    cases hstep
    unfold MqSys.rtMqSendWait
    split
    · exact ⟨fr, q, h⟩
    · obtain ⟨fr', h'⟩ := sendPass_inv (Nat.zero_le 1) hcalm h.senders thread data wait
      exact ⟨fr', q, h'⟩
  | sendAgain thread data wait =>
    obtain ⟨hmem, ⟨⟩⟩ := Option.ite_none_right_eq_some.mp hstep
    obtain ⟨fr', h'⟩ := sendPass_inv
      (s := { s with resumedSender := s.resumedSender.erase (thread, data) }) (Nat.le_refl 1)
      { h with senders := fun hw => absurd rfl hw }
      (fun hw => by
        dsimp only
        rw [length_erase_add_one hmem]
        exact h.senders hw) thread data wait
    exact ⟨fr', q, h'⟩
  | sendTimeout thread data =>
    obtain ⟨-, ⟨⟩⟩ := Option.ite_none_right_eq_some.mp hstep
    have hsend : s.suspendSender.erase (thread, data) ≠ [] → fr.length ≤ s.resumedSender.length :=
      fun hw => h.senders (ne_nil_of_erase hw)
    exact ⟨fr, q, { h with senders := hsend }⟩
  | urgent data =>
    cases hstep
    unfold MqSys.rtMqUrgent
    split
    · exact ⟨fr, q, h⟩
    · split
      next => exact ⟨fr, q, h⟩
      next hsome =>
        obtain ⟨fr', h'⟩ := grab_inv (Nat.zero_le 1) hcalm h.senders hsome data true
        exact ⟨fr', q, h'⟩
  | fill p =>
    obtain ⟨⟨hmem, -⟩, ⟨⟩⟩ := Option.ite_none_right_eq_some.mp hstep
    exact ⟨fr, q, fill_inv hp h hmem⟩
  | post p =>
    obtain ⟨⟨hmem, hf⟩, ⟨⟩⟩ := Option.ite_none_right_eq_some.mp hstep
    exact ⟨fr, placed p q, post_inv hp h hmem hf⟩
  | recv thread size wait =>
    cases hstep
    obtain ⟨q', h'⟩ := mqRecv_inv (Nat.zero_le 1) hp hquiet h.threads thread size wait
    exact ⟨fr, q', h'⟩
  | recvAgain thread size wait =>
    obtain ⟨hmem, ⟨⟩⟩ := Option.ite_none_right_eq_some.mp hstep
    obtain ⟨q', h'⟩ := mqRecv_inv
      (s := { s with resumedThread := s.resumedThread.erase (thread, size) }) (Nat.le_refl 1) hp
      { h with threads := fun hw => absurd rfl hw }
      (fun hw => by
        dsimp only
        rw [length_erase_add_one hmem]
        exact h.threads hw) thread size wait
    exact ⟨fr, q', h'⟩
  | recvTimeout thread size =>
    obtain ⟨-, ⟨⟩⟩ := Option.ite_none_right_eq_some.mp hstep
    have hrecv : s.suspendThread.erase (thread, size) ≠ [] →
        s.mq.entry ≤ s.resumedThread.length := fun hw => h.threads (ne_nil_of_erase hw)
    exact ⟨fr, q, { h with threads := hrecv }⟩
  | copy t =>
    obtain ⟨⟨ht, -⟩, ⟨⟩⟩ := Option.ite_none_right_eq_some.mp hstep
    exact ⟨fr, q, copy_inv h ht⟩
  | giveBack t =>
    obtain ⟨⟨ht, -⟩, ⟨⟩⟩ := Option.ite_none_right_eq_some.mp hstep
    exact ⟨t.msg :: fr, q, giveBack_inv hp h ht⟩
  | setPriority thread priority =>
    cases hstep
    exact ⟨fr, q, { h with }⟩

/-! ## The pool -/

/-- The first `n` messages of the pool, the last one first. -/
def MessageQueue.slots (mq : MessageQueue) : Nat → List Nat
  | 0 => []
  | n + 1 => mq.msgAt n :: mq.slots n

theorem length_slots {mq : MessageQueue} {n : Nat} : (mq.slots n).length = n := by
  induction n with
  | zero => rfl
  | succ n ih => exact congrArg (· + 1) ih

/-- The messages of a pool lie behind each other. -/
theorem mem_slots {mq : MessageQueue} {n : Nat} (hm : m ∈ mq.slots n) :
    mq.msgPool ≤ m ∧ m < mq.msgAt n := by
  induction n with
  | zero => exact absurd hm List.not_mem_nil
  | succ n ih =>
    unfold MessageQueue.msgAt at ih ⊢
    rw [Nat.succ_mul]
    obtain rfl | hm := List.mem_cons.mp hm
    · unfold MessageQueue.msgAt
      omega
    · have := ih hm
      omega

theorem nodup_slots {mq : MessageQueue} {n : Nat} : (mq.slots n).Nodup := by
  induction n with
  | zero => exact List.nodup_nil
  | succ n ih => exact List.nodup_cons.mpr ⟨fun hm => Nat.lt_irrefl _ (mem_slots hm).2, ih⟩

theorem initFree_frame (mq : MessageQueue) (n : Nat) :
    mq.initFree n = { mq with
      next := (mq.initFree n).next, msgQueueFree := (mq.initFree n).msgQueueFree } := by
  induction n with
  | zero => rfl
  | succ n ih =>
    rw [MessageQueue.initFree, ih]
    rfl

theorem threaded_initFree {mq : MessageQueue} (hpool : 0 < mq.msgPool)
    (hfree : mq.msgQueueFree = 0) (n : Nat) :
    Threaded 0 (mq.initFree n).next (mq.initFree n).msgQueueFree (mq.slots n) := by
  induction n with
  | zero => exact hfree
  | succ n ih =>
    have hne : mq.msgAt n ≠ 0 := by
      unfold MessageQueue.msgAt
      omega
    exact ih.push hne fun hm => Nat.lt_irrefl _ (mem_slots hm).2

theorem pool_slots {mq : MessageQueue} (hpool : 0 < mq.msgPool) {n : Nat}
    (hn : n ≤ rtMqEntryMax) : Pool (mq.slots n) :=
  ⟨nodup_slots, fun hm => Nat.not_le_of_lt hpool (mem_slots hm).1, length_slots.trans_le hn⟩

theorem inv_mqStart {mq : MessageQueue} (hpool : 0 < mq.msgPool) (hentry : mq.entry = 0)
    (hhead : mq.msgQueueHead = 0) (htail : mq.msgQueueTail = 0) (hfree : mq.msgQueueFree = 0)
    (n : Nat) (flag : IpcFlag) (prio : Nat → Nat) :
    (MqSys.start (mq.initFree n) flag prio).Inv (mq.slots n) (mq.slots n) [] := by
  have hframe := initFree_frame mq n
  refine ⟨threaded_initFree hpool hfree n, ?_, ?_, ?_, by simp [MqSys.out, MqSys.start],
    fun p hp => absurd hp List.not_mem_nil, fun m hm => ?_,
    fun t ht => absurd ht List.not_mem_nil, rfl, fun hw => absurd rfl hw,
    fun hw => absurd rfl hw⟩
  · exact (congrArg MessageQueue.msgQueueHead hframe).trans hhead
  · exact (congrArg MessageQueue.msgQueueTail hframe).trans htail
  · exact (congrArg MessageQueue.entry hframe).trans hentry
  · obtain hm | ⟨p, hp, -⟩ := hm
    · exact absurd hm List.not_mem_nil
    · exact absurd hp List.not_mem_nil

/-- For every message queue, every number of threads and every interleaving of the parts of their
    calls, their timeouts and the passes of the resumed ones. -/
theorem message_queue_run {msgPool : Nat} (hpool : 0 < msgPool) (msgSize poolSize : Nat)
    (next : Nat → Nat) (body : Nat → List (BitVec 8)) (flag : IpcFlag) (prio : Nat → Nat)
    {s : MqSys}
    (h : Reach mqStep Free (.start (rtMqInit msgPool msgSize poolSize next body) flag prio) s) :
    (∃ q : List Nat, Threaded 0 s.mq.next s.mq.msgQueueHead q ∧
      boxRun (poolSize / (rtAlign msgSize % 65536 + 4) % 65536) s.log = some (q.map s.data) ∧
      (s.resumedThread = [] → s.suspendThread ≠ [] → q = [])) ∧
      (∀ t ∈ s.taken, t.Holds s.mq.body s.mq.msgSize s.log) ∧
      (s.resumedSender = [] → s.suspendSender ≠ [] → s.mq.msgQueueFree = 0) := by
  have hcount : poolSize / (rtAlign msgSize % 65536 + 4) % 65536 ≤ rtMqEntryMax :=
    Nat.le_of_lt_succ (Nat.mod_lt _ (by decide))
  generalize hn : poolSize / (rtAlign msgSize % 65536 + 4) % 65536 = n at hcount ⊢
  unfold rtMqInit at h
  rw [hn] at h
  generalize hmq : (⟨msgPool, rtAlign msgSize % 65536, n, 0, 0, 0, 0, next, body⟩ :
    MessageQueue) = mq at h
  have hpool' : 0 < mq.msgPool := hmq ▸ hpool
  have hp : Pool (mq.slots n) := pool_slots hpool' hcount
  have hstart : (MqSys.start (mq.initFree n) flag prio).Inv (mq.slots n) (mq.slots n) [] := by
    subst hmq
    exact inv_mqStart hpool rfl rfl rfl rfl n flag prio
  obtain ⟨fr, q, hinv⟩ := h.invariant (fun s => ∃ fr q, s.Inv (mq.slots n) fr q)
    ⟨_, _, hstart⟩ fun s a s' hs _ hstep => inv_mqStep hp s a s' hs hstep
  have hbox := hinv.box
  rw [length_slots] at hbox
  refine ⟨⟨q, hinv.queue, hbox, fun hr hw => ?_⟩, hinv.taken, fun hr hw => ?_⟩
  · have hle := hinv.threads hw
    rw [hr, hinv.entry] at hle
    exact List.eq_nil_of_length_eq_zero (Nat.le_zero.mp hle)
  · have hle := hinv.senders hw
    rw [hr] at hle
    have hfree := hinv.free
    rw [List.eq_nil_of_length_eq_zero (Nat.le_zero.mp hle)] at hfree
    exact hfree

/-- Two messages of four bytes: an urgent one overtakes, a third sender waits until the message
    read is given back, and the other message is copied. -/
theorem message_queue_run_two : ∃ s : MqSys,
    ((∃ q : List Nat, Threaded 0 s.mq.next s.mq.msgQueueHead q ∧
      boxRun (16 / (rtAlign 4 % 65536 + 4) % 65536) s.log = some (q.map s.data) ∧
      (s.resumedThread = [] → s.suspendThread ≠ [] → q = [])) ∧
      (∀ t ∈ s.taken, t.Holds s.mq.body s.mq.msgSize s.log) ∧
      (s.resumedSender = [] → s.suspendSender ≠ [] → s.mq.msgQueueFree = 0)) ∧
      s.log = [.sent [1], .urgent [2, 3], .received [2, 3], .received [1]] ∧
      s.taken = [⟨1008, 1, [1], some [1]⟩] ∧ s.resumedSender = [(7, [4])] := by
  have hrun : ∃ s, exec (guarded mqStep Free)
      (.start (rtMqInit 1000 4 16 (fun _ => 0) fun _ => [0, 0, 0, 0]) .fifo fun _ => 0)
      [.send 5 [1] true, .fill ⟨1008, [1], false, false⟩, .urgent [2, 3], .send 7 [4] true,
        .post ⟨1008, [1], false, true⟩, .fill ⟨1000, [2, 3], true, false⟩,
        .post ⟨1000, [2, 3], true, true⟩, .recv 6 4 true, .copy ⟨1000, 4, [2, 3], none⟩,
        .giveBack ⟨1000, 4, [2, 3], some [2, 3, 0, 0]⟩, .recv 6 1 true,
        .copy ⟨1008, 1, [1], none⟩] = some s ∧
      s.log = [.sent [1], .urgent [2, 3], .received [2, 3], .received [1]] ∧
      s.taken = [⟨1008, 1, [1], some [1]⟩] ∧ s.resumedSender = [(7, [4])] :=
    ⟨_, rfl, by decide, by decide, by decide⟩
  obtain ⟨s, hs, hlog, htaken, hresumed⟩ := hrun
  exact ⟨s, message_queue_run (by decide) 4 16 _ _ .fifo _ (reach_of_exec .start hs), hlog, htaken,
    hresumed⟩

end Live2dStm32.Kernel
