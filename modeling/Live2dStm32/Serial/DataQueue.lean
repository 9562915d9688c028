import Live2dStm32.Lib.Ring
import Live2dStm32.Lib.Machine
import Mathlib.Algebra.Group.Nat.Defs

/-
  The data queue of the driver framework (rt-thread/components/drivers/src/dataqueue.c): a ring
  of items between threads and interrupts, on which threads wait to push and to pop.

  `rt_data_queue_push` and `rt_data_queue_pop` test the ring again each time the thread is
  resumed. A push resumes one waiting popper; a pop resumes one waiting pusher, but only at or
  below the low watermark. `rt_data_queue_reset` is left out.

  `data_queue_run`: in every reachable state the items popped, and those in the ring after them,
  are the items pushed; and a thread that waits is never forgotten. With nobody resumed, a
  waiting popper means an empty ring, and a waiting pusher a full one or one above the
  watermark: the two sides never wait for each other.
-/

namespace Live2dStm32.Serial

open Live2dStm32.Lib

/-- `struct rt_data_item`. -/
structure DataItem where
  dataPtr : BitVec 32
  dataSize : BitVec 32
  deriving DecidableEq, Repr

/-- `struct rt_data_queue`; the two lists of threads are in `QueueSys`. -/
structure DataQueue where
  size : BitVec 16
  lwm : BitVec 16
  getIndex : BitVec 15
  isEmpty : Bool
  putIndex : BitVec 15
  isFull : Bool
  queue : Nat → DataItem

/-- `rt_data_queue_init`, its allocation successful. -/
def rtDataQueueInit (size lwm : BitVec 16) (queue : Nat → DataItem) : DataQueue :=
  ⟨size, lwm, 0, true, 0, false, queue⟩

/-- `index += 1; if (index == queue->size) index = 0;`, of 15 bits. -/
def bump (size : BitVec 16) (index : BitVec 15) : BitVec 15 :=
  if (index + 1).setWidth 16 = size then 0 else index + 1

/-- The part of `rt_data_queue_push` after the wait. -/
def DataQueue.store (q : DataQueue) (item : DataItem) : DataQueue :=
  let putIndex := bump q.size q.putIndex
  { q with
    queue := Function.update q.queue q.putIndex.toNat item
    putIndex := putIndex
    isEmpty := false
    isFull := if putIndex = q.getIndex then true else q.isFull }

/-- The part of `rt_data_queue_pop` after the wait. -/
def DataQueue.fetch (q : DataQueue) : DataItem × DataQueue :=
  let getIndex := bump q.size q.getIndex
  (q.queue q.getIndex.toNat,
    { q with
      getIndex := getIndex
      isFull := false
      isEmpty := if q.putIndex = getIndex then true else q.isEmpty })

/-- `rt_data_queue_peek`. -/
def rtDataQueuePeek (q : DataQueue) : Option DataItem :=
  if q.isEmpty then none else some (q.queue q.getIndex.toNat)

/-- `rt_data_queue_len`. -/
def rtDataQueueLen (q : DataQueue) : Nat :=
  if q.isEmpty then 0
  else if q.putIndex > q.getIndex then q.putIndex.toNat - q.getIndex.toNat
  else q.size.toNat + q.putIndex.toNat - q.getIndex.toNat

/-- The items in the ring, oldest first. -/
def DataQueue.items (q : DataQueue) : List DataItem :=
  Ring.content q.size.toNat q.queue q.getIndex.toNat (rtDataQueueLen q)

/-! ## The ring -/

variable {q : DataQueue}

/-- Equal indices are empty or full, and only they. -/
structure DataQueue.Inv (q : DataQueue) : Prop where
  size_le : q.size.toNat ≤ 2 ^ 15
  put : q.putIndex.toNat < q.size.toNat
  get : q.getIndex.toNat < q.size.toNat
  same : q.putIndex = q.getIndex → q.isFull = !q.isEmpty
  differ : q.putIndex ≠ q.getIndex → q.isEmpty = false ∧ q.isFull = false

theorem inv_init {size : BitVec 16} (h0 : 0 < size.toNat) (h1 : size.toNat ≤ 2 ^ 15)
    (lwm : BitVec 16) (queue : Nat → DataItem) : (rtDataQueueInit size lwm queue).Inv :=
  ⟨h1, h0, h0, fun _ => rfl, fun h => absurd rfl h⟩

theorem toNat_bump {size : BitVec 16} {index : BitVec 15} (h : index.toNat < size.toNat)
    (hs : size.toNat ≤ 2 ^ 15) : (bump size index).toNat = (index.toNat + 1) % size.toNat := by
  have hi := index.isLt
  have h1 : (index + 1).toNat = (index.toNat + 1) % 2 ^ 15 := BitVec.toNat_add index 1
  have hw : ((index + 1).setWidth 16 = size) ↔ (index.toNat + 1) % 2 ^ 15 = size.toNat := by
    rw [← BitVec.toNat_inj, BitVec.toNat_setWidth, h1, Nat.mod_eq_of_lt]
    omega
  rw [Ring.add_mod_eq h (by omega)]
  unfold bump
  by_cases hend : index.toNat + 1 = 2 ^ 15
  · have hz : (index + 1).toNat = 0 := by omega
    split
    · rw [if_neg (by omega)]
      have : (0 : BitVec 15).toNat = 0 := rfl
      omega
    · rw [hz, if_neg (by omega)]
      omega
  · have hlt : (index.toNat + 1) % 2 ^ 15 = index.toNat + 1 := Nat.mod_eq_of_lt (by omega)
    rw [hlt] at h1 hw
    simp only [hw]
    split
    · rw [if_neg (by omega)]
      have : (0 : BitVec 15).toNat = 0 := rfl
      omega
    · rw [if_pos (by omega), h1]

theorem len_eq (h : q.Inv) : rtDataQueueLen q =
    if q.putIndex = q.getIndex then (if q.isEmpty then 0 else q.size.toNat)
    else Ring.distance q.size.toNat q.getIndex.toNat q.putIndex.toNat := by
  have hget := h.get
  have hput := h.put
  unfold rtDataQueueLen Ring.distance
  by_cases heq : q.putIndex = q.getIndex
  · simp [heq]
  · have hne : q.putIndex.toNat ≠ q.getIndex.toNat := fun h => heq (BitVec.eq_of_toNat_eq h)
    simp only [heq, (h.differ heq).1, if_false, gt_iff_lt, BitVec.lt_def, Bool.false_eq_true]
    split <;> split <;> omega

@[simp] theorem length_items : q.items.length = rtDataQueueLen q := Ring.length_content

theorem getIndex_add_len_mod (h : q.Inv) :
    (q.getIndex.toNat + rtDataQueueLen q) % q.size.toNat = q.putIndex.toNat := by
  rw [len_eq h]
  split
  next heq =>
    split
    · rw [Nat.add_zero, Nat.mod_eq_of_lt h.get, heq]
    · rw [Nat.add_mod_right, Nat.mod_eq_of_lt h.get, heq]
  next => exact Ring.add_distance_mod h.get h.put

theorem isEmpty_iff (h : q.Inv) : q.isEmpty = true ↔ rtDataQueueLen q = 0 := by
  have hpos := Nat.zero_lt_of_lt h.put
  rw [len_eq h]
  split
  next =>
    cases q.isEmpty with
    | true => simp
    | false => simp; omega
  next hne =>
    rw [(h.differ hne).1, Ring.distance_eq_zero_iff h.get, eq_comm, BitVec.toNat_inj]
    simp [Ne.symm hne]

theorem isFull_iff (h : q.Inv) : q.isFull = true ↔ rtDataQueueLen q = q.size.toNat := by
  have hpos := Nat.zero_lt_of_lt h.put
  rw [len_eq h]
  split
  next heq =>
    rw [h.same heq]
    cases q.isEmpty with
    | true => simp; omega
    | false => simp
  next hne =>
    have hd : Ring.distance q.size.toNat q.getIndex.toNat q.putIndex.toNat < q.size.toNat :=
      Ring.distance_lt h.put
    rw [(h.differ hne).2]
    simp
    omega

theorem len_le (h : q.Inv) : rtDataQueueLen q ≤ q.size.toNat := by
  rw [len_eq h]
  split
  · split <;> omega
  · exact Nat.le_of_lt (Ring.distance_lt h.put)

/-- So many items, by where the indices are. -/
theorem len_of_indices (h : q.Inv) {k : Nat} (hk : k ≤ q.size.toNat)
    (hput : q.putIndex.toNat = (q.getIndex.toNat + k) % q.size.toNat)
    (hempty : q.putIndex = q.getIndex → (q.isEmpty = true ↔ k = 0)) : rtDataQueueLen q = k := by
  have hget := h.get
  rw [len_eq h]
  split
  next heq =>
    have hmod := Ring.add_mod_eq hget hk
    rw [← hput, heq] at hmod
    split
    next he => exact ((hempty heq).mp he).symm
    next hne =>
      have hk0 : k ≠ 0 := fun hz => hne ((hempty heq).mpr hz)
      split at hmod <;> omega
  next hne =>
    have hlt : k ≠ q.size.toNat := by
      rintro rfl
      rw [Nat.add_mod_right, Nat.mod_eq_of_lt hget] at hput
      exact hne (BitVec.eq_of_toNat_eq hput)
    rw [hput, Ring.distance_add_mod hget (by omega)]

theorem store_inv (h : q.Inv) (hf : q.isFull = false) (item : DataItem) : (q.store item).Inv := by
  have hput : (bump q.size q.putIndex).toNat < q.size.toNat := by
    rw [toNat_bump h.put h.size_le]
    exact Nat.mod_lt _ (Nat.zero_lt_of_lt h.put)
  refine ⟨h.size_le, hput, h.get, fun heq => ?_, fun hne => ⟨rfl, ?_⟩⟩
  · simp only [DataQueue.store] at heq ⊢
    rw [if_pos heq]
    rfl
  · simp only [DataQueue.store] at hne ⊢
    rw [if_neg hne, hf]

theorem store_items (h : q.Inv) (hf : q.isFull = false) (item : DataItem) :
    (q.store item).items = q.items ++ [item] := by
  have hinv := store_inv h hf item
  have hend := getIndex_add_len_mod h
  have hlt : rtDataQueueLen q < q.size.toNat := by
    refine Nat.lt_of_le_of_ne (len_le h) fun hfull => ?_
    rw [(isFull_iff h).mpr hfull] at hf
    cases hf
  have hlen : rtDataQueueLen (q.store item) = rtDataQueueLen q + 1 := by
    refine len_of_indices hinv (Nat.succ_le_of_lt hlt) ?_ fun _ => ?_
    · change (bump q.size q.putIndex).toNat = _
      rw [toNat_bump h.put h.size_le, ← hend, Nat.mod_add_mod, Nat.add_assoc]
      rfl
    · simp [DataQueue.store]
  unfold DataQueue.items
  rw [hlen]
  change Ring.content q.size.toNat (Function.update q.queue q.putIndex.toNat item) _ _ = _
  rw [← hend]
  exact Ring.content_put hlt

theorem fetch_inv (h : q.Inv) (he : q.isEmpty = false) : q.fetch.2.Inv := by
  have hget : (bump q.size q.getIndex).toNat < q.size.toNat := by
    rw [toNat_bump h.get h.size_le]
    exact Nat.mod_lt _ (Nat.zero_lt_of_lt h.get)
  refine ⟨h.size_le, h.put, hget, fun heq => ?_, fun hne => ⟨?_, rfl⟩⟩
  · simp only [DataQueue.fetch] at heq ⊢
    rw [if_pos heq]
    rfl
  · simp only [DataQueue.fetch] at hne ⊢
    rw [if_neg hne, he]

theorem fetch_items (h : q.Inv) (he : q.isEmpty = false) :
    q.items = q.fetch.1 :: q.fetch.2.items := by
  have hinv := fetch_inv h he
  have hend := getIndex_add_len_mod h
  have hle := len_le h
  have hpos : 0 < rtDataQueueLen q := by
    refine Nat.pos_of_ne_zero fun hz => ?_
    rw [(isEmpty_iff h).mpr hz] at he
    cases he
  have hbump := toNat_bump h.get h.size_le
  have hput : q.putIndex.toNat =
      ((bump q.size q.getIndex).toNat + (rtDataQueueLen q - 1)) % q.size.toNat := by
    rw [hbump, Nat.mod_add_mod, Nat.add_assoc, Nat.add_sub_cancel' hpos, hend]
  have hlen : rtDataQueueLen q.fetch.2 = rtDataQueueLen q - 1 := by
    refine len_of_indices hinv (Nat.le_trans (Nat.sub_le _ _) hle) hput fun heq => ?_
    simp only [DataQueue.fetch] at heq ⊢
    rw [if_pos heq]
    -- equal indices after less than a turn
    have hmod := Ring.add_mod_eq (k := rtDataQueueLen q - 1)
      (hbump ▸ Nat.mod_lt _ (Nat.zero_lt_of_lt h.get)) (by omega : _ ≤ q.size.toNat)
    rw [← hput, heq] at hmod
    split at hmod <;> simp <;> omega
  unfold DataQueue.items
  rw [hlen]
  conv_lhs => rw [← Nat.sub_add_cancel hpos, Ring.content_cons, Nat.mod_eq_of_lt h.get]
  change _ = q.queue q.getIndex.toNat ::
    Ring.content q.size.toNat q.queue (bump q.size q.getIndex).toNat _
  rw [hbump, Ring.content_mod]

theorem peek_items (h : q.Inv) : rtDataQueuePeek q = q.items.head? := by
  unfold rtDataQueuePeek
  cases he : q.isEmpty with
  | true =>
    have hz : q.items = [] := by
      rw [← List.length_eq_zero_iff, length_items]
      exact (isEmpty_iff h).mp he
    rw [hz]
    rfl
  | false =>
    rw [fetch_items h he]
    rfl

/-! ## Threads -/

/-- The queue with the threads in its calls. A thread on a suspended list waits; a resumed one
    is ready, and has yet to test the ring again. `pushed` and `popped` are the items the calls
    have put in and taken out. -/
structure QueueSys where
  q : DataQueue
  suspendedPush : List (Nat × DataItem)
  suspendedPop : List Nat
  resumedPush : List (Nat × DataItem)
  resumedPop : List Nat
  pushed : List DataItem
  popped : List DataItem

def QueueSys.start (q : DataQueue) : QueueSys := ⟨q, [], [], [], [], [], []⟩

/-- A push past the wait: the item goes in, and the first waiting popper is resumed. -/
def QueueSys.put (s : QueueSys) (item : DataItem) : QueueSys :=
  { s with
    q := s.q.store item
    pushed := s.pushed ++ [item]
    suspendedPop := s.suspendedPop.tail
    resumedPop := s.resumedPop ++ s.suspendedPop.take 1 }

/-- A pop past the wait: at or below the watermark the first waiting pusher is resumed. -/
def QueueSys.get (s : QueueSys) : QueueSys :=
  let r := s.q.fetch
  let s := { s with q := r.2, popped := s.popped ++ [r.1] }
  if rtDataQueueLen r.2 ≤ r.2.lwm.toNat then
    { s with
      suspendedPush := s.suspendedPush.tail
      resumedPush := s.resumedPush ++ s.suspendedPush.take 1 }
  else s

/-- A call begins, `wait` unless its timeout is 0; a resumed thread goes on; the timer of a
    waiting thread takes it off its list, with -RT_ETIMEOUT for its call. -/
inductive QueueAct where
  | push (thread : Nat) (item : DataItem) (wait : Bool)
  | pushAgain (thread : Nat) (item : DataItem)
  | pushTimeout (thread : Nat) (item : DataItem)
  | pop (thread : Nat) (wait : Bool)
  | popAgain (thread : Nat)
  | popTimeout (thread : Nat)
  deriving DecidableEq, Repr

/-- One pass of the loop of `rt_data_queue_push`, up to the suspension or to the end. -/
def QueueSys.tryPush (s : QueueSys) (thread : Nat) (item : DataItem) (wait : Bool) : QueueSys :=
  if s.q.isFull then
    if wait then { s with suspendedPush := s.suspendedPush ++ [(thread, item)] } else s
  else s.put item

/-- One pass of the loop of `rt_data_queue_pop`. -/
def QueueSys.tryPop (s : QueueSys) (thread : Nat) (wait : Bool) : QueueSys :=
  if s.q.isEmpty then
    if wait then { s with suspendedPop := s.suspendedPop ++ [thread] } else s
  else s.get

def dataQueueStep (s : QueueSys) : QueueAct → Option QueueSys
  | .push thread item wait => some (s.tryPush thread item wait)
  | .pushAgain thread item =>
    if (thread, item) ∈ s.resumedPush then
      some ({ s with resumedPush := s.resumedPush.erase (thread, item) }.tryPush thread item true)
    else none
  | .pushTimeout thread item =>
    if (thread, item) ∈ s.suspendedPush then
      some { s with suspendedPush := s.suspendedPush.erase (thread, item) }
    else none
  | .pop thread wait => some (s.tryPop thread wait)
  | .popAgain thread =>
    if thread ∈ s.resumedPop then
      some ({ s with resumedPop := s.resumedPop.erase thread }.tryPop thread true)
    else none
  | .popTimeout thread =>
    if thread ∈ s.suspendedPop then
      some { s with suspendedPop := s.suspendedPop.erase thread }
    else none

/-! ## The law of the queue -/

/-- The items in order; and the threads resumed make up for the ones that wait. -/
structure QueueSys.Inv (s : QueueSys) : Prop where
  ring : s.q.Inv
  order : s.popped ++ s.q.items = s.pushed
  poppers : s.suspendedPop ≠ [] → rtDataQueueLen s.q ≤ s.resumedPop.length
  pushers : s.suspendedPush ≠ [] → min s.q.size.toNat (s.q.lwm.toNat + 1) ≤
    rtDataQueueLen s.q + s.resumedPush.length

variable {s : QueueSys}

theorem queueInv_start (h : q.Inv) (h0 : q.items = []) : (QueueSys.start q).Inv :=
  ⟨h, h0, fun h => absurd rfl h, fun h => absurd rfl h⟩

theorem store_len (h : q.Inv) (hf : q.isFull = false) (item : DataItem) :
    rtDataQueueLen (q.store item) = rtDataQueueLen q + 1 := by
  rw [← length_items, store_items h hf, List.length_append, length_items, List.length_singleton]

theorem fetch_len (h : q.Inv) (he : q.isEmpty = false) :
    rtDataQueueLen q = rtDataQueueLen q.fetch.2 + 1 := by
  rw [← length_items, fetch_items h he, List.length_cons, length_items]

/-- A push by a thread that had been resumed, `spare` 1, or not, `spare` 0. -/
theorem put_inv (hring : s.q.Inv) (hf : s.q.isFull = false) (item : DataItem) (spare : Nat)
    (hs : spare ≤ 1) (horder : s.popped ++ s.q.items = s.pushed)
    (hpop : s.suspendedPop ≠ [] → rtDataQueueLen s.q ≤ s.resumedPop.length)
    (hpush : s.suspendedPush ≠ [] → min s.q.size.toNat (s.q.lwm.toNat + 1) ≤
      rtDataQueueLen s.q + (s.resumedPush.length + spare)) : (s.put item).Inv where
  ring := store_inv hring hf item
  order := by
    change s.popped ++ (s.q.store item).items = s.pushed ++ [item]
    rw [store_items hring hf, ← List.append_assoc, horder]
  poppers := by
    intro hne
    change rtDataQueueLen (s.q.store item) ≤ (s.resumedPop ++ s.suspendedPop.take 1).length
    rw [store_len hring hf, length_append_take_one hne]
    exact Nat.succ_le_succ (hpop (ne_nil_of_tail hne))
  pushers := by
    intro hne
    have := hpush hne
    change min s.q.size.toNat (s.q.lwm.toNat + 1) ≤
      rtDataQueueLen (s.q.store item) + s.resumedPush.length
    rw [store_len hring hf]
    omega

/-- A pop, likewise. -/
theorem get_inv (hring : s.q.Inv) (he : s.q.isEmpty = false) (spare : Nat) (hs : spare ≤ 1)
    (horder : s.popped ++ s.q.items = s.pushed)
    (hpop : s.suspendedPop ≠ [] → rtDataQueueLen s.q ≤ s.resumedPop.length + spare)
    (hpush : s.suspendedPush ≠ [] → min s.q.size.toNat (s.q.lwm.toNat + 1) ≤
      rtDataQueueLen s.q + s.resumedPush.length) : s.get.Inv := by
  have hlen := fetch_len hring he
  have horder' : (s.popped ++ [s.q.fetch.1]) ++ s.q.fetch.2.items = s.pushed := by
    rw [List.append_assoc, List.singleton_append, ← fetch_items hring he, horder]
  have hpop' : s.suspendedPop ≠ [] → rtDataQueueLen s.q.fetch.2 ≤ s.resumedPop.length :=
    fun hne => by
      have := hpop hne
      omega
  unfold QueueSys.get
  dsimp only
  split
  next hlow =>
    refine ⟨fetch_inv hring he, horder', hpop', fun hne => ?_⟩
    have := hpush (ne_nil_of_tail hne)
    change min s.q.size.toNat (s.q.lwm.toNat + 1) ≤ rtDataQueueLen s.q.fetch.2 +
      (s.resumedPush ++ s.suspendedPush.take 1).length
    rw [length_append_take_one hne]
    omega
  next hhigh =>
    refine ⟨fetch_inv hring he, horder', hpop', fun _ => ?_⟩
    change ¬ rtDataQueueLen s.q.fetch.2 ≤ s.q.lwm.toNat at hhigh
    change min s.q.size.toNat (s.q.lwm.toNat + 1) ≤ rtDataQueueLen s.q.fetch.2 +
      s.resumedPush.length
    omega

/-- A pass of the push loop, by a thread that had been resumed or not. -/
theorem tryPush_inv (spare : Nat) (hs : spare ≤ 1) (hring : s.q.Inv)
    (horder : s.popped ++ s.q.items = s.pushed)
    (hpop : s.suspendedPop ≠ [] → rtDataQueueLen s.q ≤ s.resumedPop.length)
    (hpush : s.suspendedPush ≠ [] → min s.q.size.toNat (s.q.lwm.toNat + 1) ≤
      rtDataQueueLen s.q + (s.resumedPush.length + spare))
    (thread : Nat) (item : DataItem) {wait : Bool} (hwait : wait = true ∨ spare = 0) :
    (s.tryPush thread item wait).Inv := by
  unfold QueueSys.tryPush
  split
  next hf =>
    have hfull := (isFull_iff hring).mp hf
    split
    next => exact ⟨hring, horder, hpop, fun _ => by dsimp only; rw [hfull]; omega⟩
    next hno =>
      rcases hwait with hw | h0
      · exact absurd hw hno
      · exact ⟨hring, horder, hpop, fun hne => by have := hpush hne; omega⟩
  next hf =>
    exact put_inv hring (Bool.eq_false_iff.mpr hf) item spare hs horder hpop hpush

theorem tryPop_inv (spare : Nat) (hs : spare ≤ 1) (hring : s.q.Inv)
    (horder : s.popped ++ s.q.items = s.pushed)
    (hpop : s.suspendedPop ≠ [] → rtDataQueueLen s.q ≤ s.resumedPop.length + spare)
    (hpush : s.suspendedPush ≠ [] → min s.q.size.toNat (s.q.lwm.toNat + 1) ≤
      rtDataQueueLen s.q + s.resumedPush.length)
    (thread : Nat) {wait : Bool} (hwait : wait = true ∨ spare = 0) :
    (s.tryPop thread wait).Inv := by
  unfold QueueSys.tryPop
  split
  next he =>
    have hempty := (isEmpty_iff hring).mp he
    split
    next => exact ⟨hring, horder, fun _ => by rw [hempty]; exact Nat.zero_le _, hpush⟩
    next hno =>
      rcases hwait with hw | h0
      · exact absurd hw hno
      · exact ⟨hring, horder, fun hne => by have := hpop hne; omega, hpush⟩
  next he => exact get_inv hring (Bool.eq_false_iff.mpr he) spare hs horder hpop hpush

theorem queueSys_step (s : QueueSys) (a : QueueAct) (s' : QueueSys) (h : s.Inv)
    (hstep : dataQueueStep s a = some s') : s'.Inv := by
  cases a with
  | push thread item wait =>
    cases hstep
    exact tryPush_inv 0 (Nat.zero_le 1) h.ring h.order h.poppers h.pushers thread item (.inr rfl)
  | pushAgain thread item =>
    obtain ⟨hmem, ⟨⟩⟩ := Option.ite_none_right_eq_some.mp hstep
    refine tryPush_inv (s := { s with resumedPush := s.resumedPush.erase (thread, item) }) 1
      (Nat.le_refl 1) h.ring h.order h.poppers (fun hne => ?_) thread item (.inl rfl)
    dsimp only
    rw [length_erase_add_one hmem]
    exact h.pushers hne
  | pushTimeout thread item =>
    obtain ⟨-, ⟨⟩⟩ := Option.ite_none_right_eq_some.mp hstep
    exact ⟨h.ring, h.order, h.poppers, fun hne =>
      h.pushers (ne_nil_of_erase (a := (thread, item)) hne)⟩
  | pop thread wait =>
    cases hstep
    exact tryPop_inv 0 (Nat.zero_le 1) h.ring h.order h.poppers h.pushers thread (.inr rfl)
  | popAgain thread =>
    obtain ⟨hmem, ⟨⟩⟩ := Option.ite_none_right_eq_some.mp hstep
    refine tryPop_inv (s := { s with resumedPop := s.resumedPop.erase thread }) 1
      (Nat.le_refl 1) h.ring h.order (fun hne => ?_) h.pushers thread (.inl rfl)
    dsimp only
    rw [length_erase_add_one hmem]
    exact h.poppers hne
  | popTimeout thread =>
    obtain ⟨-, ⟨⟩⟩ := Option.ite_none_right_eq_some.mp hstep
    exact ⟨h.ring, h.order, fun hne => h.poppers (ne_nil_of_erase (a := thread) hne),
      h.pushers⟩

/-- For every queue of at most 2^15 items, every number of threads and every interleaving of their
    calls, their timeouts and the passes of the resumed ones. -/
theorem data_queue_run (size lwm : BitVec 16) (queue : Nat → DataItem) (h0 : 0 < size.toNat)
    (h1 : size.toNat ≤ 2 ^ 15) {s : QueueSys}
    (h : Reach dataQueueStep Free (.start (rtDataQueueInit size lwm queue)) s) :
    s.popped ++ s.q.items = s.pushed ∧
      (s.resumedPop = [] → s.suspendedPop ≠ [] → s.q.items = []) ∧
      (s.resumedPush = [] → s.suspendedPush ≠ [] →
        s.q.lwm.toNat < s.q.items.length ∨ s.q.items.length = s.q.size.toNat) := by
  have hinv : s.Inv :=
    h.invariant QueueSys.Inv (queueInv_start (inv_init h0 h1 lwm queue) rfl)
      fun s a s' hs _ hstep => queueSys_step s a s' hs hstep
  refine ⟨hinv.order, fun hr hw => ?_, fun hr hw => ?_⟩
  · have := hinv.poppers hw
    rw [hr] at this
    exact List.length_eq_zero_iff.mp (length_items.trans (Nat.le_zero.mp this))
  · have := hinv.pushers hw
    have := len_le hinv.ring
    rw [hr] at *
    rw [length_items]
    simp only [List.length_nil] at *
    omega

/-- Two cells, watermark 0: the third push waits, and is resumed once the ring is empty. -/
theorem data_queue_run_two : ∃ s : QueueSys,
    (s.popped ++ s.q.items = s.pushed ∧
      (s.resumedPop = [] → s.suspendedPop ≠ [] → s.q.items = []) ∧
      (s.resumedPush = [] → s.suspendedPush ≠ [] →
        s.q.lwm.toNat < s.q.items.length ∨ s.q.items.length = s.q.size.toNat)) ∧
      s.pushed = [⟨1, 4⟩, ⟨2, 4⟩, ⟨3, 4⟩] ∧ s.popped = [⟨1, 4⟩, ⟨2, 4⟩] := by
  have hrun : ∃ s, exec (guarded dataQueueStep Free) (.start (rtDataQueueInit 2 0 fun _ => ⟨0, 0⟩))
      [.push 1 ⟨1, 4⟩ true, .push 1 ⟨2, 4⟩ true, .push 1 ⟨3, 4⟩ true, .pop 2 true, .pop 2 true,
        .pushAgain 1 ⟨3, 4⟩] = some s ∧
      s.pushed = [⟨1, 4⟩, ⟨2, 4⟩, ⟨3, 4⟩] ∧ s.popped = [⟨1, 4⟩, ⟨2, 4⟩] :=
    ⟨_, rfl, by decide, by decide⟩
  obtain ⟨s, hs, hpushed, hpopped⟩ := hrun
  exact ⟨s, data_queue_run 2 0 _ (by decide) (by decide) (reach_of_exec .start hs), hpushed,
    hpopped⟩

end Live2dStm32.Serial
