import Live2dStm32.Lib.Machine
import Live2dStm32.Lib.Threaded

/-
  The memory pools of src/rt-thread/src/mempool.c. The free blocks are a list threaded through
  their own headers; the header of a block that is out holds its pool, where `rt_mp_free` finds
  it. A thread that finds no block waits, and tests again each time it is resumed.

  `mempool_run`: whatever the calls, their timeouts and the writes into the blocks, the blocks
  that are out lie apart from each other and from every header, none is lost, and no thread waits
  beside a free block unless another one was resumed for it.

  Addresses are natural numbers, since a pool lies in the address space, and memory is a word for
  each address: a word written into a block overlaps no header. A pool without room for a block is
  left out: there `rt_mp_init` writes below it. So are `rt_mp_detach` and `rt_mp_delete`.
-/

namespace Live2dStm32.Kernel

open Live2dStm32.Lib

/-! ## The code -/

/-- `RT_ALIGN` and `RT_ALIGN_DOWN`, to RT_ALIGN_SIZE 4. -/
def rtAlign (n : Nat) : Nat := (n + 3) / 4 * 4

def rtAlignDown (n : Nat) : Nat := n / 4 * 4

/-- `struct rt_mempool`, at the address `self`; the list of threads is in `PoolSys`. -/
structure Mempool where
  self : Nat
  startAddress : Nat
  size : Nat
  blockSize : Nat
  blockList : Nat
  blockTotalCount : Nat
  blockFreeCount : Nat
  deriving DecidableEq, Repr

/-- The address of a block's header. -/
def Mempool.header (mp : Mempool) (i : Nat) : Nat := mp.startAddress + i * (mp.blockSize + 4)

/-- The first `offset` rounds of the loop of `rt_mp_init`. -/
def Mempool.link (mp : Mempool) (words : Nat → Nat) : Nat → Nat → Nat
  | 0 => words
  | offset + 1 =>
    Function.update (mp.link words offset) (mp.header offset) (mp.header (offset + 1))

/-- The control block of `rt_mp_init`. -/
def rtMpInit (self start size blockSize : Nat) : Mempool :=
  ⟨self, start, rtAlignDown size, rtAlign blockSize, start,
    rtAlignDown size / (rtAlign blockSize + 4), rtAlignDown size / (rtAlign blockSize + 4)⟩

/-- The headers of `rt_mp_init`: each linked to the next, the last to nothing. -/
def Mempool.initHeaders (mp : Mempool) (words : Nat → Nat) : Nat → Nat :=
  Function.update (mp.link words mp.blockTotalCount) (mp.header (mp.blockTotalCount - 1)) 0

/-- A pool, the words in memory and the threads in its calls. A thread on the suspended list
    waits; a resumed one is ready, and has yet to test the pool again. `held` are the blocks that
    were returned and not freed. -/
structure PoolSys where
  mp : Mempool
  words : Nat → Nat
  suspended : List Nat
  resumed : List Nat
  held : List Nat

def PoolSys.start (mp : Mempool) (words : Nat → Nat) : PoolSys :=
  ⟨mp, mp.initHeaders words, [], [], []⟩

/-- `rt_mp_alloc` past the wait. -/
def PoolSys.take (s : PoolSys) : PoolSys :=
  { s with
    mp := { s.mp with
      blockFreeCount := s.mp.blockFreeCount - 1
      blockList := s.words s.mp.blockList }
    words := Function.update s.words s.mp.blockList s.mp.self
    held := (s.mp.blockList + 4) :: s.held }

/-- One pass of the loop of `rt_mp_alloc`, up to the suspension or to the end. -/
def PoolSys.rtMpAlloc (s : PoolSys) (thread : Nat) (wait : Bool) : PoolSys :=
  if s.mp.blockFreeCount = 0 then
    if wait then { s with suspended := thread :: s.suspended } else s
  else s.take

/-- `rt_mp_free`; `none` where the header gives another pool. -/
def PoolSys.rtMpFree (s : PoolSys) (block : Nat) : Option PoolSys :=
  if block = 0 then some s
  else if s.words (block - 4) = s.mp.self then
    some { s with
      mp := { s.mp with
        blockFreeCount := s.mp.blockFreeCount + 1
        blockList := block - 4 }
      words := Function.update s.words (block - 4) s.mp.blockList
      suspended := s.suspended.tail
      resumed := s.resumed ++ s.suspended.take 1
      held := s.held.erase block }
  else none

/-- A call begins, `wait` unless its time is 0; a resumed thread goes on, `wait` while it has time
    left; the timer of a waiting thread takes it off the list, and its call returns RT_NULL; a
    block is freed, or a word written into it. -/
inductive PoolAct where
  | alloc (thread : Nat) (wait : Bool)
  | allocAgain (thread : Nat) (wait : Bool)
  | timeout (thread : Nat)
  | free (block : Nat)
  | write (block offset value : Nat)
  deriving DecidableEq, Repr

/-- A thread frees blocks that are out, and writes inside them. -/
def poolStep (s : PoolSys) : PoolAct → Option PoolSys
  | .alloc thread wait => some (s.rtMpAlloc thread wait)
  | .allocAgain thread wait =>
    if thread ∈ s.resumed then
      some ({ s with resumed := s.resumed.erase thread }.rtMpAlloc thread wait)
    else none
  | .timeout thread =>
    if thread ∈ s.suspended then some { s with suspended := s.suspended.erase thread } else none
  | .free block => if block ∈ s.held then s.rtMpFree block else none
  | .write block offset value =>
    if block ∈ s.held ∧ offset + 4 ≤ s.mp.blockSize then
      some { s with words := Function.update s.words (block + offset) value }
    else none

/-! ## The blocks of a pool -/

variable {mp : Mempool} {s : PoolSys} {free : List Nat} {b b' : Nat}

/-- What `rt_mp_alloc` may return: the addresses behind the headers. -/
def Mempool.blocks (mp : Mempool) : List Nat :=
  (List.range mp.blockTotalCount).map fun i => mp.header i + 4

theorem header_add_le (mp : Mempool) {i j : Nat} (h : i < j) :
    mp.header i + (mp.blockSize + 4) ≤ mp.header j := by
  have hmul := Nat.mul_le_mul_right (mp.blockSize + 4) (Nat.succ_le_of_lt h)
  rw [Nat.succ_mul] at hmul
  unfold Mempool.header
  omega

theorem header_inj {i j : Nat} (h : mp.header i = mp.header j) : i = j := by
  rcases Nat.lt_trichotomy i j with hlt | heq | hgt
  · have := header_add_le mp hlt
    omega
  · exact heq
  · have := header_add_le mp hgt
    omega

theorem nodup_blocks : mp.blocks.Nodup :=
  List.Nodup.map (fun _ _ h => header_inj (Nat.add_right_cancel h)) List.nodup_range

theorem mem_blocks : b ∈ mp.blocks ↔ ∃ i < mp.blockTotalCount, b = mp.header i + 4 := by
  simp only [Mempool.blocks, List.mem_map, List.mem_range, eq_comm]

/-- Between two blocks there is the header of the second. -/
theorem blocks_apart (hb : b ∈ mp.blocks) (hb' : b' ∈ mp.blocks) (hne : b ≠ b') :
    b + mp.blockSize + 4 ≤ b' ∨ b' + mp.blockSize + 4 ≤ b := by
  obtain ⟨i, -, rfl⟩ := mem_blocks.mp hb
  obtain ⟨j, -, rfl⟩ := mem_blocks.mp hb'
  rcases Nat.lt_trichotomy i j with hlt | rfl | hgt
  · have := header_add_le mp hlt
    omega
  · exact absurd rfl hne
  · have := header_add_le mp hgt
    omega

theorem blocks_inside (hb : b ∈ mp.blocks) :
    mp.startAddress + 4 ≤ b ∧
      b + mp.blockSize ≤ mp.startAddress + mp.blockTotalCount * (mp.blockSize + 4) := by
  obtain ⟨i, hi, rfl⟩ := mem_blocks.mp hb
  have hend := header_add_le mp hi
  unfold Mempool.header at hend ⊢
  omega

theorem link_header {words : Nat → Nat} {n i : Nat} (h : i < n) :
    mp.link words n (mp.header i) = mp.header (i + 1) := by
  induction n with
  | zero => exact absurd h (Nat.not_lt_zero i)
  | succ n ih =>
    rw [Mempool.link]
    by_cases heq : i = n
    · rw [heq, Function.update_self]
    · rw [Function.update_of_ne fun hh => heq (header_inj hh)]
      exact ih (by omega)

/-! ## The law of the pool -/

/-- `free` are the headers on the list; they and those that are out are all there are. -/
structure PoolSys.Inv (mp : Mempool) (s : PoolSys) (free : List Nat) : Prop where
  self : s.mp.self = mp.self
  blockSize : s.mp.blockSize = mp.blockSize
  list : Threaded 0 s.words s.mp.blockList free
  count : s.mp.blockFreeCount = free.length
  perm : (free.map (· + 4) ++ s.held).Perm mp.blocks
  owned : ∀ b ∈ s.held, s.words (b - 4) = mp.self
  waiters : s.suspended ≠ [] → s.mp.blockFreeCount ≤ s.resumed.length

theorem PoolSys.Inv.nodup (h : s.Inv mp free) : (free.map (· + 4) ++ s.held).Nodup :=
  h.perm.nodup_iff.mpr nodup_blocks

theorem PoolSys.Inv.held_mem (h : s.Inv mp free) (hb : b ∈ s.held) : b ∈ mp.blocks :=
  h.perm.mem_iff.mp (List.mem_append_right _ hb)

theorem PoolSys.Inv.free_mem (h : s.Inv mp free) {c : Nat} (hc : c ∈ free) :
    c + 4 ∈ mp.blocks :=
  h.perm.mem_iff.mp (List.mem_append_left _ (List.mem_map_of_mem hc))

theorem PoolSys.Inv.free_nodup (h : s.Inv mp free) : free.Nodup :=
  List.Nodup.of_map _ (List.nodup_append.mp h.nodup).1

/-- A free block is not out. -/
theorem PoolSys.Inv.ne (h : s.Inv mp free) {c : Nat} (hc : c ∈ free) (hb : b ∈ s.held) :
    b - 4 ≠ c := by
  have hdisj := (List.nodup_append.mp h.nodup).2.2 (c + 4) (List.mem_map_of_mem hc) b hb
  obtain ⟨i, -, hi⟩ := mem_blocks.mp (h.held_mem hb)
  omega

theorem inv_start (hstart : 0 < mp.startAddress) (hlist : mp.blockList = mp.startAddress)
    (htotal : 0 < mp.blockTotalCount) (hfree : mp.blockFreeCount = mp.blockTotalCount)
    (words : Nat → Nat) :
    (PoolSys.start mp words).Inv mp ((List.range mp.blockTotalCount).map mp.header) := by
  have hcount : mp.blockTotalCount - 1 + 1 = mp.blockTotalCount := by omega
  have hzero : mp.blockList = mp.header 0 := by
    rw [hlist, Mempool.header, Nat.zero_mul, Nat.add_zero]
  have hnext : ∀ i < mp.blockTotalCount - 1,
      mp.initHeaders words (mp.header i) = mp.header (i + 1) := fun i hi => by
    unfold Mempool.initHeaders
    rw [Function.update_of_ne fun hh => Nat.ne_of_lt hi (header_inj hh), link_header (by omega)]
  have hlast : mp.initHeaders words (mp.header (mp.blockTotalCount - 1)) = 0 := by
    rw [Mempool.initHeaders, Function.update_self]
  have hrow := threaded_row (fun i => by unfold Mempool.header; omega) hnext hlast
  rw [hcount, ← hzero] at hrow
  refine ⟨rfl, rfl, hrow, by simpa [PoolSys.start] using hfree, ?_, ?_, ?_⟩
  · rw [List.map_map]
    simp [PoolSys.start, Mempool.blocks, Function.comp_def]
  · exact fun b hb => absurd hb List.not_mem_nil
  · exact fun hne => absurd rfl hne

/-- An allocation, by a thread that had been resumed, `spare` 1, or not, `spare` 0. -/
theorem alloc_inv {spare : Nat} (thread : Nat) (wait : Bool) (hs : spare ≤ 1)
    (h : PoolSys.Inv mp { s with suspended := [] } free)
    (hwait : s.suspended ≠ [] → s.mp.blockFreeCount ≤ s.resumed.length + spare) :
    ∃ free', (s.rtMpAlloc thread wait).Inv mp free' := by
  unfold PoolSys.rtMpAlloc
  by_cases hzero : s.mp.blockFreeCount = 0
  · rw [if_pos hzero]
    have hle : s.mp.blockFreeCount ≤ s.resumed.length := hzero ▸ Nat.zero_le _
    refine ⟨free, ?_⟩
    split
    · exact ⟨h.self, h.blockSize, h.list, h.count, h.perm, h.owned, fun _ => hle⟩
    · exact ⟨h.self, h.blockSize, h.list, h.count, h.perm, h.owned, fun _ => hle⟩
  rw [if_neg hzero]
  have hcount : s.mp.blockFreeCount = free.length := h.count
  have hne : free ≠ [] := by
    rintro rfl
    exact hzero hcount
  obtain ⟨rest, rfl, hrest⟩ := Threaded.pop h.list hne h.free_nodup s.mp.self
  refine ⟨rest, h.self, h.blockSize, hrest, ?_, ?_, ?_, fun hw => ?_⟩
  · rw [List.length_cons] at hcount
    exact (congrArg (· - 1) hcount).trans (Nat.add_sub_cancel ..)
  · exact List.perm_middle.trans h.perm
  · intro b hb
    change Function.update s.words s.mp.blockList s.mp.self (b - 4) = mp.self
    obtain rfl | hb := List.mem_cons.mp hb
    · rw [Nat.add_sub_cancel, Function.update_self]
      exact h.self
    · rw [Function.update_of_ne (h.ne List.mem_cons_self hb)]
      exact h.owned b hb
  · have := hwait hw
    change s.mp.blockFreeCount - 1 ≤ s.resumed.length
    omega

theorem free_inv (hstart : 0 < mp.startAddress) (h : s.Inv mp free) (hb : b ∈ s.held)
    {s' : PoolSys} (hstep : s.rtMpFree b = some s') : ∃ free', s'.Inv mp free' := by
  obtain ⟨i, -, rfl⟩ := mem_blocks.mp (h.held_mem hb)
  have hpos : 0 < mp.header i := by
    unfold Mempool.header
    omega
  have hnot : mp.header i ∉ free := fun hmem => h.ne hmem hb (Nat.add_sub_cancel ..)
  have hnodup : s.held.Nodup := (List.nodup_append.mp h.nodup).2.1
  unfold PoolSys.rtMpFree at hstep
  rw [if_neg (Nat.succ_ne_zero _), Nat.add_sub_cancel] at hstep
  obtain ⟨-, ⟨⟩⟩ := Option.ite_none_right_eq_some.mp hstep
  refine ⟨mp.header i :: free, h.self, h.blockSize, h.list.push (Nat.ne_of_gt hpos) hnot,
    congrArg (· + 1) h.count, ?_, ?_, fun hw => ?_⟩
  · exact List.perm_middle.symm.trans (((List.perm_cons_erase hb).symm.append_left _).trans h.perm)
  · intro b hmem
    obtain ⟨hne, hmem⟩ := hnodup.mem_erase_iff.mp hmem
    obtain ⟨j, -, rfl⟩ := mem_blocks.mp (h.held_mem hmem)
    have howned := h.owned _ hmem
    rw [Nat.add_sub_cancel] at howned ⊢
    refine (Function.update_of_ne (fun heq => hne ?_) ..).trans howned
    rw [heq]
  · change s.mp.blockFreeCount + 1 ≤ (s.resumed ++ s.suspended.take 1).length
    rw [length_append_take_one hw]
    exact Nat.succ_le_succ (h.waiters (ne_nil_of_tail hw))

/-- A word inside a block is no header. -/
theorem write_inv (h : s.Inv mp free) (hb : b ∈ s.held) {offset : Nat}
    (hin : offset + 4 ≤ s.mp.blockSize) (v : Nat) :
    PoolSys.Inv mp { s with words := Function.update s.words (b + offset) v } free := by
  rw [h.blockSize] at hin
  have hout : ∀ b' ∈ mp.blocks, b' - 4 ≠ b + offset := by
    intro b' hb' heq
    obtain ⟨j, -, hj⟩ := mem_blocks.mp hb'
    by_cases hsame : b = b'
    · omega
    · have := blocks_apart (h.held_mem hb) hb' hsame
      omega
  have hfree : b + offset ∉ free := fun hmem =>
    hout _ (h.free_mem hmem) (Nat.add_sub_cancel ..)
  refine ⟨h.self, h.blockSize, h.list.update hfree v, h.count, h.perm, fun b' hb' => ?_,
    h.waiters⟩
  exact (Function.update_of_ne (hout b' (h.held_mem hb')) ..).trans (h.owned b' hb')

theorem inv_poolStep (hstart : 0 < mp.startAddress) (s : PoolSys) (a : PoolAct) (s' : PoolSys)
    (h : ∃ free, s.Inv mp free) (hstep : poolStep s a = some s') :
    ∃ free, s'.Inv mp free := by
  obtain ⟨free, h⟩ := h
  have hquiet : PoolSys.Inv mp { s with suspended := [] } free :=
    ⟨h.self, h.blockSize, h.list, h.count, h.perm, h.owned, fun hne => absurd rfl hne⟩
  cases a with
  | alloc thread wait =>
    cases hstep
    exact alloc_inv thread wait (Nat.zero_le 1) hquiet h.waiters
  | allocAgain thread wait =>
    obtain ⟨hmem, ⟨⟩⟩ := Option.ite_none_right_eq_some.mp hstep
    refine alloc_inv (s := { s with resumed := s.resumed.erase thread }) thread wait
      (Nat.le_refl 1) ⟨h.self, h.blockSize, h.list, h.count, h.perm, h.owned,
        fun hne => absurd rfl hne⟩ fun hw => ?_
    dsimp only
    rw [length_erase_add_one hmem]
    exact h.waiters hw
  | timeout thread =>
    obtain ⟨-, ⟨⟩⟩ := Option.ite_none_right_eq_some.mp hstep
    exact ⟨free, h.self, h.blockSize, h.list, h.count, h.perm, h.owned, fun hw =>
      h.waiters (ne_nil_of_erase (a := thread) hw)⟩
  | free block =>
    obtain ⟨hmem, hfree⟩ := Option.ite_none_right_eq_some.mp hstep
    exact free_inv hstart h hmem hfree
  | write block offset value =>
    obtain ⟨⟨hmem, hin⟩, ⟨⟩⟩ := Option.ite_none_right_eq_some.mp hstep
    exact ⟨free, write_inv h hmem hin value⟩

/-- For every pool with room for a block, and every interleaving of calls, timeouts and writes. -/
theorem mempool_run {self start size blockSize : Nat} (hstart : 0 < start)
    (hroom : rtAlign blockSize + 4 ≤ rtAlignDown size) (words : Nat → Nat) {s : PoolSys}
    (h : Reach poolStep Free (.start (rtMpInit self start size blockSize) words) s) :
    (∀ b ∈ s.held, start + 4 ≤ b ∧ b + blockSize ≤ start + size) ∧
      s.held.Pairwise (fun b b' => b + blockSize + 4 ≤ b' ∨ b' + blockSize + 4 ≤ b) ∧
      (∀ b ∈ s.held, (s.rtMpFree b).isSome) ∧
      s.mp.blockFreeCount + s.held.length = rtAlignDown size / (rtAlign blockSize + 4) ∧
      (s.mp.blockFreeCount ≠ 0 → s.mp.blockList ≠ 0) ∧
      (s.resumed = [] → s.suspended ≠ [] → s.mp.blockFreeCount = 0) := by
  have htotal : 0 < rtAlignDown size / (rtAlign blockSize + 4) :=
    Nat.div_pos hroom (Nat.succ_pos _)
  obtain ⟨free, hinv⟩ := h.invariant
    (fun s => ∃ free, s.Inv (rtMpInit self start size blockSize) free)
    ⟨_, inv_start hstart rfl htotal rfl words⟩
    fun s a s' hs _ hstep => inv_poolStep hstart s a s' hs hstep
  have halign : blockSize ≤ rtAlign blockSize := by
    unfold rtAlign
    omega
  refine ⟨fun b hb => ?_, ?_, fun b hb => ?_, ?_, fun hne => ?_, fun hr hw => ?_⟩
  · obtain ⟨hlow, hhigh⟩ := blocks_inside (hinv.held_mem hb)
    have hdown : rtAlignDown size ≤ size := Nat.div_mul_le_self size 4
    change start + 4 ≤ b at hlow
    have hmul := Nat.div_mul_le_self (rtAlignDown size) (rtAlign blockSize + 4)
    change b + rtAlign blockSize ≤
      start + rtAlignDown size / (rtAlign blockSize + 4) * (rtAlign blockSize + 4) at hhigh
    omega
  · refine (List.nodup_append.mp hinv.nodup).2.1.imp_of_mem fun {b b'} hb hb' hne => ?_
    have hapart := blocks_apart (hinv.held_mem hb) (hinv.held_mem hb') hne
    change b + rtAlign blockSize + 4 ≤ b' ∨ b' + rtAlign blockSize + 4 ≤ b at hapart
    omega
  · unfold PoolSys.rtMpFree
    rw [if_pos ((hinv.owned b hb).trans hinv.self.symm)]
    split <;> rfl
  · have hlen := hinv.perm.length_eq
    rw [List.length_append, List.length_map, ← hinv.count, Mempool.blocks, List.length_map,
      List.length_range] at hlen
    exact hlen
  · have hfree : free ≠ [] := by
      rintro rfl
      exact hne hinv.count
    exact hinv.list.ne_null hfree
  · have := hinv.waiters hw
    rw [hr] at this
    exact Nat.le_zero.mp this

/-- Two blocks of five bytes: the third call waits, and gets the first block when it is freed. -/
theorem mempool_run_two : ∃ s : PoolSys, s.held = [1004, 1016] ∧
    (∀ b ∈ s.held, 1000 + 4 ≤ b ∧ b + 5 ≤ 1000 + 26) ∧
      s.held.Pairwise (fun b b' => b + 5 + 4 ≤ b' ∨ b' + 5 + 4 ≤ b) := by
  have hrun : ∃ s, exec (guarded poolStep Free) (.start (rtMpInit 64 1000 26 5) fun _ => 0)
      [.alloc 1 true, .alloc 1 true, .alloc 2 true, .write 1004 4 7, .free 1004,
        .allocAgain 2 true] = some s ∧ s.held = [1004, 1016] := ⟨_, rfl, by decide⟩
  obtain ⟨s, hs, hheld⟩ := hrun
  obtain ⟨hin, hapart, -⟩ :=
    mempool_run (by decide) (by decide) (fun _ => 0) (reach_of_exec .start hs)
  exact ⟨s, hheld, hin, hapart⟩

end Live2dStm32.Kernel
