import Live2dStm32.Lib.Memory

/-
  The memory functions of src/rt-thread/src/kservice.c, on the byte memory of `Lib.Memory`.
  `rt_memcpy` and `rt_memset` move whole words where the addresses are aligned and the block is
  long enough. `memcpy_words`: this path does what the byte loop alone would do, at every overlap
  of the two blocks; which is to copy the block unless it starts inside the destination's past,
  and then to repeat its first `dst - src` bytes. `memmove_moves`: `rt_memmove` always copies the
  block as it was. `memset_fills`: `rt_memset` sets each byte of the block and no other.
-/

namespace Live2dStm32.Kernel

open Lib Memory

/-! ## The functions -/

/-- The byte loop of `rt_memcpy` and of `rt_memmove`, `len` bytes to go. -/
def copyBytes : Nat → Nat → Nat → Memory → Memory
  | 0, _, _, m => m
  | len + 1, dst, src, m => copyBytes len (dst + 1) (src + 1) (Function.update m dst (m src))

/-- The loop of `rt_memmove` from the ends downwards. -/
def copyBack : Nat → Nat → Nat → Memory → Memory
  | 0, _, _, m => m
  | n + 1, tmp, s, m => copyBack n (tmp - 1) (s - 1) (Function.update m (tmp - 1) (m (s - 1)))

def rtMemmove (m : Memory) (dest src n : Nat) : Memory :=
  if src < dest ∧ dest < src + n then copyBack n (dest + n) (src + n) m
  else copyBytes n dest src m

/-- The pointers of `rt_memcpy`, what is left to copy, and the memory. -/
structure Copy where
  dst : Nat
  src : Nat
  len : Nat
  ram : Memory

namespace Copy

/-- `*aligned_dst++ = *aligned_src++;` -/
def word (c : Copy) : Copy :=
  { c with dst := c.dst + 4, src := c.src + 4, ram := c.ram.setWord c.dst (c.ram.word c.src) }

/-- Four words at a time. -/
def bigBlocks (c : Copy) : Copy :=
  if 16 ≤ c.len then bigBlocks { c.word.word.word.word with len := c.len - 16 } else c
termination_by c.len

/-- One word at a time. -/
def littleBlocks (c : Copy) : Copy :=
  if 4 ≤ c.len then littleBlocks { c.word with len := c.len - 4 } else c
termination_by c.len

/-- The byte loop over what is left. -/
def bytes (c : Copy) : Memory := copyBytes c.len c.dst c.src c.ram

end Copy

def rtMemcpy (m : Memory) (dst src count : Nat) : Memory :=
  let c : Copy := ⟨dst, src, count, m⟩
  if 16 ≤ count ∧ (src &&& 3) ||| (dst &&& 3) = 0 then c.bigBlocks.littleBlocks.bytes else c.bytes

/-- `while (count--) *m++ = (char)d;` -/
def fillBytes : Nat → Nat → BitVec 8 → Memory → Memory
  | 0, _, _, m => m
  | count + 1, s, d, m => fillBytes count (s + 1) d (Function.update m s d)

/-- The pointer of `rt_memset`, what is left to fill, and the memory. -/
structure Fill where
  addr : Nat
  count : Nat
  ram : Memory

namespace Fill

/-- `*aligned_addr++ = buffer;` -/
def word (buffer : BitVec 32) (f : Fill) : Fill :=
  { f with addr := f.addr + 4, ram := f.ram.setWord f.addr buffer }

def bigBlocks (buffer : BitVec 32) (f : Fill) : Fill :=
  if 16 ≤ f.count then
    bigBlocks buffer { (((f.word buffer).word buffer).word buffer).word buffer with
      count := f.count - 16 }
  else f
termination_by f.count

def littleBlocks (buffer : BitVec 32) (f : Fill) : Fill :=
  if 4 ≤ f.count then littleBlocks buffer { f.word buffer with count := f.count - 4 } else f
termination_by f.count

def bytes (d : BitVec 8) (f : Fill) : Memory := fillBytes f.count f.addr d f.ram

end Fill

def rtMemset (m : Memory) (s : Nat) (c : BitVec 32) (count : Nat) : Memory :=
  let d := c &&& 0xff
  let f : Fill := ⟨s, count, m⟩
  if 4 ≤ count ∧ s &&& 3 = 0 then
    let buffer := d <<< 8 ||| d
    let buffer := buffer ||| buffer <<< 16
    ((f.bigBlocks buffer).littleBlocks buffer).bytes (d.setWidth 8)
  else f.bytes (d.setWidth 8)

/-! ## The byte loops -/

variable {dst src n : Nat}

theorem copyBytes_add (n k dst src : Nat) (m : Memory) :
    copyBytes (n + k) dst src m = copyBytes k (dst + n) (src + n) (copyBytes n dst src m) := by
  induction n generalizing dst src m with
  | zero => simp [copyBytes]
  | succ n ih =>
    rw [Nat.succ_add, copyBytes, copyBytes, ih, Nat.add_right_comm, Nat.add_right_comm src,
      Nat.add_assoc dst, Nat.add_assoc src]

theorem copyBytes_succ (n dst src : Nat) (m : Memory) :
    copyBytes (n + 1) dst src m =
      Function.update (copyBytes n dst src m) (dst + n) (copyBytes n dst src m (src + n)) :=
  copyBytes_add n 1 dst src m

theorem copyBytes_outside (m : Memory) {x : Nat} (h : x < dst ∨ dst + n ≤ x) :
    copyBytes n dst src m x = m x := by
  induction n with
  | zero => rfl
  | succ n ih =>
    rw [copyBytes_succ, Function.update_of_ne (by omega), ih (by omega)]

/-- The loop copies the block where it never writes what it has still to read. -/
theorem copyBytes_eq_store (m : Memory) (h : dst ≤ src ∨ src + n ≤ dst) :
    copyBytes n dst src m = m.store dst (m.load src n) := by
  induction n generalizing dst src m with
  | zero => exact (store_nil m dst).symm
  | succ n ih =>
    have hload : load (Function.update m dst (m src)) (src + 1) n = m.load (src + 1) n :=
      load_congr fun i hi => Function.update_of_ne (by omega) ..
    rw [copyBytes, ih _ (by omega), hload, update_eq_store, Nat.add_comm n 1, load_add,
      show m.load src 1 = [m src] from rfl, store_append]
    rfl

/-- And where it does, it repeats the first bytes. -/
theorem copyBytes_repeats (m : Memory) (h : src < dst) {i : Nat} (hi : i < n) :
    copyBytes n dst src m (dst + i) = m (src + i % (dst - src)) := by
  induction n generalizing i with
  | zero => omega
  | succ n ih =>
    rw [copyBytes_succ]
    by_cases hin : i < n
    · rw [Function.update_of_ne (by omega), ih hin]
    obtain rfl : i = n := by omega
    rw [Function.update_self]
    by_cases hlt : src + i < dst
    · rw [copyBytes_outside m (.inl hlt), Nat.mod_eq_of_lt (by omega)]
    · have hback : src + i = dst + (i - (dst - src)) := by omega
      rw [hback, ih (by omega), ← Nat.mod_eq_sub_mod (by omega)]

theorem copyBack_eq_store (m : Memory) (h : src ≤ dst) :
    copyBack n (dst + n) (src + n) m = m.store dst (m.load src n) := by
  induction n generalizing m with
  | zero => exact (store_nil m dst).symm
  | succ n ih =>
    have hload : load (Function.update m (dst + n) (m (src + n))) src n = m.load src n :=
      load_congr fun i hi => Function.update_of_ne (by omega) ..
    have hend : m.load src (n + 1) = m.load src n ++ [m (src + n)] := load_add m src n 1
    rw [copyBack, ← Nat.add_assoc, ← Nat.add_assoc, Nat.add_sub_cancel, Nat.add_sub_cancel, ih,
      hload, hend, store_append, length_load, ← update_eq_store]
    funext x
    by_cases hx : x = dst + n
    · rw [hx, Function.update_self, store_of_ge (by simp), Function.update_self]
    · rw [Function.update_of_ne hx]
      unfold store
      rw [Function.update_of_ne hx]

/-! ## Whole words -/

/-- Both pointers at a word. -/
def Copy.Aligned (c : Copy) : Prop := c.src % 4 = 0 ∧ c.dst % 4 = 0

theorem Copy.Aligned.word {c : Copy} (h : c.Aligned) : c.word.Aligned :=
  ⟨(Nat.add_mod_right ..).trans h.1, (Nat.add_mod_right ..).trans h.2⟩

/-- A word is what the byte loop does next. -/
theorem Copy.bytes_word {c : Copy} (h : c.Aligned) (n : Nat) :
    copyBytes (n + 4) c.dst c.src c.ram = copyBytes n c.word.dst c.word.src c.word.ram := by
  obtain ⟨hsrc, hdst⟩ := h
  rw [Nat.add_comm n 4, copyBytes_add, copyBytes_eq_store c.ram (by omega),
    ← setWord_word]
  rfl

theorem Copy.bigBlocks_bytes (c : Copy) (h : c.Aligned) :
    c.bigBlocks.Aligned ∧ c.bigBlocks.bytes = c.bytes := by
  fun_induction bigBlocks c with
  | case1 c hlen ih =>
    obtain ⟨haligned, hbytes⟩ := ih h.word.word.word.word
    refine ⟨haligned, hbytes.trans ?_⟩
    obtain ⟨n, hn⟩ := Nat.exists_eq_add_of_le' hlen
    unfold bytes
    rw [hn, show n + 16 = n + 4 + 4 + 4 + 4 from rfl, bytes_word h, bytes_word h.word,
      bytes_word h.word.word, bytes_word h.word.word.word]
    simp
  | case2 c hlen => exact ⟨h, rfl⟩

theorem Copy.littleBlocks_bytes (c : Copy) (h : c.Aligned) : c.littleBlocks.bytes = c.bytes := by
  fun_induction littleBlocks c with
  | case1 c hlen ih =>
    refine (ih h.word).trans ?_
    obtain ⟨n, hn⟩ := Nat.exists_eq_add_of_le' hlen
    unfold bytes
    rw [hn, bytes_word h]
    simp
  | case2 c hlen => rfl

theorem aligned_of_or {a b : Nat} (h : (a &&& 3) ||| (b &&& 3) = 0) : a % 4 = 0 ∧ b % 4 = 0 := by
  rw [Nat.or_eq_zero_iff, show (3 : Nat) = 2 ^ 2 - 1 from rfl,
    Nat.and_two_pow_sub_one_eq_mod, Nat.and_two_pow_sub_one_eq_mod] at h
  exact h

/-- For every memory, count, alignment and overlap, the path by words is the byte loop. It copies
    the block unless `src < dst < src + count`; then it repeats the bytes before `dst`. -/
theorem memcpy_words (m : Memory) (dst src count : Nat) :
    rtMemcpy m dst src count = copyBytes count dst src m ∧
      (dst ≤ src ∨ src + count ≤ dst → rtMemcpy m dst src count = m.store dst (m.load src count)) ∧
      (src < dst → ∀ i, i < count →
        rtMemcpy m dst src count (dst + i) = m (src + i % (dst - src))) ∧
      ∀ x, x < dst ∨ dst + count ≤ x → rtMemcpy m dst src count x = m x := by
  have hloop : rtMemcpy m dst src count = copyBytes count dst src m := by
    unfold rtMemcpy
    dsimp only
    split
    next h =>
      obtain ⟨haligned, hbytes⟩ := Copy.bigBlocks_bytes ⟨dst, src, count, m⟩ (aligned_of_or h.2)
      exact (Copy.littleBlocks_bytes _ haligned).trans hbytes
    · rfl
  rw [hloop]
  exact ⟨rfl, copyBytes_eq_store m, fun h i => copyBytes_repeats m h,
    fun x => copyBytes_outside m⟩

/-- Whatever the overlap, the destination gets the block as it was before the call. -/
theorem memmove_moves (m : Memory) (dest src n : Nat) :
    rtMemmove m dest src n = m.store dest (m.load src n) := by
  unfold rtMemmove
  split
  next h => exact copyBack_eq_store m (Nat.le_of_lt h.1)
  next h => exact copyBytes_eq_store m (by omega)

/-! ## Filling -/

theorem fillBytes_eq_store (n s : Nat) (d : BitVec 8) (m : Memory) :
    fillBytes n s d m = m.store s (List.replicate n d) := by
  induction n generalizing s m with
  | zero => exact (store_nil m s).symm
  | succ n ih =>
    rw [fillBytes, ih, update_eq_store, Nat.add_comm n 1, ← List.replicate_append_replicate,
      store_append]
    rfl

/-- The word of `rt_memset`, with `d` in each byte. -/
def spread (d : BitVec 32) : BitVec 32 :=
  let buffer := d <<< 8 ||| d
  buffer ||| buffer <<< 16

theorem spread_eq {d : BitVec 32} (h : d.toNat < 2 ^ 8) :
    spread d = word (fun _ => d.setWidth 8) 0 := by
  have hlt : d.toNat * 2 ^ 8 + d.toNat < 2 ^ 16 := by omega
  have hshift : d.toNat * 2 ^ 8 < 2 ^ 32 :=
    Nat.lt_trans (Nat.lt_of_le_of_lt (Nat.le_add_right ..) hlt) (by decide)
  have hword : (d.toNat * 2 ^ 8 + d.toNat) * 2 ^ 16 < 2 ^ 32 :=
    Nat.mul_lt_mul_of_pos_right hlt (by decide)
  have hlow : (d <<< 8 ||| d).toNat = d.toNat * 2 ^ 8 + d.toNat := by
    rw [BitVec.toNat_or, BitVec.toNat_shiftLeft, Nat.shiftLeft_eq, Nat.mod_eq_of_lt hshift,
      ← Nat.shiftLeft_eq, ← Nat.shiftLeft_add_eq_or_of_lt h, Nat.shiftLeft_eq]
  apply BitVec.eq_of_toNat_eq
  unfold spread
  rw [BitVec.or_comm, BitVec.toNat_or, BitVec.toNat_shiftLeft, hlow, Nat.shiftLeft_eq,
    Nat.mod_eq_of_lt hword, ← Nat.shiftLeft_eq, ← Nat.shiftLeft_add_eq_or_of_lt hlt,
    Nat.shiftLeft_eq, toNat_word, BitVec.toNat_setWidth, Nat.mod_eq_of_lt h]
  omega

theorem setWord_spread {d : BitVec 32} (h : d.toNat < 2 ^ 8) (m : Memory) (a : Nat) :
    m.setWord a (spread d) = m.store a (List.replicate 4 (d.setWidth 8)) := by
  rw [spread_eq h, setWord_word]
  rfl

/-- A word is what the byte loop does next. -/
theorem Fill.bytes_word {d : BitVec 32} (h : d.toNat < 2 ^ 8) (f : Fill) (n : Nat) :
    fillBytes (n + 4) f.addr (d.setWidth 8) f.ram =
      fillBytes n (f.word (spread d)).addr (d.setWidth 8) (f.word (spread d)).ram := by
  rw [fillBytes_eq_store, fillBytes_eq_store, Nat.add_comm n 4,
    ← List.replicate_append_replicate, store_append, ← setWord_spread h]
  rfl

theorem Fill.bigBlocks_bytes {d : BitVec 32} (h : d.toNat < 2 ^ 8) (f : Fill) :
    (f.bigBlocks (spread d)).bytes (d.setWidth 8) = f.bytes (d.setWidth 8) := by
  fun_induction bigBlocks (spread d) f with
  | case1 f hcount ih =>
    refine ih.trans ?_
    obtain ⟨n, hn⟩ := Nat.exists_eq_add_of_le' hcount
    unfold bytes
    rw [hn, show n + 16 = n + 4 + 4 + 4 + 4 from rfl, bytes_word h, bytes_word h, bytes_word h,
      bytes_word h]
    simp
  | case2 f hcount => rfl

theorem Fill.littleBlocks_bytes {d : BitVec 32} (h : d.toNat < 2 ^ 8) (f : Fill) :
    (f.littleBlocks (spread d)).bytes (d.setWidth 8) = f.bytes (d.setWidth 8) := by
  fun_induction littleBlocks (spread d) f with
  | case1 f hcount ih =>
    refine ih.trans ?_
    obtain ⟨n, hn⟩ := Nat.exists_eq_add_of_le' hcount
    unfold bytes
    rw [hn, bytes_word h]
    simp
  | case2 f hcount => rfl

/-- Every byte of the block gets the low byte of `c`. -/
theorem memset_fills (m : Memory) (s : Nat) (c : BitVec 32) (count : Nat) :
    rtMemset m s c count = m.store s (List.replicate count (c.setWidth 8)) := by
  have hlow : (c &&& 0xff).toNat < 2 ^ 8 := by
    rw [BitVec.toNat_and]
    exact Nat.lt_of_le_of_lt Nat.and_le_right (by decide)
  have hbyte : (c &&& 0xff).setWidth 8 = c.setWidth 8 := by
    rw [BitVec.setWidth_and]
    exact BitVec.and_allOnes
  rw [← hbyte, ← fillBytes_eq_store]
  unfold rtMemset
  dsimp only
  split
  · exact (Fill.littleBlocks_bytes hlow _).trans (Fill.bigBlocks_bytes hlow _)
  · rfl

end Live2dStm32.Kernel
