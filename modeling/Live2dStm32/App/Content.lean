import Mathlib.Algebra.Group.Nat.Defs
import Live2dStm32.App.Loader

/-
  What a load of applications/main.c puts into the block: `PX_LoadFileToIOData` again, with the
  bytes of the file. `fstat` and `read` may fail and `read` may be short; the code looks at
  neither result, while it looks at those of `open` and `MP_Malloc`.

  `loadFile_refines`: this is `pxLoadFileToIOData` of the loader. `contentOk_iff`: the result is
  the file or nothing exactly when `open` or `MP_Malloc` gives nothing, or `st_size` is the length
  of the file and `read` delivers all of it.
-/

namespace Live2dStm32.App.Loader

abbrev Byte := BitVec 8

/-- What `read` does with a request for `len` bytes of `file`: it delivers the first `count`
    of them, or fails, having stored whatever it has. -/
inductive ReadResult (file : List Byte) (len : Nat) where
  | delivered (count : Nat) (le : count ≤ len ∧ count ≤ file.length)
  | failed (stored : List Byte) (le : stored.length ≤ len)

/-- What `read` returns, as a number of bytes. -/
def ReadResult.count {file : List Byte} {len : Nat} : ReadResult file len → Nat
  | .delivered count _ => count
  | .failed _ _ => 0

/-- What `read` stores from the start of the buffer on. -/
def ReadResult.stored {file : List Byte} {len : Nat} : ReadResult file len → List Byte
  | .delivered count _ => file.take count
  | .failed stored _ => stored

/-- The environment of a load of `file`. A successful `fstat` gives its length; after a failed
    one `stSize` is what was on the stack. -/
structure FileEnv extends Env where
  file : List Byte
  lengthLt : file.length < 2 ^ 31 - 1
  fstatOk : Bool
  stSizeEq : fstatOk = true → stSize = file.length
  read : (len : Nat) → ReadResult file len

/-- The result of a load, the bytes at each offset from the block, and the offsets written. -/
structure Loaded where
  store : Store
  io : PxIOData
  mem : Int → Byte
  writes : List Int

/-- `bytes` from offset 0 on. -/
def storeBytes (mem : Int → Byte) (bytes : List Byte) (o : Int) : Byte :=
  if h : 0 ≤ o ∧ o.toNat < bytes.length then bytes[o.toNat] else mem o

/-- The block after `read` has stored its bytes and the terminator is written. -/
def blockAfter (old : Int → Byte) (stored : List Byte) (filesize : BitVec 32) : Int → Byte :=
  Function.update (storeBytes old stored) filesize.toInt 0

/-- The offsets these two write. -/
def written (stored : List Byte) (filesize : BitVec 32) : List Int :=
  (List.range stored.length).map Int.ofNat ++ [filesize.toInt]

/-- `old` is what the memory of the block holds before. -/
def loadFile (env : FileEnv) (s : Store) (path : String) (old : Int → Byte) : Loaded :=
  let (s, pf) := posixOpen env.toEnv s path
  if pf = -1 then ⟨s, ⟨0, 0⟩, old, []⟩
  else
    let (s, buffer) := mpMalloc env.toEnv s (env.filesize + 1)
    if buffer = 0 then ⟨s, ⟨0, 0⟩, old, []⟩
    else
      let stored := (env.read env.filesize.toNat).stored
      ⟨posixClose env.toEnv s pf, ⟨buffer, env.filesize⟩, blockAfter old stored env.filesize,
        written stored env.filesize⟩

/-- The same result as the loader without the bytes. -/
theorem loadFile_refines (env : FileEnv) (s : Store) (path : String) (old : Int → Byte) :
    ((loadFile env s path old).store, (loadFile env s path old).io) =
      pxLoadFileToIOData env.toEnv s path := by
  unfold loadFile pxLoadFileToIOData
  dsimp only
  split
  · rfl
  · split <;> rfl

/-! ## The law -/

/-- Nothing, or the whole file with a 0 after it, all of it read, written inside the block. -/
def ContentOk (env : FileEnv) (out : Loaded) : Prop :=
  (out.io.buffer = 0 ∧ out.io.size = 0) ∨
    (out.io.buffer ≠ 0 ∧ out.io.size.toNat = env.file.length ∧
      (env.read out.io.size.toNat).count = env.file.length ∧
      (∀ i, (h : i < env.file.length) → out.mem i = env.file[i]) ∧
      out.mem env.file.length = 0 ∧
      ∀ o ∈ out.writes, 0 ≤ o ∧ o < env.file.length + 1)

/-- `open` or `MP_Malloc` gives nothing. -/
def GivesNothing (env : FileEnv) (s : Store) (path : String) : Prop :=
  env.openFd s path = none ∨
    env.malloc (posixOpen env.toEnv s path).1 (env.filesize + 1) = none

/-- `st_size` is the length, and `read` delivers that many bytes. -/
def ReadsAll (env : FileEnv) : Prop :=
  env.filesize.toNat = env.file.length ∧ (env.read env.filesize.toNat).count = env.file.length

/-! ## Reads -/

theorem stored_of_count {file : List Byte} {len : Nat} (result : ReadResult file len)
    (hlen : len = file.length) (hcount : result.count = file.length) : result.stored = file := by
  cases result with
  | delivered count le =>
    change file.take count = file
    rw [show count = file.length from hcount, List.take_length]
  | failed stored le =>
    -- a failed read of an empty file
    have hzero : file.length = 0 := hcount.symm
    have hnil : file = [] := List.length_eq_zero_iff.mp hzero
    change stored = file
    rw [hnil, ← List.length_eq_zero_iff]
    omega

theorem storeBytes_lt (mem : Int → Byte) {bytes : List Byte} {i : Nat} (h : i < bytes.length) :
    storeBytes mem bytes i = bytes[i] := by
  unfold storeBytes
  rw [dif_pos ⟨Int.natCast_nonneg i, h⟩]
  rfl

/-! ## The three ways through a load -/

theorem loadFile_cases (env : FileEnv) (s : Store) (path : String) (old : Int → Byte) :
    (GivesNothing env s path ∧ (loadFile env s path old).io = ⟨0, 0⟩) ∨
    ¬ GivesNothing env s path ∧ ∃ a : BitVec 32, a ≠ 0 ∧
      (loadFile env s path old).io = ⟨a, env.filesize⟩ ∧
      (loadFile env s path old).mem =
        blockAfter old (env.read env.filesize.toNat).stored env.filesize ∧
      (loadFile env s path old).writes =
        written (env.read env.filesize.toNat).stored env.filesize := by
  cases ho : env.openFd s path with
  | none =>
    have hopen : posixOpen env.toEnv s path = (s, -1) := by rw [posixOpen, ho]
    refine .inl ⟨.inl ho, ?_⟩
    rw [loadFile, hopen]
    rfl
  | some fd =>
    have hopen : posixOpen env.toEnv s path = ({ s with fds := insert fd.1 s.fds }, fd.1) := by
      rw [posixOpen, ho]
    have hfd : ¬ fd.1 = -1 := fd.2.1
    cases hm : env.malloc { s with fds := insert fd.1 s.fds } (env.filesize + 1) with
    | none =>
      refine .inl ⟨.inr ?_, ?_⟩
      · rw [hopen, hm]
      · rw [loadFile, hopen]
        dsimp only
        rw [if_neg hfd, mpMalloc, hm]
        rfl
    | some a =>
      have hgives : ¬ GivesNothing env s path := by
        intro h
        obtain h | h := h
        · rw [ho] at h
          simp at h
        · rw [hopen, hm] at h
          simp at h
      refine .inr ⟨hgives, a.1, a.2.1, ?_⟩
      rw [loadFile, hopen]
      dsimp only
      rw [if_neg hfd, mpMalloc, hm]
      dsimp only
      rw [if_neg a.2.1]
      exact ⟨rfl, rfl, rfl⟩

/-- After a successful `fstat` the size is right. -/
theorem filesize_of_fstat (env : FileEnv) (h : env.fstatOk = true) :
    env.filesize.toNat = env.file.length := by
  have hlt := env.lengthLt
  rw [Env.filesize, env.stSizeEq h, BitVec.ofInt_natCast, BitVec.toNat_ofNat]
  omega

theorem filesize_toInt {env : FileEnv} (h : env.filesize.toNat = env.file.length) :
    env.filesize.toInt = env.file.length := by
  have hlt := env.lengthLt
  rw [BitVec.toInt_eq_toNat_of_lt (by omega), h]

/-- The block after a complete read. -/
theorem contentOk_of_readsAll {env : FileEnv} {out : Loaded} (hall : ReadsAll env) {a : BitVec 32}
    (ha : a ≠ 0) {old : Int → Byte} (hio : out.io = ⟨a, env.filesize⟩)
    (hmem : out.mem = blockAfter old (env.read env.filesize.toNat).stored env.filesize)
    (hwrites : out.writes = written (env.read env.filesize.toNat).stored env.filesize) :
    ContentOk env out := by
  obtain ⟨hsize, hcount⟩ := hall
  rw [stored_of_count _ hsize hcount] at hmem hwrites
  rw [blockAfter, filesize_toInt hsize] at hmem
  rw [written, filesize_toInt hsize] at hwrites
  refine .inr ⟨?_, ?_, ?_, ?_, ?_, ?_⟩
  · rw [hio]
    exact ha
  · rw [hio]
    exact hsize
  · rw [hio]
    exact hcount
  · intro i hi
    have hne : (i : Int) ≠ env.file.length := by omega
    rw [hmem, Function.update_of_ne hne]
    exact storeBytes_lt old hi
  · rw [hmem, Function.update_self]
  · intro o ho
    rw [hwrites] at ho
    simp at ho
    obtain ⟨i, hi, rfl⟩ | rfl := ho <;> omega

/-- For every file, environment, path and old content of the block. -/
theorem contentOk_iff (env : FileEnv) (s : Store) (path : String) (old : Int → Byte) :
    ContentOk env (loadFile env s path old) ↔ GivesNothing env s path ∨ ReadsAll env := by
  obtain ⟨hgives, hio⟩ | ⟨hgives, a, ha, hio, hmem, hwrites⟩ := loadFile_cases env s path old
  · refine iff_of_true (.inl ?_) (.inl hgives)
    rw [hio]
    exact ⟨rfl, rfl⟩
  · constructor
    · intro hok
      unfold ContentOk at hok
      rw [hio] at hok
      obtain ⟨hnull, -⟩ | ⟨-, hsize, hcount, -⟩ := hok
      · exact absurd hnull ha
      · exact .inr ⟨hsize, hcount⟩
    · intro hcond
      exact contentOk_of_readsAll (hcond.resolve_left hgives) ha hio hmem hwrites

/-- A file of 5 bytes of which `read` delivers 3. -/
def shortRead : FileEnv where
  openFd s _ := if h : (4 : Int) ∉ s.fds then some ⟨4, by decide, h⟩ else none
  stSize := 5
  malloc s _ :=
    if h : (0x24001000 : BitVec 32) ∉ s.blocks then some ⟨0x24001000, by decide, h⟩ else none
  closed := true
  file := [1, 2, 3, 4, 5]
  lengthLt := by decide
  fstatOk := true
  stSizeEq _ := rfl
  read len := .delivered (min 3 len)
    ⟨Nat.min_le_right _ _, Nat.le_trans (Nat.min_le_left _ _) (by decide)⟩

theorem contentOk_fails_shortRead :
    ¬ ∀ (env : FileEnv) (s : Store) (path : String) (old : Int → Byte),
      ContentOk env (loadFile env s path old) := by
  intro hall
  obtain ⟨hnull, -⟩ | ⟨-, -, hcount, -⟩ :=
    hall shortRead ⟨∅, ∅⟩ "/sdcard/release.live" (fun _ => 0)
  · exact absurd hnull (by decide)
  · exact absurd hcount (by decide)

end Live2dStm32.App.Loader
