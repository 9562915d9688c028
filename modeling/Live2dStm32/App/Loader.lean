import Mathlib.Data.Finset.Basic
import Live2dStm32.Lib.Machine

/-
  The model file loader (applications/main.c): `PX_LoadFileToIOData` and `PX_FreeIOData`, as far
  as the file descriptors and the blocks of the pool `px_mp` go. What `open`, `fstat`,
  `MP_Malloc` and `close` do in a load is its environment; what `read` returns is not looked at.

  `noLeak_iff`: a series of load and free pairs leaks nothing exactly when in each pair the file
  cannot be opened, or `MP_Malloc` gives a block, `close` closes and the file is not empty. The
  exit taken when `MP_Malloc` fails does not close the file, and a block with `size` 0 is not
  freed.
-/

namespace Live2dStm32.App.Loader

open Live2dStm32.Lib

/-- The open descriptors, and the blocks allocated from `px_mp`. -/
structure Store where
  fds : Finset Int
  blocks : Finset (BitVec 32)
  deriving DecidableEq

/-- What the calls of one load do. `openFd` and `malloc` give a new descriptor and a new block,
    or nothing; `stSize` is `st_size` after `fstat`, which may have failed; `closed`: `close`
    releases the descriptor, which it does not when closing the file fails. -/
structure Env where
  openFd : (s : Store) → String → Option {fd : Int // fd ≠ -1 ∧ fd ∉ s.fds}
  stSize : Int
  malloc : (s : Store) → BitVec 32 → Option {a : BitVec 32 // a ≠ 0 ∧ a ∉ s.blocks}
  closed : Bool

structure PxIOData where
  buffer : BitVec 32
  size : BitVec 32
  deriving DecidableEq, Repr

def posixOpen (env : Env) (s : Store) (path : String) : Store × Int :=
  match env.openFd s path with
  | none => (s, -1)
  | some fd => ({ s with fds := insert fd.1 s.fds }, fd.1)

def posixClose (env : Env) (s : Store) (fd : Int) : Store :=
  if env.closed then { s with fds := s.fds.erase fd } else s

def mpMalloc (env : Env) (s : Store) (size : BitVec 32) : Store × BitVec 32 :=
  match env.malloc s size with
  | none => (s, 0)
  | some a => ({ s with blocks := insert a.1 s.blocks }, a.1)

def mpFree (s : Store) (buffer : BitVec 32) : Store :=
  { s with blocks := s.blocks.erase buffer }

/-- `filesize`: `st_size` in an `int`. -/
def Env.filesize (env : Env) : BitVec 32 := BitVec.ofInt 32 env.stSize

def pxLoadFileToIOData (env : Env) (s : Store) (path : String) : Store × PxIOData :=
  let (s, pf) := posixOpen env s path
  if pf = -1 then (s, ⟨0, 0⟩)
  else
    let (s, buffer) := mpMalloc env s (env.filesize + 1)
    if buffer = 0 then (s, ⟨0, 0⟩)
    else (posixClose env s pf, ⟨buffer, env.filesize⟩)

def pxFreeIOData (s : Store) (io : PxIOData) : Store × PxIOData :=
  if io.size ≠ 0 ∧ io.buffer ≠ 0 then (mpFree s io.buffer, ⟨0, 0⟩) else (s, io)

/-! ## The law -/

/-- A load, and the free of what it returned. -/
def after (s : Store) (load : Env × String) : Store :=
  let (s, io) := pxLoadFileToIOData load.1 s load.2
  (pxFreeIOData s io).1

/-- The load leaves the descriptors as they were, the pair leaves the blocks as they were. -/
def Balanced (s : Store) (load : Env × String) : Prop :=
  (pxLoadFileToIOData load.1 s load.2).1.fds = s.fds ∧ (after s load).blocks = s.blocks

/-- Every pair is balanced, and nothing is left over at the end. -/
def NoLeak (s : Store) (loads : List (Env × String)) : Prop :=
  EachStep after Balanced s loads ∧ loads.foldl after s = s

/-- The file cannot be opened, or it can be loaded, closed and freed. -/
def Releases (s : Store) (load : Env × String) : Prop :=
  load.1.openFd s load.2 = none ∨
    (∃ block, load.1.malloc (posixOpen load.1 s load.2).1 (load.1.filesize + 1) = some block) ∧
      load.1.closed = true ∧ load.1.filesize ≠ 0

/-! ## Each pair -/

/-- The three ways through a load. -/
theorem pxLoadFileToIOData_cases (env : Env) (s : Store) (path : String) :
    (env.openFd s path = none ∧ pxLoadFileToIOData env s path = (s, ⟨0, 0⟩)) ∨
    ∃ fd, env.openFd s path = some fd ∧
      let s' : Store := { s with fds := insert fd.1 s.fds }
      (posixOpen env s path).1 = s' ∧
      ((env.malloc s' (env.filesize + 1) = none ∧
          pxLoadFileToIOData env s path = (s', ⟨0, 0⟩)) ∨
        ∃ a, env.malloc s' (env.filesize + 1) = some a ∧
          pxLoadFileToIOData env s path =
            (posixClose env { s' with blocks := insert a.1 s.blocks } fd.1,
              ⟨a.1, env.filesize⟩)) := by
  cases ho : env.openFd s path with
  | none =>
    have hopen : posixOpen env s path = (s, -1) := by rw [posixOpen, ho]
    refine .inl ⟨rfl, ?_⟩
    rw [pxLoadFileToIOData, hopen]
    exact if_pos rfl
  | some fd =>
    have hopen : posixOpen env s path = ({ s with fds := insert fd.1 s.fds }, fd.1) := by
      rw [posixOpen, ho]
    refine .inr ⟨fd, rfl, congrArg Prod.fst hopen, ?_⟩
    cases hm : env.malloc { s with fds := insert fd.1 s.fds } (env.filesize + 1) with
    | none =>
      refine .inl ⟨rfl, ?_⟩
      rw [pxLoadFileToIOData, hopen]
      dsimp only
      rw [if_neg fd.2.1, mpMalloc, hm]
      exact if_pos rfl
    | some a =>
      refine .inr ⟨a, rfl, ?_⟩
      rw [pxLoadFileToIOData, hopen]
      dsimp only
      rw [if_neg fd.2.1, mpMalloc, hm]
      exact if_neg a.2.1

theorem posixClose_fds_iff (env : Env) {s : Store} {fd : Int} (hfd : fd ∉ s.fds)
    (blocks : Finset (BitVec 32)) :
    (posixClose env ⟨insert fd s.fds, blocks⟩ fd).fds = s.fds ↔ env.closed = true := by
  unfold posixClose
  split
  case isTrue hc => exact iff_of_true (Finset.erase_insert hfd) hc
  case isFalse hc => exact iff_of_false (Finset.insert_ne_self.mpr hfd) hc

@[simp] theorem posixClose_blocks (env : Env) (s : Store) (fd : Int) :
    (posixClose env s fd).blocks = s.blocks := by
  unfold posixClose
  split <;> rfl

/-- A block of `size` 0 is not freed. -/
theorem pxFreeIOData_blocks_iff {s : Store} {blocks : Finset (BitVec 32)} {io : PxIOData}
    (hbuf : io.buffer ≠ 0) (hnew : io.buffer ∉ blocks) (hs : s.blocks = insert io.buffer blocks) :
    (pxFreeIOData s io).1.blocks = blocks ↔ io.size ≠ 0 := by
  unfold pxFreeIOData
  by_cases hz : io.size = 0
  · rw [if_neg fun h => h.1 hz, hs]
    exact iff_of_false (Finset.insert_ne_self.mpr hnew) (not_not.mpr hz)
  · rw [if_pos ⟨hz, hbuf⟩]
    change s.blocks.erase io.buffer = blocks ↔ _
    rw [hs]
    exact iff_of_true (Finset.erase_insert hnew) hz

theorem balanced_iff (s : Store) (load : Env × String) : Balanced s load ↔ Releases s load := by
  obtain ⟨env, path⟩ := load
  unfold Balanced Releases after
  rcases pxLoadFileToIOData_cases env s path with ⟨ho, he⟩ | ⟨fd, ho, hs', ⟨hm, he⟩ | ⟨a, hm, he⟩⟩
  · rw [he]
    exact iff_of_true ⟨rfl, rfl⟩ (.inl ho)
  · -- the descriptor stays open
    rw [he, hs']
    refine iff_of_false (fun h => ?_) ?_
    · exact Finset.insert_ne_self.mpr fd.2.2 h.1
    · rintro (hn | ⟨⟨block, hb⟩, -⟩)
      · rw [ho] at hn
        cases hn
      · rw [hm] at hb
        cases hb
  · rw [he, hs']
    have hfds := posixClose_fds_iff env fd.2.2 (insert a.1 s.blocks)
    have hblocks := @pxFreeIOData_blocks_iff _ s.blocks ⟨a.1, env.filesize⟩ a.2.1 a.2.2
      (posixClose_blocks env ⟨insert fd.1 s.fds, insert a.1 s.blocks⟩ fd.1)
    rw [hfds, hblocks]
    constructor
    · intro ⟨hc, hz⟩
      exact .inr ⟨⟨a, hm⟩, hc, hz⟩
    · rintro (hn | ⟨-, hc, hz⟩)
      · rw [ho] at hn
        cases hn
      · exact ⟨hc, hz⟩

theorem pxFreeIOData_fds (s : Store) (io : PxIOData) : (pxFreeIOData s io).1.fds = s.fds := by
  unfold pxFreeIOData
  split <;> rfl

theorem after_of_balanced {s : Store} {load : Env × String} (h : Balanced s load) :
    after s load = s := by
  have hfds : (after s load).fds = s.fds := (pxFreeIOData_fds _ _).trans h.1
  calc after s load = ⟨(after s load).fds, (after s load).blocks⟩ := rfl
    _ = s := by rw [hfds, h.2]

/-! ## Series of loads -/

/-- For every series of load and free pairs from any state. -/
theorem noLeak_iff (s : Store) (loads : List (Env × String)) :
    NoLeak s loads ↔ EachStep after Releases s loads := by
  have heach : EachStep after Balanced s loads ↔ EachStep after Releases s loads :=
    eachStep_iff (fun _ => True) (fun s load _ => balanced_iff s load) (fun _ _ _ _ => trivial)
      trivial loads
  refine ⟨fun h => heach.mp h.1, fun h => ⟨heach.mpr h, ?_⟩⟩
  exact EachStep.foldl (fun t => t = s)
    (fun _ _ ht hb => (after_of_balanced hb).trans ht) rfl (heach.mpr h)

/-- A file of 5 bytes, and a pool with no room. -/
def noRoom : Env where
  openFd s _ := if h : (3 : Int) ∉ s.fds then some ⟨3, by decide, h⟩ else none
  stSize := 5
  malloc _ _ := none
  closed := true

theorem noLeak_fails_noRoom : ¬ ∀ (s : Store) (loads : List (Env × String)), NoLeak s loads := by
  intro h
  have hfds := (h ⟨∅, ∅⟩ [(noRoom, "/sdcard/release.live")]).1.1.1
  exact absurd hfds (by decide)

end Live2dStm32.App.Loader
