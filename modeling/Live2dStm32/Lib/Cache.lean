import Mathlib.Logic.Function.Basic

/-
  Memory behind a cache of lines, shared by a processor, which sees it through the cache, and a
  device, which does not. The cache may fill a line and evict a line at any moment.

  A line is stale when it was cached while the device stored to it. Away from stale and dirty
  lines the cache agrees with memory (`Coherent`), whatever is filled, evicted, written or
  stored; the lemmas say what each operation does to `view`, to `mem` and to the three
  properties `Coherent`, `Clean` and `Fresh`.
-/

namespace Live2dStm32.Lib

/-- `data` is what the valid lines hold, a dirty line holds writes memory has not got.
    `stale` only records; no operation depends on it. -/
structure Cached (Addr Line Byte : Type) where
  mem : Addr → Byte
  data : Addr → Byte
  valid : Line → Bool
  dirty : Line → Bool
  stale : Line → Bool

inductive WritePolicy where
  | writeThrough
  | writeBack
  deriving DecidableEq, Repr

namespace Cached

/-! ## Operations -/

section Operations

variable {Addr Line Byte : Type} (line : Addr → Line)

/-- What the processor loads. -/
def view (c : Cached Addr Line Byte) (a : Addr) : Byte :=
  if c.valid (line a) then c.data a else c.mem a

/-- Dirty lines are written to memory, all lines are dropped. -/
def cleanInvalidate (c : Cached Addr Line Byte) : Cached Addr Line Byte :=
  { c with
    mem := fun a => if c.valid (line a) ∧ c.dirty (line a) then c.data a else c.mem a
    valid := fun _ => false
    dirty := fun _ => false
    stale := fun _ => false }

variable [DecidableEq Line]

/-- A line that is not cached is loaded from memory. -/
def fill (c : Cached Addr Line Byte) (l : Line) : Cached Addr Line Byte :=
  if c.valid l then c
  else
    { c with
      data := fun a => if line a = l then c.mem a else c.data a
      valid := Function.update c.valid l true
      dirty := Function.update c.dirty l false
      stale := Function.update c.stale l false }

/-- A line is dropped; memory gets it only if it is dirty. -/
def evict (c : Cached Addr Line Byte) (l : Line) : Cached Addr Line Byte :=
  { c with
    mem := fun a => if line a = l ∧ c.valid l ∧ c.dirty l then c.data a else c.mem a
    valid := Function.update c.valid l false
    dirty := Function.update c.dirty l false
    stale := Function.update c.stale l false }

variable [DecidableEq Addr]

/-- The processor writes, without allocating a line. -/
def write (p : WritePolicy) (c : Cached Addr Line Byte) (a : Addr) (b : Byte) :
    Cached Addr Line Byte :=
  if c.valid (line a) then
    match p with
    | .writeThrough =>
      { c with mem := Function.update c.mem a b, data := Function.update c.data a b }
    | .writeBack =>
      { c with
        data := Function.update c.data a b
        dirty := Function.update c.dirty (line a) true }
  else { c with mem := Function.update c.mem a b }

/-- The device stores to memory. -/
def store (c : Cached Addr Line Byte) (a : Addr) (b : Byte) : Cached Addr Line Byte :=
  { c with
    mem := Function.update c.mem a b
    stale := if c.valid (line a) then Function.update c.stale (line a) true else c.stale }

end Operations

/-! ## Properties -/

variable {Addr Line Byte : Type} {line : Addr → Line}

/-- Lines neither dirty nor stale agree with memory. -/
def Coherent (line : Addr → Line) (c : Cached Addr Line Byte) : Prop :=
  ∀ a, c.valid (line a) = true → c.dirty (line a) = false → c.stale (line a) = false →
    c.data a = c.mem a

def Clean (c : Cached Addr Line Byte) : Prop := ∀ l, c.dirty l = false

def Fresh (c : Cached Addr Line Byte) : Prop := ∀ l, c.stale l = false

/-- Where nothing is stale or dirty the processor sees memory. -/
theorem view_eq_mem {c : Cached Addr Line Byte} (h : Coherent line c) (hc : Clean c) {a : Addr}
    (hs : c.stale (line a) = false) : c.view line a = c.mem a := by
  unfold view
  split
  case isTrue hv => exact h a hv (hc _) hs
  case isFalse => rfl

/-! ### Cleaning and invalidating -/

/-- Memory gets what the processor saw. -/
theorem mem_cleanInvalidate {c : Cached Addr Line Byte} (h : Coherent line c) (hf : Fresh c)
    (a : Addr) : (c.cleanInvalidate line).mem a = c.view line a := by
  unfold cleanInvalidate view
  cases hv : c.valid (line a) <;> cases hd : c.dirty (line a) <;> simp [hv, hd]
  exact (h a hv hd (hf _)).symm

theorem coherent_cleanInvalidate (c : Cached Addr Line Byte) :
    Coherent line (c.cleanInvalidate line) := fun _ hv => Bool.noConfusion hv

theorem clean_cleanInvalidate (c : Cached Addr Line Byte) : Clean (c.cleanInvalidate line) :=
  fun _ => rfl

theorem fresh_cleanInvalidate (c : Cached Addr Line Byte) : Fresh (c.cleanInvalidate line) :=
  fun _ => rfl

/-! ### Filling -/

section Lines

variable [DecidableEq Line]

theorem update_false_of {α : Type} [DecidableEq α] {f : α → Bool} (h : ∀ x, f x = false) (x : α) :
    ∀ y, Function.update f x false y = false := by
  intro y
  rw [Function.update_apply]
  split
  · rfl
  · exact h y

theorem view_fill (c : Cached Addr Line Byte) (l : Line) (a : Addr) :
    (c.fill line l).view line a = c.view line a := by
  unfold fill
  split
  case isTrue => rfl
  case isFalse hv =>
    unfold view
    by_cases hl : line a = l
    · subst hl
      simp [hv]
    · simp [hl]

@[simp] theorem mem_fill (c : Cached Addr Line Byte) (l : Line) : (c.fill line l).mem = c.mem := by
  unfold fill
  split <;> rfl

theorem Coherent.fill {c : Cached Addr Line Byte} (h : Coherent line c) (l : Line) :
    Coherent line (c.fill line l) := by
  unfold Cached.fill
  split
  case isTrue => exact h
  case isFalse =>
    intro a hv hd hs
    by_cases hl : line a = l
    · simp [hl]
    · simp only [Function.update_of_ne hl] at hv hd hs
      simp only [if_neg hl]
      exact h a hv hd hs

theorem Clean.fill {c : Cached Addr Line Byte} (h : Clean c) (l : Line) :
    Clean (c.fill line l) := by
  unfold Cached.fill
  split
  · exact h
  · exact update_false_of h l

theorem Fresh.fill {c : Cached Addr Line Byte} (h : Fresh c) (l : Line) :
    Fresh (c.fill line l) := by
  unfold Cached.fill
  split
  · exact h
  · exact update_false_of h l

/-! ### Evicting -/

/-- Without stale lines an eviction cannot be seen. -/
theorem view_evict {c : Cached Addr Line Byte} (h : Coherent line c) (hf : Fresh c) (l : Line)
    (a : Addr) : (c.evict line l).view line a = c.view line a := by
  unfold view evict
  by_cases hl : line a = l
  · subst hl
    cases hv : c.valid (line a) <;> cases hd : c.dirty (line a) <;> simp
    exact (h a hv hd (hf _)).symm
  · simp [hl]

theorem mem_evict {c : Cached Addr Line Byte} (hc : Clean c) (l : Line) :
    (c.evict line l).mem = c.mem := by
  funext a
  unfold evict
  simp [hc l]

theorem Coherent.evict {c : Cached Addr Line Byte} (h : Coherent line c) (l : Line) :
    Coherent line (c.evict line l) := by
  intro a hv hd hs
  unfold Cached.evict at *
  by_cases hl : line a = l
  · simp [hl] at hv
  · simp only [Function.update_of_ne hl] at hv hd hs
    simp only [hl, false_and, if_false]
    exact h a hv hd hs

theorem Clean.evict {c : Cached Addr Line Byte} (h : Clean c) (l : Line) :
    Clean (c.evict line l) :=
  update_false_of h l

theorem Fresh.evict {c : Cached Addr Line Byte} (h : Fresh c) (l : Line) :
    Fresh (c.evict line l) :=
  update_false_of h l

end Lines

/-! ### Writing -/

section Stores

variable [DecidableEq Line] [DecidableEq Addr]

theorem view_write (p : WritePolicy) (c : Cached Addr Line Byte) (a : Addr) (b : Byte) :
    (c.write line p a b).view line = Function.update (c.view line) a b := by
  funext a'
  unfold write view
  by_cases ha : a' = a
  · subst ha
    cases hv : c.valid (line a') <;> cases p <;> simp [hv]
  · cases hv : c.valid (line a) <;> cases p <;> simp [ha]

theorem Coherent.write {c : Cached Addr Line Byte} (h : Coherent line c) (p : WritePolicy)
    (a : Addr) (b : Byte) : Coherent line (c.write line p a b) := by
  unfold Cached.write
  split
  case isFalse hv =>
    intro a' hv' hd hs
    have hne : a' ≠ a := fun he => hv (he ▸ hv')
    simp only [Function.update_of_ne hne]
    exact h a' hv' hd hs
  case isTrue =>
    cases p with
    | writeThrough =>
      intro a' hv hd hs
      by_cases ha : a' = a
      · subst ha
        simp
      · simp only [Function.update_of_ne ha]
        exact h a' hv hd hs
    | writeBack =>
      intro a' hv hd hs
      have hne : line a' ≠ line a := fun he => by simp [he] at hd
      have ha : a' ≠ a := fun he => hne (he ▸ rfl)
      simp only [Function.update_of_ne hne] at hd
      simp only [Function.update_of_ne ha]
      exact h a' hv hd hs

theorem Fresh.write {c : Cached Addr Line Byte} (h : Fresh c) (p : WritePolicy) (a : Addr)
    (b : Byte) : Fresh (c.write line p a b) := by
  unfold Cached.write
  split
  · cases p <;> exact h
  · exact h

/-! ### The device -/

theorem Coherent.store {c : Cached Addr Line Byte} (h : Coherent line c) (a : Addr) (b : Byte) :
    Coherent line (c.store line a b) := by
  unfold Cached.store
  intro a' hv hd hs
  dsimp only at hv hd hs ⊢
  by_cases hv' : c.valid (line a) = true
  · rw [if_pos hv'] at hs
    have hne : line a' ≠ line a := fun he => by simp [he] at hs
    have ha : a' ≠ a := fun he => hne (he ▸ rfl)
    rw [Function.update_of_ne hne] at hs
    rw [Function.update_of_ne ha]
    exact h a' hv hd hs
  · rw [if_neg hv'] at hs
    have ha : a' ≠ a := fun he => hv' (he ▸ hv)
    rw [Function.update_of_ne ha]
    exact h a' hv hd hs

theorem Clean.store {c : Cached Addr Line Byte} (h : Clean c) (a : Addr) (b : Byte) :
    Clean (c.store line a b) := h

end Stores

end Cached

end Live2dStm32.Lib
