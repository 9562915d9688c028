import Mathlib.Data.List.Nodup
import Mathlib.Logic.Function.Basic

/-
  Lists threaded through the cells they are made of: a cell holds the next one, and the last
  holds `null`. `Threaded null next a cells`: the list that begins at `a` is `cells`.
-/

namespace Live2dStm32.Lib

variable {α : Type} {null : α} {next : α → α} {a c : α} {cells : List α}

def Threaded (null : α) (next : α → α) : α → List α → Prop
  | a, [] => a = null
  | a, c :: cells => a = c ∧ c ≠ null ∧ Threaded null next (next c) cells

theorem Threaded.ne_null (h : Threaded null next a cells) (hne : cells ≠ []) : a ≠ null := by
  cases cells with
  | nil => exact absurd rfl hne
  | cons c rest => exact h.1 ▸ h.2.1

/-- Only the cells in the list matter. -/
theorem Threaded.congr {next' : α → α} (h : Threaded null next a cells)
    (heq : ∀ d ∈ cells, next' d = next d) : Threaded null next' a cells := by
  induction cells generalizing a with
  | nil => exact h
  | cons d cells ih =>
    obtain ⟨rfl, hnull, hrest⟩ := h
    refine ⟨rfl, hnull, ?_⟩
    rw [heq a List.mem_cons_self]
    exact ih hrest fun d hd => heq d (List.mem_cons_of_mem a hd)

/-- A write to a cell that is not in the list. -/
theorem Threaded.update [DecidableEq α] (h : Threaded null next a cells) (hc : c ∉ cells)
    (v : α) : Threaded null (Function.update next c v) a cells :=
  h.congr fun _ hd => Function.update_of_ne (ne_of_mem_of_not_mem hd hc) ..

/-- No cell of a list is `null`. -/
theorem Threaded.mem_ne_null (h : Threaded null next a cells) (hc : c ∈ cells) : c ≠ null := by
  induction cells generalizing a with
  | nil => exact absurd hc List.not_mem_nil
  | cons d cells ih =>
    obtain ⟨-, hnull, hrest⟩ := h
    obtain rfl | hc := List.mem_cons.mp hc
    · exact hnull
    · exact ih hrest hc

theorem Threaded.push [DecidableEq α] (h : Threaded null next a cells) (hnull : c ≠ null)
    (hc : c ∉ cells) : Threaded null (Function.update next c a) c (c :: cells) := by
  refine ⟨rfl, hnull, ?_⟩
  rw [Function.update_self]
  exact h.update hc a

/-- The first cell of a list, which is then free to hold anything. -/
theorem Threaded.pop [DecidableEq α] (h : Threaded null next a cells) (hne : cells ≠ [])
    (hnodup : cells.Nodup) (v : α) : ∃ rest, cells = a :: rest ∧
      Threaded null (Function.update next a v) (next a) rest := by
  cases cells with
  | nil => exact absurd rfl hne
  | cons c rest =>
    obtain ⟨rfl, -, hrest⟩ := h
    exact ⟨rest, rfl, hrest.update (List.nodup_cons.mp hnodup).1 v⟩

/-- A cell linked to the last one. -/
theorem Threaded.concat [DecidableEq α] {last : α} (h : Threaded null next a (cells ++ [last]))
    (hnodup : (c :: (cells ++ [last])).Nodup) (hnull : c ≠ null) (hend : next c = null) :
    Threaded null (Function.update next last c) a (cells ++ [last] ++ [c]) := by
  have hc : c ≠ last := fun heq => (List.nodup_cons.mp hnodup).1 (by simp [heq])
  induction cells generalizing a with
  | nil =>
    obtain ⟨rfl, hlast, -⟩ := h
    refine ⟨rfl, hlast, (Function.update_self ..).trans rfl, hnull, ?_⟩
    rw [Function.update_of_ne hc]
    exact hend
  | cons d cells ih =>
    obtain ⟨rfl, hd, hrest⟩ := h
    simp only [List.cons_append, List.nodup_cons, List.mem_cons, List.mem_append,
      not_or] at hnodup
    obtain ⟨⟨-, hout, -⟩, ⟨-, hlast, -⟩, htail⟩ := hnodup
    refine ⟨rfl, hd, ?_⟩
    rw [Function.update_of_ne hlast]
    exact ih hrest (List.nodup_cons.mpr ⟨by simp [hout, hc], htail⟩)

/-- Cells in a row, each linked to the one behind it. -/
theorem threaded_row {cell : Nat → α} {n : Nat} (hnull : ∀ i, cell i ≠ null)
    (hnext : ∀ i < n, next (cell i) = cell (i + 1)) (hlast : next (cell n) = null) :
    Threaded null next (cell 0) ((List.range (n + 1)).map cell) := by
  induction n generalizing cell with
  | zero => exact ⟨rfl, hnull 0, hlast⟩
  | succ n ih =>
    rw [List.range_succ_eq_map, List.map_cons, List.map_map]
    refine ⟨rfl, hnull 0, ?_⟩
    rw [hnext 0 (Nat.succ_pos n)]
    exact ih (fun i => hnull (i + 1)) (fun i hi => hnext (i + 1) (Nat.succ_lt_succ hi)) hlast

end Live2dStm32.Lib
