import Mathlib.Data.List.Pairwise

/-
  Insertion into a list by a scan from its head: before the first element that is later, or at
  the end. It keeps a list sorted, behind the elements that are equal.
-/

namespace Live2dStm32.Lib

variable {α : Type}

def scanInsert (later : α → Bool) (t : α) : List α → List α
  | [] => [t]
  | x :: xs => if later x then t :: x :: xs else x :: scanInsert later t xs

variable {later : α → Bool} {t : α}

theorem perm_scanInsert (later : α → Bool) (t : α) (l : List α) :
    (scanInsert later t l).Perm (t :: l) := by
  induction l with
  | nil => exact List.Perm.refl _
  | cons x xs ih =>
    unfold scanInsert
    split
    · exact List.Perm.refl _
    · exact (ih.cons x).trans (List.Perm.swap t x xs)

theorem pairwise_scanInsert {R : α → α → Prop} {l : List α} (h : l.Pairwise R)
    (hbefore : ∀ x ∈ l, later x = false → R x t) (hlater : ∀ x ∈ l, later x = true → R t x)
    (htrans : ∀ x ∈ l, ∀ y ∈ l, R t x → R x y → R t y) :
    (scanInsert later t l).Pairwise R := by
  induction l with
  | nil => exact List.pairwise_singleton ..
  | cons x xs ih =>
    have hx := List.pairwise_cons.mp h
    have hhead : x ∈ x :: xs := List.mem_cons_self
    have htail : ∀ y ∈ xs, y ∈ x :: xs := fun y hy => List.mem_cons_of_mem x hy
    unfold scanInsert
    split
    next hl =>
      have hR := hlater x hhead hl
      refine List.pairwise_cons.mpr ⟨fun y hy => ?_, h⟩
      obtain rfl | hy := List.mem_cons.mp hy
      · exact hR
      · exact htrans x hhead y (htail y hy) hR (hx.1 y hy)
    next hl =>
      refine List.pairwise_cons.mpr ⟨fun y hy => ?_, ih hx.2 (fun y hy => hbefore y (htail y hy))
        (fun y hy => hlater y (htail y hy))
        fun y hy z hz => htrans y (htail y hy) z (htail z hz)⟩
      rw [(perm_scanInsert later t xs).mem_iff, List.mem_cons] at hy
      obtain rfl | hy := hy
      · exact hbefore x hhead (Bool.eq_false_iff.mpr hl)
      · exact hx.1 y hy

end Live2dStm32.Lib
