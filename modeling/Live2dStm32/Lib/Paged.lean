import Mathlib.Data.List.Nodup
import Mathlib.Data.List.Range
import Mathlib.Tactic.Common

/-
  Data laid out in pages of one size. `locate page size k` is the place of byte `k`: pages are
  numbered in the order they are used, and `page j` names the `j`th. A run of `n` bytes at
  `off` in the `j`th page is the bytes from `j * size + off` on (`spot_eq`).

  Copies into such pages are logs of writes, in order, and `applyWrites` is the memory after
  them. A log that writes no place twice leaves what it wrote (`map_applyWrites`).
-/

namespace Live2dStm32.Lib

variable {π α β : Type}

/-- The places of `n` bytes at `off` in page `p`. -/
def spot (p : π) (off n : Nat) : List (π × Nat) := (List.range' off n).map (p, ·)

/-- The place of byte `k`. -/
def locate (page : Nat → π) (size k : Nat) : π × Nat := (page (k / size), k % size)

/-- The places of the bytes `k, …, k + n - 1`. -/
def places (page : Nat → π) (size k n : Nat) : List (π × Nat) :=
  (List.range' k n).map (locate page size)

@[simp] theorem length_places (page : Nat → π) (size k n : Nat) :
    (places page size k n).length = n := by
  rw [places, List.length_map, List.length_range']

theorem places_add (page : Nat → π) (size k m n : Nat) :
    places page size k (m + n) = places page size k m ++ places page size (k + m) n := by
  unfold places
  rw [← List.map_append, List.range'_append_1]

theorem locate_of_lt (page : Nat → π) {size j off : Nat} (h : off < size) :
    locate page size (j * size + off) = (page j, off) := by
  have hdiv : (j * size + off) / size = j := by
    rw [Nat.mul_comm, Nat.mul_add_div (Nat.zero_lt_of_lt h), Nat.div_eq_of_lt h, Nat.add_zero]
  have hmod : (j * size + off) % size = off := by
    rw [Nat.mul_comm, Nat.mul_add_mod, Nat.mod_eq_of_lt h]
  rw [locate, hdiv, hmod]

/-- A run in one page, in the order of the bytes. -/
theorem spot_eq (page : Nat → π) {size j off n : Nat} (h : off + n ≤ size) :
    spot (page j) off n = places page size (j * size + off) n := by
  induction n generalizing off with
  | zero => rfl
  | succ n ih =>
    have hplace := locate_of_lt page (j := j) (show off < size by omega)
    have hrest := @ih (off + 1) (by omega)
    unfold spot places at hrest ⊢
    rw [List.range'_succ, List.map_cons, List.range'_succ, List.map_cons, hplace, hrest,
      Nat.add_assoc]

/-- Different bytes in the first `n` pages have different places. -/
theorem locate_inj {page : Nat → π} {size n : Nat}
    (hinj : ∀ i < n, ∀ j < n, page i = page j → i = j) {k l : Nat} (hk : k < n * size)
    (hl : l < n * size) (h : locate page size k = locate page size l) : k = l := by
  obtain ⟨hpage, hoff⟩ := Prod.ext_iff.mp h
  have hdiv : k / size = l / size :=
    hinj _ (Nat.div_lt_of_lt_mul (Nat.mul_comm n size ▸ hk)) _
      (Nat.div_lt_of_lt_mul (Nat.mul_comm n size ▸ hl)) hpage
  have hmod : k % size = l % size := hoff
  calc k = size * (k / size) + k % size := (Nat.div_add_mod k size).symm
    _ = size * (l / size) + l % size := by rw [hdiv, hmod]
    _ = l := Nat.div_add_mod l size

theorem nodup_places {page : Nat → π} {size n : Nat}
    (hinj : ∀ i < n, ∀ j < n, page i = page j → i = j) {k m : Nat} (h : k + m ≤ n * size) :
    (places page size k m).Nodup := by
  refine List.Nodup.map_on ?_ List.nodup_range'
  intro a ha b hb hab
  rw [List.mem_range'_1] at ha hb
  exact locate_inj hinj (by omega) (by omega) hab

/-! ## Writes -/

variable [DecidableEq α]

/-- The memory after the writes of a log. -/
def applyWrites (m : α → β) : List (α × β) → α → β
  | [] => m
  | w :: log => applyWrites (fun a => if a = w.1 then w.2 else m a) log

theorem applyWrites_of_not_mem {m : α → β} {log : List (α × β)} {a : α}
    (h : a ∉ log.map Prod.fst) : applyWrites m log a = m a := by
  induction log generalizing m with
  | nil => rfl
  | cons w log ih =>
    rw [List.map_cons, List.mem_cons, not_or] at h
    rw [applyWrites, ih h.2, if_neg h.1]

/-- No place written twice: the memory reads back the bytes of the log, in order. -/
theorem map_applyWrites {m : α → β} {log : List (α × β)} (h : (log.map Prod.fst).Nodup) :
    (log.map Prod.fst).map (applyWrites m log) = log.map Prod.snd := by
  induction log generalizing m with
  | nil => rfl
  | cons w log ih =>
    rw [List.map_cons, List.nodup_cons] at h
    rw [List.map_cons, List.map_cons, List.map_cons, applyWrites, ih h.2,
      applyWrites_of_not_mem h.1, if_pos rfl]

end Live2dStm32.Lib
