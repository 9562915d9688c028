import Mathlib.Data.List.Basic
import Mathlib.Logic.Function.Basic
import Mathlib.Tactic.Common

/-
  Circular buffers of `n` cells. What a ring holds is a list: the `len` cells from `get` on,
  around the end (`content`). Storing behind the last cell appends (`content_put`), moving `get`
  on drops (`content_drop`), and a copy in two pieces around the end reads the list in order
  (`content_split`).

  `get` may also count on without end: only its place modulo `n` matters (`content_mod`).
-/

namespace Live2dStm32.Lib.Ring

variable {α : Type} {n : Nat} {buf : Nat → α} {get len k : Nat} {x : α}

/-- The `len` cells from `get` on. -/
def content (n : Nat) (buf : Nat → α) (get len : Nat) : List α :=
  (List.range len).map fun i => buf ((get + i) % n)

/-- The index after `i`. -/
def next (n i : Nat) : Nat := if i + 1 ≥ n then 0 else i + 1

/-- How far `put` is ahead of `get`, when they differ. -/
def distance (n get put : Nat) : Nat := if get ≤ put then put - get else n - (get - put)

/-! ## Indices -/

theorem next_eq_mod (h : k < n) : next n k = (k + 1) % n := by
  unfold next
  split
  · have : k + 1 = n := by omega
    rw [this, Nat.mod_self]
  · rw [Nat.mod_eq_of_lt (by omega)]

/-- An index past the end by less than one turn. -/
theorem add_mod_eq (hg : get < n) (hk : k ≤ n) :
    (get + k) % n = if get + k < n then get + k else get + k - n := by
  split
  · exact Nat.mod_eq_of_lt ‹_›
  · rw [Nat.mod_eq_sub_mod (by omega), Nat.mod_eq_of_lt (by omega)]

/-- Within one turn, different offsets are different cells. -/
theorem add_mod_ne {i j : Nat} (hij : i < j) (hj : j < i + n) :
    (get + i) % n ≠ (get + j) % n := by
  intro h
  have hd := Nat.sub_mod_eq_zero_of_mod_eq h.symm
  rw [Nat.mod_eq_of_lt (by omega)] at hd
  omega

theorem distance_add_mod (hg : get < n) (hk : k < n) : distance n get ((get + k) % n) = k := by
  rw [add_mod_eq hg (Nat.le_of_lt hk)]
  unfold distance
  split <;> split <;> omega

theorem add_distance_mod {put : Nat} (hg : get < n) (hp : put < n) :
    (get + distance n get put) % n = put := by
  unfold distance
  split
  · rw [Nat.mod_eq_of_lt (by omega)]
    omega
  · rw [show get + (n - (get - put)) = put + n by omega, Nat.add_mod_right,
      Nat.mod_eq_of_lt hp]

theorem distance_lt {put : Nat} (hp : put < n) : distance n get put < n := by
  unfold distance
  split <;> omega

theorem distance_eq_zero_iff {put : Nat} (hg : get < n) :
    distance n get put = 0 ↔ get = put := by
  unfold distance
  split <;> omega

/-! ## Content -/

@[simp] theorem content_zero : content n buf get 0 = [] := rfl

@[simp] theorem length_content : (content n buf get len).length = len := by
  simp [content]

theorem content_succ :
    content n buf get (len + 1) = content n buf get len ++ [buf ((get + len) % n)] := by
  simp [content, List.range_succ]

theorem content_cons :
    content n buf get (len + 1) = buf (get % n) :: content n buf (get + 1) len := by
  unfold content
  rw [List.range_succ_eq_map, List.map_cons, List.map_map]
  congr 1
  apply List.map_congr_left
  intro i _
  simp [Nat.add_assoc, Nat.add_comm 1]

@[simp] theorem content_mod : content n buf (get % n) len = content n buf get len := by
  simp [content]

/-- Only the place of the first cell matters. -/
theorem content_of_mod_eq {put : Nat} (h : get % n = put % n) :
    content n buf get len = content n buf put len := by
  rw [← content_mod, h, content_mod]

theorem content_add (a b : Nat) :
    content n buf get (a + b) = content n buf get a ++ content n buf (get + a) b := by
  unfold content
  rw [List.range_add, List.map_append, List.map_map]
  congr 1
  apply List.map_congr_left
  intro i _
  simp [Nat.add_assoc]

theorem content_take (h : k ≤ len) :
    (content n buf get len).take k = content n buf get k := by
  obtain ⟨m, rfl⟩ := Nat.exists_eq_add_of_le h
  rw [content_add, List.take_left' length_content]

theorem content_drop : (content n buf get len).drop k = content n buf (get + k) (len - k) := by
  rcases Nat.le_total k len with h | h
  · obtain ⟨m, rfl⟩ := Nat.exists_eq_add_of_le h
    rw [content_add, List.drop_left' length_content, Nat.add_sub_cancel_left]
  · rw [List.drop_eq_nil_of_le (by simpa using h), Nat.sub_eq_zero_of_le h, content_zero]

theorem content_congr {buf' : Nat → α}
    (h : ∀ i < len, buf ((get + i) % n) = buf' ((get + i) % n)) :
    content n buf get len = content n buf' get len :=
  List.map_congr_left fun i hi => h i (List.mem_range.mp hi)

/-- A store behind the last cell leaves the others alone. -/
theorem content_update_of_lt (h : len < n) :
    content n (Function.update buf ((get + len) % n) x) get len = content n buf get len := by
  apply content_congr
  intro i hi
  rw [Function.update_of_ne]
  exact add_mod_ne hi (by omega)

theorem content_put (h : len < n) :
    content n (Function.update buf ((get + len) % n) x) get (len + 1) =
      content n buf get len ++ [x] := by
  rw [content_succ, content_update_of_lt h, Function.update_self]

/-- A copy up to the end of the buffer, and the rest from its start. -/
theorem content_split (hg : get < n) (hle : n ≤ get + len) (hlen : len ≤ n) :
    content n buf get len =
      ((List.range (n - get)).map fun i => buf (get + i)) ++
        (List.range (len + get - n)).map buf := by
  have hsplit : len = (n - get) + (len + get - n) := by omega
  conv_lhs => rw [hsplit]
  rw [content_add, Nat.add_sub_cancel' (Nat.le_of_lt hg)]
  congr 1
  · apply List.map_congr_left
    intro i hi
    have := List.mem_range.mp hi
    rw [Nat.mod_eq_of_lt (by omega)]
  · apply List.map_congr_left
    intro i hi
    have := List.mem_range.mp hi
    rw [Nat.add_mod_left, Nat.mod_eq_of_lt (by omega)]

/-- A copy that does not reach the end. -/
theorem content_straight (h : get + len < n) :
    content n buf get len = (List.range len).map fun i => buf (get + i) := by
  apply List.map_congr_left
  intro i hi
  have := List.mem_range.mp hi
  rw [Nat.mod_eq_of_lt (by omega)]

/-! ## Rings that keep the newest -/

/-- The last `n` of a list. -/
def newest (n : Nat) (xs : List α) : List α := xs.drop (xs.length - n)

theorem newest_of_le {xs : List α} (h : xs.length ≤ n) : newest n xs = xs := by
  unfold newest
  rw [Nat.sub_eq_zero_of_le h, List.drop_zero]

theorem length_newest {xs : List α} : (newest n xs).length = min xs.length n := by
  simp only [newest, List.length_drop]
  omega

theorem newest_append_of_le {xs ys : List α} (h : n ≤ ys.length) :
    newest n (xs ++ ys) = newest n ys := by
  unfold newest
  rw [List.length_append, Nat.add_sub_assoc h, ← List.drop_drop, List.drop_left]

theorem newest_append_newest {xs ys : List α} :
    newest n (xs ++ newest n ys) = newest n (xs ++ ys) := by
  rcases Nat.le_total ys.length n with h | h
  · rw [newest_of_le h]
  · have hlen : (newest n ys).length = n := length_newest.trans (Nat.min_eq_right h)
    rw [newest_append_of_le (Nat.le_of_eq hlen.symm), newest_of_le (Nat.le_of_eq hlen),
      newest_append_of_le h]

theorem newest_newest_append {xs ys : List α} :
    newest n (newest n xs ++ ys) = newest n (xs ++ ys) := by
  unfold newest
  rcases Nat.le_total xs.length n with h | h
  · rw [Nat.sub_eq_zero_of_le h, List.drop_zero]
  · rw [List.length_append, List.length_drop, ← List.drop_append_of_le_length (by omega),
      List.drop_drop, List.length_append]
    congr 1
    omega

end Live2dStm32.Lib.Ring
