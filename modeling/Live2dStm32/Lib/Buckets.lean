import Mathlib.Data.List.Nodup
import Mathlib.Logic.Function.Basic

/-
  Queues by key, with a bitmap of those that are not empty: how a priority scheduler keeps its
  ready threads. `Holds` says which elements are queued, each in the queue of its key; `lowest`
  finds the first queue that is not empty.
-/

namespace Live2dStm32.Lib

/-- The queues of the keys below `w`. -/
structure Buckets (τ : Type) (w : Nat) where
  queue : Nat → List τ
  group : BitVec w

/-- The lowest bit that is set. -/
def lowest {w : Nat} (v : BitVec w) : Option Nat := (List.range w).find? fun i => v.getLsbD i

theorem getLsbD_set {w : Nat} (v : BitVec w) {p : Nat} (hp : p < w) (q : Nat) :
    (v ||| BitVec.twoPow w p).getLsbD q = (v.getLsbD q || decide (p = q)) := by
  rw [BitVec.getLsbD_or, BitVec.getLsbD_twoPow, decide_eq_true hp, Bool.true_and]

theorem getLsbD_clear {w : Nat} (v : BitVec w) (p q : Nat) :
    (v &&& ~~~BitVec.twoPow w p).getLsbD q = (v.getLsbD q && !decide (p = q)) := by
  rw [BitVec.getLsbD_and, BitVec.getLsbD_not, BitVec.getLsbD_twoPow]
  by_cases hq : q < w
  · by_cases hpq : p = q <;> simp [hq, hpq]
  · rw [BitVec.getLsbD_of_ge v q (Nat.le_of_not_lt hq)]
    rfl

theorem lowest_eq_some {w : Nat} {v : BitVec w} {p : Nat} (h : lowest v = some p) :
    v.getLsbD p = true ∧ ∀ q < p, v.getLsbD q = false := by
  obtain ⟨hp, -, hlow⟩ := List.find?_range_eq_some.mp h
  exact ⟨hp, fun q hq => by simpa using hlow q hq⟩

theorem lowest_ne_none {w : Nat} {v : BitVec w} (h : v ≠ 0) : ∃ p, lowest v = some p := by
  by_contra hnone
  have hall := List.find?_eq_none.mp
    (Option.eq_none_iff_forall_ne_some.mpr fun p hp => hnone ⟨p, hp⟩)
  refine h (BitVec.eq_of_getLsbD_eq fun i hi => ?_)
  simpa using hall i (List.mem_range.mpr hi)

namespace Buckets

variable {τ : Type} {w : Nat} [DecidableEq τ]

def empty : Buckets τ w := ⟨fun _ => [], 0⟩

/-- To the end of queue `p`. -/
def push (b : Buckets τ w) (p : Nat) (t : τ) : Buckets τ w :=
  ⟨Function.update b.queue p (b.queue p ++ [t]), b.group ||| BitVec.twoPow w p⟩

/-- Out of whatever queue it is in. -/
def unlink (b : Buckets τ w) (t : τ) : Buckets τ w :=
  { b with queue := fun q => (b.queue q).erase t }

/-- The same, and the bit of queue `p` is cleared if this leaves it empty. -/
def drop (b : Buckets τ w) (p : Nat) (t : τ) : Buckets τ w :=
  let b := b.unlink t
  if (b.queue p).isEmpty then { b with group := b.group &&& ~~~BitVec.twoPow w p } else b

/-- The elements of `R` are queued, each once and by its key. -/
structure Holds (b : Buckets τ w) (R : τ → Prop) (key : τ → Nat) : Prop where
  mem : ∀ p t, t ∈ b.queue p ↔ R t ∧ key t = p
  nodup : ∀ p, (b.queue p).Nodup
  group : ∀ p, b.group.getLsbD p = !(b.queue p).isEmpty

variable {b : Buckets τ w} {R S : τ → Prop} {key key' : τ → Nat} {p : Nat} {t : τ}

omit [DecidableEq τ] in
theorem holds_empty (hR : ∀ t, ¬ R t) : (empty : Buckets τ w).Holds R key :=
  ⟨fun p t => by simp [empty, hR], fun p => List.nodup_nil, fun p => by simp [empty]⟩

omit [DecidableEq τ] in
theorem Holds.congr (h : b.Holds R key) (hR : ∀ t, S t ↔ R t) (hkey : ∀ t, S t → key' t = key t) :
    b.Holds S key' where
  mem p t := by
    rw [h.mem p t, ← hR t]
    exact and_congr_right fun hs => by rw [hkey t hs]
  nodup := h.nodup
  group := h.group

omit [DecidableEq τ] in
theorem Holds.push (h : b.Holds R key) (ht : ¬ R t) (hw : key t < w) :
    (b.push (key t) t).Holds (fun x => R x ∨ x = t) key where
  mem p x := by
    by_cases hp : p = key t
    · subst hp
      simp only [Buckets.push, Function.update_self, List.mem_append, List.mem_singleton, h.mem]
      grind
    · simp only [Buckets.push, Function.update_of_ne hp, h.mem]
      grind
  nodup p := by
    by_cases hp : p = key t
    · subst hp
      simp only [Buckets.push, Function.update_self]
      refine List.nodup_append.mpr ⟨h.nodup _, List.nodup_singleton t, fun x hx y hy => ?_⟩
      rw [List.mem_singleton.mp hy]
      exact fun hxt => ht (hxt ▸ ((h.mem _ _).mp hx).1)
    · simp only [Buckets.push, Function.update_of_ne hp]
      exact h.nodup p
  group p := by
    by_cases hp : p = key t
    · subst hp
      simp [Buckets.push, hw]
    · have hne : ¬ key t = p := fun hkp => hp (Eq.symm hkp)
      simp only [Buckets.push, Function.update_of_ne hp, getLsbD_set _ hw, h.group p,
        decide_eq_false hne, Bool.or_false]

theorem mem_unlink (h : b.Holds R key) (p : Nat) (x : τ) :
    x ∈ (b.unlink t).queue p ↔ (R x ∧ x ≠ t) ∧ key x = p := by
  change x ∈ (b.queue p).erase t ↔ _
  rw [(h.nodup p).mem_erase_iff, h.mem]
  tauto

/-- Out of no queue. -/
theorem Holds.unlink (h : b.Holds R key) (ht : ¬ R t) : (b.unlink t).Holds R key := by
  have heq : b.unlink t = b := by
    have hq : (fun q => (b.queue q).erase t) = b.queue :=
      funext fun q => List.erase_of_not_mem fun hmem => ht ((h.mem q t).mp hmem).1
    rw [Buckets.unlink, hq]
  rw [heq]
  exact h

@[simp] theorem queue_drop (b : Buckets τ w) (p : Nat) (t : τ) (q : Nat) :
    (b.drop p t).queue q = (b.queue q).erase t := by
  unfold Buckets.drop
  dsimp only
  split <;> rfl

theorem Holds.drop (h : b.Holds R key) : (b.drop (key t) t).Holds (fun x => R x ∧ x ≠ t) key := by
  have hqueue : (b.drop (key t) t).queue = (b.unlink t).queue := funext (queue_drop b _ t)
  refine ⟨fun p x => ?_, fun p => ?_, fun p => ?_⟩
  · rw [hqueue]
    exact mem_unlink h p x
  · rw [hqueue]
    exact (h.nodup p).erase t
  · rw [hqueue]
    -- only the queue of `t` can have changed
    have hother : p ≠ key t → (b.unlink t).queue p = b.queue p := fun hp =>
      List.erase_of_not_mem fun hmem => hp (Eq.symm ((h.mem p t).mp hmem).2)
    have hold : b.group.getLsbD p = !(b.queue p).isEmpty := h.group p
    unfold Buckets.drop
    dsimp only
    split
    next hempty =>
      rw [getLsbD_clear]
      by_cases hp : p = key t
      · subst hp
        simp [hempty]
      · have hne : ¬ key t = p := fun hkp => hp (Eq.symm hkp)
        rw [hother hp, decide_eq_false hne, Bool.not_false, Bool.and_true]
        exact hold
    next hfull =>
      by_cases hp : p = key t
      · subst hp
        rw [Bool.not_eq_true] at hfull
        rw [hfull]
        refine hold.trans ?_
        have hne : b.queue (key t) ≠ [] := fun hnil => by
          simp [Buckets.unlink, hnil] at hfull
        simpa using hne
      · rw [hother hp]
        exact hold

omit [DecidableEq τ] in
/-- The first queue of the lowest bit: nothing queued has a lower key. -/
theorem Holds.lowest_some (h : b.Holds R key) (hp : lowest b.group = some p) :
    (∃ x rest, b.queue p = x :: rest ∧ R x ∧ key x = p) ∧ ∀ x, R x → p ≤ key x := by
  obtain ⟨hbit, hlow⟩ := lowest_eq_some hp
  constructor
  · cases hq : b.queue p with
    | nil => simp [h.group p, hq] at hbit
    | cons x rest =>
      exact ⟨x, rest, rfl, (h.mem p x).mp (hq ▸ List.mem_cons_self)⟩
  · intro x hx
    by_contra hlt
    have hbit' := hlow (key x) (Nat.lt_of_not_le hlt)
    rw [h.group] at hbit'
    have hmem := (h.mem (key x) x).mpr ⟨hx, rfl⟩
    cases hq : b.queue (key x) with
    | nil => simp [hq] at hmem
    | cons y rest => simp [hq] at hbit'

omit [DecidableEq τ] in
theorem Holds.empty_of_zero (h : b.Holds R key) (hz : b.group = 0) (x : τ) : ¬ R x := by
  intro hx
  have hmem := (h.mem (key x) x).mpr ⟨hx, rfl⟩
  have hbit := h.group (key x)
  rw [hz] at hbit
  cases hq : b.queue (key x) with
  | nil => simp [hq] at hmem
  | cons y rest => simp [hq] at hbit

end Buckets

end Live2dStm32.Lib
