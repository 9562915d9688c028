import Mathlib.Tactic.Common

/-
  Loops that look at their surroundings once a round. The observations are an infinite stream;
  a round either goes on in a new state or ends the loop with a result.

  What every round keeps holds whenever a round is entered (`Enters.invariant`), a loop ends at
  most once (`EndsAt.unique`), and it ends if some round is never entered
  (`exists_endsAt_of_not_enters`). A loop that only waits ends with the first observation it
  waits for (`endsAt_waiting_iff`).
-/

namespace Live2dStm32.Lib

/-- What one round of a loop does. -/
inductive Round (σ β : Type) where
  | goesOn (s : σ)
  | ends (b : β)
  deriving DecidableEq, Repr

namespace Loop

variable {σ α β : Type} {body : σ → α → Round σ β} {s t u : σ} {obs : Nat → α} {m n : Nat}
  {b c : β}

/-- The loop after so many rounds. -/
def after (body : σ → α → Round σ β) (s : σ) (obs : Nat → α) : Nat → Round σ β
  | 0 => .goesOn s
  | n + 1 =>
    match after body s obs n with
    | .goesOn t => body t (obs n)
    | .ends b => .ends b

/-- Round `n` is entered in state `t`. -/
def Enters (body : σ → α → Round σ β) (s : σ) (obs : Nat → α) (n : Nat) (t : σ) : Prop :=
  after body s obs n = .goesOn t

/-- Round `n` is the last one and gives `b`. -/
def EndsAt (body : σ → α → Round σ β) (s : σ) (obs : Nat → α) (n : Nat) (b : β) : Prop :=
  ∃ t, Enters body s obs n t ∧ body t (obs n) = .ends b

theorem enters_zero : Enters body s obs 0 s := rfl

theorem enters_succ_iff :
    Enters body s obs (n + 1) t ↔ ∃ u, Enters body s obs n u ∧ body u (obs n) = .goesOn t := by
  unfold Enters
  rw [after]
  cases after body s obs n with
  | goesOn u => simp
  | ends b => simp

theorem Enters.unique (ht : Enters body s obs n t) (hu : Enters body s obs n u) : t = u :=
  Round.goesOn.inj (ht.symm.trans hu)

/-- What holds at the start and is kept by every round that goes on. -/
theorem Enters.invariant (I : Nat → σ → Prop) (h0 : I 0 s)
    (hstep : ∀ n t u, I n t → body t (obs n) = .goesOn u → I (n + 1) u)
    (h : Enters body s obs n t) : I n t := by
  induction n generalizing t with
  | zero => exact Round.goesOn.inj h ▸ h0
  | succ n ih =>
    obtain ⟨u, hu, hnext⟩ := enters_succ_iff.mp h
    exact hstep n u t (ih hu) hnext

theorem Enters.of_le (h : Enters body s obs n t) (hmn : m ≤ n) :
    ∃ u, Enters body s obs m u := by
  induction n generalizing t with
  | zero => exact ⟨t, Nat.le_zero.mp hmn ▸ h⟩
  | succ n ih =>
    rcases Nat.lt_or_eq_of_le hmn with hlt | heq
    · obtain ⟨u, hu, -⟩ := enters_succ_iff.mp h
      exact ih hu (Nat.le_of_lt_succ hlt)
    · exact ⟨t, heq ▸ h⟩

/-- No round is entered after the last one. -/
theorem EndsAt.le (h : EndsAt body s obs n b) (hm : Enters body s obs m t) : m ≤ n := by
  by_contra hlt
  obtain ⟨u, hu, hends⟩ := h
  obtain ⟨v, hv⟩ := hm.of_le (by omega : n + 1 ≤ m)
  obtain ⟨w, hw, hnext⟩ := enters_succ_iff.mp hv
  rw [hw.unique hu, hends] at hnext
  simp at hnext

theorem EndsAt.unique (hb : EndsAt body s obs m b) (hc : EndsAt body s obs n c) :
    m = n ∧ b = c := by
  obtain ⟨t, ht, htb⟩ := id hb
  obtain ⟨u, hu, huc⟩ := id hc
  have hmn : m = n := Nat.le_antisymm (hc.le ht) (hb.le hu)
  subst hmn
  rw [ht.unique hu, huc] at htb
  exact ⟨rfl, (Round.ends.inj htb).symm⟩

/-- A loop that never enters round `n` has ended before. -/
theorem exists_endsAt_of_not_enters (h : ∀ t, ¬ Enters body s obs n t) :
    ∃ m b, EndsAt body s obs m b := by
  induction n with
  | zero => exact absurd enters_zero (h s)
  | succ n ih =>
    by_cases hn : ∃ t, Enters body s obs n t
    · obtain ⟨t, ht⟩ := hn
      cases hbody : body t (obs n) with
      | goesOn u => exact absurd (enters_succ_iff.mpr ⟨t, ht, hbody⟩) (h u)
      | ends b => exact ⟨n, b, t, ht, hbody⟩
    · exact ih (not_exists.mp hn)

/-! ## Loops that only wait

  A round that goes on changes nothing: what counts is the first observation that ends it. -/

section Waiting

variable {P : Nat → Prop} [DecidablePred P]

theorem enters_waiting_iff (h : ∀ n, body s (obs n) = if P n then .ends b else .goesOn s) :
    Enters body s obs n t ↔ t = s ∧ ∀ m < n, ¬ P m := by
  induction n generalizing t with
  | zero =>
    constructor
    · intro ht
      exact ⟨ht.unique enters_zero, fun m hm => absurd hm (Nat.not_lt_zero m)⟩
    · intro ht
      exact ht.1 ▸ enters_zero
  | succ n ih =>
    rw [enters_succ_iff, Nat.forall_lt_succ_right]
    constructor
    · intro ⟨u, hu, hnext⟩
      obtain ⟨rfl, hbefore⟩ := ih.mp hu
      rw [h n] at hnext
      split at hnext
      case isTrue => simp at hnext
      case isFalse hn => exact ⟨(Round.goesOn.inj hnext).symm, hbefore, hn⟩
    · intro ⟨ht, hbefore, hn⟩
      refine ⟨s, ih.mpr ⟨rfl, hbefore⟩, ?_⟩
      rw [h n, if_neg hn, ht]

theorem endsAt_waiting_iff (h : ∀ n, body s (obs n) = if P n then .ends b else .goesOn s) :
    EndsAt body s obs n b ↔ P n ∧ ∀ m < n, ¬ P m := by
  constructor
  · intro ⟨t, ht, hends⟩
    obtain ⟨rfl, hbefore⟩ := (enters_waiting_iff h).mp ht
    rw [h n] at hends
    split at hends
    case isTrue hn => exact ⟨hn, hbefore⟩
    case isFalse => simp at hends
  · intro ⟨hn, hbefore⟩
    refine ⟨s, (enters_waiting_iff h).mpr ⟨rfl, hbefore⟩, ?_⟩
    rw [h n, if_pos hn]

end Waiting

end Loop

end Live2dStm32.Lib
