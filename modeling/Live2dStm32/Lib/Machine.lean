import Mathlib.Data.List.Basic

/-
  Machines with partial steps: `step s a = some s'` is one move, `none` means the label `a`
  is not enabled in `s`. Runs are lists of labels, driven from a start state.

  A guard `G s a` is a condition on the state BEFORE the move. `Reach step G s₀ s` says that
  `s` ends a run from `s₀` in which every move meets its guard; with `Free` it is plain
  reachability. Invariants are proved once, by `Reach.invariant`.
-/

namespace Live2dStm32.Lib

variable {σ α : Type}

/-- The guard that allows every move. -/
def Free : σ → α → Prop := fun _ _ => True

instance (s : σ) (a : α) : Decidable (Free s a) := inferInstanceAs (Decidable True)

/-- States at the end of runs from `s₀` whose moves all meet the guard `G`. -/
inductive Reach (step : σ → α → Option σ) (G : σ → α → Prop) (s₀ : σ) : σ → Prop
  | start : Reach step G s₀ s₀
  | next {s s' : σ} {a : α} (h : Reach step G s₀ s) (hg : G s a) (hs : step s a = some s') :
      Reach step G s₀ s'

/-- What holds at the start and is kept by every guarded move holds at the end of every
    guarded run. -/
theorem Reach.invariant {step : σ → α → Option σ} {G : σ → α → Prop} {s₀ s : σ}
    (I : σ → Prop) (h0 : I s₀)
    (hstep : ∀ s a s', I s → G s a → step s a = some s' → I s')
    (h : Reach step G s₀ s) : I s := by
  induction h with
  | start => exact h0
  | next _ hg hs ih => exact hstep _ _ _ ih hg hs

/-- A run that meets a guard meets every weaker one. -/
theorem Reach.mono {step : σ → α → Option σ} {G G' : σ → α → Prop} {s₀ s : σ}
    (hG : ∀ s a, G s a → G' s a) (h : Reach step G s₀ s) : Reach step G' s₀ s := by
  induction h with
  | start => exact .start
  | next _ hg hs ih => exact .next ih (hG _ _ hg) hs

/-- Run a list of labels; `none` as soon as one is not enabled. -/
def exec (step : σ → α → Option σ) : σ → List α → Option σ
  | s, [] => some s
  | s, a :: as => (step s a).bind fun s' => exec step s' as

/-- The machine that refuses the moves its guard excludes. -/
def guarded (step : σ → α → Option σ) (G : σ → α → Prop) [∀ s a, Decidable (G s a)] :
    σ → α → Option σ :=
  fun s a => if G s a then step s a else none

/-- A successful `exec` of the guarded machine is a guarded run. -/
theorem reach_of_exec {step : σ → α → Option σ} {G : σ → α → Prop}
    [∀ s a, Decidable (G s a)] {s₀ s s' : σ} {as : List α}
    (h : Reach step G s₀ s) (he : exec (guarded step G) s as = some s') : Reach step G s₀ s' := by
  induction as generalizing s with
  | nil => cases he; exact h
  | cons a as ih =>
    obtain ⟨t, ht, he⟩ := Option.bind_eq_some_iff.mp he
    unfold guarded at ht
    split at ht
    · exact ih (.next h ‹_› ht) he
    · cases ht

/-! ## Machines whose every move is enabled -/

/-- `P` holds at every move of the run of `as` from `s`; `P` sees the state before it. -/
def EachStep (step : σ → α → σ) (P : σ → α → Prop) : σ → List α → Prop
  | _, [] => True
  | s, a :: as => P s a ∧ EachStep step P (step s a) as

theorem eachStep_and {step : σ → α → σ} {P Q : σ → α → Prop} {s : σ} {as : List α} :
    EachStep step (fun s a => P s a ∧ Q s a) s as ↔
      EachStep step P s as ∧ EachStep step Q s as := by
  induction as generalizing s with
  | nil => exact ⟨fun _ => ⟨trivial, trivial⟩, fun _ => trivial⟩
  | cons a as ih =>
    constructor
    · intro ⟨⟨hp, hq⟩, hr⟩
      exact ⟨⟨hp, (ih.mp hr).1⟩, hq, (ih.mp hr).2⟩
    · intro ⟨⟨hp, hps⟩, hq, hqs⟩
      exact ⟨⟨hp, hq⟩, ih.mpr ⟨hps, hqs⟩⟩

/-- A step property that does not see the state is a property of the labels. -/
theorem eachStep_label_iff {step : σ → α → σ} {P : α → Prop} {s : σ} {as : List α} :
    EachStep step (fun _ a => P a) s as ↔ ∀ a ∈ as, P a := by
  induction as generalizing s with
  | nil => exact ⟨fun _ _ ha => (nomatch ha), fun _ => trivial⟩
  | cons a as ih =>
    rw [List.forall_mem_cons]
    exact and_congr_right fun _ => ih

theorem eachStep_concat {step : σ → α → σ} {P : σ → α → Prop} {s : σ} {as : List α} {a : α} :
    EachStep step P s (as ++ [a]) ↔ EachStep step P s as ∧ P (as.foldl step s) a := by
  induction as generalizing s with
  | nil => exact ⟨fun h => ⟨trivial, h.1⟩, fun h => ⟨h.2, trivial⟩⟩
  | cons b as ih => exact (and_congr_right fun _ => ih).trans and_assoc.symm

/-- What every move keeps holds at the end. -/
theorem EachStep.foldl {step : σ → α → σ} {P : σ → α → Prop} (I : σ → Prop)
    (hI : ∀ s a, I s → P s a → I (step s a)) {s : σ} (h : I s) {as : List α}
    (hp : EachStep step P s as) : I (as.foldl step s) := by
  induction as generalizing s with
  | nil => exact h
  | cons a as ih => exact ih (hI s a h hp.1) hp.2

/-- Two step properties that agree wherever `I` holds agree on whole runs, when a move that
    has the first one keeps `I`. -/
theorem eachStep_iff {step : σ → α → σ} {P Q : σ → α → Prop} (I : σ → Prop)
    (hpq : ∀ s a, I s → (P s a ↔ Q s a)) (hI : ∀ s a, I s → P s a → I (step s a))
    {s : σ} (h : I s) (as : List α) : EachStep step P s as ↔ EachStep step Q s as := by
  induction as generalizing s with
  | nil => exact Iff.rfl
  | cons a as ih =>
    constructor
    · intro hp
      exact ⟨(hpq s a h).mp hp.1, (ih (hI s a h hp.1)).mp hp.2⟩
    · intro hq
      have hp := (hpq s a h).mpr hq.1
      exact ⟨hp, (ih (hI s a h hp)).mpr hq.2⟩

/-! ## Lists of threads that wait -/

/-- A list that waits gives one to the resumed ones, or is empty after it. -/
theorem length_append_take_one {waiting resumed : List α} (h : waiting.tail ≠ []) :
    (resumed ++ waiting.take 1).length = resumed.length + 1 := by
  cases waiting with
  | nil => exact absurd rfl h
  | cons a rest => simp

theorem ne_nil_of_tail {xs : List α} (h : xs.tail ≠ []) : xs ≠ [] := by
  rintro rfl
  exact h rfl

theorem length_erase_add_one [BEq α] [LawfulBEq α] {a : α} {xs : List α}
    (h : a ∈ xs) : (xs.erase a).length + 1 = xs.length := by
  have := List.length_pos_of_mem h
  rw [List.length_erase_of_mem h]
  omega

theorem ne_nil_of_erase [BEq α] {a : α} {xs : List α} (h : xs.erase a ≠ []) :
    xs ≠ [] := by
  rintro rfl
  exact h rfl

end Live2dStm32.Lib
