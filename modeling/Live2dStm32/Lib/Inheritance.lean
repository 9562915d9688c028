import Mathlib.Data.List.Pairwise
import Mathlib.Logic.Function.Basic
import Mathlib.Order.Lattice

/-
  Priority inheritance for locks that wait in order of priority, where a smaller number is a
  higher priority: an owner has at least the priority of every thread that waits for its lock,
  and a thread that owns nothing has its own. It holds for threads that own one lock at a time.
-/

namespace Live2dStm32.Lib

/-- The owner of every lock, the own and the present priority of every thread, and who waits. -/
structure Inheritance (τ μ ι : Type) where
  owner : μ → Option τ
  base : τ → ι
  prio : τ → ι
  queue : μ → List τ

namespace Inheritance

variable {τ μ ι : Type} [LinearOrder ι]

/-- The thread owns no lock. -/
def Idle (a : Inheritance τ μ ι) (t : τ) : Prop := ∀ m, a.owner m ≠ some t

structure Ok (a : Inheritance τ μ ι) : Prop where
  boosted : ∀ m o, a.owner m = some o → ∀ t ∈ a.queue m, a.prio o ≤ a.prio t
  raised : ∀ m o, a.owner m = some o → a.prio o ≤ a.base o
  one : ∀ m k o, a.owner m = some o → a.owner k = some o → m = k
  idle : ∀ t, a.Idle t → a.prio t = a.base t
  waiting : ∀ m, ∀ t ∈ a.queue m, a.Idle t
  sorted : ∀ m, (a.queue m).Pairwise (a.prio · ≤ a.prio ·)

variable {a b : Inheritance τ μ ι}

/-- Threads stop to wait at most. -/
theorem Ok.quiet (h : a.Ok) (howner : b.owner = a.owner) (hbase : b.base = a.base)
    (hqueue : ∀ m, (b.queue m).Sublist (a.queue m))
    (hprio : ∀ m o, a.owner m = some o → b.prio o = a.prio o)
    (hidle : ∀ t, a.Idle t → b.prio t = a.base t) : b.Ok := by
  have hsame : ∀ t, a.Idle t → b.prio t = a.prio t := fun t ht =>
    (hidle t ht).trans (h.idle t ht).symm
  have hIdle : ∀ t, b.Idle t ↔ a.Idle t := fun t => by rw [Idle, howner, Idle]
  refine ⟨fun m o ho t ht => ?_, fun m o ho => ?_, fun m k o => ?_, fun t ht => ?_,
    fun m t ht => ?_, fun m => ?_⟩
  · rw [howner] at ho
    have ht := (hqueue m).subset ht
    rw [hprio m o ho, hsame t (h.waiting m t ht)]
    exact h.boosted m o ho t ht
  · rw [howner] at ho
    rw [hprio m o ho, hbase]
    exact h.raised m o ho
  · rw [howner]
    exact h.one m k o
  · rw [hbase]
    exact hidle t ((hIdle t).mp ht)
  · exact (hIdle t).mpr (h.waiting m t ((hqueue m).subset ht))
  · refine ((h.sorted m).sublist (hqueue m)).imp_of_mem fun {x y} hx hy hle => ?_
    rw [hsame x (h.waiting m x ((hqueue m).subset hx)),
      hsame y (h.waiting m y ((hqueue m).subset hy))]
    exact hle

variable [DecidableEq τ] [DecidableEq μ]

omit [LinearOrder ι] [DecidableEq τ] in
theorem idle_of_update {m : μ} {c t : τ} (howner : b.owner = Function.update a.owner m (some c))
    (hfree : a.owner m = none) : b.Idle t ↔ a.Idle t ∧ t ≠ c := by
  unfold Idle
  rw [howner]
  constructor
  · refine fun h => ⟨fun k hk => ?_, fun htc => ?_⟩
    · have hkm : k ≠ m := fun heq => by
        rw [heq, hfree] at hk
        exact nomatch hk
      exact h k ((Function.update_of_ne hkm ..).trans hk)
    · exact h m (htc ▸ Function.update_self ..)
  · rintro ⟨h, htc⟩ k hk
    by_cases hkm : k = m
    · rw [hkm, Function.update_self] at hk
      exact htc (Option.some.inj hk).symm
    · exact h k ((Function.update_of_ne hkm ..).symm.trans hk)

omit [DecidableEq τ] in
/-- A thread that owns nothing takes a lock that nobody waits for. -/
theorem Ok.take (h : a.Ok) {m : μ} {c : τ} (hfree : a.owner m = none) (hempty : a.queue m = [])
    (hc : a.Idle c) (hout : ∀ k, c ∉ a.queue k)
    (howner : b.owner = Function.update a.owner m (some c)) (hbase : b.base = a.base)
    (hprio : b.prio = a.prio) (hqueue : b.queue = a.queue) : b.Ok := by
  have hcases : ∀ k o, b.owner k = some o → k = m ∧ o = c ∨ k ≠ m ∧ a.owner k = some o := by
    intro k o ho
    rw [howner] at ho
    by_cases hkm : k = m
    · rw [hkm, Function.update_self] at ho
      exact .inl ⟨hkm, (Option.some.inj ho).symm⟩
    · rw [Function.update_of_ne hkm] at ho
      exact .inr ⟨hkm, ho⟩
  refine ⟨fun k o ho t ht => ?_, fun k o ho => ?_, fun k k' o hk hk' => ?_, fun t ht => ?_,
    fun k t ht => ?_, fun k => ?_⟩
  · rw [hqueue] at ht
    rw [hprio]
    obtain ⟨rfl, -⟩ | ⟨-, ho⟩ := hcases k o ho
    · rw [hempty] at ht
      exact nomatch ht
    · exact h.boosted k o ho t ht
  · rw [hprio, hbase]
    obtain ⟨-, rfl⟩ | ⟨-, ho⟩ := hcases k o ho
    · exact le_of_eq (h.idle o hc)
    · exact h.raised k o ho
  · obtain ⟨rfl, rfl⟩ | ⟨-, hk⟩ := hcases k o hk <;> obtain ⟨rfl, hoc⟩ | ⟨-, hk'⟩ := hcases k' _ hk'
    · rfl
    · exact absurd hk' (hc k')
    · exact absurd (hoc ▸ hk) (hc k)
    · exact h.one k k' _ hk hk'
  · rw [hprio, hbase]
    exact h.idle t ((idle_of_update howner hfree).mp ht).1
  · rw [hqueue] at ht
    exact (idle_of_update howner hfree).mpr ⟨h.waiting k t ht, fun htc => hout k (htc ▸ ht)⟩
  · rw [hqueue, hprio]
    exact h.sorted k

/-- A thread waits for a lock; the owner gets its priority if that is higher. -/
theorem Ok.wait (h : a.Ok) {m : μ} {c o : τ} (ho : a.owner m = some o) (hc : a.Idle c)
    (howner : b.owner = a.owner) (hbase : b.base = a.base)
    (hprio : b.prio = Function.update a.prio o (min (a.prio o) (a.prio c)))
    (hqueue : ∀ k, k ≠ m → b.queue k = a.queue k) (hown : (b.queue m).Perm (c :: a.queue m))
    (hsorted : (b.queue m).Pairwise (b.prio · ≤ b.prio ·)) : b.Ok := by
  have hidle : ∀ t, b.Idle t ↔ a.Idle t := fun t => by rw [Idle, howner, Idle]
  have hsame : ∀ t, t ≠ o → b.prio t = a.prio t := fun t ht => by
    rw [hprio, Function.update_of_ne ht]
  have hself : b.prio o = min (a.prio o) (a.prio c) := by rw [hprio, Function.update_self]
  have hidles : ∀ t, a.Idle t → t ≠ o := fun t ht heq => ht m (heq ▸ ho)
  have hmem : ∀ k, ∀ t ∈ b.queue k, a.Idle t ∧ (t ∈ a.queue k ∨ k = m ∧ t = c) := by
    intro k t ht
    by_cases hk : k = m
    · rw [hk, hown.mem_iff, List.mem_cons] at ht
      obtain rfl | ht := ht
      · exact ⟨hc, .inr ⟨hk, rfl⟩⟩
      · exact ⟨h.waiting m t ht, .inl (hk ▸ ht)⟩
    · rw [hqueue k hk] at ht
      exact ⟨h.waiting k t ht, .inl ht⟩
  refine ⟨fun k p hp t ht => ?_, fun k p hp => ?_, fun k k' p => ?_, fun t ht => ?_,
    fun k t ht => (hidle t).mpr (hmem k t ht).1, fun k => ?_⟩
  · rw [howner] at hp
    obtain ⟨hit, ht | ⟨rfl, rfl⟩⟩ := hmem k t ht
    · rw [hsame t (hidles t hit)]
      by_cases hpo : p = o
      · subst hpo
        rw [hself]
        exact le_trans (min_le_left ..) (h.boosted k p hp t ht)
      · rw [hsame p hpo]
        exact h.boosted k p hp t ht
    · rw [← Option.some.inj (ho.symm.trans hp), hsame t (hidles t hc), hself]
      exact min_le_right ..
  · rw [howner] at hp
    rw [hbase]
    by_cases hpo : p = o
    · subst hpo
      rw [hself]
      exact le_trans (min_le_left ..) (h.raised k p hp)
    · rw [hsame p hpo]
      exact h.raised k p hp
  · rw [howner]
    exact h.one k k' p
  · have hit := (hidle t).mp ht
    rw [hsame t (hidles t hit), hbase]
    exact h.idle t hit
  · by_cases hk : k = m
    · rw [hk]
      exact hsorted
    · rw [hqueue k hk]
      refine (h.sorted k).imp_of_mem fun {x y} hx hy hle => ?_
      rw [hsame x (hidles x (h.waiting k x hx)), hsame y (hidles y (h.waiting k y hy))]
      exact hle

/-- The owner gets its own priority back, and the lock goes to the first thread that waits. -/
theorem Ok.release (h : a.Ok) {m : μ} {c : τ} (hc : a.owner m = some c)
    (howner : b.owner = Function.update a.owner m (a.queue m).head?) (hbase : b.base = a.base)
    (hprio : b.prio = Function.update a.prio c (a.base c))
    (hqueue : ∀ k, k ≠ m → b.queue k = a.queue k) (hown : b.queue m = (a.queue m).tail)
    (hnodup : (a.queue m).Nodup) (hapart : ∀ k, k ≠ m → ∀ t ∈ a.queue k, t ∉ a.queue m) :
    b.Ok := by
  have hself : b.prio c = a.base c := by rw [hprio, Function.update_self]
  have hsame : ∀ t, t ≠ c → b.prio t = a.prio t := fun t ht => by
    rw [hprio, Function.update_of_ne ht]
  have hsub : ∀ k, (b.queue k).Sublist (a.queue k) := by
    intro k
    by_cases hk : k = m
    · rw [hk, hown]
      exact List.tail_sublist _
    · exact (hqueue k hk).symm ▸ List.Sublist.refl _
  have hcases : ∀ k p, b.owner k = some p →
      k = m ∧ p ∈ a.queue m ∧ (a.queue m).head? = some p ∨ k ≠ m ∧ a.owner k = some p := by
    intro k p hp
    rw [howner] at hp
    by_cases hk : k = m
    · rw [hk, Function.update_self] at hp
      exact .inl ⟨hk, List.mem_of_head? hp, hp⟩
    · rw [Function.update_of_ne hk] at hp
      exact .inr ⟨hk, hp⟩
  have hothers : ∀ k p, k ≠ m → a.owner k = some p → p ≠ c := fun k p hk hp hpc =>
    hk (h.one k m c (hpc ▸ hp) hc)
  have hwaits : ∀ k, ∀ t ∈ a.queue k, t ≠ c := fun k t ht htc =>
    h.waiting k t ht m (htc ▸ hc)
  refine ⟨fun k p hp t ht => ?_, fun k p hp => ?_, fun k k' p hk hk' => ?_, fun t ht => ?_,
    fun k t ht k' hk' => ?_, fun k => ?_⟩
  · have hta := (hsub k).subset ht
    rw [hsame t (hwaits k t hta)]
    obtain ⟨rfl, hin, hhead⟩ | ⟨hk, hp⟩ := hcases k p hp
    · rw [hsame p (hwaits k p hin)]
      -- the head of a sorted list
      obtain ⟨ts, hcons⟩ := List.head?_eq_some_iff.mp hhead
      have hpair := h.sorted k
      rw [hcons, List.pairwise_cons] at hpair
      rw [hown, hcons] at ht
      exact hpair.1 t ht
    · rw [hsame p (hothers k p hk hp)]
      exact h.boosted k p hp t hta
  · rw [hbase]
    obtain ⟨-, hin, -⟩ | ⟨hk, hp⟩ := hcases k p hp
    · rw [hsame p (hwaits m p hin)]
      exact le_of_eq (h.idle p (h.waiting m p hin))
    · rw [hsame p (hothers k p hk hp)]
      exact h.raised k p hp
  · obtain ⟨rfl, hin, -⟩ | ⟨-, hk⟩ := hcases k p hk <;>
      obtain ⟨rfl, hin', -⟩ | ⟨-, hk'⟩ := hcases k' p hk'
    · rfl
    · exact absurd hk' (h.waiting k p hin k')
    · exact absurd hk (h.waiting k' p hin' k)
    · exact h.one k k' p hk hk'
  · rw [hbase]
    by_cases htc : t = c
    · rw [htc]
      exact hself
    · rw [hsame t htc]
      refine h.idle t fun k hk => ?_
      have hkm : k ≠ m := fun heq => htc (Option.some.inj ((heq ▸ hk).symm.trans hc))
      exact ht k (by rw [howner, Function.update_of_ne hkm, hk])
  · have hta := (hsub k).subset ht
    obtain ⟨rfl, -, hhead⟩ | ⟨-, hk'⟩ := hcases k' t hk'
    · obtain ⟨ts, hcons⟩ := List.head?_eq_some_iff.mp hhead
      by_cases hk : k = k'
      · rw [hk, hown, hcons] at ht
        rw [hcons, List.nodup_cons] at hnodup
        exact hnodup.1 ht
      · exact hapart k hk t hta (hcons ▸ List.mem_cons_self)
    · exact h.waiting k t hta k' hk'
  · refine ((h.sorted k).sublist (hsub k)).imp_of_mem fun {x y} hx hy hle => ?_
    rw [hsame x (hwaits k x ((hsub k).subset hx)), hsame y (hwaits k y ((hsub k).subset hy))]
    exact hle

end Inheritance

end Live2dStm32.Lib
