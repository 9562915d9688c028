import Live2dStm32.Kernel.Scheduler
import Mathlib.Data.List.Rotate

/-
  Threads that wait, wake and change their priority (thread.c, ipc.c): every function keeps the
  invariant of the scheduler, so it holds after every run of calls and interrupts. The current
  thread has the highest priority after each `rt_schedule` that is not locked out, and threads of
  one priority that yield take turns.
-/

namespace Live2dStm32.Kernel

open Live2dStm32.Lib

variable {τ ω : Type} [DecidableEq τ] {s : Scheduler τ ω} {W : τ → Prop}

/-! ## Steps -/

/-- What all the functions keep that change no priority and report no error, and wake up the
    threads of `W` at most. -/
structure Keeps (W : τ → Prop) (s s' : Scheduler τ ω) : Prop where
  inv : s'.Inv
  prio : s'.prio = s.prio
  saved : s'.saved = s.saved
  unstarted : ∀ t, s'.stat t = .init → s.stat t = .init
  asleep : ∀ t, ¬ W t → s.stat t = .suspend → s'.stat t = .suspend
  started : s.current.isSome = true → s'.current.isSome = true

omit [DecidableEq τ] in
theorem Keeps.refl (h : s.Inv) : Keeps W s s :=
  ⟨h, rfl, rfl, fun _ => id, fun _ _ => id, id⟩

omit [DecidableEq τ] in
theorem Keeps.trans {s' s'' : Scheduler τ ω} (h : Keeps W s s') (h' : Keeps W s' s'') :
    Keeps W s s'' :=
  ⟨h'.inv, h'.prio.trans h.prio, h'.saved.trans h.saved,
    fun t ht => h.unstarted t (h'.unstarted t ht),
    fun t hW ht => h'.asleep t hW (h.asleep t hW ht), fun hs => h'.started (h.started hs)⟩

omit [DecidableEq τ] in
theorem Scheduled.keeps {s' : Scheduler τ ω} (h : Scheduled s s') : Keeps W s s' := by
  refine ⟨h.inv, h.prio, h.saved, fun t => (h.unstarted t).mp, fun t _ ht => ?_,
    fun hs => h.started.trans hs⟩
  have hnot : ¬ s.Runnable t := fun hr =>
    hr.elim (fun hr => nomatch ht.symm.trans hr) fun hr => nomatch ht.symm.trans hr
  match hst : s'.stat t with
  | .init => exact nomatch ht.symm.trans ((h.unstarted t).mp hst)
  | .ready => exact absurd ((h.runnable t).mp (.inl hst)) hnot
  | .suspend => rfl
  | .running => exact absurd ((h.runnable t).mp (.inr hst)) hnot

omit [DecidableEq τ] in
/-- One thread gets another state, and leaves lists of IPC objects at most. -/
theorem Scheduler.Inv.moved {s' : Scheduler τ ω} {t : τ} (h : s.Inv)
    (hother : ∀ x, x ≠ t → s'.stat x = s.stat x)
    (hready : s'.ready.Holds (fun x => s'.stat x = .ready) s.prio) (hprio : s'.prio = s.prio)
    (hsaved : s'.saved = s.saved) (hcur : s'.current = s.current)
    (hlists : ∀ w x, x ∈ s'.suspendThread w →
      x ∈ s.suspendThread w ∧ (x = t → s'.stat t = .suspend))
    (hnodup : ∀ w, (s'.suspendThread w).Nodup) (hrun : s'.stat t = .running → s.current = some t)
    (hself : s.current = some t → s'.stat t = .running ∨ s'.stat t = .suspend)
    (hstart : s'.stat t ≠ .init) : Keeps (· = t) s s' := by
  refine ⟨⟨?_, ?_, ?_, fun x hx => ?_, fun x hx => ?_, fun w x hx => ?_, hnodup,
    fun w w' x hx hx' => h.apart w w' x (hlists w x hx).1 (hlists w' x hx').1⟩, hprio, hsaved,
    fun x hx => ?_, fun x hxt hx => (hother x hxt).trans hx, fun hs => hcur ▸ hs⟩
  · rw [hprio]
    exact hready
  · rw [hprio]
    exact h.prioBound
  · rw [initPrio_of_saved hsaved]
    exact h.initBound
  · rw [hcur]
    by_cases hxt : x = t
    · rw [hxt] at hx ⊢
      exact hrun hx
    · exact h.running x ((hother x hxt).symm.trans hx)
  · rw [hcur] at hx
    by_cases hxt : x = t
    · rw [hxt] at hx ⊢
      exact hself hx
    · rw [hother x hxt]
      exact h.current x hx
  · obtain ⟨hmem, hsus⟩ := hlists w x hx
    by_cases hxt : x = t
    · rw [hxt]
      exact hsus hxt
    · rw [hother x hxt]
      exact h.waiting w x hmem
  · by_cases hxt : x = t
    · rw [hxt] at hx
      exact absurd hx hstart
    · exact (hother x hxt).symm.trans hx

/-- A suspended thread leaves its list and becomes ready, or runs on if it is still the current
    one. -/
theorem Scheduler.Inv.wake {t : τ} (h : s.Inv) (ht : s.stat t = .suspend) :
    let s' := rtScheduleInsertThread (s.unlink t) t
    Keeps (· = t) s s' ∧ s'.suspendThread = fun w => (s.suspendThread w).erase t := by
  intro s'
  have hnot : ¬ s.stat t = .ready := fun hr => nomatch ht.symm.trans hr
  have hready : (s.ready.unlink t).Holds (fun x => s.stat x = .ready) s.prio := h.ready.unlink hnot
  by_cases hcur : s.current = some t
  · have hs' : s' = (s.unlink t).setStat t .running := if_pos hcur
    have hself : s'.stat t = .running := hs' ▸ stat_setStat_self _ _ _
    have hother : ∀ x, x ≠ t → s'.stat x = s.stat x := fun x hx => hs' ▸ stat_setStat_ne _ _ hx
    have hlists : s'.suspendThread = fun w => (s.suspendThread w).erase t := by
      rw [hs']
      rfl
    refine ⟨h.moved hother ?_ (hs' ▸ prio_setStat _ _ _) (hs' ▸ saved_setStat _ _ _) ?_
      (fun w x hx => ?_) (fun w => ?_) (fun _ => hcur) (fun _ => .inl hself) (hself ▸ by decide),
      hlists⟩
    · have hsame : s'.ready = s.ready.unlink t := by
        rw [hs']
        rfl
      rw [hsame]
      refine hready.congr (fun x => ?_) fun _ _ => rfl
      by_cases hx : x = t
      · rw [hx, hself, ht]
        decide
      · rw [hother x hx]
    · rw [hs']
      rfl
    · rw [hlists] at hx
      obtain ⟨hne, hmem⟩ := (h.nodup w).mem_erase_iff.mp hx
      exact ⟨hmem, fun heq => absurd heq hne⟩
    · rw [hlists]
      exact (h.nodup w).erase t
  · have hs' : s' = { (s.unlink t).setStat t .ready with
        ready := (s.ready.unlink t).push (s.prio t) t } := by
      refine (if_neg hcur).trans ?_
      dsimp only
      rw [prio_setStat]
      rfl
    have hself : s'.stat t = .ready := hs' ▸ stat_setStat_self (s.unlink t) t .ready
    have hother : ∀ x, x ≠ t → s'.stat x = s.stat x := fun x hx =>
      hs' ▸ stat_setStat_ne (s.unlink t) .ready hx
    have hlists : s'.suspendThread = fun w => (s.suspendThread w).erase t := by
      rw [hs']
      rfl
    refine ⟨h.moved hother ?_ (hs' ▸ prio_setStat (s.unlink t) t .ready)
      (hs' ▸ saved_setStat (s.unlink t) t .ready) ?_ (fun w x hx => ?_) (fun w => ?_)
      (fun hr => nomatch hself.symm.trans hr) (fun hc => absurd hc hcur) (hself ▸ by decide),
      hlists⟩
    · have hsame : s'.ready = (s.ready.unlink t).push (s.prio t) t := by rw [hs']
      rw [hsame]
      refine (hready.push hnot (h.prioBound t)).congr (fun x => ?_) fun _ _ => rfl
      by_cases hx : x = t
      · rw [hx, hself]
        simp
      · rw [hother x hx]
        exact (or_iff_left hx).symm
    · rw [hs']
      rfl
    · rw [hlists] at hx
      obtain ⟨hne, hmem⟩ := (h.nodup w).mem_erase_iff.mp hx
      exact ⟨hmem, fun heq => absurd heq hne⟩
    · rw [hlists]
      exact (h.nodup w).erase t

theorem Scheduler.Inv.resume (h : s.Inv) (t : τ) :
    let s' := (rtThreadResume s t).1
    Keeps (· = t) s s' ∧ s'.suspendThread = fun w => (s.suspendThread w).erase t := by
  intro s'
  by_cases ht : s.stat t = .suspend
  · have hs' : s' = rtScheduleInsertThread (s.unlink t) t :=
      congrArg Prod.fst (if_neg (not_not.mpr ht))
    rw [hs']
    exact h.wake ht
  · have hs' : s' = s := congrArg Prod.fst (if_pos ht)
    rw [hs', h.erase_eq ht]
    exact ⟨Keeps.refl h, rfl⟩

def setError (error : Int) (th : RtThread) : RtThread := { th with error := error }

theorem Scheduler.Inv.setError (h : s.Inv) (t : τ) (error : Int) :
    (s.setThread t (setError error)).Inv :=
  h.setThread t (fun _ => rfl) (fun _ => rfl) fun _ => rfl

theorem Scheduler.Inv.timeout (h : s.Inv) {t : τ} (ht : s.stat t = .suspend) :
    let s' := threadTimeout s t
    Keeps (· = t) (s.setThread t (Kernel.setError (-rtEtimeout))) s' ∧
      s'.suspendThread = fun w => (s.suspendThread w).erase t :=
  (h.setError t (-rtEtimeout)).wake
    ((setThread_keeps s t t RtThread.stat (f := Kernel.setError (-rtEtimeout))
      fun _ => rfl).trans ht)

/-- A suspended thread is on no list until it is put on one. -/
theorem Scheduler.Inv.suspend {t : τ} (h : s.Inv) (ht : s.Runnable t) :
    let s' := (rtScheduleRemoveThread s t).setStat t .suspend
    Keeps W s s' ∧ s'.suspendThread = s.suspendThread := by
  intro s'
  have hne : s.stat t ≠ .suspend := fun hs => ht.elim (fun hr => nomatch hs.symm.trans hr)
    fun hr => nomatch hs.symm.trans hr
  obtain ⟨hready, hlists⟩ := h.removed hne (v := .suspend) (by decide)
  have hself : s'.stat t = .suspend := stat_setStat_self _ _ _
  have hother : ∀ x, x ≠ t → s'.stat x = s.stat x := fun x hx => stat_setStat_ne _ _ hx
  have hkeep : Keeps (· = t) s s' := by
    refine h.moved hother hready (prio_setStat _ _ _) (saved_setStat _ _ _) rfl (fun w x hx => ?_)
      (fun w => ?_) (fun hr => nomatch hself.symm.trans hr) (fun _ => .inr hself)
      (hself ▸ by decide)
    · rw [hlists] at hx
      exact ⟨hx, fun _ => hself⟩
    · rw [hlists]
      exact h.nodup w
  refine ⟨⟨hkeep.inv, hkeep.prio, hkeep.saved, hkeep.unstarted, fun x _ hx => ?_, hkeep.started⟩,
    hlists⟩
  by_cases hxt : x = t
  · exact absurd (hxt ▸ hx) hne
  · exact (hother x hxt).trans hx

omit [DecidableEq τ] in
theorem perm_ipcInsert (prio : τ → Nat) (flag : IpcFlag) (list : List τ) (t : τ) :
    (ipcInsert prio flag list t).Perm (t :: list) := by
  cases flag with
  | fifo => exact List.perm_append_singleton t list
  | prio => exact perm_scanInsert ..

omit [DecidableEq τ] in
/-- A suspended thread is put on a list. -/
theorem Scheduler.Inv.enlist [DecidableEq ω] (h : s.Inv) {w : ω} {t : τ} {list : List τ}
    (ht : s.stat t = .suspend) (hout : ∀ w, t ∉ s.suspendThread w)
    (hlist : list.Perm (t :: s.suspendThread w)) :
    ({ s with suspendThread := Function.update s.suspendThread w list } : Scheduler τ ω).Inv := by
  have hmem : ∀ v x, x ∈ Function.update s.suspendThread w list v →
      x = t ∧ v = w ∨ x ≠ t ∧ x ∈ s.suspendThread v := by
    intro v x hx
    by_cases hv : v = w
    · subst hv
      rw [Function.update_self, hlist.mem_iff, List.mem_cons] at hx
      obtain rfl | hx := hx
      · exact .inl ⟨rfl, rfl⟩
      · exact .inr ⟨fun heq => hout v (heq ▸ hx), hx⟩
    · rw [Function.update_of_ne hv] at hx
      exact .inr ⟨fun heq => hout v (heq ▸ hx), hx⟩
  refine ⟨h.ready, h.prioBound, h.initBound, h.running, h.current, fun v x hx => ?_, fun v => ?_,
    fun v v' x hx hx' => ?_⟩
  · obtain ⟨rfl, -⟩ | ⟨-, hx⟩ := hmem v x hx
    · exact ht
    · exact h.waiting v x hx
  · dsimp only
    by_cases hv : v = w
    · subst hv
      rw [Function.update_self, hlist.nodup_iff]
      exact List.nodup_cons.mpr ⟨hout v, h.nodup v⟩
    · rw [Function.update_of_ne hv]
      exact h.nodup v
  · obtain ⟨hxt, hv⟩ | ⟨hxt, hv⟩ := hmem v x hx <;>
      obtain ⟨hxt', hv'⟩ | ⟨hxt', hv'⟩ := hmem v' x hx'
    · rw [hv, hv']
    · exact absurd hxt hxt'
    · exact absurd hxt' hxt
    · exact h.apart v v' x hv hv'

theorem rtThreadSuspend_eq {t : τ} (ht : s.Runnable t) :
    (rtThreadSuspend s t).1 = (rtScheduleRemoveThread s t).setStat t .suspend := by
  unfold rtThreadSuspend
  rw [if_neg fun hn => ht.elim hn.1 hn.2]

theorem Scheduler.Inv.ipcSuspend [DecidableEq ω] (h : s.Inv) (w : ω) {t : τ} (ht : s.Runnable t)
    (flag : IpcFlag) :
    let s' := ipcListSuspend s w t flag
    Keeps W s s' ∧ s'.suspendThread =
      Function.update s.suspendThread w (ipcInsert s.prio flag (s.suspendThread w) t) := by
  obtain ⟨hkeep, hlists⟩ := h.suspend (W := W) ht
  have hout : ∀ w, t ∉ s.suspendThread w := fun w hmem =>
    ht.elim (fun hr => nomatch (h.waiting w t hmem).symm.trans hr)
      fun hr => nomatch (h.waiting w t hmem).symm.trans hr
  have hself : ((rtScheduleRemoveThread s t).setStat t .suspend).stat t = .suspend :=
    stat_setStat_self _ _ _
  unfold ipcListSuspend
  rw [rtThreadSuspend_eq ht]
  generalize (rtScheduleRemoveThread s t).setStat t .suspend = s₁ at *
  dsimp only
  rw [← hlists] at hout ⊢
  rw [← hkeep.prio]
  have hput := hkeep.inv.enlist hself hout (perm_ipcInsert s₁.prio flag (s₁.suspendThread w) t)
  exact ⟨⟨hput, hkeep.prio, hkeep.saved, hkeep.unstarted, hkeep.asleep, hkeep.started⟩, rfl⟩

def setPriority (p : Nat) (th : RtThread) : RtThread := { th with currentPriority := p }

theorem stat_setPriority (s : Scheduler τ ω) (t : τ) (p : Nat) :
    (s.setThread t (setPriority p)).stat = s.stat :=
  funext fun x => setThread_keeps s t x RtThread.stat fun _ => rfl

theorem saved_setPriority (s : Scheduler τ ω) (t : τ) (p : Nat) :
    (s.setThread t (setPriority p)).saved = s.saved :=
  funext fun x => setThread_keeps s t x (fun th => (th.initPriority, th.error)) fun _ => rfl

theorem prio_setPriority (s : Scheduler τ ω) (t : τ) (p : Nat) :
    (s.setThread t (setPriority p)).prio = Function.update s.prio t p := by
  funext x
  by_cases hx : x = t
  · subst hx
    rw [Function.update_self]
    exact congrArg RtThread.currentPriority (setThread_self s x (setPriority p))
  · rw [Function.update_of_ne hx]
    exact congrArg RtThread.currentPriority (setThread_ne s (setPriority p) hx)

theorem update_bound {t : τ} {p : Nat} (h : ∀ t, s.prio t < rtThreadPriorityMax)
    (hp : p < rtThreadPriorityMax) (x : τ) :
    Function.update s.prio t p x < rtThreadPriorityMax := by
  by_cases hx : x = t
  · rw [hx, Function.update_self]
    exact hp
  · rw [Function.update_of_ne hx]
    exact h x

/-- Only the priority changes, and a ready thread moves to the queue of the new one. -/
theorem Scheduler.Inv.changePriority (h : s.Inv) (t : τ) {p : Nat} (hp : p < rtThreadPriorityMax) :
    let s' := rtThreadChangePriority s t p
    s'.Inv ∧ s'.stat = s.stat ∧ s'.prio = Function.update s.prio t p ∧
      s'.saved = s.saved ∧ s'.suspendThread = s.suspendThread ∧ s'.current = s.current := by
  intro s'
  by_cases ht : s.stat t = .ready
  · have hcur : s.current ≠ some t := fun hc =>
      (h.current t hc).elim (fun hr => nomatch ht.symm.trans hr) fun hr => nomatch ht.symm.trans hr
    have hs' : s' = { ((rtScheduleRemoveThread s t).setThread t
        (setPriority p)).setStat t .ready with ready := (s.ready.drop (s.prio t) t).push p t } := by
      change rtThreadChangePriority s t p = _
      unfold rtThreadChangePriority rtScheduleInsertThread
      rw [if_pos ht]
      change (if s.current = some t then _ else _) = _
      rw [if_neg hcur]
      have hkey : (((rtScheduleRemoveThread s t).setThread t
          (setPriority p)).setStat t .ready).prio t = p := by
        rw [prio_setStat, prio_setPriority, Function.update_self]
      exact congrArg (fun q => ({ ((rtScheduleRemoveThread s t).setThread t
        (setPriority p)).setStat t .ready with
          ready := (s.ready.drop (s.prio t) t).push q t } : Scheduler τ ω)) hkey
    have hprio : s'.prio = Function.update s.prio t p := by
      rw [hs']
      exact (prio_setStat _ _ _).trans (prio_setPriority _ _ _)
    have hstat : s'.stat = s.stat := by
      rw [hs']
      funext x
      by_cases hx : x = t
      · rw [hx, ht]
        exact stat_setStat_self _ _ _
      · exact (stat_setStat_ne _ _ hx).trans (congrFun (stat_setPriority _ _ _) x)
    have hsaved : s'.saved = s.saved := by
      rw [hs']
      exact (saved_setStat _ _ _).trans (saved_setPriority _ _ _)
    have hlists : s'.suspendThread = s.suspendThread := by
      rw [hs']
      exact h.erase_eq (ht ▸ by decide)
    have hready : s'.ready.Holds (fun x => s.stat x = .ready) s'.prio := by
      have hdrop : (s.ready.drop (s.prio t) t).Holds (fun x => s.stat x = .ready ∧ x ≠ t) s'.prio :=
        h.ready.drop.congr (fun _ => Iff.rfl) fun x hx => by
          rw [hprio, Function.update_of_ne hx.2]
      have hkey : s'.prio t = p := by rw [hprio, Function.update_self]
      have hpush := hdrop.push (t := t) (fun hn => hn.2 rfl) (hkey ▸ hp)
      rw [hkey] at hpush
      have heq : s'.ready = (s.ready.drop (s.prio t) t).push p t := by rw [hs']
      rw [heq]
      refine hpush.congr (fun x => ?_) fun _ _ => rfl
      by_cases hx : x = t
      · simp [hx, ht]
      · simp [hx]
    have hcur' : s'.current = s.current := by
      rw [hs']
      rfl
    refine ⟨h.same hready ?_ (initPrio_of_saved hsaved) hstat hlists hcur', hstat, hprio, hsaved,
      hlists, hcur'⟩
    rw [hprio]
    exact update_bound h.prioBound hp
  · have hs' : s' = s.setThread t (setPriority p) := if_neg ht
    rw [hs', stat_setPriority, prio_setPriority, saved_setPriority]
    refine ⟨h.same ?_ ?_ (initPrio_of_saved (saved_setPriority s t p)) (stat_setPriority s t p) rfl
      rfl, rfl, rfl, rfl, rfl, rfl⟩
    · rw [prio_setPriority]
      refine h.ready.congr (fun _ => Iff.rfl) fun x hx => Function.update_of_ne (fun heq => ?_) ..
      exact ht (heq ▸ hx)
    · rw [prio_setPriority]
      exact update_bound h.prioBound hp

/-- A thread starts: it was on no list. -/
theorem Scheduler.Inv.begin (h : s.Inv) {t : τ} (ht : s.stat t = .init) :
    (s.setThread t RtThread.begin).Inv := by
  have hself : (s.setThread t RtThread.begin).thread t = (s.thread t).begin := setThread_self s t _
  have hother : ∀ x, x ≠ t → (s.setThread t RtThread.begin).thread x = s.thread x :=
    fun x hx => setThread_ne s _ hx
  have hstat : ∀ x, x ≠ t → (s.setThread t RtThread.begin).stat x = s.stat x :=
    fun x hx => congrArg RtThread.stat (hother x hx)
  have hout : ∀ v x, v ≠ .init → s.stat x = v → x ≠ t := fun v x hv hx heq =>
    hv (hx.symm.trans (heq ▸ ht))
  refine ⟨?_, fun x => ?_, fun x => ?_, fun x hx => ?_, fun x hx => ?_, fun w x hx => ?_, h.nodup,
    h.apart⟩
  · refine h.ready.congr (fun x => ?_) fun x hx => ?_
    · by_cases hxt : x = t
      · rw [hxt, ht, Scheduler.stat, hself]
        exact ⟨(nomatch ·), (nomatch ·)⟩
      · rw [hstat x hxt]
    · refine congrArg RtThread.currentPriority (hother x fun hxt => ?_)
      rw [hxt, Scheduler.stat, hself] at hx
      exact nomatch hx
  · by_cases hxt : x = t
    · rw [hxt, Scheduler.prio, hself]
      exact h.initBound t
    · rw [Scheduler.prio, hother x hxt]
      exact h.prioBound x
  · by_cases hxt : x = t
    · rw [hxt, Scheduler.initPrio, hself]
      exact h.initBound t
    · rw [Scheduler.initPrio, hother x hxt]
      exact h.initBound x
  · by_cases hxt : x = t
    · rw [hxt, Scheduler.stat, hself] at hx
      exact nomatch hx
    · exact h.running x ((hstat x hxt).symm.trans hx)
  · have hcur := h.current x hx
    have hxt : x ≠ t := hcur.elim (hout .running x (by decide)) (hout .suspend x (by decide))
    rw [hstat x hxt]
    exact hcur
  · have hwait := h.waiting w x hx
    rw [hstat x (hout .suspend x (by decide) hwait)]
    exact hwait

/-- A thread starts with its initial priority, and may run at once. -/
theorem Scheduler.Inv.startup (h : s.Inv) {t : τ} (ht : s.stat t = .init) :
    let s' := rtThreadStartup s t
    Keeps (· = t) (s.setThread t RtThread.begin) s' ∧
      s'.suspendThread = fun w => (s.suspendThread w).erase t := by
  obtain ⟨hkeep, hlists⟩ := (h.begin ht).resume t
  unfold rtThreadStartup
  dsimp only
  split
  · obtain ⟨hsched, -⟩ := schedule_spec hkeep.inv
    exact ⟨hkeep.trans hsched.keeps, hsched.lists.trans hlists⟩
  · exact ⟨hkeep, hlists⟩

omit [DecidableEq τ] in
theorem runnable_of_not {t : τ} (h : ¬ (s.stat t ≠ .ready ∧ s.stat t ≠ .running)) : s.Runnable t :=
  (not_and_or.mp h).imp not_not.mp not_not.mp

omit [DecidableEq τ] in
theorem Scheduler.Inv.lock (h : s.Inv) (n : Nat) : ({ s with lockNest := n } : Scheduler τ ω).Inv :=
  ⟨h.ready, h.prioBound, h.initBound, h.running, h.current, h.waiting, h.nodup, h.apart⟩

theorem Scheduler.Inv.schedule (h : s.Inv) :
    Keeps W s (rtSchedule s) ∧ (rtSchedule s).suspendThread = s.suspendThread :=
  ⟨(schedule_spec h).1.keeps, (schedule_spec h).1.lists⟩

/-- Time slices matter to no list and no priority. -/
theorem Scheduler.Inv.slice (h : s.Inv) (c : τ) {f : RtThread → RtThread}
    (hf : ∀ th, (f th).stat = th.stat ∧ (f th).currentPriority = th.currentPriority ∧
      (f th).initPriority = th.initPriority ∧ (f th).error = th.error) :
    Keeps W s (s.setThread c f) :=
  ⟨h.setThread c (fun th => (hf th).1) (fun th => (hf th).2.1) fun th => (hf th).2.2.1,
    funext fun x => setThread_keeps s c x RtThread.currentPriority fun th => (hf th).2.1,
    funext fun x => setThread_keeps s c x (fun th => (th.initPriority, th.error)) fun th =>
      Prod.ext (hf th).2.2.1 (hf th).2.2.2,
    fun x hx => (setThread_keeps s c x RtThread.stat fun th => (hf th).1).symm.trans hx,
    fun x _ hx => (setThread_keeps s c x RtThread.stat fun th => (hf th).1).trans hx, id⟩

theorem Scheduler.Inv.nextSlice (h : s.Inv) (c : τ) :
    Keeps W s (s.setThread c RtThread.nextSlice) :=
  h.slice c fun _ => ⟨rfl, rfl, rfl, rfl⟩

theorem Scheduler.Inv.yield (h : s.Inv) :
    Keeps W s (rtThreadYield s) ∧ (rtThreadYield s).suspendThread = s.suspendThread := by
  unfold rtThreadYield
  split
  next c _ =>
    have hnext := h.nextSlice (W := W) c
    obtain ⟨hsched, hlists⟩ := hnext.inv.schedule (W := W)
    exact ⟨hnext.trans hsched, hlists⟩
  next => exact ⟨Keeps.refl h, rfl⟩

theorem Scheduler.Inv.tick (h : s.Inv) :
    Keeps W s (rtTickIncrease s) ∧ (rtTickIncrease s).suspendThread = s.suspendThread := by
  unfold rtTickIncrease
  split
  next c _ =>
    have hdec : Keeps W s (s.setThread c fun th =>
        { th with remainingTick := th.remainingTick - 1 }) :=
      h.slice c fun _ => ⟨rfl, rfl, rfl, rfl⟩
    dsimp only
    split
    · have hnext := hdec.trans (hdec.inv.nextSlice c)
      obtain ⟨hsched, hlists⟩ := hnext.inv.schedule (W := W)
      exact ⟨hnext.trans hsched, hlists⟩
    · exact ⟨hdec, rfl⟩
  next => exact ⟨Keeps.refl h, rfl⟩

theorem Scheduler.Inv.exitCritical (h : s.Inv) :
    Keeps W s (rtExitCritical s) ∧ (rtExitCritical s).suspendThread = s.suspendThread := by
  have hlock : Keeps W s { s with lockNest := s.lockNest - 1 } :=
    ⟨h.lock _, rfl, rfl, fun _ => id, fun _ _ => id, id⟩
  unfold rtExitCritical
  dsimp only
  split
  · obtain ⟨hsched, hlists⟩ := hlock.inv.schedule (W := W)
    exact ⟨hlock.trans hsched, hlists⟩
  · exact ⟨hlock, rfl⟩

theorem Scheduler.Inv.ipcResume (h : s.Inv) (w : ω) :
    Keeps (· ∈ s.suspendThread w) s (ipcListResume s w) := by
  unfold ipcListResume
  split
  next t ts heq =>
    obtain ⟨hkeep, -⟩ := h.resume t
    exact ⟨hkeep.inv, hkeep.prio, hkeep.saved, hkeep.unstarted,
      fun x hx => hkeep.asleep x fun hxt => hx (hxt ▸ heq ▸ List.mem_cons_self), hkeep.started⟩
  next => exact Keeps.refl h

/-- The first thread. -/
theorem Scheduler.Inv.start (h : s.Inv) (hc : s.current = none) (hg : s.ready.group ≠ 0) :
    Keeps W s (rtSystemSchedulerStart s) ∧
      (rtSystemSchedulerStart s).suspendThread = s.suspendThread := by
  obtain ⟨highest, hlow⟩ := lowest_ne_none hg
  obtain ⟨⟨head, rest, hq, hhead, -⟩, -⟩ := h.ready.lowest_some hlow
  unfold rtSystemSchedulerStart
  rw [highest_eq hlow hq]
  dsimp only
  generalize hs' : (rtScheduleRemoveThread { s with current := some head } head).setThread head
    RtThread.first = s'
  have hself : s'.thread head = (s.thread head).first := by
    rw [← hs']
    exact setThread_self _ head _
  have hother : ∀ x, x ≠ head → s'.thread x = s.thread x := fun x hx => by
    rw [← hs']
    exact setThread_ne _ _ hx
  have hlists : s'.suspendThread = s.suspendThread := by
    rw [← hs']
    exact h.erase_eq (hhead ▸ by decide)
  have hready : s'.ready = s.ready.drop (s.prio head) head := by
    rw [← hs']
    rfl
  have hcur : s'.current = some head := by
    rw [← hs']
    rfl
  have hstat : ∀ x, x ≠ head → s'.stat x = s.stat x := fun x hx =>
    congrArg RtThread.stat (hother x hx)
  have hprio : s'.prio = s.prio := funext fun x => by
    by_cases hx : x = head
    · rw [hx, Scheduler.prio, hself]
      rfl
    · exact congrArg RtThread.currentPriority (hother x hx)
  have hsaved : s'.saved = s.saved := funext fun x => by
    by_cases hx : x = head
    · rw [hx, Scheduler.saved, Scheduler.initPrio, hself]
      rfl
    · exact congrArg (fun th => (th.initPriority, th.error)) (hother x hx)
  refine ⟨⟨⟨?_, ?_, ?_, fun x hx => ?_, fun x hx => ?_, fun w x hx => ?_, ?_, ?_⟩, hprio, hsaved,
    fun x hx => ?_, fun x _ hx => ?_, fun hs => ?_⟩, hlists⟩
  · rw [hready, hprio]
    refine h.ready.drop.congr (fun x => ?_) fun _ _ => rfl
    by_cases hx : x = head
    · rw [hx, Scheduler.stat, hself]
      simp [RtThread.first]
    · rw [hstat x hx]
      exact (and_iff_left hx).symm
  · rw [hprio]
    exact h.prioBound
  · rw [initPrio_of_saved hsaved]
    exact h.initBound
  · by_cases hxh : x = head
    · rw [hxh]
      exact hcur
    · exact nomatch hc.symm.trans (h.running x ((hstat x hxh).symm.trans hx))
  · rw [← Option.some.inj (hcur.symm.trans hx), Scheduler.stat, hself]
    exact .inl rfl
  · rw [hlists] at hx
    have hwait := h.waiting w x hx
    have hxh : x ≠ head := fun heq => by
      rw [heq, hhead] at hwait
      exact nomatch hwait
    rw [hstat x hxh]
    exact hwait
  · rw [hlists]
    exact h.nodup
  · rw [hlists]
    exact h.apart
  · by_cases hxh : x = head
    · rw [hxh, Scheduler.stat, hself] at hx
      exact nomatch hx
    · exact (hstat x hxh).symm.trans hx
  · have hxh : x ≠ head := fun heq => by
      rw [heq, hhead] at hx
      exact nomatch hx
    exact (hstat x hxh).trans hx
  · rw [hcur]
    rfl

/-! ## Runs -/

/-- What threads and interrupts can do, each with interrupts disabled. -/
inductive SchedAct (τ ω : Type) where
  | startup (t : τ)
  | start
  | schedule
  | yield
  | tick
  | suspend (t : τ)
  | resume (t : τ)
  | timeout (t : τ)
  | changePriority (t : τ) (priority : Nat)
  | enterCritical
  | exitCritical
  | ipcSuspend (w : ω) (flag : IpcFlag)
  | ipcResume (w : ω)

/-- That a thread to be started is in its first state, and one that times out suspended, are asserts
    of the code. That there is a thread to start with, that a new priority is below
    RT_THREAD_PRIORITY_MAX and that the thread put on a list is running are left to the callers. -/
def schedStep [DecidableEq ω] (s : Scheduler τ ω) : SchedAct τ ω → Option (Scheduler τ ω)
  | .startup t => if s.stat t = .init then some (rtThreadStartup s t) else none
  | .start =>
    if s.current = none ∧ s.ready.group ≠ 0 then some (rtSystemSchedulerStart s) else none
  | .schedule => some (rtSchedule s)
  | .yield => some (rtThreadYield s)
  | .tick => some (rtTickIncrease s)
  | .suspend t => some (rtThreadSuspend s t).1
  | .resume t => some (rtThreadResume s t).1
  | .timeout t => if s.stat t = .suspend then some (threadTimeout s t) else none
  | .changePriority t priority =>
    if priority < rtThreadPriorityMax then some (rtThreadChangePriority s t priority) else none
  | .enterCritical => some (rtEnterCritical s)
  | .exitCritical => some (rtExitCritical s)
  | .ipcSuspend w flag =>
    match s.current with
    | some c => if s.stat c = .running then some (ipcListSuspend s w c flag) else none
    | none => none
  | .ipcResume w => some (ipcListResume s w)

/-- Before `rt_system_scheduler_start`: the threads are initialized, and none has started. -/
def Scheduler.boot (priority : τ → Nat) (slice : τ → BitVec 32) : Scheduler τ ω where
  thread t := ⟨.init, false, priority t, priority t, slice t, slice t, rtEok⟩
  ready := .empty
  current := none
  lockNest := 0
  suspendThread _ := []

omit [DecidableEq τ] in
theorem inv_boot {priority : τ → Nat} (slice : τ → BitVec 32)
    (h : ∀ t, priority t < rtThreadPriorityMax) :
    (Scheduler.boot priority slice : Scheduler τ ω).Inv where
  ready := Buckets.holds_empty fun _ => (nomatch ·)
  prioBound := h
  initBound := h
  running _ hx := nomatch hx
  current _ hx := nomatch hx
  waiting _ _ hx := nomatch hx
  nodup _ := List.nodup_nil
  apart _ _ _ hx := nomatch hx

theorem inv_schedStep [DecidableEq ω] (s : Scheduler τ ω) (a : SchedAct τ ω) (s' : Scheduler τ ω)
    (h : s.Inv) (hstep : schedStep s a = some s') : s'.Inv := by
  cases a with
  | startup t =>
    obtain ⟨ht, ⟨⟩⟩ := Option.ite_none_right_eq_some.mp hstep
    exact (h.startup ht).1.inv
  | start =>
    obtain ⟨⟨hc, hg⟩, ⟨⟩⟩ := Option.ite_none_right_eq_some.mp hstep
    exact (h.start (W := fun _ => False) hc hg).1.inv
  | schedule =>
    cases hstep
    exact (schedule_spec h).1.inv
  | yield =>
    cases hstep
    exact (h.yield (W := fun _ => False)).1.inv
  | tick =>
    cases hstep
    exact (h.tick (W := fun _ => False)).1.inv
  | suspend t =>
    cases hstep
    unfold rtThreadSuspend
    split
    · exact h
    next ht => exact (h.suspend (W := fun _ => False) (runnable_of_not ht)).1.inv
  | resume t =>
    cases hstep
    exact (h.resume t).1.inv
  | timeout t =>
    obtain ⟨ht, ⟨⟩⟩ := Option.ite_none_right_eq_some.mp hstep
    exact (h.timeout ht).1.inv
  | changePriority t priority =>
    obtain ⟨hp, ⟨⟩⟩ := Option.ite_none_right_eq_some.mp hstep
    exact (h.changePriority t hp).1
  | enterCritical =>
    cases hstep
    exact h.lock _
  | exitCritical =>
    cases hstep
    exact (h.exitCritical (W := fun _ => False)).1.inv
  | ipcSuspend w flag =>
    unfold schedStep at hstep
    dsimp only at hstep
    split at hstep
    next c _ =>
      obtain ⟨hrun, ⟨⟩⟩ := Option.ite_none_right_eq_some.mp hstep
      exact (h.ipcSuspend (W := fun _ => False) w (.inr hrun) flag).1.inv
    next => exact nomatch hstep
  | ipcResume w =>
    cases hstep
    exact (h.ipcResume w).inv

/-- For any number of threads and lists, priorities below RT_THREAD_PRIORITY_MAX and every
    interleaving of calls and interrupts: the ready table holds the ready threads by their
    priorities, its bitmap says which queues are not empty, and after an `rt_schedule` that is not
    locked out the current thread runs if any thread can, none that is ready has a higher
    priority, and no thread was lost. -/
theorem scheduler_run [DecidableEq ω] {priority : τ → Nat} (slice : τ → BitVec 32)
    (hprio : ∀ t, priority t < rtThreadPriorityMax) {s : Scheduler τ ω}
    (h : Reach schedStep Free (.boot priority slice) s) :
    (∀ p t, t ∈ s.ready.queue p ↔ s.stat t = .ready ∧ s.prio t = p) ∧
      (∀ p, s.ready.group.getLsbD p = !(s.ready.queue p).isEmpty) ∧
      (∀ t, s.stat t = .running → s.current = some t) ∧
      (∀ t, (rtSchedule s).Runnable t ↔ s.Runnable t) ∧
      (s.lockNest = 0 → (rtSchedule s).Settled) := by
  have hinv : s.Inv := h.invariant Scheduler.Inv (inv_boot slice hprio)
    fun s a s' hs _ hstep => inv_schedStep s a s' hs hstep
  obtain ⟨hkeep, hset⟩ := schedule_spec hinv
  exact ⟨hinv.ready.mem, hinv.ready.group, hinv.running, hkeep.runnable, hset⟩

/-- Two threads; the one of the higher priority is suspended, and comes back in an interrupt. -/
theorem scheduler_run_two : ∃ s : Scheduler (Fin 2) Unit,
    (s.current = some 0 ∧ s.stat 1 = .ready) ∧
      (∀ p t, t ∈ s.ready.queue p ↔ s.stat t = .ready ∧ s.prio t = p) ∧
      (∀ p, s.ready.group.getLsbD p = !(s.ready.queue p).isEmpty) ∧
      (∀ t, s.stat t = .running → s.current = some t) ∧
      (∀ t, (rtSchedule s).Runnable t ↔ s.Runnable t) ∧
      (s.lockNest = 0 → (rtSchedule s).Settled) := by
  have hrun : ∃ s : Scheduler (Fin 2) Unit,
      exec (guarded schedStep Free) (.boot (fun t : Fin 2 => 10 + t) fun _ => 5)
        [.startup 1, .start, .startup 0, .suspend 0, .schedule, .resume 0, .schedule] = some s ∧
      s.current = some 0 ∧ s.stat 1 = .ready := ⟨_, rfl, by decide, by decide⟩
  obtain ⟨s, hs, hstate⟩ := hrun
  have hreach : Reach schedStep Free (.boot (fun t : Fin 2 => 10 + t) fun _ => 5) s :=
    reach_of_exec .start hs
  exact ⟨s, hstate, scheduler_run _ (by decide) hreach⟩

/-! ## Taking turns -/

/-- The current thread and those behind it in its queue. -/
def Scheduler.line (s : Scheduler τ ω) (p : Nat) : List τ :=
  s.current.toList ++ s.ready.queue p

/-- The current thread runs, unlocked, and no ready thread has a higher priority than `p`, its
    own. -/
structure Scheduler.OnTop (s : Scheduler τ ω) (p : Nat) : Prop where
  inv : s.Inv
  unlocked : s.lockNest = 0
  current : ∃ c, s.current = some c ∧ s.stat c = .running ∧ s.prio c = p
  top : ∀ t, s.stat t = .ready → p ≤ s.prio t

omit [DecidableEq τ] in
theorem line_eq {c : τ} (hc : s.current = some c) (p : Nat) : s.line p = c :: s.ready.queue p := by
  rw [Scheduler.line, hc]
  rfl

/-- `rt_schedule` of a current thread whose slice is over. -/
theorem schedule_marked {c : τ} {p : Nat} (h : s.OnTop p) (hc : s.current = some c)
    (hmark : (s.thread c).yield = true) :
    (rtSchedule s).OnTop p ∧ (rtSchedule s).line p = (s.line p).rotate 1 := by
  obtain ⟨c', hc', hrun, hp⟩ := h.current
  obtain rfl := Option.some.inj (hc.symm.trans hc')
  by_cases hg : s.ready.group = 0
  · have hsame : rtSchedule s = s := if_neg fun hgo => hgo.2 hg
    have hempty : s.ready.queue p = [] := List.eq_nil_iff_forall_not_mem.mpr fun x hx =>
      h.inv.ready.empty_of_zero hg x ((h.inv.ready.mem p x).mp hx).1
    rw [hsame, line_eq hc, hempty, List.rotate_singleton]
    exact ⟨h, rfl⟩
  obtain ⟨highest, hlow⟩ := lowest_ne_none hg
  obtain ⟨⟨head, rest, hq, hhead, hkey⟩, hmin⟩ := h.inv.ready.lowest_some hlow
  obtain ⟨hinv, ⟨-, hstay, hkept⟩ | ⟨-, hstay, hsw⟩ | ⟨hsus, -⟩⟩ :=
    schedule_cases h.inv h.unlocked hc hlow hq hhead
  · -- its queue is empty: the ready threads all have lower priorities
    have hlt : s.prio c < highest := hstay.resolve_right fun he => by
      rw [hmark] at he
      exact nomatch he.2
    have hempty : s.ready.queue p = [] := List.eq_nil_iff_forall_not_mem.mpr fun x hx => by
      obtain ⟨hr, hx⟩ := (h.inv.ready.mem p x).mp hx
      exact absurd (hmin x hr) (by omega)
    have hcur : (rtSchedule s).current = some c := hkept.current.trans hc
    refine ⟨⟨hinv, hkept.lock.trans h.unlocked, ⟨c, hcur, ?_⟩, ?_⟩, ?_⟩
    · rw [hkept.stat, hkept.prio]
      exact ⟨hrun, hp⟩
    · rw [hkept.stat, hkept.prio]
      exact h.top
    · rw [line_eq hcur, line_eq hc, hkept.ready, Buckets.queue_drop, hempty, List.rotate_singleton]
      rfl
  · have heq : highest = p := by
      have hge := h.top head hhead
      have hle : ¬ s.prio c < highest := fun hlt => hstay (.inl hlt)
      omega
    subst heq
    have hqueue : (rtSchedule s).ready.queue highest = rest ++ [c] := by
      rw [hsw.ready, if_pos rfl, Buckets.queue_drop]
      change (Function.update s.ready.queue (s.prio c) _ highest).erase head = _
      rw [hp, Function.update_self, hq, List.cons_append, List.erase_cons_head]
    refine ⟨⟨hinv, hsw.lock.trans h.unlocked, ⟨head, hsw.current, hsw.runs, ?_⟩, fun t ht => ?_⟩,
      ?_⟩
    · rw [hsw.prio, hkey]
    · rw [hsw.prio]
      by_cases htc : t = c
      · rw [htc, hp]
      by_cases hth : t = head
      · rw [hth, hkey]
      · exact h.top t ((hsw.other t hth htc).symm.trans ht)
    · rw [line_eq hsw.current, line_eq hc, hqueue, hq, List.rotate_cons_succ, List.rotate_zero]
      rfl
  · exact nomatch hrun.symm.trans hsus

theorem Scheduler.OnTop.yield {p : Nat} (h : s.OnTop p) :
    (rtThreadYield s).OnTop p ∧ (rtThreadYield s).line p = (s.line p).rotate 1 := by
  obtain ⟨c, hc, hrun, hp⟩ := h.current
  have hstat : (s.setThread c RtThread.nextSlice).stat = s.stat :=
    funext fun x => setThread_keeps s c x RtThread.stat fun _ => rfl
  have hprio : (s.setThread c RtThread.nextSlice).prio = s.prio :=
    funext fun x => setThread_keeps s c x RtThread.currentPriority fun _ => rfl
  have htop : (s.setThread c RtThread.nextSlice).OnTop p := by
    refine ⟨(h.inv.nextSlice (W := fun _ => False) c).inv, h.unlocked, ⟨c, hc, ?_⟩, ?_⟩
    · rw [hstat, hprio]
      exact ⟨hrun, hp⟩
    · rw [hstat, hprio]
      exact h.top
  have hmark : ((s.setThread c RtThread.nextSlice).thread c).yield = true :=
    congrArg RtThread.yield (setThread_self s c RtThread.nextSlice)
  have hyield : rtThreadYield s = rtSchedule (s.setThread c RtThread.nextSlice) := by
    unfold rtThreadYield
    rw [hc]
  rw [hyield]
  exact schedule_marked htop hc hmark

/-- Threads of the highest priority that only yield take turns: after `n` yields, from any state
    of any run with the scheduler unlocked, the line of them is rotated by `n`, so each runs again
    after as many yields as there are threads in it. -/
theorem yield_rotates [DecidableEq ω] {priority : τ → Nat} (slice : τ → BitVec 32)
    (hprio : ∀ t, priority t < rtThreadPriorityMax) {s : Scheduler τ ω}
    (h : Reach schedStep Free (.boot priority slice) s) {c : τ} (hc : s.current = some c)
    (hrun : s.stat c = .running) (hlock : s.lockNest = 0)
    (htop : ∀ t, s.stat t = .ready → s.prio c ≤ s.prio t) (n : Nat) :
    (rtThreadYield^[n] s).line (s.prio c) = (s.line (s.prio c)).rotate n := by
  have hinv : s.Inv := h.invariant Scheduler.Inv (inv_boot slice hprio)
    fun s a s' hs _ hstep => inv_schedStep s a s' hs hstep
  have hyields : ∀ (s : Scheduler τ ω) (p : Nat), s.OnTop p →
      (rtThreadYield^[n] s).line p = (s.line p).rotate n := by
    induction n with
    | zero => exact fun s p _ => (List.rotate_zero _).symm
    | succ n ih =>
      intro s p htop
      obtain ⟨hnext, hline⟩ := htop.yield
      rw [Function.iterate_succ_apply, ih _ p hnext, hline, List.rotate_rotate, Nat.add_comm]
  exact hyields s (s.prio c) ⟨hinv, hlock, ⟨c, hc, hrun, rfl⟩, htop⟩

/-- Three threads of one priority. -/
theorem yield_rotates_three : ∃ s : Scheduler (Fin 3) Unit, s.line 10 = [0, 1, 2] ∧
    (rtThreadYield^[5] s).line 10 = [2, 0, 1] := by
  have hrun : ∃ s : Scheduler (Fin 3) Unit,
      exec (guarded schedStep Free) (.boot (fun _ => 10) fun _ => 5)
        [.startup 0, .startup 1, .startup 2, .start] = some s ∧
      s.current = some 0 ∧ s.stat 0 = .running ∧ s.lockNest = 0 ∧ (∀ t, s.prio t = 10) ∧
      s.line 10 = [0, 1, 2] :=
    ⟨_, rfl, by decide, by decide, by decide, by decide, by decide⟩
  obtain ⟨s, hs, hc, hrun, hlock, hten, hline⟩ := hrun
  have hturn := yield_rotates (fun _ => 5) (by decide) (reach_of_exec .start hs) hc hrun hlock
    (fun t _ => Nat.le_of_eq ((hten 0).trans (hten t).symm)) 5
  rw [hten 0, hline] at hturn
  exact ⟨s, hline, hturn⟩

end Live2dStm32.Kernel
