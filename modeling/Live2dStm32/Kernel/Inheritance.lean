import Live2dStm32.Kernel.Locks
import Live2dStm32.Lib.Inheritance
import Mathlib.Data.Fintype.Basic

/-
  Priority inheritance of the mutexes (ipc.c). `rt_mutex_release` gives the owner the priority
  back that it had when it took this mutex, whoever waits for its other mutexes, so inheritance
  works for threads that hold one mutex at a time.
-/

namespace Live2dStm32.Kernel

open Live2dStm32.Lib

namespace Locks

variable {τ σ μ : Type} [DecidableEq τ] [DecidableEq σ] [DecidableEq μ] {s s' : Locks τ σ μ}

def inheritance (s : Locks τ σ μ) : Inheritance τ μ Nat where
  owner m := (s.mutex m).owner
  base := s.ipc.sched.initPrio
  prio := s.ipc.sched.prio
  queue m := s.ipc.list (.inr m)

/-- Threads take a mutex while they own no other one, and nobody else changes priorities. -/
def OneAtATime (s : Locks τ σ μ) : Act τ σ μ → Prop
  | .mutexTake m _ => ∀ c, s.ipc.caller = some c → ∀ k, (s.mutex k).owner = some c → k = m
  | .outside (.changePriority _ _) => False
  | _ => True

instance [Fintype τ] [Fintype μ] : (a : Act τ σ μ) → Decidable (OneAtATime s a)
  | .mutexTake m _ => inferInstanceAs (Decidable
      (∀ c, s.ipc.caller = some c → ∀ k, (s.mutex k).owner = some c → k = m))
  | .outside (.changePriority _ _) => isFalse fun h => h
  | .outside (.startup _) | .outside .start | .outside .schedule | .outside .yield
  | .outside .tick | .outside (.suspend _) | .outside (.resume _) | .outside .delay
  | .outside .awake | .outside (.timeout _) | .outside .enterCritical | .outside .exitCritical
  | .semTake .. | .semRelease _ | .mutexRelease _ | .leave => isTrue trivial

/-- An owner has started, and its own priority is kept for it. -/
structure Inherits (s : Locks τ σ μ) : Prop where
  ok : s.inheritance.Ok
  original : ∀ m o, (s.mutex m).owner = some o →
    (s.mutex m).originalPriority = s.ipc.sched.initPrio o
  started : ∀ m o, (s.mutex m).owner = some o →
    s.ipc.sched.stat o ≠ .init ∧ s.ipc.sched.current.isSome = true

omit [DecidableEq τ] [DecidableEq σ] [DecidableEq μ] in
/-- Steps that leave the owners alone. -/
theorem Inherits.calm (h : Inherits s) (howner : ∀ m, (s'.mutex m).owner = (s.mutex m).owner)
    (horiginal : ∀ m, (s'.mutex m).originalPriority = (s.mutex m).originalPriority)
    (hlist : ∀ m, (s'.ipc.list (.inr m)).Sublist (s.ipc.list (.inr m)))
    (hcalm : Ipc.Undisturbed s.ipc.sched s'.ipc.sched) : Inherits s' := by
  have hstart : ∀ t, s.ipc.sched.stat t ≠ .init → s'.ipc.sched.prio t = s.ipc.sched.prio t :=
    fun t ht => (hcalm.prio t).resolve_right fun hi => ht hi.1
  refine ⟨h.ok.quiet (funext howner) hcalm.initPrio hlist
    (fun m o ho => hstart o (h.started m o ho).1) fun t ht => ?_, fun m o ho => ?_,
    fun m o ho => ?_⟩
  · obtain hp | ⟨-, hp⟩ := hcalm.prio t
    · exact hp.trans (h.ok.idle t ht)
    · exact hp
  · rw [howner] at ho
    rw [horiginal]
    exact (h.original m o ho).trans (congrFun hcalm.initPrio o).symm
  · rw [howner] at ho
    obtain ⟨hinit, hcur⟩ := h.started m o ho
    exact ⟨fun hi => hinit (hcalm.unstarted o hi), hcalm.started hcur⟩

omit [DecidableEq τ] [DecidableEq σ] in
/-- Steps that change one mutex. -/
theorem Inherits.update (h : Inherits s) (hok : s'.inheritance.Ok) {m : μ} {mutex : RtMutex τ}
    (hmutex : s'.mutex = Function.update s.mutex m mutex)
    (hcalm : s'.ipc.sched.initPrio = s.ipc.sched.initPrio ∧
      (∀ t, s'.ipc.sched.stat t = .init → s.ipc.sched.stat t = .init) ∧
      (s.ipc.sched.current.isSome = true → s'.ipc.sched.current.isSome = true))
    (hnew : ∀ o, mutex.owner = some o → mutex.originalPriority = s.ipc.sched.initPrio o ∧
      s.ipc.sched.stat o ≠ .init ∧ s.ipc.sched.current.isSome = true) : Inherits s' := by
  obtain ⟨hbase, hunstarted, hcurrent⟩ := hcalm
  have hcases : ∀ k o, (s'.mutex k).owner = some o →
      (s'.mutex k).originalPriority = s.ipc.sched.initPrio o ∧
        s.ipc.sched.stat o ≠ .init ∧ s.ipc.sched.current.isSome = true := by
    intro k o ho
    rw [hmutex] at ho ⊢
    by_cases hkm : k = m
    · rw [hkm, Function.update_self] at ho ⊢
      exact hnew o ho
    · rw [Function.update_of_ne hkm] at ho ⊢
      exact ⟨h.original k o ho, h.started k o ho⟩
  refine ⟨hok, fun k o ho => ?_, fun k o ho => ?_⟩
  · rw [hbase]
    exact (hcases k o ho).1
  · obtain ⟨-, hinit, hstarted⟩ := hcases k o ho
    exact ⟨fun hi => hinit (hunstarted o hi), hcurrent hstarted⟩

omit [DecidableEq τ] [DecidableEq σ] in
theorem owner_setMutex (s : Locks τ σ μ) (m : μ) (mutex : RtMutex τ) :
    (s.setMutex m mutex).inheritance.owner =
      Function.update s.inheritance.owner m mutex.owner :=
  funext fun k => Function.apply_update (fun _ => RtMutex.owner) s.mutex m mutex k

omit [DecidableEq τ] in
theorem sorted_ipcInsert {prio : τ → Nat} {list : List τ} (h : list.Pairwise (prio · ≤ prio ·))
    (t : τ) : (ipcInsert prio .prio list t).Pairwise (prio · ≤ prio ·) :=
  pairwise_scanInsert h (fun _ _ hx => Nat.le_of_not_lt (of_decide_eq_false hx))
    (fun _ _ hx => Nat.le_of_lt (of_decide_eq_true hx)) fun _ _ _ _ => Nat.le_trans

/-- What a change of one priority leaves alone. -/
structure Reprioritized (s s' : Locks τ σ μ) (t : τ) (p : Nat) : Prop where
  inv : s'.ipc.Inv
  caller : s'.ipc.caller = s.ipc.caller
  error : ∀ x, s'.ipc.error x = s.ipc.error x
  mutex : s'.mutex = s.mutex
  list : s'.ipc.list = s.ipc.list
  initPrio : s'.ipc.sched.initPrio = s.ipc.sched.initPrio
  stat : s'.ipc.sched.stat = s.ipc.sched.stat
  current : s'.ipc.sched.current = s.ipc.sched.current
  prio : s'.ipc.sched.prio = Function.update s.ipc.sched.prio t p

omit [DecidableEq σ] [DecidableEq μ] in
/-- RT_THREAD_CTRL_CHANGE_PRIORITY where it makes a difference. -/
theorem reprioritized (h : s.ipc.Inv) {t : τ} {p r : Nat} {Q : Prop} [Decidable Q]
    (hp : p < rtThreadPriorityMax) (hset : Q → p = r) (hskip : ¬ Q → s.ipc.sched.prio t = r) :
    Reprioritized s (if Q then s.setPriority t p else s) t r := by
  split
  next hQ =>
    obtain ⟨hinv, -, hcall, herror⟩ := Ipc.changePriority_frame h t hp
    obtain ⟨-, hstat, hprio, hsaved, hlists, hcur⟩ := h.sched.changePriority t hp
    exact ⟨hinv, hcall, herror, rfl, hlists, initPrio_of_saved hsaved, hstat, hcur,
      hprio.trans (congrArg _ (hset hQ))⟩
  next hQ =>
    refine ⟨h, rfl, fun _ => rfl, rfl, rfl, rfl, rfl, rfl, ?_⟩
    rw [← hskip hQ, Function.update_eq_self]

/-- Another thread owns the mutex. -/
theorem Inherits.wait (h : Inherits s) (hinv : s.ipc.Inv) {c o : τ} (hc : s.ipc.caller = some c)
    (herr : s.ipc.error c = rtEok) {m : μ} (ho : (s.mutex m).owner = some o)
    (hidle : s.inheritance.Idle c) (time : Int) :
    let s' := if s.ipc.sched.prio c < s.ipc.sched.prio o then
      s.setPriority o (s.ipc.sched.prio c) else s
    Inherits { s' with ipc := s'.ipc.block (.inr m) c .prio time } := by
  intro s'
  have hboost : Reprioritized s s' o (min (s.ipc.sched.prio o) (s.ipc.sched.prio c)) :=
    reprioritized hinv (hinv.sched.prioBound c) (fun hlt => (min_eq_right (Nat.le_of_lt hlt)).symm)
      fun hge => (min_eq_left (Nat.le_of_not_lt hge)).symm
  obtain ⟨hinv', hcall, herror, hmutex, hlist, hbase, hstat, hcur, hprio⟩ := hboost
  obtain ⟨hown, hqueue, -⟩ := Ipc.block_own hinv' (hcall.trans hc) ((herror c).trans herr) (.inr m)
    .prio time
  have hwaiting : ∀ k, ∀ t ∈ s.ipc.list (.inr k), t ≠ o := fun k t ht hto =>
    h.ok.waiting k t ht m (hto ▸ ho)
  have hsame : ∀ t, t ≠ o → s'.ipc.sched.prio t = s.ipc.sched.prio t := fun t ht => by
    rw [hprio, Function.update_of_ne ht]
  have hqueue' : (s'.ipc.block (.inr m) c .prio time).list (.inr m) =
      ipcInsert s'.ipc.sched.prio .prio (s.ipc.list (.inr m)) c := by
    rw [hqueue]
    exact congrArg (ipcInsert _ _ · c) (congrFun hlist _)
  refine ⟨h.ok.wait ho hidle (funext fun k => ?_) (hown.calm.initPrio.trans hbase)
    (hown.prio.trans hprio) (fun k hk => ?_) ?_ ?_, fun k p hp => ?_, fun k p hp => ?_⟩
  · exact congrArg RtMutex.owner (congrFun hmutex k)
  · exact (hown.others (.inr k) fun heq => hk (Sum.inr.inj heq)).list.trans (congrFun hlist _)
  · change ((s'.ipc.block (.inr m) c .prio time).list (.inr m)).Perm (c :: s.ipc.list (.inr m))
    rw [hqueue']
    exact perm_ipcInsert ..
  · change (List.Pairwise (fun x y => (s'.ipc.block (.inr m) c .prio time).sched.prio x ≤
      (s'.ipc.block (.inr m) c .prio time).sched.prio y)
      ((s'.ipc.block (.inr m) c .prio time).list (.inr m)))
    rw [hown.prio, hqueue']
    refine sorted_ipcInsert ((h.ok.sorted m).imp_of_mem fun {x y} hx hy hle => ?_) c
    rw [hsame x (hwaiting m x hx), hsame y (hwaiting m y hy)]
    exact hle
  · change (s'.mutex k).owner = some p at hp
    change (s'.mutex k).originalPriority = (s'.ipc.block (.inr m) c .prio time).sched.initPrio p
    rw [hmutex] at hp ⊢
    exact (h.original k p hp).trans (congrFun (hown.calm.initPrio.trans hbase) p).symm
  · change (s'.mutex k).owner = some p at hp
    rw [hmutex] at hp
    obtain ⟨hinit, hstarted⟩ := h.started k p hp
    refine ⟨fun hi => hinit ?_, hown.calm.started (hcur ▸ hstarted)⟩
    exact (congrFun hstat p).symm.trans (hown.calm.unstarted p hi)

theorem mutexTake_inherits {start : σ → Nat} (h : Inherits s) (hinv : Inv start s)
    {c : τ} (hc : s.ipc.caller = some c) {m : μ}
    (hone : ∀ k, (s.mutex k).owner = some c → k = m) (time : Int) :
    Inherits (tookNow c (.inr m) (s.rtMutexTake m c time)) := by
  have hnone := (Ipc.caller_eq_some.mp hc).2.2
  obtain ⟨hset, hframe, hcalm⟩ := Ipc.setError_frame hinv.ipc hnone rtEok
  have herr : (s.setError c rtEok).ipc.error c = rtEok := Ipc.error_setError ..
  replace hinv : Inv start (s.setError c rtEok) := hinv.outside hset fun w => (hframe w).spared
  replace hc : (s.setError c rtEok).ipc.caller = some c := (Ipc.caller_setError ..).trans hc
  replace h : Inherits (s.setError c rtEok) :=
    h.calm (fun _ => rfl) (fun _ => rfl) (fun _ => List.Sublist.refl _) hcalm
  have hone' : ∀ k, ((s.setError c rtEok).mutex k).owner = some c → k = m := hone
  unfold rtMutexTake
  dsimp only
  generalize s.setError c rtEok = s at *
  obtain ⟨hcur, hrun, hnone⟩ := Ipc.caller_eq_some.mp hc
  have hstat : s.ipc.sched.stat c ≠ .init := hrun ▸ by decide
  obtain hfree | ⟨o, hheld⟩ := hinv.mutex m
  · -- nobody holds it
    obtain ⟨howner, hvalue, hhold⟩ := hfree.mutex
    have hlt : (s.mutex m).hold < rtMutexHoldMax := by
      rw [hhold]
      decide
    have hidle : s.inheritance.Idle c := fun k hk => by
      have hkm := hone' k hk
      rw [hkm] at hk
      exact nomatch howner.symm.trans hk
    rw [if_neg (howner ▸ nofun), if_pos (hvalue ▸ Nat.one_pos), if_pos hlt]
    refine h.update (h.ok.take howner hfree.list hidle
      (fun k => hinv.ipc.not_listed (hrun ▸ by decide) (.inr k)) (owner_setMutex s m _) rfl rfl rfl)
      rfl ⟨rfl, fun _ => id, id⟩ fun p hp => ?_
    rw [← Option.some.inj hp]
    exact ⟨h.ok.idle c hidle, hstat, hcur ▸ rfl⟩
  obtain ⟨howner, hvalue⟩ := hheld.mutex
  by_cases hoc : o = c
  · -- the same thread
    subst hoc
    rw [if_pos howner]
    split
    next hlt =>
      refine h.update (h.ok.quiet ?_ rfl (fun _ => List.Sublist.refl _) (fun _ _ _ => rfl)
        h.ok.idle) rfl ⟨rfl, fun _ => id, id⟩ fun p hp => ⟨h.original m p hp, h.started m p hp⟩
      exact (owner_setMutex s m _).trans (Function.update_eq_self m s.inheritance.owner)
    next => exact h
  have hidle : s.inheritance.Idle c := fun k hk => by
    have hkm := hone' k hk
    rw [hkm] at hk
    exact hoc (Option.some.inj (howner.symm.trans hk))
  have hne : ¬ (s.mutex m).owner = some c := hidle m
  rw [if_neg hne, if_neg (by omega)]
  split
  · obtain ⟨-, -, hcalm⟩ := Ipc.setError_frame hinv.ipc hnone (-rtEtimeout)
    exact h.calm (fun _ => rfl) (fun _ => rfl) (fun _ => List.Sublist.refl _) hcalm
  rw [howner]
  exact h.wait hinv.ipc hc herr howner hidle time

theorem mutexRelease_inherits {start : σ → Nat} (h : Inherits s)
    (hinv : Inv start s) {c : τ} (hc : s.ipc.caller = some c) (m : μ) :
    Inherits (gaveMutex c m (s.rtMutexRelease m c)) := by
  obtain ⟨hcur, hrun, hnone⟩ := Ipc.caller_eq_some.mp hc
  unfold rtMutexRelease
  dsimp only
  by_cases howner : (s.mutex m).owner = some c
  swap
  · obtain ⟨-, -, hcalm⟩ := Ipc.setError_frame hinv.ipc hnone (-rtError)
    rw [if_pos howner]
    exact h.calm (fun _ => rfl) (fun _ => rfl) (fun _ => List.Sublist.refl _) hcalm
  rw [if_neg (not_not.mpr howner)]
  by_cases hlast : (s.mutex m).hold - 1 = 0
  swap
  · rw [if_neg hlast]
    refine h.update (h.ok.quiet ?_ rfl (fun _ => List.Sublist.refl _) (fun _ _ _ => rfl)
      h.ok.idle) rfl ⟨rfl, fun _ => id, id⟩ fun p hp => ⟨h.original m p hp, h.started m p hp⟩
    exact (owner_setMutex s m _).trans (Function.update_eq_self m s.inheritance.owner)
  rw [if_pos hlast]
  have hvalue : (s.mutex m).value = 0 := by
    obtain hfree | ⟨o, hheld⟩ := hinv.mutex m
    · exact nomatch hfree.mutex.1.symm.trans howner
    · exact hheld.mutex.2
  have hbase := h.original m c howner
  have hrestore := reprioritized (s := s) (t := c) hinv.ipc (Q := (s.mutex m).originalPriority ≠
    s.ipc.sched.prio c) (hbase ▸ hinv.ipc.sched.initBound c) (fun _ => hbase)
    fun heq => (not_not.mp heq).symm.trans hbase
  generalize (if (s.mutex m).originalPriority ≠ s.ipc.sched.prio c then
    s.setPriority c (s.mutex m).originalPriority else s) = s' at *
  obtain ⟨hinv', -, -, hmutex, hlist, hinit, hstat, hcur', hprio⟩ := hrestore
  have howners : s'.inheritance.owner = s.inheritance.owner :=
    congrArg (fun f k => (f k).owner) hmutex
  have hnodup : (s.inheritance.queue m).Nodup := hinv.ipc.sched.nodup (.inr m)
  have hapart : ∀ k, k ≠ m → ∀ t ∈ s.inheritance.queue k, t ∉ s.inheritance.queue m :=
    fun k hk t ht ht' => hk (Sum.inr.inj (hinv.ipc.sched.apart (.inr k) (.inr m) t ht ht'))
  have hunstarted : ∀ t, s'.ipc.sched.stat t = .init → s.ipc.sched.stat t = .init := fun t ht =>
    (congrFun hstat t).symm.trans ht
  have hqueue : s.inheritance.queue m = s'.ipc.list (.inr m) := (congrFun hlist _).symm
  match hwaits : s'.ipc.list (.inr m) with
  | [] =>
    rw [hwaits] at hqueue
    dsimp only
    rw [hvalue, if_pos (show 0 < rtMutexValueMax by decide)]
    refine h.update (h.ok.release howner ?_ hinit hprio (fun k _ => congrFun hlist _) ?_ hnodup
      hapart) (congrArg (Function.update · m _) hmutex)
      ⟨hinit, hunstarted, fun hs => hcur' ▸ hs⟩ fun p hp => nomatch hp
    · rw [hqueue]
      exact (owner_setMutex s' m _).trans (congrArg (Function.update · m none) howners)
    · rw [hqueue]
      exact hwaits
  | t :: ts =>
    rw [hwaits] at hqueue
    have hlt : (s.mutex m).hold - 1 < rtMutexHoldMax := hlast ▸ by decide
    dsimp only
    rw [if_pos hlt]
    obtain ⟨hown, hts, -⟩ := Ipc.wake_own hinv' hwaits
    have hhead : t ∈ s.inheritance.queue m := hqueue ▸ List.mem_cons_self
    have hidle : s.inheritance.Idle t := h.ok.waiting m t hhead
    refine h.update (h.ok.release howner ?_ (hown.calm.initPrio.trans hinit)
      (hown.prio.trans hprio) (fun k hk => ?_) ?_ hnodup hapart)
      (congrArg (Function.update · m _) hmutex) ⟨hown.calm.initPrio.trans hinit,
        fun x hx => hunstarted x (hown.calm.unstarted x hx),
        fun hs => hown.calm.started (hcur' ▸ hs)⟩ fun p hp => ?_
    · rw [hqueue]
      exact (owner_setMutex s' m _).trans (congrArg (Function.update · m _) howners)
    · exact (hown.others (.inr k) fun heq => hk (Sum.inr.inj heq)).list.trans (congrFun hlist _)
    · rw [hqueue]
      exact hts
    · obtain rfl := Option.some.inj hp
      have hne : t ≠ c := fun heq => hidle m (heq ▸ howner)
      refine ⟨?_, ?_, hcur ▸ rfl⟩
      · change s'.ipc.sched.prio t = _
        rw [hprio, Function.update_of_ne hne]
        exact h.ok.idle t hidle
      · have hsus := hinv.ipc.sched.waiting (.inr m) t hhead
        exact hsus ▸ by decide

theorem semTake_inherits (h : Inherits s) (hinv : s.ipc.Inv) {c : τ}
    (hc : s.ipc.caller = some c) (flag : σ → IpcFlag) (v : σ) (time : Int) :
    Inherits (tookNow c (.inl v) (s.rtSemTake flag v c time)) := by
  unfold rtSemTake
  split
  · exact h.calm (fun _ => rfl) (fun _ => rfl) (fun _ => List.Sublist.refl _)
      ⟨fun _ => .inl rfl, rfl, fun _ => id, id⟩
  split
  · exact h
  · obtain ⟨hset, hframe, hcalm⟩ := Ipc.setError_frame hinv (Ipc.caller_eq_some.mp hc).2.2 rtEok
    obtain ⟨hown, -⟩ := Ipc.block_own hset ((Ipc.caller_setError s.ipc c rtEok).trans hc)
      (Ipc.error_setError s.ipc c rtEok) (.inl v) (flag v) time
    change Inherits { s.setError c rtEok with
      ipc := (s.ipc.setError c rtEok).block (.inl v) c (flag v) time }
    refine h.calm (fun _ => rfl) (fun _ => rfl) (fun m => ?_) (hcalm.trans hown.calm)
    exact ((hframe _).spared.trans (hown.others (.inr m) Sum.inr_ne_inl).spared).list

omit [DecidableEq μ] in
theorem semRelease_inherits (h : Inherits s) (hinv : s.ipc.Inv) (v : σ) :
    Inherits (gaveSem v (s.rtSemRelease v)) := by
  have hcalm : Ipc.Undisturbed s.ipc.sched s.ipc.sched := ⟨fun _ => .inl rfl, rfl, fun _ => id, id⟩
  unfold rtSemRelease
  split
  next hlist =>
    obtain ⟨t, ts, hcons⟩ := List.exists_cons_of_ne_nil hlist
    obtain ⟨hown, -⟩ := Ipc.wake_own hinv hcons
    rw [wakeSem, hcons]
    exact h.calm (fun _ => rfl) (fun _ => rfl)
      (fun m => (hown.others (.inr m) Sum.inr_ne_inl).spared.list) hown.calm
  split
  · exact h.calm (fun _ => rfl) (fun _ => rfl) (fun _ => List.Sublist.refl _) hcalm
  · exact h

theorem leave_inherits (h : Inherits s) (hinv : s.ipc.Inv) {c : τ}
    (hrun : s.ipc.sched.stat c = .running) {w : σ ⊕ μ} (hpend : s.ipc.pending c = some w) :
    Inherits ((({ s with ipc := (s.ipc.leave c).1 } : Locks τ σ μ).left c w).took c
      (s.ipc.leave c).2 w) := by
  obtain ⟨hown, hlist, -⟩ := Ipc.leave_own hinv hpend hrun
  have hleft : Inherits { s with ipc := (s.ipc.leave c).1 } :=
    h.calm (fun _ => rfl) (fun _ => rfl) (fun _ => List.Sublist.refl _) hown.calm
  unfold left took
  split <;> cases w <;> exact ⟨hleft.ok, hleft.original, hleft.started⟩

theorem inherits_step {start : σ → Nat} {flag : σ → IpcFlag} (h : Inherits s)
    (hinv : Inv start s) {a : Act τ σ μ} (hreg : s.Regular flag a) (hone : OneAtATime s a)
    (hstep : s.step flag a = some s') : Inherits s' := by
  cases a with
  | outside a =>
    obtain ⟨ipc, hipc, rfl⟩ := Option.map_eq_some_iff.mp hstep
    refine h.calm (fun _ => rfl) (fun _ => rfl)
      (fun m => (Ipc.step_spared hinv.ipc hreg hipc (.inr m)).list)
      ((Ipc.step_moved hinv.ipc hreg hipc).prio fun t p heq => ?_)
    rw [heq] at hone
    exact hone
  | semTake v time =>
    obtain ⟨c, hc, rfl⟩ := Option.map_eq_some_iff.mp hstep
    exact semTake_inherits h hinv.ipc hc flag v time
  | semRelease v =>
    obtain rfl := Option.some.inj hstep
    exact semRelease_inherits h hinv.ipc v
  | mutexTake m time =>
    obtain ⟨c, hc, rfl⟩ := Option.map_eq_some_iff.mp hstep
    exact mutexTake_inherits h hinv hc (hone c hc) time
  | mutexRelease m =>
    obtain ⟨c, hc, rfl⟩ := Option.map_eq_some_iff.mp hstep
    exact mutexRelease_inherits h hinv hc m
  | leave =>
    unfold step at hstep
    dsimp only at hstep
    split at hstep
    next c _ =>
      obtain ⟨hrun, hstep⟩ := Option.ite_none_right_eq_some.mp hstep
      obtain ⟨w, hw, rfl⟩ := Option.map_eq_some_iff.mp hstep
      exact leave_inherits h hinv.ipc hrun hw
    next => exact nomatch hstep

omit [DecidableEq τ] [DecidableEq σ] [DecidableEq μ] in
theorem inherits_boot (priority : τ → Nat) (slice : τ → BitVec 32) (start : σ → Nat) :
    Inherits (boot priority slice start : Locks τ σ μ) := by
  refine ⟨⟨fun _ _ ho => (nomatch ho), fun _ _ ho => (nomatch ho), fun _ _ _ ho => (nomatch ho),
    fun _ _ => rfl, fun _ _ ht => (nomatch ht), fun _ => List.Pairwise.nil⟩,
    fun _ _ ho => (nomatch ho), fun _ _ ho => (nomatch ho)⟩

/-- Threads that take a mutex while they own no other one: in every regular run a thread that
    owns nothing has its own priority, an owner has at least the priority of everyone who waits
    for it, and while it can run, no thread runs behind `rt_schedule` that has a lower priority
    than one of these. -/
theorem inheritance_run {priority : τ → Nat} {start : σ → Nat} (slice : τ → BitVec 32)
    (flag : σ → IpcFlag) (hprio : ∀ t, priority t < rtThreadPriorityMax)
    (hstart : ∀ v, start v ≤ rtSemValueMax) {s : Locks τ σ μ}
    (h : Reach (fun s a => s.step flag a) (fun s a => s.Regular flag a ∧ OneAtATime s a)
      (boot priority slice start) s) :
    (∀ t, (∀ m, (s.mutex m).owner ≠ some t) → s.ipc.sched.prio t = s.ipc.sched.initPrio t) ∧
      ∀ m o, (s.mutex m).owner = some o → s.ipc.sched.prio o ≤ s.ipc.sched.initPrio o ∧
        ∀ t ∈ s.ipc.list (.inr m), s.ipc.sched.prio o ≤ s.ipc.sched.initPrio t ∧
          (s.ipc.sched.lockNest = 0 → s.ipc.sched.Runnable o →
            ∃ c, (rtSchedule s.ipc.sched).current = some c ∧
              (rtSchedule s.ipc.sched).stat c = .running ∧
              (rtSchedule s.ipc.sched).prio c ≤ s.ipc.sched.initPrio t) := by
  have hboth : Inv start s ∧ Inherits s := h.invariant (fun s => Inv start s ∧ Inherits s)
    ⟨inv_boot slice hprio hstart, inherits_boot priority slice start⟩
    fun s a s' hs ⟨hreg, hone⟩ hstep =>
      ⟨inv_step s a s' hs.1 hreg hstep, inherits_step hs.2 hs.1 hreg hone hstep⟩
  obtain ⟨hinv, hinh⟩ := hboth
  refine ⟨hinh.ok.idle, fun m o ho => ⟨hinh.ok.raised m o ho, fun t ht => ?_⟩⟩
  have hle : s.ipc.sched.prio o ≤ s.ipc.sched.initPrio t :=
    (hinh.ok.boosted m o ho t ht).trans_eq (hinh.ok.idle t (hinh.ok.waiting m t ht))
  refine ⟨hle, fun hlock hrunnable => ?_⟩
  obtain ⟨hsched, hsettled⟩ := schedule_spec hinv.ipc.sched
  obtain ⟨c, hc⟩ := Option.isSome_iff_exists.mp (hsched.started.trans (hinh.started m o ho).2)
  rw [← hsched.runnable] at hrunnable
  rw [← hsched.prio] at hle
  obtain hready | hrun := hrunnable
  · obtain ⟨hrun, hprio⟩ := hsettled hlock c hc o hready
    exact ⟨c, hc, hrun, hprio.trans hle⟩
  · exact ⟨o, hsched.inv.running o hrun, hrun, hle⟩

/-- Thread 0 waits for thread 2, which runs although thread 1 has a higher priority. -/
theorem inheritance_run_three : ∃ s : Locks (Fin 3) Unit Unit,
    ((s.mutex ()).owner = some 2 ∧ s.ipc.list (.inr ()) = [0] ∧ s.ipc.sched.stat 1 = .ready ∧
      s.ipc.sched.current = some 2) ∧
    (∀ t, (∀ m, (s.mutex m).owner ≠ some t) → s.ipc.sched.prio t = s.ipc.sched.initPrio t) ∧
      ∀ m o, (s.mutex m).owner = some o → s.ipc.sched.prio o ≤ s.ipc.sched.initPrio o ∧
        ∀ t ∈ s.ipc.list (.inr m), s.ipc.sched.prio o ≤ s.ipc.sched.initPrio t ∧
          (s.ipc.sched.lockNest = 0 → s.ipc.sched.Runnable o →
            ∃ c, (rtSchedule s.ipc.sched).current = some c ∧
              (rtSchedule s.ipc.sched).stat c = .running ∧
              (rtSchedule s.ipc.sched).prio c ≤ s.ipc.sched.initPrio t) := by
  have hrun : (exec (guarded (fun (s : Locks (Fin 3) Unit Unit) a => s.step (fun _ => .fifo) a)
      fun s a => s.Regular (fun _ => .fifo) a ∧ OneAtATime s a)
      (boot (fun t : Fin 3 => 10 + t) (fun _ => 5) fun _ => 0)
      [.outside (.startup 2), .outside .start, .mutexTake () (-1), .outside (.startup 0),
        .mutexTake () (-1), .outside .schedule, .outside (.startup 1), .outside .schedule]).any
      (fun s => (s.mutex ()).owner = some 2 ∧ s.ipc.list (.inr ()) = [0] ∧
        s.ipc.sched.stat 1 = .ready ∧ s.ipc.sched.current = some 2) = true := by decide +kernel
  obtain ⟨s, hs, hstate⟩ := (Option.any_eq_true ..).mp hrun
  have hreach : Reach (fun (s : Locks (Fin 3) Unit Unit) a => s.step (fun _ => .fifo) a)
      (fun s a => s.Regular (fun _ => .fifo) a ∧ OneAtATime s a)
      (boot (fun t : Fin 3 => 10 + t) (fun _ => 5) fun _ => 0) s := reach_of_exec .start hs
  exact ⟨s, of_decide_eq_true hstate, inheritance_run _ _ (by decide) (by decide) hreach⟩

/-- With two mutexes at a time thread 1 loses the priority of thread 0, which still waits for the
    other one. -/
example : (exec (guarded (fun (s : Locks (Fin 2) Unit Bool) a => s.step (fun _ => .fifo) a) Free)
    (boot (fun t : Fin 2 => 10 + t) (fun _ => 5) fun _ => 0)
    [.outside (.startup 1), .outside .start, .mutexTake true (-1), .mutexTake false (-1),
      .outside (.startup 0), .mutexTake true (-1), .outside .schedule, .mutexRelease false]).any
    (fun s => (s.mutex true).owner = some 1 ∧ s.ipc.list (.inr true) = [0] ∧
      s.ipc.sched.prio 1 = 11) = true := by decide +kernel

end Locks

end Live2dStm32.Kernel
