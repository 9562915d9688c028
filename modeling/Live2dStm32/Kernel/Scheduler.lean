import Live2dStm32.Kernel.Semaphore
import Live2dStm32.Lib.Buckets
import Live2dStm32.Lib.Insert
import Live2dStm32.Lib.Machine

/-
  The scheduler (rt-thread/src/scheduler.c, thread.c, clock.c): the ready table with its bitmap,
  the running thread, and the lists of the IPC objects that threads are suspended on. A node of a
  list is on one list at most, so `rt_list_remove` takes a thread off whatever list it is on.

  `τ` names threads and `ω` the lists of IPC objects. `number_mask` is always
  `1 << current_priority`; timers, stacks, hooks and the deletion of threads are left out.
  `rt_scheduler_lock_nest` is an `rt_int16_t` that never falls below 0; it is a natural number here,
  so what is proved is about at most 32767 locks at a time.
-/

namespace Live2dStm32.Kernel

open Live2dStm32.Lib

inductive ThreadStat where
  | init
  | ready
  | suspend
  | running
  deriving DecidableEq, Repr

/-- struct rt_thread; `yield` is RT_THREAD_STAT_YIELD. -/
structure RtThread where
  stat : ThreadStat
  yield : Bool
  initPriority : Nat
  currentPriority : Nat
  initTick : BitVec 32
  remainingTick : BitVec 32
  error : Int
  deriving DecidableEq, Repr

/-- A new time slice, and the mark that the old one is over. -/
def RtThread.nextSlice (th : RtThread) : RtThread :=
  { th with remainingTick := th.initTick, yield := true }

abbrev rtThreadPriorityMax : Nat := 32

structure Scheduler (τ ω : Type) where
  thread : τ → RtThread
  ready : Buckets τ rtThreadPriorityMax
  current : Option τ
  lockNest : Nat
  suspendThread : ω → List τ

/-- `__rt_ffs`: one more than the index of the first bit set. -/
def rtFfs (value : BitVec 32) : Nat := (lowest value).elim 0 (· + 1)

namespace Scheduler

variable {τ ω : Type} [DecidableEq τ] (s : Scheduler τ ω) (t : τ)

def prio : Nat := (s.thread t).currentPriority

def initPrio : Nat := (s.thread t).initPriority

def stat : ThreadStat := (s.thread t).stat

/-- The fields that scheduling leaves alone, but for the priority. -/
def saved : Nat × Int := (s.initPrio t, (s.thread t).error)

def setThread (f : RtThread → RtThread) : Scheduler τ ω :=
  { s with thread := Function.update s.thread t (f (s.thread t)) }

def setStat (stat : ThreadStat) : Scheduler τ ω := s.setThread t fun th => { th with stat := stat }

/-- `rt_list_remove(&thread->tlist)`. -/
def unlink : Scheduler τ ω :=
  { s with ready := s.ready.unlink t, suspendThread := fun w => (s.suspendThread w).erase t }

end Scheduler

variable {τ ω : Type} [DecidableEq τ] (s : Scheduler τ ω)

/-! ## scheduler.c -/

def rtScheduleInsertThread (t : τ) : Scheduler τ ω :=
  if s.current = some t then s.setStat t .running
  else
    let s := s.setStat t .ready
    { s with ready := s.ready.push (s.prio t) t }

def rtScheduleRemoveThread (t : τ) : Scheduler τ ω :=
  { s.unlink t with ready := s.ready.drop (s.prio t) t }

/-- The head of the list of the highest priority; the priority comes first. -/
def schedulerGetHighestPriorityThread : Nat × Option τ :=
  let highest := rtFfs s.ready.group - 1
  (highest, (s.ready.queue highest).head?)

def rtSchedule : Scheduler τ ω :=
  if s.lockNest = 0 ∧ s.ready.group ≠ 0 then
    match s.current, schedulerGetHighestPriorityThread s with
    | some c, (highest, some head) =>
      let running := s.stat c = .running
      let stays := running ∧
        (s.prio c < highest ∨ s.prio c = highest ∧ (s.thread c).yield = false)
      let s := if running then s.setThread c fun th => { th with yield := false } else s
      let toThread := if stays then c else head
      if toThread ≠ c then
        let s := { s with current := some toThread }
        -- need_insert_from_thread
        let s := if running then rtScheduleInsertThread s c else s
        (rtScheduleRemoveThread s toThread).setStat toThread .running
      else (rtScheduleRemoveThread s c).setStat c .running
    | _, _ => s
  else s

def RtThread.first (th : RtThread) : RtThread := { th with stat := .running, yield := false }

def rtSystemSchedulerStart : Scheduler τ ω :=
  match (schedulerGetHighestPriorityThread s).2 with
  | some head =>
    (rtScheduleRemoveThread { s with current := some head } head).setThread head RtThread.first
  | none => s

def rtEnterCritical : Scheduler τ ω := { s with lockNest := s.lockNest + 1 }

def rtExitCritical : Scheduler τ ω :=
  let s := { s with lockNest := s.lockNest - 1 }
  if s.lockNest = 0 then rtSchedule s else s

/-! ## thread.c, clock.c -/

def rtThreadSuspend (t : τ) : Scheduler τ ω × Int :=
  if s.stat t ≠ .ready ∧ s.stat t ≠ .running then (s, -rtError)
  else ((rtScheduleRemoveThread s t).setStat t .suspend, rtEok)

def rtThreadResume (t : τ) : Scheduler τ ω × Int :=
  if s.stat t ≠ .suspend then (s, -rtError)
  else (rtScheduleInsertThread (s.unlink t) t, rtEok)

/-- RT_THREAD_CTRL_CHANGE_PRIORITY. -/
def rtThreadChangePriority (t : τ) (priority : Nat) : Scheduler τ ω :=
  if s.stat t = .ready then
    rtScheduleInsertThread ((rtScheduleRemoveThread s t).setThread t fun th =>
      { th with currentPriority := priority }) t
  else s.setThread t fun th => { th with currentPriority := priority }

/-- What the timer of a suspended thread does, before it schedules. -/
def threadTimeout (t : τ) : Scheduler τ ω :=
  let s := s.setThread t fun th => { th with error := -rtEtimeout }
  rtScheduleInsertThread (s.unlink t) t

def RtThread.begin (th : RtThread) : RtThread :=
  { th with currentPriority := th.initPriority, stat := .suspend, yield := false }

def rtThreadStartup (t : τ) : Scheduler τ ω :=
  let s := s.setThread t RtThread.begin
  let s := (rtThreadResume s t).1
  if s.current.isSome then rtSchedule s else s

def rtThreadYield : Scheduler τ ω :=
  match s.current with
  | some c => rtSchedule (s.setThread c RtThread.nextSlice)
  | none => s

/-- The time slice in `rt_tick_increase`. -/
def rtTickIncrease : Scheduler τ ω :=
  match s.current with
  | some c =>
    let s := s.setThread c fun th => { th with remainingTick := th.remainingTick - 1 }
    if (s.thread c).remainingTick = 0 then
      rtSchedule (s.setThread c RtThread.nextSlice)
    else s
  | none => s

inductive IpcFlag where
  | fifo
  | prio
  deriving DecidableEq, Repr

/-- RT_IPC_FLAG_FIFO: at the end; RT_IPC_FLAG_PRIO: before the first thread of a lower
    priority. -/
def ipcInsert (prio : τ → Nat) (flag : IpcFlag) (list : List τ) (t : τ) : List τ :=
  match flag with
  | .fifo => list ++ [t]
  | .prio => scanInsert (fun x => prio t < prio x) t list

def ipcListSuspend [DecidableEq ω] (w : ω) (t : τ) (flag : IpcFlag) : Scheduler τ ω :=
  let s := (rtThreadSuspend s t).1
  { s with
    suspendThread :=
      Function.update s.suspendThread w (ipcInsert s.prio flag (s.suspendThread w) t) }

/-- `_ipc_list_resume` of a list that is not empty. -/
def ipcListResume (w : ω) : Scheduler τ ω :=
  match s.suspendThread w with
  | t :: _ => (rtThreadResume s t).1
  | [] => s

/-! ## What holds of every state -/

/-- The ready table holds the ready threads, only the current thread runs, and the threads on the
    lists of IPC objects are suspended, each on one list. -/
structure Scheduler.Inv (s : Scheduler τ ω) : Prop where
  ready : s.ready.Holds (fun t => s.stat t = .ready) s.prio
  prioBound : ∀ t, s.prio t < rtThreadPriorityMax
  initBound : ∀ t, s.initPrio t < rtThreadPriorityMax
  running : ∀ t, s.stat t = .running → s.current = some t
  current : ∀ t, s.current = some t → s.stat t = .running ∨ s.stat t = .suspend
  waiting : ∀ w t, t ∈ s.suspendThread w → s.stat t = .suspend
  nodup : ∀ w, (s.suspendThread w).Nodup
  apart : ∀ w w' t, t ∈ s.suspendThread w → t ∈ s.suspendThread w' → w = w'

section Fields

variable (t x : τ) (f : RtThread → RtThread) (v : ThreadStat)

theorem setThread_self : (s.setThread t f).thread t = f (s.thread t) := Function.update_self ..

theorem setThread_ne {t x : τ} (h : x ≠ t) : (s.setThread t f).thread x = s.thread x :=
  Function.update_of_ne h ..

/-- A field that `f` keeps. -/
theorem setThread_keeps {α : Type} (g : RtThread → α) {f : RtThread → RtThread}
    (hf : ∀ th, g (f th) = g th) : g ((s.setThread t f).thread x) = g (s.thread x) := by
  by_cases h : x = t
  · subst h
    rw [setThread_self, hf]
  · rw [setThread_ne s f h]

@[simp] theorem stat_setStat_self : (s.setStat t v).stat t = v :=
  congrArg RtThread.stat (setThread_self s t _)

theorem stat_setStat_ne {t x : τ} (h : x ≠ t) : (s.setStat t v).stat x = s.stat x :=
  congrArg RtThread.stat (setThread_ne s _ h)

@[simp] theorem prio_setStat : (s.setStat t v).prio = s.prio :=
  funext fun x => setThread_keeps s t x RtThread.currentPriority fun _ => rfl

@[simp] theorem saved_setStat : (s.setStat t v).saved = s.saved :=
  funext fun x => setThread_keeps s t x (fun th => (th.initPriority, th.error)) fun _ => rfl

end Fields

variable {s}

/-! ### Steps -/

/-- Threads that are not suspended are on no list of an IPC object. -/
theorem Scheduler.Inv.erase_eq (h : s.Inv) {t : τ} (ht : s.stat t ≠ .suspend) :
    (fun w => (s.suspendThread w).erase t) = s.suspendThread :=
  funext fun w => List.erase_of_not_mem fun hmem => ht (h.waiting w t hmem)

omit [DecidableEq τ] in
theorem initPrio_of_saved {s' : Scheduler τ ω} (h : s'.saved = s.saved) :
    s'.initPrio = s.initPrio :=
  funext fun t => congrArg Prod.fst (congrFun h t)

omit [DecidableEq τ] in
/-- All threads keep their states, and the lists their threads. -/
theorem Scheduler.Inv.same {s' : Scheduler τ ω} (h : s.Inv)
    (hready : s'.ready.Holds (fun t => s.stat t = .ready) s'.prio)
    (hbound : ∀ t, s'.prio t < rtThreadPriorityMax) (hinit : s'.initPrio = s.initPrio)
    (hstat : s'.stat = s.stat) (hlists : s'.suspendThread = s.suspendThread)
    (hcur : s'.current = s.current) : s'.Inv where
  ready := by
    rw [hstat]
    exact hready
  prioBound := hbound
  initBound := by
    rw [hinit]
    exact h.initBound
  running := by
    rw [hstat, hcur]
    exact h.running
  current := by
    rw [hstat, hcur]
    exact h.current
  waiting := by
    rw [hstat, hlists]
    exact h.waiting
  nodup := by
    rw [hlists]
    exact h.nodup
  apart := by
    rw [hlists]
    exact h.apart

/-- A change of fields that no list depends on. -/
theorem Scheduler.Inv.setThread (h : s.Inv) (t : τ) {f : RtThread → RtThread}
    (hstat : ∀ th, (f th).stat = th.stat)
    (hprio : ∀ th, (f th).currentPriority = th.currentPriority)
    (hinit : ∀ th, (f th).initPriority = th.initPriority) : (s.setThread t f).Inv := by
  have hp : (s.setThread t f).prio = s.prio :=
    funext fun x => setThread_keeps s t x RtThread.currentPriority hprio
  refine h.same (hp ▸ h.ready) (hp ▸ h.prioBound) ?_ ?_ rfl rfl
  · exact funext fun x => setThread_keeps s t x RtThread.initPriority hinit
  · exact funext fun x => setThread_keeps s t x RtThread.stat hstat

/-- A thread leaves the ready table, or was not in it, and gets another state. -/
theorem Scheduler.Inv.removed (h : s.Inv) {t : τ} (ht : s.stat t ≠ .suspend) {v : ThreadStat}
    (hv : v ≠ .ready) : ((rtScheduleRemoveThread s t).setStat t v).ready.Holds
      (fun x => ((rtScheduleRemoveThread s t).setStat t v).stat x = .ready) s.prio ∧
    ((rtScheduleRemoveThread s t).setStat t v).suspendThread = s.suspendThread := by
  refine ⟨h.ready.drop.congr (fun x => ?_) fun _ _ => rfl, h.erase_eq ht⟩
  by_cases hx : x = t
  · subst hx
    simp [hv]
  · rw [stat_setStat_ne _ _ hx]
    exact (and_iff_left hx).symm

omit [DecidableEq τ] in
theorem highest_eq {head : τ} {rest : List τ} {highest : Nat}
    (hlow : lowest s.ready.group = some highest) (hq : s.ready.queue highest = head :: rest) :
    schedulerGetHighestPriorityThread s = (highest, some head) := by
  unfold schedulerGetHighestPriorityThread rtFfs
  rw [hlow]
  dsimp only [Option.elim]
  rw [Nat.add_sub_cancel, hq]
  rfl

theorem rtSchedule_eq {c head : τ} {rest : List τ} {highest : Nat} (hl : s.lockNest = 0)
    (hc : s.current = some c) (hlow : lowest s.ready.group = some highest)
    (hq : s.ready.queue highest = head :: rest) :
    rtSchedule s =
      let running := s.stat c = .running
      let stays := running ∧
        (s.prio c < highest ∨ s.prio c = highest ∧ (s.thread c).yield = false)
      let s := if running then s.setThread c fun th => { th with yield := false } else s
      let toThread := if stays then c else head
      if toThread ≠ c then
        let s := { s with current := some toThread }
        let s := if running then rtScheduleInsertThread s c else s
        (rtScheduleRemoveThread s toThread).setStat toThread .running
      else (rtScheduleRemoveThread s c).setStat c .running := by
  have hg : s.ready.group ≠ 0 := by
    intro hzero
    have hbit := (lowest_eq_some hlow).1
    rw [hzero] at hbit
    simp at hbit
  unfold rtSchedule
  rw [if_pos ⟨hl, hg⟩, hc, highest_eq hlow hq]

/-- The current thread runs on. -/
structure Kept (s s' : Scheduler τ ω) (c : τ) : Prop where
  current : s'.current = s.current
  stat : s'.stat = s.stat
  prio : s'.prio = s.prio
  saved : s'.saved = s.saved
  lists : s'.suspendThread = s.suspendThread
  lock : s'.lockNest = s.lockNest
  ready : s'.ready = s.ready.drop (s.prio c) c

/-- `to_thread == rt_current_thread`. -/
theorem Scheduler.Inv.keep {c : τ} (h : s.Inv) (hrun : s.stat c = .running) :
    let s' := (rtScheduleRemoveThread s c).setStat c .running
    s'.Inv ∧ Kept s s' c := by
  intro s'
  have hne : s.stat c ≠ .suspend := hrun ▸ by decide
  obtain ⟨hready, hlists⟩ := h.removed hne (v := .running) (by decide)
  have hstat : s'.stat = s.stat := by
    funext x
    by_cases hx : x = c
    · rw [hx, hrun]
      exact stat_setStat_self _ _ _
    · exact stat_setStat_ne _ _ hx
  have hprio : s'.prio = s.prio := prio_setStat _ _ _
  have hsaved : s'.saved = s.saved := saved_setStat _ _ _
  refine ⟨h.same ?_ ?_ (initPrio_of_saved hsaved) hstat hlists rfl, rfl, hstat, hprio, hsaved,
    hlists, rfl, rfl⟩
  · rw [hprio, ← hstat]
    exact hready
  · rw [hprio]
    exact h.prioBound

/-- The state of every thread after a switch to `head`. -/
structure Switched (s s' : Scheduler τ ω) (c head : τ) (left : ThreadStat) : Prop where
  current : s'.current = some head
  runs : s'.stat head = .running
  leaves : s'.stat c = left
  other : ∀ x, x ≠ head → x ≠ c → s'.stat x = s.stat x
  prio : s'.prio = s.prio
  saved : s'.saved = s.saved
  lists : s'.suspendThread = s.suspendThread
  lock : s'.lockNest = s.lockNest
  ready : s'.ready = (if left = .ready then s.ready.push (s.prio c) c else s.ready).drop
    (s.prio head) head

/-- A switch from a thread that is in no queue any more. -/
theorem Scheduler.Inv.switched {c head : τ} {left : ThreadStat} {s' : Scheduler τ ω} (h : s.Inv)
    (hc : s.current = some c) (hleft : left ≠ .running ∧ left ≠ .init)
    (hsw : Switched s s' c head left)
    (hready : s'.ready.Holds (fun x => s'.stat x = .ready) s.prio)
    (hsus : s.stat c = .suspend → left = .suspend) (hhead : s.stat head = .ready) : s'.Inv := by
  refine ⟨?_, ?_, ?_, fun x hx => ?_, fun x hx => ?_, fun w x hx => ?_, ?_, ?_⟩
  · rw [hsw.prio]
    exact hready
  · rw [hsw.prio]
    exact h.prioBound
  · rw [initPrio_of_saved hsw.saved]
    exact h.initBound
  · by_cases hxh : x = head
    · rw [hxh]
      exact hsw.current
    by_cases hxc : x = c
    · rw [hxc, hsw.leaves] at hx
      exact absurd hx hleft.1
    · rw [hsw.other x hxh hxc] at hx
      exact absurd (Option.some.inj ((h.running x hx).symm.trans hc)) hxc
  · rw [hsw.current] at hx
    rw [← Option.some.inj hx]
    exact .inl hsw.runs
  · rw [hsw.lists] at hx
    have hwait := h.waiting w x hx
    by_cases hxh : x = head
    · rw [hxh, hhead] at hwait
      exact nomatch hwait
    by_cases hxc : x = c
    · rw [hxc] at hwait ⊢
      rw [hsw.leaves]
      exact hsus hwait
    · rw [hsw.other x hxh hxc]
      exact hwait
  · rw [hsw.lists]
    exact h.nodup
  · rw [hsw.lists]
    exact h.apart

/-- The current thread is suspended: nothing is inserted. -/
theorem Scheduler.Inv.switch_suspended {c head : τ} (h : s.Inv) (hc : s.current = some c)
    (hsus : s.stat c = .suspend) (hhead : s.stat head = .ready) :
    let s' := (rtScheduleRemoveThread { s with current := some head } head).setStat head .running
    s'.Inv ∧ Switched s s' c head .suspend := by
  intro s'
  have hne : c ≠ head := fun heq => by
    rw [heq, hhead] at hsus
    exact nomatch hsus
  have hother : ∀ x, x ≠ head → s'.stat x = s.stat x := fun x hx => stat_setStat_ne _ _ hx
  have hsw : Switched s s' c head .suspend :=
    ⟨rfl, stat_setStat_self _ _ _, (hother c hne).trans hsus, fun x hx _ => hother x hx,
      prio_setStat _ _ _, saved_setStat _ _ _, h.erase_eq (hhead ▸ by decide), rfl, rfl⟩
  refine ⟨h.switched hc ⟨by decide, by decide⟩ hsw ?_ (fun _ => rfl) hhead, hsw⟩
  refine h.ready.drop.congr (fun x => ?_) fun _ _ => rfl
  by_cases hx : x = head
  · rw [hx, hsw.runs]
    simp
  · rw [hother x hx]
    exact (and_iff_left hx).symm

/-- The current thread goes to the end of its queue. -/
theorem Scheduler.Inv.switch_running {c head : τ} (h : s.Inv) (hc : s.current = some c)
    (hrun : s.stat c = .running) (hhead : s.stat head = .ready) :
    let s' := (rtScheduleRemoveThread
      (rtScheduleInsertThread { s with current := some head } c) head).setStat head .running
    s'.Inv ∧ Switched s s' c head .ready := by
  intro s'
  have hne : c ≠ head := fun heq => by
    rw [heq, hhead] at hrun
    exact nomatch hrun
  have hins : rtScheduleInsertThread { s with current := some head } c =
      { ({ s with current := some head } : Scheduler τ ω).setStat c .ready with
        ready := s.ready.push (s.prio c) c } := by
    unfold rtScheduleInsertThread
    rw [if_neg fun heq => hne (Option.some.inj heq).symm]
    dsimp only
    rw [prio_setStat]
    rfl
  have hfrom : s'.stat c = .ready := by
    refine (stat_setStat_ne _ _ hne).trans ?_
    rw [hins]
    exact stat_setStat_self _ _ _
  have hother : ∀ x, x ≠ head → x ≠ c → s'.stat x = s.stat x := fun x hx hxc => by
    refine (stat_setStat_ne _ _ hx).trans ?_
    rw [hins]
    exact stat_setStat_ne _ _ hxc
  have hprio : s'.prio = s.prio := by
    refine (prio_setStat _ _ _).trans ?_
    rw [hins]
    exact prio_setStat _ _ _
  have hlists : s'.suspendThread = s.suspendThread := by
    change (fun w => ((rtScheduleInsertThread { s with current := some head } c).suspendThread
      w).erase head) = _
    rw [hins]
    exact h.erase_eq (hhead ▸ by decide)
  have hsaved : s'.saved = s.saved := by
    refine (saved_setStat _ _ _).trans ?_
    rw [hins]
    exact saved_setStat _ _ _
  have hcur : s'.current = some head := by
    change (rtScheduleInsertThread { s with current := some head } c).current = _
    rw [hins]
    rfl
  have hlock : s'.lockNest = s.lockNest := by
    change (rtScheduleInsertThread { s with current := some head } c).lockNest = _
    rw [hins]
    rfl
  have hready : s'.ready = (s.ready.push (s.prio c) c).drop (s.prio head) head := by
    change (rtScheduleInsertThread { s with current := some head } c).ready.drop
      ((rtScheduleInsertThread { s with current := some head } c).prio head) head = _
    rw [hins]
    exact congrArg (fun p => (s.ready.push (s.prio c) c).drop (p head) head) (prio_setStat _ _ _)
  have hsw : Switched s s' c head .ready :=
    ⟨hcur, stat_setStat_self _ _ _, hfrom, hother, hprio, hsaved, hlists, hlock, hready⟩
  refine ⟨h.switched hc ⟨by decide, by decide⟩ hsw ?_ (fun hs => ?_) hhead, hsw⟩
  · rw [hready]
    have hnot : ¬ s.stat c = .ready := fun hr => nomatch hrun.symm.trans hr
    refine (h.ready.push hnot (h.prioBound c)).drop.congr (fun x => ?_) fun _ _ => rfl
    by_cases hx : x = head
    · rw [hx, hsw.runs]
      simp
    by_cases hxc : x = c
    · rw [hxc, hfrom]
      simp [hne]
    · rw [hother x hx hxc]
      simp [hx, hxc]
  · rw [hrun] at hs
    exact nomatch hs

/-! ### `rt_schedule` -/

def Scheduler.Runnable (s : Scheduler τ ω) (t : τ) : Prop := s.stat t = .ready ∨ s.stat t = .running

/-- No ready thread should run instead of the current one. -/
def Scheduler.Settled (s : Scheduler τ ω) : Prop :=
  ∀ c, s.current = some c → ∀ t, s.stat t = .ready → s.stat c = .running ∧ s.prio c ≤ s.prio t

/-- What `rt_schedule` keeps. -/
structure Scheduled (s s' : Scheduler τ ω) : Prop where
  inv : s'.Inv
  runnable : ∀ t, s'.Runnable t ↔ s.Runnable t
  unstarted : ∀ t, s'.stat t = .init ↔ s.stat t = .init
  prio : s'.prio = s.prio
  saved : s'.saved = s.saved
  lists : s'.suspendThread = s.suspendThread
  started : s'.current.isSome = s.current.isSome
  lock : s'.lockNest = s.lockNest

theorem Scheduled.of_switched {c head : τ} {left : ThreadStat} {s' : Scheduler τ ω} (hinv : s'.Inv)
    (hsw : Switched s s' c head left) (hc : s.current = some c) (hhead : s.stat head = .ready)
    (hleft : left = .ready ↔ s.Runnable c) (hleft' : left ≠ .running ∧ left ≠ .init)
    (hcur : s.stat c ≠ .init) : Scheduled s s' := by
  refine ⟨hinv, fun t => ?_, fun t => ?_, hsw.prio, hsw.saved, hsw.lists,
    by rw [hsw.current, hc]; rfl, hsw.lock⟩
  by_cases hth : t = head
  · rw [hth]
    exact ⟨fun _ => .inl hhead, fun _ => .inr hsw.runs⟩
  by_cases htc : t = c
  · rw [htc, ← hleft, Scheduler.Runnable, hsw.leaves]
    exact or_iff_left hleft'.1
  · rw [Scheduler.Runnable, hsw.other t hth htc]
    rfl
  by_cases hth : t = head
  · rw [hth, hsw.runs, hhead]
    exact ⟨(nomatch ·), (nomatch ·)⟩
  by_cases htc : t = c
  · rw [htc, hsw.leaves]
    exact ⟨fun hi => absurd hi hleft'.2, fun hi => absurd hi hcur⟩
  · rw [hsw.other t hth htc]

/-- What `rt_schedule` does when `head` is the first of the highest queue: the current thread
    runs on, or goes to the end of its queue, or was suspended. -/
theorem schedule_cases {c head : τ} {rest : List τ} {highest : Nat} (h : s.Inv)
    (hl : s.lockNest = 0) (hc : s.current = some c) (hlow : lowest s.ready.group = some highest)
    (hq : s.ready.queue highest = head :: rest) (hhead : s.stat head = .ready) :
    (rtSchedule s).Inv ∧
    (s.stat c = .running ∧
        (s.prio c < highest ∨ s.prio c = highest ∧ (s.thread c).yield = false) ∧
        Kept s (rtSchedule s) c ∨
      s.stat c = .running ∧
        ¬ (s.prio c < highest ∨ s.prio c = highest ∧ (s.thread c).yield = false) ∧
        Switched s (rtSchedule s) c head .ready ∨
      s.stat c = .suspend ∧ Switched s (rtSchedule s) c head .suspend) := by
  rw [rtSchedule_eq hl hc hlow hq]
  dsimp only
  have hne : head ≠ c := fun heq => by
    obtain hrun | hsus := h.current c hc <;> rw [heq] at hhead
    · exact nomatch hrun.symm.trans hhead
    · exact nomatch hsus.symm.trans hhead
  obtain hrun | hsus := h.current c hc
  · simp only [hrun, true_and, if_true]
    generalize hs₀ : (s.setThread c fun th => { th with yield := false }) = s₀
    have hstat₀ : s₀.stat = s.stat := by
      rw [← hs₀]
      exact funext fun x => setThread_keeps s c x RtThread.stat fun _ => rfl
    have hprio₀ : s₀.prio = s.prio := by
      rw [← hs₀]
      exact funext fun x => setThread_keeps s c x RtThread.currentPriority fun _ => rfl
    have hsaved₀ : s₀.saved = s.saved := by
      rw [← hs₀]
      exact funext fun x =>
        setThread_keeps s c x (fun th => (th.initPriority, th.error)) fun _ => rfl
    have hrest₀ : s₀.current = s.current ∧ s₀.suspendThread = s.suspendThread ∧
        s₀.lockNest = s.lockNest ∧ s₀.ready = s.ready := by
      rw [← hs₀]
      exact ⟨rfl, rfl, rfl, rfl⟩
    obtain ⟨hcur₀, hlists₀, hlock₀, hready₀⟩ := hrest₀
    have hinv₀ : s₀.Inv := by
      rw [← hs₀]
      exact h.setThread c (fun _ => rfl) (fun _ => rfl) fun _ => rfl
    by_cases hstay : s.prio c < highest ∨ s.prio c = highest ∧ (s.thread c).yield = false
    · rw [if_pos hstay, if_neg (not_not.mpr rfl)]
      obtain ⟨hinv, hkept⟩ := hinv₀.keep (c := c) (hstat₀ ▸ hrun)
      exact ⟨hinv, .inl ⟨hstay, hkept.current.trans hcur₀, hkept.stat.trans hstat₀,
        hkept.prio.trans hprio₀, hkept.saved.trans hsaved₀, hkept.lists.trans hlists₀,
        hkept.lock.trans hlock₀,
        hready₀ ▸ hprio₀ ▸ hkept.ready⟩⟩
    · rw [if_neg hstay, if_pos hne]
      obtain ⟨hinv, hsw⟩ :=
        hinv₀.switch_running (hcur₀.trans hc) (hstat₀ ▸ hrun) (hstat₀ ▸ hhead)
      exact ⟨hinv, .inr (.inl ⟨hstay, hsw.current, hsw.runs, hsw.leaves,
        fun x hx hxc => hstat₀ ▸ hsw.other x hx hxc, hsw.prio.trans hprio₀,
        hsw.saved.trans hsaved₀, hsw.lists.trans hlists₀, hsw.lock.trans hlock₀,
        hready₀ ▸ hprio₀ ▸ hsw.ready⟩)⟩
  · have hnot : ¬ s.stat c = .running := fun hr => nomatch hsus.symm.trans hr
    simp only [hnot, false_and, if_false, if_pos hne]
    obtain ⟨hinv, hsw⟩ := h.switch_suspended hc hsus hhead
    exact ⟨hinv, .inr (.inr ⟨hsus, hsw⟩)⟩

/-- And the thread that runs then is one of the highest priority. -/
theorem schedule_ready {c : τ} (h : s.Inv) (hl : s.lockNest = 0) (hc : s.current = some c)
    (hg : s.ready.group ≠ 0) : Scheduled s (rtSchedule s) ∧ (rtSchedule s).Settled := by
  obtain ⟨highest, hlow⟩ := lowest_ne_none hg
  obtain ⟨⟨head, rest, hq, hhead, hkey⟩, hmin⟩ := h.ready.lowest_some hlow
  obtain ⟨hinv, ⟨hrun, hstay, hkept⟩ | ⟨hrun, hstay, hsw⟩ | ⟨hsus, hsw⟩⟩ :=
    schedule_cases h hl hc hlow hq hhead
  · refine ⟨⟨hinv, fun t => ?_, fun t => ?_, hkept.prio, hkept.saved, hkept.lists,
      congrArg Option.isSome hkept.current, hkept.lock⟩, fun c' hc' t ht => ?_⟩
    · rw [Scheduler.Runnable, hkept.stat]
      rfl
    · rw [hkept.stat]
    · rw [hkept.current, hc] at hc'
      rw [← Option.some.inj hc', hkept.prio, hkept.stat]
      rw [hkept.stat] at ht
      exact ⟨hrun, Nat.le_trans (hstay.elim Nat.le_of_lt fun he => Nat.le_of_eq he.1) (hmin t ht)⟩
  · refine ⟨.of_switched hinv hsw hc hhead ⟨fun _ => .inr hrun, fun _ => rfl⟩
      ⟨by decide, by decide⟩ (hrun ▸ by decide), ?_⟩
    intro c' hc' t ht
    rw [← Option.some.inj (hsw.current.symm.trans hc')]
    refine ⟨hsw.runs, ?_⟩
    rw [hsw.prio, hkey]
    by_cases htc : t = c
    · rw [htc]
      exact Nat.le_of_not_lt fun hlt => hstay (.inl hlt)
    by_cases hth : t = head
    · rw [hth, hsw.runs] at ht
      exact nomatch ht
    · rw [hsw.other t hth htc] at ht
      exact hmin t ht
  · refine ⟨.of_switched hinv hsw hc hhead ⟨(nomatch ·), fun hr => ?_⟩
      ⟨by decide, by decide⟩ (hsus ▸ by decide), ?_⟩
    · rw [Scheduler.Runnable, hsus] at hr
      exact hr.elim (fun hr => nomatch hr) fun hr => nomatch hr
    · intro c' hc' t ht
      rw [← Option.some.inj (hsw.current.symm.trans hc')]
      refine ⟨hsw.runs, ?_⟩
      rw [hsw.prio, hkey]
      by_cases hth : t = head
      · rw [hth, hsw.runs] at ht
        exact nomatch ht
      by_cases htc : t = c
      · rw [htc, hsw.leaves] at ht
        exact nomatch ht
      · rw [hsw.other t hth htc] at ht
        exact hmin t ht

theorem schedule_spec (h : s.Inv) : Scheduled s (rtSchedule s) ∧
    (s.lockNest = 0 → (rtSchedule s).Settled) := by
  by_cases hgo : s.lockNest = 0 ∧ s.ready.group ≠ 0
  · cases hc : s.current with
    | some c =>
      obtain ⟨hkeep, hset⟩ := schedule_ready h hgo.1 hc hgo.2
      exact ⟨hkeep, fun _ => hset⟩
    | none =>
      have hsame : rtSchedule s = s := by
        unfold rtSchedule
        rw [if_pos hgo, hc]
      rw [hsame]
      exact ⟨⟨h, fun _ => Iff.rfl, fun _ => Iff.rfl, rfl, rfl, rfl, rfl, rfl⟩,
        fun _ c hcur => nomatch hc.symm.trans hcur⟩
  · have hsame : rtSchedule s = s := if_neg hgo
    rw [hsame]
    refine ⟨⟨h, fun _ => Iff.rfl, fun _ => Iff.rfl, rfl, rfl, rfl, rfl, rfl⟩, fun hl c _ t ht => ?_⟩
    exact absurd ht (h.ready.empty_of_zero (not_not.mp fun hg => hgo ⟨hl, hg⟩) t)

end Live2dStm32.Kernel
