import Live2dStm32.Kernel.Threads

/-
  Calls that block (ipc.c, thread.c, timer.c): a thread that waits for an IPC object is on the
  list of the object until it is woken up or its timer runs out, and returns its error then. An
  object depends on its list, on the threads that are inside one of its calls, and on their
  errors: everything else in the system leaves these alone.
-/

namespace Live2dStm32.Kernel

open Live2dStm32.Lib

/-- The scheduler, which `thread_timer`s are activated, and the object whose blocking call a
    thread has not returned from. -/
structure Ipc (τ ω : Type) where
  sched : Scheduler τ ω
  timer : τ → Bool
  pending : τ → Option ω

namespace Ipc

variable {τ ω : Type} [DecidableEq τ] [DecidableEq ω] (s : Ipc τ ω)

def list (w : ω) : List τ := s.sched.suspendThread w

def error (t : τ) : Int := (s.sched.thread t).error

/-- The thread that can make a call: it runs, and is not inside of one. A thread that has suspended
    itself runs on to its `rt_schedule`, and calls nothing on the way. -/
def caller : Option τ :=
  match s.sched.current with
  | some c => if s.sched.stat c = .running ∧ s.pending c = none then some c else none
  | none => none

def waits (t : τ) : Bool :=
  match s.pending t with
  | some w => decide (t ∈ s.list w)
  | none => false

def setError (t : τ) (error : Int) : Ipc τ ω :=
  { s with sched := s.sched.setThread t (Kernel.setError error) }

/-- `_ipc_list_suspend` of the calling thread, and its timer; `rt_schedule` follows. -/
def block (w : ω) (self : τ) (flag : IpcFlag) (time : Int) : Ipc τ ω where
  sched := ipcListSuspend s.sched w self flag
  timer := Function.update s.timer self (decide (0 < time))
  pending := Function.update s.pending self (some w)

/-- `_ipc_list_resume`: `rt_thread_resume` stops the timer. -/
def wake (w : ω) : Ipc τ ω :=
  match s.list w with
  | t :: _ => { s with
      sched := ipcListResume s.sched w
      timer := Function.update s.timer t false }
  | [] => s

/-- The return from the call, with `thread->error`. -/
def leave (self : τ) : Ipc τ ω × Int :=
  ({ s with pending := Function.update s.pending self none }, s.error self)

/-- `rt_thread_suspend` and `rt_thread_resume` stop the timer unless they fail. -/
def stopTimer (t : τ) (called : Scheduler τ ω × Int) : Ipc τ ω :=
  { s with
    sched := called.1
    timer := if called.2 = rtEok then Function.update s.timer t false else s.timer }

/-- What can happen outside the calls of the objects. -/
inductive Act (τ : Type) where
  | startup (t : τ)
  | start
  | schedule
  | yield
  | tick
  | suspend (t : τ)
  | resume (t : τ)
  | delay
  | awake
  | timeout (t : τ)
  | changePriority (t : τ) (priority : Nat)
  | enterCritical
  | exitCritical

def step : Act τ → Option (Ipc τ ω)
  | .startup t =>
    if s.sched.stat t = .init then some { s with
      sched := rtThreadStartup s.sched t
      timer := Function.update s.timer t false }
    else none
  | .start =>
    if s.sched.current = none ∧ s.sched.ready.group ≠ 0 then
      some { s with sched := rtSystemSchedulerStart s.sched }
    else none
  | .schedule => some { s with sched := rtSchedule s.sched }
  | .yield => s.caller.map fun _ => { s with sched := rtThreadYield s.sched }
  | .tick => some { s with sched := rtTickIncrease s.sched }
  | .suspend t => some (s.stopTimer t (rtThreadSuspend s.sched t))
  | .resume t => some (s.stopTimer t (rtThreadResume s.sched t))
  -- rt_thread_delay, up to its rt_schedule, and behind it
  | .delay => s.caller.map fun c => { s with
      sched := (rtThreadSuspend s.sched c).1
      timer := Function.update s.timer c true }
  | .awake => s.caller.map fun c => if s.error c = -rtEtimeout then s.setError c rtEok else s
  | .timeout t =>
    if s.timer t then some { s with
      sched := threadTimeout s.sched t
      timer := Function.update s.timer t false }
    else none
  | .changePriority t priority =>
    if priority < rtThreadPriorityMax then
      some { s with sched := rtThreadChangePriority s.sched t priority }
    else none
  | .enterCritical => s.caller.map fun _ => { s with sched := rtEnterCritical s.sched }
  | .exitCritical => s.caller.map fun _ => { s with sched := rtExitCritical s.sched }

/-- Nobody resumes a thread that waits for an object. -/
def Regular : Act τ → Prop
  | .resume t => s.waits t = false
  | _ => True

instance : (a : Act τ) → Decidable (s.Regular a)
  | .resume t => inferInstanceAs (Decidable (s.waits t = false))
  | .startup _ | .start | .schedule | .yield | .tick | .suspend _ | .delay | .awake | .timeout _
  | .changePriority .. | .enterCritical | .exitCritical => inferInstanceAs (Decidable True)

def boot (priority : τ → Nat) (slice : τ → BitVec 32) : Ipc τ ω where
  sched := .boot priority slice
  timer _ := false
  pending _ := none

/-! ## What holds of every state -/

/-- The threads on a list are inside a call of its object, with no error so far, and a timer runs
    only for a thread that is suspended, and inside a call only while it waits. -/
structure Inv (s : Ipc τ ω) : Prop where
  sched : s.sched.Inv
  listed : ∀ w t, t ∈ s.list w → s.pending t = some w ∧ s.error t = rtEok
  armed : ∀ t, s.timer t = true →
    s.sched.stat t = .suspend ∧ ∀ w, s.pending t = some w → t ∈ s.list w

/-- The object `w` sees no difference. -/
structure Frame (s s' : Ipc τ ω) (w : ω) : Prop where
  list : s'.list w = s.list w
  pending : ∀ t, s'.pending t = some w ↔ s.pending t = some w
  error : ∀ t, s.pending t = some w → s'.error t = s.error t

/-- The wait of `t` ends with a timeout. -/
structure Expired (s s' : Ipc τ ω) (t : τ) : Prop where
  waiting : ∀ w, s.pending t = some w → t ∈ s.list w
  list : ∀ w, s'.list w = (s.list w).erase t
  pending : s'.pending = s.pending
  self : s'.error t = -rtEtimeout
  error : ∀ x, x ≠ t → s'.error x = s.error x

/-- No priority changes, but for the one of a thread that starts. -/
structure Undisturbed (s s' : Scheduler τ ω) : Prop where
  prio : ∀ t, s'.prio t = s.prio t ∨ s.stat t = .init ∧ s'.prio t = s.initPrio t
  initPrio : s'.initPrio = s.initPrio
  unstarted : ∀ t, s'.stat t = .init → s.stat t = .init
  started : s.current.isSome = true → s'.current.isSome = true

variable {s} {s' : Ipc τ ω}

omit [DecidableEq τ] [DecidableEq ω] in
theorem caller_eq_some {c : τ} :
    s.caller = some c ↔
      s.sched.current = some c ∧ s.sched.stat c = .running ∧ s.pending c = none := by
  unfold caller
  split
  next c' hc =>
    rw [Option.ite_none_right_eq_some, hc]
    constructor
    · rintro ⟨h, ⟨⟩⟩
      exact ⟨rfl, h⟩
    · rintro ⟨⟨⟩, h⟩
      exact ⟨h, rfl⟩
  next hc =>
    rw [hc]
    exact ⟨(nomatch ·), fun h => nomatch h.1⟩

omit [DecidableEq τ] [DecidableEq ω] in
theorem caller_congr (hcur : s'.sched.current = s.sched.current)
    (hstat : s'.sched.stat = s.sched.stat) (hpending : s'.pending = s.pending) :
    s'.caller = s.caller := by
  unfold caller
  rw [hcur, hstat, hpending]

omit [DecidableEq ω] in
theorem caller_setError (s : Ipc τ ω) (t : τ) (error : Int) :
    (s.setError t error).caller = s.caller :=
  caller_congr rfl (funext fun x => setThread_keeps s.sched t x RtThread.stat fun _ => rfl) rfl

omit [DecidableEq ω] in
theorem error_setError (s : Ipc τ ω) (t : τ) (error : Int) : (s.setError t error).error t = error :=
  congrArg RtThread.error (setThread_self s.sched t (Kernel.setError error))

omit [DecidableEq τ] [DecidableEq ω] in
/-- A thread that runs is on no list. -/
theorem Inv.not_listed (h : s.Inv) {t : τ} (ht : s.sched.stat t ≠ .suspend) (w : ω) :
    t ∉ s.list w := fun hmem => ht (h.sched.waiting w t hmem)

omit [DecidableEq ω] in
theorem Inv.not_waits [DecidableEq ω] (h : s.Inv) {t : τ} (ht : s.waits t = false) (w : ω) :
    t ∉ s.list w := by
  intro hmem
  unfold waits at ht
  rw [(h.listed w t hmem).1] at ht
  exact of_decide_eq_false ht hmem

omit [DecidableEq τ] [DecidableEq ω] in
theorem error_of_saved (h : s'.sched.saved = s.sched.saved) (t : τ) : s'.error t = s.error t :=
  congrArg Prod.snd (congrFun h t)

omit [DecidableEq τ] [DecidableEq ω] in
theorem frame_of_saved (hlists : s'.sched.suspendThread = s.sched.suspendThread)
    (hpending : s'.pending = s.pending) (hsaved : s'.sched.saved = s.sched.saved) (w : ω) :
    Frame s s' w :=
  ⟨congrFun hlists w, fun t => by rw [hpending], fun t _ => error_of_saved hsaved t⟩

omit [DecidableEq τ] [DecidableEq ω] in
theorem Inv.of_frame (h : s.Inv) (hsched : s'.sched.Inv) (hframe : ∀ w, Frame s s' w)
    (harmed : ∀ t, s'.timer t = true →
      s'.sched.stat t = .suspend ∧ (s.timer t = true ∨ s.pending t = none)) : s'.Inv := by
  refine ⟨hsched, fun w t ht => ?_, fun t ht => ⟨(harmed t ht).1, fun w hw => ?_⟩⟩
  · rw [(hframe w).list] at ht
    obtain ⟨hpend, herr⟩ := h.listed w t ht
    exact ⟨((hframe w).pending t).mpr hpend, ((hframe w).error t hpend).trans herr⟩
  · have hpend := ((hframe w).pending t).mp hw
    rw [(hframe w).list]
    obtain htimer | hnone := (harmed t ht).2
    · exact (h.armed t htimer).2 w hpend
    · exact nomatch hpend.symm.trans hnone

omit [DecidableEq τ] [DecidableEq ω] in
theorem undisturbed_of_keeps {W : τ → Prop} {s s' : Scheduler τ ω} (h : Keeps W s s') :
    Undisturbed s s' :=
  ⟨fun t => .inl (congrFun h.prio t), initPrio_of_saved h.saved, h.unstarted, h.started⟩

omit [DecidableEq τ] [DecidableEq ω] in
theorem Undisturbed.trans {s s' s'' : Scheduler τ ω} (h : Undisturbed s s')
    (h' : Undisturbed s' s'') : Undisturbed s s'' := by
  refine ⟨fun t => ?_, h'.initPrio.trans h.initPrio, fun t ht => h.unstarted t (h'.unstarted t ht),
    fun hs => h'.started (h.started hs)⟩
  obtain hp | ⟨hi, hp⟩ := h'.prio t
  · rw [hp]
    exact h.prio t
  · exact .inr ⟨h.unstarted t hi, hp.trans (congrFun h.initPrio t)⟩

omit [DecidableEq ω] in
theorem undisturbed_setError (s : Scheduler τ ω) (t : τ) (error : Int) :
    Undisturbed s (s.setThread t (Kernel.setError error)) :=
  ⟨fun x => .inl (setThread_keeps s t x RtThread.currentPriority fun _ => rfl),
    funext fun x => setThread_keeps s t x RtThread.initPriority fun _ => rfl,
    fun x hx => (setThread_keeps s t x RtThread.stat (f := Kernel.setError error)
      fun _ => rfl).symm.trans hx, id⟩

/-! ## Outside the calls -/

/-- The call of `t` has ended well, but has not returned. -/
def Won (s : Ipc τ ω) (w : ω) (t : τ) : Prop :=
  s.pending t = some w ∧ t ∉ s.list w ∧ s.error t = rtEok

instance (w : ω) (t : τ) : Decidable (s.Won w t) := inferInstanceAs (Decidable (_ ∧ _ ∧ _))

/-- The object `w` sees at most that a thread stops to wait. -/
structure Spared (s s' : Ipc τ ω) (w : ω) : Prop where
  list : (s'.list w).Sublist (s.list w)
  pending : ∀ t, s'.pending t = some w ↔ s.pending t = some w
  won : ∀ t, s'.Won w t ↔ s.Won w t

omit [DecidableEq τ] [DecidableEq ω] in
theorem Spared.refl (s : Ipc τ ω) (w : ω) : Spared s s w :=
  ⟨List.Sublist.refl _, fun _ => Iff.rfl, fun _ => Iff.rfl⟩

omit [DecidableEq τ] [DecidableEq ω] in
theorem Spared.trans {s'' : Ipc τ ω} {w : ω} (h : Spared s s' w) (h' : Spared s' s'' w) :
    Spared s s'' w :=
  ⟨h'.list.trans h.list, fun t => (h'.pending t).trans (h.pending t),
    fun t => (h'.won t).trans (h.won t)⟩

omit [DecidableEq τ] [DecidableEq ω] in
theorem Frame.spared {w : ω} (h : Frame s s' w) : Spared s s' w := by
  refine ⟨h.list ▸ List.Sublist.refl _, h.pending, fun t => ?_⟩
  unfold Won
  rw [h.list, h.pending]
  exact and_congr_right fun hpend => by rw [h.error t hpend]

omit [DecidableEq ω] in
theorem Expired.spared {t : τ} (h : Expired s s' t) (w : ω) : Spared s s' w := by
  refine ⟨h.list w ▸ List.erase_sublist, fun x => by rw [h.pending], fun x => ?_⟩
  unfold Won
  rw [h.list, h.pending]
  refine and_congr_right fun hpend => ?_
  by_cases hx : x = t
  · rw [hx] at hpend ⊢
    exact iff_of_false (fun hw => nomatch h.self.symm.trans hw.2) fun hw =>
      hw.1 (h.waiting w hpend)
  · rw [h.error x hx, List.mem_erase_of_ne hx]

/-- What one step does: the objects see nothing, or that a wait timed out. -/
structure Moved (s s' : Ipc τ ω) (a : Act τ) : Prop where
  inv : s'.Inv
  objects : (∀ w, Frame s s' w) ∨ ∃ t, a = .timeout t ∧ Expired s s' t
  prio : (∀ t p, a ≠ .changePriority t p) → Undisturbed s.sched s'.sched

omit [DecidableEq ω] in
/-- Calls that only schedule: no thread wakes up. -/
theorem moved_of_keeps {a : Act τ} (h : s.Inv) (hkeep : Keeps (fun _ => False) s.sched s'.sched)
    (hlists : s'.sched.suspendThread = s.sched.suspendThread) (htimer : s'.timer = s.timer)
    (hpending : s'.pending = s.pending) : Moved s s' a := by
  have hframe := frame_of_saved hlists hpending hkeep.saved
  refine ⟨h.of_frame hkeep.inv hframe fun t ht => ?_, .inl hframe, fun _ =>
    undisturbed_of_keeps hkeep⟩
  rw [htimer] at ht
  exact ⟨hkeep.asleep t (fun hf => hf) (h.armed t ht).1, .inl ht⟩

omit [DecidableEq ω] in
/-- Calls that wake up at most one thread, which waits for no object. -/
theorem moved_of_resumed {a : Act τ} {t : τ} (h : s.Inv)
    (hkeep : Keeps (· = t) s.sched s'.sched)
    (hlists : s'.sched.suspendThread = s.sched.suspendThread)
    (htimer : ∀ x, s'.timer x = true → x ≠ t ∧ s.timer x = true)
    (hpending : s'.pending = s.pending) : Moved s s' a := by
  have hframe := frame_of_saved hlists hpending hkeep.saved
  refine ⟨h.of_frame hkeep.inv hframe fun x hx => ?_, .inl hframe, fun _ =>
    undisturbed_of_keeps hkeep⟩
  obtain ⟨hxt, hx⟩ := htimer x hx
  exact ⟨hkeep.asleep x hxt (h.armed x hx).1, .inl hx⟩

omit [DecidableEq ω] in
theorem timer_stopped {timer : τ → Bool} {t x : τ}
    (h : Function.update timer t false x = true) : x ≠ t ∧ timer x = true := by
  by_cases hx : x = t
  · rw [hx, Function.update_self] at h
    exact nomatch h
  · rw [Function.update_of_ne hx] at h
    exact ⟨hx, h⟩

omit [DecidableEq ω] in
theorem moved_startup (h : s.Inv) {t : τ} (ht : s.sched.stat t = .init) :
    Moved s { s with
      sched := rtThreadStartup s.sched t
      timer := Function.update s.timer t false } (.startup t) := by
  obtain ⟨hkeep, hlists⟩ := h.sched.startup ht
  have hbegin : (s.sched.setThread t RtThread.begin).saved = s.sched.saved :=
    funext fun x => setThread_keeps s.sched t x (fun th => (th.initPriority, th.error)) fun _ => rfl
  have hother : ∀ x, x ≠ t → (s.sched.setThread t RtThread.begin).thread x = s.sched.thread x :=
    fun x hx => setThread_ne s.sched _ hx
  rw [h.sched.erase_eq (ht ▸ by decide)] at hlists
  have hframe : ∀ w, Frame s { s with
      sched := rtThreadStartup s.sched t
      timer := Function.update s.timer t false } w :=
    frame_of_saved hlists rfl (hkeep.saved.trans hbegin)
  refine ⟨h.of_frame hkeep.inv hframe fun x hx => ?_, .inl hframe, fun _ => ⟨fun x => ?_, ?_,
    fun x hx => ?_, hkeep.started⟩⟩
  · obtain ⟨hxt, hx⟩ := timer_stopped hx
    refine ⟨hkeep.asleep x hxt ?_, .inl hx⟩
    exact (congrArg RtThread.stat (hother x hxt)).trans (h.armed x hx).1
  · dsimp only
    rw [hkeep.prio]
    by_cases hxt : x = t
    · subst hxt
      exact .inr ⟨ht, congrArg RtThread.currentPriority (setThread_self s.sched x RtThread.begin)⟩
    · exact .inl (congrArg RtThread.currentPriority (hother x hxt))
  · exact initPrio_of_saved (hkeep.saved.trans hbegin)
  · by_cases hxt : x = t
    · rw [hxt]
      exact ht
    · exact (congrArg RtThread.stat (hother x hxt)).symm.trans (hkeep.unstarted x hx)

omit [DecidableEq ω] in
/-- The timer of a thread runs out: the thread was suspended, as the handler asserts. -/
theorem moved_timeout (h : s.Inv) {t : τ} (ht : s.timer t = true) :
    Moved s { s with
      sched := threadTimeout s.sched t
      timer := Function.update s.timer t false } (.timeout t) := by
  obtain ⟨hkeep, hlists⟩ := h.sched.timeout (h.armed t ht).1
  have hfield : ∀ {α : Type} (g : RtThread → α)
      (_ : ∀ th, g (Kernel.setError (-rtEtimeout) th) = g th) (x : τ),
      g ((s.sched.setThread t (Kernel.setError (-rtEtimeout))).thread x) =
        g (s.sched.thread x) := fun g hg x => setThread_keeps s.sched t x g hg
  have hself : (threadTimeout s.sched t).saved t = (s.sched.initPrio t, -rtEtimeout) := by
    rw [hkeep.saved, Scheduler.saved, Scheduler.initPrio, setThread_self]
    rfl
  have hother : ∀ x, x ≠ t → (threadTimeout s.sched t).saved x = s.sched.saved x := fun x hx => by
    rw [hkeep.saved, Scheduler.saved, Scheduler.initPrio, setThread_ne _ _ hx]
    rfl
  have hlist : ∀ w x, x ∈ (threadTimeout s.sched t).suspendThread w → x ≠ t ∧ x ∈ s.list w := by
    intro w x hx
    rw [hlists] at hx
    exact (h.sched.nodup w).mem_erase_iff.mp hx
  refine ⟨⟨hkeep.inv, fun w x hx => ?_, fun x hx => ?_⟩, .inr ⟨t, rfl, (h.armed t ht).2,
    congrFun hlists, rfl, congrArg Prod.snd hself,
    fun x hx => congrArg Prod.snd (hother x hx)⟩, fun _ => ?_⟩
  · obtain ⟨hxt, hx⟩ := hlist w x hx
    obtain ⟨hpend, herr⟩ := h.listed w x hx
    exact ⟨hpend, (congrArg Prod.snd (hother x hxt)).trans herr⟩
  · obtain ⟨hxt, hx⟩ := timer_stopped hx
    obtain ⟨hsus, hin⟩ := h.armed x hx
    refine ⟨hkeep.asleep x hxt ((hfield RtThread.stat (fun _ => rfl) x).trans hsus), fun w hw => ?_⟩
    change x ∈ (threadTimeout s.sched t).suspendThread w
    rw [hlists]
    exact (List.mem_erase_of_ne hxt).mpr (hin w hw)
  · exact (undisturbed_setError s.sched t _).trans (undisturbed_of_keeps hkeep)

omit [DecidableEq ω] in
/-- A thread that is inside no call may change its error. -/
theorem setError_frame (h : s.Inv) {t : τ} (ht : s.pending t = none) (error : Int) :
    (s.setError t error).Inv ∧ (∀ w, Frame s (s.setError t error) w) ∧
      Undisturbed s.sched (s.setError t error).sched := by
  have hframe : ∀ w, Frame s (s.setError t error) w := fun w =>
    ⟨rfl, fun _ => Iff.rfl, fun x hx => by
      have hxt : x ≠ t := fun heq => by
        rw [heq, ht] at hx
        exact nomatch hx
      exact congrArg RtThread.error (setThread_ne s.sched _ hxt)⟩
  have hstat : ∀ x, (s.setError t error).sched.stat x = s.sched.stat x := fun x =>
    setThread_keeps s.sched t x RtThread.stat fun _ => rfl
  exact ⟨h.of_frame (h.sched.setError t error) hframe fun x hx =>
    ⟨(hstat x).trans (h.armed x hx).1, .inl hx⟩, hframe, undisturbed_setError s.sched t error⟩

omit [DecidableEq ω] in
theorem changePriority_frame (h : s.Inv) (t : τ) {priority : Nat}
    (hp : priority < rtThreadPriorityMax) :
    let s' := { s with sched := rtThreadChangePriority s.sched t priority }
    s'.Inv ∧ (∀ w, Frame s s' w) ∧ s'.caller = s.caller ∧ ∀ t, s'.error t = s.error t := by
  obtain ⟨hinv, hstat, -, hsaved, hlists, hcur⟩ := h.sched.changePriority t hp
  have hframe : ∀ w, Frame s { s with
      sched := rtThreadChangePriority s.sched t priority } w := frame_of_saved hlists rfl hsaved
  refine ⟨h.of_frame hinv hframe fun x hx => ⟨?_, .inl hx⟩, hframe, caller_congr hcur hstat rfl,
    error_of_saved (s := s) hsaved⟩
  exact (congrFun hstat x).trans (h.armed x hx).1

omit [DecidableEq ω] in
theorem moved_suspend {a : Act τ} (h : s.Inv) {t : τ} (ht : s.sched.Runnable t)
    {timer : τ → Bool}
    (htimer : ∀ x, timer x = true → s.timer x = true ∨ x = t ∧ s.pending t = none) :
    Moved s { s with
      sched := (rtThreadSuspend s.sched t).1
      timer := timer } a := by
  obtain ⟨hkeep, hlists⟩ := h.sched.suspend (W := fun _ => False) ht
  rw [rtThreadSuspend_eq ht]
  have hframe : ∀ w, Frame s { s with
      sched := (rtScheduleRemoveThread s.sched t).setStat t .suspend
      timer := timer } w := frame_of_saved hlists rfl hkeep.saved
  refine ⟨h.of_frame hkeep.inv hframe fun x hx => ?_, .inl hframe, fun _ =>
    undisturbed_of_keeps hkeep⟩
  obtain hx | ⟨rfl, hnone⟩ := htimer x hx
  · exact ⟨hkeep.asleep x (fun hf => hf) (h.armed x hx).1, .inl hx⟩
  · exact ⟨stat_setStat_self _ _ _, .inr hnone⟩

theorem step_moved (h : s.Inv) {a : Act τ} (hreg : s.Regular a) (hstep : s.step a = some s') :
    Moved s s' a := by
  cases a with
  | startup t =>
    obtain ⟨ht, ⟨⟩⟩ := Option.ite_none_right_eq_some.mp hstep
    exact moved_startup h ht
  | start =>
    obtain ⟨⟨hc, hg⟩, ⟨⟩⟩ := Option.ite_none_right_eq_some.mp hstep
    obtain ⟨hkeep, hlists⟩ := h.sched.start hc hg
    exact moved_of_keeps h hkeep hlists rfl rfl
  | schedule =>
    cases hstep
    obtain ⟨hkeep, hlists⟩ := h.sched.schedule
    exact moved_of_keeps h hkeep hlists rfl rfl
  | yield =>
    obtain ⟨c, -, rfl⟩ := Option.map_eq_some_iff.mp hstep
    obtain ⟨hkeep, hlists⟩ := h.sched.yield
    exact moved_of_keeps h hkeep hlists rfl rfl
  | tick =>
    cases hstep
    obtain ⟨hkeep, hlists⟩ := h.sched.tick
    exact moved_of_keeps h hkeep hlists rfl rfl
  | suspend t =>
    obtain rfl := Option.some.inj hstep
    by_cases ht : s.sched.stat t ≠ .ready ∧ s.sched.stat t ≠ .running
    · have hfail : rtThreadSuspend s.sched t = (s.sched, -rtError) := if_pos ht
      rw [stopTimer, hfail]
      exact moved_of_keeps h (Keeps.refl h.sched) rfl rfl rfl
    · have hok : (rtThreadSuspend s.sched t).2 = rtEok := congrArg Prod.snd (if_neg ht)
      refine moved_suspend h (runnable_of_not ht) fun x hx => .inl ?_
      rw [if_pos hok] at hx
      exact (timer_stopped hx).2
  | resume t =>
    obtain rfl := Option.some.inj hstep
    obtain ⟨hkeep, hlists⟩ := h.sched.resume t
    by_cases ht : s.sched.stat t ≠ .suspend
    · have hfail : rtThreadResume s.sched t = (s.sched, -rtError) := if_pos ht
      rw [stopTimer, hfail]
      exact moved_of_keeps h (Keeps.refl h.sched) rfl rfl rfl
    · have hout : (fun w => (s.sched.suspendThread w).erase t) = s.sched.suspendThread :=
        funext fun w => List.erase_of_not_mem (h.not_waits hreg w)
      have hok : (rtThreadResume s.sched t).2 = rtEok := congrArg Prod.snd (if_neg ht)
      refine moved_of_resumed (t := t) h hkeep (hlists.trans hout) (fun x hx => ?_) rfl
      change (if (rtThreadResume s.sched t).2 = rtEok then _ else _ : τ → Bool) x = true at hx
      rw [if_pos hok] at hx
      exact timer_stopped hx
  | delay =>
    obtain ⟨c, hc, rfl⟩ := Option.map_eq_some_iff.mp hstep
    obtain ⟨-, hrun, hnone⟩ := caller_eq_some.mp hc
    refine moved_suspend h (.inr hrun) fun x hx => ?_
    by_cases hxc : x = c
    · exact .inr ⟨hxc, hnone⟩
    · rw [Function.update_of_ne hxc] at hx
      exact .inl hx
  | awake =>
    obtain ⟨c, hc, rfl⟩ := Option.map_eq_some_iff.mp hstep
    obtain ⟨-, -, hnone⟩ := caller_eq_some.mp hc
    split
    · obtain ⟨hinv, hframe, hcalm⟩ := setError_frame h hnone rtEok
      exact ⟨hinv, .inl hframe, fun _ => hcalm⟩
    · exact moved_of_keeps h (Keeps.refl h.sched) rfl rfl rfl
  | timeout t =>
    obtain ⟨ht, ⟨⟩⟩ := Option.ite_none_right_eq_some.mp hstep
    exact moved_timeout h ht
  | changePriority t priority =>
    obtain ⟨hp, ⟨⟩⟩ := Option.ite_none_right_eq_some.mp hstep
    obtain ⟨hinv, hframe, -⟩ := changePriority_frame h t hp
    exact ⟨hinv, .inl hframe, fun hne => absurd rfl (hne t priority)⟩
  | enterCritical =>
    obtain ⟨c, -, rfl⟩ := Option.map_eq_some_iff.mp hstep
    have hkeep : Keeps (fun _ => False) s.sched (rtEnterCritical s.sched) :=
      ⟨h.sched.lock _, rfl, rfl, fun _ => id, fun _ _ => id, id⟩
    exact moved_of_keeps h hkeep rfl rfl rfl
  | exitCritical =>
    obtain ⟨c, -, rfl⟩ := Option.map_eq_some_iff.mp hstep
    obtain ⟨hkeep, hlists⟩ := h.sched.exitCritical
    exact moved_of_keeps h hkeep hlists rfl rfl

theorem step_spared (h : s.Inv) {a : Act τ} (hreg : s.Regular a) (hstep : s.step a = some s')
    (w : ω) : Spared s s' w := by
  obtain hframe | ⟨t, -, hexp⟩ := (step_moved h hreg hstep).objects
  · exact (hframe w).spared
  · exact hexp.spared w

/-! ## Inside the calls -/

/-- A step of the object `w`; the others see nothing. -/
structure Own (s s' : Ipc τ ω) (w : ω) : Prop where
  inv : s'.Inv
  others : ∀ v, v ≠ w → Frame s s' v
  prio : s'.sched.prio = s.sched.prio
  calm : Undisturbed s.sched s'.sched

theorem block_own (h : s.Inv) {c : τ} (hc : s.caller = some c) (herr : s.error c = rtEok) (w : ω)
    (flag : IpcFlag) (time : Int) :
    Own s (s.block w c flag time) w ∧
      (s.block w c flag time).list w = ipcInsert s.sched.prio flag (s.list w) c ∧
      ∀ t, (s.block w c flag time).Won w t ↔ s.Won w t := by
  obtain ⟨-, hrun, hnone⟩ := caller_eq_some.mp hc
  have hsus : s.sched.stat c ≠ .suspend := hrun ▸ by decide
  obtain ⟨hkeep, hlists⟩ := h.sched.ipcSuspend (W := fun _ => False) w (.inr hrun) flag
  generalize hs' : s.block w c flag time = s'
  have hsched : s'.sched = ipcListSuspend s.sched w c flag := by rw [← hs']; rfl
  rw [← hsched] at hkeep hlists
  have hown : s'.list w = ipcInsert s.sched.prio flag (s.list w) c :=
    (congrFun hlists w).trans (Function.update_self ..)
  have hlist : ∀ v, v ≠ w → s'.list v = s.list v := fun v hv =>
    (congrFun hlists v).trans (Function.update_of_ne hv ..)
  have hmem : ∀ t, t ∈ s'.list w ↔ t = c ∨ t ∈ s.list w := fun t => by
    rw [hown, (perm_ipcInsert s.sched.prio flag (s.list w) c).mem_iff, List.mem_cons]
  have herror : ∀ t, s'.error t = s.error t := error_of_saved hkeep.saved
  have hpend : ∀ t, t ≠ c → s'.pending t = s.pending t := fun t ht => by
    rw [← hs']
    exact Function.update_of_ne ht ..
  have hself : s'.pending c = some w := by
    rw [← hs']
    exact Function.update_self ..
  have hframe : ∀ v, v ≠ w → Frame s s' v := fun v hv => by
    refine ⟨hlist v hv, fun t => ?_, fun t _ => herror t⟩
    by_cases ht : t = c
    · rw [ht, hself, hnone]
      exact ⟨fun heq => absurd (Option.some.inj heq).symm hv, (nomatch ·)⟩
    · rw [hpend t ht]
  refine ⟨⟨⟨hkeep.inv, fun v t ht => ?_, fun t ht => ?_⟩, hframe, hkeep.prio,
    undisturbed_of_keeps hkeep⟩, hown, fun t => ?_⟩
  · rw [herror]
    by_cases htc : t = c
    · rw [htc, hself]
      refine ⟨?_, herr⟩
      by_cases hv : v = w
      · rw [hv]
      · rw [htc, hlist v hv] at ht
        exact absurd ht (h.not_listed hsus v)
    · rw [hpend t htc]
      by_cases hv : v = w
      · rw [hv] at ht ⊢
        exact h.listed w t (((hmem t).mp ht).resolve_left htc)
      · rw [hlist v hv] at ht
        exact h.listed v t ht
  · by_cases htc : t = c
    · rw [htc]
      have hin : c ∈ s'.list w := (hmem c).mpr (.inl rfl)
      refine ⟨hkeep.inv.waiting w c hin, fun v hv => ?_⟩
      rw [← Option.some.inj (hself.symm.trans hv)]
      exact hin
    · have htimer : s.timer t = true := by
        rw [← hs'] at ht
        exact (Function.update_of_ne htc _ s.timer).symm.trans ht
      obtain ⟨hasleep, hin⟩ := h.armed t htimer
      refine ⟨hkeep.asleep t (fun hf => hf) hasleep, fun v hv => ?_⟩
      rw [hpend t htc] at hv
      by_cases hvw : v = w
      · subst hvw
        exact (hmem t).mpr (.inr (hin v hv))
      · rw [hlist v hvw]
        exact hin v hv
  · unfold Won
    rw [hmem, herror]
    by_cases htc : t = c
    · rw [htc, hself, hnone]
      exact ⟨fun hw => absurd (.inl rfl) hw.2.1, fun hw => nomatch hw.1⟩
    · rw [hpend t htc, or_iff_right htc]

omit [DecidableEq ω] in
theorem wake_own (h : s.Inv) {w : ω} {t : τ} {ts : List τ} (hlist : s.list w = t :: ts) :
    Own s (s.wake w) w ∧ (s.wake w).list w = ts ∧ (s.wake w).pending = s.pending ∧
      ∀ x, (s.wake w).Won w x ↔ s.Won w x ∨ x = t := by
  obtain ⟨hkeep, hlists⟩ := h.sched.resume t
  generalize hs' : s.wake w = s'
  have hwake : s' = { s with
      sched := (rtThreadResume s.sched t).1
      timer := Function.update s.timer t false } := by
    have hresume : ipcListResume s.sched w = (rtThreadResume s.sched t).1 := by
      unfold ipcListResume
      rw [show s.sched.suspendThread w = t :: ts from hlist]
    rw [← hs', wake, hlist, ← hresume]
  have hsched : s'.sched = (rtThreadResume s.sched t).1 := by rw [hwake]
  rw [← hsched] at hkeep hlists
  have hpending : s'.pending = s.pending := by rw [hwake]
  have herror : ∀ x, s'.error x = s.error x := error_of_saved hkeep.saved
  have hhead : t ∈ s.list w := hlist ▸ List.mem_cons_self
  have hown : s'.list w = ts := by
    refine (congrFun hlists w).trans ?_
    rw [show s.sched.suspendThread w = t :: ts from hlist, List.erase_cons_head]
  have hother : ∀ v, v ≠ w → s'.list v = s.list v := fun v hv => by
    refine (congrFun hlists v).trans (List.erase_of_not_mem fun hmem => hv ?_)
    exact h.sched.apart v w t hmem hhead
  have hnot : t ∉ ts := (List.nodup_cons.mp (hlist ▸ h.sched.nodup w)).1
  have hmem : ∀ v x, x ∈ s'.list v → x ∈ s.list v := fun v x hx => by
    rw [list, congrFun hlists v] at hx
    exact List.mem_of_mem_erase hx
  refine ⟨⟨⟨hkeep.inv, fun v x hx => ?_, fun x hx => ?_⟩, fun v hv => ?_, hkeep.prio,
    undisturbed_of_keeps hkeep⟩, hown, hpending, fun x => ?_⟩
  · rw [hpending, herror]
    exact h.listed v x (hmem v x hx)
  · rw [hwake] at hx
    obtain ⟨hxt, hx⟩ := timer_stopped hx
    obtain ⟨hsus, hin⟩ := h.armed x hx
    refine ⟨hkeep.asleep x hxt hsus, fun v hv => ?_⟩
    rw [hpending] at hv
    rw [list, congrFun hlists v]
    exact (List.mem_erase_of_ne hxt).mpr (hin v hv)
  · exact ⟨hother v hv, fun x => by rw [hpending], fun x _ => herror x⟩
  · unfold Won
    rw [hpending, herror, hown, hlist, List.mem_cons]
    by_cases hxt : x = t
    · rw [hxt]
      exact ⟨fun _ => .inr rfl, fun _ => ⟨(h.listed w t hhead).1, hnot, (h.listed w t hhead).2⟩⟩
    · rw [or_iff_right hxt, or_iff_left hxt]

omit [DecidableEq ω] in
/-- The thread that returns was woken up, or its timer ran out. -/
theorem leave_own (h : s.Inv) {w : ω} {c : τ} (hpend : s.pending c = some w)
    (hrun : s.sched.stat c = .running) :
    Own s (s.leave c).1 w ∧ (s.leave c).1.list w = s.list w ∧
      (∀ t, (s.leave c).1.Won w t ↔ s.Won w t ∧ t ≠ c) ∧
      (s.Won w c ↔ (s.leave c).2 = rtEok) := by
  have hsus : s.sched.stat c ≠ .suspend := hrun ▸ by decide
  have hcall : ∀ v t, (s.leave c).1.pending t = some v ↔ t ≠ c ∧ s.pending t = some v := by
    intro v t
    change Function.update s.pending c none t = some v ↔ _
    by_cases htc : t = c
    · rw [htc, Function.update_self]
      exact iff_of_false (nomatch ·) fun hne => hne.1 rfl
    · rw [Function.update_of_ne htc, and_iff_right htc]
  refine ⟨⟨⟨h.sched, fun v t ht => ?_, fun t ht => ?_⟩, fun v hv => ?_, rfl, ?_⟩, rfl, fun t => ?_,
    ?_⟩
  · have htc : t ≠ c := fun heq => h.not_listed hsus v (heq ▸ ht)
    obtain ⟨hin, herr⟩ := h.listed v t ht
    exact ⟨(hcall v t).mpr ⟨htc, hin⟩, herr⟩
  · obtain ⟨hasleep, hin⟩ := h.armed t ht
    exact ⟨hasleep, fun v hv => hin v ((hcall v t).mp hv).2⟩
  · refine ⟨rfl, fun t => ?_, fun _ _ => rfl⟩
    rw [hcall, and_iff_right_iff_imp]
    rintro ht rfl
    exact hv (Option.some.inj (ht.symm.trans hpend))
  · exact ⟨fun _ => .inl rfl, rfl, fun _ => id, id⟩
  · unfold Won
    rw [hcall, and_comm (a := t ≠ c), and_assoc, and_assoc, and_comm (a := t ≠ c)]
    exact Iff.rfl
  · exact ⟨fun hw => hw.2.2, fun herr => ⟨hpend, h.not_listed hsus w, herr⟩⟩

end Ipc

end Live2dStm32.Kernel
