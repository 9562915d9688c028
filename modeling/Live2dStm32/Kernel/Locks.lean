import Live2dStm32.Kernel.Blocking
import Mathlib.Data.Finset.Card

/-
  Semaphores and mutexes on top of the scheduler (ipc.c). A call that blocks is two steps, before
  its `rt_schedule` and behind it, and everything else can happen in between. What the threads
  know is what their calls returned: `taken` and `given` count the calls of a semaphore that
  returned `RT_EOK`, `holds` those of a mutex; `woken` keeps the threads that a release of the
  semaphore woke and whose calls have not returned.

  The sources refuse neither a call that has to wait while the scheduler is locked, which goes on
  without waiting and returns `RT_EOK`, nor `rt_thread_resume` of a thread that waits for an object:
  what is proved is about runs without them, `Regular`. Left out is what a thread calls that has
  suspended itself and has yet to be switched away from, `rt_sem_control`, and the deletion of an
  object while threads wait for it.
-/

namespace Live2dStm32.Kernel

open Live2dStm32.Lib

/-- struct rt_mutex; the threads that wait are in the scheduler. -/
structure RtMutex (τ : Type) where
  value : Nat
  owner : Option τ
  originalPriority : Nat
  hold : Nat
  deriving DecidableEq, Repr

def rtMutexHoldMax : Nat := 255

def rtMutexValueMax : Nat := 65535

/-- `rt_mutex_init`. -/
def RtMutex.init {τ : Type} : RtMutex τ := ⟨1, none, 0xff, 0⟩

structure Locks (τ σ μ : Type) where
  ipc : Ipc τ (σ ⊕ μ)
  value : σ → Nat
  mutex : μ → RtMutex τ
  taken : σ → Nat
  given : σ → Nat
  woken : σ → Finset τ
  holds : τ → μ → Nat

namespace Locks

variable {τ σ μ : Type} [DecidableEq τ] [DecidableEq σ] [DecidableEq μ] (s : Locks τ σ μ)

/-! ## Calls -/

def setValue (v : σ) (value : Nat) : Locks τ σ μ :=
  { s with value := Function.update s.value v value }

def setMutex (m : μ) (mutex : RtMutex τ) : Locks τ σ μ :=
  { s with mutex := Function.update s.mutex m mutex }

def setPriority (t : τ) (priority : Nat) : Locks τ σ μ :=
  { s with ipc := { s.ipc with sched := rtThreadChangePriority s.ipc.sched t priority } }

def setError (t : τ) (error : Int) : Locks τ σ μ := { s with ipc := s.ipc.setError t error }

def rtSemTake (flag : σ → IpcFlag) (v : σ) (self : τ) (time : Int) : Locks τ σ μ × Outcome :=
  if 0 < s.value v then (s.setValue v (s.value v - 1), .returned rtEok)
  else if time = 0 then (s, .returned (-rtEtimeout))
  else
    let s := s.setError self rtEok
    ({ s with ipc := s.ipc.block (.inl v) self (flag v) time }, .suspended)

/-- The thread at the head of the list is woken up. -/
def wakeSem (v : σ) : Locks τ σ μ :=
  match s.ipc.list (.inl v) with
  | t :: _ => { s with
      ipc := s.ipc.wake (.inl v)
      woken := Function.update s.woken v (insert t (s.woken v)) }
  | [] => s

def rtSemRelease (v : σ) : Locks τ σ μ × Int :=
  if s.ipc.list (.inl v) ≠ [] then (s.wakeSem v, rtEok)
  else if s.value v < rtSemValueMax then (s.setValue v (s.value v + 1), rtEok)
  else (s, -rtEfull)

def rtMutexTake (m : μ) (self : τ) (time : Int) : Locks τ σ μ × Outcome :=
  let s := s.setError self rtEok
  let mutex := s.mutex m
  if mutex.owner = some self then
    if mutex.hold < rtMutexHoldMax then
      (s.setMutex m { mutex with hold := mutex.hold + 1 }, .returned rtEok)
    else (s, .returned (-rtEfull))
  else if 0 < mutex.value then
    let mutex := { mutex with
      value := mutex.value - 1
      owner := some self
      originalPriority := s.ipc.sched.prio self }
    if mutex.hold < rtMutexHoldMax then
      (s.setMutex m { mutex with hold := mutex.hold + 1 }, .returned rtEok)
    else (s.setMutex m mutex, .returned (-rtEfull))
  else if time = 0 then (s.setError self (-rtEtimeout), .returned (-rtEtimeout))
  else
    let s :=
      match mutex.owner with
      | some owner =>
        if s.ipc.sched.prio self < s.ipc.sched.prio owner then
          s.setPriority owner (s.ipc.sched.prio self)
        else s
      | none => s
    ({ s with ipc := s.ipc.block (.inr m) self .prio time }, .suspended)

def rtMutexRelease (m : μ) (self : τ) : Locks τ σ μ × Int :=
  let mutex := s.mutex m
  if mutex.owner ≠ some self then (s.setError self (-rtError), -rtError)
  else
    let mutex := { mutex with hold := mutex.hold - 1 }
    if mutex.hold = 0 then
      let s :=
        if mutex.originalPriority ≠ s.ipc.sched.prio self then
          s.setPriority self mutex.originalPriority
        else s
      match s.ipc.list (.inr m) with
      | t :: _ =>
        let mutex := { mutex with
          owner := some t
          originalPriority := s.ipc.sched.prio t }
        if mutex.hold < rtMutexHoldMax then
          let s := s.setMutex m { mutex with hold := mutex.hold + 1 }
          ({ s with ipc := s.ipc.wake (.inr m) }, rtEok)
        else (s.setMutex m mutex, -rtEfull)
      | [] =>
        if mutex.value < rtMutexValueMax then
          (s.setMutex m { mutex with
            value := mutex.value + 1
            owner := none
            originalPriority := 0xff }, rtEok)
        else (s.setMutex m mutex, -rtEfull)
    else (s.setMutex m mutex, rtEok)

/-! ## Steps -/

def setTaken (v : σ) (n : Nat) : Locks τ σ μ := { s with taken := Function.update s.taken v n }

def setGiven (v : σ) (n : Nat) : Locks τ σ μ := { s with given := Function.update s.given v n }

def setHolds (t : τ) (m : μ) (n : Nat) : Locks τ σ μ :=
  { s with holds := Function.update s.holds t (Function.update (s.holds t) m n) }

/-- `rt_sem_take` or `rt_mutex_take` returns. -/
def took (self : τ) (err : Int) (w : σ ⊕ μ) : Locks τ σ μ :=
  if err = rtEok then
    match w with
    | .inl v => s.setTaken v (s.taken v + 1)
    | .inr m => s.setHolds self m (s.holds self m + 1)
  else s

inductive Act (τ σ μ : Type) where
  | outside (a : Ipc.Act τ)
  | semTake (v : σ) (time : Int)
  | semRelease (v : σ)
  | mutexTake (m : μ) (time : Int)
  | mutexRelease (m : μ)
  /-- A call that was blocked returns. -/
  | leave

/-- A call that is blocked returns later. -/
def tookNow (self : τ) (w : σ ⊕ μ) : Locks τ σ μ × Outcome → Locks τ σ μ
  | (s, .returned err) => s.took self err w
  | (s, .suspended) => s

def gaveSem (v : σ) : Locks τ σ μ × Int → Locks τ σ μ
  | (s, err) => if err = rtEok then s.setGiven v (s.given v + 1) else s

def gaveMutex (self : τ) (m : μ) : Locks τ σ μ × Int → Locks τ σ μ
  | (s, err) => if err = rtEok then s.setHolds self m (s.holds self m - 1) else s

/-- A call that blocked has returned. -/
def left (self : τ) : σ ⊕ μ → Locks τ σ μ
  | .inl v => { s with woken := Function.update s.woken v ((s.woken v).erase self) }
  | .inr _ => s

/-- A semaphore may be released in an interrupt. -/
def step (flag : σ → IpcFlag) : Act τ σ μ → Option (Locks τ σ μ)
  | .outside a => (s.ipc.step a).map fun ipc => { s with ipc := ipc }
  | .semTake v time =>
    s.ipc.caller.map fun c => tookNow c (.inl v) (s.rtSemTake flag v c time)
  | .semRelease v => some (gaveSem v (s.rtSemRelease v))
  | .mutexTake m time =>
    s.ipc.caller.map fun c => tookNow c (.inr m) (s.rtMutexTake m c time)
  | .mutexRelease m =>
    s.ipc.caller.map fun c => gaveMutex c m (s.rtMutexRelease m c)
  | .leave =>
    match s.ipc.sched.current with
    | some c =>
      if s.ipc.sched.stat c = .running then
        (s.ipc.pending c).map fun w =>
          let (ipc, err) := s.ipc.leave c
          ({ s with ipc := ipc }.left c w).took c err w
      else none
    | none => none

/-- Nobody resumes a thread that waits for an object, and a call that has to wait is not made
    under a locked scheduler. -/
def Regular (flag : σ → IpcFlag) : Act τ σ μ → Prop
  | .outside a => s.ipc.Regular a
  | .semTake v time =>
    ∀ c ∈ s.ipc.caller, (s.rtSemTake flag v c time).2 = .suspended → s.ipc.sched.lockNest = 0
  | .mutexTake m time =>
    ∀ c ∈ s.ipc.caller, (s.rtMutexTake m c time).2 = .suspended → s.ipc.sched.lockNest = 0
  | .semRelease _ | .mutexRelease _ | .leave => True

instance (flag : σ → IpcFlag) : (a : Act τ σ μ) → Decidable (s.Regular flag a)
  | .outside a => inferInstanceAs (Decidable (s.ipc.Regular a))
  | .semTake v time => inferInstanceAs (Decidable
      (∀ c ∈ s.ipc.caller, (s.rtSemTake flag v c time).2 = .suspended → s.ipc.sched.lockNest = 0))
  | .mutexTake m time => inferInstanceAs (Decidable
      (∀ c ∈ s.ipc.caller, (s.rtMutexTake m c time).2 = .suspended → s.ipc.sched.lockNest = 0))
  | .semRelease _ | .mutexRelease _ | .leave => inferInstanceAs (Decidable True)

def boot (priority : τ → Nat) (slice : τ → BitVec 32) (start : σ → Nat) : Locks τ σ μ where
  ipc := .boot priority slice
  value := start
  mutex _ := .init
  taken _ := 0
  given _ := 0
  woken _ := ∅
  holds _ _ := 0

/-! ## What holds of every state -/

/-- Nothing is taken that was not given; the threads that a release woke are those whose call
    will return `RT_EOK`. -/
structure SemOk (start : σ → Nat) (s : Locks τ σ μ) (v : σ) : Prop where
  waiting : 0 < s.value v → s.ipc.list (.inl v) = []
  count : s.value v + s.taken v + (s.woken v).card = start v + s.given v
  bound : s.value v ≤ rtSemValueMax
  woken : ∀ t, t ∈ s.woken v ↔ s.ipc.Won (.inl v) t

structure Unheld (s : Locks τ σ μ) (m : μ) : Prop where
  mutex : (s.mutex m).owner = none ∧ (s.mutex m).value = 1 ∧ (s.mutex m).hold = 0
  list : s.ipc.list (.inr m) = []
  won : ∀ t, ¬ s.ipc.Won (.inr m) t
  holds : ∀ t, s.holds t m = 0

/-- The owner holds the mutex as often as its calls returned, and once more if it got it from a
    release and its call has not returned. -/
structure Held (s : Locks τ σ μ) (m : μ) (o : τ) : Prop where
  mutex : (s.mutex m).owner = some o ∧ (s.mutex m).value = 0
  hold : (s.mutex m).hold = s.holds o m + if s.ipc.pending o = some (.inr m) then 1 else 0
  bound : 0 < (s.mutex m).hold ∧ (s.mutex m).hold ≤ rtMutexHoldMax
  priority : (s.mutex m).originalPriority < rtThreadPriorityMax
  list : o ∉ s.ipc.list (.inr m)
  won : ∀ t, s.ipc.Won (.inr m) t ↔ t = o ∧ s.ipc.pending o = some (.inr m)
  holds : ∀ t, t ≠ o → s.holds t m = 0

def MutexOk (s : Locks τ σ μ) (m : μ) : Prop := Unheld s m ∨ ∃ o, Held s m o

/-- A step that is about one object. -/
structure OnlyAt (s s' : Locks τ σ μ) (w : σ ⊕ μ) : Prop where
  ipc : s'.ipc.Inv
  spared : ∀ v, v ≠ w → Ipc.Spared s.ipc s'.ipc v
  sem : ∀ v, .inl v ≠ w →
    s'.value v = s.value v ∧ s'.taken v = s.taken v ∧ s'.given v = s.given v ∧
      s'.woken v = s.woken v
  mutex : ∀ m, .inr m ≠ w → s'.mutex m = s.mutex m ∧ ∀ t, s'.holds t m = s.holds t m

variable {s} {s' : Locks τ σ μ}

omit [DecidableEq τ] [DecidableEq σ] [DecidableEq μ] in
theorem Unheld.spared {m : μ} (h : Unheld s m) (hmutex : s'.mutex m = s.mutex m)
    (hholds : ∀ t, s'.holds t m = s.holds t m) (hsp : Ipc.Spared s.ipc s'.ipc (.inr m)) :
    Unheld s' m where
  mutex := hmutex ▸ h.mutex
  list := List.sublist_nil.mp (h.list ▸ hsp.list)
  won t hw := h.won t ((hsp.won t).mp hw)
  holds t := (hholds t).trans (h.holds t)

omit [DecidableEq τ] in
theorem Held.spared {m : μ} {o : τ} (h : Held s m o) (hmutex : s'.mutex m = s.mutex m)
    (hholds : ∀ t, s'.holds t m = s.holds t m) (hsp : Ipc.Spared s.ipc s'.ipc (.inr m)) :
    Held s' m o where
  mutex := hmutex ▸ h.mutex
  hold := by
    rw [hmutex, hholds, h.hold]
    exact congrArg _ (if_congr (hsp.pending o).symm rfl rfl)
  bound := hmutex ▸ h.bound
  priority := hmutex ▸ h.priority
  list hmem := h.list (hsp.list.subset hmem)
  won t := (hsp.won t).trans ((h.won t).trans (and_congr_right fun _ => (hsp.pending o).symm))
  holds t ht := (hholds t).trans (h.holds t ht)

omit [DecidableEq τ] in
theorem MutexOk.spared {m : μ} (h : MutexOk s m) (hmutex : s'.mutex m = s.mutex m)
    (hholds : ∀ t, s'.holds t m = s.holds t m) (hsp : Ipc.Spared s.ipc s'.ipc (.inr m)) :
    MutexOk s' m :=
  h.imp (fun hu => hu.spared hmutex hholds hsp) fun ⟨o, ho⟩ => ⟨o, ho.spared hmutex hholds hsp⟩

section Inv

variable {start : σ → Nat}

structure Inv (start : σ → Nat) (s : Locks τ σ μ) : Prop where
  ipc : s.ipc.Inv
  sem : ∀ v, SemOk start s v
  mutex : ∀ m, MutexOk s m

omit [DecidableEq τ] [DecidableEq σ] [DecidableEq μ] in
theorem SemOk.spared {v : σ} (h : SemOk start s v) (hvalue : s'.value v = s.value v)
    (htaken : s'.taken v = s.taken v) (hgiven : s'.given v = s.given v)
    (hwoken : s'.woken v = s.woken v) (hsp : Ipc.Spared s.ipc s'.ipc (.inl v)) :
    SemOk start s' v where
  waiting hpos := List.sublist_nil.mp (h.waiting (hvalue ▸ hpos) ▸ hsp.list)
  count := by
    rw [hvalue, htaken, hgiven, hwoken]
    exact h.count
  bound := hvalue ▸ h.bound
  woken t := by
    rw [hwoken, hsp.won]
    exact h.woken t

omit [DecidableEq τ] in
/-- The object itself is left to check. -/
theorem Inv.only (h : Inv start s) {w : σ ⊕ μ} (hat : OnlyAt s s' w)
    (hsem : ∀ v, .inl v = w → SemOk start s' v) (hmutex : ∀ m, .inr m = w → MutexOk s' m) :
    Inv start s' where
  ipc := hat.ipc
  sem v := by
    by_cases hv : .inl v = w
    · exact hsem v hv
    · obtain ⟨hvalue, htaken, hgiven, hwoken⟩ := hat.sem v hv
      exact (h.sem v).spared hvalue htaken hgiven hwoken (hat.spared _ hv)
  mutex m := by
    by_cases hm : .inr m = w
    · exact hmutex m hm
    · obtain ⟨hmutex, hholds⟩ := hat.mutex m hm
      exact (h.mutex m).spared hmutex hholds (hat.spared _ hm)

/-! ### Semaphores -/

omit [DecidableEq τ] [DecidableEq σ] [DecidableEq μ] in
theorem SemOk.of_eq {v : σ} {value taken given : Nat} {woken : Finset τ}
    (hvalue : s'.value v = value) (htaken : s'.taken v = taken) (hgiven : s'.given v = given)
    (hset : s'.woken v = woken) (hwon : ∀ t, t ∈ woken ↔ s'.ipc.Won (.inl v) t)
    (hwait : 0 < value → s'.ipc.list (.inl v) = [])
    (hcount : value + taken + woken.card = start v + given) (hbound : value ≤ rtSemValueMax) :
    SemOk start s' v := by
  subst hvalue htaken hgiven hset
  exact ⟨hwait, hcount, hbound, hwon⟩

theorem semTake_inv (h : Inv start s) {c : τ} (hc : s.ipc.caller = some c) (flag : σ → IpcFlag)
    (v : σ) (time : Int) : Inv start (tookNow c (.inl v) (s.rtSemTake flag v c time)) := by
  obtain ⟨hwait, hcount, hbound, hwoken⟩ := h.sem v
  unfold rtSemTake
  split
  next hpos =>
    -- available
    change Inv start ((s.setValue v (s.value v - 1)).setTaken v (s.taken v + 1))
    refine h.only (w := .inl v)
      ⟨h.ipc, fun w _ => .refl s.ipc w, fun v' hv => ?_, fun _ _ => ⟨rfl, fun _ => rfl⟩⟩
      (fun v' hv => ?_) fun _ => (nomatch ·)
    · have hne : v' ≠ v := fun heq => hv (heq ▸ rfl)
      exact ⟨Function.update_of_ne hne .., Function.update_of_ne hne .., rfl, rfl⟩
    · obtain rfl := Sum.inl.inj hv
      have hsum : s.value v' - 1 + (s.taken v' + 1) + (s.woken v').card =
          start v' + s.given v' := by omega
      exact .of_eq (Function.update_self ..) (Function.update_self ..) rfl rfl hwoken
        (fun _ => hwait hpos) hsum (by omega)
  next hzero =>
    split
    · exact h
    · -- blocked
      obtain ⟨hinv, hframe, -⟩ :=
        Ipc.setError_frame h.ipc (Ipc.caller_eq_some.mp hc).2.2 rtEok
      obtain ⟨hown, -, hwon⟩ := Ipc.block_own hinv
        ((Ipc.caller_setError s.ipc c rtEok).trans hc) (Ipc.error_setError s.ipc c rtEok) (.inl v)
        (flag v) time
      refine h.only (w := .inl v) ⟨hown.inv, fun w hw => ?_, fun _ _ => ⟨rfl, rfl, rfl, rfl⟩,
        fun _ _ => ⟨rfl, fun _ => rfl⟩⟩ (fun v' hv => ?_) fun _ => (nomatch ·)
      · exact (hframe w).spared.trans (hown.others w hw).spared
      · obtain rfl := Sum.inl.inj hv
        refine .of_eq rfl rfl rfl rfl (fun t => (hwoken t).trans ?_)
          (fun hpos => absurd hpos hzero) hcount hbound
        exact ((hwon t).trans ((hframe (.inl v')).spared.won t)).symm

theorem semRelease_inv (h : Inv start s) (v : σ) :
    Inv start (gaveSem v (s.rtSemRelease v)) := by
  obtain ⟨hwait, hcount, hbound, hwoken⟩ := h.sem v
  unfold rtSemRelease
  by_cases hlist : s.ipc.list (.inl v) = []
  · rw [if_neg (not_not.mpr hlist)]
    by_cases hfull : s.value v < rtSemValueMax
    · rw [if_pos hfull]
      refine h.only (w := .inl v) ⟨h.ipc, fun w _ => .refl s.ipc w, fun v' hv => ?_,
        fun _ _ => ⟨rfl, fun _ => rfl⟩⟩ (fun v' hv => ?_) fun _ => (nomatch ·)
      · have hne : v' ≠ v := fun heq => hv (heq ▸ rfl)
        exact ⟨Function.update_of_ne hne .., rfl, Function.update_of_ne hne .., rfl⟩
      · obtain rfl := Sum.inl.inj hv
        have hsum : s.value v' + 1 + s.taken v' + (s.woken v').card =
            start v' + (s.given v' + 1) := by omega
        exact .of_eq (Function.update_self ..) rfl (Function.update_self ..) rfl hwoken
          (fun _ => hlist) hsum hfull
    · rw [if_neg hfull]
      exact h
  · rw [if_pos hlist]
    obtain ⟨t, ts, hcons⟩ := List.exists_cons_of_ne_nil hlist
    obtain ⟨hown, -, -, hwon⟩ := Ipc.wake_own h.ipc hcons
    have hnew : t ∉ s.woken v := fun hmem =>
      ((hwoken t).mp hmem).2.1 (hcons ▸ List.mem_cons_self)
    have hwake : s.wakeSem v = { s with
        ipc := s.ipc.wake (.inl v)
        woken := Function.update s.woken v (insert t (s.woken v)) } := by
      rw [wakeSem, hcons]
    rw [hwake]
    refine h.only (w := .inl v) ⟨hown.inv, fun w hw => (hown.others w hw).spared, fun v' hv => ?_,
      fun _ _ => ⟨rfl, fun _ => rfl⟩⟩ (fun v' hv => ?_) fun _ => (nomatch ·)
    · have hne : v' ≠ v := fun heq => hv (heq ▸ rfl)
      exact ⟨rfl, rfl, Function.update_of_ne hne .., Function.update_of_ne hne ..⟩
    · obtain rfl := Sum.inl.inj hv
      have hcard := Finset.card_insert_of_notMem hnew
      have hsum : s.value v' + s.taken v' + (insert t (s.woken v')).card =
          start v' + (s.given v' + 1) := by omega
      refine .of_eq rfl rfl (Function.update_self ..) (Function.update_self ..) (fun x => ?_)
        (fun hpos => absurd (hwait hpos) hlist) hsum hbound
      rw [Finset.mem_insert, hwoken]
      exact or_comm.trans (hwon x).symm

/-! ### Mutexes -/

omit [DecidableEq τ] in
/-- The objects see nothing, or that a wait timed out. -/
theorem Inv.outside (h : Inv start s) {ipc : Ipc τ (σ ⊕ μ)} (hipc : ipc.Inv)
    (hsp : ∀ w, Ipc.Spared s.ipc ipc w) : Inv start { s with ipc := ipc } :=
  ⟨hipc, fun v => (h.sem v).spared rfl rfl rfl rfl (hsp _),
    fun m => (h.mutex m).spared rfl (fun _ => rfl) (hsp _)⟩

omit [DecidableEq σ] in
theorem holds_setHolds (s : Locks τ σ μ) (t x : τ) (m k : μ) (n : Nat) :
    (s.setHolds t m n).holds x k = if x = t ∧ k = m then n else s.holds x k := by
  by_cases hx : x = t
  · subst hx
    by_cases hk : k = m
    · subst hk
      rw [if_pos ⟨rfl, rfl⟩]
      exact (congrFun (Function.update_self ..) k).trans (Function.update_self ..)
    · rw [if_neg fun h => hk h.2]
      exact (congrFun (Function.update_self ..) k).trans (Function.update_of_ne hk ..)
  · rw [if_neg fun h => hx h.1]
    exact congrFun (Function.update_of_ne hx ..) k

/-- A call on the mutex `m` that does not move a thread. -/
theorem Inv.setMutex (h : Inv start s) (m : μ) (c : τ) (mutex : RtMutex τ) (n : Nat)
    (hok : MutexOk ((s.setMutex m mutex).setHolds c m n) m) :
    Inv start ((s.setMutex m mutex).setHolds c m n) := by
  refine h.only (w := .inr m) ⟨h.ipc, fun w _ => .refl s.ipc w, fun _ _ => ⟨rfl, rfl, rfl, rfl⟩,
    fun k hk => ?_⟩ (fun _ => (nomatch ·)) fun k hk => ?_
  · have hne : k ≠ m := fun heq => hk (heq ▸ rfl)
    refine ⟨Function.update_of_ne hne .., fun t => ?_⟩
    exact (holds_setHolds ..).trans (if_neg fun h => hne h.2)
  · rw [Sum.inr.inj hk]
    exact hok

omit [DecidableEq σ] in
/-- The mutex is released. -/
theorem Unheld.set {m : μ} {c : τ} {mutex : RtMutex τ} {n : Nat}
    (hmutex : mutex.owner = none ∧ mutex.value = 1 ∧ mutex.hold = 0)
    (hlist : s.ipc.list (.inr m) = []) (hwon : ∀ t, ¬ s.ipc.Won (.inr m) t) (hn : n = 0)
    (hholds : ∀ t, t ≠ c → s.holds t m = 0) : Unheld ((s.setMutex m mutex).setHolds c m n) m := by
  have hself : ((s.setMutex m mutex).setHolds c m n).mutex m = mutex := Function.update_self ..
  refine ⟨?_, hlist, hwon, fun t => ?_⟩
  · rw [hself]
    exact hmutex
  · rw [holds_setHolds]
    by_cases htc : t = c
    · rw [if_pos ⟨htc, rfl⟩, hn]
    · exact (if_neg fun heq => htc heq.1).trans (hholds t htc)

/-- The mutex is held by a thread that is inside no call. -/
theorem Held.set {m : μ} {c : τ} {mutex : RtMutex τ} {n : Nat} (hnone : s.ipc.pending c = none)
    (howner : mutex.owner = some c ∧ mutex.value = 0) (hhold : mutex.hold = n)
    (hbound : 0 < n ∧ n ≤ rtMutexHoldMax)
    (hpriority : mutex.originalPriority < rtThreadPriorityMax) (hlist : c ∉ s.ipc.list (.inr m))
    (hwon : ∀ t, ¬ s.ipc.Won (.inr m) t) (hholds : ∀ t, t ≠ c → s.holds t m = 0) :
    Held ((s.setMutex m mutex).setHolds c m n) m c := by
  have hmutex : ((s.setMutex m mutex).setHolds c m n).mutex m = mutex := Function.update_self ..
  have hpend : ¬ s.ipc.pending c = some (.inr m) := fun hp => nomatch hnone.symm.trans hp
  refine ⟨?_, ?_, ?_, ?_, hlist, fun t => ?_, fun t ht => ?_⟩
  · rw [hmutex]
    exact howner
  · rw [hmutex, holds_setHolds, if_pos ⟨rfl, rfl⟩, hhold]
    exact (Nat.add_zero n).symm.trans (congrArg _ (if_neg hpend).symm)
  · rw [hmutex, hhold]
    exact hbound
  · rw [hmutex]
    exact hpriority
  · exact iff_of_false (hwon t) fun hw => hpend hw.2
  · exact (holds_setHolds ..).trans ((if_neg fun h => ht h.1).trans (hholds t ht))

omit [DecidableEq τ] in
/-- The mutex is handed to a thread whose call has not returned. -/
theorem Held.handed {m : μ} {t : τ} {mutex : RtMutex τ} (hmutex : s.mutex m = mutex)
    (howner : mutex.owner = some t ∧ mutex.value = 0 ∧ mutex.hold = 1)
    (hpriority : mutex.originalPriority < rtThreadPriorityMax)
    (hpend : s.ipc.pending t = some (.inr m)) (hlist : t ∉ s.ipc.list (.inr m))
    (hwon : ∀ x, s.ipc.Won (.inr m) x ↔ x = t) (hholds : ∀ x, s.holds x m = 0) : Held s m t := by
  subst hmutex
  obtain ⟨howner, hvalue, hhold⟩ := howner
  refine ⟨⟨howner, hvalue⟩, ?_, ?_, hpriority, hlist, fun x => ?_, fun x _ => hholds x⟩
  · rw [hhold, hholds, if_pos hpend]
  · rw [hhold]
    decide
  · rw [hwon, and_iff_left hpend]

omit [DecidableEq τ] in
/-- The owner is inside no call: nobody gets the mutex from a release. -/
theorem Held.no_won {m : μ} {c : τ} (h : Held s m c) (hnone : s.ipc.pending c = none) (t : τ) :
    ¬ s.ipc.Won (.inr m) t := fun hw => nomatch hnone.symm.trans ((h.won t).mp hw).2

theorem mutexTake_inv (h : Inv start s) {c : τ} (hc : s.ipc.caller = some c) (m : μ)
    (time : Int) : Inv start (tookNow c (.inr m) (s.rtMutexTake m c time)) := by
  obtain ⟨hinv, hframe, -⟩ := Ipc.setError_frame h.ipc (Ipc.caller_eq_some.mp hc).2.2 rtEok
  have herr : (s.setError c rtEok).ipc.error c = rtEok := Ipc.error_setError ..
  replace h : Inv start (s.setError c rtEok) := h.outside hinv fun w => (hframe w).spared
  replace hc : (s.setError c rtEok).ipc.caller = some c := (Ipc.caller_setError ..).trans hc
  unfold rtMutexTake
  dsimp only
  generalize s.setError c rtEok = s at *
  obtain ⟨-, hrun, hnone⟩ := Ipc.caller_eq_some.mp hc
  have hlist : c ∉ s.ipc.list (.inr m) := h.ipc.not_listed (hrun ▸ by decide) _
  obtain hfree | ⟨o, hheld⟩ := h.mutex m
  · -- nobody holds it
    obtain ⟨howner, hvalue, hhold⟩ := hfree.mutex
    have hlt : (s.mutex m).hold < rtMutexHoldMax := by
      rw [hhold]
      decide
    have hholds := hfree.holds c
    rw [if_neg (howner ▸ nofun), if_pos (hvalue ▸ Nat.one_pos), if_pos hlt]
    refine h.setMutex m c _ _ (.inr ⟨c, .set hnone ⟨rfl, ?_⟩ ?_ ?_
      (h.ipc.sched.prioBound c) hlist hfree.won fun t _ => hfree.holds t⟩)
    · dsimp only
      rw [hvalue]
    · change (s.mutex m).hold + 1 = s.holds c m + 1
      rw [hhold, hholds]
    · change 0 < s.holds c m + 1 ∧ s.holds c m + 1 ≤ rtMutexHoldMax
      rw [hholds]
      decide
  obtain ⟨howner, hvalue⟩ := hheld.mutex
  by_cases hoc : o = c
  · -- the same thread
    subst hoc
    rw [if_pos howner]
    have hhold := hheld.hold
    rw [hnone, if_neg nofun, Nat.add_zero] at hhold
    split
    next hlt =>
      refine h.setMutex m o _ _ (.inr ⟨o, .set hnone ⟨howner, hvalue⟩ ?_ ?_
        hheld.priority hlist (hheld.no_won hnone) hheld.holds⟩)
      · exact congrArg (· + 1) hhold
      · exact ⟨Nat.succ_pos _, hhold ▸ hlt⟩
    next => exact h
  rw [if_neg fun heq => hoc (Option.some.inj (howner.symm.trans heq)), if_neg (by omega)]
  split
  · obtain ⟨hinv, hframe, -⟩ := Ipc.setError_frame h.ipc hnone (-rtEtimeout)
    exact h.outside hinv fun w => (hframe w).spared
  -- blocked: the owner inherits the priority
  rw [howner]
  dsimp only
  generalize hs' : (if s.ipc.sched.prio c < s.ipc.sched.prio o then
    s.setPriority o (s.ipc.sched.prio c) else s) = s'
  have hboost : Inv start s' ∧ s'.ipc.caller = some c ∧ s'.ipc.error c = rtEok ∧
      Held s' m o := by
    rw [← hs']
    split
    · obtain ⟨hinv, hframe, hcall, herror⟩ :=
        Ipc.changePriority_frame h.ipc o (h.ipc.sched.prioBound c)
      exact ⟨h.outside hinv fun w => (hframe w).spared, hcall.trans hc, (herror c).trans herr,
        hheld.spared rfl (fun _ => rfl) (hframe _).spared⟩
    · exact ⟨h, hc, herr, hheld⟩
  obtain ⟨h', hc', herr', hheld'⟩ := hboost
  obtain ⟨hown, hlist', hwon⟩ := Ipc.block_own h'.ipc hc' herr' (.inr m) .prio time
  change Inv start { s' with ipc := s'.ipc.block (.inr m) c .prio time }
  refine h'.only (w := .inr m) ⟨hown.inv, fun w hw => (hown.others w hw).spared,
    fun _ _ => ⟨rfl, rfl, rfl, rfl⟩, fun _ _ => ⟨rfl, fun _ => rfl⟩⟩ (fun _ => (nomatch ·))
    fun k hk => ?_
  obtain rfl := Sum.inr.inj hk
  have hpend : (s'.ipc.block (.inr k) c .prio time).pending o = s'.ipc.pending o :=
    Function.update_of_ne hoc ..
  refine .inr ⟨o, hheld'.mutex, ?_, hheld'.bound, hheld'.priority, fun hmem => ?_, fun t => ?_,
    hheld'.holds⟩
  · rw [hpend]
    exact hheld'.hold
  · rw [hlist', (perm_ipcInsert ..).mem_iff, List.mem_cons] at hmem
    exact hmem.elim hoc hheld'.list
  · rw [hpend]
    exact (hwon t).trans (hheld'.won t)

theorem mutexRelease_inv (h : Inv start s) {c : τ} (hc : s.ipc.caller = some c) (m : μ) :
    Inv start (gaveMutex c m (s.rtMutexRelease m c)) := by
  obtain ⟨-, hrun, hnone⟩ := Ipc.caller_eq_some.mp hc
  unfold rtMutexRelease
  dsimp only
  by_cases howner : (s.mutex m).owner = some c
  swap
  · obtain ⟨hinv, hframe, -⟩ := Ipc.setError_frame h.ipc hnone (-rtError)
    rw [if_pos howner]
    exact h.outside hinv fun w => (hframe w).spared
  rw [if_neg (not_not.mpr howner)]
  obtain hfree | ⟨o, hheld⟩ := h.mutex m
  · exact nomatch hfree.mutex.1.symm.trans howner
  obtain rfl := Option.some.inj (hheld.mutex.1.symm.trans howner)
  obtain ⟨-, hvalue⟩ := hheld.mutex
  have hhold := hheld.hold
  rw [hnone, if_neg nofun, Nat.add_zero] at hhold
  obtain ⟨hpos, hmax⟩ := hheld.bound
  by_cases hlast : (s.mutex m).hold - 1 = 0
  swap
  · rw [if_neg hlast]
    refine h.setMutex m o _ _ (.inr ⟨o, .set hnone ⟨howner, hvalue⟩ ?_ ?_
      hheld.priority hheld.list (hheld.no_won hnone) hheld.holds⟩)
    · exact congrArg (· - 1) hhold
    · change 0 < s.holds o m - 1 ∧ s.holds o m - 1 ≤ rtMutexHoldMax
      omega
  rw [if_pos hlast]
  generalize hs' : (if (s.mutex m).originalPriority ≠ s.ipc.sched.prio o then
    s.setPriority o (s.mutex m).originalPriority else s) = s'
  have hrestore : Inv start s' ∧ s'.ipc.pending o = none ∧ Held s' m o ∧
      s'.mutex m = s.mutex m ∧ s'.holds = s.holds := by
    rw [← hs']
    split
    · obtain ⟨hinv, hframe, -⟩ := Ipc.changePriority_frame h.ipc o hheld.priority
      exact ⟨h.outside hinv fun w => (hframe w).spared, hnone,
        hheld.spared rfl (fun _ => rfl) (hframe _).spared, rfl, rfl⟩
    · exact ⟨h, hnone, hheld, rfl, rfl⟩
  obtain ⟨h', hnone', hheld', hmutex, hholds⟩ := hrestore
  have hzero : s.holds o m - 1 = 0 := hhold ▸ hlast
  match hlist : s'.ipc.list (.inr m) with
  | [] =>
    dsimp only
    rw [hvalue, if_pos (show 0 < rtMutexValueMax by decide)]
    refine h'.setMutex m o _ _ (.inl (.set ⟨rfl, rfl, hlast⟩ hlist (hheld'.no_won hnone') ?_
      hheld'.holds))
    exact (congrArg (· - 1) (congrFun (congrFun hholds o) m)).trans hzero
  | t :: ts =>
    dsimp only
    have hlt : (s.mutex m).hold - 1 < rtMutexHoldMax := hlast ▸ by decide
    rw [if_pos hlt]
    obtain ⟨hown, hts, hpend, hwon⟩ := Ipc.wake_own h'.ipc hlist
    have hhead : t ∈ s'.ipc.list (.inr m) := hlist ▸ List.mem_cons_self
    have hto : t ≠ o := fun heq => hheld'.list (heq ▸ hhead)
    have hcalls : s'.ipc.pending t = some (.inr m) := (h'.ipc.listed _ t hhead).1
    refine h'.only (w := .inr m) ⟨hown.inv, fun w hw => (hown.others w hw).spared,
      fun _ _ => ⟨rfl, rfl, rfl, rfl⟩, fun k hk => ?_⟩ (fun _ => (nomatch ·)) fun k hk => ?_
    · have hne : k ≠ m := fun heq => hk (heq ▸ rfl)
      exact ⟨Function.update_of_ne hne .., fun x =>
        (holds_setHolds ..).trans (if_neg fun h => hne h.2)⟩
    obtain rfl := Sum.inr.inj hk
    refine .inr ⟨t, .handed (Function.update_self ..) ⟨rfl, hvalue, congrArg (· + 1) hlast⟩
      (h'.ipc.sched.prioBound t) ((congrFun hpend t).trans hcalls) ?_ (fun x => ?_) fun x => ?_⟩
    · change t ∉ (s'.ipc.wake (.inr k)).list (.inr k)
      rw [hts]
      exact (List.nodup_cons.mp (hlist ▸ h'.ipc.sched.nodup (.inr k))).1
    · exact (hwon x).trans (or_iff_right (hheld'.no_won hnone' x))
    · refine (holds_setHolds ..).trans ?_
      by_cases hxo : x = o
      · rw [if_pos ⟨hxo, rfl⟩]
        exact (congrArg (· - 1) (congrFun (congrFun hholds o) k)).trans hzero
      · rw [if_neg fun heq => hxo heq.1]
        exact hheld'.holds x hxo

/-! ### Returning -/

/-- A take that was blocked returns: the permit it was woken up with is taken. -/
theorem semLeave_inv (h : Inv start s) {c : τ} (hrun : s.ipc.sched.stat c = .running) {v : σ}
    (hpend : s.ipc.pending c = some (.inl v)) :
    Inv start ((({ s with ipc := (s.ipc.leave c).1 } : Locks τ σ μ).left c (.inl v)).took c
      (s.ipc.leave c).2 (.inl v)) := by
  obtain ⟨hown, hlist, hwon, hok⟩ := Ipc.leave_own h.ipc hpend hrun
  generalize (s.ipc.leave c).2 = err at *
  generalize (s.ipc.leave c).1 = ipc at *
  have hothers : ∀ w, w ≠ .inl v → Ipc.Spared s.ipc ipc w := fun w hw => (hown.others w hw).spared
  have hsub : (ipc.list (.inl v)).Sublist (s.ipc.list (.inl v)) := hlist ▸ List.Sublist.refl _
  obtain ⟨hwait, hcount, hbound, hwoken⟩ := h.sem v
  have hne : ∀ v', Sum.inl v' ≠ (Sum.inl v : σ ⊕ μ) → v' ≠ v := fun v' hv heq =>
    hv (congrArg Sum.inl heq)
  have hset : ∀ t, t ∈ (s.woken v).erase c ↔ ipc.Won (.inl v) t := fun t => by
    rw [Finset.mem_erase, hwoken, hwon]
    exact and_comm
  have hempty : 0 < s.value v → ipc.list (.inl v) = [] := fun hpos =>
    List.sublist_nil.mp (hwait hpos ▸ hsub)
  unfold took
  split
  next herr =>
    have hcard := Finset.card_erase_add_one ((hwoken c).mpr (hok.mpr herr))
    have hsum : s.value v + (s.taken v + 1) + ((s.woken v).erase c).card =
        start v + s.given v := by omega
    refine h.only (w := .inl v) ⟨hown.inv, hothers, fun v' hv => ⟨rfl,
      Function.update_of_ne (hne v' hv) .., rfl, Function.update_of_ne (hne v' hv) ..⟩,
      fun _ _ => ⟨rfl, fun _ => rfl⟩⟩ (fun v' hv => ?_) fun _ => (nomatch ·)
    obtain rfl := Sum.inl.inj hv
    exact .of_eq rfl (Function.update_self ..) rfl (Function.update_self ..) hset hempty hsum
      hbound
  next herr =>
    have hnot : c ∉ s.woken v := fun hmem => herr (hok.mp ((hwoken c).mp hmem))
    have hsum : s.value v + s.taken v + ((s.woken v).erase c).card =
        start v + s.given v := by rw [Finset.erase_eq_of_notMem hnot, hcount]
    refine h.only (w := .inl v) ⟨hown.inv, hothers, fun v' hv => ⟨rfl, rfl, rfl,
      Function.update_of_ne (hne v' hv) ..⟩, fun _ _ => ⟨rfl, fun _ => rfl⟩⟩
      (fun v' hv => ?_) fun _ => (nomatch ·)
    obtain rfl := Sum.inl.inj hv
    exact .of_eq rfl rfl rfl (Function.update_self ..) hset hempty hsum hbound

/-- It returns with the mutex, if the owner handed it over. -/
theorem mutexLeave_inv (h : Inv start s) {c : τ} (hrun : s.ipc.sched.stat c = .running) {m : μ}
    (hpend : s.ipc.pending c = some (.inr m)) :
    Inv start ((({ s with ipc := (s.ipc.leave c).1 } : Locks τ σ μ).left c (.inr m)).took c
      (s.ipc.leave c).2 (.inr m)) := by
  obtain ⟨hown, hlist, hwon, hok⟩ := Ipc.leave_own h.ipc hpend hrun
  have hnone : (s.ipc.leave c).1.pending c = none := Function.update_self ..
  have hother : ∀ t, t ≠ c → (s.ipc.leave c).1.pending t = s.ipc.pending t := fun t ht =>
    Function.update_of_ne ht ..
  generalize (s.ipc.leave c).2 = err at *
  generalize (s.ipc.leave c).1 = ipc at *
  have hothers : ∀ w, w ≠ .inr m → Ipc.Spared s.ipc ipc w := fun w hw => (hown.others w hw).spared
  have hsub : (ipc.list (.inr m)).Sublist (s.ipc.list (.inr m)) := hlist ▸ List.Sublist.refl _
  unfold left took
  split
  next herr =>
    have hself : s.ipc.Won (.inr m) c := hok.mpr herr
    obtain hfree | ⟨o, hheld⟩ := h.mutex m
    · exact absurd hself (hfree.won c)
    obtain ⟨rfl, -⟩ := (hheld.won c).mp hself
    have hsame : ({ s with ipc := ipc } : Locks τ σ μ).setMutex m (s.mutex m) =
        { s with ipc := ipc } :=
      congrArg (fun mutex => ({ s with
        ipc := ipc
        mutex := mutex } : Locks τ σ μ)) (Function.update_eq_self m s.mutex)
    refine h.only (w := .inr m) ⟨hown.inv, hothers, fun _ _ => ⟨rfl, rfl, rfl, rfl⟩,
      fun k hk => ⟨rfl, fun x => ?_⟩⟩ (fun _ => (nomatch ·)) fun k hk => ?_
    · exact (holds_setHolds ..).trans (if_neg fun h => hk (congrArg Sum.inr h.2))
    · obtain rfl := Sum.inr.inj hk
      have hhold := hheld.hold
      rw [if_pos hpend] at hhold
      have hset : Held ((({ s with ipc := ipc } : Locks τ σ μ).setMutex k
          (s.mutex k)).setHolds c k (s.holds c k + 1)) k c :=
        .set hnone hheld.mutex hhold (hhold ▸ hheld.bound) hheld.priority
          (fun hmem => hheld.list (hsub.subset hmem)) (fun t hw => ?_) hheld.holds
      · rw [hsame] at hset
        exact .inr ⟨c, hset⟩
      · obtain ⟨hw, hne⟩ := (hwon t).mp hw
        exact hne ((hheld.won t).mp hw).1
  next herr =>
    have hself : ¬ s.ipc.Won (.inr m) c := fun hw => herr (hok.mp hw)
    have hwon' : ∀ t, ipc.Won (.inr m) t ↔ s.ipc.Won (.inr m) t := fun t =>
      (hwon t).trans (and_iff_left_of_imp fun hw heq => hself (heq ▸ hw))
    refine h.only (w := .inr m) ⟨hown.inv, hothers, fun _ _ => ⟨rfl, rfl, rfl, rfl⟩,
      fun _ _ => ⟨rfl, fun _ => rfl⟩⟩ (fun _ => (nomatch ·)) fun k hk => ?_
    obtain rfl := Sum.inr.inj hk
    obtain hfree | ⟨o, hheld⟩ := h.mutex k
    · exact .inl ⟨hfree.mutex, List.sublist_nil.mp (hfree.list ▸ hsub),
        fun t hw => hfree.won t ((hwon' t).mp hw), hfree.holds⟩
    · have hoc : o ≠ c := fun heq =>
        hself (heq ▸ (hheld.won o).mpr ⟨rfl, (congrArg s.ipc.pending heq).trans hpend⟩)
      have hpend' : ipc.pending o = s.ipc.pending o := hother o hoc
      refine .inr ⟨o, hheld.mutex, ?_, hheld.bound, hheld.priority,
        fun hmem => hheld.list (hsub.subset hmem), fun t => (hwon' t).trans ?_, hheld.holds⟩
      · change _ = s.holds o k + if ipc.pending o = some (.inr k) then 1 else 0
        rw [hpend']
        exact hheld.hold
      · change _ ↔ t = o ∧ ipc.pending o = some (.inr k)
        rw [hpend']
        exact hheld.won t

theorem leave_inv (h : Inv start s) {c : τ} (hrun : s.ipc.sched.stat c = .running)
    {w : σ ⊕ μ} (hpend : s.ipc.pending c = some w) :
    Inv start ((({ s with ipc := (s.ipc.leave c).1 } : Locks τ σ μ).left c w).took c
      (s.ipc.leave c).2 w) := by
  cases w with
  | inl v => exact semLeave_inv h hrun hpend
  | inr m => exact mutexLeave_inv h hrun hpend

/-! ## Runs -/

theorem inv_step {flag : σ → IpcFlag} (s : Locks τ σ μ) (a : Act τ σ μ) (s' : Locks τ σ μ)
    (h : Inv start s) (hreg : s.Regular flag a) (hstep : s.step flag a = some s') :
    Inv start s' := by
  cases a with
  | outside a =>
    obtain ⟨ipc, hipc, rfl⟩ := Option.map_eq_some_iff.mp hstep
    exact h.outside (Ipc.step_moved h.ipc hreg hipc).inv (Ipc.step_spared h.ipc hreg hipc)
  | semTake v time =>
    obtain ⟨c, hc, rfl⟩ := Option.map_eq_some_iff.mp hstep
    exact semTake_inv h hc flag v time
  | semRelease v =>
    obtain rfl := Option.some.inj hstep
    exact semRelease_inv h v
  | mutexTake m time =>
    obtain ⟨c, hc, rfl⟩ := Option.map_eq_some_iff.mp hstep
    exact mutexTake_inv h hc m time
  | mutexRelease m =>
    obtain ⟨c, hc, rfl⟩ := Option.map_eq_some_iff.mp hstep
    exact mutexRelease_inv h hc m
  | leave =>
    unfold step at hstep
    dsimp only at hstep
    split at hstep
    next c _ =>
      obtain ⟨hrun, hstep⟩ := Option.ite_none_right_eq_some.mp hstep
      obtain ⟨w, hw, rfl⟩ := Option.map_eq_some_iff.mp hstep
      exact leave_inv h hrun hw
    next => exact nomatch hstep

omit [DecidableEq τ] in
theorem inv_boot {priority : τ → Nat} (slice : τ → BitVec 32)
    (hprio : ∀ t, priority t < rtThreadPriorityMax) (hstart : ∀ v, start v ≤ rtSemValueMax) :
    Inv start (boot priority slice start : Locks τ σ μ) := by
  have hwon : ∀ w t, ¬ (boot priority slice start : Locks τ σ μ).ipc.Won w t :=
    fun w t hw => nomatch hw.1
  refine ⟨⟨Kernel.inv_boot slice hprio, fun _ _ ht => (nomatch ht), fun _ ht => (nomatch ht)⟩,
    fun v => ⟨fun _ => rfl, rfl, hstart v, fun t => ?_⟩,
    fun m => .inl ⟨⟨rfl, rfl, rfl⟩, rfl, hwon _, fun _ => rfl⟩⟩
  exact iff_of_false (Finset.notMem_empty t) (hwon _ t)

/-- The states of regular runs. -/
abbrev Reached (priority : τ → Nat) (slice : τ → BitVec 32) (start : σ → Nat) (flag : σ → IpcFlag)
    (s : Locks τ σ μ) : Prop :=
  Reach (fun s a => s.step flag a) (fun s a => s.Regular flag a) (boot priority slice start) s

theorem inv_reach {priority : τ → Nat} {slice : τ → BitVec 32} {flag : σ → IpcFlag}
    (hprio : ∀ t, priority t < rtThreadPriorityMax) (hstart : ∀ v, start v ≤ rtSemValueMax)
    (h : Reached priority slice start flag s) : Inv start s :=
  h.invariant (Inv start) (inv_boot slice hprio hstart) inv_step

/-- For any number of threads, semaphores and mutexes and every regular run: the calls of a
    semaphore that returned successfully have taken what was given, but for what is left and what
    threads were woken up with; the rest wait while nothing is left, and a call that was blocked
    returns `RT_EOK` if and only if a release woke its thread. -/
theorem semaphore_run {priority : τ → Nat} (slice : τ → BitVec 32) (flag : σ → IpcFlag)
    (hprio : ∀ t, priority t < rtThreadPriorityMax) (hstart : ∀ v, start v ≤ rtSemValueMax)
    {s : Locks τ σ μ} (h : Reached priority slice start flag s)
    (v : σ) :
    s.taken v + s.value v + (s.woken v).card = start v + s.given v ∧
      (0 < s.value v → s.ipc.list (.inl v) = []) ∧ s.value v ≤ rtSemValueMax ∧
      (∀ t ∈ s.ipc.list (.inl v), s.ipc.sched.stat t = .suspend ∧ t ∉ s.woken v) ∧
      ∀ c, s.ipc.sched.stat c = .running → s.ipc.pending c = some (.inl v) →
        (c ∈ s.woken v ↔ (s.ipc.leave c).2 = rtEok) := by
  have hinv : Inv start s := inv_reach hprio hstart h
  obtain ⟨hwait, hcount, hbound, hwoken⟩ := hinv.sem v
  refine ⟨by omega, hwait, hbound, fun t ht => ⟨hinv.ipc.sched.waiting _ t ht, fun hmem => ?_⟩,
    fun c hrun hpend => ?_⟩
  · exact ((hwoken t).mp hmem).2.1 ht
  · obtain ⟨-, -, -, hok⟩ := Ipc.leave_own hinv.ipc hpend hrun
    exact (hwoken c).trans hok

/-- A thread waits for what the other one gives, and takes the next one at once under a locked
    scheduler. -/
theorem semaphore_run_two : ∃ s : Locks (Fin 2) Unit Unit, (s.taken () = 2 ∧ s.given () = 3) ∧
    s.taken () + s.value () + (s.woken ()).card = 0 + s.given () ∧
      (0 < s.value () → s.ipc.list (.inl ()) = []) ∧ s.value () ≤ rtSemValueMax ∧
      (∀ t ∈ s.ipc.list (.inl ()), s.ipc.sched.stat t = .suspend ∧ t ∉ s.woken ()) ∧
      ∀ c, s.ipc.sched.stat c = .running → s.ipc.pending c = some (.inl ()) →
        (c ∈ s.woken () ↔ (s.ipc.leave c).2 = rtEok) := by
  have hrun : (exec (guarded (fun (s : Locks (Fin 2) Unit Unit) a => s.step (fun _ => .fifo) a)
      fun s a => s.Regular (fun _ => .fifo) a)
      (boot (fun t : Fin 2 => 10 + t) (fun _ => 5) fun _ => 0)
      [.outside (.startup 0), .outside (.startup 1), .outside .start, .semTake () (-1),
        .outside .schedule, .semRelease (), .outside .schedule, .leave, .semRelease (),
        .outside .enterCritical, .semTake () (-1), .semRelease ()]).any
      (fun s => s.taken () = 2 ∧ s.given () = 3) = true := by decide +kernel
  obtain ⟨s, hs, hstate⟩ := (Option.any_eq_true ..).mp hrun
  have hreach : Reached (fun t : Fin 2 => 10 + t) (fun _ => 5) (fun _ => 0) (fun _ => .fifo) s :=
    reach_of_exec .start hs
  exact ⟨s, of_decide_eq_true hstate, semaphore_run _ _ (by decide) (fun _ => by decide) hreach ()⟩

/-- And no two threads hold a mutex by what their calls returned: it is held by its owner, as
    often as `hold` says, threads wait only while it is held, and a call that was blocked returns
    `RT_EOK` if and only if its thread is the owner by then. -/
theorem mutex_run {priority : τ → Nat} (slice : τ → BitVec 32) (flag : σ → IpcFlag)
    (hprio : ∀ t, priority t < rtThreadPriorityMax) (hstart : ∀ v, start v ≤ rtSemValueMax)
    {s : Locks τ σ μ} (h : Reached priority slice start flag s)
    (m : μ) :
    (∀ t, 0 < s.holds t m → (s.mutex m).owner = some t) ∧
      (∀ o, (s.mutex m).owner = some o → (s.mutex m).value = 0 ∧
        (s.mutex m).hold = s.holds o m + if s.ipc.pending o = some (.inr m) then 1 else 0) ∧
      ((s.mutex m).owner = none → (s.mutex m).value = 1 ∧ s.ipc.list (.inr m) = []) ∧
      ∀ c, s.ipc.sched.stat c = .running → s.ipc.pending c = some (.inr m) →
        ((s.mutex m).owner = some c ↔ (s.ipc.leave c).2 = rtEok) := by
  have hinv : Inv start s := inv_reach hprio hstart h
  have hleave : ∀ c, s.ipc.sched.stat c = .running → s.ipc.pending c = some (.inr m) →
      (s.ipc.Won (.inr m) c ↔ (s.ipc.leave c).2 = rtEok) := fun c hrun hpend =>
    (Ipc.leave_own hinv.ipc hpend hrun).2.2.2
  obtain ⟨⟨hnone, hvalue, -⟩, hlist, hwon, hholds⟩ | ⟨o, hheld⟩ := hinv.mutex m
  · refine ⟨fun t ht => ?_, fun o ho => (nomatch hnone.symm.trans ho), fun _ => ⟨hvalue, hlist⟩,
      fun c hrun hpend => ?_⟩
    · exact absurd (hholds t) (Nat.ne_of_gt ht)
    · rw [← hleave c hrun hpend, hnone]
      exact iff_of_false (nomatch ·) (hwon c)
  · obtain ⟨howner, hvalue⟩ := hheld.mutex
    refine ⟨fun t ht => ?_, fun o' ho => ?_, fun hnone => (nomatch hnone.symm.trans howner),
      fun c hrun hpend => ?_⟩
    · by_cases hto : t = o
      · rw [hto]
        exact howner
      · exact absurd (hheld.holds t hto) (Nat.ne_of_gt ht)
    · obtain rfl := Option.some.inj (howner.symm.trans ho)
      exact ⟨hvalue, hheld.hold⟩
    · rw [← hleave c hrun hpend, hheld.won, howner]
      constructor
      · rintro ⟨⟩
        exact ⟨rfl, hpend⟩
      · rintro ⟨rfl, -⟩
        rfl

/-- The owner hands the mutex to the thread of the higher priority that waits for it. -/
theorem mutex_run_two : ∃ s : Locks (Fin 2) Unit Unit, s.holds 0 () = 1 ∧
    (∀ t, 0 < s.holds t () → (s.mutex ()).owner = some t) ∧
      (∀ o, (s.mutex ()).owner = some o → (s.mutex ()).value = 0 ∧
        (s.mutex ()).hold = s.holds o () + if s.ipc.pending o = some (.inr ()) then 1 else 0) ∧
      ((s.mutex ()).owner = none → (s.mutex ()).value = 1 ∧ s.ipc.list (.inr ()) = []) ∧
      ∀ c, s.ipc.sched.stat c = .running → s.ipc.pending c = some (.inr ()) →
        ((s.mutex ()).owner = some c ↔ (s.ipc.leave c).2 = rtEok) := by
  have hrun : (exec (guarded (fun (s : Locks (Fin 2) Unit Unit) a => s.step (fun _ => .fifo) a)
      fun s a => s.Regular (fun _ => .fifo) a)
      (boot (fun t : Fin 2 => 10 + t) (fun _ => 5) fun _ => 0)
      [.outside (.startup 1), .outside .start, .mutexTake () (-1), .outside (.startup 0),
        .mutexTake () 7, .outside .schedule, .mutexRelease (), .outside .schedule, .leave]).any
      (fun s => s.holds 0 () = 1) = true := by decide +kernel
  obtain ⟨s, hs, hstate⟩ := (Option.any_eq_true ..).mp hrun
  have hreach : Reached (fun t : Fin 2 => 10 + t) (fun _ => 5) (fun _ => 0) (fun _ => .fifo) s :=
    reach_of_exec .start hs
  exact ⟨s, of_decide_eq_true hstate, mutex_run _ _ (by decide) (fun _ => by decide) hreach ()⟩

end Inv

end Locks

end Live2dStm32.Kernel
