import Mathlib.Tactic.Common

/-
  RT-Thread error codes (rt-thread/include/rtdef.h) and counting semaphores
  (rt-thread/src/ipc.c): `rt_sem_init`, `rt_sem_take`, `rt_sem_release`, and what
  `rt_thread_timeout` does to the queue of a semaphore. Queues are FIFO (RT_IPC_FLAG_FIFO);
  `τ` names threads.
-/

namespace Live2dStm32.Kernel

/-! ## Error codes -/

def rtEok : Int := 0
def rtError : Int := 1
def rtEtimeout : Int := 2
def rtEfull : Int := 3
def rtEnosys : Int := 6
def rtEbusy : Int := 7
def rtEinval : Int := 10

/-! ## Semaphores -/

/-- RT_SEM_VALUE_MAX. -/
def rtSemValueMax : Nat := 65535

structure RtSemaphore (τ : Type) where
  value : Nat
  suspendThread : List τ
  deriving DecidableEq, Repr

/-- How a call that may block leaves its caller: returned with a code, or suspended. -/
inductive Outcome where
  | returned (err : Int)
  | suspended
  deriving DecidableEq, Repr

variable {τ : Type}

def rtSemInit (value : Nat) : RtSemaphore τ := ⟨value % 65536, []⟩

def rtSemTake (sem : RtSemaphore τ) (self : τ) (time : Int) : RtSemaphore τ × Outcome :=
  if 0 < sem.value then ({ sem with value := sem.value - 1 }, .returned rtEok)
  else if time = 0 then (sem, .returned (-rtEtimeout))
  else ({ sem with suspendThread := sem.suspendThread ++ [self] }, .suspended)

/-- The second result is the thread that is resumed, the third the returned code. -/
def rtSemRelease (sem : RtSemaphore τ) : RtSemaphore τ × Option τ × Int :=
  match sem.suspendThread with
  | t :: ts => ({ sem with suspendThread := ts }, some t, rtEok)
  | [] =>
    if sem.value < rtSemValueMax then ({ sem with value := sem.value + 1 }, none, rtEok)
    else (sem, none, -rtEfull)

/-- `rt_thread_timeout` takes the thread off the queue; its `rt_sem_take` then returns
    `-RT_ETIMEOUT`. -/
def rtThreadTimeout [DecidableEq τ] (sem : RtSemaphore τ) (self : τ) : RtSemaphore τ × Outcome :=
  ({ sem with suspendThread := sem.suspendThread.erase self }, .returned (-rtEtimeout))

end Live2dStm32.Kernel
