import LibPthread.Cond.Functions
import LibPthread.Mutex.Relock

/-!
# Waiting with cancellation by the Hurd

`__pthread_hurd_cond_timedwait_internal`, step by step, with the threads that use the mutex,
signal the condition variable, or cancel the wait by `hurd_thread_cancel`. This function belongs
to the C library: it suspends its target while it holds the lock of the sigstate of the target,
releases the lock, sets `ss->cancel`, calls `ss->cancel_hook` if there is one, and resumes the
target. A suspended thread takes no step.

The first section under `ss->lock` takes one step when `cond->__lock` is free; the last one is
longer, since it may receive a message.
-/

open Concurrency

namespace LibPthread

namespace Hurd

/-- The queues of waiting threads. -/
inductive Queue (N : Type) where
  | mutex (n : N)
  | cond (n : N)
  deriving DecidableEq

/-- The fields of `struct hurd_sigstate` in use. The only hook is `cancel_me`; `hook` is the
condition variable of the call that has installed it. -/
structure Sigstate (N : Type) where
  lock : Bool
  cancel : Bool
  hook : Option N
  deriving DecidableEq

/-- The mutexes, condition variables and sigstates of a task. -/
structure Task (T N : Type) where
  mutex : N → Mutex T
  cond : N → Cond
  ss : T → Sigstate N
  /-- The suspend count of a thread. -/
  suspended : T → Nat

/-- The state before any call, with the given attributes of the mutexes. -/
def Task.init {T N : Type} (attr : N → Option MutexType) : Task T N where
  mutex n := Mutex.init (attr n)
  cond _ := Cond.init
  ss _ := ⟨false, false, none⟩
  suspended _ := 0

/-- The values that the functions return. -/
inductive Answer where
  | ret (r : Ret)
  | EINTR
  deriving DecidableEq

/-- The shared state of a task. -/
abbrev Shared (T N : Type) :=
  World (Task T N) T (Queue N)

/-- The control points of `__pthread_hurd_cond_timedwait_internal`. -/
inductive WaitLoc (T : Type) where
  | start (abstime : Option Timespec)
  /-- At the first `__spin_lock (&ss->lock)`. -/
  | enter (timed : Bool)
  /-- At the test of `ss->cancel` and the enqueue, with `ss->lock` held. -/
  | enqueue (timed : Bool)
  /-- At the second `__spin_lock (&ss->lock)`, with `cancel` set. -/
  | cancelled
  /-- In `__pthread_mutex_unlock (mutex)`. -/
  | unlockMutex (timed : Bool) (l : Mutex.UnlockLoc T)
  /-- At `__pthread_timedblock` or, if there is no time-out, `__pthread_block`. -/
  | block (timed : Bool)
  /-- At the third `__spin_lock (&ss->lock)`. -/
  | blocked (err : Bool)
  /-- At the section that tests `self->prevp`, with `ss->lock` held. -/
  | recheck (err : Bool)
  /-- At the `__pthread_block` of the `drain` branch, with `ss->lock` held. -/
  | drain
  /-- At the removal of the hook, with `ss->lock` held; the mutex is held if `cancel` is set. -/
  | final (cancel err : Bool)
  /-- At the end of a call that has not released the mutex. -/
  | leave
  /-- In `__pthread_mutex_lock (mutex)`. -/
  | relockMutex (cancel err : Bool) (l : Mutex.LockLoc)
  deriving DecidableEq

/-- The control points of `hurd_thread_cancel`. -/
inductive CancelLoc (N : Type) where
  /-- At the acquisition of `ss->lock`. -/
  | lock
  /-- At the suspension of the target, with `ss->lock` held. -/
  | suspend
  /-- At the release of `ss->lock`. -/
  | unlock
  /-- At `ss->cancel = 1`. -/
  | mark
  /-- At the test of `ss->cancel_hook`. -/
  | test
  /-- At the section of `cancel_me`. -/
  | hook (c : N)
  /-- At the `__pthread_wakeup` of `cancel_me`. -/
  | hookWakeup
  | resume
  deriving DecidableEq

/-- The control points of a thread. -/
inductive Loc (T N : Type) where
  | mutex (n : N) (l : Mutex.Loc T)
  /-- In `pthread_hurd_cond_timedwait_np` on `c` with the mutex `m`. -/
  | wait (c m : N) (l : WaitLoc T)
  | signal (c : N) (l : Cond.SignalLoc T)
  | broadcast (c : N) (l : Cond.BroadcastLoc T)
  /-- In `hurd_thread_cancel`. -/
  | cancel (target : T) (l : CancelLoc N)
  deriving DecidableEq

/-- The control points at which a call starts. -/
def Loc.entry {T N : Type} [DecidableEq T] : Loc T N → Bool
  | .mutex _ l => l.entry
  | .wait _ _ (.start _) => true
  | .wait _ _ _ => false
  | .signal _ l => l = .start
  | .broadcast _ l => l = .start
  | .cancel _ .lock => true
  | .cancel _ _ => false

variable {T N : Type} [DecidableEq T] [DecidableEq N]

namespace Shared

/-- Replaces a mutex and the waiting threads. -/
@[simps]
def setMutex (n : N) (s : Shared T N) (x : World (Mutex T) T (Queue N)) : Shared T N :=
  ⟨{ s.obj with mutex := Function.update s.obj.mutex n x.obj }, x.waits⟩

/-- Replaces a condition variable and the waiting threads. -/
@[simps]
def setCond (n : N) (s : Shared T N) (x : World Cond T (Queue N)) : Shared T N :=
  ⟨{ s.obj with cond := Function.update s.obj.cond n x.obj }, x.waits⟩

/-- Replaces the sigstate of a thread. -/
@[simps]
def setSs (t : T) (s : Shared T N) (x : Sigstate N) : Shared T N :=
  ⟨{ s.obj with ss := Function.update s.obj.ss t x }, s.waits⟩

/-- Replaces the suspend count of a thread. -/
@[simps]
def setSuspended (t : T) (s : Shared T N) (n : Nat) : Shared T N :=
  ⟨{ s.obj with suspended := Function.update s.obj.suspended t n }, s.waits⟩

end Shared

open Shared

/-! ### The steps -/

/-- A step of a call of the lock function of `m`, continued by `k`. -/
def lock {L : Type} (b : Build) (m : N) (self : T) (l : Mutex.LockLoc) (timeout : Bool)
    (s : Shared T N) (inside : Mutex.LockLoc → L) (k : Shared T N → Outcome (Shared T N) L Answer) :
    Outcome (Shared T N) L Answer :=
  (Mutex.lockStep b (.mutex m) self l timeout ⟨s.obj.mutex m, s.waits⟩).lift (setMutex m s) inside
    (fun s _ => k s)

/-- A step of a call of the unlock function of `m`, continued by `k`. -/
def unlock {L : Type} (b : Build) (m : N) (self : T) (l : Mutex.UnlockLoc T) (s : Shared T N)
    (inside : Mutex.UnlockLoc T → L) (k : Shared T N → Outcome (Shared T N) L Answer) :
    Outcome (Shared T N) L Answer :=
  (Mutex.unlockStep b (.mutex m) self l ⟨s.obj.mutex m, s.waits⟩).lift (setMutex m s) inside
    (fun s _ => k s)

/-- `__spin_lock (&ss->lock)` on the sigstate of `t`. -/
def spinLock {L : Type} (t : T) (s : Shared T N) (l : L) : Outcome (Shared T N) L Answer :=
  if (s.obj.ss t).lock then .spin else .goto (setSs t s { s.obj.ss t with lock := true }) l

/-- The section under `ss->lock` and `cond->__lock` in which the thread enqueues itself. -/
def waitEnqueue (b : Build) (c : N) (self : T) (timed : Bool) (s : Shared T N) :
    Outcome (Shared T N) (WaitLoc T) Answer :=
  let x := s.obj.ss self
  if (s.obj.cond c).lock then .spin
  else if x.cancel then .goto (setSs self s { x with cancel := false, lock := false }) .cancelled
  else b.assert (s.waits.prevp self = none)
    (.goto ⟨(setSs self s { x with hook := some c, lock := false }).obj,
      s.waits.enqueue (.cond c) self⟩ (.unlockMutex timed .start))

/-- The control points of the wait itself. The lock of the sigstate is acquired between the
block and the test of the link. -/
def WaitLoc.ofStage {T : Type} : Stage → WaitLoc T
  | .block timed => .block timed
  | .recheck err => .blocked err
  | .drain => .drain

/-- A step of the wait itself. -/
def waitBlocked (c : N) (self : T) (stage : Stage) (timeout : Bool) (s : Shared T N) :
    Outcome (Shared T N) (WaitLoc T) Answer :=
  (waitStep self (s.obj.cond c).lock stage timeout s.waits).lift (fun w => ⟨s.obj, w⟩)
    WaitLoc.ofStage (fun s err => .goto s (.final false err))

/-- The end of the last section under `ss->lock`. -/
def waitFinal (self : T) (cancel err : Bool) (s : Shared T N) :
    Outcome (Shared T N) (WaitLoc T) Answer :=
  let x := s.obj.ss self
  .goto (setSs self s { x with hook := none, cancel := false, lock := false })
    (if cancel then .leave else .relockMutex x.cancel err (.start none))

/-- One step of `__pthread_hurd_cond_timedwait_internal` on the condition variable `c` with the
mutex `m`. -/
def timedwaitStep (b : Build) (c m : N) (self : T) :
    WaitLoc T → Bool → Shared T N → Outcome (Shared T N) (WaitLoc T) Answer
  | .start abstime, _, s =>
    if badTime abstime then .ret s (.ret (.error .EINVAL))
    else .goto s (.enter abstime.isSome)
  | .enter timed, _, s => spinLock self s (.enqueue timed)
  | .enqueue timed, _, s => waitEnqueue b c self timed s
  | .cancelled, _, s => spinLock self s (.final true false)
  | .unlockMutex timed l, _, s =>
    unlock b m self l s (.unlockMutex timed) (fun s => .goto s (.block timed))
  | .block timed, timeout, s => waitBlocked c self (.block timed) timeout s
  | .blocked err, _, s => spinLock self s (.recheck err)
  | .recheck err, timeout, s => waitBlocked c self (.recheck err) timeout s
  | .drain, timeout, s => waitBlocked c self .drain timeout s
  | .final cancel err, _, s => waitFinal self cancel err s
  | .leave, _, s => .ret s .EINTR
  | .relockMutex cancel err l, timeout, s =>
    lock b m self l timeout s (.relockMutex cancel err)
      (fun s => .ret s
        (if cancel then .EINTR else if err then .ret (.error .ETIMEDOUT) else .ret .zero))

/-- The section of `cancel_me` of the target. -/
def cancelHook (target : T) (c : N) (s : Shared T N) :
    Outcome (Shared T N) (CancelLoc N) Answer :=
  if (s.obj.cond c).lock then .spin
  else if s.waits.prevp target = none then .goto s .resume
  else .goto ⟨s.obj, s.waits.dequeue target⟩ .hookWakeup

/-- One step of `hurd_thread_cancel`. -/
def cancelStep (b : Build) (target : T) :
    CancelLoc N → Shared T N → Outcome (Shared T N) (CancelLoc N) Answer
  | .lock, s => spinLock target s .suspend
  | .suspend, s => .goto (setSuspended target s (s.obj.suspended target + 1)) .unlock
  | .unlock, s => .goto (setSs target s { s.obj.ss target with lock := false }) .mark
  | .mark, s => .goto (setSs target s { s.obj.ss target with cancel := true }) .test
  | .test, s =>
    match (s.obj.ss target).hook with
    | none => .goto s .resume
    | some c => .goto s (.hook c)
  | .hook c, s => cancelHook target c s
  | .hookWakeup, s => b.wakeup target s.waits (fun w => .goto ⟨s.obj, w⟩ .resume)
  | .resume, s => .ret (setSuspended target s (s.obj.suspended target - 1)) (.ret .zero)

/-- One step of the function a thread is in. -/
def stepInside (b : Build) (self : T) :
    Loc T N → Bool → Shared T N → Outcome (Shared T N) (Loc T N) Answer
  | .mutex n l, timeout, s =>
    (Mutex.step b (.mutex n) self l timeout ⟨s.obj.mutex n, s.waits⟩).lift
      (setMutex n s) (.mutex n) (fun s r => .ret s (.ret r))
  | .wait c m l, timeout, s => (timedwaitStep b c m self l timeout s).lift id (.wait c m) .ret
  | .signal c l, _, s =>
    (Cond.signalStep b (.cond c) l ⟨s.obj.cond c, s.waits⟩).lift
      (setCond c s) (.signal c) (fun s r => .ret s (.ret r))
  | .broadcast c l, _, s =>
    (Cond.broadcastStep b (.cond c) l ⟨s.obj.cond c, s.waits⟩).lift
      (setCond c s) (.broadcast c) (fun s r => .ret s (.ret r))
  | .cancel target l, _, s => (cancelStep b target l s).lift id (.cancel target) .ret

/-- One step of a thread, which is possible unless the thread is suspended. -/
def step (b : Build) (self : T) (l : Loc T N) (timeout : Bool) (s : Shared T N) :
    Outcome (Shared T N) (Loc T N) Answer :=
  if 0 < s.obj.suspended self then .spin else stepInside b self l timeout s

/-- The functions of a task. -/
def machine (b : Build) : Machine T (Shared T N) (Loc T N) Answer where
  entry := Loc.entry
  step := step b

/-- A state of the system. -/
abbrev Sys (T N : Type) :=
  State T (Shared T N) (Loc T N) Answer

/-- The task before any call. -/
def start (attr : N → Option MutexType) : Sys T N :=
  State.idle ⟨Task.init attr, Waits.empty⟩

end Hurd

end LibPthread
