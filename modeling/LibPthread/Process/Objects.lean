import LibPthread.Mutex.System
import LibPthread.Rwlock.Functions
import LibPthread.Semaphore.Functions
import LibPthread.Barrier.Functions
import LibPthread.Cond.Functions

/-!
# The objects of a process

The mutexes, rwlocks, semaphores, barriers and condition variables of a process, with the
part of the thread structures that deals with cancellation. The objects of each kind are
named by the elements of `N`; a mutex is one of these or the `cancel_lock` of a thread.
-/

open Concurrency

namespace LibPthread

/-- The mutexes of a process. -/
inductive MutexRef (T N : Type) where
  | user (n : N)
  /-- The field `cancel_lock` of the structure of `t`. -/
  | cancelLock (t : T)
  deriving DecidableEq

/-- The queues of waiting threads of a process. -/
inductive QueueRef (T N : Type) where
  | mutex (m : MutexRef T N)
  | rwlock (n : N) (mode : Rwlock.Mode)
  | sem (n : N)
  | barrier (n : N)
  | cond (n : N)
  deriving DecidableEq

/-- The queues on which threads wait without looking at their link. -/
def QueueRef.IsBarrier {T N : Type} : QueueRef T N → Prop
  | .barrier _ => True
  | _ => False

/-- The values of `cancel_state`. -/
inductive CancelState where
  | enable
  | disable
  deriving DecidableEq

/-- The values of `cancel_type`. -/
inductive CancelType where
  | deferred
  | asynchronous
  deriving DecidableEq

/-- The cancellation fields of `struct __pthread`. The only hook is `cancel_hook` of
`pt-cond-timedwait.c`; `hook` is the condition variable of its argument. -/
structure Cancel (N : Type) where
  state : CancelState
  type : CancelType
  pending : Bool
  hook : Option N
  deriving DecidableEq

namespace Cancel

/-- The cancellation fields of a new thread. -/
def init {N : Type} : Cancel N where
  state := .enable
  type := .deferred
  pending := false
  hook := none

/-- `self->cancel_state == PTHREAD_CANCEL_ENABLE && self->cancel_pending`. -/
def cancelled {N : Type} (x : Cancel N) : Bool :=
  x.state = .enable && x.pending

end Cancel

/-- The objects of a process. -/
structure Objects (T N : Type) where
  mutex : MutexRef T N → Mutex T
  rwlock : N → Rwlock
  sem : N → Semaphore
  barrier : N → Barrier
  cond : N → Cond
  cancel : T → Cancel N
  /-- The kernel has been told to continue the thread in `call_exit`. -/
  redirected : T → Bool

/-- The objects as their initializers leave them, with the given attributes of the mutexes,
values of the semaphores and counts of the barriers. -/
def Objects.init {T N : Type} (attr : N → Option MutexType) (value count : N → Nat) :
    Objects T N where
  mutex
    | .user n => Mutex.init (attr n)
    | .cancelLock _ => Mutex.init none
  rwlock _ := Rwlock.init
  sem n := Semaphore.init (value n)
  barrier n := ⟨false, count n, count n⟩
  cond _ := Cond.init
  cancel _ := Cancel.init
  redirected _ := false

/-- The shared state of a process. -/
abbrev Shared (T N : Type) :=
  World (Objects T N) T (QueueRef T N)

namespace Shared

variable {T N : Type} [DecidableEq T] [DecidableEq N]

/-- A mutex of the process, with the waiting threads. -/
@[simps]
def getMutex (m : MutexRef T N) (s : Shared T N) : World (Mutex T) T (QueueRef T N) :=
  ⟨s.obj.mutex m, s.waits⟩

/-- Replaces a mutex of the process and the waiting threads. -/
@[simps]
def setMutex (m : MutexRef T N) (s : Shared T N) (x : World (Mutex T) T (QueueRef T N)) :
    Shared T N :=
  ⟨{ s.obj with mutex := Function.update s.obj.mutex m x.obj }, x.waits⟩

@[simp]
theorem getMutex_setMutex (m : MutexRef T N) (s : Shared T N)
    (x : World (Mutex T) T (QueueRef T N)) :
  getMutex m (setMutex m s x) = x
  := by
  simp [getMutex]

@[simp]
theorem setMutex_mutex_of_ne {m m' : MutexRef T N} (h : m' ≠ m) (s : Shared T N)
    (x : World (Mutex T) T (QueueRef T N)) :
  (setMutex m s x).obj.mutex m' = s.obj.mutex m'
  := by
  simp [h]

/-- Replaces an rwlock of the process and the waiting threads. -/
@[simps]
def setRwlock (n : N) (s : Shared T N) (x : World Rwlock T (QueueRef T N)) : Shared T N :=
  ⟨{ s.obj with rwlock := Function.update s.obj.rwlock n x.obj }, x.waits⟩

/-- Replaces a semaphore of the process and the waiting threads. -/
@[simps]
def setSem (n : N) (s : Shared T N) (x : World Semaphore T (QueueRef T N)) : Shared T N :=
  ⟨{ s.obj with sem := Function.update s.obj.sem n x.obj }, x.waits⟩

/-- Replaces a barrier of the process and the waiting threads. -/
@[simps]
def setBarrier (n : N) (s : Shared T N) (x : World Barrier T (QueueRef T N)) : Shared T N :=
  ⟨{ s.obj with barrier := Function.update s.obj.barrier n x.obj }, x.waits⟩

/-- Replaces a condition variable of the process and the waiting threads. -/
@[simps]
def setCond (n : N) (s : Shared T N) (x : World Cond T (QueueRef T N)) : Shared T N :=
  ⟨{ s.obj with cond := Function.update s.obj.cond n x.obj }, x.waits⟩

/-- Replaces the cancellation fields of a thread. -/
@[simps]
def setCancel (t : T) (s : Shared T N) (x : Cancel N) : Shared T N :=
  ⟨{ s.obj with cancel := Function.update s.obj.cancel t x }, s.waits⟩

/-- Redirects a thread to `call_exit`. -/
@[simps]
def redirect (t : T) (s : Shared T N) : Shared T N :=
  ⟨{ s.obj with redirected := Function.update s.obj.redirected t true }, s.waits⟩

/-- Takes back the redirection of a thread. -/
@[simps]
def resume (t : T) (s : Shared T N) : Shared T N :=
  ⟨{ s.obj with redirected := Function.update s.obj.redirected t false }, s.waits⟩

variable {Loc : Type}

/-- A step of a call of the lock function of `m`, continued by `k`. -/
def lock (b : Build) (m : MutexRef T N) (self : T) (l : Mutex.LockLoc) (timeout : Bool)
    (s : Shared T N) (inside : Mutex.LockLoc → Loc)
    (k : Shared T N → Outcome (Shared T N) Loc Ret) : Outcome (Shared T N) Loc Ret :=
  (Mutex.lockStep b (.mutex m) self l timeout (getMutex m s)).lift (setMutex m s) inside
    (fun s _ => k s)

/-- A step of a call of the unlock function of `m`, continued by `k`. -/
def unlock (b : Build) (m : MutexRef T N) (self : T) (l : Mutex.UnlockLoc T)
    (s : Shared T N) (inside : Mutex.UnlockLoc T → Loc)
    (k : Shared T N → Outcome (Shared T N) Loc Ret) : Outcome (Shared T N) Loc Ret :=
  (Mutex.unlockStep b (.mutex m) self l (getMutex m s)).lift (setMutex m s) inside
    (fun s _ => k s)

section Calls

variable {b : Build} {m : MutexRef T N} {self : T} {c : Bool} {s s' : Shared T N}
    {k : Shared T N → Outcome (Shared T N) Loc Ret} {l' : Loc}

/-- What a step of a call of the lock function does: a step inside the function, or its
return. -/
theorem lock_eq_goto {l : Mutex.LockLoc} {inside : Mutex.LockLoc → Loc}
    (h : lock b m self l c s inside k = .goto s' l') :
  (∃ x l₁, Mutex.lockStep b (.mutex m) self l c (getMutex m s) = .goto x l₁ ∧
      setMutex m s x = s' ∧ inside l₁ = l')
    ∨ (∃ x r, Mutex.lockStep b (.mutex m) self l c (getMutex m s) = .ret x r ∧
      k (setMutex m s x) = .goto s' l')
  := Outcome.lift_eq_goto_iff.mp h

theorem lock_eq_ret {l : Mutex.LockLoc} {inside : Mutex.LockLoc → Loc} {r : Ret}
    (h : lock b m self l c s inside k = .ret s' r) :
  ∃ x r', Mutex.lockStep b (.mutex m) self l c (getMutex m s) = .ret x r' ∧
    k (setMutex m s x) = .ret s' r
  := Outcome.lift_eq_ret_iff.mp h

theorem unlock_eq_goto {l : Mutex.UnlockLoc T} {inside : Mutex.UnlockLoc T → Loc}
    (h : unlock b m self l s inside k = .goto s' l') :
  (∃ x l₁, Mutex.unlockStep b (.mutex m) self l (getMutex m s) = .goto x l₁ ∧
      setMutex m s x = s' ∧ inside l₁ = l')
    ∨ (∃ x r, Mutex.unlockStep b (.mutex m) self l (getMutex m s) = .ret x r ∧
      k (setMutex m s x) = .goto s' l')
  := Outcome.lift_eq_goto_iff.mp h

theorem unlock_eq_ret {l : Mutex.UnlockLoc T} {inside : Mutex.UnlockLoc T → Loc} {r : Ret}
    (h : unlock b m self l s inside k = .ret s' r) :
  ∃ x r', Mutex.unlockStep b (.mutex m) self l (getMutex m s) = .ret x r' ∧
    k (setMutex m s x) = .ret s' r
  := Outcome.lift_eq_ret_iff.mp h

end Calls

end Shared

end LibPthread
