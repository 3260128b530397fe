import LibPthread.Cond.Wait
import LibPthread.Process.Cancel

/-!
# Threads using the objects of a process

The system of threads that call the functions on the mutexes, rwlocks, semaphores, barriers
and condition variables of a process, with cancellation. One port and one link per thread
serve all objects: the steps of all functions follow the wakeup protocol together.
-/

open Concurrency

namespace LibPthread

namespace Process

variable {T N : Type} [DecidableEq T] [DecidableEq N]

/-- The control points of a thread. -/
inductive Loc (T N : Type) where
  | mutex (n : N) (l : Mutex.Loc T)
  | rwlock (n : N) (l : Rwlock.Loc T)
  | sem (n : N) (l : Semaphore.Loc T)
  | barrier (n : N) (l : Barrier.Loc T)
  /-- In `pthread_cond_wait` or `pthread_cond_timedwait` on `c` with the mutex `m`. -/
  | condWait (c m : N) (l : Cond.WaitLoc T)
  | condSignal (c : N) (l : Cond.SignalLoc T)
  | condBroadcast (c : N) (l : Cond.BroadcastLoc T)
  | cancel (target : T) (l : CancelLoc T N)
  /-- In `pthread_setcancelstate` or `pthread_setcanceltype`. -/
  | set (x : Setting) (l : SetLoc T)
  deriving DecidableEq

/-- The control points at which a call starts. -/
def Loc.entry : Loc T N → Bool
  | .mutex _ l => l.entry
  | .rwlock _ l => l.entry
  | .sem _ l => l.entry
  | .barrier _ l => l = .start
  | .condWait _ _ (.start _) => true
  | .condWait _ _ _ => false
  | .condSignal _ l => l = .start
  | .condBroadcast _ l => l = .start
  | .cancel _ l => l = .lock (.start none)
  | .set _ l => l = .lock (.start none)

/-- The role of a thread in the wakeup protocol. -/
def Loc.role (self : T) : Loc T N → Role T (QueueRef T N)
  | .mutex n l => l.role (.mutex (.user n))
  | .rwlock n l => l.role (.rwlock n)
  | .sem n l => l.role (.sem n)
  | .barrier n l => l.role (.barrier n)
  | .condWait c m l => l.role c (.user m) self
  | .condSignal _ l => ⟨.out, l.owes, []⟩
  | .condBroadcast _ l => ⟨.out, l.owes, []⟩
  | .cancel target l => l.role target
  | .set _ l => l.role self

/-- The step of a thread from the control point acts on the queue `q`. -/
def Loc.Touches (self : T) (w : Waits T (QueueRef T N)) (q : QueueRef T N) : Loc T N → Prop
  | .mutex n _ => .mutex (.user n) = q
  | .rwlock n _ => ∃ mode, .rwlock n mode = q
  | .sem n _ => .sem n = q
  | .barrier n _ => .barrier n = q
  | .condWait c m l => l.queue c (.user m) self = some q
  | .condSignal c _ => .cond c = q
  | .condBroadcast c _ => .cond c = q
  | .cancel target l => l.queue target w = some q
  | .set _ l => l.queue self = some q

/-- One step of the function a thread is in. -/
def stepInside (b : Build) (self : T) :
    Loc T N → Bool → Shared T N → Outcome (Shared T N) (Loc T N) Ret
  | .mutex n l, timeout, s =>
    (Mutex.step b (.mutex (.user n)) self l timeout ⟨s.obj.mutex (.user n), s.waits⟩).lift
      (Shared.setMutex (.user n) s) (.mutex n) .ret
  | .rwlock n l, timeout, s =>
    (Rwlock.step b (.rwlock n) self l timeout ⟨s.obj.rwlock n, s.waits⟩).lift
      (Shared.setRwlock n s) (.rwlock n) .ret
  | .sem n l, timeout, s =>
    (Semaphore.step b (.sem n) self l timeout ⟨s.obj.sem n, s.waits⟩).lift
      (Shared.setSem n s) (.sem n) .ret
  | .barrier n l, _, s =>
    (Barrier.waitStep b (.barrier n) self l ⟨s.obj.barrier n, s.waits⟩).lift
      (Shared.setBarrier n s) (.barrier n) .ret
  | .condWait c m l, timeout, s =>
    (Cond.timedwaitStep b c (.user m) self l timeout s).lift id (.condWait c m) .ret
  | .condSignal c l, _, s =>
    (Cond.signalStep b (.cond c) l ⟨s.obj.cond c, s.waits⟩).lift
      (Shared.setCond c s) (.condSignal c) .ret
  | .condBroadcast c l, _, s =>
    (Cond.broadcastStep b (.cond c) l ⟨s.obj.cond c, s.waits⟩).lift
      (Shared.setCond c s) (.condBroadcast c) .ret
  | .cancel target l, timeout, s =>
    (cancelStep b target self l timeout s).lift id (.cancel target) .ret
  | .set x l, timeout, s => (setStep b x self l timeout s).lift id (.set x) .ret

/-- One step of a thread inside its call. A thread that has been redirected takes none in the call
it was in: it gives the call up and goes on in `call_exit`, which is a step of `callExitMachine`.
Redirected outside of any call, it goes on with the next call it makes. -/
def step (b : Build) (self : T) (l : Loc T N) (timeout : Bool) (s : Shared T N) :
    Outcome (Shared T N) (Loc T N) Ret :=
  if s.obj.redirected self ∧ l.entry = false then .spin
  else stepInside b self l timeout (Shared.resume self s)

/-- The functions of a process. -/
def machine (b : Build) : Machine T (Shared T N) (Loc T N) Ret where
  entry := Loc.entry
  step := step b

/-- A state of the system. -/
abbrev Sys (T N : Type) :=
  State T (Shared T N) (Loc T N) Ret

/-- The process before any call. -/
def start (attr : N → Option MutexType) (value count : N → Nat) : Sys T N :=
  State.idle ⟨Objects.init attr value count, Waits.empty⟩

theorem step_eq_goto {b : Build} {self : T} {l l' : Loc T N} {timeout : Bool}
    {s s' : Shared T N} (h : step b self l timeout s = .goto s' l') :
  stepInside b self l timeout (Shared.resume self s) = .goto s' l'
  := by
  rw [step] at h
  split at h
  · cases h
  · apply h

theorem step_eq_ret {b : Build} {self : T} {l : Loc T N} {timeout : Bool}
    {s s' : Shared T N} {r : Ret} (h : step b self l timeout s = .ret s' r) :
  stepInside b self l timeout (Shared.resume self s) = .ret s' r
  := by
  rw [step] at h
  split at h
  · cases h
  · apply h

/-! ### The functions follow the wakeup protocol -/

section Protocol

variable {b : Build} {self : T} {l l' : Loc T N} {timeout : Bool} {s s' : Shared T N} {r : Ret}

theorem Loc.role_of_entry (hl : l.entry = true) :
  l.role self = .idle
  := by
  cases l with
  | mutex n l => apply Mutex.Loc.role_of_entry hl
  | rwlock n l => apply Rwlock.Loc.role_of_entry hl
  | sem n l => apply Semaphore.Loc.role_of_entry hl
  | barrier n l =>
      obtain rfl : l = .start := by simpa [Loc.entry] using hl
      rfl
  | condWait c m l =>
      cases l with
      | start abstime => rfl
      | _ => cases hl
  | condSignal c l =>
      obtain rfl : l = .start := by simpa [Loc.entry] using hl
      rfl
  | condBroadcast c l =>
      obtain rfl : l = .start := by simpa [Loc.entry] using hl
      rfl
  | cancel target l =>
      obtain rfl : l = .lock (.start none) := by simpa [Loc.entry] using hl
      rfl
  | set x l =>
      obtain rfl : l = .lock (.start none) := by simpa [Loc.entry] using hl
      rfl

/-- The steps of a thread are acts of the wakeup protocol, if the hook finds its target on a
queue whenever it finds it linked. -/
theorem stepInside_act (hport : ∀ u ∈ (l.role self).owes, s.waits.port u = 0)
    (hqueued : ∀ target c, l = .cancel target (.hook c) →
      ∀ q, s.waits.prevp target = some q → target ∈ s.waits.queue q)
    (h : stepInside b self l timeout s = .goto s' l') :
  Act QueueRef.IsBarrier (fun q => l.Touches self s.waits q) self s.waits (l.role self) s'.waits
    (l'.role self)
  := by
  cases l with
  | mutex n l =>
      rcases Outcome.lift_eq_goto_iff.mp h with ⟨x, l₁, hstep, rfl, rfl⟩ | ⟨_, _, _, h⟩
      · apply Mutex.step_act id hstep
      · cases h
  | rwlock n l =>
      rcases Outcome.lift_eq_goto_iff.mp h with ⟨x, l₁, hstep, rfl, rfl⟩ | ⟨_, _, _, h⟩
      · apply Rwlock.step_act (fun _ => id) hport hstep
      · cases h
  | sem n l =>
      rcases Outcome.lift_eq_goto_iff.mp h with ⟨x, l₁, hstep, rfl, rfl⟩ | ⟨_, _, _, h⟩
      · apply Semaphore.step_act id hstep
      · cases h
  | barrier n l =>
      rcases Outcome.lift_eq_goto_iff.mp h with ⟨x, l₁, hstep, rfl, rfl⟩ | ⟨_, _, _, h⟩
      · apply Barrier.waitStep_act trivial hport hstep
      · cases h
  | condWait c m l =>
      rcases Outcome.lift_eq_goto_iff.mp h with ⟨x, l₁, hstep, rfl, rfl⟩ | ⟨_, _, _, h⟩
      · apply Cond.timedwaitStep_act id (fun _ => id) hport hstep
      · cases h
  | condSignal c l =>
      rcases Outcome.lift_eq_goto_iff.mp h with ⟨x, l₁, hstep, rfl, rfl⟩ | ⟨_, _, _, h⟩
      · apply Cond.signalStep_act hstep
      · cases h
  | condBroadcast c l =>
      rcases Outcome.lift_eq_goto_iff.mp h with ⟨x, l₁, hstep, rfl, rfl⟩ | ⟨_, _, _, h⟩
      · apply Cond.broadcastStep_act hport hstep
      · cases h
  | cancel target l =>
      rcases Outcome.lift_eq_goto_iff.mp h with ⟨x, l₁, hstep, rfl, rfl⟩ | ⟨_, _, _, h⟩
      · apply cancelStep_act (fun _ => id) hport _ hstep
        intro c hl
        apply hqueued target c (by rw [hl])
      · cases h
  | set x l =>
      rcases Outcome.lift_eq_goto_iff.mp h with ⟨y, l₁, hstep, rfl, rfl⟩ | ⟨_, _, _, h⟩
      · apply setStep_act (fun _ => id) hstep
      · cases h

theorem stepInside_act_ret (hport : ∀ u ∈ (l.role self).owes, s.waits.port u = 0)
    (h : stepInside b self l timeout s = .ret s' r) :
  Act QueueRef.IsBarrier (fun q => l.Touches self s.waits q) self s.waits (l.role self) s'.waits
    .idle
  := by
  cases l with
  | mutex n l =>
      obtain ⟨x, r', hstep, h'⟩ := Outcome.lift_eq_ret_iff.mp h
      obtain ⟨rfl, rfl⟩ := h'
      apply Mutex.step_act_ret hport hstep
  | rwlock n l =>
      obtain ⟨x, r', hstep, h'⟩ := Outcome.lift_eq_ret_iff.mp h
      obtain ⟨rfl, rfl⟩ := h'
      apply Rwlock.step_act_ret hport hstep
  | sem n l =>
      obtain ⟨x, r', hstep, h'⟩ := Outcome.lift_eq_ret_iff.mp h
      obtain ⟨rfl, rfl⟩ := h'
      apply Semaphore.step_act_ret hport hstep
  | barrier n l =>
      obtain ⟨x, r', hstep, h'⟩ := Outcome.lift_eq_ret_iff.mp h
      obtain ⟨rfl, rfl⟩ := h'
      apply Barrier.waitStep_act_ret hport hstep
  | condWait c m l =>
      obtain ⟨x, r', hstep, h'⟩ := Outcome.lift_eq_ret_iff.mp h
      obtain ⟨rfl, rfl⟩ := h'
      apply Cond.timedwaitStep_act_ret hport hstep
  | condSignal c l =>
      obtain ⟨x, r', hstep, h'⟩ := Outcome.lift_eq_ret_iff.mp h
      obtain ⟨rfl, rfl⟩ := h'
      apply Cond.signalStep_act_ret hport hstep
  | condBroadcast c l =>
      obtain ⟨x, r', hstep, h'⟩ := Outcome.lift_eq_ret_iff.mp h
      obtain ⟨rfl, rfl⟩ := h'
      apply Cond.broadcastStep_act_ret hport hstep
  | cancel target l =>
      obtain ⟨x, r', hstep, h'⟩ := Outcome.lift_eq_ret_iff.mp h
      obtain ⟨rfl, rfl⟩ := h'
      apply cancelStep_act_ret hport hstep
  | set x l =>
      obtain ⟨y, r', hstep, h'⟩ := Outcome.lift_eq_ret_iff.mp h
      obtain ⟨rfl, rfl⟩ := h'
      apply setStep_act_ret hport hstep

theorem step_act (hport : ∀ u ∈ (l.role self).owes, s.waits.port u = 0)
    (hqueued : ∀ target c, l = .cancel target (.hook c) →
      ∀ q, s.waits.prevp target = some q → target ∈ s.waits.queue q)
    (h : step b self l timeout s = .goto s' l') :
  Act QueueRef.IsBarrier (fun q => l.Touches self s.waits q) self s.waits (l.role self) s'.waits
    (l'.role self)
  := stepInside_act (s := Shared.resume self s) hport hqueued (step_eq_goto h)

theorem step_act_ret (hport : ∀ u ∈ (l.role self).owes, s.waits.port u = 0)
    (h : step b self l timeout s = .ret s' r) :
  Act QueueRef.IsBarrier (fun q => l.Touches self s.waits q) self s.waits (l.role self) s'.waits
    .idle
  := stepInside_act_ret (s := Shared.resume self s) hport (step_eq_ret h)

end Protocol

/-! ### The queue a thread waits on -/

section Queue

variable {self : T} {c : N} {l : Loc T N} {q : QueueRef T N}

omit [DecidableEq T] [DecidableEq N] in
/-- The queue on which a thread waits is one of the object on which it called a function. -/
theorem Loc.kind_of_queue (h : (l.role self).phase.queue = some q) :
  (∃ n k, l = .mutex n k ∧ q = .mutex (.user n))
    ∨ (∃ n k mode, l = .rwlock n k ∧ q = .rwlock n mode)
    ∨ (∃ n k, l = .sem n k ∧ q = .sem n)
    ∨ (∃ n k, l = .barrier n k ∧ q = .barrier n)
    ∨ (∃ c m k, l = .condWait c m k)
    ∨ (∃ target st, l = .cancel target (.lock (.wait st)) ∧ q = .mutex (.cancelLock target))
    ∨ (∃ x st, l = .set x (.lock (.wait st)) ∧ q = .mutex (.cancelLock self))
  := by
  cases l with
  | mutex n k =>
      cases k with
      | lock k =>
          obtain ⟨rfl, -⟩ := Mutex.LockLoc.queue_phase h
          left
          use n, .lock k
      | trylock => cases h
      | unlock k => cases h
  | rwlock n k =>
      cases k with
      | lock mode k =>
          obtain rfl := Rwlock.LockLoc.queue_phase h
          right; left
          use n, .lock mode k, mode
      | trylock mode => cases h
      | unlock k => cases h
  | sem n k =>
      cases k with
      | wait k =>
          obtain rfl := Semaphore.WaitLoc.queue_phase h
          right; right; left
          use n, .wait k
      | trywait => cases h
      | post k => cases h
  | barrier n k =>
      cases k with
      | block =>
          obtain rfl := Option.some.inj h
          right; right; right; left
          use n, .block
      | _ => cases h
  | condWait c m k => grind
  | condSignal c k => cases h
  | condBroadcast c k => cases h
  | cancel target k =>
      cases k with
      | lock k =>
          obtain ⟨rfl, st, rfl⟩ := Mutex.LockLoc.queue_phase h
          grind
      | _ => cases h
  | set x k =>
      cases k with
      | lock k =>
          obtain ⟨rfl, st, rfl⟩ := Mutex.LockLoc.queue_phase h
          grind
      | _ => cases h

omit [DecidableEq T] [DecidableEq N] in
/-- The queue on which a thread inside a wait waits. -/
theorem WaitLoc.kind_of_queue {m : MutexRef T N} {k : Cond.WaitLoc T}
    (h : (k.role c m self).phase.queue = some q) :
  (q = .cond c ∧ ((∃ timed oldtype k', k = .unlockCancel timed (some oldtype) k')
      ∨ (∃ timed oldtype k', k = .unlockMutex timed oldtype k')
      ∨ (∃ oldtype stage, k = .wait oldtype stage)))
    ∨ (q = .mutex (.cancelLock self) ∧ ((∃ timed st, k = .lockCancel timed (.wait st))
      ∨ (∃ oldtype err st, k = .relockCancel oldtype err (.wait st))))
    ∨ (q = .mutex m ∧ ∃ err cancelled st, k = .relockMutex err cancelled (.wait st))
  := by
  cases k with
  | start abstime => cases h
  | lockCancel timed k =>
      obtain ⟨rfl, st, rfl⟩ := Mutex.LockLoc.queue_phase h
      grind
  | enqueue timed => cases h
  | unlockCancel timed saved k =>
      cases saved with
      | none => cases h
      | some oldtype =>
          obtain rfl := Option.some.inj h
          grind
  | unlockMutex timed oldtype k =>
      obtain rfl := Option.some.inj h
      grind
  | wait oldtype stage =>
      rw [Cond.WaitLoc.role, Stage.queue_phase] at h
      grind
  | relockCancel oldtype err k =>
      obtain ⟨rfl, st, rfl⟩ := Mutex.LockLoc.queue_phase h
      grind
  | restore oldtype err => cases h
  | releaseCancel err cancelled k => cases h
  | relockMutex err cancelled k =>
      obtain ⟨rfl, st, rfl⟩ := Mutex.LockLoc.queue_phase h
      grind

end Queue

end Process

end LibPthread
