import LibPthread.Process.Objects

/-!
# Waiting on a condition variable

`__pthread_cond_timedwait_internal`, step by step. The calls of the mutex functions on
`cancel_lock` and on the mutex of the wait take their own steps inside the call; the fields
protected by `cancel_lock` are read and written by single steps in between.
-/

open Concurrency

namespace LibPthread

namespace Cond

/-- The control points of `__pthread_cond_timedwait_internal`. -/
inductive WaitLoc (T : Type) where
  | start (abstime : Option Timespec)
  /-- In the first `__pthread_mutex_lock (&self->cancel_lock)`. -/
  | lockCancel (timed : Bool) (l : Mutex.LockLoc)
  /-- At the test for a pending request and the enqueue, with `cancel_lock` held. -/
  | enqueue (timed : Bool)
  /-- In the first `__pthread_mutex_unlock (&self->cancel_lock)`; `saved` is `oldtype`, or
  `none` if `cancelled` is set. -/
  | unlockCancel (timed : Bool) (saved : Option CancelType) (l : Mutex.UnlockLoc T)
  /-- In `__pthread_mutex_unlock (mutex)`. -/
  | unlockMutex (timed : Bool) (oldtype : CancelType) (l : Mutex.UnlockLoc T)
  /-- Blocked on the condition variable. -/
  | wait (oldtype : CancelType) (stage : Stage)
  /-- In the second `__pthread_mutex_lock (&self->cancel_lock)`. -/
  | relockCancel (oldtype : CancelType) (err : Bool) (l : Mutex.LockLoc)
  /-- At the removal of the hook, with `cancel_lock` held. -/
  | restore (oldtype : CancelType) (err : Bool)
  /-- In the second `__pthread_mutex_unlock (&self->cancel_lock)`. -/
  | releaseCancel (err cancelled : Bool) (l : Mutex.UnlockLoc T)
  /-- In `__pthread_mutex_lock (mutex)`. -/
  | relockMutex (err cancelled : Bool) (l : Mutex.LockLoc)
  deriving DecidableEq

variable {T N : Type} [DecidableEq T] [DecidableEq N]

/-- The test for a pending request, the installation of the hook and the enqueue. -/
def waitEnqueue (b : Build) (c : N) (self : T) (timed : Bool) (s : Shared T N) :
    Outcome (Shared T N) (WaitLoc T) Ret :=
  let x := s.obj.cancel self
  if x.cancelled then .goto s (.unlockCancel timed none .start)
  else if (s.obj.cond c).lock then .spin
  else b.assert (s.waits.prevp self = none)
    (.goto ⟨(Shared.setCancel self s { x with hook := some c, type := .deferred }).obj,
      s.waits.enqueue (.cond c) self⟩ (.unlockCancel timed (some x.type) .start))

/-- The wait, with the assertion that a thread which is still queued has timed out. -/
def waitBlocked (b : Build) (c : N) (self : T) (oldtype : CancelType) (stage : Stage)
    (timeout : Bool) (s : Shared T N) : Outcome (Shared T N) (WaitLoc T) Ret :=
  b.assert ((s.obj.cond c).lock = true ∨ stage ≠ .recheck false ∨ s.waits.prevp self = none)
    ((waitStep self (s.obj.cond c).lock stage timeout s.waits).lift (fun w => ⟨s.obj, w⟩)
      (.wait oldtype) (fun s err => .goto s (.relockCancel oldtype err (.start none))))

/-- One step of `__pthread_cond_timedwait_internal` on the condition variable `c` with the
mutex `m`. -/
def timedwaitStep (b : Build) (c : N) (m : MutexRef T N) (self : T) :
    WaitLoc T → Bool → Shared T N → Outcome (Shared T N) (WaitLoc T) Ret
  | .start abstime, _, s =>
    if badTime abstime then .ret s (.error .EINVAL)
    else .goto s (.lockCancel abstime.isSome (.start none))
  | .lockCancel timed l, timeout, s =>
    Shared.lock b (.cancelLock self) self l timeout s (.lockCancel timed)
      (fun s => .goto s (.enqueue timed))
  | .enqueue timed, _, s => waitEnqueue b c self timed s
  | .unlockCancel timed saved l, _, s =>
    Shared.unlock b (.cancelLock self) self l s (.unlockCancel timed saved)
      (fun s =>
        match saved with
        | none => .ret s .canceled
        | some oldtype => .goto s (.unlockMutex timed oldtype .start))
  | .unlockMutex timed oldtype l, _, s =>
    Shared.unlock b m self l s (.unlockMutex timed oldtype)
      (fun s => .goto s (.wait oldtype (.block timed)))
  | .wait oldtype stage, timeout, s => waitBlocked b c self oldtype stage timeout s
  | .relockCancel oldtype err l, timeout, s =>
    Shared.lock b (.cancelLock self) self l timeout s (.relockCancel oldtype err)
      (fun s => .goto s (.restore oldtype err))
  | .restore oldtype err, _, s =>
    let x := s.obj.cancel self
    .goto (Shared.setCancel self s { x with hook := none, type := oldtype })
      (.releaseCancel err x.cancelled .start)
  | .releaseCancel err cancelled l, _, s =>
    Shared.unlock b (.cancelLock self) self l s (.releaseCancel err cancelled)
      (fun s => .goto s (.relockMutex err cancelled (.start none)))
  | .relockMutex err cancelled l, timeout, s =>
    Shared.lock b m self l timeout s (.relockMutex err cancelled)
      (fun s => .ret s (if cancelled then .canceled else if err then .error .ETIMEDOUT else .zero))

/-- The role of a waiting thread in the wakeup protocol. A thread that has enqueued itself
still has to release `cancel_lock` and the mutex, and may have to wake up threads for that,
before it blocks. -/
def WaitLoc.role (c : N) (m : MutexRef T N) (self : T) : WaitLoc T → Role T (QueueRef T N)
  | .start _ => .idle
  | .lockCancel _ l => ⟨l.phase (.mutex (.cancelLock self)), [], []⟩
  | .enqueue _ => .idle
  | .unlockCancel timed (some _) l => ⟨.blocking (.cond c) timed, l.owes, []⟩
  | .unlockCancel _ none l => ⟨.out, l.owes, []⟩
  | .unlockMutex timed _ l => ⟨.blocking (.cond c) timed, l.owes, []⟩
  | .wait _ stage => ⟨stage.phase (.cond c), [], []⟩
  | .relockCancel _ _ l => ⟨l.phase (.mutex (.cancelLock self)), [], []⟩
  | .restore _ _ => .idle
  | .releaseCancel _ _ l => ⟨.out, l.owes, []⟩
  | .relockMutex _ _ l => ⟨l.phase (.mutex m), [], []⟩

/-- The queue on which the step from the control point acts. -/
def WaitLoc.queue (c : N) (m : MutexRef T N) (self : T) : WaitLoc T → Option (QueueRef T N)
  | .start _ => none
  | .lockCancel _ _ => some (.mutex (.cancelLock self))
  | .enqueue _ => some (.cond c)
  | .unlockCancel _ _ l => l.queue (.mutex (.cancelLock self))
  | .unlockMutex _ _ l => l.queue (.mutex m)
  | .wait _ _ => some (.cond c)
  | .relockCancel _ _ _ => some (.mutex (.cancelLock self))
  | .restore _ _ => none
  | .releaseCancel _ _ l => l.queue (.mutex (.cancelLock self))
  | .relockMutex _ _ _ => some (.mutex m)

/-! ### What each step does -/

variable {b : Build} {c : N} {m : MutexRef T N} {self : T} {timeout : Bool} {s s' : Shared T N}
    {l l' : WaitLoc T} {r : Ret}

theorem waitEnqueue_eq_goto {timed : Bool} (h : waitEnqueue b c self timed s = .goto s' l') :
  ((s.obj.cancel self).cancelled = true ∧ s' = s ∧ l' = .unlockCancel timed none .start)
    ∨ ((s.obj.cancel self).cancelled = false ∧ (s.obj.cond c).lock = false ∧
      s' = ⟨(Shared.setCancel self s
        { s.obj.cancel self with hook := some c, type := .deferred }).obj,
        s.waits.enqueue (.cond c) self⟩ ∧
      l' = .unlockCancel timed (some (s.obj.cancel self).type) .start)
  := by
  simp only [waitEnqueue, Build.assert] at h
  grind

theorem waitEnqueue_ne_ret {timed : Bool} :
  waitEnqueue b c self timed s ≠ .ret s' r
  := by
  simp only [waitEnqueue, Build.assert]
  grind

theorem waitBlocked_eq_goto {oldtype : CancelType} {stage : Stage}
    (h : waitBlocked b c self oldtype stage timeout s = .goto s' l') :
  (∃ w stage', waitStep self (s.obj.cond c).lock stage timeout s.waits = .goto w stage' ∧
      s' = ⟨s.obj, w⟩ ∧ l' = .wait oldtype stage')
    ∨ (∃ w err, waitStep self (s.obj.cond c).lock stage timeout s.waits = .ret w err ∧
      s' = ⟨s.obj, w⟩ ∧ l' = .relockCancel oldtype err (.start none))
  := by
  rw [waitBlocked, Build.assert_eq_goto_iff, Outcome.lift_eq_goto_iff] at h
  grind

theorem waitBlocked_ne_ret {oldtype : CancelType} {stage : Stage} :
  waitBlocked b c self oldtype stage timeout s ≠ .ret s' r
  := by
  rw [waitBlocked, ne_eq, Build.assert_eq_ret_iff, Outcome.lift_eq_ret_iff]
  grind

/-! ### The control flow of a wait -/

/-- The control points that follow each other in a wait. -/
inductive WaitLoc.Flow {T : Type} : WaitLoc T → WaitLoc T → Prop where
  | start {abstime : Option Timespec} :
    Flow (.start abstime) (.lockCancel abstime.isSome (.start none))
  | locking {timed : Bool} {l l' : Mutex.LockLoc} :
    Flow (.lockCancel timed l) (.lockCancel timed l')
  | locked {timed : Bool} {l : Mutex.LockLoc} : Flow (.lockCancel timed l) (.enqueue timed)
  | cancelled {timed : Bool} : Flow (.enqueue timed) (.unlockCancel timed none .start)
  | enqueued {timed : Bool} {oldtype : CancelType} :
    Flow (.enqueue timed) (.unlockCancel timed (some oldtype) .start)
  | unlocking {timed : Bool} {saved : Option CancelType} {u : T} :
    Flow (.unlockCancel timed saved .start) (.unlockCancel timed saved (.wakeup u))
  | unlocked {timed : Bool} {oldtype : CancelType} {l : Mutex.UnlockLoc T} :
    Flow (.unlockCancel timed (some oldtype) l) (.unlockMutex timed oldtype .start)
  | leaving {timed : Bool} {oldtype : CancelType} {u : T} :
    Flow (.unlockMutex timed oldtype .start) (.unlockMutex timed oldtype (.wakeup u))
  | left {timed : Bool} {oldtype : CancelType} {l : Mutex.UnlockLoc T} :
    Flow (.unlockMutex timed oldtype l) (.wait oldtype (.block timed))
  | received {oldtype : CancelType} {timed : Bool} :
    Flow (.wait oldtype (.block timed)) (.wait oldtype (.recheck false))
  | expired {oldtype : CancelType} :
    Flow (.wait oldtype (.block true)) (.wait oldtype (.recheck true))
  | late {oldtype : CancelType} : Flow (.wait oldtype (.recheck true)) (.wait oldtype .drain)
  | unblocked {oldtype : CancelType} {err : Bool} :
    Flow (.wait oldtype (.recheck err)) (.relockCancel oldtype err (.start none))
  | drained {oldtype : CancelType} :
    Flow (.wait oldtype .drain) (.relockCancel oldtype true (.start none))
  | relocking {oldtype : CancelType} {err : Bool} {l l' : Mutex.LockLoc} :
    Flow (.relockCancel oldtype err l) (.relockCancel oldtype err l')
  | relocked {oldtype : CancelType} {err : Bool} {l : Mutex.LockLoc} :
    Flow (.relockCancel oldtype err l) (.restore oldtype err)
  | restored {oldtype : CancelType} {err cancelled : Bool} :
    Flow (.restore oldtype err) (.releaseCancel err cancelled .start)
  | releasing {err cancelled : Bool} {u : T} :
    Flow (.releaseCancel err cancelled .start) (.releaseCancel err cancelled (.wakeup u))
  | released {err cancelled : Bool} {l : Mutex.UnlockLoc T} :
    Flow (.releaseCancel err cancelled l) (.relockMutex err cancelled (.start none))
  | returning {err cancelled : Bool} {l l' : Mutex.LockLoc} :
    Flow (.relockMutex err cancelled l) (.relockMutex err cancelled l')

theorem timedwaitStep_flow (h : timedwaitStep b c m self l timeout s = .goto s' l') :
  l.Flow l'
  := by
  have hunlock : ∀ {m : MutexRef T N} {x y : World (Mutex T) T (QueueRef T N)}
      {k k' : Mutex.UnlockLoc T}, Mutex.unlockStep b (.mutex m) self k x = .goto y k' →
      k = .start ∧ ∃ u, k' = .wakeup u := by
    intro m x y k k' hstep
    obtain ⟨rfl, hstart⟩ := Mutex.unlockStep_eq_goto hstep
    obtain ⟨-, u, rest, -, rfl, -⟩ := Mutex.unlockStart_eq_goto hstart
    use rfl, u
  cases l with
  | start abstime =>
      simp only [timedwaitStep] at h
      split at h
      · cases h
      · obtain ⟨rfl, rfl⟩ := h
        apply WaitLoc.Flow.start
  | lockCancel timed l =>
      rcases Shared.lock_eq_goto h with ⟨x, l₁, -, -, rfl⟩ | ⟨x, r, -, h⟩
      · apply WaitLoc.Flow.locking
      · obtain ⟨rfl, rfl⟩ := h
        apply WaitLoc.Flow.locked
  | enqueue timed =>
      rcases waitEnqueue_eq_goto h with ⟨-, -, rfl⟩ | ⟨-, -, -, rfl⟩
      · apply WaitLoc.Flow.cancelled
      · apply WaitLoc.Flow.enqueued
  | unlockCancel timed saved l =>
      rcases Shared.unlock_eq_goto h with ⟨x, l₁, hstep, -, rfl⟩ | ⟨x, r, -, h⟩
      · obtain ⟨rfl, u, rfl⟩ := hunlock hstep
        apply WaitLoc.Flow.unlocking
      · cases saved with
        | none => cases h
        | some oldtype =>
            obtain ⟨rfl, rfl⟩ := h
            apply WaitLoc.Flow.unlocked
  | unlockMutex timed oldtype l =>
      rcases Shared.unlock_eq_goto h with ⟨x, l₁, hstep, -, rfl⟩ | ⟨x, r, -, h⟩
      · obtain ⟨rfl, u, rfl⟩ := hunlock hstep
        apply WaitLoc.Flow.leaving
      · obtain ⟨rfl, rfl⟩ := h
        apply WaitLoc.Flow.left
  | wait oldtype stage =>
      rcases waitBlocked_eq_goto h with ⟨w, stage', hstep, -, rfl⟩ | ⟨w, err, hstep, -, rfl⟩
      · rcases waitStep_eq_goto hstep with ⟨timed, rfl, -, -, rfl⟩ | ⟨rfl, -, -, rfl⟩ |
          ⟨rfl, -, -, -, rfl⟩
        · apply WaitLoc.Flow.received
        · apply WaitLoc.Flow.expired
        · apply WaitLoc.Flow.late
      · rcases waitStep_eq_ret hstep with ⟨rfl, -, -, -, rfl⟩ | ⟨rfl, -⟩ | ⟨rfl, -, -, rfl⟩
        · apply WaitLoc.Flow.unblocked
        · apply WaitLoc.Flow.unblocked
        · apply WaitLoc.Flow.drained
  | relockCancel oldtype err l =>
      rcases Shared.lock_eq_goto h with ⟨x, l₁, -, -, rfl⟩ | ⟨x, r, -, h⟩
      · apply WaitLoc.Flow.relocking
      · obtain ⟨rfl, rfl⟩ := h
        apply WaitLoc.Flow.relocked
  | restore oldtype err =>
      obtain ⟨rfl, rfl⟩ := h
      apply WaitLoc.Flow.restored
  | releaseCancel err cancelled l =>
      rcases Shared.unlock_eq_goto h with ⟨x, l₁, hstep, -, rfl⟩ | ⟨x, r, -, h⟩
      · obtain ⟨rfl, u, rfl⟩ := hunlock hstep
        apply WaitLoc.Flow.releasing
      · obtain ⟨rfl, rfl⟩ := h
        apply WaitLoc.Flow.released
  | relockMutex err cancelled l =>
      rcases Shared.lock_eq_goto h with ⟨x, l₁, -, -, rfl⟩ | ⟨x, r, -, h⟩
      · apply WaitLoc.Flow.returning
      · cases h

/-- A wait returns from its first test, after an entry test that found it cancelled, or after
it has locked the mutex again. -/
theorem timedwaitStep_eq_ret (h : timedwaitStep b c m self l timeout s = .ret s' r) :
  (∃ abstime, l = .start abstime ∧ s' = s ∧ r = .error .EINVAL)
    ∨ (∃ timed k x r', l = .unlockCancel timed none k ∧
      Mutex.unlockStep b (.mutex (.cancelLock self)) self k (Shared.getMutex (.cancelLock self) s)
        = .ret x r' ∧ s' = Shared.setMutex (.cancelLock self) s x ∧ r = .canceled)
    ∨ (∃ err cancelled k x r', l = .relockMutex err cancelled k ∧
      Mutex.lockStep b (.mutex m) self k timeout (Shared.getMutex m s) = .ret x r' ∧
      s' = Shared.setMutex m s x ∧
      r = if cancelled then .canceled else if err then .error .ETIMEDOUT else .zero)
  := by
  cases l with
  | start abstime =>
      simp only [timedwaitStep] at h
      split at h
      · obtain ⟨rfl, rfl⟩ := h
        left
        use abstime
      · cases h
  | lockCancel timed l =>
      obtain ⟨x, r', -, h⟩ := Shared.lock_eq_ret h
      cases h
  | enqueue timed => apply absurd h waitEnqueue_ne_ret
  | unlockCancel timed saved l =>
      obtain ⟨x, r', hstep, h⟩ := Shared.unlock_eq_ret h
      cases saved with
      | none =>
          obtain ⟨rfl, rfl⟩ := h
          right; left
          use timed, l, x, r'
      | some oldtype => cases h
  | unlockMutex timed oldtype l =>
      obtain ⟨x, r', -, h⟩ := Shared.unlock_eq_ret h
      cases h
  | wait oldtype stage => apply absurd h waitBlocked_ne_ret
  | relockCancel oldtype err l =>
      obtain ⟨x, r', -, h⟩ := Shared.lock_eq_ret h
      cases h
  | restore oldtype err => cases h
  | releaseCancel err cancelled l =>
      obtain ⟨x, r', -, h⟩ := Shared.unlock_eq_ret h
      cases h
  | relockMutex err cancelled l =>
      obtain ⟨x, r', hstep, h⟩ := Shared.lock_eq_ret h
      obtain ⟨rfl, rfl⟩ := h
      right; right
      use err, cancelled, l, x, r'

/-! ### The wait follows the wakeup protocol -/

variable {bar : QueueRef T N → Prop}

theorem timedwaitStep_act (hcond : ¬ bar (.cond c)) (hmutex : ∀ m, ¬ bar (.mutex m))
    (hport : ∀ u ∈ (l.role c m self).owes, s.waits.port u = 0)
    (h : timedwaitStep b c m self l timeout s = .goto s' l') :
  Act bar (fun q => l.queue c m self = some q) self s.waits (l.role c m self) s'.waits
    (l'.role c m self)
  := by
  cases l with
  | start abstime =>
      simp only [timedwaitStep] at h
      split at h
      · cases h
      · obtain ⟨rfl, rfl⟩ := h
        apply Act.skip
  | lockCancel timed l =>
      rcases Shared.lock_eq_goto h with ⟨x, l₁, hstep, rfl, rfl⟩ | ⟨x, r, hstep, h⟩
      · apply Act.on_some (Mutex.lockStep_act (hmutex _) hstep)
      · obtain ⟨rfl, rfl⟩ := h
        apply Mutex.lockStep_act_ret hstep
  | enqueue timed =>
      rcases waitEnqueue_eq_goto h with ⟨-, rfl, rfl⟩ | ⟨-, -, rfl, rfl⟩
      · apply Act.skip
      · have hact : Act bar (Eq (.cond c)) self s.waits .idle (s.waits.enqueue (.cond c) self)
            ⟨.blocking (.cond c) timed, [], []⟩ := Act.enqueue _ timed rfl hcond rfl
        apply hact.on_some
  | unlockCancel timed saved l =>
      rcases Shared.unlock_eq_goto h with ⟨x, l₁, hstep, rfl, rfl⟩ | ⟨x, r, hstep, h⟩
      · cases saved with
        | none => apply Mutex.unlockStep_act hstep
        | some oldtype => apply Mutex.unlockStep_act hstep
      · cases saved with
        | none => cases h
        | some oldtype =>
            obtain ⟨rfl, rfl⟩ := h
            apply Mutex.unlockStep_act_ret hport hstep
  | unlockMutex timed oldtype l =>
      rcases Shared.unlock_eq_goto h with ⟨x, l₁, hstep, rfl, rfl⟩ | ⟨x, r, hstep, h⟩
      · apply Mutex.unlockStep_act hstep
      · obtain ⟨rfl, rfl⟩ := h
        apply Mutex.unlockStep_act_ret hport hstep
  | wait oldtype stage =>
      rcases waitBlocked_eq_goto h with ⟨w, stage', hstep, rfl, rfl⟩ | ⟨w, err, hstep, rfl, rfl⟩
      · apply Act.on_some (waitStep_act hstep)
      · apply Act.on_some (waitStep_act_ret hstep)
  | relockCancel oldtype err l =>
      rcases Shared.lock_eq_goto h with ⟨x, l₁, hstep, rfl, rfl⟩ | ⟨x, r, hstep, h⟩
      · apply Act.on_some (Mutex.lockStep_act (hmutex _) hstep)
      · obtain ⟨rfl, rfl⟩ := h
        apply Mutex.lockStep_act_ret hstep
  | restore oldtype err =>
      obtain ⟨rfl, rfl⟩ := h
      apply Act.skip
  | releaseCancel err cancelled l =>
      rcases Shared.unlock_eq_goto h with ⟨x, l₁, hstep, rfl, rfl⟩ | ⟨x, r, hstep, h⟩
      · apply Mutex.unlockStep_act hstep
      · obtain ⟨rfl, rfl⟩ := h
        apply Mutex.unlockStep_act_ret hport hstep
  | relockMutex err cancelled l =>
      rcases Shared.lock_eq_goto h with ⟨x, l₁, hstep, rfl, rfl⟩ | ⟨x, r, hstep, h⟩
      · apply Act.on_some (Mutex.lockStep_act (hmutex _) hstep)
      · cases h

theorem timedwaitStep_act_ret (hport : ∀ u ∈ (l.role c m self).owes, s.waits.port u = 0)
    (h : timedwaitStep b c m self l timeout s = .ret s' r) :
  Act bar (fun q => l.queue c m self = some q) self s.waits (l.role c m self) s'.waits .idle
  := by
  cases l with
  | start abstime =>
      simp only [timedwaitStep] at h
      split at h
      · obtain ⟨rfl, rfl⟩ := h
        apply Act.skip
      · cases h
  | lockCancel timed l =>
      obtain ⟨x, r', -, h⟩ := Shared.lock_eq_ret h
      cases h
  | enqueue timed => apply absurd h waitEnqueue_ne_ret
  | unlockCancel timed saved l =>
      obtain ⟨x, r', hstep, h⟩ := Shared.unlock_eq_ret h
      cases saved with
      | none =>
          obtain ⟨rfl, rfl⟩ := h
          apply Mutex.unlockStep_act_ret hport hstep
      | some oldtype => cases h
  | unlockMutex timed oldtype l =>
      obtain ⟨x, r', -, h⟩ := Shared.unlock_eq_ret h
      cases h
  | wait oldtype stage => apply absurd h waitBlocked_ne_ret
  | relockCancel oldtype err l =>
      obtain ⟨x, r', -, h⟩ := Shared.lock_eq_ret h
      cases h
  | restore oldtype err => cases h
  | releaseCancel err cancelled l =>
      obtain ⟨x, r', -, h⟩ := Shared.unlock_eq_ret h
      cases h
  | relockMutex err cancelled l =>
      obtain ⟨x, r', hstep, h⟩ := Shared.lock_eq_ret h
      obtain ⟨rfl, rfl⟩ := h
      apply Mutex.lockStep_act_ret hstep

end Cond

end LibPthread
