import LibPthread.Mutex.Relock
import LibPthread.Process.System

/-!
# The lock of the cancellation fields

What every step of a process does with `cancel_lock` and with the fields it protects. Each
thread is away from the `cancel_lock` of a thread, inside a call of its lock function, or
between the return of that call and the release; `Move` lists the ways in which one step
changes this, and `Change` the ways in which one step changes the cancellation fields.
-/

open Concurrency

namespace LibPthread

namespace Mutex

/-! ### A mutex without attributes, locked without a time-out -/

variable {T Q : Type} [DecidableEq T] [DecidableEq Q] {b : Build} {q : Q} {self : T} {c : Bool}
    {r : Ret} {s s' : World (Mutex T) T Q} {l l' : LockLoc}

/-- A call of the lock function without a time-out on a mutex without attributes returns
with the mutex held. -/
theorem lockStep_ret_of_untimed (hl : l.untimed = true) (hattr : s.obj.attr = none)
    (h : lockStep b q self l c s = .ret s' r) :
  s'.waits = s.waits ∧ s'.obj.attr = none ∧ r = .zero ∧
    ((l = .start none ∧ s.obj.held = false ∧ s'.obj.held = true ∧ s'.obj.lock = false)
      ∨ (l = .finish false ∧ s'.obj.held = s.obj.held ∧ s'.obj.lock = s.obj.lock))
  := by
  rcases lockStep_eq_ret h with ⟨abstime, rfl, hstep⟩ | ⟨err, rfl, hstep⟩
  · obtain rfl : abstime = none := by simpa [LockLoc.untimed] using hl
    obtain ⟨-, hw, ⟨hheld, hr, hgrant⟩ | ⟨-, hrec, -⟩ | ⟨-, herr, -⟩ | ⟨-, hbad, -⟩⟩ :=
      lockStart_eq_ret hstep
    · use hw, hgrant.attr.trans hattr, hr
      left
      use rfl, hheld, hgrant.held, hgrant.lock
    · simp [hattr] at hrec
    · simp [hattr] at herr
    · cases hbad
  · obtain rfl : err = false := by simpa [LockLoc.untimed] using hl
    obtain ⟨hw, ⟨hfalse, -⟩ | ⟨-, hr, hheld, hlock, hattr', -⟩⟩ := lockFinish_eq_ret hstep
    · cases hfalse
    · use hw, hattr'.trans hattr, hr
      right
      use rfl, hheld, hlock

/-- What the section of the unlock function does on a mutex without attributes: it hands the
mutex over to the first thread of the queue. -/
theorem unlockStart_goto_of_plain {l' : UnlockLoc T} (hattr : s.obj.attr = none)
    (h : unlockStart b q self s.obj s.waits = .goto s' l') :
  s'.obj.attr = none ∧ s'.obj.lock = false ∧ s'.obj.held = s.obj.held ∧
    ∃ u rest, s.waits.queue q = u :: rest ∧ l' = .wakeup u ∧ s'.waits = s.waits.dequeue u
  := by
  obtain ⟨-, u, rest, hq, rfl, hw, hheld, hrel⟩ := unlockStart_eq_goto h
  use hrel.attr.trans hattr, hrel.lock, hheld, u, rest

/-- The unlock function returns from its section on a mutex without attributes only when it
has released the mutex. -/
theorem unlockStart_ret_of_plain (hattr : s.obj.attr = none)
    (h : unlockStart b q self s.obj s.waits = .ret s' r) :
  s'.obj.attr = none ∧ s'.obj.lock = false ∧ s'.obj.held = false ∧ s.waits.queue q = [] ∧
    s'.waits = s.waits
  := by
  obtain ⟨-, hw, ⟨hchecked, -⟩ | ⟨hrec, -⟩ | ⟨hq, -, hheld, hrel⟩⟩ := unlockStart_eq_ret h
  · simp [isNormal, hattr] at hchecked
  · simp [hattr] at hrec
  · use hrel.attr.trans hattr, hrel.lock, hheld, hq, hw

end Mutex

/-! ### Where a thread stands with respect to a `cancel_lock` -/

/-- Where a thread stands with respect to a mutex: away from it, inside a call of its lock
function, or between the return of that call and the release of the mutex. -/
inductive Grip where
  | away
  | locking (l : Mutex.LockLoc)
  | inside
  deriving DecidableEq

/-- The grip of a thread before or after the section of the unlock function. -/
def Mutex.UnlockLoc.grip {T : Type} : Mutex.UnlockLoc T → Grip
  | .start => .inside
  | .wakeup _ => .away

/-- The grip of a waiting thread on its own `cancel_lock`. -/
def Cond.WaitLoc.grip {T : Type} : Cond.WaitLoc T → Grip
  | .start _ => .away
  | .lockCancel _ l => .locking l
  | .enqueue _ => .inside
  | .unlockCancel _ _ l => l.grip
  | .unlockMutex _ _ _ => .away
  | .wait _ _ => .away
  | .relockCancel _ _ l => .locking l
  | .restore _ _ => .inside
  | .releaseCancel _ _ l => l.grip
  | .relockMutex _ _ _ => .away

/-- The grip of a canceller on the `cancel_lock` of its target. -/
def CancelLoc.grip {T N : Type} : CancelLoc T N → Grip
  | .lock l => .locking l
  | .check => .inside
  | .hook _ => .inside
  | .hookWakeup => .inside
  | .unlock l => l.grip
  | .doUnlock l => l.grip
  | .redirect => .away

/-- The grip of a thread that sets its cancellation state or type on its `cancel_lock`. -/
def SetLoc.grip {T : Type} : SetLoc T → Grip
  | .lock l => .locking l
  | .store => .inside
  | .unlock l => l.grip

namespace Process

variable {T N : Type} [DecidableEq T] [DecidableEq N]

/-- The grip of the thread `self` on the `cancel_lock` of `t`. -/
def Loc.grip (self t : T) : Loc T N → Grip
  | .condWait _ _ l => if self = t then l.grip else .away
  | .cancel target l => if target = t then l.grip else .away
  | .set _ l => if self = t then l.grip else .away
  | _ => .away

/-- The condition variable of the hook that a thread at the control point has installed. -/
def Loc.hooked : Loc T N → Option N
  | .condWait c _ (.unlockCancel _ (some _) _) => some c
  | .condWait c _ (.unlockMutex _ _ _) => some c
  | .condWait c _ (.wait _ _) => some c
  | .condWait c _ (.relockCancel _ _ _) => some c
  | .condWait c _ (.restore _ _) => some c
  | _ => none

/-- The thread has recorded a request to cancel `t` and has still to act on it. -/
def Loc.records (t : T) : Loc T N → Bool
  | .cancel target (.hook _) => target = t
  | .cancel target .hookWakeup => target = t
  | .cancel target (.doUnlock _) => target = t
  | .cancel target .redirect => target = t
  | _ => false

/-- What a step of `self` does with the `cancel_lock` of `t`, by the grips before and after:
nothing, the call or a step of the lock function, its return, or the section of the unlock
function. -/
inductive Move (b : Build) (t self : T) (s s' : Shared T N) : Grip → Grip → Prop where
  | away (same : s'.obj.mutex (.cancelLock t) = s.obj.mutex (.cancelLock t)) :
    Move b t self s s' .away .away
  | stay (same : s'.obj.mutex (.cancelLock t) = s.obj.mutex (.cancelLock t)) :
    Move b t self s s' .inside .inside
  | enter (same : s'.obj.mutex (.cancelLock t) = s.obj.mutex (.cancelLock t)) :
    Move b t self s s' .away (.locking (.start none))
  | lock {l l' : Mutex.LockLoc} {c : Bool}
    (step : Mutex.lockStep b (.mutex (.cancelLock t)) self l c
      (Shared.getMutex (.cancelLock t) s) = .goto (Shared.getMutex (.cancelLock t) s') l') :
    Move b t self s s' (.locking l) (.locking l')
  | acquire {l : Mutex.LockLoc} {c : Bool} {r : Ret}
    (step : Mutex.lockStep b (.mutex (.cancelLock t)) self l c
      (Shared.getMutex (.cancelLock t) s) = .ret (Shared.getMutex (.cancelLock t) s') r) :
    Move b t self s s' (.locking l) .inside
  | handOver {l' : Mutex.UnlockLoc T}
    (step : Mutex.unlockStart b (.mutex (.cancelLock t)) self (s.obj.mutex (.cancelLock t)) s.waits
      = .goto (Shared.getMutex (.cancelLock t) s') l') :
    Move b t self s s' .inside .away
  | release {r : Ret}
    (step : Mutex.unlockStart b (.mutex (.cancelLock t)) self (s.obj.mutex (.cancelLock t)) s.waits
      = .ret (Shared.getMutex (.cancelLock t) s') r) :
    Move b t self s s' .inside .away

section Move

variable {b : Build} {t self : T} {timeout : Bool} {s s' : Shared T N} {r : Ret}

theorem Move.of_unlock_goto {k k' : Mutex.UnlockLoc T}
    (h : Mutex.unlockStep b (.mutex (.cancelLock t)) self k (Shared.getMutex (.cancelLock t) s)
      = .goto (Shared.getMutex (.cancelLock t) s') k') :
  Move b t self s s' k.grip k'.grip
  := by
  obtain ⟨rfl, hstep⟩ := Mutex.unlockStep_eq_goto h
  obtain ⟨-, u, rest, -, rfl, -⟩ := Mutex.unlockStart_eq_goto hstep
  apply Move.handOver hstep

theorem Move.of_unlock_ret {k : Mutex.UnlockLoc T}
    (h : Mutex.unlockStep b (.mutex (.cancelLock t)) self k (Shared.getMutex (.cancelLock t) s)
      = .ret (Shared.getMutex (.cancelLock t) s') r) :
  Move b t self s s' k.grip .away
  := by
  cases k with
  | start => apply Move.release h
  | wakeup u =>
      apply Move.away
      simp only [Mutex.unlockStep, Build.wakeup, Build.assert, Shared.getMutex] at h
      grind

/-- The steps of a wait move its caller with respect to its own `cancel_lock`. -/
theorem timedwaitStep_move {c : N} {m : MutexRef T N} {l l' : Cond.WaitLoc T}
    (hm : m ≠ .cancelLock self) (h : Cond.timedwaitStep b c m self l timeout s = .goto s' l') :
  Move b self self s s' l.grip l'.grip
  := by
  cases l with
  | start abstime =>
      simp only [Cond.timedwaitStep] at h
      split at h
      · cases h
      · obtain ⟨rfl, rfl⟩ := h
        apply Move.enter
        rfl
  | lockCancel timed k =>
      rcases Shared.lock_eq_goto h with ⟨x, k', hstep, rfl, rfl⟩ | ⟨x, r, hstep, h⟩
      · apply Move.lock (by rw [Shared.getMutex_setMutex]; apply hstep)
      · obtain ⟨rfl, rfl⟩ := h
        apply Move.acquire (by rw [Shared.getMutex_setMutex]; apply hstep)
  | enqueue timed =>
      rcases Cond.waitEnqueue_eq_goto h with ⟨-, rfl, rfl⟩ | ⟨-, -, rfl, rfl⟩
      · apply Move.stay
        rfl
      · apply Move.stay
        rfl
  | unlockCancel timed saved k =>
      rcases Shared.unlock_eq_goto h with ⟨x, k', hstep, rfl, rfl⟩ | ⟨x, r, hstep, h⟩
      · apply Move.of_unlock_goto (by rw [Shared.getMutex_setMutex]; apply hstep)
      · cases saved with
        | none => cases h
        | some oldtype =>
            obtain ⟨rfl, rfl⟩ := h
            apply Move.of_unlock_ret (by rw [Shared.getMutex_setMutex]; apply hstep)
  | unlockMutex timed oldtype k =>
      rcases Shared.unlock_eq_goto h with ⟨x, k', -, rfl, rfl⟩ | ⟨x, r, -, h⟩
      · apply Move.away
        apply Shared.setMutex_mutex_of_ne hm.symm
      · obtain ⟨rfl, rfl⟩ := h
        apply Move.away
        apply Shared.setMutex_mutex_of_ne hm.symm
  | wait oldtype stage =>
      rcases Cond.waitBlocked_eq_goto h with ⟨w, stage', -, rfl, rfl⟩ | ⟨w, err, -, rfl, rfl⟩
      · apply Move.away
        rfl
      · apply Move.enter
        rfl
  | relockCancel oldtype err k =>
      rcases Shared.lock_eq_goto h with ⟨x, k', hstep, rfl, rfl⟩ | ⟨x, r, hstep, h⟩
      · apply Move.lock (by rw [Shared.getMutex_setMutex]; apply hstep)
      · obtain ⟨rfl, rfl⟩ := h
        apply Move.acquire (by rw [Shared.getMutex_setMutex]; apply hstep)
  | restore oldtype err =>
      obtain ⟨rfl, rfl⟩ := h
      apply Move.stay
      rfl
  | releaseCancel err cancelled k =>
      rcases Shared.unlock_eq_goto h with ⟨x, k', hstep, rfl, rfl⟩ | ⟨x, r, hstep, h⟩
      · apply Move.of_unlock_goto (by rw [Shared.getMutex_setMutex]; apply hstep)
      · obtain ⟨rfl, rfl⟩ := h
        apply Move.of_unlock_ret (by rw [Shared.getMutex_setMutex]; apply hstep)
  | relockMutex err cancelled k =>
      rcases Shared.lock_eq_goto h with ⟨x, k', -, rfl, rfl⟩ | ⟨x, r, -, h⟩
      · apply Move.away
        apply Shared.setMutex_mutex_of_ne hm.symm
      · cases h

theorem timedwaitStep_move_ret {c : N} {m : MutexRef T N} {l : Cond.WaitLoc T}
    (hm : m ≠ .cancelLock self) (h : Cond.timedwaitStep b c m self l timeout s = .ret s' r) :
  Move b self self s s' l.grip .away
  := by
  cases l with
  | start abstime =>
      simp only [Cond.timedwaitStep] at h
      split at h
      · obtain ⟨rfl, rfl⟩ := h
        apply Move.away
        rfl
      · cases h
  | lockCancel timed k =>
      obtain ⟨x, r', -, h⟩ := Shared.lock_eq_ret h
      cases h
  | enqueue timed => apply absurd h Cond.waitEnqueue_ne_ret
  | unlockCancel timed saved k =>
      obtain ⟨x, r', hstep, h⟩ := Shared.unlock_eq_ret h
      cases saved with
      | none =>
          obtain ⟨rfl, rfl⟩ := h
          apply Move.of_unlock_ret (by rw [Shared.getMutex_setMutex]; apply hstep)
      | some oldtype => cases h
  | unlockMutex timed oldtype k =>
      obtain ⟨x, r', -, h⟩ := Shared.unlock_eq_ret h
      cases h
  | wait oldtype stage => apply absurd h Cond.waitBlocked_ne_ret
  | relockCancel oldtype err k =>
      obtain ⟨x, r', -, h⟩ := Shared.lock_eq_ret h
      cases h
  | restore oldtype err => cases h
  | releaseCancel err cancelled k =>
      obtain ⟨x, r', -, h⟩ := Shared.unlock_eq_ret h
      cases h
  | relockMutex err cancelled k =>
      obtain ⟨x, r', hstep, h⟩ := Shared.lock_eq_ret h
      obtain ⟨rfl, rfl⟩ := h
      apply Move.away
      apply Shared.setMutex_mutex_of_ne hm.symm

/-- The steps of `pthread_cancel` move its caller with respect to the `cancel_lock` of the
target. -/
theorem cancelStep_move {l l' : CancelLoc T N}
    (h : cancelStep b t self l timeout s = .goto s' l') :
  Move b t self s s' l.grip l'.grip
  := by
  cases l with
  | lock k =>
      rcases Shared.lock_eq_goto h with ⟨x, k', hstep, rfl, rfl⟩ | ⟨x, r, hstep, h⟩
      · apply Move.lock (by rw [Shared.getMutex_setMutex]; apply hstep)
      · obtain ⟨rfl, rfl⟩ := h
        apply Move.acquire (by rw [Shared.getMutex_setMutex]; apply hstep)
  | check =>
      rcases cancelCheck_eq_goto h with ⟨-, rfl, rfl⟩ |
        ⟨-, rfl, ⟨c, -, rfl, -⟩ | ⟨rfl, -⟩ | ⟨rfl, -⟩⟩
      all_goals
        apply Move.stay
        rfl
  | hook c =>
      obtain ⟨-, ⟨-, rfl, rfl⟩ | ⟨-, rfl, rfl⟩⟩ := cancelHook_eq_goto h
      all_goals
        apply Move.stay
        rfl
  | hookWakeup =>
      have hobj : s'.obj = s.obj ∧ l' = .unlock .start := by
        simp only [cancelStep, Build.wakeup, Build.assert] at h
        grind
      obtain ⟨hobj, rfl⟩ := hobj
      apply Move.stay
      rw [hobj]
  | unlock k =>
      rcases Shared.unlock_eq_goto h with ⟨x, k', hstep, rfl, rfl⟩ | ⟨x, r, hstep, h⟩
      · apply Move.of_unlock_goto (by rw [Shared.getMutex_setMutex]; apply hstep)
      · cases h
  | doUnlock k =>
      rcases Shared.unlock_eq_goto h with ⟨x, k', hstep, rfl, rfl⟩ | ⟨x, r, hstep, h⟩
      · apply Move.of_unlock_goto (by rw [Shared.getMutex_setMutex]; apply hstep)
      · split at h
        · cases h
        · obtain ⟨rfl, rfl⟩ := h
          apply Move.of_unlock_ret (by rw [Shared.getMutex_setMutex]; apply hstep)
  | redirect => cases h

theorem cancelStep_move_ret {l : CancelLoc T N}
    (h : cancelStep b t self l timeout s = .ret s' r) :
  Move b t self s s' l.grip .away
  := by
  cases l with
  | lock k =>
      obtain ⟨x, r', -, h⟩ := Shared.lock_eq_ret h
      cases h
  | check => apply absurd h cancelCheck_ne_ret
  | hook c => apply absurd h cancelHook_ne_ret
  | hookWakeup =>
      simp only [cancelStep, Build.wakeup, Build.assert] at h
      grind
  | unlock k =>
      obtain ⟨x, r', hstep, h⟩ := Shared.unlock_eq_ret h
      obtain ⟨rfl, rfl⟩ := h
      apply Move.of_unlock_ret (by rw [Shared.getMutex_setMutex]; apply hstep)
  | doUnlock k =>
      obtain ⟨x, r', hstep, h⟩ := Shared.unlock_eq_ret h
      split at h
      · obtain ⟨rfl, rfl⟩ := h
        apply Move.of_unlock_ret (by rw [Shared.getMutex_setMutex]; apply hstep)
      · cases h
  | redirect =>
      obtain ⟨rfl, rfl⟩ := h
      apply Move.away
      rfl

theorem setStep_move {x : Setting} {l l' : SetLoc T}
    (h : setStep b x self l timeout s = .goto s' l') :
  Move b self self s s' l.grip l'.grip
  := by
  cases l with
  | lock k =>
      rcases Shared.lock_eq_goto h with ⟨y, k', hstep, rfl, rfl⟩ | ⟨y, r, hstep, h⟩
      · apply Move.lock (by rw [Shared.getMutex_setMutex]; apply hstep)
      · obtain ⟨rfl, rfl⟩ := h
        apply Move.acquire (by rw [Shared.getMutex_setMutex]; apply hstep)
  | store =>
      obtain ⟨rfl, rfl⟩ := h
      apply Move.stay
      rfl
  | unlock k =>
      rcases Shared.unlock_eq_goto h with ⟨y, k', hstep, rfl, rfl⟩ | ⟨y, r, hstep, h⟩
      · apply Move.of_unlock_goto (by rw [Shared.getMutex_setMutex]; apply hstep)
      · cases h

theorem setStep_move_ret {x : Setting} {l : SetLoc T}
    (h : setStep b x self l timeout s = .ret s' r) :
  Move b self self s s' l.grip .away
  := by
  cases l with
  | lock k =>
      obtain ⟨y, r', -, h⟩ := Shared.lock_eq_ret h
      cases h
  | store => cases h
  | unlock k =>
      obtain ⟨y, r', hstep, h⟩ := Shared.unlock_eq_ret h
      obtain ⟨rfl, rfl⟩ := h
      apply Move.of_unlock_ret (by rw [Shared.getMutex_setMutex]; apply hstep)

/-! ### The other mutexes -/

variable {n : MutexRef T N}

/-- A wait changes no other mutex than its own and the `cancel_lock` of its caller. -/
theorem timedwaitStep_mutex {c : N} {m : MutexRef T N} {l l' : Cond.WaitLoc T}
    (hm : n ≠ m) (hself : n ≠ .cancelLock self)
    (h : Cond.timedwaitStep b c m self l timeout s = .goto s' l') :
  s'.obj.mutex n = s.obj.mutex n
  := by
  cases l with
  | start abstime =>
      simp only [Cond.timedwaitStep] at h
      grind
  | enqueue timed =>
      rcases Cond.waitEnqueue_eq_goto h with ⟨-, rfl, rfl⟩ | ⟨-, -, rfl, rfl⟩
      all_goals rfl
  | wait oldtype stage =>
      rcases Cond.waitBlocked_eq_goto h with ⟨w, stage', -, rfl, rfl⟩ | ⟨w, err, -, rfl, rfl⟩
      all_goals rfl
  | restore oldtype err =>
      obtain ⟨rfl, rfl⟩ := h
      rfl
  | unlockCancel timed saved k =>
      rcases Shared.unlock_eq_goto h with ⟨x, k', -, rfl, rfl⟩ | ⟨x, r, -, h⟩
      · apply Shared.setMutex_mutex_of_ne hself
      · cases saved with
        | none => cases h
        | some oldtype =>
            obtain ⟨rfl, rfl⟩ := h
            apply Shared.setMutex_mutex_of_ne hself
  | unlockMutex timed oldtype k =>
      rcases Shared.unlock_eq_goto h with ⟨x, k', -, rfl, rfl⟩ | ⟨x, r, -, h⟩
      · apply Shared.setMutex_mutex_of_ne hm
      · obtain ⟨rfl, rfl⟩ := h
        apply Shared.setMutex_mutex_of_ne hm
  | releaseCancel err cancelled k =>
      rcases Shared.unlock_eq_goto h with ⟨x, k', -, rfl, rfl⟩ | ⟨x, r, -, h⟩
      · apply Shared.setMutex_mutex_of_ne hself
      · obtain ⟨rfl, rfl⟩ := h
        apply Shared.setMutex_mutex_of_ne hself
  | lockCancel timed k =>
      rcases Shared.lock_eq_goto h with ⟨x, k', -, rfl, rfl⟩ | ⟨x, r, -, h⟩
      · apply Shared.setMutex_mutex_of_ne hself
      · obtain ⟨rfl, rfl⟩ := h
        apply Shared.setMutex_mutex_of_ne hself
  | relockCancel oldtype err k =>
      rcases Shared.lock_eq_goto h with ⟨x, k', -, rfl, rfl⟩ | ⟨x, r, -, h⟩
      · apply Shared.setMutex_mutex_of_ne hself
      · obtain ⟨rfl, rfl⟩ := h
        apply Shared.setMutex_mutex_of_ne hself
  | relockMutex err cancelled k =>
      rcases Shared.lock_eq_goto h with ⟨x, k', -, rfl, rfl⟩ | ⟨x, r, -, h⟩
      · apply Shared.setMutex_mutex_of_ne hm
      · cases h

theorem timedwaitStep_mutex_ret {c : N} {m : MutexRef T N} {l : Cond.WaitLoc T}
    (hm : n ≠ m) (hself : n ≠ .cancelLock self)
    (h : Cond.timedwaitStep b c m self l timeout s = .ret s' r) :
  s'.obj.mutex n = s.obj.mutex n
  := by
  cases l with
  | start abstime =>
      simp only [Cond.timedwaitStep] at h
      grind
  | lockCancel timed k =>
      obtain ⟨x, r', -, h⟩ := Shared.lock_eq_ret h
      cases h
  | enqueue timed => apply absurd h Cond.waitEnqueue_ne_ret
  | unlockCancel timed saved k =>
      obtain ⟨x, r', hstep, h⟩ := Shared.unlock_eq_ret h
      cases saved with
      | none =>
          obtain ⟨rfl, rfl⟩ := h
          apply Shared.setMutex_mutex_of_ne hself
      | some oldtype => cases h
  | unlockMutex timed oldtype k =>
      obtain ⟨x, r', -, h⟩ := Shared.unlock_eq_ret h
      cases h
  | wait oldtype stage => apply absurd h Cond.waitBlocked_ne_ret
  | relockCancel oldtype err k =>
      obtain ⟨x, r', -, h⟩ := Shared.lock_eq_ret h
      cases h
  | restore oldtype err => cases h
  | releaseCancel err cancelled k =>
      obtain ⟨x, r', -, h⟩ := Shared.unlock_eq_ret h
      cases h
  | relockMutex err cancelled k =>
      obtain ⟨x, r', hstep, h⟩ := Shared.lock_eq_ret h
      obtain ⟨rfl, rfl⟩ := h
      apply Shared.setMutex_mutex_of_ne hm

/-- A call of `pthread_cancel` changes no other mutex than the `cancel_lock` of its
target. -/
theorem cancelStep_mutex {target : T} {l l' : CancelLoc T N} (hn : n ≠ .cancelLock target)
    (h : cancelStep b target self l timeout s = .goto s' l') :
  s'.obj.mutex n = s.obj.mutex n
  := by
  cases l with
  | lock k =>
      rcases Shared.lock_eq_goto h with ⟨x, k', -, rfl, rfl⟩ | ⟨x, r, -, h⟩
      · apply Shared.setMutex_mutex_of_ne hn
      · obtain ⟨rfl, rfl⟩ := h
        apply Shared.setMutex_mutex_of_ne hn
  | check =>
      rcases cancelCheck_eq_goto h with ⟨-, rfl, rfl⟩ | ⟨-, rfl, -⟩
      all_goals rfl
  | hook c =>
      obtain ⟨-, ⟨-, rfl, rfl⟩ | ⟨-, rfl, rfl⟩⟩ := cancelHook_eq_goto h
      all_goals rfl
  | hookWakeup =>
      simp only [cancelStep, Build.wakeup, Build.assert] at h
      grind
  | unlock k =>
      rcases Shared.unlock_eq_goto h with ⟨x, k', -, rfl, rfl⟩ | ⟨x, r, -, h⟩
      · apply Shared.setMutex_mutex_of_ne hn
      · cases h
  | doUnlock k =>
      rcases Shared.unlock_eq_goto h with ⟨x, k', -, rfl, rfl⟩ | ⟨x, r, -, h⟩
      · apply Shared.setMutex_mutex_of_ne hn
      · split at h
        · cases h
        · obtain ⟨rfl, rfl⟩ := h
          apply Shared.setMutex_mutex_of_ne hn
  | redirect => cases h

theorem cancelStep_mutex_ret {target : T} {l : CancelLoc T N} (hn : n ≠ .cancelLock target)
    (h : cancelStep b target self l timeout s = .ret s' r) :
  s'.obj.mutex n = s.obj.mutex n
  := by
  cases l with
  | lock k =>
      obtain ⟨x, r', -, h⟩ := Shared.lock_eq_ret h
      cases h
  | check => apply absurd h cancelCheck_ne_ret
  | hook c => apply absurd h cancelHook_ne_ret
  | hookWakeup =>
      simp only [cancelStep, Build.wakeup, Build.assert] at h
      grind
  | unlock k =>
      obtain ⟨x, r', -, h⟩ := Shared.unlock_eq_ret h
      obtain ⟨rfl, rfl⟩ := h
      apply Shared.setMutex_mutex_of_ne hn
  | doUnlock k =>
      obtain ⟨x, r', -, h⟩ := Shared.unlock_eq_ret h
      split at h
      · obtain ⟨rfl, rfl⟩ := h
        apply Shared.setMutex_mutex_of_ne hn
      · cases h
  | redirect =>
      obtain ⟨rfl, rfl⟩ := h
      rfl

theorem setStep_mutex {x : Setting} {l l' : SetLoc T} (hn : n ≠ .cancelLock self)
    (h : setStep b x self l timeout s = .goto s' l') :
  s'.obj.mutex n = s.obj.mutex n
  := by
  cases l with
  | lock k =>
      rcases Shared.lock_eq_goto h with ⟨y, k', -, rfl, rfl⟩ | ⟨y, r, -, h⟩
      · apply Shared.setMutex_mutex_of_ne hn
      · obtain ⟨rfl, rfl⟩ := h
        apply Shared.setMutex_mutex_of_ne hn
  | store =>
      obtain ⟨rfl, rfl⟩ := h
      rfl
  | unlock k =>
      rcases Shared.unlock_eq_goto h with ⟨y, k', -, rfl, rfl⟩ | ⟨y, r, -, h⟩
      · apply Shared.setMutex_mutex_of_ne hn
      · cases h

theorem setStep_mutex_ret {x : Setting} {l : SetLoc T} (hn : n ≠ .cancelLock self)
    (h : setStep b x self l timeout s = .ret s' r) :
  s'.obj.mutex n = s.obj.mutex n
  := by
  cases l with
  | lock k =>
      obtain ⟨y, r', -, h⟩ := Shared.lock_eq_ret h
      cases h
  | store => cases h
  | unlock k =>
      obtain ⟨y, r', -, h⟩ := Shared.unlock_eq_ret h
      obtain ⟨rfl, rfl⟩ := h
      apply Shared.setMutex_mutex_of_ne hn

/-! ### The steps of all functions -/

variable {l l' : Loc T N}

/-- Every step moves its thread with respect to every `cancel_lock`. -/
theorem stepInside_move (t : T) (h : stepInside b self l timeout s = .goto s' l') :
  Move b t self s s' (l.grip self t) (l'.grip self t)
  := by
  cases l with
  | condWait c m k =>
      rcases Outcome.lift_eq_goto_iff.mp h with ⟨x, k', hstep, rfl, rfl⟩ | ⟨_, _, _, h⟩
      · by_cases ht : self = t
        · subst ht
          simp only [Loc.grip, if_true]
          apply timedwaitStep_move (by simp) hstep
        · simp only [Loc.grip, if_neg ht]
          apply Move.away
          apply timedwaitStep_mutex (by simp) (by simpa [eq_comm] using ht) hstep
      · cases h
  | cancel target k =>
      rcases Outcome.lift_eq_goto_iff.mp h with ⟨x, k', hstep, rfl, rfl⟩ | ⟨_, _, _, h⟩
      · by_cases ht : target = t
        · subst ht
          simp only [Loc.grip, if_true]
          apply cancelStep_move hstep
        · simp only [Loc.grip, if_neg ht]
          apply Move.away
          apply cancelStep_mutex (by simpa [eq_comm] using ht) hstep
      · cases h
  | set x k =>
      rcases Outcome.lift_eq_goto_iff.mp h with ⟨y, k', hstep, rfl, rfl⟩ | ⟨_, _, _, h⟩
      · by_cases ht : self = t
        · subst ht
          simp only [Loc.grip, if_true]
          apply setStep_move hstep
        · simp only [Loc.grip, if_neg ht]
          apply Move.away
          apply setStep_mutex (by simpa [eq_comm] using ht) hstep
      · cases h
  | mutex m k =>
      rcases Outcome.lift_eq_goto_iff.mp h with ⟨x, k', -, rfl, rfl⟩ | ⟨_, _, _, h⟩
      · apply Move.away
        apply Shared.setMutex_mutex_of_ne (by simp)
      · cases h
  | _ =>
      rcases Outcome.lift_eq_goto_iff.mp h with ⟨x, k', -, rfl, rfl⟩ | ⟨_, _, _, h⟩
      · apply Move.away
        rfl
      · cases h

theorem stepInside_move_ret (t : T) (h : stepInside b self l timeout s = .ret s' r) :
  Move b t self s s' (l.grip self t) .away
  := by
  cases l with
  | condWait c m k =>
      obtain ⟨x, r', hstep, h⟩ := Outcome.lift_eq_ret_iff.mp h
      obtain ⟨rfl, rfl⟩ := h
      by_cases ht : self = t
      · subst ht
        simp only [Loc.grip, if_true]
        apply timedwaitStep_move_ret (by simp) hstep
      · simp only [Loc.grip, if_neg ht]
        apply Move.away
        apply timedwaitStep_mutex_ret (by simp) (by simpa [eq_comm] using ht) hstep
  | cancel target k =>
      obtain ⟨x, r', hstep, h⟩ := Outcome.lift_eq_ret_iff.mp h
      obtain ⟨rfl, rfl⟩ := h
      by_cases ht : target = t
      · subst ht
        simp only [Loc.grip, if_true]
        apply cancelStep_move_ret hstep
      · simp only [Loc.grip, if_neg ht]
        apply Move.away
        apply cancelStep_mutex_ret (by simpa [eq_comm] using ht) hstep
  | set x k =>
      obtain ⟨y, r', hstep, h⟩ := Outcome.lift_eq_ret_iff.mp h
      obtain ⟨rfl, rfl⟩ := h
      by_cases ht : self = t
      · subst ht
        simp only [Loc.grip, if_true]
        apply setStep_move_ret hstep
      · simp only [Loc.grip, if_neg ht]
        apply Move.away
        apply setStep_mutex_ret (by simpa [eq_comm] using ht) hstep
  | mutex m k =>
      obtain ⟨x, r', hstep, h⟩ := Outcome.lift_eq_ret_iff.mp h
      obtain ⟨rfl, rfl⟩ := h
      apply Move.away
      apply Shared.setMutex_mutex_of_ne (by simp)
  | _ =>
      obtain ⟨x, r', hstep, h⟩ := Outcome.lift_eq_ret_iff.mp h
      obtain ⟨rfl, rfl⟩ := h
      apply Move.away
      rfl

end Move

/-! ### The cancellation fields -/

/-- What a step of `self` from `l` to `l'` does with the cancellation fields: nothing, the
installation of the hook together with the enqueue, its removal, the record of a request, or
the store of a new state or type. -/
inductive Change (self : T) (l l' : Loc T N) (s s' : Shared T N) : Prop where
  | keep (fields : s'.obj.cancel = s.obj.cancel) (hooked : l'.hooked = l.hooked)
    (records : ∀ t, l'.records t = true → l.records t = true)
    (calm : ∀ t c, l' ≠ .cancel t (.hook c))
  | install {c m : N} {timed : Bool} (before : l = .condWait c m (.enqueue timed))
    (idle : (s.obj.cancel self).cancelled = false)
    (after : l' = .condWait c m (.unlockCancel timed (some (s.obj.cancel self).type) .start))
    (fields : s'.obj.cancel = Function.update s.obj.cancel self
      { s.obj.cancel self with hook := some c, type := .deferred })
  | remove {c m : N} {oldtype : CancelType} {err : Bool}
    (before : l = .condWait c m (.restore oldtype err))
    (after : l' = .condWait c m (.releaseCancel err (s.obj.cancel self).cancelled .start))
    (fields : s'.obj.cancel = Function.update s.obj.cancel self
      { s.obj.cancel self with hook := none, type := oldtype })
  | record {t : T} (before : l = .cancel t .check) (new : (s.obj.cancel t).pending = false)
    (fields : s'.obj.cancel = Function.update s.obj.cancel t
      { s.obj.cancel t with pending := true })
    (after : (∃ c, (s.obj.cancel t).hook = some c ∧ l' = .cancel t (.hook c)
        ∧ (s.obj.cancel t).state = .enable ∧ (s.obj.cancel t).type = .deferred)
      ∨ (l' = .cancel t (.doUnlock .start) ∧ (s.obj.cancel t).state = .enable
        ∧ (s.obj.cancel t).type = .asynchronous)
      ∨ (l' = .cancel t (.unlock .start) ∧ ((s.obj.cancel t).state = .disable
        ∨ ((s.obj.cancel t).hook = none ∧ (s.obj.cancel t).type = .deferred))))
  | store {x : Setting} (before : l = .set x .store) (after : l' = .set x (.unlock .start))
    (fields : s'.obj.cancel = Function.update s.obj.cancel self (x.apply (s.obj.cancel self)))

section Change

variable {b : Build} {self : T} {timeout : Bool} {s s' : Shared T N} {r : Ret} {l l' : Loc T N}

theorem timedwaitStep_change {c m : N} {k k' : Cond.WaitLoc T}
    (h : Cond.timedwaitStep b c (.user m) self k timeout s = .goto s' k') :
  Change self (.condWait c m k) (.condWait c m k') s s'
  := by
  cases k with
  | start abstime =>
      simp only [Cond.timedwaitStep] at h
      split at h
      · cases h
      · obtain ⟨rfl, rfl⟩ := h
        refine Change.keep rfl rfl ?_ (by simp)
        simp [Loc.records]
  | lockCancel timed k =>
      rcases Shared.lock_eq_goto h with ⟨x, k', -, rfl, rfl⟩ | ⟨x, r, -, h⟩
      · refine Change.keep rfl rfl ?_ (by simp)
        simp [Loc.records]
      · obtain ⟨rfl, rfl⟩ := h
        refine Change.keep rfl rfl ?_ (by simp)
        simp [Loc.records]
  | enqueue timed =>
      rcases Cond.waitEnqueue_eq_goto h with ⟨-, rfl, rfl⟩ | ⟨hidle, -, rfl, rfl⟩
      · refine Change.keep rfl rfl ?_ (by simp)
        simp [Loc.records]
      · exact Change.install rfl hidle rfl rfl
  | unlockCancel timed saved k =>
      rcases Shared.unlock_eq_goto h with ⟨x, k', -, rfl, rfl⟩ | ⟨x, r, -, h⟩
      · refine Change.keep rfl ?_ (by simp [Loc.records]) (by simp)
        cases saved with
        | none => rfl
        | some oldtype => rfl
      · cases saved with
        | none => cases h
        | some oldtype =>
            obtain ⟨rfl, rfl⟩ := h
            refine Change.keep rfl rfl ?_ (by simp)
            simp [Loc.records]
  | unlockMutex timed oldtype k =>
      rcases Shared.unlock_eq_goto h with ⟨x, k', -, rfl, rfl⟩ | ⟨x, r, -, h⟩
      · refine Change.keep rfl rfl ?_ (by simp)
        simp [Loc.records]
      · obtain ⟨rfl, rfl⟩ := h
        refine Change.keep rfl rfl ?_ (by simp)
        simp [Loc.records]
  | wait oldtype stage =>
      rcases Cond.waitBlocked_eq_goto h with ⟨w, stage', -, rfl, rfl⟩ | ⟨w, err, -, rfl, rfl⟩
      all_goals
        refine Change.keep rfl rfl ?_ (by simp)
        simp [Loc.records]
  | relockCancel oldtype err k =>
      rcases Shared.lock_eq_goto h with ⟨x, k', -, rfl, rfl⟩ | ⟨x, r, -, h⟩
      · refine Change.keep rfl rfl ?_ (by simp)
        simp [Loc.records]
      · obtain ⟨rfl, rfl⟩ := h
        refine Change.keep rfl rfl ?_ (by simp)
        simp [Loc.records]
  | restore oldtype err =>
      obtain ⟨rfl, rfl⟩ := h
      exact Change.remove rfl rfl rfl
  | releaseCancel err cancelled k =>
      rcases Shared.unlock_eq_goto h with ⟨x, k', -, rfl, rfl⟩ | ⟨x, r, -, h⟩
      · refine Change.keep rfl rfl ?_ (by simp)
        simp [Loc.records]
      · obtain ⟨rfl, rfl⟩ := h
        refine Change.keep rfl rfl ?_ (by simp)
        simp [Loc.records]
  | relockMutex err cancelled k =>
      rcases Shared.lock_eq_goto h with ⟨x, k', -, rfl, rfl⟩ | ⟨x, r, -, h⟩
      · refine Change.keep rfl rfl ?_ (by simp)
        simp [Loc.records]
      · cases h

theorem cancelStep_change {target : T} {k k' : CancelLoc T N}
    (h : cancelStep b target self k timeout s = .goto s' k') :
  Change self (.cancel target k) (.cancel target k') s s'
  := by
  cases k with
  | lock k =>
      rcases Shared.lock_eq_goto h with ⟨x, k', -, rfl, rfl⟩ | ⟨x, r, -, h⟩
      · refine Change.keep rfl rfl ?_ (by simp)
        simp [Loc.records]
      · obtain ⟨rfl, rfl⟩ := h
        refine Change.keep rfl rfl ?_ (by simp)
        simp [Loc.records]
  | check =>
      rcases cancelCheck_eq_goto h with ⟨-, rfl, rfl⟩ | ⟨hnew, rfl, hafter⟩
      · refine Change.keep rfl rfl ?_ (by simp)
        simp [Loc.records]
      · refine Change.record rfl hnew rfl ?_
        simpa using hafter
  | hook c =>
      obtain ⟨-, ⟨-, rfl, rfl⟩ | ⟨-, rfl, rfl⟩⟩ := cancelHook_eq_goto h
      · refine Change.keep rfl rfl ?_ (by simp)
        simp [Loc.records]
      · refine Change.keep rfl rfl ?_ (by simp)
        simp [Loc.records]
  | hookWakeup =>
      have hobj : s'.obj = s.obj ∧ k' = .unlock .start := by
        simp only [cancelStep, Build.wakeup, Build.assert] at h
        grind
      obtain ⟨hobj, rfl⟩ := hobj
      refine Change.keep (by rw [hobj]) rfl ?_ (by simp)
      simp [Loc.records]
  | unlock k =>
      rcases Shared.unlock_eq_goto h with ⟨x, k', -, rfl, rfl⟩ | ⟨x, r, -, h⟩
      · refine Change.keep rfl rfl ?_ (by simp)
        simp [Loc.records]
      · cases h
  | doUnlock k =>
      rcases Shared.unlock_eq_goto h with ⟨x, k', -, rfl, rfl⟩ | ⟨x, r, -, h⟩
      · refine Change.keep rfl rfl ?_ (by simp)
        simp [Loc.records]
      · split at h
        · cases h
        · obtain ⟨rfl, rfl⟩ := h
          refine Change.keep rfl rfl ?_ (by simp)
          simp [Loc.records]
  | redirect => cases h

theorem setStep_change {x : Setting} {k k' : SetLoc T}
    (h : setStep b x self k timeout s = .goto s' k') :
  Change self (.set x k) (.set x k') s s'
  := by
  cases k with
  | lock k =>
      rcases Shared.lock_eq_goto h with ⟨y, k', -, rfl, rfl⟩ | ⟨y, r, -, h⟩
      · refine Change.keep rfl rfl ?_ (by simp)
        simp [Loc.records]
      · obtain ⟨rfl, rfl⟩ := h
        refine Change.keep rfl rfl ?_ (by simp)
        simp [Loc.records]
  | store =>
      obtain ⟨rfl, rfl⟩ := h
      exact Change.store rfl rfl rfl
  | unlock k =>
      rcases Shared.unlock_eq_goto h with ⟨y, k', -, rfl, rfl⟩ | ⟨y, r, -, h⟩
      · refine Change.keep rfl rfl ?_ (by simp)
        simp [Loc.records]
      · cases h

/-- Every step changes the cancellation fields in one of the ways of `Change`. -/
theorem stepInside_change (h : stepInside b self l timeout s = .goto s' l') :
  Change self l l' s s'
  := by
  cases l with
  | condWait c m k =>
      rcases Outcome.lift_eq_goto_iff.mp h with ⟨x, k', hstep, rfl, rfl⟩ | ⟨_, _, _, h⟩
      · apply timedwaitStep_change hstep
      · cases h
  | cancel target k =>
      rcases Outcome.lift_eq_goto_iff.mp h with ⟨x, k', hstep, rfl, rfl⟩ | ⟨_, _, _, h⟩
      · apply cancelStep_change hstep
      · cases h
  | set x k =>
      rcases Outcome.lift_eq_goto_iff.mp h with ⟨y, k', hstep, rfl, rfl⟩ | ⟨_, _, _, h⟩
      · apply setStep_change hstep
      · cases h
  | _ =>
      rcases Outcome.lift_eq_goto_iff.mp h with ⟨x, k', -, rfl, rfl⟩ | ⟨_, _, _, h⟩
      · refine Change.keep rfl rfl ?_ (by simp)
        simp [Loc.records]
      · cases h

/-- The step in which a call returns leaves the cancellation fields alone, and no hook is
installed. -/
theorem stepInside_fields_ret (h : stepInside b self l timeout s = .ret s' r) :
  s'.obj.cancel = s.obj.cancel ∧ l.hooked = none
  := by
  cases l with
  | condWait c m k =>
      obtain ⟨x, r', hstep, h⟩ := Outcome.lift_eq_ret_iff.mp h
      obtain ⟨rfl, rfl⟩ := h
      cases k with
      | start abstime =>
          simp only [Cond.timedwaitStep] at hstep
          grind [Loc.hooked]
      | lockCancel timed k =>
          obtain ⟨x, r', -, h⟩ := Shared.lock_eq_ret hstep
          cases h
      | enqueue timed => apply absurd hstep Cond.waitEnqueue_ne_ret
      | unlockCancel timed saved k =>
          obtain ⟨x, r', -, h⟩ := Shared.unlock_eq_ret hstep
          cases saved with
          | none =>
              obtain ⟨rfl, rfl⟩ := h
              use rfl
              rfl
          | some oldtype => cases h
      | unlockMutex timed oldtype k =>
          obtain ⟨x, r', -, h⟩ := Shared.unlock_eq_ret hstep
          cases h
      | wait oldtype stage => apply absurd hstep Cond.waitBlocked_ne_ret
      | relockCancel oldtype err k =>
          obtain ⟨x, r', -, h⟩ := Shared.lock_eq_ret hstep
          cases h
      | restore oldtype err => cases hstep
      | releaseCancel err cancelled k =>
          obtain ⟨x, r', -, h⟩ := Shared.unlock_eq_ret hstep
          cases h
      | relockMutex err cancelled k =>
          obtain ⟨x, r', -, h⟩ := Shared.lock_eq_ret hstep
          obtain ⟨rfl, rfl⟩ := h
          use rfl
          rfl
  | cancel target k =>
      obtain ⟨x, r', hstep, h⟩ := Outcome.lift_eq_ret_iff.mp h
      obtain ⟨rfl, rfl⟩ := h
      refine ⟨?_, rfl⟩
      cases k with
      | lock k =>
          obtain ⟨x, r', -, h⟩ := Shared.lock_eq_ret hstep
          cases h
      | check => apply absurd hstep cancelCheck_ne_ret
      | hook c => apply absurd hstep cancelHook_ne_ret
      | hookWakeup =>
          simp only [cancelStep, Build.wakeup, Build.assert] at hstep
          grind
      | unlock k =>
          obtain ⟨x, r', -, h⟩ := Shared.unlock_eq_ret hstep
          obtain ⟨rfl, rfl⟩ := h
          rfl
      | doUnlock k =>
          obtain ⟨x, r', -, h⟩ := Shared.unlock_eq_ret hstep
          split at h
          · obtain ⟨rfl, rfl⟩ := h
            rfl
          · cases h
      | redirect =>
          obtain ⟨rfl, rfl⟩ := hstep
          rfl
  | set x k =>
      obtain ⟨y, r', hstep, h⟩ := Outcome.lift_eq_ret_iff.mp h
      obtain ⟨rfl, rfl⟩ := h
      refine ⟨?_, rfl⟩
      cases k with
      | lock k =>
          obtain ⟨y, r', -, h⟩ := Shared.lock_eq_ret hstep
          cases h
      | store => cases hstep
      | unlock k =>
          obtain ⟨y, r', -, h⟩ := Shared.unlock_eq_ret hstep
          obtain ⟨rfl, rfl⟩ := h
          rfl
  | _ =>
      obtain ⟨x, r', -, h⟩ := Outcome.lift_eq_ret_iff.mp h
      obtain ⟨rfl, rfl⟩ := h
      use rfl
      rfl

end Change

/-! ### Grips, hooks and queues -/

section Queue

variable {self t : T} {c : N} {l : Loc T N} {q : QueueRef T N}

omit [DecidableEq N] in
theorem Loc.phase_of_locking {k : Mutex.LockLoc} (h : l.grip self t = .locking k) :
  (l.role self).phase = k.phase (.mutex (.cancelLock t))
  := by
  have hunlock : ∀ k' : Mutex.UnlockLoc T, k'.grip ≠ .locking k := by
    intro k'
    cases k' <;> simp [Mutex.UnlockLoc.grip]
  cases l with
  | condWait c m k' =>
      cases k' <;> grind [Loc.grip, Cond.WaitLoc.grip, Loc.role, Cond.WaitLoc.role]
  | cancel target k' =>
      cases k' <;> grind [Loc.grip, CancelLoc.grip, Loc.role, CancelLoc.role]
  | set x k' =>
      cases k' <;> grind [Loc.grip, SetLoc.grip, Loc.role, SetLoc.role]
  | _ => cases h

omit [DecidableEq T] [DecidableEq N] in
/-- A thread waits on the queue of a condition variable only with the hook for it
installed. -/
theorem Loc.hooked_of_queue (h : (l.role self).phase.queue = some (.cond c)) :
  l.hooked = some c
  := by
  rcases Loc.kind_of_queue h with ⟨n, k, -, hq⟩ | ⟨n, k, mode, -, hq⟩ | ⟨n, k, -, hq⟩ |
    ⟨n, k, -, hq⟩ | ⟨c, m, k, rfl⟩ | ⟨target, st, rfl, hq⟩ | ⟨x, st, rfl, hq⟩
  · cases hq
  · cases hq
  · cases hq
  · cases hq
  · rcases WaitLoc.kind_of_queue h with ⟨hq, ⟨_, _, _, rfl⟩ | ⟨_, _, _, rfl⟩ | ⟨_, _, rfl⟩⟩ |
      ⟨hq, -⟩ | ⟨hq, -⟩
    all_goals
      cases hq
      try rfl
  · cases hq
  · cases hq

omit [DecidableEq T] [DecidableEq N] in
/-- A thread with a hook installed waits on the queue of its condition variable or on that
of its `cancel_lock`. -/
theorem Loc.queue_of_hooked (hl : l.hooked = some c) (h : (l.role self).phase.queue = some q) :
  q = .cond c ∨ q = .mutex (.cancelLock self)
  := by
  obtain ⟨c', m, k, rfl⟩ : ∃ c' m k, l = .condWait c' m k := by
    cases l with
    | condWait c' m k => use c', m, k
    | _ => cases hl
  rcases WaitLoc.kind_of_queue h with ⟨rfl, ⟨_, _, _, rfl⟩ | ⟨_, _, _, rfl⟩ | ⟨_, _, rfl⟩⟩ |
    ⟨rfl, -⟩ | ⟨-, _, _, _, rfl⟩
  · cases hl
    left
    rfl
  · cases hl
    left
    rfl
  · cases hl
    left
    rfl
  · right
    rfl
  · cases hl

/-! ### The steps that act on the queue of a `cancel_lock` -/

variable {b : Build} {timeout : Bool} {s s' : Shared T N} {l' : Loc T N} {r : Ret}

omit [DecidableEq T] in
theorem UnlockLoc.start_of_queue {Q : Type} {k : Mutex.UnlockLoc T} {q q' : Q}
    (h : k.queue q = some q') :
  k = .start ∧ q = q'
  := by
  cases k with
  | start => use rfl, Option.some.inj h
  | wakeup u => cases h

theorem UnlockLoc.grip_of_goto {m : MutexRef T N} {x y : World (Mutex T) T (QueueRef T N)}
    {k k' : Mutex.UnlockLoc T} (h : Mutex.unlockStep b (.mutex m) self k x = .goto y k') :
  k'.grip = .away
  := by
  obtain ⟨-, h⟩ := Mutex.unlockStep_eq_goto h
  obtain ⟨-, u, rest, -, rfl, -⟩ := Mutex.unlockStart_eq_goto h
  rfl

theorem timedwaitStep_touches {m : N} {k k' : Cond.WaitLoc T}
    (hstep : Cond.timedwaitStep b c (.user m) self k timeout s = .goto s' k')
    (h : k.queue c (.user m) self = some (.mutex (.cancelLock t))) :
  self = t ∧ ((∃ k₁, k.grip = .locking k₁) ∨ (k.grip = .inside ∧ k'.grip = .away))
  := by
  cases k with
  | start abstime => cases h
  | lockCancel timed k =>
      cases h
      use rfl
      left
      use k
      rfl
  | enqueue timed => cases h
  | unlockCancel timed saved k =>
      obtain ⟨rfl, hq⟩ := UnlockLoc.start_of_queue h
      cases hq
      use rfl
      right
      use rfl
      rcases Shared.unlock_eq_goto hstep with ⟨x, k', h', rfl, rfl⟩ | ⟨x, r, -, h'⟩
      · apply UnlockLoc.grip_of_goto h'
      · cases saved with
        | none => cases h'
        | some oldtype =>
            obtain ⟨rfl, rfl⟩ := h'
            rfl
  | unlockMutex timed oldtype k =>
      obtain ⟨-, hq⟩ := UnlockLoc.start_of_queue h
      cases hq
  | wait oldtype stage => cases h
  | relockCancel oldtype err k =>
      cases h
      use rfl
      left
      use k
      rfl
  | restore oldtype err => cases h
  | releaseCancel err cancelled k =>
      obtain ⟨rfl, hq⟩ := UnlockLoc.start_of_queue h
      cases hq
      use rfl
      right
      use rfl
      rcases Shared.unlock_eq_goto hstep with ⟨x, k', h', rfl, rfl⟩ | ⟨x, r, -, h'⟩
      · apply UnlockLoc.grip_of_goto h'
      · obtain ⟨rfl, rfl⟩ := h'
        rfl
  | relockMutex err cancelled k => cases h

theorem cancelStep_touches {target : T} {k k' : CancelLoc T N}
    (hstep : cancelStep b target self k timeout s = .goto s' k')
    (h : k.queue target s.waits = some (.mutex (.cancelLock t))) :
  (target = t ∧ ((∃ k₁, k.grip = .locking k₁) ∨ (k.grip = .inside ∧ k'.grip = .away)))
    ∨ ∃ c, k = .hook c ∧ s.waits.prevp target = some (.mutex (.cancelLock t))
  := by
  cases k with
  | lock k =>
      cases h
      left
      use rfl
      left
      use k
      rfl
  | check => cases h
  | hook c =>
      right
      use c, rfl, h
  | hookWakeup => cases h
  | unlock k =>
      obtain ⟨rfl, hq⟩ := UnlockLoc.start_of_queue h
      cases hq
      left
      use rfl
      right
      use rfl
      rcases Shared.unlock_eq_goto hstep with ⟨x, k', h', rfl, rfl⟩ | ⟨x, r, -, h'⟩
      · apply UnlockLoc.grip_of_goto h'
      · cases h'
  | doUnlock k =>
      obtain ⟨rfl, hq⟩ := UnlockLoc.start_of_queue h
      cases hq
      left
      use rfl
      right
      use rfl
      rcases Shared.unlock_eq_goto hstep with ⟨x, k', h', rfl, rfl⟩ | ⟨x, r, -, h'⟩
      · apply UnlockLoc.grip_of_goto h'
      · split at h'
        · cases h'
        · obtain ⟨rfl, rfl⟩ := h'
          rfl
  | redirect => cases h

theorem setStep_touches {x : Setting} {k k' : SetLoc T}
    (hstep : setStep b x self k timeout s = .goto s' k')
    (h : (k.queue self : Option (QueueRef T N)) = some (.mutex (.cancelLock t))) :
  self = t ∧ ((∃ k₁, k.grip = .locking k₁) ∨ (k.grip = .inside ∧ k'.grip = .away))
  := by
  cases k with
  | lock k =>
      cases h
      use rfl
      left
      use k
      rfl
  | store => cases h
  | unlock k =>
      obtain ⟨rfl, hq⟩ := UnlockLoc.start_of_queue h
      cases hq
      use rfl
      right
      use rfl
      rcases Shared.unlock_eq_goto hstep with ⟨y, k', h', rfl, rfl⟩ | ⟨y, r, -, h'⟩
      · apply UnlockLoc.grip_of_goto h'
      · cases h'

/-- A step acts on the queue of a `cancel_lock` inside its lock function, at the section of
its unlock function, or when the hook finds its target linked there. -/
theorem stepInside_touches (h₁ : stepInside b self l timeout s = .goto s' l')
    (h : l.Touches self s.waits (.mutex (.cancelLock t))) :
  (∃ k, l.grip self t = .locking k) ∨ (l.grip self t = .inside ∧ l'.grip self t = .away)
    ∨ ∃ target c, l = .cancel target (.hook c)
      ∧ s.waits.prevp target = some (.mutex (.cancelLock t))
  := by
  cases l with
  | condWait c m k =>
      rcases Outcome.lift_eq_goto_iff.mp h₁ with ⟨x, k', hstep, rfl, rfl⟩ | ⟨_, _, _, h'⟩
      · obtain ⟨rfl, hgrip⟩ := timedwaitStep_touches hstep h
        simp only [Loc.grip, if_true]
        rcases hgrip with hgrip | hgrip
        · left
          apply hgrip
        · right; left
          apply hgrip
      · cases h'
  | cancel target k =>
      rcases Outcome.lift_eq_goto_iff.mp h₁ with ⟨x, k', hstep, rfl, rfl⟩ | ⟨_, _, _, h'⟩
      · rcases cancelStep_touches hstep h with ⟨rfl, hgrip⟩ | ⟨c, rfl, hlink⟩
        · simp only [Loc.grip, if_true]
          rcases hgrip with hgrip | hgrip
          · left
            apply hgrip
          · right; left
            apply hgrip
        · right; right
          use target, c, rfl
      · cases h'
  | set x k =>
      rcases Outcome.lift_eq_goto_iff.mp h₁ with ⟨y, k', hstep, rfl, rfl⟩ | ⟨_, _, _, h'⟩
      · obtain ⟨rfl, hgrip⟩ := setStep_touches hstep h
        simp only [Loc.grip, if_true]
        rcases hgrip with hgrip | hgrip
        · left
          apply hgrip
        · right; left
          apply hgrip
      · cases h'
  | _ => simp [Loc.Touches] at h

omit [DecidableEq N] in
theorem Loc.grip_of_touches {w : Waits T (QueueRef T N)}
    (h : l.Touches self w (.mutex (.cancelLock t))) :
  (∃ k, l.grip self t = .locking k) ∨ l.grip self t = .inside
    ∨ ∃ target c, l = .cancel target (.hook c)
  := by
  cases l with
  | condWait c m k =>
      cases k with
      | lockCancel timed k =>
          cases h
          simp [Loc.grip, Cond.WaitLoc.grip]
      | unlockCancel timed saved k =>
          obtain ⟨rfl, hq⟩ := UnlockLoc.start_of_queue h
          cases hq
          simp [Loc.grip, Cond.WaitLoc.grip, Mutex.UnlockLoc.grip]
      | unlockMutex timed oldtype k => cases (UnlockLoc.start_of_queue h).2
      | relockCancel oldtype err k =>
          cases h
          simp [Loc.grip, Cond.WaitLoc.grip]
      | releaseCancel err cancelled k =>
          obtain ⟨rfl, hq⟩ := UnlockLoc.start_of_queue h
          cases hq
          simp [Loc.grip, Cond.WaitLoc.grip, Mutex.UnlockLoc.grip]
      | _ => cases h
  | cancel target k =>
      cases k with
      | lock k =>
          cases h
          simp [Loc.grip, CancelLoc.grip]
      | hook c => simp
      | unlock k =>
          obtain ⟨rfl, hq⟩ := UnlockLoc.start_of_queue h
          cases hq
          simp [Loc.grip, CancelLoc.grip, Mutex.UnlockLoc.grip]
      | doUnlock k =>
          obtain ⟨rfl, hq⟩ := UnlockLoc.start_of_queue h
          cases hq
          simp [Loc.grip, CancelLoc.grip, Mutex.UnlockLoc.grip]
      | _ => cases h
  | set x k =>
      cases k with
      | lock k =>
          cases h
          simp [Loc.grip, SetLoc.grip]
      | store => cases h
      | unlock k =>
          obtain ⟨rfl, hq⟩ := UnlockLoc.start_of_queue h
          cases hq
          simp [Loc.grip, SetLoc.grip, Mutex.UnlockLoc.grip]
  | _ => simp [Loc.Touches] at h

/-! ### The step that enters the wait on a condition variable -/

theorem timedwaitStep_enters {m : MutexRef T N} {c' : N} {k k' : Cond.WaitLoc T}
    (hout : (k.role c m self).phase = .out)
    (hin : (k'.role c m self).phase.queue = some (.cond c'))
    (h : Cond.timedwaitStep b c m self k timeout s = .goto s' k') :
  ∃ timed, k = .enqueue timed
  := by
  have hlock : ∀ (m : MutexRef T N) (k₁ : Mutex.LockLoc),
      (k₁.phase (.mutex m : QueueRef T N)).queue ≠ some (.cond c') := by
    intro m k₁ hq
    cases (Mutex.LockLoc.queue_phase hq).1
  cases k with
  | start abstime =>
      simp only [Cond.timedwaitStep] at h
      split at h
      · cases h
      · obtain ⟨rfl, rfl⟩ := h
        cases hin
  | lockCancel timed k =>
      rcases Shared.lock_eq_goto h with ⟨x, k', -, rfl, rfl⟩ | ⟨x, r, -, h⟩
      · apply absurd hin (hlock _ k')
      · obtain ⟨rfl, rfl⟩ := h
        cases hin
  | enqueue timed => use timed
  | unlockCancel timed saved k =>
      cases saved with
      | none =>
          rcases Shared.unlock_eq_goto h with ⟨x, k', -, rfl, rfl⟩ | ⟨x, r, -, h⟩
          · cases hin
          · cases h
      | some oldtype => cases hout
  | unlockMutex timed oldtype k => cases hout
  | wait oldtype stage =>
      cases stage <;> cases hout
  | relockCancel oldtype err k =>
      rcases Shared.lock_eq_goto h with ⟨x, k', -, rfl, rfl⟩ | ⟨x, r, -, h⟩
      · apply absurd hin (hlock _ k')
      · obtain ⟨rfl, rfl⟩ := h
        cases hin
  | restore oldtype err =>
      obtain ⟨rfl, rfl⟩ := h
      cases hin
  | releaseCancel err cancelled k =>
      rcases Shared.unlock_eq_goto h with ⟨x, k', -, rfl, rfl⟩ | ⟨x, r, -, h⟩
      · cases hin
      · obtain ⟨rfl, rfl⟩ := h
        cases hin
  | relockMutex err cancelled k =>
      rcases Shared.lock_eq_goto h with ⟨x, k', -, rfl, rfl⟩ | ⟨x, r, -, h⟩
      · apply absurd hin (hlock _ k')
      · cases h

/-- A thread enters the wait on a condition variable with its enqueue. -/
theorem stepInside_enters (hout : (l.role self).phase = .out)
    (hin : (l'.role self).phase.queue = some (.cond c))
    (h : stepInside b self l timeout s = .goto s' l') :
  ∃ c m timed, l = .condWait c m (.enqueue timed)
  := by
  have hl' : ∃ c m k', l' = .condWait c m k' := by
    rcases Loc.kind_of_queue hin with ⟨_, _, -, hq⟩ | ⟨_, _, _, -, hq⟩ | ⟨_, _, -, hq⟩ |
      ⟨_, _, -, hq⟩ | hwait | ⟨_, _, -, hq⟩ | ⟨_, _, -, hq⟩
    all_goals first | apply hwait | cases hq
  obtain ⟨c₁, m, k', rfl⟩ := hl'
  cases l with
  | condWait c₂ m₂ k =>
      rcases Outcome.lift_eq_goto_iff.mp h with ⟨x, k₁, hstep, rfl, hk⟩ | ⟨_, _, _, h⟩
      · cases hk
        obtain ⟨timed, rfl⟩ := timedwaitStep_enters hout hin hstep
        use c₁, m, timed
      · cases h
  | _ =>
      rcases Outcome.lift_eq_goto_iff.mp h with ⟨x, k₁, -, -, hk⟩ | ⟨_, _, _, h⟩
      · cases hk
      · cases h

end Queue

end Process

end LibPthread
