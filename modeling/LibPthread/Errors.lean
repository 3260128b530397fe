import LibPthread.Mutex.System
import LibPthread.Rwlock.Functions
import LibPthread.Semaphore.Functions

/-!
# Calls that fail without blocking

A call on a mutex, an rwlock or a semaphore that returns an error from its first section
leaves the object, the queues and the links as they were and `__lock` released, except when
the error is that of an invalid time-out: the lock functions and the wait function return
`EINVAL` with `__lock` held.
-/

open Concurrency

namespace LibPthread

/-- A call of `self` that starts at `l` and returns an error at once leaves the spin lock of
the object released and everything else as it was. -/
def FailsCleanly {T Obj Q Loc : Type} (M : Machine T (World Obj T Q) Loc Ret)
    (lock : Obj → Bool) (self : T) (l : Loc) (s : World Obj T Q) : Prop :=
  ∀ c s' r, M.step self l c s = .ret s' r → r ≠ .zero → lock s'.obj = false ∧ s' = s

/-- A call fails cleanly unless it is rejected, if its rejection leaves the spin lock held
and every other error leaves the state as it was. -/
theorem failsCleanly_iff {T Obj Q Loc : Type} {M : Machine T (World Obj T Q) Loc Ret}
    {lock : Obj → Bool} {self : T} {l : Loc} {s : World Obj T Q} {rejected : Bool}
    (hrejected : rejected = true → ∃ s' e, lock s'.obj = true ∧
      (M.step self l false s = .ret s' (.error e) ∨ M.step self l false s = .ret s' (.minusOne e)))
    (hother : ∀ c s' r, M.step self l c s = .ret s' r → r ≠ .zero →
      rejected = true ∨ (lock s.obj = false ∧ s' = s)) :
  FailsCleanly M lock self l s ↔ rejected = false
  := by
  constructor
  · intro hclean
    by_contra hne
    obtain ⟨s', e, hlock, hstep | hstep⟩ := hrejected (by simpa using hne)
    · have := (hclean false s' _ hstep (by simp)).1
      simp_all
    · have := (hclean false s' _ hstep (by simp)).1
      simp_all
  · intro hnot c s' r hstep hr
    rcases hother c s' r hstep hr with h | ⟨hlock, rfl⟩
    · simp [hnot] at h
    · use hlock

variable {T : Type} [DecidableEq T]

namespace Mutex

variable {b : Build} {self : T}

/-- The first section of the lock function gets as far as the test of `abstime`: the mutex
is held, the caller may wait for it, and the assertions on `owner` hold. -/
def testsTime (b : Build) (self : T) (mx : Mutex T) : Bool :=
  !mx.lock && mx.held && (mx.isNormal || mx.owner ≠ some self) &&
    (b.ndebug || !b.alwaysTrackMutexOwner || mx.owner ≠ some self) &&
    (b.ndebug || !(b.alwaysTrackMutexOwner || !mx.isNormal) || mx.owner ≠ none)

/-- The call gets as far as the test of `abstime`, which fails. -/
def rejectsTime (b : Build) (self : T) (mx : Mutex T) : Loc T → Bool
  | .lock (.start abstime) => badTime abstime && testsTime b self mx
  | _ => false

theorem lockStart_eq_EINVAL_iff {Q : Type} [DecidableEq Q] {q : Q} {abstime : Option Timespec}
    {mx : Mutex T} {w : Waits T Q} :
  lockStart b q self abstime mx w = .ret ⟨{ mx with lock := true }, w⟩ (.error .EINVAL) ↔
    (badTime abstime && testsTime b self mx) = true
  := by
  obtain ⟨held, lock, attr, owner, locks⟩ := mx
  cases lock with
  | true => simp [lockStart, testsTime]
  | false =>
      cases held with
      | false =>
          have hgrab : (grab b self ⟨true, true, attr, owner, locks⟩ w
              : Outcome (World (Mutex T) T Q) LockLoc Ret) ≠
                .ret ⟨⟨false, true, attr, owner, locks⟩, w⟩ (.error .EINVAL) := by
            intro h
            have hret : _ ∧ _ ∧ Granted b self ⟨true, true, attr, owner, locks⟩ _ := grab_eq_ret h
            cases hret.1
          simp [lockStart, testsTime, hgrab]
      | true =>
          rcases attr with _ | _ | _ | _
          all_goals
            simp only [lockStart, lockBusy, testsTime, isNormal, Build.assert]
            grind

/-- A call on a mutex fails cleanly unless its time-out is rejected. -/
theorem failsCleanly_iff_not_rejectsTime {l : Loc T} {s : World (Mutex T) T Unit}
    (hl : (machine b).entry l = true) :
  FailsCleanly (machine b) Mutex.lock self l s ↔ rejectsTime b self s.obj l = false
  := by
  apply failsCleanly_iff
  · intro h
    rcases l with (abstime | _ | _) | _ | _
    case lock.start =>
      use ⟨{ s.obj with lock := true }, s.waits⟩, .EINVAL, rfl
      left
      simp [machine, step, lockStep, lockStart_eq_EINVAL_iff.mpr h, Outcome.lift]
    all_goals cases h
  · intro c s' r h hr
    cases l with
    | lock l =>
        simp only [machine, step, Outcome.lift_eq_ret_iff, id_eq] at h
        obtain ⟨s₁, r₁, h, h'⟩ := h
        obtain ⟨rfl, rfl⟩ := h'
        rcases lockStep_eq_ret h with ⟨abstime, rfl, h⟩ | ⟨err, rfl, -⟩
        · obtain ⟨hlock, hw, ⟨-, rfl, -⟩ | ⟨-, -, -, rfl, -⟩ | ⟨-, -, -, -, hobj⟩ |
            ⟨-, -, rfl, hobj⟩⟩ := lockStart_eq_ret h
          · apply absurd rfl hr
          · apply absurd rfl hr
          · right
            use hlock
            obtain ⟨mx, w⟩ := s'
            simp_all
          · left
            rw [show s' = ⟨{ s.obj with lock := true }, s.waits⟩ by rw [← hobj, ← hw]] at h
            apply lockStart_eq_EINVAL_iff.mp h
        · cases hl
    | trylock =>
        obtain ⟨hlock, hw, ⟨-, rfl, -⟩ | ⟨-, -, -, rfl, -⟩ | ⟨-, -, hobj⟩⟩ := trylock_eq_ret h
        · apply absurd rfl hr
        · apply absurd rfl hr
        · right
          use hlock
          obtain ⟨mx, w⟩ := s'
          simp_all
    | unlock l =>
        simp only [machine, step, Outcome.lift_eq_ret_iff, id_eq] at h
        obtain ⟨s₁, r₁, h, h'⟩ := h
        obtain ⟨rfl, rfl⟩ := h'
        cases l with
        | start =>
            obtain ⟨hlock, hw, ⟨-, -, -, hobj⟩ | ⟨-, -, -, rfl, -⟩ | ⟨-, rfl, -⟩⟩ :=
              unlockStart_eq_ret h
            · right
              use hlock
              obtain ⟨mx, w⟩ := s'
              simp_all
            · apply absurd rfl hr
            · apply absurd rfl hr
        | wakeup u => cases hl

end Mutex

namespace Rwlock

variable {b : Build} {self : T}

/-- The first section of the lock function gets as far as the test of `abstime`: the rwlock
is held and, for reading, there are no readers. -/
def testsTime (b : Build) (mode : Mode) (rw : Rwlock) : Bool :=
  !rw.lock && rw.held &&
    (mode = .wr || (decide (rw.readers ≤ 0) && (b.ndebug || decide (rw.readers = 0))))

/-- The call gets as far as the test of `abstime`, which fails. -/
def rejectsTime (b : Build) (rw : Rwlock) : Loc T → Bool
  | .lock mode (.start abstime) => badTime abstime && testsTime b mode rw
  | _ => false

theorem lockStart_eq_EINVAL_iff {Q : Type} [DecidableEq Q] {queue : Mode → Q} {mode : Mode}
    {abstime : Option Timespec} {rw : Rwlock} {w : Waits T Q} :
  lockStart b queue mode self abstime rw w
      = .ret ⟨{ rw with lock := true }, w⟩ (.error .EINVAL) ↔
    (badTime abstime && testsTime b mode rw) = true
  := by
  obtain ⟨held, lock, readers⟩ := rw
  cases lock with
  | true => cases mode <;> simp [lockStart, rdlockStart, wrlockStart, testsTime]
  | false =>
      cases held with
      | false =>
          have hgrab : ∀ n, (grab b queue n ⟨false, true, readers⟩ w
              : Outcome (World Rwlock T Q) LockLoc Ret) ≠
                .ret ⟨⟨false, true, readers⟩, w⟩ (.error .EINVAL) := by
            intro n h
            cases (grab_eq_ret h).1
          cases mode <;> simp [lockStart, rdlockStart, wrlockStart, testsTime, hgrab]
      | true =>
          cases mode
          all_goals
            simp only [lockStart, rdlockStart, wrlockStart, join, lockBusy, testsTime,
              Build.assert]
            grind

/-- A call on an rwlock fails cleanly unless its time-out is rejected. -/
theorem failsCleanly_iff_not_rejectsTime {l : Loc T} {s : World Rwlock T Mode}
    (hl : (machine b).entry l = true) :
  FailsCleanly (machine b) Rwlock.lock self l s ↔ rejectsTime b s.obj l = false
  := by
  apply failsCleanly_iff
  · intro h
    rcases l with ⟨mode, abstime | _ | _⟩ | _ | _
    case lock.start =>
      use ⟨{ s.obj with lock := true }, s.waits⟩, .EINVAL, rfl
      left
      simp [machine, step, lockStep, lockStart_eq_EINVAL_iff.mpr h, Outcome.lift]
    all_goals cases h
  · intro c s' r h hr
    cases l with
    | lock mode l =>
        simp only [machine, step, Outcome.lift_eq_ret_iff, id_eq] at h
        obtain ⟨s₁, r₁, h, h'⟩ := h
        obtain ⟨rfl, rfl⟩ := h'
        rcases lockStep_eq_ret h with ⟨abstime, rfl, h⟩ | ⟨err, rfl, -⟩
        · obtain ⟨hlock, hw, ⟨-, rfl, -⟩ | ⟨-, -, -, rfl, -⟩ | ⟨-, -, rfl, hobj⟩⟩ :=
            lockStart_eq_ret h
          · apply absurd rfl hr
          · apply absurd rfl hr
          · left
            rw [show s' = ⟨{ s.obj with lock := true }, s.waits⟩ by rw [← hobj, ← hw]] at h
            apply lockStart_eq_EINVAL_iff.mp h
        · cases hl
    | trylock mode =>
        obtain ⟨hlock, hw, ⟨-, rfl, -⟩ | ⟨-, -, -, rfl, -⟩ | ⟨-, -, hobj⟩⟩ := trylock_eq_ret h
        · apply absurd rfl hr
        · apply absurd rfl hr
        · right
          use hlock
          obtain ⟨rw, w⟩ := s'
          simp_all
    | unlock l =>
        simp only [machine, step, Outcome.lift_eq_ret_iff, id_eq] at h
        obtain ⟨s₁, r₁, h, h'⟩ := h
        obtain ⟨rfl, rfl⟩ := h'
        cases l with
        | start => apply absurd (unlockStart_eq_ret h).2.1 hr
        | wakeup u => cases hl
        | wakeAll us => cases hl

end Rwlock

namespace Semaphore

variable {b : Build} {self : T}

/-- The call gets as far as the test of `timeout`, as there is no token, and the test
fails. -/
def rejectsTime (sem : Semaphore) : Loc T → Bool
  | .wait (.start timeout) => badTime timeout && (!sem.lock && decide (sem.value ≤ 0))
  | _ => false

/-- A call on a semaphore fails cleanly unless its time-out is rejected. -/
theorem failsCleanly_iff_not_rejectsTime {l : Loc T} {s : World Semaphore T Unit}
    (hl : (machine b).entry l = true) :
  FailsCleanly (machine b) Semaphore.lock self l s ↔ rejectsTime s.obj l = false
  := by
  apply failsCleanly_iff
  · intro h
    rcases l with (timeout | _) | _ | _
    case wait.start =>
      use ⟨{ s.obj with lock := true }, s.waits⟩, .EINVAL, rfl
      right
      simp only [rejectsTime] at h
      simp only [machine, step, timedwaitStep, waitStart]
      grind [Outcome.lift]
    all_goals cases h
  · intro c s' r h hr
    cases l with
    | wait l =>
        simp only [machine, step, Outcome.lift_eq_ret_iff, id_eq] at h
        obtain ⟨s₁, r₁, h, h'⟩ := h
        obtain ⟨rfl, rfl⟩ := h'
        rcases timedwaitStep_eq_ret h with ⟨timeout, rfl, h⟩ | ⟨st, w, err, rfl, -⟩
        · obtain ⟨hlock, hw, ⟨-, rfl, -⟩ | ⟨hvalue, hbad, -⟩⟩ := waitStart_eq_ret h
          · apply absurd rfl hr
          · left
            simp only [rejectsTime, hbad, hlock, hvalue]
            rfl
        · cases hl
    | trywait =>
        obtain ⟨hlock, hw, ⟨-, rfl, -⟩ | ⟨-, -, hobj⟩⟩ := trywait_eq_ret h
        · apply absurd rfl hr
        · right
          use hlock
          obtain ⟨sem, w⟩ := s'
          simp_all
    | post l =>
        simp only [machine, step, Outcome.lift_eq_ret_iff, id_eq] at h
        obtain ⟨s₁, r₁, h, h'⟩ := h
        obtain ⟨rfl, rfl⟩ := h'
        cases l with
        | start => apply absurd (postStart_eq_ret h).2.2.1 hr
        | wakeup u => cases hl

end Semaphore

/-- Errors leave the object usable and unchanged, except for the rejection of a time-out:
for every state of the object, a call that fails without blocking leaves `__lock` released
and everything else as it was if and only if it does not get as far as a test of its
time-out that fails. -/
theorem errors_leave_unchanged_iff (b : Build) (self : T) :
  (∀ l s, (Mutex.machine b).entry l = true →
      (FailsCleanly (Mutex.machine b) Mutex.lock self l s ↔
        Mutex.rejectsTime b self s.obj l = false)) ∧
    (∀ l s, (Rwlock.machine (T := T) b).entry l = true →
      (FailsCleanly (Rwlock.machine b) Rwlock.lock self l s ↔
        Rwlock.rejectsTime b s.obj l = false)) ∧
    (∀ l s, (Semaphore.machine (T := T) b).entry l = true →
      (FailsCleanly (Semaphore.machine b) Semaphore.lock self l s ↔
        Semaphore.rejectsTime s.obj l = false))
  := by
  constructor
  · intro l s hl
    apply Mutex.failsCleanly_iff_not_rejectsTime hl
  · constructor
    · intro l s hl
      apply Rwlock.failsCleanly_iff_not_rejectsTime hl
    · intro l s hl
      apply Semaphore.failsCleanly_iff_not_rejectsTime hl

/-- A trylock of a mutex that is held fails cleanly. -/
theorem errors_leave_unchanged_trylock :
  FailsCleanly (Mutex.machine Build.debug) Mutex.lock (0 : Fin 2) .trylock
      ⟨⟨true, false, none, none, 0⟩, Waits.empty⟩ ∧
    (Mutex.machine Build.debug).step (0 : Fin 2) .trylock false
      ⟨⟨true, false, none, none, 0⟩, Waits.empty⟩
        = .ret ⟨⟨true, false, none, none, 0⟩, Waits.empty⟩ (.error .EBUSY)
  := by
  constructor
  · rw [(errors_leave_unchanged_iff Build.debug 0).1 _ _ rfl]
    rfl
  · rfl

/-- On a mutex or rwlock that is held, and on a semaphore without tokens, a call with
negative nanoseconds leaves `__lock` held. -/
theorem invalid_time_keeps_lock :
  ¬ FailsCleanly (Mutex.machine Build.debug) Mutex.lock (0 : Fin 2)
      (.lock (.start (some ⟨0, -1⟩))) ⟨⟨true, false, none, none, 0⟩, Waits.empty⟩ ∧
    (∀ mode, ¬ FailsCleanly (Rwlock.machine Build.debug) Rwlock.lock (0 : Fin 2)
      (.lock mode (.start (some ⟨0, -1⟩))) ⟨⟨true, false, 0⟩, Waits.empty⟩) ∧
    ¬ FailsCleanly (Semaphore.machine Build.debug) Semaphore.lock (0 : Fin 2)
      (.wait (.start (some ⟨0, -1⟩))) ⟨Semaphore.init 0, Waits.empty⟩
  := by
  constructor
  · intro h
    cases (h false ⟨⟨true, true, none, none, 0⟩, Waits.empty⟩ _ rfl (by simp)).1
  · constructor
    · intro mode h
      have hstep : (Rwlock.machine Build.debug).step (0 : Fin 2)
          (.lock mode (.start (some ⟨0, -1⟩)))
          false ⟨⟨true, false, 0⟩, Waits.empty⟩
            = .ret ⟨⟨true, true, 0⟩, Waits.empty⟩ (.error .EINVAL) := by
        cases mode
        · rfl
        · rfl
      cases (h false _ _ hstep (by simp)).1
    · intro h
      cases (h false ⟨⟨true, 0⟩, Waits.empty⟩ _ rfl (by simp)).1

end LibPthread
