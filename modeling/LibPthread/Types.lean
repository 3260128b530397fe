import LibPthread.Concurrency.Wakeup

/-!
# Errors, time values and build switches

The error codes, return values and time values of the library functions, the two
preprocessor switches that change the code of the lock functions, and the two primitives
`__pthread_wakeup` and `assert` as they are used in every function.
-/

open Concurrency

namespace LibPthread

/-- The error codes returned by the functions of the model. -/
inductive Errno where
  | EINVAL
  | EBUSY
  | EDEADLK
  | EPERM
  | EAGAIN
  | ETIMEDOUT
  | ENOMEM
  | ESRCH
  | EOPNOTSUPP
  deriving DecidableEq, Repr

/-- The values the functions return: `0`, an error code, `-1` with `errno` set, and
`PTHREAD_BARRIER_SERIAL_THREAD`. A function that calls `pthread_exit (PTHREAD_CANCELED)`
does not return; `canceled` stands for this end of the call. -/
inductive Ret where
  | zero
  | error (e : Errno)
  | minusOne (errno : Errno)
  | serialThread
  | canceled
  deriving DecidableEq, Repr

/-- A time value `struct timespec`. -/
structure Timespec where
  tv_sec : Int
  tv_nsec : Int
  deriving DecidableEq, Repr

/-- `abstime && (abstime->tv_nsec < 0 || abstime->tv_nsec >= 1000000000)`: a time-out is
given and its nanoseconds are out of range. -/
def badTime : Option Timespec → Bool
  | none => false
  | some ts => decide (ts.tv_nsec < 0) || decide (ts.tv_nsec ≥ 1000000000)

/-- A value converted to a 32-bit `int`, wrapping around. -/
def toInt (n : Int) : Int :=
  n.bmod (2 ^ 32)

theorem toInt_of_lt {n : Int} (hlo : -2 ^ 31 ≤ n) (hhi : n < 2 ^ 31) :
  toInt n = n
  := by
  rw [toInt]
  apply Int.bmod_eq_of_le
  · omega
  · omega

/-- The preprocessor switches `NDEBUG` and `ALWAYS_TRACK_MUTEX_OWNER`. -/
structure Build where
  ndebug : Bool
  alwaysTrackMutexOwner : Bool
  deriving DecidableEq

namespace Build

/-- The build with assertions that does not track the owners of normal mutexes. -/
def debug : Build where
  ndebug := false
  alwaysTrackMutexOwner := false

variable {T Q σ Loc Ret : Type}

/-- `assert (p)`, followed by `k`: the assertion is compiled out under `NDEBUG`. -/
def assert (b : Build) (p : Prop) [Decidable p] (k : Outcome σ Loc Ret) : Outcome σ Loc Ret :=
  if b.ndebug ∨ p then k else .fault

variable [DecidableEq T]

/-- `__pthread_wakeup (thread)`, followed by `k`: a send on the port of the thread, whose
queue limit is 1, with a zero time-out. The send fails when a message is already queued,
which `assert_perror` reports. -/
def wakeup (b : Build) (thread : T) (w : Waits T Q) (k : Waits T Q → Outcome σ Loc Ret) :
    Outcome σ Loc Ret :=
  if w.port thread = 0 then k (w.send thread)
  else b.assert False (k w)

variable {b : Build}

theorem assert_eq_goto_iff {p : Prop} [Decidable p] {k : Outcome σ Loc Ret} {s : σ} {l : Loc} :
  b.assert p k = .goto s l ↔ (b.ndebug ∨ p) ∧ k = .goto s l
  := by
  rw [assert]
  split <;> simp_all

theorem assert_eq_ret_iff {p : Prop} [Decidable p] {k : Outcome σ Loc Ret} {s : σ} {r : Ret} :
  b.assert p k = .ret s r ↔ (b.ndebug ∨ p) ∧ k = .ret s r
  := by
  rw [assert]
  split <;> simp_all

/-- An assertion that holds does nothing. -/
theorem assert_of {p : Prop} [Decidable p] (hp : p) (k : Outcome σ Loc Ret) :
  b.assert p k = k
  := by
  simp [assert, hp]

/-- A send on an empty port queues the message. -/
theorem wakeup_of {t : T} {w : Waits T Q} (hport : w.port t = 0)
    (k : Waits T Q → Outcome σ Loc Ret) :
  b.wakeup t w k = k (w.send t)
  := by
  simp [wakeup, hport]

end Build

end LibPthread
