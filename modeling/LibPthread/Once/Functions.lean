import Mathlib.Logic.Function.Basic
import Mathlib.Logic.Relation
import Mathlib.Tactic.Simps.Basic

/-!
# One-time initialisation

Any number of threads that run programs with calls of `pthread_once` on one control. The control
is read and written one access at a time, in the order of the code. The init routine is code of the
program, and so are the cleanup handlers and the destructors: they may do what the start routine of
a thread may do, which includes further calls of `pthread_once`, `pthread_testcancel` and
`pthread_exit`.

A thread that leaves through `pthread_exit` runs it on top of its stack, from which nothing is
removed any more. The cancellation type is `PTHREAD_CANCEL_DEFERRED`.
-/

namespace LibPthread.Once

/-- `struct __pthread_once`. -/
structure Control where
  run : Int
  lock : Bool
  deriving DecidableEq, Repr

/-- `__PTHREAD_ONCE_INIT`. -/
def Control.init : Control where
  run := 0
  lock := false

/-- The control points of `pthread_once`. -/
inductive OnceLoc where
  /-- At the test of `run` without the lock. -/
  | test
  /-- At `__pthread_spin_lock`. -/
  | lock
  /-- At the test of `run` with the lock. -/
  | inner
  /-- In `init_routine ()`. -/
  | routine
  /-- At `once_control->run = 1`. -/
  | store
  /-- At `__pthread_spin_unlock`. -/
  | unlock
  deriving DecidableEq, Repr

/-- What a step of `pthread_once` does: it spins, it goes on, it calls the init routine, or it
returns. -/
inductive OnceResult where
  | spin
  | goto (c : Control) (l : OnceLoc)
  | call (c : Control)
  | ret (c : Control)

/-- `pthread_once`; while the init routine runs, it takes no step. -/
def pthreadOnce (c : Control) : OnceLoc → OnceResult
  | .test => if c.run = 0 then .goto c .lock else .ret c
  | .lock => if c.lock then .spin else .goto { c with lock := true } .inner
  | .inner => if c.run = 0 then .call c else .goto c .unlock
  | .routine => .spin
  | .store => .goto { c with run := 1 } .unlock
  | .unlock => .ret { c with lock := false }

/-- The control points of `__pthread_exit`; `oldstate` is its local variable. -/
inductive ExitLoc where
  /-- At the first `pthread_setcancelstate`. -/
  | disable
  /-- At the test of the loop over the cleanup handlers. -/
  | loop (oldstate : Bool)
  /-- In a cleanup handler. -/
  | handler (oldstate : Bool)
  /-- At `*handlers = (*handlers)->next`. -/
  | next (oldstate : Bool)
  /-- At the second `pthread_setcancelstate`. -/
  | restore (oldstate : Bool)
  /-- In `__pthread_destroy_specific`, outside of a destructor. -/
  | destroySpecific
  /-- In a destructor. -/
  | destructor
  /-- At `__atomic_dec_and_test (&__pthread_total)`. -/
  | total
  /-- In `exit (0)`. -/
  | processExit
  /-- In the sections on `state`, or in `__pthread_dealloc`. -/
  | state
  /-- After `__pthread_thread_halt`. -/
  | halted
  deriving DecidableEq, Repr

/-- A function on the stack of a thread: one of the program, `pthread_once`, or
`__pthread_exit`. -/
inductive Frame where
  | program
  | once (l : OnceLoc)
  | exit (l : ExitLoc)
  deriving DecidableEq, Repr

/-- A thread: its stack, the latest function first, the number of its cleanup handlers, and its
cancellation state. -/
structure Thread where
  frames : List Frame
  handlers : Nat
  cancelEnabled : Bool
  cancelPending : Bool
  deriving DecidableEq, Repr

/-- A thread at the beginning of its start routine. -/
def Thread.init : Thread where
  frames := [.program]
  handlers := 0
  cancelEnabled := true
  cancelPending := false

/-- A call of `__pthread_exit`. -/
@[simps]
def Thread.exit (th : Thread) : Thread :=
  { th with frames := .exit .disable :: th.frames }

/-- The function of the program on top of the stack returns to `rest`. The entry point of a thread
calls `__pthread_exit` when the start routine has returned. -/
def Thread.leave (th : Thread) : List Frame → Option Thread
  | [] => some { th with frames := [.exit .disable] }
  | .once .routine :: rest => some { th with frames := .once .store :: rest }
  | .exit (.handler oldstate) :: rest =>
    some { th with frames := .exit (.next oldstate) :: rest }
  | .exit .destructor :: rest => some { th with frames := .exit .destroySpecific :: rest }
  | _ => none

/-- One step of `__pthread_exit`, called from `rest`. Whether there is another destructor to call,
and whether the thread is the last one, is told by `choice`. -/
def Thread.exitStep (th : Thread) (rest : List Frame) (choice : Bool) : ExitLoc → Option Thread
  | .disable =>
    some { th with frames := .exit (.loop th.cancelEnabled) :: rest, cancelEnabled := false }
  | .loop oldstate =>
    if th.handlers = 0 then some { th with frames := .exit (.restore oldstate) :: rest }
    else some { th with frames := .program :: .exit (.handler oldstate) :: rest }
  | .next oldstate =>
    some { th with frames := .exit (.loop oldstate) :: rest, handlers := th.handlers - 1 }
  | .restore oldstate =>
    some { th with frames := .exit .destroySpecific :: rest, cancelEnabled := oldstate }
  | .destroySpecific =>
    if choice then some { th with frames := .program :: .exit .destructor :: rest }
    else some { th with frames := .exit .total :: rest }
  | .total =>
    if choice then some { th with frames := .exit .processExit :: rest }
    else some { th with frames := .exit .state :: rest }
  | .state => some { th with frames := .exit .halted :: rest }
  | _ => none

/-- What is observed of a run: an init routine is started by `t`, it returns, and a call of
`pthread_once` returns. -/
inductive Event (T : Type) where
  | started (t : T)
  | finished (t : T)
  | returned (t : T)
  deriving DecidableEq

/-- A state of the system, with the events so far, the latest first. -/
structure State (T : Type) where
  control : Control
  thread : T → Thread
  log : List (Event T)

/-- What a thread does next: its program calls a function, or returns, or, by `go`, a function of
the library takes a step. -/
inductive Act (T : Type) where
  | once
  | leave
  | cleanupPush
  | cleanupPop
  | setcancelstate (enable : Bool)
  /-- `pthread_testcancel`, or the test of another cancellation point. -/
  | testcancel
  | exit
  /-- `pthread_cancel`, which makes the request pending. -/
  | cancel (target : T)
  | go (choice : Bool)

variable {T : Type}

/-- No thread has called `pthread_once` yet. -/
@[simps]
def State.init : State T where
  control := .init
  thread _ := .init
  log := []

variable [DecidableEq T]

namespace State

/-- The state with another thread `t`, control and log. -/
@[simps]
def set (s : State T) (t : T) (th : Thread) (c : Control) (log : List (Event T)) : State T where
  control := c
  thread := Function.update s.thread t th
  log := log

/-- A step that concerns the thread `t` only. -/
def setThread (s : State T) (t : T) (th : Thread) : State T :=
  s.set t th s.control s.log

/-- The program of `t` takes a step, with the stack `.program :: rest`. -/
def programStep (s : State T) (t : T) (rest : List Frame) : Act T → Option (State T)
  | .once => some (s.setThread t { s.thread t with frames := .once .test :: .program :: rest })
  | .leave =>
    let log := if rest.head? = some (.once .routine) then .finished t :: s.log else s.log
    ((s.thread t).leave rest).map fun th => s.set t th s.control log
  | .cleanupPush =>
    some (s.setThread t { s.thread t with handlers := (s.thread t).handlers + 1 })
  | .cleanupPop =>
    some (s.setThread t { s.thread t with handlers := (s.thread t).handlers - 1 })
  | .setcancelstate enable => some (s.setThread t { s.thread t with cancelEnabled := enable })
  | .testcancel =>
    if (s.thread t).cancelEnabled ∧ (s.thread t).cancelPending then
      some (s.setThread t (s.thread t).exit)
    else some s
  | .exit => some (s.setThread t (s.thread t).exit)
  | .cancel target => some (s.setThread target { s.thread target with cancelPending := true })
  | .go _ => none

/-- `pthread_once`, called by `t` from `rest`, takes a step. -/
def onceStep (s : State T) (t : T) (rest : List Frame) (l : OnceLoc) : Option (State T) :=
  let th := s.thread t
  match pthreadOnce s.control l with
  | .spin => none
  | .goto c l' => some (s.set t { th with frames := .once l' :: rest } c s.log)
  | .call c =>
    some (s.set t { th with frames := .program :: .once .routine :: rest } c (.started t :: s.log))
  | .ret c => some (s.set t { th with frames := rest } c (.returned t :: s.log))

/-- The step `a` of the thread `t`, if it can take it. -/
def step (s : State T) (t : T) (a : Act T) : Option (State T) :=
  match (s.thread t).frames, a with
  | .program :: rest, a => s.programStep t rest a
  | .once l :: rest, .go _ => s.onceStep t rest l
  | .exit l :: rest, .go choice =>
    ((s.thread t).exitStep rest choice l).map (s.setThread t)
  | _, _ => none

/-- The state after the steps `acts`, if the threads can take them. -/
def execute (s : State T) : List (T × Act T) → Option (State T)
  | [] => some s
  | (t, a) :: acts => (s.step t a).bind fun s' => s'.execute acts

end State

/-- The states that the steps of the threads lead to from `s`. -/
def Run (s : State T) : State T → Prop :=
  Relation.ReflTransGen (fun s s' => ∃ t a, s.step t a = some s') s

theorem run_of_execute {s s' : State T} (acts : List (T × Act T))
    (h : s.execute acts = some s') :
  Run s s'
  := by
  induction acts generalizing s with
  | nil =>
      obtain rfl := Option.some.inj h
      exact .refl
  | cons step acts ih =>
      obtain ⟨t, a⟩ := step
      obtain ⟨s₁, hstep, hrest⟩ := Option.bind_eq_some_iff.mp h
      exact .head ⟨t, a, hstep⟩ (ih hrest)

end LibPthread.Once
