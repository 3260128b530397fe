import Mathlib.Logic.Relation
import Mathlib.Tactic.Simps.Basic
import LibPthread.Signal.Sigset
import LibPthread.Types

/-!
# Signals

The signal states of the threads and the functions that send, handle and wait for signals. The
steps are the sections under `sig_lock` and the `lock` of a signal state. A thread that receives
a signal runs `signal_dispatch`, also on top of a handler that is running or of a call of
`sigwaitinfo`: `frames` are the calls that a thread is inside of, the innermost one first.

The structures of the threads that wait are on their stacks; a structure that is no longer there
is not read or written without a fault. The model has ghost fields: with which information the
pending signals were sent, what the handlers and the callers of `sigwaitinfo` were given, and what
happened to the structures.
-/

namespace LibPthread.Signal

/-! ### Actions -/

/-- `siginfo_t`. -/
structure Siginfo where
  si_signo : Int
  si_code : Int
  si_errno : Int
  si_pid : Int
  si_uid : Int
  si_addr : Nat
  si_status : Int
  si_band : Int
  si_value : Nat
  deriving DecidableEq, Repr

/-- The information that holds nothing but the signal number. -/
def Siginfo.plain (signo : Int) : Siginfo :=
  ⟨signo, 0, 0, 0, 0, 0, 0, 0, 0⟩

/-- `SIG_DFL`, `SIG_IGN`, or a function. -/
inductive Handler where
  | dfl
  | ign
  | fn (f : Nat)
  deriving DecidableEq, Repr

/-- The handler is a function. -/
def Handler.isFn : Handler → Bool
  | .fn _ => true
  | _ => false

/-- `struct sigaction`. -/
structure Sigaction where
  sa_handler : Handler
  sa_mask : Sigset
  sa_flags : BitVec 32
  deriving DecidableEq, Repr

def saResethand : BitVec 32 := 1#32 <<< 2
def saRestart : BitVec 32 := 1#32 <<< 3
def saNodefer : BitVec 32 := 1#32 <<< 6

/-- `enum sig_action`. -/
inductive SigAction where
  | core
  | terminate
  | ignore
  | cont
  | stop
  deriving DecidableEq, Repr

/-- `default_action`; a number without an action is a panic. -/
def defaultAction (signo : Nat) : Option SigAction :=
  if signo ∈ [6, 7, 8, 4, 3, 11, 16, 31, 5, 24, 25] then some .core
  else if signo ∈ [14, 1, 2, 29, 9, 13, 27, 15, 10, 12, 26] then some .terminate
  else if signo ∈ [17, 30, 23, 28] then some .ignore
  else if signo = 18 then some .cont
  else if signo ∈ [19, 20, 21, 22] then some .stop
  else none

/-- The signal is discarded when it is sent. -/
def Sigaction.Discards (sa : Sigaction) (sig : Nat) : Prop :=
  sa.sa_handler = .ign ∨ (sa.sa_handler = .dfl ∧ defaultAction sig = some .ignore)

instance (sa : Sigaction) (sig : Nat) : Decidable (sa.Discards sig) :=
  inferInstanceAs (Decidable (_ ∨ _))

/-! ### The state -/

/-- `struct signal_state`; the actions are numbered by the signals, counted from 1. -/
structure SignalState where
  pending : Sigset
  blocked : Sigset
  actions : Nat → Sigaction
  info : Nat → Siginfo
  sigwaiter : Option Nat

/-- `struct sigwaiter`; `ss` is the thread whose state is meant. -/
structure Sigwaiter (T : Type) where
  next : Option Nat
  prev : Option Nat
  ss : T
  signals : Sigset
  info : Siginfo
  deriving DecidableEq, Repr

/-- A call that a thread is inside of: `signal_dispatch` with its variables while it runs the
handler, or `sigwaiter_block` with its structure, waiting for the futex or after that. -/
inductive Frame where
  | dispatch (signo : Nat) (si : Siginfo) (handler : Handler) (origBlocked : Sigset)
  | waiting (waiter : Nat)
  | leaving (waiter : Nat)
  deriving DecidableEq, Repr

/-- What happens to the structure of a thread that waits: it is written, it is unlinked with a
signal for the thread, or the signal is returned. -/
inductive WaiterEvent where
  | wrote
  | given (si : Siginfo)
  | returned (si : Siginfo)
  deriving DecidableEq, Repr

/-- The information `si` is passed to a handler or returned for the signal `signo`, which was
sent with the information `sent`. -/
structure Delivery where
  signo : Nat
  si : Siginfo
  sent : List Siginfo
  deriving DecidableEq, Repr

/-- The state of all threads. The structures `0` to `count - 1` have been used; `since t sig` is
the information with which the signal was sent to the thread since it became pending. -/
structure Signals (T : Type) where
  ss : T → SignalState
  frames : T → List Frame
  waiters : Nat → Option (Sigwaiter T)
  sigwaiters : Option Nat
  count : Nat
  processPending : Sigset
  processPendingInfo : Nat → Siginfo
  since : T → Nat → List Siginfo
  delivered : List Delivery
  history : Nat → List WaiterEvent

/-- How a step ends: with a state, with the end of the program, or with a failed assertion, the
use of memory that is not there, or an operation that is not defined; or the step is not
possible. -/
inductive Result (T : Type) where
  | next (S : Signals T)
  | exit
  | fault
  | disabled

/-- A step that may fail. -/
def Result.ofOption {T : Type} : Option (Signals T) → Result T
  | none => .fault
  | some S => .next S

namespace Signals

variable {T : Type} [DecidableEq T]

/-- Changes the signal state of a thread. -/
@[simps]
def modify (S : Signals T) (t : T) (f : SignalState → SignalState) : Signals T :=
  { S with ss := Function.update S.ss t (f (S.ss t)) }

/-- `sigdelset` on the pending signals of a thread and of the process. -/
def delete (S : Signals T) (t : T) (signo : Nat) : Signals T :=
  { S.modify t fun ss => { ss with pending := sigdelset ss.pending signo } with
    processPending := sigdelset S.processPending signo }

/-- The thread enters a call. -/
@[simps]
def push (S : Signals T) (t : T) (x : Frame) : Signals T :=
  { S with frames := Function.update S.frames t (x :: S.frames t) }

/-- The innermost call of the thread ends. -/
@[simps]
def pop (S : Signals T) (t : T) : Signals T :=
  { S with frames := Function.update S.frames t (S.frames t).tail }

/-! ### Actions -/

/-- `sigaction`, called by the thread `t`: `EINVAL`, or the old action. -/
def sigaction (S : Signals T) (t : T) (sig : Int) (sa : Option Sigaction) :
    Signals T × Except Errno Sigaction :=
  if sig ≤ 0 ∨ sig ≥ nsig then (S, .error .EINVAL)
  else
    let sig := sig.toNat
    let osa := (S.ss t).actions sig
    match sa with
    | none => (S, .ok osa)
    | some sa =>
      let S := S.modify t fun ss =>
        { ss with
          actions := Function.update ss.actions sig sa
          blocked := sigdelset (sigdelset ss.blocked sigkill) sigstop }
      if sa.Discards sig then (S.delete t sig, .ok osa) else (S, .ok osa)

/-- `signal`. -/
def signal (S : Signals T) (t : T) (sig : Int) (handler : Handler) :
    Signals T × Except Errno Sigaction :=
  if sig ≤ 0 ∨ sig ≥ nsig then (S, .error .EINVAL)
  else S.sigaction t sig (some ⟨handler, sigaddset 0 sig.toNat, saRestart⟩)

/-- `siginterrupt`, whose first call of `sigaction` finds the action. -/
def siginterrupt (S : Signals T) (t : T) (sig : Int) (flag : Bool) :
    Signals T × Except Errno Sigaction :=
  match S.sigaction t sig none with
  | (S, .error e) => (S, .error e)
  | (S, .ok act) =>
    S.sigaction t sig (some
      { act with
        sa_flags := if flag then act.sa_flags &&& ~~~ saRestart else act.sa_flags ||| saRestart })

/-! ### The dispatcher -/

/-- The pending sets after the signal has been accepted for handling. -/
def accept (S : Signals T) (t : T) (signo : Nat) : Signals T :=
  if Sigset.Has stopsigs signo then S.delete t sigcont
  else if signo = sigcont then
    { S.modify t fun ss => { ss with pending := ss.pending &&& ~~~ stopsigs } with
      processPending := S.processPending &&& ~~~ stopsigs }
  else S

/-- The mask while the handler of the signal runs. -/
def maskFor (ss : SignalState) (signo : Nat) : Sigset :=
  let blocked := ss.blocked ||| (ss.actions signo).sa_mask
  if (ss.actions signo).sa_flags &&& (saResethand ||| saNodefer) = 0 then sigaddset blocked signo
  else blocked

/-- The actions while the handler of the signal runs. -/
def actionsFor (ss : SignalState) (signo : Nat) : Nat → Sigaction :=
  if (ss.actions signo).sa_flags &&& saResethand ≠ 0 ∧ signo ≠ sigill ∧ signo ≠ sigtrap then
    Function.update ss.actions signo { ss.actions signo with sa_handler := .dfl }
  else ss.actions

/-- The loop of `signal_dispatch` up to the call of the handler; `sent` is the information the
signal was sent with. -/
def handle (S : Signals T) (t : T) (signo : Nat) (si : Siginfo) (sent : List Siginfo) :
    Signals T :=
  let S := S.accept t signo
  let handler := ((S.ss t).actions signo).sa_handler
  let S' := S.modify t fun ss =>
    { ss with
      actions := actionsFor ss signo
      blocked := maskFor ss signo
      pending := sigdelset ss.pending signo }
  { S' with
    processPending := sigdelset S'.processPending signo
    delivered := if handler.isFn then ⟨signo, si, sent⟩ :: S'.delivered else S'.delivered }.push t
      (.dispatch signo si handler (S.ss t).blocked)

/-- The signal that the dispatcher goes on with after a handler, or 0: a signal pending for the
thread, else one pending for the process. -/
def nextSignal (S : Signals T) (t : T) (origBlocked : Sigset) : Nat :=
  let pending := ~~~ origBlocked &&& (S.ss t).pending
  lsb64 (if pending = 0 then ~~~ origBlocked &&& S.processPending else pending)

/-- The information with which the signal was sent to the set the dispatcher takes it from. -/
def nextSent (S : Signals T) (t : T) (origBlocked : Sigset) : List Siginfo :=
  if ~~~ origBlocked &&& (S.ss t).pending = 0 then []
  else S.since t (S.nextSignal t origBlocked)

/-- The handler has returned, and the mask of the thread is restored. -/
def resume (S : Signals T) (t : T) (origBlocked : Sigset) : Signals T :=
  (S.modify t fun ss => { ss with blocked := origBlocked }).pop t

/-- The loop of `signal_dispatch` after the handler. All default actions end the program: the call
of `panic` after the last comparison is not guarded by it. -/
def handlerReturns (S : Signals T) (t : T) : Result T :=
  match S.frames t with
  | .dispatch _ si handler origBlocked :: _ =>
    if handler = .dfl then .exit
    else
      let signo := S.nextSignal t origBlocked
      let sent := S.nextSent t origBlocked
      let S := S.resume t origBlocked
      if signo = 0 then .next S else .next (S.handle t signo si sent)
  | _ => .disabled

/-! ### Threads that wait -/

/-- Writes to the structure of a thread that waits. -/
def write (S : Signals T) (n : Nat) (f : Sigwaiter T → Sigwaiter T) : Option (Signals T) :=
  (S.waiters n).map fun w =>
    { S with
      waiters := Function.update S.waiters n (some (f w))
      history := Function.update S.history n (S.history n ++ [.wrote]) }

/-- Writes through a pointer unless it is `NULL`. -/
def writeIf (S : Signals T) (n : Option Nat) (f : Sigwaiter T → Sigwaiter T) :
    Option (Signals T) :=
  match n with
  | none => some S
  | some n => S.write n f

/-- The list continues with `w.next` where it had `w`. -/
def linkNext (S : Signals T) (w : Sigwaiter T) : Option (Signals T) :=
  match w.prev with
  | some p => S.write p fun x => { x with next := w.next }
  | none => some { S with sigwaiters := w.next }

/-- `sigwaiter_unblock`. -/
def sigwaiterUnblock (S : Signals T) (n : Nat) : Option (Signals T) := do
  let w ← S.waiters n
  let S ← S.writeIf w.next fun x => { x with prev := w.prev }
  let S ← S.linkNext w
  return { S.delete w.ss w.info.si_signo.toNat with
    history := Function.update S.history n (S.history n ++ [.given w.info]) }

/-- The information is stored in the structure, and the thread is unblocked. -/
def give (S : Signals T) (n : Nat) (si : Siginfo) : Option (Signals T) := do
  let S ← S.write n fun w => { w with info := si }
  S.sigwaiterUnblock n

/-- The first structure of the list, if any; `none` if it is not there. -/
def firstWaiter (S : Signals T) : Option (Option (Sigwaiter T)) :=
  match S.sigwaiters with
  | none => some none
  | some first => (S.waiters first).map some

/-- The part of `sigwaiter_block` before the futex. -/
def sigwaiterBlock (b : Build) (S : Signals T) (t : T) (set : Sigset) : Option (Signals T) := do
  guard (b.ndebug ∨ (S.ss t).sigwaiter = none)
  let n := S.count
  let first ← S.firstWaiter
  guard (b.ndebug ∨ ∀ w ∈ first, w.prev = none)
  let S ← S.writeIf S.sigwaiters fun x => { x with prev := some n }
  let S := { S with
    waiters := Function.update S.waiters n
      (some ⟨S.sigwaiters, none, t, set, .plain 0⟩)
    sigwaiters := some n
    count := n + 1 }
  return (S.modify t fun ss => { ss with sigwaiter := some n }).push t (.waiting n)

/-- There is a pending signal in the set. -/
def Extant (S : Signals T) (t : T) (set : Sigset) : Prop :=
  S.processPending &&& set ≠ 0 ∨ (S.ss t).pending &&& set ≠ 0

instance (S : Signals T) (t : T) (set : Sigset) : Decidable (S.Extant t set) :=
  inferInstanceAs (Decidable (_ ∨ _))

/-- The pending signal in the set that `sigwaitinfo` takes, the information it gives for it, and
the information with which it was sent. The sources of the information are the wrong way round:
a signal that is pending for the process comes with information of the thread. -/
def extant (S : Signals T) (t : T) (set : Sigset) : Delivery :=
  if S.processPending &&& set ≠ 0 then
    let signo := msb64 (S.processPending &&& set)
    ⟨signo, { (S.ss t).info signo with si_signo := signo }, []⟩
  else
    let signo := msb64 ((S.ss t).pending &&& set)
    ⟨signo, { S.processPendingInfo signo with si_signo := signo }, S.since t signo⟩

/-- `sigwaitinfo`; `wanted` tells whether the information is asked for. -/
def sigwaitinfo (b : Build) (S : Signals T) (t : T) (set : Sigset) (wanted : Bool) : Result T :=
  if S.Extant t set then
    let d := S.extant t set
    let S := S.delete t d.signo
    .next { S with delivered := if wanted then d :: S.delivered else S.delivered }
  else .ofOption (S.sigwaiterBlock b t set)

/-- The signal is returned, and the structure is no longer there. -/
def finish (S : Signals T) (t : T) (n : Nat) (info : Siginfo) : Signals T :=
  { S.pop t with
    waiters := Function.update S.waiters n none
    history := Function.update S.history n (S.history n ++ [.returned info]) }

/-- The futex returns; unless `NDEBUG` is defined, the pointer to the structure is cleared. -/
def wakes (b : Build) (S : Signals T) (t : T) : Result T :=
  match S.frames t with
  | .waiting n :: _ =>
    match S.waiters n with
    | none => .fault
    | some w =>
      if w.info.si_signo = 0 then .disabled
      else if b.ndebug then .next (S.finish t n w.info)
      else
        .next (((S.modify t fun ss => { ss with sigwaiter := none }).pop t).push t (.leaving n))
  | _ => .disabled

/-- The rest of `sigwaitinfo`, unless `NDEBUG` is defined. -/
def leaves (S : Signals T) (t : T) : Result T :=
  match S.frames t with
  | .leaving n :: _ =>
    match S.waiters n with
    | none => .fault
    | some w =>
      if w.info.si_signo ≠ 0 ∧ w.signals.Has w.info.si_signo.toNat then
        .next (S.finish t n w.info)
      else .fault
  | _ => .disabled

/-! ### Sending signals -/

/-- The loop of `kill` over the threads that wait: the structure found, if any; `none` if memory
is used that is not there, or the list has more elements than there are structures. -/
def findWaiter (S : Signals T) (signo : Nat) : Nat → Option Nat → Option (Option Nat)
  | _, none => some none
  | 0, some _ => none
  | fuel + 1, some n =>
    match S.waiters n with
    | none => none
    | some w => if w.signals.Has signo then some (some n) else S.findWaiter signo fuel w.next

/-- `kill` up to the call of `pthread_kill`, which it makes if no thread waits for the signal. -/
def kill (S : Signals T) (signo : Int) : Result T :=
  if S.sigwaiters = none then .next S
  else if signo < 1 ∨ signo > 64 then .fault
  else
    match S.findWaiter signo.toNat S.count S.sigwaiters with
    | none => .fault
    | some none => .next S
    | some (some n) =>
      match S.waiters n with
      | none => .fault
      | some w =>
        .ofOption ((S.delete w.ss signo.toNat).give n (.plain signo))

/-- What `pthread_kill_siginfo_np` does with the signal `sig` for the thread `t`. -/
inductive Route where
  | fault
  | waiter (n : Nat)
  | discarded
  | pends
  | dispatched
  deriving DecidableEq, Repr

/-- The choice after the test of the waiter. -/
def routeTo (ss : SignalState) (sig : Nat) : Route :=
  if (ss.actions sig).Discards sig then .discarded
  else if ss.blocked.Has sig then .pends
  else .dispatched

/-- The choices of `pthread_kill_siginfo_np`. -/
def route (S : Signals T) (t : T) (sig : Nat) : Route :=
  match (S.ss t).sigwaiter with
  | none => routeTo (S.ss t) sig
  | some n =>
    match S.waiters n with
    | none => .fault
    | some w => if w.signals.Has sig then .waiter n else routeTo (S.ss t) sig

/-- The signal becomes pending for the thread. Its information is not stored. -/
def pend (S : Signals T) (t : T) (sig : Nat) (si : Siginfo) : Signals T :=
  let sent := if (S.ss t).pending.Has sig then si :: S.since t sig else [si]
  { S.modify t fun ss => { ss with pending := ss.pending ||| sigmask sig } with
    since := Function.update S.since t (Function.update (S.since t) sig sent) }

/-- `pthread_kill_siginfo_np`. A signal that is dispatched is handled at once by the thread `t`,
which calls `signal_dispatch` itself or is made to call it while the lock is held. -/
def killSiginfo (S : Signals T) (t : T) (si : Siginfo) : Result T :=
  if si.si_signo < 0 ∨ si.si_signo ≥ nsig then .next S
  else if si.si_signo = 0 then .next S
  else
    let sig := si.si_signo.toNat
    match S.route t sig with
    | .fault => .fault
    | .waiter n => .ofOption (S.give n si)
    | .discarded => .next S
    | .pends => .next (S.pend t sig si)
    | .dispatched => .next (S.handle t sig si [si])

end Signals

/-! ### Runs -/

/-- The steps. -/
inductive Act (T : Type) where
  | sigaction (t : T) (sig : Int) (sa : Option Sigaction)
  | signal (t : T) (sig : Int) (handler : Handler)
  | siginterrupt (t : T) (sig : Int) (flag : Bool)
  | handlerReturns (t : T)
  | sigwaitinfo (t : T) (set : Sigset) (wanted : Bool)
  | wakes (t : T)
  | leaves (t : T)
  | kill (signo : Int)
  | killSiginfo (t : T) (si : Siginfo)
  deriving DecidableEq, Repr

namespace Signals

variable {T : Type} [DecidableEq T]

/-- The thread is not waiting, so that it can call functions. -/
def Runs (S : Signals T) (t : T) : Prop :=
  (match S.frames t with
  | .waiting _ :: _ => false
  | .leaving _ :: _ => false
  | _ => true) = true

instance (S : Signals T) (t : T) : Decidable (S.Runs t) :=
  inferInstanceAs (Decidable (_ = true))

/-- A step of the threads. -/
def step (b : Build) (S : Signals T) : Act T → Result T
  | .sigaction t sig sa => if S.Runs t then .next (S.sigaction t sig sa).1 else .disabled
  | .signal t sig handler => if S.Runs t then .next (S.signal t sig handler).1 else .disabled
  | .siginterrupt t sig flag => if S.Runs t then .next (S.siginterrupt t sig flag).1 else .disabled
  | .handlerReturns t => S.handlerReturns t
  | .sigwaitinfo t set wanted => if S.Runs t then S.sigwaitinfo b t set wanted else .disabled
  | .wakes t => S.wakes b t
  | .leaves t => S.leaves t
  | .kill signo => S.kill signo
  | .killSiginfo t si => S.killSiginfo t si

/-- Steps that satisfy `G` lead from `S` to `S'`. -/
def Reach (b : Build) (G : Signals T → Act T → Prop) : Signals T → Signals T → Prop :=
  Relation.ReflTransGen fun S S' => ∃ a, G S a ∧ S.step b a = .next S'

/-- Takes the steps in order, refusing those that do not meet the guard. -/
def run (b : Build) (G : Signals T → Act T → Prop) [∀ S a, Decidable (G S a)] :
    Signals T → List (Act T) → Option (Signals T)
  | S, [] => some S
  | S, a :: acts =>
    if G S a then
      match S.step b a with
      | .next S' => run b G S' acts
      | _ => none
    else none

theorem reach_of_run {b : Build} {G : Signals T → Act T → Prop} [∀ S a, Decidable (G S a)]
    (acts : List (Act T)) {S S' : Signals T} (h : run b G S acts = some S') :
  Reach b G S S'
  := by
  induction acts generalizing S with
  | nil =>
      obtain rfl := Option.some.inj h
      exact .refl
  | cons a acts ih =>
      rw [run] at h
      split at h
      · rename_i hG
        split at h
        · rename_i S₁ hstep
          exact .head ⟨a, hG, hstep⟩ (ih h)
        · cases h
      · cases h

/-- An invariant that the steps keep holds after every run. -/
theorem Reach.invariant {b : Build} {G : Signals T → Act T → Prop} {P : Signals T → Prop}
    {S S' : Signals T} (h : Reach b G S S') (start : P S)
    (keep : ∀ S a S', P S → G S a → S.step b a = .next S' → P S') :
  P S'
  := by
  induction h with
  | refl => exact start
  | tail _ hlast ih =>
      obtain ⟨a, hG, hstep⟩ := hlast
      exact keep _ a _ ih hG hstep

end Signals

end LibPthread.Signal
