import LibPthread.Key.Specific
import LibPthread.Thread.Reclaim

/-!
# The exit of a thread

One thread, which runs a program with calls of the library, and which leaves it through
`pthread_exit`: when its start routine returns, by a call, or to act on a cancellation. The
cleanup handlers and the destructors that `pthread_exit` and `pthread_cleanup_pop` call are code
of the program as well, which may call any function of the library, and `pthread_exit` too. The
other threads cancel, join and detach it, and create and delete keys.

A section under a lock of the library is two steps: the lock is acquired, and the section is
executed and the lock released. In between the thread may be redirected by a canceller. A thread
waits in `pthread_cond_wait` for as long as it wishes, whoever wakes it up. The state of the
threads it joins itself, and the locks of other threads that it takes, are known only by the
calls it makes.

The queues are not part of the state: a thread that waits for a lock of the library takes no step
until it can have it, and a lock that is handed over to a thread which is redirected on the queue
stays free. The functions on mutexes, semaphores, rwlocks and barriers of the program itself, which
take no lock of the library, are not modelled.
-/

open Concurrency

namespace LibPthread.Thread.Exit

/-- The locks of the library: `__pthread_key_lock`, and `cancel_lock` and `state_lock` of a
structure. -/
inductive LibLock where
  | key
  | cancel (q : Nat)
  | state (q : Nat)
  deriving DecidableEq, Repr

/-- Who calls `pthread_exit`: the program, also by the return from its start routine, or a
function of the library that acts on a cancellation. -/
inductive Caller where
  | program
  | cancellation
  deriving DecidableEq, Repr

/-- A call of `pthread_exit`. -/
structure Call where
  status : Status
  caller : Caller
  deriving DecidableEq, Repr

/-- The function of a cleanup handler: one of the program, or `__pthread_mutex_unlock` on the
`state_lock` of the structure `q`, which `pthread_join` pushes. -/
inductive Routine where
  | program
  | unlock (q : Nat)
  deriving DecidableEq, Repr

/-- `struct __pthread_cancelation_handler`, known by the number of handlers pushed before. -/
structure Handler where
  serial : Nat
  routine : Routine
  deriving DecidableEq, Repr

/-- An open region between `pthread_cleanup_push` and `pthread_cleanup_pop`, with the handler and
its field `next`. -/
structure Region where
  handler : Handler
  next : List Handler
  deriving DecidableEq, Repr

/-- What a function of the program returns to: the start of the thread, the `pthread_cleanup_pop`
of a region, the loop of `pthread_exit` over the handlers, which has saved the cancellation state
`oldstate`, or the loop of `__pthread_destroy_specific`. -/
inductive Back where
  | start
  | pop (r : Region)
  | handlers (h : Handler) (oldstate : Bool) (call : Call)
  | destructor (i : Nat) (call : Call)
  deriving DecidableEq, Repr

/-- A function of the program that has been called, with its open regions, the innermost
first. -/
structure Activation where
  regions : List Region
  back : Back
  deriving DecidableEq, Repr

/-- The code that runs: the functions of the program that have not returned, the latest first, the
list `cancelation_handlers`, and the number of handlers pushed so far. -/
structure Code where
  running : List Activation
  handlers : List Handler
  pushed : Nat
  deriving DecidableEq, Repr

/-- The calls of `pthread_key_create` and `pthread_key_delete`. -/
inductive KeyCall (D : Type) where
  | create (d : Option D) (realloc : Bool)
  | delete (key : Int)
  deriving DecidableEq, Repr

/-- The sections of the thread under a lock of the library. `mutex` is the structure whose
`state_lock` the call of `pthread_cond_wait` releases, if it is the one in `pthread_join`. -/
inductive Section (D : Type) where
  | setcancelstate (enable : Bool)
  | setcanceltype (asynchronous : Bool)
  | testcancel
  | cancelSelf
  | key (x : KeyCall D)
  /-- A section of a function on another thread. -/
  | other (k : LibLock)
  | condEnter (mutex : Option Nat)
  | condLeave (mutex : Option Nat) (oldtype : Bool)
  /-- `pthread_setcancelstate (PTHREAD_CANCEL_DISABLE, &oldstate)` in `pthread_exit`. -/
  | exitDisable (call : Call)
  /-- `pthread_setcancelstate (oldstate, &oldstate)` in `pthread_exit`. -/
  | exitRestore (oldstate : Bool) (call : Call)
  | exitState (call : Call)
  deriving DecidableEq, Repr

/-- The control points. -/
inductive Loc (D V : Type) where
  | lock (x : Section D)
  | inside (x : Section D)
  | cleanupPush
  | cleanupPop (execute : Bool)
  /-- At `*__handlers = __handler.next`. -/
  | unlink (executed : Bool) (r : Region)
  | setspecific (key : Int) (value : Option V) (create add : Bool)
  /-- The function of the program that runs returns `v`. -/
  | leave (v : Nat)
  | exit (status : Status)
  /-- In `pthread_join` on another structure. -/
  | join (q : Nat)
  | joinPush (q : Nat)
  | joinTest (q : Nat)
  | joinPop (q : Nat)
  | joinUnlock (q : Nat)
  /-- In `__pthread_cond_timedwait_internal`, after the section under `cancel_lock`. -/
  | condUnlock (mutex : Option Nat) (oldtype : Bool)
  | condBlock (mutex : Option Nat) (oldtype : Bool)
  | condRelock (mutex : Option Nat) (cancelled : Bool)
  /-- At the loop of `pthread_exit` over the handlers. -/
  | exitLoop (oldstate : Bool) (call : Call)
  | exitUnlock (h : Handler) (q : Nat) (oldstate : Bool) (call : Call)
  /-- At `*handlers = (*handlers)->next`. -/
  | exitNext (h : Handler) (oldstate : Bool) (call : Call)
  /-- At `__pthread_destroy_specific`. -/
  | destroySpecific (call : Call)
  | pass (call : Call)
  | visit (i : Nat) (seenOne : Bool) (call : Call)
  | exitTotal (call : Call)
  | exitDealloc (rest : List Stage)
  | exitHalt
  | halted
  | processExit
  /-- In `pthread_join` or `pthread_detach`, called by another thread. -/
  | call (l : Reclaim.Loc)
  /-- In `pthread_cancel`, called by another thread. -/
  | cancel
  | cancelLock (q : Nat)
  | redirect (q : Nat)
  /-- In a function on keys, called by another thread. -/
  | keys (x : KeyCall D)
  deriving DecidableEq, Repr

/-- The results: a function of the library returns to the program, a handler is pushed, the
program goes on with a handler or a destructor, or a call of another thread returns. -/
inductive Ret where
  | void
  | pushed (serial : Nat)
  | handler (serial : Nat)
  | destructor (i : Nat)
  | call (r : Reclaim.Ret)
  | key
  deriving DecidableEq, Repr

/-- The shared state: the task, with the structure of the thread, `cancel_type` of the thread, the
code that runs, the thread-specific data, how many times the thread has locked each lock, and
whether it has been redirected to `call_exit`. -/
structure Shared (D V : Type) where
  task : Task
  asynchronous : Bool
  code : Code
  tsd : Key.Tsd D V
  held : LibLock → Nat
  redirected : Bool

namespace Shared

variable {D V : Type}

/-- Changes the structure `p`. -/
@[simps]
def modify (s : Shared D V) (p : Nat) (f : Pthread → Pthread) : Shared D V :=
  { s with task := s.task.modify p f }

@[simps]
def withTask (s : Shared D V) (L : Task) : Shared D V :=
  { s with task := L }

@[simps]
def withCode (s : Shared D V) (code : Code) : Shared D V :=
  { s with code := code }

@[simps]
def acquire (s : Shared D V) (k : LibLock) : Shared D V :=
  { s with held := Function.update s.held k (s.held k + 1) }

@[simps]
def release (s : Shared D V) (k : LibLock) : Shared D V :=
  { s with held := Function.update s.held k (s.held k - 1) }

/-- The thread can lock `k`: `__pthread_key_lock` is recursive. -/
def MayLock (s : Shared D V) (k : LibLock) : Prop :=
  k = .key ∨ s.held k = 0

instance (s : Shared D V) (k : LibLock) : Decidable (s.MayLock k) :=
  inferInstanceAs (Decidable (_ ∨ _))

/-- The test of `pthread_testcancel`. -/
def cancelled (s : Shared D V) (p : Nat) : Bool :=
  (s.task.structs p).cancelEnabled && (s.task.structs p).cancelPending

end Shared

section Steps

variable {D V : Type}

/-- What the step of a thread does. -/
abbrev Result (D V : Type) := Outcome (Shared D V) (Loc D V) Ret

/-- The call of `pthread_exit`, from which control does not come back. -/
def pthreadExit (s : Shared D V) (call : Call) : Result D V :=
  .goto (s.withCode { s.code with running := [] }) (.lock (.exitDisable call))

/-- The lock of a section of the thread that runs on the structure `p`. -/
def Section.mutex (p : Nat) : Section D → LibLock
  | .key _ => .key
  | .other k => k
  | .exitState _ => .state p
  | _ => .cancel p

/-- `pthread_key_create` or `pthread_key_delete`. -/
def KeyCall.run (t : Table) (S : Key.Tsd D V) : KeyCall D → Option (Key.Tsd D V)
  | .create d realloc => (S.keyCreate d realloc).map Prod.fst
  | .delete key => (S.keyDelete t key).map Prod.fst

/-- A call on keys, as a step. -/
def keyStep (s : Shared D V) (x : KeyCall D) : Result D V :=
  match x.run s.task.table s.tsd with
  | none => .fault
  | some tsd => .ret { s with tsd := tsd } .key

/-- `pthread_cancel` of the thread itself, whose hook is `NULL`. -/
def cancelSelf (p : Nat) (s : Shared D V) : Result D V :=
  if (s.task.structs p).cancelPending then .ret s .void
  else
    let s := s.modify p fun q => { q with cancelPending := true }
    if (s.task.structs p).cancelEnabled ∧ s.asynchronous then
      pthreadExit s ⟨.value 0, .cancellation⟩
    else .ret s .void

/-- The control points of the thread at the end of `__pthread_exit`. -/
def Loc.ofReclaim : Reclaim.Loc → Loc D V
  | .exitHalt => .exitHalt
  | .exitDealloc rest => .exitDealloc rest
  | l => .call l

/-- A section, with its lock released. -/
def sectionStep (p : Nat) (s : Shared D V) : Section D → Result D V
  | .setcancelstate enable => .ret (s.modify p fun q => { q with cancelEnabled := enable }) .void
  | .setcanceltype asynchronous => .ret { s with asynchronous := asynchronous } .void
  | .testcancel =>
    if s.cancelled p then pthreadExit s ⟨.canceled, .cancellation⟩ else .ret s .void
  | .cancelSelf => cancelSelf p s
  | .key x => keyStep s x
  | .other _ => .ret s .void
  | .condEnter mutex =>
    if s.cancelled p then pthreadExit s ⟨.canceled, .cancellation⟩
    else .goto { s with asynchronous := false } (.condUnlock mutex s.asynchronous)
  | .condLeave mutex oldtype =>
    .goto { s with asynchronous := oldtype } (.condRelock mutex (s.cancelled p))
  | .exitDisable call =>
    .goto (s.modify p fun q => { q with cancelEnabled := false })
      (.exitLoop (s.task.structs p).cancelEnabled call)
  | .exitRestore oldstate call =>
    .goto (s.modify p fun q => { q with cancelEnabled := oldstate }) (.destroySpecific call)
  | .exitState call =>
    (Reclaim.exitSection p call.status s.task).lift s.withTask Loc.ofReclaim
      fun s r => .ret s (.call r)

/-- A handler is pushed by the function that runs. -/
def push (s : Shared D V) (routine : Routine) (k : Shared D V → Handler → Result D V) :
    Result D V :=
  match s.code.running with
  | [] => .spin
  | f :: rest =>
    let h : Handler := ⟨s.code.pushed, routine⟩
    k (s.withCode
      { running := { f with regions := ⟨h, s.code.handlers⟩ :: f.regions } :: rest
        handlers := h :: s.code.handlers
        pushed := s.code.pushed + 1 }) h

/-- The innermost region of the function that runs ends; a program without one does not call
`pthread_cleanup_pop`. -/
def popRegion (s : Shared D V) (k : Shared D V → Region → Result D V) : Result D V :=
  match s.code.running with
  | ⟨r :: regions, back⟩ :: rest =>
    k (s.withCode { s.code with running := ⟨regions, back⟩ :: rest }) r
  | _ => .spin

/-- `__pthread_cleanup_pop (execute)`. -/
def cleanupPop (s : Shared D V) (execute : Bool) : Result D V :=
  popRegion s fun s r =>
    if execute then
      .ret (s.withCode { s.code with running := ⟨[], .pop r⟩ :: s.code.running })
        (.handler r.handler.serial)
    else .goto s (.unlink false r)

/-- The function that runs returns `v`; a program does not return from inside of a region. -/
def leave (s : Shared D V) (v : Nat) : Result D V :=
  match s.code.running with
  | ⟨[], back⟩ :: rest =>
    let s := s.withCode { s.code with running := rest }
    match back with
    | .start => pthreadExit s ⟨.value v, .program⟩
    | .pop r => .goto s (.unlink true r)
    | .handlers h oldstate call => .goto s (.exitNext h oldstate call)
    | .destructor i call => .goto s (.visit (i + 1) true call)
  | _ => .spin

/-- The test of the loop of `__pthread_exit` over the handlers, and the call of a handler. -/
def exitLoop (s : Shared D V) (oldstate : Bool) (call : Call) : Result D V :=
  match s.code.handlers with
  | [] => .goto s (.lock (.exitRestore oldstate call))
  | h :: _ =>
    match h.routine with
    | .program =>
      .ret (s.withCode { s.code with running := [⟨[], .handlers h oldstate call⟩] })
        (.handler h.serial)
    | .unlock q => .goto s (.exitUnlock h q oldstate call)

/-- One round of the loop of `__pthread_destroy_specific` over the keys, under
`__pthread_key_lock`. -/
def visit (p : Nat) (s : Shared D V) (i : Nat) (seenOne : Bool) (call : Call) : Result D V :=
  if i < s.tsd.keys.count then
    match s.tsd.keys.destructors[i]? with
    | some .invalid => .goto s (.visit (i + 1) seenOne call)
    | some (.live d) =>
      if s.tsd.value p i = none then .goto s (.visit (i + 1) seenOne call)
      else
        let s := { s with tsd := s.tsd.remove p i }
        match d with
        | none => .goto s (.visit (i + 1) seenOne call)
        | some _ =>
          .ret (s.withCode { s.code with running := [⟨[], .destructor i call⟩] }) (.destructor i)
    | _ => .fault
  else
    let s := s.release .key
    if seenOne then .goto s (.pass call)
    else .goto { s with tsd := s.tsd.initSpecific p } (.exitTotal call)

/-- The lock or the unlock of the mutex of `pthread_cond_wait`, if it is a lock of the library. -/
def onMutex (f : LibLock → Shared D V) (s : Shared D V) : Option Nat → Shared D V
  | none => s
  | some q => f (.state q)

/-- The steps of the thread that runs on the structure `p`. -/
def selfStep (p : Nat) (l : Loc D V) (timeout : Bool) (s : Shared D V) : Result D V :=
  match l with
  | .lock x =>
    if s.MayLock (x.mutex p) then .goto (s.acquire (x.mutex p)) (.inside x) else .spin
  | .inside x => sectionStep p (s.release (x.mutex p)) x
  | .cleanupPush => push s .program fun s h => .ret s (.pushed h.serial)
  | .cleanupPop execute => cleanupPop s execute
  | .unlink _ r => .ret (s.withCode { s.code with handlers := r.next }) .void
  | .setspecific key value create add =>
    .ret { s with tsd := (s.tsd.setspecific p key value create add).1 } .void
  | .leave v => leave s v
  | .exit status => pthreadExit s ⟨status, .program⟩
  | .join q => if s.MayLock (.state q) then .goto (s.acquire (.state q)) (.joinPush q) else .spin
  | .joinPush q => push s (.unlock q) fun s _ => .goto s (.joinTest q)
  | .joinTest q =>
    -- the other thread may be `PTHREAD_JOINABLE` or not
    if timeout then .goto s (.joinPop q) else .goto s (.lock (.condEnter (some q)))
  | .joinPop q =>
    popRegion s fun s r =>
      .goto (s.withCode { s.code with handlers := r.next }) (.joinUnlock q)
  | .joinUnlock q => .ret (s.release (.state q)) .void
  | .condUnlock mutex oldtype => .goto (onMutex s.release s mutex) (.condBlock mutex oldtype)
  | .condBlock mutex oldtype => .goto s (.lock (.condLeave mutex oldtype))
  | .condRelock mutex cancelled =>
    if ∀ q ∈ mutex, s.MayLock (.state q) then
      let s := onMutex s.acquire s mutex
      if cancelled then pthreadExit s ⟨.canceled, .cancellation⟩
      else
        match mutex with
        | none => .ret s .void
        | some q => .goto s (.joinTest q)
    else .spin
  | .exitLoop oldstate call => exitLoop s oldstate call
  | .exitUnlock h q oldstate call => .goto (s.release (.state q)) (.exitNext h oldstate call)
  | .exitNext _ oldstate call =>
    match s.code.handlers with
    | [] => .fault
    | _ :: rest => .goto (s.withCode { s.code with handlers := rest }) (.exitLoop oldstate call)
  | .destroySpecific call =>
    if s.tsd.specifics p = none then .goto s (.exitTotal call) else .goto s (.pass call)
  | .pass call => .goto (s.acquire .key) (.visit 0 false call)
  | .visit i seenOne call => visit p s i seenOne call
  | .exitTotal call =>
    .goto (s.withTask { s.task with total := s.task.total - 1 })
      (if s.task.total - 1 = 0 then .processExit else .lock (.exitState call))
  | .exitDealloc [] => .goto s .exitHalt
  | .exitDealloc (st :: rest) =>
    match st.run s.task p with
    | none => .fault
    | some L => .goto (s.withTask L) (.exitDealloc rest)
  | .exitHalt => .goto (s.withTask (s.task.threadHalt p)) .halted
  | _ => .spin

/-- The part of `pthread_cancel` under `cancel_lock`, called by another thread. A hook wakes the
thread up, which may also wake up without it. -/
def cancelSection (q : Nat) (s : Shared D V) : Result D V :=
  if (s.task.structs q).cancelPending then .ret s (.call (.success none))
  else
    let s := s.modify q fun x => { x with cancelPending := true }
    if (s.task.structs q).cancelEnabled ∧ s.asynchronous then .goto s (.redirect q)
    else .ret s (.call (.success none))

/-- The kernel calls of `__pthread_do_cancel`. They fail if the thread has been halted. -/
def redirect (q : Nat) (s : Shared D V) : Result D V :=
  if s.task.kernel.threads.Live (s.task.structs q).kernelThread then
    .ret { s with redirected := true } (.call (.success none))
  else .fault

variable {T : Type} [DecidableEq T]

/-- The steps of another thread `t`. -/
def otherStep (u : T) (p thread : Nat) (t : T) (l : Loc D V) (s : Shared D V) : Result D V :=
  match l with
  | .call l =>
    if ∃ q ∈ l.locks, s.held (.state q) ≠ 0 then .spin
    else (Reclaim.step u p thread t l s.task).lift s.withTask .call fun s r => .ret s (.call r)
  | .cancel =>
    match s.task.table.get thread with
    | some (.entry q) => .goto s (.cancelLock q)
    | some .null => .ret s (.call (.error .ESRCH))
    | _ => .fault
  | .cancelLock q => if s.held (.cancel q) ≠ 0 then .spin else cancelSection q s
  | .redirect q => redirect q s
  | .keys x => if s.held .key ≠ 0 then .spin else keyStep s x
  | _ => .spin

/-- The steps of thread `t`; `u` is the thread that runs on `p` and has the ID `thread`. Once it
has been redirected, its next step is the call of `pthread_exit` in `call_exit`. -/
def step (u : T) (p thread : Nat) (t : T) (l : Loc D V) (timeout : Bool) (s : Shared D V) :
    Result D V :=
  if t = u then
    if ¬ s.task.kernel.threads.Live (s.task.structs p).kernelThread then .spin
    else if s.redirected then
      pthreadExit { s with redirected := false } ⟨.value 0, .cancellation⟩
    else selfStep p l timeout s
  else otherStep u p thread t l s

/-- The functions of the library that a program calls. -/
def entry : Loc D V → Bool
  | .lock (.setcancelstate _) => true
  | .lock (.setcanceltype _) => true
  | .lock .testcancel => true
  | .lock .cancelSelf => true
  | .lock (.key _) => true
  | .lock (.other _) => true
  | .lock (.condEnter none) => true
  | .cleanupPush => true
  | .cleanupPop _ => true
  | .setspecific _ _ _ _ => true
  | .leave _ => true
  | .exit _ => true
  | .join _ => true
  | .call .join => true
  | .call .detach => true
  | .cancel => true
  | .keys _ => true
  | _ => false

/-- The machine of the thread `u`, which runs on `p` and has the ID `thread`, and of the threads
around it. -/
def machine (u : T) (p thread : Nat) : Machine T (Shared D V) (Loc D V) Ret where
  entry := entry
  step := step u p thread

/-- The states of the system. -/
abbrev Sys (T D V : Type) := State T (Shared D V) (Loc D V) Ret

/-- The thread starts with cancellation deferred, no handlers, and any thread-specific data. -/
def start (L : Task) (S : Key.Tsd D V) : Sys T D V :=
  State.idle
    { task := L
      asynchronous := false
      code := ⟨[⟨[], .start⟩], [], 0⟩
      tsd := S
      held := fun _ => 0
      redirected := false }

end Steps

/-- A joinable thread with cancellation enabled, for the examples. -/
def enabledThread : Task :=
  Reclaim.oneThread.modify 0 fun q => { q with cancelEnabled := true }

/-- No thread-specific data, for the examples. -/
def noData : Key.Tsd Unit Unit :=
  ⟨.init, fun _ => none⟩

section Step

variable {D V T : Type} [DecidableEq T] {u t : T} {p thread : Nat} {l l' : Loc D V}
  {timeout : Bool} {s s' : Shared D V} {r : Ret}

/-- A step of the thread itself acts on its redirection or is one of its code. -/
theorem step_self_goto (h : step u p thread u l timeout s = .goto s' l') :
  (s.redirected = true ∧
      pthreadExit { s with redirected := false } ⟨.value 0, .cancellation⟩ = .goto s' l') ∨
    (s.redirected = false ∧ selfStep p l timeout s = .goto s' l')
  := by
  rw [step, if_pos rfl] at h
  split at h
  · cases h
  · split at h
    · rename_i hredirected
      exact .inl ⟨hredirected, h⟩
    · rename_i hredirected
      exact .inr ⟨Bool.eq_false_of_not_eq_true hredirected, h⟩

theorem step_self_ret (h : step u p thread u l timeout s = .ret s' r) :
  s.redirected = false ∧ selfStep p l timeout s = .ret s' r
  := by
  rw [step, if_pos rfl] at h
  split at h
  · cases h
  · split at h
    · cases h
    · rename_i hredirected
      exact ⟨Bool.eq_false_of_not_eq_true hredirected, h⟩

theorem step_other (ht : t ≠ u) :
  step u p thread t l timeout s = otherStep u p thread t l s
  := by
  rw [step, if_neg ht]

end Step

/-! ### What a step does -/

/-- A part of the code: the program with the functions it calls, the functions on the thread that
other threads call, `pthread_join` with its handler pushed, the end of `pthread_cleanup_pop`, the
loop of `pthread_exit` over the handlers, and what comes after it. -/
inductive Place where
  | program
  | outside
  | joined (q : Nat)
  | unlink (executed : Bool) (r : Region)
  | loop
  | unlock (h : Handler) (q : Nat)
  | next (h : Handler)
  | after
  deriving DecidableEq, Repr

section Moves

variable {D V : Type}

/-- The part of a section. -/
def Section.place : Section D → Place
  | .condEnter (some q) => .joined q
  | .condLeave (some q) _ => .joined q
  | .exitDisable _ => .loop
  | .exitRestore _ _ => .after
  | .exitState _ => .after
  | _ => .program

/-- The part of a control point. -/
def Loc.place : Loc D V → Place
  | .lock x => x.place
  | .inside x => x.place
  | .unlink executed r => .unlink executed r
  | .joinTest q => .joined q
  | .joinPop q => .joined q
  | .condUnlock (some q) _ => .joined q
  | .condBlock (some q) _ => .joined q
  | .condRelock (some q) _ => .joined q
  | .exitLoop _ _ => .loop
  | .exitUnlock h q _ _ => .unlock h q
  | .exitNext h _ _ => .next h
  | .destroySpecific _ => .after
  | .pass _ => .after
  | .visit _ _ _ => .after
  | .exitTotal _ => .after
  | .exitDealloc _ => .after
  | .exitHalt => .after
  | .halted => .after
  | .processExit => .after
  | .call _ => .outside
  | .cancel => .outside
  | .cancelLock _ => .outside
  | .redirect _ => .outside
  | .keys _ => .outside
  | _ => .program

/-- The lock of the library that a call of `pthread_cond_wait` releases. -/
def mutexLocks : Option Nat → List LibLock
  | none => []
  | some q => [.state q]

/-- The locks that the thread holds at a section, besides its own. -/
def Section.outer : Section D → List LibLock
  | .condEnter mutex => mutexLocks mutex
  | _ => []

/-- The locks that the thread on the structure `p` has locked in the function it is in. -/
def Loc.locks (p : Nat) : Loc D V → List LibLock
  | .lock x => x.outer
  | .inside x => x.mutex p :: x.outer
  | .joinPush q => [.state q]
  | .joinTest q => [.state q]
  | .joinPop q => [.state q]
  | .joinUnlock q => [.state q]
  | .condUnlock mutex _ => mutexLocks mutex
  | .visit _ _ _ => [.key]
  | _ => []

/-- The lock that the handler of `pthread_join` releases. -/
def Place.armed : Place → List LibLock
  | .joined q => [.state q]
  | _ => []

/-- The call of `pthread_exit` the thread is in. -/
def Section.exits : Section D → Option Call
  | .exitDisable call => some call
  | .exitRestore _ call => some call
  | .exitState call => some call
  | _ => none

/-- The call of `pthread_exit` the thread is in, until the section under `state_lock`. -/
def Loc.exits : Loc D V → Option Call
  | .lock x => x.exits
  | .inside x => x.exits
  | .exitLoop _ e => some e
  | .exitUnlock _ _ _ e => some e
  | .exitNext _ _ e => some e
  | .destroySpecific e => some e
  | .pass e => some e
  | .visit _ _ e => some e
  | .exitTotal e => some e
  | _ => none

/-- The call of `pthread_exit` that has called the function of the program. -/
def Back.exits : Back → Option Call
  | .start => none
  | .pop _ => none
  | .handlers _ _ call => some call
  | .destructor _ call => some call

/-- The step from the control point enters `pthread_exit`. -/
def enters (p : Nat) (s : Shared D V) : Loc D V → Bool
  | .exit _ => true
  | .leave _ => s.code.running.head? = some ⟨[], .start⟩
  | .inside .testcancel => s.cancelled p
  | .inside (.condEnter _) => s.cancelled p
  | .inside .cancelSelf =>
    !(s.task.structs p).cancelPending && (s.task.structs p).cancelEnabled && s.asynchronous
  | .condRelock _ cancelled => cancelled
  | _ => false

/-- Who calls `pthread_exit` in a step that enters it. -/
def Loc.caller : Loc D V → Caller
  | .exit _ => .program
  | .leave _ => .program
  | _ => .cancellation

/-- How many times the thread has locked `k` outside of the function it is in. -/
def Shared.surplus (s : Shared D V) (p : Nat) (l : Loc D V) (k : LibLock) : Nat :=
  s.held k - (l.locks p).count k

/-- The results that are not calls of the program. -/
def Ret.Quiet : Ret → Prop
  | .pushed _ => False
  | .handler _ => False
  | .destructor _ => False
  | _ => True

/-- What a step of the thread does to the task. -/
inductive TaskStep (p : Nat) (l : Loc D V) (L : Task) : Task → Prop where
  | same : TaskStep p l L L
  | cancel (enabled pending : Bool) :
    TaskStep p l L
      (L.modify p fun q => { q with cancelEnabled := enabled, cancelPending := pending })
  | total {call : Call} (place : l = .exitTotal call) :
    TaskStep p l L { L with total := L.total - 1 }
  | stage {L' : Task} {st : Stage} {rest : List Stage} (place : l = .exitDealloc (st :: rest))
    (run : st.run L p = some L') :
    TaskStep p l L L'
  | state {L' : Task} {k : Reclaim.Loc} {call : Call} (place : l = .inside (.exitState call))
    (leaves : Reclaim.exitSection p call.status L = .goto L' k) :
    TaskStep p l L L'
  | halt (place : l = .exitHalt) : TaskStep p l L (L.threadHalt p)

/-- What a step of the thread does to the task, its code and its locks: it stays in the same part
of the code, it returns to the program, it enters `pthread_exit`, it pushes or pops a handler, or
it is a step of `pthread_exit`. -/
inductive Moves (p : Nat) (l : Loc D V) (s : Shared D V) : Result D V → Prop where
  | spin : Moves p l s .spin
  | fault : Moves p l s .fault
  | stay {s' : Shared D V} {l' : Loc D V} (task : TaskStep p l s.task s'.task)
    (code : s'.code = s.code) (place : l'.place = l.place)
    (exits : l'.exits = l.exits ∨ l'.exits = none)
    (held : ∀ k, s'.surplus p l' k ≤ s.surplus p l k)
    (inside : ∀ call, l' ≠ .lock (.exitDisable call) := by intro call h; cases h) :
    Moves p l s (.goto s' l')
  | back {s' : Shared D V} {r : Ret} (task : TaskStep p l s.task s'.task)
    (code : s'.code = s.code) (place : l.place = .program)
    (quiet : r.Quiet) (held : ∀ k, s'.held k ≤ s.surplus p l k) :
    Moves p l s (.ret s' r)
  | exit {s' : Shared D V} {call : Call} (enters : enters p s l = true)
    (caller : call.caller = l.caller) (task : TaskStep p l s.task s'.task)
    (code : s'.code = { s.code with running := [] })
    (held : ∀ k, s'.held k ≤ s.surplus p l k + l.place.armed.count k) :
    Moves p l s (.goto s' (.lock (.exitDisable call)))
  | push {f : Activation} {rest : List Activation} (place : l = .cleanupPush)
    (running : s.code.running = f :: rest) :
    Moves p l s (.ret (s.withCode
      ⟨{ f with regions := ⟨⟨s.code.pushed, .program⟩, s.code.handlers⟩ :: f.regions } :: rest,
        ⟨s.code.pushed, .program⟩ :: s.code.handlers, s.code.pushed + 1⟩) (.pushed s.code.pushed))
  | join {f : Activation} {rest : List Activation} {q : Nat} (place : l = .joinPush q)
    (running : s.code.running = f :: rest) :
    Moves p l s (.goto (s.withCode
      ⟨{ f with regions := ⟨⟨s.code.pushed, .unlock q⟩, s.code.handlers⟩ :: f.regions } :: rest,
        ⟨s.code.pushed, .unlock q⟩ :: s.code.handlers, s.code.pushed + 1⟩) (.joinTest q))
  | joinPop {r : Region} {regions : List Region} {back : Back} {rest : List Activation} {q : Nat}
    (place : l = .joinPop q) (running : s.code.running = ⟨r :: regions, back⟩ :: rest) :
    Moves p l s
      (.goto (s.withCode { s.code with running := ⟨regions, back⟩ :: rest, handlers := r.next })
        (.joinUnlock q))
  | pop {r : Region} {regions : List Region} {back : Back} {rest : List Activation}
    (place : l = .cleanupPop false) (running : s.code.running = ⟨r :: regions, back⟩ :: rest) :
    Moves p l s (.goto (s.withCode { s.code with running := ⟨regions, back⟩ :: rest })
      (.unlink false r))
  | execute {r : Region} {regions : List Region} {back : Back} {rest : List Activation}
    (place : l = .cleanupPop true) (running : s.code.running = ⟨r :: regions, back⟩ :: rest) :
    Moves p l s
      (.ret (s.withCode { s.code with running := ⟨[], .pop r⟩ :: ⟨regions, back⟩ :: rest })
        (.handler r.handler.serial))
  | executed {r : Region} {rest : List Activation} {v : Nat} (place : l = .leave v)
    (running : s.code.running = ⟨[], .pop r⟩ :: rest) :
    Moves p l s (.goto (s.withCode { s.code with running := rest }) (.unlink true r))
  | unlink {executed : Bool} {r : Region} (place : l = .unlink executed r) :
    Moves p l s (.ret (s.withCode { s.code with handlers := r.next }) .void)
  | handler {h : Handler} {rest : List Handler} {oldstate : Bool} {call : Call}
    (place : l = .exitLoop oldstate call) (handlers : s.code.handlers = h :: rest)
    (routine : h.routine = .program) :
    Moves p l s (.ret (s.withCode { s.code with running := [⟨[], .handlers h oldstate call⟩] })
      (.handler h.serial))
  | handled {h : Handler} {rest : List Activation} {oldstate : Bool} {call : Call} {v : Nat}
    (place : l = .leave v) (running : s.code.running = ⟨[], .handlers h oldstate call⟩ :: rest) :
    Moves p l s (.goto (s.withCode { s.code with running := rest }) (.exitNext h oldstate call))
  | unlock {h : Handler} {rest : List Handler} {q : Nat} {oldstate : Bool} {call : Call}
    (place : l = .exitLoop oldstate call) (handlers : s.code.handlers = h :: rest)
    (routine : h.routine = .unlock q) :
    Moves p l s (.goto s (.exitUnlock h q oldstate call))
  | unlocked {h : Handler} {q : Nat} {oldstate : Bool} {call : Call}
    (place : l = .exitUnlock h q oldstate call) :
    Moves p l s (.goto (s.release (.state q)) (.exitNext h oldstate call))
  | next {h h' : Handler} {rest : List Handler} {oldstate : Bool} {call : Call}
    (place : l = .exitNext h oldstate call) (handlers : s.code.handlers = h' :: rest) :
    Moves p l s
      (.goto (s.withCode { s.code with handlers := rest }) (.exitLoop oldstate call))
  | ended {oldstate : Bool} {call : Call} (place : l = .exitLoop oldstate call)
    (handlers : s.code.handlers = []) :
    Moves p l s (.goto s (.lock (.exitRestore oldstate call)))
  | destructor {s' : Shared D V} {i : Nat} {seenOne : Bool} {call : Call}
    (place : l = .visit i seenOne call)
    (code : s'.code = { s.code with running := [⟨[], .destructor i call⟩] })
    (held : s'.held = s.held) (task : s'.task = s.task) :
    Moves p l s (.ret s' (.destructor i))
  | destroyed {rest : List Activation} {i : Nat} {call : Call} {v : Nat} (place : l = .leave v)
    (running : s.code.running = ⟨[], .destructor i call⟩ :: rest) :
    Moves p l s (.goto (s.withCode { s.code with running := rest }) (.visit (i + 1) true call))

section Cases

variable {p : Nat} {s : Shared D V}

theorem surplus_acquire {l l' : Loc D V} {k : LibLock} (hlocks : l'.locks p = k :: l.locks p)
    (k' : LibLock) :
  (s.acquire k).surplus p l' k' ≤ s.surplus p l k'
  := by
  simp only [Shared.surplus, Shared.acquire_held, hlocks, List.count_cons, Function.update_apply,
    beq_iff_eq]
  grind

/-- The lock of the function is released. -/
theorem release_le {l : Loc D V} {k : LibLock} {outer : List LibLock}
    (hlocks : l.locks p = k :: outer) (k' : LibLock) :
  (s.release k).held k' ≤ s.surplus p l k' + outer.count k'
  := by
  simp only [Shared.surplus, Shared.release_held, hlocks, List.count_cons, Function.update_apply,
    beq_iff_eq]
  grind

theorem released_le {l : Loc D V} {k : LibLock} (hlocks : l.locks p = [k]) (k' : LibLock) :
  (s.release k).held k' ≤ s.surplus p l k'
  := release_le hlocks k'

theorem surplus_release {l l' : Loc D V} {k : LibLock} (hlocks : l.locks p = k :: l'.locks p)
    (k' : LibLock) :
  (s.release k).surplus p l' k' ≤ s.surplus p l k'
  := by
  have h := release_le (s := s) hlocks k'
  rw [Shared.surplus]
  omega

theorem held_le {l : Loc D V} (hlocks : l.locks p = []) (k : LibLock) :
  s.held k ≤ s.surplus p l k
  := by
  rw [Shared.surplus, hlocks, List.count_nil, Nat.sub_zero]

theorem moves_cancelSelf :
  Moves p (.inside .cancelSelf) s (cancelSelf p (s.release (.cancel p)))
  := by
  rw [cancelSelf]
  split
  · exact .back .same rfl rfl trivial (released_le rfl)
  · rename_i hpending
    dsimp only
    split
    · rename_i hdue
      refine .exit ?_ rfl (.cancel _ true) rfl (release_le rfl)
      simp only [Shared.modify_task, Task.modify_structs, Function.update_self,
        Shared.release_task] at hdue hpending
      have hasynchronous : s.asynchronous = true := hdue.2
      simp [enters, hpending, hdue.1, hasynchronous]
    · exact .back (.cancel _ true) rfl rfl trivial (released_le rfl)

/-- The steps of the sections. -/
theorem moves_section (x : Section D) :
  Moves p (.inside x : Loc D V) s (sectionStep p (s.release (x.mutex p)) x)
  := by
  cases x with
  | setcancelstate enable => exact .back (.cancel enable _) rfl rfl trivial (released_le rfl)
  | setcanceltype asynchronous => exact .back .same rfl rfl trivial (released_le rfl)
  | testcancel =>
      simp only [sectionStep]
      split
      · rename_i hcancelled
        exact .exit hcancelled rfl .same rfl (release_le rfl)
      · exact .back .same rfl rfl trivial (released_le rfl)
  | cancelSelf => exact moves_cancelSelf
  | key x =>
      simp only [sectionStep, keyStep]
      split
      · exact .fault
      · exact .back .same rfl rfl trivial (released_le rfl)
  | other k => exact .back .same rfl rfl trivial (released_le rfl)
  | condEnter mutex =>
      simp only [sectionStep]
      split
      · rename_i hcancelled
        cases mutex with
        | none => exact .exit hcancelled rfl .same rfl (release_le rfl)
        | some q => exact .exit hcancelled rfl .same rfl (release_le rfl)
      · cases mutex with
        | none => exact .stay .same rfl rfl (.inl rfl) (surplus_release rfl)
        | some q => exact .stay .same rfl rfl (.inl rfl) (surplus_release rfl)
  | condLeave mutex oldtype =>
      cases mutex with
      | none => exact .stay .same rfl rfl (.inl rfl) (surplus_release rfl)
      | some q => exact .stay .same rfl rfl (.inl rfl) (surplus_release rfl)
  | exitDisable call => exact .stay (.cancel false _) rfl rfl (.inl rfl) (surplus_release rfl)
  | exitRestore oldstate call =>
      exact .stay (.cancel oldstate _) rfl rfl (.inl rfl) (surplus_release rfl)
  | exitState call =>
      have htask {L' : Task} {k : Reclaim.Loc}
          (h : Reclaim.exitSection p call.status s.task = .goto L' k) :
          TaskStep p (.inside (.exitState call) : Loc D V) s.task L' := .state rfl h
      simp only [sectionStep, Reclaim.exitSection, Shared.release_task] at htask ⊢
      split
      · rename_i hstate
        rw [hstate] at htask
        exact .stay (htask rfl) rfl rfl (.inr rfl) (surplus_release rfl)
      · rename_i hstate
        rw [hstate] at htask
        exact .stay (htask rfl) rfl rfl (.inr rfl) (surplus_release rfl)
      · exact .fault
      · exact .fault

theorem moves_cleanupPop (execute : Bool) :
  Moves p (.cleanupPop execute : Loc D V) s (cleanupPop s execute)
  := by
  rw [cleanupPop, popRegion]
  split
  · rename_i r regions back rest hrunning
    cases execute with
    | true => exact .execute rfl hrunning
    | false => exact .pop rfl hrunning
  · exact .spin

theorem moves_leave (v : Nat) :
  Moves p (.leave v : Loc D V) s (leave s v)
  := by
  rw [leave]
  split
  · rename_i back rest hrunning
    cases back with
    | start => exact .exit (by simp [enters, hrunning]) rfl .same rfl (held_le rfl)
    | pop r => exact .executed rfl hrunning
    | handlers h oldstate call => exact .handled rfl hrunning
    | destructor i call => exact .destroyed rfl hrunning
  · exact .spin

theorem moves_exitLoop (oldstate : Bool) (call : Call) :
  Moves p (.exitLoop oldstate call : Loc D V) s (exitLoop s oldstate call)
  := by
  rw [exitLoop]
  split
  · rename_i hhandlers
    exact .ended rfl hhandlers
  · rename_i h rest hhandlers
    split
    · rename_i hroutine
      exact .handler rfl hhandlers hroutine
    · rename_i q hroutine
      exact .unlock rfl hhandlers hroutine

theorem moves_visit (i : Nat) (seenOne : Bool) (call : Call) :
  Moves p (.visit i seenOne call : Loc D V) s (visit p s i seenOne call)
  := by
  rw [visit]
  split
  · split
    · exact .stay .same rfl rfl (.inl rfl) (fun _ => le_rfl)
    · split
      · exact .stay .same rfl rfl (.inl rfl) (fun _ => le_rfl)
      · rename_i d _ _
        cases d with
        | none => exact .stay .same rfl rfl (.inl rfl) (fun _ => le_rfl)
        | some d => exact .destructor rfl rfl rfl rfl
    · exact .fault
  · cases seenOne with
    | true => exact .stay .same rfl rfl (.inl rfl) (surplus_release rfl)
    | false => exact .stay .same rfl rfl (.inl rfl) (surplus_release rfl)

theorem moves_condRelock (mutex : Option Nat) (cancelled timeout : Bool) :
  Moves p (.condRelock mutex cancelled : Loc D V) s
    (selfStep p (.condRelock mutex cancelled) timeout s)
  := by
  simp only [selfStep]
  split
  · cases mutex with
    | none =>
        cases cancelled with
        | true => exact .exit rfl rfl .same rfl (held_le rfl)
        | false => exact .back .same rfl rfl trivial (held_le rfl)
    | some q =>
        cases cancelled with
        | true =>
            refine .exit rfl rfl .same rfl ?_
            intro k
            simp only [onMutex, Shared.withCode_held, Shared.acquire_held, Function.update_apply,
              Shared.surplus, Loc.locks, List.count_nil, Loc.place, Place.armed, List.count_cons,
              beq_iff_eq]
            grind
        | false => exact .stay .same rfl rfl (.inl rfl) (surplus_acquire rfl)
  · exact .spin

/-- The steps of the thread. -/
theorem moves (l : Loc D V) (timeout : Bool) :
  Moves p l s (selfStep p l timeout s)
  := by
  cases l with
  | lock x =>
      simp only [selfStep]
      split
      · exact .stay .same rfl rfl (.inl rfl) (surplus_acquire rfl)
      · exact .spin
  | inside x => exact moves_section x
  | cleanupPush =>
      simp only [selfStep, push]
      split
      · exact .spin
      · rename_i f rest hrunning
        exact .push rfl hrunning
  | cleanupPop execute => exact moves_cleanupPop execute
  | unlink executed r => exact .unlink rfl
  | setspecific key value create add => exact .back .same rfl rfl trivial (held_le rfl)
  | leave v => exact moves_leave v
  | exit status => exact .exit rfl rfl .same rfl (held_le rfl)
  | join q =>
      simp only [selfStep]
      split
      · exact .stay .same rfl rfl (.inl rfl) (surplus_acquire rfl)
      · exact .spin
  | joinPush q =>
      simp only [selfStep, push]
      split
      · exact .spin
      · rename_i f rest hrunning
        exact .join rfl hrunning
  | joinTest q =>
      cases timeout with
      | true => exact .stay .same rfl rfl (.inl rfl) (fun _ => le_rfl)
      | false => exact .stay .same rfl rfl (.inl rfl) (fun _ => le_rfl)
  | joinPop q =>
      simp only [selfStep, popRegion]
      split
      · rename_i r regions back rest hrunning
        exact .joinPop rfl hrunning
      · exact .spin
  | joinUnlock q => exact .back .same rfl rfl trivial (released_le rfl)
  | condUnlock mutex oldtype =>
      cases mutex with
      | none => exact .stay .same rfl rfl (.inl rfl) (fun _ => le_rfl)
      | some q => exact .stay .same rfl rfl (.inl rfl) (surplus_release rfl)
  | condBlock mutex oldtype =>
      cases mutex with
      | none => exact .stay .same rfl rfl (.inl rfl) (fun _ => le_rfl)
      | some q => exact .stay .same rfl rfl (.inl rfl) (fun _ => le_rfl)
  | condRelock mutex cancelled => exact moves_condRelock mutex cancelled timeout
  | exitLoop oldstate call => exact moves_exitLoop oldstate call
  | exitUnlock h q oldstate call => exact .unlocked rfl
  | exitNext h oldstate call =>
      simp only [selfStep]
      split
      · exact .fault
      · rename_i h' rest hhandlers
        exact .next rfl hhandlers
  | destroySpecific call =>
      simp only [selfStep]
      split
      · exact .stay .same rfl rfl (.inl rfl) (fun _ => le_rfl)
      · exact .stay .same rfl rfl (.inl rfl) (fun _ => le_rfl)
  | pass call => exact .stay .same rfl rfl (.inl rfl) (surplus_acquire rfl)
  | visit i seenOne call => exact moves_visit i seenOne call
  | exitTotal call =>
      simp only [selfStep]
      split
      · exact .stay (.total rfl) rfl rfl (.inr rfl) (fun _ => le_rfl)
      · exact .stay (.total rfl) rfl rfl (.inl rfl) (fun _ => le_rfl)
  | exitDealloc rest =>
      cases rest with
      | nil => exact .stay .same rfl rfl (.inr rfl) (fun _ => le_rfl)
      | cons st rest =>
          simp only [selfStep]
          split
          · exact .fault
          · rename_i L' hrun
            exact .stay (.stage rfl hrun) rfl rfl (.inr rfl) (fun _ => le_rfl)
  | exitHalt => exact .stay (.halt rfl) rfl rfl (.inr rfl) (fun _ => le_rfl)
  | halted => exact .spin
  | processExit => exact .spin
  | call l => exact .spin
  | cancel => exact .spin
  | cancelLock q => exact .spin
  | redirect q => exact .spin
  | keys x => exact .spin

theorem Moves.of_eq {l : Loc D V} {timeout : Bool} {o : Result D V}
    (h : selfStep p l timeout s = o) :
  Moves p l s o
  := h ▸ moves l timeout

/-- The section of `__pthread_exit` under `state_lock` does not return to the program. -/
theorem exitState_ne_ret {call : Call} {timeout : Bool} {s' : Shared D V} {r : Ret} :
  selfStep p (.inside (.exitState call)) timeout s ≠ .ret s' r
  := by
  intro h
  simp only [selfStep, sectionStep, Reclaim.exitSection] at h
  split at h <;> cases h

theorem selfStep_outside {l : Loc D V} {timeout : Bool} (h : l.place = .outside) :
  selfStep p l timeout s = .spin
  := by
  cases l with
  | lock x =>
      cases x with
      | condEnter mutex => cases mutex <;> cases h
      | condLeave mutex oldtype => cases mutex <;> cases h
      | _ => cases h
  | inside x =>
      cases x with
      | condEnter mutex => cases mutex <;> cases h
      | condLeave mutex oldtype => cases mutex <;> cases h
      | _ => cases h
  | condUnlock mutex oldtype => cases mutex <;> cases h
  | condBlock mutex oldtype => cases mutex <;> cases h
  | condRelock mutex cancelled => cases mutex <;> cases h
  | call k => rfl
  | cancel => rfl
  | cancelLock q => rfl
  | redirect q => rfl
  | keys x => rfl
  | _ => cases h

section Parts

variable {l l' : Loc D V} {s' : Shared D V} {r : Ret}

/-- What the steps do to the task. -/
theorem Moves.task_goto (h : Moves p l s (.goto s' l')) :
  TaskStep p l s.task s'.task
  := by
  cases h with
  | stay task _ _ _ _ _ => exact task
  | exit _ _ task _ _ => exact task
  | _ => exact .same

theorem Moves.task_ret (h : Moves p l s (.ret s' r)) :
  TaskStep p l s.task s'.task
  := by
  cases h with
  | back task _ _ _ _ => exact task
  | destructor _ _ _ task =>
      rw [task]
      exact .same
  | _ => exact .same

end Parts

end Cases

end Moves

section Others

variable {D V T : Type} [DecidableEq T] {u t : T} {p thread : Nat} {l l' : Loc D V}
  {s s' : Shared D V} {r : Ret}

/-- A request is made, or nothing happens to the task. -/
inductive Requests (L : Task) : Task → Prop where
  | same : Requests L L
  | pending (q : Nat) : Requests L (L.modify q fun x => { x with cancelPending := true })

/-- What a step of another thread does: it is one of `pthread_join` or `pthread_detach`, or it
leaves the code that runs and the locks alone, and at most makes a request. -/
inductive OtherMoves (u : T) (p thread : Nat) (t : T) (l : Loc D V) (s : Shared D V) :
    Result D V → Prop where
  | spin : OtherMoves u p thread t l s .spin
  | fault : OtherMoves u p thread t l s .fault
  | callGoto {k k' : Reclaim.Loc} {L' : Task} (place : l = .call k)
    (step : Reclaim.step u p thread t k s.task = .goto L' k') :
    OtherMoves u p thread t l s (.goto (s.withTask L') (.call k'))
  | callRet {k : Reclaim.Loc} {L' : Task} {r : Reclaim.Ret} (place : l = .call k)
    (step : Reclaim.step u p thread t k s.task = .ret L' r) :
    OtherMoves u p thread t l s (.ret (s.withTask L') (.call r))
  | goto {s' : Shared D V} {l' : Loc D V} (place : l.place = .outside)
    (place' : l'.place = .outside)
    (call : ∀ k, l' ≠ .call k) (task : Requests s.task s'.task) (code : s'.code = s.code)
    (held : s'.held = s.held) :
    OtherMoves u p thread t l s (.goto s' l')
  | ret {s' : Shared D V} {r : Ret} (place : l.place = .outside) (call : ∀ k, l ≠ .call k)
    (quiet : r.Quiet) (task : Requests s.task s'.task) (code : s'.code = s.code)
    (held : s'.held = s.held) :
    OtherMoves u p thread t l s (.ret s' r)

/-- The steps of the other threads. -/
theorem otherMoves {o : Result D V} (h : otherStep u p thread t l s = o) :
  OtherMoves u p thread t l s o
  := by
  subst h
  cases l with
  | call k =>
      simp only [otherStep]
      split
      · exact .spin
      · cases hstep : Reclaim.step u p thread t k s.task with
        | goto L' k' => exact .callGoto rfl hstep
        | ret L' r => exact .callRet rfl hstep
        | spin => exact .spin
        | fault => exact .fault
  | cancel =>
      simp only [otherStep]
      split
      · exact .goto rfl rfl (fun k hk => by cases hk) .same rfl rfl
      · exact .ret rfl (fun k hk => by cases hk) trivial .same rfl rfl
      · exact .fault
  | cancelLock q =>
      simp only [otherStep, cancelSection]
      split
      · exact .spin
      · split
        · exact .ret rfl (fun k hk => by cases hk) trivial .same rfl rfl
        · split
          · exact .goto rfl rfl (fun k hk => by cases hk) (.pending q) rfl rfl
          · exact .ret rfl (fun k hk => by cases hk) trivial (.pending q) rfl rfl
  | redirect q =>
      simp only [otherStep, redirect]
      split
      · exact .ret rfl (fun k hk => by cases hk) trivial .same rfl rfl
      · exact .fault
  | keys x =>
      simp only [otherStep, keyStep]
      split
      · exact .spin
      · split
        · exact .fault
        · exact .ret rfl (fun k hk => by cases hk) trivial .same rfl rfl
  | _ => exact .spin

/-- The other threads change neither the code that runs nor the locks that are held. -/
theorem other_goto_parts (h : otherStep u p thread t l s = .goto s' l') :
  l.place = .outside ∧ l'.place = .outside ∧ s'.code = s.code ∧ s'.held = s.held
  := by
  cases otherMoves h with
  | callGoto place _ =>
      subst place
      exact ⟨rfl, rfl, rfl, rfl⟩
  | goto place place' _ _ code held => exact ⟨place, place', code, held⟩

theorem other_ret_parts (h : otherStep u p thread t l s = .ret s' r) :
  l.place = .outside ∧ r.Quiet ∧ s'.code = s.code ∧ s'.held = s.held
  := by
  cases otherMoves h with
  | callRet place _ =>
      subst place
      exact ⟨rfl, trivial, rfl, rfl⟩
  | ret place _ quiet _ code held => exact ⟨place, quiet, code, held⟩

theorem entry_place (h : entry l = true) :
  l.place = .program ∨ l.place = .outside
  := by
  cases l with
  | lock x =>
      cases x with
      | condEnter mutex =>
          cases mutex with
          | none => exact .inl rfl
          | some q => cases h
      | _ => first | exact .inl rfl | cases h
  | _ => first | exact .inl rfl | exact .inr rfl | cases h

end Others

/-! ### The structure -/

section Task

variable {D V : Type} {p thread : Nat} {L L' L'' : Task}

/-- A step that does not let the thread become `PTHREAD_EXITED`, and does not change its status
once it is. -/
structure Later (p thread : Nat) (L L' : Task) : Prop where
  slot : L'.table.get thread = L.table.get thread ∨ L'.table.get thread = some .null
  thread : (L'.structs p).thread = (L.structs p).thread
  exited : (L'.structs p).state = .exited →
    (L.structs p).state = .exited ∧ (L'.structs p).status = (L.structs p).status

theorem Later.refl (L : Task) :
  Later p thread L L
  := ⟨.inl rfl, rfl, fun h => ⟨h, rfl⟩⟩

/-- A change of other fields of a structure. -/
theorem Later.modify {f : Pthread → Pthread} (q : Nat) (hthread : ∀ x, (f x).thread = x.thread)
    (hstate : ∀ x, (f x).state = x.state) (hstatus : ∀ x, (f x).status = x.status) :
  Later p thread L (L.modify q f)
  := by
  refine ⟨.inl rfl, ?_, ?_⟩
  · exact Task.modify_part Pthread.thread hthread L q p
  · rw [Task.modify_part Pthread.state hstate L q p, Task.modify_part Pthread.status hstatus L q p]
    exact fun h => ⟨h, rfl⟩

theorem Later.stage {st : Stage} (hthread : (L.structs p).thread = thread)
    (h : st.run L p = some L') :
  Later p thread L L'
  := by
  have heffect := Stage.run_effect hthread h
  refine ⟨heffect.slot, heffect.thread, fun hexited => ?_⟩
  have hstate := heffect.state
  rw [hexited] at hstate
  split at hstate
  · cases hstate
  · exact ⟨hstate.symm, heffect.status⟩

/-- The steps of the thread but for the section of `__pthread_exit`. -/
theorem TaskStep.later {l : Loc D V} (h : TaskStep p l L L')
    (hthread : (L.structs p).thread = thread)
    (hl : ∀ call, l ≠ .inside (.exitState call)) :
  Later p thread L L'
  := by
  cases h with
  | same => exact .refl L
  | cancel enabled pending =>
      exact .modify p (fun _ => rfl) (fun _ => rfl) (fun _ => rfl)
  | total place => exact ⟨.inl rfl, rfl, fun h => ⟨h, rfl⟩⟩
  | stage place run => exact .stage hthread run
  | state place leaves => exact absurd place (hl _)
  | halt place => exact ⟨.inl rfl, rfl, fun h => ⟨h, rfl⟩⟩

end Task

/-! ### The calls of the other threads -/

section Others

variable {T D V : Type} [DecidableEq T] {P P' : Option Status → Prop} {u t : T} {p thread : Nat}
  {L L' : Task} {k k' : Reclaim.Loc}

/-- The control points of the threads that join and detach the thread on the structure `p`; `P`
holds of what they return when they have found it `PTHREAD_EXITED`. -/
inductive Awaits (P : Option Status → Prop) (p : Nat) : Reclaim.Loc → Prop where
  | join : Awaits P p .join
  | joinLock : Awaits P p (.joinLock p)
  | joinWait (seen : Nat) : Awaits P p (.joinWait p seen)
  | detach : Awaits P p .detach
  | detachLock : Awaits P p (.detachLock p)
  | reclaim (rest : List Stage) (status : Option Status) (exited : P status) :
    Awaits P p (.reclaim p rest (.success status))

theorem Awaits.mono (h : Awaits P p k) (hP : ∀ x, P x → P' x) :
  Awaits P' p k
  := by
  cases h with
  | join => exact .join
  | joinLock => exact .joinLock
  | joinWait seen => exact .joinWait seen
  | detach => exact .detach
  | detachLock => exact .detachLock
  | reclaim rest status exited => exact .reclaim rest status (hP _ exited)

/-- The structure and its entry are those of the thread; `P` holds of its status, or of none, if
it is `PTHREAD_EXITED`. -/
structure Sound (P : Option Status → Prop) (p thread : Nat) (L : Task) : Prop where
  slot : L.table.get thread = some (.entry p) ∨ L.table.get thread = some .null
  thread : (L.structs p).thread = thread
  exited : (L.structs p).state = .exited → P none ∧ P (some (L.structs p).status)

theorem Sound.mono (h : Sound P p thread L) (hP : ∀ x, P x → P' x) :
  Sound P' p thread L
  := ⟨h.slot, h.thread, fun hexited => (h.exited hexited).imp (hP _) (hP _)⟩

theorem Sound.later (h : Sound P p thread L) (hlater : Later p thread L L') :
  Sound P p thread L'
  := by
  constructor
  · obtain hslot | hslot := hlater.slot
    · rw [hslot]
      exact h.slot
    · exact .inr hslot
  · rw [hlater.thread, h.thread]
  · intro hexited
    obtain ⟨hbefore, hstatus⟩ := hlater.exited hexited
    rw [hstatus]
    exact h.exited hbefore

theorem Awaits.goto (hk : Awaits P p k) (hL : Sound P p thread L)
    (h : Reclaim.step u p thread t k L = .goto L' k') :
  Later p thread L L' ∧ Awaits P p k'
  := by
  cases hk with
  | join =>
      simp only [Reclaim.step, Reclaim.lookup] at h
      obtain hslot | hslot := hL.slot
      · rw [hslot] at h
        cases h
        exact ⟨.refl L, .joinLock⟩
      · rw [hslot] at h
        cases h
  | detach =>
      simp only [Reclaim.step, Reclaim.lookup] at h
      obtain hslot | hslot := hL.slot
      · rw [hslot] at h
        cases h
        exact ⟨.refl L, .detachLock⟩
      · rw [hslot] at h
        cases h
  | joinLock =>
      simp only [Reclaim.step, Reclaim.joinSection] at h
      split at h
      · cases h
        exact ⟨.refl L, .joinWait _⟩
      · rename_i hexited
        cases h
        exact ⟨.refl L, .reclaim _ _ (hL.exited hexited).2⟩
      · cases h
      · cases h
  | detachLock =>
      simp only [Reclaim.step, Reclaim.detachSection] at h
      split at h
      · cases h
      · rename_i hexited
        cases h
        exact ⟨.refl L, .reclaim _ _ (hL.exited hexited).1⟩
      · cases h
      · cases h
  | joinWait seen =>
      simp only [Reclaim.step] at h
      split at h
      · cases h
      · cases h
        exact ⟨.refl L, .joinLock⟩
  | reclaim rest status hexited =>
      cases rest with
      | nil => cases h
      | cons st rest =>
          simp only [Reclaim.step] at h
          split at h
          · cases h
          · rename_i L₁ hrun
            cases h
            exact ⟨.stage hL.thread hrun, .reclaim rest status hexited⟩

theorem Awaits.ret {r : Reclaim.Ret} (hk : Awaits P p k) (hL : Sound P p thread L)
    (h : Reclaim.step u p thread t k L = .ret L' r) :
  Later p thread L L' ∧ ∀ status, r = .success (some status) → P (some status)
  := by
  cases hk with
  | join =>
      simp only [Reclaim.step, Reclaim.lookup] at h
      obtain hslot | hslot := hL.slot
      · rw [hslot] at h
        cases h
      · rw [hslot] at h
        cases h
        exact ⟨.refl L, fun status hr => by cases hr⟩
  | detach =>
      simp only [Reclaim.step, Reclaim.lookup] at h
      obtain hslot | hslot := hL.slot
      · rw [hslot] at h
        cases h
      · rw [hslot] at h
        cases h
        exact ⟨.refl L, fun status hr => by cases hr⟩
  | joinLock =>
      simp only [Reclaim.step, Reclaim.joinSection] at h
      split at h
      · cases h
      · cases h
      · cases h
        exact ⟨.refl L, fun status hr => by cases hr⟩
      · cases h
        exact ⟨.refl L, fun status hr => by cases hr⟩
  | detachLock =>
      simp only [Reclaim.step, Reclaim.detachSection] at h
      split at h
      · cases h
        refine ⟨⟨.inl rfl, ?_, ?_⟩, fun status hr => by cases hr⟩
        · simp [Task.broadcast]
        · simp [Task.broadcast]
      · cases h
      · cases h
        exact ⟨.refl L, fun status hr => by cases hr⟩
      · cases h
        exact ⟨.refl L, fun status hr => by cases hr⟩
  | joinWait seen =>
      simp only [Reclaim.step] at h
      split at h
      · cases h
      · cases h
  | reclaim rest status hexited =>
      cases rest with
      | nil =>
          cases h
          refine ⟨.refl L, fun x hx => ?_⟩
          cases hx
          exact hexited
      | cons st rest =>
          simp only [Reclaim.step] at h
          split at h
          · cases h
          · cases h

section Step

variable {l l' : Loc D V} {s s' : Shared D V} {r : Ret}

theorem Requests.later (h : Requests L L') :
  Later p thread L L'
  := by
  cases h with
  | same => exact .refl L
  | pending q => exact .modify q (fun _ => rfl) (fun _ => rfl) (fun _ => rfl)

theorem other_goto (hs : Sound P p thread s.task) (hl : ∀ k, l = .call k → Awaits P p k)
    (h : otherStep u p thread t l s = .goto s' l') :
  Later p thread s.task s'.task ∧ ∀ k, l' = .call k → Awaits P p k
  := by
  cases otherMoves h with
  | callGoto place step =>
      obtain ⟨hlater, hawaits⟩ := (hl _ place).goto hs step
      refine ⟨hlater, fun k hk => ?_⟩
      cases hk
      exact hawaits
  | goto _ _ call task _ _ => exact ⟨task.later, fun k hk => absurd hk (call k)⟩

theorem other_ret (hs : Sound P p thread s.task) (hl : ∀ k, l = .call k → Awaits P p k)
    (h : otherStep u p thread t l s = .ret s' r) :
  Later p thread s.task s'.task ∧
    ∀ k status, l = .call k → r = .call (.success (some status)) → P (some status)
  := by
  cases otherMoves h with
  | callRet place step =>
      obtain ⟨hlater, hexited⟩ := (hl _ place).ret hs step
      refine ⟨hlater, fun k status _ hr => ?_⟩
      cases hr
      exact hexited status rfl
  | ret _ call _ task _ _ => exact ⟨task.later, fun k status hk => absurd hk (call k)⟩

end Step

end Others

end LibPthread.Thread.Exit
