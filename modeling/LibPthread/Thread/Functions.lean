import LibPthread.Thread.Reclaim
import LibPthread.Thread.Table

/-!
# Creation, exit, join and detach

Whole calls of `pthread_create`, `pthread_exit`, `pthread_join` and `pthread_detach`, one
after the other. A creation asks `malloc`, the kernel and the run-time linker, whose answers
are arguments; the system-dependent functions `__pthread_setup`, `__pthread_sigstate_init`
and `__pthread_thread_start` may return an error, or fail an assertion, as those of Mach do
when a kernel call fails. The signal mask of a new thread is not part of the model.

A call that terminates the kernel thread it runs on goes no further: its `halted` state is
the one the other threads go on with.
-/

open Concurrency

namespace LibPthread.Thread

/-- How a function ends: it returns, the kernel thread of its caller has been terminated, or an
assertion fails or memory is used that is not there. -/
inductive Exec (α : Type) where
  | ret (L : Task) (r : α)
  | halted (L : Task)
  | fault

namespace Exec

variable {α β : Type}

/-- Goes on with `k` after a return. -/
def bind (x : Exec α) (k : Task → α → Exec β) : Exec β :=
  match x with
  | .ret L r => k L r
  | .halted L => .halted L
  | .fault => .fault

@[simp]
theorem ret_bind (L : Task) (r : α) (k : Task → α → Exec β) :
  (Exec.ret L r).bind k = k L r
  := rfl

@[simp]
theorem halted_bind (L : Task) (k : Task → α → Exec β) :
  (Exec.halted L : Exec α).bind k = .halted L
  := rfl

@[simp]
theorem fault_bind (k : Task → α → Exec β) :
  (Exec.fault : Exec α).bind k = .fault
  := rfl

/-- The state the other threads go on with. -/
def task? : Exec α → Option Task
  | .ret L _ => some L
  | .halted L => some L
  | .fault => none

/-- The function whose result is missing accesses memory that is not there. -/
def ofOption (x : Option Task) (r : α) : Exec α :=
  match x with
  | none => .fault
  | some L => .ret L r

@[simp]
theorem ofOption_some (L : Task) (r : α) :
  ofOption (some L) r = .ret L r
  := rfl

end Exec

/-- The answer of a system-dependent function. -/
inductive Sysdep where
  | ok
  | error (e : Errno)
  | fault
  deriving DecidableEq, Repr

/-- The answers to one creation; `structMalloc` are the contents of the memory that `malloc`
returns for the structure, and `tableMalloc` answers for the memory of a larger table. -/
structure Answers where
  structMalloc : Option Pthread
  tableMalloc : Bool
  vmAllocate : Bool
  portAllocate : Bool
  insertRight : Bool
  threadCreate : Bool
  allocateTls : Bool
  setup : Sysdep
  sigstateInit : Sysdep
  start : Sysdep
  deriving DecidableEq, Repr

/-- Everything succeeds, and the memory of the structure holds zeros; for the examples. -/
def allGranted : Answers :=
  ⟨some zeroed, true, true, true, true, true, true, .ok, .ok, .ok⟩

namespace Kernel

variable (K : Kernel)

/-- `thread_create`. -/
@[simps]
def newThread : Kernel :=
  { K with threads := K.threads.issue }

/-- `mach_port_allocate`. -/
@[simps]
def newPort : Kernel :=
  { K with ports := K.ports.issue }

/-- `vm_allocate` of a stack. -/
@[simps]
def newStack : Kernel :=
  { K with vmStacks := K.vmStacks.issue }

/-- `_dl_allocate_tls`. -/
@[simps]
def newTls : Kernel :=
  { K with tls := K.tls.issue }

/-- `vm_protect`, which takes all rights from the pages that the first `guardsize` bytes of the
stack touch. -/
@[simps]
def protect (stackaddr : Stackaddr) (guardsize : Nat) : Kernel :=
  { K with inaccessible := fun j page =>
    K.inaccessible j page || (stackaddr = .allocated j && page * K.pageSize < guardsize) }

end Kernel

namespace Task

/-- Replaces the kernel. -/
def setKernel (L : Task) (K : Kernel) : Task :=
  { L with kernel := K }

/-! ### The steps of a creation -/

/-- `__pthread_thread_halt (thread)`, called by a thread that runs on the kernel thread
`self`. -/
def halt (L : Task) (self p : Nat) : Exec Unit :=
  if (L.structs p).kernelThread = self then .halted (L.threadHalt p)
  else .ret (L.threadHalt p) ()

/-- `__pthread_alloc`. -/
def alloc (L : Task) (self : Nat) (a : Answers) : Exec (Except Errno Nat) :=
  match L.takeFree with
  | some (p, L) =>
    (L.halt self p).bind fun L _ => .ret ((L.dropTls p).initializePthread p true) (.ok p)
  | none =>
    match a.structMalloc with
    | none => .ret L (.error .ENOMEM)
    | some junk =>
      let L' := (L.malloc junk).initializePthread L.heap false
      if L'.table.num < L'.table.max then .ofOption (L'.takeSlot L.heap) (.ok L.heap)
      else if a.tableMalloc then .ofOption (L'.growTable L.heap) (.ok L.heap)
      else .ret L' (.error .ENOMEM)

/-- `__pthread_stack_alloc`. -/
def stackAlloc (L : Task) (stacksize : Nat) (a : Answers) : Except Errno (Nat × Task) :=
  if stacksize ≠ L.defaultStacksize then .error .EINVAL
  else if a.vmAllocate then
    .ok (L.kernel.vmStacks.count, L.setKernel L.kernel.newStack)
  else .error .EAGAIN

/-- The part of `__pthread_create_internal` that finds a stack. -/
def findStack (L : Task) (p : Nat) (setup : Attr) (a : Answers) : Except Errno Task :=
  if (L.structs p).stack then
    match setup.stackaddr with
    | none => .ok L
    | some addr =>
      .ok ((L.stackDealloc p).modify p fun q =>
        { q with stackaddr := .user addr, stacksize := setup.stacksize })
  else
    match L.stackAlloc setup.stacksize a with
    | .error e => .error e
    | .ok (k, L) =>
      .ok (L.modify p fun q =>
        { q with stackaddr := .allocated k, stacksize := setup.stacksize, stack := true })

/-- `create_wakeupmsg`; the result is `false` for `EAGAIN`. -/
def createWakeupmsg (L : Task) (p : Nat) (a : Answers) : Task × Bool :=
  if a.portAllocate then
    let L' := (L.setKernel L.kernel.newPort).modify p fun q =>
      { q with wakeupPort := L.kernel.ports.count }
    -- the port is destroyed as in `__pthread_thread_dealloc`
    if a.insertRight then (L', true) else (L'.threadDealloc p, false)
  else (L, false)

/-- `__pthread_thread_alloc`, called by a thread that runs on the kernel thread `self`. -/
def threadAlloc (L : Task) (self p : Nat) (a : Answers) : Exec (Option Errno) :=
  if (L.structs p).haveKernelResources then .ret L none
  else
    match L.createWakeupmsg p a with
    | (L, false) => .ret L (some .EAGAIN)
    | (L, true) =>
      if L.table.num = 1 then
        if L.total = 0 then
          .ret (L.modify p fun q =>
            { q with kernelThread := self, haveKernelResources := true }) none
        else .fault
      else if a.threadCreate then
        .ret ((L.setKernel L.kernel.newThread).modify p fun q =>
          { q with kernelThread := L.kernel.threads.count, haveKernelResources := true }) none
      else .ret L (some .EAGAIN)

/-- `pthread->tcb = _dl_allocate_tls (NULL)`, which succeeds. -/
def allocateTls (L : Task) (p : Nat) : Task :=
  (L.setKernel L.kernel.newTls).modify p fun q => { q with tcb := some L.kernel.tls.count }

/-- The call of `vm_protect` in `stack_setup`. -/
def protect (L : Task) (p : Nat) : Task :=
  L.setKernel (L.kernel.protect (L.structs p).stackaddr (L.structs p).guardsize)

/-- `__pthread_thread_start`, called by a thread that runs on the kernel thread `self`. -/
def threadStart (L : Task) (self p : Nat) (a : Answers) : Exec (Option Errno) :=
  if L.table.num = 1 ∧ ¬ (L.total = 1 ∧ (L.structs p).kernelThread = self) then .fault
  else
    match a.start with
    | .ok => .ret L none
    | .error e => .ret L (some e)
    | .fault => .fault

/-! ### The labels of a failed creation

Every label falls through to the one defined before it. `err` is the value that will be
returned, and `none` if it is `0`. -/

/-- From the label `failed_stack_alloc` on. -/
def failedStackAlloc (L : Task) (p : Nat) (err : Option Errno) : Exec (Option Errno) :=
  .ofOption (Stage.runAll p Stage.dealloc L) err

/-- From the label `failed_thread_alloc` on. -/
def failedThreadAlloc (L : Task) (p : Nat) (err : Option Errno) : Exec (Option Errno) :=
  ((L.stackDealloc p).modify p fun q => { q with stack := false }).failedStackAlloc p err

/-- From the label `failed_thread_tls_alloc` on. -/
def failedThreadTlsAlloc (L : Task) (self p : Nat) (err : Option Errno) :
    Exec (Option Errno) :=
  ((L.threadDealloc p).halt self p).bind fun L _ => L.failedThreadAlloc p err

/-- From the label `failed_setup` on. -/
def failedSetup (L : Task) (self p : Nat) (err : Option Errno) : Exec (Option Errno) :=
  (L.dropTls p).failedThreadTlsAlloc self p err

/-- From the label `failed_sigstate` on; `__pthread_sigstate_destroy` does nothing. -/
def failedSigstate (L : Task) (self p : Nat) (err : Option Errno) : Exec (Option Errno) :=
  L.failedSetup self p err

/-- From the label `failed_starting` on. -/
def failedStarting (L : Task) (self p : Nat) (err : Option Errno) : Exec (Option Errno) :=
  match L.unpublish p with
  | none => .fault
  | some L => { L with total := L.total - 1 }.failedSigstate self p err

/-! ### The functions -/

/-- How the part of `__pthread_create_internal` before `__pthread_thread_start` ends: the
thread on the structure `p` is to be started, or the creation has failed. -/
inductive Prepared where
  | start (p : Nat)
  | failed (err : Option Errno)
  deriving DecidableEq, Repr

/-- A failed creation. -/
def fail (x : Exec (Option Errno)) : Exec Prepared :=
  x.bind fun L err => .ret L (.failed err)

/-- From the allocation of the block for thread-local storage to the call of
`__pthread_thread_start`; `err` is 0 when that allocation fails. -/
def prepareTls (L : Task) (self p : Nat) (a : Answers) : Exec Prepared :=
  if a.allocateTls then
    let L := (L.allocateTls p).protect p
    match a.setup with
    | .fault => .fault
    | .error e => fail (L.failedSetup self p (some e))
    | .ok =>
      match a.sigstateInit with
      | .fault => .fault
      | .error e => fail (L.failedSigstate self p (some e))
      | .ok => .ofOption ({ L with total := L.total + 1 }.publish p) (.start p)
  else fail (L.failedThreadTlsAlloc self p none)

/-- From the allocation of the kernel thread to the call of `__pthread_thread_start`. -/
def prepareKernel (L : Task) (self p : Nat) (a : Answers) : Exec Prepared :=
  (L.threadAlloc self p a).bind fun L err =>
  match err with
  | some e => fail (L.failedThreadAlloc p (some e))
  | none => L.prepareTls self p a

/-- `__pthread_create_internal` up to the call of `__pthread_thread_start`, by a thread that
runs on the kernel thread `self`. -/
def prepare (L : Task) (self : Nat) (attr : Option Attr) (a : Answers) : Exec Prepared :=
  (L.alloc self a).bind fun L r =>
  match r with
  | .error e => .ret L (.failed (some e))
  | .ok p =>
    let setup := attr.getD L.defaultAttr
    let L := L.initThread p setup
    match L.findStack p setup a with
    | .error e => fail (L.failedStackAlloc p (some e))
    | .ok L => L.prepareKernel self p a

/-- From the call of `__pthread_thread_start` to the end of `__pthread_create_internal`. -/
def finish (self : Nat) (a : Answers) (L : Task) : Prepared → Exec (Option Errno × Option Nat)
  | .failed err => .ret L (err, none)
  | .start p =>
    (L.threadStart self p a).bind fun L err =>
    match err with
    | none => .ret L (none, some p)
    | some e => (L.failedStarting self p (some e)).bind fun L err => .ret L (err, some p)

/-- `__pthread_create_internal`: the value returned, and the structure stored in `*thread`. -/
def createInternal (L : Task) (self : Nat) (attr : Option Attr) (a : Answers) :
    Exec (Option Errno × Option Nat) :=
  (L.prepare self attr a).bind (finish self a)

/-- The results of `pthread_create`: `0` with the ID stored in `*thread`, `0` where the ID was
read through a pointer that was never assigned, or an error. -/
inductive Created where
  | success (thread : Nat)
  | unassigned
  | error (e : Errno)
  deriving DecidableEq, Repr

/-- `pthread_create`. -/
def pthreadCreate (L : Task) (self : Nat) (attr : Option Attr) (a : Answers) : Exec Created :=
  (L.createInternal self attr a).bind fun L r =>
  match r with
  | (none, some p) => .ret L (.success (L.structs p).thread)
  | (none, none) => .ret L .unassigned
  | (some e, _) => .ret L (.error (if e = .ENOMEM then .EAGAIN else e))

/-- What is left of a call on the structure `p` after its section under `state_lock`, when no
other thread runs. -/
def complete (p : Nat) : Outcome Task Reclaim.Loc Reclaim.Ret → Option Task
  | .ret L _ => some L
  | .goto L (.reclaim p rest _) => Stage.runAll p rest L
  | .goto L (.exitDealloc rest) => (Stage.runAll p rest L).map fun L => L.threadHalt p
  | .goto L .exitHalt => some (L.threadHalt p)
  | _ => none

/-- `pthread_exit`, called by the thread on the structure `p`; the last thread ends the
program. -/
def pthreadExit (L : Task) (p : Nat) (status : Status) : Option Task :=
  if L.total - 1 = 0 then none
  else complete p (Reclaim.exitSection p status { L with total := L.total - 1 })

/-- `pthread_join`, when the thread has exited or cannot be joined. -/
def join (L : Task) (thread : Nat) : Option Task :=
  match L.table.get thread with
  | some (.entry p) => complete p (Reclaim.joinSection p L)
  | some .null => some L
  | _ => none

/-- `pthread_detach`. -/
def detach (L : Task) (thread : Nat) : Option Task :=
  match L.table.get thread with
  | some (.entry p) => complete p (Reclaim.detachSection p L)
  | some .null => some L
  | _ => none

end Task

end LibPthread.Thread
