import LibPthread.Concurrency.Ledger
import LibPthread.Types

/-!
# Thread structures

The thread structures `struct __pthread`, the thread ID lookup table, the list of free
structures, and the kernel resources of the threads, with the helper functions that create
and release one of them. The memory of the structures is a map from addresses; `heap`
counts the structures `malloc` has returned, whose addresses are `0, 1, …`.

A stack is known by where it comes from: an address supplied with an attribute, or the
serial number of the call of `__pthread_stack_alloc` that returned it. Pages are counted
from the bottom of a stack. The words written on a new stack are not part of the model.

Reclaiming a thread is a list of stages, so that a call that runs them one after the other
and a thread that is interrupted between them execute the same definitions.
-/

open Concurrency

namespace LibPthread.Thread

/-- `enum pthread_state`. -/
inductive PthreadState where
  | joinable
  | detached
  | exited
  | terminated
  deriving DecidableEq, Repr

/-- The memory a stack lies in. -/
inductive Stackaddr where
  | user (a : Nat)
  | allocated (k : Nat)
  deriving DecidableEq, Repr

/-- The value a thread exits with; `canceled` is `PTHREAD_CANCELED`. -/
inductive Status where
  | value (v : Nat)
  | canceled
  deriving DecidableEq, Repr

/-- `struct __pthread_attr`; `detached` when `detachstate` is `PTHREAD_CREATE_DETACHED`, and
`stackaddr` is `none` for `NULL`. -/
structure Attr where
  detached : Bool
  stackaddr : Option Nat
  stacksize : Nat
  guardsize : Nat
  deriving DecidableEq, Repr

/-- `struct __pthread`. `stateCond` counts the broadcasts of the condition, and `wakeupPort`
is the remote port of the wakeup message. -/
structure Pthread where
  thread : Nat
  cancelEnabled : Bool
  cancelPending : Bool
  stackaddr : Stackaddr
  stacksize : Nat
  guardsize : Nat
  stack : Bool
  status : Status
  state : PthreadState
  stateCond : Nat
  kernelThread : Nat
  wakeupPort : Nat
  haveKernelResources : Bool
  tcb : Option Nat
  deriving DecidableEq, Repr

/-- A structure in memory that holds zeros, for the examples. -/
def zeroed : Pthread where
  thread := 0
  cancelEnabled := false
  cancelPending := false
  stackaddr := .user 0
  stacksize := 0
  guardsize := 0
  stack := false
  status := .value 0
  state := .joinable
  stateCond := 0
  kernelThread := 0
  wakeupPort := 0
  haveKernelResources := false
  tcb := none

/-- An attribute for joinable threads with stacks of 4 pages, for the examples. -/
def plainAttr : Attr :=
  ⟨false, none, 16384, 4096⟩

/-! ### The lookup table -/

/-- An entry of the lookup table: memory that was never written, `NULL`, or a pointer to a
structure. -/
inductive Slot where
  | unwritten
  | null
  | entry (p : Nat)
  deriving DecidableEq, Repr

/-- `__pthread_threads`, `__pthread_max_threads` and `__pthread_num_threads`. -/
structure Table where
  threads : List Slot
  max : Nat
  num : Nat
  deriving DecidableEq, Repr

namespace Table

/-- `__pthread_threads[thread - 1]`, if it is an entry of the table. -/
def get (t : Table) (thread : Nat) : Option Slot :=
  if thread = 0 then none else t.threads[thread - 1]?

/-- `__pthread_threads[thread - 1] = e`, if it is an entry of the table. -/
def set (t : Table) (thread : Nat) (e : Slot) : Option Table :=
  if 1 ≤ thread ∧ thread ≤ t.threads.length then
    some { t with threads := t.threads.set (thread - 1) e }
  else none

/-- `new->thread = 1 + __pthread_num_threads++` and the store of `NULL` in the new entry. -/
def take (t : Table) : Option Table :=
  { t with num := t.num + 1 }.set (1 + t.num) .null

/-- The size of the table that replaces one of size `max_threads`; the constant is
`_POSIX_THREAD_THREADS_MAX`. -/
def newMax (max_threads : Nat) : Nat :=
  if max_threads > 0 then max_threads * 2 else 64

/-- The table copied to newly allocated memory of the given size. -/
def enlarge (t : Table) (new_max_threads : Nat) : Table where
  threads := t.threads.take t.max ++ List.replicate (new_max_threads - t.max) .unwritten
  max := new_max_threads
  num := t.num

end Table

/-! ### The task -/

/-- What the kernel and the run-time linker have handed out. Kernel thread `0` is the one the
program starts with; `userDeallocs` are the addresses of attributes that were given to
`vm_deallocate`; `inaccessible k p` when page `p` of the stack `k` has no access rights. -/
structure Kernel where
  pageSize : Nat
  threads : Ledger
  ports : Ledger
  vmStacks : Ledger
  userDeallocs : List Nat
  inaccessible : Nat → Nat → Bool
  tls : Ledger

/-- The state of the library and of the kernel resources of its task. -/
structure Task where
  defaultStacksize : Nat
  defaultGuardsize : Nat
  table : Table
  freeThreads : List Nat
  heap : Nat
  structs : Nat → Pthread
  total : Int
  kernel : Kernel

namespace Task

/-- The library before the first thread is created. -/
def boot (stacksize guardsize pageSize : Nat) (memory : Nat → Pthread) : Task where
  defaultStacksize := stacksize
  defaultGuardsize := guardsize
  table := ⟨[], 0, 0⟩
  freeThreads := []
  heap := 0
  structs := memory
  total := 0
  kernel :=
    { pageSize := pageSize
      threads := Ledger.start 1
      ports := Ledger.start 0
      vmStacks := Ledger.start 0
      userDeallocs := []
      inaccessible := fun _ _ => false
      tls := Ledger.start 0 }

/-- Changes the structure `p`. -/
@[simps]
def modify (L : Task) (p : Nat) (f : Pthread → Pthread) : Task :=
  { L with structs := Function.update L.structs p (f (L.structs p)) }

/-- A change that keeps a part of the structure keeps that part of every structure. -/
theorem modify_part {α : Type} {f : Pthread → Pthread} (part : Pthread → α)
    (hf : ∀ r, part (f r) = part r) (L : Task) (p q : Nat) :
  part ((L.modify p f).structs q) = part (L.structs q)
  := by
  rw [modify_structs, Function.update_apply]
  split
  · rename_i hq
    rw [hf, hq]
  · rfl

/-- `__pthread_default_attr`. -/
def defaultAttr (L : Task) : Attr where
  detached := false
  stackaddr := none
  stacksize := L.defaultStacksize
  guardsize := L.defaultGuardsize

/-- `__pthread_thread_halt (thread)`. -/
@[simps]
def threadHalt (L : Task) (p : Nat) : Task :=
  { L with kernel :=
    { L.kernel with threads := L.kernel.threads.release (L.structs p).kernelThread } }

/-- `__pthread_thread_dealloc (thread)`. -/
@[simps]
def threadDealloc (L : Task) (p : Nat) : Task :=
  { L with kernel :=
    { L.kernel with ports := L.kernel.ports.release (L.structs p).wakeupPort } }

/-- `__pthread_stack_dealloc (pthread->stackaddr, pthread->stacksize)`. -/
def stackDealloc (L : Task) (p : Nat) : Task :=
  match (L.structs p).stackaddr with
  | .user a =>
    { L with kernel := { L.kernel with userDeallocs := a :: L.kernel.userDeallocs } }
  | .allocated k =>
    { L with kernel := { L.kernel with vmStacks := L.kernel.vmStacks.release k } }

/-- `_dl_deallocate_tls (pthread->tcb, 1)` and `pthread->tcb = NULL`, if there is a block. -/
def dropTls (L : Task) (p : Nat) : Task :=
  match (L.structs p).tcb with
  | none => L
  | some b =>
    { L.modify p fun q => { q with tcb := none } with
      kernel := { L.kernel with tls := L.kernel.tls.release b } }

section DropTls

variable (L : Task) (p : Nat)

@[simp]
theorem dropTls_table :
  (L.dropTls p).table = L.table
  := by
  rw [dropTls]
  split <;> rfl

@[simp]
theorem dropTls_freeThreads :
  (L.dropTls p).freeThreads = L.freeThreads
  := by
  rw [dropTls]
  split <;> rfl

@[simp]
theorem dropTls_heap :
  (L.dropTls p).heap = L.heap
  := by
  rw [dropTls]
  split <;> rfl

theorem dropTls_part {α : Type} (part : Pthread → α)
    (hf : ∀ r : Pthread, part { r with tcb := none } = part r) (q : Nat) :
  part ((L.dropTls p).structs q) = part (L.structs q)
  := by
  rw [dropTls]
  split
  · rfl
  · apply modify_part part hf

end DropTls

/-- The loop of `__pthread_alloc` under `__pthread_free_threads_lock`: the first free
structure that is `PTHREAD_TERMINATED` is dequeued. -/
def takeFree (L : Task) : Option (Nat × Task) :=
  match L.freeThreads.find? fun p => (L.structs p).state = .terminated with
  | none => none
  | some p => some (p, { L with freeThreads := L.freeThreads.erase p })

/-- `malloc (sizeof (struct __pthread))`, returning memory with the contents `junk`. -/
@[simps]
def malloc (L : Task) (junk : Pthread) : Task :=
  { L with heap := L.heap + 1, structs := Function.update L.structs L.heap junk }

/-- `initialize_pthread (new, recycling)`: `__pthread_init_specific` always succeeds. -/
def initializePthread (L : Task) (p : Nat) (recycling : Bool) : Task :=
  let L' := L.modify p fun q => { q with cancelEnabled := true, cancelPending := false }
  if recycling then L'
  else L'.modify p fun q => { q with stack := false, stateCond := 0, tcb := none }

section InitializePthread

variable (L : Task) (p : Nat) (recycling : Bool)

@[simp]
theorem initializePthread_table :
  (L.initializePthread p recycling).table = L.table
  := by
  cases recycling <;> rfl

@[simp]
theorem initializePthread_freeThreads :
  (L.initializePthread p recycling).freeThreads = L.freeThreads
  := by
  cases recycling <;> rfl

@[simp]
theorem initializePthread_heap :
  (L.initializePthread p recycling).heap = L.heap
  := by
  cases recycling <;> rfl

/-- The initialization keeps what it does not assign. -/
theorem initializePthread_part {α : Type} (part : Pthread → α)
    (hcancel : ∀ r : Pthread,
      part { r with cancelEnabled := true, cancelPending := false } = part r)
    (hfresh : ∀ r : Pthread,
      recycling = false → part { r with stack := false, stateCond := 0, tcb := none } = part r)
    (q : Nat) :
  part ((L.initializePthread p recycling).structs q) = part (L.structs q)
  := by
  cases recycling with
  | true => apply modify_part part hcancel
  | false =>
      rw [initializePthread, if_neg (by decide), modify_part part (fun r => hfresh r rfl),
        modify_part part hcancel]

end InitializePthread

/-- A free slot is taken for the structure `p`, whose ID becomes the slot number plus one. -/
def takeSlot (L : Task) (p : Nat) : Option Task :=
  L.table.take.map fun t =>
    { L.modify p fun q => { q with thread := 1 + L.table.num } with table := t }

/-- Taking a slot changes the table and one identifier. -/
theorem takeSlot_frame {L L' : Task} {p : Nat} (h : L.takeSlot p = some L') :
  L'.freeThreads = L.freeThreads ∧ L'.heap = L.heap ∧ L'.total = L.total ∧
    L'.kernel = L.kernel
  := by
  obtain ⟨t, -, rfl⟩ := Option.map_eq_some_iff.mp h
  exact ⟨rfl, rfl, rfl, rfl⟩

theorem takeSlot_part {L L' : Task} {p : Nat} (h : L.takeSlot p = some L') {α : Type}
    (part : Pthread → α) (hf : ∀ (r : Pthread) n, part { r with thread := n } = part r) (q : Nat) :
  part (L'.structs q) = part (L.structs q)
  := by
  obtain ⟨t, -, rfl⟩ := Option.map_eq_some_iff.mp h
  apply modify_part part (fun r => hf r _)

/-- The table is replaced by an enlarged one, and one of the new slots is taken. -/
def growTable (L : Task) (p : Nat) : Option Task :=
  takeSlot { L with table := L.table.enlarge (Table.newMax L.table.max) } p

/-- The first assignments of `__pthread_create_internal` to the structure, according to the
attribute `setup`. -/
def initThread (L : Task) (p : Nat) (setup : Attr) : Task :=
  L.modify p fun q =>
    { q with
      state := if setup.detached then .detached else .joinable
      guardsize := if setup.stackaddr.isSome then 0
        else if setup.guardsize ≤ setup.stacksize then setup.guardsize else setup.stacksize }

/-- The store of the structure in the lookup table. -/
def publish (L : Task) (p : Nat) : Option Task :=
  (L.table.set (L.structs p).thread (.entry p)).map fun t => { L with table := t }

/-- `__pthread_setid (pthread->thread, NULL)`. -/
def unpublish (L : Task) (p : Nat) : Option Task :=
  (L.table.set (L.structs p).thread .null).map fun t => { L with table := t }

/-- `pthread_cond_broadcast (&pthread->state_cond)`. -/
def broadcast (L : Task) (p : Nat) : Task :=
  L.modify p fun q => { q with stateCond := q.stateCond + 1 }

end Task

/-! ### Stages of the reclaim of a thread -/

/-- The steps by which `pthread_join` and `pthread_detach` reclaim a thread, in the order of
the code; those from `assertState` on are the steps of `__pthread_dealloc`. -/
inductive Stage where
  | halt
  | assertStack
  | stackDealloc
  | clearStack
  | threadDealloc
  | assertState
  | setid
  | broadcast
  | enqueue
  | terminate
  deriving DecidableEq, Repr

namespace Stage

/-- The effect of a stage on the structure `p`, or `none` if an assertion fails. -/
def run (L : Task) (p : Nat) : Stage → Option Task
  | .halt => some (L.threadHalt p)
  | .assertStack => if (L.structs p).stack then some L else none
  | .stackDealloc => some (L.stackDealloc p)
  | .clearStack => some (L.modify p fun q => { q with stack := false })
  | .threadDealloc => some (L.threadDealloc p)
  | .assertState => if (L.structs p).state = .terminated then none else some L
  | .setid => L.unpublish p
  | .broadcast => some (if (L.structs p).state = .exited then L else L.broadcast p)
  | .enqueue =>
    if p ∈ L.freeThreads then none else some { L with freeThreads := p :: L.freeThreads }
  | .terminate => some (L.modify p fun q => { q with state := .terminated })

/-- The steps of `__pthread_dealloc`. -/
def dealloc : List Stage :=
  [.assertState, .setid, .broadcast, .enqueue, .terminate]

/-- The steps of the branch `PTHREAD_EXITED` of `pthread_join` and `pthread_detach`. -/
def reclaim : List Stage :=
  [.halt, .assertStack, .stackDealloc, .clearStack, .threadDealloc] ++ dealloc

/-- Runs the stages one after the other. -/
def runAll (p : Nat) : List Stage → Task → Option Task
  | [], L => some L
  | st :: rest, L =>
    match st.run L p with
    | none => none
    | some L' => runAll p rest L'

/-- What a stage does to the structure `p`, whose ID is `thread`, and to its entry in the
table. -/
structure Effect (st : Stage) (L : Task) (p thread : Nat) (L' : Task) : Prop where
  slot : L'.table.get thread = L.table.get thread ∨ L'.table.get thread = some .null
  thread : (L'.structs p).thread = (L.structs p).thread
  status : (L'.structs p).status = (L.structs p).status
  state : (L'.structs p).state = if st = .terminate then .terminated else (L.structs p).state
  stateCond : (L'.structs p).stateCond =
    if st = .broadcast ∧ (L.structs p).state ≠ .exited then (L.structs p).stateCond + 1
    else (L.structs p).stateCond

section Effect

variable {L L' : Task} {p thread : Nat} {st : Stage}

/-- A stage that leaves these parts alone. -/
theorem effect_of_eq (hterminate : st ≠ .terminate) (hbroadcast : st ≠ .broadcast)
    (htable : L'.table = L.table) (hstructs : L'.structs = L.structs) :
  Effect st L p thread L'
  := by
  constructor
  · rw [htable]
    exact .inl rfl
  · rw [hstructs]
  · rw [hstructs]
  · rw [hstructs, if_neg hterminate]
  · rw [hstructs, if_neg fun h => hbroadcast h.1]

theorem run_effect (hthread : (L.structs p).thread = thread) (h : st.run L p = some L') :
  Effect st L p thread L'
  := by
  cases st with
  | halt =>
      obtain rfl := Option.some.inj h
      exact effect_of_eq (by decide) (by decide) rfl rfl
  | assertStack =>
      rw [run] at h
      split at h
      · obtain rfl := Option.some.inj h
        exact effect_of_eq (by decide) (by decide) rfl rfl
      · cases h
  | stackDealloc =>
      obtain rfl := Option.some.inj h
      rw [Task.stackDealloc]
      split
      · exact effect_of_eq (by decide) (by decide) rfl rfl
      · exact effect_of_eq (by decide) (by decide) rfl rfl
  | clearStack =>
      obtain rfl := Option.some.inj h
      refine ⟨.inl rfl, ?_, ?_, ?_, ?_⟩
      all_goals simp
  | threadDealloc =>
      obtain rfl := Option.some.inj h
      exact effect_of_eq (by decide) (by decide) rfl rfl
  | assertState =>
      rw [run] at h
      split at h
      · cases h
      · obtain rfl := Option.some.inj h
        exact effect_of_eq (by decide) (by decide) rfl rfl
  | setid =>
      obtain ⟨t, ht, rfl⟩ := Option.map_eq_some_iff.mp h
      refine ⟨.inr ?_, rfl, rfl, ?_, ?_⟩
      · rw [hthread, Table.set] at ht
        split at ht
        · rename_i hrange
          obtain rfl := Option.some.inj ht
          rw [Table.get, if_neg (by omega), List.getElem?_set_self (by omega)]
        · cases ht
      · rw [if_neg (by decide)]
      · rw [if_neg fun h => by cases h.1]
  | broadcast =>
      obtain rfl := Option.some.inj h
      split
      · rename_i hexited
        refine ⟨.inl rfl, rfl, rfl, ?_, ?_⟩
        · rw [if_neg (by decide)]
        · rw [if_neg fun h => h.2 hexited]
      · rename_i hexited
        refine ⟨.inl rfl, ?_, ?_, ?_, ?_⟩
        all_goals simp [Task.broadcast, hexited]
  | enqueue =>
      rw [run] at h
      split at h
      · cases h
      · obtain rfl := Option.some.inj h
        exact effect_of_eq (by decide) (by decide) rfl rfl
  | terminate =>
      obtain rfl := Option.some.inj h
      refine ⟨.inl rfl, ?_, ?_, ?_, ?_⟩
      all_goals simp

end Effect

end Stage

end LibPthread.Thread
