import LibPthread.Concurrency.LinkedList
import LibPthread.Concurrency.WaitQueue

/-!
# The queue functions on memory

`__pthread_enqueue`, `__pthread_dequeue` and the two iteration macros of the library, as they
read and write memory. A queue is a variable that holds the address of a thread structure, its
head; the structures are chained by their members `next`. The member `prevp` of a structure
holds the address of the cell that points to it, which is a head or the `next` of a neighbour.
-/

open Concurrency

namespace LibPthread.Queue

variable {T Q : Type}

/-- The cells of memory that hold the address of a thread structure. -/
inductive Cell (T Q : Type) where
  | head (q : Q)
  | next (t : T)
  deriving DecidableEq

/-- The heads of the queues and the queue links of the thread structures. -/
structure Memory (T Q : Type) where
  head : Q → Option T
  next : T → Option T
  prevp : T → Option (Cell T Q)

/-- Initialised memory: all heads and all `prevp` are null, and the `next` hold anything. -/
@[simps]
def Memory.init (next : T → Option T) : Memory T Q where
  head _ := none
  next := next
  prevp _ := none

namespace Memory

/-- `*c`. -/
def load (m : Memory T Q) : Cell T Q → Option T
  | .head q => m.head q
  | .next t => m.next t

variable [DecidableEq T] [DecidableEq Q]

/-- `*c = v`. -/
def store (m : Memory T Q) (c : Cell T Q) (v : Option T) : Memory T Q :=
  match c with
  | .head q => { m with head := Function.update m.head q v }
  | .next t => { m with next := Function.update m.next t v }

/-- `t->prevp = p`. -/
@[simps]
def setPrevp (m : Memory T Q) (t : T) (p : Option (Cell T Q)) : Memory T Q :=
  { m with prevp := Function.update m.prevp t p }

@[simp]
theorem load_store (m : Memory T Q) (c c' : Cell T Q) (v : Option T) :
  (m.store c v).load c' = if c' = c then v else m.load c'
  := by
  cases c <;> cases c' <;> simp [store, load, Function.update_apply]

@[simp]
theorem prevp_store (m : Memory T Q) (c : Cell T Q) (v : Option T) :
  (m.store c v).prevp = m.prevp
  := by
  cases c <;> rfl

omit [DecidableEq Q] in
@[simp]
theorem load_setPrevp (m : Memory T Q) (t : T) (p : Option (Cell T Q)) (c : Cell T Q) :
  (m.setPrevp t p).load c = m.load c
  := by
  cases c <;> rfl

end Memory

variable [DecidableEq T] [DecidableEq Q]

/-- `__pthread_enqueue`; `none` when its assertion fails. -/
def enqueue (m : Memory T Q) (head : Q) (thread : T) : Option (Memory T Q) :=
  if m.prevp thread ≠ none then none
  else
    let m := m.store (.next thread) (m.load (.head head))
    let m := m.setPrevp thread (some (.head head))
    let m :=
      match m.load (.head head) with
      | none => m
      | some first => m.setPrevp first (some (.next thread))
    some (m.store (.head head) (some thread))

/-- `__pthread_dequeue`; `none` when its assertion fails. -/
def dequeue (m : Memory T Q) (thread : T) : Option (Memory T Q) :=
  match m.prevp thread with
  | none => none
  | some prevp =>
    let m :=
      match m.next thread with
      | none => m
      | some next => m.setPrevp next (some prevp)
    let m := m.store prevp (m.next thread)
    some (m.setPrevp thread none)

/-- The threads visited by `__pthread_queue_iterate`, started at `pdi_next`; `none` when the
iteration is not over after `fuel` rounds. -/
def queueIterate (m : Memory T Q) : Nat → Option T → Option (List T)
  | 0, _ => none
  | _ + 1, none => some []
  | fuel + 1, some element =>
    (queueIterate m fuel (m.next element)).map (element :: ·)

/-- The body of a loop that puts the visited thread on the queue that `body` says, if any. -/
def loopBody (body : T → Option Q) (m : Memory T Q) (element : T) : Option (Memory T Q) :=
  match body element with
  | none => some m
  | some q => enqueue m q element

/-- `__pthread_dequeuing_iterate` with a body, started at `pdi_next`, with the threads it
visits. The result is `none` when an assertion fails or the iteration is not over after `fuel`
rounds. -/
def dequeuingIterate (body : T → Option Q) :
    Nat → Memory T Q → Option T → Option (Memory T Q × List T)
  | 0, _, _ => none
  | _ + 1, m, none => some (m, [])
  | fuel + 1, m, some element =>
    let pdi_next := m.next element
    let m := m.setPrevp element none
    match loopBody body m element with
    | none => none
    | some m =>
      (dequeuingIterate body fuel m pdi_next).map fun r => (r.1, element :: r.2)

/-- The uses the library makes of a queue. The third one is the readers' in
`pthread_rwlock_unlock`, which resets the head after the iteration; the fourth one is that of
`pthread_barrier_wait`, which resets it before. -/
inductive Op (T Q : Type) where
  | enqueue (head : Q) (thread : T)
  | dequeue (thread : T)
  | release (queue : Q) (body : T → Option Q)
  | detach (queue : Q) (body : T → Option Q)

/-- One use of a queue, with the threads that are visited. -/
def exec (fuel : Nat) (m : Memory T Q) : Op T Q → Option (Memory T Q × List T)
  | .enqueue head thread => (enqueue m head thread).map (·, [])
  | .dequeue thread => (dequeue m thread).map (·, [])
  | .release queue body =>
    (dequeuingIterate body fuel m (m.load (.head queue))).map fun r =>
      (r.1.store (.head queue) none, r.2)
  | .detach queue body =>
    dequeuingIterate body fuel (m.store (.head queue) none) (m.load (.head queue))

/-- What the callers see to: only threads that are on no queue are put on one, only threads on
a queue are taken off, and the body of an iteration that has still to reset the head does not
put threads on the queue it goes through. -/
def Op.Allowed (m : Memory T Q) : Op T Q → Prop
  | .enqueue _ thread => m.prevp thread = none
  | .dequeue thread => m.prevp thread ≠ none
  | .release queue body => ∀ t, body t ≠ some queue
  | .detach _ _ => True

/-- The memory after a sequence of allowed uses of the queues, the latest first. -/
inductive Run (m₀ : Memory T Q) : List (Op T Q) → Memory T Q → Prop where
  | start : Run m₀ [] m₀
  | step {m m' : Memory T Q} {ops : List (Op T Q)} {visited : List T} (op : Op T Q) (fuel : Nat)
    (before : Run m₀ ops m) (allowed : op.Allowed m)
    (exec : exec fuel m op = some (m', visited)) : Run m₀ (op :: ops) m'

end LibPthread.Queue
