import Mathlib.Logic.Function.Basic
import Mathlib.Data.List.Nodup
import Mathlib.Tactic.Simps.Basic

/-!
# Wait queues and message ports

The part of the thread structures that all blocking objects share: the queues of waiting
threads, the link of each thread to the queue it is on, and the number of wakeup messages
queued on the port of each thread. Queues are identified by the elements of `Q`; an element
is enqueued at the front.

A thread is dequeued through its own link, without naming the queue: `dequeue t` removes
`t` from the queue its link names. A detached list is no longer the contents of any queue,
but the links of its members are cleared only when they are visited, by `unlink`.
-/

namespace Concurrency

/-- The queues of waiting threads, the queue links and the wakeup ports. -/
structure Waits (T Q : Type) where
  queue : Q → List T
  prevp : T → Option Q
  port : T → Nat

/-- An object together with the waiting threads. -/
structure World (Obj T Q : Type) where
  obj : Obj
  waits : Waits T Q

namespace Waits

variable {T Q : Type}

/-- All queues and ports are empty and no thread is linked. -/
def empty : Waits T Q :=
  ⟨fun _ => [], fun _ => none, fun _ => 0⟩

variable [DecidableEq T] [DecidableEq Q]

/-- Adds `t` at the front of the queue `q`. -/
@[simps]
def enqueue (w : Waits T Q) (q : Q) (t : T) : Waits T Q :=
  { w with
    queue := Function.update w.queue q (t :: w.queue q)
    prevp := Function.update w.prevp t (some q) }

/-- Removes `t` from the queue it is linked to, and clears its link. -/
def dequeue (w : Waits T Q) (t : T) : Waits T Q :=
  match w.prevp t with
  | none => w
  | some q =>
    { w with
      queue := Function.update w.queue q ((w.queue q).erase t)
      prevp := Function.update w.prevp t none }

/-- Removes all threads from the queue `q`, clearing their links. -/
@[simps]
def dequeueAll (w : Waits T Q) (q : Q) : Waits T Q :=
  { w with
    queue := Function.update w.queue q []
    prevp := fun u => if u ∈ w.queue q then none else w.prevp u }

/-- Resets the head of the queue `q`, leaving the links of its members as they are. -/
@[simps]
def detach (w : Waits T Q) (q : Q) : Waits T Q :=
  { w with queue := Function.update w.queue q [] }

/-- Clears the link of `t`. -/
@[simps]
def unlink (w : Waits T Q) (t : T) : Waits T Q :=
  { w with prevp := Function.update w.prevp t none }

/-- Queues a message on the port of `t`. -/
@[simps]
def send (w : Waits T Q) (t : T) : Waits T Q :=
  { w with port := Function.update w.port t (w.port t + 1) }

/-- Takes a message from the port of `t`. -/
@[simps]
def receive (w : Waits T Q) (t : T) : Waits T Q :=
  { w with port := Function.update w.port t (w.port t - 1) }

theorem dequeue_queue {w : Waits T Q} {q : Q} {t : T} (h : w.prevp t = some q) (q' : Q) :
  (w.dequeue t).queue q' = if q' = q then (w.queue q).erase t else w.queue q'
  := by
  simp [dequeue, h, Function.update_apply]

theorem mem_of_mem_dequeue {w : Waits T Q} {q : Q} {t u : T} (h : u ∈ (w.dequeue t).queue q) :
  u ∈ w.queue q
  := by
  cases hp : w.prevp t with
  | none =>
      rw [dequeue, hp] at h
      apply h
  | some q' =>
      rw [dequeue_queue hp] at h
      split at h
      · rename_i hq
        rw [hq]
        apply List.mem_of_mem_erase h
      · apply h

@[simp]
theorem dequeue_prevp (w : Waits T Q) (t u : T) :
  (w.dequeue t).prevp u = if u = t then none else w.prevp u
  := by
  rw [dequeue]
  split
  · grind
  · simp [Function.update_apply]

@[simp]
theorem dequeue_port (w : Waits T Q) (t u : T) :
  (w.dequeue t).port u = w.port u
  := by
  rw [dequeue]
  split
  · rfl
  · rfl

end Waits

end Concurrency
