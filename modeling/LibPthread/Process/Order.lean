import LibPthread.Concurrency.Order
import LibPthread.Process.Exclusion

/-!
# The order in which waiters are woken up

All queues of a process, those of its condition variables too, list their members in the order in
which they have joined them, the latest first, also when threads are cancelled. A signal takes the
first one, and a broadcast sends its messages in this order.
-/

open Concurrency

namespace LibPthread

namespace Process

variable {T N : Type} [DecidableEq T] [DecidableEq N] [Fintype T] {b : Build}
    {G : Sys T N → Label T (Loc T N) → Prop} {attr : N → Option MutexType} {value count : N → Nat}
    {s : Sys T N}

/-- In every run of a process, a queue lists its members in the order in which they have joined
it. -/
theorem queue_sublist (hs : (machine b).Reach G (start attr value count) s) (q : QueueRef T N) :
  (s.shared.waits.queue q).Sublist (joined (fun t => Loc.role t) q s.log)
  := by
  apply hs.invariant
    (I := fun s => (s.shared.waits.queue q).Sublist (joined (fun t => Loc.role t) q s.log))
  · simp [start, Waits.empty, joined]
  · intro s a s' hreach hsub _ hstep
    have hinv := Inv.of_reach hreach
    have act := (hinv.moves hstep).act
    cases hstep with
    | call hidle hentry => apply hsub
    | @goto t c l l' x hl h =>
        have hrole : roles (fun t => Loc.role t) s t = l.role t := by
          simp [roles, hl]
        have hrole' : roles (fun t => Loc.role t) (s.goto t l x l') t = l'.role t := by
          simp [roles]
        simp only [Label.thread, hrole, hrole'] at act
        apply Act.sublist_joined act hsub
        intro hmem hout
        have := (hinv.sound.queued hmem).1
        simp [hrole, hout] at this
    | @ret t c l x r hl h =>
        have hrole : roles (fun t => Loc.role t) s t = l.role t := by
          simp [roles, hl]
        have hrole' : roles (fun t => Loc.role t) (s.ret t l x r) t = .idle := by
          simp [roles]
        simp only [Label.thread, hrole, hrole'] at act
        apply Act.sublist_joined_ret act hsub

end Process

end LibPthread
