import LibPthread.Types

/-!
# The barrier functions

`struct __pthread_barrier` and the functions `pthread_barrier_init` and
`pthread_barrier_wait`, step by step, and the system of threads that use one barrier.

The last arrival walks the list of waiters after it has released the lock of the barrier:
it clears the link of a waiter and wakes it up, one waiter after the other. It reads the
`next` link of a waiter before it wakes the waiter up, and no other thread writes that link
as long as the waiter is blocked, so the rest of the list is known from the start.
-/

open Concurrency

namespace LibPthread

/-- `struct __pthread_barrier` without its queue and the fields that no function reads; the
counters are `unsigned`. -/
structure Barrier where
  lock : Bool
  pending : Nat
  count : Nat
  deriving DecidableEq

namespace Barrier

/-- `pthread_barrier_init`, with the default attributes. -/
def init (count : Nat) : Except Errno Barrier :=
  if count = 0 then .error .EINVAL
  else .ok { lock := false, pending := count, count := count }

/-- `-- barrier->pending` in `unsigned` arithmetic. -/
def decPending (pending : Nat) : Nat :=
  (pending + (2 ^ 32 - 1)) % 2 ^ 32

/-- The control points of `pthread_barrier_wait`. -/
inductive Loc (T : Type) where
  /-- At the section under the lock of the barrier. -/
  | start
  /-- At the head of the loop over the waiters, those from `next` on being left. -/
  | iterate (next : List T)
  /-- At `__pthread_wakeup (wakeup)` in the loop. -/
  | wakeup (thread : T) (next : List T)
  /-- At `__pthread_block (self)`. -/
  | block
  deriving DecidableEq

/-- The role of a thread in the wakeup protocol, where `q` is the queue of the barrier. -/
def Loc.role {T Q : Type} (q : Q) : Loc T → Role T Q
  | .start => .idle
  | .iterate next => ⟨.out, [], next⟩
  | .wakeup thread next => ⟨.out, [thread], next⟩
  | .block => ⟨.parked q, [], []⟩

variable {T Q : Type} [DecidableEq T] [DecidableEq Q]

/-- The section of `pthread_barrier_wait`. The branch of the last arrival at a barrier for
one thread does not release the lock. -/
def waitStart (b : Build) (q : Q) (self : T) (bar : Barrier) (w : Waits T Q) :
    Outcome (World Barrier T Q) (Loc T) Ret :=
  if bar.lock then .spin
  else
    let bar : Barrier := { bar with lock := true, pending := decPending bar.pending }
    if bar.pending = 0 then
      let bar : Barrier := { bar with pending := bar.count }
      if 1 < bar.count then
        .goto ⟨{ bar with lock := false }, w.detach q⟩ (.iterate (w.queue q))
      else .ret ⟨bar, w⟩ .serialThread
    else b.assert (w.prevp self = none)
      (.goto ⟨{ bar with lock := false }, w.enqueue q self⟩ .block)

/-- One step of `pthread_barrier_wait`. -/
def waitStep (b : Build) (q : Q) (self : T) :
    Loc T → World Barrier T Q → Outcome (World Barrier T Q) (Loc T) Ret
  | .start, s => waitStart b q self s.obj s.waits
  | .iterate (thread :: next), s => .goto ⟨s.obj, s.waits.unlink thread⟩ (.wakeup thread next)
  | .iterate [], s => .ret s .serialThread
  | .wakeup thread next, s =>
    b.wakeup thread s.waits (fun w => .goto ⟨s.obj, w⟩ (.iterate next))
  | .block, s =>
    if s.waits.port self = 0 then .spin else .ret ⟨s.obj, s.waits.receive self⟩ .zero

/-! ### What each step does -/

variable {b : Build} {q : Q} {self : T} {bar : Barrier} {w : Waits T Q}
    {s s' : World Barrier T Q} {l l' : Loc T} {r : Ret}

theorem decPending_of_pos {n : Nat} (hpos : 0 < n) (hlt : n < 2 ^ 32) :
  decPending n = n - 1
  := by
  rw [decPending]
  omega

/-- The section of the wait function goes on after the last arrival has detached the queue,
or after an earlier one has enqueued itself, with the lock released. -/
theorem waitStart_eq_goto (h : waitStart b q self bar w = .goto s' l') :
  bar.lock = false
    ∧ ((decPending bar.pending = 0 ∧ 1 < bar.count ∧ l' = .iterate (w.queue q)
        ∧ s' = ⟨⟨false, bar.count, bar.count⟩, w.detach q⟩)
      ∨ (decPending bar.pending ≠ 0 ∧ l' = .block
        ∧ s' = ⟨⟨false, decPending bar.pending, bar.count⟩, w.enqueue q self⟩))
  := by
  simp only [waitStart, Build.assert] at h
  generalize decPending bar.pending = pending at h ⊢
  grind

/-- A call returns from the section only at a barrier for one thread, with the lock
held. -/
theorem waitStart_eq_ret (h : waitStart b q self bar w = .ret s' r) :
  bar.lock = false ∧ decPending bar.pending = 0 ∧ bar.count ≤ 1 ∧ r = .serialThread
    ∧ s' = ⟨⟨true, bar.count, bar.count⟩, w⟩
  := by
  simp only [waitStart, Build.assert] at h
  generalize decPending bar.pending = pending at h ⊢
  grind

theorem waitStart_ne_fault (hprevp : w.prevp self = none) :
  waitStart b q self bar w ≠ .fault
  := by
  simp only [waitStart, Build.assert_of hprevp]
  generalize decPending bar.pending = pending
  grind

/-- What a step of the wait function does, if its sends find the ports empty. -/
theorem waitStep_eq_goto (hport : ∀ u ∈ (l.role q).owes, s.waits.port u = 0)
    (h : waitStep b q self l s = .goto s' l') :
  (l = .start ∧ waitStart b q self s.obj s.waits = .goto s' l')
    ∨ (∃ u us, l = .iterate (u :: us) ∧ l' = .wakeup u us ∧ s' = ⟨s.obj, s.waits.unlink u⟩)
    ∨ (∃ u us, l = .wakeup u us ∧ l' = .iterate us ∧ s' = ⟨s.obj, s.waits.send u⟩)
  := by
  cases l with
  | start =>
      left
      use rfl, h
  | iterate us =>
      right; left
      cases us with
      | nil => cases h
      | cons u us =>
          obtain ⟨rfl, rfl⟩ := h
          use u, us
  | wakeup u us =>
      right; right
      rw [waitStep, Build.wakeup_of (hport u (by simp [Loc.role]))] at h
      obtain ⟨rfl, rfl⟩ := h
      use u, us
  | block =>
      simp only [waitStep] at h
      grind

/-- A call of the wait function returns from its section, after the loop, or after its
receive. -/
theorem waitStep_eq_ret (hport : ∀ u ∈ (l.role q).owes, s.waits.port u = 0)
    (h : waitStep b q self l s = .ret s' r) :
  (l = .start ∧ waitStart b q self s.obj s.waits = .ret s' r)
    ∨ (l = .iterate [] ∧ s' = s ∧ r = .serialThread)
    ∨ (l = .block ∧ 0 < s.waits.port self ∧ s' = ⟨s.obj, s.waits.receive self⟩ ∧ r = .zero)
  := by
  cases l with
  | start =>
      left
      use rfl, h
  | iterate us =>
      right; left
      cases us with
      | nil =>
          obtain ⟨rfl, rfl⟩ := h
          use rfl
      | cons u us => cases h
  | wakeup u us =>
      rw [waitStep, Build.wakeup_of (hport u (by simp [Loc.role]))] at h
      cases h
  | block =>
      right; right
      simp only [waitStep] at h
      grind

/-! ### The barrier functions follow the wakeup protocol -/

section Protocol

variable {kind : Q → Prop}

theorem waitStep_act (hq : kind q) (hport : ∀ u ∈ (l.role q).owes, s.waits.port u = 0)
    (h : waitStep b q self l s = .goto s' l') :
  Act kind (Eq q) self s.waits (l.role q) s'.waits (l'.role q)
  := by
  rcases waitStep_eq_goto hport h with ⟨rfl, h⟩ | ⟨u, us, rfl, rfl, rfl⟩ |
    ⟨u, us, rfl, rfl, rfl⟩
  · obtain ⟨-, ⟨-, -, rfl, rfl⟩ | ⟨-, rfl, rfl⟩⟩ := waitStart_eq_goto h
    · have hact : Act kind (Eq q) self s.waits Role.idle (s.waits.detach q)
          ⟨.out, [], s.waits.queue q ++ []⟩ := Act.detach q hq rfl
      simpa [Loc.role] using hact
    · apply Act.park q rfl hq rfl
  · apply Act.visit u us rfl
  · apply Act.send u [] rfl

theorem waitStep_act_ret (hport : ∀ u ∈ (l.role q).owes, s.waits.port u = 0)
    (h : waitStep b q self l s = .ret s' r) :
  Act kind (Eq q) self s.waits (l.role q) s'.waits .idle
  := by
  rcases waitStep_eq_ret hport h with ⟨rfl, h⟩ | ⟨rfl, rfl, -⟩ | ⟨rfl, hsome, rfl, -⟩
  · rw [(waitStart_eq_ret h).2.2.2.2]
    apply Act.skip
  · apply Act.skip
  · apply Act.pass q rfl hsome

end Protocol

/-! ### Threads using one barrier -/

/-- The functions of one barrier, whose queue is the only one. -/
def machine (b : Build) : Machine T (World Barrier T Unit) (Loc T) Ret where
  entry
    | .start => true
    | .iterate _ => false
    | .wakeup _ _ => false
    | .block => false
  step self l _ s := waitStep b () self l s

/-- A state of the system. -/
abbrev Sys (T : Type) :=
  State T (World Barrier T Unit) (Loc T) Ret

/-- The steps of the system are acts of the wakeup protocol. -/
theorem conforms (b : Build) :
  Conforms (machine (T := T) b) (fun _ => True) (fun _ => Loc.role ()) (fun _ => True)
  := by
  constructor
  · intro t l he _
    cases l with
    | start => rfl
    | _ => cases he
  · intro t l c s s' l' _ hport h
    use trivial
    apply (waitStep_act trivial hport h).mono (fun _ _ => trivial)
  · intro t l c s s' r _ hport h
    apply (waitStep_act_ret hport h).mono (fun _ _ => trivial)

end Barrier

end LibPthread
