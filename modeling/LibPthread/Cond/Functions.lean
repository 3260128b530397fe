import LibPthread.Types

/-!
# Signalling a condition variable

`struct __pthread_cond` and the functions `__pthread_cond_signal` and
`__pthread_cond_broadcast`, step by step.

A broadcast wakes up the waiters inside its section under `__lock`. It dequeues all of them,
then sends the messages one by one and only then releases `__lock`; the links are read only
under `__lock`, so it does not matter that the code clears each of them just before its
message is sent.
-/

open Concurrency

namespace LibPthread

/-- `struct __pthread_cond` without its queue. The clock named by its attributes decides
when a time-out fires, which may be at any moment here. -/
structure Cond where
  lock : Bool
  deriving DecidableEq

namespace Cond

/-- `__PTHREAD_COND_INITIALIZER`. -/
def init : Cond where
  lock := false

/-- The control points of `__pthread_cond_signal`. -/
inductive SignalLoc (T : Type) where
  | start
  /-- At `__pthread_wakeup (wakeup)`. -/
  | wakeup (thread : T)
  deriving DecidableEq

/-- The control points of `__pthread_cond_broadcast`. -/
inductive BroadcastLoc (T : Type) where
  | start
  /-- At the loop over the dequeued waiters, with `__lock` held. -/
  | wakeAll (threads : List T)
  deriving DecidableEq

/-- The threads that a thread inside the signal function has dequeued and has still to wake
up. -/
def SignalLoc.owes {T : Type} : SignalLoc T → List T
  | .start => []
  | .wakeup thread => [thread]

/-- The threads that a thread inside the broadcast function has dequeued and has still to
wake up. -/
def BroadcastLoc.owes {T : Type} : BroadcastLoc T → List T
  | .start => []
  | .wakeAll threads => threads

variable {T Q : Type} [DecidableEq T] [DecidableEq Q]

/-- The section of `__pthread_cond_signal`. -/
def signalStart (q : Q) (cond : Cond) (w : Waits T Q) :
    Outcome (World Cond T Q) (SignalLoc T) Ret :=
  if cond.lock then .spin
  else
    match w.queue q with
    | [] => .ret ⟨cond, w⟩ .zero
    | wakeup :: _ =>
      -- the dequeue writes through `prevp`, so a null link stops it also without assertions
      if w.prevp wakeup = none then .fault
      else .goto ⟨cond, w.dequeue wakeup⟩ (.wakeup wakeup)

/-- One step of `__pthread_cond_signal`. -/
def signalStep (b : Build) (q : Q) :
    SignalLoc T → World Cond T Q → Outcome (World Cond T Q) (SignalLoc T) Ret
  | .start, s => signalStart q s.obj s.waits
  | .wakeup thread, s => b.wakeup thread s.waits (fun w => .ret ⟨s.obj, w⟩ .zero)

/-- One step of `__pthread_cond_broadcast`. -/
def broadcastStep (b : Build) (q : Q) :
    BroadcastLoc T → World Cond T Q → Outcome (World Cond T Q) (BroadcastLoc T) Ret
  | .start, s =>
    if s.obj.lock then .spin
    else .goto ⟨{ s.obj with lock := true }, s.waits.dequeueAll q⟩ (.wakeAll (s.waits.queue q))
  | .wakeAll (thread :: threads), s =>
    b.wakeup thread s.waits (fun w => .goto ⟨s.obj, w⟩ (.wakeAll threads))
  | .wakeAll [], s => .ret ⟨{ s.obj with lock := false }, s.waits⟩ .zero

/-! ### What each step does -/

variable {b : Build} {q : Q} {self : T} {s s' : World Cond T Q} {r : Ret}

/-- What a step inside the signal function does: it dequeues the first waiter. -/
theorem signalStep_eq_goto {l l' : SignalLoc T} (h : signalStep b q l s = .goto s' l') :
  l = .start ∧ s.obj.lock = false
    ∧ ∃ u rest, s.waits.queue q = u :: rest ∧ l' = .wakeup u
      ∧ s' = ⟨s.obj, s.waits.dequeue u⟩
  := by
  cases l with
  | start =>
      simp only [signalStep, signalStart] at h
      split at h
      · cases h
      · split at h
        · cases h
        · grind
  | wakeup u =>
      simp only [signalStep, Build.wakeup, Build.assert] at h
      grind

/-- A call of the signal function returns from its section, when no thread waits, or after
its wakeup. -/
theorem signalStep_eq_ret {l : SignalLoc T} (hport : ∀ u ∈ l.owes, s.waits.port u = 0)
    (h : signalStep b q l s = .ret s' r) :
  r = .zero ∧ ((l = .start ∧ s.obj.lock = false ∧ s.waits.queue q = [] ∧ s' = s)
    ∨ (∃ u, l = .wakeup u ∧ s' = ⟨s.obj, s.waits.send u⟩))
  := by
  cases l with
  | start =>
      simp only [signalStep, signalStart] at h
      split at h
      · cases h
      · rename_i hlock
        split at h
        · rename_i hq
          obtain ⟨rfl, rfl⟩ := h
          use rfl
          left
          use rfl, by simpa using hlock, hq
        · grind
  | wakeup u =>
      rw [signalStep, Build.wakeup_of (hport u (by simp [SignalLoc.owes]))] at h
      obtain ⟨rfl, rfl⟩ := h
      use rfl
      right
      use u

/-- What a step inside the broadcast function does, if its sends find the ports empty. -/
theorem broadcastStep_eq_goto {l l' : BroadcastLoc T}
    (hport : ∀ u ∈ l.owes, s.waits.port u = 0) (h : broadcastStep b q l s = .goto s' l') :
  (l = .start ∧ s.obj.lock = false ∧ l' = .wakeAll (s.waits.queue q)
      ∧ s' = ⟨{ s.obj with lock := true }, s.waits.dequeueAll q⟩)
    ∨ (∃ u us, l = .wakeAll (u :: us) ∧ l' = .wakeAll us ∧ s' = ⟨s.obj, s.waits.send u⟩)
  := by
  cases l with
  | start =>
      simp only [broadcastStep] at h
      grind
  | wakeAll us =>
      right
      cases us with
      | nil => cases h
      | cons u us =>
          rw [broadcastStep, Build.wakeup_of (hport u (by simp [BroadcastLoc.owes]))] at h
          obtain ⟨rfl, rfl⟩ := h
          use u, us

/-- A call of the broadcast function returns after its loop. -/
theorem broadcastStep_eq_ret {l : BroadcastLoc T} (hport : ∀ u ∈ l.owes, s.waits.port u = 0)
    (h : broadcastStep b q l s = .ret s' r) :
  r = .zero ∧ l = .wakeAll [] ∧ s' = ⟨{ s.obj with lock := false }, s.waits⟩
  := by
  cases l with
  | start =>
      simp only [broadcastStep] at h
      grind
  | wakeAll us =>
      cases us with
      | nil =>
          obtain ⟨rfl, rfl⟩ := h
          use rfl
      | cons u us =>
          rw [broadcastStep, Build.wakeup_of (hport u (by simp [BroadcastLoc.owes]))] at h
          cases h

/-! ### The functions follow the wakeup protocol -/

section Protocol

variable {bar : Q → Prop} {ph : Phase Q} {k : List T}

theorem signalStep_act {l l' : SignalLoc T} (h : signalStep b q l s = .goto s' l') :
  Act bar (Eq q) self s.waits ⟨ph, l.owes, k⟩ s'.waits ⟨ph, l'.owes, k⟩
  := by
  obtain ⟨rfl, -, u, rest, hq, rfl, rfl⟩ := signalStep_eq_goto h
  apply Act.dequeue q u _ rfl
  simp [hq]

theorem signalStep_act_ret {l : SignalLoc T} (hport : ∀ u ∈ l.owes, s.waits.port u = 0)
    (h : signalStep b q l s = .ret s' r) :
  Act bar (Eq q) self s.waits ⟨ph, l.owes, k⟩ s'.waits ⟨ph, [], k⟩
  := by
  obtain ⟨-, ⟨rfl, -, -, rfl⟩ | ⟨u, rfl, rfl⟩⟩ := signalStep_eq_ret hport h
  · apply Act.skip
  · apply Act.send u [] rfl

theorem broadcastStep_act {l l' : BroadcastLoc T} (hport : ∀ u ∈ l.owes, s.waits.port u = 0)
    (h : broadcastStep b q l s = .goto s' l') :
  Act bar (Eq q) self s.waits ⟨ph, l.owes, k⟩ s'.waits ⟨ph, l'.owes, k⟩
  := by
  rcases broadcastStep_eq_goto hport h with ⟨rfl, -, rfl, rfl⟩ | ⟨u, us, rfl, rfl, rfl⟩
  · have hact : Act bar (Eq q) self s.waits ⟨ph, [], k⟩ (s.waits.dequeueAll q)
        ⟨ph, s.waits.queue q ++ [], k⟩ := Act.dequeueAll q rfl
    simpa [BroadcastLoc.owes] using hact
  · apply Act.send u us rfl

theorem broadcastStep_act_ret {l : BroadcastLoc T}
    (hport : ∀ u ∈ l.owes, s.waits.port u = 0) (h : broadcastStep b q l s = .ret s' r) :
  Act bar (Eq q) self s.waits ⟨ph, l.owes, k⟩ s'.waits ⟨ph, [], k⟩
  := by
  obtain ⟨-, rfl, rfl⟩ := broadcastStep_eq_ret hport h
  apply Act.skip

end Protocol

end Cond

end LibPthread
