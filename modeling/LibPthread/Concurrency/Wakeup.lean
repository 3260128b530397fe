import LibPthread.Concurrency.System
import LibPthread.Concurrency.WaitQueue
import Mathlib.Algebra.Order.BigOperators.Group.Finset

/-!
# The wakeup protocol

A thread that blocks links itself on a queue, receives a message from its port or times
out, and then looks at its own link to learn which of the two won. A thread that finds
itself dequeued after a time-out must still receive the message meant for it. Whoever
removes a thread from a queue owes it one message. Queues of the kind `bar` are detached as
a whole and walked afterwards, and their members do not look at their link.

The role of a thread says where it stands in this protocol. `Act` lists the steps of the
protocol, each a change of the queues and of the role of the acting thread. `Sound` is the
invariant: a thread inside a blocking section is either linked on its queue with no message
on its way, or on no queue with exactly one message owed, queued or received; a thread
outside is on no queue and no message is on its way to it. Every act keeps it
(`Act.sound`), so it holds in every run of a machine whose steps are acts
(`Conforms.sound`).
-/

namespace Concurrency

open Finset

/-- Where a thread stands in a blocking section on a queue: outside any, before its
receive, before looking at its link (`err` if it timed out), before the receive that
drains its port, and, on a queue of the kind `bar`, before its only receive. -/
inductive Phase (Q : Type) where
  | out
  | blocking (q : Q) (timed : Bool)
  | checking (q : Q) (err : Bool)
  | draining (q : Q)
  | parked (q : Q)
  deriving DecidableEq

namespace Phase

variable {Q : Type}

/-- The queue on which the section blocks. -/
@[simp]
def queue : Phase Q → Option Q
  | .out => none
  | .blocking q _ => some q
  | .checking q _ => some q
  | .draining q => some q
  | .parked q => some q

@[simp, grind =]
theorem queue_eq_none_iff (ph : Phase Q) :
  ph.queue = none ↔ ph = .out
  := by
  cases ph <;> simp

/-- The number of messages received in the section so far. -/
@[simp]
def received : Phase Q → Nat
  | .checking _ false => 1
  | _ => 0

end Phase

/-- The part of a thread in the protocol: its phase, the threads it has dequeued and has
still to wake up, and the members of a detached queue it has still to visit. -/
structure Role (T Q : Type) where
  phase : Phase Q
  owes : List T
  walk : List T

namespace Role

variable {T Q : Type}

/-- The role of a thread outside any call. -/
def idle : Role T Q :=
  ⟨.out, [], []⟩

variable [DecidableEq T]

/-- The number of messages the role owes to `u`. -/
def pending (x : Role T Q) (u : T) : Nat :=
  x.owes.count u + x.walk.count u

end Role

variable {T Q : Type} [DecidableEq T] [Fintype T]

/-- The number of messages owed to `u` by all threads. -/
def owed (r : T → Role T Q) (u : T) : Nat :=
  ∑ t, (r t).pending u

/-- A sum over all threads changes as much as its term for `t` if the others are equal. -/
theorem sum_change {f g : T → Nat} {t : T} (h : ∀ u, u ≠ t → g u = f u) :
  ∑ u, g u + f t = ∑ u, f u + g t
  := by
  have hf := add_sum_erase univ f (mem_univ t)
  have hg := add_sum_erase univ g (mem_univ t)
  have hrest : ∑ u ∈ univ.erase t, g u = ∑ u ∈ univ.erase t, f u := by
    apply sum_congr rfl
    intro u hu
    apply h u (ne_of_mem_erase hu)
  omega

theorem owed_update (r : T → Role T Q) (t : T) (x : Role T Q) (u : T) :
  owed (Function.update r t x) u + (r t).pending u = owed r u + x.pending u
  := by
  have hrest : ∀ v, v ≠ t → (Function.update r t x v).pending u = (r v).pending u := by
    intro v hv
    rw [Function.update_of_ne hv]
  simpa [owed] using sum_change hrest

theorem pending_le_owed (r : T → Role T Q) (t u : T) :
  (r t).pending u ≤ owed r u
  := single_le_sum (f := fun v => (r v).pending u) (fun _ _ => Nat.zero_le _) (mem_univ t)

/-- The messages meant for `u` in its present section: owed, queued on its port, or
received. -/
def credit (r : T → Role T Q) (w : Waits T Q) (u : T) : Nat :=
  owed r u + w.port u + (r u).phase.received

/-- The invariant of the protocol. -/
structure Sound (bar : Q → Prop) (r : T → Role T Q) (w : Waits T Q) : Prop where
  /-- No thread is on a queue twice. -/
  nodup : ∀ q, (w.queue q).Nodup
  /-- The link of a queued thread names its queue. -/
  linked : ∀ q u, u ∈ w.queue q → w.prevp u = some q
  /-- A thread that is linked but not queued is in a detached list. -/
  stray : ∀ q u, w.prevp u = some q → u ∉ w.queue q → ∃ t, u ∈ (r t).walk
  /-- The members of detached lists wait on queues of the kind `bar`. -/
  parked : ∀ t u, u ∈ (r t).walk → ∃ q, (r u).phase = .parked q
  /-- Threads wait without looking at their link on the queues of the kind `bar`, and only
  there. -/
  kind : ∀ u q, (r u).phase.queue = some q → (bar q ↔ (r u).phase = .parked q)
  outside : ∀ u, (r u).phase = .out → w.prevp u = none ∧ credit r w u = 0
  inside : ∀ u q, (r u).phase.queue = some q →
    (u ∈ w.queue q ∧ credit r w u = 0) ∨ ((∀ q', u ∉ w.queue q') ∧ credit r w u = 1)
  /-- A thread that drains its port has been dequeued. -/
  drained : ∀ u q, (r u).phase = .draining q → w.prevp u = none

variable [DecidableEq Q]

/-- The steps of the protocol that a thread `t` can take, as changes of the queues and of
the role of `t`. Threads are added to and removed from the queues that satisfy `on` only. -/
inductive Act (bar on : Q → Prop) (t : T) (w : Waits T Q) (x : Role T Q) :
    Waits T Q → Role T Q → Prop where
  | skip : Act bar on t w x w x
  | enqueue (q : Q) (timed : Bool) (out : x.phase = .out) (kind : ¬ bar q) (acts : on q) :
    Act bar on t w x (w.enqueue q t) ⟨.blocking q timed, x.owes, x.walk⟩
  | park (q : Q) (out : x.phase = .out) (kind : bar q) (acts : on q) :
    Act bar on t w x (w.enqueue q t) ⟨.parked q, x.owes, x.walk⟩
  | dequeue (q : Q) (u : T) (mem : u ∈ w.queue q) (acts : on q) :
    Act bar on t w x (w.dequeue u) ⟨x.phase, u :: x.owes, x.walk⟩
  | dequeueAll (q : Q) (acts : on q) :
    Act bar on t w x (w.dequeueAll q) ⟨x.phase, w.queue q ++ x.owes, x.walk⟩
  | detach (q : Q) (kind : bar q) (acts : on q) :
    Act bar on t w x (w.detach q) ⟨x.phase, x.owes, w.queue q ++ x.walk⟩
  | visit (u : T) (k : List T) (walk : x.walk = u :: k) :
    Act bar on t w x (w.unlink u) ⟨x.phase, u :: x.owes, k⟩
  | send (u : T) (o : List T) (owes : x.owes = u :: o) :
    Act bar on t w x (w.send u) ⟨x.phase, o, x.walk⟩
  | receive (q : Q) (timed : Bool)
    (phase : x.phase = .blocking q timed) (port : 0 < w.port t) :
    Act bar on t w x (w.receive t) ⟨.checking q false, x.owes, x.walk⟩
  | timeout (q : Q) (phase : x.phase = .blocking q true) :
    Act bar on t w x w ⟨.checking q true, x.owes, x.walk⟩
  | woken (q : Q) (phase : x.phase = .checking q false)
    (gone : w.prevp t = none) : Act bar on t w x w ⟨.out, x.owes, x.walk⟩
  | late (q : Q) (phase : x.phase = .checking q true)
    (gone : w.prevp t = none) : Act bar on t w x w ⟨.draining q, x.owes, x.walk⟩
  | leave (q : Q) (err : Bool) (phase : x.phase = .checking q err)
    (still : w.prevp t ≠ none) (acts : on q) :
    Act bar on t w x (w.dequeue t) ⟨.out, x.owes, x.walk⟩
  | drain (q : Q) (phase : x.phase = .draining q)
    (port : 0 < w.port t) : Act bar on t w x (w.receive t) ⟨.out, x.owes, x.walk⟩
  | pass (q : Q) (phase : x.phase = .parked q)
    (port : 0 < w.port t) : Act bar on t w x (w.receive t) ⟨.out, x.owes, x.walk⟩

namespace Sound

variable {bar : Q → Prop} {r : T → Role T Q} {w : Waits T Q}

omit [DecidableEq Q] in
/-- A queued thread is in a blocking section on its queue, and no message is meant for
it. -/
theorem queued (h : Sound bar r w) {u : T} {q : Q} (hu : u ∈ w.queue q) :
  (r u).phase.queue = some q ∧ credit r w u = 0
  := by
  have hp := h.linked q u hu
  cases hq : (r u).phase.queue with
  | none =>
      rw [Phase.queue_eq_none_iff] at hq
      have := (h.outside u hq).1
      simp_all
  | some q' =>
      rcases h.inside u q' hq with ⟨hm, hc⟩ | ⟨hn, -⟩
      · have := h.linked q' u hm
        simp_all
      · apply absurd hu (hn q)

omit [DecidableEq Q] in
/-- A thread to which a message is owed is on no queue, and has none queued or
received. -/
theorem of_pending (h : Sound bar r w) {t u : T} (hu : 0 < (r t).pending u) :
  owed r u = 1 ∧ w.port u = 0 ∧ (r u).phase.received = 0 ∧ ∀ q, u ∉ w.queue q
  := by
  have hle := pending_le_owed r t u
  cases hq : (r u).phase.queue with
  | none =>
      rw [Phase.queue_eq_none_iff] at hq
      have := (h.outside u hq).2
      rw [credit] at this
      omega
  | some q =>
      rcases h.inside u q hq with ⟨-, hc⟩ | ⟨hn, hc⟩
      · rw [credit] at hc
        omega
      · rw [credit] at hc
        refine ⟨?_, ?_, ?_, hn⟩ <;> omega

omit [DecidableEq Q] in
/-- A change of the phase of `t` to one of the same section, with the message it has
received since taken from its port. -/
theorem advance (h : Sound bar r w) {t : T} {ph : Phase Q} {w' : Waits T Q}
    (hqueue : w'.queue = w.queue) (hprevp : w'.prevp = w.prevp)
    (hport : ∀ u, u ≠ t → w'.port u = w.port u)
    (hcons : w'.port t + ph.received = w.port t + (r t).phase.received)
    (hsame : ph.queue = (r t).phase.queue)
    (hkind : ∀ q, ph = .parked q ↔ (r t).phase = .parked q)
    (hdrain : ∀ q, ph = .draining q → w.prevp t = none) :
  Sound bar (Function.update r t ⟨ph, (r t).owes, (r t).walk⟩) w'
  := by
  have hcredit : ∀ u, credit (Function.update r t ⟨ph, (r t).owes, (r t).walk⟩) w' u
      = credit r w u := by
    intro u
    have := owed_update r t ⟨ph, (r t).owes, (r t).walk⟩ u
    simp only [Role.pending, credit] at *
    grind [Function.update_apply]
  constructor
  · rw [hqueue]
    apply h.nodup
  · rw [hqueue, hprevp]
    apply h.linked
  · intro q u hp hu
    obtain ⟨v, hv⟩ := h.stray q u (hprevp ▸ hp) (hqueue ▸ hu)
    use v
    grind [Function.update_apply]
  · intro v u hu
    have := h.parked v u
    grind [Function.update_apply]
  · intro u q hq
    have := h.kind u q
    grind [Function.update_apply]
  · intro u hu
    have := h.outside u
    grind [Function.update_apply, Phase.queue]
  · intro u q hq
    rw [hqueue, hcredit]
    apply h.inside u q
    grind [Function.update_apply]
  · intro u q hq
    have := h.drained u q
    grind [Function.update_apply]

omit [DecidableEq Q] in
/-- The end of the section of `t`, with the one message meant for it taken. -/
theorem finish (h : Sound bar r w) {t : T} {w' : Waits T Q}
    (hqueue : w'.queue = w.queue) (hprevp : w'.prevp = w.prevp)
    (hport : ∀ u, u ≠ t → w'.port u = w.port u)
    (hcons : w'.port t + 1 = w.port t + (r t).phase.received)
    (hin : (r t).phase ≠ .out) (hgone : w.prevp t = none) :
  Sound bar (Function.update r t ⟨.out, (r t).owes, (r t).walk⟩) w'
  := by
  obtain ⟨q, hq⟩ := Option.ne_none_iff_exists'.mp ((Phase.queue_eq_none_iff _).not.mpr hin)
  have hone : credit r w t = 1 := by
    have := h.linked q t
    have := h.inside t q hq
    grind
  have hcredit : ∀ u, credit (Function.update r t ⟨.out, (r t).owes, (r t).walk⟩) w' u
      = if u = t then 0 else credit r w u := by
    intro u
    have := owed_update r t ⟨.out, (r t).owes, (r t).walk⟩ u
    simp only [Role.pending, credit] at *
    grind [Function.update_apply, Phase.received]
  have hfree : ∀ v, t ∉ (r v).walk := by
    intro v hv
    have := h.of_pending (t := v) (u := t) (by
      simp only [Role.pending]
      have := List.count_pos_iff.mpr hv
      omega)
    omega
  constructor
  · rw [hqueue]
    apply h.nodup
  · rw [hqueue, hprevp]
    apply h.linked
  · intro q u hp hu
    obtain ⟨v, hv⟩ := h.stray q u (hprevp ▸ hp) (hqueue ▸ hu)
    use v
    grind [Function.update_apply]
  · intro v u hu
    have := h.parked v u
    grind [Function.update_apply]
  · intro u q hq
    have := h.kind u q
    grind [Function.update_apply, Phase.queue]
  · intro u hu
    have := h.outside u
    grind [Function.update_apply]
  · intro u q hq
    rw [hqueue, hcredit]
    have := h.inside u q
    grind [Function.update_apply, Phase.queue]
  · intro u q hq
    have := h.drained u q
    grind [Function.update_apply]

/-- `t` enters a blocking section on `q`. -/
theorem enter (h : Sound bar r w) {t : T} {q : Q} {ph : Phase Q}
    (hout : (r t).phase = .out) (hph : ph.queue = some q) (hrec : ph.received = 0)
    (hkind : bar q ↔ ph = .parked q) (hdrain : ∀ q, ph ≠ .draining q) :
  Sound bar (Function.update r t ⟨ph, (r t).owes, (r t).walk⟩) (w.enqueue q t)
  := by
  obtain ⟨hpt, hct⟩ := h.outside t hout
  have hnot : ∀ q', t ∉ w.queue q' := by
    intro q' hm
    rw [h.linked q' t hm] at hpt
    cases hpt
  have hcredit : ∀ u, credit (Function.update r t ⟨ph, (r t).owes, (r t).walk⟩) (w.enqueue q t) u
      = credit r w u := by
    intro u
    have := owed_update r t ⟨ph, (r t).owes, (r t).walk⟩ u
    simp only [Role.pending, credit, Waits.enqueue_port] at *
    grind [Function.update_apply, Phase.received]
  constructor
  · intro q'
    have := h.nodup q'
    grind [Waits.enqueue_queue, Function.update_apply]
  · intro q' u hu
    have := h.linked q' u
    grind [Waits.enqueue_queue, Waits.enqueue_prevp, Function.update_apply]
  · intro q' u hp hu
    have : w.prevp u = some q' ∧ u ∉ w.queue q' := by
      grind [Waits.enqueue_queue, Waits.enqueue_prevp, Function.update_apply]
    obtain ⟨v, hv⟩ := h.stray q' u this.1 this.2
    use v
    grind [Function.update_apply]
  · intro v u hu
    have := h.parked v u
    grind [Function.update_apply]
  · intro u q' hq
    have := h.kind u q'
    grind [Function.update_apply]
  · intro u hu
    have := h.outside u
    grind [Waits.enqueue_prevp, Function.update_apply, Phase.queue]
  · intro u q' hq
    have := h.inside u q'
    grind [Waits.enqueue_queue, Function.update_apply]
  · intro u q' hq
    have := h.drained u q'
    grind [Waits.enqueue_prevp, Function.update_apply]

/-- A thread that is still queued when it looks at its link leaves its queue. -/
theorem leave (h : Sound bar r w) {t : T} {q : Q} {err : Bool}
    (hph : (r t).phase = .checking q err) (hstill : w.prevp t ≠ none) :
  Sound bar (Function.update r t ⟨.out, (r t).owes, (r t).walk⟩) (w.dequeue t)
  := by
  obtain ⟨q', hq'⟩ := Option.ne_none_iff_exists'.mp hstill
  have hmem : t ∈ w.queue q' := by
    by_contra hn
    obtain ⟨v, hv⟩ := h.stray q' t hq' hn
    obtain ⟨q'', hq''⟩ := h.parked v t hv
    rw [hph] at hq''
    cases hq''
  obtain ⟨-, hzero⟩ := h.queued hmem
  have hqueue := Waits.dequeue_queue hq'
  have hcredit : ∀ u, credit (Function.update r t ⟨.out, (r t).owes, (r t).walk⟩)
      (w.dequeue t) u = credit r w u := by
    intro u
    have := owed_update r t ⟨.out, (r t).owes, (r t).walk⟩ u
    simp only [Role.pending, credit, Waits.dequeue_port] at *
    grind [Function.update_apply, Phase.received]
  have hnodup := h.nodup q'
  constructor
  · intro q
    have := h.nodup q
    grind [Function.update_apply, List.Nodup.erase]
  · intro q u hu
    have := h.linked q u
    have := h.linked q' u
    grind [Function.update_apply, Waits.dequeue_prevp, List.Nodup.mem_erase_iff]
  · intro q u hp hu
    have : w.prevp u = some q ∧ u ∉ w.queue q := by
      grind [Waits.dequeue_prevp, Function.update_apply, List.Nodup.mem_erase_iff]
    obtain ⟨v, hv⟩ := h.stray q u this.1 this.2
    use v
    grind [Function.update_apply]
  · intro v u hu
    have := h.parked v u
    grind [Function.update_apply]
  · intro u q hq
    have := h.kind u q
    grind [Function.update_apply, Phase.queue]
  · intro u hu
    have := h.outside u
    grind [Waits.dequeue_prevp, Function.update_apply]
  · intro u q hq
    rw [hcredit]
    have := h.inside u q
    grind [Function.update_apply, Phase.queue, List.Nodup.mem_erase_iff]
  · intro u q hq
    have := h.drained u q
    grind [Waits.dequeue_prevp, Function.update_apply]

/-- `t` takes `u` off its queue and owes it a message. -/
theorem dequeue (h : Sound bar r w) (t : T) {u : T} {q : Q} (hmem : u ∈ w.queue q) :
  Sound bar (Function.update r t ⟨(r t).phase, u :: (r t).owes, (r t).walk⟩) (w.dequeue u)
  := by
  obtain ⟨hph, hzero⟩ := h.queued hmem
  have hprevp := h.linked q u hmem
  have hqueue := Waits.dequeue_queue hprevp
  have hnodup := h.nodup q
  have hcredit : ∀ v, credit (Function.update r t ⟨(r t).phase, u :: (r t).owes, (r t).walk⟩)
      (w.dequeue u) v = if v = u then 1 else credit r w v := by
    intro v
    have := owed_update r t ⟨(r t).phase, u :: (r t).owes, (r t).walk⟩ v
    simp only [Role.pending, credit, Waits.dequeue_port] at *
    grind [Function.update_apply]
  constructor
  · intro q
    have := h.nodup q
    grind [Function.update_apply, List.Nodup.erase]
  · intro q' v hv
    have := h.linked q' v
    have := h.linked q v
    grind [Function.update_apply, Waits.dequeue_prevp, List.Nodup.mem_erase_iff]
  · intro q' v hp hv
    have : w.prevp v = some q' ∧ v ∉ w.queue q' := by
      grind [Waits.dequeue_prevp, Function.update_apply, List.Nodup.mem_erase_iff]
    obtain ⟨v', hv'⟩ := h.stray q' v this.1 this.2
    use v'
    grind [Function.update_apply]
  · intro v v' hv
    have := h.parked v v'
    grind [Function.update_apply]
  · intro v q' hq
    have := h.kind v q'
    grind [Function.update_apply]
  · intro v hv
    have := h.outside v
    grind [Waits.dequeue_prevp, Function.update_apply]
  · intro v q' hq
    rw [hcredit]
    have := h.inside v q'
    have := h.linked q' v
    have := fun q'' => h.linked q'' u
    grind [Function.update_apply, List.Nodup.mem_erase_iff]
  · intro v q' hq
    have := h.drained v q'
    grind [Waits.dequeue_prevp, Function.update_apply]

/-- `t` takes all threads off the queue `q` and owes each of them a message. -/
theorem dequeueAll (h : Sound bar r w) (t : T) (q : Q) :
  Sound bar (Function.update r t ⟨(r t).phase, w.queue q ++ (r t).owes, (r t).walk⟩)
    (w.dequeueAll q)
  := by
  have hnodup := h.nodup q
  have hcredit : ∀ v, credit (Function.update r t
      ⟨(r t).phase, w.queue q ++ (r t).owes, (r t).walk⟩) (w.dequeueAll q) v
      = if v ∈ w.queue q then 1 else credit r w v := by
    intro v
    have := owed_update r t ⟨(r t).phase, w.queue q ++ (r t).owes, (r t).walk⟩ v
    have hq := fun hv => (h.queued (u := v) (q := q) hv).2
    simp only [Role.pending, credit, Waits.dequeueAll_port, List.count_append] at *
    grind [Function.update_apply, List.Nodup.count]
  constructor
  · intro q'
    have := h.nodup q'
    grind [Waits.dequeueAll_queue, Function.update_apply]
  · intro q' v hv
    have := h.linked q' v
    have := h.linked q v
    grind [Waits.dequeueAll_queue, Waits.dequeueAll_prevp, Function.update_apply]
  · intro q' v hp hv
    have : w.prevp v = some q' ∧ v ∉ w.queue q' := by
      grind [Waits.dequeueAll_queue, Waits.dequeueAll_prevp, Function.update_apply]
    obtain ⟨v', hv'⟩ := h.stray q' v this.1 this.2
    use v'
    grind [Function.update_apply]
  · intro v v' hv
    have := h.parked v v'
    grind [Function.update_apply]
  · intro v q' hq
    have := h.kind v q'
    grind [Function.update_apply]
  · intro v hv
    have := h.outside v
    have := fun hv => (h.queued (u := v) (q := q) hv).1
    grind [Waits.dequeueAll_prevp, Function.update_apply, Phase.queue]
  · intro v q' hq
    rw [hcredit]
    have := h.inside v q'
    have := fun q'' => h.linked q'' v
    grind [Waits.dequeueAll_queue, Function.update_apply]
  · intro v q' hq
    have := h.drained v q'
    grind [Waits.dequeueAll_prevp, Function.update_apply]

/-- `t` detaches the queue `q`, whose members it has still to visit. -/
theorem detach (h : Sound bar r w) (t : T) {q : Q} (hbar : bar q) :
  Sound bar (Function.update r t ⟨(r t).phase, (r t).owes, w.queue q ++ (r t).walk⟩)
    (w.detach q)
  := by
  have hnodup := h.nodup q
  have hcredit : ∀ v, credit (Function.update r t
      ⟨(r t).phase, (r t).owes, w.queue q ++ (r t).walk⟩) (w.detach q) v
      = if v ∈ w.queue q then 1 else credit r w v := by
    intro v
    have := owed_update r t ⟨(r t).phase, (r t).owes, w.queue q ++ (r t).walk⟩ v
    have hq := fun hv => (h.queued (u := v) (q := q) hv).2
    simp only [Role.pending, credit, Waits.detach_port, List.count_append] at *
    grind [Function.update_apply, List.Nodup.count]
  constructor
  · intro q'
    have := h.nodup q'
    grind [Waits.detach_queue, Function.update_apply]
  · intro q' v hv
    have := h.linked q' v
    grind [Waits.detach_queue, Waits.detach_prevp, Function.update_apply]
  · intro q' v hp hv
    rw [Waits.detach_prevp] at hp
    by_cases hm : v ∈ w.queue q
    · use t
      simp [hm]
    · have : v ∉ w.queue q' := by
        grind [Waits.detach_queue, Function.update_apply]
      obtain ⟨v', hv'⟩ := h.stray q' v hp this
      use v'
      grind [Function.update_apply]
  · intro v v' hv
    have := h.parked v v'
    have hq := fun hv => (h.queued (u := v') (q := q) hv).1
    have := h.kind v' q
    grind [Function.update_apply]
  · intro v q' hq
    have := h.kind v q'
    grind [Function.update_apply]
  · intro v hv
    have := h.outside v
    have := fun hv => (h.queued (u := v) (q := q) hv).1
    grind [Waits.detach_prevp, Function.update_apply, Phase.queue]
  · intro v q' hq
    rw [hcredit]
    have := h.inside v q'
    have := fun q'' => h.linked q'' v
    grind [Waits.detach_queue, Function.update_apply]
  · intro v q' hq
    have := h.drained v q'
    grind [Waits.detach_prevp, Function.update_apply]

omit [DecidableEq Q] in
/-- `t` visits the first member `u` of its detached list. -/
theorem visit (h : Sound bar r w) {t u : T} {k : List T} (hwalk : (r t).walk = u :: k) :
  Sound bar (Function.update r t ⟨(r t).phase, u :: (r t).owes, k⟩) (w.unlink u)
  := by
  have hpend : 0 < (r t).pending u := by
    simp [Role.pending, hwalk]
  obtain ⟨hone, -, -, hno⟩ := h.of_pending hpend
  have hcredit : ∀ v, credit (Function.update r t ⟨(r t).phase, u :: (r t).owes, k⟩)
      (w.unlink u) v = credit r w v := by
    intro v
    have := owed_update r t ⟨(r t).phase, u :: (r t).owes, k⟩ v
    simp only [Role.pending, credit, Waits.unlink_port, hwalk] at *
    grind [Function.update_apply]
  constructor
  · apply h.nodup
  · intro q v hv
    have := h.linked q v
    grind [Waits.unlink_queue, Waits.unlink_prevp, Function.update_apply]
  · intro q v hp hv
    have : w.prevp v = some q ∧ v ≠ u := by
      grind [Waits.unlink_prevp, Function.update_apply]
    obtain ⟨v', hv'⟩ := h.stray q v this.1 hv
    use v'
    grind [Function.update_apply]
  · intro v v' hv
    have := h.parked v v'
    grind [Function.update_apply]
  · intro v q hq
    have := h.kind v q
    grind [Function.update_apply]
  · intro v hv
    have := h.outside v
    grind [Waits.unlink_prevp, Function.update_apply]
  · intro v q hq
    rw [hcredit]
    have := h.inside v q
    grind [Waits.unlink_queue, Function.update_apply]
  · intro v q hq
    have := h.drained v q
    grind [Waits.unlink_prevp, Function.update_apply]

omit [DecidableEq Q] in
/-- `t` sends `u` the message it owes it. -/
theorem send (h : Sound bar r w) {t u : T} {o : List T} (howes : (r t).owes = u :: o) :
  Sound bar (Function.update r t ⟨(r t).phase, o, (r t).walk⟩) (w.send u)
  := by
  have hcredit : ∀ v, credit (Function.update r t ⟨(r t).phase, o, (r t).walk⟩)
      (w.send u) v = credit r w v := by
    intro v
    have := owed_update r t ⟨(r t).phase, o, (r t).walk⟩ v
    simp only [Role.pending, credit, Waits.send_port, howes] at *
    grind [Function.update_apply]
  constructor
  · apply h.nodup
  · apply h.linked
  · intro q v hp hv
    obtain ⟨v', hv'⟩ := h.stray q v hp hv
    use v'
    grind [Function.update_apply]
  · intro v v' hv
    have := h.parked v v'
    grind [Function.update_apply]
  · intro v q hq
    have := h.kind v q
    grind [Function.update_apply]
  · intro v hv
    have := h.outside v
    grind [Waits.send_prevp, Function.update_apply]
  · intro v q hq
    rw [hcredit]
    have := h.inside v q
    grind [Waits.send_queue, Function.update_apply]
  · intro v q hq
    have := h.drained v q
    grind [Waits.send_prevp, Function.update_apply]

omit [DecidableEq Q] in
/-- The port of a thread to which a message is owed is empty. -/
theorem port_of_owes (h : Sound bar r w) {t u : T} (hu : u ∈ (r t).owes) :
  w.port u = 0
  := by
  have hpend : 0 < (r t).pending u := by
    have := List.count_pos_iff.mpr hu
    simp only [Role.pending]
    omega
  apply (h.of_pending hpend).2.1

omit [DecidableEq Q] in
/-- A thread that has received its message is on no queue. -/
theorem gone_of_received (h : Sound bar r w) {t : T} {q : Q}
    (hph : (r t).phase = .checking q false) :
  w.prevp t = none
  := by
  by_contra hne
  obtain ⟨q', hq'⟩ := Option.ne_none_iff_exists'.mp hne
  by_cases hm : t ∈ w.queue q'
  · have := (h.queued hm).2
    simp [credit, hph] at this
  · obtain ⟨v, hv⟩ := h.stray q' t hq' hm
    obtain ⟨q'', hq''⟩ := h.parked v t hv
    rw [hph] at hq''
    cases hq''

omit [DecidableEq Q] in
/-- A thread that waits on no queue and has no message yet is owed one. -/
theorem exists_pending (h : Sound bar r w) {t : T} {q : Q} (hph : (r t).phase.queue = some q)
    (hout : t ∉ w.queue q) (hport : w.port t = 0) (hreceived : (r t).phase.received = 0) :
  ∃ v, t ∈ (r v).owes ∨ t ∈ (r v).walk
  := by
  have hone : owed r t = 1 := by
    have hcredit := h.inside t q hph
    simp only [credit, hport, hreceived] at hcredit
    grind
  obtain ⟨v, -, hv⟩ : ∃ v ∈ univ, (r v).pending t ≠ 0 := by
    apply exists_ne_zero_of_sum_ne_zero
    rw [owed] at hone
    omega
  use v
  by_contra hnot
  rw [not_or] at hnot
  apply hv
  simp [Role.pending, List.count_eq_zero_of_not_mem hnot.1, List.count_eq_zero_of_not_mem hnot.2]

omit [DecidableEq Q] in
/-- A message is on its way to a thread that has been dequeued and has not received it. -/
theorem exists_waker (h : Sound bar r w) {t : T} {q : Q} {timed : Bool}
    (hph : (r t).phase = .blocking q timed) (hgone : w.prevp t = none)
    (hport : w.port t = 0) :
  ∃ v, t ∈ (r v).owes
  := by
  have hout : t ∉ w.queue q := by
    intro hm
    simp [h.linked q t hm] at hgone
  obtain ⟨v, howes | hwalk⟩ := h.exists_pending (by simp [hph]) hout hport (by simp [hph])
  · use v
  · obtain ⟨q', hq'⟩ := h.parked v t hwalk
    rw [hph] at hq'
    cases hq'

omit [DecidableEq Q] in
/-- A parked thread with a message on its port is no longer linked. -/
theorem gone_of_message (h : Sound bar r w) {t : T} (hport : 0 < w.port t) :
  w.prevp t = none
  := by
  by_contra hne
  obtain ⟨q', hq'⟩ := Option.ne_none_iff_exists'.mp hne
  by_cases hm : t ∈ w.queue q'
  · have := (h.queued hm).2
    rw [credit] at this
    omega
  · obtain ⟨v, hv⟩ := h.stray q' t hq' hm
    have hpend : 0 < (r v).pending t := by
      have := List.count_pos_iff.mpr hv
      simp only [Role.pending]
      omega
    have := (h.of_pending hpend).2.1
    omega

end Sound

/-- Every act of the protocol keeps its invariant. -/
theorem Act.sound {bar on : Q → Prop} {r : T → Role T Q} {t : T} {w w' : Waits T Q}
    {x : Role T Q} (h : Sound bar r w) (act : Act bar on t w (r t) w' x) :
  Sound bar (Function.update r t x) w'
  := by
  cases act with
  | skip =>
      rw [Function.update_eq_self]
      apply h
  | enqueue q timed hout hkind hacts =>
      apply h.enter hout rfl rfl _ (by simp)
      simp [hkind]
  | park q hout hkind hacts =>
      apply h.enter hout rfl rfl _ (by simp)
      simp [hkind]
  | dequeue q u hmem hacts =>
      apply h.dequeue t hmem
  | dequeueAll q hacts =>
      apply h.dequeueAll
  | detach q hkind hacts =>
      apply h.detach t hkind
  | visit u k hwalk =>
      apply h.visit hwalk
  | send u o howes =>
      apply h.send howes
  | receive q timed hph hport =>
      apply h.advance (show (w.receive t).queue = w.queue from rfl) rfl
      · intro u hu
        simp [hu]
      · simp only [Waits.receive_port, Function.update_self, hph, Phase.received]
        omega
      · simp [hph]
      · simp [hph]
      · simp
  | timeout q hph =>
      apply h.advance rfl rfl
      · simp
      · simp [hph]
      · simp [hph]
      · simp [hph]
      · simp
  | woken q hph hgone =>
      apply h.finish rfl rfl (fun _ _ => rfl) _ _ hgone
      · simp [hph]
      · simp [hph]
  | late q hph hgone =>
      apply h.advance rfl rfl
      · simp
      · simp [hph]
      · simp [hph]
      · simp [hph]
      · intro _ _
        apply hgone
  | leave q err hph hstill hacts =>
      apply h.leave hph hstill
  | drain q hph hport =>
      apply h.finish (show (w.receive t).queue = w.queue from rfl) rfl
      · intro u hu
        simp [hu]
      · simp only [Waits.receive_port, Function.update_self, hph, Phase.received]
        omega
      · simp [hph]
      · apply h.drained t q hph
  | pass q hph hport =>
      apply h.finish (show (w.receive t).queue = w.queue from rfl) rfl
      · intro u hu
        simp [hu]
      · simp only [Waits.receive_port, Function.update_self, hph, Phase.received]
        omega
      · simp [hph]
      · apply h.gone_of_message hport

section Act

variable {bar on on' : Q → Prop} {r : T → Role T Q} {t u : T} {w w' : Waits T Q} {x x' : Role T Q}

omit [Fintype T] in
theorem Act.mono (act : Act bar on t w x w' x') (h : ∀ q, on q → on' q) :
  Act bar on' t w x w' x'
  := by
  cases act with
  | skip => apply Act.skip
  | enqueue q timed hout hkind hacts => apply Act.enqueue q timed hout hkind (h q hacts)
  | park q hout hkind hacts => apply Act.park q hout hkind (h q hacts)
  | dequeue q u hmem hacts => apply Act.dequeue q u hmem (h q hacts)
  | dequeueAll q hacts => apply Act.dequeueAll q (h q hacts)
  | detach q hkind hacts => apply Act.detach q hkind (h q hacts)
  | visit u k hwalk => apply Act.visit u k hwalk
  | send u o howes => apply Act.send u o howes
  | receive q timed hph hport => apply Act.receive q timed hph hport
  | timeout q hph => apply Act.timeout q hph
  | woken q hph hgone => apply Act.woken q hph hgone
  | late q hph hgone => apply Act.late q hph hgone
  | leave q err hph hstill hacts => apply Act.leave q err hph hstill (h q hacts)
  | drain q hph hport => apply Act.drain q hph hport
  | pass q hph hport => apply Act.pass q hph hport

omit [Fintype T] in
/-- An act on the queue `q`, as an act on the queue named by a function that names `q`. -/
theorem Act.on_some {q : Q} (act : Act bar (Eq q) t w x w' x') :
  Act bar (fun q' => some q = some q') t w x w' x'
  := by
  apply act.mono
  rintro q' rfl
  rfl

omit [DecidableEq Q] in
/-- The queue on which a thread is linked is the one it waits on. -/
theorem Sound.queue_of_linked (h : Sound bar r w) {q : Q} (hp : w.prevp u = some q) :
  (r u).phase.queue = some q ∨ ∃ q', (r u).phase = .parked q'
  := by
  by_cases hm : u ∈ w.queue q
  · left
    apply (h.queued hm).1
  · right
    obtain ⟨v, hv⟩ := h.stray q u hp hm
    apply h.parked v u hv

/-- An act leaves the other queues alone. -/
theorem Act.queue_eq (h : Sound bar r w) (act : Act bar on t w (r t) w' x) {q : Q}
    (hq : ¬ on q) :
  w'.queue q = w.queue q
  := by
  have hne : ∀ q', on q' → q ≠ q' := by
    rintro q' hq' rfl
    apply hq hq'
  cases act with
  | enqueue q' timed hout hkind hacts => simp [hne q' hacts]
  | park q' hout hkind hacts => simp [hne q' hacts]
  | dequeue q' u hmem hacts =>
      rw [Waits.dequeue_queue (h.linked q' u hmem), if_neg (hne q' hacts)]
  | dequeueAll q' hacts => simp [hne q' hacts]
  | detach q' hkind hacts => simp [hne q' hacts]
  | leave q' err hph hstill hacts =>
      obtain ⟨q'', hq''⟩ := Option.ne_none_iff_exists'.mp hstill
      have hsame : q'' = q' := by
        rcases h.queue_of_linked hq'' with hqueue | ⟨q₀, hpark⟩
        · simpa [hph, eq_comm] using hqueue
        · rw [hph] at hpark
          cases hpark
      subst hsame
      rw [Waits.dequeue_queue hq'', if_neg (hne q'' hacts)]
  | _ => rfl

omit [Fintype T] in
/-- An act links no other thread than the one that takes it. -/
theorem Act.prevp_other (act : Act bar on t w x w' x') (hu : u ≠ t) :
  w'.prevp u = w.prevp u ∨ w'.prevp u = none
  := by
  cases act with
  | enqueue q timed hout hkind hacts => simp [hu]
  | park q hout hkind hacts => simp [hu]
  | dequeue q v hmem hacts =>
      simp only [Waits.dequeue_prevp]
      split <;> simp
  | dequeueAll q hacts =>
      simp only [Waits.dequeueAll_prevp]
      split <;> simp
  | visit v k hwalk =>
      simp only [Waits.unlink_prevp, Function.update_apply]
      split <;> simp
  | leave q err hph hstill hacts => simp [hu]
  | _ => simp

omit [Fintype T] in
/-- An act puts no other thread on a queue than the one that takes it. -/
theorem Act.mem_queue (act : Act bar on t w x w' x') {q : Q} (hu : u ∈ w'.queue q) :
  u ∈ w.queue q ∨ (u = t ∧ x.phase = .out ∧ x'.phase.queue = some q)
  := by
  cases act with
  | enqueue q' timed hout hkind hacts =>
      by_cases hq : q = q'
      · subst hq
        simp only [Waits.enqueue_queue, Function.update_self, List.mem_cons] at hu
        simpa [hout, or_comm] using hu
      · left
        simpa [hq] using hu
  | park q' hout hkind hacts =>
      by_cases hq : q = q'
      · subst hq
        simp only [Waits.enqueue_queue, Function.update_self, List.mem_cons] at hu
        simpa [hout, or_comm] using hu
      · left
        simpa [hq] using hu
  | dequeue q' v hmem hacts => exact .inl (Waits.mem_of_mem_dequeue hu)
  | dequeueAll q' hacts =>
      left
      by_cases hq : q = q'
      · subst hq
        simp at hu
      · simpa [hq] using hu
  | detach q' hkind hacts =>
      left
      by_cases hq : q = q'
      · subst hq
        simp at hu
      · simpa [hq] using hu
  | leave q' err hph hstill hacts => exact .inl (Waits.mem_of_mem_dequeue hu)
  | _ => exact .inl hu

omit [Fintype T] in
/-- An act that makes its thread owe a message to `u` finds `u` on a queue it acts on. -/
theorem Act.mem_of_pending (act : Act bar on t w x w' x') (hu : x.pending u < x'.pending u) :
  ∃ q, on q ∧ u ∈ w.queue q
  := by
  cases act with
  | dequeue q v hmem hacts =>
      have hv : u = v := by
        by_contra hne
        simp [Role.pending, Ne.symm hne] at hu
      use q, hacts, hv ▸ hmem
  | dequeueAll q hacts =>
      refine ⟨q, hacts, ?_⟩
      by_contra hn
      simp [Role.pending, List.count_eq_zero_of_not_mem hn] at hu
  | detach q hkind hacts =>
      refine ⟨q, hacts, ?_⟩
      by_contra hn
      simp [Role.pending, List.count_eq_zero_of_not_mem hn] at hu
  | visit v k hwalk =>
      simp only [Role.pending, hwalk, List.count_cons] at hu
      omega
  | send v o howes =>
      simp only [Role.pending, howes, List.count_cons] at hu
      omega
  | _ => simp [Role.pending] at hu

omit [DecidableEq Q] in
/-- A thread that waits on a queue of the other kind is on it as long as it is linked. -/
theorem Sound.mem_of_linked (h : Sound bar r w) {q q' : Q} (hq : (r u).phase.queue = some q)
    (hbar : ¬ bar q) (hp : w.prevp u = some q') :
  q' = q ∧ u ∈ w.queue q
  := by
  have hpark : ∀ q₀, (r u).phase ≠ .parked q₀ := by
    intro q₀ hq₀
    have hsame : q₀ = q := by simpa [hq₀] using hq
    apply hbar ((h.kind u q hq).mpr (hsame ▸ hq₀))
  have hmem : u ∈ w.queue q' := by
    by_contra hn
    obtain ⟨v, hv⟩ := h.stray q' u hp hn
    obtain ⟨q₀, hq₀⟩ := h.parked v u hv
    apply hpark q₀ hq₀
  have hsame := (h.queued hmem).1
  rw [hq] at hsame
  obtain rfl := Option.some.inj hsame
  use rfl

/-- The link of a thread that waits on a queue is not changed by the acts of other threads
that leave the queue alone. -/
theorem Act.prevp_eq (h : Sound bar r w) (act : Act bar on t w (r t) w' x) {q : Q}
    (hu : u ≠ t) (hq : (r u).phase.queue = some q) (hbar : ¬ bar q) (hon : ¬ on q) :
  w'.prevp u = w.prevp u
  := by
  rcases act.prevp_other hu with hsame | hnone
  · apply hsame
  · cases hp : w.prevp u with
    | none => apply hnone
    | some q' =>
        obtain ⟨rfl, hmem⟩ := h.mem_of_linked hq hbar hp
        have hsound := act.sound h
        rw [← act.queue_eq h hon] at hmem
        apply hsound.linked q' u hmem

end Act

/-! ### Machines whose steps are acts of the protocol -/

variable {Obj Loc Ret : Type}

/-- The role of every thread of a system in which thread `t` has the role `role t l` at the
control point `l`. -/
def roles (role : T → Loc → Role T Q) (s : State T (World Obj T Q) Loc Ret) (t : T) : Role T Q :=
  (s.loc t).elim .idle (role t)

/-- Every step of the machine from a control point satisfying `ok` is an act of the
protocol and leads to such a control point again, as long as the ports of the threads to
which the acting thread owes a message are empty. -/
structure Conforms (M : Machine T (World Obj T Q) Loc Ret) (bar : Q → Prop)
    (role : T → Loc → Role T Q) (ok : Loc → Prop) : Prop where
  entry : ∀ t l, M.entry l = true → ok l → role t l = .idle
  goto : ∀ t l c s s' l', ok l → (∀ u ∈ (role t l).owes, s.waits.port u = 0) →
    M.step t l c s = .goto s' l' →
      ok l' ∧ Act bar (fun _ => True) t s.waits (role t l) s'.waits (role t l')
  ret : ∀ t l c s s' r, ok l → (∀ u ∈ (role t l).owes, s.waits.port u = 0) →
    M.step t l c s = .ret s' r → Act bar (fun _ => True) t s.waits (role t l) s'.waits .idle

omit [Fintype T] [DecidableEq Q] in
theorem roles_update (role : T → Loc → Role T Q) {s s' : State T (World Obj T Q) Loc Ret} {t : T}
    {o : Option Loc} (h : s'.loc = Function.update s.loc t o) :
  roles role s' = Function.update (roles role s) t (o.elim .idle (role t))
  := by
  funext u
  by_cases hu : u = t
  · subst hu
    simp [roles, h]
  · simp [roles, h, hu]

omit [DecidableEq Q] in
theorem Sound.init (bar : Q → Prop) :
  Sound bar (fun _ => (Role.idle : Role T Q)) Waits.empty
  := by
  have hcredit : ∀ u : T, credit (fun _ => (Role.idle : Role T Q)) Waits.empty u = 0 := by
    intro u
    simp [credit, owed, Role.pending, Role.idle, Waits.empty]
  constructor
  all_goals simp [Waits.empty, Role.idle]
  apply hcredit

/-- A step of thread `t` that is an act of the protocol keeps its invariant. -/
theorem Sound.step {bar on : Q → Prop} {role : T → Loc → Role T Q}
    {s s' : State T (World Obj T Q) Loc Ret} {t : T} {o : Option Loc}
    (h : Sound bar (roles role s) s.shared.waits)
    (hloc : s'.loc = Function.update s.loc t o)
    (act : Act bar on t s.shared.waits (roles role s t) s'.shared.waits
      (o.elim .idle (role t))) :
  Sound bar (roles role s') s'.shared.waits
  := by
  rw [roles_update role hloc]
  apply act.sound h

/-- The invariant of the protocol holds in every run of a machine that conforms to it. -/
theorem Conforms.sound {M : Machine T (World Obj T Q) Loc Ret} {bar : Q → Prop}
    {role : T → Loc → Role T Q} {ok : Loc → Prop} (hM : Conforms M bar role ok)
    {G : State T (World Obj T Q) Loc Ret → Label T Loc → Prop}
    (hG : ∀ s t l, G s (.call t l) → ok l) {o : Obj} {s : State T (World Obj T Q) Loc Ret}
    (hs : M.Reach G (State.idle ⟨o, Waits.empty⟩) s) :
  (∀ t l, s.loc t = some l → ok l) ∧ Sound bar (roles role s) s.shared.waits
  := by
  apply hs.invariant (I := fun s => (∀ t l, s.loc t = some l → ok l) ∧
    Sound bar (roles role s) s.shared.waits)
  · constructor
    · simp
    · apply Sound.init
  · rintro s a s' - ⟨hok, hsound⟩ hg hst
    cases hst with
    | @call t l hidle hentry =>
        have hl := hG s t l hg
        constructor
        · grind [State.call_loc, Function.update_apply]
        · apply hsound.step (t := t) (o := some l) rfl
          have hrole : roles role s t = .idle := by
            simp [roles, hidle]
          rw [hrole, Option.elim_some, hM.entry t l hentry hl]
          exact (Act.skip : Act bar (fun _ => True) t _ _ _ _)
    | @goto t c l l' x hl hstep =>
        have hrole : roles role s t = role t l := by
          simp [roles, hl]
        obtain ⟨hok', act⟩ := hM.goto t l c s.shared x l' (hok t l hl)
          (fun u hu => hsound.port_of_owes (hrole ▸ hu)) hstep
        constructor
        · grind [State.goto_loc, Function.update_apply]
        · apply hsound.step (t := t) (o := some l') rfl
          rw [hrole]
          apply act
    | @ret t c l x r hl hstep =>
        have hrole : roles role s t = role t l := by
          simp [roles, hl]
        have act := hM.ret t l c s.shared x r (hok t l hl)
          (fun u hu => hsound.port_of_owes (hrole ▸ hu)) hstep
        constructor
        · grind [State.ret_loc, Function.update_apply]
        · apply hsound.step (t := t) (o := none) rfl
          rw [hrole]
          apply act

end Concurrency
