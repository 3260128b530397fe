import LibPthread.Process.Wakeup
import LibPthread.Process.Exclusion

/-!
# The queue of a condition variable

What each step of a process does to the queue of a condition variable: a waiter is put on it
by its own enqueue, and taken off by a signal, a broadcast, its own time-out or its hook.
Without `pthread_cancel`, a waiter that has enqueued itself is queued until a signal or a
broadcast dequeues it or its blocking ends.
-/

open Concurrency

namespace LibPthread

/-- The control points of a wait from its enqueue to the end of its blocking. -/
def Cond.WaitLoc.blocked {T : Type} : Cond.WaitLoc T → Bool
  | .unlockCancel _ (some _) _ => true
  | .unlockMutex _ _ _ => true
  | .wait _ _ => true
  | _ => false

namespace Process

variable {T N : Type} [DecidableEq T] [DecidableEq N]

/-- The threads that a step of a signal or a broadcast takes off the queue of `c`. -/
def dequeues (c : N) : Event T (Loc T N) Ret → List T
  | .goto _ (.condSignal c' .start) (.condSignal _ (.wakeup u)) => if c' = c then [u] else []
  | .goto _ (.condBroadcast c' .start) (.condBroadcast _ (.wakeAll us)) => if c' = c then us else []
  | _ => []

/-- The step is the enqueue of `u`. -/
def isEnqueue (u : T) : Event T (Loc T N) Ret → Bool
  | .goto t (.condWait _ _ (.enqueue _)) _ => t = u
  | _ => false

/-- A signal or a broadcast has dequeued `u` from the queue of `c` since the latest enqueue
of `u`. -/
def dequeued (c : N) (u : T) : List (Event T (Loc T N) Ret) → Bool
  | [] => false
  | e :: log => !isEnqueue u e && (decide (u ∈ dequeues c e) || dequeued c u log)

/-! ### What each step does to the queue of a condition variable -/

/-- What a step from `l` to `l'` does to the queue of `c`. -/
inductive Requeue (c : N) (self : T) (w w' : Waits T (QueueRef T N)) :
    Loc T N → Loc T N → Prop where
  | keep {l l' : Loc T N} (queue : w'.queue (.cond c) = w.queue (.cond c))
    (calm : dequeues c (.goto self l l') = [])
    (stays : ∀ m timed, l = .condWait c m (.enqueue timed) →
      l' = .condWait c m (.unlockCancel timed none .start)) : Requeue c self w w' l l'
  | enqueue {m : N} {timed : Bool} {oldtype : CancelType}
    (queue : w'.queue (.cond c) = self :: w.queue (.cond c)) :
    Requeue c self w w' (.condWait c m (.enqueue timed))
      (.condWait c m (.unlockCancel timed (some oldtype) .start))
  | leave {m : N} {oldtype : CancelType} {err : Bool}
    (queue : w'.queue (.cond c) = (w.queue (.cond c)).erase self) :
    Requeue c self w w' (.condWait c m (.wait oldtype (.recheck err)))
      (.condWait c m (.relockCancel oldtype err (.start none)))
  | signal {u : T} {rest : List T} (first : w.queue (.cond c) = u :: rest)
    (queue : w'.queue (.cond c) = rest) :
    Requeue c self w w' (.condSignal c .start) (.condSignal c (.wakeup u))
  | broadcast (queue : w'.queue (.cond c) = []) :
    Requeue c self w w' (.condBroadcast c .start)
      (.condBroadcast c (.wakeAll (w.queue (.cond c))))
  | hook {target : T} {c' : N} (queue : w'.queue (.cond c) = (w.queue (.cond c)).erase target) :
    Requeue c self w w' (.cancel target (.hook c')) (.cancel target .hookWakeup)

section Requeue

variable {b : Build} {self : T} {l l' : Loc T N} {timeout : Bool} {s s' : Shared T N} {r : Ret}
    {c : N}

omit [DecidableEq T] [DecidableEq N] in
/-- A wait acts on the queue of a condition variable in its enqueue and while it blocks. -/
theorem WaitLoc.of_queue_cond {c' : N} {m : MutexRef T N} {k : Cond.WaitLoc T}
    (h : k.queue c m self = some (.cond c')) :
  c = c' ∧ ((∃ timed, k = .enqueue timed) ∨ ∃ oldtype stage, k = .wait oldtype stage)
  := by
  cases k with
  | enqueue timed =>
      cases h
      use rfl
      left
      use timed
  | wait oldtype stage =>
      cases h
      use rfl
      right
      use oldtype, stage
  | unlockCancel timed saved k => cases k <;> cases h
  | unlockMutex timed oldtype k => cases k <;> cases h
  | releaseCancel err cancelled k => cases k <;> cases h
  | _ => cases h

theorem timedwaitStep_requeue {m : N} {k k' : Cond.WaitLoc T}
    (hlink : ∀ q, s.waits.prevp self = some q →
      (k.role c (.user m) self).phase.queue = some q)
    (hq : k.queue c (.user m) self = some (.cond c))
    (h : Cond.timedwaitStep b c (.user m) self k timeout s = .goto s' k') :
  Requeue c self s.waits s'.waits (.condWait c m k) (.condWait c m k')
  := by
  obtain ⟨-, ⟨timed, rfl⟩ | ⟨oldtype, stage, rfl⟩⟩ := WaitLoc.of_queue_cond hq
  · rcases Cond.waitEnqueue_eq_goto h with ⟨-, rfl, rfl⟩ | ⟨-, -, rfl, rfl⟩
    · apply Requeue.keep rfl rfl
      intro m timed hl
      cases hl
      rfl
    · apply Requeue.enqueue
      simp
  · rcases Cond.waitBlocked_eq_goto h with ⟨w, stage', hstep, rfl, rfl⟩ |
      ⟨w, err, hstep, rfl, rfl⟩
    · rcases waitStep_eq_goto hstep with ⟨timed, rfl, -, rfl, rfl⟩ | ⟨rfl, -, rfl, rfl⟩ |
        ⟨rfl, -, -, rfl, rfl⟩
      all_goals exact .keep rfl rfl (by simp)
    · rcases waitStep_eq_ret hstep with ⟨rfl, -, -, rfl, rfl⟩ | ⟨rfl, -, hstill, rfl⟩ |
        ⟨rfl, -, rfl, rfl⟩
      · exact .keep rfl rfl (by simp)
      · obtain ⟨q, hp⟩ := Option.ne_none_iff_exists'.mp hstill
        obtain rfl : QueueRef.cond c = q := Option.some.inj (hlink q hp)
        apply Requeue.leave
        rw [Waits.dequeue_queue hp, if_pos rfl]
      · exact .keep rfl rfl (by simp)

omit [DecidableEq T] in
theorem dequeues_of_not_touches {w : Waits T (QueueRef T N)} (h : ¬ l.Touches self w (.cond c)) :
  dequeues c (.goto self l l') = []
  := by
  cases l with
  | condSignal c' k =>
      have hc : c' ≠ c := by
        rintro rfl
        apply h rfl
      cases l' with
      | condSignal c'' k' => cases k <;> cases k' <;> simp [dequeues, hc]
      | _ => cases k <;> rfl
  | condBroadcast c' k =>
      have hc : c' ≠ c := by
        rintro rfl
        apply h rfl
      cases l' with
      | condBroadcast c'' k' => cases k <;> cases k' <;> simp [dequeues, hc]
      | _ => cases k <;> rfl
  | _ => rfl

variable [Fintype T]

/-- Every step does one of `Requeue` to the queue of each condition variable. -/
theorem stepInside_requeue {r : T → Role T (QueueRef T N)}
    (hsound : Sound QueueRef.IsBarrier r s.waits) (hr : r self = l.role self)
    (hqueued : ∀ target c, l = .cancel target (.hook c) →
      ∀ q, s.waits.prevp target = some q → target ∈ s.waits.queue q)
    (h : stepInside b self l timeout s = .goto s' l') :
  Requeue c self s.waits s'.waits l l'
  := by
  have hport : ∀ u ∈ (l.role self).owes, s.waits.port u = 0 := by
    intro u hu
    apply hsound.port_of_owes (hr ▸ hu)
  have hact := stepInside_act hport hqueued h
  by_cases htouch : l.Touches self s.waits (.cond c)
  · cases l with
    | mutex n k => cases htouch
    | rwlock n k =>
        obtain ⟨mode, hq⟩ := htouch
        cases hq
    | sem n k => cases htouch
    | barrier n k => cases htouch
    | condWait c₁ m k =>
        rcases Outcome.lift_eq_goto_iff.mp h with ⟨x, k', hstep, rfl, rfl⟩ | ⟨_, _, _, h'⟩
        · obtain ⟨rfl, -⟩ := WaitLoc.of_queue_cond htouch
          apply timedwaitStep_requeue _ htouch hstep
          intro q hp
          rcases hsound.queue_of_linked hp with hqueue | ⟨q', hpark⟩
          · rw [hr] at hqueue
            apply hqueue
          · rw [hr] at hpark
            obtain ⟨-, ⟨timed, rfl⟩ | ⟨oldtype, stage, rfl⟩⟩ := WaitLoc.of_queue_cond htouch
            · cases hpark
            · cases stage <;> cases hpark
        · cases h'
    | condSignal c₁ k =>
        obtain rfl : c₁ = c := by simpa [Loc.Touches] using htouch
        rcases Outcome.lift_eq_goto_iff.mp h with ⟨x, k', hstep, rfl, rfl⟩ | ⟨_, _, _, h'⟩
        · obtain ⟨rfl, -, u, rest, hq, rfl, rfl⟩ := Cond.signalStep_eq_goto hstep
          have hlink : s.waits.prevp u = some (.cond c₁) :=
            hsound.linked _ u (by simp only [] at hq; rw [hq]; exact List.mem_cons_self)
          apply Requeue.signal hq
          simp only [Shared.setCond_waits, Waits.dequeue_queue hlink, if_pos]
          simp only [] at hq
          rw [hq, List.erase_cons_head]
        · cases h'
    | condBroadcast c₁ k =>
        obtain rfl : c₁ = c := by simpa [Loc.Touches] using htouch
        rcases Outcome.lift_eq_goto_iff.mp h with ⟨x, k', hstep, rfl, rfl⟩ | ⟨_, _, _, h'⟩
        · rcases Cond.broadcastStep_eq_goto hport hstep with ⟨rfl, -, rfl, rfl⟩ |
            ⟨u, us, rfl, rfl, rfl⟩
          · apply Requeue.broadcast
            simp
          · exact .keep rfl rfl (by simp)
        · cases h'
    | cancel target k =>
        rcases Outcome.lift_eq_goto_iff.mp h with ⟨x, k', hstep, rfl, rfl⟩ | ⟨_, _, _, h'⟩
        · cases k with
          | hook c' =>
              have hlink : s.waits.prevp target = some (.cond c) := htouch
              obtain ⟨-, ⟨hgone, -, -⟩ | ⟨-, rfl, rfl⟩⟩ := cancelHook_eq_goto hstep
              · simp [hlink] at hgone
              · apply Requeue.hook
                rw [id_eq, Waits.dequeue_queue hlink, if_pos rfl]
          | unlock k => cases k <;> cases htouch
          | doUnlock k => cases k <;> cases htouch
          | _ => cases htouch
        · cases h'
    | set x k =>
        cases k with
        | unlock k => cases k <;> cases htouch
        | _ => cases htouch
  · apply Requeue.keep
    · apply Act.queue_eq hsound (hr ▸ hact) htouch
    · apply dequeues_of_not_touches htouch
    · rintro m timed rfl
      apply absurd rfl htouch

/-- The return of a call leaves the queues of the condition variables alone. -/
theorem stepInside_cond_ret {x : T → Role T (QueueRef T N)}
    (hsound : Sound QueueRef.IsBarrier x s.waits) (hx : x self = l.role self)
    (h : stepInside b self l timeout s = .ret s' r) :
  s'.waits.queue (.cond c) = s.waits.queue (.cond c)
  := by
  have hport : ∀ u ∈ (l.role self).owes, s.waits.port u = 0 := by
    intro u hu
    apply hsound.port_of_owes (hx ▸ hu)
  have hact := stepInside_act_ret hport h
  by_cases htouch : l.Touches self s.waits (.cond c)
  · cases l with
    | condWait c₁ m k =>
        obtain ⟨y, r'', hstep, -⟩ := Outcome.lift_eq_ret_iff.mp h
        obtain ⟨-, ⟨timed, rfl⟩ | ⟨oldtype, stage, rfl⟩⟩ := WaitLoc.of_queue_cond htouch
        · apply absurd hstep Cond.waitEnqueue_ne_ret
        · apply absurd hstep Cond.waitBlocked_ne_ret
    | condSignal c₁ k =>
        obtain ⟨y, r'', hstep, h'⟩ := Outcome.lift_eq_ret_iff.mp h
        obtain ⟨rfl, rfl⟩ := h'
        obtain ⟨-, ⟨rfl, -, -, rfl⟩ | ⟨u, rfl, rfl⟩⟩ := Cond.signalStep_eq_ret hport hstep
        · rfl
        · rfl
    | condBroadcast c₁ k =>
        obtain ⟨y, r'', hstep, h'⟩ := Outcome.lift_eq_ret_iff.mp h
        obtain ⟨rfl, rfl⟩ := h'
        obtain ⟨-, rfl, rfl⟩ := Cond.broadcastStep_eq_ret hport hstep
        rfl
    | cancel target k =>
        obtain ⟨y, r'', hstep, -⟩ := Outcome.lift_eq_ret_iff.mp h
        cases k with
        | hook c' => apply absurd hstep cancelHook_ne_ret
        | unlock k => cases k <;> cases htouch
        | doUnlock k => cases k <;> cases htouch
        | _ => cases htouch
    | rwlock n k =>
        obtain ⟨mode, hq⟩ := htouch
        cases hq
    | set x k =>
        cases k with
        | unlock k => cases k <;> cases htouch
        | _ => cases htouch
    | _ => cases htouch
  · apply Act.queue_eq hsound (hx ▸ hact) htouch

end Requeue

section Steps

variable {b : Build} {t : T} {l l' : Loc T N} {timeout : Bool} {s : Sys T N} {x : Shared T N}
    {r : Ret} {c m : N}

/-- A thread in a wait has been in the wait before. -/
theorem stepInside_condWait {s : Shared T N} {k' : Cond.WaitLoc T}
    (h : stepInside b t l timeout s = .goto x (.condWait c m k')) :
  ∃ k, l = .condWait c m k ∧ Cond.timedwaitStep b c (.user m) t k timeout s = .goto x k'
  := by
  cases l with
  | condWait c₁ m₁ k =>
      rcases Outcome.lift_eq_goto_iff.mp h with ⟨y, k₁, hstep, rfl, hk⟩ | ⟨_, _, _, h'⟩
      · cases hk
        use k, rfl, hstep
      · cases h'
  | _ =>
      rcases Outcome.lift_eq_goto_iff.mp h with ⟨y, k₁, -, -, hk⟩ | ⟨_, _, _, h'⟩
      · cases hk
      · cases h'

variable [Fintype T]

omit [DecidableEq T] [DecidableEq N] [Fintype T] in
theorem roles_of_loc (hl : s.loc t = some l) :
  roles (fun t => Loc.role t) s t = l.role t
  := by
  simp [roles, hl]

theorem Inv.requeue (h : Inv s) (hl : s.loc t = some l)
    (hstep : (machine b).step t l timeout s.shared = .goto x l') :
  Requeue c t s.shared.waits x.waits l l'
  := by
  apply stepInside_requeue (s := Shared.resume t s.shared) h.sound (roles_of_loc hl) _
    (step_eq_goto hstep)
  rintro target c' rfl q hlink
  apply (h.mem_of_hooked (h.hooking target t c' hl).1 hlink).2

theorem Inv.cond_ret (h : Inv s) (hl : s.loc t = some l)
    (hstep : (machine b).step t l timeout s.shared = .ret x r) :
  x.waits.queue (.cond c) = s.shared.waits.queue (.cond c)
  := stepInside_cond_ret (s := Shared.resume t s.shared) h.sound (roles_of_loc hl)
    (step_eq_ret hstep)

end Steps

/-! ### A waiter is queued until it is dequeued -/

section Listed

variable {b : Build} {t u : T} {l l' : Loc T N} {timeout : Bool} {s s' : Sys T N}
    {x : Shared T N} {r : Ret} {c m : N} {k k' : Cond.WaitLoc T}

/-- Every waiter from its enqueue to the end of its blocking is queued, unless a signal or a
broadcast has dequeued it since its enqueue. -/
def Listed (s : Sys T N) : Prop :=
  ∀ u c m k, s.loc u = some (.condWait c m k) → k.blocked = true →
    (u ∈ s.shared.waits.queue (.cond c) ↔ dequeued c u s.log = false)

omit [DecidableEq N] [DecidableEq T] in
/-- The blocking of a wait starts with its enqueue. -/
theorem blocked_of_flow (h : k.Flow k') (hk' : k'.blocked = true) :
  k.blocked = true ∨ ∃ timed oldtype, k = .enqueue timed ∧
    k' = .unlockCancel timed (some oldtype) .start
  := by
  cases h with
  | enqueued =>
      right
      refine ⟨_, _, rfl, rfl⟩
  | @unlocking timed saved v =>
      cases saved with
      | none => cases hk'
      | some oldtype => exact .inl rfl
  | unlocked => exact .inl rfl
  | leaving => exact .inl rfl
  | left => exact .inl rfl
  | received => exact .inl rfl
  | expired => exact .inl rfl
  | late => exact .inl rfl
  | _ => cases hk'

omit [DecidableEq N] in
theorem isEnqueue_of_blocked (hk : k.blocked = true) :
  isEnqueue u (.goto t (.condWait c m k) l') = false
  := by
  cases k with
  | enqueue timed => cases hk
  | _ => rfl

omit [DecidableEq N] in
theorem isEnqueue_of_ne (ht : u ≠ t) :
  isEnqueue u (.goto t l l') = false
  := by
  unfold isEnqueue
  split
  · rename_i heq
    cases heq
    simpa using ht.symm
  · rfl

variable [Fintype T]

/-- The step of another thread keeps a waiter listed. -/
theorem Listed.other (h : Inv s) (hl : s.loc t = some l) (hcalm : l.NotCancel) (hu : u ≠ t)
    (hstep : (machine b).step t l timeout s.shared = .goto x l')
    (hlisted : u ∈ s.shared.waits.queue (.cond c) ↔ dequeued c u s.log = false) :
  u ∈ x.waits.queue (.cond c) ↔ dequeued c u (s.goto t l x l').log = false
  := by
  have hnodup := h.sound.nodup (.cond c)
  simp only [State.goto_log, dequeued, isEnqueue_of_ne hu, Bool.not_false, Bool.true_and,
    Bool.or_eq_false_iff, decide_eq_false_iff_not, ← hlisted]
  cases h.requeue (c := c) hl hstep with
  | keep hqueue hdequeues => simp [hqueue, hdequeues]
  | enqueue hqueue => simp [hqueue, dequeues, hu]
  | leave hqueue => simp [hqueue, dequeues, List.mem_erase_of_ne hu]
  | @signal v rest hfirst hqueue =>
      rw [hfirst, List.nodup_cons] at hnodup
      simp only [hqueue, hfirst, dequeues, if_true, List.mem_cons]
      grind
  | broadcast hqueue => simp [hqueue, dequeues]
  | hook => cases hcalm

/-- The step of a waiter keeps it listed. -/
theorem Listed.self (h : Inv s) (hl : s.loc t = some l)
    (hstep : (machine b).step t l timeout s.shared = .goto x (.condWait c m k'))
    (hk' : k'.blocked = true)
    (hlisted : ∀ k, l = .condWait c m k → k.blocked = true →
      (t ∈ s.shared.waits.queue (.cond c) ↔ dequeued c t s.log = false)) :
  t ∈ x.waits.queue (.cond c) ↔ dequeued c t (s.goto t l x (.condWait c m k')).log = false
  := by
  obtain ⟨k, rfl, hwait⟩ := stepInside_condWait (step_eq_goto hstep)
  have hrequeue := h.requeue (c := c) hl hstep
  rcases blocked_of_flow (Cond.timedwaitStep_flow hwait) hk' with hk | ⟨timed, oldtype, rfl, rfl⟩
  · cases hrequeue with
    | keep hqueue hdequeues =>
        rw [hqueue, hlisted k rfl hk]
        simp [dequeued, isEnqueue_of_blocked hk, hdequeues]
    | enqueue => cases hk
    | leave => cases hk'
  · cases hrequeue with
    | keep _ _ hstays => cases hstays m timed rfl
    | enqueue hqueue => simp [hqueue, dequeued, isEnqueue]

/-- Every step without `pthread_cancel` keeps the waiters listed. -/
theorem Listed.step {a : Label T (Loc T N)} (h : Inv s) (hlisted : Listed s)
    (hcalm : ∀ t l, s.loc t = some l → l.NotCancel) (hstep : (machine b).Step s a s') :
  Listed s'
  := by
  intro u c m k' hu hk'
  cases hstep with
  | @call t l hidle hentry =>
      by_cases hut : u = t
      · subst hut
        obtain rfl : l = .condWait c m k' := by simpa using hu
        cases k' with
        | start abstime => cases hk'
        | _ => cases hentry
      · apply hlisted u c m k' (by simpa [hut] using hu) hk'
  | @goto t timeout l l' x hl h' =>
      by_cases hut : u = t
      · subst hut
        obtain rfl : l' = .condWait c m k' := by simpa using hu
        apply Listed.self h hl h' hk'
        rintro k rfl hk
        apply hlisted u c m k hl hk
      · apply Listed.other h hl (hcalm t l hl) hut h'
        apply hlisted u c m k' (by simpa [hut] using hu) hk'
  | @ret t timeout l x r hl h' =>
      by_cases hut : u = t
      · subst hut
        simp at hu
      · rw [State.ret_shared, h.cond_ret hl h']
        apply hlisted u c m k' (by simpa [hut] using hu) hk'

end Listed

/-! ### The locks of the condition variables and the redirected threads -/

section Frame

variable {b : Build} {self : T} {l l' : Loc T N} {timeout : Bool} {s s' : Shared T N} {r : Ret}

theorem timedwaitStep_frame {c : N} {m : MutexRef T N} {k k' : Cond.WaitLoc T}
    (h : Cond.timedwaitStep b c m self k timeout s = .goto s' k') :
  s'.obj.redirected = s.obj.redirected ∧ s'.obj.cond = s.obj.cond
  := by
  cases k with
  | start abstime =>
      simp only [Cond.timedwaitStep] at h
      split at h
      · cases h
      · cases h
        exact ⟨rfl, rfl⟩
  | enqueue timed =>
      rcases Cond.waitEnqueue_eq_goto h with ⟨-, rfl, -⟩ | ⟨-, -, rfl, -⟩
      · exact ⟨rfl, rfl⟩
      · exact ⟨rfl, rfl⟩
  | unlockCancel timed saved k =>
      rcases Shared.unlock_eq_goto h with ⟨x, k₁, -, rfl, -⟩ | ⟨x, r, -, h⟩
      · exact ⟨rfl, rfl⟩
      · cases saved with
        | none => cases h
        | some oldtype =>
            cases h
            exact ⟨rfl, rfl⟩
  | unlockMutex timed oldtype k =>
      rcases Shared.unlock_eq_goto h with ⟨x, k₁, -, rfl, -⟩ | ⟨x, r, -, h⟩
      · exact ⟨rfl, rfl⟩
      · cases h
        exact ⟨rfl, rfl⟩
  | wait oldtype stage =>
      rcases Cond.waitBlocked_eq_goto h with ⟨w, stage', -, rfl, -⟩ | ⟨w, err, -, rfl, -⟩
      · exact ⟨rfl, rfl⟩
      · exact ⟨rfl, rfl⟩
  | restore oldtype err =>
      cases h
      exact ⟨rfl, rfl⟩
  | releaseCancel err cancelled k =>
      rcases Shared.unlock_eq_goto h with ⟨x, k₁, -, rfl, -⟩ | ⟨x, r, -, h⟩
      · exact ⟨rfl, rfl⟩
      · cases h
        exact ⟨rfl, rfl⟩
  | relockMutex err cancelled k =>
      rcases Shared.lock_eq_goto h with ⟨x, k₁, -, rfl, -⟩ | ⟨x, r, -, h⟩
      · exact ⟨rfl, rfl⟩
      · cases h
  | _ =>
      rcases Shared.lock_eq_goto h with ⟨x, k₁, -, rfl, -⟩ | ⟨x, r, -, h⟩
      · exact ⟨rfl, rfl⟩
      · cases h
        exact ⟨rfl, rfl⟩

theorem timedwaitStep_frame_ret {c : N} {m : MutexRef T N} {k : Cond.WaitLoc T}
    (h : Cond.timedwaitStep b c m self k timeout s = .ret s' r) :
  s'.obj.redirected = s.obj.redirected ∧ s'.obj.cond = s.obj.cond
  := by
  rcases Cond.timedwaitStep_eq_ret h with ⟨abstime, -, rfl, -⟩ | ⟨timed, k, x, r', -, -, rfl, -⟩ |
    ⟨err, cancelled, k, x, r', -, -, rfl, -⟩
  · exact ⟨rfl, rfl⟩
  · exact ⟨rfl, rfl⟩
  · exact ⟨rfl, rfl⟩

theorem cancelStep_frame {target : T} {k k' : CancelLoc T N}
    (h : cancelStep b target self k timeout s = .goto s' k') :
  s'.obj.redirected = s.obj.redirected ∧ s'.obj.cond = s.obj.cond
  := by
  cases k with
  | lock k =>
      rcases Shared.lock_eq_goto h with ⟨x, k₁, -, rfl, -⟩ | ⟨x, r, -, h⟩
      · exact ⟨rfl, rfl⟩
      · cases h
        exact ⟨rfl, rfl⟩
  | check =>
      rcases cancelCheck_eq_goto h with ⟨-, rfl, -⟩ | ⟨-, rfl, -⟩
      · exact ⟨rfl, rfl⟩
      · exact ⟨rfl, rfl⟩
  | hook c =>
      obtain ⟨-, ⟨-, rfl, -⟩ | ⟨-, rfl, -⟩⟩ := cancelHook_eq_goto h
      · exact ⟨rfl, rfl⟩
      · exact ⟨rfl, rfl⟩
  | hookWakeup =>
      simp only [cancelStep, Build.wakeup, Build.assert] at h
      grind
  | unlock k =>
      rcases Shared.unlock_eq_goto h with ⟨x, k₁, -, rfl, -⟩ | ⟨x, r, -, h⟩
      · exact ⟨rfl, rfl⟩
      · cases h
  | doUnlock k =>
      rcases Shared.unlock_eq_goto h with ⟨x, k₁, -, rfl, -⟩ | ⟨x, r, -, h⟩
      · exact ⟨rfl, rfl⟩
      · split at h
        · cases h
        · cases h
          exact ⟨rfl, rfl⟩
  | redirect => cases h

theorem cancelStep_frame_ret {target : T} {k : CancelLoc T N}
    (h : cancelStep b target self k timeout s = .ret s' r) :
  s'.obj.cond = s.obj.cond ∧ (s'.obj.redirected = s.obj.redirected ∨
    (k = .redirect ∧ s'.obj.redirected = Function.update s.obj.redirected target true))
  := by
  cases k with
  | lock k =>
      obtain ⟨x, r', -, h⟩ := Shared.lock_eq_ret h
      cases h
  | check => apply absurd h cancelCheck_ne_ret
  | hook c => apply absurd h cancelHook_ne_ret
  | hookWakeup =>
      simp only [cancelStep, Build.wakeup, Build.assert] at h
      grind
  | unlock k =>
      obtain ⟨x, r', -, h⟩ := Shared.unlock_eq_ret h
      cases h
      exact ⟨rfl, .inl rfl⟩
  | doUnlock k =>
      obtain ⟨x, r', -, h⟩ := Shared.unlock_eq_ret h
      split at h
      · cases h
        exact ⟨rfl, .inl rfl⟩
      · cases h
  | redirect =>
      cases h
      exact ⟨rfl, .inr ⟨rfl, rfl⟩⟩

theorem setStep_frame {x : Setting} {k k' : SetLoc T}
    (h : setStep b x self k timeout s = .goto s' k') :
  s'.obj.redirected = s.obj.redirected ∧ s'.obj.cond = s.obj.cond
  := by
  cases k with
  | lock k =>
      rcases Shared.lock_eq_goto h with ⟨x, k₁, -, rfl, -⟩ | ⟨x, r, -, h⟩
      · exact ⟨rfl, rfl⟩
      · cases h
        exact ⟨rfl, rfl⟩
  | store =>
      cases h
      exact ⟨rfl, rfl⟩
  | unlock k =>
      rcases Shared.unlock_eq_goto h with ⟨x, k₁, -, rfl, -⟩ | ⟨x, r, -, h⟩
      · exact ⟨rfl, rfl⟩
      · cases h

theorem setStep_frame_ret {x : Setting} {k : SetLoc T}
    (h : setStep b x self k timeout s = .ret s' r) :
  s'.obj.redirected = s.obj.redirected ∧ s'.obj.cond = s.obj.cond
  := by
  cases k with
  | lock k =>
      obtain ⟨x, r', -, h⟩ := Shared.lock_eq_ret h
      cases h
  | store => cases h
  | unlock k =>
      obtain ⟨x, r', -, h⟩ := Shared.unlock_eq_ret h
      cases h
      exact ⟨rfl, rfl⟩

/-- A step inside a call redirects no thread, and only a broadcast changes a condition
variable. -/
theorem stepInside_frame (h : stepInside b self l timeout s = .goto s' l') :
  s'.obj.redirected = s.obj.redirected ∧
    ∀ c, (∀ k, l ≠ .condBroadcast c k) → s'.obj.cond c = s.obj.cond c
  := by
  cases l with
  | condWait c m k =>
      rcases Outcome.lift_eq_goto_iff.mp h with ⟨x, k', hstep, rfl, -⟩ | ⟨_, _, _, h'⟩
      · obtain ⟨hred, hcond⟩ := timedwaitStep_frame hstep
        use hred
        intro c _
        apply congrFun hcond
      · cases h'
  | condSignal c k =>
      rcases Outcome.lift_eq_goto_iff.mp h with ⟨x, k', hstep, rfl, -⟩ | ⟨_, _, _, h'⟩
      · obtain ⟨-, -, u, rest, -, -, rfl⟩ := Cond.signalStep_eq_goto hstep
        use rfl
        intro c' _
        simp
      · cases h'
  | condBroadcast c k =>
      rcases Outcome.lift_eq_goto_iff.mp h with ⟨x, k', hstep, rfl, -⟩ | ⟨_, _, _, h'⟩
      · use rfl
        intro c' hc
        have hne : c' ≠ c := by
          rintro rfl
          apply hc k rfl
        simp [hne]
      · cases h'
  | cancel target k =>
      rcases Outcome.lift_eq_goto_iff.mp h with ⟨x, k', hstep, rfl, -⟩ | ⟨_, _, _, h'⟩
      · obtain ⟨hred, hcond⟩ := cancelStep_frame hstep
        use hred
        intro c _
        apply congrFun hcond
      · cases h'
  | set x k =>
      rcases Outcome.lift_eq_goto_iff.mp h with ⟨y, k', hstep, rfl, -⟩ | ⟨_, _, _, h'⟩
      · obtain ⟨hred, hcond⟩ := setStep_frame hstep
        use hred
        intro c _
        apply congrFun hcond
      · cases h'
  | _ =>
      rcases Outcome.lift_eq_goto_iff.mp h with ⟨x, k', -, rfl, -⟩ | ⟨_, _, _, h'⟩
      · use rfl
        intro c _
        rfl
      · cases h'

/-- The return of a call redirects a thread only from the kernel calls of
`__pthread_do_cancel`. -/
theorem stepInside_frame_ret (hport : ∀ u ∈ (l.role self).owes, s.waits.port u = 0)
    (h : stepInside b self l timeout s = .ret s' r) :
  (s'.obj.redirected = s.obj.redirected ∨ ∃ target, l = .cancel target .redirect ∧
      s'.obj.redirected = Function.update s.obj.redirected target true) ∧
    ∀ c, (∀ k, l ≠ .condBroadcast c k) → s'.obj.cond c = s.obj.cond c
  := by
  cases l with
  | condWait c m k =>
      obtain ⟨y, r'', hstep, h'⟩ := Outcome.lift_eq_ret_iff.mp h
      cases h'
      obtain ⟨hred, hcond⟩ := timedwaitStep_frame_ret hstep
      use .inl hred
      intro c _
      apply congrFun hcond
  | condSignal c k =>
      obtain ⟨y, r'', hstep, h'⟩ := Outcome.lift_eq_ret_iff.mp h
      cases h'
      use .inl rfl
      intro c' _
      obtain ⟨-, ⟨-, -, -, rfl⟩ | ⟨u, -, rfl⟩⟩ := Cond.signalStep_eq_ret hport hstep
      · simp
      · simp
  | condBroadcast c k =>
      obtain ⟨y, r'', hstep, h'⟩ := Outcome.lift_eq_ret_iff.mp h
      cases h'
      use .inl rfl
      intro c' hc
      have hne : c' ≠ c := by
        rintro rfl
        apply hc k rfl
      simp [hne]
  | cancel target k =>
      obtain ⟨y, r'', hstep, h'⟩ := Outcome.lift_eq_ret_iff.mp h
      cases h'
      obtain ⟨hcond, hred⟩ := cancelStep_frame_ret hstep
      refine ⟨?_, fun c _ => congrFun hcond c⟩
      rcases hred with hred | ⟨rfl, hred⟩
      · left
        apply hred
      · right
        use target, rfl, hred
  | set x k =>
      obtain ⟨y, r'', hstep, h'⟩ := Outcome.lift_eq_ret_iff.mp h
      cases h'
      obtain ⟨hred, hcond⟩ := setStep_frame_ret hstep
      use .inl hred
      intro c _
      apply congrFun hcond
  | _ =>
      obtain ⟨y, r'', hstep, h'⟩ := Outcome.lift_eq_ret_iff.mp h
      cases h'
      use .inl rfl
      intro c _
      rfl

end Frame

end Process

end LibPthread
