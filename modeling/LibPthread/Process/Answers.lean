import LibPthread.Process.CondQueue
import LibPthread.Process.Cancellation

/-!
# Signals that are answered

A waiter that a signal has dequeued returns 0 if neither its time-out nor a request to cancel
it crosses the signal. A waiter that has timed out, or is cancelled, at that moment swallows
the signal: it returns `ETIMEDOUT` or is cancelled, and nobody passes the signal on.
-/

open Concurrency

namespace LibPthread

/-- The control points of a wait from its enqueue on that has neither timed out nor found
itself cancelled. -/
def Cond.WaitLoc.answers {T : Type} : Cond.WaitLoc T → Bool
  | .unlockCancel _ (some _) _ => true
  | .unlockMutex _ _ _ => true
  | .wait _ (.block _) => true
  | .wait _ (.recheck err) => !err
  | .relockCancel _ err _ => !err
  | .restore _ err => !err
  | .releaseCancel err cancelled _ => !err && !cancelled
  | .relockMutex err cancelled _ => !err && !cancelled
  | _ => false

/-- A wait goes on without an error until it times out or finds itself cancelled. -/
theorem Cond.WaitLoc.Flow.answers {T : Type} {k k' : Cond.WaitLoc T} (h : k.Flow k')
    (hk : k.answers = true) :
  k'.answers = true ∨
    (∃ oldtype, k = .wait oldtype (.block true) ∧ k' = .wait oldtype (.recheck true)) ∨
    (∃ oldtype err, k = .restore oldtype err ∧ k' = .releaseCancel err true .start)
  := by
  cases h with
  | @unlocking timed saved u =>
      cases saved with
      | none => cases hk
      | some oldtype => exact .inl rfl
  | unlocked => exact .inl rfl
  | leaving => exact .inl rfl
  | left => exact .inl rfl
  | received => exact .inl rfl
  | expired => exact .inr (.inl ⟨_, rfl, rfl⟩)
  | late => cases hk
  | unblocked => exact .inl hk
  | relocking => exact .inl hk
  | relocked => exact .inl hk
  | @restored oldtype err cancelled =>
      cases cancelled with
      | true => exact .inr (.inr ⟨_, _, rfl, rfl⟩)
      | false =>
          left
          simpa [Cond.WaitLoc.answers] using hk
  | releasing => exact .inl hk
  | released => exact .inl hk
  | returning => exact .inl hk
  | _ => cases hk

namespace Process

variable {T N : Type} [DecidableEq T] [DecidableEq N]

/-- The control point of a thread whose time-out has fired while it waited. -/
def Loc.expired : Option (Loc T N) → Bool
  | some (.condWait _ _ (.wait _ (.recheck err))) => err
  | _ => false

/-- The control point of a thread that blocks in a wait. -/
def Loc.blocks : Option (Loc T N) → Bool
  | some (.condWait _ _ (.wait _ (.block _))) => true
  | _ => false

/-- As long as `v` is queued on `c`, the time-out of `u` does not fire, no request to cancel
`u` is recorded while its cancellation is enabled, and `u` is not redirected. -/
def Spared (c : N) (u v : T) (s : Sys T N) : Label T (Loc T N) → Prop
  | .call _ _ => v ∈ s.shared.waits.queue (.cond c)
  | .act t timeout => v ∈ s.shared.waits.queue (.cond c) ∧
    ¬ (t = u ∧ timeout = true ∧ Loc.blocks (s.loc u) = true) ∧
    ¬ (s.loc t = some (.cancel u .check) ∧ (s.shared.obj.cancel u).pending = false ∧
      (s.shared.obj.cancel u).state = .enable) ∧
    s.loc t ≠ some (.cancel u .redirect)

instance (c : N) (u v : T) (s : Sys T N) (a : Label T (Loc T N)) :
    Decidable (Spared c u v s a) :=
  match a with
  | .call _ _ => inferInstanceAs (Decidable (_ ∈ _))
  | .act _ _ => inferInstanceAs (Decidable (_ ∧ _))

/-- The number of times a signal has looked at the queue of `c`. -/
def signals (c : N) : List (Event T (Loc T N) Ret) → Nat
  | [] => 0
  | .goto _ (.condSignal c' .start) _ :: log => if c' = c then signals c log + 1 else signals c log
  | .ret _ (.condSignal c' .start) _ :: log => if c' = c then signals c log + 1 else signals c log
  | _ :: log => signals c log

/-- The number of times a thread has enqueued itself on `c`. -/
def enqueues (c : N) : List (Event T (Loc T N) Ret) → Nat
  | [] => 0
  | .goto _ (.condWait c' _ (.enqueue _)) (.condWait _ _ (.unlockCancel _ (some _) _)) :: log =>
    if c' = c then enqueues c log + 1 else enqueues c log
  | _ :: log => enqueues c log

/-- The present call of `u` is a wait on `c` that goes on without an error; it follows the
calls that returned `rs`. -/
structure Answering (c : N) (u : T) (rs : List Ret) (s : Sys T N) : Prop where
  answers : ∃ m k, s.loc u = some (.condWait c m k) ∧ k.answers = true
  cancelled : (s.shared.obj.cancel u).cancelled = false
  free : s.shared.obj.redirected u = false
  returned : Machine.returned u s.log = rs

section Answering

variable {b : Build} {s s' : Sys T N} {a : Label T (Loc T N)} {c : N} {u v t : T} {rs : List Ret}

/-- What the guard says of the step of a thread. -/
theorem Spared.unrequested (h : Spared c u v s a) (hstep : (machine b).Step s a s')
    (hcheck : s.loc a.thread = some (.cancel u .check))
    (hnew : (s.shared.obj.cancel u).pending = false) :
  (s.shared.obj.cancel u).state = .disable
  := by
  cases a with
  | call t l =>
      cases hstep with
      | call hidle _ =>
          rw [Label.thread, hidle] at hcheck
          cases hcheck
  | act t timeout =>
      obtain ⟨-, -, hspared, -⟩ := h
      rw [Label.thread] at hcheck
      cases hstate : (s.shared.obj.cancel u).state with
      | enable => apply absurd ⟨hcheck, hnew, hstate⟩ hspared
      | disable => rfl

/-- The steps of a guarded run do not cancel a thread that does not set its own cancellation
state. -/
theorem Spared.cancelled (h : Spared c u v s a) (hstep : (machine b).Step s a s')
    (hset : ∀ x, s.loc a.thread = some (.set x .store) → u ≠ a.thread)
    (hcancelled : (s.shared.obj.cancel u).cancelled = false) :
  (s'.shared.obj.cancel u).cancelled = false
  := by
  have ha := alters hstep
  have hstate := ha.state_eq (t := u) hset
  cases hpending : (s.shared.obj.cancel u).pending with
  | true =>
      have hdisable : (s.shared.obj.cancel u).state ≠ .enable := by
        intro henable
        simp [Cancel.cancelled, hpending, henable] at hcancelled
      simp [Cancel.cancelled, hstate, hdisable]
  | false =>
      by_cases hcheck : s.loc a.thread = some (.cancel u .check)
      · simp [Cancel.cancelled, hstate, h.unrequested hstep hcheck hpending]
      · have hsame : (s'.shared.obj.cancel u).pending = false := by
          cases ha with
          | keep hfields => rw [hfields, hpending]
          | change hl hl' halter =>
              cases halter with
              | keep hfields => rw [hfields, hpending]
              | install _ _ _ hfields =>
                  rw [hfields, Function.update_apply]
                  grind
              | remove _ _ hfields =>
                  rw [hfields, Function.update_apply]
                  grind
              | @record t hloc _ hfields =>
                  have hne : u ≠ t := by
                    rintro rfl
                    apply hcheck
                    rw [hl, hloc]
                  rw [hfields, Function.update_of_ne hne, hpending]
              | @store x _ _ hfields =>
                  rw [hfields, Function.update_apply]
                  cases x <;> grind [Setting.apply]
        simp [Cancel.cancelled, hsame]

variable [Fintype T]

/-- The steps of a guarded run do not redirect the thread. -/
theorem Spared.free (h : Spared c u v s a) (hinv : Inv s) (hstep : (machine b).Step s a s')
    (hfree : s.shared.obj.redirected u = false) :
  s'.shared.obj.redirected u = false
  := by
  have hresume : ∀ x, (Shared.resume x s.shared).obj.redirected u = false := by
    intro x
    by_cases hx : u = x
    · simp [hx]
    · simp [hx, hfree]
  cases hstep with
  | call => apply hfree
  | @goto x timeout l l' y hl h₁ =>
      rw [State.goto_shared, (stepInside_frame (step_eq_goto h₁)).1]
      apply hresume
  | @ret x timeout l y r hl h₁ =>
      have hport : ∀ v ∈ (l.role x).owes, s.shared.waits.port v = 0 := by
        intro v hv
        apply hinv.sound.port_of_owes (t := x)
        rw [roles_of_loc hl]
        apply hv
      rcases (stepInside_frame_ret (s := Shared.resume x s.shared) hport (step_eq_ret h₁)).1 with
        hsame | ⟨target, rfl, hsame⟩
      · rw [State.ret_shared, hsame]
        apply hresume
      · have hne : u ≠ target := by
          rintro rfl
          obtain ⟨-, -, -, hredirect⟩ := h
          apply hredirect hl
        rw [State.ret_shared, hsame, Function.update_of_ne hne]
        apply hresume

omit [Fintype T] in
/-- A step of the waiter itself in a guarded run, inside its wait. -/
theorem Answering.goto (h : Answering c u rs s) {timeout : Bool} {m : N} {k k' : Cond.WaitLoc T}
    {y : Shared T N} (hG : Spared c u v s (.act u timeout))
    (hl : s.loc u = some (.condWait c m k)) (hk : k.answers = true)
    (hstep : Cond.timedwaitStep b c (.user m) u k timeout (Shared.resume u s.shared)
      = .goto y k') :
  k'.answers = true
  := by
  rcases (Cond.timedwaitStep_flow hstep).answers hk with hk' | ⟨oldtype, rfl, rfl⟩ |
    ⟨oldtype, err, rfl, rfl⟩
  · apply hk'
  · exfalso
    obtain ⟨-, hspared, -⟩ := hG
    rcases Cond.waitBlocked_eq_goto hstep with ⟨w, stage', hwait, -, hk'⟩ | ⟨w, err, -, -, hk'⟩
    · cases hk'
      rcases waitStep_eq_goto hwait with ⟨_, -, -, -, hst⟩ | ⟨-, rfl, -⟩ | ⟨hst, -⟩
      · cases hst
      · apply hspared
        use rfl, rfl
        rw [hl]
        rfl
      · cases hst
    · cases hk'
  · exfalso
    have hcancelled : (s.shared.obj.cancel u).cancelled = true := by
      simp only [Cond.timedwaitStep, Outcome.goto.injEq, Cond.WaitLoc.releaseCancel.injEq] at hstep
      apply hstep.2.2.1
    rw [h.cancelled] at hcancelled
    cases hcancelled

/-- In a guarded run, a wait that goes on without an error does so until it returns 0. -/
theorem Answering.step (h : Answering c u rs s) (hinv : Inv s) (hG : Spared c u v s a)
    (hstep : (machine b).Step s a s') :
  Answering c u rs s' ∨ Machine.returned u s'.log = .zero :: rs
  := by
  obtain ⟨m, k, hl, hk⟩ := h.answers
  have hset : ∀ x, s.loc a.thread = some (.set x .store) → u ≠ a.thread := by
    intro x hx hu
    rw [← hu, hl] at hx
    cases hx
  have hcancelled := hG.cancelled hstep hset h.cancelled
  have hfree := hG.free hinv hstep h.free
  have hreturned := h.returned
  cases hstep with
  | @call t l hidle hentry =>
      have hut : u ≠ t := by
        rintro rfl
        simp [hl] at hidle
      left
      refine ⟨⟨m, k, by simpa [hut] using hl, hk⟩, hcancelled, hfree, hreturned⟩
  | @goto t timeout l l' y hl₁ h₁ =>
      left
      by_cases hut : u = t
      · subst hut
        obtain rfl : l = .condWait c m k := by simpa [hl₁] using hl
        rcases Outcome.lift_eq_goto_iff.mp (step_eq_goto h₁) with ⟨z, k', hwait, rfl, rfl⟩ |
          ⟨_, _, _, h'⟩
        · refine ⟨⟨m, k', by simp, h.goto hG hl hk hwait⟩, hcancelled, hfree, hreturned⟩
        · cases h'
      · refine ⟨⟨m, k, by simpa [hut] using hl, hk⟩, hcancelled, hfree, hreturned⟩
  | @ret t timeout l y r hl₁ h₁ =>
      by_cases hut : u = t
      · subst hut
        right
        obtain rfl : l = .condWait c m k := by simpa [hl₁] using hl
        obtain ⟨z, r', hwait, h'⟩ := Outcome.lift_eq_ret_iff.mp (step_eq_ret h₁)
        cases h'
        rcases Cond.timedwaitStep_eq_ret hwait with ⟨_, rfl, -⟩ | ⟨_, _, _, _, rfl, -⟩ |
          ⟨err, cancelled, k, x, r', rfl, -, -, rfl⟩
        · cases hk
        · cases hk
        · obtain ⟨rfl, rfl⟩ : err = false ∧ cancelled = false := by
            simpa [Cond.WaitLoc.answers] using hk
          simp [Machine.returned, hreturned]
      · left
        refine ⟨⟨m, k, by simpa [hut] using hl, hk⟩, hcancelled, hfree, ?_⟩
        simp [Machine.returned, Ne.symm hut, hreturned]

/-- A waiter that a signal finds neither timed out nor cancelled goes on without an error. -/
theorem Answering.of_signal (hinv : Inv s) {x : T} {timeout : Bool}
    (hx : s.loc x = some (.condSignal c .start)) (hstep : (machine b).Step s (.act x timeout) s')
    (hu : s'.loc x = some (.condSignal c (.wakeup u))) (htime : Loc.expired (s.loc u) = false)
    (hcancelled : (s.shared.obj.cancel u).cancelled = false)
    (hfree : s.shared.obj.redirected u = false) :
  Answering c u (Machine.returned u s.log) s'
  := by
  have halters := alters hstep
  cases hstep with
  | @goto _ _ l l' y hl h₁ =>
      obtain rfl : l = .condSignal c .start := by simpa [hl] using hx
      obtain rfl : l' = .condSignal c (.wakeup u) := by simpa using hu
      have hmem : u ∈ s.shared.waits.queue (.cond c) := by
        cases hinv.requeue (c := c) hl h₁ with
        | keep _ hcalm => simp [dequeues] at hcalm
        | signal hfirst =>
            rw [hfirst]
            exact List.mem_cons_self
      have hqueue := (hinv.sound.queued hmem).1
      obtain ⟨c', m, k, hl'⟩ : ∃ c' m k, s.loc u = some (.condWait c' m k) := by
        cases hl' : s.loc u with
        | none => simp [roles, hl', Role.idle] at hqueue
        | some l =>
            rw [roles_of_loc hl'] at hqueue
            rcases Loc.kind_of_queue hqueue with ⟨_, _, -, hq⟩ | ⟨_, _, _, -, hq⟩ |
              ⟨_, _, -, hq⟩ | ⟨_, _, -, hq⟩ | ⟨c', m, k, rfl⟩ | ⟨_, _, rfl, hq⟩ | ⟨_, _, rfl, hq⟩
            · cases hq
            · cases hq
            · cases hq
            · cases hq
            · use c', m, k
            · cases hq
            · cases hq
      have hux : u ≠ x := by
        rintro rfl
        simp [hl'] at hx
      rw [roles_of_loc hl'] at hqueue
      rcases WaitLoc.kind_of_queue hqueue with ⟨hc, hk⟩ | ⟨hq, -⟩ | ⟨hq, -⟩
      · cases hc
        constructor
        · refine ⟨m, k, by simpa [hux] using hl', ?_⟩
          rcases hk with ⟨timed, oldtype, k', rfl⟩ | ⟨timed, oldtype, k', rfl⟩ |
            ⟨oldtype, stage, rfl⟩
          · rfl
          · rfl
          · cases stage with
            | block timed => rfl
            | recheck err =>
                rw [hl'] at htime
                simpa [Loc.expired, Cond.WaitLoc.answers] using htime
            | drain =>
                have hprevp := hinv.sound.drained u (.cond c) (by rw [roles_of_loc hl']; rfl)
                rw [hinv.sound.linked _ u hmem] at hprevp
                cases hprevp
        · cases halters with
          | keep hfields => rw [hfields, hcancelled]
          | change hbefore _ halter =>
              rw [Label.thread, hl] at hbefore
              cases hbefore
              cases halter with
              | keep hfields => rw [hfields, hcancelled]
              | install hloc => cases hloc
              | remove hloc => cases hloc
              | record hloc => cases hloc
              | store hloc => cases hloc
        · rw [State.goto_shared, (stepInside_frame (step_eq_goto h₁)).1]
          simp [hux, hfree]
        · rfl
      · cases hq
      · cases hq
  | ret => simp at hu

end Answering

/-! ### Counting signals -/

section Signals

variable {b : Build} {s s' : Sys T N} {a : Label T (Loc T N)} {c : N} {v t : T}
    {l l' : Loc T N} {log : List (Event T (Loc T N) Ret)}

omit [DecidableEq T] in
theorem signals_goto_of_ne (hl : l ≠ .condSignal c .start) :
  signals c (.goto t l l' :: log) = signals c log
  := by
  cases l with
  | condSignal c' k =>
      cases k with
      | start =>
          have hc : c' ≠ c := by
            rintro rfl
            apply hl rfl
          simp [signals, hc]
      | wakeup u => rfl
  | _ => rfl

omit [DecidableEq T] in
theorem signals_ret_of_ne {r : Ret} (hl : l ≠ .condSignal c .start) :
  signals c (.ret t l r :: log) = signals c log
  := by
  cases l with
  | condSignal c' k =>
      cases k with
      | start =>
          have hc : c' ≠ c := by
            rintro rfl
            apply hl rfl
          simp [signals, hc]
      | wakeup u => rfl
  | _ => rfl

omit [DecidableEq T] in
theorem enqueues_mono {e : Event T (Loc T N) Ret} :
  enqueues c log ≤ enqueues c (e :: log)
  := by
  conv_rhs => unfold enqueues
  split
  · rename_i heq
    cases heq
  · rename_i heq
    cases heq
    split <;> omega
  · rename_i heq
    cases heq
    apply le_refl

variable [Fintype T]

/-- Every signal that finds `v` queued takes one waiter off the queue. -/
theorem signals_step (hinv : Inv s) (hv : v ∈ s.shared.waits.queue (.cond c))
    (hstep : (machine b).Step s a s') :
  signals c s'.log + (s'.shared.waits.queue (.cond c)).length + enqueues c s.log ≤
    signals c s.log + (s.shared.waits.queue (.cond c)).length + enqueues c s'.log
  := by
  cases hstep with
  | @call t l hidle hentry => apply le_refl
  | @goto t timeout l l' y hl h₁ =>
      have henqueues : enqueues c s.log ≤ enqueues c (s.goto t l y l').log := enqueues_mono
      simp only [State.goto_shared, State.goto_log] at *
      cases hinv.requeue (c := c) hl h₁ with
      | keep hqueue hcalm =>
          have hne : l ≠ .condSignal c .start := by
            rintro rfl
            rcases Outcome.lift_eq_goto_iff.mp (step_eq_goto h₁) with ⟨z, k', hsig, -, rfl⟩ |
              ⟨_, _, _, h'⟩
            · obtain ⟨-, -, u, rest, -, rfl, -⟩ := Cond.signalStep_eq_goto hsig
              simp [dequeues] at hcalm
            · cases h'
          rw [hqueue, signals_goto_of_ne hne]
          omega
      | enqueue hqueue =>
          rw [hqueue, List.length_cons]
          simp only [signals, enqueues, if_true]
          omega
      | leave hqueue =>
          have hlen := List.length_erase_le (a := t) (l := s.shared.waits.queue (.cond c))
          rw [hqueue]
          simp only [signals]
          omega
      | signal hfirst hqueue =>
          rw [hqueue, hfirst, List.length_cons]
          simp only [signals, if_true]
          omega
      | broadcast hqueue =>
          rw [hqueue, List.length_nil]
          simp only [signals]
          omega
      | @hook target c' hqueue =>
          have hlen := List.length_erase_le (a := target) (l := s.shared.waits.queue (.cond c))
          rw [hqueue]
          simp only [signals]
          omega
  | @ret t timeout l y r hl h₁ =>
      have hne : l ≠ .condSignal c .start := by
        rintro rfl
        obtain ⟨z, r', hsig, -⟩ := Outcome.lift_eq_ret_iff.mp (step_eq_ret h₁)
        have hport : ∀ v ∈ (Cond.SignalLoc.start : Cond.SignalLoc T).owes,
            s.shared.waits.port v = 0 := by
          intro v hv
          cases hv
        obtain ⟨-, ⟨-, -, hempty, -⟩ | ⟨v, hl, -⟩⟩ := Cond.signalStep_eq_ret hport hsig
        · have hempty' : s.shared.waits.queue (.cond c) = [] := hempty
          simp [hempty'] at hv
        · cases hl
      rw [State.ret_shared, State.ret_log, hinv.cond_ret hl h₁, signals_ret_of_ne hne]
      apply le_refl

end Signals

variable [Fintype T] {b : Build} {attr : N → Option MutexType} {value count : N → Nat}
    {s : Sys T N}

/-- A signal that dequeues `u` while `v` is queued too is answered: as long as `v` is queued,
the wait of `u` is not redirected and returns nothing but 0, if neither a time-out nor a
request to cancel `u` crosses the signal. And a waiter can only stay queued as long as there
are fewer signals than waiters, those counted that have come since. -/
theorem signal_answered (hs : (machine b).Reach (fun _ _ => True) (start attr value count) s)
    (c : N) :
  (∀ x u v timeout s₁ s₂, s.loc x = some (.condSignal c .start) →
      (machine b).Step s (.act x timeout) s₁ → s₁.loc x = some (.condSignal c (.wakeup u)) →
      v ∈ s₁.shared.waits.queue (.cond c) →
      Loc.expired (s.loc u) = false → (s.shared.obj.cancel u).cancelled = false →
      s.shared.obj.redirected u = false → (machine b).Reach (Spared c u v) s₁ s₂ →
      (Machine.returned u s₂.log = Machine.returned u s.log ∧
        s₂.shared.obj.redirected u = false) ∨
        (.zero :: Machine.returned u s.log) <:+ Machine.returned u s₂.log) ∧
    (∀ v s₂, (machine b).Reach (fun s _ => v ∈ s.shared.waits.queue (.cond c)) s s₂ →
      v ∈ s₂.shared.waits.queue (.cond c) →
      signals c s₂.log + enqueues c s.log <
        signals c s.log + (s.shared.waits.queue (.cond c)).length + enqueues c s₂.log)
  := by
  constructor
  · intro x u v timeout s₁ s₂ hx hstep hu _ htime hcancelled hfree hreach
    have hinv := Inv.of_reach hs
    have hstart := Answering.of_signal hinv hx hstep hu htime hcancelled hfree
    obtain ⟨-, hanswer | hdone⟩ : Inv s₂ ∧ (Answering c u (Machine.returned u s.log) s₂ ∨
        (.zero :: Machine.returned u s.log) <:+ Machine.returned u s₂.log) := by
      apply hreach.invariant (I := fun s₂ => Inv s₂ ∧
        (Answering c u (Machine.returned u s.log) s₂ ∨
          (.zero :: Machine.returned u s.log) <:+ Machine.returned u s₂.log))
      · use hinv.step hstep
        left
        apply hstart
      · rintro s₃ a s₄ - ⟨hinv₃, hcases⟩ hG hstep₃
        use hinv₃.step hstep₃
        rcases hcases with hanswer | hdone
        · rcases hanswer.step hinv₃ hG hstep₃ with hanswer | hret
          · left
            apply hanswer
          · right
            rw [hret]
        · right
          apply hdone.trans (hstep₃.returned_suffix u)
    · left
      use hanswer.returned, hanswer.free
    · right
      apply hdone
  · intro v s₂ hreach hv
    obtain ⟨-, hle⟩ : Inv s₂ ∧ signals c s₂.log + (s₂.shared.waits.queue (.cond c)).length +
        enqueues c s.log ≤ signals c s.log + (s.shared.waits.queue (.cond c)).length +
          enqueues c s₂.log := by
      apply hreach.invariant (I := fun s₂ => Inv s₂ ∧ signals c s₂.log +
        (s₂.shared.waits.queue (.cond c)).length + enqueues c s.log ≤ signals c s.log +
          (s.shared.waits.queue (.cond c)).length + enqueues c s₂.log)
      · use Inv.of_reach hs
      · rintro s₃ a s₄ - ⟨hinv₃, hle⟩ hmem hstep₃
        use hinv₃.step hstep₃
        have hone := signals_step hinv₃ hmem hstep₃
        omega
    have hpos := List.length_pos_of_mem hv
    omega

/-- `u` and `t` wait on a condition variable, `t` with a time-out, and `v` is about to
signal it. -/
def twoWaiters {T : Type} (t u v : T) : List (Label T (Loc T Unit)) :=
  [.call u (.mutex () (.lock (.start none))), .act u false,
    .call u (.condWait () () (.start none)), .act u false, .act u false, .act u false,
    .act u false, .act u false,
    .call t (.mutex () (.lock (.start none))), .act t false,
    .call t (.condWait () () (.start (some ⟨0, 0⟩))), .act t false, .act t false, .act t false,
    .act t false, .act t false, .call v (.condSignal () .start)]

/-- A signal that is answered by thread 0, which then returns 0, while thread 1 is queued. -/
theorem signal_answered_twoWaiters :
  ∃ s s₁, (machine .debug).Reach (fun _ _ => True) plainStart s ∧
    (machine .debug).Step s (.act 2 false) s₁ ∧ 1 ∈ s₁.shared.waits.queue (.cond ()) ∧
    ∀ s₂, (machine .debug).Reach (Spared () 0 1) s₁ s₂ →
      (Machine.returned 0 s₂.log = Machine.returned 0 s.log ∧
        s₂.shared.obj.redirected 0 = false) ∨
        (.zero :: Machine.returned 0 s.log) <:+ Machine.returned 0 s₂.log
  := by
  obtain ⟨s, hs, hp⟩ := Machine.exists_reach_of_run (M := machine .debug)
    (G := fun _ _ => True) (s := plainStart) (twoWaiters 0 1 2)
    (fun s => s.loc 2 = some (.condSignal () .start) ∧ Loc.expired (s.loc 0) = false ∧
      (s.shared.obj.cancel 0).cancelled = false ∧ s.shared.obj.redirected 0 = false ∧
      (((machine .debug).exec s (.act 2 false)).any fun s₁ =>
        s₁.loc 2 = some (.condSignal () (.wakeup 0)) ∧
          1 ∈ s₁.shared.waits.queue (.cond ())) = true)
    (by decide +kernel)
  simp only [decide_eq_true_eq] at hp
  obtain ⟨hx, htime, hcancelled, hfree, henabled⟩ := hp
  obtain ⟨s₁, hs₁, hsignal⟩ := Option.any_eq_true _ _ |>.mp henabled
  simp only [decide_eq_true_eq] at hsignal
  have hstep := Machine.exec_eq_some_iff.mp hs₁
  use s, s₁, hs, hstep, hsignal.2
  intro s₂ hreach
  apply (signal_answered hs ()).1 2 0 1 false s₁ s₂ hx hstep hsignal.1 hsignal.2 htime hcancelled
    hfree hreach

/-- A signal that thread 0, which has timed out, swallows while thread 1 is queued. -/
theorem signal_swallowed_twoWaiters :
  ∃ s s₁ s₂, (machine .debug).Reach (fun _ _ => True) plainStart s ∧
    s.loc 2 = some (.condSignal () .start) ∧ (machine .debug).Step s (.act 2 false) s₁ ∧
    s₁.loc 2 = some (.condSignal () (.wakeup 0)) ∧
    (machine .debug).Reach (fun s _ => 1 ∈ s.shared.waits.queue (.cond ())) s₁ s₂ ∧
    1 ∈ s₂.shared.waits.queue (.cond ()) ∧
    Machine.returned 0 s₂.log = .error .ETIMEDOUT :: Machine.returned 0 s.log
  := by
  obtain ⟨s, hs, hp⟩ := Machine.exists_reach_of_run (M := machine .debug)
    (G := fun _ _ => True) (s := plainStart) (twoWaiters 0 1 2 ++ [.act 0 true])
    (fun s => s.loc 2 = some (.condSignal () .start) ∧
      (((machine .debug).exec s (.act 2 false)).any fun s₁ =>
        s₁.loc 2 = some (.condSignal () (.wakeup 0)) ∧
          (((machine .debug).run (fun s _ => 1 ∈ s.shared.waits.queue (.cond ())) s₁
            [.act 0 false, .act 2 false, .act 0 false, .act 0 false, .act 0 false, .act 0 false,
              .act 0 false]).any fun s₂ => 1 ∈ s₂.shared.waits.queue (.cond ()) ∧
                Machine.returned 0 s₂.log = .error .ETIMEDOUT :: Machine.returned 0 s.log)
            = true) = true)
    (by decide +kernel)
  simp only [decide_eq_true_eq] at hp
  obtain ⟨hx, henabled⟩ := hp
  obtain ⟨s₁, hs₁, hsignal⟩ := Option.any_eq_true _ _ |>.mp henabled
  simp only [decide_eq_true_eq] at hsignal
  obtain ⟨hwakeup, hrun⟩ := hsignal
  obtain ⟨s₂, hs₂, hlast⟩ := Option.any_eq_true _ _ |>.mp hrun
  simp only [decide_eq_true_eq] at hlast
  use s, s₁, s₂, hs, hx, Machine.exec_eq_some_iff.mp hs₁, hwakeup
  use Machine.reach_of_run _ _ _ hs₂

end Process

end LibPthread
