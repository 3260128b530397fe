import LibPthread.Process.CondQueue

/-!
# No lost wakeup

Without `pthread_cancel`, a wait on a condition variable ends its blocking only when a signal
or a broadcast has dequeued it or when it times out, and a waiter that has been dequeued
does end its blocking: the thread that dequeued it sends the message, and the lock of the
condition variable is only held by a broadcast that is sending its messages.
-/

open Concurrency

namespace LibPthread

/-- The control points of a wait that has released the mutex and is still blocking. -/
def Cond.WaitLoc.released {T : Type} : Cond.WaitLoc T → Bool
  | .unlockMutex _ _ (.wakeup _) => true
  | .wait _ _ => true
  | _ => false

/-- The control point belongs to a wait that was called with the time-out `abstime`. -/
def Cond.WaitLoc.Agrees {T : Type} (abstime : Option Timespec) : Cond.WaitLoc T → Prop
  | .start a => a = abstime
  | .lockCancel timed _ => timed = abstime.isSome
  | .enqueue timed => timed = abstime.isSome
  | .unlockCancel timed _ _ => timed = abstime.isSome
  | .unlockMutex timed _ _ => timed = abstime.isSome
  | .wait _ (.block timed) => timed = abstime.isSome
  | .wait _ (.recheck err) => err = true → abstime.isSome = true
  | .wait _ .drain => abstime.isSome = true
  | _ => True

theorem Cond.WaitLoc.Flow.agrees {T : Type} {abstime : Option Timespec} {k k' : Cond.WaitLoc T}
    (h : k.Flow k') (hk : k.Agrees abstime) :
  k'.Agrees abstime
  := by
  cases h with
  | start =>
      obtain rfl := hk
      rfl
  | locking => apply hk
  | locked => apply hk
  | cancelled => apply hk
  | enqueued => apply hk
  | unlocking => apply hk
  | unlocked => apply hk
  | leaving => apply hk
  | left => apply hk
  | received =>
      intro herr
      cases herr
  | expired =>
      intro _
      apply Eq.symm hk
  | late => apply hk rfl
  | _ => trivial

namespace Process

variable {T N : Type} [DecidableEq T] [DecidableEq N]

/-- The time-out given to the latest wait of `u`. -/
def abstime (u : T) : List (Event T (Loc T N) Ret) → Option Timespec
  | [] => none
  | .call t (.condWait _ _ (.start a)) :: log => if t = u then a else abstime u log
  | _ :: log => abstime u log

/-- The number of times `u` has ended the blocking of a wait. -/
def unblocks (u : T) : List (Event T (Loc T N) Ret) → Nat
  | [] => 0
  | .goto t (.condWait _ _ (.wait _ _)) (.condWait _ _ (.relockCancel _ _ _)) :: log =>
    if t = u then unblocks u log + 1 else unblocks u log
  | _ :: log => unblocks u log

/-- What holds in all runs without `pthread_cancel`, besides the invariant of all runs. -/
structure Calm (s : Sys T N) : Prop where
  notCancel : ∀ t l, s.loc t = some l → l.NotCancel
  listed : Listed s
  agrees : ∀ u c m k, s.loc u = some (.condWait c m k) → k.Agrees (abstime u s.log)
  /-- The lock of a condition variable is held by a broadcast. -/
  lock : ∀ c, (s.shared.obj.cond c).lock = true →
    ∃ x us, s.loc x = some (.condBroadcast c (.wakeAll us))
  /-- A message to a waiter is owed by a signal or a broadcast. -/
  debtor : ∀ u c m k, s.loc u = some (.condWait c m k) → k.blocked = true →
    ∀ x, 0 < (roles (fun t => Loc.role t) s x).pending u →
      s.loc x = some (.condSignal c (.wakeup u)) ∨
        ∃ us, s.loc x = some (.condBroadcast c (.wakeAll us)) ∧ u ∈ us
  free : ∀ t, s.shared.obj.redirected t = false

section Steps

variable {b : Build} {s s' : Sys T N} {a : Label T (Loc T N)} {c m : N} {u : T}
    {k k' : Cond.WaitLoc T}

omit [DecidableEq N] in
theorem abstime_call_of_ne {t : T} {l : Loc T N} (ht : u ≠ t)
    (log : List (Event T (Loc T N) Ret)) :
  abstime u (.call t l :: log) = abstime u log
  := by
  cases l with
  | condWait c m k =>
      cases k with
      | start a => simp [abstime, Ne.symm ht]
      | _ => rfl
  | _ => rfl

theorem Calm.step_notCancel (h : Calm s) (hG : NoCancel s a) (hstep : (machine b).Step s a s')
    {t : T} {l : Loc T N} (hl : s'.loc t = some l) :
  l.NotCancel
  := by
  cases hstep with
  | @call x l' hidle hentry =>
      by_cases ht : t = x
      · subst ht
        obtain rfl : l' = l := by simpa using hl
        apply hG
      · apply h.notCancel t l (by simpa [ht] using hl)
  | @goto x timeout l₁ l₂ y hl₁ h₁ =>
      by_cases ht : t = x
      · subst ht
        obtain rfl : l₂ = l := by simpa using hl
        apply stepInside_notCancel (h.notCancel t l₁ hl₁) (step_eq_goto h₁)
      · apply h.notCancel t l (by simpa [ht] using hl)
  | @ret x timeout l₁ y r hl₁ h₁ =>
      by_cases ht : t = x
      · subst ht
        simp at hl
      · apply h.notCancel t l (by simpa [ht] using hl)

theorem Calm.step_agrees (h : Calm s) (hstep : (machine b).Step s a s')
    (hu : s'.loc u = some (.condWait c m k)) :
  k.Agrees (abstime u s'.log)
  := by
  cases hstep with
  | @call t l hidle hentry =>
      by_cases hut : u = t
      · subst hut
        obtain rfl : l = .condWait c m k := by simpa using hu
        cases k with
        | start a => simp [abstime, Cond.WaitLoc.Agrees]
        | _ => cases hentry
      · rw [State.call_log, abstime_call_of_ne hut]
        apply h.agrees u c m k (by simpa [hut] using hu)
  | @goto t timeout l l' y hl h₁ =>
      by_cases hut : u = t
      · subst hut
        obtain rfl : l' = .condWait c m k := by simpa using hu
        obtain ⟨k₁, rfl, hwait⟩ := stepInside_condWait (step_eq_goto h₁)
        apply (Cond.timedwaitStep_flow hwait).agrees (h.agrees u c m k₁ hl)
      · apply h.agrees u c m k (by simpa [hut] using hu)
  | @ret t timeout l y r hl h₁ =>
      by_cases hut : u = t
      · subst hut
        simp at hu
      · apply h.agrees u c m k (by simpa [hut] using hu)

theorem Calm.step_lock (h : Calm s) (hstep : (machine b).Step s a s')
    (hport : ∀ t, ∀ u ∈ (roles (fun t => Loc.role t) s t).owes, s.shared.waits.port u = 0)
    (hlock : (s'.shared.obj.cond c).lock = true) :
  ∃ x us, s'.loc x = some (.condBroadcast c (.wakeAll us))
  := by
  have hother : ∀ t l (o : Option (Loc T N)), s.loc t = some l →
      (∀ k, l ≠ .condBroadcast c k) → (s.shared.obj.cond c).lock = true →
      ∃ x us, Function.update s.loc t o x = some (.condBroadcast c (.wakeAll us)) := by
    intro t l o hl hne hlock
    obtain ⟨x, us, hx⟩ := h.lock c hlock
    refine ⟨x, us, ?_⟩
    have hxt : x ≠ t := by
      rintro rfl
      apply hne (.wakeAll us)
      simpa [hl] using hx
    rw [Function.update_of_ne hxt, hx]
  cases hstep with
  | @call t l hidle hentry =>
      obtain ⟨x, us, hx⟩ := h.lock c hlock
      have hxt : x ≠ t := by
        rintro rfl
        simp [hidle] at hx
      use x, us
      simpa [hxt] using hx
  | @goto t timeout l l' y hl h₁ =>
      by_cases hbroadcast : ∃ k, l = .condBroadcast c k
      · obtain ⟨k, rfl⟩ := hbroadcast
        rcases Outcome.lift_eq_goto_iff.mp (step_eq_goto h₁) with ⟨z, k', hbr, rfl, rfl⟩ |
          ⟨_, _, _, h'⟩
        · have hp : ∀ u ∈ k.owes, s.shared.waits.port u = 0 := by
            intro u hu
            apply hport t u
            rw [roles_of_loc hl]
            apply hu
          rcases Cond.broadcastStep_eq_goto hp hbr with ⟨rfl, -, rfl, -⟩ | ⟨v, us, rfl, rfl, -⟩
          · use t, s.shared.waits.queue (.cond c)
            simp
          · use t, us
            simp
        · cases h'
      · rw [not_exists] at hbroadcast
        have hsame := (stepInside_frame (step_eq_goto h₁)).2 c hbroadcast
        rw [State.goto_shared, hsame] at hlock
        apply hother t l (some l') hl hbroadcast hlock
  | @ret t timeout l y r hl h₁ =>
      have hp : ∀ u ∈ (l.role t).owes, s.shared.waits.port u = 0 := by
        intro u hu
        apply hport t u
        rw [roles_of_loc hl]
        apply hu
      by_cases hbroadcast : ∃ k, l = .condBroadcast c k
      · obtain ⟨k, rfl⟩ := hbroadcast
        obtain ⟨z, r', hbr, h'⟩ := Outcome.lift_eq_ret_iff.mp (step_eq_ret h₁)
        cases h'
        obtain ⟨-, -, rfl⟩ := Cond.broadcastStep_eq_ret hp hbr
        simp at hlock
      · rw [not_exists] at hbroadcast
        have hsame := (stepInside_frame_ret (s := Shared.resume t s.shared) hp
          (step_eq_ret h₁)).2 c hbroadcast
        rw [State.ret_shared, hsame] at hlock
        apply hother t l none hl hbroadcast hlock

theorem Calm.step_free (h : Calm s) (hstep : (machine b).Step s a s')
    (hport : ∀ t, ∀ u ∈ (roles (fun t => Loc.role t) s t).owes, s.shared.waits.port u = 0)
    (t : T) :
  s'.shared.obj.redirected t = false
  := by
  have hresume : ∀ x, (Shared.resume x s.shared).obj.redirected t = false := by
    intro x
    by_cases hx : t = x
    · simp [hx]
    · simp [hx, h.free t]
  cases hstep with
  | call => apply h.free t
  | @goto x timeout l l' y hl h₁ =>
      rw [State.goto_shared, (stepInside_frame (step_eq_goto h₁)).1]
      apply hresume
  | @ret x timeout l y r hl h₁ =>
      have hp : ∀ u ∈ (l.role x).owes, s.shared.waits.port u = 0 := by
        intro u hu
        apply hport x u
        rw [roles_of_loc hl]
        apply hu
      rcases (stepInside_frame_ret (s := Shared.resume x s.shared) hp (step_eq_ret h₁)).1 with
        hsame | ⟨target, rfl, -⟩
      · rw [State.ret_shared, hsame]
        apply hresume
      · cases h.notCancel x _ hl

omit [DecidableEq T] [DecidableEq N] in
theorem WaitLoc.queue_of_blocked {m : MutexRef T N} (hk : k.blocked = true) :
  (k.role c m u).phase.queue = some (.cond c)
  := by
  cases k with
  | unlockCancel timed saved k =>
      cases saved with
      | none => cases hk
      | some oldtype => rfl
  | unlockMutex timed oldtype k => rfl
  | wait oldtype stage => apply Stage.queue_phase
  | _ => cases hk

variable [Fintype T]

/-- A waiter that is blocked after a step and no longer queued was blocked before it. -/
theorem Inv.blocked_before (h : Inv s) (hstep : (machine b).Step s a s')
    (hu : s'.loc u = some (.condWait c m k)) (hk : k.blocked = true)
    (hgone : u ∉ s'.shared.waits.queue (.cond c)) :
  ∃ k₀, s.loc u = some (.condWait c m k₀) ∧ k₀.blocked = true
  := by
  cases hstep with
  | @call t l hidle hentry =>
      by_cases hut : u = t
      · subst hut
        obtain rfl : l = .condWait c m k := by simpa using hu
        cases k with
        | start a => cases hk
        | _ => cases hentry
      · use k, by simpa [hut] using hu
  | @goto t timeout l l' y hl h₁ =>
      by_cases hut : u = t
      · subst hut
        obtain rfl : l' = .condWait c m k := by simpa using hu
        obtain ⟨k₀, rfl, hwait⟩ := stepInside_condWait (step_eq_goto h₁)
        rcases blocked_of_flow (Cond.timedwaitStep_flow hwait) hk with hk₀ |
          ⟨timed, oldtype, rfl, rfl⟩
        · use k₀
        · cases h.requeue (c := c) hl h₁ with
          | keep _ _ hstays => cases hstays m timed rfl
          | enqueue hqueue => simp [hqueue] at hgone
      · use k, by simpa [hut] using hu
  | @ret t timeout l y r hl h₁ =>
      by_cases hut : u = t
      · subst hut
        simp at hu
      · use k, by simpa [hut] using hu

omit [DecidableEq N] in
/-- A waiter to which a message is owed is not queued. -/
theorem Inv.not_mem_of_pending (h : Inv s) {x : T}
    (hx : 0 < (roles (fun t => Loc.role t) s x).pending u) :
  u ∉ s.shared.waits.queue (.cond c)
  := by
  intro hmem
  have hzero := (h.sound.queued hmem).2
  have hle := pending_le_owed (roles (fun t => Loc.role t) s) x u
  rw [credit] at hzero
  omega

/-- A thread that owes a message to a waiter after its step, and did not owe it before, is a
signal or a broadcast that has just dequeued the waiter. -/
theorem Calm.new_debtor (h : Calm s) (hinv : Inv s) {t : T} {timeout : Bool} {l l' : Loc T N}
    {y : Shared T N} (hl : s.loc t = some l)
    (hstep : (machine b).step t l timeout s.shared = .goto y l')
    (hmem : u ∈ s.shared.waits.queue (.cond c)) (hgone : u ∉ y.waits.queue (.cond c))
    (howes : 0 < (l'.role t).pending u) :
  l' = .condSignal c (.wakeup u) ∨ ∃ us, l' = .condBroadcast c (.wakeAll us) ∧ u ∈ us
  := by
  cases hinv.requeue (c := c) hl hstep with
  | keep hqueue => simp [hqueue, hmem] at hgone
  | enqueue hqueue => simp [hqueue, hmem] at hgone
  | leave hqueue =>
      simp [Loc.role, Cond.WaitLoc.role, Role.pending] at howes
  | @signal v rest hfirst hqueue =>
      left
      obtain rfl : u = v := by
        rw [hfirst, List.mem_cons] at hmem
        rcases hmem with hv | hrest
        · apply hv
        · simp [hqueue, hrest] at hgone
      rfl
  | broadcast hqueue =>
      right
      use s.shared.waits.queue (.cond c), rfl, hmem
  | hook => cases h.notCancel t _ hl

/-- A thread that owed a message to a waiter and still owes it after its step is a broadcast
that is sending its messages. -/
theorem Calm.old_debtor (h : Calm s) (hinv : Inv s) {t : T} {timeout : Bool} {l l' : Loc T N}
    {y : Shared T N} (hl : s.loc t = some l)
    (hstep : (machine b).step t l timeout s.shared = .goto y l')
    (hu : s.loc u = some (.condWait c m k)) (hk : k.blocked = true)
    (hold : 0 < (l.role t).pending u) (howes : 0 < (l'.role t).pending u) :
  ∃ us, l' = .condBroadcast c (.wakeAll us) ∧ u ∈ us
  := by
  have hport : ∀ v ∈ (l.role t).owes, s.shared.waits.port v = 0 := by
    intro v hv
    apply hinv.sound.port_of_owes (t := t)
    rw [roles_of_loc hl]
    apply hv
  have hdebtor := h.debtor u c m k hu hk t (by rw [roles_of_loc hl]; apply hold)
  rw [hl] at hdebtor
  rcases hdebtor with hsignal | ⟨us, hbroadcast, hmem⟩
  · cases hsignal
    rcases Outcome.lift_eq_goto_iff.mp (step_eq_goto hstep) with ⟨z, k', hsig, -, -⟩ |
      ⟨_, _, _, h'⟩
    · obtain ⟨hstart, -⟩ := Cond.signalStep_eq_goto hsig
      cases hstart
    · cases h'
  · cases hbroadcast
    rcases Outcome.lift_eq_goto_iff.mp (step_eq_goto hstep) with ⟨z, k', hbr, -, rfl⟩ |
      ⟨_, _, _, h'⟩
    · rcases Cond.broadcastStep_eq_goto hport hbr with ⟨hstart, -⟩ | ⟨v, us', -, rfl, -⟩
      · cases hstart
      · use us', rfl
        simpa [Loc.role, Role.pending, Cond.BroadcastLoc.owes] using howes
    · cases h'

theorem Calm.step_debtor (h : Calm s) (hinv : Inv s) (hstep : (machine b).Step s a s')
    (hu : s'.loc u = some (.condWait c m k)) (hk : k.blocked = true) {x : T}
    (hx : 0 < (roles (fun t => Loc.role t) s' x).pending u) :
  s'.loc x = some (.condSignal c (.wakeup u)) ∨
    ∃ us, s'.loc x = some (.condBroadcast c (.wakeAll us)) ∧ u ∈ us
  := by
  have hgone : u ∉ s'.shared.waits.queue (.cond c) := (hinv.step hstep).not_mem_of_pending hx
  obtain ⟨k₀, hu₀, hk₀⟩ := hinv.blocked_before hstep hu hk hgone
  have hm := hinv.moves hstep
  by_cases hxa : x = a.thread
  · cases hstep with
    | @call t l hidle hentry =>
        obtain rfl : x = t := hxa
        simp [roles, Loc.role_of_entry hentry, Role.pending, Role.idle] at hx
    | @goto t timeout l l' y hl h₁ =>
        obtain rfl : x = t := hxa
        have hrole : roles (fun t => Loc.role t) (s.goto x l y l') x = l'.role x := by
          simp [roles]
        rw [hrole] at hx
        simp only [State.goto_loc, Function.update_self, Option.some.injEq]
        by_cases hold : 0 < (l.role x).pending u
        · right
          apply h.old_debtor hinv hl h₁ hu₀ hk₀ hold hx
        · apply h.new_debtor hinv hl h₁ _ hgone hx
          have hact := hm.act
          rw [Label.thread, hrole, roles_of_loc hl] at hact
          obtain ⟨q, -, hmem⟩ := hact.mem_of_pending (u := u) (by omega)
          have hqueue := (hinv.sound.queued hmem).1
          rw [roles_of_loc hu₀, Loc.role, WaitLoc.queue_of_blocked hk₀] at hqueue
          cases hqueue
          apply hmem
    | @ret t timeout l y r hl h₁ =>
        obtain rfl : x = t := hxa
        simp [roles, Role.pending, Role.idle] at hx
  · have hsame : roles (fun t => Loc.role t) s' x = roles (fun t => Loc.role t) s x := by
      rw [roles, roles, hm.other x hxa]
    rw [hsame] at hx
    rw [hm.other x hxa]
    apply h.debtor u c m k₀ hu₀ hk₀ x hx

omit [Fintype T] in
theorem Calm.init {attr : N → Option MutexType} {value count : N → Nat} :
  Calm (start (T := T) attr value count)
  := by
  constructor
  · simp [start]
  · intro u c m k hu
    simp [start] at hu
  · simp [start]
  · intro c hlock
    cases hlock
  · simp [start]
  · intro t
    rfl

theorem Calm.step (h : Calm s) (hinv : Inv s) (hG : NoCancel s a)
    (hstep : (machine b).Step s a s') :
  Calm s'
  := by
  have hport : ∀ t, ∀ u ∈ (roles (fun t => Loc.role t) s t).owes, s.shared.waits.port u = 0 :=
    fun t u hu => hinv.sound.port_of_owes hu
  constructor
  · intro t l hl
    apply h.step_notCancel hG hstep hl
  · apply h.listed.step hinv h.notCancel hstep
  · intro u c m k hu
    apply h.step_agrees hstep hu
  · intro c hlock
    apply h.step_lock hstep hport hlock
  · intro u c m k hu hk x hx
    apply h.step_debtor hinv hstep hu hk hx
  · intro t
    apply h.step_free hstep hport t

/-- Runs without `pthread_cancel` are calm. -/
theorem Calm.of_reach {attr : N → Option MutexType} {value count : N → Nat}
    (hs : (machine b).Reach NoCancel (start attr value count) s) :
  Calm s
  := by
  apply hs.invariant Calm.init
  intro s a s' hs h hG hstep
  apply h.step (Inv.of_reach hs) hG hstep

end Steps

/-! ### A waiter that has been dequeued ends its blocking -/

/-- The number of steps a thread at the control point has still to take to pass a wakeup on:
to send its messages, or to end its own blocking. -/
def Loc.work : Loc T N → Nat
  | .condSignal _ (.wakeup _) => 1
  | .condBroadcast _ (.wakeAll us) => us.length + 1
  | .condWait _ _ (.unlockMutex _ _ (.wakeup _)) => 4
  | .condWait _ _ (.wait _ (.block _)) => 3
  | .condWait _ _ (.wait _ (.recheck _)) => 2
  | .condWait _ _ (.wait _ .drain) => 1
  | _ => 0

/-- The steps all threads have still to take. -/
def work [Fintype T] (s : Sys T N) : Nat :=
  ∑ x, (s.loc x).elim 0 Loc.work

/-- A step of `x` is enabled that leaves less work. -/
def Works (b : Build) (s : Sys T N) (x : T) : Prop :=
  ∃ l timeout, s.loc x = some l ∧
    ((∃ y l', (machine b).step x l timeout s.shared = .goto y l' ∧ l'.work < l.work) ∨
      ∃ y r, (machine b).step x l timeout s.shared = .ret y r ∧ 0 < l.work)

/-- A waiter that has released the mutex and has been dequeued, and has ended `n` waits
before. -/
structure Dequeued [Fintype T] (n : Nat) (c : N) (u : T) (s : Sys T N) : Prop where
  inv : Inv s
  calm : Calm s
  released : ∃ m k, s.loc u = some (.condWait c m k) ∧ k.released = true
  gone : u ∉ s.shared.waits.queue (.cond c)
  count : unblocks u s.log = n

section Ends

variable {b : Build} {s s' : Sys T N} {a : Label T (Loc T N)} {c m : N} {u x : T} {n : Nat}
    {k k' : Cond.WaitLoc T} {e : Event T (Loc T N) Ret} {log : List (Event T (Loc T N) Ret)}

omit [DecidableEq N] in
theorem unblocks_mono :
  unblocks u log ≤ unblocks u (e :: log)
  := by
  conv_rhs => unfold unblocks
  split
  · rename_i heq
    cases heq
  · rename_i heq
    cases heq
    split <;> omega
  · rename_i heq
    cases heq
    apply le_refl

omit [DecidableEq N] in
theorem unblocks_goto_of_ne {t : T} {l l' : Loc T N} (ht : u ≠ t) :
  unblocks u (.goto t l l' :: log) = unblocks u log
  := by
  conv_lhs => unfold unblocks
  split
  · rename_i heq
    cases heq
  · rename_i heq
    cases heq
    rw [if_neg ht.symm]
  · rename_i heq
    cases heq
    rfl

omit [DecidableEq T] [DecidableEq N] in
theorem blocked_of_released (hk : k.released = true) :
  k.blocked = true
  := by
  cases k with
  | unlockMutex timed oldtype k => rfl
  | wait oldtype stage => rfl
  | _ => cases hk

omit [DecidableEq N] in
/-- A wait that has released the mutex blocks until it counts as ended. -/
theorem released_of_flow (c : N) (m : N) (u : T) (log : List (Event T (Loc T N) Ret))
    (h : k.Flow k') (hk : k.released = true) :
  (k'.released = true ∧
      unblocks u (.goto u (.condWait c m k) (.condWait c m k') :: log) = unblocks u log) ∨
    unblocks u (.goto u (.condWait c m k) (.condWait c m k') :: log) = unblocks u log + 1
  := by
  cases h with
  | left => exact .inl ⟨rfl, rfl⟩
  | received => exact .inl ⟨rfl, rfl⟩
  | expired => exact .inl ⟨rfl, rfl⟩
  | late => exact .inl ⟨rfl, rfl⟩
  | unblocked => simp [unblocks]
  | drained => simp [unblocks]
  | _ => cases hk

variable [Fintype T]

/-- A dequeued waiter stays dequeued until it ends its blocking. -/
theorem Dequeued.step (h : Dequeued n c u s) (hG : NoCancel s a)
    (hstep : (machine b).Step s a s') :
  Dequeued n c u s' ∨ n < unblocks u s'.log
  := by
  obtain ⟨m, k, hl, hk⟩ := h.released
  have hinv := h.inv.step hstep
  have hcalm := h.calm.step h.inv hG hstep
  have hm := h.inv.moves hstep
  have hcount := h.count
  have hgone : u ∉ s'.shared.waits.queue (.cond c) := by
    intro hmem
    rcases hm.act.mem_queue hmem with hmem | ⟨hu, hout, -⟩
    · apply h.gone hmem
    · have hqueue := WaitLoc.queue_of_blocked (c := c) (m := .user m) (u := u)
        (blocked_of_released hk)
      rw [← hu, roles_of_loc hl, Loc.role] at hout
      rw [hout] at hqueue
      cases hqueue
  cases hstep with
  | @call t l hidle hentry =>
      have hut : u ≠ t := by
        rintro rfl
        simp [hl] at hidle
      left
      refine ⟨hinv, hcalm, ⟨m, k, by simpa [hut] using hl, hk⟩, hgone, hcount⟩
  | @goto t timeout l l' y hl₁ h₁ =>
      by_cases hut : u = t
      · subst hut
        obtain rfl : l = .condWait c m k := by simpa [hl₁] using hl
        rcases Outcome.lift_eq_goto_iff.mp (step_eq_goto h₁) with ⟨z, k', hwait, rfl, rfl⟩ |
          ⟨_, _, _, h'⟩
        · rcases released_of_flow c m u s.log (Cond.timedwaitStep_flow hwait) hk
            with ⟨hk', hsame⟩ | hmore
          · left
            refine ⟨hinv, hcalm, ⟨m, k', by simp, hk'⟩, hgone, ?_⟩
            rw [State.goto_log, hsame, hcount]
          · right
            rw [State.goto_log, hmore, hcount]
            omega
        · cases h'
      · left
        refine ⟨hinv, hcalm, ⟨m, k, by simpa [hut] using hl, hk⟩, hgone, ?_⟩
        rw [State.goto_log, unblocks_goto_of_ne hut, hcount]
  | @ret t timeout l y r hl₁ h₁ =>
      have hut : u ≠ t := by
        rintro rfl
        obtain rfl : l = .condWait c m k := by simpa [hl₁] using hl
        obtain ⟨z, r', hwait, -⟩ := Outcome.lift_eq_ret_iff.mp (step_eq_ret h₁)
        rcases Cond.timedwaitStep_eq_ret hwait with ⟨_, rfl, -⟩ | ⟨_, _, _, _, rfl, -⟩ |
          ⟨_, _, _, _, _, rfl, -⟩
        all_goals cases hk
      left
      refine ⟨hinv, hcalm, ⟨m, k, by simpa [hut] using hl, hk⟩, hgone, hcount⟩

omit [Fintype T] in
theorem step_of_free {t : T} {l : Loc T N} {timeout : Bool}
    (hfree : s.shared.obj.redirected t = false) :
  (machine b).step t l timeout s.shared = stepInside b t l timeout (Shared.resume t s.shared)
  := by
  simp [machine, step, hfree]

/-- A broadcast can send its next message, or release the lock. -/
theorem Calm.works_of_broadcast (h : Calm s) (hinv : Inv s) {us : List T}
    (hx : s.loc x = some (.condBroadcast c (.wakeAll us))) :
  Works b s x
  := by
  refine ⟨_, false, hx, ?_⟩
  rw [step_of_free (h.free x)]
  cases us with
  | nil => exact .inr ⟨_, _, rfl, by simp [Loc.work]⟩
  | cons v us =>
      have hport : s.shared.waits.port v = 0 := by
        apply hinv.sound.port_of_owes (t := x)
        simp [roles_of_loc hx, Loc.role, Cond.BroadcastLoc.owes]
      left
      refine ⟨Shared.setCond c (Shared.resume x s.shared)
        ⟨s.shared.obj.cond c, s.shared.waits.send v⟩, .condBroadcast c (.wakeAll us), ?_,
        by simp [Loc.work]⟩
      simp [stepInside, Cond.broadcastStep, Build.wakeup_of hport, Outcome.lift]

/-- A thread that owes a message to a waiter can send a message. -/
theorem Calm.works_of_debtor (h : Calm s) (hinv : Inv s)
    (hu : s.loc u = some (.condWait c m k)) (hk : k.blocked = true)
    (hx : 0 < (roles (fun t => Loc.role t) s x).pending u) :
  Works b s x
  := by
  rcases h.debtor u c m k hu hk x hx with hsignal | ⟨us, hbroadcast, -⟩
  · have hport : s.shared.waits.port u = 0 := by
      apply hinv.sound.port_of_owes (t := x)
      simp [roles_of_loc hsignal, Loc.role, Cond.SignalLoc.owes]
    refine ⟨_, false, hsignal, .inr ⟨Shared.setCond c (Shared.resume x s.shared)
      ⟨s.shared.obj.cond c, s.shared.waits.send u⟩, .zero, ?_, by simp [Loc.work]⟩⟩
    rw [step_of_free (h.free x)]
    simp [stepInside, Cond.signalStep, Build.wakeup_of hport, Outcome.lift]
  · apply h.works_of_broadcast hinv hbroadcast

/-- Some thread can work towards the end of the blocking of a dequeued waiter. -/
theorem Dequeued.works (h : Dequeued n c u s) :
  ∃ x, Works b s x
  := by
  obtain ⟨m, k, hl, hk⟩ := h.released
  have hblocked := blocked_of_released hk
  have hqueue := WaitLoc.queue_of_blocked (c := c) (m := .user m) (u := u) hblocked
  have hrole := roles_of_loc hl
  have hprevp : s.shared.waits.prevp u = none := by
    by_contra hlink
    obtain ⟨q, hq⟩ := Option.ne_none_iff_exists'.mp hlink
    apply h.gone
    apply (h.inv.sound.mem_of_linked (q := .cond c) (by rw [hrole]; apply hqueue) id hq).2
  have hdebtor : s.shared.waits.port u = 0 → (k.role c (.user m) u).phase.received = 0 →
      ∃ x, Works b s x := by
    intro hport hreceived
    obtain ⟨x, hx⟩ := h.inv.sound.exists_pending (t := u) (q := .cond c)
      (by rw [hrole]; apply hqueue) h.gone hport (by rw [hrole]; apply hreceived)
    use x
    apply h.calm.works_of_debtor h.inv hl hblocked
    rw [Role.pending]
    rcases hx with hx | hx
    · have := List.count_pos_iff.mpr hx
      omega
    · have := List.count_pos_iff.mpr hx
      omega
  cases k with
  | unlockMutex timed oldtype k =>
      cases k with
      | start => cases hk
      | wakeup v =>
          have hport : s.shared.waits.port v = 0 := by
            apply h.inv.sound.port_of_owes (t := u)
            simp [hrole, Loc.role, Cond.WaitLoc.role, Mutex.UnlockLoc.owes]
          refine ⟨u, _, false, hl, .inl ⟨Shared.setMutex (.user m) (Shared.resume u s.shared)
            ⟨s.shared.obj.mutex (.user m), s.shared.waits.send v⟩,
            .condWait c m (.wait oldtype (.block timed)), ?_, by simp [Loc.work]⟩⟩
          rw [step_of_free (h.calm.free u)]
          simp [stepInside, Cond.timedwaitStep, Shared.unlock, Mutex.unlockStep,
            Build.wakeup_of hport, Outcome.lift]
  | wait oldtype stage =>
      cases stage with
      | block timed =>
          by_cases hport : s.shared.waits.port u = 0
          · apply hdebtor hport rfl
          · refine ⟨u, _, false, hl, .inl ⟨⟨(Shared.resume u s.shared).obj,
              s.shared.waits.receive u⟩,
              .condWait c m (.wait oldtype (.recheck false)), ?_, by simp [Loc.work]⟩⟩
            rw [step_of_free (h.calm.free u)]
            simp [stepInside, Cond.timedwaitStep, Cond.waitBlocked, Build.assert, waitStep,
              hport, Outcome.lift]
      | recheck err =>
          by_cases hlock : (s.shared.obj.cond c).lock = true
          · obtain ⟨x, us, hx⟩ := h.calm.lock c hlock
            use x
            apply h.calm.works_of_broadcast h.inv hx
          · cases err with
            | true =>
                refine ⟨u, _, false, hl, .inl ⟨⟨(Shared.resume u s.shared).obj,
                  s.shared.waits⟩,
                  .condWait c m (.wait oldtype .drain), ?_, by simp [Loc.work]⟩⟩
                rw [step_of_free (h.calm.free u)]
                simp [stepInside, Cond.timedwaitStep, Cond.waitBlocked, Build.assert, waitStep,
                  hlock, hprevp, Outcome.lift]
            | false =>
                refine ⟨u, _, false, hl, .inl ⟨⟨(Shared.resume u s.shared).obj,
                  s.shared.waits⟩,
                  .condWait c m (.relockCancel oldtype false (.start none)), ?_,
                  by simp [Loc.work]⟩⟩
                rw [step_of_free (h.calm.free u)]
                simp [stepInside, Cond.timedwaitStep, Cond.waitBlocked, Build.assert, waitStep,
                  hlock, hprevp, Outcome.lift]
      | drain =>
          by_cases hport : s.shared.waits.port u = 0
          · apply hdebtor hport rfl
          · refine ⟨u, _, false, hl, .inl ⟨⟨(Shared.resume u s.shared).obj,
              s.shared.waits.receive u⟩,
              .condWait c m (.relockCancel oldtype true (.start none)), ?_,
              by simp [Loc.work]⟩⟩
            rw [step_of_free (h.calm.free u)]
            simp [stepInside, Cond.timedwaitStep, Cond.waitBlocked, Build.assert, waitStep,
              hport, Outcome.lift]
  | _ => cases hk

/-- A step that leaves its thread less work leaves less work. -/
theorem exists_step_of_works (h : Works b s x) :
  ∃ a s', NoCancel s a ∧ (machine b).Step s a s' ∧ work s' < work s
  := by
  have hless : ∀ (l : Loc T N) (o : Option (Loc T N)) (s' : Sys T N), s.loc x = some l →
      s'.loc = Function.update s.loc x o → o.elim 0 Loc.work < l.work → work s' < work s := by
    intro l o s' hl hloc hlt
    have hsum := sum_change (f := fun x => (s.loc x).elim 0 Loc.work)
      (g := fun x => (s'.loc x).elim 0 Loc.work) (t := x)
      (fun v hv => by rw [hloc, Function.update_of_ne hv])
    rw [hloc] at hsum
    simp only [hl, Function.update_self, Option.elim_some] at hsum
    rw [work, work, hloc]
    omega
  obtain ⟨l, timeout, hl, ⟨y, l', hstep, hlt⟩ | ⟨y, r, hstep, hlt⟩⟩ := h
  · refine ⟨.act x timeout, s.goto x l y l', trivial, .goto hl hstep, ?_⟩
    apply hless l (some l') _ hl rfl hlt
  · refine ⟨.act x timeout, s.ret x l y r, trivial, .ret hl hstep, ?_⟩
    apply hless l none _ hl rfl hlt

/-- A dequeued waiter ends its blocking. -/
theorem Dequeued.leads (h : Dequeued n c u s) :
  (machine b).Leads NoCancel s (fun s' => n < unblocks u s'.log)
  := by
  apply Machine.Leads.of_rank (P := Dequeued n c u) work h
  · intro s a s' h hG hstep
    apply h.step hG hstep
  · intro s a s' h hstep
    apply lt_of_lt_of_le h
    cases hstep <;> apply unblocks_mono
  · intro s h
    obtain ⟨x, hx⟩ := h.works (b := b)
    obtain ⟨a, s', hG, hstep, hlt⟩ := exists_step_of_works hx
    use a, s', hG, hstep
    intro _
    apply hlt

/-- A wait ends its blocking only after a signal or a broadcast has dequeued it, or by its
time-out. -/
theorem Calm.unblocked (h : Calm s) (hinv : Inv s) {oldtype : CancelType} {stage : Stage}
    {timeout : Bool} (hu : s.loc u = some (.condWait c m (.wait oldtype stage)))
    (hstep : (machine b).Step s (.act u timeout) s') :
  (∃ stage', s'.loc u = some (.condWait c m (.wait oldtype stage'))) ∨
    dequeued c u s.log = true ∨ (stage = .recheck true ∧ (abstime u s.log).isSome = true)
  := by
  have hagrees := h.agrees u c m _ hu
  have hlisted := h.listed u c m _ hu rfl
  have hgone : s.shared.waits.prevp u = none → dequeued c u s.log = true := by
    intro hprevp
    by_contra hnot
    rw [Bool.not_eq_true, ← hlisted] at hnot
    simp [hinv.sound.linked _ u hnot] at hprevp
  cases hstep with
  | @goto _ _ l l' y hl h₁ =>
      obtain rfl : l = .condWait c m (.wait oldtype stage) := by simpa [hl] using hu
      rcases Outcome.lift_eq_goto_iff.mp (step_eq_goto h₁) with ⟨z, k', hwait, rfl, rfl⟩ |
        ⟨_, _, _, h'⟩
      · rcases Cond.waitBlocked_eq_goto hwait with ⟨w, stage', -, -, rfl⟩ |
          ⟨w, err, hret, -, rfl⟩
        · left
          use stage'
          simp
        · right
          rcases waitStep_eq_ret hret with ⟨rfl, -, hprevp, -⟩ | ⟨rfl, -, hlink, -⟩ |
            ⟨rfl, -, -, -⟩
          · left
            apply hgone hprevp
          · right
            cases err with
            | true => use rfl, hagrees rfl
            | false =>
                apply absurd _ hlink
                apply hinv.sound.gone_of_received (q := .cond c)
                rw [roles_of_loc hl]
                rfl
          · left
            apply hgone
            apply hinv.sound.drained u (.cond c)
            rw [roles_of_loc hl]
            rfl
      · cases h'
  | @ret _ _ l y r hl h₁ =>
      obtain rfl : l = .condWait c m (.wait oldtype stage) := by simpa [hl] using hu
      obtain ⟨z, r', hwait, -⟩ := Outcome.lift_eq_ret_iff.mp (step_eq_ret h₁)
      apply absurd hwait Cond.waitBlocked_ne_ret

/-- A signal that finds waiters queued dequeues exactly the first of them. -/
theorem Inv.signal_dequeues (h : Inv s) {timeout : Bool}
    (hx : s.loc x = some (.condSignal c .start)) (hqueue : s.shared.waits.queue (.cond c) ≠ []) :
  (machine b).step x (.condSignal c .start) timeout s.shared ≠ .fault ∧
    ∀ s', (machine b).Step s (.act x timeout) s' → ∃ u rest,
      s.shared.waits.queue (.cond c) = u :: rest ∧ s'.shared.waits.queue (.cond c) = rest ∧
      s'.loc x = some (.condSignal c (.wakeup u))
  := by
  constructor
  · intro hfault
    obtain ⟨u, rest, hfirst⟩ := List.exists_cons_of_ne_nil hqueue
    have hlink := h.sound.linked _ u (by rw [hfirst]; exact List.mem_cons_self)
    by_cases hlock : (s.shared.obj.cond c).lock = true
    · simp [machine, Process.step, stepInside, Cond.signalStep, Cond.signalStart, hlock,
        Loc.entry, Outcome.lift] at hfault
    · simp [machine, Process.step, stepInside, Cond.signalStep, Cond.signalStart, hlock,
        Loc.entry, Outcome.lift, hfirst, hlink] at hfault
  · intro s' hstep
    cases hstep with
    | @goto _ _ l l' y hl h₁ =>
        obtain rfl : l = .condSignal c .start := by simpa [hl] using hx
        cases h.requeue (c := c) hl h₁ with
        | keep hsame hcalm =>
            rcases Outcome.lift_eq_goto_iff.mp (step_eq_goto h₁) with ⟨z, k', hsig, -, rfl⟩ |
              ⟨_, _, _, h'⟩
            · obtain ⟨-, -, v, rest, -, rfl, -⟩ := Cond.signalStep_eq_goto hsig
              simp [dequeues] at hcalm
            · cases h'
        | @signal v rest hfirst hsame =>
            use v, rest, hfirst, hsame
            simp
    | @ret _ _ l y r hl h₁ =>
        obtain rfl : l = .condSignal c .start := by simpa [hl] using hx
        obtain ⟨z, r', hsig, -⟩ := Outcome.lift_eq_ret_iff.mp (step_eq_ret h₁)
        have hport : ∀ v ∈ (Cond.SignalLoc.start : Cond.SignalLoc T).owes,
            s.shared.waits.port v = 0 := by
          intro v hv
          cases hv
        obtain ⟨-, ⟨-, -, hempty, -⟩ | ⟨v, hl, -⟩⟩ := Cond.signalStep_eq_ret hport hsig
        · apply absurd hempty hqueue
        · cases hl

/-- A broadcast dequeues every waiter that has released the mutex, and each of them ends its
blocking. -/
theorem Calm.broadcast_leads (h : Calm s) (hinv : Inv s) {timeout : Bool}
    (hu : s.loc u = some (.condWait c m k)) (hk : k.released = true)
    (hx : s.loc x = some (.condBroadcast c .start))
    (hstep : (machine b).Step s (.act x timeout) s') :
  (machine b).Leads NoCancel s' (fun s₂ => unblocks u s'.log < unblocks u s₂.log)
  := by
  have hinv' := hinv.step hstep
  have hcalm' := h.step hinv (a := .act x timeout) trivial hstep
  have hux : u ≠ x := by
    rintro rfl
    simp [hu] at hx
  cases hstep with
  | @goto _ _ l l' y hl h₁ =>
      obtain rfl : l = .condBroadcast c .start := by simpa [hl] using hx
      apply Dequeued.leads (c := c)
      refine ⟨hinv', hcalm', ⟨m, k, by simpa [hux] using hu, hk⟩, ?_, rfl⟩
      cases hinv.requeue (c := c) hl h₁ with
      | keep hsame hcalm =>
          rcases Outcome.lift_eq_goto_iff.mp (step_eq_goto h₁) with ⟨z, k', hbr, -, rfl⟩ |
            ⟨_, _, _, h'⟩
          · have hport : ∀ v ∈ (Cond.BroadcastLoc.start : Cond.BroadcastLoc T).owes,
                s.shared.waits.port v = 0 := by
              intro v hv
              cases hv
            rcases Cond.broadcastStep_eq_goto hport hbr with ⟨-, -, rfl, -⟩ | ⟨_, _, hl, -⟩
            · have hempty : s.shared.waits.queue (.cond c) = [] := by
                simpa [dequeues] using hcalm
              simp [hsame, hempty]
            · cases hl
          · cases h'
      | broadcast hempty => simp [hempty]
  | @ret _ _ l y r hl h₁ =>
      obtain rfl : l = .condBroadcast c .start := by simpa [hl] using hx
      obtain ⟨z, r', hbr, -⟩ := Outcome.lift_eq_ret_iff.mp (step_eq_ret h₁)
      simp only [Cond.broadcastStep] at hbr
      split at hbr
      · cases hbr
      · cases hbr

end Ends

/-- No wakeup is lost. A waiter that has released the mutex is on the queue of the condition
variable until a signal or a broadcast dequeues it, and it ends its blocking only then or by
its own time-out; a broadcast makes it end its blocking; and a signal that finds waiters
queued dequeues exactly one. -/
theorem no_lost_wakeup [Fintype T] {b : Build} {attr : N → Option MutexType}
    {value count : N → Nat} {s : Sys T N}
    (hs : (machine b).Reach NoCancel (start attr value count) s) (c : N) :
  (∀ u m k, s.loc u = some (.condWait c m k) → k.released = true →
      (u ∈ s.shared.waits.queue (.cond c) ↔ dequeued c u s.log = false)) ∧
    (∀ u m oldtype stage timeout s₁, s.loc u = some (.condWait c m (.wait oldtype stage)) →
      (machine b).Step s (.act u timeout) s₁ →
      (∃ stage', s₁.loc u = some (.condWait c m (.wait oldtype stage'))) ∨
        dequeued c u s.log = true ∨ (stage = .recheck true ∧ (abstime u s.log).isSome = true)) ∧
    (∀ u m k x timeout s₁, s.loc u = some (.condWait c m k) → k.released = true →
      s.loc x = some (.condBroadcast c .start) → (machine b).Step s (.act x timeout) s₁ →
      (machine b).Leads NoCancel s₁ (fun s₂ => unblocks u s₁.log < unblocks u s₂.log)) ∧
    (∀ x timeout, s.loc x = some (.condSignal c .start) → s.shared.waits.queue (.cond c) ≠ [] →
      (machine b).step x (.condSignal c .start) timeout s.shared ≠ .fault ∧
        ∀ s₁, (machine b).Step s (.act x timeout) s₁ → ∃ u rest,
          s.shared.waits.queue (.cond c) = u :: rest ∧
          s₁.shared.waits.queue (.cond c) = rest ∧
          s₁.loc x = some (.condSignal c (.wakeup u)))
  := by
  have hinv := Inv.of_reach hs
  have hcalm := Calm.of_reach hs
  refine ⟨?_, ?_, ?_, ?_⟩
  · intro u m k hu hk
    apply hcalm.listed u c m k hu (blocked_of_released hk)
  · intro u m oldtype stage timeout s₁ hu hstep
    apply hcalm.unblocked hinv hu hstep
  · intro u m k x timeout s₁ hu hk hx hstep
    apply hcalm.broadcast_leads hinv hu hk hx hstep
  · intro x timeout hx hqueue
    apply hinv.signal_dequeues hx hqueue

/-- Thread 0 waits on a condition variable, and thread 1 broadcasts. -/
theorem no_lost_wakeup_broadcast :
  ∃ s s₁, (machine .debug).Reach NoCancel
      (start (T := Fin 2) (N := Unit) (fun _ => none) (fun _ => 0) (fun _ => 1)) s ∧
    0 ∈ s.shared.waits.queue (.cond ()) ∧ dequeued () 0 s.log = false ∧
    (machine .debug).Step s (.act 1 false) s₁ ∧
    (machine .debug).Leads NoCancel s₁ (fun s₂ => unblocks 0 s₁.log < unblocks 0 s₂.log)
  := by
  obtain ⟨s, hs, hp⟩ := Machine.exists_reach_of_run (M := machine .debug) (G := NoCancel)
    (s := start (T := Fin 2) (N := Unit) (fun _ => none) (fun _ => 0) (fun _ => 1))
    [.call 0 (.mutex () (.lock (.start none))), .act 0 false,
      .call 0 (.condWait () () (.start none)), .act 0 false, .act 0 false, .act 0 false,
      .act 0 false, .act 0 false, .call 1 (.condBroadcast () .start)]
    (fun s => s.loc 0 = some (.condWait () () (.wait .deferred (.block false))) ∧
      s.loc 1 = some (.condBroadcast () .start) ∧ dequeued () 0 s.log = false ∧
      ((machine .debug).exec s (.act 1 false)).isSome = true)
    (by decide +kernel)
  simp only [decide_eq_true_eq] at hp
  obtain ⟨hwait, hbroadcast, hqueued, henabled⟩ := hp
  obtain ⟨s₁, hs₁⟩ := Option.isSome_iff_exists.mp henabled
  have hstep := Machine.exec_eq_some_iff.mp hs₁
  obtain ⟨hlisted, -, hleads, -⟩ := no_lost_wakeup hs ()
  use s, s₁, hs, (hlisted 0 () _ hwait rfl).mpr hqueued, hqueued, hstep
  apply hleads 0 () _ 1 false s₁ hwait rfl hbroadcast hstep

end Process

end LibPthread
