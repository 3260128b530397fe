import LibPthread.Process.CancelLock

/-!
# Who owns a `cancel_lock`

The invariant of all runs of a process, cancellation included. The hook dequeues its target
through the link of the target, whichever queue that is on, so that it may grant the target
its own `cancel_lock` while the canceller still owns it. Each `cancel_lock` has at most one
owner until then: as long as no request to cancel the thread is pending, and while the hook
has still to be run (`Unspoilt`).
-/

open Concurrency

namespace LibPthread

/-- A thread with this grip on a mutex owns it; a thread that waits for it does when it is
no longer linked. -/
def Grip.owns (linked : Bool) : Grip → Bool
  | .away => false
  | .locking (.start _) => false
  | .locking (.wait _) => !linked
  | .locking (.finish _) => true
  | .inside => true

namespace Process

variable {T N : Type} [DecidableEq T] [DecidableEq N]

/-- The grip of the thread `x` on the `cancel_lock` of `t`. -/
def grip (s : Sys T N) (t x : T) : Grip :=
  (s.loc x).elim .away (Loc.grip x t)

/-- The thread `x` owns the `cancel_lock` of `t`: it has been granted to `x`, which has not
released it yet. -/
def Owns (s : Sys T N) (t x : T) : Prop :=
  (grip s t x).owns (s.shared.waits.prevp x).isSome = true

/-- The condition variable of the hook that `t` has installed. -/
def hooked (s : Sys T N) (t : T) : Option N :=
  (s.loc t).bind Loc.hooked

/-- Some thread is about to run the hook of `t`. -/
def Hooking (s : Sys T N) (t : T) : Prop :=
  ∃ x c, s.loc x = some (.cancel t (.hook c))

/-- The thread `x` has recorded a request to cancel `t` and has still to act on it. -/
def Records (s : Sys T N) (t x : T) : Prop :=
  ∃ l, s.loc x = some l ∧ l.records t = true

/-- No hook of `t` has been run yet. -/
def Unspoilt (s : Sys T N) (t : T) : Prop :=
  (s.shared.obj.cancel t).pending = false ∨ Hooking s t

/-- The `cancel_lock` of `t` has no attributes and is only locked without a time-out. -/
structure Plain (s : Sys T N) (t : T) : Prop where
  attr : (s.shared.obj.mutex (.cancelLock t)).attr = none
  lock : (s.shared.obj.mutex (.cancelLock t)).lock = false
  untimed : ∀ x l, grip s t x = .locking l → l.untimed = true

/-- The `cancel_lock` of `t` has at most one owner, and none if it is free. -/
structure Exclusive (s : Sys T N) (t : T) : Prop where
  free : (s.shared.obj.mutex (.cancelLock t)).held = false →
    s.shared.waits.queue (.mutex (.cancelLock t)) = [] ∧ ∀ x, ¬ Owns s t x
  unique : ∀ x y, Owns s t x → Owns s t y → x = y

/-- What one step of `u` does to the control points, the queues and the locks. -/
structure Moves (b : Build) (u : T) (s s' : Sys T N) : Prop where
  other : ∀ x, x ≠ u → s'.loc x = s.loc x
  act : Act QueueRef.IsBarrier
    (fun q => ∃ l, s.loc u = some l ∧ l.Touches u s.shared.waits q) u
    s.shared.waits (roles (fun t => Loc.role t) s u) s'.shared.waits
    (roles (fun t => Loc.role t) s' u)
  move : ∀ t, Move b t u s.shared s'.shared (grip s t u) (grip s' t u)
  touches : ∀ t l, s.loc u = some l →
    l.Touches u s.shared.waits (.mutex (.cancelLock t)) →
    (∃ k, grip s t u = .locking k) ∨ (grip s t u = .inside ∧ grip s' t u = .away)
      ∨ ∃ target c, l = .cancel target (.hook c)
        ∧ s.shared.waits.prevp target = some (.mutex (.cancelLock t))

section Steps

variable {b : Build} {t self : T} {s s' : Sys T N} {x x' : Shared T N} {g g' : Grip}

theorem Move.of_resume (h : Move b t self (Shared.resume self x) x' g g') :
  Move b t self x x' g g'
  := by
  cases h with
  | away hsame => exact .away hsame
  | stay hsame => exact .stay hsame
  | enter hsame => exact .enter hsame
  | lock hstep => exact .lock hstep
  | acquire hstep => exact .acquire hstep
  | handOver hstep => exact .handOver hstep
  | release hstep => exact .release hstep

theorem Loc.grip_of_entry {l : Loc T N} (hl : l.entry = true) (t : T) :
  l.grip self t = .away ∨ l.grip self t = .locking (.start none)
  := by
  cases l with
  | condWait c m k =>
      cases k with
      | start abstime => simp [Loc.grip, Cond.WaitLoc.grip]
      | _ => cases hl
  | cancel target k =>
      obtain rfl : k = .lock (.start none) := by simpa [Loc.entry] using hl
      simp only [Loc.grip, CancelLoc.grip]
      split <;> simp
  | set x k =>
      obtain rfl : k = .lock (.start none) := by simpa [Loc.entry] using hl
      simp only [Loc.grip, SetLoc.grip]
      split <;> simp
  | _ => simp [Loc.grip]

/-- Every step is one of `Moves`, if its sends find the ports empty and its hook finds its
target on a queue whenever it finds it linked. -/
theorem moves {a : Label T (Loc T N)}
    (hport : ∀ u ∈ (roles (fun t => Loc.role t) s a.thread).owes, s.shared.waits.port u = 0)
    (hqueued : ∀ target c, s.loc a.thread = some (.cancel target (.hook c)) →
      ∀ q, s.shared.waits.prevp target = some q → target ∈ s.shared.waits.queue q)
    (hstep : (machine b).Step s a s') :
  Moves b a.thread s s'
  := by
  cases hstep with
  | @call t l hidle hentry =>
      rw [Label.thread] at *
      constructor
      · intro x hx
        simp [hx]
      · have hrole : roles (fun t => Loc.role t) (s.call t l) t =
            roles (fun t => Loc.role t) s t := by
          simp [roles, hidle, Loc.role_of_entry hentry]
        rw [hrole]
        apply Act.skip
      · intro t'
        have hgrip : grip s t' t = .away := by simp [grip, hidle]
        have hgrip' : grip (s.call t l) t' t = l.grip t t' := by simp [grip]
        rw [hgrip, hgrip']
        rcases Loc.grip_of_entry hentry t' with h | h
        · rw [h]
          exact .away rfl
        · rw [h]
          exact .enter rfl
      · intro t' l' hl'
        rw [hidle] at hl'
        cases hl'
  | @goto t c l l' x hl h =>
      have hrole : roles (fun t => Loc.role t) s t = l.role t := by simp [roles, hl]
      have hrole' : roles (fun t => Loc.role t) (s.goto t l x l') t = l'.role t := by simp [roles]
      rw [Label.thread] at *
      constructor
      · intro y hy
        simp [hy]
      · rw [hrole, hrole']
        apply (step_act (hrole ▸ hport) _ h).mono
        · intro q hq
          use l
        · rintro target c rfl
          apply hqueued target c hl
      · intro t'
        have hgrip : grip s t' t = l.grip t t' := by simp [grip, hl]
        have hgrip' : grip (s.goto t l x l') t' t = l'.grip t t' := by simp [grip]
        rw [hgrip, hgrip']
        apply (stepInside_move t' (step_eq_goto h)).of_resume
      · intro t' l₁ hl₁ htouch
        obtain rfl : l = l₁ := by simpa [hl] using hl₁
        have hgrip : grip s t' t = l.grip t t' := by simp [grip, hl]
        have hgrip' : grip (s.goto t l x l') t' t = l'.grip t t' := by simp [grip]
        rw [hgrip, hgrip']
        apply stepInside_touches (step_eq_goto h) htouch
  | @ret t c l x r hl h =>
      have hrole : roles (fun t => Loc.role t) s t = l.role t := by simp [roles, hl]
      have hrole' : roles (fun t => Loc.role t) (s.ret t l x r) t = .idle := by simp [roles]
      rw [Label.thread] at *
      constructor
      · intro y hy
        simp [hy]
      · rw [hrole, hrole']
        apply (step_act_ret (hrole ▸ hport) h).mono
        intro q hq
        use l
      · intro t'
        have hgrip : grip s t' t = l.grip t t' := by simp [grip, hl]
        have hgrip' : grip (s.ret t l x r) t' t = .away := by simp [grip]
        rw [hgrip, hgrip']
        apply (stepInside_move_ret t' (step_eq_ret h)).of_resume
      · intro t' l₁ hl₁ htouch
        obtain rfl : l = l₁ := by simpa [hl] using hl₁
        have hgrip : grip s t' t = l.grip t t' := by simp [grip, hl]
        have hgrip' : grip (s.ret t l x r) t' t = .away := by simp [grip]
        rw [hgrip, hgrip']
        rcases Loc.grip_of_touches htouch with hlock | hinside | ⟨target, c, rfl⟩
        · left
          apply hlock
        · right; left
          use hinside
        · obtain ⟨y, r', hstep, -⟩ := Outcome.lift_eq_ret_iff.mp (step_eq_ret h)
          apply absurd hstep cancelHook_ne_ret

end Steps

/-! ### One owner at a time -/

section Owner

variable {b : Build} {t self x : T} {s s' : Sys T N}

theorem Moves.grip_other (hm : Moves b self s s') (hx : x ≠ self) :
  grip s' t x = grip s t x
  := by
  rw [grip, grip, hm.other x hx]

theorem Plain.step (h : Plain s t) (hm : Moves b self s s') :
  Plain s' t
  := by
  have hother : ∀ x l, x ≠ self → grip s' t x = .locking l → l.untimed = true := by
    intro x l hx hl
    rw [hm.grip_other hx] at hl
    apply h.untimed x l hl
  have hself := h.untimed self
  have hmove := hm.move t
  generalize hg : grip s t self = g at hmove hself
  generalize hg' : grip s' t self = g' at hmove
  cases hmove with
  | away hsame =>
      refine ⟨hsame ▸ h.attr, hsame ▸ h.lock, ?_⟩
      grind
  | stay hsame =>
      refine ⟨hsame ▸ h.attr, hsame ▸ h.lock, ?_⟩
      grind
  | enter hsame =>
      refine ⟨hsame ▸ h.attr, hsame ▸ h.lock, ?_⟩
      grind [Mutex.LockLoc.untimed]
  | @lock k k' c hstep =>
      obtain ⟨hobj, huntimed, -⟩ := Mutex.lockStep_goto_of_untimed (hself k rfl) hstep
      have hsame : s'.shared.obj.mutex (.cancelLock t) = s.shared.obj.mutex (.cancelLock t) := hobj
      refine ⟨hsame ▸ h.attr, hsame ▸ h.lock, ?_⟩
      grind
  | @acquire k c r hstep =>
      obtain ⟨-, hattr, -, ⟨-, -, -, hlock⟩ | ⟨-, -, hlock⟩⟩ :=
        Mutex.lockStep_ret_of_untimed (hself k rfl) h.attr hstep
      · refine ⟨hattr, hlock, ?_⟩
        grind
      · refine ⟨hattr, hlock.trans h.lock, ?_⟩
        grind
  | handOver hstep =>
      obtain ⟨hattr, hlock, -⟩ :=
        Mutex.unlockStart_goto_of_plain (s := Shared.getMutex (.cancelLock t) s.shared) h.attr hstep
      refine ⟨hattr, hlock, ?_⟩
      grind
  | release hstep =>
      obtain ⟨hattr, hlock, -⟩ :=
        Mutex.unlockStart_ret_of_plain (s := Shared.getMutex (.cancelLock t) s.shared) h.attr hstep
      refine ⟨hattr, hlock, ?_⟩
      grind

omit [DecidableEq N] in
/-- A thread that does not move owns the lock as before if its link is not changed while it
waits for the lock. -/
theorem owns_congr (hgrip : grip s' t x = grip s t x)
    (hlink : ∀ st, grip s t x = .locking (.wait st) →
      s'.shared.waits.prevp x = s.shared.waits.prevp x) :
  Owns s' t x ↔ Owns s t x
  := by
  rw [Owns, Owns, hgrip]
  cases hg : grip s t x with
  | away => rfl
  | inside => rfl
  | locking k =>
      cases k with
      | start abstime => rfl
      | wait st => rw [hlink st hg]
      | finish err => rfl

omit [DecidableEq N] in
theorem owns_of_inside (h : grip s t x = .inside) :
  Owns s t x
  := by
  simp [Owns, h, Grip.owns]

omit [DecidableEq N] in
theorem not_owns_of_away (h : grip s t x = .away) :
  ¬ Owns s t x
  := by
  simp [Owns, h, Grip.owns]

omit [DecidableEq N] in
/-- The lock has as many owners as before if no thread becomes one or ceases to be one. -/
theorem Exclusive.congr (h : Exclusive s t)
    (hheld : (s'.shared.obj.mutex (.cancelLock t)).held =
      (s.shared.obj.mutex (.cancelLock t)).held)
    (hqueue : (s.shared.obj.mutex (.cancelLock t)).held = false →
      s'.shared.waits.queue (.mutex (.cancelLock t)) =
        s.shared.waits.queue (.mutex (.cancelLock t)))
    (howns : ∀ x, Owns s' t x ↔ Owns s t x) :
  Exclusive s' t
  := by
  constructor
  · intro hfree
    rw [hheld] at hfree
    obtain ⟨hempty, hnone⟩ := h.free hfree
    rw [hqueue hfree]
    use hempty
    intro x
    rw [howns]
    apply hnone
  · intro x y hx hy
    rw [howns] at hx hy
    apply h.unique x y hx hy

variable [Fintype T]

omit [Fintype T] [DecidableEq N] in
/-- A thread waits on the queue of the `cancel_lock` exactly while it is in the wait of the
lock function. -/
theorem queue_of_wait {st : Stage} (h : grip s t x = .locking (.wait st)) :
  (roles (fun t => Loc.role t) s x).phase = st.phase (.mutex (.cancelLock t))
  := by
  cases hl : s.loc x with
  | none => simp [grip, hl] at h
  | some l =>
      have hgrip : l.grip x t = .locking (.wait st) := by simpa [grip, hl] using h
      have hrole : roles (fun t => Loc.role t) s x = l.role x := by simp [roles, hl]
      rw [hrole, Loc.phase_of_locking hgrip]
      rfl

/-- A step that does not act on the queue of the lock leaves its owners alone, the acting
thread apart. -/
theorem Moves.frame (hm : Moves b self s s')
    (hsound : Sound QueueRef.IsBarrier (roles (fun t => Loc.role t) s) s.shared.waits)
    (hfar : ∀ l, s.loc self = some l →
      ¬ l.Touches self s.shared.waits (.mutex (.cancelLock t))) :
  s'.shared.waits.queue (.mutex (.cancelLock t)) = s.shared.waits.queue (.mutex (.cancelLock t))
    ∧ ∀ x, x ≠ self → (Owns s' t x ↔ Owns s t x)
  := by
  have hon : ¬ ∃ l, s.loc self = some l ∧
      l.Touches self s.shared.waits (.mutex (.cancelLock t)) := by
    rintro ⟨l, hl, htouch⟩
    apply hfar l hl htouch
  constructor
  · apply hm.act.queue_eq hsound hon
  · intro x hx
    apply owns_congr (hm.grip_other hx)
    intro st hst
    have hphase := queue_of_wait hst
    apply hm.act.prevp_eq hsound hx (by rw [hphase, Stage.queue_phase]) id hon

/-- A step inside the lock function neither makes nor unmakes an owner. -/
theorem Exclusive.lock (h : Exclusive s t) (hm : Moves b self s s')
    (hsound : Sound QueueRef.IsBarrier (roles (fun t => Loc.role t) s) s.shared.waits)
    {k k' : Mutex.LockLoc} {c : Bool} (huntimed : k.untimed = true)
    (hg : grip s t self = .locking k) (hg' : grip s' t self = .locking k')
    (hstep : Mutex.lockStep b (.mutex (.cancelLock t)) self k c
      (Shared.getMutex (.cancelLock t) s.shared) =
        .goto (Shared.getMutex (.cancelLock t) s'.shared) k') :
  Exclusive s' t
  := by
  obtain ⟨hobj, -, hcases⟩ := Mutex.lockStep_goto_of_untimed huntimed hstep
  have hheld : (s'.shared.obj.mutex (.cancelLock t)).held =
      (s.shared.obj.mutex (.cancelLock t)).held := congrArg Mutex.held hobj
  rcases hcases with ⟨rfl, htaken, hwaits, rfl⟩ | ⟨rfl, hwaits, rfl⟩ | ⟨rfl, rfl, hcheck⟩
  · have hwaits' : s'.shared.waits = s.shared.waits.enqueue (.mutex (.cancelLock t)) self := hwaits
    apply h.congr hheld
    · intro hfree
      simp only [Shared.getMutex_obj] at htaken
      simp [hfree] at htaken
    · intro x
      by_cases hx : x = self
      · subst hx
        simp [Owns, hg, hg', Grip.owns, hwaits']
      · apply owns_congr (hm.grip_other hx)
        intro st _
        simp [hwaits', hx]
  · have hwaits' : s'.shared.waits = s.shared.waits.receive self := hwaits
    apply h.congr hheld
    · intro _
      simp [hwaits']
    · intro x
      by_cases hx : x = self
      · subst hx
        simp [Owns, hg, hg', Grip.owns, hwaits']
      · apply owns_congr (hm.grip_other hx)
        intro st _
        simp [hwaits']
  · have hgone : s.shared.waits.prevp self = none := by
      apply hsound.gone_of_received (q := .mutex (.cancelLock t))
      rw [queue_of_wait hg]
      rfl
    rcases hcheck with ⟨-, hwaits⟩ | ⟨hstill, -⟩
    · have hwaits' : s'.shared.waits = s.shared.waits := hwaits
      apply h.congr hheld
      · intro _
        rw [hwaits']
      · intro x
        by_cases hx : x = self
        · subst hx
          simp [Owns, hg, hg', Grip.owns, hgone]
        · apply owns_congr (hm.grip_other hx)
          intro st _
          rw [hwaits']
    · apply absurd hgone hstill

omit [Fintype T] in
/-- The return of the lock function makes its caller the owner of a free lock, or leaves it
the owner of a lock that was handed over to it. -/
theorem Exclusive.acquire (h : Exclusive s t) (hm : Moves b self s s')
    {k : Mutex.LockLoc} {c : Bool} {r : Ret} (huntimed : k.untimed = true)
    (hattr : (s.shared.obj.mutex (.cancelLock t)).attr = none)
    (hg : grip s t self = .locking k) (hg' : grip s' t self = .inside)
    (hstep : Mutex.lockStep b (.mutex (.cancelLock t)) self k c
      (Shared.getMutex (.cancelLock t) s.shared) =
        .ret (Shared.getMutex (.cancelLock t) s'.shared) r) :
  Exclusive s' t
  := by
  obtain ⟨hwaits, -, -, hcases⟩ := Mutex.lockStep_ret_of_untimed huntimed hattr hstep
  have hwaits' : s'.shared.waits = s.shared.waits := hwaits
  have hother : ∀ x, x ≠ self → (Owns s' t x ↔ Owns s t x) := by
    intro x hx
    apply owns_congr (hm.grip_other hx)
    intro st _
    rw [hwaits']
  rcases hcases with ⟨-, hfree, hheld, -⟩ | ⟨rfl, hheld, -⟩
  · obtain ⟨-, hnone⟩ := h.free hfree
    have honly : ∀ x, Owns s' t x → x = self := by
      intro x hx
      by_contra hne
      apply hnone x ((hother x hne).mp hx)
    constructor
    · intro hfree'
      simp only [Shared.getMutex_obj] at hheld
      simp [hfree'] at hheld
    · intro x y hx hy
      rw [honly x hx, honly y hy]
  · apply h.congr hheld
    · intro _
      rw [hwaits']
    · intro x
      by_cases hx : x = self
      · subst hx
        simp [Owns, hg, hg', Grip.owns]
      · apply hother x hx

omit [Fintype T] in
/-- The section of the unlock function hands the lock over to the first thread of its
queue. -/
theorem Exclusive.handOver (h : Exclusive s t) (hm : Moves b self s s')
    {k' : Mutex.UnlockLoc T} (hattr : (s.shared.obj.mutex (.cancelLock t)).attr = none)
    (hg : grip s t self = .inside) (hg' : grip s' t self = .away)
    (hstep : Mutex.unlockStart b (.mutex (.cancelLock t)) self
      (s.shared.obj.mutex (.cancelLock t)) s.shared.waits =
        .goto (Shared.getMutex (.cancelLock t) s'.shared) k') :
  Exclusive s' t
  := by
  obtain ⟨-, -, hheld, u, rest, -, -, hwaits⟩ :=
    Mutex.unlockStart_goto_of_plain (s := Shared.getMutex (.cancelLock t) s.shared) hattr hstep
  have hwaits' : s'.shared.waits = s.shared.waits.dequeue u := hwaits
  have hself := owns_of_inside hg
  have honly : ∀ x, Owns s' t x → x = u := by
    intro x hx
    by_contra hne
    have hxs : x ≠ self := by
      rintro rfl
      apply not_owns_of_away hg' hx
    have hsame : Owns s' t x ↔ Owns s t x := by
      apply owns_congr (hm.grip_other hxs)
      intro st _
      rw [hwaits', Waits.dequeue_prevp, if_neg hne]
    apply hxs (h.unique x self (hsame.mp hx) hself)
  constructor
  · intro hfree
    have hfree' : (s.shared.obj.mutex (.cancelLock t)).held = false := hheld.symm.trans hfree
    apply absurd hself ((h.free hfree').2 self)
  · intro x y hx hy
    rw [honly x hx, honly y hy]

omit [Fintype T] in
/-- The section of the unlock function frees the lock when its queue is empty. -/
theorem Exclusive.release (h : Exclusive s t) (hm : Moves b self s s') {r : Ret}
    (hattr : (s.shared.obj.mutex (.cancelLock t)).attr = none)
    (hg : grip s t self = .inside) (hg' : grip s' t self = .away)
    (hstep : Mutex.unlockStart b (.mutex (.cancelLock t)) self
      (s.shared.obj.mutex (.cancelLock t)) s.shared.waits =
        .ret (Shared.getMutex (.cancelLock t) s'.shared) r) :
  Exclusive s' t
  := by
  obtain ⟨-, -, -, hempty, hwaits⟩ :=
    Mutex.unlockStart_ret_of_plain (s := Shared.getMutex (.cancelLock t) s.shared) hattr hstep
  have hwaits' : s'.shared.waits = s.shared.waits := hwaits
  have hself := owns_of_inside hg
  have hnone : ∀ x, ¬ Owns s' t x := by
    intro x hx
    have hxs : x ≠ self := by
      rintro rfl
      apply not_owns_of_away hg' hx
    have hsame : Owns s' t x ↔ Owns s t x := by
      apply owns_congr (hm.grip_other hxs)
      intro st _
      rw [hwaits']
    apply hxs (h.unique x self (hsame.mp hx) hself)
  constructor
  · intro _
    rw [hwaits']
    use hempty
  · intro x y hx
    apply absurd hx (hnone x)

/-- Every step keeps the lock exclusive, except a hook that finds its target linked on the
queue of the lock. -/
theorem Exclusive.step (h : Exclusive s t) (hplain : Plain s t) (hm : Moves b self s s')
    (hsound : Sound QueueRef.IsBarrier (roles (fun t => Loc.role t) s) s.shared.waits)
    (hclean : ∀ target c, s.loc self = some (.cancel target (.hook c)) →
      s.shared.waits.prevp target ≠ some (.mutex (.cancelLock t))) :
  Exclusive s' t
  := by
  have huntimed := hplain.untimed self
  have htouches := hm.touches t
  have hmove := hm.move t
  generalize hg : grip s t self = g at hmove huntimed htouches
  generalize hg' : grip s' t self = g' at hmove htouches
  have hfar : (∀ k, g ≠ .locking k) → (g = .inside → g' ≠ .away) → ∀ l, s.loc self = some l →
      ¬ l.Touches self s.shared.waits (.mutex (.cancelLock t)) := by
    intro hlock hunlock l hl htouch
    rcases htouches l hl htouch with ⟨k, hk⟩ | ⟨hin, haway⟩ | ⟨target, c, rfl, hlink⟩
    · apply hlock k hk
    · apply hunlock hin haway
    · apply hclean target c hl hlink
  have hkeep : s'.shared.obj.mutex (.cancelLock t) = s.shared.obj.mutex (.cancelLock t) →
      (∀ k, g ≠ .locking k) → (g = .inside → g' ≠ .away) → (Owns s' t self ↔ Owns s t self) →
      Exclusive s' t := by
    intro hsame hlock hunlock hself
    obtain ⟨hqueue, hother⟩ := hm.frame hsound (hfar hlock hunlock)
    apply h.congr (by rw [hsame]) (fun _ => hqueue)
    intro x
    by_cases hx : x = self
    · rw [hx]
      apply hself
    · apply hother x hx
  cases hmove with
  | away hsame => apply hkeep hsame (by simp) (by simp) (by simp [Owns, hg, hg', Grip.owns])
  | stay hsame => apply hkeep hsame (by simp) (by simp) (by simp [Owns, hg, hg', Grip.owns])
  | enter hsame => apply hkeep hsame (by simp) (by simp) (by simp [Owns, hg, hg', Grip.owns])
  | lock hstep => apply h.lock hm hsound (huntimed _ rfl) hg hg' hstep
  | acquire hstep => apply h.acquire hm (huntimed _ rfl) hplain.attr hg hg' hstep
  | handOver hstep => apply h.handOver hm hplain.attr hg hg' hstep
  | release hstep => apply h.release hm hplain.attr hg hg' hstep

end Owner

/-! ### The cancellation fields of a process -/

/-- What one step of `u` does to the cancellation fields, with the control point of `u`
before and after it. -/
inductive Alters (u : T) (s s' : Sys T N) : Prop where
  | keep (fields : s'.shared.obj.cancel = s.shared.obj.cancel) (hook : hooked s' u = hooked s u)
    (records : ∀ t, Records s' t u → Records s t u)
    (calm : ∀ t c, s'.loc u ≠ some (.cancel t (.hook c)))
  | change {l l' : Loc T N} (before : s.loc u = some l) (after : s'.loc u = some l')
    (alter : Change u l l' s.shared s'.shared)

section Alters

variable {b : Build} {s s' : Sys T N} {a : Label T (Loc T N)}

omit [DecidableEq N] in
theorem Change.of_resume {u : T} {l l' : Loc T N} {x x' : Shared T N}
    (h : Change u l l' (Shared.resume u x) x') :
  Change u l l' x x'
  := by
  cases h with
  | keep hfields hhook hrecords hcalm => exact .keep hfields hhook hrecords hcalm
  | install hbefore hidle hafter hfields => exact .install hbefore hidle hafter hfields
  | remove hbefore hafter hfields => exact .remove hbefore hafter hfields
  | record hbefore hnew hfields hafter => exact .record hbefore hnew hfields hafter
  | store hbefore hafter hfields => exact .store hbefore hafter hfields

theorem Loc.hooked_of_entry {l : Loc T N} (hl : l.entry = true) :
  l.hooked = none
  := by
  cases l with
  | condWait c m k =>
      cases k with
      | start abstime => rfl
      | _ => cases hl
  | _ => rfl

theorem Loc.records_of_entry {l : Loc T N} (hl : l.entry = true) (t : T) :
  l.records t = false
  := by
  cases l with
  | cancel target k =>
      obtain rfl : k = .lock (.start none) := by simpa [Loc.entry] using hl
      rfl
  | _ => rfl

/-- Every step alters the cancellation fields in one of the ways of `Alters`. -/
theorem alters (hstep : (machine b).Step s a s') :
  Alters a.thread s s'
  := by
  cases hstep with
  | @call t l hidle hentry =>
      rw [Label.thread]
      refine Alters.keep rfl ?_ ?_ ?_
      · simp [hooked, hidle, Loc.hooked_of_entry hentry]
      · rintro t' ⟨l', hl', hrec⟩
        obtain rfl : l = l' := by simpa using hl'
        simp [Loc.records_of_entry hentry] at hrec
      · intro t' c hl'
        obtain rfl : l = .cancel t' (.hook c) := by simpa using hl'
        simp [machine, Loc.entry] at hentry
  | @goto t c l l' x hl h =>
      refine Alters.change hl (Function.update_self _ _ _) ?_
      apply (stepInside_change (step_eq_goto h)).of_resume
  | @ret t c l x r hl h =>
      obtain ⟨hfields, hhook⟩ := stepInside_fields_ret (step_eq_ret h)
      rw [Label.thread]
      apply Alters.keep hfields
      · simp [hooked, hl, hhook]
      · rintro t' ⟨l', hl', -⟩
        simp at hl'
      · simp

/-- The hook leaves its target unlinked. -/
theorem prevp_of_hook {t : T} {c : N} (hstep : (machine b).Step s a s')
    (hl : s.loc a.thread = some (.cancel t (.hook c))) :
  s'.shared.waits.prevp t = none
  := by
  cases hstep with
  | @call u l hidle _ => simp [hidle] at hl
  | @goto u _ l l' x hl' h =>
      obtain rfl : l = .cancel t (.hook c) := by simpa [hl'] using hl
      rcases Outcome.lift_eq_goto_iff.mp (step_eq_goto h) with ⟨y, k', hhook, rfl, rfl⟩ |
        ⟨_, _, hhook, _⟩
      · obtain ⟨-, ⟨hgone, rfl, rfl⟩ | ⟨-, rfl, rfl⟩⟩ := cancelHook_eq_goto hhook
        · apply hgone
        · simp
      · apply absurd hhook cancelHook_ne_ret
  | @ret u _ l x r hl' h =>
      obtain rfl : l = .cancel t (.hook c) := by simpa [hl'] using hl
      obtain ⟨_, _, hhook, _⟩ := Outcome.lift_eq_ret_iff.mp (step_eq_ret h)
      apply absurd hhook cancelHook_ne_ret

/-- A thread enters the wait on a condition variable with its enqueue. -/
theorem enters {c : N} (hstep : (machine b).Step s a s')
    (hout : (roles (fun t => Loc.role t) s a.thread).phase = .out)
    (hin : (roles (fun t => Loc.role t) s' a.thread).phase.queue = some (.cond c)) :
  ∃ c m timed, s.loc a.thread = some (.condWait c m (.enqueue timed))
  := by
  cases hstep with
  | @call t l hidle hentry =>
      simp [roles, Loc.role_of_entry hentry, Role.idle] at hin
  | @goto t _ l l' x hl h =>
      simp only [Label.thread, roles, hl, Option.elim_some] at hout
      simp only [Label.thread, roles, State.goto_loc, Function.update_self,
        Option.elim_some] at hin
      obtain ⟨c, m, timed, rfl⟩ := stepInside_enters hout hin (step_eq_goto h)
      use c, m, timed, hl
  | @ret t _ l x r hl h =>
      simp [roles, Role.idle] at hin

end Alters

/-! ### The invariant -/

/-- The invariant of all runs of a process. -/
structure Inv [Fintype T] (s : Sys T N) : Prop where
  sound : Sound QueueRef.IsBarrier (roles (fun t => Loc.role t) s) s.shared.waits
  plain : ∀ t, Plain s t
  hook : ∀ t, (s.shared.obj.cancel t).hook = hooked s t
  /-- A thread with a hook installed defers its cancellation. -/
  deferred : ∀ t c, hooked s t = some c → (s.shared.obj.cancel t).type = .deferred
  pending : ∀ t x, Records s t x → (s.shared.obj.cancel t).pending = true
  /-- At most one thread acts on a request to cancel `t`. -/
  recorder : ∀ t x y, Records s t x → Records s t y → x = y
  hooking : ∀ t x c, s.loc x = some (.cancel t (.hook c)) →
    hooked s t = some c ∧ (s.shared.obj.cancel t).state = .enable
  exclusive : ∀ t, Unspoilt s t → Exclusive s t
  /-- A thread that waits on a condition variable with a request pending either is going to
  be dequeued by its hook or has disabled cancellation. -/
  quiet : ∀ t c, t ∈ s.shared.waits.queue (.cond c) → (s.shared.obj.cancel t).pending = true →
    Hooking s t ∨ (s.shared.obj.cancel t).state = .disable

section Fields

variable {b : Build} {u t x y : T} {c : N} {s s' : Sys T N}

omit [DecidableEq N] in
/-- A request stays pending. -/
theorem Alters.pending_mono (ha : Alters u s s')
    (h : (s.shared.obj.cancel t).pending = true) :
  (s'.shared.obj.cancel t).pending = true
  := by
  cases ha with
  | keep hfields => rw [hfields, h]
  | change hbefore hafter halter =>
      cases halter with
      | keep hfields => rw [hfields, h]
      | install _ _ _ hfields =>
          rw [hfields, Function.update_apply]
          grind
      | remove _ _ hfields =>
          rw [hfields, Function.update_apply]
          grind
      | record _ _ hfields =>
          rw [hfields, Function.update_apply]
          grind
      | @store z _ _ hfields =>
          rw [hfields, Function.update_apply]
          cases z <;> grind [Setting.apply]

omit [DecidableEq N] in
/-- The cancellation state of a thread is changed only by its own call of
`pthread_setcancelstate`. -/
theorem Alters.state_eq (ha : Alters u s s')
    (hset : ∀ x, s.loc u = some (.set x .store) → t ≠ u) :
  (s'.shared.obj.cancel t).state = (s.shared.obj.cancel t).state
  := by
  cases ha with
  | keep hfields => rw [hfields]
  | change hbefore hafter halter =>
      cases halter with
      | keep hfields => rw [hfields]
      | install _ _ _ hfields =>
          rw [hfields, Function.update_apply]
          grind
      | remove _ _ hfields =>
          rw [hfields, Function.update_apply]
          grind
      | record _ _ hfields =>
          rw [hfields, Function.update_apply]
          grind
      | @store z hloc _ hfields =>
          have hne : t ≠ u := hset z (hloc ▸ hbefore)
          simp [hfields, hne]

omit [DecidableEq N] [DecidableEq T] in
theorem hooked_of_cond {k : Cond.WaitLoc T} {m : N} (h : s.loc t = some (.condWait c m k)) :
  hooked s t = (Loc.condWait (T := T) c m k).hooked
  := by
  simp [hooked, h]

variable [Fintype T]

omit [DecidableEq N] in
/-- A thread that waits on a condition variable has its hook installed. -/
theorem hooked_of_mem
    (hsound : Sound QueueRef.IsBarrier (roles (fun t => Loc.role t) s) s.shared.waits)
    (hmem : t ∈ s.shared.waits.queue (.cond c)) :
  hooked s t = some c
  := by
  have hqueue := (hsound.queued hmem).1
  cases hl : s.loc t with
  | none => simp [roles, hl, Role.idle] at hqueue
  | some l =>
      have hrole : roles (fun t => Loc.role t) s t = l.role t := by simp [roles, hl]
      rw [hrole] at hqueue
      simp [hooked, hl, Loc.hooked_of_queue hqueue]

omit [DecidableEq N] in
/-- A thread with a hook installed is linked on the queue of its condition variable or of
its `cancel_lock`, if at all. -/
theorem Inv.mem_of_hooked (h : Inv s) (hhook : hooked s t = some c) {q : QueueRef T N}
    (hlink : s.shared.waits.prevp t = some q) :
  (q = .cond c ∨ q = .mutex (.cancelLock t)) ∧ t ∈ s.shared.waits.queue q
  := by
  cases hl : s.loc t with
  | none => simp [hooked, hl] at hhook
  | some l =>
      have hrole : roles (fun t => Loc.role t) s t = l.role t := by simp [roles, hl]
      have hhook' : l.hooked = some c := by simpa [hooked, hl] using hhook
      have hqueue : (l.role t).phase.queue ≠ none := by
        intro hnone
        rw [Phase.queue_eq_none_iff, ← hrole] at hnone
        simp [(h.sound.outside t hnone).1] at hlink
      obtain ⟨q', hq'⟩ := Option.ne_none_iff_exists'.mp hqueue
      have hkind := Loc.queue_of_hooked hhook' hq'
      have hbar : ¬ QueueRef.IsBarrier q' := by
        rcases hkind with rfl | rfl <;> exact id
      obtain ⟨rfl, hmem⟩ := h.sound.mem_of_linked (hrole ▸ hq') hbar hlink
      use hkind

/-- Every step from a state that satisfies the invariant is one of `Moves`. -/
theorem Inv.moves (h : Inv s) {a : Label T (Loc T N)} (hstep : (machine b).Step s a s') :
  Moves b a.thread s s'
  := by
  apply Process.moves _ _ hstep
  · intro v hv
    apply h.sound.port_of_owes hv
  · intro target c hl q hlink
    apply (h.mem_of_hooked (h.hooking target _ c hl).1 hlink).2

theorem Moves.sound (hm : Moves b u s s')
    (h : Sound QueueRef.IsBarrier (roles (fun t => Loc.role t) s) s.shared.waits) :
  Sound QueueRef.IsBarrier (roles (fun t => Loc.role t) s') s'.shared.waits
  := by
  have hroles : roles (fun t => Loc.role t) s' =
      Function.update (roles (fun t => Loc.role t) s) u (roles (fun t => Loc.role t) s' u) := by
    funext x
    by_cases hx : x = u
    · rw [hx, Function.update_self]
    · rw [Function.update_of_ne hx, roles, roles, hm.other x hx]
  rw [hroles]
  apply hm.act.sound h

omit [DecidableEq N] [Fintype T] [DecidableEq T] in
theorem hooked_other (hother : ∀ x, x ≠ u → s'.loc x = s.loc x) (ht : t ≠ u) :
  hooked s' t = hooked s t
  := by
  rw [hooked, hooked, hother t ht]

omit [DecidableEq N] in
theorem Inv.step_hook (h : Inv s) (hother : ∀ x, x ≠ u → s'.loc x = s.loc x)
    (ha : Alters u s s') (t : T) :
  (s'.shared.obj.cancel t).hook = hooked s' t
  := by
  have hbefore := h.hook t
  by_cases ht : t = u
  · subst ht
    cases ha with
    | keep hfields hhook => rw [hfields, hhook, hbefore]
    | change hl hl' halter =>
        cases halter with
        | keep hfields hhook =>
            rw [hfields, hbefore]
            simp [hooked, hl, hl', hhook]
        | install hloc hidle hloc' hfields =>
            subst hloc hloc'
            simp [hfields, hooked, hl', Loc.hooked]
        | remove hloc hloc' hfields =>
            subst hloc hloc'
            simp [hfields, hooked, hl', Loc.hooked]
        | @record t' hloc hnew hfields hloc' =>
            subst hloc
            have hsame : (s'.shared.obj.cancel t).hook = (s.shared.obj.cancel t).hook := by
              rw [hfields, Function.update_apply]
              grind
            rw [hsame, hbefore]
            rcases hloc' with ⟨c, -, rfl, -⟩ | ⟨rfl, -⟩ | ⟨rfl, -⟩
            all_goals simp [hooked, hl, hl', Loc.hooked]
        | @store z hloc hloc' hfields =>
            subst hloc hloc'
            have hsame : (s'.shared.obj.cancel t).hook = (s.shared.obj.cancel t).hook := by
              cases z <;> simp [hfields, Setting.apply]
            rw [hsame, hbefore]
            simp [hooked, hl, hl', Loc.hooked]
  · rw [hooked_other hother ht, ← hbefore]
    cases ha with
    | keep hfields => rw [hfields]
    | change hl hl' halter =>
        cases halter with
        | keep hfields => rw [hfields]
        | install _ _ _ hfields => simp [hfields, ht]
        | remove _ _ hfields => simp [hfields, ht]
        | record _ _ hfields =>
            rw [hfields, Function.update_apply]
            grind
        | store _ _ hfields => simp [hfields, ht]

omit [DecidableEq N] in
theorem Inv.step_deferred (h : Inv s) (hother : ∀ x, x ≠ u → s'.loc x = s.loc x)
    (ha : Alters u s s') (hhooked : hooked s' t = some c) :
  (s'.shared.obj.cancel t).type = .deferred
  := by
  by_cases ht : t = u
  · subst ht
    cases ha with
    | keep hfields hhook =>
        rw [hfields]
        apply h.deferred t c (hhook ▸ hhooked)
    | change hl hl' halter =>
        cases halter with
        | keep hfields hhook =>
            rw [hfields]
            apply h.deferred t c
            simpa [hooked, hl, hl', hhook] using hhooked
        | install hloc hidle hloc' hfields => simp [hfields]
        | remove hloc hloc' hfields =>
            subst hloc'
            simp [hooked, hl', Loc.hooked] at hhooked
        | record hloc hnew hfields hloc' =>
            rcases hloc' with ⟨c, -, rfl, -⟩ | ⟨rfl, -⟩ | ⟨rfl, -⟩
            all_goals simp [hooked, hl', Loc.hooked] at hhooked
        | store hloc hloc' hfields =>
            subst hloc'
            simp [hooked, hl', Loc.hooked] at hhooked
  · rw [hooked_other hother ht] at hhooked
    have hbefore := h.deferred t c hhooked
    cases ha with
    | keep hfields => rw [hfields, hbefore]
    | change hl hl' halter =>
        cases halter with
        | keep hfields => rw [hfields, hbefore]
        | install _ _ _ hfields => simp [hfields, ht, hbefore]
        | remove _ _ hfields => simp [hfields, ht, hbefore]
        | record _ _ hfields =>
            rw [hfields, Function.update_apply]
            grind
        | store _ _ hfields => simp [hfields, ht, hbefore]

omit [DecidableEq N] [Fintype T] in
/-- A thread that has recorded a request has done so before, or it does so in this step. -/
theorem records_cases (hother : ∀ x, x ≠ u → s'.loc x = s.loc x) (ha : Alters u s s')
    (hx : Records s' t x) :
  Records s t x ∨ (x = u ∧ s.loc u = some (.cancel t .check) ∧
    (s.shared.obj.cancel t).pending = false ∧ (s'.shared.obj.cancel t).pending = true)
  := by
  by_cases hxu : x = u
  · subst hxu
    cases ha with
    | keep _ _ hrecords =>
        left
        apply hrecords t hx
    | change hl hl' halter =>
        obtain ⟨l₁, hl₁, hrec⟩ := hx
        obtain rfl : _ = l₁ := by simpa [hl'] using hl₁
        cases halter with
        | keep _ _ hrecords =>
            left
            exact ⟨_, hl, hrecords t hrec⟩
        | install _ _ hloc' =>
            subst hloc'
            cases hrec
        | remove _ hloc' =>
            subst hloc'
            cases hrec
        | @record t' hloc hnew hfields hloc' =>
            right
            have ht : t' = t := by
              rcases hloc' with ⟨c, -, rfl, -⟩ | ⟨rfl, -⟩ | ⟨rfl, -⟩
              · simpa [Loc.records] using hrec
              · simpa [Loc.records] using hrec
              · cases hrec
            subst ht
            refine ⟨rfl, hloc ▸ hl, hnew, ?_⟩
            simp [hfields]
        | store _ hloc' =>
            subst hloc'
            cases hrec
  · left
    obtain ⟨l, hl, hrec⟩ := hx
    use l, hother x hxu ▸ hl

omit [DecidableEq N] in
theorem Inv.step_pending (h : Inv s) (hother : ∀ x, x ≠ u → s'.loc x = s.loc x)
    (ha : Alters u s s') (hx : Records s' t x) :
  (s'.shared.obj.cancel t).pending = true
  := by
  rcases records_cases hother ha hx with hx | ⟨-, -, -, hpending⟩
  · apply ha.pending_mono (h.pending t x hx)
  · apply hpending

omit [DecidableEq N] in
theorem Inv.step_recorder (h : Inv s) (hother : ∀ x, x ≠ u → s'.loc x = s.loc x)
    (ha : Alters u s s') (hx : Records s' t x) (hy : Records s' t y) :
  x = y
  := by
  rcases records_cases hother ha hx with hx | ⟨rfl, -, hnew, -⟩
  · rcases records_cases hother ha hy with hy | ⟨rfl, -, hnew, -⟩
    · apply h.recorder t x y hx hy
    · simp [h.pending t x hx] at hnew
  · rcases records_cases hother ha hy with hy | ⟨rfl, -⟩
    · simp [h.pending t y hy] at hnew
    · rfl

omit [DecidableEq N] [Fintype T] in
/-- The thread that is about to run the hook owns the lock. -/
theorem owns_of_hook (hx : s.loc x = some (.cancel t (.hook c))) :
  Owns s t x
  := by
  apply owns_of_inside
  simp [grip, hx, Loc.grip, CancelLoc.grip]

omit [DecidableEq N] [Fintype T] in
/-- A hook is about to be run since before the step, or its thread records the request in
this step. -/
theorem hook_cases (hother : ∀ x, x ≠ u → s'.loc x = s.loc x) (ha : Alters u s s')
    (hx : s'.loc x = some (.cancel t (.hook c))) :
  (x ≠ u ∧ s.loc x = some (.cancel t (.hook c))) ∨
    (x = u ∧ s.loc u = some (.cancel t .check) ∧ (s.shared.obj.cancel t).pending = false ∧
      (s.shared.obj.cancel t).hook = some c ∧ (s.shared.obj.cancel t).state = .enable ∧
      (s'.shared.obj.cancel t).state = .enable)
  := by
  by_cases hxu : x = u
  · subst hxu
    right
    use rfl
    cases ha with
    | keep _ _ _ hcalm => apply absurd hx (hcalm t c)
    | change hl hl' halter =>
        obtain rfl : _ = Loc.cancel t (.hook c) := by simpa [hl'] using hx
        cases halter with
        | keep _ _ _ hcalm => apply absurd rfl (hcalm t c)
        | install _ _ hloc' => cases hloc'
        | remove _ hloc' => cases hloc'
        | @record t' hloc hnew hfields hloc' =>
            rcases hloc' with ⟨c', hhook, hl₁, hstate, -⟩ | ⟨hl₁, -⟩ | ⟨hl₁, -⟩
            · cases hl₁
              refine ⟨hloc ▸ hl, hnew, hhook, hstate, ?_⟩
              simp [hfields, hstate]
            · cases hl₁
            · cases hl₁
        | store _ hloc' => cases hloc'
  · left
    use hxu, hother x hxu ▸ hx

omit [DecidableEq N] in
theorem Inv.step_hooking (h : Inv s) (hother : ∀ x, x ≠ u → s'.loc x = s.loc x)
    (ha : Alters u s s') (hx : s'.loc x = some (.cancel t (.hook c))) :
  hooked s' t = some c ∧ (s'.shared.obj.cancel t).state = .enable
  := by
  rcases hook_cases hother ha hx with ⟨hxu, hx⟩ | ⟨rfl, hl, -, hhook, -, hstate⟩
  · obtain ⟨hhooked, hstate⟩ := h.hooking t x c hx
    have hset : ∀ z, s.loc u = some (.set z .store) → t ≠ u := by
      rintro z hz rfl
      simp [hooked, hz, Loc.hooked] at hhooked
    rw [ha.state_eq hset]
    refine ⟨?_, hstate⟩
    by_cases ht : t = u
    · subst ht
      cases ha with
      | keep _ hhook => rw [hhook, hhooked]
      | change hl hl' halter =>
          cases halter with
          | keep _ hhook => simpa [hooked, hl, hl', hhook] using hhooked
          | install hloc =>
              subst hloc
              simp [hooked, hl, Loc.hooked] at hhooked
          | remove hloc =>
              -- the target removes its hook with its lock held, which the canceller holds
              subst hloc
              have howns : Owns s t t := by
                apply owns_of_inside
                simp [grip, hl, Loc.grip, Cond.WaitLoc.grip]
              have hexcl := h.exclusive t (.inr ⟨x, c, hx⟩)
              apply absurd (hexcl.unique x t (owns_of_hook hx) howns) hxu
          | record hloc =>
              subst hloc
              simp [hooked, hl, Loc.hooked] at hhooked
          | store hloc =>
              subst hloc
              simp [hooked, hl, Loc.hooked] at hhooked
    · rw [hooked_other hother ht, hhooked]
  · have hhooked := (h.hook t).symm.trans hhook
    have ht : t ≠ x := by
      rintro rfl
      simp [hooked, hl, Loc.hooked] at hhooked
    rw [hooked_other hother ht]
    use hhooked, hstate

omit [DecidableEq N] [Fintype T] in
/-- The thread that is about to run the hook of `t` has recorded the request. -/
theorem records_of_hook (hx : s.loc x = some (.cancel t (.hook c))) :
  Records s t x
  := by
  refine ⟨_, hx, ?_⟩
  simp [Loc.records]

omit [DecidableEq N] in
/-- As long as no hook of `t` has been run, no hook finds its target linked on the queue of
the lock of `t`. -/
theorem Inv.clean (h : Inv s) (hother : ∀ x, x ≠ u → s'.loc x = s.loc x)
    (ha : Alters u s s') (hunspoilt : Unspoilt s' t) {target : T}
    (hl : s.loc u = some (.cancel target (.hook c))) :
  s.shared.waits.prevp target ≠ some (.mutex (.cancelLock t))
  := by
  intro hlink
  obtain ⟨hkind, -⟩ := h.mem_of_hooked (h.hooking target u c hl).1 hlink
  obtain rfl : t = target := by simpa using hkind
  have hrec := records_of_hook hl
  rcases hunspoilt with hnew | ⟨x, c', hx⟩
  · simp [ha.pending_mono (h.pending t u hrec)] at hnew
  · rcases hook_cases hother ha hx with ⟨hxu, hx⟩ | ⟨-, hcheck, -⟩
    · apply hxu (h.recorder t x u (records_of_hook hx) hrec)
    · simp [hl] at hcheck

omit [DecidableEq N] [Fintype T] in
theorem unspoilt_before (hother : ∀ x, x ≠ u → s'.loc x = s.loc x) (ha : Alters u s s')
    (hunspoilt : Unspoilt s' t) :
  Unspoilt s t
  := by
  rcases hunspoilt with hnew | ⟨x, c, hx⟩
  · left
    by_contra hpending
    rw [Bool.not_eq_false] at hpending
    simp [ha.pending_mono hpending] at hnew
  · rcases hook_cases hother ha hx with ⟨-, hx⟩ | ⟨-, -, hnew, -⟩
    · right
      use x, c
    · left
      apply hnew

theorem Inv.step_exclusive (h : Inv s) (hm : Moves b u s s') (ha : Alters u s s')
    (hunspoilt : Unspoilt s' t) :
  Exclusive s' t
  := by
  have hexcl := h.exclusive t (unspoilt_before hm.other ha hunspoilt)
  apply hexcl.step (h.plain t) hm h.sound
  intro target c hl
  apply h.clean hm.other ha hunspoilt hl

omit [DecidableEq N] in
/-- A thread that waits on a condition variable has not just changed its cancellation
state. -/
theorem Inv.state_eq_of_mem (h : Inv s) (ha : Alters u s s')
    (hmem : t ∈ s.shared.waits.queue (.cond c)) :
  (s'.shared.obj.cancel t).state = (s.shared.obj.cancel t).state
  := by
  apply ha.state_eq
  rintro z hz rfl
  have hhooked := hooked_of_mem h.sound hmem
  simp [hooked, hz, Loc.hooked] at hhooked

omit [DecidableEq N] in
/-- A request recorded for a thread that waits on a condition variable will make its hook
run, unless the thread has disabled cancellation. -/
theorem Inv.hooking_of_record (h : Inv s) (ha : Alters u s s')
    (hmem : t ∈ s.shared.waits.queue (.cond c))
    (hnew : (s.shared.obj.cancel t).pending = false)
    (hpending : (s'.shared.obj.cancel t).pending = true) :
  Hooking s' t ∨ (s.shared.obj.cancel t).state = .disable
  := by
  have hhooked := hooked_of_mem h.sound hmem
  have hsame : (s'.shared.obj.cancel t).pending = (s.shared.obj.cancel t).pending → False := by
    simp [hnew, hpending]
  cases ha with
  | keep hfields =>
      exfalso
      apply hsame
      rw [hfields]
  | change hl hl' halter =>
      cases halter with
      | keep hfields =>
          exfalso
          apply hsame
          rw [hfields]
      | install _ _ _ hfields =>
          exfalso
          apply hsame
          rw [hfields, Function.update_apply]
          grind
      | remove _ _ hfields =>
          exfalso
          apply hsame
          rw [hfields, Function.update_apply]
          grind
      | @record t' hloc _ hfields hloc' =>
          have ht : t = t' := by
            by_contra hne
            apply hsame
            simp [hfields, hne]
          subst ht
          rcases hloc' with ⟨c', -, rfl, -⟩ | ⟨-, -, hasync⟩ | ⟨-, hdisable | ⟨hnone, -⟩⟩
          · left
            use u, c'
          · simp [h.deferred t c hhooked] at hasync
          · right
            apply hdisable
          · simp [h.hook t, hhooked] at hnone
      | @store z _ _ hfields =>
          exfalso
          apply hsame
          rw [hfields, Function.update_apply]
          cases z <;> grind [Setting.apply]

omit [DecidableEq N] [Fintype T] in
/-- A thread that enters the wait on a condition variable with a request pending has disabled
cancellation. -/
theorem Alters.disabled_of_enter (ha : Alters t s s') {c' m : N} {timed : Bool}
    (hl : s.loc t = some (.condWait c' m (.enqueue timed))) (hhooked : hooked s' t = some c)
    (hpending : (s'.shared.obj.cancel t).pending = true) :
  (s'.shared.obj.cancel t).state = .disable
  := by
  have hnone : hooked s t = none := by simp [hooked, hl, Loc.hooked]
  cases ha with
  | keep _ hhook => simp [hhook, hnone] at hhooked
  | @change l l' hl₁ hl' halter =>
      obtain rfl : Loc.condWait c' m (.enqueue timed) = l := by simpa [hl] using hl₁
      cases halter with
      | keep _ hhook =>
          have hsame : hooked s' t = hooked s t := by simp [hooked, hl, hl', hhook]
          simp [hsame, hnone] at hhooked
      | install _ hidle _ hfields =>
          rw [hfields, Function.update_self] at hpending ⊢
          cases hstate : (s.shared.obj.cancel t).state with
          | enable => simp_all [Cancel.cancelled]
          | disable => rfl
      | remove hloc => cases hloc
      | record hloc => cases hloc
      | store hloc => cases hloc

theorem Inv.step_quiet (h : Inv s) {a : Label T (Loc T N)} (hstep : (machine b).Step s a s')
    (hmem : t ∈ s'.shared.waits.queue (.cond c))
    (hpending : (s'.shared.obj.cancel t).pending = true) :
  Hooking s' t ∨ (s'.shared.obj.cancel t).state = .disable
  := by
  have hm := h.moves hstep
  have ha := alters hstep
  rcases hm.act.mem_queue hmem with hbefore | ⟨rfl, hout, hin⟩
  · rw [h.state_eq_of_mem ha hbefore]
    cases hnew : (s.shared.obj.cancel t).pending with
    | false => apply h.hooking_of_record ha hbefore hnew hpending
    | true =>
        rcases h.quiet t c hbefore hnew with ⟨x, c', hx⟩ | hdisable
        · by_cases hxu : x = a.thread
          · have hgone := prevp_of_hook hstep (hxu ▸ hx)
            rw [(hm.sound h.sound).linked _ t hmem] at hgone
            cases hgone
          · left
            use x, c'
            rw [hm.other x hxu, hx]
        · right
          apply hdisable
  · right
    obtain ⟨c', m, timed, hl⟩ := enters hstep hout hin
    apply ha.disabled_of_enter hl (hooked_of_mem (hm.sound h.sound) hmem) hpending

/-- Every step keeps the invariant. -/
theorem Inv.step (h : Inv s) {a : Label T (Loc T N)} (hstep : (machine b).Step s a s') :
  Inv s'
  := by
  have hm := h.moves hstep
  have ha := alters hstep
  constructor
  · apply hm.sound h.sound
  · intro t
    apply (h.plain t).step hm
  · apply h.step_hook hm.other ha
  · intro t c
    apply h.step_deferred hm.other ha
  · intro t x
    apply h.step_pending hm.other ha
  · intro t x y
    apply h.step_recorder hm.other ha
  · intro t x c
    apply h.step_hooking hm.other ha
  · intro t
    apply h.step_exclusive hm ha
  · intro t c
    apply h.step_quiet hstep

end Fields

section Reach

variable [Fintype T] {b : Build} {G : Sys T N → Label T (Loc T N) → Prop}
    {attr : N → Option MutexType} {value count : N → Nat} {s : Sys T N}

omit [DecidableEq N] in
theorem Inv.init :
  Inv (start (T := T) attr value count)
  := by
  have hloc : ∀ t, (start (T := T) attr value count).loc t = none := fun _ => rfl
  constructor
  · apply Sound.init
  · intro t
    refine ⟨rfl, rfl, ?_⟩
    simp [grip, hloc]
  · intro t
    simp [hooked, start, Objects.init, Cancel.init]
  · simp [hooked, hloc]
  · simp [Records, hloc]
  · simp [Records, hloc]
  · simp [hloc]
  · intro t _
    constructor
    · intro _
      simp [start, Waits.empty, Owns, grip, Grip.owns]
    · simp [Owns, grip, hloc, Grip.owns]
  · simp [start, Waits.empty]

/-- The invariant holds in every reachable state. -/
theorem Inv.of_reach (hs : (machine b).Reach G (start attr value count) s) :
  Inv s
  := by
  apply hs.invariant Inv.init
  intro s a s' _ h _ hstep
  apply h.step hstep

end Reach

end Process

end LibPthread
