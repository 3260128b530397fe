import LibPthread.Process.CallExit

/-!
# Cancelling a thread that waits on a condition variable

A request to cancel a thread is not missed by a wait on a condition variable: the thread is
not left on the queue of the condition variable, and a wait that finds the request pending
in one of its two tests never returns to its caller. A thread that is redirected while it is on
the queue goes on in `call_exit` and stays on the queue.

The hook finds its target on the queue of the condition variable whenever it finds it
linked, and a `cancel_lock` has at most one owner, in all runs in which a thread on its way
out of a wait does not queue up for its own `cancel_lock` behind a canceller that has still
to run its hook.
-/

open Concurrency

namespace LibPthread

namespace Process

variable {T N : Type} [DecidableEq T] [DecidableEq N]

/-! ### No request is missed -/

/-- The control points at which a wait tests for a pending request. -/
def WaitLoc.tests : Cond.WaitLoc T → Bool
  | .enqueue _ => true
  | .restore _ _ => true
  | _ => false

/-- The control points of a wait that has found a request pending in one of its tests. -/
def Loc.Doomed : Loc T N → Prop
  | .condWait _ _ (.unlockCancel _ none _) => True
  | .condWait _ _ (.releaseCancel _ cancelled _) => cancelled = true
  | .condWait _ _ (.relockMutex _ cancelled _) => cancelled = true
  | _ => False

section Missed

variable {b : Build} {t : T} {l l' : Loc T N} {timeout : Bool} {s s' : Shared T N} {r : Ret}

theorem doomed_of_goto (hl : l.Doomed) (h : stepInside b t l timeout s = .goto s' l') :
  l'.Doomed
  := by
  cases l with
  | condWait c m k =>
      rcases Outcome.lift_eq_goto_iff.mp h with ⟨x, k', hstep, rfl, rfl⟩ | ⟨_, _, _, h'⟩
      · cases k with
        | unlockCancel timed saved k =>
            cases saved with
            | none =>
                rcases Shared.unlock_eq_goto hstep with ⟨y, k', -, rfl, rfl⟩ | ⟨y, r, -, h'⟩
                · trivial
                · cases h'
            | some oldtype => cases hl
        | releaseCancel err cancelled k =>
            rcases Shared.unlock_eq_goto hstep with ⟨y, k', -, rfl, rfl⟩ | ⟨y, r, -, h'⟩
            · apply hl
            · obtain ⟨rfl, rfl⟩ := h'
              apply hl
        | relockMutex err cancelled k =>
            rcases Shared.lock_eq_goto hstep with ⟨y, k', -, rfl, rfl⟩ | ⟨y, r, -, h'⟩
            · apply hl
            · cases h'
        | _ => cases hl
      · cases h'
  | _ => cases hl

theorem canceled_of_doomed (hl : l.Doomed) (h : stepInside b t l timeout s = .ret s' r) :
  r = .canceled
  := by
  cases l with
  | condWait c m k =>
      obtain ⟨x, r', hstep, h'⟩ := Outcome.lift_eq_ret_iff.mp h
      obtain ⟨rfl, rfl⟩ := h'
      cases k with
      | unlockCancel timed saved k =>
          cases saved with
          | none =>
              obtain ⟨y, r'', -, h'⟩ := Shared.unlock_eq_ret hstep
              obtain ⟨rfl, rfl⟩ := h'
              rfl
          | some oldtype => cases hl
      | releaseCancel err cancelled k =>
          obtain ⟨y, r'', -, h'⟩ := Shared.unlock_eq_ret hstep
          cases h'
      | relockMutex err cancelled k =>
          obtain rfl : cancelled = true := hl
          obtain ⟨y, r'', -, h'⟩ := Shared.lock_eq_ret hstep
          obtain ⟨rfl, rfl⟩ := h'
          rfl
      | _ => cases hl
  | _ => cases hl

/-- A test that finds a request pending dooms the wait. -/
theorem doomed_of_test {c m : N} {k : Cond.WaitLoc T} (htest : WaitLoc.tests k = true)
    (hcancelled : (s.obj.cancel t).cancelled = true)
    (h : stepInside b t (.condWait c m k) timeout s = .goto s' l') :
  l'.Doomed
  := by
  rcases Outcome.lift_eq_goto_iff.mp h with ⟨x, k', hstep, rfl, rfl⟩ | ⟨_, _, _, h'⟩
  · cases k with
    | enqueue timed =>
        rcases Cond.waitEnqueue_eq_goto hstep with ⟨-, rfl, rfl⟩ | ⟨hidle, -⟩
        · trivial
        · simp [hcancelled] at hidle
    | restore oldtype err =>
        obtain ⟨rfl, rfl⟩ := hstep
        apply hcancelled
    | _ => cases htest
  · cases h'

theorem test_ne_ret {c m : N} {k : Cond.WaitLoc T} (htest : WaitLoc.tests k = true) :
  stepInside b t (.condWait c m k) timeout s ≠ .ret s' r
  := by
  intro h
  obtain ⟨x, r', hstep, -⟩ := Outcome.lift_eq_ret_iff.mp h
  cases k with
  | enqueue timed => apply absurd hstep Cond.waitEnqueue_ne_ret
  | restore oldtype err => cases hstep
  | _ => cases htest

end Missed

variable [Fintype T] {b : Build} {attr : N → Option MutexType} {value count : N → Nat}
    {s : Sys T N}

/-- `t` locks a mutex and waits on a condition variable. -/
def waiting {T : Type} (t : T) : List (Label T (Loc T Unit)) :=
  [.call t (.mutex () (.lock (.start none))), .act t false,
    .call t (.condWait () () (.start none)), .act t false, .act t false, .act t false,
    .act t false, .act t false]

/-- `u` cancels `t`, which waits. -/
def cancelling {T : Type} (t u : T) : List (Label T (Loc T Unit)) :=
  waiting t ++ [.call u (.cancel t (.lock (.start none))), .act u false, .act u false, .act u false,
    .act u false, .act u false]

/-- The process before any call, with mutexes without attributes. -/
def plainStart : Sys (Fin 3) Unit :=
  start (fun _ => none) (fun _ => 0) (fun _ => 1)

/-- `u` cancels `t`, whose cancellation is asynchronous, and has still to redirect it. -/
def recording {T : Type} (t u : T) : List (Label T (Loc T Unit)) :=
  [.call t (.set (.type .asynchronous) (.lock (.start none))), .act t false, .act t false,
    .act t false, .call u (.cancel t (.lock (.start none))), .act u false, .act u false,
    .act u false]

/-- `t` stores its cancellation state. -/
def storing {T : Type} (t : T) (new : CancelState) : List (Label T (Loc T Unit)) :=
  [.call t (.set (.state new) (.lock (.start none))), .act t false, .act t false, .act t false]

/-- The control point of a canceller of a thread that is about to run its hook. -/
def Loc.hooks (t : T) : Option (Loc T N) → Bool
  | some (.cancel target (.hook _)) => target = t
  | _ => false

/-- The control point at which a wait locks its `cancel_lock` again. -/
def Loc.relocks : Option (Loc T N) → Bool
  | some (.condWait _ _ (.relockCancel _ _ (.start _))) => true
  | _ => false

/-- A thread on its way out of a wait does not find its `cancel_lock` held while its
cancellation is enabled and no hook of it has been run: it does not queue up behind a
canceller that is going to run its hook. -/
def Apart (s : Sys T N) : Label T (Loc T N) → Prop
  | .call _ _ => True
  | .act t _ => Loc.relocks (s.loc t) = true →
    ¬ ((s.shared.obj.mutex (.cancelLock t)).held = true ∧
      (s.shared.obj.cancel t).state = .enable ∧ Unspoilt s t)

omit [DecidableEq N] [Fintype T] in
theorem Loc.hooks_iff {t : T} {l : Option (Loc T N)} :
  Loc.hooks t l = true ↔ ∃ c, l = some (.cancel t (.hook c))
  := by
  constructor
  · intro h
    unfold Loc.hooks at h
    split at h
    · rename_i target c
      obtain rfl : target = t := by simpa using h
      use c
    · cases h
  · rintro ⟨c, rfl⟩
    simp [Loc.hooks]

instance (s : Sys T N) (t : T) : Decidable (Hooking s t) :=
  decidable_of_iff (∃ x, Loc.hooks t (s.loc x) = true) (by simp [Hooking, Loc.hooks_iff])

instance (s : Sys T N) (t : T) : Decidable (Unspoilt s t) :=
  inferInstanceAs (Decidable (_ ∨ _))

instance (s : Sys T N) (a : Label T (Loc T N)) : Decidable (Apart s a) :=
  match a with
  | .call _ _ => isTrue trivial
  | .act _ _ => inferInstanceAs (Decidable (_ → ¬ _))

/-- A thread that waits for its own `cancel_lock` on its way out of a wait is not going to be
dequeued by its hook. -/
def Relocks (s : Sys T N) (t : T) : Prop :=
  ∀ c m oldtype err st, s.loc t = some (.condWait c m (.relockCancel oldtype err (.wait st))) →
    s.shared.waits.prevp t ≠ none → (s.shared.obj.cancel t).state = .disable ∨ ¬ Unspoilt s t

section Hook

variable {u t x : T} {c : N} {s' : Sys T N} {a : Label T (Loc T N)}

omit [DecidableEq N] in
/-- A hook that finds its target linked finds it on the queue of the condition variable. -/
theorem Inv.mem_of_relocks (h : Inv s) (hrelocks : Relocks s t)
    (hx : s.loc x = some (.cancel t (.hook c))) (hlink : s.shared.waits.prevp t ≠ none) :
  t ∈ s.shared.waits.queue (.cond c)
  := by
  obtain ⟨hhooked, hstate⟩ := h.hooking t x c hx
  obtain ⟨q, hq⟩ := Option.ne_none_iff_exists'.mp hlink
  obtain ⟨rfl | rfl, hmem⟩ := h.mem_of_hooked hhooked hq
  · apply hmem
  · exfalso
    have hqueue := (h.sound.queued hmem).1
    cases hl : s.loc t with
    | none => simp [hooked, hl] at hhooked
    | some l =>
        have hrole : roles (fun t => Loc.role t) s t = l.role t := by simp [roles, hl]
        have hhook : l.hooked = some c := by simpa [hooked, hl] using hhooked
        rw [hrole] at hqueue
        rcases Loc.kind_of_queue hqueue with ⟨_, _, -, hq⟩ | ⟨_, _, _, -, hq⟩ | ⟨_, _, -, hq⟩ |
          ⟨_, _, -, hq⟩ | ⟨c', m, k, rfl⟩ | ⟨_, _, rfl, -⟩ | ⟨_, _, rfl, -⟩
        · cases hq
        · cases hq
        · cases hq
        · cases hq
        · rcases WaitLoc.kind_of_queue hqueue with ⟨hq, -⟩ |
            ⟨-, ⟨_, _, rfl⟩ | ⟨oldtype, err, st, rfl⟩⟩ | ⟨hq, -⟩
          · cases hq
          · cases hhook
          · rcases hrelocks c' m oldtype err st hl hlink with hdisable | hspoilt
            · simp [hstate] at hdisable
            · apply hspoilt
              right
              use x, c
          · cases hq
        · cases hhook
        · cases hhook

omit [Fintype T] in
theorem timedwaitStep_relock {m : MutexRef T N} {oldtype : CancelType} {err : Bool} {st : Stage}
    {k : Cond.WaitLoc T} {timeout : Bool} {x x' : Shared T N}
    (h : Cond.timedwaitStep b c m t k timeout x
      = .goto x' (.relockCancel oldtype err (.wait st))) :
  ∃ k₁ y, k = .relockCancel oldtype err k₁ ∧ x'.waits = y.waits ∧
    Mutex.lockStep b (.mutex (.cancelLock t)) t k₁ timeout (Shared.getMutex (.cancelLock t) x)
      = .goto y (.wait st)
  := by
  cases k with
  | start abstime =>
      simp only [Cond.timedwaitStep] at h
      split at h
      · cases h
      · cases h
  | lockCancel timed k =>
      rcases Shared.lock_eq_goto h with ⟨y, k', -, -, hk⟩ | ⟨y, r, -, h⟩
      · cases hk
      · cases h
  | enqueue timed =>
      rcases Cond.waitEnqueue_eq_goto h with ⟨-, -, hk⟩ | ⟨-, -, -, hk⟩
      · cases hk
      · cases hk
  | unlockCancel timed saved k =>
      rcases Shared.unlock_eq_goto h with ⟨y, k', -, -, hk⟩ | ⟨y, r, -, h⟩
      · cases hk
      · cases saved with
        | none => cases h
        | some oldtype => cases h
  | unlockMutex timed oldtype k =>
      rcases Shared.unlock_eq_goto h with ⟨y, k', -, -, hk⟩ | ⟨y, r, -, h⟩
      · cases hk
      · cases h
  | wait oldtype stage =>
      rcases Cond.waitBlocked_eq_goto h with ⟨w, stage', -, -, hk⟩ | ⟨w, err, -, -, hk⟩
      · cases hk
      · cases hk
  | relockCancel oldtype err k =>
      rcases Shared.lock_eq_goto h with ⟨y, k', hstep, rfl, hk⟩ | ⟨y, r, -, h⟩
      · cases hk
        use k, y, rfl, rfl
      · cases h
  | restore oldtype err => cases h
  | releaseCancel err cancelled k =>
      rcases Shared.unlock_eq_goto h with ⟨y, k', -, -, hk⟩ | ⟨y, r, -, h⟩
      · cases hk
      · cases h
  | relockMutex err cancelled k =>
      rcases Shared.lock_eq_goto h with ⟨y, k', -, -, hk⟩ | ⟨y, r, -, h⟩
      · cases hk
      · cases h

omit [Fintype T] in
/-- A thread gets into the wait for its `cancel_lock` on its way out from the first section
of the lock function, which found the lock held, or it was in that wait before. -/
theorem relock_cases {m : N} {oldtype : CancelType} {err : Bool} {st : Stage}
    (hstep : (machine b).Step s a s') (ha : a.thread = t)
    (hl' : s'.loc t = some (.condWait c m (.relockCancel oldtype err (.wait st)))) :
  (∃ abstime, s.loc t = some (.condWait c m (.relockCancel oldtype err (.start abstime))) ∧
      (s.shared.obj.mutex (.cancelLock t)).held = true)
    ∨ (∃ st', s.loc t = some (.condWait c m (.relockCancel oldtype err (.wait st'))) ∧
      s'.shared.waits.prevp t = s.shared.waits.prevp t)
  := by
  subst ha
  cases hstep with
  | @call u l hidle hentry =>
      obtain rfl : l = .condWait c m (.relockCancel oldtype err (.wait st)) := by simpa using hl'
      cases hentry
  | @ret u c' l y r hl h => simp at hl'
  | @goto u c' l l' y hl h =>
      obtain rfl : l' = .condWait c m (.relockCancel oldtype err (.wait st)) := by
        simpa using hl'
      rw [Label.thread]
      have hstep := step_eq_goto h
      cases l with
      | condWait c₁ m₁ k =>
          rcases Outcome.lift_eq_goto_iff.mp hstep with ⟨z, k₁, hstep, rfl, hk⟩ | ⟨_, _, _, h'⟩
          · cases hk
            obtain ⟨k₁, z', rfl, hwaits, hlock⟩ := timedwaitStep_relock hstep
            rcases Mutex.lockStep_eq_goto hlock with ⟨abstime, rfl, hstart⟩ |
              ⟨st₀, st', w, rfl, -, hz, hwait⟩ | ⟨_, _, _, _, hk, _⟩
            · left
              use abstime, hl, (Mutex.lockStart_eq_goto hstart).2.1
            · right
              use st₀, hl
              simp only [State.goto_shared, id_eq, hwaits, hz]
              rcases waitStep_eq_goto hwait with ⟨_, -, -, rfl, -⟩ | ⟨-, -, rfl, -⟩ |
                ⟨-, -, -, rfl, -⟩
              all_goals rfl
            · cases hk
          · cases h'
      | _ =>
          rcases Outcome.lift_eq_goto_iff.mp hstep with ⟨z, k₁, -, -, hk⟩ | ⟨_, _, _, h'⟩
          · cases hk
          · cases h'

omit [Fintype T] in
/-- What the guard says of a thread that finds its `cancel_lock` held on its way out. -/
theorem Apart.of_relock {m : N} {oldtype : CancelType} {err : Bool} {abstime : Option Timespec}
    (hG : Apart s a) (hstep : (machine b).Step s a s') (ha : a.thread = t)
    (hl : s.loc t = some (.condWait c m (.relockCancel oldtype err (.start abstime))))
    (hheld : (s.shared.obj.mutex (.cancelLock t)).held = true)
    (hstate : (s.shared.obj.cancel t).state = .enable) :
  ¬ Unspoilt s t
  := by
  subst ha
  cases a with
  | call u l =>
      cases hstep with
      | call hidle _ =>
          rw [Label.thread, hidle] at hl
          cases hl
  | act u timeout =>
      intro hunspoilt
      have hrelocks : Loc.relocks (s.loc u) = true := by
        rw [Label.thread] at hl
        rw [hl]
        rfl
      exact hG hrelocks ⟨hheld, hstate, hunspoilt⟩

/-- In a run that meets the guard, no thread waits for its own `cancel_lock` behind a
canceller that is going to run its hook. -/
theorem Relocks.step (h : Inv s) (hrelocks : Relocks s t) (hG : Apart s a)
    (hstep : (machine b).Step s a s') :
  Relocks s' t
  := by
  have hm := h.moves hstep
  have ha := alters hstep
  intro c m oldtype err st hl' hlink'
  have hspoilt : ¬ Unspoilt s t → ¬ Unspoilt s' t := fun hn hu =>
    hn (unspoilt_before hm.other ha hu)
  by_cases ht : t = a.thread
  · have hset : ∀ z, s.loc a.thread = some (.set z .store) → t ≠ a.thread := by
      intro z hz
      rcases relock_cases hstep ht.symm hl' with ⟨_, hl, -⟩ | ⟨_, hl, -⟩
      · rw [ht, hz] at hl
        cases hl
      · rw [ht, hz] at hl
        cases hl
    rw [ha.state_eq hset]
    rcases relock_cases hstep ht.symm hl' with ⟨abstime, hl, hheld⟩ | ⟨st', hl, hsame⟩
    · have hguard := hG.of_relock hstep ht.symm hl hheld
      cases hstate : (s.shared.obj.cancel t).state with
      | enable =>
          right
          apply hspoilt (hguard hstate)
      | disable => simp
    · rw [hsame] at hlink'
      rcases hrelocks c m oldtype err st' hl hlink' with hdisable | hn
      · left
        apply hdisable
      · right
        apply hspoilt hn
  · rw [ha.state_eq (fun _ _ => ht)]
    rw [hm.other t ht] at hl'
    have hlink : s.shared.waits.prevp t ≠ none := by
      intro hnone
      rcases hm.act.prevp_other ht with hsame | hgone
      · apply hlink' (hsame.trans hnone)
      · apply hlink' hgone
    rcases hrelocks c m oldtype err st hl' hlink with hdisable | hn
    · left
      apply hdisable
    · right
      apply hspoilt hn

end Hook

/-- The hook only touches the queue of its condition variable: whenever it finds its target
linked, the target is on that queue; and at most one thread at a time owns a
`cancel_lock`. -/
theorem hook_touches_condition
    (hs : (machine b).Reach Apart (start attr value count) s) :
  (∀ x t c, s.loc x = some (.cancel t (.hook c)) → s.shared.waits.prevp t ≠ none →
      t ∈ s.shared.waits.queue (.cond c)) ∧
    ∀ t x y, Owns s t x → Owns s t y → x = y
  := by
  obtain ⟨hinv, hrelocks, hexcl⟩ : Inv s ∧ (∀ t, Relocks s t) ∧ ∀ t, Exclusive s t := by
    apply hs.invariant (I := fun s => Inv s ∧ (∀ t, Relocks s t) ∧ ∀ t, Exclusive s t)
    · refine ⟨Inv.init, ?_, ?_⟩
      · intro t c m oldtype err st hl
        simp [start] at hl
      · intro t
        apply Inv.init.exclusive t
        left
        rfl
    · rintro s a s' - ⟨hinv, hrelocks, hexcl⟩ hG hstep
      refine ⟨hinv.step hstep, ?_, ?_⟩
      · intro t
        apply (hrelocks t).step hinv hG hstep
      · intro t
        apply (hexcl t).step (hinv.plain t) (hinv.moves hstep) hinv.sound
        intro target c hl hlink
        have hmem := hinv.mem_of_relocks (hrelocks target) hl (by simp [hlink])
        rw [hinv.sound.linked _ target hmem] at hlink
        cases hlink
  constructor
  · intro x t c hx hlink
    apply hinv.mem_of_relocks (hrelocks t) hx hlink
  · intro t
    apply (hexcl t).unique

/-- Thread 1 is about to run the hook of thread 0, which waits. -/
theorem hook_touches_condition_waiting :
  ∃ s, (machine .debug).Reach Apart plainStart s ∧ s.loc 1 = some (.cancel 0 (.hook ())) ∧
    0 ∈ s.shared.waits.queue (.cond ()) ∧ Owns s 0 1 ∧ ∀ x, Owns s 0 x → x = 1
  := by
  obtain ⟨s, hs, hp⟩ := Machine.exists_reach_of_run (M := machine .debug) (G := Apart)
    (s := plainStart)
    (waiting 0 ++ [.call 1 (.cancel 0 (.lock (.start none))), .act 1 false, .act 1 false])
    (fun s => s.loc 1 = some (.cancel 0 (.hook ())) ∧ s.shared.waits.prevp 0 ≠ none)
    (by decide +kernel)
  simp only [decide_eq_true_eq] at hp
  obtain ⟨hloc, hlink⟩ := hp
  obtain ⟨hmem, hunique⟩ := hook_touches_condition hs
  use s, hs, hloc, hmem 1 0 () hloc hlink, owns_of_hook hloc
  intro x hx
  apply hunique 0 x 1 hx (owns_of_hook hloc)

/-- `t`, signalled by `u`, queues up for its `cancel_lock` while `v` holds it to cancel
`t`. -/
def crossing {T : Type} (t u v : T) : List (Label T (Loc T Unit)) :=
  waiting t ++ [.call u (.condSignal () .start), .act u false, .act u false,
    .call v (.cancel t (.lock (.start none))), .act v false, .act t false, .act t false,
    .act t false, .act v false]

/-- A hook that finds its target linked on the queue of the `cancel_lock`, and two threads
that then own the `cancel_lock`. -/
theorem hook_dequeues_from_cancel_lock :
  (∃ s, (machine .debug).Reach (fun _ _ => True) plainStart s ∧
      s.loc 2 = some (.cancel 0 (.hook ())) ∧ s.shared.waits.prevp 0 ≠ none ∧
      0 ∉ s.shared.waits.queue (.cond ())) ∧
    ∃ s, (machine .debug).Reach (fun _ _ => True) plainStart s ∧
      grip s 0 0 = .inside ∧ grip s 0 2 = .inside
  := by
  constructor
  · obtain ⟨s, hs, hp⟩ := Machine.exists_reach_of_run (M := machine .debug)
      (G := fun _ _ => True) (s := plainStart) (crossing 0 1 2)
      (fun s => s.loc 2 = some (.cancel 0 (.hook ())) ∧ s.shared.waits.prevp 0 ≠ none ∧
        0 ∉ s.shared.waits.queue (.cond ()))
      (by decide +kernel)
    simp only [decide_eq_true_eq] at hp
    use s, hs
  · obtain ⟨s, hs, hp⟩ := Machine.exists_reach_of_run (M := machine .debug)
      (G := fun _ _ => True) (s := plainStart)
      (crossing 0 1 2 ++ [.act 2 false, .act 2 false, .act 0 false, .act 0 false, .act 0 false])
      (fun s => grip s 0 0 = .inside ∧ grip s 0 2 = .inside)
      (by decide +kernel)
    simp only [decide_eq_true_eq] at hp
    use s, hs

end Process

end LibPthread
