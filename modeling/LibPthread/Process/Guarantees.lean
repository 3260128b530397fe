import LibPthread.Barrier.Rounds
import LibPthread.Process.Views
import LibPthread.Rwlock.Sharing
import LibPthread.Semaphore.Tokens

/-!
# What the objects of a process are for

A barrier keeps its rounds, a semaphore accounts for its tokens, and the readers and writers of an
rwlock exclude each other, whatever other objects the threads of a process use and however they are
cancelled, as long as no thread that is redirected inside a call gives it up. The history of an
object is read off the log of the process.
-/

open Concurrency

namespace LibPthread

namespace Process

variable {T N : Type} [DecidableEq T] [DecidableEq N]

/-! ### The history of an object -/

/-- The steps of the calls on the rwlock `n`. -/
def rwlockLog (n : N) (s : Sys T N) : Rwlock.Log T :=
  s.log.filterMap (rwlockView n).event

/-- The steps of the calls on the semaphore `n`. -/
def semLog (n : N) (s : Sys T N) : Semaphore.Log T :=
  s.log.filterMap (semView n).event

/-- The steps of the calls on the barrier `n`. -/
def barrierLog (n : N) (s : Sys T N) : Barrier.Log T :=
  s.log.filterMap (barrierView n).event

theorem rwlockView_direct (b : Build) (n : N) :
  (rwlockView (T := T) n).Direct (machine b)
  := by
  constructor
  · intro l
    rfl
  · intro t c l l' x y h
    apply (stepInside_stays (step_eq_goto h) n).1

theorem semView_direct (b : Build) (n : N) :
  (semView (T := T) n).Direct (machine b)
  := by
  constructor
  · intro l
    rfl
  · intro t c l l' x y h
    apply (stepInside_stays (step_eq_goto h) n).2.1

theorem barrierView_direct (b : Build) (n : N) :
  (barrierView (T := T) n).Direct (machine b)
  := by
  constructor
  · intro l
    rfl
  · intro t c l l' x y h
    apply (stepInside_stays (step_eq_goto h) n).2.2

/-! ### Barriers -/

/-- What the barrier `n` of a process, for `count` threads, is for. -/
structure BarrierKept (b : Build) (count : Nat) (n : N) (s : Sys T N) : Prop where
  /-- As many calls are awaited as are missing to complete the present round. -/
  ready : (s.shared.obj.barrier n).lock = false ∧
    (s.shared.obj.barrier n).pending
      = count - (Barrier.arrivals (barrierLog n s)).length % count
  /-- A call returns only after its round is complete, the last arrival of a round
  `PTHREAD_BARRIER_SERIAL_THREAD` and the others `0`. -/
  returns : ∀ t k c x r, s.loc t = some (.barrier n k) →
    step b t (.barrier n k) c s.shared = .ret x r →
    Barrier.Complete count (Barrier.number t (barrierLog n s)) (barrierLog n s) ∧
      r = Barrier.result count (Barrier.number t (barrierLog n s))
  /-- The last arrival of a round has woken up each of the other `count - 1` callers of its
  round once, and the others nobody. -/
  wakes : ∀ t k c x r, s.loc t = some (.barrier n k) →
    step b t (.barrier n k) c s.shared = .ret x r →
    (r = .serialThread → (Barrier.sent t (barrierLog n s)).reverse
        = Barrier.peers count (Barrier.number t (barrierLog n s)) (barrierLog n s) ∧
      (Barrier.sent t (barrierLog n s)).Nodup ∧
      (Barrier.sent t (barrierLog n s)).length = count - 1) ∧
    (r = .zero → Barrier.sent t (barrierLog n s) = [])
  safe : ∀ t k c, s.loc t = some (.barrier n k) → step b t (.barrier n k) c s.shared ≠ .fault

/-! ### Semaphores -/

/-- No post makes `__value` of the semaphore `n` exceed the range of `int`. -/
def SemWithinInt (n : N) (s : Sys T N) : Label T (Loc T N) → Prop
  | .call _ _ => True
  | .act t _ => s.loc t = some (.sem n (.post .start)) → (s.shared.obj.sem n).value < 2 ^ 31 - 1

instance (n : N) (s : Sys T N) (a : Label T (Loc T N)) : Decidable (SemWithinInt n s a) :=
  match a with
  | .call _ _ => inferInstanceAs (Decidable True)
  | .act _ _ => inferInstanceAs (Decidable (_ → _))

/-- Where the tokens of the semaphore `n` of a process, initialised with `v`, are. -/
structure SemKept [Fintype T] (b : Build) (v : Nat) (n : N) (s : Sys T N) : Prop where
  range : 0 ≤ (s.shared.obj.sem n).value ∧ (s.shared.obj.sem n).value < 2 ^ 31
  idle : 0 < (s.shared.obj.sem n).value → s.shared.waits.queue (.sem n) = []
  /-- Each token is in `__value`, or was taken, or is on its way to a waiter, or was lost by a
  time-out that crossed a post. -/
  total : (v : Int) + Semaphore.posts (semLog n s)
    = (s.shared.obj.sem n).value + Semaphore.successes (semLog n s)
      + Semaphore.inFlight (semLog n s) + Semaphore.lost (semLog n s)
  safe : ∀ t k c, s.loc t = some (.sem n (.post k)) →
    step b t (.sem n (.post k)) c s.shared ≠ .fault

/-! ### Rwlocks -/

/-- Only threads that have acquired the rwlock `n` unlock it, and `readers` stays in the range of
`int`. -/
def RwlockDisciplined (n : N) (s : Sys T N) : Label T (Loc T N) → Prop
  | .call t l => l = .rwlock n (.unlock .start) → 0 < Rwlock.acquired t (rwlockLog n s)
  | .act t _ =>
    (((s.loc t).bind (Loc.onRwlock n)).any (fun k => k.request = some .rd) = true →
      (s.shared.obj.rwlock n).readers < 2 ^ 31 - 1) ∧
    (s.loc t = some (.rwlock n (.unlock .start)) → (s.shared.obj.rwlock n).readers ≤ 1 →
      s.shared.waits.queue (.rwlock n .wr) = [] →
      (s.shared.waits.queue (.rwlock n .rd)).length < 2 ^ 31)

instance (n : N) (s : Sys T N) (a : Label T (Loc T N)) : Decidable (RwlockDisciplined n s a) :=
  match a with
  | .call _ _ => inferInstanceAs (Decidable (_ → _))
  | .act _ _ => inferInstanceAs (Decidable ((_ → _) ∧ (_ → _ → _ → _)))

/-- The readers and writers of the rwlock `n` of a process exclude each other. -/
structure RwlockKept [Fintype T] (b : Build) (n : N) (s : Sys T N) : Prop where
  /-- At most one thread writes, and none reads then; `readers` and `__held` say how many there
  are. -/
  balanced : Rwlock.Balanced (s.shared.obj.rwlock n) (Rwlock.total (rwlockLog n s))
  queues : (s.shared.obj.rwlock n).held = false → ∀ mode, s.shared.waits.queue (.rwlock n mode) = []
  queue : 0 < (s.shared.obj.rwlock n).readers → s.shared.waits.queue (.rwlock n .rd) = []
  /-- The acquisitions of a thread, and the one on its way, are shares of it. -/
  claims : ∀ t, Rwlock.claims t (rwlockLog n s) ≤ Rwlock.owns t (rwlockLog n s)
  safe : ∀ t k c, s.loc t = some (.rwlock n k) → step b t (.rwlock n k) c s.shared ≠ .fault

/-! ### Whatever the other objects are -/

section Runs

variable [Fintype T] {b : Build} {attr : N → Option MutexType} {value count : N → Nat} {s : Sys T N}
    {n : N}

/-- Each barrier of a process for more than one thread keeps its rounds, whatever other objects the
threads use and however they are cancelled, as long as no call is given up. -/
theorem barriers_keep_rounds (hcount : 1 < count n) (hlt : count n < 2 ^ 32)
    (hs : (callExitMachine b).Reach Undisturbed (start attr value count) s) :
  BarrierKept b (count n) n s
  := by
  have hs := reach_of_undisturbed hs
  obtain ⟨s', hs', hsees⟩ : ∃ s', (Barrier.machine b).Reach (fun _ _ => True)
      (State.idle ⟨⟨false, count n, count n⟩, Waits.empty⟩) s' ∧
      (barrierView n).Follows (fun t => Loc.role t) (machine b) (Barrier.machine b) s s' := by
    apply (barrierView_fits b n).run_direct (barrierView_direct b n) (Barrier.conforms b)
      (fun _ => Inv.of_reach) _ _ hs
    · intros
      trivial
    · intros
      trivial
  have hinit : Barrier.init (count n) = .ok ⟨false, count n, count n⟩ := by
    simp only [Barrier.init]
    grind
  have hkept := Barrier.roundsKept_of_reach hinit hcount hlt hs'
  have hobj : s'.shared.obj = s.shared.obj.barrier n := hsees.shows.obj
  have hlog : s'.log = barrierLog n s := hsees.log
  have hloc : ∀ {t k}, s.loc t = some (.barrier n k) → s'.loc t = some k := by
    intro t k hl
    simp [hsees.shows.loc, View.place, hl, barrierView, Loc.onBarrier]
  have hret : ∀ {t k c x r}, s.loc t = some (.barrier n k) →
      step b t (.barrier n k) c s.shared = .ret x r →
      ∃ x', (Barrier.machine b).step t k c s'.shared = .ret x' r := by
    intro t k c x r hl hstep
    apply (hsees.answers t _ k c hl (if_pos rfl)).eq_ret hstep rfl
  constructor
  · rw [← hlog, ← hobj]
    apply hkept.ready
  · intro t k c x r hl hstep
    obtain ⟨x', hstep'⟩ := hret hl hstep
    rw [← hlog]
    apply hkept.returns t c k x' r (hloc hl) hstep'
  · intro t k c x r hl hstep
    obtain ⟨x', hstep'⟩ := hret hl hstep
    rw [← hlog]
    apply hkept.wakes t c k x' r (hloc hl) hstep'
  · intro t k c hl hfault
    apply hkept.safe
    use t, k, c, hloc hl, (hsees.answers t _ k c hl (if_pos rfl)).eq_fault hfault

/-- The thread `1` arrives last at the barrier of the thread `0`, with a mutex locked. -/
theorem barriers_keep_rounds_locked :
  ∃ s, (callExitMachine .debug).Reach Undisturbed
      (start (T := Fin 2) (N := Unit) (fun _ => none) (fun _ => 0) (fun _ => 2)) s ∧
    s.loc 0 = some (.barrier () .block) ∧ s.loc 1 = some (.barrier () (.iterate [])) ∧
    (s.shared.obj.mutex (.user ())).held = true ∧ BarrierKept .debug 2 () s
  := by
  obtain ⟨s, hs, hp⟩ := Machine.exists_reach_of_run (M := callExitMachine .debug)
    (G := Undisturbed)
    (s := start (T := Fin 2) (N := Unit) (fun _ => none) (fun _ => 0) (fun _ => 2))
    [.call 0 (.barrier () .start), .act 0 false, .call 1 (.mutex () (.lock (.start none))),
      .act 1 false, .call 1 (.barrier () .start), .act 1 false, .act 1 false, .act 1 false]
    (fun s => decide (s.loc 0 = some (.barrier () .block)) &&
      decide (s.loc 1 = some (.barrier () (.iterate []))) &&
      (s.shared.obj.mutex (.user ())).held) (by decide +kernel)
  simp only [Bool.and_eq_true, decide_eq_true_eq] at hp
  use s, hs, hp.1.1, hp.1.2, hp.2
  exact barriers_keep_rounds (by decide) (by decide) hs

/-- Each semaphore of a process accounts for its tokens while its `__value` stays in range, whatever
other objects the threads use and however they are cancelled, as long as no call is given up. -/
theorem semaphores_account (hv : value n < 2 ^ 31)
    (hs : (callExitMachine b).Reach (fun s a => Undisturbed s a ∧ SemWithinInt n s a)
      (start attr value count) s) :
  SemKept b (value n) n s
  := by
  have hs := reach_iff_undisturbed.mp hs
  obtain ⟨s', hs', hsees⟩ : ∃ s', (Semaphore.machine b).Reach Semaphore.WithinInt
      (State.idle ⟨Semaphore.init (value n), Waits.empty⟩) s' ∧
      (semView n).Follows (fun t => Loc.role t) (machine b) (Semaphore.machine b) s s' := by
    apply (semView_fits b n).run_direct (semView_direct b n) (Semaphore.conforms b)
      (fun _ => Inv.of_reach) _ _ hs
    · intros
      trivial
    · intro s s' t c hG hsees hlog hl
      rw [hsees.obj]
      apply hG
      rw [hsees.loc, View.place] at hl
      obtain ⟨l, hl, hk⟩ := Option.bind_eq_some_iff.mp hl
      rw [hl, Loc.onSem_eq_some.mp hk]
  have hacc := Semaphore.accounted_of_reach (fun _ _ h => h) hv hs'
  have hsound := Semaphore.sound_of_reach hs'
  have hobj : s'.shared.obj = s.shared.obj.sem n := hsees.shows.obj
  have hlog : s'.log = semLog n s := hsees.log
  have hqueue : s'.shared.waits.queue () = s.shared.waits.queue (.sem n) :=
    hsees.shows.waits.queue ()
  constructor
  · rw [← hobj]
    use hacc.nonneg, hacc.lt
  · rw [← hobj, ← hqueue]
    apply hacc.idle
  · rw [← hobj, ← hlog]
    apply hacc.total
  · intro t k c hl hfault
    apply hacc.post_ne_fault hsound _
      ((hsees.answers t _ (.post k) c hl (if_pos rfl)).eq_fault hfault)
    simp [hsees.shows.loc, View.place, hl, semView, Loc.onSem]

/-- The thread `1` posts to the thread `0`, with a mutex locked. -/
theorem semaphores_account_locked :
  ∃ s, (callExitMachine .debug).Reach (fun s a => Undisturbed s a ∧ SemWithinInt () s a)
      (start (T := Fin 2) (N := Unit) (fun _ => none) (fun _ => 0) (fun _ => 1)) s ∧
    s.loc 1 = some (.sem () (.post (.wakeup 0))) ∧
    (s.shared.obj.mutex (.user ())).held = true ∧ SemKept .debug 0 () s
  := by
  obtain ⟨s, hs, hp⟩ := Machine.exists_reach_of_run (M := callExitMachine .debug)
    (G := fun s a => Undisturbed s a ∧ SemWithinInt () s a)
    (s := start (T := Fin 2) (N := Unit) (fun _ => none) (fun _ => 0) (fun _ => 1))
    [.call 0 (.sem () (.wait (.start none))), .act 0 false,
      .call 1 (.mutex () (.lock (.start none))), .act 1 false, .call 1 (.sem () (.post .start)),
      .act 1 false]
    (fun s => decide (s.loc 1 = some (.sem () (.post (.wakeup 0)))) &&
      (s.shared.obj.mutex (.user ())).held) (by decide +kernel)
  simp only [Bool.and_eq_true, decide_eq_true_eq] at hp
  use s, hs, hp.1, hp.2
  exact semaphores_account (by decide) hs

/-- The readers and writers of each rwlock of a process exclude each other, whatever other objects
the threads use and however they are cancelled, if only threads that have acquired it unlock it and
no call is given up. -/
theorem rwlocks_exclude
    (hs : (callExitMachine b).Reach (fun s a => Undisturbed s a ∧ RwlockDisciplined n s a)
      (start attr value count) s) :
  RwlockKept b n s
  := by
  have hs := reach_iff_undisturbed.mp hs
  obtain ⟨s', hs', hsees⟩ : ∃ s', (Rwlock.machine b).Reach Rwlock.Disciplined
      (State.idle ⟨Rwlock.init, Waits.empty⟩) s' ∧
      (rwlockView n).Follows (fun t => Loc.role t) (machine b) (Rwlock.machine b) s s' := by
    apply (rwlockView_fits b n).run_direct (rwlockView_direct b n) (Rwlock.conforms b)
      (fun _ => Inv.of_reach) _ _ hs
    · intro s s' t l k hG hsees hlog hk
      refine ⟨?_, trivial⟩
      rintro rfl
      rw [hlog]
      apply hG
      apply Loc.onRwlock_eq_some.mp hk
    · intro s s' t c hG hsees hlog
      refine ⟨trivial, ?_, ?_⟩
      · rw [hsees.obj, hsees.loc]
        apply hG.1
      · intro hl
        rw [hsees.obj, hsees.waits.queue, hsees.waits.queue]
        apply hG.2
        rw [hsees.loc, View.place] at hl
        obtain ⟨l, hl, hk⟩ := Option.bind_eq_some_iff.mp hl
        rw [hl, Loc.onRwlock_eq_some.mp hk]
  have he := Rwlock.exclusive_of_reach (fun _ _ h => h) hs'
  have hobj : s'.shared.obj = s.shared.obj.rwlock n := hsees.shows.obj
  have hlog : s'.log = rwlockLog n s := hsees.log
  have hqueue : ∀ mode, s'.shared.waits.queue mode = s.shared.waits.queue (.rwlock n mode) :=
    hsees.shows.waits.queue
  constructor
  · rw [← hobj, ← hlog]
    apply he.balanced
  · intro hheld mode
    rw [← hqueue]
    apply he.queues
    rw [hobj, hheld]
  · rw [← hobj, ← hqueue]
    apply he.queue
  · rw [← hlog]
    apply he.claims
  · intro t k c hl hfault
    apply he.ne_fault (Rwlock.sound_of_reach hs') _
      ((hsees.answers t _ k c hl (if_pos rfl)).eq_fault hfault)
    simp [hsees.shows.loc, View.place, hl, rwlockView, Loc.onRwlock]

/-- A reader passes the rwlock to a writer, while another thread has locked a mutex. -/
theorem rwlocks_exclude_locked :
  ∃ s, (callExitMachine .debug).Reach (fun s a => Undisturbed s a ∧ RwlockDisciplined () s a)
      (start (T := Fin 3) (N := Unit) (fun _ => none) (fun _ => 0) (fun _ => 1)) s ∧
    s.loc 0 = some (.rwlock () (.unlock (.wakeup 2))) ∧
    (s.shared.obj.mutex (.user ())).held = true ∧ RwlockKept .debug () s
  := by
  obtain ⟨s, hs, hp⟩ := Machine.exists_reach_of_run (M := callExitMachine .debug)
    (G := fun s a => Undisturbed s a ∧ RwlockDisciplined () s a)
    (s := start (T := Fin 3) (N := Unit) (fun _ => none) (fun _ => 0) (fun _ => 1))
    [.call 0 (.rwlock () (.lock .rd (.start none))), .act 0 false,
      .call 2 (.rwlock () (.lock .wr (.start none))), .act 2 false,
      .call 1 (.mutex () (.lock (.start none))), .act 1 false,
      .call 0 (.rwlock () (.unlock .start)), .act 0 false]
    (fun s => decide (s.loc 0 = some (.rwlock () (.unlock (.wakeup 2)))) &&
      (s.shared.obj.mutex (.user ())).held) (by decide +kernel)
  simp only [Bool.and_eq_true, decide_eq_true_eq] at hp
  use s, hs, hp.1, hp.2
  apply rwlocks_exclude hs

end Runs

end Process

end LibPthread
