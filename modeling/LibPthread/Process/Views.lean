import LibPthread.Naturality
import LibPthread.Process.CallExit

/-!
# The objects of a process, one by one

Each mutex, rwlock, semaphore and barrier of a process behaves as though there were no other
object: the calls of its functions are a run of the system that has this object alone, whatever the
threads do to other objects in between and however they are cancelled, as long as no thread that is
redirected inside a call gives it up. A wait on a condition variable calls the unlock function and
the lock function of its mutex.
-/

open Concurrency

namespace LibPthread

/-- The call of a function of the mutex that a thread inside a wait is in. -/
def Cond.WaitLoc.onMutex {T : Type} : Cond.WaitLoc T → Option (Mutex.Loc T)
  | .unlockMutex _ _ l => some (.unlock l)
  | .relockMutex _ _ l => some (.lock l)
  | _ => none

namespace Process

variable {T N : Type} [DecidableEq T] [DecidableEq N]

/-- The call of a function of the mutex `n` that a thread is in. -/
def Loc.onMutex (n : N) : Loc T N → Option (Mutex.Loc T)
  | .mutex n' l => if n' = n then some l else none
  | .condWait _ n' l => if n' = n then l.onMutex else none
  | _ => none

/-- The call of a function of the rwlock `n` that a thread is in. -/
def Loc.onRwlock (n : N) : Loc T N → Option (Rwlock.Loc T)
  | .rwlock n' l => if n' = n then some l else none
  | _ => none

/-- The call of a function of the semaphore `n` that a thread is in. -/
def Loc.onSem (n : N) : Loc T N → Option (Semaphore.Loc T)
  | .sem n' l => if n' = n then some l else none
  | _ => none

/-- The call of a function of the barrier `n` that a thread is in. -/
def Loc.onBarrier (n : N) : Loc T N → Option (Barrier.Loc T)
  | .barrier n' l => if n' = n then some l else none
  | _ => none

/-- The mutex `n` of a process. -/
def mutexView (n : N) :
    View T (Objects T N) (QueueRef T N) (Loc T N) (Mutex T) Unit (Mutex.Loc T) where
  queue _ := .mutex (.user n)
  obj x := x.mutex (.user n)
  loc _ l := l.onMutex n
  direct
    | .mutex _ _ => true
    | _ => false

/-- The rwlock `n` of a process. -/
def rwlockView (n : N) :
    View T (Objects T N) (QueueRef T N) (Loc T N) Rwlock Rwlock.Mode (Rwlock.Loc T) where
  queue := .rwlock n
  obj x := x.rwlock n
  loc _ l := l.onRwlock n
  direct _ := true

/-- The semaphore `n` of a process. -/
def semView (n : N) :
    View T (Objects T N) (QueueRef T N) (Loc T N) Semaphore Unit (Semaphore.Loc T) where
  queue _ := .sem n
  obj x := x.sem n
  loc _ l := l.onSem n
  direct _ := true

/-- The barrier `n` of a process. -/
def barrierView (n : N) :
    View T (Objects T N) (QueueRef T N) (Loc T N) Barrier Unit (Barrier.Loc T) where
  queue _ := .barrier n
  obj x := x.barrier n
  loc _ l := l.onBarrier n
  direct _ := true

/-! ### What a step writes -/

section Writes

variable {b : Build} {self : T} {timeout : Bool} {s : Shared T N} {P : Shared T N → Prop}

theorem lock_all {Loc : Type} {m : MutexRef T N} {l : Mutex.LockLoc} {inside : Mutex.LockLoc → Loc}
    {k : Shared T N → Outcome (Shared T N) Loc Ret} (hset : ∀ x, P (Shared.setMutex m s x))
    (hk : ∀ x, (k (Shared.setMutex m s x)).All P) :
  (Shared.lock b m self l timeout s inside k).All P
  := Outcome.All.lift hset (fun x _ => hk x)

theorem unlock_all {Loc : Type} {m : MutexRef T N} {l : Mutex.UnlockLoc T}
    {inside : Mutex.UnlockLoc T → Loc} {k : Shared T N → Outcome (Shared T N) Loc Ret}
    (hset : ∀ x, P (Shared.setMutex m s x)) (hk : ∀ x, (k (Shared.setMutex m s x)).All P) :
  (Shared.unlock b m self l s inside k).All P
  := Outcome.All.lift hset (fun x _ => hk x)

/-- A wait writes to the queues and ports, to the cancellation fields and the `cancel_lock` of the
caller, and to its mutex inside of the functions of the mutex. -/
theorem timedwaitStep_all {c : N} {m : MutexRef T N} {k : Cond.WaitLoc T}
    (hwaits : ∀ w, P ⟨s.obj, w⟩) (hcancel : ∀ x w, P ⟨(Shared.setCancel self s x).obj, w⟩)
    (hlock : ∀ x, P (Shared.setMutex (.cancelLock self) s x))
    (hmutex : ∀ l x, k.onMutex = some l → P (Shared.setMutex m s x)) :
  (Cond.timedwaitStep b c m self k timeout s).All P
  := by
  cases k with
  | start abstime =>
      rw [Cond.timedwaitStep]
      split
      · apply hwaits
      · apply hwaits
  | lockCancel timed k => exact lock_all hlock hlock
  | enqueue timed =>
      rw [Cond.timedwaitStep, Cond.waitEnqueue]
      split
      · apply hwaits
      · split
        · trivial
        · apply Build.assert_all
          apply hcancel
  | unlockCancel timed saved k =>
      apply unlock_all hlock
      intro x
      cases saved with
      | none => apply hlock
      | some oldtype => apply hlock
  | unlockMutex timed oldtype k =>
      have hset := fun x => hmutex _ x rfl
      exact unlock_all hset hset
  | wait oldtype stage =>
      rw [Cond.timedwaitStep, Cond.waitBlocked]
      apply Build.assert_all
      apply Outcome.All.lift hwaits
      intro w err
      apply hwaits
  | relockCancel oldtype err k => exact lock_all hlock hlock
  | restore oldtype err => apply hcancel
  | releaseCancel err cancelled k => exact unlock_all hlock hlock
  | relockMutex err cancelled k =>
      have hset := fun x => hmutex _ x rfl
      exact lock_all hset hset

/-- A call of `pthread_cancel` writes to the queues and ports, and to the cancellation fields and
the `cancel_lock` of the target. -/
theorem cancelStep_all {target : T} {k : CancelLoc T N} (hwaits : ∀ w, P ⟨s.obj, w⟩)
    (hcancel : ∀ x w, P ⟨(Shared.setCancel target s x).obj, w⟩)
    (hredirect : P (Shared.redirect target s))
    (hlock : ∀ x, P (Shared.setMutex (.cancelLock target) s x)) :
  (cancelStep b target self k timeout s).All P
  := by
  cases k with
  | lock k => exact lock_all hlock hlock
  | check =>
      rw [cancelStep, cancelCheck]
      dsimp only
      split
      · apply hwaits
      · split
        · apply hcancel
        · split
          · apply hcancel
          · split
            · apply hcancel
            · apply hcancel
  | hook c =>
      rw [cancelStep, cancelHook]
      split
      · trivial
      · split
        · apply hwaits
        · apply hwaits
  | hookWakeup =>
      rw [cancelStep]
      apply Build.wakeup_all
      intro w
      apply hwaits
  | unlock k => exact unlock_all hlock hlock
  | doUnlock k =>
      apply unlock_all hlock
      intro x
      split
      · apply hlock
      · apply hlock
  | redirect => apply hredirect

theorem setStep_all {x : Setting} {k : SetLoc T}
    (hcancel : ∀ x w, P ⟨(Shared.setCancel self s x).obj, w⟩)
    (hlock : ∀ x, P (Shared.setMutex (.cancelLock self) s x)) :
  (setStep b x self k timeout s).All P
  := by
  cases k with
  | lock k => exact lock_all hlock hlock
  | store => apply hcancel
  | unlock k => exact unlock_all hlock hlock

/-- A step writes to the objects it is about, and to nothing else. -/
theorem stepInside_all {l : Loc T N} (hwaits : ∀ w, P ⟨s.obj, w⟩)
    (hcancel : ∀ t x w, P ⟨(Shared.setCancel t s x).obj, w⟩)
    (hredirect : ∀ t, P (Shared.redirect t s))
    (hlock : ∀ t x, P (Shared.setMutex (.cancelLock t) s x))
    (hmutex : ∀ n k x, l.onMutex n = some k → P (Shared.setMutex (.user n) s x))
    (hrwlock : ∀ n k x, l.onRwlock n = some k → P (Shared.setRwlock n s x))
    (hsem : ∀ n k x, l.onSem n = some k → P (Shared.setSem n s x))
    (hbarrier : ∀ n k x, l.onBarrier n = some k → P (Shared.setBarrier n s x))
    (hcond : ∀ n x, P (Shared.setCond n s x)) :
  (stepInside b self l timeout s).All P
  := by
  cases l with
  | mutex n l =>
      have hset := fun x => hmutex n l x (if_pos rfl)
      exact Outcome.All.lift hset (fun x _ => hset x)
  | rwlock n l =>
      have hset := fun x => hrwlock n l x (if_pos rfl)
      exact Outcome.All.lift hset (fun x _ => hset x)
  | sem n l =>
      have hset := fun x => hsem n l x (if_pos rfl)
      exact Outcome.All.lift hset (fun x _ => hset x)
  | barrier n l =>
      have hset := fun x => hbarrier n l x (if_pos rfl)
      exact Outcome.All.lift hset (fun x _ => hset x)
  | condWait c m l =>
      apply Outcome.All.lift_id
      apply timedwaitStep_all hwaits (hcancel self) (hlock self)
      intro k x hk
      apply hmutex m k x
      simp [Loc.onMutex, hk]
  | condSignal c l => exact Outcome.All.lift (hcond c) (fun x _ => hcond c x)
  | condBroadcast c l => exact Outcome.All.lift (hcond c) (fun x _ => hcond c x)
  | cancel target l =>
      apply Outcome.All.lift_id
      apply cancelStep_all hwaits (hcancel target) (hredirect target) (hlock target)
  | set x l =>
      apply Outcome.All.lift_id
      apply setStep_all (hcancel self) (hlock self)

end Writes

/-! ### Where the calls of the functions of an object are -/

section Calls

variable {n : N} {l : Loc T N}

omit [DecidableEq T] in
/-- A wait calls the unlock function, and later the lock function, of its mutex. -/
theorem WaitLoc.entry_of_flow {k k' : Cond.WaitLoc T} {l : Mutex.Loc T} (h : k.Flow k')
    (hk : k.onMutex = none) (hk' : k'.onMutex = some l) :
  l.entry = true
  := by
  cases h with
  | unlocked =>
      obtain rfl := Option.some.inj hk'
      rfl
  | released =>
      obtain rfl := Option.some.inj hk'
      rfl
  | _ => simp [Cond.WaitLoc.onMutex] at hk hk'

omit [DecidableEq N] in
/-- A wait goes on from the unlock function of its mutex when all messages have been sent. -/
theorem WaitLoc.pending_of_flow {c : N} {m : MutexRef T N} {self u : T} {k k' : Cond.WaitLoc T}
    (h : k.Flow k') (hk : k.onMutex ≠ none) (hk' : k'.onMutex = none) :
  (k'.role c m self).pending u = 0
  := by
  cases h with
  | left => rfl
  | _ => simp [Cond.WaitLoc.onMutex] at hk hk'

omit [DecidableEq T] in
theorem Loc.onMutex_eq_some {k : Mutex.Loc T} :
  l.onMutex n = some k ↔ l = .mutex n k ∨
    (∃ c timed oldtype k', l = .condWait c n (.unlockMutex timed oldtype k') ∧ k = .unlock k') ∨
    ∃ c err cancelled k', l = .condWait c n (.relockMutex err cancelled k') ∧ k = .lock k'
  := by
  constructor
  · intro h
    cases l with
    | mutex n' k' =>
        simp only [onMutex] at h
        grind
    | condWait c m k' =>
        simp only [onMutex] at h
        split at h
        · rename_i hm
          subst hm
          right
          cases k' with
          | unlockMutex timed oldtype k' =>
              left
              use c, timed, oldtype, k', rfl
              apply (Option.some.inj h).symm
          | relockMutex err cancelled k' =>
              right
              use c, err, cancelled, k', rfl
              apply (Option.some.inj h).symm
          | _ => cases h
        · cases h
    | _ => cases h
  · rintro (rfl | ⟨c, timed, oldtype, k', rfl, rfl⟩ | ⟨c, err, cancelled, k', rfl, rfl⟩)
    all_goals exact if_pos rfl

omit [DecidableEq T] in
theorem Loc.onRwlock_eq_some {k : Rwlock.Loc T} :
  l.onRwlock n = some k ↔ l = .rwlock n k
  := by
  cases l with
  | rwlock n' k' =>
      simp only [onRwlock]
      grind
  | _ => simp [onRwlock]

omit [DecidableEq T] in
theorem Loc.onSem_eq_some {k : Semaphore.Loc T} :
  l.onSem n = some k ↔ l = .sem n k
  := by
  cases l with
  | sem n' k' =>
      simp only [onSem]
      grind
  | _ => simp [onSem]

omit [DecidableEq T] in
theorem Loc.onBarrier_eq_some {k : Barrier.Loc T} :
  l.onBarrier n = some k ↔ l = .barrier n k
  := by
  cases l with
  | barrier n' k' =>
      simp only [onBarrier]
      grind
  | _ => simp [onBarrier]

/-- The queue is one of the object whose function is called, or belongs to a condition variable or
to a `cancel_lock`. -/
inductive Loc.Near (l : Loc T N) : QueueRef T N → Prop where
  | cond (c : N) : Near l (.cond c)
  | cancelLock (u : T) : Near l (.mutex (.cancelLock u))
  | mutex {n : N} {k : Mutex.Loc T} (at_k : l.onMutex n = some k) : Near l (.mutex (.user n))
  | rwlock {n : N} {k : Rwlock.Loc T} (at_k : l.onRwlock n = some k) (mode : Rwlock.Mode) :
    Near l (.rwlock n mode)
  | sem {n : N} {k : Semaphore.Loc T} (at_k : l.onSem n = some k) : Near l (.sem n)
  | barrier {n : N} {k : Barrier.Loc T} (at_k : l.onBarrier n = some k) : Near l (.barrier n)

variable {t : T} {q : QueueRef T N}

omit [DecidableEq T] in
/-- The queue on which a thread waits. -/
theorem Loc.near_of_waits (h : (l.role t).phase.queue = some q) :
  l.Near q
  := by
  rcases Loc.kind_of_queue h with ⟨n, k, rfl, rfl⟩ | ⟨n, k, mode, rfl, rfl⟩ | ⟨n, k, rfl, rfl⟩ |
    ⟨n, k, rfl, rfl⟩ | ⟨c, m, k, rfl⟩ | ⟨target, st, rfl, rfl⟩ | ⟨x, st, rfl, rfl⟩
  · exact Near.mutex (k := k) (if_pos rfl)
  · have hk : (Loc.rwlock (T := T) n k).onRwlock n = some k := if_pos rfl
    apply Near.rwlock hk
  · exact Near.sem (k := k) (if_pos rfl)
  · exact Near.barrier (k := k) (if_pos rfl)
  · rcases WaitLoc.kind_of_queue h with ⟨rfl, -⟩ | ⟨rfl, -⟩ | ⟨rfl, err, cancelled, st, rfl⟩
    · apply Near.cond
    · apply Near.cancelLock
    · exact Near.mutex (k := .lock (.wait st)) (if_pos rfl)
  · apply Near.cancelLock
  · apply Near.cancelLock

variable [Fintype T] {s : Sys T N}

/-- The queue on which a step acts. -/
theorem Inv.near_of_touches (h : Inv s) (hl : s.loc t = some l)
    (ht : l.Touches t s.shared.waits q) :
  l.Near q
  := by
  cases l with
  | mutex n k =>
      obtain rfl := ht
      exact Loc.Near.mutex (k := k) (if_pos rfl)
  | rwlock n k =>
      obtain ⟨mode, rfl⟩ := ht
      have hk : (Loc.rwlock (T := T) n k).onRwlock n = some k := if_pos rfl
      apply Loc.Near.rwlock hk
  | sem n k =>
      obtain rfl := ht
      exact Loc.Near.sem (k := k) (if_pos rfl)
  | barrier n k =>
      obtain rfl := ht
      exact Loc.Near.barrier (k := k) (if_pos rfl)
  | condWait c m k =>
      cases k with
      | start abstime => cases ht
      | lockCancel timed k =>
          obtain rfl := Option.some.inj ht
          apply Loc.Near.cancelLock
      | enqueue timed =>
          obtain rfl := Option.some.inj ht
          apply Loc.Near.cond
      | unlockCancel timed saved k =>
          obtain ⟨-, rfl⟩ := UnlockLoc.start_of_queue ht
          apply Loc.Near.cancelLock
      | unlockMutex timed oldtype k =>
          obtain ⟨-, rfl⟩ := UnlockLoc.start_of_queue ht
          exact Loc.Near.mutex (k := .unlock k) (if_pos rfl)
      | wait oldtype stage =>
          obtain rfl := Option.some.inj ht
          apply Loc.Near.cond
      | relockCancel oldtype err k =>
          obtain rfl := Option.some.inj ht
          apply Loc.Near.cancelLock
      | restore oldtype err => cases ht
      | releaseCancel err cancelled k =>
          obtain ⟨-, rfl⟩ := UnlockLoc.start_of_queue ht
          apply Loc.Near.cancelLock
      | relockMutex err cancelled k =>
          obtain rfl := Option.some.inj ht
          exact Loc.Near.mutex (k := .lock k) (if_pos rfl)
  | condSignal c k =>
      obtain rfl := ht
      apply Loc.Near.cond
  | condBroadcast c k =>
      obtain rfl := ht
      apply Loc.Near.cond
  | cancel target k =>
      cases k with
      | lock k =>
          obtain rfl := Option.some.inj ht
          apply Loc.Near.cancelLock
      | check => cases ht
      | hook c =>
          obtain ⟨rfl | rfl, -⟩ := h.mem_of_hooked (h.hooking target t c hl).1 ht
          · apply Loc.Near.cond
          · apply Loc.Near.cancelLock
      | hookWakeup => cases ht
      | unlock k =>
          obtain ⟨-, rfl⟩ := UnlockLoc.start_of_queue ht
          apply Loc.Near.cancelLock
      | doUnlock k =>
          obtain ⟨-, rfl⟩ := UnlockLoc.start_of_queue ht
          apply Loc.Near.cancelLock
      | redirect => cases ht
  | set x k =>
      cases k with
      | lock k =>
          obtain rfl := Option.some.inj ht
          apply Loc.Near.cancelLock
      | store => cases ht
      | unlock k =>
          obtain ⟨-, rfl⟩ := UnlockLoc.start_of_queue ht
          apply Loc.Near.cancelLock

end Calls

/-! ### The views fit -/

section Fits

variable [Fintype T] {b : Build} {s : Sys T N} {t : T} {l : Loc T N}

/-- The next step of `t` acts on the queue `q`. -/
def Acts (s : Sys T N) (t : T) (q : QueueRef T N) : Prop :=
  ∃ l, s.loc t = some l ∧ l.Touches t s.shared.waits q

omit [DecidableEq N] [DecidableEq T] [Fintype T] in
/-- A thread in a call of a function of an object is linked on a queue of the object, if at all. -/
theorem own_link {Q' : Type} {f : Q' → QueueRef T N} {inside : T → Prop} {w' : Waits T Q'}
    (hhomed : Homed (roles (fun t => Loc.role t) s) s.shared.waits) (hl : s.loc t = some l)
    (hqueue : ∀ q, (l.role t).phase.queue = some q → ∃ q', q = f q')
    (hw : s.shared.waits.Shows f inside w') :
  w'.prevp t = none ↔ s.shared.waits.prevp t = none
  := by
  apply hw.prevp_none_iff
  intro q hq
  have hphase := hhomed t q hq
  simp only [roles, hl, Option.elim_some] at hphase
  apply hqueue q hphase

/-- The queue of a renamed role. -/
theorem queue_map {Q Q' : Type} {f : Q' → Q} {o : Option Q} {o' : Option Q'} (hmap : o = o'.map f) :
  (∀ q, o = some q → ∃ q', q = f q') ∧
    (Function.Injective f → ∀ q', o = some (f q') ↔ o' = some q')
  := by
  constructor
  · intro q hq
    rw [hmap] at hq
    obtain ⟨q', -, rfl⟩ := Option.map_eq_some_iff.mp hq
    use q'
  · intro hf q'
    rw [hmap]
    apply (Option.map_injective hf).eq_iff (b := some q')

omit [Fintype T] in
/-- A thread stays in its call of a function of an rwlock, a semaphore or a barrier until the call
returns. -/
theorem stepInside_stays {self : T} {timeout : Bool} {x x' : Shared T N} {l' : Loc T N}
    (h : stepInside b self l timeout x = .goto x' l') (n : N) :
  (l'.onRwlock n = none ↔ l.onRwlock n = none) ∧ (l'.onSem n = none ↔ l.onSem n = none) ∧
    (l'.onBarrier n = none ↔ l.onBarrier n = none)
  := by
  cases l <;>
    (rcases Outcome.lift_eq_goto_iff.mp h with ⟨_, _, _, _, rfl⟩ | ⟨_, _, _, h⟩
     · simp [Loc.onRwlock, Loc.onSem, Loc.onBarrier]
     · cases h)

/-- What has to be shown of a view of an object: its calls, its queues and what is written to it
belong together, and the steps of the calls match. -/
theorem fits_of {Obj' Q' Loc' : Type}
    {V : View T (Objects T N) (QueueRef T N) (Loc T N) Obj' Q' Loc'}
    {M' : Machine T (World Obj' T Q') Loc' Ret} {role' : T → Loc' → Role T Q'}
    (hinj : Function.Injective V.queue)
    (hnear : ∀ t l q, l.Near (V.queue q) → ∃ k, V.loc t l = some k)
    (hqueue : ∀ t l k q, V.loc t l = some k →
      ((l.role t).phase.queue = some (V.queue q) ↔ (role' t k).phase.queue = some q))
    (hpending : ∀ t l k u, V.loc t l = some k → (l.role t).pending u = (role' t k).pending u)
    (hentry : ∀ t l k, l.entry = true → V.loc t l = some k → M'.entry k = true)
    (hsettled : ∀ t l l' c x y, V.loc t l ≠ none → V.loc t l' = none →
      stepInside b t l c x = .goto y l' → ∀ u, (l'.role t).pending u = 0)
    (hresume : ∀ t x, V.obj (Shared.resume t x).obj = V.obj x.obj)
    (hwrites : ∀ t l c x, V.loc t l = none →
      (stepInside b t l c x).All fun y => V.obj y.obj = V.obj x.obj)
    (henter : ∀ t l c x y l' k', V.loc t l = none → stepInside b t l c x = .goto y l' →
      V.loc t l' = some k' → M'.entry k' = true)
    (hanswers : ∀ s t l k c w', Inv s → V.loc t l = some k →
      s.shared.waits.Shows V.queue (V.Waiting (fun t => Loc.role t) s) w' →
      ((∀ q, (l.role t).phase.queue = some q → ∃ q', q = V.queue q') →
        (w'.prevp t = none ↔ s.shared.waits.prevp t = none)) →
      (∀ q', (role' t k).phase.queue = some q' → V.Waiting (fun t => Loc.role t) s t) →
      (∀ u ∈ (role' t k).owes, V.Waiting (fun t => Loc.role t) s u) →
      V.Answers (V.Waiting (fun t => Loc.role t) s) t l
        (stepInside b t l c (Shared.resume t s.shared))
        (M'.step t k c ⟨V.obj s.shared.obj, w'⟩)) :
  V.Fits (machine b) M' QueueRef.IsBarrier (fun t => Loc.role t) role' Acts Inv
  := by
  constructor
  · apply hinj
  · intro s h
    apply h.sound
  · intro s a s' h hstep
    apply (h.moves hstep).act
  · rintro s t h hplace q ⟨l, hl, ht⟩
    obtain ⟨k, hk⟩ := hnear t l q (h.near_of_touches hl ht)
    simp [View.place, hl, hk] at hplace
  · intro t l q
    constructor
    · intro h
      obtain ⟨k, hk⟩ := hnear t l q (Loc.near_of_waits h)
      use k, hk
      rw [← hqueue t l k q hk, h]
    · rintro ⟨k, hk, hq⟩
      rw [hqueue t l k q hk, hq]
  · apply hpending
  · apply hentry
  · intro t l l' c x y hl hl' h
    apply hsettled t l l' c _ y hl hl' (step_eq_goto h)
  · intro s t l k c w' h hhomed hl hk hw hpend
    dsimp only [machine]
    rw [step]
    split
    · trivial
    · apply hanswers s t l k c w' h hk hw
      · intro hown
        apply own_link hhomed hl hown hw
      · intro q' hq'
        use q'
        simp only [roles, hl, Option.elim_some]
        rw [hqueue t l k q' hk, hq']
      · intro u hu
        apply hpend
        rw [hpending t l k u hk]
        apply Role.pending_pos hu
  · intro s t l c x l' h hl hk hstep
    have hobj := hwrites t l c (Shared.resume t s.shared) hk
    rw [step_eq_goto hstep, hresume] at hobj
    use hobj
    intro k' hk'
    apply henter t l c _ x l' k' hk (step_eq_goto hstep) hk'
  · intro s t l c x r h hl hk hstep
    have hobj := hwrites t l c (Shared.resume t s.shared) hk
    rw [step_eq_ret hstep, hresume] at hobj
    apply hobj

omit [DecidableEq T] [Fintype T] in
/-- A thread is on a queue of the mutex `n` when its call on the mutex is. -/
theorem mutexView_queue (n : N) (t : T) {k : Mutex.Loc T} (q : Unit)
    (hk : l.onMutex n = some k) :
  (l.role t).phase.queue = some ((mutexView (T := T) n).queue q) ↔
    (Mutex.Loc.role () k).phase.queue = some q
  := by
  have hinj : Function.Injective (mutexView (T := T) n).queue :=
    Function.injective_of_subsingleton _
  rcases Loc.onMutex_eq_some.mp hk with rfl | ⟨c, timed, oldtype, k, rfl, rfl⟩ |
    ⟨c, err, cancelled, k, rfl, rfl⟩
  · apply (queue_map (Mutex.Loc.queue_role _ () k)).2 hinj
  · constructor
    · intro h
      cases h
    · intro h
      cases h
  · apply (queue_map (Mutex.Loc.queue_role _ () (.lock k))).2 hinj

omit [Fintype T] in
/-- A thread that has finished its call on the mutex `n` owes no wakeup for it. -/
theorem mutexView_settled {n : N} {self : T} {timeout : Bool} {x y : Shared T N} {l' : Loc T N}
    (hl : l.onMutex n ≠ none) (hl' : l'.onMutex n = none)
    (h : stepInside b self l timeout x = .goto y l') (u : T) :
  (l'.role self).pending u = 0
  := by
  cases l with
  | mutex n' k =>
      rcases Outcome.lift_eq_goto_iff.mp h with ⟨_, k', _, _, rfl⟩ | ⟨_, _, _, h⟩
      · simp only [Loc.onMutex] at hl hl'
        grind
      · cases h
  | condWait cv m k =>
      rcases Outcome.lift_eq_goto_iff.mp h with ⟨_, k', hstep, _, rfl⟩ | ⟨_, _, _, h⟩
      · simp only [Loc.onMutex, ne_eq, ite_eq_right_iff, not_forall] at hl hl'
        obtain ⟨rfl, hk⟩ := hl
        apply WaitLoc.pending_of_flow (Cond.timedwaitStep_flow hstep) hk (hl' rfl)
      · cases h
  | _ => exact absurd rfl hl

omit [Fintype T] in
/-- A wait on a condition variable comes to the mutex `n` at the entry of one of its
functions. -/
theorem mutexView_entry {n : N} {self : T} {timeout : Bool} {x y : Shared T N} {l' : Loc T N}
    {k' : Mutex.Loc T} (hl : l.onMutex n = none)
    (h : stepInside b self l timeout x = .goto y l') (hk' : l'.onMutex n = some k') :
  (Mutex.machine (T := T) b).entry k' = true
  := by
  cases l with
  | mutex n' k =>
      rcases Outcome.lift_eq_goto_iff.mp h with ⟨_, _, _, _, rfl⟩ | ⟨_, _, _, h⟩
      · simp only [Loc.onMutex] at hl hk'
        grind
      · cases h
  | condWait cv m k =>
      rcases Outcome.lift_eq_goto_iff.mp h with ⟨_, k₁, hstep, _, rfl⟩ | ⟨_, _, _, h⟩
      · have hm : m = n := by
          by_contra hne
          simp [Loc.onMutex, hne] at hk'
        subst hm
        have hk : k.onMutex = none := by simpa [Loc.onMutex] using hl
        have hk₁ : k₁.onMutex = some k' := by simpa [Loc.onMutex] using hk'
        apply WaitLoc.entry_of_flow (Cond.timedwaitStep_flow hstep) hk hk₁
      · cases h
  | _ =>
      rcases Outcome.lift_eq_goto_iff.mp h with ⟨_, _, _, _, rfl⟩ | ⟨_, _, _, h⟩
      · cases hk'
      · cases h

/-- What a wait on a condition variable does in its call of `__pthread_mutex_unlock` is what the
mutex does. -/
theorem mutexView_unlocks {n cv : N} {timed : Bool} {oldtype : CancelType}
    {k : Mutex.UnlockLoc T} {timeout : Bool} {w' : Waits T Unit} (h : Inv s)
    (hw : s.shared.waits.Shows (mutexView n).queue
      ((mutexView n).Waiting (fun t => Loc.role t) s) w')
    (howes : ∀ u ∈ (Mutex.Loc.role () (.unlock k)).owes,
      (mutexView n).Waiting (fun t => Loc.role t) s u) :
  (mutexView n).Answers ((mutexView n).Waiting (fun t => Loc.role t) s) t
    (.condWait cv n (.unlockMutex timed oldtype k))
    (stepInside b t (.condWait cv n (.unlockMutex timed oldtype k)) timeout
      (Shared.resume t s.shared))
    ((Mutex.machine b).step t (.unlock k) timeout ⟨s.shared.obj.mutex (.user n), w'⟩)
  := by
  have hinj : Function.Injective (mutexView (T := T) n).queue :=
    Function.injective_of_subsingleton _
  have hmatch : (Mutex.unlockStep b (.mutex (.user n)) t k
      ⟨s.shared.obj.mutex (.user n), s.shared.waits⟩).Matches
      (World.Shows (mutexView n).queue ((mutexView n).Waiting (fun t => Loc.role t) s))
      (Mutex.unlockStep b () t k ⟨s.shared.obj.mutex (.user n), w'⟩) :=
    Mutex.unlockStep_matches hinj ⟨rfl, hw⟩ (h.sound.linked _) howes
  rw [stepInside, Cond.timedwaitStep, Shared.unlock, Outcome.lift_lift]
  apply View.Answers.lift hmatch
  · intro x
    simp [mutexView]
  · intro k
    exact if_pos rfl
  · rintro x x' r ⟨hobj, hwaits⟩
    refine ⟨x', ?_, hwaits, .inr ⟨?_, r, rfl⟩⟩
    · simp [mutexView, hobj]
    · simp [mutexView, Loc.onMutex, Cond.WaitLoc.onMutex]

omit [Fintype T] in
/-- What a wait on a condition variable does in its call of `__pthread_mutex_lock` is what the
mutex does. -/
theorem mutexView_relocks {n cv : N} {err cancelled : Bool} {k : Mutex.LockLoc} {timeout : Bool}
    {w' : Waits T Unit}
    (hw : s.shared.waits.Shows (mutexView n).queue
      ((mutexView n).Waiting (fun t => Loc.role t) s) w')
    (hown : w'.prevp t = none ↔ s.shared.waits.prevp t = none)
    (hin : ∀ q, (Mutex.Loc.role () (.lock k : Mutex.Loc T)).phase.queue = some q →
      (mutexView n).Waiting (fun t => Loc.role t) s t) :
  (mutexView n).Answers ((mutexView n).Waiting (fun t => Loc.role t) s) t
    (.condWait cv n (.relockMutex err cancelled k))
    (stepInside b t (.condWait cv n (.relockMutex err cancelled k)) timeout
      (Shared.resume t s.shared))
    ((Mutex.machine b).step t (.lock k) timeout ⟨s.shared.obj.mutex (.user n), w'⟩)
  := by
  have hinj : Function.Injective (mutexView (T := T) n).queue :=
    Function.injective_of_subsingleton _
  have hmatch : (Mutex.lockStep b (.mutex (.user n)) t k timeout
      ⟨s.shared.obj.mutex (.user n), s.shared.waits⟩).Matches
      (World.Shows (mutexView n).queue ((mutexView n).Waiting (fun t => Loc.role t) s))
      (Mutex.lockStep b () t k timeout ⟨s.shared.obj.mutex (.user n), w'⟩) :=
    Mutex.lockStep_matches hinj ⟨rfl, hw⟩ hown hin timeout
  rw [stepInside, Cond.timedwaitStep, Shared.lock, Outcome.lift_lift]
  apply View.Answers.lift hmatch
  · intro x
    simp [mutexView]
  · intro k
    exact if_pos rfl
  · rintro x x' r ⟨hobj, hwaits⟩
    refine ⟨x', r, ?_, hwaits, rfl, ?_⟩
    · simp [mutexView, hobj]
    · intro h
      cases h

theorem mutexView_fits (b : Build) (n : N) :
  (mutexView (T := T) n).Fits (machine b) (Mutex.machine b) QueueRef.IsBarrier
    (fun t => Loc.role t) (fun _ => Mutex.Loc.role ()) Acts Inv
  := by
  have hinj : Function.Injective (mutexView (T := T) n).queue :=
    Function.injective_of_subsingleton _
  apply fits_of hinj
  · intro t l q h
    cases h with
    | mutex hk => exact ⟨_, hk⟩
  · intro t l k q hk
    apply mutexView_queue n t q hk
  · intro t l k u hk
    rcases Loc.onMutex_eq_some.mp hk with rfl | ⟨c, timed, oldtype, k, rfl, rfl⟩ |
      ⟨c, err, cancelled, k, rfl, rfl⟩
    · apply Mutex.Loc.pending_role
    · rfl
    · rfl
  · intro t l k he hk
    rcases Loc.onMutex_eq_some.mp hk with rfl | ⟨c, timed, oldtype, k, rfl, rfl⟩ |
      ⟨c, err, cancelled, k, rfl, rfl⟩
    · apply he
    · cases he
    · cases he
  · intro t l l' c x y hl hl' h u
    apply mutexView_settled hl hl' h
  · intro t x
    rfl
  · intro t l c x hl
    apply stepInside_all <;> try (intros; rfl)
    intro n' k y hk
    have hne : n ≠ n' := by
      rintro rfl
      cases hk.symm.trans hl
    simp [mutexView, hne]
  · intro t l c x y l' k' hl h hk'
    apply mutexView_entry hl h hk'
  · intro s t l k c w' h hk hw hown hin howes
    rcases Loc.onMutex_eq_some.mp hk with rfl | ⟨cv, timed, oldtype, k, rfl, rfl⟩ |
      ⟨cv, err, cancelled, k, rfl, rfl⟩
    · have hown' := hown (queue_map (Mutex.Loc.queue_role (mutexView (T := T) n).queue () k)).1
      apply View.Answers.direct
      · apply Mutex.step_matches hinj ⟨rfl, hw⟩ (h.sound.linked _) hown' hin howes
      · intro x
        simp [mutexView]
      · intro k
        apply if_pos rfl
    · apply mutexView_unlocks h hw howes
    · have hown' := hown
        (queue_map (Mutex.Loc.queue_role (mutexView (T := T) n).queue () (.lock k))).1
      apply mutexView_relocks hw hown' hin

theorem rwlockView_fits (b : Build) (n : N) :
  (rwlockView (T := T) n).Fits (machine b) (Rwlock.machine b) QueueRef.IsBarrier
    (fun t => Loc.role t) (fun _ => Rwlock.Loc.role id) Acts Inv
  := by
  have hinj : Function.Injective (rwlockView (T := T) n).queue := by
    intro mode mode' h
    cases h
    rfl
  apply fits_of hinj
  · intro t l q h
    cases h with
    | rwlock hk mode => exact ⟨_, hk⟩
  · intro t l k q hk
    obtain rfl := Loc.onRwlock_eq_some.mp hk
    apply (queue_map (Rwlock.Loc.queue_role _ id k)).2 hinj
  · intro t l k u hk
    obtain rfl := Loc.onRwlock_eq_some.mp hk
    apply Rwlock.Loc.pending_role
  · intro t l k he hk
    obtain rfl := Loc.onRwlock_eq_some.mp hk
    apply he
  · intro t l l' c x y hl hl' h
    apply absurd ((stepInside_stays h n).1.mp hl') hl
  · intro t x
    rfl
  · intro t l c x hl
    apply stepInside_all <;> try (intros; rfl)
    intro n' k y hk
    have hne : n ≠ n' := by
      rintro rfl
      cases hk.symm.trans hl
    simp [rwlockView, hne]
  · intro t l c x y l' k' hl h hk'
    cases hk'.symm.trans ((stepInside_stays h n).1.mpr hl)
  · intro s t l k c w' h hk hw hown hin howes
    obtain rfl := Loc.onRwlock_eq_some.mp hk
    have hown' := hown (queue_map (Rwlock.Loc.queue_role (rwlockView (T := T) n).queue id k)).1
    apply View.Answers.direct
    · apply Rwlock.step_matches hinj ⟨rfl, hw⟩ (h.sound.linked _) hown' hin howes
    · intro x
      simp [rwlockView]
    · intro k
      apply if_pos rfl

theorem semView_fits (b : Build) (n : N) :
  (semView (T := T) n).Fits (machine b) (Semaphore.machine b) QueueRef.IsBarrier
    (fun t => Loc.role t) (fun _ => Semaphore.Loc.role ()) Acts Inv
  := by
  have hinj : Function.Injective (semView (T := T) n).queue := Function.injective_of_subsingleton _
  apply fits_of hinj
  · intro t l q h
    cases h with
    | sem hk => exact ⟨_, hk⟩
  · intro t l k q hk
    obtain rfl := Loc.onSem_eq_some.mp hk
    apply (queue_map (Semaphore.Loc.queue_role _ () k)).2 hinj
  · intro t l k u hk
    obtain rfl := Loc.onSem_eq_some.mp hk
    apply Semaphore.Loc.pending_role
  · intro t l k he hk
    obtain rfl := Loc.onSem_eq_some.mp hk
    apply he
  · intro t l l' c x y hl hl' h
    apply absurd ((stepInside_stays h n).2.1.mp hl') hl
  · intro t x
    rfl
  · intro t l c x hl
    apply stepInside_all <;> try (intros; rfl)
    intro n' k y hk
    have hne : n ≠ n' := by
      rintro rfl
      cases hk.symm.trans hl
    simp [semView, hne]
  · intro t l c x y l' k' hl h hk'
    cases hk'.symm.trans ((stepInside_stays h n).2.1.mpr hl)
  · intro s t l k c w' h hk hw hown hin howes
    obtain rfl := Loc.onSem_eq_some.mp hk
    have hown' := hown (queue_map (Semaphore.Loc.queue_role (semView (T := T) n).queue () k)).1
    apply View.Answers.direct
    · apply Semaphore.step_matches hinj ⟨rfl, hw⟩ (h.sound.linked _) hown' hin howes
    · intro x
      simp [semView]
    · intro k
      apply if_pos rfl

theorem barrierView_fits (b : Build) (n : N) :
  (barrierView (T := T) n).Fits (machine b) (Barrier.machine b) QueueRef.IsBarrier
    (fun t => Loc.role t) (fun _ => Barrier.Loc.role ()) Acts Inv
  := by
  have hinj : Function.Injective (barrierView (T := T) n).queue :=
    Function.injective_of_subsingleton _
  apply fits_of hinj
  · intro t l q h
    cases h with
    | barrier hk => exact ⟨_, hk⟩
  · intro t l k q hk
    obtain rfl := Loc.onBarrier_eq_some.mp hk
    apply (queue_map (Barrier.Loc.queue_role _ () k)).2 hinj
  · intro t l k u hk
    obtain rfl := Loc.onBarrier_eq_some.mp hk
    apply Barrier.Loc.pending_role
  · intro t l k he hk
    obtain rfl := Loc.onBarrier_eq_some.mp hk
    obtain rfl : k = .start := by simpa [Loc.entry] using he
    rfl
  · intro t l l' c x y hl hl' h
    apply absurd ((stepInside_stays h n).2.2.mp hl') hl
  · intro t x
    rfl
  · intro t l c x hl
    apply stepInside_all <;> try (intros; rfl)
    intro n' k y hk
    have hne : n ≠ n' := by
      rintro rfl
      cases hk.symm.trans hl
    simp [barrierView, hne]
  · intro t l c x y l' k' hl h hk'
    cases hk'.symm.trans ((stepInside_stays h n).2.2.mpr hl)
  · intro s t l k c w' h hk hw hown hin howes
    obtain rfl := Loc.onBarrier_eq_some.mp hk
    have hown' := hown (queue_map (Barrier.Loc.queue_role (barrierView (T := T) n).queue () k)).1
    apply View.Answers.direct
    · apply Barrier.waitStep_matches hinj ⟨rfl, hw⟩ hown' hin howes
    · intro x
      simp [barrierView]
    · intro k
      apply if_pos rfl

/-! ### Each object alone -/

/-- The object that `V` shows has run in the process as though it were alone, and what a thread in a
call of one of its functions is about to do, a failure of an assertion included, is what it would do
there, unless the thread has been redirected. -/
def Alone {Obj' Q' Loc' : Type} [DecidableEq Q'] (b : Build)
    (V : View T (Objects T N) (QueueRef T N) (Loc T N) Obj' Q' Loc')
    (M' : Machine T (World Obj' T Q') Loc' Ret) (o : Obj') (s : Sys T N) : Prop :=
  ∃ s', M'.Reach (fun _ _ => True) (State.idle ⟨o, Waits.empty⟩) s' ∧
    V.Shows (fun t => Loc.role t) s s' ∧
    ∀ t l k c, s.loc t = some l → V.loc t l = some k → ¬ RedirectedInside s t →
      V.Answers (V.Waiting (fun t => Loc.role t) s) t l
        ((callExitMachine b).step t l c s.shared) (M'.step t k c s'.shared)

variable {attr : N → Option MutexType} {value count : N → Nat}

/-- An object that fits has run as though it were alone. -/
theorem alone_of_fits {Obj' Q' Loc' : Type} [DecidableEq Q']
    {V : View T (Objects T N) (QueueRef T N) (Loc T N) Obj' Q' Loc'}
    {M' : Machine T (World Obj' T Q') Loc' Ret} {role' : T → Loc' → Role T Q'} {bar' : Q' → Prop}
    (hfits : V.Fits (machine b) M' QueueRef.IsBarrier (fun t => Loc.role t) role' Acts Inv)
    (hM' : Conforms M' bar' role' (fun _ => True))
    (hs : (machine b).Reach (fun _ _ => True) (start attr value count) s) :
  Alone b V M' (V.obj (Objects.init attr value count)) s
  := by
  have hrun : ∃ s', M'.Reach (fun _ _ => True)
      (State.idle ⟨V.obj (Objects.init attr value count), Waits.empty⟩) s' ∧
      V.Shows (fun t => Loc.role t) s s' ∧ ∀ t l k c, s.loc t = some l → V.loc t l = some k →
        V.Answers (V.Waiting (fun t => Loc.role t) s) t l ((machine b).step t l c s.shared)
          (M'.step t k c s'.shared) := by
    apply hfits.run hM' (fun _ => Inv.of_reach) _ hs
    intros
    trivial
  obtain ⟨s', hs', hsees, hanswers⟩ := hrun
  use s', hs', hsees
  intro t l k c hl hk hinside
  have heq : (callExitMachine b).step t l c s.shared = (machine b).step t l c s.shared :=
    callExitStep_eq hl hinside
  rw [heq]
  apply hanswers t l k c hl hk

/-- In every run of a process in which no call is given up, with any other objects, cancellation and
time-outs included, the calls on each mutex, those inside of waits on condition variables too, on
each rwlock, on each semaphore and on each barrier are a run of this object alone. -/
theorem objects_alone
    (hs : (callExitMachine b).Reach Undisturbed (start attr value count) s) (n : N) :
  Alone b (mutexView n) (Mutex.machine b) (Mutex.init (attr n)) s ∧
    Alone b (rwlockView n) (Rwlock.machine b) Rwlock.init s ∧
    Alone b (semView n) (Semaphore.machine b) (Semaphore.init (value n)) s ∧
    Alone b (barrierView n) (Barrier.machine b) ⟨false, count n, count n⟩ s
  := by
  have hs := reach_of_undisturbed hs
  refine ⟨?_, ?_, ?_, ?_⟩
  · apply alone_of_fits (mutexView_fits b n) (Mutex.conforms b) hs
  · apply alone_of_fits (rwlockView_fits b n) (Rwlock.conforms b) hs
  · apply alone_of_fits (semView_fits b n) (Semaphore.conforms b) hs
  · apply alone_of_fits (barrierView_fits b n) (Barrier.conforms b) hs

/-- The thread `0` has released the mutex inside of a wait, and the thread `1` has taken it. -/
theorem objects_alone_waiting :
  ∃ s, (callExitMachine .debug).Reach Undisturbed
      (start (T := Fin 2) (N := Unit) (fun _ => none) (fun _ => 0) (fun _ => 1)) s ∧
    s.loc 0 = some (.condWait () () (.wait .deferred (.block false))) ∧
    (s.shared.obj.mutex (.user ())).held = true ∧
    Alone .debug (mutexView ()) (Mutex.machine .debug) (Mutex.init none) s ∧
    Alone .debug (rwlockView ()) (Rwlock.machine .debug) Rwlock.init s ∧
    Alone .debug (semView ()) (Semaphore.machine .debug) (Semaphore.init 0) s ∧
    Alone .debug (barrierView ()) (Barrier.machine .debug) ⟨false, 1, 1⟩ s
  := by
  obtain ⟨s, hs, hp⟩ := Machine.exists_reach_of_run (M := callExitMachine .debug)
    (G := Undisturbed)
    (s := start (T := Fin 2) (N := Unit) (fun _ => none) (fun _ => 0) (fun _ => 1))
    [.call 0 (.mutex () (.lock (.start none))), .act 0 false,
      .call 0 (.condWait () () (.start none)), .act 0 false, .act 0 false, .act 0 false,
      .act 0 false, .act 0 false, .call 1 (.mutex () (.lock (.start none))), .act 1 false]
    (fun s => decide (s.loc 0 = some (.condWait () () (.wait .deferred (.block false)))) &&
      (s.shared.obj.mutex (.user ())).held) (by decide +kernel)
  simp only [Bool.and_eq_true, decide_eq_true_eq] at hp
  use s, hs, hp.1, hp.2
  apply objects_alone hs ()

end Fits

end Process

end LibPthread
