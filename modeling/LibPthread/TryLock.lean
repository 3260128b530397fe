import LibPthread.Mutex.Functions
import LibPthread.Rwlock.Functions
import LibPthread.Semaphore.Functions

/-!
# Try variants

`__pthread_mutex_trylock`, `pthread_rwlock_tryrdlock`, `pthread_rwlock_trywrlock` and
`__sem_trywait` are copies of the first sections of the functions that block. From any state
of the object they succeed exactly when the function that blocks would return 0 from its first
section.
-/

open Concurrency

namespace LibPthread

/-- The try variant succeeds exactly when the blocking function does so at once, with the same
result. If the assertions on its path hold, it otherwise leaves everything as it was and returns
`busy`; if not, both functions fail. -/
structure Agree {σ L L' : Type} (asserted : Prop) (tried : Outcome σ L Ret)
    (locked : Outcome σ L' Ret) (s : σ) (busy : Ret) : Prop where
  zero : ∀ s', tried = .ret s' .zero ↔ locked = .ret s' .zero
  busy : asserted → (∀ s', tried ≠ .ret s' .zero) → tried = .ret s busy
  fails : ¬ asserted → tried = .fault ∧ locked = .fault

namespace Agree

variable {σ L L' : Type} {asserted : Prop} {tried : Outcome σ L Ret} {locked : Outcome σ L' Ret}
    {s x : σ} {busy : Ret}

theorem of_zero (h : asserted) (htried : tried = .ret x .zero) (hlocked : locked = .ret x .zero) :
  Agree asserted tried locked s busy
  := by
  subst htried hlocked
  constructor
  · intro s'
    simp
  · intro _ hnot
    exact absurd rfl (hnot x)
  · intro hnot
    exact absurd h hnot

theorem of_busy (h : asserted) (hbusy : busy ≠ .zero) (htried : tried = .ret s busy)
    (hlocked : ∀ s', locked ≠ .ret s' .zero) :
  Agree asserted tried locked s busy
  := by
  subst htried
  constructor
  · intro s'
    simp [hlocked s', hbusy]
  · intro _ _
    rfl
  · intro hnot
    exact absurd h hnot

theorem of_fault (h : ¬ asserted) (htried : tried = .fault) (hlocked : locked = .fault) :
  Agree asserted tried locked s busy
  := by
  subst htried hlocked
  constructor
  · intro s'
    simp
  · intro hasserted
    exact absurd hasserted h
  · intro _
    exact ⟨rfl, rfl⟩

end Agree

variable {T Q : Type} [DecidableEq T] [DecidableEq Q] {b : Build} {q : Q} {self : T}

/-! ### Mutexes -/

namespace Mutex

/-- The assertion of the lock functions on a mutex that is free. -/
def Asserted (b : Build) (mx : Mutex T) : Prop :=
  mx.held = false → b.alwaysTrackMutexOwner = true → b.ndebug = false → mx.owner = none

/-- The mutex that the lock functions leave when they acquire a free one. -/
def grabbed (b : Build) (self : T) (mx : Mutex T) : Mutex T :=
  { mx with
    held := true
    owner := if mx.tracked b then some self else mx.owner
    locks := if mx.attr = some .recursive then 1 else mx.locks }

omit [DecidableEq T] [DecidableEq Q] in
/-- The branch that the lock functions take on a free mutex. -/
theorem grab_eq {L : Type} {mx : Mutex T} {w : Waits T Q} (hfree : mx.held = false)
    (hlock : mx.lock = false) (h : Asserted b mx) :
  (grab b self { mx with lock := true, held := true } w : Outcome _ L _) =
    .ret ⟨grabbed b self mx, w⟩ .zero
  := by
  obtain ⟨held, lock, attr, owner, locks⟩ := mx
  obtain rfl : lock = false := hlock
  have howner := h hfree
  simp only [grab, grabbed, tracked, isNormal, Build.assert]
  rcases attr with _ | _ | _ | _ <;> grind

omit [DecidableEq T] [DecidableEq Q] in
theorem grab_fault {L : Type} {mx : Mutex T} {w : Waits T Q} (h : ¬ Asserted b mx) :
  (grab b self { mx with lock := true, held := true } w : Outcome _ L _) = .fault
  := by
  simp only [Asserted] at h
  simp only [grab, Build.assert]
  grind

/-- `__pthread_mutex_trylock` agrees with `__pthread_mutex_lock`. -/
theorem trylock_agrees {L : Type} {s : World (Mutex T) T Q} (hlock : s.obj.lock = false) :
  Agree (Asserted b s.obj) (trylock b self s : Outcome _ L _)
    (lockStart b q self none s.obj s.waits) s (.error .EBUSY)
  := by
  by_cases hheld : s.obj.held = true
  · have hasserted : Asserted b s.obj := by
      intro hfree
      rw [hheld] at hfree
      cases hfree
    by_cases hagain : s.obj.attr = some .recursive ∧ s.obj.owner = some self
    · obtain ⟨hattr, howner⟩ := hagain
      apply Agree.of_zero hasserted (x := ⟨{ s.obj with locks := incLocks s.obj.locks }, s.waits⟩)
      · simp [trylock, hlock, hheld, hattr, howner]
      · simp [lockStart, hlock, hheld, hattr, howner]
    · apply Agree.of_busy hasserted (by decide)
      · have hsame := release_lock hlock
        rw [trylock, if_neg (by simp [hlock])]
        rw [if_pos hheld]
        dsimp only
        split
        · rename_i hattr
          rw [if_neg (fun howner => hagain ⟨hattr, howner⟩), hsame]
        · rw [hsame]
      · intro s' h
        obtain ⟨-, -, ⟨hfree, -⟩ | ⟨-, hattr, howner, -⟩ | ⟨-, -, -, hr, -⟩ | ⟨-, hbad, -⟩⟩ :=
          lockStart_eq_ret h
        · rw [hheld] at hfree
          cases hfree
        · exact hagain ⟨hattr, howner⟩
        · cases hr
        · cases hbad
  · have hfree : s.obj.held = false := by simpa using hheld
    by_cases hasserted : Asserted b s.obj
    · apply Agree.of_zero hasserted (x := ⟨grabbed b self s.obj, s.waits⟩)
      · rw [trylock, if_neg (by simp [hlock]), if_neg (by simp [hfree])]
        exact grab_eq hfree hlock hasserted
      · rw [lockStart, if_neg (by simp [hlock]), if_neg (by simp [hfree])]
        exact grab_eq hfree hlock hasserted
    · apply Agree.of_fault hasserted
      · rw [trylock, if_neg (by simp [hlock]), if_neg (by simp [hfree])]
        exact grab_fault hasserted
      · rw [lockStart, if_neg (by simp [hlock]), if_neg (by simp [hfree])]
        exact grab_fault hasserted

end Mutex

/-! ### Rwlocks -/

namespace Rwlock

variable {queue : Mode → Q} {mode : Mode}

/-- The assertions of the lock functions on an rwlock that they acquire at once. -/
def Asserted (b : Build) (queue : Mode → Q) (mode : Mode) (rw : Rwlock) (w : Waits T Q) : Prop :=
  b.ndebug = false →
    (rw.held = false → w.queue (queue .rd) = [] ∧ w.queue (queue .wr) = [] ∧ rw.readers = 0) ∧
    (rw.held = true → mode = .rd → 0 < rw.readers → w.queue (queue .rd) = [])

omit [DecidableEq T] [DecidableEq Q] in
/-- The branch that the lock functions take on a free rwlock. -/
theorem grab_eq {L : Type} {readers : Int} {rw : Rwlock} {w : Waits T Q} (hfree : rw.held = false)
    (h : Asserted b queue mode rw w) :
  (grab b queue readers { rw with lock := true } w : Outcome _ L _) =
    .ret ⟨⟨true, false, readers⟩, w⟩ .zero
  := by
  simp only [Asserted, hfree] at h
  simp only [grab, Build.assert]
  grind

omit [DecidableEq T] [DecidableEq Q] in
theorem grab_fault {L : Type} {readers : Int} {rw : Rwlock} {w : Waits T Q}
    (hfree : rw.held = false) (h : ¬ Asserted b queue mode rw w) :
  (grab b queue readers { rw with lock := true } w : Outcome _ L _) = .fault
  := by
  simp only [Asserted, hfree] at h
  simp only [grab, Build.assert]
  grind

omit [DecidableEq T] [DecidableEq Q] in
/-- The branch that the read lock functions take on an rwlock that readers hold. -/
theorem join_eq {L : Type} {rw : Rwlock} {w : Waits T Q} (hheld : rw.held = true)
    (hreaders : 0 < rw.readers) (h : Asserted b queue .rd rw w) :
  (join b queue { rw with lock := true } w : Outcome _ L _) =
    .ret ⟨⟨true, false, toInt (rw.readers + 1)⟩, w⟩ .zero
  := by
  simp only [Asserted, hheld] at h
  simp only [join, Build.assert]
  grind

omit [DecidableEq T] [DecidableEq Q] in
theorem join_fault {L : Type} {rw : Rwlock} {w : Waits T Q} (hheld : rw.held = true)
    (h : ¬ Asserted b queue .rd rw w) :
  (join b queue { rw with lock := true } w : Outcome _ L _) = .fault
  := by
  simp only [Asserted, hheld] at h
  simp only [join, Build.assert]
  grind

/-- `pthread_rwlock_tryrdlock` agrees with `pthread_rwlock_rdlock`. -/
theorem tryrdlock_agrees {L : Type} {s : World Rwlock T Q} (hlock : s.obj.lock = false) :
  Agree (Asserted b queue .rd s.obj s.waits) (tryrdlock b queue s : Outcome _ L _)
    (rdlockStart b queue self none s.obj s.waits) s (.error .EBUSY)
  := by
  have hopen : ¬ s.obj.lock = true := by simp [hlock]
  rw [tryrdlock, rdlockStart, if_neg hopen, if_neg hopen]
  dsimp only
  by_cases hfree : s.obj.held = false
  · rw [if_pos hfree, if_pos hfree]
    by_cases hasserted : Asserted b queue .rd s.obj s.waits
    · exact Agree.of_zero hasserted (grab_eq hfree hasserted) (grab_eq hfree hasserted)
    · exact Agree.of_fault hasserted (grab_fault hfree hasserted) (grab_fault hfree hasserted)
  · have hheld : s.obj.held = true := by simpa using hfree
    rw [if_neg hfree, if_neg hfree]
    by_cases hreaders : 0 < s.obj.readers
    · rw [if_pos hreaders, if_pos hreaders]
      by_cases hasserted : Asserted b queue .rd s.obj s.waits
      · exact Agree.of_zero hasserted (join_eq hheld hreaders hasserted)
          (join_eq hheld hreaders hasserted)
      · exact Agree.of_fault hasserted (join_fault hheld hasserted) (join_fault hheld hasserted)
    · rw [if_neg hreaders, if_neg hreaders]
      apply Agree.of_busy _ (by decide)
      · rw [release_lock hlock]
      · intro s' h
        obtain ⟨-, h⟩ := Build.assert_eq_ret_iff.mp h
        cases (lockBusy_eq_ret h).1
      · intro _
        exact ⟨fun h => absurd h hfree, fun _ _ h => absurd h hreaders⟩

/-- `pthread_rwlock_trywrlock` agrees with `pthread_rwlock_wrlock`. -/
theorem trywrlock_agrees {L : Type} {s : World Rwlock T Q} (hlock : s.obj.lock = false) :
  Agree (Asserted b queue .wr s.obj s.waits) (trywrlock b queue s : Outcome _ L _)
    (wrlockStart b queue self none s.obj s.waits) s (.error .EBUSY)
  := by
  have hopen : ¬ s.obj.lock = true := by simp [hlock]
  rw [trywrlock, wrlockStart, if_neg hopen, if_neg hopen]
  dsimp only
  by_cases hfree : s.obj.held = false
  · rw [if_pos hfree, if_pos hfree]
    by_cases hasserted : Asserted b queue .wr s.obj s.waits
    · exact Agree.of_zero hasserted (grab_eq hfree hasserted) (grab_eq hfree hasserted)
    · exact Agree.of_fault hasserted (grab_fault hfree hasserted) (grab_fault hfree hasserted)
  · rw [if_neg hfree, if_neg hfree]
    apply Agree.of_busy _ (by decide)
    · rw [release_lock hlock]
    · intro s' h
      cases (lockBusy_eq_ret h).1
    · intro _
      exact ⟨fun h => absurd h hfree, by simp⟩

end Rwlock

/-! ### Semaphores -/

/-- `__sem_trywait` agrees with `__sem_wait`. -/
theorem Semaphore.trywait_agrees {L : Type} {s : World Semaphore T Q}
    (hlock : s.obj.lock = false) :
  Agree True (trywait s : Outcome _ L _) (waitStart b q self none s.obj s.waits) s
    (.minusOne .EAGAIN)
  := by
  obtain ⟨⟨lock, value⟩, w⟩ := s
  obtain rfl : lock = false := hlock
  by_cases hpos : 0 < value
  · apply Agree.of_zero trivial (x := ⟨⟨false, value - 1⟩, w⟩)
    · simp [trywait, hpos]
    · simp [waitStart, hpos]
  · apply Agree.of_busy trivial (by decide)
    · simp [trywait, hpos]
    · intro s' h
      obtain ⟨-, -, ⟨hvalue, -⟩ | ⟨-, hbad, -⟩⟩ := waitStart_eq_ret h
      · exact hpos hvalue
      · cases hbad

/-- From every state of an object whose internal lock is free, the try variants return 0 if and
only if the blocking functions would return 0 at once, with the same result; otherwise they
return `EBUSY` or `EAGAIN` and change nothing. If an assertion on the way does not hold, both
fail. -/
theorem try_variants_agree (b : Build) (q : Q) (queue : Rwlock.Mode → Q) (self : T) :
  (∀ s : World (Mutex T) T Q, s.obj.lock = false →
      Agree (Mutex.Asserted b s.obj) (Mutex.trylock b self s : Outcome _ Mutex.LockLoc _)
        (Mutex.lockStep b q self (.start none) false s) s (.error .EBUSY)) ∧
    (∀ s : World Rwlock T Q, s.obj.lock = false →
      Agree (Rwlock.Asserted b queue .rd s.obj s.waits)
        (Rwlock.tryrdlock b queue s : Outcome _ Rwlock.LockLoc _)
        (Rwlock.lockStep b queue .rd self (.start none) false s) s (.error .EBUSY)) ∧
    (∀ s : World Rwlock T Q, s.obj.lock = false →
      Agree (Rwlock.Asserted b queue .wr s.obj s.waits)
        (Rwlock.trywrlock b queue s : Outcome _ Rwlock.LockLoc _)
        (Rwlock.lockStep b queue .wr self (.start none) false s) s (.error .EBUSY)) ∧
    (∀ s : World Semaphore T Q, s.obj.lock = false →
      Agree True (Semaphore.trywait s : Outcome _ Semaphore.WaitLoc _)
        (Semaphore.timedwaitStep b q self (.start none) false s) s (.minusOne .EAGAIN))
  := by
  refine ⟨?_, ?_, ?_, ?_⟩
  · intro s hlock
    exact Mutex.trylock_agrees hlock
  · intro s hlock
    exact Rwlock.tryrdlock_agrees hlock
  · intro s hlock
    exact Rwlock.trywrlock_agrees hlock
  · intro s hlock
    exact Semaphore.trywait_agrees hlock

/-- A recursive mutex that its owner has locked three times. -/
def lockedThrice : World (Mutex Unit) Unit Unit :=
  ⟨⟨true, false, some .recursive, some (), 3⟩, Waits.empty⟩

theorem try_variants_agree_lockedThrice :
  (Mutex.trylock .debug () lockedThrice : Outcome _ Mutex.LockLoc _) =
      .ret ⟨{ lockedThrice.obj with locks := 4 }, Waits.empty⟩ .zero ∧
    Mutex.lockStep .debug () () (.start none) false lockedThrice =
      .ret ⟨{ lockedThrice.obj with locks := 4 }, Waits.empty⟩ .zero
  := by
  have htried : (Mutex.trylock .debug () lockedThrice : Outcome _ Mutex.LockLoc _) =
      .ret ⟨{ lockedThrice.obj with locks := 4 }, Waits.empty⟩ .zero := rfl
  use htried
  exact (((try_variants_agree .debug () (fun _ => ()) ()).1 lockedThrice rfl).zero _).mp htried

end LibPthread
