import LibPthread.Block

/-!
# The mutex functions

`struct __pthread_mutex` and the functions `__pthread_mutex_timedlock_internal`,
`__pthread_mutex_trylock` and `__pthread_mutex_unlock`, step by step: each section under
`__lock` is one step, and so are each receive, each send and the part of the lock function
that runs after `__lock` has been dropped. The queue of the mutex is one of the queues of
`Waits`, named by the parameter `q`; its other fields are those of `Mutex`.

The calling thread is always known to the library, so the tests of `_pthread_self ()` for
a thread that has no structure yet are taken to succeed.
-/

open Concurrency

namespace LibPthread

/-- `enum __pthread_mutex_type`. -/
inductive MutexType where
  | normal
  | errorcheck
  | recursive
  deriving DecidableEq

/-- `struct __pthread_mutex` without its queue. `attr` is `none` for a null pointer, and
otherwise the type in the attributes it resolves to; `locks` is an `unsigned`. -/
structure Mutex (T : Type) where
  held : Bool
  lock : Bool
  attr : Option MutexType
  owner : Option T
  locks : Nat
  deriving DecidableEq

namespace Mutex

variable {T Q : Type}

/-- `__PTHREAD_MUTEX_INITIALIZER`, with the given attributes. -/
def init (attr : Option MutexType) : Mutex T where
  held := false
  lock := false
  attr := attr
  owner := none
  locks := 0

/-- `! attr || attr->mutex_type == PTHREAD_MUTEX_NORMAL`. -/
def isNormal (mx : Mutex T) : Bool :=
  match mx.attr with
  | none => true
  | some .normal => true
  | some .errorcheck => false
  | some .recursive => false

/-- `mutex->locks ++` in `unsigned` arithmetic. -/
def incLocks (locks : Nat) : Nat :=
  (locks + 1) % 2 ^ 32

/-- `-- mutex->locks` in `unsigned` arithmetic. -/
def decLocks (locks : Nat) : Nat :=
  (locks + (2 ^ 32 - 1)) % 2 ^ 32

/-- The control points of `__pthread_mutex_timedlock_internal`. -/
inductive LockLoc where
  /-- At the section that tries `__held`; `abstime` is the argument of the call. -/
  | start (abstime : Option Timespec)
  /-- Linked on the queue of the mutex. -/
  | wait (stage : Stage)
  /-- At the tail of the function, after `__lock` has been dropped, with the value of
  `err`. -/
  | finish (err : Bool)
  deriving DecidableEq

/-- The control points of `__pthread_mutex_unlock`. -/
inductive UnlockLoc (T : Type) where
  | start
  /-- At `__pthread_wakeup (wakeup)`. -/
  | wakeup (thread : T)
  deriving DecidableEq

variable [DecidableEq T] [DecidableEq Q]

/-- The branch taken by the lock and trylock functions after `__pthread_spin_trylock` has
acquired `__held`, with `__lock` held. -/
def grab {Loc : Type} (b : Build) (self : T) (mx : Mutex T) (w : Waits T Q) :
    Outcome (World (Mutex T) T Q) Loc Ret :=
  let switch (mx : Mutex T) : Outcome (World (Mutex T) T Q) Loc Ret :=
    let mx :=
      match mx.attr with
      | none => mx
      | some .normal => mx
      | some .recursive => { mx with locks := 1, owner := some self }
      | some .errorcheck => { mx with owner := some self }
    .ret ⟨{ mx with lock := false }, w⟩ .zero
  if b.alwaysTrackMutexOwner ∧ ¬ b.ndebug then
    b.assert (mx.owner = none) (switch { mx with owner := some self })
  else switch mx

/-- The rest of the first section of the lock function once the mutex is known to be held
by another thread: the assertion on `owner`, the test of `abstime`, which returns without
releasing `__lock`, and the enqueue. -/
def lockBusy (b : Build) (q : Q) (self : T) (abstime : Option Timespec) (mx : Mutex T)
    (w : Waits T Q) : Outcome (World (Mutex T) T Q) LockLoc Ret :=
  let enqueue : Outcome (World (Mutex T) T Q) LockLoc Ret :=
    if badTime abstime then .ret ⟨mx, w⟩ (.error .EINVAL)
    else b.assert (w.prevp self = none)
      (.goto ⟨{ mx with lock := false }, w.enqueue q self⟩ (.wait (.block abstime.isSome)))
  if b.alwaysTrackMutexOwner ∨ ¬ mx.isNormal then b.assert (mx.owner ≠ none) enqueue
  else enqueue

/-- The first section of `__pthread_mutex_timedlock_internal`. -/
def lockStart (b : Build) (q : Q) (self : T) (abstime : Option Timespec) (mx : Mutex T)
    (w : Waits T Q) : Outcome (World (Mutex T) T Q) LockLoc Ret :=
  if mx.lock then .spin
  else
    let mx := { mx with lock := true }
    if mx.held then
      match mx.attr with
      | some .errorcheck =>
        if mx.owner = some self then .ret ⟨{ mx with lock := false }, w⟩ (.error .EDEADLK)
        else lockBusy b q self abstime mx w
      | some .recursive =>
        if mx.owner = some self then
          .ret ⟨{ mx with locks := incLocks mx.locks, lock := false }, w⟩ .zero
        else lockBusy b q self abstime mx w
      | _ =>
        if b.alwaysTrackMutexOwner then
          b.assert (mx.owner ≠ some self) (lockBusy b q self abstime mx w)
        else lockBusy b q self abstime mx w
    else grab b self { mx with held := true } w

/-- The tail of `__pthread_mutex_timedlock_internal`. -/
def lockFinish (b : Build) (self : T) (err : Bool) (mx : Mutex T) (w : Waits T Q) :
    Outcome (World (Mutex T) T Q) LockLoc Ret :=
  if err then .ret ⟨mx, w⟩ (.error .ETIMEDOUT)
  else
    let switch : Outcome (World (Mutex T) T Q) LockLoc Ret :=
      match mx.attr with
      | none => .ret ⟨mx, w⟩ .zero
      | some .normal => .ret ⟨mx, w⟩ .zero
      | some .recursive =>
        b.assert (mx.locks = 0) (.ret ⟨{ mx with locks := 1, owner := some self }, w⟩ .zero)
      | some .errorcheck => .ret ⟨{ mx with owner := some self }, w⟩ .zero
    if b.alwaysTrackMutexOwner ∨ ¬ mx.isNormal then b.assert (mx.owner = some self) switch
    else switch

/-- One step of `__pthread_mutex_timedlock_internal`. -/
def lockStep (b : Build) (q : Q) (self : T) :
    LockLoc → Bool → World (Mutex T) T Q → Outcome (World (Mutex T) T Q) LockLoc Ret
  | .start abstime, _, s => lockStart b q self abstime s.obj s.waits
  | .wait stage, timeout, s =>
    (waitStep self s.obj.lock stage timeout s.waits).lift (fun w => ⟨s.obj, w⟩) .wait
      (fun s err => .goto s (.finish err))
  | .finish err, _, s => lockFinish b self err s.obj s.waits

/-- `__pthread_mutex_trylock`. -/
def trylock {Loc : Type} (b : Build) (self : T) (s : World (Mutex T) T Q) :
    Outcome (World (Mutex T) T Q) Loc Ret :=
  if s.obj.lock then .spin
  else
    let mx := { s.obj with lock := true }
    if mx.held then
      match mx.attr with
      | some .recursive =>
        if mx.owner = some self then
          .ret ⟨{ mx with locks := incLocks mx.locks, lock := false }, s.waits⟩ .zero
        else .ret ⟨{ mx with lock := false }, s.waits⟩ (.error .EBUSY)
      | _ => .ret ⟨{ mx with lock := false }, s.waits⟩ (.error .EBUSY)
    else grab b self { mx with held := true } s.waits

/-- The end of the section of `__pthread_mutex_unlock` in which the mutex is released, or
handed over to the first thread of the queue without clearing `__held`. -/
def handOver (b : Build) (q : Q) (mx : Mutex T) (w : Waits T Q) :
    Outcome (World (Mutex T) T Q) (UnlockLoc T) Ret :=
  match w.queue q with
  | [] => .ret ⟨{ mx with held := false, lock := false }, w⟩ .zero
  | wakeup :: _ =>
    -- the dequeue writes through `prevp`, so a null link stops it also without assertions
    if w.prevp wakeup = none then .fault
    else
      let owner :=
        if ¬ b.ndebug ∧ (b.alwaysTrackMutexOwner ∨ ¬ mx.isNormal) then some wakeup
        else mx.owner
      .goto ⟨{ mx with owner := owner, lock := false }, w.dequeue wakeup⟩ (.wakeup wakeup)

/-- The section of `__pthread_mutex_unlock`. -/
def unlockStart (b : Build) (q : Q) (self : T) (mx : Mutex T) (w : Waits T Q) :
    Outcome (World (Mutex T) T Q) (UnlockLoc T) Ret :=
  if mx.lock then .spin
  else
    let mx := { mx with lock := true }
    match mx.attr with
    | some .errorcheck =>
      if mx.owner = some self then handOver b q { mx with owner := none } w
      else .ret ⟨{ mx with lock := false }, w⟩ (.error .EPERM)
    | some .recursive =>
      if mx.owner = some self then
        let mx := { mx with locks := decLocks mx.locks }
        if 0 < mx.locks then .ret ⟨{ mx with lock := false }, w⟩ .zero
        else handOver b q { mx with owner := none } w
      else .ret ⟨{ mx with lock := false }, w⟩ (.error .EPERM)
    | _ =>
      if b.alwaysTrackMutexOwner ∧ ¬ b.ndebug then
        b.assert (mx.owner ≠ none)
          (b.assert (mx.owner = some self) (handOver b q { mx with owner := none } w))
      else handOver b q mx w

/-- One step of `__pthread_mutex_unlock`. -/
def unlockStep (b : Build) (q : Q) (self : T) :
    UnlockLoc T → World (Mutex T) T Q → Outcome (World (Mutex T) T Q) (UnlockLoc T) Ret
  | .start, s => unlockStart b q self s.obj s.waits
  | .wakeup thread, s => b.wakeup thread s.waits (fun w => .ret ⟨s.obj, w⟩ .zero)

/-! ### What each step does -/

/-- The build maintains `owner` for this mutex: always unless the mutex is normal, and for
normal ones as a debugging aid. -/
def tracked (b : Build) (mx : Mutex T) : Bool :=
  !mx.isNormal || (b.alwaysTrackMutexOwner && !b.ndebug)

/-- `mx'` is `mx` granted to `t`: `owner` and `locks` are set as the type of the mutex asks
for. -/
structure Granted (b : Build) (t : T) (mx mx' : Mutex T) : Prop where
  held : mx'.held = true
  lock : mx'.lock = false
  attr : mx'.attr = mx.attr
  owner : mx.tracked b = true → mx'.owner = some t
  locks : mx.attr = some .recursive → mx'.locks = 1

/-- `mx'` is `mx` after its owner `t` has released it, and `owner` is what the release
leaves there. -/
structure Released (b : Build) (t : T) (mx mx' : Mutex T) (owner : Option T) : Prop where
  lock : mx'.lock = false
  attr : mx'.attr = mx.attr
  was : mx.tracked b = true → mx.owner = some t
  owner : mx.tracked b = true → mx'.owner = owner
  last : mx.attr = some .recursive → decLocks mx.locks = 0 ∧ mx'.locks = 0

variable {b : Build} {q : Q} {self : T} {abstime : Option Timespec} {mx : Mutex T}
    {w : Waits T Q} {s s' : World (Mutex T) T Q} {c err : Bool} {r : Ret}

omit [DecidableEq T] in
/-- Taking and releasing `__lock` leaves the mutex as it was. -/
theorem release_lock (hlock : mx.lock = false) :
  { mx with lock := false } = mx
  := by
  obtain ⟨held, lock, attr, owner, locks⟩ := mx
  dsimp only at hlock
  rw [hlock]

omit [DecidableEq T] [DecidableEq Q] in
theorem grab_eq_ret {Loc : Type}
    (h : (grab b self { mx with lock := true, held := true } w
      : Outcome (World (Mutex T) T Q) Loc Ret) = .ret s' r) :
  r = .zero ∧ s'.waits = w ∧ Granted b self mx s'.obj
  := by
  obtain ⟨held, lock, attr, owner, locks⟩ := mx
  have hgrant : r = .zero ∧ s'.waits = w ∧ s'.obj.held = true ∧ s'.obj.lock = false
      ∧ s'.obj.attr = attr
      ∧ ((attr ≠ none ∧ attr ≠ some .normal) ∨ (b.alwaysTrackMutexOwner ∧ ¬ b.ndebug) →
        s'.obj.owner = some self)
      ∧ (attr = some .recursive → s'.obj.locks = 1) := by
    simp only [grab, Build.assert] at h
    grind
  obtain ⟨hr, hw, hheld, hlock, hattr, howner, hlocks⟩ := hgrant
  use hr, hw, hheld, hlock, hattr
  intro hn
  apply howner
  simp only [tracked, Bool.or_eq_true, Bool.not_eq_true', Bool.and_eq_true] at hn
  apply hn.imp _ (by simp)
  intro hn
  constructor
  all_goals
    rintro rfl
    simp [isNormal] at hn

omit [DecidableEq T] [DecidableEq Q] in
theorem grab_ne_goto {Loc : Type} {l' : Loc} :
  (grab b self mx w : Outcome (World (Mutex T) T Q) Loc Ret) ≠ .goto s' l'
  := by
  simp only [grab, Build.assert]
  grind

theorem lockBusy_eq_goto {l' : LockLoc} (h : lockBusy b q self abstime mx w = .goto s' l') :
  badTime abstime = false ∧ s' = ⟨{ mx with lock := false }, w.enqueue q self⟩
    ∧ l' = .wait (.block abstime.isSome)
  := by
  simp only [lockBusy, Build.assert] at h
  grind

theorem lockBusy_eq_ret (h : lockBusy b q self abstime mx w = .ret s' r) :
  badTime abstime = true ∧ s' = ⟨mx, w⟩ ∧ r = .error .EINVAL
  := by
  simp only [lockBusy, Build.assert] at h
  grind

/-- The first section of the lock function blocks only on a mutex that is held, with a
valid time-out, linked on its queue and with `__lock` released. -/
theorem lockStart_eq_goto {l' : LockLoc} (h : lockStart b q self abstime mx w = .goto s' l') :
  mx.lock = false ∧ mx.held = true ∧ (mx.tracked b = true → mx.owner ≠ some self)
    ∧ badTime abstime = false ∧ s' = ⟨mx, w.enqueue q self⟩
    ∧ l' = .wait (.block abstime.isSome)
  := by
  obtain ⟨held, lock, attr, owner, locks⟩ := mx
  have hgrab : (grab b self ⟨true, true, attr, owner, locks⟩ w
      : Outcome (World (Mutex T) T Q) LockLoc Ret) ≠ .goto s' l' := grab_ne_goto
  have hbusy : lockBusy b q self abstime ⟨held, true, attr, owner, locks⟩ w = .goto s' l' → _ :=
    lockBusy_eq_goto
  rcases attr with _ | _ | _ | _
  all_goals
    simp only [lockStart, Build.assert] at h
    grind [isNormal, tracked]

/-- What the first section of the lock function does when the call returns from it: a fresh
acquisition, a further one by the owner of a recursive mutex, or an error. The section that
finds the time-out invalid leaves `__lock` held. -/
theorem lockStart_eq_ret (h : lockStart b q self abstime mx w = .ret s' r) :
  mx.lock = false ∧ s'.waits = w
    ∧ ((mx.held = false ∧ r = .zero ∧ Granted b self mx s'.obj)
      ∨ (mx.held = true ∧ mx.attr = some .recursive ∧ mx.owner = some self ∧ r = .zero
        ∧ s'.obj = { mx with locks := incLocks mx.locks })
      ∨ (mx.held = true ∧ mx.attr = some .errorcheck ∧ mx.owner = some self
        ∧ r = .error .EDEADLK ∧ s'.obj = mx)
      ∨ (mx.held = true ∧ badTime abstime = true ∧ r = .error .EINVAL
        ∧ s'.obj = { mx with lock := true }))
  := by
  have hbusy : lockBusy b q self abstime { mx with lock := true } w = .ret s' r → _ :=
    lockBusy_eq_ret
  rw [lockStart] at h
  split at h
  · cases h
  · rename_i hlock
    rw [Bool.not_eq_true] at hlock
    have hsame := release_lock hlock
    dsimp only at h
    split at h
    · rename_i hheld
      split at h
      · split at h
        · grind
        · grind
      · split at h
        · grind
        · grind
      · simp only [Build.assert] at h
        grind
    · obtain ⟨hr, hw, hgrant⟩ := grab_eq_ret h
      grind

omit [DecidableEq Q] in
/-- What the tail of the lock function does. -/
theorem lockFinish_eq_ret (h : lockFinish b self err mx w = .ret s' r) :
  s'.waits = w
    ∧ ((err = true ∧ r = .error .ETIMEDOUT ∧ s'.obj = mx)
      ∨ (err = false ∧ r = .zero ∧ s'.obj.held = mx.held ∧ s'.obj.lock = mx.lock
        ∧ s'.obj.attr = mx.attr ∧ (mx.tracked b = true → s'.obj.owner = some self)
        ∧ (mx.attr = some .recursive → s'.obj.locks = 1)))
  := by
  cases err with
  | true => grind [lockFinish]
  | false =>
      obtain ⟨held, lock, attr, owner, locks⟩ := mx
      rcases attr with _ | _ | _ | _
      all_goals
        simp only [lockFinish, Build.assert, isNormal] at h
        grind [isNormal, tracked]

omit [DecidableEq Q] in
theorem lockFinish_ne_goto {l' : LockLoc} :
  lockFinish b self err mx w ≠ .goto s' l'
  := by
  obtain ⟨held, lock, attr, owner, locks⟩ := mx
  rcases attr with _ | _ | _ | _
  all_goals
    simp only [lockFinish, Build.assert]
    grind

omit [DecidableEq Q] in
theorem trylock_ne_goto {Loc : Type} {l' : Loc} :
  (trylock b self s : Outcome (World (Mutex T) T Q) Loc Ret) ≠ .goto s' l'
  := by
  obtain ⟨⟨held, lock, attr, owner, locks⟩, w⟩ := s
  have hgrab : (grab b self ⟨true, true, attr, owner, locks⟩ w
      : Outcome (World (Mutex T) T Q) Loc Ret) ≠ .goto s' l' := grab_ne_goto
  rcases attr with _ | _ | _ | _
  all_goals
    simp only [trylock]
    grind

omit [DecidableEq Q] in
/-- What `__pthread_mutex_trylock` does: a fresh acquisition, a further one by the owner of
a recursive mutex, or nothing. -/
theorem trylock_eq_ret {Loc : Type}
    (h : (trylock b self s : Outcome (World (Mutex T) T Q) Loc Ret) = .ret s' r) :
  s.obj.lock = false ∧ s'.waits = s.waits
    ∧ ((s.obj.held = false ∧ r = .zero ∧ Granted b self s.obj s'.obj)
      ∨ (s.obj.held = true ∧ s.obj.attr = some .recursive ∧ s.obj.owner = some self
        ∧ r = .zero ∧ s'.obj = { s.obj with locks := incLocks s.obj.locks })
      ∨ (s.obj.held = true ∧ r = .error .EBUSY ∧ s'.obj = s.obj))
  := by
  rw [trylock] at h
  split at h
  · cases h
  · rename_i hlock
    rw [Bool.not_eq_true] at hlock
    have hsame := release_lock hlock
    dsimp only at h
    split at h
    · split at h
      · split at h
        · grind
        · grind
      · grind
    · obtain ⟨hr, hw, hgrant⟩ := grab_eq_ret h
      grind

/-- A mutex that has been prepared for its release is handed over to the first thread of
the queue. -/
theorem handOver_eq_goto (self : T) (mx : Mutex T) {mx₀ : Mutex T} {l' : UnlockLoc T}
    (h : handOver b q mx₀ w = .goto s' l') (hattr : mx₀.attr = mx.attr)
    (hwas : mx.tracked b = true → mx.owner = some self)
    (howner : mx.tracked b = true → mx₀.owner = none)
    (hlast : mx.attr = some .recursive → decLocks mx.locks = 0 ∧ mx₀.locks = 0) :
  ∃ u rest, w.queue q = u :: rest ∧ l' = .wakeup u ∧ s'.waits = w.dequeue u
    ∧ s'.obj.held = mx₀.held ∧ Released b self mx s'.obj (if b.ndebug then none else some u)
  := by
  have hnormal : mx₀.isNormal = mx.isNormal := by
    simp [isNormal, hattr]
  rw [handOver] at h
  split at h
  · cases h
  · rename_i u rest hq
    split at h
    · cases h
    · obtain ⟨rfl, rfl⟩ := h
      use u, rest, hq, rfl, rfl, rfl, rfl, hattr, hwas
      intro hn
      dsimp only
      grind [tracked]

/-- A mutex that has been prepared for its release is released when its queue is empty. -/
theorem handOver_eq_ret (self : T) (mx : Mutex T) {mx₀ : Mutex T}
    (h : handOver b q mx₀ w = .ret s' r) (hattr : mx₀.attr = mx.attr)
    (hwas : mx.tracked b = true → mx.owner = some self)
    (howner : mx.tracked b = true → mx₀.owner = none)
    (hlast : mx.attr = some .recursive → decLocks mx.locks = 0 ∧ mx₀.locks = 0) :
  w.queue q = [] ∧ r = .zero ∧ s'.waits = w ∧ s'.obj.held = false
    ∧ Released b self mx s'.obj none
  := by
  rw [handOver] at h
  split at h
  · rename_i hq
    obtain ⟨rfl, rfl⟩ := h
    use hq, rfl, rfl, rfl, rfl, hattr, hwas, howner
  · split at h
    · cases h
    · cases h

/-- The section of the unlock function goes on to a wakeup only when it has released the
mutex and handed it over to the first thread of the queue. -/
theorem unlockStart_eq_goto {l' : UnlockLoc T} (h : unlockStart b q self mx w = .goto s' l') :
  mx.lock = false ∧ ∃ u rest, w.queue q = u :: rest ∧ l' = .wakeup u
    ∧ s'.waits = w.dequeue u ∧ s'.obj.held = mx.held
    ∧ Released b self mx s'.obj (if b.ndebug then none else some u)
  := by
  rw [unlockStart] at h
  split at h
  · cases h
  · rename_i hlock
    rw [Bool.not_eq_true] at hlock
    use hlock
    dsimp only at h
    split at h
    · split at h
      · apply handOver_eq_goto self mx h rfl
        all_goals grind
      · cases h
    · split at h
      · split at h
        · cases h
        · apply handOver_eq_goto self mx h rfl
          all_goals grind
      · cases h
    · have hnormal : mx.isNormal = true := by
        grind [isNormal, MutexType]
      split at h
      · simp only [Build.assert_eq_goto_iff] at h
        apply handOver_eq_goto self mx h.2.2 rfl
        all_goals grind
      · apply handOver_eq_goto self mx h rfl
        all_goals grind [tracked]

/-- What the section of the unlock function does when the call returns from it: it refuses
a caller that is not the owner, it undoes one of several acquisitions of a recursive mutex,
or it releases the mutex, whose queue is empty. -/
theorem unlockStart_eq_ret (h : unlockStart b q self mx w = .ret s' r) :
  mx.lock = false ∧ s'.waits = w
    ∧ ((mx.isNormal = false ∧ mx.owner ≠ some self ∧ r = .error .EPERM ∧ s'.obj = mx)
      ∨ (mx.attr = some .recursive ∧ mx.owner = some self ∧ 0 < decLocks mx.locks ∧ r = .zero
        ∧ s'.obj = { mx with locks := decLocks mx.locks })
      ∨ (w.queue q = [] ∧ r = .zero ∧ s'.obj.held = false ∧ Released b self mx s'.obj none))
  := by
  rw [unlockStart] at h
  split at h
  · cases h
  · rename_i hlock
    rw [Bool.not_eq_true] at hlock
    have hsame := release_lock hlock
    use hlock
    dsimp only at h
    split at h
    · split at h
      · obtain ⟨hq, hr, hw, hheld, hrel⟩ := handOver_eq_ret self mx h rfl
          (by grind) (by grind) (by grind)
        use hw
        right; right
        use hq, hr, hheld
      · grind [isNormal]
    · split at h
      · split at h
        · grind
        · obtain ⟨hq, hr, hw, hheld, hrel⟩ := handOver_eq_ret self mx h rfl
            (by grind) (by grind) (by grind)
          use hw
          right; right
          use hq, hr, hheld
      · grind [isNormal]
    · have hnormal : mx.isNormal = true := by
        grind [isNormal, MutexType]
      split at h
      · simp only [Build.assert_eq_ret_iff] at h
        obtain ⟨hq, hr, hw, hheld, hrel⟩ := handOver_eq_ret self mx h.2.2 rfl
          (by grind) (by grind) (by grind)
        use hw
        right; right
        use hq, hr, hheld
      · obtain ⟨hq, hr, hw, hheld, hrel⟩ := handOver_eq_ret self mx h rfl
          (by grind [tracked]) (by grind [tracked]) (by grind)
        use hw
        right; right
        use hq, hr, hheld

/-- An unlock by a thread that is not the owner changes nothing. -/
theorem unlockStart_of_not_owner (hlock : mx.lock = false) (hchecked : mx.isNormal = false)
    (hforeign : mx.owner ≠ some self) :
  unlockStart b q self mx w = .ret ⟨mx, w⟩ (.error .EPERM)
  := by
  obtain ⟨held, lock, attr, owner, locks⟩ := mx
  obtain rfl : lock = false := hlock
  rcases attr with _ | _ | _ | _
  · cases hchecked
  · cases hchecked
  · apply if_neg hforeign
  · apply if_neg hforeign

/-! ### When the assertions hold -/

omit [DecidableEq T] [DecidableEq Q] in
theorem grab_ne_fault {Loc : Type} (howner : mx.owner = none) :
  (grab b self mx w : Outcome (World (Mutex T) T Q) Loc Ret) ≠ .fault
  := by
  simp only [grab, Build.assert, howner]
  grind

/-- The assertions of the first section of the lock function hold for a mutex that is not
normal, whose `owner` is set exactly when it is held, and a caller that is not linked. -/
theorem lockStart_ne_fault (hchecked : mx.isNormal = false)
    (howner : mx.owner.isSome = mx.held) (hprevp : w.prevp self = none) :
  lockStart b q self abstime mx w ≠ .fault
  := by
  obtain ⟨held, lock, attr, owner, locks⟩ := mx
  dsimp only at howner
  have hbusy : held = true →
      lockBusy b q self abstime ⟨held, true, attr, owner, locks⟩ w ≠ .fault := by
    intro hheld
    simp only [lockBusy, Build.assert]
    grind
  have hgrab : held = false → (grab b self ⟨true, true, attr, owner, locks⟩ w
      : Outcome (World (Mutex T) T Q) LockLoc Ret) ≠ .fault := by
    intro hheld
    apply grab_ne_fault
    simpa [hheld] using howner
  rcases attr with _ | _ | _ | _
  all_goals
    simp only [lockStart, Build.assert]
    grind [isNormal]

omit [DecidableEq Q] in
theorem trylock_ne_fault {Loc : Type} (howner : s.obj.held = false → s.obj.owner = none) :
  (trylock b self s : Outcome (World (Mutex T) T Q) Loc Ret) ≠ .fault
  := by
  obtain ⟨⟨held, lock, attr, owner, locks⟩, w⟩ := s
  have hgrab : held = false → (grab b self ⟨true, true, attr, owner, locks⟩ w
      : Outcome (World (Mutex T) T Q) Loc Ret) ≠ .fault := by
    intro hheld
    apply grab_ne_fault
    grind
  rcases attr with _ | _ | _ | _
  all_goals
    simp only [trylock]
    grind

omit [DecidableEq Q] in
/-- The assertions of the tail of the lock function hold for a thread that was handed the
mutex. -/
theorem lockFinish_ne_fault
    (howner : b.ndebug = false → mx.tracked b = true → mx.owner = some self)
    (hlocks : mx.attr = some .recursive → mx.locks = 0) :
  lockFinish b self false mx w ≠ .fault
  := by
  obtain ⟨held, lock, attr, owner, locks⟩ := mx
  rcases attr with _ | _ | _ | _
  all_goals
    simp only [lockFinish, Build.assert, isNormal, tracked] at *
    grind

omit [DecidableEq Q] in
/-- The tail of the lock function returns `0` to a thread that has not timed out, unless an
assertion fails. -/
theorem lockFinish_exists_ret (h : lockFinish b self false mx w ≠ .fault) :
  ∃ s', lockFinish b self false mx w = .ret s' .zero
  := by
  obtain ⟨held, lock, attr, owner, locks⟩ := mx
  rcases attr with _ | _ | _ | _
  all_goals
    simp only [lockFinish, Build.assert] at h ⊢
    grind

end Mutex

end LibPthread
