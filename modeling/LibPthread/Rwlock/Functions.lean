import LibPthread.Block

/-!
# The rwlock functions

`struct __pthread_rwlock` and the functions `__pthread_rwlock_timedrdlock_internal`,
`__pthread_rwlock_timedwrlock_internal`, `pthread_rwlock_tryrdlock`,
`pthread_rwlock_trywrlock` and `pthread_rwlock_unlock`, step by step, and the system of
threads that use one rwlock.

An unlock that wakes up all queued readers does so inside its section under `__lock`: it
dequeues all of them and counts them in `readers`, then sends the messages one by one, and
only then releases `__lock`. No function reads `readers` or a link without `__lock` in
between, except the assertions at the end of the lock functions, which hold of the value
before and after.
-/

open Concurrency

namespace LibPthread

/-- `struct __pthread_rwlock` without its queues and the fields that no function reads. -/
structure Rwlock where
  held : Bool
  lock : Bool
  readers : Int
  deriving DecidableEq

namespace Rwlock

/-- `__PTHREAD_RWLOCK_INITIALIZER`. -/
def init : Rwlock where
  held := false
  lock := false
  readers := 0

/-- Locking for reading or for writing. The queues of an rwlock are named in the same
way. -/
inductive Mode where
  | rd
  | wr
  deriving DecidableEq

/-- The control points of the two lock functions. -/
inductive LockLoc where
  /-- At the first section; `abstime` is the argument of the call. -/
  | start (abstime : Option Timespec)
  /-- Linked on the queue of the rwlock. -/
  | wait (stage : Stage)
  /-- At the tail of the function, after `__lock` has been dropped, with the value of
  `err`. -/
  | finish (err : Bool)
  deriving DecidableEq

/-- The control points of `pthread_rwlock_unlock`. -/
inductive UnlockLoc (T : Type) where
  | start
  /-- At `__pthread_wakeup (wakeup)` for a writer, after `__lock` has been dropped. -/
  | wakeup (thread : T)
  /-- At the loop over the dequeued readers, with `__lock` held. -/
  | wakeAll (threads : List T)
  deriving DecidableEq

/-- The phase of a thread inside the lock function whose queue is `q`. -/
def LockLoc.phase {Q : Type} (q : Q) : LockLoc → Phase Q
  | .start _ => .out
  | .wait stage => stage.phase q
  | .finish _ => .out

/-- A thread inside the lock function waits on its queue. -/
theorem LockLoc.queue_phase {Q : Type} {l : LockLoc} {q q' : Q}
    (h : (l.phase q).queue = some q') :
  q = q'
  := by
  cases l with
  | start abstime => cases h
  | wait st =>
      rw [LockLoc.phase, Stage.queue_phase] at h
      apply Option.some.inj h
  | finish err => cases h

/-- The threads that a thread inside the unlock function has dequeued and has still to wake
up. -/
def UnlockLoc.owes {T : Type} : UnlockLoc T → List T
  | .start => []
  | .wakeup thread => [thread]
  | .wakeAll threads => threads

variable {T Q : Type} [DecidableEq T] [DecidableEq Q]

/-- The enqueue of the lock functions, preceded by the test of `abstime`, which returns
without releasing `__lock`. -/
def lockBusy (b : Build) (q : Q) (self : T) (abstime : Option Timespec) (rw : Rwlock)
    (w : Waits T Q) : Outcome (World Rwlock T Q) LockLoc Ret :=
  if badTime abstime then .ret ⟨rw, w⟩ (.error .EINVAL)
  else b.assert (w.prevp self = none)
    (.goto ⟨{ rw with lock := false }, w.enqueue q self⟩ (.wait (.block abstime.isSome)))

/-- The branch of the lock and trylock functions after `__pthread_spin_trylock` has acquired
`__held`, which sets `readers`; `queue` names the two queues. -/
def grab {Loc : Type} (b : Build) (queue : Mode → Q) (readers : Int) (rw : Rwlock)
    (w : Waits T Q) : Outcome (World Rwlock T Q) Loc Ret :=
  b.assert (w.queue (queue .rd) = [])
    (b.assert (w.queue (queue .wr) = [])
      (b.assert (rw.readers = 0)
        (.ret ⟨{ rw with held := true, readers := readers, lock := false }, w⟩ .zero)))

/-- The branch of the read lock functions in which the caller joins the readers. -/
def join {Loc : Type} (b : Build) (queue : Mode → Q) (rw : Rwlock) (w : Waits T Q) :
    Outcome (World Rwlock T Q) Loc Ret :=
  b.assert (w.queue (queue .rd) = [])
    (.ret ⟨{ rw with readers := toInt (rw.readers + 1), lock := false }, w⟩ .zero)

/-- The first section of `__pthread_rwlock_timedrdlock_internal`. -/
def rdlockStart (b : Build) (queue : Mode → Q) (self : T) (abstime : Option Timespec)
    (rw : Rwlock) (w : Waits T Q) : Outcome (World Rwlock T Q) LockLoc Ret :=
  if rw.lock then .spin
  else
    let rw : Rwlock := { rw with lock := true }
    if rw.held = false then grab b queue 1 rw w
    else if 0 < rw.readers then join b queue rw w
    else b.assert (rw.readers = 0) (lockBusy b (queue .rd) self abstime rw w)

/-- The first section of `__pthread_rwlock_timedwrlock_internal`. -/
def wrlockStart (b : Build) (queue : Mode → Q) (self : T) (abstime : Option Timespec)
    (rw : Rwlock) (w : Waits T Q) : Outcome (World Rwlock T Q) LockLoc Ret :=
  if rw.lock then .spin
  else
    let rw : Rwlock := { rw with lock := true }
    if rw.held = false then grab b queue rw.readers rw w
    else lockBusy b (queue .wr) self abstime rw w

/-- The first section of the lock function for the given mode. -/
def lockStart (b : Build) (queue : Mode → Q) (mode : Mode) (self : T)
    (abstime : Option Timespec) (rw : Rwlock) (w : Waits T Q) :
    Outcome (World Rwlock T Q) LockLoc Ret :=
  match mode with
  | .rd => rdlockStart b queue self abstime rw w
  | .wr => wrlockStart b queue self abstime rw w

/-- The tail of the lock functions, with the assertion on `readers`. -/
def lockFinish (b : Build) (mode : Mode) (err : Bool) (rw : Rwlock) (w : Waits T Q) :
    Outcome (World Rwlock T Q) LockLoc Ret :=
  if err then .ret ⟨rw, w⟩ (.error .ETIMEDOUT)
  else
    match mode with
    | .rd => b.assert (0 < rw.readers) (.ret ⟨rw, w⟩ .zero)
    | .wr => b.assert (rw.readers = 0) (.ret ⟨rw, w⟩ .zero)

/-- One step of `__pthread_rwlock_timedrdlock_internal` or, for writing,
`__pthread_rwlock_timedwrlock_internal`. -/
def lockStep (b : Build) (queue : Mode → Q) (mode : Mode) (self : T) :
    LockLoc → Bool → World Rwlock T Q → Outcome (World Rwlock T Q) LockLoc Ret
  | .start abstime, _, s => lockStart b queue mode self abstime s.obj s.waits
  | .wait stage, timeout, s =>
    (waitStep self s.obj.lock stage timeout s.waits).lift (fun w => ⟨s.obj, w⟩) .wait
      (fun s err => .goto s (.finish err))
  | .finish err, _, s => lockFinish b mode err s.obj s.waits

/-- `pthread_rwlock_tryrdlock`. -/
def tryrdlock {Loc : Type} (b : Build) (queue : Mode → Q) (s : World Rwlock T Q) :
    Outcome (World Rwlock T Q) Loc Ret :=
  if s.obj.lock then .spin
  else
    let rw : Rwlock := { s.obj with lock := true }
    if rw.held = false then grab b queue 1 rw s.waits
    else if 0 < rw.readers then join b queue rw s.waits
    else .ret ⟨{ rw with lock := false }, s.waits⟩ (.error .EBUSY)

/-- `pthread_rwlock_trywrlock`. -/
def trywrlock {Loc : Type} (b : Build) (queue : Mode → Q) (s : World Rwlock T Q) :
    Outcome (World Rwlock T Q) Loc Ret :=
  if s.obj.lock then .spin
  else
    let rw : Rwlock := { s.obj with lock := true }
    if rw.held = false then grab b queue rw.readers rw s.waits
    else .ret ⟨{ rw with lock := false }, s.waits⟩ (.error .EBUSY)

/-- `pthread_rwlock_tryrdlock` or `pthread_rwlock_trywrlock`. -/
def trylock {Loc : Type} (b : Build) (queue : Mode → Q) (mode : Mode) (s : World Rwlock T Q) :
    Outcome (World Rwlock T Q) Loc Ret :=
  match mode with
  | .rd => tryrdlock b queue s
  | .wr => trywrlock b queue s

/-- The end of the section of `pthread_rwlock_unlock`: the rwlock is handed over to the first
queued writer or else to all queued readers, without clearing `__held`, or released. -/
def handOver (queue : Mode → Q) (rw : Rwlock) (w : Waits T Q) :
    Outcome (World Rwlock T Q) (UnlockLoc T) Ret :=
  match w.queue (queue .wr) with
  | wakeup :: _ =>
    -- the dequeue writes through `prevp`, so a null link stops it also without assertions
    if w.prevp wakeup = none then .fault
    else .goto ⟨{ rw with lock := false }, w.dequeue wakeup⟩ (.wakeup wakeup)
  | [] =>
    match w.queue (queue .rd) with
    | [] => .ret ⟨{ rw with held := false, lock := false }, w⟩ .zero
    | u :: us =>
      .goto ⟨{ rw with readers := toInt (rw.readers + (u :: us).length) }, w.dequeueAll (queue .rd)⟩
        (.wakeAll (u :: us))

/-- The section of `pthread_rwlock_unlock`. -/
def unlockStart (b : Build) (queue : Mode → Q) (rw : Rwlock) (w : Waits T Q) :
    Outcome (World Rwlock T Q) (UnlockLoc T) Ret :=
  if rw.lock then .spin
  else
    let rw : Rwlock := { rw with lock := true }
    b.assert (rw.held = true)
      (if 1 < rw.readers then
        .ret ⟨{ rw with readers := rw.readers - 1, lock := false }, w⟩ .zero
      else handOver queue (if rw.readers = 1 then { rw with readers := 0 } else rw) w)

/-- One step of `pthread_rwlock_unlock`. -/
def unlockStep (b : Build) (queue : Mode → Q) :
    UnlockLoc T → World Rwlock T Q → Outcome (World Rwlock T Q) (UnlockLoc T) Ret
  | .start, s => unlockStart b queue s.obj s.waits
  | .wakeup thread, s => b.wakeup thread s.waits (fun w => .ret ⟨s.obj, w⟩ .zero)
  | .wakeAll (thread :: threads), s =>
    b.wakeup thread s.waits (fun w => .goto ⟨s.obj, w⟩ (.wakeAll threads))
  | .wakeAll [], s => .ret ⟨{ s.obj with lock := false }, s.waits⟩ .zero

/-! ### What each step does -/

/-- The value of `readers` after the last reader or the writer has left. -/
def lastReaders (rw : Rwlock) : Int :=
  if rw.readers = 1 then 0 else rw.readers

/-- The value of `readers` after a fresh acquisition. -/
def freshReaders (mode : Mode) (rw : Rwlock) : Int :=
  match mode with
  | .rd => 1
  | .wr => rw.readers

variable {b : Build} {queue : Mode → Q} {mode : Mode} {self : T} {abstime : Option Timespec}
    {rw : Rwlock} {w : Waits T Q} {s s' : World Rwlock T Q} {c err : Bool} {r : Ret}

/-- Taking and releasing `__lock` leaves the rwlock as it was. -/
theorem release_lock (hlock : rw.lock = false) :
  { rw with lock := false } = rw
  := by
  obtain ⟨held, lock, readers⟩ := rw
  dsimp only at hlock
  rw [hlock]

omit [DecidableEq T] [DecidableEq Q] in
theorem grab_eq_ret {Loc : Type} {readers : Int}
    (h : (grab b queue readers rw w : Outcome (World Rwlock T Q) Loc Ret) = .ret s' r) :
  r = .zero ∧ s' = ⟨⟨true, false, readers⟩, w⟩
  := by
  simp only [grab, Build.assert_eq_ret_iff] at h
  grind

omit [DecidableEq T] [DecidableEq Q] in
theorem grab_ne_goto {Loc : Type} {readers : Int} {l' : Loc} :
  (grab b queue readers rw w : Outcome (World Rwlock T Q) Loc Ret) ≠ .goto s' l'
  := by
  simp only [grab, ne_eq, Build.assert_eq_goto_iff]
  grind

omit [DecidableEq T] [DecidableEq Q] in
theorem join_eq_ret {Loc : Type}
    (h : (join b queue rw w : Outcome (World Rwlock T Q) Loc Ret) = .ret s' r) :
  r = .zero ∧ s' = ⟨⟨rw.held, false, toInt (rw.readers + 1)⟩, w⟩
  := by
  simp only [join, Build.assert_eq_ret_iff] at h
  grind

omit [DecidableEq T] [DecidableEq Q] in
theorem join_ne_goto {Loc : Type} {l' : Loc} :
  (join b queue rw w : Outcome (World Rwlock T Q) Loc Ret) ≠ .goto s' l'
  := by
  simp only [join, ne_eq, Build.assert_eq_goto_iff]
  grind

theorem lockBusy_eq_goto {q : Q} {l' : LockLoc}
    (h : lockBusy b q self abstime rw w = .goto s' l') :
  badTime abstime = false ∧ s' = ⟨{ rw with lock := false }, w.enqueue q self⟩
    ∧ l' = .wait (.block abstime.isSome)
  := by
  simp only [lockBusy, Build.assert] at h
  grind

theorem lockBusy_eq_ret {q : Q} (h : lockBusy b q self abstime rw w = .ret s' r) :
  badTime abstime = true ∧ s' = ⟨rw, w⟩ ∧ r = .error .EINVAL
  := by
  simp only [lockBusy, Build.assert] at h
  grind

/-- The first section of a lock function blocks only on an rwlock that is held, a reader
only when there are no readers, with a valid time-out, linked on its queue and with `__lock`
released. -/
theorem lockStart_eq_goto {l' : LockLoc}
    (h : lockStart b queue mode self abstime rw w = .goto s' l') :
  rw.lock = false ∧ rw.held = true ∧ (mode = .rd → rw.readers ≤ 0) ∧ badTime abstime = false
    ∧ s' = ⟨rw, w.enqueue (queue mode) self⟩ ∧ l' = .wait (.block abstime.isSome)
  := by
  have hbusy : ∀ q, lockBusy b q self abstime { rw with lock := true } w = .goto s' l' → _ :=
    fun q => lockBusy_eq_goto (q := q)
  cases mode with
  | rd =>
      simp only [lockStart, rdlockStart] at h
      split at h
      · cases h
      · rename_i hlock
        have hsame : { rw with lock := false } = rw := release_lock (by simpa using hlock)
        split at h
        · apply absurd h grab_ne_goto
        · split at h
          · apply absurd h join_ne_goto
          · rw [Build.assert_eq_goto_iff] at h
            have := hbusy _ h.2
            grind
  | wr =>
      simp only [lockStart, wrlockStart] at h
      split at h
      · cases h
      · rename_i hlock
        have hsame : { rw with lock := false } = rw := release_lock (by simpa using hlock)
        split at h
        · apply absurd h grab_ne_goto
        · have := hbusy _ h
          grind

/-- What the first section of a lock function does when the call returns from it: a fresh
acquisition, a further reader, or an error that leaves `__lock` held. -/
theorem lockStart_eq_ret (h : lockStart b queue mode self abstime rw w = .ret s' r) :
  rw.lock = false ∧ s'.waits = w
    ∧ ((rw.held = false ∧ r = .zero ∧ s'.obj = ⟨true, false, rw.freshReaders mode⟩)
      ∨ (rw.held = true ∧ mode = .rd ∧ 0 < rw.readers ∧ r = .zero
        ∧ s'.obj = { rw with readers := toInt (rw.readers + 1) })
      ∨ (rw.held = true ∧ badTime abstime = true ∧ r = .error .EINVAL
        ∧ s'.obj = { rw with lock := true }))
  := by
  have hbusy : ∀ q, lockBusy b q self abstime { rw with lock := true } w = .ret s' r → _ :=
    fun q => lockBusy_eq_ret (q := q)
  cases mode with
  | rd =>
      simp only [lockStart, rdlockStart] at h
      split at h
      · cases h
      · rename_i hlock
        split at h
        · have := grab_eq_ret h
          grind [freshReaders]
        · split at h
          · have := join_eq_ret h
            grind
          · rw [Build.assert_eq_ret_iff] at h
            have := hbusy _ h.2
            grind
  | wr =>
      simp only [lockStart, wrlockStart] at h
      split at h
      · cases h
      · rename_i hlock
        split at h
        · have := grab_eq_ret h
          grind [freshReaders]
        · have := hbusy _ h
          grind

omit [DecidableEq T] [DecidableEq Q] in
theorem lockFinish_ne_goto {l' : LockLoc} :
  lockFinish b mode err rw w ≠ .goto s' l'
  := by
  cases mode <;> simp only [lockFinish, Build.assert] <;> grind

omit [DecidableEq T] [DecidableEq Q] in
/-- The tail of the lock functions changes nothing. -/
theorem lockFinish_eq_ret (h : lockFinish b mode err rw w = .ret s' r) :
  s' = ⟨rw, w⟩ ∧ r = if err then .error .ETIMEDOUT else .zero
  := by
  cases mode <;> simp only [lockFinish, Build.assert] at h <;> grind

omit [DecidableEq T] [DecidableEq Q] in
theorem trylock_ne_goto {Loc : Type} {l' : Loc} :
  (trylock b queue mode s : Outcome (World Rwlock T Q) Loc Ret) ≠ .goto s' l'
  := by
  cases mode with
  | rd =>
      simp only [trylock, tryrdlock]
      split
      · simp
      · split
        · apply grab_ne_goto
        · split
          · apply join_ne_goto
          · simp
  | wr =>
      simp only [trylock, trywrlock]
      split
      · simp
      · split
        · apply grab_ne_goto
        · simp

omit [DecidableEq T] [DecidableEq Q] in
/-- What the trylock functions do: a fresh acquisition, a further reader, or nothing. -/
theorem trylock_eq_ret {Loc : Type}
    (h : (trylock b queue mode s : Outcome (World Rwlock T Q) Loc Ret) = .ret s' r) :
  s.obj.lock = false ∧ s'.waits = s.waits
    ∧ ((s.obj.held = false ∧ r = .zero ∧ s'.obj = ⟨true, false, s.obj.freshReaders mode⟩)
      ∨ (s.obj.held = true ∧ mode = .rd ∧ 0 < s.obj.readers ∧ r = .zero
        ∧ s'.obj = { s.obj with readers := toInt (s.obj.readers + 1) })
      ∨ (s.obj.held = true ∧ r = .error .EBUSY ∧ s'.obj = s.obj))
  := by
  obtain ⟨⟨held, lock, readers⟩, w⟩ := s
  cases mode with
  | rd =>
      simp only [trylock, tryrdlock] at h
      split at h
      · cases h
      · split at h
        · have := grab_eq_ret h
          grind [freshReaders]
        · split at h
          · have := join_eq_ret h
            grind
          · grind
  | wr =>
      simp only [trylock, trywrlock] at h
      split at h
      · cases h
      · split at h
        · have := grab_eq_ret h
          grind [freshReaders]
        · grind

/-- The section of the unlock function goes on to a wakeup only when the last reader or the
writer leaves and threads are queued: the first writer is dequeued or, if there is none, all
readers, with `__lock` still held. -/
theorem unlockStart_eq_goto {l' : UnlockLoc T} (h : unlockStart b queue rw w = .goto s' l') :
  rw.lock = false ∧ rw.readers ≤ 1
    ∧ ((∃ u rest, w.queue (queue .wr) = u :: rest ∧ l' = .wakeup u
        ∧ s' = ⟨⟨rw.held, false, rw.lastReaders⟩, w.dequeue u⟩)
      ∨ (∃ u us, w.queue (queue .wr) = [] ∧ w.queue (queue .rd) = u :: us
        ∧ l' = .wakeAll (u :: us)
        ∧ s' = ⟨⟨rw.held, true, toInt (rw.lastReaders + (u :: us).length)⟩,
          w.dequeueAll (queue .rd)⟩))
  := by
  obtain ⟨held, lock, readers⟩ := rw
  simp only [unlockStart] at h
  split at h
  · cases h
  · rw [Build.assert_eq_goto_iff] at h
    replace h := h.2
    split at h
    · cases h
    · simp only [handOver] at h
      split at h
      · grind [lastReaders]
      · split at h
        · cases h
        · grind [lastReaders]

/-- What the section of the unlock function does when the call returns from it: one of
several readers leaves, or the rwlock is released, with both queues empty. -/
theorem unlockStart_eq_ret (h : unlockStart b queue rw w = .ret s' r) :
  rw.lock = false ∧ r = .zero ∧ s'.waits = w
    ∧ ((1 < rw.readers ∧ s'.obj = { rw with readers := rw.readers - 1 })
      ∨ (rw.readers ≤ 1 ∧ (∀ mode, w.queue (queue mode) = [])
        ∧ s'.obj = ⟨false, false, rw.lastReaders⟩))
  := by
  obtain ⟨held, lock, readers⟩ := rw
  simp only [unlockStart] at h
  split at h
  · cases h
  · rw [Build.assert_eq_ret_iff] at h
    replace h := h.2
    split at h
    · grind
    · simp only [handOver] at h
      split at h
      · grind
      · split at h
        · have hempty : ∀ mode, w.queue (queue mode) = [] := by
            intro mode
            cases mode
            all_goals assumption
          grind [lastReaders]
        · cases h

/-! ### When the assertions hold -/

/-- What the assertions of the functions rely on: the queues are empty while the rwlock is
free, and so is the queue of the readers while there are readers; the readers are counted
in `readers`. -/
structure Consistent (queue : Mode → Q) (rw : Rwlock) (w : Waits T Q) : Prop where
  nonneg : 0 ≤ rw.readers
  free : rw.held = false → rw.readers = 0 ∧ ∀ mode, w.queue (queue mode) = []
  readers : 0 < rw.readers → w.queue (queue .rd) = []

omit [DecidableEq T] [DecidableEq Q] in
theorem grab_ne_fault {Loc : Type} {readers : Int} (hrd : w.queue (queue .rd) = [])
    (hwr : w.queue (queue .wr) = []) (hreaders : rw.readers = 0) :
  (grab b queue readers rw w : Outcome (World Rwlock T Q) Loc Ret) ≠ .fault
  := by
  simp [grab, Build.assert_of, hrd, hwr, hreaders]

omit [DecidableEq T] [DecidableEq Q] in
theorem join_ne_fault {Loc : Type} (hrd : w.queue (queue .rd) = []) :
  (join b queue rw w : Outcome (World Rwlock T Q) Loc Ret) ≠ .fault
  := by
  simp [join, Build.assert_of, hrd]

theorem lockBusy_ne_fault {q : Q} (hprevp : w.prevp self = none) :
  lockBusy b q self abstime rw w ≠ .fault
  := by
  simp only [lockBusy, Build.assert_of hprevp]
  split
  · simp
  · simp

theorem lockStart_ne_fault (hrw : Consistent queue rw w) (hprevp : w.prevp self = none) :
  lockStart b queue mode self abstime rw w ≠ .fault
  := by
  obtain ⟨hnonneg, hfree, hreaders⟩ := hrw
  cases mode with
  | rd =>
      simp only [lockStart, rdlockStart]
      split
      · simp
      · split
        · rename_i hheld
          obtain ⟨hzero, hempty⟩ := hfree hheld
          apply grab_ne_fault (hempty .rd) (hempty .wr) hzero
        · split
          · rename_i hpos
            apply join_ne_fault (hreaders hpos)
          · rename_i hpos
            have hzero : rw.readers = 0 := by
              omega
            rw [Build.assert_of hzero]
            apply lockBusy_ne_fault hprevp
  | wr =>
      simp only [lockStart, wrlockStart]
      split
      · simp
      · split
        · rename_i hheld
          obtain ⟨hzero, hempty⟩ := hfree hheld
          apply grab_ne_fault (hempty .rd) (hempty .wr) hzero
        · apply lockBusy_ne_fault hprevp

omit [DecidableEq T] [DecidableEq Q] in
theorem lockFinish_ne_fault (hrd : err = false → mode = .rd → 0 < rw.readers)
    (hwr : err = false → mode = .wr → rw.readers = 0) :
  lockFinish b mode err rw w ≠ .fault
  := by
  cases mode <;> simp only [lockFinish, Build.assert] <;> grind

omit [DecidableEq T] [DecidableEq Q] in
theorem trylock_ne_fault {Loc : Type} (hrw : Consistent queue s.obj s.waits) :
  (trylock b queue mode s : Outcome (World Rwlock T Q) Loc Ret) ≠ .fault
  := by
  obtain ⟨hnonneg, hfree, hreaders⟩ := hrw
  cases mode with
  | rd =>
      simp only [trylock, tryrdlock]
      split
      · simp
      · split
        · rename_i hheld
          obtain ⟨hzero, hempty⟩ := hfree hheld
          apply grab_ne_fault (hempty .rd) (hempty .wr) hzero
        · split
          · rename_i hpos
            apply join_ne_fault (hreaders hpos)
          · simp
  | wr =>
      simp only [trylock, trywrlock]
      split
      · simp
      · split
        · rename_i hheld
          obtain ⟨hzero, hempty⟩ := hfree hheld
          apply grab_ne_fault (hempty .rd) (hempty .wr) hzero
        · simp

theorem unlockStart_ne_fault (hheld : rw.held = true)
    (hlinked : ∀ u ∈ w.queue (queue .wr), w.prevp u ≠ none) :
  unlockStart b queue rw w ≠ .fault
  := by
  simp only [unlockStart, Build.assert_of hheld]
  split
  · simp
  · split
    · simp
    · simp only [handOver]
      split
      · grind
      · split
        · simp
        · simp

/-! ### The rwlock functions follow the wakeup protocol -/

section Protocol

variable {bar : Q → Prop} {o k : List T}

/-- What a step inside a lock function does. -/
theorem lockStep_eq_goto {l l' : LockLoc} (h : lockStep b queue mode self l c s = .goto s' l') :
  (∃ abstime, l = .start abstime
      ∧ lockStart b queue mode self abstime s.obj s.waits = .goto s' l')
    ∨ (∃ st st' w, l = .wait st ∧ l' = .wait st' ∧ s' = ⟨s.obj, w⟩ ∧
      waitStep self s.obj.lock st c s.waits = .goto w st')
    ∨ (∃ st w err, l = .wait st ∧ l' = .finish err ∧ s' = ⟨s.obj, w⟩ ∧
      waitStep self s.obj.lock st c s.waits = .ret w err)
  := by
  cases l with
  | start abstime =>
      left
      use abstime, rfl, h
  | wait st =>
      right
      rw [lockStep, Outcome.lift_eq_goto_iff] at h
      grind
  | finish err => apply absurd h lockFinish_ne_goto

/-- A call of a lock function returns from its first section or from its tail. -/
theorem lockStep_eq_ret {l : LockLoc} (h : lockStep b queue mode self l c s = .ret s' r) :
  (∃ abstime, l = .start abstime
      ∧ lockStart b queue mode self abstime s.obj s.waits = .ret s' r)
    ∨ (∃ err, l = .finish err ∧ lockFinish b mode err s.obj s.waits = .ret s' r)
  := by
  cases l with
  | start abstime =>
      left
      use abstime, rfl, h
  | wait st =>
      rw [lockStep, Outcome.lift_eq_ret_iff] at h
      grind
  | finish err =>
      right
      use err, rfl, h

theorem lockStep_act {l l' : LockLoc} (hq : ¬ bar (queue mode))
    (h : lockStep b queue mode self l c s = .goto s' l') :
  Act bar (fun q => ∃ mode, queue mode = q) self s.waits ⟨l.phase (queue mode), o, k⟩
    s'.waits ⟨l'.phase (queue mode), o, k⟩
  := by
  rcases lockStep_eq_goto h with ⟨abstime, rfl, hs⟩ | ⟨st, st', w, rfl, rfl, rfl, hw⟩ |
    ⟨st, w, err, rfl, rfl, rfl, hw⟩
  · obtain ⟨-, -, -, -, rfl, rfl⟩ := lockStart_eq_goto hs
    apply Act.enqueue (queue mode) _ rfl hq ⟨mode, rfl⟩
  · apply (waitStep_act hw).mono
    rintro q rfl
    use mode
  · apply (waitStep_act_ret hw).mono
    rintro q rfl
    use mode

theorem lockStep_act_ret {l : LockLoc} (h : lockStep b queue mode self l c s = .ret s' r) :
  Act bar (fun q => ∃ mode, queue mode = q) self s.waits ⟨l.phase (queue mode), o, k⟩
    s'.waits ⟨.out, o, k⟩
  := by
  rcases lockStep_eq_ret h with ⟨abstime, rfl, hs⟩ | ⟨err, rfl, hf⟩
  · rw [(lockStart_eq_ret hs).2.1]
    apply Act.skip
  · rw [(lockFinish_eq_ret hf).1]
    apply Act.skip

/-- What a step inside the unlock function does, if its sends find the ports empty. -/
theorem unlockStep_eq_goto {l l' : UnlockLoc T} (hport : ∀ u ∈ l.owes, s.waits.port u = 0)
    (h : unlockStep b queue l s = .goto s' l') :
  (l = .start ∧ unlockStart b queue s.obj s.waits = .goto s' l')
    ∨ (∃ u us, l = .wakeAll (u :: us) ∧ l' = .wakeAll us ∧ s' = ⟨s.obj, s.waits.send u⟩)
  := by
  cases l with
  | start =>
      left
      use rfl, h
  | wakeup u =>
      simp only [unlockStep, Build.wakeup, Build.assert] at h
      grind
  | wakeAll us =>
      right
      cases us with
      | nil => cases h
      | cons u us =>
          rw [unlockStep, Build.wakeup_of (hport u (by simp [UnlockLoc.owes]))] at h
          obtain ⟨rfl, rfl⟩ := h
          use u, us

/-- A call of the unlock function returns from its section, after its wakeup of a writer, or
after it has woken up all readers. -/
theorem unlockStep_eq_ret {l : UnlockLoc T} (hport : ∀ u ∈ l.owes, s.waits.port u = 0)
    (h : unlockStep b queue l s = .ret s' r) :
  (l = .start ∧ unlockStart b queue s.obj s.waits = .ret s' r)
    ∨ (∃ u, l = .wakeup u ∧ s' = ⟨s.obj, s.waits.send u⟩ ∧ r = .zero)
    ∨ (l = .wakeAll [] ∧ s' = ⟨{ s.obj with lock := false }, s.waits⟩ ∧ r = .zero)
  := by
  cases l with
  | start =>
      left
      use rfl, h
  | wakeup u =>
      right; left
      rw [unlockStep, Build.wakeup_of (hport u (by simp [UnlockLoc.owes]))] at h
      obtain ⟨rfl, rfl⟩ := h
      use u
  | wakeAll us =>
      right; right
      cases us with
      | nil =>
          obtain ⟨rfl, rfl⟩ := h
          use rfl
      | cons u us =>
          rw [unlockStep, Build.wakeup_of (hport u (by simp [UnlockLoc.owes]))] at h
          cases h

theorem unlockStep_act {l l' : UnlockLoc T} {ph : Phase Q}
    (hport : ∀ u ∈ l.owes, s.waits.port u = 0) (h : unlockStep b queue l s = .goto s' l') :
  Act bar (fun q => ∃ mode, queue mode = q) self s.waits ⟨ph, l.owes, k⟩ s'.waits ⟨ph, l'.owes, k⟩
  := by
  rcases unlockStep_eq_goto hport h with ⟨rfl, h⟩ | ⟨u, us, rfl, rfl, rfl⟩
  · obtain ⟨-, -, ⟨u, rest, hq, rfl, rfl⟩ | ⟨u, us, -, hq, rfl, rfl⟩⟩ := unlockStart_eq_goto h
    · apply Act.dequeue (queue .wr) u _ ⟨_, rfl⟩
      simp [hq]
    · have hact : Act bar (fun q => ∃ mode, queue mode = q) self s.waits ⟨ph, [], k⟩
          (s.waits.dequeueAll (queue .rd))
          ⟨ph, s.waits.queue (queue .rd) ++ [], k⟩ := Act.dequeueAll (queue .rd) ⟨_, rfl⟩
      simpa [hq, UnlockLoc.owes] using hact
  · apply Act.send u us rfl

theorem unlockStep_act_ret {l : UnlockLoc T} {ph : Phase Q}
    (hport : ∀ u ∈ l.owes, s.waits.port u = 0) (h : unlockStep b queue l s = .ret s' r) :
  Act bar (fun q => ∃ mode, queue mode = q) self s.waits ⟨ph, l.owes, k⟩ s'.waits ⟨ph, [], k⟩
  := by
  rcases unlockStep_eq_ret hport h with ⟨rfl, h⟩ | ⟨u, rfl, rfl, -⟩ | ⟨rfl, rfl, -⟩
  · rw [(unlockStart_eq_ret h).2.2.1]
    apply Act.skip
  · apply Act.send u [] rfl
  · apply Act.skip

end Protocol

/-! ### Threads using one rwlock -/

/-- The control points of a thread using the rwlock. -/
inductive Loc (T : Type) where
  /-- In one of the four blocking lock functions. -/
  | lock (mode : Mode) (l : LockLoc)
  /-- In `pthread_rwlock_tryrdlock` or `pthread_rwlock_trywrlock`. -/
  | trylock (mode : Mode)
  /-- In `pthread_rwlock_unlock`. -/
  | unlock (l : UnlockLoc T)
  deriving DecidableEq

/-- The control points at which a call starts. -/
def Loc.entry : Loc T → Bool
  | .lock _ (.start _) => true
  | .lock _ (.wait _) => false
  | .lock _ (.finish _) => false
  | .trylock _ => true
  | .unlock .start => true
  | .unlock (.wakeup _) => false
  | .unlock (.wakeAll _) => false

/-- The role of a thread in the wakeup protocol, where `queue` names the two queues. -/
def Loc.role (queue : Mode → Q) : Loc T → Role T Q
  | .lock mode l => ⟨l.phase (queue mode), [], []⟩
  | .trylock _ => .idle
  | .unlock l => ⟨.out, l.owes, []⟩

/-- One step of a thread using the rwlock whose queues are named by `queue`. -/
def step (b : Build) (queue : Mode → Q) (self : T) :
    Loc T → Bool → World Rwlock T Q → Outcome (World Rwlock T Q) (Loc T) Ret
  | .lock mode l, timeout, s =>
    (lockStep b queue mode self l timeout s).lift id (.lock mode) .ret
  | .trylock mode, _, s => trylock b queue mode s
  | .unlock l, _, s => (unlockStep b queue l s).lift id .unlock .ret

section Conformance

variable {bar : Q → Prop} {l l' : Loc T}

omit [DecidableEq T] [DecidableEq Q] in
theorem Loc.role_of_entry (hl : l.entry = true) :
  l.role queue = .idle
  := by
  rcases l with ⟨_, _ | _ | _⟩ | _ | (_ | _ | _)
  all_goals first | rfl | cases hl

theorem step_act (hq : ∀ mode, ¬ bar (queue mode))
    (hport : ∀ u ∈ (l.role queue).owes, s.waits.port u = 0)
    (h : step b queue self l c s = .goto s' l') :
  Act bar (fun q => ∃ mode, queue mode = q) self s.waits (l.role queue) s'.waits (l'.role queue)
  := by
  cases l with
  | lock mode l =>
      simp only [step, Outcome.lift_eq_goto_iff, id_eq] at h
      rcases h with ⟨s₁, l₁, h, rfl, rfl⟩ | ⟨_, _, _, h⟩
      · apply lockStep_act (hq mode) h
      · cases h
  | trylock mode => apply absurd h trylock_ne_goto
  | unlock l =>
      simp only [step, Outcome.lift_eq_goto_iff, id_eq] at h
      rcases h with ⟨s₁, l₁, h, rfl, rfl⟩ | ⟨_, _, _, h⟩
      · apply unlockStep_act hport h
      · cases h

theorem step_act_ret (hport : ∀ u ∈ (l.role queue).owes, s.waits.port u = 0)
    (h : step b queue self l c s = .ret s' r) :
  Act bar (fun q => ∃ mode, queue mode = q) self s.waits (l.role queue) s'.waits .idle
  := by
  cases l with
  | lock mode l =>
      simp only [step, Outcome.lift_eq_ret_iff, id_eq] at h
      obtain ⟨s₁, r₁, h, h'⟩ := h
      obtain ⟨rfl, rfl⟩ := h'
      apply lockStep_act_ret h
  | trylock mode =>
      rw [(trylock_eq_ret h).2.1]
      apply Act.skip
  | unlock l =>
      simp only [step, Outcome.lift_eq_ret_iff, id_eq] at h
      obtain ⟨s₁, r₁, h, h'⟩ := h
      obtain ⟨rfl, rfl⟩ := h'
      apply unlockStep_act_ret hport h

end Conformance

/-- The functions of one rwlock, whose queues are the only ones. -/
def machine (b : Build) : Machine T (World Rwlock T Mode) (Loc T) Ret where
  entry := Loc.entry
  step := step b id

/-- A state of the system. -/
abbrev Sys (T : Type) :=
  State T (World Rwlock T Mode) (Loc T) Ret

/-- The steps of the system are acts of the wakeup protocol. -/
theorem conforms (b : Build) :
  Conforms (machine (T := T) b) (fun _ => False) (fun _ => Loc.role id) (fun _ => True)
  := by
  constructor
  · intro t l he _
    apply Loc.role_of_entry he
  · intro t l c s s' l' _ hport h
    use trivial
    apply (step_act (fun _ => id) hport h).mono (fun _ _ => trivial)
  · intro t l c s s' r _ hport h
    apply (step_act_ret hport h).mono (fun _ _ => trivial)

end Rwlock

end LibPthread
