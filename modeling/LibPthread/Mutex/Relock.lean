import LibPthread.Mutex.System

/-!
# Locking a mutex again

Calls of the lock function without a time-out, and what becomes of the owner of an error-checking
mutex that a thread has released: the thread is not its owner until it asks for the mutex again,
so that its call of the lock function returns 0.
-/

open Concurrency

namespace LibPthread

namespace Mutex

/-- The control points of a call of the lock function without a time-out, as long as no
wait times out. -/
def LockLoc.untimed : LockLoc → Bool
  | .start abstime => abstime.isNone
  | .wait (.block timed) => !timed
  | .wait (.recheck err) => !err
  | .wait .drain => false
  | .finish err => !err

variable {T Q : Type} [DecidableEq T] [DecidableEq Q] {b : Build} {q : Q} {self : T}
    {c : Bool} {s s' : World (Mutex T) T Q} {r : Ret}

/-- What a step inside a lock function without a time-out does. -/
theorem lockStep_goto_of_untimed {l l' : LockLoc} (hl : l.untimed = true)
    (h : lockStep b q self l c s = .goto s' l') :
  s'.obj = s.obj ∧ l'.untimed = true ∧
    ((l = .start none ∧ s.obj.held = true ∧ s'.waits = s.waits.enqueue q self ∧
        l' = .wait (.block false))
      ∨ (l = .wait (.block false) ∧ s'.waits = s.waits.receive self ∧
        l' = .wait (.recheck false))
      ∨ (l = .wait (.recheck false) ∧ l' = .finish false ∧
        ((s.waits.prevp self = none ∧ s'.waits = s.waits)
          ∨ (s.waits.prevp self ≠ none ∧ s'.waits = s.waits.dequeue self))))
  := by
  rcases lockStep_eq_goto h with ⟨abstime, rfl, hstep⟩ | ⟨st, st', w, rfl, rfl, rfl, hstep⟩ |
    ⟨st, w, err, rfl, rfl, rfl, hstep⟩
  · obtain rfl : abstime = none := by simpa [LockLoc.untimed] using hl
    obtain ⟨-, hheld, -, -, rfl, rfl⟩ := lockStart_eq_goto hstep
    use rfl, rfl
    left
    use rfl, hheld, rfl
    rfl
  · rcases waitStep_eq_goto hstep with ⟨timed, rfl, -, rfl, rfl⟩ | ⟨rfl, -⟩ | ⟨rfl, -⟩
    · obtain rfl : timed = false := by simpa [LockLoc.untimed] using hl
      use rfl, rfl
      right; left
      use rfl
    · cases hl
    · cases hl
  · rcases waitStep_eq_ret hstep with ⟨rfl, -, hgone, rfl, rfl⟩ | ⟨rfl, -, hstill, rfl⟩ |
      ⟨rfl, -⟩
    · use rfl, rfl
      right; right
      use rfl, rfl
      left
      use hgone
    · obtain rfl : err = false := by simpa [LockLoc.untimed] using hl
      use rfl, rfl
      right; right
      use rfl, rfl
      right
      use hstill
    · cases hl

/-! ### The owner of an error-checking mutex -/

/-- What a step of `u` makes of the owner of an error-checking mutex: the owner stays, or it
is `u` or a thread of the queue. -/
structure Keeps (u : T) (queue : List T) (mx mx' : Mutex T) : Prop where
  attr : mx'.attr = mx.attr
  owner : mx.attr = some .errorcheck → ∀ t, mx'.owner = some t →
    mx.owner = some t ∨ t = u ∨ t ∈ queue

omit [DecidableEq T] in
/-- A step that leaves the type and the owner alone. -/
theorem Keeps.of_eq {self : T} {queue : List T} {mx mx' : Mutex T} (hattr : mx'.attr = mx.attr)
    (howner : mx'.owner = mx.owner) :
  Keeps self queue mx mx'
  := by
  use hattr
  intro _ t ht
  left
  rw [← howner, ht]

omit [DecidableEq T] in
theorem tracked_of_errorcheck {mx : Mutex T} (h : mx.attr = some .errorcheck) :
  mx.tracked b = true
  := by
  simp [tracked, isNormal, h]

omit [DecidableEq T] in
theorem Granted.owned {mx mx' : Mutex T} (h : Granted b self mx mx') (queue : List T) :
  Keeps self queue mx mx'
  := by
  use h.attr
  intro hattr t ht
  right; left
  rw [h.owner (tracked_of_errorcheck hattr)] at ht
  apply (Option.some.inj ht).symm

theorem lockStep_same {l l' : LockLoc} (h : lockStep b q self l c s = .goto s' l') :
  s'.obj = s.obj
  := by
  rcases lockStep_eq_goto h with ⟨abstime, rfl, hstart⟩ | ⟨_, _, _, -, -, rfl, -⟩ |
    ⟨_, _, _, -, -, rfl, -⟩
  · obtain ⟨-, -, -, -, rfl, -⟩ := lockStart_eq_goto hstart
    rfl
  · rfl
  · rfl

theorem lockStep_owned {l : LockLoc} (h : lockStep b q self l c s = .ret s' r) (queue : List T) :
  Keeps self queue s.obj s'.obj
  := by
  rcases lockStep_eq_ret h with ⟨abstime, rfl, hstart⟩ | ⟨err, rfl, hfinish⟩
  · obtain ⟨-, -, ⟨-, -, hgrant⟩ | ⟨-, -, -, -, hobj⟩ | ⟨-, -, -, -, hobj⟩ | ⟨-, -, -, hobj⟩⟩ :=
      lockStart_eq_ret hstart
    · apply hgrant.owned
    · apply Keeps.of_eq
      · rw [hobj]
      · rw [hobj]
    · apply Keeps.of_eq
      · rw [hobj]
      · rw [hobj]
    · apply Keeps.of_eq
      · rw [hobj]
      · rw [hobj]
  · obtain ⟨-, ⟨-, -, hobj⟩ | ⟨-, -, -, -, hattr, howner, -⟩⟩ := lockFinish_eq_ret hfinish
    · apply Keeps.of_eq
      · rw [hobj]
      · rw [hobj]
    · use hattr
      intro herr t ht
      right; left
      rw [howner (tracked_of_errorcheck herr)] at ht
      apply (Option.some.inj ht).symm

theorem unlockStart_owned {k' : UnlockLoc T}
    (h : unlockStart b q self s.obj s.waits = .goto s' k') :
  Keeps self (s.waits.queue q) s.obj s'.obj ∧
    (s.obj.attr = some .errorcheck → self ∉ s.waits.queue q → s'.obj.owner ≠ some self)
  := by
  obtain ⟨-, u, rest, hq, -, -, -, hrel⟩ := unlockStart_eq_goto h
  have howner : s.obj.attr = some .errorcheck → ∀ t, s'.obj.owner = some t →
      t ∈ s.waits.queue q := by
    intro hattr t ht
    rw [hrel.owner (tracked_of_errorcheck hattr)] at ht
    split at ht
    · cases ht
    · rw [hq, ← Option.some.inj ht]
      apply List.mem_cons_self
  constructor
  · use hrel.attr
    intro hattr t ht
    exact .inr (.inr (howner hattr t ht))
  · intro hattr hself ht
    apply hself (howner hattr self ht)

theorem unlockStart_owned_ret (h : unlockStart b q self s.obj s.waits = .ret s' r) :
  Keeps self (s.waits.queue q) s.obj s'.obj ∧
    (s.obj.attr = some .errorcheck → s'.obj.owner ≠ some self)
  := by
  obtain ⟨-, -, ⟨-, hother, -, hobj⟩ | ⟨hattr, -, -, -, hobj⟩ | ⟨-, -, -, hrel⟩⟩ :=
    unlockStart_eq_ret h
  · refine ⟨Keeps.of_eq (by rw [hobj]) (by rw [hobj]), ?_⟩
    intro _
    rw [hobj]
    apply hother
  · refine ⟨Keeps.of_eq (by rw [hobj]) (by rw [hobj]), ?_⟩
    intro herr
    rw [hattr] at herr
    cases herr
  · have howner : s.obj.attr = some .errorcheck → s'.obj.owner = none := fun hattr =>
      hrel.owner (tracked_of_errorcheck hattr)
    constructor
    · use hrel.attr
      intro hattr t ht
      rw [howner hattr] at ht
      cases ht
    · intro hattr ht
      rw [howner hattr] at ht
      cases ht

/-- What a step inside the unlock function makes of the owner. -/
theorem unlockStep_owned {k k' : UnlockLoc T} (h : unlockStep b q self k s = .goto s' k') :
  Keeps self (s.waits.queue q) s.obj s'.obj
  := by
  obtain ⟨-, hstart⟩ := unlockStep_eq_goto h
  apply (unlockStart_owned hstart).1

theorem unlockStep_owned_ret {k : UnlockLoc T} (hport : ∀ u ∈ k.owes, s.waits.port u = 0)
    (h : unlockStep b q self k s = .ret s' r) :
  Keeps self (s.waits.queue q) s.obj s'.obj
  := by
  rcases unlockStep_eq_ret hport h with ⟨-, hstart⟩ | ⟨u, -, rfl, -⟩
  · apply (unlockStart_owned_ret hstart).1
  · apply Keeps.of_eq rfl rfl

omit [DecidableEq Q] in
theorem trylock_owned {Loc : Type} (queue : List T)
    (h : (trylock b self s : Outcome (World (Mutex T) T Q) Loc Ret) = .ret s' r) :
  Keeps self queue s.obj s'.obj
  := by
  obtain ⟨-, -, ⟨-, -, hgrant⟩ | ⟨-, -, -, -, hobj⟩ | ⟨-, -, hobj⟩⟩ := trylock_eq_ret h
  · apply hgrant.owned
  · apply Keeps.of_eq
    · rw [hobj]
    · rw [hobj]
  · apply Keeps.of_eq
    · rw [hobj]
    · rw [hobj]

/-- A call of the lock function without a time-out returns 0, unless its caller owns an
error-checking mutex already. -/
theorem lockStep_zero {l : LockLoc} (hl : l.untimed = true)
    (howner : ∀ abstime, l = .start abstime → s.obj.attr = some .errorcheck →
      s.obj.owner ≠ some self)
    (h : lockStep b q self l c s = .ret s' r) :
  r = .zero
  := by
  rcases lockStep_eq_ret h with ⟨abstime, rfl, hstart⟩ | ⟨err, rfl, hfinish⟩
  · obtain rfl : abstime = none := by simpa [LockLoc.untimed] using hl
    obtain ⟨-, -, ⟨-, hr, -⟩ | ⟨-, -, -, hr, -⟩ | ⟨-, hattr, hself, -⟩ | ⟨-, hbad, -⟩⟩ :=
      lockStart_eq_ret hstart
    · apply hr
    · apply hr
    · apply absurd hself (howner none rfl hattr)
    · cases hbad
  · obtain rfl : err = false := by simpa [LockLoc.untimed] using hl
    obtain ⟨-, ⟨herr, -⟩ | ⟨-, hr, -⟩⟩ := lockFinish_eq_ret hfinish
    · cases herr
    · apply hr

end Mutex

end LibPthread
