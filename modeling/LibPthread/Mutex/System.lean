import LibPthread.Mutex.Functions

/-!
# Threads using one mutex

The system of threads that call the lock, trylock and unlock functions on one mutex, and
the fact that its steps follow the wakeup protocol. The conformance lemmas are stated for
any queue, so that they serve also where a mutex is one object among others.
-/

open Concurrency

namespace LibPthread

namespace Mutex

variable {T Q : Type}

/-- The phase of a thread inside the lock function of the mutex with queue `q`. -/
def LockLoc.phase (q : Q) : LockLoc → Phase Q
  | .start _ => .out
  | .wait stage => stage.phase q
  | .finish _ => .out

/-- A thread inside the lock function waits on the queue of the mutex. -/
theorem LockLoc.queue_phase {l : LockLoc} {q q' : Q} (h : (l.phase q).queue = some q') :
  q = q' ∧ ∃ st, l = .wait st
  := by
  cases l with
  | start abstime => cases h
  | wait st =>
      rw [LockLoc.phase, Stage.queue_phase] at h
      use Option.some.inj h, st
  | finish err => cases h

/-- The threads that a thread inside the unlock function has dequeued and has still to wake
up. -/
def UnlockLoc.owes : UnlockLoc T → List T
  | .start => []
  | .wakeup thread => [thread]

/-- The queue on which a step inside the unlock function of the mutex with queue `q` acts. -/
def UnlockLoc.queue (q : Q) : UnlockLoc T → Option Q
  | .start => some q
  | .wakeup _ => none

variable [DecidableEq T] [DecidableEq Q]

/-! ### The mutex functions follow the wakeup protocol -/

section Protocol

variable {b : Build} {bar on : Q → Prop} {q : Q} {self : T} {c : Bool} {r : Ret}
    {s s' : World (Mutex T) T Q} {o k : List T}

/-- What a step inside the lock function does. -/
theorem lockStep_eq_goto {l l' : LockLoc} (h : lockStep b q self l c s = .goto s' l') :
  (∃ abstime, l = .start abstime ∧ lockStart b q self abstime s.obj s.waits = .goto s' l')
    ∨ (∃ st st' w, l = .wait st ∧ l' = .wait st' ∧ s' = ⟨s.obj, w⟩ ∧
      waitStep self s.obj.lock st c s.waits = .goto w st')
    ∨ (∃ st w err, l = .wait st ∧ l' = .finish err ∧ s' = ⟨s.obj, w⟩ ∧
      waitStep self s.obj.lock st c s.waits = .ret w err)
  := by
  cases l with
  | start abstime =>
      left
      use abstime, rfl, h
  | wait st =>
      right
      rw [lockStep, Outcome.lift_eq_goto_iff] at h
      grind
  | finish err => apply absurd h lockFinish_ne_goto

/-- A call of the lock function returns from its first section or from its tail. -/
theorem lockStep_eq_ret {l : LockLoc} (h : lockStep b q self l c s = .ret s' r) :
  (∃ abstime, l = .start abstime ∧ lockStart b q self abstime s.obj s.waits = .ret s' r)
    ∨ (∃ err, l = .finish err ∧ lockFinish b self err s.obj s.waits = .ret s' r)
  := by
  cases l with
  | start abstime =>
      left
      use abstime, rfl, h
  | wait st =>
      rw [lockStep, Outcome.lift_eq_ret_iff] at h
      grind
  | finish err =>
      right
      use err, rfl, h

theorem lockStep_act {l l' : LockLoc} (hq : ¬ bar q)
    (h : lockStep b q self l c s = .goto s' l') :
  Act bar (Eq q) self s.waits ⟨l.phase q, o, k⟩ s'.waits ⟨l'.phase q, o, k⟩
  := by
  rcases lockStep_eq_goto h with ⟨abstime, rfl, hs⟩ | ⟨st, st', w, rfl, rfl, rfl, hw⟩ |
    ⟨st, w, err, rfl, rfl, rfl, hw⟩
  · obtain ⟨-, -, -, -, rfl, rfl⟩ := lockStart_eq_goto hs
    apply Act.enqueue q _ rfl hq rfl
  · apply waitStep_act hw
  · apply waitStep_act_ret hw

theorem lockStep_act_ret {l : LockLoc} (h : lockStep b q self l c s = .ret s' r) :
  Act bar on self s.waits ⟨l.phase q, o, k⟩ s'.waits ⟨.out, o, k⟩
  := by
  rcases lockStep_eq_ret h with ⟨abstime, rfl, hs⟩ | ⟨err, rfl, hf⟩
  · rw [(lockStart_eq_ret hs).2.1]
    apply Act.skip
  · rw [(lockFinish_eq_ret hf).1]
    apply Act.skip

/-- What a step inside the unlock function does. -/
theorem unlockStep_eq_goto {l l' : UnlockLoc T} (h : unlockStep b q self l s = .goto s' l') :
  l = .start ∧ unlockStart b q self s.obj s.waits = .goto s' l'
  := by
  cases l with
  | start => use rfl, h
  | wakeup u =>
      simp only [unlockStep, Build.wakeup, Build.assert] at h
      grind

/-- A call of the unlock function returns from its section or after its wakeup, whose send
finds the port empty. -/
theorem unlockStep_eq_ret {l : UnlockLoc T} (hport : ∀ u ∈ l.owes, s.waits.port u = 0)
    (h : unlockStep b q self l s = .ret s' r) :
  (l = .start ∧ unlockStart b q self s.obj s.waits = .ret s' r)
    ∨ (∃ u, l = .wakeup u ∧ s' = ⟨s.obj, s.waits.send u⟩ ∧ r = .zero)
  := by
  cases l with
  | start =>
      left
      use rfl, h
  | wakeup u =>
      right
      rw [unlockStep, Build.wakeup_of (hport u (by simp [UnlockLoc.owes]))] at h
      obtain ⟨rfl, rfl⟩ := h
      use u

theorem unlockStep_act {l l' : UnlockLoc T} {ph : Phase Q}
    (h : unlockStep b q self l s = .goto s' l') :
  Act bar (fun q' => l.queue q = some q') self s.waits ⟨ph, l.owes, k⟩ s'.waits ⟨ph, l'.owes, k⟩
  := by
  obtain ⟨rfl, h⟩ := unlockStep_eq_goto h
  obtain ⟨-, u, rest, hq, rfl, hw, -, -⟩ := unlockStart_eq_goto h
  rw [hw]
  refine Act.dequeue q u ?_ rfl
  simp [hq]

theorem unlockStep_act_ret {l : UnlockLoc T} {ph : Phase Q}
    (hport : ∀ u ∈ l.owes, s.waits.port u = 0) (h : unlockStep b q self l s = .ret s' r) :
  Act bar on self s.waits ⟨ph, l.owes, k⟩ s'.waits ⟨ph, [], k⟩
  := by
  rcases unlockStep_eq_ret hport h with ⟨rfl, h⟩ | ⟨u, rfl, rfl, -⟩
  · rw [(unlockStart_eq_ret h).2.1]
    apply Act.skip
  · apply Act.send u [] rfl

end Protocol

/-! ### The system -/

/-- The control points of a thread using the mutex. -/
inductive Loc (T : Type) where
  /-- In `pthread_mutex_lock` or `pthread_mutex_timedlock`. -/
  | lock (l : LockLoc)
  /-- In `pthread_mutex_trylock`. -/
  | trylock
  /-- In `pthread_mutex_unlock`. -/
  | unlock (l : UnlockLoc T)
  deriving DecidableEq

/-- The control points at which a call starts. -/
def Loc.entry : Loc T → Bool
  | .lock (.start _) => true
  | .lock (.wait _) => false
  | .lock (.finish _) => false
  | .trylock => true
  | .unlock .start => true
  | .unlock (.wakeup _) => false

/-- The role of a thread in the wakeup protocol, where `q` is the queue of the mutex. -/
def Loc.role (q : Q) : Loc T → Role T Q
  | .lock l => ⟨l.phase q, [], []⟩
  | .trylock => .idle
  | .unlock l => ⟨.out, l.owes, []⟩

/-- One step of a thread using the mutex with queue `q`. -/
def step (b : Build) (q : Q) (self : T) :
    Loc T → Bool → World (Mutex T) T Q → Outcome (World (Mutex T) T Q) (Loc T) Ret
  | .lock l, timeout, s => (lockStep b q self l timeout s).lift id .lock .ret
  | .trylock, _, s => trylock b self s
  | .unlock l, _, s => (unlockStep b q self l s).lift id .unlock .ret

section Conformance

variable {b : Build} {bar : Q → Prop} {q : Q} {self : T} {l l' : Loc T} {c : Bool} {r : Ret}
    {s s' : World (Mutex T) T Q}

omit [DecidableEq T] [DecidableEq Q] in
theorem Loc.role_of_entry (hl : l.entry = true) :
  l.role q = .idle
  := by
  rcases l with (_ | _ | _) | _ | (_ | _)
  all_goals first | rfl | cases hl

theorem step_act (hq : ¬ bar q) (h : step b q self l c s = .goto s' l') :
  Act bar (Eq q) self s.waits (l.role q) s'.waits (l'.role q)
  := by
  cases l with
  | lock l =>
      simp only [step, Outcome.lift_eq_goto_iff, id_eq] at h
      rcases h with ⟨s₁, l₁, h, rfl, rfl⟩ | ⟨_, _, _, h⟩
      · apply lockStep_act hq h
      · cases h
  | trylock => apply absurd h trylock_ne_goto
  | unlock l =>
      simp only [step, Outcome.lift_eq_goto_iff, id_eq] at h
      rcases h with ⟨s₁, l₁, h, rfl, rfl⟩ | ⟨_, _, _, h⟩
      · apply (unlockStep_act h).mono
        intro q' hq'
        cases l with
        | start => apply Option.some.inj hq'
        | wakeup u => cases hq'
      · cases h

theorem step_act_ret (hport : ∀ u ∈ (l.role q).owes, s.waits.port u = 0)
    (h : step b q self l c s = .ret s' r) :
  Act bar (Eq q) self s.waits (l.role q) s'.waits .idle
  := by
  cases l with
  | lock l =>
      simp only [step, Outcome.lift_eq_ret_iff, id_eq] at h
      obtain ⟨s₁, r₁, h, h'⟩ := h
      obtain ⟨rfl, rfl⟩ := h'
      apply lockStep_act_ret h
  | trylock =>
      rw [(trylock_eq_ret h).2.1]
      apply Act.skip
  | unlock l =>
      simp only [step, Outcome.lift_eq_ret_iff, id_eq] at h
      obtain ⟨s₁, r₁, h, h'⟩ := h
      obtain ⟨rfl, rfl⟩ := h'
      apply unlockStep_act_ret hport h

end Conformance

/-- The functions of one mutex, whose queue is the only one. -/
def machine (b : Build) : Machine T (World (Mutex T) T Unit) (Loc T) Ret where
  entry := Loc.entry
  step := step b ()

/-- A state of the system. -/
abbrev Sys (T : Type) :=
  State T (World (Mutex T) T Unit) (Loc T) Ret

/-- The steps of the system are acts of the wakeup protocol. -/
theorem conforms (b : Build) :
  Conforms (machine (T := T) b) (fun _ => False) (fun _ => Loc.role ()) (fun _ => True)
  := by
  constructor
  · intro t l he _
    apply Loc.role_of_entry he
  · intro t l c s s' l' _ _ h
    use trivial
    apply (step_act id h).mono (fun _ _ => trivial)
  · intro t l c s s' r _ hport h
    apply (step_act_ret hport h).mono (fun _ _ => trivial)

end Mutex

end LibPthread
