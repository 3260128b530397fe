import LibPthread.Block

/-!
# The semaphore functions

`struct __semaphore` and the functions `__sem_init`, `__sem_timedwait_internal`,
`__sem_trywait` and `__sem_post`, step by step, and the system of threads that use one
semaphore. Nothing of the wait function after its wait touches the semaphore, so its last
step is the last step of the wait.
-/

open Concurrency

namespace LibPthread

/-- `struct __semaphore` without its queue and the fields that no function reads. -/
structure Semaphore where
  lock : Bool
  value : Int
  deriving DecidableEq

namespace Semaphore

/-- The semaphore initialised by `__sem_init` with the given `unsigned` value. -/
def init (value : Nat) : Semaphore where
  lock := false
  value := toInt value

/-- The control points of `__sem_timedwait_internal`. -/
inductive WaitLoc where
  /-- At the section that tries to take a token; `timeout` is the argument of the call. -/
  | start (timeout : Option Timespec)
  /-- Linked on the queue of the semaphore. -/
  | blocked (stage : Stage)
  deriving DecidableEq

/-- The control points of `__sem_post`. -/
inductive PostLoc (T : Type) where
  | start
  /-- At `__pthread_wakeup (wakeup)`. -/
  | wakeup (thread : T)
  deriving DecidableEq

/-- The phase of a thread inside the wait function of the semaphore with queue `q`. -/
def WaitLoc.phase {Q : Type} (q : Q) : WaitLoc → Phase Q
  | .start _ => .out
  | .blocked stage => stage.phase q

/-- A thread inside the wait function waits on the queue of the semaphore. -/
theorem WaitLoc.queue_phase {Q : Type} {l : WaitLoc} {q q' : Q}
    (h : (l.phase q).queue = some q') :
  q = q'
  := by
  cases l with
  | start timeout => cases h
  | blocked st =>
      rw [WaitLoc.phase, Stage.queue_phase] at h
      apply Option.some.inj h

/-- The threads that a thread inside the post function has dequeued and has still to wake
up. -/
def PostLoc.owes {T : Type} : PostLoc T → List T
  | .start => []
  | .wakeup thread => [thread]

variable {T Q : Type} [DecidableEq T] [DecidableEq Q]

/-- The first section of `__sem_timedwait_internal`. The test of `timeout` returns without
releasing `__lock`. -/
def waitStart (b : Build) (q : Q) (self : T) (timeout : Option Timespec) (sem : Semaphore)
    (w : Waits T Q) : Outcome (World Semaphore T Q) WaitLoc Ret :=
  if sem.lock then .spin
  else
    let sem := { sem with lock := true }
    if 0 < sem.value then .ret ⟨{ sem with value := sem.value - 1, lock := false }, w⟩ .zero
    else if badTime timeout then .ret ⟨sem, w⟩ (.minusOne .EINVAL)
    else b.assert (w.prevp self = none)
      (.goto ⟨{ sem with lock := false }, w.enqueue q self⟩ (.blocked (.block timeout.isSome)))

/-- One step of `__sem_timedwait_internal`. -/
def timedwaitStep (b : Build) (q : Q) (self : T) :
    WaitLoc → Bool → World Semaphore T Q → Outcome (World Semaphore T Q) WaitLoc Ret
  | .start timeout, _, s => waitStart b q self timeout s.obj s.waits
  | .blocked stage, timeout, s =>
    (waitStep self s.obj.lock stage timeout s.waits).lift (fun w => ⟨s.obj, w⟩) .blocked
      (fun s err => .ret s (if err then .minusOne .ETIMEDOUT else .zero))

/-- `__sem_trywait`. -/
def trywait {Loc : Type} (s : World Semaphore T Q) : Outcome (World Semaphore T Q) Loc Ret :=
  if s.obj.lock then .spin
  else
    let sem := { s.obj with lock := true }
    if 0 < sem.value then .ret ⟨{ sem with value := sem.value - 1, lock := false }, s.waits⟩ .zero
    else .ret ⟨{ sem with lock := false }, s.waits⟩ (.minusOne .EAGAIN)

/-- The section of `__sem_post`. -/
def postStart (b : Build) (q : Q) (sem : Semaphore) (w : Waits T Q) :
    Outcome (World Semaphore T Q) (PostLoc T) Ret :=
  if sem.lock then .spin
  else
    let sem : Semaphore := { sem with lock := true }
    if 0 < sem.value then
      b.assert (w.queue q = [])
        (.ret ⟨{ sem with value := toInt (sem.value + 1), lock := false }, w⟩ .zero)
    else
      match w.queue q with
      | [] => .ret ⟨{ sem with value := 1, lock := false }, w⟩ .zero
      | wakeup :: _ =>
        -- the dequeue writes through `prevp`, so a null link stops it also without assertions
        if w.prevp wakeup = none then .fault
        else .goto ⟨{ sem with lock := false }, w.dequeue wakeup⟩ (.wakeup wakeup)

/-- One step of `__sem_post`. -/
def postStep (b : Build) (q : Q) :
    PostLoc T → World Semaphore T Q → Outcome (World Semaphore T Q) (PostLoc T) Ret
  | .start, s => postStart b q s.obj s.waits
  | .wakeup thread, s => b.wakeup thread s.waits (fun w => .ret ⟨s.obj, w⟩ .zero)

/-! ### What each step does -/

variable {b : Build} {q : Q} {self : T} {timeout : Option Timespec} {sem : Semaphore}
    {w : Waits T Q} {s s' : World Semaphore T Q} {c : Bool} {r : Ret}

/-- The first section of the wait function blocks only when there is no token, with a valid
time-out, linked on the queue and with `__lock` released. -/
theorem waitStart_eq_goto {l' : WaitLoc} (h : waitStart b q self timeout sem w = .goto s' l') :
  sem.lock = false ∧ sem.value ≤ 0 ∧ badTime timeout = false
    ∧ s' = ⟨sem, w.enqueue q self⟩ ∧ l' = .blocked (.block timeout.isSome)
  := by
  obtain ⟨lock, value⟩ := sem
  simp only [waitStart, Build.assert] at h
  grind

/-- What the first section of the wait function does when the call returns from it: it takes
a token, or it finds the time-out invalid and leaves `__lock` held. -/
theorem waitStart_eq_ret (h : waitStart b q self timeout sem w = .ret s' r) :
  sem.lock = false ∧ s'.waits = w
    ∧ ((0 < sem.value ∧ r = .zero ∧ s'.obj = { sem with value := sem.value - 1 })
      ∨ (sem.value ≤ 0 ∧ badTime timeout = true ∧ r = .minusOne .EINVAL
        ∧ s'.obj = { sem with lock := true }))
  := by
  obtain ⟨lock, value⟩ := sem
  simp only [waitStart, Build.assert] at h
  split at h
  · cases h
  · split at h
    · grind
    · grind

omit [DecidableEq T] [DecidableEq Q] in
theorem trywait_ne_goto {Loc : Type} {l' : Loc} :
  (trywait s : Outcome (World Semaphore T Q) Loc Ret) ≠ .goto s' l'
  := by
  simp only [trywait]
  grind

omit [DecidableEq T] [DecidableEq Q] in
/-- What `__sem_trywait` does: it takes a token, or nothing. -/
theorem trywait_eq_ret {Loc : Type}
    (h : (trywait s : Outcome (World Semaphore T Q) Loc Ret) = .ret s' r) :
  s.obj.lock = false ∧ s'.waits = s.waits
    ∧ ((0 < s.obj.value ∧ r = .zero ∧ s'.obj = { s.obj with value := s.obj.value - 1 })
      ∨ (s.obj.value ≤ 0 ∧ r = .minusOne .EAGAIN ∧ s'.obj = s.obj))
  := by
  obtain ⟨⟨lock, value⟩, w⟩ := s
  simp only [trywait] at h
  grind

/-- The section of the post function goes on to a wakeup only when there is no token and it
has dequeued the first thread of the queue. -/
theorem postStart_eq_goto {l' : PostLoc T} (h : postStart b q sem w = .goto s' l') :
  sem.lock = false ∧ sem.value ≤ 0
    ∧ ∃ u rest, w.queue q = u :: rest ∧ l' = .wakeup u ∧ s' = ⟨sem, w.dequeue u⟩
  := by
  obtain ⟨lock, value⟩ := sem
  simp only [postStart, Build.assert] at h
  split at h
  · cases h
  · split at h
    · grind
    · split at h
      · cases h
      · grind

/-- The section of the post function from which the call returns adds a token. -/
theorem postStart_eq_ret (h : postStart b q sem w = .ret s' r) :
  sem.lock = false ∧ s'.waits = w ∧ r = .zero
    ∧ ((0 < sem.value ∧ s'.obj = { sem with value := toInt (sem.value + 1) })
      ∨ (sem.value ≤ 0 ∧ w.queue q = [] ∧ s'.obj = { sem with value := 1 }))
  := by
  obtain ⟨lock, value⟩ := sem
  simp only [postStart, Build.assert] at h
  split at h
  · cases h
  · split at h
    · grind
    · split at h
      · grind
      · grind

theorem postStart_ne_fault (hqueue : 0 < sem.value → w.queue q = [])
    (hlinked : ∀ u ∈ w.queue q, w.prevp u ≠ none) :
  postStart b q sem w ≠ .fault
  := by
  simp only [postStart, Build.assert]
  split
  · simp
  · split
    · grind
    · split
      · simp
      · grind

/-! ### The semaphore functions follow the wakeup protocol -/

section Protocol

variable {bar : Q → Prop} {o k : List T}

/-- What a step inside the wait function does. -/
theorem timedwaitStep_eq_goto {l l' : WaitLoc} (h : timedwaitStep b q self l c s = .goto s' l') :
  (∃ timeout, l = .start timeout ∧ waitStart b q self timeout s.obj s.waits = .goto s' l')
    ∨ (∃ st st' w, l = .blocked st ∧ l' = .blocked st' ∧ s' = ⟨s.obj, w⟩ ∧
      waitStep self s.obj.lock st c s.waits = .goto w st')
  := by
  cases l with
  | start timeout =>
      left
      use timeout, rfl, h
  | blocked st =>
      right
      rw [timedwaitStep, Outcome.lift_eq_goto_iff] at h
      grind

/-- A call of the wait function returns from its first section or at the end of its
wait. -/
theorem timedwaitStep_eq_ret {l : WaitLoc} (h : timedwaitStep b q self l c s = .ret s' r) :
  (∃ timeout, l = .start timeout ∧ waitStart b q self timeout s.obj s.waits = .ret s' r)
    ∨ (∃ st w err, l = .blocked st ∧ s' = ⟨s.obj, w⟩ ∧
      r = (if err then .minusOne .ETIMEDOUT else .zero) ∧
      waitStep self s.obj.lock st c s.waits = .ret w err)
  := by
  cases l with
  | start timeout =>
      left
      use timeout, rfl, h
  | blocked st =>
      right
      rw [timedwaitStep, Outcome.lift_eq_ret_iff] at h
      obtain ⟨w, err, hw, h⟩ := h
      obtain ⟨rfl, rfl⟩ := h
      use st, w, err, rfl, rfl, rfl, hw

theorem timedwaitStep_act {l l' : WaitLoc} (hq : ¬ bar q)
    (h : timedwaitStep b q self l c s = .goto s' l') :
  Act bar (Eq q) self s.waits ⟨l.phase q, o, k⟩ s'.waits ⟨l'.phase q, o, k⟩
  := by
  rcases timedwaitStep_eq_goto h with ⟨timeout, rfl, hs⟩ | ⟨st, st', w, rfl, rfl, rfl, hw⟩
  · obtain ⟨-, -, -, rfl, rfl⟩ := waitStart_eq_goto hs
    apply Act.enqueue q _ rfl hq rfl
  · apply waitStep_act hw

theorem timedwaitStep_act_ret {l : WaitLoc} (h : timedwaitStep b q self l c s = .ret s' r) :
  Act bar (Eq q) self s.waits ⟨l.phase q, o, k⟩ s'.waits ⟨.out, o, k⟩
  := by
  rcases timedwaitStep_eq_ret h with ⟨timeout, rfl, hs⟩ | ⟨st, w, err, rfl, rfl, -, hw⟩
  · rw [(waitStart_eq_ret hs).2.1]
    apply Act.skip
  · apply waitStep_act_ret hw

/-- What a step inside the post function does. -/
theorem postStep_eq_goto {l l' : PostLoc T} (h : postStep b q l s = .goto s' l') :
  l = .start ∧ postStart b q s.obj s.waits = .goto s' l'
  := by
  cases l with
  | start => use rfl, h
  | wakeup u =>
      simp only [postStep, Build.wakeup, Build.assert] at h
      grind

/-- A call of the post function returns from its section or after its wakeup, whose send
finds the port empty. -/
theorem postStep_eq_ret {l : PostLoc T} (hport : ∀ u ∈ l.owes, s.waits.port u = 0)
    (h : postStep b q l s = .ret s' r) :
  (l = .start ∧ postStart b q s.obj s.waits = .ret s' r)
    ∨ (∃ u, l = .wakeup u ∧ s' = ⟨s.obj, s.waits.send u⟩ ∧ r = .zero)
  := by
  cases l with
  | start =>
      left
      use rfl, h
  | wakeup u =>
      right
      rw [postStep, Build.wakeup_of (hport u (by simp [PostLoc.owes]))] at h
      obtain ⟨rfl, rfl⟩ := h
      use u

theorem postStep_act {l l' : PostLoc T} {ph : Phase Q} (h : postStep b q l s = .goto s' l') :
  Act bar (Eq q) self s.waits ⟨ph, l.owes, k⟩ s'.waits ⟨ph, l'.owes, k⟩
  := by
  obtain ⟨rfl, h⟩ := postStep_eq_goto h
  obtain ⟨-, -, u, rest, hq, rfl, rfl⟩ := postStart_eq_goto h
  apply Act.dequeue q u _ rfl
  simp [hq]

theorem postStep_act_ret {l : PostLoc T} {ph : Phase Q}
    (hport : ∀ u ∈ l.owes, s.waits.port u = 0) (h : postStep b q l s = .ret s' r) :
  Act bar (Eq q) self s.waits ⟨ph, l.owes, k⟩ s'.waits ⟨ph, [], k⟩
  := by
  rcases postStep_eq_ret hport h with ⟨rfl, h⟩ | ⟨u, rfl, rfl, -⟩
  · rw [(postStart_eq_ret h).2.1]
    apply Act.skip
  · apply Act.send u [] rfl

end Protocol

/-! ### Threads using one semaphore -/

/-- The control points of a thread using the semaphore. -/
inductive Loc (T : Type) where
  /-- In `sem_wait` or `sem_timedwait`. -/
  | wait (l : WaitLoc)
  /-- In `sem_trywait`. -/
  | trywait
  /-- In `sem_post`. -/
  | post (l : PostLoc T)
  deriving DecidableEq

/-- The control points at which a call starts. -/
def Loc.entry : Loc T → Bool
  | .wait (.start _) => true
  | .wait (.blocked _) => false
  | .trywait => true
  | .post .start => true
  | .post (.wakeup _) => false

/-- The role of a thread in the wakeup protocol, where `q` is the queue of the semaphore. -/
def Loc.role (q : Q) : Loc T → Role T Q
  | .wait l => ⟨l.phase q, [], []⟩
  | .trywait => .idle
  | .post l => ⟨.out, l.owes, []⟩

/-- One step of a thread using the semaphore with queue `q`. -/
def step (b : Build) (q : Q) (self : T) :
    Loc T → Bool → World Semaphore T Q → Outcome (World Semaphore T Q) (Loc T) Ret
  | .wait l, timeout, s => (timedwaitStep b q self l timeout s).lift id .wait .ret
  | .trywait, _, s => trywait s
  | .post l, _, s => (postStep b q l s).lift id .post .ret

section Conformance

variable {bar : Q → Prop} {l l' : Loc T}

omit [DecidableEq T] [DecidableEq Q] in
theorem Loc.role_of_entry (hl : l.entry = true) :
  l.role q = .idle
  := by
  rcases l with (_ | _) | _ | (_ | _)
  all_goals first | rfl | cases hl

theorem step_act (hq : ¬ bar q) (h : step b q self l c s = .goto s' l') :
  Act bar (Eq q) self s.waits (l.role q) s'.waits (l'.role q)
  := by
  cases l with
  | wait l =>
      simp only [step, Outcome.lift_eq_goto_iff, id_eq] at h
      rcases h with ⟨s₁, l₁, h, rfl, rfl⟩ | ⟨_, _, _, h⟩
      · apply timedwaitStep_act hq h
      · cases h
  | trywait => apply absurd h trywait_ne_goto
  | post l =>
      simp only [step, Outcome.lift_eq_goto_iff, id_eq] at h
      rcases h with ⟨s₁, l₁, h, rfl, rfl⟩ | ⟨_, _, _, h⟩
      · apply postStep_act h
      · cases h

theorem step_act_ret (hport : ∀ u ∈ (l.role q).owes, s.waits.port u = 0)
    (h : step b q self l c s = .ret s' r) :
  Act bar (Eq q) self s.waits (l.role q) s'.waits .idle
  := by
  cases l with
  | wait l =>
      simp only [step, Outcome.lift_eq_ret_iff, id_eq] at h
      obtain ⟨s₁, r₁, h, h'⟩ := h
      obtain ⟨rfl, rfl⟩ := h'
      apply timedwaitStep_act_ret h
  | trywait =>
      rw [(trywait_eq_ret h).2.1]
      apply Act.skip
  | post l =>
      simp only [step, Outcome.lift_eq_ret_iff, id_eq] at h
      obtain ⟨s₁, r₁, h, h'⟩ := h
      obtain ⟨rfl, rfl⟩ := h'
      apply postStep_act_ret hport h

end Conformance

/-- The functions of one semaphore, whose queue is the only one. -/
def machine (b : Build) : Machine T (World Semaphore T Unit) (Loc T) Ret where
  entry := Loc.entry
  step := step b ()

/-- A state of the system. -/
abbrev Sys (T : Type) :=
  State T (World Semaphore T Unit) (Loc T) Ret

/-- The steps of the system are acts of the wakeup protocol. -/
theorem conforms (b : Build) :
  Conforms (machine (T := T) b) (fun _ => False) (fun _ => Loc.role ()) (fun _ => True)
  := by
  constructor
  · intro t l he _
    apply Loc.role_of_entry he
  · intro t l c s s' l' _ _ h
    use trivial
    apply (step_act id h).mono (fun _ _ => trivial)
  · intro t l c s s' r _ hport h
    apply (step_act_ret hport h).mono (fun _ _ => trivial)

end Semaphore

end LibPthread
