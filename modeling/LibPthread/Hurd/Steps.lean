import LibPthread.Hurd.Functions

/-!
# What the steps do

The steps of `__pthread_hurd_cond_timedwait_internal` one by one, and the facts about them and
about the other steps from which the invariants are derived: they follow the wakeup protocol, and
their effects on the sigstates, the suspend counts and the owners of the mutexes.
-/

open Concurrency

namespace LibPthread

namespace Hurd

open Shared

variable {T N : Type}

/-- The control points at which the thread waits. -/
def WaitLoc.stage : WaitLoc T → Option Stage
  | .block timed => some (.block timed)
  | .recheck err => some (.recheck err)
  | .drain => some .drain
  | _ => none

variable [DecidableEq T] [DecidableEq N]

/-- The steps inside `__pthread_hurd_cond_timedwait_internal`. -/
inductive WaitStep (b : Build) (c m : N) (self : T) (s : Shared T N) :
    WaitLoc T → Shared T N → WaitLoc T → Prop where
  | start {abstime : Option Timespec} (valid : badTime abstime = false) :
    WaitStep b c m self s (.start abstime) s (.enter abstime.isSome)
  | enter {timed : Bool} (free : (s.obj.ss self).lock = false) :
    WaitStep b c m self s (.enter timed) (setSs self s { s.obj.ss self with lock := true })
      (.enqueue timed)
  | cancelled {timed : Bool} (set : (s.obj.ss self).cancel = true) :
    WaitStep b c m self s (.enqueue timed)
      (setSs self s { s.obj.ss self with cancel := false, lock := false }) .cancelled
  | enqueue {timed : Bool} (clear : (s.obj.ss self).cancel = false) :
    WaitStep b c m self s (.enqueue timed)
      ⟨(setSs self s { s.obj.ss self with hook := some c, lock := false }).obj,
        s.waits.enqueue (.cond c) self⟩ (.unlockMutex timed .start)
  | relock (free : (s.obj.ss self).lock = false) :
    WaitStep b c m self s .cancelled (setSs self s { s.obj.ss self with lock := true })
      (.final true false)
  | unlocking {timed : Bool} {l l' : Mutex.UnlockLoc T} {x : World (Mutex T) T (Queue N)}
    (step : Mutex.unlockStep b (.mutex m) self l ⟨s.obj.mutex m, s.waits⟩ = .goto x l') :
    WaitStep b c m self s (.unlockMutex timed l) (setMutex m s x) (.unlockMutex timed l')
  | unlocked {timed : Bool} {l : Mutex.UnlockLoc T} {x : World (Mutex T) T (Queue N)} {r : Ret}
    (step : Mutex.unlockStep b (.mutex m) self l ⟨s.obj.mutex m, s.waits⟩ = .ret x r) :
    WaitStep b c m self s (.unlockMutex timed l) (setMutex m s x) (.block timed)
  | waiting {l : WaitLoc T} {stage stage' : Stage} {timeout : Bool} {w : Waits T (Queue N)}
    (waits : l.stage = some stage)
    (step : waitStep self (s.obj.cond c).lock stage timeout s.waits = .goto w stage') :
    WaitStep b c m self s l ⟨s.obj, w⟩ (.ofStage stage')
  | waited {l : WaitLoc T} {stage : Stage} {timeout err : Bool} {w : Waits T (Queue N)}
    (waits : l.stage = some stage)
    (step : waitStep self (s.obj.cond c).lock stage timeout s.waits = .ret w err) :
    WaitStep b c m self s l ⟨s.obj, w⟩ (.final false err)
  | blocked {err : Bool} (free : (s.obj.ss self).lock = false) :
    WaitStep b c m self s (.blocked err) (setSs self s { s.obj.ss self with lock := true })
      (.recheck err)
  | leave {err : Bool} :
    WaitStep b c m self s (.final true err)
      (setSs self s { s.obj.ss self with hook := none, cancel := false, lock := false }) .leave
  | final {err : Bool} :
    WaitStep b c m self s (.final false err)
      (setSs self s { s.obj.ss self with hook := none, cancel := false, lock := false })
      (.relockMutex (s.obj.ss self).cancel err (.start none))
  | relocking {cancel err timeout : Bool} {l l' : Mutex.LockLoc}
    {x : World (Mutex T) T (Queue N)}
    (step : Mutex.lockStep b (.mutex m) self l timeout ⟨s.obj.mutex m, s.waits⟩ = .goto x l') :
    WaitStep b c m self s (.relockMutex cancel err l) (setMutex m s x) (.relockMutex cancel err l')

section Inversion

variable {b : Build} {c m : N} {self target : T} {s s' : Shared T N} {l l' : WaitLoc T}
    {k k' : CancelLoc N} {timeout : Bool} {r : Answer}

omit [DecidableEq N] in
theorem spinLock_eq_goto {L : Type} {l l' : L} (h : spinLock self s l = .goto s' l') :
  (s.obj.ss self).lock = false ∧ s' = setSs self s { s.obj.ss self with lock := true } ∧ l' = l
  := by
  rw [spinLock] at h
  split at h
  · cases h
  · rename_i hfree
    cases h
    exact ⟨by simpa using hfree, rfl, rfl⟩

omit [DecidableEq N] in
theorem spinLock_ne_ret {L : Type} {l : L} :
  spinLock self s l ≠ .ret s' r
  := by
  rw [spinLock]
  split <;> simp

theorem waitBlocked_eq_goto {stage : Stage} (hl : l.stage = some stage)
    (h : waitBlocked c self stage timeout s = .goto s' l') :
  WaitStep b c m self s l s' l'
  := by
  rcases Outcome.lift_eq_goto_iff.mp h with ⟨w, stage', hstep, rfl, rfl⟩ | ⟨w, err, hstep, h⟩
  · exact .waiting hl hstep
  · cases h
    exact .waited hl hstep

theorem waitBlocked_ne_ret {stage : Stage} :
  waitBlocked c self stage timeout s ≠ .ret s' r
  := by
  intro h
  obtain ⟨_, _, -, h⟩ := Outcome.lift_eq_ret_iff.mp h
  cases h

theorem timedwaitStep_eq_goto (h : timedwaitStep b c m self l timeout s = .goto s' l') :
  WaitStep b c m self s l s' l'
  := by
  cases l with
  | start abstime =>
      simp only [timedwaitStep] at h
      split at h
      · cases h
      · rename_i hvalid
        cases h
        exact .start (by simpa using hvalid)
  | enter timed =>
      obtain ⟨hfree, rfl, rfl⟩ := spinLock_eq_goto h
      exact .enter hfree
  | enqueue timed =>
      simp only [timedwaitStep, waitEnqueue] at h
      split at h
      · cases h
      · split at h
        · rename_i hset
          cases h
          exact .cancelled hset
        · rename_i hclear
          obtain ⟨-, h⟩ := Build.assert_eq_goto_iff.mp h
          cases h
          exact .enqueue (by simpa using hclear)
  | cancelled =>
      obtain ⟨hfree, rfl, rfl⟩ := spinLock_eq_goto h
      exact .relock hfree
  | unlockMutex timed l =>
      rw [timedwaitStep, unlock] at h
      rcases Outcome.lift_eq_goto_iff.mp h with ⟨x, l₁, hstep, rfl, rfl⟩ | ⟨x, r, hstep, h⟩
      · exact .unlocking hstep
      · cases h
        exact .unlocked hstep
  | block timed => exact waitBlocked_eq_goto rfl h
  | blocked err =>
      obtain ⟨hfree, rfl, rfl⟩ := spinLock_eq_goto h
      exact .blocked hfree
  | recheck err => exact waitBlocked_eq_goto rfl h
  | drain => exact waitBlocked_eq_goto rfl h
  | final cancel err =>
      cases h
      cases cancel with
      | true => exact .leave
      | false => exact .final
  | leave => cases h
  | relockMutex cancel err l =>
      rw [timedwaitStep, lock] at h
      rcases Outcome.lift_eq_goto_iff.mp h with ⟨x, l₁, hstep, rfl, rfl⟩ | ⟨x, r, hstep, h⟩
      · exact .relocking hstep
      · cases h

/-- A wait returns at once, if its time-out is invalid, or at its end. -/
theorem timedwaitStep_eq_ret (h : timedwaitStep b c m self l timeout s = .ret s' r) :
  (∃ abstime, l = .start abstime ∧ badTime abstime = true ∧ s' = s ∧
      r = .ret (.error .EINVAL))
    ∨ (l = .leave ∧ s' = s ∧ r = .EINTR)
    ∨ (∃ cancel err k x r', l = .relockMutex cancel err k ∧
      Mutex.lockStep b (.mutex m) self k timeout ⟨s.obj.mutex m, s.waits⟩ = .ret x r' ∧
      s' = setMutex m s x ∧
      r = if cancel then .EINTR else if err then .ret (.error .ETIMEDOUT) else .ret .zero)
  := by
  cases l with
  | start abstime =>
      simp only [timedwaitStep] at h
      split at h
      · rename_i hbad
        cases h
        exact .inl ⟨abstime, rfl, hbad, rfl, rfl⟩
      · cases h
  | enter timed => exact absurd h spinLock_ne_ret
  | enqueue timed =>
      simp only [timedwaitStep, waitEnqueue] at h
      split at h
      · cases h
      · split at h
        · cases h
        · obtain ⟨-, h⟩ := Build.assert_eq_ret_iff.mp h
          cases h
  | cancelled => exact absurd h spinLock_ne_ret
  | unlockMutex timed l =>
      rw [timedwaitStep, unlock] at h
      obtain ⟨x, r, -, h⟩ := Outcome.lift_eq_ret_iff.mp h
      cases h
  | block timed => exact absurd h waitBlocked_ne_ret
  | blocked err => exact absurd h spinLock_ne_ret
  | recheck err => exact absurd h waitBlocked_ne_ret
  | drain => exact absurd h waitBlocked_ne_ret
  | final cancel err => cases h
  | leave =>
      cases h
      exact .inr (.inl ⟨rfl, rfl, rfl⟩)
  | relockMutex cancel err l =>
      rw [timedwaitStep, lock] at h
      obtain ⟨x, r', hstep, h⟩ := Outcome.lift_eq_ret_iff.mp h
      cases h
      exact .inr (.inr ⟨cancel, err, l, x, r', rfl, hstep, rfl, rfl⟩)

/-- The steps inside the functions. -/
inductive Inside (b : Build) (self : T) (s : Shared T N) :
    Loc T N → Shared T N → Loc T N → Prop where
  | mutex {n : N} {k k' : Mutex.Loc T} {timeout : Bool} {x : World (Mutex T) T (Queue N)}
    (step : Mutex.step b (.mutex n) self k timeout ⟨s.obj.mutex n, s.waits⟩ = .goto x k') :
    Inside b self s (.mutex n k) (setMutex n s x) (.mutex n k')
  | wait {c m : N} {k k' : WaitLoc T} {s' : Shared T N} (step : WaitStep b c m self s k s' k') :
    Inside b self s (.wait c m k) s' (.wait c m k')
  | signal {c : N} {k k' : Cond.SignalLoc T} {x : World Cond T (Queue N)}
    (step : Cond.signalStep b (.cond c) k ⟨s.obj.cond c, s.waits⟩ = .goto x k') :
    Inside b self s (.signal c k) (setCond c s x) (.signal c k')
  | broadcast {c : N} {k k' : Cond.BroadcastLoc T} {x : World Cond T (Queue N)}
    (step : Cond.broadcastStep b (.cond c) k ⟨s.obj.cond c, s.waits⟩ = .goto x k') :
    Inside b self s (.broadcast c k) (setCond c s x) (.broadcast c k')
  | cancel {target : T} {k k' : CancelLoc N} {s' : Shared T N}
    (step : cancelStep b target k s = .goto s' k') :
    Inside b self s (.cancel target k) s' (.cancel target k')

/-- The steps in which the functions return. -/
inductive Returns (b : Build) (self : T) (s : Shared T N) :
    Loc T N → Shared T N → Answer → Prop where
  | mutex {n : N} {k : Mutex.Loc T} {timeout : Bool} {x : World (Mutex T) T (Queue N)} {r : Ret}
    (step : Mutex.step b (.mutex n) self k timeout ⟨s.obj.mutex n, s.waits⟩ = .ret x r) :
    Returns b self s (.mutex n k) (setMutex n s x) (.ret r)
  | wait {c m : N} {k : WaitLoc T} {timeout : Bool} {s' : Shared T N} {r : Answer}
    (step : timedwaitStep b c m self k timeout s = .ret s' r) :
    Returns b self s (.wait c m k) s' r
  | signal {c : N} {k : Cond.SignalLoc T} {x : World Cond T (Queue N)} {r : Ret}
    (step : Cond.signalStep b (.cond c) k ⟨s.obj.cond c, s.waits⟩ = .ret x r) :
    Returns b self s (.signal c k) (setCond c s x) (.ret r)
  | broadcast {c : N} {k : Cond.BroadcastLoc T} {x : World Cond T (Queue N)} {r : Ret}
    (step : Cond.broadcastStep b (.cond c) k ⟨s.obj.cond c, s.waits⟩ = .ret x r) :
    Returns b self s (.broadcast c k) (setCond c s x) (.ret r)
  | cancel {target : T} {k : CancelLoc N} {s' : Shared T N} {r : Answer}
    (step : cancelStep b target k s = .ret s' r) :
    Returns b self s (.cancel target k) s' r

/-- A thread that takes a step is not suspended. -/
theorem step_eq_goto {l l' : Loc T N} (h : step b self l timeout s = .goto s' l') :
  s.obj.suspended self = 0 ∧ Inside b self s l s' l'
  := by
  rw [step] at h
  split at h
  · cases h
  · rename_i hrunning
    refine ⟨by omega, ?_⟩
    cases l with
    | mutex n k =>
        rw [stepInside] at h
        rcases Outcome.lift_eq_goto_iff.mp h with ⟨x, k', hstep, rfl, rfl⟩ | ⟨_, _, _, h⟩
        · exact .mutex hstep
        · cases h
    | wait c m k =>
        rcases Outcome.lift_eq_goto_iff.mp h with ⟨x, k', hstep, rfl, rfl⟩ | ⟨_, _, _, h⟩
        · exact .wait (timedwaitStep_eq_goto hstep)
        · cases h
    | signal c k =>
        rw [stepInside] at h
        rcases Outcome.lift_eq_goto_iff.mp h with ⟨x, k', hstep, rfl, rfl⟩ | ⟨_, _, _, h⟩
        · exact .signal hstep
        · cases h
    | broadcast c k =>
        rw [stepInside] at h
        rcases Outcome.lift_eq_goto_iff.mp h with ⟨x, k', hstep, rfl, rfl⟩ | ⟨_, _, _, h⟩
        · exact .broadcast hstep
        · cases h
    | cancel target k =>
        rcases Outcome.lift_eq_goto_iff.mp h with ⟨x, k', hstep, rfl, rfl⟩ | ⟨_, _, _, h⟩
        · exact .cancel hstep
        · cases h

theorem step_eq_ret {l : Loc T N} (h : step b self l timeout s = .ret s' r) :
  s.obj.suspended self = 0 ∧ Returns b self s l s' r
  := by
  rw [step] at h
  split at h
  · cases h
  · rename_i hrunning
    refine ⟨by omega, ?_⟩
    cases l with
    | mutex n k =>
        rw [stepInside] at h
        obtain ⟨x, r', hstep, h⟩ := Outcome.lift_eq_ret_iff.mp h
        cases h
        exact .mutex hstep
    | wait c m k =>
        obtain ⟨x, r', hstep, h⟩ := Outcome.lift_eq_ret_iff.mp h
        cases h
        exact .wait hstep
    | signal c k =>
        rw [stepInside] at h
        obtain ⟨x, r', hstep, h⟩ := Outcome.lift_eq_ret_iff.mp h
        cases h
        exact .signal hstep
    | broadcast c k =>
        rw [stepInside] at h
        obtain ⟨x, r', hstep, h⟩ := Outcome.lift_eq_ret_iff.mp h
        cases h
        exact .broadcast hstep
    | cancel target k =>
        obtain ⟨x, r', hstep, h⟩ := Outcome.lift_eq_ret_iff.mp h
        cases h
        exact .cancel hstep

end Inversion

/-! ### The functions follow the wakeup protocol -/

/-- The role of a waiting thread in the wakeup protocol. -/
def WaitLoc.role (c m : N) : WaitLoc T → Role T (Queue N)
  | .start _ => .idle
  | .enter _ => .idle
  | .enqueue _ => .idle
  | .cancelled => .idle
  | .unlockMutex timed l => ⟨.blocking (.cond c) timed, l.owes, []⟩
  | .block timed => ⟨.blocking (.cond c) timed, [], []⟩
  | .blocked err => ⟨.checking (.cond c) err, [], []⟩
  | .recheck err => ⟨.checking (.cond c) err, [], []⟩
  | .drain => ⟨.draining (.cond c), [], []⟩
  | .final _ _ => .idle
  | .leave => .idle
  | .relockMutex _ _ l => ⟨l.phase (.mutex m), [], []⟩

/-- The role of a thread that cancels `target`. -/
def CancelLoc.role (target : T) : CancelLoc N → Role T (Queue N)
  | .hookWakeup => ⟨.out, [target], []⟩
  | _ => .idle

/-- The role of a thread. -/
def Loc.role : Loc T N → Role T (Queue N)
  | .mutex n l => l.role (.mutex n)
  | .wait c m l => l.role c m
  | .signal _ l => ⟨.out, l.owes, []⟩
  | .broadcast _ l => ⟨.out, l.owes, []⟩
  | .cancel target l => l.role target

section Protocol

variable {b : Build} {c m : N} {self target : T} {s s' : Shared T N} {l l' : Loc T N}
    {timeout : Bool} {r : Answer}

/-- No queue of the task is one on which threads wait without looking at their link. -/
abbrev bar : Queue N → Prop :=
  fun _ => False

omit [DecidableEq T] [DecidableEq N] in
theorem WaitLoc.role_of_stage {k : WaitLoc T} {stage : Stage} (hk : k.stage = some stage) :
  k.role c m = ⟨stage.phase (.cond c), [], []⟩
  := by
  cases k <;> cases hk <;> rfl

omit [DecidableEq T] [DecidableEq N] in
theorem WaitLoc.role_ofStage (c m : N) (stage : Stage) :
  (WaitLoc.ofStage stage).role (T := T) c m = ⟨stage.phase (.cond c), [], []⟩
  := by
  cases stage <;> rfl

/-- The acts without the queues on which they are taken. -/
theorem Act.anywhere {on : Queue N → Prop} {w w' : Waits T (Queue N)}
    {x x' : Role T (Queue N)} (act : Act bar on self w x w' x') :
  Act bar (fun _ => True) self w x w' x'
  := act.mono (fun _ _ => trivial)

theorem waitStep_act {k k' : WaitLoc T} (hport : ∀ u ∈ (k.role c m).owes, s.waits.port u = 0)
    (h : WaitStep b c m self s k s' k') :
  Act bar (fun _ => True) self s.waits (k.role c m) s'.waits (k'.role c m)
  := by
  cases h with
  | start valid => exact .skip
  | enter free => exact .skip
  | cancelled set => exact .skip
  | enqueue clear => exact Act.enqueue (Queue.cond c) _ rfl id trivial
  | relock free => exact .skip
  | unlocking step => exact Act.anywhere (Mutex.unlockStep_act step)
  | unlocked step => exact Mutex.unlockStep_act_ret hport step
  | waiting waits step =>
      rw [WaitLoc.role_of_stage waits, WaitLoc.role_ofStage]
      exact Act.anywhere (LibPthread.waitStep_act step)
  | waited waits step =>
      rw [WaitLoc.role_of_stage waits]
      exact Act.anywhere (waitStep_act_ret step)
  | blocked free => exact .skip
  | leave => exact .skip
  | final => exact .skip
  | relocking step => exact Act.anywhere (Mutex.lockStep_act id step)

/-- The steps inside `hurd_thread_cancel`. -/
inductive CancelStep (target : T) (s : Shared T N) :
    CancelLoc N → Shared T N → CancelLoc N → Prop where
  | lock : CancelStep target s .lock (setSs target s { s.obj.ss target with lock := true }) .suspend
  | suspend :
    CancelStep target s .suspend (setSuspended target s (s.obj.suspended target + 1)) .unlock
  | unlock :
    CancelStep target s .unlock (setSs target s { s.obj.ss target with lock := false }) .mark
  | mark : CancelStep target s .mark (setSs target s { s.obj.ss target with cancel := true }) .test
  | unhooked : CancelStep target s .test s .resume
  | hooked {c : N} (installed : (s.obj.ss target).hook = some c) :
    CancelStep target s .test s (.hook c)
  | gone {c : N} : CancelStep target s (.hook c) s .resume
  | dequeue {c : N} {q : Queue N} (linked : s.waits.prevp target = some q) :
    CancelStep target s (.hook c) ⟨s.obj, s.waits.dequeue target⟩ .hookWakeup
  | wakeup : CancelStep target s .hookWakeup ⟨s.obj, s.waits.send target⟩ .resume

theorem cancelStep_eq_goto {k k' : CancelLoc N}
    (hport : ∀ u ∈ (k.role target).owes, s.waits.port u = 0)
    (h : cancelStep b target k s = .goto s' k') :
  CancelStep target s k s' k'
  := by
  cases k with
  | lock =>
      obtain ⟨-, rfl, rfl⟩ := spinLock_eq_goto h
      exact .lock
  | suspend =>
      cases h
      exact .suspend
  | unlock =>
      cases h
      exact .unlock
  | mark =>
      cases h
      exact .mark
  | test =>
      simp only [cancelStep] at h
      split at h
      · cases h
        exact .unhooked
      · rename_i c hhook
        cases h
        exact .hooked hhook
  | hook c =>
      simp only [cancelStep, cancelHook] at h
      split at h
      · cases h
      · split at h
        · cases h
          exact .gone
        · rename_i hlinked
          cases h
          obtain ⟨q, hq⟩ := Option.ne_none_iff_exists'.mp hlinked
          exact .dequeue hq
  | hookWakeup =>
      have hempty : s.waits.port target = 0 := hport target (List.mem_singleton_self _)
      rw [cancelStep, Build.wakeup_of hempty] at h
      cases h
      exact .wakeup
  | resume => cases h

theorem cancelStep_act {k k' : CancelLoc N}
    (hqueued : ∀ c, k = .hook c → ∀ q, s.waits.prevp target = some q →
      target ∈ s.waits.queue q)
    (h : CancelStep target s k s' k') :
  Act bar (fun _ => True) self s.waits (k.role target) s'.waits (k'.role target)
  := by
  cases h with
  | @dequeue c q linked => exact Act.dequeue q target (hqueued c rfl q linked) trivial
  | wakeup => exact Act.send target [] rfl
  | _ => exact .skip

theorem cancelStep_eq_ret {k : CancelLoc N}
    (hport : ∀ u ∈ (k.role target).owes, s.waits.port u = 0)
    (h : cancelStep b target k s = .ret s' r) :
  k = .resume ∧ s' = setSuspended target s (s.obj.suspended target - 1) ∧ r = .ret .zero
  := by
  cases k with
  | lock => exact absurd h spinLock_ne_ret
  | suspend => cases h
  | unlock => cases h
  | mark => cases h
  | test =>
      simp only [cancelStep] at h
      split at h <;> cases h
  | hook c =>
      simp only [cancelStep, cancelHook] at h
      split at h
      · cases h
      · split at h <;> cases h
  | hookWakeup =>
      have hempty : s.waits.port target = 0 := hport target (List.mem_singleton_self _)
      rw [cancelStep, Build.wakeup_of hempty] at h
      cases h
  | resume =>
      cases h
      exact ⟨rfl, rfl, rfl⟩

theorem inside_act (hport : ∀ u ∈ l.role.owes, s.waits.port u = 0)
    (hqueued : ∀ target c, l = .cancel target (.hook c) → ∀ q,
      s.waits.prevp target = some q → target ∈ s.waits.queue q)
    (h : Inside b self s l s' l') :
  Act bar (fun _ => True) self s.waits l.role s'.waits l'.role
  := by
  cases h with
  | mutex step => exact Act.anywhere (Mutex.step_act id step)
  | wait step => exact waitStep_act hport step
  | signal step => exact Act.anywhere (Cond.signalStep_act step)
  | broadcast step => exact Act.anywhere (Cond.broadcastStep_act hport step)
  | @cancel target k k' s' step =>
      apply cancelStep_act _ (cancelStep_eq_goto hport step)
      intro c hk
      exact hqueued target c (by rw [hk])

theorem returns_act (hport : ∀ u ∈ l.role.owes, s.waits.port u = 0)
    (h : Returns b self s l s' r) :
  Act bar (fun _ => True) self s.waits l.role s'.waits .idle
  := by
  cases h with
  | mutex step => exact Act.anywhere (Mutex.step_act_ret hport step)
  | wait step =>
      rcases timedwaitStep_eq_ret step with ⟨abstime, rfl, -, rfl, -⟩ | ⟨rfl, rfl, -⟩ |
        ⟨cancel, err, k, x, r', rfl, hlock, rfl, -⟩
      · exact .skip
      · exact .skip
      · exact Mutex.lockStep_act_ret hlock
  | signal step => exact Act.anywhere (Cond.signalStep_act_ret hport step)
  | broadcast step => exact Act.anywhere (Cond.broadcastStep_act_ret hport step)
  | cancel step =>
      obtain ⟨rfl, rfl, -⟩ := cancelStep_eq_ret hport step
      exact .skip

end Protocol

end Hurd

end LibPthread
