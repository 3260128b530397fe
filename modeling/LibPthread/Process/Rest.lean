import LibPthread.Barrier.Rest
import LibPthread.Mutex.Rest
import LibPthread.Process.MutualExclusion
import LibPthread.Rwlock.Rest
import LibPthread.Semaphore.Rest

/-!
# Processes at rest

No wakeup is lost in a process. When no thread can go on, each thread inside a call is on the queue
of the object it waits for, whether it waits for a mutex, an rwlock, a semaphore, a barrier or a
condition variable, or for the `cancel_lock` of a thread, and there is no message on any port. Where
a thread waits for a mutex, some thread has it.
-/

open Concurrency

namespace LibPthread

variable {T N : Type} [DecidableEq T] [DecidableEq N]

/-- No spin lock of an object is held. -/
structure Objects.Unlocked (x : Objects T N) : Prop where
  mutex : ∀ m, (x.mutex m).lock = false
  rwlock : ∀ n, (x.rwlock n).lock = false
  sem : ∀ n, (x.sem n).lock = false
  barrier : ∀ n, (x.barrier n).lock = false
  cond : ∀ c, (x.cond c).lock = false

instance [Fintype T] [Fintype N] (x : Objects T N) : Decidable x.Unlocked :=
  decidable_of_iff
    ((∀ n, (x.mutex (.user n)).lock = false) ∧ (∀ t, (x.mutex (.cancelLock t)).lock = false) ∧
      (∀ n, (x.rwlock n).lock = false) ∧ (∀ n, (x.sem n).lock = false) ∧
      (∀ n, (x.barrier n).lock = false) ∧ ∀ c, (x.cond c).lock = false)
    ⟨fun ⟨huser, hcancel, hrwlock, hsem, hbarrier, hcond⟩ =>
      ⟨fun | .user n => huser n | .cancelLock t => hcancel t, hrwlock, hsem, hbarrier, hcond⟩,
    fun h => ⟨fun n => h.mutex (.user n), fun t => h.mutex (.cancelLock t), h.rwlock, h.sem,
      h.barrier, h.cond⟩⟩

namespace Process

variable {b : Build} {self : T} {s : Shared T N}

/-! ### Threads that cannot go on -/

omit [DecidableEq T] [DecidableEq N] in
theorem sleeps_of_stage {stage : Stage} (q : QueueRef T N)
    (h : (∃ timed, stage = .block timed) ∨ stage = .drain) :
  (⟨stage.phase q, [], []⟩ : Role T (QueueRef T N)).Sleeps
  := by
  constructor
  · rfl
  · rfl
  · use q
    apply Stage.queue_phase
  · rcases h with ⟨timed, rfl⟩ | rfl
    · rfl
    · rfl

section Calls

variable {L : Type} {m : MutexRef T N} {k : Shared T N → Outcome (Shared T N) L Ret}

theorem lock_sleeps {l : Mutex.LockLoc} {inside : Mutex.LockLoc → L}
    (hfree : s.obj.Unlocked) (hk : ∀ x, k x ≠ .spin)
    (h : Shared.lock b m self l false s inside k = .spin) :
  s.waits.port self = 0 ∧ (⟨l.phase (.mutex m), [], []⟩ : Role T (QueueRef T N)).Sleeps
  := by
  rcases Outcome.lift_eq_spin_iff.mp h with hspin | ⟨x, r, -, hspin⟩
  · have hstep : Mutex.step b (.mutex m) self (.lock l) false (Shared.getMutex m s) = .spin := by
      rw [Mutex.step, hspin]
      rfl
    obtain ⟨hport, stage, hl, hstage⟩ := Mutex.loc_of_spin (hfree.mutex m) hstep
    cases hl
    use hport
    apply sleeps_of_stage _ hstage
  · apply absurd hspin (hk _)

theorem unlock_ne_spin {l : Mutex.UnlockLoc T} {inside : Mutex.UnlockLoc T → L}
    (hfree : s.obj.Unlocked) (hk : ∀ x, k x ≠ .spin) :
  Shared.unlock b m self l s inside k ≠ .spin
  := by
  intro h
  rcases Outcome.lift_eq_spin_iff.mp h with hspin | ⟨x, r, -, hspin⟩
  · have hstep : Mutex.step b (.mutex m) self (.unlock l) false (Shared.getMutex m s) = .spin := by
      rw [Mutex.step, hspin]
      rfl
    obtain ⟨-, stage, hl, -⟩ := Mutex.loc_of_spin (hfree.mutex m) hstep
    cases hl
  · apply absurd hspin (hk _)

end Calls

/-- A thread that waits on a condition variable cannot go on only when it sleeps. -/
theorem timedwaitStep_sleeps {c n : N} {l : Cond.WaitLoc T} (hfree : s.obj.Unlocked)
    (h : Cond.timedwaitStep b c (.user n) self l false s = .spin) :
  s.waits.port self = 0 ∧ (l.role c (.user n) self).Sleeps
  := by
  cases l with
  | start abstime =>
      simp only [Cond.timedwaitStep] at h
      split at h
      · cases h
      · cases h
  | lockCancel timed l => apply lock_sleeps hfree (by simp) h
  | enqueue timed =>
      simp only [Cond.timedwaitStep, Cond.waitEnqueue, hfree.cond, Build.assert] at h
      grind
  | unlockCancel timed saved l =>
      apply absurd h (unlock_ne_spin hfree _)
      intro x
      cases saved <;> simp
  | unlockMutex timed oldtype l => apply absurd h (unlock_ne_spin hfree (by simp))
  | wait oldtype stage =>
      simp only [Cond.timedwaitStep, Cond.waitBlocked, hfree.cond, Build.assert] at h
      split at h
      · rcases Outcome.lift_eq_spin_iff.mp h with hspin | ⟨x, r, -, hspin⟩
        · obtain ⟨hport, hstage⟩ := waitStep_eq_spin hspin
          use hport
          apply sleeps_of_stage _ hstage
        · cases hspin
      · cases h
  | relockCancel oldtype err l => apply lock_sleeps hfree (by simp) h
  | restore oldtype err => cases h
  | releaseCancel err cancelled l => apply absurd h (unlock_ne_spin hfree (by simp))
  | relockMutex err cancelled l => apply lock_sleeps hfree (by simp) h

theorem cancelStep_sleeps {target : T} {l : CancelLoc T N} (hfree : s.obj.Unlocked)
    (h : cancelStep b target self l false s = .spin) :
  s.waits.port self = 0 ∧ (l.role target).Sleeps
  := by
  cases l with
  | lock l => apply lock_sleeps hfree (by simp) h
  | check =>
      simp only [cancelStep, cancelCheck] at h
      grind
  | hook c =>
      simp only [cancelStep, cancelHook, hfree.cond] at h
      grind
  | hookWakeup =>
      simp only [cancelStep, Build.wakeup, Build.assert] at h
      grind
  | unlock l => apply absurd h (unlock_ne_spin hfree (by simp))
  | doUnlock l =>
      apply absurd h (unlock_ne_spin hfree _)
      intro x
      split <;> simp
  | redirect => cases h

theorem setStep_sleeps {x : Setting} {l : SetLoc T} (hfree : s.obj.Unlocked)
    (h : setStep b x self l false s = .spin) :
  s.waits.port self = 0 ∧ (l.role (N := N) self).Sleeps
  := by
  cases l with
  | lock l => apply lock_sleeps hfree (by simp) h
  | store => cases h
  | unlock l => apply absurd h (unlock_ne_spin hfree (by simp))

/-- A thread that cannot go on while no spin lock is held waits for a message. -/
theorem stepInside_sleeps {l : Loc T N} (hfree : s.obj.Unlocked)
    (h : stepInside b self l false s = .spin) :
  s.waits.port self = 0 ∧ (l.role self).Sleeps
  := by
  rcases l with ⟨n, l⟩ | ⟨n, l⟩ | ⟨n, l⟩ | ⟨n, l⟩ | ⟨c, n, l⟩ | ⟨c, l⟩ | ⟨c, l⟩ | ⟨target, l⟩ |
    ⟨x, l⟩
  all_goals
    simp only [stepInside, Outcome.lift_eq_spin_iff, reduceCtorEq, and_false, exists_false,
      or_false] at h
  · obtain ⟨hport, stage, rfl, hstage⟩ := Mutex.loc_of_spin (hfree.mutex _) h
    use hport
    apply sleeps_of_stage _ hstage
  · obtain ⟨hport, mode, stage, rfl, hstage⟩ := Rwlock.loc_of_spin (hfree.rwlock _) h
    use hport
    apply sleeps_of_stage _ hstage
  · obtain ⟨hport, stage, rfl, hstage⟩ := Semaphore.loc_of_spin (hfree.sem _) h
    use hport
    apply sleeps_of_stage _ hstage
  · obtain ⟨rfl, hport⟩ := Barrier.loc_of_spin (hfree.barrier _) h
    use hport
    constructor
    · rfl
    · rfl
    · use .barrier n
      rfl
    · rfl
  · apply timedwaitStep_sleeps hfree h
  · cases l with
    | start =>
        simp only [Cond.signalStep, Cond.signalStart, hfree.cond] at h
        grind
    | wakeup thread =>
        simp only [Cond.signalStep, Build.wakeup, Build.assert] at h
        grind
  · rcases l with _ | _ | ⟨thread, threads⟩
    · simp [Cond.broadcastStep, hfree.cond] at h
    · cases h
    · simp only [Cond.broadcastStep, Build.wakeup, Build.assert] at h
      grind
  · apply cancelStep_sleeps hfree h
  · apply setStep_sleeps hfree h

/-! ### No wakeup is lost -/

variable {s : Sys T N}

theorem sleeps_of_rests (hrest : (machine b).Rests s)
    (hok : ∀ t l, s.loc t = some l → (machine b).step t l false s.shared ≠ .fault)
    (hred : ∀ t l, s.loc t = some l → s.shared.obj.redirected t = false)
    (hfree : s.shared.obj.Unlocked) {t : T} {l : Loc T N} (hl : s.loc t = some l) :
  s.shared.waits.port t = 0 ∧ (l.role t).Sleeps
  := by
  have hspin := hrest.eq_spin hl (hok t l hl)
  simp only [machine, step, hred t l hl, Bool.false_eq_true, false_and, if_false] at hspin
  apply stepInside_sleeps (s := Shared.resume t s.shared) _ hspin
  exact ⟨hfree.mutex, hfree.rwlock, hfree.sem, hfree.barrier, hfree.cond⟩

theorem mem_queue_of_rests [Fintype T] (h : Inv s) (hrest : (machine b).Rests s)
    (hok : ∀ t l, s.loc t = some l → (machine b).step t l false s.shared ≠ .fault)
    (hred : ∀ t l, s.loc t = some l → s.shared.obj.redirected t = false)
    (hfree : s.shared.obj.Unlocked) (t : T) (q : QueueRef T N) :
  t ∈ s.shared.waits.queue q ↔ (roles (fun t => Loc.role t) s t).phase.queue = some q
  := by
  apply h.sound.mem_queue_iff
  intro t
  cases hl : s.loc t with
  | none => simp [roles, hl]
  | some l =>
      obtain ⟨hport, hsleeps⟩ := sleeps_of_rests hrest hok hred hfree hl
      right
      simp only [roles, hl, Option.elim_some]
      use hsleeps, hport

variable [Fintype T] {G : Sys T N → Label T (Loc T N) → Prop} {attr : N → Option MutexType}
    {value count : N → Nat}

/-- The mutex `n` of a process is used as a lock: the time-outs of its calls are valid and cross no
hand-over, a normal mutex is unlocked by a thread that has locked it, and the count of a recursive
one does not wrap around. -/
def MutexRegular (n : N) (s : Sys T N) : Label T (Loc T N) → Prop
  | .call t l => ∀ k ∈ l.onMutex n, Mutex.ValidTimeout (.call t k)
  | .act t timeout =>
    MutexDisciplined n s (.act t timeout) ∧
    ((s.loc t).bind (Loc.onMutex n) = some (.lock (.wait (.block true))) → timeout = true →
      s.shared.waits.prevp t ≠ none) ∧
    ((s.loc t).bind (Loc.onMutex n) = some (.unlock .start) →
      Mutex.releases t (s.shared.obj.mutex (.user n)) = true →
      ∀ u ∈ (s.shared.waits.queue (.mutex (.user n))).head?,
        (s.loc u).bind (Loc.onMutex n) ≠ some (.lock (.wait (.recheck true))))

omit [Fintype T] in
instance (n : N) (s : Sys T N) (a : Label T (Loc T N)) : Decidable (MutexRegular n s a) :=
  match a with
  | .call _ _ => inferInstanceAs (Decidable (∀ _ ∈ _, _))
  | .act _ _ => inferInstanceAs (Decidable (_ ∧ (_ → _ → _) ∧ (_ → _ → _)))

section Waiters

variable {n : N} {s₁ : Sys T N} {s' : Mutex.Sys T} {t : T} {k : Mutex.Loc T}

omit [Fintype T] in
/-- A wait calls the functions of its mutex without a time-out. -/
theorem validTimeout_of_enter {c : Bool} (hrelock : Relockable s₁)
    (hstep : (machine b).Step s (.act t c) s₁) (hk : (s.loc t).bind (Loc.onMutex n) = none)
    (hk' : (s₁.loc t).bind (Loc.onMutex n) = some k) :
  Mutex.ValidTimeout (.call t k)
  := by
  obtain ⟨l', hl', hk'⟩ := Option.bind_eq_some_iff.mp hk'
  rcases Loc.onMutex_eq_some.mp hk' with rfl | ⟨cv, timed, oldtype, k, rfl, rfl⟩ |
    ⟨cv, err, cancelled, k, rfl, rfl⟩
  · -- A thread that the program sent to the mutex was there before the step.
    cases hstep with
    | ret hl h => simp at hl'
    | @goto _ _ l _ x hl h =>
        simp only [State.goto_loc, Function.update_self, Option.some.injEq] at hl'
        subst hl'
        have h' := step_eq_goto h
        cases l with
        | mutex m k' =>
            rcases Outcome.lift_eq_goto_iff.mp h' with ⟨_, _, -, -, hl'⟩ | ⟨_, _, _, h'⟩
            · cases hl'
              simp [hl, Loc.onMutex] at hk
            · cases h'
        | _ =>
            rcases Outcome.lift_eq_goto_iff.mp h' with ⟨_, _, -, -, hl'⟩ | ⟨_, _, _, h'⟩
            · cases hl'
            · cases h'
  · trivial
  · have huntimed := hrelock.untimed t cv n err cancelled k hl'
    cases k with
    | start abstime =>
        obtain rfl : abstime = none := by simpa [Mutex.LockLoc.untimed] using huntimed
        rfl
    | wait stage => trivial
    | finish err => trivial

/-- The guard of a mutex that is used as a lock in a process is the one of the mutex alone. -/
theorem MutexRegular.alone {c : Bool} (h : MutexRegular n s (.act t c)) (hinv : Inv s)
    (hsees : (mutexView n).Shows (fun t => Loc.role t) s s') (hdepth : SameDepth n s s') :
  Mutex.Regular s' (.act t c)
  := by
  obtain ⟨hdisciplined, hlinked, hhead⟩ : MutexDisciplined n s (.act t c) ∧ _ ∧ _ := h
  have hloc : ∀ u, (s.loc u).bind (Loc.onMutex n) = s'.loc u := fun u => (hsees.loc u).symm
  have hobj : s.shared.obj.mutex (.user n) = s'.shared.obj := hsees.obj.symm
  have hqueue : s.shared.waits.queue (.mutex (.user n)) = s'.shared.waits.queue () :=
    (hsees.waits.queue ()).symm
  simp only [hloc, hobj, hqueue] at hlinked hhead
  refine ⟨trivial, hdisciplined.alone hsees hdepth, ?_, hhead⟩
  intro hl htimeout hgone
  apply hlinked hl htimeout
  rw [hsees.loc] at hl
  obtain ⟨l, hl, hk⟩ := Option.bind_eq_some_iff.mp hl
  have hphase : (l.role t).phase.queue = some (.mutex (.user n)) :=
    ((mutexView_fits .debug n).phase t l ()).mpr ⟨_, hk, rfl⟩
  cases hq : s.shared.waits.prevp t with
  | none => rfl
  | some q =>
      obtain ⟨rfl, -⟩ := hinv.sound.mem_of_linked (q := .mutex (.user n))
        (by simpa [roles, hl] using hphase) (by simp [QueueRef.IsBarrier]) hq
      rw [(hsees.waits.linked t ()).mpr hq] at hgone
      cases hgone

/-- When each thread inside a call sleeps, and those that wait for a mutex are on its queue, no
hand-over of the mutex is under way. -/
theorem not_handed_of_sleeps {attr : Option MutexType} (hinv : Inv s) (hk : Mutex.Kept b attr s')
    (hsees : (mutexView n).Shows (fun t => Loc.role t) s s')
    (hsleeps : ∀ t l, s.loc t = some l → (l.role t).Sleeps)
    (hmem : ∀ t q, t ∈ s.shared.waits.queue q ↔
      (roles (fun t => Loc.role t) s t).phase.queue = some q) :
  Mutex.handed t s'.log = false
  := by
  by_contra hhanded
  rw [Bool.not_eq_false] at hhanded
  have hlinked : ∀ k, s'.loc t = some k → (k.role ()).phase.queue = some () →
      s'.shared.waits.prevp t = some () := by
    intro k hl hq
    rw [hsees.loc] at hl
    obtain ⟨l, hl, hk⟩ := Option.bind_eq_some_iff.mp hl
    rw [hsees.waits.linked]
    apply hinv.sound.linked
    rw [hmem]
    simp only [roles, hl, Option.elim_some]
    apply ((mutexView_fits b n).phase t l ()).mpr ⟨k, hk, hq⟩
  rcases Mutex.loc_of_handed hk.owned hk.settled hhanded with ⟨timed, hl, hgone⟩ | ⟨hl, hgone⟩ | hl
  · simp [hlinked _ hl rfl] at hgone
  · simp [hlinked _ hl rfl] at hgone
  · rw [hsees.loc] at hl
    obtain ⟨l, hl, hk⟩ := Option.bind_eq_some_iff.mp hl
    obtain ⟨q, hq⟩ := (hsleeps t l hl).queue
    rcases Loc.onMutex_eq_some.mp hk with rfl | ⟨_, _, _, _, -, h⟩ | ⟨cv, err, cancelled, k, rfl, h⟩
    · cases hq
    · cases h
    · cases h
      cases hq

end Waiters

variable {n : N}

end Process

end LibPthread
