import LibPthread.Process.Objects

/-!
# Cancellation

`pthread_cancel` with the `cancel_hook` of `pt-cond-timedwait.c` and `__pthread_do_cancel`,
and `__pthread_setcancelstate` and `__pthread_setcanceltype`, step by step. The calls of the
mutex functions on `cancel_lock` take their own steps; the fields it protects are read and
written by single steps in between.

The target of `pthread_cancel` is a known thread, so its test for an unknown thread ID is
taken to succeed. The four kernel calls of `__pthread_do_cancel`, between which the target
does not run, are one step, which marks the target as redirected. A redirected thread takes no
further step in the call it was in. It gives the call up, with its link and the wakeups under way
as they are, and goes on in `call_exit`: the systems with and without this step are
`callExitMachine` and `machine`.
-/

open Concurrency

namespace LibPthread

/-- The control points of `pthread_cancel`. -/
inductive CancelLoc (T N : Type) where
  /-- In `__pthread_mutex_lock (&p->cancel_lock)`. -/
  | lock (l : Mutex.LockLoc)
  /-- At the test and the update of the fields of the target, with `cancel_lock` held. -/
  | check
  /-- At the section of `cancel_hook` on the condition variable. -/
  | hook (c : N)
  /-- At the `__pthread_wakeup` of `cancel_hook`. -/
  | hookWakeup
  /-- In `__pthread_mutex_unlock (&p->cancel_lock)`. -/
  | unlock (l : Mutex.UnlockLoc T)
  /-- In the `__pthread_mutex_unlock (&p->cancel_lock)` of `__pthread_do_cancel`. -/
  | doUnlock (l : Mutex.UnlockLoc T)
  /-- At the kernel calls of `__pthread_do_cancel`. -/
  | redirect
  deriving DecidableEq

/-- What `__pthread_setcancelstate` and `__pthread_setcanceltype` store. -/
inductive Setting where
  | state (new : CancelState)
  | type (new : CancelType)
  deriving DecidableEq

/-- The control points of `__pthread_setcancelstate` and `__pthread_setcanceltype`, called
with a valid argument. -/
inductive SetLoc (T : Type) where
  | lock (l : Mutex.LockLoc)
  /-- At the store, with `cancel_lock` held. -/
  | store
  | unlock (l : Mutex.UnlockLoc T)
  deriving DecidableEq

variable {T N : Type} [DecidableEq T] [DecidableEq N]

/-- The role of a canceller of `target` in the wakeup protocol. -/
def CancelLoc.role (target : T) : CancelLoc T N → Role T (QueueRef T N)
  | .lock l => ⟨l.phase (.mutex (.cancelLock target)), [], []⟩
  | .check => .idle
  | .hook _ => .idle
  | .hookWakeup => ⟨.out, [target], []⟩
  | .unlock l => ⟨.out, l.owes, []⟩
  | .doUnlock l => ⟨.out, l.owes, []⟩
  | .redirect => .idle

/-- The role of a thread that sets its cancellation state or type in the wakeup protocol. -/
def SetLoc.role (self : T) : SetLoc T → Role T (QueueRef T N)
  | .lock l => ⟨l.phase (.mutex (.cancelLock self)), [], []⟩
  | .store => .idle
  | .unlock l => ⟨.out, l.owes, []⟩

/-- The queue on which the step of a canceller from the control point acts. The hook dequeues
its target from whichever queue the target is linked on. -/
def CancelLoc.queue (target : T) (w : Waits T (QueueRef T N)) :
    CancelLoc T N → Option (QueueRef T N)
  | .lock _ => some (.mutex (.cancelLock target))
  | .check => none
  | .hook _ => w.prevp target
  | .hookWakeup => none
  | .unlock l => l.queue (.mutex (.cancelLock target))
  | .doUnlock l => l.queue (.mutex (.cancelLock target))
  | .redirect => none

/-- The queue on which the step of a thread that sets its cancellation state or type
acts. -/
def SetLoc.queue (self : T) : SetLoc T → Option (QueueRef T N)
  | .lock _ => some (.mutex (.cancelLock self))
  | .store => none
  | .unlock l => l.queue (.mutex (.cancelLock self))

/-- The part of `pthread_cancel` under `cancel_lock` before the hook is called. The
assertions of `__pthread_do_cancel` repeat what has just been tested and stored. -/
def cancelCheck (target : T) (s : Shared T N) : Outcome (Shared T N) (CancelLoc T N) Ret :=
  let x := s.obj.cancel target
  if x.pending then .goto s (.unlock .start)
  else
    let s := Shared.setCancel target s { x with pending := true }
    if x.state ≠ .enable then .goto s (.unlock .start)
    else if x.type = .asynchronous then .goto s (.doUnlock .start)
    else
      match x.hook with
      | none => .goto s (.unlock .start)
      | some c => .goto s (.hook c)

/-- The section of `cancel_hook`. -/
def cancelHook (target : T) (c : N) (s : Shared T N) :
    Outcome (Shared T N) (CancelLoc T N) Ret :=
  if (s.obj.cond c).lock then .spin
  else if s.waits.prevp target = none then .goto s (.unlock .start)
  else .goto ⟨s.obj, s.waits.dequeue target⟩ .hookWakeup

/-- One step of `pthread_cancel`. -/
def cancelStep (b : Build) (target self : T) :
    CancelLoc T N → Bool → Shared T N → Outcome (Shared T N) (CancelLoc T N) Ret
  | .lock l, timeout, s =>
    Shared.lock b (.cancelLock target) self l timeout s .lock (fun s => .goto s .check)
  | .check, _, s => cancelCheck target s
  | .hook c, _, s => cancelHook target c s
  | .hookWakeup, _, s =>
    b.wakeup target s.waits (fun w => .goto ⟨s.obj, w⟩ (.unlock .start))
  | .unlock l, _, s =>
    Shared.unlock b (.cancelLock target) self l s .unlock (fun s => .ret s .zero)
  | .doUnlock l, _, s =>
    Shared.unlock b (.cancelLock target) self l s .doUnlock
      (fun s => if target = self then .ret s .canceled else .goto s .redirect)
  | .redirect, _, s => .ret (Shared.redirect target s) .zero

/-- The fields after the store of a setting. -/
def Setting.apply (x : Cancel N) : Setting → Cancel N
  | .state new => { x with state := new }
  | .type new => { x with type := new }

/-- One step of `__pthread_setcancelstate` or `__pthread_setcanceltype`. -/
def setStep (b : Build) (x : Setting) (self : T) :
    SetLoc T → Bool → Shared T N → Outcome (Shared T N) (SetLoc T) Ret
  | .lock l, timeout, s =>
    Shared.lock b (.cancelLock self) self l timeout s .lock (fun s => .goto s .store)
  | .store, _, s =>
    .goto (Shared.setCancel self s (x.apply (s.obj.cancel self))) (.unlock .start)
  | .unlock l, _, s =>
    Shared.unlock b (.cancelLock self) self l s .unlock (fun s => .ret s .zero)

/-! ### What each step does -/

variable {b : Build} {target self : T} {timeout : Bool} {s s' : Shared T N}
    {l l' : CancelLoc T N} {r : Ret}

omit [DecidableEq N] in
/-- What the part of `pthread_cancel` under `cancel_lock` does: nothing if a request is
pending already; otherwise it records the request, and it calls the hook if cancellation is
enabled and deferred and a hook is installed. -/
theorem cancelCheck_eq_goto (h : cancelCheck target s = .goto s' l') :
  ((s.obj.cancel target).pending = true ∧ s' = s ∧ l' = .unlock .start)
    ∨ ((s.obj.cancel target).pending = false
      ∧ s' = Shared.setCancel target s { s.obj.cancel target with pending := true }
      ∧ ((∃ c, (s.obj.cancel target).hook = some c ∧ l' = .hook c
          ∧ (s.obj.cancel target).state = .enable ∧ (s.obj.cancel target).type = .deferred)
        ∨ (l' = .doUnlock .start ∧ (s.obj.cancel target).state = .enable
          ∧ (s.obj.cancel target).type = .asynchronous)
        ∨ (l' = .unlock .start ∧ ((s.obj.cancel target).state = .disable
          ∨ ((s.obj.cancel target).hook = none ∧ (s.obj.cancel target).type = .deferred)))))
  := by
  have hstate : (s.obj.cancel target).state ≠ .enable →
      (s.obj.cancel target).state = .disable := by
    cases (s.obj.cancel target).state <;> simp
  have htype : (s.obj.cancel target).type ≠ .asynchronous →
      (s.obj.cancel target).type = .deferred := by
    cases (s.obj.cancel target).type <;> simp
  simp only [cancelCheck] at h
  split at h
  · grind
  · split at h
    · grind
    · split at h
      · grind
      · split at h
        · grind
        · grind

theorem cancelHook_eq_goto {c : N} (h : cancelHook target c s = .goto s' l') :
  (s.obj.cond c).lock = false
    ∧ ((s.waits.prevp target = none ∧ s' = s ∧ l' = .unlock .start)
      ∨ (s.waits.prevp target ≠ none ∧ s' = ⟨s.obj, s.waits.dequeue target⟩
        ∧ l' = .hookWakeup))
  := by
  simp only [cancelHook] at h
  grind

omit [DecidableEq N] in
theorem cancelCheck_ne_ret :
  cancelCheck target s ≠ .ret s' r
  := by
  simp only [cancelCheck]
  grind

theorem cancelHook_ne_ret {c : N} :
  cancelHook target c s ≠ .ret s' r
  := by
  simp only [cancelHook]
  grind

/-! ### The functions follow the wakeup protocol -/

variable {bar : QueueRef T N → Prop}

/-- The steps of `pthread_cancel` are acts of the wakeup protocol, if the hook finds its
target on a queue whenever it finds it linked. -/
theorem cancelStep_act (hmutex : ∀ m, ¬ bar (.mutex m))
    (hport : ∀ u ∈ (l.role target).owes, s.waits.port u = 0)
    (hqueued : ∀ c, l = .hook c → ∀ q, s.waits.prevp target = some q →
      target ∈ s.waits.queue q)
    (h : cancelStep b target self l timeout s = .goto s' l') :
  Act bar (fun q => l.queue target s.waits = some q) self s.waits (l.role target) s'.waits
    (l'.role target)
  := by
  cases l with
  | lock l =>
      rcases Shared.lock_eq_goto h with ⟨x, l₁, hstep, rfl, rfl⟩ | ⟨x, r, hstep, h⟩
      · apply Act.on_some (Mutex.lockStep_act (hmutex _) hstep)
      · obtain ⟨rfl, rfl⟩ := h
        apply Mutex.lockStep_act_ret hstep
  | check =>
      rcases cancelCheck_eq_goto h with ⟨-, rfl, rfl⟩ |
        ⟨-, rfl, ⟨c, -, rfl, -⟩ | ⟨rfl, -⟩ | ⟨rfl, -⟩⟩
      all_goals apply Act.skip
  | hook c =>
      obtain ⟨-, ⟨-, rfl, rfl⟩ | ⟨hlinked, rfl, rfl⟩⟩ := cancelHook_eq_goto h
      · apply Act.skip
      · obtain ⟨q, hq⟩ := Option.ne_none_iff_exists'.mp hlinked
        apply Act.dequeue q target (hqueued c rfl q hq) hq
  | hookWakeup =>
      rw [cancelStep, Build.wakeup_of (hport target (by simp [CancelLoc.role]))] at h
      obtain ⟨rfl, rfl⟩ := h
      apply Act.send target [] rfl
  | unlock l =>
      rcases Shared.unlock_eq_goto h with ⟨x, l₁, hstep, rfl, rfl⟩ | ⟨x, r, hstep, h⟩
      · apply Mutex.unlockStep_act hstep
      · cases h
  | doUnlock l =>
      rcases Shared.unlock_eq_goto h with ⟨x, l₁, hstep, rfl, rfl⟩ | ⟨x, r, hstep, h⟩
      · apply Mutex.unlockStep_act hstep
      · split at h
        · cases h
        · obtain ⟨rfl, rfl⟩ := h
          apply Mutex.unlockStep_act_ret hport hstep
  | redirect => cases h

theorem cancelStep_act_ret (hport : ∀ u ∈ (l.role target).owes, s.waits.port u = 0)
    (h : cancelStep b target self l timeout s = .ret s' r) :
  Act bar (fun q => l.queue target s.waits = some q) self s.waits (l.role target) s'.waits .idle
  := by
  cases l with
  | lock l =>
      obtain ⟨x, r', -, h⟩ := Shared.lock_eq_ret h
      cases h
  | check => apply absurd h cancelCheck_ne_ret
  | hook c => apply absurd h cancelHook_ne_ret
  | hookWakeup =>
      rw [cancelStep, Build.wakeup_of (hport target (by simp [CancelLoc.role]))] at h
      cases h
  | unlock l =>
      obtain ⟨x, r', hstep, h⟩ := Shared.unlock_eq_ret h
      obtain ⟨rfl, rfl⟩ := h
      apply Mutex.unlockStep_act_ret hport hstep
  | doUnlock l =>
      obtain ⟨x, r', hstep, h⟩ := Shared.unlock_eq_ret h
      split at h
      · obtain ⟨rfl, rfl⟩ := h
        apply Mutex.unlockStep_act_ret hport hstep
      · cases h
  | redirect =>
      obtain ⟨rfl, rfl⟩ := h
      apply Act.skip

variable {x : Setting} {k k' : SetLoc T}

theorem setStep_act (hmutex : ∀ m, ¬ bar (.mutex m))
    (h : setStep b x self k timeout s = .goto s' k') :
  Act bar (fun q => k.queue self = some q) self s.waits (k.role self) s'.waits (k'.role self)
  := by
  cases k with
  | lock l =>
      rcases Shared.lock_eq_goto h with ⟨y, l₁, hstep, rfl, rfl⟩ | ⟨y, r, hstep, h⟩
      · apply Act.on_some (Mutex.lockStep_act (hmutex _) hstep)
      · obtain ⟨rfl, rfl⟩ := h
        apply Mutex.lockStep_act_ret hstep
  | store =>
      obtain ⟨rfl, rfl⟩ := h
      apply Act.skip
  | unlock l =>
      rcases Shared.unlock_eq_goto h with ⟨y, l₁, hstep, rfl, rfl⟩ | ⟨y, r, hstep, h⟩
      · apply Mutex.unlockStep_act hstep
      · cases h

theorem setStep_act_ret
    (hport : ∀ u ∈ (k.role self : Role T (QueueRef T N)).owes, s.waits.port u = 0)
    (h : setStep b x self k timeout s = .ret s' r) :
  Act bar (fun q => k.queue self = some q) self s.waits (k.role self) s'.waits .idle
  := by
  cases k with
  | lock l =>
      obtain ⟨y, r', -, h⟩ := Shared.lock_eq_ret h
      cases h
  | store => cases h
  | unlock l =>
      obtain ⟨y, r', hstep, h⟩ := Shared.unlock_eq_ret h
      obtain ⟨rfl, rfl⟩ := h
      apply Mutex.unlockStep_act_ret hport hstep

end LibPthread
