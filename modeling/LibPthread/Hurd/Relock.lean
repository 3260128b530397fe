import LibPthread.Hurd.Sigstates

/-!
# The mutex of a wait

A wait that was not cancelled on entry releases the mutex before it blocks and locks it again at
its end. The second call of the lock function returns 0: its caller has released the mutex, so
that it is not the owner of an error-checking mutex when it asks for it again.
-/

open Concurrency

namespace LibPthread

namespace Hurd

open Shared

/-- The control points of a wait that has released the mutex and has not yet asked for it
again. -/
def WaitLoc.parted {T : Type} : WaitLoc T → Bool
  | .unlockMutex _ (.wakeup _) => true
  | .block _ => true
  | .blocked _ => true
  | .recheck _ => true
  | .drain => true
  | .final cancel _ => !cancel
  | .relockMutex _ _ (.start _) => true
  | _ => false

variable {T N : Type} [DecidableEq T] [DecidableEq N]

/-- A thread that has released the mutex in a wait is not its owner when it asks for it again,
without a time-out. -/
structure Relockable (s : Sys T N) : Prop where
  owner : ∀ t c m k, s.loc t = some (.wait c m k) → k.parted = true →
    (s.shared.obj.mutex m).attr = some .errorcheck → (s.shared.obj.mutex m).owner ≠ some t
  untimed : ∀ t c m cancel err k,
    s.loc t = some (.wait c m (.relockMutex cancel err k)) → k.untimed = true

/-! ### The owners of the mutexes -/

section Owners

variable {b : Build} {c m n : N} {self : T} {s s' : Shared T N} {l l' : Loc T N}
    {k k' : WaitLoc T} {r : Answer}

omit [DecidableEq T] [DecidableEq N] in
theorem keeps_of_eq {queue : List T} (h : s'.obj.mutex n = s.obj.mutex n) :
  Mutex.Keeps self queue (s.obj.mutex n) (s'.obj.mutex n)
  := Mutex.Keeps.of_eq (by rw [h]) (by rw [h])

omit [DecidableEq T] in
/-- A call of a function of the mutex `m` changes only the owner of `m`. -/
theorem keeps_setMutex {x : World (Mutex T) T (Queue N)}
    (h : Mutex.Keeps self (s.waits.queue (.mutex m)) (s.obj.mutex m) x.obj) (n : N) :
  Mutex.Keeps self (s.waits.queue (.mutex n)) (s.obj.mutex n) ((setMutex m s x).obj.mutex n)
  := by
  by_cases hn : n = m
  · subst hn
    simpa using h
  · apply keeps_of_eq
    simp [hn]

theorem waitStep_keeps (hport : ∀ u ∈ (k.role c m).owes, s.waits.port u = 0)
    (h : WaitStep b c m self s k s' k') (n : N) :
  Mutex.Keeps self (s.waits.queue (.mutex n)) (s.obj.mutex n) (s'.obj.mutex n)
  := by
  cases h with
  | unlocking step => exact keeps_setMutex (Mutex.unlockStep_owned step) n
  | unlocked step => exact keeps_setMutex (Mutex.unlockStep_owned_ret hport step) n
  | relocking step =>
      apply keeps_setMutex
      rw [Mutex.lockStep_same step]
      exact Mutex.Keeps.of_eq rfl rfl
  | _ => exact keeps_of_eq rfl

theorem mutexStep_keeps {q : Queue N} {k k' : Mutex.Loc T} {timeout : Bool}
    {x x' : World (Mutex T) T (Queue N)} (h : Mutex.step b q self k timeout x = .goto x' k') :
  Mutex.Keeps self (x.waits.queue q) x.obj x'.obj
  := by
  cases k with
  | lock k =>
      rw [Mutex.step] at h
      rcases Outcome.lift_eq_goto_iff.mp h with ⟨y, k₁, hlock, rfl, -⟩ | ⟨_, _, _, h'⟩
      · rw [id_eq, Mutex.lockStep_same hlock]
        exact Mutex.Keeps.of_eq rfl rfl
      · cases h'
  | trylock => exact absurd h Mutex.trylock_ne_goto
  | unlock k =>
      rw [Mutex.step] at h
      rcases Outcome.lift_eq_goto_iff.mp h with ⟨y, k₁, hunlock, rfl, -⟩ | ⟨_, _, _, h'⟩
      · exact Mutex.unlockStep_owned hunlock
      · cases h'

theorem mutexStep_keeps_ret {q : Queue N} {k : Mutex.Loc T} {timeout : Bool} {r : Ret}
    {x x' : World (Mutex T) T (Queue N)} (hport : ∀ u ∈ (k.role q).owes, x.waits.port u = 0)
    (h : Mutex.step b q self k timeout x = .ret x' r) :
  Mutex.Keeps self (x.waits.queue q) x.obj x'.obj
  := by
  cases k with
  | lock k =>
      rw [Mutex.step] at h
      obtain ⟨y, r', hlock, h'⟩ := Outcome.lift_eq_ret_iff.mp h
      cases h'
      exact Mutex.lockStep_owned hlock _
  | trylock => exact Mutex.trylock_owned _ h
  | unlock k =>
      rw [Mutex.step] at h
      obtain ⟨y, r', hunlock, h'⟩ := Outcome.lift_eq_ret_iff.mp h
      cases h'
      exact Mutex.unlockStep_owned_ret hport hunlock

theorem cancelStep_mutex {target : T} {k k' : CancelLoc N} (h : CancelStep target s k s' k') :
  s'.obj.mutex = s.obj.mutex
  := by
  cases h <;> rfl

/-- What a step makes of the owner of each mutex. -/
theorem inside_keeps (hport : ∀ u ∈ l.role.owes, s.waits.port u = 0)
    (h : Inside b self s l s' l') (n : N) :
  Mutex.Keeps self (s.waits.queue (.mutex n)) (s.obj.mutex n) (s'.obj.mutex n)
  := by
  cases h with
  | mutex step => exact keeps_setMutex (mutexStep_keeps step) n
  | wait step => exact waitStep_keeps hport step n
  | signal step => exact keeps_of_eq rfl
  | broadcast step => exact keeps_of_eq rfl
  | cancel step =>
      apply keeps_of_eq
      rw [cancelStep_mutex (cancelStep_eq_goto hport step)]

theorem returns_keeps (hport : ∀ u ∈ l.role.owes, s.waits.port u = 0)
    (h : Returns b self s l s' r) (n : N) :
  Mutex.Keeps self (s.waits.queue (.mutex n)) (s.obj.mutex n) (s'.obj.mutex n)
  := by
  cases h with
  | mutex step => exact keeps_setMutex (mutexStep_keeps_ret hport step) n
  | wait step =>
      rcases timedwaitStep_eq_ret step with ⟨abstime, -, -, rfl, -⟩ | ⟨-, rfl, -⟩ |
        ⟨cancel, err, k, x, r', -, hlock, rfl, -⟩
      · exact keeps_of_eq rfl
      · exact keeps_of_eq rfl
      · exact keeps_setMutex (Mutex.lockStep_owned hlock _) n
  | signal step => exact keeps_of_eq rfl
  | broadcast step => exact keeps_of_eq rfl
  | cancel step =>
      obtain ⟨-, rfl, -⟩ := cancelStep_eq_ret hport step
      exact keeps_of_eq rfl

/-- The release of the mutex leaves its thread without it. -/
theorem waitStep_parted (hport : ∀ u ∈ (k.role c m).owes, s.waits.port u = 0)
    (hqueue : (k.role c m).phase.queue = some (.cond c) → self ∉ s.waits.queue (.mutex m))
    (howner : k.parted = true → (s.obj.mutex m).attr = some .errorcheck →
      (s.obj.mutex m).owner ≠ some self)
    (h : WaitStep b c m self s k s' k') (hk' : k'.parted = true)
    (hattr' : (s'.obj.mutex m).attr = some .errorcheck) :
  (s'.obj.mutex m).owner ≠ some self
  := by
  have hattr : (s.obj.mutex m).attr = some .errorcheck := by
    rw [← (waitStep_keeps hport h m).attr, hattr']
  cases h with
  | start valid => cases hk'
  | enter free => cases hk'
  | cancelled set => cases hk'
  | enqueue clear => cases hk'
  | relock free => cases hk'
  | unlocking step =>
      obtain ⟨rfl, hstart⟩ := Mutex.unlockStep_eq_goto step
      simpa using (Mutex.unlockStart_owned hstart).2 hattr (hqueue rfl)
  | unlocked step =>
      rcases Mutex.unlockStep_eq_ret hport step with ⟨rfl, hstart⟩ | ⟨u, rfl, rfl, -⟩
      · simpa using (Mutex.unlockStart_owned_ret hstart).2 hattr
      · simpa using howner rfl hattr
  | @waiting k stage stage' timeout w waits step =>
      apply howner _ hattr
      cases k <;> cases waits <;> rfl
  | @waited k stage timeout err w waits step =>
      apply howner _ hattr
      cases k <;> cases waits <;> rfl
  | blocked free => exact howner rfl hattr
  | leave => cases hk'
  | final => exact howner rfl hattr
  | relocking step =>
      rcases Mutex.lockStep_eq_goto step with ⟨abstime, rfl, hstart⟩ | ⟨_, _, _, -, rfl, -⟩ |
        ⟨_, _, _, -, rfl, -⟩
      · obtain ⟨-, -, -, -, -, rfl⟩ := Mutex.lockStart_eq_goto hstart
        cases hk'
      · cases hk'
      · cases hk'

theorem waitStep_untimed {cancel err : Bool} {k' : Mutex.LockLoc}
    (hk : ∀ cancel err k₁, k = .relockMutex cancel err k₁ → k₁.untimed = true)
    (h : WaitStep b c m self s k s' (.relockMutex cancel err k')) :
  k'.untimed = true
  := by
  generalize hk'' : WaitLoc.relockMutex cancel err k' = k'' at h
  cases h with
  | final =>
      cases hk''
      rfl
  | @relocking cancel err timeout l l' x step =>
      cases hk''
      exact (Mutex.lockStep_goto_of_untimed (hk cancel err l rfl) step).2.1
  | @waiting k stage stage' timeout w waits step => cases stage' <;> cases hk''
  | _ => cases hk''

end Owners

/-! ### The release and the second lock -/

section Relockable

variable [Fintype T] {b : Build} {s s' : Sys T N} {a : Label T (Loc T N)} {t : T} {c m : N}
    {k : WaitLoc T}

omit [Fintype T] [DecidableEq T] [DecidableEq N] in
/-- A thread that has released the mutex does not wait for it. -/
theorem queue_of_parted (hk : k.parted = true) :
  (k.role c m).phase.queue ≠ some (.mutex m)
  := by
  cases k with
  | unlockMutex timed k => simp [WaitLoc.role, Phase.queue]
  | block timed => simp [WaitLoc.role, Phase.queue]
  | blocked err => simp [WaitLoc.role, Phase.queue]
  | recheck err => simp [WaitLoc.role, Phase.queue]
  | drain => simp [WaitLoc.role, Phase.queue]
  | final cancel err => simp [WaitLoc.role, Phase.queue, Role.idle]
  | relockMutex cancel err k =>
      cases k with
      | start abstime => simp [WaitLoc.role, Mutex.LockLoc.phase, Phase.queue]
      | _ => cases hk
  | _ => cases hk

/-- What the step of a thread makes of the owner of each mutex. -/
theorem Inv.keeps (h : Inv s) (hstep : (machine b).Step s a s') (n : N) :
  Mutex.Keeps a.thread (s.shared.waits.queue (.mutex n)) (s.shared.obj.mutex n)
    (s'.shared.obj.mutex n)
  := by
  cases hstep with
  | call => exact keeps_of_eq rfl
  | goto hl hstep => exact inside_keeps (h.port hl) (step_eq_goto hstep).2 n
  | ret hl hstep => exact returns_keeps (h.port hl) (step_eq_ret hstep).2 n

omit [Fintype T] in
/-- The control points of other threads stay. -/
theorem loc_other (hstep : (machine b).Step s a s') (ht : t ≠ a.thread) :
  s'.loc t = s.loc t
  := by
  cases hstep with
  | call => exact Function.update_of_ne ht _ _
  | goto => exact Function.update_of_ne ht _ _
  | ret => exact Function.update_of_ne ht _ _

/-- The step of another thread does not make `t` the owner. -/
theorem Relockable.other (h : Relockable s) (hinv : Inv s) (hstep : (machine b).Step s a s')
    (ht : t ≠ a.thread) (hl : s.loc t = some (.wait c m k)) (hk : k.parted = true)
    (hattr' : (s'.shared.obj.mutex m).attr = some .errorcheck) :
  (s'.shared.obj.mutex m).owner ≠ some t
  := by
  have hkeeps := hinv.keeps hstep m
  have hattr : (s.shared.obj.mutex m).attr = some .errorcheck := by rw [← hkeeps.attr, hattr']
  have hout : t ∉ s.shared.waits.queue (.mutex m) := by
    intro hmem
    have hqueue := (hinv.sound.queued hmem).1
    rw [roles, hl, Option.elim_some] at hqueue
    exact queue_of_parted hk hqueue
  intro howner
  rcases hkeeps.owner hattr t howner with hsame | hself | hmem
  · exact h.owner t c m k hl hk hattr hsame
  · exact ht hself
  · exact hout hmem

theorem Relockable.step (h : Relockable s) (hinv : Inv s) (hstep : (machine b).Step s a s') :
  Relockable s'
  := by
  constructor
  · intro t c m k hl hk hattr
    by_cases ht : t = a.thread
    · cases hstep with
      | @call u l hidle hentry =>
          obtain rfl : t = u := ht
          obtain rfl : l = .wait c m k := by simpa using hl
          cases k with
          | start abstime => cases hk
          | _ => cases hentry
      | @goto u timeout l l' x hl₁ h₁ =>
          obtain rfl : t = u := ht
          obtain rfl : l' = .wait c m k := by simpa using hl
          have hinside := (step_eq_goto h₁).2
          generalize hw : Loc.wait c m k = l' at hinside
          cases hinside with
          | @wait c₁ m₁ k₁ k₁' s₁ step =>
              cases hw
              apply waitStep_parted (hinv.port hl₁) _ (h.owner t c m k₁ hl₁) step hk hattr
              intro hqueue hmem
              have hqueue' := (hinv.sound.queued hmem).1
              rw [roles, hl₁, Option.elim_some, Loc.role, hqueue] at hqueue'
              cases hqueue'
          | _ => cases hw
      | @ret u timeout l x r hl₁ h₁ =>
          obtain rfl : t = u := ht
          simp at hl
    · rw [loc_other hstep ht] at hl
      exact h.other hinv hstep ht hl hk hattr
  · intro t c m cancel err k hl
    by_cases ht : t = a.thread
    · cases hstep with
      | @call u l hidle hentry =>
          obtain rfl : t = u := ht
          obtain rfl : l = .wait c m (.relockMutex cancel err k) := by simpa using hl
          cases hentry
      | @goto u timeout l l' x hl₁ h₁ =>
          obtain rfl : t = u := ht
          obtain rfl : l' = .wait c m (.relockMutex cancel err k) := by simpa using hl
          have hinside := (step_eq_goto h₁).2
          generalize hw : Loc.wait c m (.relockMutex cancel err k) = l' at hinside
          cases hinside with
          | @wait c₁ m₁ k₁ k₁' s₁ step =>
              cases hw
              apply waitStep_untimed _ step
              rintro cancel₁ err₁ k₂ rfl
              exact h.untimed t c m cancel₁ err₁ k₂ hl₁
          | _ => cases hw
      | @ret u timeout l x r hl₁ h₁ =>
          obtain rfl : t = u := ht
          simp at hl
    · rw [loc_other hstep ht] at hl
      exact h.untimed t c m cancel err k hl

theorem Relockable.of_reach {attr : N → Option MutexType}
    {G : Sys T N → Label T (Loc T N) → Prop} (hs : (machine b).Reach G (start attr) s) :
  Relockable s
  := by
  apply hs.invariant
  · constructor
    · intro t c m k hl
      cases hl
    · intro t c m cancel err k hl
      cases hl
  · intro s a s' hs h _ hstep
    exact h.step (Inv.of_reach hs) hstep

end Relockable

end Hurd

end LibPthread
