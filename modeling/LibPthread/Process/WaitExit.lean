import LibPthread.Process.CondQueue
import LibPthread.Process.Cancellation

/-!
# The ways out of a wait

A thread that leaves a wait on a condition variable, by a return of the function or because
it is cancelled inside it, holds the mutex again, its cancellation type is the one it had
before the call and its hook is gone, if no asynchronous cancellation catches it on its way
out: the cancellation type is restored before the mutex is locked again.
-/

open Concurrency

namespace LibPthread

/-- The control points of a wait from its enqueue to its return. -/
def Cond.WaitLoc.committed {T : Type} : Cond.WaitLoc T → Bool
  | .start _ => false
  | .lockCancel _ _ => false
  | .enqueue _ => false
  | .unlockCancel _ saved _ => saved.isSome
  | _ => true

/-- The control points of a wait that has released the mutex and not locked it again. -/
def Cond.WaitLoc.away {T : Type} : Cond.WaitLoc T → Bool
  | .unlockMutex _ _ (.wakeup _) => true
  | .wait _ _ => true
  | .relockCancel _ _ _ => true
  | .restore _ _ => true
  | .releaseCancel _ _ _ => true
  | .relockMutex _ _ _ => true
  | _ => false

/-- The control point belongs to a wait that was called with the cancellation type `called`,
when the type is `current`. -/
def Cond.WaitLoc.Types {T : Type} (called current : CancelType) : Cond.WaitLoc T → Prop
  | .unlockCancel _ (some oldtype) _ => oldtype = called
  | .unlockMutex _ oldtype _ => oldtype = called
  | .wait oldtype _ => oldtype = called
  | .relockCancel oldtype _ _ => oldtype = called
  | .restore oldtype _ => oldtype = called
  | _ => current = called

namespace Process

variable {T N : Type} [DecidableEq T] [DecidableEq N]

/-- A step from the control point releases the mutex `m`. -/
def Loc.releases (m : N) : Loc T N → Bool
  | .mutex n (.unlock .start) => n = m
  | .condWait _ n (.unlockMutex _ _ .start) => n = m
  | _ => false

/-- A call that returns `r` from the control point has locked the mutex `m`. A wait that
returns from its second call of the lock function has locked it, whatever it returns. -/
def Loc.acquires (m : N) (r : Ret) : Loc T N → Bool
  | .mutex n (.lock _) => n = m && r = .zero
  | .mutex n .trylock => n = m && r = .zero
  | .condWait _ n (.relockMutex _ _ _) => n = m
  | _ => false

/-- The number of times `t` has locked the mutex `m` and not yet unlocked it. -/
def depth (m : N) (t : T) : List (Event T (Loc T N) Ret) → Nat
  | [] => 0
  | .call _ _ :: log => depth m t log
  | .goto u l _ :: log => if u = t ∧ l.releases m = true then depth m t log - 1 else depth m t log
  | .ret u l r :: log =>
    if u = t ∧ l.releases m = true ∧ r = .zero then depth m t log - 1
    else if u = t ∧ l.acquires m r = true then depth m t log + 1
    else depth m t log

/-- The number of calls of `t`. -/
def calls (t : T) : List (Event T (Loc T N) Ret) → Nat
  | [] => 0
  | .call u _ :: log => if u = t then calls t log + 1 else calls t log
  | .goto _ _ _ :: log => calls t log
  | .ret _ _ _ :: log => calls t log

/-- The target of a thread that is about to record a request. -/
def Loc.checks : Option (Loc T N) → Option T
  | some (.cancel target .check) => some target
  | _ => none

/-- The control point of a thread that is going to redirect `t`. -/
def Loc.redirects (t : T) : Option (Loc T N) → Bool
  | some (.cancel target (.doUnlock _)) => target = t
  | some (.cancel target .redirect) => target = t
  | _ => false

/-- The control point of a wait that is about to test for a request and to enqueue. -/
def Loc.enqueuing : Option (Loc T N) → Bool
  | some (.condWait _ _ (.enqueue _)) => true
  | _ => false

/-- The control point of a wait that has restored its cancellation type and has not returned
yet. -/
def Loc.returning : Option (Loc T N) → Bool
  | some (.condWait _ _ (.releaseCancel _ _ _)) => true
  | some (.condWait _ _ (.relockMutex _ _ _)) => true
  | _ => false

/-- The thread is inside a wait, between its enqueue and its return. -/
def Loc.committed : Option (Loc T N) → Bool
  | some (.condWait _ _ k) => k.committed
  | _ => false

/-- No request finds its target with asynchronous cancellation enabled on its way out of a
wait, and no thread enqueues itself while another is going to redirect it. -/
def InTime [Fintype T] (s : Sys T N) : Label T (Loc T N) → Prop
  | .call _ _ => True
  | .act x _ =>
    (∀ t ∈ Loc.checks (s.loc x), ¬ ((s.shared.obj.cancel t).pending = false ∧
      (s.shared.obj.cancel t).state = .enable ∧ (s.shared.obj.cancel t).type = .asynchronous ∧
      Loc.returning (s.loc t) = true)) ∧
    ¬ (Loc.enqueuing (s.loc x) = true ∧ (s.shared.obj.cancel x).cancelled = false ∧
      ∃ y, Loc.redirects x (s.loc y) = true)

instance [Fintype T] (s : Sys T N) (a : Label T (Loc T N)) : Decidable (InTime s a) :=
  match a with
  | .call _ _ => isTrue trivial
  | .act _ _ => inferInstanceAs (Decidable (_ ∧ ¬ _))

/-! ### No thread is redirected between its enqueue and its return -/

/-- No thread that is redirected, or is going to be, is between its enqueue and its
return. -/
structure Unmoved (s : Sys T N) : Prop where
  redirects : ∀ t x, Loc.redirects t (s.loc x) = true → Loc.committed (s.loc t) = false
  redirected : ∀ t, s.shared.obj.redirected t = true → Loc.committed (s.loc t) = false

section Unmoved

variable {b : Build} {s s' : Sys T N} {a : Label T (Loc T N)} {c m : N} {t u x : T}
    {l l' : Loc T N} {k k' : Cond.WaitLoc T}

omit [DecidableEq T] [DecidableEq N] in
theorem committed_of_flow (h : k.Flow k') (hk' : k'.committed = true) :
  k.committed = true ∨ ∃ timed oldtype, k = .enqueue timed ∧
    k' = .unlockCancel timed (some oldtype) .start
  := by
  cases h with
  | start => cases hk'
  | locking => cases hk'
  | locked => cases hk'
  | cancelled => cases hk'
  | enqueued => exact .inr ⟨_, _, rfl, rfl⟩
  | unlocking => exact .inl hk'
  | _ => exact .inl rfl

/-- A thread gets between the enqueue and the return of a wait by its own enqueue. -/
theorem committed_before (hstep : (machine b).Step s a s')
    (ht : Loc.committed (s'.loc t) = true) :
  Loc.committed (s.loc t) = true ∨ (t = a.thread ∧ ∃ c m timed,
    s.loc t = some (.condWait c m (.enqueue timed)) ∧
    (s.shared.obj.cancel t).cancelled = false ∧ s.shared.obj.redirected t = false)
  := by
  cases hstep with
  | @call u l hidle hentry =>
      by_cases htu : t = u
      · subst htu
        cases l with
        | condWait c m k =>
            cases k with
            | start abstime => simp [Loc.committed, Cond.WaitLoc.committed] at ht
            | _ => cases hentry
        | _ => simp [Loc.committed] at ht
      · left
        simpa [htu] using ht
  | @goto u timeout l l' y hl h =>
      by_cases htu : t = u
      · subst htu
        cases l' with
        | condWait c m k' =>
            obtain ⟨k, rfl, hwait⟩ := stepInside_condWait (step_eq_goto h)
            have hk' : k'.committed = true := by simpa [Loc.committed] using ht
            rcases committed_of_flow (Cond.timedwaitStep_flow hwait) hk' with hk |
              ⟨timed, oldtype, rfl, rfl⟩
            · left
              rw [hl]
              apply hk
            · right
              have hfree : s.shared.obj.redirected t = false := by
                by_contra hred
                have hspin : (machine b).step t (.condWait c m (.enqueue timed)) timeout s.shared
                    = .spin := by
                  simp [machine, step, Loc.entry, hred]
                rw [hspin] at h
                cases h
              rcases Cond.waitEnqueue_eq_goto hwait with ⟨-, -, hk⟩ | ⟨hcancelled, -⟩
              · cases hk
              · use rfl, c, m, timed, hl, hcancelled
        | _ => simp [Loc.committed] at ht
      · left
        simpa [htu] using ht
  | @ret u timeout l y r hl h =>
      by_cases htu : t = u
      · subst htu
        simp [Loc.committed] at ht
      · left
        simpa [htu] using ht

/-- A thread is going to redirect `t` since before the step, or it records its request in
this step and finds asynchronous cancellation enabled. -/
theorem redirects_before (hstep : (machine b).Step s a s')
    (hx : Loc.redirects t (s'.loc x) = true) :
  Loc.redirects t (s.loc x) = true ∨ (x = a.thread ∧ s.loc x = some (.cancel t .check) ∧
    (s.shared.obj.cancel t).pending = false ∧ (s.shared.obj.cancel t).state = .enable ∧
    (s.shared.obj.cancel t).type = .asynchronous)
  := by
  cases hstep with
  | @call u l hidle hentry =>
      by_cases hxu : x = u
      · subst hxu
        cases l with
        | cancel target k =>
            obtain rfl : k = .lock (.start none) := by simpa [machine, Loc.entry] using hentry
            simp [Loc.redirects] at hx
        | _ => simp [Loc.redirects] at hx
      · left
        simpa [hxu] using hx
  | @goto u timeout l l' y hl h =>
      by_cases hxu : x = u
      · subst hxu
        rw [State.goto_loc, Function.update_self] at hx
        rw [hl]
        have hinside := step_eq_goto h
        cases l with
        | cancel target k =>
            rcases Outcome.lift_eq_goto_iff.mp hinside with ⟨z, k', hcancel, -, rfl⟩ |
              ⟨_, _, _, h'⟩
            · cases k with
              | check =>
                  rcases cancelCheck_eq_goto hcancel with ⟨-, -, rfl⟩ |
                    ⟨hnew, -, ⟨c, -, rfl, -⟩ | ⟨rfl, hstate, htype⟩ | ⟨rfl, -⟩⟩
                  · cases hx
                  · cases hx
                  · obtain rfl : target = t := by simpa [Loc.redirects] using hx
                    right
                    use rfl, rfl, hnew, hstate, htype
                  · cases hx
              | doUnlock k =>
                  left
                  rcases Shared.unlock_eq_goto hcancel with ⟨z, k₁, -, -, rfl⟩ | ⟨z, r, -, h'⟩
                  · apply hx
                  · split at h'
                    · cases h'
                    · cases h'
                      apply hx
              | hook c =>
                  obtain ⟨-, ⟨-, -, rfl⟩ | ⟨-, -, rfl⟩⟩ := cancelHook_eq_goto hcancel
                  · cases hx
                  · cases hx
              | hookWakeup =>
                  obtain rfl : k' = .unlock .start := by
                    simp only [cancelStep, Build.wakeup, Build.assert] at hcancel
                    grind
                  cases hx
              | lock k =>
                  rcases Shared.lock_eq_goto hcancel with ⟨z, k₁, -, -, rfl⟩ | ⟨z, r, -, h'⟩
                  · cases hx
                  · cases h'
                    cases hx
              | unlock k =>
                  rcases Shared.unlock_eq_goto hcancel with ⟨z, k₁, -, -, rfl⟩ | ⟨z, r, -, h'⟩
                  · cases hx
                  · cases h'
              | redirect => cases hcancel
            · cases h'
        | _ =>
            rcases Outcome.lift_eq_goto_iff.mp hinside with ⟨z, k', -, -, rfl⟩ | ⟨_, _, _, h'⟩
            · cases hx
            · cases h'
      · left
        simpa [hxu] using hx
  | @ret u timeout l y r hl h =>
      by_cases hxu : x = u
      · subst hxu
        simp [Loc.redirects] at hx
      · left
        simpa [hxu] using hx

variable [Fintype T]

omit [DecidableEq N] in
/-- A thread between its enqueue and its return defers its cancellation, or is on its way
out. -/
theorem Inv.deferred_of_committed (h : Inv s) (ht : Loc.committed (s.loc t) = true) :
  (s.shared.obj.cancel t).type = .deferred ∨ Loc.returning (s.loc t) = true
  := by
  cases hl : s.loc t with
  | none =>
      rw [hl] at ht
      cases ht
  | some l =>
      rw [hl] at ht
      cases l with
      | condWait c m k =>
          have hdeferred : (Loc.condWait c m k : Loc T N).hooked = some c →
              (s.shared.obj.cancel t).type = .deferred := by
            intro hhooked
            apply h.deferred t c
            rw [hooked_of_cond hl, hhooked]
          cases k with
          | unlockCancel timed saved k =>
              cases saved with
              | none => cases ht
              | some oldtype => exact .inl (hdeferred rfl)
          | unlockMutex timed oldtype k => exact .inl (hdeferred rfl)
          | wait oldtype stage => exact .inl (hdeferred rfl)
          | relockCancel oldtype err k => exact .inl (hdeferred rfl)
          | restore oldtype err => exact .inl (hdeferred rfl)
          | releaseCancel err cancelled k => exact .inr rfl
          | relockMutex err cancelled k => exact .inr rfl
          | _ => cases ht
      | _ => cases ht

theorem Unmoved.step_redirects (h : Unmoved s) (hinv : Inv s) (hG : InTime s a)
    (hstep : (machine b).Step s a s') (hx : Loc.redirects t (s'.loc x) = true) :
  Loc.committed (s'.loc t) = false
  := by
  by_contra ht
  rw [Bool.not_eq_false] at ht
  rcases redirects_before hstep hx with hx | ⟨rfl, hl, hnew, hstate, htype⟩
  · rcases committed_before hstep ht with ht | ⟨rfl, c, m, timed, hl, hcancelled, -⟩
    · simp [h.redirects t x hx] at ht
    · cases a with
      | call u l =>
          cases hstep with
          | call hidle _ =>
              rw [Label.thread, hidle] at hl
              cases hl
      | act u timeout =>
          rw [Label.thread] at *
          apply hG.2
          refine ⟨?_, hcancelled, x, hx⟩
          rw [hl]
          rfl
  · have hm := hinv.moves hstep
    have hta : t ≠ a.thread := by
      rintro rfl
      rcases committed_before hstep ht with ht | ⟨-, c, m, timed, hl', -⟩
      · rw [hl] at ht
        cases ht
      · rw [hl] at hl'
        cases hl'
    rw [hm.other t hta] at ht
    rcases hinv.deferred_of_committed ht with hdeferred | hreturning
    · simp [htype] at hdeferred
    · cases a with
      | call u l =>
          cases hstep with
          | call hidle _ =>
              rw [Label.thread, hidle] at hl
              cases hl
      | act u timeout =>
          rw [Label.thread] at hl
          apply hG.1 t _ ⟨hnew, hstate, htype, hreturning⟩
          rw [hl]
          rfl

theorem Unmoved.step_redirected (h : Unmoved s) (hinv : Inv s)
    (hstep : (machine b).Step s a s') (hred : s'.shared.obj.redirected t = true) :
  Loc.committed (s'.loc t) = false
  := by
  by_contra ht
  rw [Bool.not_eq_false] at ht
  have hcases : s.shared.obj.redirected t = true ∨
      s.loc a.thread = some (.cancel t .redirect) := by
    have hresume : ∀ x, (Shared.resume x s.shared).obj.redirected t = true →
        s.shared.obj.redirected t = true := by
      intro x hx
      by_cases htx : t = x
      · simp [htx] at hx
      · simpa [htx] using hx
    cases hstep with
    | call => exact .inl hred
    | @goto u timeout l l' y hl h₁ =>
        rw [State.goto_shared, (stepInside_frame (step_eq_goto h₁)).1] at hred
        left
        apply hresume u hred
    | @ret u timeout l y r hl h₁ =>
        have hport : ∀ v ∈ (l.role u).owes, s.shared.waits.port v = 0 := by
          intro v hv
          apply hinv.sound.port_of_owes (t := u)
          rw [roles_of_loc hl]
          apply hv
        rw [State.ret_shared] at hred
        rcases (stepInside_frame_ret (s := Shared.resume u s.shared) hport
          (step_eq_ret h₁)).1 with hsame | ⟨target, rfl, hsame⟩
        · left
          rw [hsame] at hred
          apply hresume u hred
        · by_cases htt : t = target
          · right
            rw [Label.thread, hl, htt]
          · left
            rw [hsame, Function.update_of_ne htt] at hred
            apply hresume u hred
  rcases committed_before hstep ht with ht | ⟨rfl, c, m, timed, hl, -, hfree⟩
  · rcases hcases with hred | hl
    · simp [h.redirected t hred] at ht
    · have hredirects : Loc.redirects t (s.loc a.thread) = true := by
        rw [hl]
        simp [Loc.redirects]
      simp [h.redirects t _ hredirects] at ht
  · rcases hcases with hred | hl'
    · rw [hfree] at hred
      cases hred
    · rw [hl] at hl'
      cases hl'

/-- In a run that meets the guard, no thread is redirected between its enqueue and its
return. -/
theorem Unmoved.of_reach {attr : N → Option MutexType} {value count : N → Nat}
    (hs : (machine b).Reach InTime (start attr value count) s) :
  Unmoved s
  := by
  apply hs.invariant
  · constructor
    · intro t x hx
      cases hx
    · intro t hred
      cases hred
  · intro s a s' hs h hG hstep
    have hinv := Inv.of_reach hs
    constructor
    · intro t x hx
      apply h.step_redirects hinv hG hstep hx
    · intro t hred
      apply h.step_redirected hinv hstep hred

end Unmoved

/-! ### The hook runs only for a thread that has installed it -/

section Hook

variable [Fintype T] {b : Build} {s s' : Sys T N} {a : Label T (Loc T N)} {t x : T}

omit [Fintype T] in
/-- The wakeup of the hook follows its section. -/
theorem hookWakeup_before (hstep : (machine b).Step s a s')
    (hx : s'.loc x = some (.cancel t .hookWakeup)) :
  (x ≠ a.thread ∧ s.loc x = some (.cancel t .hookWakeup)) ∨
    (x = a.thread ∧ ∃ c, s.loc x = some (.cancel t (.hook c)))
  := by
  cases hstep with
  | @call u l hidle hentry =>
      by_cases hxu : x = u
      · subst hxu
        obtain rfl : l = .cancel t .hookWakeup := by simpa using hx
        simp [machine, Loc.entry] at hentry
      · left
        use hxu
        simpa [hxu] using hx
  | @goto u timeout l l' y hl h =>
      by_cases hxu : x = u
      · subst hxu
        right
        use rfl
        obtain rfl : l' = .cancel t .hookWakeup := by simpa using hx
        rw [hl]
        have hinside := step_eq_goto h
        cases l with
        | cancel target k =>
            rcases Outcome.lift_eq_goto_iff.mp hinside with ⟨z, k', hcancel, -, hk'⟩ |
              ⟨_, _, _, h'⟩
            · cases hk'
              cases k with
              | hook c => use c
              | lock k =>
                  rcases Shared.lock_eq_goto hcancel with ⟨z, k₁, -, -, h'⟩ | ⟨z, r, -, h'⟩
                  · cases h'
                  · cases h'
              | check =>
                  rcases cancelCheck_eq_goto hcancel with ⟨-, -, h'⟩ |
                    ⟨-, -, ⟨c, -, h', -⟩ | ⟨h', -⟩ | ⟨h', -⟩⟩
                  all_goals cases h'
              | hookWakeup =>
                  simp only [cancelStep, Build.wakeup, Build.assert] at hcancel
                  grind
              | unlock k =>
                  rcases Shared.unlock_eq_goto hcancel with ⟨z, k₁, -, -, h'⟩ | ⟨z, r, -, h'⟩
                  · cases h'
                  · cases h'
              | doUnlock k =>
                  rcases Shared.unlock_eq_goto hcancel with ⟨z, k₁, -, -, h'⟩ | ⟨z, r, -, h'⟩
                  · cases h'
                  · split at h'
                    · cases h'
                    · cases h'
              | redirect => cases hcancel
            · cases h'
        | _ =>
            rcases Outcome.lift_eq_goto_iff.mp hinside with ⟨z, k', -, -, hk'⟩ | ⟨_, _, _, h'⟩
            · cases hk'
            · cases h'
      · left
        use hxu
        simpa [hxu] using hx
  | @ret u timeout l y r hl h =>
      by_cases hxu : x = u
      · subst hxu
        simp at hx
      · left
        use hxu
        simpa [hxu] using hx

/-- A thread does not remove its hook while the hook has still to wake it up. -/
theorem Inv.hooked_of_woken (h : Inv s) (hstep : (machine b).Step s a s')
    (hx : s.loc x = some (.cancel t .hookWakeup)) (hhooked : hooked s t ≠ none) :
  hooked s' t ≠ none
  := by
  by_cases ht : t = a.thread
  · have halters := alters hstep
    subst ht
    cases halters with
    | keep _ hsame =>
        rw [hsame]
        apply hhooked
    | @change l l' hl hl' halter =>
        have hhook : l.hooked ≠ none := by
          rw [hooked, hl, Option.bind_some] at hhooked
          apply hhooked
        have hgoal : hooked s' a.thread = l'.hooked := by rw [hooked, hl', Option.bind_some]
        rw [hgoal]
        cases halter with
        | keep _ hsame =>
            rw [hsame]
            apply hhook
        | install _ _ hafter =>
            rw [hafter]
            simp [Loc.hooked]
        | @remove c m oldtype err hbefore =>
            exfalso
            subst hbefore
            have hout := h.sound.outside a.thread (by rw [roles_of_loc hl]; rfl)
            have howes : 0 < (roles (fun t => Loc.role t) s x).pending a.thread := by
              rw [roles_of_loc hx]
              simp [Loc.role, CancelLoc.role, Role.pending]
            have hle := pending_le_owed (roles (fun t => Loc.role t) s) x a.thread
            have hzero := hout.2
            rw [credit] at hzero
            omega
        | record hbefore =>
            subst hbefore
            cases hhook rfl
        | store hbefore =>
            subst hbefore
            cases hhook rfl
  · rw [hooked_other (h.moves hstep).other ht]
    apply hhooked

/-- The hook of a thread runs only while it is installed. -/
theorem hooked_of_hookWakeup {G : Sys T N → Label T (Loc T N) → Prop}
    {attr : N → Option MutexType} {value count : N → Nat}
    (hs : (machine b).Reach G (start attr value count) s)
    (hx : s.loc x = some (.cancel t .hookWakeup)) :
  hooked s t ≠ none
  := by
  suffices hall : ∀ t x, s.loc x = some (.cancel t .hookWakeup) → hooked s t ≠ none from
    hall t x hx
  apply hs.invariant (I := fun s => ∀ t x, s.loc x = some (.cancel t .hookWakeup) →
    hooked s t ≠ none)
  · intro t x hx
    cases hx
  · intro s a s' hs h _ hstep t x hx
    have hinv := Inv.of_reach hs
    rcases hookWakeup_before hstep hx with ⟨-, hx⟩ | ⟨rfl, c, hl⟩
    · apply hinv.hooked_of_woken hstep hx (h t x hx)
    · have hhooked := (hinv.hooking t _ c hl).1
      have hta : t ≠ a.thread := by
        rintro rfl
        rw [hooked, hl, Option.bind_some] at hhooked
        cases hhooked
      rw [hooked_other (hinv.moves hstep).other hta, hhooked]
      simp

end Hook

/-! ### The owner of an error-checking mutex -/

section Keeps

variable {b : Build} {self : T} {l l' : Loc T N} {timeout : Bool} {s s' : Shared T N} {r : Ret}

omit [DecidableEq T] [DecidableEq N] in
theorem owned_of_eq {n : MutexRef T N} {queue : List T}
    (h : s'.obj.mutex n = s.obj.mutex n) :
  Mutex.Keeps self queue (s.obj.mutex n) (s'.obj.mutex n)
  := Mutex.Keeps.of_eq (by rw [h]) (by rw [h])

/-- A call of a function of the mutex `m` changes only the owner of `m`. -/
theorem owned_of_setMutex {m : MutexRef T N} {x : World (Mutex T) T (QueueRef T N)}
    (h : Mutex.Keeps self (s.waits.queue (.mutex m)) (s.obj.mutex m) x.obj) (n : MutexRef T N) :
  Mutex.Keeps self (s.waits.queue (.mutex n)) (s.obj.mutex n)
    ((Shared.setMutex m s x).obj.mutex n)
  := by
  by_cases hn : n = m
  · subst hn
    simpa using h
  · apply owned_of_eq
    apply Shared.setMutex_mutex_of_ne hn

theorem timedwaitStep_owned {c m : N} {k k' : Cond.WaitLoc T}
    (hport : ∀ u ∈ (k.role c (.user m) self).owes, s.waits.port u = 0)
    (h : Cond.timedwaitStep b c (.user m) self k timeout s = .goto s' k') (n : N) :
  Mutex.Keeps self (s.waits.queue (.mutex (.user n))) (s.obj.mutex (.user n))
    (s'.obj.mutex (.user n))
  := by
  have hcancel : ∀ x : World (Mutex T) T (QueueRef T N),
      (Shared.setMutex (.cancelLock self) s x).obj.mutex (.user n) = s.obj.mutex (.user n) :=
    fun x => Shared.setMutex_mutex_of_ne (by simp) s x
  cases k with
  | start abstime =>
      simp only [Cond.timedwaitStep] at h
      split at h
      · cases h
      · cases h
        apply owned_of_eq rfl
  | lockCancel timed k =>
      rcases Shared.lock_eq_goto h with ⟨x, k₁, -, rfl, -⟩ | ⟨x, r, -, h⟩
      · apply owned_of_eq (hcancel x)
      · cases h
        apply owned_of_eq (hcancel x)
  | enqueue timed =>
      rcases Cond.waitEnqueue_eq_goto h with ⟨-, rfl, -⟩ | ⟨-, -, rfl, -⟩
      · apply owned_of_eq rfl
      · apply owned_of_eq rfl
  | unlockCancel timed saved k =>
      rcases Shared.unlock_eq_goto h with ⟨x, k₁, -, rfl, -⟩ | ⟨x, r, -, h⟩
      · apply owned_of_eq (hcancel x)
      · cases saved with
        | none => cases h
        | some oldtype =>
            cases h
            apply owned_of_eq (hcancel x)
  | unlockMutex timed oldtype k =>
      rcases Shared.unlock_eq_goto h with ⟨x, k₁, hstep, rfl, -⟩ | ⟨x, r, hstep, h⟩
      · apply owned_of_setMutex (Mutex.unlockStep_owned hstep)
      · cases h
        apply owned_of_setMutex (Mutex.unlockStep_owned_ret hport hstep)
  | wait oldtype stage =>
      rcases Cond.waitBlocked_eq_goto h with ⟨w, stage', -, rfl, -⟩ | ⟨w, err, -, rfl, -⟩
      · apply owned_of_eq rfl
      · apply owned_of_eq rfl
  | relockCancel oldtype err k =>
      rcases Shared.lock_eq_goto h with ⟨x, k₁, -, rfl, -⟩ | ⟨x, r, -, h⟩
      · apply owned_of_eq (hcancel x)
      · cases h
        apply owned_of_eq (hcancel x)
  | restore oldtype err =>
      cases h
      apply owned_of_eq rfl
  | releaseCancel err cancelled k =>
      rcases Shared.unlock_eq_goto h with ⟨x, k₁, -, rfl, -⟩ | ⟨x, r, -, h⟩
      · apply owned_of_eq (hcancel x)
      · cases h
        apply owned_of_eq (hcancel x)
  | relockMutex err cancelled k =>
      rcases Shared.lock_eq_goto h with ⟨x, k₁, hstep, rfl, -⟩ | ⟨x, r, -, h⟩
      · apply owned_of_setMutex
        rw [Mutex.lockStep_same hstep]
        apply Mutex.Keeps.of_eq rfl rfl
      · cases h

theorem timedwaitStep_owned_ret {c m : N} {k : Cond.WaitLoc T}
    (h : Cond.timedwaitStep b c (.user m) self k timeout s = .ret s' r) (n : N) :
  Mutex.Keeps self (s.waits.queue (.mutex (.user n))) (s.obj.mutex (.user n))
    (s'.obj.mutex (.user n))
  := by
  rcases Cond.timedwaitStep_eq_ret h with ⟨abstime, -, rfl, -⟩ | ⟨timed, k, x, r', -, -, rfl, -⟩ |
    ⟨err, cancelled, k, x, r', -, hstep, rfl, -⟩
  · apply owned_of_eq rfl
  · apply owned_of_eq
    apply Shared.setMutex_mutex_of_ne (by simp)
  · apply owned_of_setMutex (Mutex.lockStep_owned hstep _)

/-- What a step of a thread makes of the owner of each mutex. -/
theorem stepInside_owned (hport : ∀ u ∈ (l.role self).owes, s.waits.port u = 0)
    (h : stepInside b self l timeout s = .goto s' l') (n : N) :
  Mutex.Keeps self (s.waits.queue (.mutex (.user n))) (s.obj.mutex (.user n))
    (s'.obj.mutex (.user n))
  := by
  cases l with
  | mutex m k =>
      rcases Outcome.lift_eq_goto_iff.mp h with ⟨x, k', hstep, rfl, -⟩ | ⟨_, _, _, h'⟩
      · apply owned_of_setMutex
        cases k with
        | lock k =>
            rcases Outcome.lift_eq_goto_iff.mp hstep with ⟨y, k₁, hlock, rfl, -⟩ | ⟨_, _, _, h'⟩
            · rw [id_eq, Mutex.lockStep_same hlock]
              apply Mutex.Keeps.of_eq rfl rfl
            · cases h'
        | trylock => apply absurd hstep Mutex.trylock_ne_goto
        | unlock k =>
            rcases Outcome.lift_eq_goto_iff.mp hstep with ⟨y, k₁, hunlock, rfl, -⟩ | ⟨_, _, _, h'⟩
            · apply Mutex.unlockStep_owned hunlock
            · cases h'
      · cases h'
  | condWait c m k =>
      rcases Outcome.lift_eq_goto_iff.mp h with ⟨x, k', hstep, rfl, -⟩ | ⟨_, _, _, h'⟩
      · apply timedwaitStep_owned hport hstep
      · cases h'
  | cancel target k =>
      rcases Outcome.lift_eq_goto_iff.mp h with ⟨x, k', hstep, rfl, -⟩ | ⟨_, _, _, h'⟩
      · apply owned_of_eq
        apply cancelStep_mutex (by simp) hstep
      · cases h'
  | set x k =>
      rcases Outcome.lift_eq_goto_iff.mp h with ⟨y, k', hstep, rfl, -⟩ | ⟨_, _, _, h'⟩
      · apply owned_of_eq
        apply setStep_mutex (by simp) hstep
      · cases h'
  | _ =>
      rcases Outcome.lift_eq_goto_iff.mp h with ⟨x, k', -, rfl, -⟩ | ⟨_, _, _, h'⟩
      · apply owned_of_eq rfl
      · cases h'

theorem stepInside_owned_ret (hport : ∀ u ∈ (l.role self).owes, s.waits.port u = 0)
    (h : stepInside b self l timeout s = .ret s' r) (n : N) :
  Mutex.Keeps self (s.waits.queue (.mutex (.user n))) (s.obj.mutex (.user n))
    (s'.obj.mutex (.user n))
  := by
  cases l with
  | mutex m k =>
      obtain ⟨x, r', hstep, h'⟩ := Outcome.lift_eq_ret_iff.mp h
      cases h'
      apply owned_of_setMutex
      cases k with
      | lock k =>
          obtain ⟨y, r', hlock, h'⟩ := Outcome.lift_eq_ret_iff.mp hstep
          cases h'
          apply Mutex.lockStep_owned hlock
      | trylock => apply Mutex.trylock_owned _ hstep
      | unlock k =>
          obtain ⟨y, r', hunlock, h'⟩ := Outcome.lift_eq_ret_iff.mp hstep
          cases h'
          apply Mutex.unlockStep_owned_ret hport hunlock
  | condWait c m k =>
      obtain ⟨x, r', hstep, h'⟩ := Outcome.lift_eq_ret_iff.mp h
      cases h'
      apply timedwaitStep_owned_ret hstep
  | cancel target k =>
      obtain ⟨x, r', hstep, h'⟩ := Outcome.lift_eq_ret_iff.mp h
      cases h'
      apply owned_of_eq
      apply cancelStep_mutex_ret (by simp) hstep
  | set x k =>
      obtain ⟨y, r', hstep, h'⟩ := Outcome.lift_eq_ret_iff.mp h
      cases h'
      apply owned_of_eq
      apply setStep_mutex_ret (by simp) hstep
  | _ =>
      obtain ⟨x, r', -, h'⟩ := Outcome.lift_eq_ret_iff.mp h
      cases h'
      apply owned_of_eq rfl

end Keeps

/-! ### A wait locks the mutex again -/

/-- The control points of a wait that has released the mutex and has not yet asked for it
again. -/
def WaitLoc.parted : Cond.WaitLoc T → Bool
  | .unlockMutex _ _ (.wakeup _) => true
  | .wait _ _ => true
  | .relockCancel _ _ _ => true
  | .restore _ _ => true
  | .releaseCancel _ _ _ => true
  | .relockMutex _ _ (.start _) => true
  | _ => false

/-- A thread that has released the mutex in a wait is not its owner when it asks for it
again, without a time-out. -/
structure Relockable (s : Sys T N) : Prop where
  owner : ∀ t c m k, s.loc t = some (.condWait c m k) → WaitLoc.parted k = true →
    (s.shared.obj.mutex (.user m)).attr = some .errorcheck →
    (s.shared.obj.mutex (.user m)).owner ≠ some t
  untimed : ∀ t c m err cancelled k,
    s.loc t = some (.condWait c m (.relockMutex err cancelled k)) → k.untimed = true

section Relockable

variable {b : Build} {t : T} {c m : N} {timeout : Bool} {k k' : Cond.WaitLoc T}

/-- The release of the mutex leaves its thread without it. -/
theorem timedwaitStep_parted {s s' : Shared T N}
    (hport : ∀ u ∈ (k.role c (.user m) t).owes, s.waits.port u = 0)
    (hqueue : (k.role c (.user m) t).phase.queue = some (.cond c) →
      t ∉ s.waits.queue (.mutex (.user m)))
    (howner : WaitLoc.parted k = true → (s.obj.mutex (.user m)).attr = some .errorcheck →
      (s.obj.mutex (.user m)).owner ≠ some t)
    (h : Cond.timedwaitStep b c (.user m) t k timeout s = .goto s' k')
    (hk' : WaitLoc.parted k' = true)
    (hattr : (s'.obj.mutex (.user m)).attr = some .errorcheck) :
  (s'.obj.mutex (.user m)).owner ≠ some t
  := by
  have hcancel : ∀ x : World (Mutex T) T (QueueRef T N),
      (Shared.setMutex (.cancelLock t) s x).obj.mutex (.user m) = s.obj.mutex (.user m) :=
    fun x => Shared.setMutex_mutex_of_ne (by simp) s x
  have hattr' : (s.obj.mutex (.user m)).attr = some .errorcheck := by
    rw [← (timedwaitStep_owned hport h m).attr, hattr]
  cases k with
  | start abstime =>
      simp only [Cond.timedwaitStep] at h
      split at h
      · cases h
      · cases h
        cases hk'
  | lockCancel timed k =>
      rcases Shared.lock_eq_goto h with ⟨x, k₁, -, -, rfl⟩ | ⟨x, r, -, h⟩
      · cases hk'
      · cases h
        cases hk'
  | enqueue timed =>
      rcases Cond.waitEnqueue_eq_goto h with ⟨-, -, rfl⟩ | ⟨-, -, -, rfl⟩
      · cases hk'
      · cases hk'
  | unlockCancel timed saved k =>
      rcases Shared.unlock_eq_goto h with ⟨x, k₁, -, -, rfl⟩ | ⟨x, r, -, h⟩
      · cases hk'
      · cases saved with
        | none => cases h
        | some oldtype =>
            cases h
            cases hk'
  | unlockMutex timed oldtype k =>
      rcases Shared.unlock_eq_goto h with ⟨x, k₁, hstep, rfl, -⟩ | ⟨x, r, hstep, h⟩
      · obtain ⟨rfl, hstart⟩ := Mutex.unlockStep_eq_goto hstep
        simpa using (Mutex.unlockStart_owned hstart).2 hattr' (hqueue rfl)
      · cases h
        rcases Mutex.unlockStep_eq_ret hport hstep with ⟨rfl, hstart⟩ | ⟨u, rfl, rfl, -⟩
        · simpa using (Mutex.unlockStart_owned_ret hstart).2 hattr'
        · simpa using howner rfl hattr'
  | wait oldtype stage =>
      rcases Cond.waitBlocked_eq_goto h with ⟨w, stage', -, rfl, -⟩ | ⟨w, err, -, rfl, -⟩
      · apply howner rfl hattr'
      · apply howner rfl hattr'
  | relockCancel oldtype err k =>
      rcases Shared.lock_eq_goto h with ⟨x, k₁, -, rfl, -⟩ | ⟨x, r, -, h⟩
      · rw [hcancel x]
        apply howner rfl hattr'
      · cases h
        rw [hcancel x]
        apply howner rfl hattr'
  | restore oldtype err =>
      cases h
      apply howner rfl hattr'
  | releaseCancel err cancelled k =>
      rcases Shared.unlock_eq_goto h with ⟨x, k₁, -, rfl, -⟩ | ⟨x, r, -, h⟩
      · rw [hcancel x]
        apply howner rfl hattr'
      · cases h
        rw [hcancel x]
        apply howner rfl hattr'
  | relockMutex err cancelled k =>
      rcases Shared.lock_eq_goto h with ⟨x, k₁, hstep, -, rfl⟩ | ⟨x, r, -, h⟩
      · rcases Mutex.lockStep_eq_goto hstep with ⟨abstime, rfl, hstart⟩ | ⟨_, _, _, -, rfl, -⟩ |
          ⟨_, _, _, -, rfl, -⟩
        · obtain ⟨-, -, -, -, -, rfl⟩ := Mutex.lockStart_eq_goto hstart
          cases hk'
        · cases hk'
        · cases hk'
      · cases h

theorem timedwaitStep_untimed {s s' : Shared T N} {err cancelled : Bool} {k' : Mutex.LockLoc}
    (hk : ∀ err cancelled k₁, k = .relockMutex err cancelled k₁ → k₁.untimed = true)
    (h : Cond.timedwaitStep b c (.user m) t k timeout s
      = .goto s' (.relockMutex err cancelled k')) :
  k'.untimed = true
  := by
  have hflow := Cond.timedwaitStep_flow h
  generalize hk'' : Cond.WaitLoc.relockMutex err cancelled k' = k'' at hflow
  cases hflow with
  | released =>
      cases hk''
      rfl
  | @returning err' cancelled' l l' =>
      cases hk''
      rcases Shared.lock_eq_goto h with ⟨x, k₁, hstep, -, hk₁⟩ | ⟨x, r, -, h⟩
      · cases hk₁
        apply (Mutex.lockStep_goto_of_untimed (hk err cancelled l rfl) hstep).2.1
      · cases h
  | _ => cases hk''

variable [Fintype T] {s s' : Sys T N} {a : Label T (Loc T N)}

omit [Fintype T] [DecidableEq T] [DecidableEq N] in
/-- A thread that has released the mutex does not wait for it. -/
theorem WaitLoc.queue_of_parted (hk : WaitLoc.parted k = true) :
  (k.role c (.user m) t).phase.queue ≠ some (.mutex (.user m))
  := by
  intro hqueue
  rcases WaitLoc.kind_of_queue hqueue with ⟨hq, -⟩ | ⟨hq, -⟩ | ⟨-, err, cancelled, st, rfl⟩
  · cases hq
  · cases hq
  · cases hk

/-- The step of another thread does not make `t` the owner. -/
theorem Relockable.other (h : Relockable s) (hinv : Inv s) (hstep : (machine b).Step s a s')
    (hta : t ≠ a.thread) (hl : s.loc t = some (.condWait c m k)) (hk : WaitLoc.parted k = true)
    (hattr : (s'.shared.obj.mutex (.user m)).attr = some .errorcheck) :
  (s'.shared.obj.mutex (.user m)).owner ≠ some t
  := by
  have hout : t ∉ s.shared.waits.queue (.mutex (.user m)) := by
    intro hmem
    have hqueue := (hinv.sound.queued hmem).1
    rw [roles_of_loc hl] at hqueue
    apply WaitLoc.queue_of_parted hk hqueue
  have howned : Mutex.Keeps a.thread (s.shared.waits.queue (.mutex (.user m)))
      (s.shared.obj.mutex (.user m)) (s'.shared.obj.mutex (.user m)) := by
    cases hstep with
    | call => apply owned_of_eq rfl
    | @goto u timeout l l' y hl h₁ =>
        apply stepInside_owned (s := Shared.resume u s.shared) _ (step_eq_goto h₁)
        intro v hv
        apply hinv.sound.port_of_owes (t := u)
        rw [roles_of_loc hl]
        apply hv
    | @ret u timeout l y r hl h₁ =>
        apply stepInside_owned_ret (s := Shared.resume u s.shared) _ (step_eq_ret h₁)
        intro v hv
        apply hinv.sound.port_of_owes (t := u)
        rw [roles_of_loc hl]
        apply hv
  have hattr' : (s.shared.obj.mutex (.user m)).attr = some .errorcheck := by
    rw [← howned.attr, hattr]
  intro howner
  rcases howned.owner hattr' t howner with hsame | hself | hmem
  · apply h.owner t c m k hl hk hattr' hsame
  · apply hta hself
  · apply hout hmem

theorem Relockable.step (h : Relockable s) (hinv : Inv s) (hstep : (machine b).Step s a s') :
  Relockable s'
  := by
  have hm := hinv.moves hstep
  constructor
  · intro t c m k hl hk hattr
    by_cases hta : t = a.thread
    · cases hstep with
      | @call u l hidle hentry =>
          obtain rfl : t = u := hta
          obtain rfl : l = .condWait c m k := by simpa using hl
          cases k with
          | start abstime => cases hk
          | _ => cases hentry
      | @goto u timeout l l' y hl₁ h₁ =>
          obtain rfl : t = u := hta
          obtain rfl : l' = .condWait c m k := by simpa using hl
          obtain ⟨k₀, rfl, hwait⟩ := stepInside_condWait (step_eq_goto h₁)
          apply timedwaitStep_parted _ _ _ hwait hk hattr
          · intro v hv
            apply hinv.sound.port_of_owes (t := t)
            rw [roles_of_loc hl₁]
            apply hv
          · intro hqueue hmem
            have hqueue' := (hinv.sound.queued hmem).1
            rw [roles_of_loc hl₁, Loc.role, hqueue] at hqueue'
            cases hqueue'
          · intro hk₀ hattr₀
            apply h.owner t c m k₀ hl₁ hk₀ hattr₀
      | @ret u timeout l y r hl₁ h₁ =>
          obtain rfl : t = u := hta
          simp at hl
    · rw [hm.other t hta] at hl
      apply h.other hinv hstep hta hl hk hattr
  · intro t c m err cancelled k hl
    by_cases hta : t = a.thread
    · cases hstep with
      | @call u l hidle hentry =>
          obtain rfl : t = u := hta
          obtain rfl : l = .condWait c m (.relockMutex err cancelled k) := by simpa using hl
          cases hentry
      | @goto u timeout l l' y hl₁ h₁ =>
          obtain rfl : t = u := hta
          obtain rfl : l' = .condWait c m (.relockMutex err cancelled k) := by simpa using hl
          obtain ⟨k₀, rfl, hwait⟩ := stepInside_condWait (step_eq_goto h₁)
          apply timedwaitStep_untimed _ hwait
          rintro err₁ cancelled₁ k₁ rfl
          apply h.untimed t c m err₁ cancelled₁ k₁ hl₁
      | @ret u timeout l y r hl₁ h₁ =>
          obtain rfl : t = u := hta
          simp at hl
    · rw [hm.other t hta] at hl
      apply h.untimed t c m err cancelled k hl

theorem Relockable.of_reach {G : Sys T N → Label T (Loc T N) → Prop}
    {attr : N → Option MutexType} {value count : N → Nat}
    (hs : (machine b).Reach G (start attr value count) s) :
  Relockable s
  := by
  apply hs.invariant
  · constructor
    · intro t c m k hl
      cases hl
    · intro t c m err cancelled k hl
      cases hl
  · intro s a s' hs h _ hstep
    apply h.step (Inv.of_reach hs) hstep

end Relockable

/-! ### The ways out -/

/-- Thread `t` holds the mutex `m`, its cancellation type is `type`, and its hook is neither
installed nor running. -/
structure Exited (m : N) (t : T) (type : CancelType) (s : Sys T N) : Prop where
  holds : 0 < depth m t s.log
  type : (s.shared.obj.cancel t).type = type
  hook : (s.shared.obj.cancel t).hook = none
  hooks : ∀ x c, s.loc x ≠ some (.cancel t (.hook c))
  wakes : ∀ x, s.loc x ≠ some (.cancel t .hookWakeup)

/-- The latest call of `t`, its call number `n`, is a wait on `c` with `m`, made with the
cancellation type `type` by a thread that had locked `m` `d` times; it has returned, or it is
where it has released `m` if it is `away`. -/
def Called (c m : N) (t : T) (type : CancelType) (d n : Nat) (s : Sys T N) : Prop :=
  n < calls t s.log ∨ (calls t s.log = n ∧ (s.loc t = none ∨
    ∃ k, s.loc t = some (.condWait c m k) ∧ k.Types type (s.shared.obj.cancel t).type ∧
      depth m t s.log = if k.away then d - 1 else d))

section Called

variable {b : Build} {s s' : Sys T N} {a : Label T (Loc T N)} {t u : T} {c m : N}
    {k k' : Cond.WaitLoc T} {type : CancelType} {d n : Nat} {log : List (Event T (Loc T N) Ret)}

omit [DecidableEq N] in
theorem Alters.type_eq (ha : Alters u s s') (ht : t ≠ u) :
  (s'.shared.obj.cancel t).type = (s.shared.obj.cancel t).type
  := by
  cases ha with
  | keep hfields => rw [hfields]
  | change _ _ halter =>
      cases halter with
      | keep hfields => rw [hfields]
      | install _ _ _ hfields => rw [hfields, Function.update_of_ne ht]
      | remove _ _ hfields => rw [hfields, Function.update_of_ne ht]
      | record _ _ hfields =>
          rw [hfields, Function.update_apply]
          split
          · rename_i htarget
            rw [htarget]
          · rfl
      | store _ _ hfields => rw [hfields, Function.update_of_ne ht]

/-- The steps of a wait keep account of the cancellation type. -/
theorem types_step {timeout : Bool} {x y : Shared T N}
    (h : Cond.timedwaitStep b c (.user m) t k timeout x = .goto y k')
    (hk : k.Types type (x.obj.cancel t).type) :
  k'.Types type (y.obj.cancel t).type
  := by
  have hflow := Cond.timedwaitStep_flow h
  have hchange := timedwaitStep_change h
  cases hchange with
  | install hbefore _ hafter _ =>
      cases hbefore
      cases hafter
      apply hk
  | remove hbefore hafter hfields =>
      cases hbefore
      cases hafter
      rw [hfields, Function.update_self]
      apply hk
  | record hbefore => cases hbefore
  | store hbefore => cases hbefore
  | keep hfields hhooked =>
      rw [hfields]
      cases hflow with
      | enqueued => cases hhooked
      | restored => cases hhooked
      | @unlocking timed saved u =>
          cases saved with
          | none => apply hk
          | some oldtype => apply hk
      | unlocked => apply hk
      | _ => apply hk

/-- The steps of a wait keep account of the mutex. -/
theorem depth_flow (h : k.Flow k')
    (hk : depth m t log = if k.away then d - 1 else d) :
  depth m t (.goto t (.condWait c m k) (.condWait c m k') :: log) = if k'.away then d - 1 else d
  := by
  cases h with
  | leaving => simpa [depth, Loc.releases, Cond.WaitLoc.away] using congrArg (· - 1) hk
  | @left timed oldtype l =>
      cases l with
      | start => simpa [depth, Loc.releases, Cond.WaitLoc.away] using congrArg (· - 1) hk
      | wakeup u => simpa [depth, Loc.releases, Cond.WaitLoc.away] using hk
  | _ => simpa [depth, Loc.releases, Cond.WaitLoc.away] using hk

variable [Fintype T]

theorem Called.step (h : Called c m t type d n s) (hinv : Inv s)
    (hstep : (machine b).Step s a s') :
  Called c m t type d n s'
  := by
  have hm := hinv.moves hstep
  have ha := alters hstep
  rcases h with hlater | ⟨hn, hcases⟩
  · left
    apply lt_of_lt_of_le hlater
    cases hstep with
    | @call u l =>
        simp only [State.call_log, calls]
        split <;> omega
    | goto => apply le_refl
    | ret => apply le_refl
  · by_cases hta : t = a.thread
    · cases hstep with
      | @call u l hidle hentry =>
          obtain rfl : t = u := hta
          left
          simp [calls, hn]
      | @goto u timeout l l' y hl h₁ =>
          obtain rfl : t = u := hta
          rcases hcases with hnone | ⟨k, hk, htypes, hdepth⟩
          · simp [hl] at hnone
          · obtain rfl : l = .condWait c m k := by simpa [hl] using hk
            rcases Outcome.lift_eq_goto_iff.mp (step_eq_goto h₁) with ⟨z, k', hwait, rfl, rfl⟩ |
              ⟨_, _, _, h'⟩
            · right
              refine ⟨hn, .inr ⟨k', by simp, ?_, ?_⟩⟩
              · apply types_step hwait htypes
              · apply depth_flow (Cond.timedwaitStep_flow hwait) hdepth
            · cases h'
      | @ret u timeout l y r hl h₁ =>
          obtain rfl : t = u := hta
          right
          refine ⟨hn, .inl (by simp)⟩
    · right
      have hsame : depth m t s'.log = depth m t s.log ∧ calls t s'.log = calls t s.log := by
        cases hstep with
        | @call u l =>
            have hu : ¬ u = t := fun hu => hta hu.symm
            simp [depth, calls, hu]
        | @goto u =>
            have hu : ¬ u = t := fun hu => hta hu.symm
            simp [depth, calls, hu]
        | @ret u =>
            have hu : ¬ u = t := fun hu => hta hu.symm
            simp [depth, calls, hu]
      rw [hsame.1, hsame.2, hm.other t hta, ha.type_eq hta]
      use hn

omit [Fintype T] [DecidableEq T] [DecidableEq N] in
/-- Before its enqueue a wait has no hook, has not released the mutex and has not changed
the cancellation type. -/
theorem uncommitted {current : CancelType} (hk : k.committed = false)
    (htypes : k.Types type current) :
  (Loc.condWait c m k : Loc T N).hooked = none ∧ k.away = false ∧ current = type
  := by
  cases k with
  | unlockCancel timed saved k =>
      cases saved with
      | none => use rfl, rfl, htypes
      | some oldtype => cases hk
  | start abstime => use rfl, rfl, htypes
  | lockCancel timed k => use rfl, rfl, htypes
  | enqueue timed => use rfl, rfl, htypes
  | _ => cases hk

/-- A thread without a hook installed is not the target of a running hook. -/
theorem Exited.of_unhooked {G : Sys T N → Label T (Loc T N) → Prop}
    {attr : N → Option MutexType} {value count : N → Nat}
    (hs : (machine b).Reach G (start attr value count) s) (hhooked : hooked s t = none)
    (hholds : 0 < depth m t s.log) (htype : (s.shared.obj.cancel t).type = type) :
  Exited m t type s
  := by
  have hinv := Inv.of_reach hs
  refine ⟨hholds, htype, ?_, ?_, ?_⟩
  · rw [hinv.hook, hhooked]
  · intro x c hx
    rw [(hinv.hooking t x c hx).1] at hhooked
    cases hhooked
  · intro x hx
    apply hooked_of_hookWakeup hs hx hhooked

omit [Fintype T] in
/-- A wait that returns has locked the mutex as often as before, and has restored the
cancellation type. -/
theorem Called.returned {timeout : Bool} {k : Cond.WaitLoc T} {x y : Shared T N} {r : Ret}
    (hd : 0 < d) (htypes : k.Types type (x.obj.cancel t).type)
    (hdepth : depth m t log = if k.away then d - 1 else d)
    (h : Cond.timedwaitStep b c (.user m) t k timeout x = .ret y r) :
  0 < depth m t (.ret t (.condWait c m k) r :: log) ∧ (y.obj.cancel t).type = type
  := by
  rcases Cond.timedwaitStep_eq_ret h with ⟨abstime, rfl, rfl, rfl⟩ |
    ⟨timed, k, z, r', rfl, -, rfl, rfl⟩ | ⟨err, cancelled, k, z, r', rfl, -, rfl, rfl⟩
  · refine ⟨?_, htypes⟩
    have hsame : depth m t log = d := by simpa [Cond.WaitLoc.away] using hdepth
    simpa [depth, Loc.releases, Loc.acquires, hsame] using hd
  · refine ⟨?_, htypes⟩
    have hsame : depth m t log = d := by simpa [Cond.WaitLoc.away] using hdepth
    simpa [depth, Loc.releases, Loc.acquires, hsame] using hd
  · refine ⟨?_, htypes⟩
    simp [depth, Loc.releases, Loc.acquires]

end Called

variable [Fintype T] {b : Build} {attr : N → Option MutexType} {value count : N → Nat}
    {s₀ s : Sys T N} {t : T} {c m : N} {abstime : Option Timespec}

/-- Every way out of a wait that was called with the mutex held leaves the thread with the
mutex held, its cancellation type restored and its hook gone: the returns of the function,
and a redirection of the thread inside it. The second call of the lock function returns 0. -/
theorem mutex_held_on_exit (hs : (machine b).Reach InTime (start attr value count) s₀)
    (hidle : s₀.loc t = none) (hheld : 0 < depth m t s₀.log)
    (hreach : (machine b).Reach InTime (s₀.call t (.condWait c m (.start abstime))) s)
    (hcalls : calls t s.log = calls t s₀.log + 1) :
  (∀ timeout s', (machine b).Step s (.act t timeout) s' → s'.loc t = none →
      Exited m t (s₀.shared.obj.cancel t).type s') ∧
    (s.shared.obj.redirected t = true → s.loc t ≠ none →
      Exited m t (s₀.shared.obj.cancel t).type s) ∧
    (∀ timeout err cancelled k x r,
      s.loc t = some (.condWait c m (.relockMutex err cancelled k)) →
      Mutex.lockStep b (.mutex (.user m)) t k timeout (Shared.getMutex (.user m) s.shared)
        = .ret x r → r = .zero)
  := by
  have hcall : (machine b).Step s₀ (.call t (.condWait c m (.start abstime)))
      (s₀.call t (.condWait c m (.start abstime))) := .call hidle rfl
  have hstart : (machine b).Reach InTime (start attr value count) s :=
    (hs.step (a := .call t (.condWait c m (.start abstime))) trivial hcall).trans hreach
  have hinv := Inv.of_reach hstart
  have hcalled : Called c m t (s₀.shared.obj.cancel t).type (depth m t s₀.log)
      (calls t s₀.log + 1) s := by
    apply (hreach.invariant (I := fun s => Inv s ∧ Called c m t (s₀.shared.obj.cancel t).type
      (depth m t s₀.log) (calls t s₀.log + 1) s) _ _).2
    · refine ⟨(Inv.of_reach hs).step hcall, .inr ⟨?_, .inr ?_⟩⟩
      · simp [calls]
      · refine ⟨.start abstime, by simp, rfl, ?_⟩
        simp [depth, Cond.WaitLoc.away]
    · rintro s a s' - ⟨hinv, hcalled⟩ - hstep
      use hinv.step hstep
      apply hcalled.step hinv hstep
  have hcases : s.loc t = none ∨ ∃ k, s.loc t = some (.condWait c m k) ∧
      k.Types (s₀.shared.obj.cancel t).type (s.shared.obj.cancel t).type ∧
      depth m t s.log = if k.away then depth m t s₀.log - 1 else depth m t s₀.log := by
    rcases hcalled with hlater | ⟨-, hcases⟩
    · omega
    · apply hcases
  refine ⟨?_, ?_, ?_⟩
  · intro timeout s' hstep hnone
    rcases hcases with hout | ⟨k, hl, htypes, hdepth⟩
    · cases hstep with
      | goto hl => simp [hl] at hout
      | ret hl => simp [hl] at hout
    · have hreach' : (machine b).Reach (fun _ _ => True) (start attr value count) s' :=
        (hstart.mono (fun _ _ _ => trivial)).step trivial hstep
      have hhooked : hooked s' t = none := by
        rw [hooked, hnone]
        rfl
      cases hstep with
      | goto => simp at hnone
      | @ret _ _ l y r hl₁ h₁ =>
          obtain rfl : l = .condWait c m k := by simpa [hl₁] using hl
          obtain ⟨z, r', hwait, h'⟩ := Outcome.lift_eq_ret_iff.mp (step_eq_ret h₁)
          cases h'
          obtain ⟨hholds, htype⟩ := Called.returned (x := Shared.resume t s.shared) hheld
            htypes hdepth hwait
          apply Exited.of_unhooked hreach' hhooked hholds htype
  · intro hred hin
    rcases hcases with hout | ⟨k, hl, htypes, hdepth⟩
    · apply absurd hout hin
    · have hcommitted := (Unmoved.of_reach hstart).redirected t hred
      rw [hl] at hcommitted
      obtain ⟨hunhooked, haway, htype⟩ := uncommitted hcommitted htypes
      apply Exited.of_unhooked hstart
      · rw [hooked_of_cond hl, hunhooked]
      · rw [hdepth, haway]
        apply hheld
      · apply htype
  · intro timeout err cancelled k x r hl hstep
    have hrelock := Relockable.of_reach hstart
    apply Mutex.lockStep_zero (hrelock.untimed t c m err cancelled k hl) _ hstep
    rintro abstime rfl hattr
    apply hrelock.owner t c m _ hl rfl hattr

/-- `t` waits, `u` signals it, and `t` has restored its cancellation type. -/
def signalled {T : Type} (t u : T) : List (Label T (Loc T Unit)) :=
  [.act t false, .act t false, .act t false, .act t false, .act t false,
    .call u (.condSignal () .start), .act u false, .act u false, .act t false, .act t false,
    .act t false, .act t false, .act t false]

/-- Thread 0 returns from a wait with the mutex held. -/
theorem mutex_held_on_exit_signalled :
  ∃ s₀ s s', (machine .debug).Reach InTime plainStart s₀ ∧ 0 < depth () 0 s₀.log ∧
    (machine .debug).Reach InTime (s₀.call 0 (.condWait () () (.start none))) s ∧
    (machine .debug).Step s (.act 0 false) s' ∧ s'.loc 0 = none ∧ Exited () 0 .deferred s'
  := by
  obtain ⟨s₀, hs₀, hp⟩ := Machine.exists_reach_of_run (M := machine .debug) (G := InTime)
    (s := plainStart) [.call 0 (.mutex () (.lock (.start none))), .act 0 false]
    (fun s₀ => s₀.loc 0 = none ∧ 0 < depth () 0 s₀.log ∧
      (s₀.shared.obj.cancel 0).type = .deferred ∧
      (((machine .debug).run InTime (s₀.call 0 (.condWait () () (.start none))) (signalled 0 1)).any
        fun s => calls 0 s.log = calls 0 s₀.log + 1 ∧
          (((machine .debug).exec s (.act 0 false)).any fun s' => s'.loc 0 = none) = true) = true)
    (by decide +kernel)
  simp only [decide_eq_true_eq] at hp
  obtain ⟨hidle, hheld, htype, hrun⟩ := hp
  obtain ⟨s, hs, hnext⟩ := Option.any_eq_true _ _ |>.mp hrun
  simp only [decide_eq_true_eq] at hnext
  obtain ⟨hcalls, hlast⟩ := hnext
  obtain ⟨s', hs', hnone⟩ := Option.any_eq_true _ _ |>.mp hlast
  simp only [decide_eq_true_eq] at hnone
  have hreach := Machine.reach_of_run _ _ _ hs
  have hstep := Machine.exec_eq_some_iff.mp hs'
  use s₀, s, s', hs₀, hheld, hreach, hstep, hnone
  rw [← htype]
  apply (mutex_held_on_exit hs₀ hidle hheld hreach hcalls).1 false s' hstep hnone

/-- A thread with asynchronous cancellation that is cancelled inside its wait without holding
the mutex. -/
theorem redirected_without_mutex :
  ∃ s₀ s, (machine .debug).Reach (fun _ _ => True) plainStart s₀ ∧ s₀.loc 0 = none ∧
    0 < depth () 0 s₀.log ∧
    (machine .debug).Reach (fun _ _ => True) (s₀.call 0 (.condWait () () (.start none))) s ∧
    calls 0 s.log = calls 0 s₀.log + 1 ∧ s.shared.obj.redirected 0 = true ∧
    s.loc 0 = some (.condWait () () (.relockMutex false false (.start none))) ∧
    depth () 0 s.log = 0
  := by
  obtain ⟨s₀, hs₀, hp⟩ := Machine.exists_reach_of_run (M := machine .debug)
    (G := fun _ _ => True) (s := plainStart)
    [.call 0 (.set (.type .asynchronous) (.lock (.start none))), .act 0 false, .act 0 false,
      .act 0 false, .call 0 (.mutex () (.lock (.start none))), .act 0 false]
    (fun s₀ => s₀.loc 0 = none ∧ 0 < depth () 0 s₀.log ∧
      (((machine .debug).run (fun _ _ => True) (s₀.call 0 (.condWait () () (.start none)))
        (signalled 0 1 ++ [.call 1 (.cancel 0 (.lock (.start none))), .act 1 false, .act 1 false,
          .act 1 false, .act 1 false])).any
        fun s => calls 0 s.log = calls 0 s₀.log + 1 ∧ s.shared.obj.redirected 0 = true ∧
          s.loc 0 = some (.condWait () () (.relockMutex false false (.start none))) ∧
          depth () 0 s.log = 0) = true)
    (by decide +kernel)
  simp only [decide_eq_true_eq] at hp
  obtain ⟨hidle, hheld, hrun⟩ := hp
  obtain ⟨s, hs, hlast⟩ := Option.any_eq_true _ _ |>.mp hrun
  simp only [decide_eq_true_eq] at hlast
  use s₀, s, hs₀, hidle, hheld, Machine.reach_of_run _ _ _ hs

end Process

end LibPthread
