import LibPthread.Process.CancelLock

/-!
# Asynchronous cancellation

A request for the cancellation of a thread is acted upon when it is made, if cancellation is
enabled and asynchronous at that moment. A request that comes earlier stays pending, also when
the thread enables cancellation or makes it asynchronous later: neither of the two setters looks
at the pending request, and further requests return at once.
-/

open Concurrency

namespace LibPthread

namespace Process

variable {T N : Type} [DecidableEq T] [DecidableEq N]

/-- Cancellation is enabled and asynchronous, and a request is pending. -/
def Due (x : Cancel N) : Prop :=
  x.state = .enable ∧ x.type = .asynchronous ∧ x.pending = true

instance (x : Cancel N) : Decidable (Due x) :=
  inferInstanceAs (Decidable (_ ∧ _ ∧ _))

/-- The control points of a canceller of `t` inside of `__pthread_do_cancel`. -/
def Loc.doesCancel (t : T) : Loc T N → Bool
  | .cancel target (.doUnlock _) => target = t
  | .cancel target .redirect => target = t
  | _ => false

/-- The call that ends has sent `t` to `pthread_exit`: a canceller has redirected it, or `t`, its
own canceller, calls `call_exit`. -/
def sends (t : T) : Event T (Loc T N) Ret → Bool
  | .ret u (.cancel target (.doUnlock _)) r => target = t && u = t && r = .canceled
  | .ret _ (.cancel target .redirect) _ => target = t
  | _ => false

/-- The thread has been redirected into `pthread_exit`. -/
def Sent (t : T) (s : Sys T N) : Prop :=
  s.log.any (sends t) = true

/-- The request for the cancellation of `t` is acted upon, or has been. -/
def Served (t : T) (s : Sys T N) : Prop :=
  (∃ u, (s.loc u).any (Loc.doesCancel t) = true) ∨ Sent t s

/-- A request that is due is not lost. -/
def NotLost (t : T) (s : Sys T N) : Prop :=
  Due (s.shared.obj.cancel t) → Served t s

/-- The calls: `t` sets its cancellation state and type, and any thread cancels `t`. -/
def Loc.Concerns (t u : T) : Loc T N → Prop
  | .cancel target _ => target = t
  | .set _ _ => u = t
  | _ => False

/-- What a setter at the control point is about to store. -/
def Loc.stores : Loc T N → Option Setting
  | .set x .store => some x
  | _ => none

/-- No setter makes a pending request due, unless the request is acted upon or has been. -/
def SetsInTime (t : T) (s : Sys T N) : Label T (Loc T N) → Prop
  | .call _ _ => True
  | .act u _ => u = t → ∀ x ∈ (s.loc t).bind Loc.stores,
    Due (x.apply (s.shared.obj.cancel t)) → Served t s

/-- The guard of the runs. -/
def Timely (t : T) (s : Sys T N) (a : Label T (Loc T N)) : Prop :=
  (match a with
    | .call u l => l.Concerns t u
    | .act _ _ => True) ∧ SetsInTime t s a

instance (t u : T) (l : Loc T N) : Decidable (l.Concerns t u) :=
  match l with
  | .cancel target _ => inferInstanceAs (Decidable (target = t))
  | .set _ _ => inferInstanceAs (Decidable (u = t))
  | .mutex _ _ => inferInstanceAs (Decidable False)
  | .rwlock _ _ => inferInstanceAs (Decidable False)
  | .sem _ _ => inferInstanceAs (Decidable False)
  | .barrier _ _ => inferInstanceAs (Decidable False)
  | .condWait _ _ _ => inferInstanceAs (Decidable False)
  | .condSignal _ _ => inferInstanceAs (Decidable False)
  | .condBroadcast _ _ => inferInstanceAs (Decidable False)

instance (t : T) (s : Sys T N) : Decidable (Sent t s) :=
  inferInstanceAs (Decidable (_ = true))

instance [Fintype T] (t : T) (s : Sys T N) : Decidable (Served t s) :=
  inferInstanceAs (Decidable (_ ∨ _))

instance [Fintype T] (t : T) (s : Sys T N) (a : Label T (Loc T N)) :
    Decidable (Timely t s a) :=
  match a with
  | .call _ _ => inferInstanceAs (Decidable (_ ∧ True))
  | .act _ _ => inferInstanceAs (Decidable (True ∧ (_ → ∀ x ∈ (s.loc t).bind Loc.stores, _ → _)))

/-- All threads are inside of calls that concern `t`. -/
def Concerned (t : T) (s : Sys T N) : Prop :=
  ∀ u l, s.loc u = some l → l.Concerns t u

section Steps

variable {b : Build} {t u : T} {l l' : Loc T N} {c : Bool} {s s' : Sys T N} {x y : Shared T N}
    {r : Ret} {a : Label T (Loc T N)}

theorem concerns_of_goto (h : stepInside b u l c x = .goto y l') (hl : l.Concerns t u) :
  l'.Concerns t u
  := by
  cases l with
  | cancel target k =>
      rcases Outcome.lift_eq_goto_iff.mp h with ⟨z, k', -, rfl, rfl⟩ | ⟨_, _, _, h'⟩
      · exact hl
      · cases h'
  | set set k =>
      rcases Outcome.lift_eq_goto_iff.mp h with ⟨z, k', -, rfl, rfl⟩ | ⟨_, _, _, h'⟩
      · exact hl
      · cases h'
  | _ => cases hl

/-- A canceller stays inside of `__pthread_do_cancel` until it returns. -/
theorem doesCancel_of_goto (h : stepInside b u l c x = .goto y l')
    (hl : l.doesCancel t = true) :
  l'.doesCancel t = true
  := by
  cases l with
  | cancel target k =>
      rcases Outcome.lift_eq_goto_iff.mp h with ⟨z, k', hstep, rfl, rfl⟩ | ⟨_, _, _, h'⟩
      · cases k with
        | doUnlock k =>
            rcases Shared.unlock_eq_goto hstep with ⟨w, k₁, -, rfl, rfl⟩ | ⟨w, r, -, h'⟩
            · exact hl
            · split at h'
              · cases h'
              · obtain ⟨rfl, rfl⟩ := h'
                exact hl
        | redirect => cases hstep
        | _ => cases hl
      · cases h'
  | _ => cases hl

/-- A canceller that returns from `__pthread_do_cancel` has sent its target to `pthread_exit`. -/
theorem sends_of_ret (h : stepInside b u l c x = .ret y r) (hl : l.doesCancel t = true) :
  sends t (.ret u l r) = true
  := by
  cases l with
  | cancel target k =>
      obtain ⟨z, r', hstep, h'⟩ := Outcome.lift_eq_ret_iff.mp h
      obtain ⟨rfl, rfl⟩ := h'
      cases k with
      | doUnlock k =>
          obtain ⟨w, r₁, -, h'⟩ := Shared.unlock_eq_ret hstep
          split at h'
          · rename_i hself
            obtain ⟨rfl, rfl⟩ := h'
            have htarget : target = t := by simpa [Loc.doesCancel] using hl
            simp [sends, ← hself, htarget]
          · cases h'
      | redirect => exact hl
      | _ => cases hl
  | _ => cases hl

theorem Concerned.step (h : Concerned t s) (hG : Timely t s a)
    (hstep : (machine b).Step s a s') :
  Concerned t s'
  := by
  intro v k hk
  cases hstep with
  | @call u l =>
      by_cases hv : v = u
      · subst hv
        simp only [State.call_loc, Function.update_self, Option.some.injEq] at hk
        subst hk
        exact hG.1
      · simp only [State.call_loc, Function.update_of_ne hv] at hk
        exact h v k hk
  | @goto u c l l' x hl hx =>
      by_cases hv : v = u
      · subst hv
        simp only [State.goto_loc, Function.update_self, Option.some.injEq] at hk
        subst hk
        exact concerns_of_goto (step_eq_goto hx) (h v l hl)
      · simp only [State.goto_loc, Function.update_of_ne hv] at hk
        exact h v k hk
  | @ret u c l x r hl hx =>
      by_cases hv : v = u
      · subst hv
        simp at hk
      · simp only [State.ret_loc, Function.update_of_ne hv] at hk
        exact h v k hk

/-- What is acted upon remains so until the thread has been sent to `pthread_exit`. -/
theorem Served.step (h : Served t s) (hstep : (machine b).Step s a s') :
  Served t s'
  := by
  rcases h with ⟨v, hv⟩ | hsent
  · obtain ⟨k, hk, hdoes⟩ := (Option.any_eq_true _ _).mp hv
    cases hstep with
    | @call u l hidle =>
        have hne : v ≠ u := by
          rintro rfl
          rw [hidle] at hk
          cases hk
        left
        use v
        rw [State.call_loc, Function.update_of_ne hne]
        exact hv
    | @goto u c l l' x hl hx =>
        left
        use v
        by_cases hne : v = u
        · subst hne
          obtain rfl := Option.some.inj (hl.symm.trans hk)
          rw [State.goto_loc, Function.update_self]
          exact doesCancel_of_goto (step_eq_goto hx) hdoes
        · rw [State.goto_loc, Function.update_of_ne hne]
          exact hv
    | @ret u c l x r hl hx =>
        by_cases hne : v = u
        · subst hne
          obtain rfl := Option.some.inj (hl.symm.trans hk)
          right
          rw [Sent, State.ret_log, List.any_cons, sends_of_ret (step_eq_ret hx) hdoes, Bool.true_or]
        · left
          use v
          rw [State.ret_loc, Function.update_of_ne hne]
          exact hv
  · right
    rw [Sent] at hsent ⊢
    cases hstep with
    | call hidle => rw [State.call_log, List.any_cons, hsent, Bool.or_true]
    | goto hl hx => rw [State.goto_log, List.any_cons, hsent, Bool.or_true]
    | ret hl hx => rw [State.ret_log, List.any_cons, hsent, Bool.or_true]

/-- A step that makes a request due is one of a canceller that acts upon it, or one of a
setter. -/
theorem due_of_step (h : Concerned t s) (hstep : (machine b).Step s (.act u c) s')
    (hdue : Due (s'.shared.obj.cancel t)) :
  Due (s.shared.obj.cancel t) ∨ Served t s' ∨
    ∃ x, u = t ∧ s.loc t = some (.set x .store) ∧
      s'.shared.obj.cancel t = x.apply (s.shared.obj.cancel t)
  := by
  cases hstep with
  | @goto _ _ l l' x hl hx =>
      have hconcerns := h u l hl
      rw [State.goto_shared] at hdue ⊢
      cases stepInside_change (step_eq_goto hx) with
      | keep fields =>
          left
          rw [fields] at hdue
          exact hdue
      | install before =>
          rw [before] at hconcerns
          cases hconcerns
      | remove before =>
          rw [before] at hconcerns
          cases hconcerns
      | @record v before new fields after =>
          rw [before] at hconcerns
          obtain rfl : v = t := hconcerns
          rw [fields, Function.update_self] at hdue
          rcases after with ⟨d, -, -, -, htype⟩ | ⟨hafter, -⟩ | ⟨-, hstate | ⟨-, htype⟩⟩
          · have hasync := hdue.2.1.symm.trans htype
            cases hasync
          · right; left; left
            use u
            simp [hafter, Loc.doesCancel]
          · have henable := hdue.1.symm.trans hstate
            cases henable
          · have hasync := hdue.2.1.symm.trans htype
            cases hasync
      | @store set before after fields =>
          rw [before] at hconcerns
          obtain rfl : u = t := hconcerns
          right; right
          use set, rfl, by rw [hl, before]
          rw [fields, Function.update_self]
          rfl
  | @ret _ _ l x r hl hx =>
      left
      rw [State.ret_shared, (stepInside_fields_ret (step_eq_ret hx)).1] at hdue
      exact hdue

/-- What the step of a setter does. -/
theorem store_of_step {set : Setting} (hl : s.loc t = some (.set set .store))
    (hstep : (machine b).Step s (.act t c) s') :
  s'.shared.obj.cancel t = set.apply (s.shared.obj.cancel t) ∧
    s'.loc = Function.update s.loc t (some (.set set (.unlock .start))) ∧
    s'.log = .goto t (.set set .store) (.set set (.unlock .start)) :: s.log
  := by
  cases hstep with
  | @goto _ _ l l' x hl' hx =>
      obtain rfl := Option.some.inj (hl.symm.trans hl')
      have hgoto := step_eq_goto hx
      simp only [stepInside, setStep, Outcome.lift, Outcome.goto.injEq] at hgoto
      obtain ⟨rfl, rfl⟩ := hgoto
      refine ⟨?_, rfl, rfl⟩
      simp
  | @ret _ _ l x r hl' hx =>
      obtain rfl := Option.some.inj (hl.symm.trans hl')
      have hret := step_eq_ret hx
      simp [stepInside, setStep, Outcome.lift] at hret

/-- The step of a setter acts upon no request. -/
theorem served_of_store {set : Setting} (hl : s.loc t = some (.set set .store))
    (hstep : (machine b).Step s (.act t c) s') (hserved : Served t s') :
  Served t s
  := by
  obtain ⟨-, hloc, hlog⟩ := store_of_step hl hstep
  rcases hserved with ⟨v, hv⟩ | hsent
  · left
    use v
    rw [hloc] at hv
    by_cases hne : v = t
    · subst hne
      simp [Loc.doesCancel] at hv
    · rwa [Function.update_of_ne hne] at hv
  · right
    rw [Sent, hlog] at hsent
    exact hsent

omit [DecidableEq T] [DecidableEq N] in
theorem loc_of_stores {o : Option (Loc T N)} {x : Setting} (h : x ∈ o.bind Loc.stores) :
  o = some (.set x .store)
  := by
  obtain ⟨l, rfl, hl⟩ := Option.bind_eq_some_iff.mp h
  cases l with
  | set y k =>
      cases k with
      | store =>
          obtain rfl := Option.some.inj hl
          rfl
      | _ => cases hl
  | _ => cases hl

/-- A step loses no request if and only if it is not the late one of a setter. -/
theorem setsInTime_iff (h : Concerned t s) (hkept : NotLost t s)
    (hstep : (machine b).Step s (.act u c) s') :
  SetsInTime t s (.act u c) ↔ NotLost t s'
  := by
  constructor
  · intro htime hdue
    rcases due_of_step h hstep hdue with hold | hserved | ⟨x, rfl, hl, hfields⟩
    · exact (hkept hold).step hstep
    · exact hserved
    · rw [hfields] at hdue
      exact (htime rfl x (by rw [hl]; rfl) hdue).step hstep
  · intro hkept' hu x hx hdue
    subst hu
    have hl := loc_of_stores hx
    rw [← (store_of_step hl hstep).1] at hdue
    exact served_of_store hl hstep (hkept' hdue)

end Steps

/-! ### Runs -/

section Runs

variable {b : Build} {t : T} {s : Sys T N} {attr : N → Option MutexType} {value count : N → Nat}

theorem concerned_of_reach (hs : (machine b).Reach (Timely t) (start attr value count) s) :
  Concerned t s
  := by
  apply hs.invariant (I := Concerned t)
  · intro u l hl
    cases hl
  · intro s a s' _ hconcerned hG hstep
    exact hconcerned.step hG hstep

theorem notLost_of_reach (hs : (machine b).Reach (Timely t) (start attr value count) s) :
  NotLost t s
  := by
  apply hs.invariant (I := NotLost t)
  · intro hdue
    cases hdue.2.2
  · intro s a s' hreach hkept hG hstep
    cases a with
    | call u l =>
        intro hdue
        cases hstep
        exact (hkept hdue).step (Machine.Step.call (by assumption) (by assumption))
    | act u c => exact (setsInTime_iff (concerned_of_reach hreach) hkept hstep).mp hG.2

/-- Asynchronous cancellation, for any interleaving of the setters of a thread with requests for
its cancellation: as long as no setter makes a pending request due that nobody acts upon, a
request that is due outside of `__pthread_do_cancel` has sent the thread to `pthread_exit`; and
the next step keeps this if and only if it is not such a setter's. -/
theorem asynchronous_not_lost
    (hs : (machine b).Reach (Timely t) (start attr value count) s) :
  ((∀ u, (s.loc u).any (Loc.doesCancel t) = false) → Due (s.shared.obj.cancel t) → Sent t s) ∧
    ∀ u c s', (machine b).Step s (.act u c) s' → (SetsInTime t s (.act u c) ↔ NotLost t s')
  := by
  constructor
  · intro hnone hdue
    rcases notLost_of_reach hs hdue with ⟨u, hu⟩ | hsent
    · rw [hnone u] at hu
      cases hu
    · exact hsent
  · intro u c s' hstep
    exact setsInTime_iff (concerned_of_reach hs) (notLost_of_reach hs) hstep

/-- `t` makes its cancellation asynchronous. -/
def becomesAsynchronous {T : Type} (t : T) : List (Label T (Loc T Unit)) :=
  [.call t (.set (.type .asynchronous) (.lock (.start none))), .act t false, .act t false,
    .act t false]

/-- `u` cancels `t`, up to the kernel calls. -/
def requests {T : Type} (t u : T) : List (Label T (Loc T Unit)) :=
  [.call u (.cancel t (.lock (.start none))), .act u false, .act u false, .act u false]

/-- A thread that is cancelled asynchronously is sent to `pthread_exit`. -/
theorem asynchronous_not_lost_requests :
  ∃ s : Sys (Fin 2) Unit, (machine .debug).Reach (Timely 0)
      (start (fun _ => none) (fun _ => 0) (fun _ => 0)) s ∧
    (∀ u, (s.loc u).any (Loc.doesCancel 0) = false) ∧
    Due (s.shared.obj.cancel 0) ∧ Sent 0 s
  := by
  obtain ⟨s, hs, hp⟩ := Machine.exists_reach_of_run (M := machine .debug) (G := Timely 0)
    (s := start (fun _ => none) (fun _ => 0) (fun _ => 0))
    (becomesAsynchronous (0 : Fin 2) ++ requests 0 1 ++ [.act 1 false])
    (fun s => (∀ u, (s.loc u).any (Loc.doesCancel 0) = false) ∧ Due (s.shared.obj.cancel 0))
    (by decide +kernel)
  simp only [decide_eq_true_eq] at hp
  exact ⟨s, hs, hp.1, hp.2, (asynchronous_not_lost hs).1 hp.1 hp.2⟩

/-- The request comes first: when the cancellation of the thread becomes asynchronous, nobody acts
upon it, and a further request returns at once. -/
theorem asynchronous_lost :
  ∃ s : Sys (Fin 2) Unit, (machine .debug).Reach (fun _ _ => True)
      (start (fun _ => none) (fun _ => 0) (fun _ => 0)) s ∧
    (∀ u, s.loc u = none) ∧ (s.shared.obj.mutex (.cancelLock 0)).held = false ∧
    Due (s.shared.obj.cancel 0) ∧ ¬ Sent 0 s
  := by
  obtain ⟨s, hs, hp⟩ := Machine.exists_reach_of_run (M := machine .debug)
    (G := fun _ _ => True) (s := start (fun _ => none) (fun _ => 0) (fun _ => 0))
    (requests (0 : Fin 2) 1 ++ becomesAsynchronous 0 ++ requests 0 1)
    (fun s => (∀ u, s.loc u = none) ∧ (s.shared.obj.mutex (.cancelLock 0)).held = false ∧
      Due (s.shared.obj.cancel 0) ∧ ¬ Sent 0 s)
    (by decide +kernel)
  simp only [decide_eq_true_eq] at hp
  exact ⟨s, hs, hp⟩

end Runs

end Process

end LibPthread
