import LibPthread.Signal.Information

/-!
# Ignored signals

A signal whose action ignores it is not pending. It is discarded when it is sent and when
`sigaction` makes it ignored, and the dispatcher resets the action of a signal in the section in
which the signal ceases to be pending. Therefore no dispatcher finds the default action of a
signal that is ignored by default.
-/

namespace LibPthread.Signal

/-- No pending signal of the thread is ignored. -/
def Heeded (ss : SignalState) : Prop :=
  ∀ sig, 0 < sig → ss.pending.Has sig → ¬ (ss.actions sig).Discards sig

/-- No dispatcher has turned to the default action of a signal that is ignored by default. -/
def NeverIdle {T : Type} (S : Signals T) : Prop :=
  ∀ t signo si orig, Frame.dispatch signo si .dfl orig ∈ S.frames t →
    defaultAction signo ≠ some .ignore

namespace Signals

variable {T : Type}

/-- The actions of all threads are as they were. -/
def SameActions (S S' : Signals T) : Prop :=
  ∀ t, (S'.ss t).actions = (S.ss t).actions

/-- What the steps keep: only signals that have an action are pending, and they are not ignored. -/
structure HeedInv (S : Signals T) : Prop where
  process : ∀ sig, ¬ S.processPending.Has sig
  numbered : ∀ t sig, 0 < sig → (S.ss t).pending.Has sig → sig < nsig
  heeded : ∀ t, Heeded (S.ss t)
  never : NeverIdle S

section Same

variable {S S' S'' : Signals T}

theorem sameActions_of_eq (h : S'.ss = S.ss) :
  SameActions S S'
  := fun t => by rw [h]

theorem SameActions.trans (h : SameActions S S') (h' : SameActions S' S'') :
  SameActions S S''
  := fun t => (h' t).trans (h t)

end Same

variable [DecidableEq T] {b : Build} {S S' : Signals T} {a : Act T} {t : T} {n : Nat}
  {si : Siginfo} {set : Sigset}

/-! ### The steps that keep the actions -/

theorem sameActions_modify {f : SignalState → SignalState}
    (hf : ∀ ss, (f ss).actions = ss.actions) (S : Signals T) (t : T) :
  SameActions S (S.modify t f)
  := modify_part SignalState.actions hf S t

theorem sameActions_delete (S : Signals T) (t : T) (signo : Nat) :
  SameActions S (S.delete t signo)
  := sameActions_modify
    (f := fun ss => { ss with pending := sigdelset ss.pending signo }) (fun _ => rfl) S t

omit [DecidableEq T] in
theorem write_ss {f : Sigwaiter T → Sigwaiter T} (h : S.write n f = some S') :
  S'.ss = S.ss
  := by
  obtain ⟨w, -, rfl⟩ := Option.map_eq_some_iff.mp h
  rfl

omit [DecidableEq T] in
theorem writeIf_ss {m : Option Nat} {f : Sigwaiter T → Sigwaiter T}
    (h : S.writeIf m f = some S') :
  S'.ss = S.ss
  := by
  cases m with
  | none =>
      obtain rfl := Option.some.inj h
      rfl
  | some n => exact write_ss h

omit [DecidableEq T] in
theorem linkNext_ss {w : Sigwaiter T} (h : S.linkNext w = some S') :
  S'.ss = S.ss
  := by
  rw [linkNext] at h
  split at h
  · exact write_ss h
  · obtain rfl := Option.some.inj h
    rfl

/-- A part of the signal states other than the pending signals, when a thread that waits is given
a signal. -/
theorem give_part {α : Type} (part : SignalState → α)
    (hf : ∀ (ss : SignalState) pending, part { ss with pending := pending } = part ss)
    (h : S.give n si = some S') (u : T) :
  part (S'.ss u) = part (S.ss u)
  := by
  simp only [give, sigwaiterUnblock, Option.bind_eq_bind, Option.bind_eq_some_iff] at h
  obtain ⟨S₁, hwrite, w, -, S₂, hnext, S₃, hprev, hS'⟩ := h
  obtain rfl := Option.some.inj hS'
  have hss : S₃.ss = S.ss := by
    rw [linkNext_ss hprev, writeIf_ss hnext, write_ss hwrite]
  rw [← hss]
  exact modify_part part (f := fun ss =>
    { ss with pending := sigdelset ss.pending w.info.si_signo.toNat }) (fun _ => hf _ _) S₃ w.ss u

theorem sameActions_give (h : S.give n si = some S') :
  SameActions S S'
  := give_part SignalState.actions (fun _ _ => rfl) h

theorem sameActions_sigwaiter (S : Signals T) (t : T) (m : Option Nat) :
  SameActions S (S.modify t fun ss => { ss with sigwaiter := m })
  := sameActions_modify (f := fun ss => { ss with sigwaiter := m }) (fun _ => rfl) S t

theorem sameActions_sigwaiterBlock (h : S.sigwaiterBlock b t set = some S') :
  SameActions S S'
  := by
  simp only [sigwaiterBlock, Option.bind_eq_bind, Option.bind_eq_some_iff] at h
  obtain ⟨-, -, first, -, -, -, S₁, hwrite, hS'⟩ := h
  obtain rfl := Option.some.inj hS'
  apply (sameActions_of_eq (writeIf_ss hwrite)).trans
  exact sameActions_modify (f := fun ss => { ss with sigwaiter := some S.count }) (fun _ => rfl)
    { S₁ with
      waiters := Function.update S₁.waiters S.count
        (some ⟨S₁.sigwaiters, none, t, set, .plain 0⟩)
      sigwaiters := some S.count
      count := S.count + 1 } t

theorem sameActions_wakes (h : S.wakes b t = .next S') :
  SameActions S S'
  := by
  simp only [wakes] at h
  split at h
  · split at h
    · cases h
    · split at h
      · cases h
      · split at h
        · cases h
          exact sameActions_of_eq rfl
        · cases h
          exact sameActions_sigwaiter S t none
  · cases h

theorem sameActions_leaves (h : S.leaves t = .next S') :
  SameActions S S'
  := by
  simp only [leaves] at h
  split at h
  · split at h
    · cases h
    · split at h
      · cases h
        exact sameActions_of_eq rfl
      · cases h
  · cases h

theorem sameActions_kill {signo : Int} (h : S.kill signo = .next S') :
  SameActions S S'
  := by
  simp only [kill] at h
  split at h
  · cases h
    exact sameActions_of_eq rfl
  · split at h
    · cases h
    · split at h
      · cases h
      · cases h
        exact sameActions_of_eq rfl
      · split at h
        · cases h
        · exact (sameActions_delete _ _ _).trans (sameActions_give (Result.ofOption_eq_next h))

/-! ### The invariant -/

omit [DecidableEq T] in
theorem HeedInv.congr (h : HeedInv S) (hsame : SameActions S S')
    (hpending : ∀ t sig, (S'.ss t).pending.Has sig → (S.ss t).pending.Has sig)
    (hprocess : ∀ sig, S'.processPending.Has sig → S.processPending.Has sig)
    (hframes : ∀ t x, x ∈ S'.frames t → x ∈ S.frames t ∨
      ∀ signo si orig, x = .dispatch signo si .dfl orig → defaultAction signo ≠ some .ignore) :
  HeedInv S'
  := by
  constructor
  · intro sig hsig
    exact h.process sig (hprocess sig hsig)
  · intro t sig hpos hsig
    exact h.numbered t sig hpos (hpending t sig hsig)
  · intro t sig hpos hsig
    rw [hsame t]
    exact h.heeded t sig hpos (hpending t sig hsig)
  · intro t signo si orig hframe
    rcases hframes t _ hframe with hold | hnew
    · exact h.never t signo si orig hold
    · exact hnew signo si orig rfl

omit [DecidableEq T] in
/-- A calm step that keeps the actions keeps the invariant. -/
theorem HeedInv.calm (h : HeedInv S) (hcalm : Calm S S') (hsame : SameActions S S') :
  HeedInv S'
  := by
  apply h.congr hsame hcalm.pending hcalm.processPending
  intro t x hx
  cases x with
  | dispatch signo si handler orig => exact .inl (hcalm.frames t signo si handler orig hx)
  | waiting n => exact .inr (by simp)
  | leaving n => exact .inr (by simp)

/-- The action of the signal is changed. -/
structure Installed (S : Signals T) (t : T) (sig : Nat) (sa : Sigaction) (S' : Signals T) :
    Prop where
  actions : ∀ u, (S'.ss u).actions =
    if u = t then Function.update (S.ss t).actions sig sa else (S.ss u).actions
  discarded : sa.Discards sig → ¬ (S'.ss t).pending.Has sig

/-- `sigaction` changes nothing, or it changes one action and discards the signal that this action
ignores. -/
theorem sigaction_installed (S : Signals T) (t : T) (sig : Int) (sa : Option Sigaction) :
  (S.sigaction t sig sa).1 = S ∨
    ∃ sa', Installed S t sig.toNat sa' (S.sigaction t sig sa).1
  := by
  rw [Signals.sigaction]
  split
  · exact .inl rfl
  · rename_i hrange
    have hlt : sig.toNat < nsig := by
      have : (nsig : Int) = 32 := rfl
      omega
    cases sa with
    | none => exact .inl rfl
    | some sa =>
        right
        use sa
        dsimp only
        split
        · constructor
          · intro u
            by_cases hu : u = t
            · simp [delete, hu]
            · simp [delete, hu]
          · intro _
            simp only [delete, modify_ss, Function.update_self]
            exact not_has_sigdelset (by omega) hlt
        · rename_i hheeded
          constructor
          · intro u
            by_cases hu : u = t
            · simp [hu]
            · simp [hu]
          · intro hdiscards
            exact absurd hdiscards hheeded

theorem HeedInv.sigaction (h : HeedInv S) (t : T) (sig : Int) (sa : Option Sigaction) :
  HeedInv (S.sigaction t sig sa).1
  := by
  have hcalm := calm_sigaction S t sig sa
  rcases sigaction_installed S t sig sa with heq | ⟨sa', hinstalled⟩
  · rwa [heq]
  · refine ⟨fun sig' hsig => h.process sig' (hcalm.processPending sig' hsig), ?_, ?_, ?_⟩
    · intro u sig' hpos hsig
      exact h.numbered u sig' hpos (hcalm.pending u sig' hsig)
    · intro u sig' hpos hsig
      have hold := h.heeded u sig' hpos (hcalm.pending u sig' hsig)
      rw [hinstalled.actions]
      by_cases hu : u = t
      · subst hu
        rw [if_pos rfl]
        by_cases heq : sig' = sig.toNat
        · subst heq
          rw [Function.update_self]
          intro hdiscards
          exact hinstalled.discarded hdiscards hsig
        · rwa [Function.update_of_ne heq]
      · rwa [if_neg hu]
    · intro u signo si orig hframe
      exact h.never u signo si orig (hcalm.frames u signo si .dfl orig hframe)

theorem HeedInv.signal (h : HeedInv S) (t : T) (sig : Int) (handler : Handler) :
  HeedInv (S.signal t sig handler).1
  := by
  rw [Signals.signal]
  split
  · exact h
  · exact h.sigaction _ _ _

theorem HeedInv.siginterrupt (h : HeedInv S) (t : T) (sig : Int) (flag : Bool) :
  HeedInv (S.siginterrupt t sig flag).1
  := by
  have hfirst := h.sigaction t sig none
  rw [Signals.siginterrupt]
  split
  · rename_i S₁ e heq
    rwa [heq] at hfirst
  · rename_i S₁ act heq
    rw [heq] at hfirst
    exact hfirst.sigaction _ _ _

/-- Only a signal that is not ignored becomes pending. -/
theorem HeedInv.pend (h : HeedInv S) {sig : Nat} (hpos : 0 < sig) (hlt : sig < nsig)
    (hheeded : ¬ ((S.ss t).actions sig).Discards sig) :
  HeedInv (S.pend t sig si)
  := by
  have hle : sig ≤ 64 := by
    have : nsig = 32 := rfl
    omega
  have hsame : SameActions S (S.pend t sig si) :=
    modify_part SignalState.actions
      (f := fun ss => { ss with pending := ss.pending ||| sigmask sig }) (fun _ => rfl) S t
  have hpending : ∀ u sig', 0 < sig' → ((S.pend t sig si).ss u).pending.Has sig' →
      (S.ss u).pending.Has sig' ∨ (u = t ∧ sig' = sig) := by
    intro u sig' hpos' hsig
    simp only [Signals.pend, modify_ss, Function.update_apply] at hsig
    split at hsig
    · rename_i hu
      rw [hu]
      exact (has_or.mp hsig).imp id fun hnew => ⟨rfl, (has_sigmask hpos' hpos hle).mp hnew⟩
    · exact .inl hsig
  refine ⟨h.process, ?_, ?_, h.never⟩
  · intro u sig' hpos' hsig
    rcases hpending u sig' hpos' hsig with hold | ⟨-, rfl⟩
    · exact h.numbered u sig' hpos' hold
    · exact hlt
  · intro u sig' hpos' hsig
    rw [hsame u]
    rcases hpending u sig' hpos' hsig with hold | ⟨rfl, rfl⟩
    · exact h.heeded u sig' hpos' hold
    · exact hheeded

/-- The mask of a thread has nothing to do with the actions. -/
theorem HeedInv.resume (h : HeedInv S) (t : T) (orig : Sigset) :
  HeedInv (S.resume t orig)
  := by
  apply h.congr (fun u => resume_actions S t u orig)
  · intro u sig hsig
    rwa [resume_pending] at hsig
  · exact fun _ hsig => hsig
  · intro u x hx
    left
    simp only [Signals.resume, pop_frames, modify_frames, Function.update_apply] at hx
    split at hx
    · rename_i hu
      rw [hu]
      exact List.mem_of_mem_tail hx
    · exact hx

/-- The dispatcher resets the action of a signal that it makes not pending. -/
theorem HeedInv.handle (h : HeedInv S) {signo : Nat} {sent : List Siginfo} (hpos : 0 < signo)
    (hlt : signo < nsig) (hheeded : ¬ ((S.ss t).actions signo).Discards signo) :
  HeedInv (S.handle t signo si sent)
  := by
  have hcalm := calm_accept S t signo
  have hsame : SameActions S (S.accept t signo) := fun u =>
    accept_part SignalState.actions (fun _ _ => rfl) S t u signo
  have haccepted := h.calm hcalm hsame
  rw [← hsame t] at hheeded
  refine ⟨fun sig hsig => haccepted.process sig (has_of_sigdelset hsig), ?_, ?_, ?_⟩
  · intro u sig hpos' hsig
    exact h.numbered u sig hpos' ((S.handled t signo si sent).pending u sig hsig)
  · intro u sig hpos' hsig
    simp only [Signals.handle, push_ss, modify_ss, Function.update_apply] at hsig ⊢
    split at hsig
    · rename_i hu
      have hne : sig ≠ signo := by
        rintro rfl
        exact not_has_sigdelset hpos hlt hsig
      rw [if_pos hu]
      have hkept : actionsFor ((S.accept t signo).ss t) signo sig =
          ((S.accept t signo).ss t).actions sig := by
        rw [actionsFor]
        split
        · exact Function.update_of_ne hne _ _
        · rfl
      dsimp only
      rw [hkept]
      exact haccepted.heeded t sig hpos' (has_of_sigdelset hsig)
    · rename_i hu
      rw [if_neg hu]
      exact haccepted.heeded u sig hpos' hsig
  · intro u signo' si' orig hframe
    simp only [Signals.handle, push_frames, modify_frames, Function.update_apply] at hframe
    have hnew : ∀ handler, handler = (((S.accept t signo).ss t).actions signo).sa_handler →
        handler = .dfl → defaultAction signo ≠ some .ignore := by
      intro handler hhandler hdfl hignore
      exact hheeded (.inr ⟨hhandler ▸ hdfl, hignore⟩)
    split at hframe
    · rcases List.mem_cons.mp hframe with heq | hold
      · simp only [Frame.dispatch.injEq] at heq
        obtain ⟨rfl, -, hhandler, -⟩ := heq
        exact hnew _ rfl hhandler.symm
      · exact haccepted.never t signo' si' orig hold
    · exact haccepted.never u signo' si' orig hframe

theorem routeTo_heeded {ss : SignalState} {sig : Nat}
    (h : routeTo ss sig = .pends ∨ routeTo ss sig = .dispatched) :
  ¬ (ss.actions sig).Discards sig
  := by
  intro hdiscards
  rw [routeTo, if_pos hdiscards] at h
  simp at h

omit [DecidableEq T] in
/-- A signal that is ignored is given to a thread that waits for it, or discarded. -/
theorem route_heeded {sig : Nat} (h : S.route t sig = .pends ∨ S.route t sig = .dispatched) :
  ¬ ((S.ss t).actions sig).Discards sig
  := by
  rw [route] at h
  split at h
  · exact routeTo_heeded h
  · split at h
    · simp at h
    · split at h
      · simp at h
      · exact routeTo_heeded h

theorem HeedInv.killSiginfo (h : HeedInv S) (hstep : S.killSiginfo t si = .next S') :
  HeedInv S'
  := by
  simp only [Signals.killSiginfo] at hstep
  split at hstep
  · cases hstep
    exact h
  · rename_i hrange
    split at hstep
    · cases hstep
      exact h
    · rename_i hzero
      have hpos : 0 < si.si_signo.toNat := by omega
      have hlt : si.si_signo.toNat < nsig := by
        have : (nsig : Int) = 32 := rfl
        omega
      split at hstep
      · cases hstep
      · have hgive := Result.ofOption_eq_next hstep
        exact h.calm (calm_give hgive) (sameActions_give hgive)
      · cases hstep
        exact h
      · rename_i hroute
        cases hstep
        exact h.pend hpos hlt (route_heeded (.inl hroute))
      · rename_i hroute
        cases hstep
        exact h.handle hpos hlt (route_heeded (.inr hroute))

omit [DecidableEq T] in
/-- The signal with which the dispatcher goes on is pending for the thread. -/
theorem HeedInv.nextSignal (h : HeedInv S) {orig : Sigset} (hnext : S.nextSignal t orig ≠ 0) :
  (S.ss t).pending.Has (S.nextSignal t orig)
  := by
  rw [Signals.nextSignal] at hnext ⊢
  split
  · rename_i hnone
    rw [if_pos hnone] at hnext
    exact absurd (has_and.mp (has_lsb64 hnext)).2 (h.process _)
  · rename_i hsome
    rw [if_neg hsome] at hnext
    exact (has_and.mp (has_lsb64 hnext)).2

theorem HeedInv.handlerReturns (h : HeedInv S) (hstep : S.handlerReturns t = .next S') :
  HeedInv S'
  := by
  simp only [Signals.handlerReturns] at hstep
  split at hstep
  · rename_i signo si handler orig rest hframes
    split at hstep
    · cases hstep
    · split at hstep
      · cases hstep
        exact h.resume t orig
      · rename_i hnext
        cases hstep
        have hpending := h.nextSignal hnext
        have hpos : 0 < S.nextSignal t orig := by omega
        apply (h.resume t orig).handle hpos (h.numbered t _ hpos hpending)
        rw [resume_actions]
        exact h.heeded t _ hpos hpending
  · cases hstep

theorem HeedInv.sigwaitinfo (h : HeedInv S) {wanted : Bool}
    (hstep : S.sigwaitinfo b t set wanted = .next S') :
  HeedInv S'
  := by
  simp only [Signals.sigwaitinfo] at hstep
  split at hstep
  · cases hstep
    have hdelete := h.calm (calm_delete S t _) (sameActions_delete S t (S.extant t set).signo)
    exact ⟨hdelete.process, hdelete.numbered, hdelete.heeded, hdelete.never⟩
  · have hblock := Result.ofOption_eq_next hstep
    exact h.calm (calm_sigwaiterBlock hblock) (sameActions_sigwaiterBlock hblock)

theorem HeedInv.step (h : HeedInv S) (hstep : S.step b a = .next S') :
  HeedInv S'
  := by
  cases a with
  | sigaction t sig sa =>
      simp only [Signals.step] at hstep
      split at hstep
      · cases hstep
        exact h.sigaction t sig sa
      · cases hstep
  | signal t sig handler =>
      simp only [Signals.step] at hstep
      split at hstep
      · cases hstep
        exact h.signal t sig handler
      · cases hstep
  | siginterrupt t sig flag =>
      simp only [Signals.step] at hstep
      split at hstep
      · cases hstep
        exact h.siginterrupt t sig flag
      · cases hstep
  | handlerReturns t => exact h.handlerReturns hstep
  | sigwaitinfo t set wanted =>
      simp only [Signals.step] at hstep
      split at hstep
      · exact h.sigwaitinfo hstep
      · cases hstep
  | wakes t => exact h.calm (calm_wakes hstep) (sameActions_wakes hstep)
  | leaves t => exact h.calm (calm_leaves hstep) (sameActions_leaves hstep)
  | kill signo => exact h.calm (calm_kill hstep) (sameActions_kill hstep)
  | killSiginfo t si => exact h.killSiginfo hstep

end Signals

section Runs

variable {T : Type} [DecidableEq T] {b : Build} {G : Signals T → Act T → Prop}
  {S S₀ : Signals T}

/-- Nothing is pending and no thread is inside a call. -/
structure Empty (S : Signals T) : Prop where
  pending : ∀ t, (S.ss t).pending = 0
  processPending : S.processPending = 0
  frames : ∀ t, S.frames t = []

omit [DecidableEq T] in
theorem Empty.heedInv (h : Empty S) :
  S.HeedInv
  := by
  constructor
  · intro sig hsig
    rw [h.processPending] at hsig
    exact not_has_zero hsig
  · intro t sig _ hsig
    rw [h.pending] at hsig
    exact absurd hsig not_has_zero
  · intro t sig _ hsig
    rw [h.pending] at hsig
    exact absurd hsig not_has_zero
  · intro t signo si orig hframe
    rw [h.frames] at hframe
    cases hframe

/-- From empty pending sets, with any actions and masks, no run leads to a state in which a signal
is pending and ignored, or in which `signal_dispatch` has turned to the default action of a signal
that is ignored by default. -/
theorem ignored_never_pending (hempty : Empty S₀) (h : S₀.Reach b G S) :
  (∀ t, Heeded (S.ss t)) ∧ NeverIdle S
  := by
  have hinv := h.invariant (P := Signals.HeedInv) hempty.heedInv
    fun S a S' hS _ hstep => hS.step hstep
  exact ⟨hinv.heeded, hinv.never⟩

/-- The handler of `SIGCHLD` is reset when the first signal is handled. It is installed anew while
the signal is blocked, and the second signal becomes pending. -/
def childRun : List (Act Unit) :=
  [.sigaction () 17 (some ⟨.fn 1, sigmask 17, saResethand⟩), .killSiginfo () (.plain 17),
    .sigaction () 17 (some ⟨.fn 1, sigmask 17, saResethand⟩), .killSiginfo () (.plain 17)]

theorem ignored_never_pending_childRun :
  ∃ S : Signals Unit, (S.ss ()).pending.Has 17 ∧ ¬ ((S.ss ()).actions 17).Discards 17 ∧
    NeverIdle S
  := by
  have hrun : ((Signals.boot Unit).run .debug Unguarded childRun).map (fun S =>
      decide ((S.ss ()).pending.Has 17)) = some true := by
    decide +kernel
  obtain ⟨S, hS, htest⟩ := Option.map_eq_some_iff.mp hrun
  have hempty : Empty (Signals.boot Unit) := ⟨fun _ => rfl, rfl, fun _ => rfl⟩
  obtain ⟨hheeded, hnever⟩ := ignored_never_pending hempty (Signals.reach_of_run childRun hS)
  have hpending := of_decide_eq_true htest
  exact ⟨S, hpending, hheeded () 17 (by decide) hpending, hnever⟩

end Runs

end LibPthread.Signal
