import LibPthread.Signal.Steps

/-!
# The signals that cannot be blocked

`sigaction` is to keep `SIGKILL` and `SIGSTOP` out of the mask with which a handler runs, but it
deletes them from the mask of the thread, and stores the mask of the action as it is. The
dispatcher adds the stored mask, and the signal itself, to the mask of the thread.
-/

namespace LibPthread.Signal

/-- The set has neither `SIGKILL` nor `SIGSTOP`. -/
def Sigset.Spares (s : Sigset) : Prop :=
  ¬ s.Has sigkill ∧ ¬ s.Has sigstop

instance (s : Sigset) : Decidable s.Spares :=
  inferInstanceAs (Decidable (_ ∧ _))

/-- The handler of the signal runs with a mask that has neither `SIGKILL` nor `SIGSTOP`, if they
were not blocked before: the mask of the action has neither, and the signal is another one, or it
is not blocked while its handler runs. -/
def HandlerSpares (ss : SignalState) (signo : Nat) : Prop :=
  (ss.actions signo).sa_mask.Spares ∧
    ((signo ≠ sigkill ∧ signo ≠ sigstop) ∨
      (ss.actions signo).sa_flags &&& (saResethand ||| saNodefer) ≠ 0)

instance (ss : SignalState) (signo : Nat) : Decidable (HandlerSpares ss signo) :=
  inferInstanceAs (Decidable (_ ∧ _))

section Sets

variable {s s' : Sigset} {ss : SignalState} {signo : Nat}

theorem spares_or :
  (s ||| s').Spares ↔ s.Spares ∧ s'.Spares
  := by
  simp only [Sigset.Spares, has_or]
  tauto

theorem spares_sigaddset :
  (sigaddset s signo).Spares ↔ s.Spares ∧ signo ≠ sigkill ∧ signo ≠ sigstop
  := by
  have hkill : (sigaddset s signo).Has sigkill ↔ _ := has_sigaddset (by decide)
  have hstop : (sigaddset s signo).Has sigstop ↔ _ := has_sigaddset (by decide)
  have hlt : sigkill = signo → signo < nsig := by
    rintro rfl
    decide
  have hlt' : sigstop = signo → signo < nsig := by
    rintro rfl
    decide
  simp only [Sigset.Spares, hkill, hstop, ne_eq, eq_comm (a := signo)]
  tauto

/-- A smaller set. -/
theorem Sigset.Spares.mono (h : s.Spares) (hsub : ∀ sig, s'.Has sig → s.Has sig) :
  s'.Spares
  := ⟨fun hkill => h.1 (hsub _ hkill), fun hstop => h.2 (hsub _ hstop)⟩

/-- The mask with which the handler of the signal runs. -/
theorem spares_maskFor :
  (Signals.maskFor ss signo).Spares ↔ ss.blocked.Spares ∧ HandlerSpares ss signo
  := by
  rw [Signals.maskFor, HandlerSpares]
  split
  · rename_i hflags
    rw [spares_sigaddset, spares_or]
    simp only [hflags]
    tauto
  · rename_i hflags
    rw [spares_or]
    tauto

end Sets

/-- The handler that a step starts runs with a mask that has neither `SIGKILL` nor `SIGSTOP`. -/
def StartsSpare {T : Type} [DecidableEq T] (S : Signals T) (a : Act T) : Prop :=
  ∀ x ∈ S.handles a, HandlerSpares (S.ss x.1) x.2

instance {T : Type} [DecidableEq T] (S : Signals T) (a : Act T) : Decidable (StartsSpare S a) :=
  inferInstanceAs (Decidable (∀ x ∈ S.handles a, HandlerSpares (S.ss x.1) x.2))

/-- No thread blocks `SIGKILL` or `SIGSTOP`. -/
def Spared {T : Type} (S : Signals T) : Prop :=
  ∀ t, (S.ss t).blocked.Spares

/-- Every step is possible. -/
def Unguarded {T : Type} (_ : Signals T) (_ : Act T) : Prop := True

instance {T : Type} (S : Signals T) (a : Act T) : Decidable (Unguarded S a) :=
  .isTrue trivial

section Runs

variable {T : Type} [DecidableEq T] {b : Build} {S S' S₀ : Signals T} {a : Act T}

/-- Neither the masks nor those that will be restored have the two signals. -/
structure SparedInv (S : Signals T) : Prop where
  blocked : Spared S
  saved : ∀ t signo si handler orig, Frame.dispatch signo si handler orig ∈ S.frames t →
    orig.Spares

omit [DecidableEq T] in
theorem SparedInv.calm (h : SparedInv S) (hcalm : S.Calm S') :
  SparedInv S'
  := by
  constructor
  · intro t
    exact (h.blocked t).mono (hcalm.blocked t)
  · intro t signo si handler orig hframe
    exact h.saved t signo si handler orig (hcalm.frames t signo si handler orig hframe)

theorem SparedInv.handled {t : T} {signo : Nat} {si : Siginfo} {sent : List Siginfo}
    (h : SparedInv S) (hhandled : S.Handled t signo si sent S')
    (hspares : HandlerSpares (S.ss t) signo) :
  SparedInv S'
  := by
  constructor
  · intro u
    rw [hhandled.blocked]
    split
    · exact spares_maskFor.mpr ⟨h.blocked t, hspares⟩
    · exact h.blocked u
  · intro u signo' si' handler orig hframe
    rcases hhandled.frames u signo' si' handler orig hframe with hold | ⟨-, -, rfl⟩
    · exact h.saved u signo' si' handler orig hold
    · exact h.blocked t

/-- The mask is restored. -/
theorem SparedInv.resume {t : T} {orig : Sigset} (h : SparedInv S) (horig : orig.Spares) :
  SparedInv (S.resume t orig)
  := by
  constructor
  · intro u
    simp only [Signals.resume, Signals.pop_ss, Signals.modify_ss, Function.update_apply]
    split
    · exact horig
    · exact h.blocked u
  · intro u signo si handler orig' hframe
    have hcalm : (S.modify t fun ss => { ss with blocked := orig }).Calm (S.resume t orig) :=
      Signals.calm_pop
    exact h.saved u signo si handler orig' (hcalm.frames u signo si handler orig' hframe)

theorem resume_actions (S : Signals T) (t u : T) (orig : Sigset) :
  ((S.resume t orig).ss u).actions = (S.ss u).actions
  := Signals.modify_part SignalState.actions (f := fun ss => { ss with blocked := orig })
    (fun _ => rfl) S t u

theorem handlerSpares_resume (S : Signals T) (t : T) (orig : Sigset) (signo : Nat) :
  HandlerSpares ((S.resume t orig).ss t) signo ↔ HandlerSpares (S.ss t) signo
  := by
  rw [HandlerSpares, HandlerSpares, resume_actions]

omit [DecidableEq T] in
theorem SparedInv.saved_top (h : SparedInv S) {t : T} {signo : Nat} {si : Siginfo}
    {handler : Handler} {orig : Sigset} {rest : List Frame}
    (hframes : S.frames t = .dispatch signo si handler orig :: rest) :
  orig.Spares
  := by
  apply h.saved t signo si handler orig
  rw [hframes]
  exact List.mem_cons_self

theorem SparedInv.step (h : SparedInv S) (hG : StartsSpare S a)
    (hstep : S.step b a = .next S') :
  SparedInv S'
  := by
  cases Signals.step_cases hstep with
  | calm quiet calm other => exact h.calm calm
  | takes t set extant S' calm delivered =>
      exact ⟨(h.calm calm).blocked, (h.calm calm).saved⟩
  | pends t si pos lt quiet =>
      constructor
      · intro u
        have hsame : ((S.pend t si.si_signo.toNat si).ss u).blocked = (S.ss u).blocked :=
          Signals.modify_part SignalState.blocked
            (f := fun ss => { ss with pending := ss.pending ||| sigmask si.si_signo.toNat })
            (fun _ => rfl) S t u
        rw [hsame]
        exact h.blocked u
      · exact h.saved
  | dispatches t si starts pos =>
      exact h.handled (S.handled _ _ _ _) (hG (t, si.si_signo.toNat) starts)
  | returns t signo si handler orig rest frames quiet => exact h.resume (h.saved_top frames)
  | goesOn t signo si handler orig rest frames starts =>
      apply (h.resume (h.saved_top frames)).handled ((S.resume t orig).handled _ _ _ _)
      rw [handlerSpares_resume]
      exact hG (t, S.nextSignal t orig) starts

/-- A step that starts a handler with another mask blocks one of the two signals. -/
theorem not_spared_of_step (hG : ¬ StartsSpare S a) (hstep : S.step b a = .next S') :
  ¬ Spared S'
  := by
  simp only [StartsSpare, not_forall] at hG
  obtain ⟨⟨t, signo⟩, hhandles, hnot⟩ := hG
  have hhandles : S.handles a = some (t, signo) := hhandles
  intro hspared
  have hmask := hspared t
  cases Signals.step_cases hstep with
  | calm quiet calm other =>
      rw [quiet] at hhandles
      cases hhandles
  | takes t set extant S' calm delivered => cases hhandles
  | pends t si pos lt quiet =>
      rw [quiet] at hhandles
      cases hhandles
  | dispatches t si starts pos =>
      rw [starts] at hhandles
      cases hhandles
      rw [(S.handled _ _ _ _).blocked, if_pos rfl] at hmask
      exact hnot (spares_maskFor.mp hmask).2
  | returns t signo si handler orig rest frames quiet =>
      rw [quiet] at hhandles
      cases hhandles
  | goesOn t signo si handler orig rest frames starts =>
      rw [starts] at hhandles
      cases hhandles
      rw [((S.resume t orig).handled _ _ _ _).blocked, if_pos rfl] at hmask
      rw [← handlerSpares_resume S t orig] at hnot
      exact hnot (spares_maskFor.mp hmask).2

/-- From masks without `SIGKILL` and `SIGSTOP`, runs that start no handler with one of them in its
mask lead to such masks again; any other start of a handler blocks one of them. -/
theorem kill_stop_unblocked (hspared : Spared S₀) (hframes : ∀ t, S₀.frames t = [])
    (h : S₀.Reach b StartsSpare S) :
  Spared S ∧ ∀ a S', ¬ StartsSpare S a → S.step b a = .next S' → ¬ Spared S'
  := by
  have hstart : SparedInv S₀ := by
    refine ⟨hspared, ?_⟩
    intro t signo si handler orig hframe
    rw [hframes] at hframe
    cases hframe
  have hinv := h.invariant hstart fun S a S' hS hG hstep => hS.step hG hstep
  exact ⟨hinv.blocked, fun a S' hG hstep => not_spared_of_step hG hstep⟩

end Runs

/-! ### Examples -/

/-- No signal is pending or blocked, no thread waits, and all actions are the default actions. -/
def Signals.boot (T : Type) : Signals T where
  ss _ := ⟨0, 0, fun _ => ⟨.dfl, 0, 0⟩, fun _ => .plain 0, none⟩
  frames _ := []
  waiters _ := none
  sigwaiters := none
  count := 0
  processPending := 0
  processPendingInfo _ := .plain 0
  since _ _ := []
  delivered := []
  history _ := []

/-- The handler of `SIGUSR1` runs, and while it does, `SIGUSR2` becomes pending. -/
def usrRun : List (Act Unit) :=
  [.sigaction () 10 (some ⟨.fn 1, sigmask 12, 0⟩), .killSiginfo () (.plain 10),
    .killSiginfo () (.plain 12)]

theorem kill_stop_unblocked_usrRun :
  ∃ S : Signals Unit, (S.ss ()).blocked.Has 10 ∧ (S.ss ()).pending.Has 12 ∧ Spared S ∧
    ∀ a S', ¬ StartsSpare S a → S.step .debug a = .next S' → ¬ Spared S'
  := by
  have hrun : ((Signals.boot Unit).run .debug StartsSpare usrRun).map (fun S =>
      decide ((S.ss ()).blocked.Has 10 ∧ (S.ss ()).pending.Has 12)) = some true := by
    decide +kernel
  obtain ⟨S, hS, htest⟩ := Option.map_eq_some_iff.mp hrun
  obtain ⟨hblocked, hpending⟩ := of_decide_eq_true htest
  have hspared : Spared (Signals.boot Unit) := fun _ => ⟨not_has_zero, not_has_zero⟩
  exact ⟨S, hblocked, hpending,
    kill_stop_unblocked hspared (fun _ => rfl) (Signals.reach_of_run usrRun hS)⟩

/-- The action of `SIGUSR1` asks for `SIGKILL` to be blocked while its handler runs. -/
def killRun : List (Act Unit) :=
  [.sigaction () 10 (some ⟨.fn 1, sigmask 9, 0⟩), .killSiginfo () (.plain 10)]

theorem kill_blocked :
  ¬ ∀ S₀ S : Signals Unit, Spared S₀ → (∀ t, S₀.frames t = []) →
    S₀.Reach .debug Unguarded S → Spared S
  := by
  intro hall
  have hrun : ((Signals.boot Unit).run .debug Unguarded killRun).map (fun S =>
      decide ((S.ss ()).blocked.Has sigkill)) = some true := by
    decide +kernel
  obtain ⟨S, hS, htest⟩ := Option.map_eq_some_iff.mp hrun
  have hspared : Spared (Signals.boot Unit) := fun _ => ⟨not_has_zero, not_has_zero⟩
  have hreach := Signals.reach_of_run killRun hS
  exact (hall _ S hspared (fun _ => rfl) hreach ()).1 (of_decide_eq_true htest)

end LibPthread.Signal
