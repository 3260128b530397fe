import LibPthread.Signal.Blocked

/-!
# The information of a signal

A signal that is handled at once comes with the information it was sent with. The information of
a signal that becomes pending is not stored: the dispatcher passes that of the signal it handled
first, and `sigwaitinfo` returns an element of `process_pending_info`, which nobody writes.
-/

namespace LibPthread.Signal

open Signals

variable {T : Type} [DecidableEq T]

/-- The information is about the signal, and the signal was sent with it. -/
def Delivery.Faithful (d : Delivery) : Prop :=
  d.si.si_signo = d.signo ∧ d.si ∈ d.sent

instance (d : Delivery) : Decidable d.Faithful :=
  inferInstanceAs (Decidable (_ ∧ _))

/-- A pending signal is delivered only if it was sent with the information that is passed on: the
handler of a signal that the dispatcher goes on with gets the information of the signal handled
before, and `sigwaitinfo` returns nothing but the number of the signal. -/
def Informs (S : Signals T) (a : Act T) : Prop :=
  (match a with
  | .handlerReturns t =>
    match S.frames t with
    | .dispatch _ si handler orig :: _ =>
      let signo := S.nextSignal t orig
      decide (handler = .dfl ∨ signo = 0 ∨
        ((S.ss t).actions signo).sa_handler.isFn = false ∨ si ∈ S.since t signo)
    | _ => true
  | .sigwaitinfo t set true =>
    let signo := msb64 ((S.ss t).pending &&& set)
    decide (S.Extant t set → .plain signo ∈ S.since t signo)
  | _ => true) = true

instance (S : Signals T) (a : Act T) : Decidable (Informs S a) :=
  inferInstanceAs (Decidable (_ = true))

/-- Nothing is pending, no handler runs, and nothing has been delivered. -/
structure Fresh (S : Signals T) : Prop where
  pending : ∀ t, (S.ss t).pending = 0
  processPending : S.processPending = 0
  processPendingInfo : ∀ sig, S.processPendingInfo sig = .plain 0
  frames : ∀ t, S.frames t = []
  delivered : S.delivered = []

/-- The invariant: no signal is pending for the process, and the information with which a signal
was sent is about this signal. -/
structure InfoInv (S : Signals T) : Prop where
  process : ∀ sig, ¬ S.processPending.Has sig
  processPendingInfo : ∀ sig, S.processPendingInfo sig = .plain 0
  sent : ∀ t sig, 0 < sig → (S.ss t).pending.Has sig → ∀ si ∈ S.since t sig, si.si_signo = sig

section Runs

variable {b : Build} {S S' S₀ : Signals T} {a : Act T} {t : T} {orig set : Sigset}

omit [DecidableEq T] in
theorem InfoInv.congr (h : InfoInv S)
    (hpending : ∀ t sig, (S'.ss t).pending.Has sig → (S.ss t).pending.Has sig)
    (hprocess : ∀ sig, S'.processPending.Has sig → S.processPending.Has sig)
    (hsince : S'.since = S.since) (hinfo : S'.processPendingInfo = S.processPendingInfo) :
  InfoInv S'
  := by
  constructor
  · intro sig hsig
    exact h.process sig (hprocess sig hsig)
  · rw [hinfo]
    exact h.processPendingInfo
  · intro t sig hpos hsig
    rw [hsince]
    exact h.sent t sig hpos (hpending t sig hsig)

omit [DecidableEq T] in
theorem InfoInv.processPending_eq (h : InfoInv S) :
  S.processPending = 0
  := by
  by_contra hne
  exact h.process _ (has_msb64 hne)

theorem InfoInv.pend (h : InfoInv S) {si : Siginfo} (hpos : 0 < si.si_signo)
    (hlt : si.si_signo < nsig) :
  InfoInv (S.pend t si.si_signo.toNat si)
  := by
  have hle : si.si_signo.toNat ≤ 64 := by
    have : (nsig : Int) = 32 := rfl
    omega
  have hsigno : si.si_signo = (si.si_signo.toNat : Int) := by omega
  refine ⟨h.process, h.processPendingInfo, ?_⟩
  intro u sig hsig hpending si' hsi'
  by_cases hu : u = t
  · subst hu
    simp only [Signals.pend, modify_ss, Function.update_self, has_or] at hpending
    simp only [Signals.pend, Function.update_self] at hsi'
    by_cases heq : sig = si.si_signo.toNat
    · subst heq
      rw [Function.update_self] at hsi'
      split at hsi'
      · rename_i hold
        rcases List.mem_cons.mp hsi' with rfl | hsi'
        · exact hsigno
        · exact h.sent u _ hsig hold si' hsi'
      · rw [List.mem_singleton.mp hsi']
        exact hsigno
    · rw [Function.update_of_ne heq] at hsi'
      rcases hpending with hold | hnew
      · exact h.sent u sig hsig hold si' hsi'
      · exact absurd ((has_sigmask hsig (by omega) hle).mp hnew) heq
  · simp only [Signals.pend, modify_ss, Function.update_of_ne hu] at hpending
    simp only [Signals.pend, Function.update_of_ne hu] at hsi'
    exact h.sent u sig hsig hpending si' hsi'

theorem resume_pending (S : Signals T) (t u : T) (orig : Sigset) :
  ((S.resume t orig).ss u).pending = (S.ss u).pending
  := modify_part SignalState.pending (f := fun ss => { ss with blocked := orig })
    (fun _ => rfl) S t u

theorem InfoInv.resume (h : InfoInv S) :
  InfoInv (S.resume t orig)
  := by
  have hpending : ∀ u sig, ((S.resume t orig).ss u).pending.Has sig →
      (S.ss u).pending.Has sig := by
    intro u sig hsig
    rwa [resume_pending] at hsig
  exact h.congr hpending (fun _ hsig => hsig) rfl rfl

theorem InfoInv.handled {signo : Nat} {si : Siginfo} {sent : List Siginfo} (h : InfoInv S)
    (hhandled : S.Handled t signo si sent S') :
  InfoInv S'
  := h.congr hhandled.pending hhandled.processPending hhandled.since hhandled.processPendingInfo

theorem InfoInv.step (h : InfoInv S) (hstep : S.step b a = .next S') :
  InfoInv S'
  := by
  cases step_cases hstep with
  | calm quiet calm other =>
      exact h.congr calm.pending calm.processPending calm.since calm.processPendingInfo
  | takes t set extant S' calm delivered =>
      exact h.congr calm.pending calm.processPending calm.since calm.processPendingInfo
  | pends t si pos lt quiet => exact h.pend pos lt
  | dispatches t si starts pos => exact h.handled (S.handled _ _ _ _)
  | returns t signo si handler orig rest frames quiet => exact h.resume
  | goesOn t signo si handler orig rest frames starts =>
      exact h.resume.handled ((S.resume t orig).handled _ _ _ _)

omit [DecidableEq T] in
/-- The signal that the dispatcher goes on with was pending for the thread. -/
theorem InfoInv.nextSent (h : InfoInv S) (hnext : S.nextSignal t orig ≠ 0) :
  S.nextSent t orig = S.since t (S.nextSignal t orig) ∧
    (S.ss t).pending.Has (S.nextSignal t orig)
  := by
  by_cases hpending : ~~~ orig &&& (S.ss t).pending = 0
  · apply absurd _ hnext
    rw [nextSignal, if_pos hpending, h.processPending_eq]
    simp
  · rw [Signals.nextSent, if_neg hpending]
    refine ⟨rfl, ?_⟩
    rw [nextSignal, if_neg hpending] at hnext ⊢
    exact (has_and.mp (has_lsb64 hnext)).2

omit [DecidableEq T] in
theorem InfoInv.extant (h : InfoInv S) (set : Sigset) :
  S.extant t set =
    ⟨msb64 ((S.ss t).pending &&& set), .plain (msb64 ((S.ss t).pending &&& set)),
      S.since t (msb64 ((S.ss t).pending &&& set))⟩
  := by
  rw [Signals.extant, if_neg (by simp [h.processPending_eq])]
  simp only [h.processPendingInfo]
  rfl

/-- The deliveries of a step. -/
theorem InfoInv.delivers (h : InfoInv S) (hstep : S.step b a = .next S') :
  (Informs S a → ∀ d ∈ S'.delivered, d ∈ S.delivered ∨ d.Faithful) ∧
    (¬ Informs S a → ∃ d ∈ S'.delivered, ¬ d.Faithful)
  := by
  cases step_cases hstep with
  | calm quiet calm other =>
      rw [calm.delivered]
      refine ⟨fun _ d hd => .inl hd, ?_⟩
      intro hnot
      apply absurd _ hnot
      cases a with
      | handlerReturns u =>
          simp only [handles] at quiet
          simp only [Informs]
          split
          · rename_i si handler orig rest hframes
            rw [hframes] at quiet
            simp only [decide_eq_true_eq]
            by_contra hcon
            simp only at quiet
            rw [if_neg (by tauto)] at quiet
            cases quiet
          · rfl
      | sigwaitinfo u set wanted =>
          cases wanted with
          | true =>
              have hextant := other u set rfl
              simp [Informs, hextant]
          | false => rfl
      | _ => rfl
  | takes t set extant S' calm delivered =>
      rw [delivered, h.extant]
      simp only [Informs, extant, true_implies, decide_eq_true_eq]
      constructor
      · intro hinforms d hd
        rcases List.mem_cons.mp hd with rfl | hd
        · exact .inr ⟨rfl, hinforms⟩
        · exact .inl hd
      · intro hnot
        exact ⟨_, List.mem_cons_self, fun hfaithful => hnot hfaithful.2⟩
  | pends t si pos lt quiet => exact ⟨fun _ d hd => .inl hd, fun hnot => absurd rfl hnot⟩
  | dispatches t si starts pos =>
      refine ⟨fun _ => ?_, fun hnot => absurd rfl hnot⟩
      intro d hd
      rw [(S.handled _ _ _ _).delivered] at hd
      split at hd
      · rcases List.mem_cons.mp hd with rfl | hd
        · refine .inr ⟨?_, List.mem_singleton_self _⟩
          change si.si_signo = (si.si_signo.toNat : Int)
          omega
        · exact .inl hd
      · exact .inl hd
  | returns t signo si handler orig rest frames quiet =>
      refine ⟨fun _ d hd => .inl hd, ?_⟩
      intro hnot
      apply absurd _ hnot
      simp only [handles, frames] at quiet
      simp only [Informs, frames, decide_eq_true_eq]
      by_contra hcon
      rw [if_neg (by tauto)] at quiet
      cases quiet
  | goesOn t signo si handler orig rest frames starts =>
      simp only [handles, frames] at starts
      split at starts
      · cases starts
      · rename_i hon
        simp only [not_or] at hon
        obtain ⟨hsent, hpending⟩ := h.nextSent hon.2
        have hpos : 0 < S.nextSignal t orig := Nat.pos_of_ne_zero hon.2
        rw [((S.resume t orig).handled _ _ _ _).delivered, hsent, resume_actions]
        simp only [Informs, frames, hon, false_or, decide_eq_true_eq]
        split
        · rename_i hfn
          simp only [hfn, Bool.true_eq_false, false_or]
          constructor
          · intro hsi d hd
            rcases List.mem_cons.mp hd with rfl | hd
            · exact .inr ⟨h.sent t _ hpos hpending si hsi, hsi⟩
            · exact .inl hd
          · intro hsi
            exact ⟨_, List.mem_cons_self, fun hfaithful => hsi hfaithful.2⟩
        · rename_i hfn
          refine ⟨fun _ d hd => .inl hd, ?_⟩
          intro hnot
          exact absurd (.inl (by simpa using hfn)) hnot

/-- Runs in which a pending signal is delivered only if it was sent with the information that is
passed on deliver nothing but faithful information; every other delivery is not faithful. -/
theorem signal_information (hfresh : Fresh S₀) (h : S₀.Reach b Informs S) :
  (∀ d ∈ S.delivered, d.Faithful) ∧
    ∀ a S', ¬ Informs S a → S.step b a = .next S' → ∃ d ∈ S'.delivered, ¬ d.Faithful
  := by
  have hstart : InfoInv S₀ ∧ ∀ d ∈ S₀.delivered, d.Faithful := by
    refine ⟨⟨?_, hfresh.processPendingInfo, ?_⟩, ?_⟩
    · intro sig
      rw [hfresh.processPending]
      exact not_has_zero
    · intro t sig _ hsig
      rw [hfresh.pending] at hsig
      exact absurd hsig not_has_zero
    · rw [hfresh.delivered]
      intro d hd
      cases hd
  have hrun : InfoInv S ∧ ∀ d ∈ S.delivered, d.Faithful := by
    apply h.invariant (P := fun S => InfoInv S ∧ ∀ d ∈ S.delivered, d.Faithful) hstart
    rintro S a S' ⟨hinv, hfaithful⟩ hG hstep
    refine ⟨hinv.step hstep, fun d hd => ?_⟩
    rcases (hinv.delivers hstep).1 hG d hd with hold | hnew
    · exact hfaithful d hold
    · exact hnew
  exact ⟨hrun.2, fun a S' hG hstep => (hrun.1.delivers hstep).2 hG⟩

end Runs

/-! ### Examples -/

theorem fresh_boot :
  Fresh (Signals.boot Unit)
  := ⟨fun _ => rfl, rfl, fun _ => rfl, fun _ => rfl, rfl⟩

/-- While the handler of `SIGUSR1` runs, `SIGUSR2` becomes pending, and the handler takes it with
`sigwaitinfo`; it was sent by `pthread_kill`, so that there is no information but its number. -/
def takeRun : List (Act Unit) :=
  [.sigaction () 10 (some ⟨.fn 1, sigmask 12, 0⟩), .killSiginfo () ⟨10, 1, 0, 7, 0, 0, 0, 0, 0⟩,
    .killSiginfo () (.plain 12), .sigwaitinfo () (sigmask 12) true]

theorem signal_information_takeRun :
  ∃ S : Signals Unit, S.delivered.map Delivery.signo = [12, 10] ∧
    (∀ d ∈ S.delivered, d.Faithful) ∧
    ∀ a S', ¬ Informs S a → S.step .debug a = .next S' → ∃ d ∈ S'.delivered, ¬ d.Faithful
  := by
  have hrun : ((Signals.boot Unit).run .debug Informs takeRun).map (fun S =>
      decide (S.delivered.map Delivery.signo = [12, 10])) = some true := by
    decide +kernel
  obtain ⟨S, hS, htest⟩ := Option.map_eq_some_iff.mp hrun
  exact ⟨S, of_decide_eq_true htest,
    signal_information fresh_boot (Signals.reach_of_run takeRun hS)⟩

/-- While the handler of `SIGUSR1` runs, `SIGUSR2` becomes pending; then its handler is called with
the information of `SIGUSR1`. -/
def otherRun : List (Act Unit) :=
  [.sigaction () 10 (some ⟨.fn 1, sigmask 12, 0⟩), .sigaction () 12 (some ⟨.fn 2, 0, 0⟩),
    .killSiginfo () (.plain 10), .killSiginfo () (.plain 12), .handlerReturns ()]

theorem other_information :
  ¬ ∀ S₀ S : Signals Unit, Fresh S₀ → S₀.Reach .debug Unguarded S →
    ∀ d ∈ S.delivered, d.Faithful
  := by
  intro hall
  have hrun : ((Signals.boot Unit).run .debug Unguarded otherRun).map (fun S =>
      decide (∃ d ∈ S.delivered, ¬ d.Faithful)) = some true := by
    decide +kernel
  obtain ⟨S, hS, htest⟩ := Option.map_eq_some_iff.mp hrun
  obtain ⟨d, hd, hnot⟩ := of_decide_eq_true htest
  exact hnot (hall _ S fresh_boot (Signals.reach_of_run otherRun hS) d hd)

end LibPthread.Signal
