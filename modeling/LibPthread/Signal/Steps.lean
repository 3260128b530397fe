import LibPthread.Signal.Functions

/-!
# What the steps do

Most steps leave the masks, the dispatchers and the information of the pending signals as they
are: they are calm. The others are `sigaction`, the start and the return of a handler, and the
sections in which a signal becomes pending or is taken by `sigwaitinfo`.
-/

namespace LibPthread.Signal

namespace Signals

variable {T : Type} [DecidableEq T]

/-- No signal is handled, and none becomes blocked or pending. -/
structure Calm (S S' : Signals T) : Prop where
  frames : ∀ t signo si handler orig, Frame.dispatch signo si handler orig ∈ S'.frames t →
    Frame.dispatch signo si handler orig ∈ S.frames t
  blocked : ∀ t sig, (S'.ss t).blocked.Has sig → (S.ss t).blocked.Has sig
  pending : ∀ t sig, (S'.ss t).pending.Has sig → (S.ss t).pending.Has sig
  processPending : ∀ sig, S'.processPending.Has sig → S.processPending.Has sig
  since : S'.since = S.since
  delivered : S'.delivered = S.delivered
  processPendingInfo : S'.processPendingInfo = S.processPendingInfo

section Calm

variable {b : Build} {S S' S'' : Signals T} {t : T} {n : Nat} {si : Siginfo} {set : Sigset}
  {wanted : Bool}

omit [DecidableEq T] in
@[refl]
theorem Calm.refl (S : Signals T) :
  Calm S S
  := ⟨fun _ _ _ _ _ h => h, fun _ _ h => h, fun _ _ h => h, fun _ h => h, rfl, rfl, rfl⟩

omit [DecidableEq T] in
theorem Calm.trans (h : Calm S S') (h' : Calm S' S'') :
  Calm S S''
  := by
  constructor
  · intro t signo si handler orig hframe
    exact h.frames t signo si handler orig (h'.frames t signo si handler orig hframe)
  · intro t sig hsig
    exact h.blocked t sig (h'.blocked t sig hsig)
  · intro t sig hsig
    exact h.pending t sig (h'.pending t sig hsig)
  · intro sig hsig
    exact h.processPending sig (h'.processPending sig hsig)
  · rw [h'.since, h.since]
  · rw [h'.delivered, h.delivered]
  · rw [h'.processPendingInfo, h.processPendingInfo]

omit [DecidableEq T] in
/-- A change of the structures of threads that wait. -/
theorem calm_of_eq (hss : S'.ss = S.ss) (hframes : S'.frames = S.frames)
    (hprocess : S'.processPending = S.processPending) (hsince : S'.since = S.since)
    (hdelivered : S'.delivered = S.delivered)
    (hinfo : S'.processPendingInfo = S.processPendingInfo) :
  Calm S S'
  := by
  constructor
  · intro t signo si handler orig hframe
    rwa [hframes] at hframe
  · intro t sig hsig
    rwa [hss] at hsig
  · intro t sig hsig
    rwa [hss] at hsig
  · intro sig hsig
    rwa [hprocess] at hsig
  · exact hsince
  · exact hdelivered
  · exact hinfo

/-- A part of the signal states that a change of one of them keeps. -/
theorem modify_part {α : Type} (part : SignalState → α) {f : SignalState → SignalState}
    (hf : ∀ ss, part (f ss) = part ss) (S : Signals T) (t u : T) :
  part ((S.modify t f).ss u) = part (S.ss u)
  := by
  rw [modify_ss, Function.update_apply]
  split
  · rename_i hu
    rw [hf, hu]
  · rfl

/-- Pending signals are removed. -/
theorem calm_delete (S : Signals T) (t : T) (signo : Nat) :
  Calm S (S.delete t signo)
  := by
  constructor
  · exact fun _ _ _ _ _ h => h
  · intro u sig hsig
    rwa [delete, modify_part SignalState.blocked
      (f := fun ss => { ss with pending := sigdelset ss.pending signo }) (fun _ => rfl) S t u]
      at hsig
  · intro u sig hsig
    simp only [delete, modify_ss, Function.update_apply] at hsig
    split at hsig
    · rename_i hu
      rw [hu]
      exact has_of_sigdelset hsig
    · exact hsig
  · intro sig hsig
    exact has_of_sigdelset hsig
  · rfl
  · rfl
  · rfl

omit [DecidableEq T] in
theorem calm_write {f : Sigwaiter T → Sigwaiter T} (h : S.write n f = some S') :
  Calm S S'
  := by
  obtain ⟨w, -, rfl⟩ := Option.map_eq_some_iff.mp h
  exact calm_of_eq rfl rfl rfl rfl rfl rfl

omit [DecidableEq T] in
theorem calm_writeIf {m : Option Nat} {f : Sigwaiter T → Sigwaiter T}
    (h : S.writeIf m f = some S') :
  Calm S S'
  := by
  cases m with
  | none =>
      obtain rfl := Option.some.inj h
      exact .refl S
  | some n => exact calm_write h

theorem calm_sigwaiterUnblock (h : S.sigwaiterUnblock n = some S') :
  Calm S S'
  := by
  simp only [sigwaiterUnblock, Option.bind_eq_bind, Option.bind_eq_some_iff] at h
  obtain ⟨w, -, S₁, hnext, S₂, hprev, hS'⟩ := h
  obtain rfl := Option.some.inj hS'
  have hS₂ : Calm S₁ S₂ := by
    rw [linkNext] at hprev
    split at hprev
    · exact calm_write hprev
    · obtain rfl := Option.some.inj hprev
      exact calm_of_eq rfl rfl rfl rfl rfl rfl
  have hdelete := calm_delete S₂ w.ss w.info.si_signo.toNat
  exact (((calm_writeIf hnext).trans hS₂).trans hdelete).trans
    (calm_of_eq rfl rfl rfl rfl rfl rfl)

theorem calm_give (h : S.give n si = some S') :
  Calm S S'
  := by
  simp only [give, Option.bind_eq_bind, Option.bind_eq_some_iff] at h
  obtain ⟨S₁, hwrite, hunblock⟩ := h
  exact (calm_write hwrite).trans (calm_sigwaiterUnblock hunblock)

theorem calm_push {x : Frame} (hx : ∀ signo si handler orig, x ≠ .dispatch signo si handler orig) :
  Calm S (S.push t x)
  := by
  refine ⟨?_, fun _ _ h => h, fun _ _ h => h, fun _ h => h, rfl, rfl, rfl⟩
  intro u signo si handler orig hframe
  simp only [push_frames, Function.update_apply] at hframe
  split at hframe
  · rename_i hu
    rw [hu]
    rcases List.mem_cons.mp hframe with heq | hframe
    · exact absurd heq.symm (hx signo si handler orig)
    · exact hframe
  · exact hframe

theorem calm_pop :
  Calm S (S.pop t)
  := by
  refine ⟨?_, fun _ _ h => h, fun _ _ h => h, fun _ h => h, rfl, rfl, rfl⟩
  intro u signo si handler orig hframe
  simp only [pop_frames, Function.update_apply] at hframe
  split at hframe
  · rename_i hu
    rw [hu]
    exact List.mem_of_mem_tail hframe
  · exact hframe

theorem calm_sigwaiter (m : Option Nat) :
  Calm S (S.modify t fun ss => { ss with sigwaiter := m })
  := by
  refine ⟨fun _ _ _ _ _ h => h, ?_, ?_, fun _ h => h, rfl, rfl, rfl⟩
  · intro u sig hsig
    rwa [modify_part SignalState.blocked (f := fun ss => { ss with sigwaiter := m })
      (fun _ => rfl) S t u] at hsig
  · intro u sig hsig
    rwa [modify_part SignalState.pending (f := fun ss => { ss with sigwaiter := m })
      (fun _ => rfl) S t u] at hsig

theorem calm_sigwaiterBlock (h : S.sigwaiterBlock b t set = some S') :
  Calm S S'
  := by
  simp only [sigwaiterBlock, Option.bind_eq_bind, Option.bind_eq_some_iff] at h
  obtain ⟨-, -, first, -, -, -, S₁, hwrite, hS'⟩ := h
  obtain rfl := Option.some.inj hS'
  have hlink : Calm S₁ { S₁ with
      waiters := Function.update S₁.waiters S.count
        (some ⟨S₁.sigwaiters, none, t, set, .plain 0⟩)
      sigwaiters := some S.count
      count := S.count + 1 } := calm_of_eq rfl rfl rfl rfl rfl rfl
  exact (((calm_writeIf hwrite).trans hlink).trans (calm_sigwaiter _)).trans (calm_push (by simp))

theorem calm_finish (S : Signals T) (t : T) (n : Nat) (info : Siginfo) :
  Calm S (S.finish t n info)
  := calm_pop.trans (calm_of_eq rfl rfl rfl rfl rfl rfl)

theorem calm_wakes (h : S.wakes b t = .next S') :
  Calm S S'
  := by
  simp only [wakes] at h
  split at h
  · split at h
    · cases h
    · split at h
      · cases h
      · split at h
        · cases h
          exact calm_finish _ _ _ _
        · cases h
          exact ((calm_sigwaiter none).trans calm_pop).trans (calm_push (by simp))
  · cases h

theorem calm_leaves (h : S.leaves t = .next S') :
  Calm S S'
  := by
  simp only [leaves] at h
  split at h
  · split at h
    · cases h
    · split at h
      · cases h
        exact calm_finish _ _ _ _
      · cases h
  · cases h

omit [DecidableEq T] in
theorem Result.ofOption_eq_next {o : Option (Signals T)} (h : Result.ofOption o = .next S') :
  o = some S'
  := by
  cases o with
  | none => cases h
  | some S => cases h; rfl

theorem calm_kill {signo : Int} (h : S.kill signo = .next S') :
  Calm S S'
  := by
  simp only [kill] at h
  split at h
  · cases h
    exact .refl S
  · split at h
    · cases h
    · split at h
      · cases h
      · cases h
        exact .refl S
      · split at h
        · cases h
        · exact (calm_delete _ _ _).trans (calm_give (Result.ofOption_eq_next h))

theorem calm_sigaction (S : Signals T) (t : T) (sig : Int) (sa : Option Sigaction) :
  Calm S (S.sigaction t sig sa).1
  := by
  simp only [sigaction]
  split
  · exact .refl S
  · split
    · exact .refl S
    · rename_i sa
      have hinstall : Calm S (S.modify t fun ss =>
          { ss with
            actions := Function.update ss.actions sig.toNat sa
            blocked := sigdelset (sigdelset ss.blocked sigkill) sigstop }) := by
        refine ⟨fun _ _ _ _ _ h => h, ?_, ?_, fun _ h => h, rfl, rfl, rfl⟩
        · intro u sig hsig
          simp only [modify_ss, Function.update_apply] at hsig
          split at hsig
          · rename_i hu
            rw [hu]
            exact has_of_sigdelset (has_of_sigdelset hsig)
          · exact hsig
        · intro u sig' hsig
          simp only [modify_ss, Function.update_apply] at hsig
          split at hsig
          · rename_i hu
            rw [hu]
            exact hsig
          · exact hsig
      split
      · exact hinstall.trans (calm_delete _ _ _)
      · exact hinstall

theorem calm_signal (S : Signals T) (t : T) (sig : Int) (handler : Handler) :
  Calm S (S.signal t sig handler).1
  := by
  rw [signal]
  split
  · exact .refl S
  · exact calm_sigaction _ _ _ _

theorem calm_siginterrupt (S : Signals T) (t : T) (sig : Int) (flag : Bool) :
  Calm S (S.siginterrupt t sig flag).1
  := by
  have hfirst := calm_sigaction S t sig none
  rw [siginterrupt]
  split
  · rename_i S₁ e heq
    rw [heq] at hfirst
    exact hfirst
  · rename_i S₁ act heq
    rw [heq] at hfirst
    exact hfirst.trans (calm_sigaction _ _ _ _)

end Calm

/-! ### The dispatcher -/

section Handle

variable {S : Signals T} {t u : T} {signo : Nat} {si : Siginfo} {sent : List Siginfo}

theorem accept_part {α : Type} (part : SignalState → α)
    (hf : ∀ (ss : SignalState) pending, part { ss with pending := pending } = part ss)
    (S : Signals T) (t u : T) (signo : Nat) :
  part ((S.accept t signo).ss u) = part (S.ss u)
  := by
  rw [accept]
  split
  · exact modify_part part (fun ss => hf ss _) S t u
  · split
    · exact modify_part part (fun ss => hf ss _) S t u
    · rfl

theorem calm_accept (S : Signals T) (t : T) (signo : Nat) :
  Calm S (S.accept t signo)
  := by
  rw [accept]
  split
  · exact calm_delete _ _ _
  · split
    · refine ⟨fun _ _ _ _ _ h => h, ?_, ?_, ?_, rfl, rfl, rfl⟩
      · intro u sig hsig
        rwa [modify_part SignalState.blocked
          (f := fun ss => { ss with pending := ss.pending &&& ~~~ stopsigs })
          (fun _ => rfl) S t u] at hsig
      · intro u sig hsig
        simp only [modify_ss, Function.update_apply] at hsig
        split at hsig
        · rename_i hu
          rw [hu]
          exact (has_and.mp hsig).1
        · exact hsig
      · intro sig hsig
        exact (has_and.mp hsig).1
    · exact .refl S

/-- What happens when the dispatcher turns to a signal. -/
structure Handled (S : Signals T) (t : T) (signo : Nat) (si : Siginfo) (sent : List Siginfo)
    (S' : Signals T) : Prop where
  frames : ∀ u signo' si' handler orig, Frame.dispatch signo' si' handler orig ∈ S'.frames u →
    Frame.dispatch signo' si' handler orig ∈ S.frames u ∨
      (u = t ∧ si' = si ∧ orig = (S.ss t).blocked)
  blocked : ∀ u, (S'.ss u).blocked = if u = t then maskFor (S.ss t) signo else (S.ss u).blocked
  pending : ∀ u sig, (S'.ss u).pending.Has sig → (S.ss u).pending.Has sig
  processPending : ∀ sig, S'.processPending.Has sig → S.processPending.Has sig
  since : S'.since = S.since
  delivered : S'.delivered =
    if ((S.ss t).actions signo).sa_handler.isFn then ⟨signo, si, sent⟩ :: S.delivered
    else S.delivered
  processPendingInfo : S'.processPendingInfo = S.processPendingInfo

theorem handled (S : Signals T) (t : T) (signo : Nat) (si : Siginfo) (sent : List Siginfo) :
  Handled S t signo si sent (S.handle t signo si sent)
  := by
  have hcalm := calm_accept S t signo
  have hactions : ((S.accept t signo).ss t).actions = (S.ss t).actions :=
    accept_part SignalState.actions (fun _ _ => rfl) S t t signo
  have hblocked : ∀ u, ((S.accept t signo).ss u).blocked = (S.ss u).blocked := fun u =>
    accept_part SignalState.blocked (fun _ _ => rfl) S t u signo
  have hmask : maskFor ((S.accept t signo).ss t) signo = maskFor (S.ss t) signo := by
    rw [maskFor, maskFor, hactions, hblocked]
  constructor
  · intro u signo' si' handler orig hframe
    simp only [handle, push_frames, modify_frames, Function.update_apply] at hframe
    split at hframe
    · rename_i hu
      rcases List.mem_cons.mp hframe with heq | hframe
      · cases heq
        exact .inr ⟨hu, rfl, hblocked t⟩
      · rw [hu]
        exact .inl (hcalm.frames t _ _ _ _ hframe)
    · exact .inl (hcalm.frames u _ _ _ _ hframe)
  · intro u
    simp only [handle, push_ss, modify_ss, Function.update_apply]
    split
    · exact hmask
    · exact hblocked u
  · intro u sig hsig
    apply hcalm.pending u sig
    simp only [handle, push_ss, modify_ss, Function.update_apply] at hsig
    split at hsig
    · rename_i hu
      rw [hu]
      exact has_of_sigdelset hsig
    · exact hsig
  · intro sig hsig
    exact hcalm.processPending sig (has_of_sigdelset hsig)
  · exact hcalm.since
  · simp only [handle, push_delivered, modify_delivered, hactions, hcalm.delivered]
  · exact hcalm.processPendingInfo

end Handle

/-! ### The steps -/

/-- The signal that a step of a dispatcher turns to, and the thread that handles it. -/
def handles (S : Signals T) : Act T → Option (T × Nat)
  | .killSiginfo t si =>
    if 0 < si.si_signo ∧ si.si_signo < nsig ∧ S.route t si.si_signo.toNat = .dispatched then
      some (t, si.si_signo.toNat)
    else none
  | .handlerReturns t =>
    match S.frames t with
    | .dispatch _ _ handler orig :: _ =>
      if handler = .dfl ∨ S.nextSignal t orig = 0 then none else some (t, S.nextSignal t orig)
    | _ => none
  | _ => none

/-- What a step does. -/
inductive StepCases (b : Build) (S : Signals T) : Act T → Signals T → Prop where
  | calm {a : Act T} {S' : Signals T} (quiet : S.handles a = none) (calm : Calm S S')
    (other : ∀ t set, a = .sigwaitinfo t set true → ¬ S.Extant t set) : StepCases b S a S'
  | takes (t : T) (set : Sigset) (extant : S.Extant t set) (S' : Signals T)
    (calm : Calm S { S' with delivered := S.delivered })
    (delivered : S'.delivered = S.extant t set :: S.delivered) :
    StepCases b S (.sigwaitinfo t set true) S'
  | pends (t : T) (si : Siginfo) (pos : 0 < si.si_signo) (lt : si.si_signo < nsig)
    (quiet : S.handles (.killSiginfo t si) = none) :
    StepCases b S (.killSiginfo t si) (S.pend t si.si_signo.toNat si)
  | dispatches (t : T) (si : Siginfo)
    (starts : S.handles (.killSiginfo t si) = some (t, si.si_signo.toNat))
    (pos : 0 < si.si_signo) :
    StepCases b S (.killSiginfo t si) (S.handle t si.si_signo.toNat si [si])
  | returns (t : T) (signo : Nat) (si : Siginfo) (handler : Handler) (orig : Sigset)
    (rest : List Frame) (frames : S.frames t = .dispatch signo si handler orig :: rest)
    (quiet : S.handles (.handlerReturns t) = none) :
    StepCases b S (.handlerReturns t) (S.resume t orig)
  | goesOn (t : T) (signo : Nat) (si : Siginfo) (handler : Handler) (orig : Sigset)
    (rest : List Frame) (frames : S.frames t = .dispatch signo si handler orig :: rest)
    (starts : S.handles (.handlerReturns t) = some (t, S.nextSignal t orig)) :
    StepCases b S (.handlerReturns t)
      ((S.resume t orig).handle t (S.nextSignal t orig) si (S.nextSent t orig))

section Step

variable {b : Build} {S S' : Signals T} {a : Act T} {t : T}

theorem killSiginfo_cases {si : Siginfo} (h : S.killSiginfo t si = .next S') :
  StepCases b S (.killSiginfo t si) S'
  := by
  simp only [killSiginfo] at h
  split at h
  · rename_i hrange
    cases h
    refine .calm ?_ (.refl S) (by simp)
    rw [handles, if_neg]
    omega
  · rename_i hrange
    split at h
    · rename_i hzero
      cases h
      refine .calm ?_ (.refl S) (by simp)
      rw [handles, if_neg]
      omega
    · rename_i hzero
      have hpos : 0 < si.si_signo := by omega
      have hlt : si.si_signo < nsig := by omega
      have hquiet : S.route t si.si_signo.toNat ≠ .dispatched →
          S.handles (.killSiginfo t si) = none := by
        intro hroute
        rw [handles, if_neg (fun hand => hroute hand.2.2)]
      split at h
      · cases h
      · rename_i n hroute
        apply StepCases.calm (hquiet (by rw [hroute]; simp)) _ (by simp)
        exact calm_give (Result.ofOption_eq_next h)
      · rename_i hroute
        cases h
        exact .calm (hquiet (by rw [hroute]; simp)) (.refl S) (by simp)
      · rename_i hroute
        cases h
        exact .pends t si hpos hlt (hquiet (by rw [hroute]; simp))
      · rename_i hroute
        cases h
        apply StepCases.dispatches t si _ hpos
        rw [handles, if_pos ⟨hpos, hlt, hroute⟩]

theorem handlerReturns_cases (h : S.handlerReturns t = .next S') :
  StepCases b S (.handlerReturns t) S'
  := by
  simp only [handlerReturns] at h
  split at h
  · rename_i signo si handler orig rest hframes
    split at h
    · cases h
    · rename_i hhandler
      split at h
      · rename_i hzero
        cases h
        apply StepCases.returns t signo si handler orig rest hframes
        simp only [handles, hframes]
        rw [if_pos (.inr hzero)]
      · rename_i hzero
        cases h
        apply StepCases.goesOn t signo si handler orig rest hframes
        simp only [handles, hframes]
        rw [if_neg]
        tauto
  · cases h

theorem sigwaitinfo_cases {set : Sigset} {wanted : Bool}
    (h : S.sigwaitinfo b t set wanted = .next S') :
  StepCases b S (.sigwaitinfo t set wanted) S'
  := by
  simp only [sigwaitinfo] at h
  split at h
  · rename_i hextant
    cases h
    have hcalm := calm_delete S t (S.extant t set).signo
    cases wanted with
    | true => exact .takes t set hextant _ hcalm rfl
    | false => exact .calm rfl hcalm (by simp)
  · rename_i hextant
    refine .calm rfl (calm_sigwaiterBlock (Result.ofOption_eq_next h)) ?_
    rintro u set' ⟨⟩
    exact hextant

theorem step_cases (h : S.step b a = .next S') :
  StepCases b S a S'
  := by
  cases a with
  | sigaction t sig sa =>
      simp only [step] at h
      split at h
      · cases h
        exact .calm rfl (calm_sigaction _ _ _ _) (by simp)
      · cases h
  | signal t sig handler =>
      simp only [step] at h
      split at h
      · cases h
        exact .calm rfl (calm_signal _ _ _ _) (by simp)
      · cases h
  | siginterrupt t sig flag =>
      simp only [step] at h
      split at h
      · cases h
        exact .calm rfl (calm_siginterrupt _ _ _ _) (by simp)
      · cases h
  | handlerReturns t => exact handlerReturns_cases h
  | sigwaitinfo t set wanted =>
      simp only [step] at h
      split at h
      · exact sigwaitinfo_cases h
      · cases h
  | wakes t => exact .calm rfl (calm_wakes h) (by simp)
  | leaves t => exact .calm rfl (calm_leaves h) (by simp)
  | kill signo => exact .calm rfl (calm_kill h) (by simp)
  | killSiginfo t si => exact killSiginfo_cases h

end Step

end Signals

end LibPthread.Signal
