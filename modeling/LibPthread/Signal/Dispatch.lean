import LibPthread.Signal.Ignored

/-!
# The return of the dispatcher

`signal_dispatch` in its sections: the lock of the signal state is taken and released by separate
steps, and between them other threads send signals and the handler changes actions and sends
signals to its own thread, which are handled by further calls of `signal_dispatch`. `calls` are
the calls a thread is inside of, the innermost one first. Every call notes, as a ghost, the mask
with which it was entered.
-/

namespace LibPthread.Signal

/-! ### The sections -/

/-- Where a call of `signal_dispatch` stands. -/
inductive Point where
  /-- At the top of the loop, with the lock held. -/
  | loop (signo : Nat)
  /-- At the section under `sig_lock`, after the lock has been released. -/
  | process (signo : Nat) (handler : Handler) (origBlocked : Sigset)
  /-- At the call of the handler, or inside of it. -/
  | running (handler : Handler) (origBlocked : Sigset)
  /-- Behind the loop, with the lock held. -/
  | unlock
  /-- About to return, after the lock has been released. -/
  | done
  deriving DecidableEq, Repr

/-- The lock is held at this point. -/
def Point.holds : Point → Bool
  | .loop _ => true
  | .unlock => true
  | _ => false

/-- The loop has ended. -/
def Point.ended : Point → Bool
  | .unlock => true
  | .done => true
  | _ => false

/-- What the mask is at this point, if `entry` is the mask with which the call was entered: the
same, or it will be restored. -/
def Point.Keeps (entry mask : Sigset) : Point → Prop
  | .loop _ => mask = entry
  | .process _ _ origBlocked => origBlocked = entry
  | .running _ origBlocked => origBlocked = entry
  | .unlock => mask = entry
  | .done => mask = entry

/-- A call of `signal_dispatch`; `entry` is the mask with which it was entered. -/
structure Call where
  si : Siginfo
  entry : Sigset
  point : Point
  deriving DecidableEq, Repr

/-- The signal states, their locks, and the calls of `signal_dispatch`. -/
structure Dispatchers (T : Type) where
  signals : Signals T
  lock : T → Bool
  calls : T → List Call

/-- The steps: a call of `sigaction` by the thread `t` (also from `signal` or `siginterrupt`), a
signal for the thread `t`, and the next section of the innermost call of `signal_dispatch` of
`t`. -/
inductive DispatchAct (T : Type) where
  | sigaction (t : T) (sig : Int) (sa : Option Sigaction)
  | killSiginfo (t : T) (si : Siginfo)
  | dispatch (t : T)
  deriving DecidableEq, Repr

namespace Signals

variable {T : Type} [DecidableEq T]

/-- The loop of `signal_dispatch` up to the release of the lock. -/
def take (S : Signals T) (t : T) (signo : Nat) : Signals T :=
  (S.accept t signo).modify t fun ss =>
    { ss with
      actions := actionsFor ss signo
      blocked := maskFor ss signo
      pending := sigdelset ss.pending signo }

/-- The section of `signal_dispatch` under `sig_lock`. -/
def clear (S : Signals T) (signo : Nat) : Signals T :=
  { S with processPending := sigdelset S.processPending signo }

/-- `ss->blocked = orig_blocked`. -/
def restore (S : Signals T) (t : T) (origBlocked : Sigset) : Signals T :=
  S.modify t fun ss => { ss with blocked := origBlocked }

end Signals

namespace Dispatchers

variable {T : Type} [DecidableEq T]

/-- The innermost call of the thread `t` goes on. -/
def goOn (D : Dispatchers T) (t : T) (S : Signals T) (lock : Bool) (calls : List Call) :
    Dispatchers T where
  signals := S
  lock := Function.update D.lock t lock
  calls := Function.update D.calls t calls

/-- The next section of the innermost call of `signal_dispatch`. A default action ends the
program. -/
def dispatch (D : Dispatchers T) (t : T) : Option (Dispatchers T) :=
  match D.calls t with
  | [] => none
  | c :: rest =>
    match c.point with
    | .loop signo =>
      let ss := (D.signals.accept t signo).ss t
      let point := .process signo (ss.actions signo).sa_handler ss.blocked
      some (D.goOn t (D.signals.take t signo) false ({ c with point } :: rest))
    | .process signo handler orig =>
      some (D.goOn t (D.signals.clear signo) (D.lock t)
        ({ c with point := .running handler orig } :: rest))
    | .running handler orig =>
      if handler = .dfl ∨ D.lock t = true then none
      else
        let signo := D.signals.nextSignal t orig
        let point := if signo = 0 then .unlock else .loop signo
        some (D.goOn t (D.signals.restore t orig) true ({ c with point } :: rest))
    | .unlock => some (D.goOn t D.signals false ({ c with point := .done } :: rest))
    | .done => some (D.goOn t D.signals (D.lock t) rest)

/-- `pthread_kill_siginfo_np`, by any thread. The lock is left to the call of `signal_dispatch`
that handles the signal. -/
def killSiginfo (D : Dispatchers T) (t : T) (si : Siginfo) : Option (Dispatchers T) :=
  if si.si_signo < 0 ∨ si.si_signo ≥ nsig then some D
  else if si.si_signo = 0 then some D
  else if D.lock t = true then none
  else
    let sig := si.si_signo.toNat
    match D.signals.route t sig with
    | .fault => none
    | .waiter n => (D.signals.give n si).map fun S => { D with signals := S }
    | .discarded => some D
    | .pends => some { D with signals := D.signals.pend t sig si }
    | .dispatched =>
      some (D.goOn t D.signals true
        (⟨si, (D.signals.ss t).blocked, .loop sig⟩ :: D.calls t))

/-- The thread is outside of `signal_dispatch`, or inside of a handler. -/
def Runs (D : Dispatchers T) (t : T) : Prop :=
  ((D.calls t).head?.all fun c =>
    match c.point with
    | .running (.fn _) _ => true
    | _ => false) = true

instance (D : Dispatchers T) (t : T) : Decidable (D.Runs t) :=
  inferInstanceAs (Decidable (_ = true))

/-- `sigaction`, called by the thread `t`. -/
def sigaction (D : Dispatchers T) (t : T) (sig : Int) (sa : Option Sigaction) :
    Option (Dispatchers T) :=
  if D.Runs t ∧ D.lock t = false then
    some { D with signals := (D.signals.sigaction t sig sa).1 }
  else none

/-- A step of the threads. -/
def step (D : Dispatchers T) : DispatchAct T → Option (Dispatchers T)
  | .sigaction t sig sa => D.sigaction t sig sa
  | .killSiginfo t si => D.killSiginfo t si
  | .dispatch t => D.dispatch t

/-- Steps lead from `D` to `D'`. -/
def Reach : Dispatchers T → Dispatchers T → Prop :=
  Relation.ReflTransGen fun D D' => ∃ a, D.step a = some D'

/-- Takes the steps in order. -/
def run : Dispatchers T → List (DispatchAct T) → Option (Dispatchers T)
  | D, [] => some D
  | D, a :: acts => (D.step a).bind fun D' => run D' acts

theorem reach_of_run (acts : List (DispatchAct T)) {D D' : Dispatchers T}
    (h : run D acts = some D') :
  Reach D D'
  := by
  induction acts generalizing D with
  | nil =>
      obtain rfl := Option.some.inj h
      exact .refl
  | cons a acts ih =>
      obtain ⟨D₁, hstep, hrest⟩ := Option.bind_eq_some_iff.mp h
      exact .head ⟨a, hstep⟩ (ih hrest)

/-! ### The invariant -/

/-- No signal that the thread does not block is pending. -/
def Quiet (S : Signals T) (t : T) : Prop :=
  (S.ss t).pending &&& ~~~ (S.ss t).blocked = 0 ∧ S.processPending &&& ~~~ (S.ss t).blocked = 0

/-- Every call keeps the mask with which it was entered, from the innermost one on, which finds
`mask`; outside of all calls the mask has neither `SIGKILL` nor `SIGSTOP`. -/
def Keeps : Sigset → List Call → Prop
  | mask, [] => mask.Spares
  | mask, c :: rest => c.point.Keeps c.entry mask ∧ Keeps c.entry rest

/-- The thread is outside of the loops of all calls. -/
def ended : List Call → Bool
  | [] => true
  | c :: _ => c.point.ended

/-- The lock is held for the innermost call, if any. -/
def held : List Call → Bool
  | [] => false
  | c :: _ => c.point.holds

/-- What the steps keep. -/
structure DispatchInv (D : Dispatchers T) : Prop where
  lock : ∀ t, D.lock t = held (D.calls t)
  suspended : ∀ t, ∀ c ∈ (D.calls t).tail, c.point.holds = false
  keeps : ∀ t, Keeps (D.signals.ss t).blocked (D.calls t)
  quiet : ∀ t, ended (D.calls t) = true → Quiet D.signals t

/-! ### The steps keep the invariant -/

/-- The second set has all signals of the first. -/
theorem and_not_eq_zero_iff {s m : Sigset} :
  s &&& ~~~ m = 0 ↔ ∀ sig, s.Has sig → m.Has sig
  := by
  constructor
  · intro h sig hsig
    rw [has_iff] at hsig ⊢
    have hbit := congrArg (fun x => x.getLsbD (sig - 1)) h
    simpa [hsig, BitVec.lt_of_getLsbD hsig] using hbit
  · intro h
    apply BitVec.eq_of_getLsbD_eq
    intro i hi
    have hbit := h (i + 1)
    simp only [has_iff, Nat.add_sub_cancel] at hbit
    simpa [hi] using hbit

section Steps

variable {D D' D₀ : Dispatchers T} {S S' : Signals T} {t u : T} {c : Call} {calls rest : List Call}

omit [DecidableEq T] in
/-- Signals that cease to be pending leave a thread quiet. -/
theorem Quiet.mono (h : Quiet S t) (hblocked : (S'.ss t).blocked = (S.ss t).blocked)
    (hpending : ∀ sig, (S'.ss t).pending.Has sig → (S.ss t).pending.Has sig ∨
      (S.ss t).blocked.Has sig)
    (hprocess : ∀ sig, S'.processPending.Has sig → S.processPending.Has sig) :
  Quiet S' t
  := by
  obtain ⟨hthread, hall⟩ := h
  rw [and_not_eq_zero_iff] at hthread hall
  rw [Quiet, hblocked, and_not_eq_zero_iff, and_not_eq_zero_iff]
  constructor
  · intro sig hsig
    rcases hpending sig hsig with hold | hmasked
    · exact hthread sig hold
    · exact hmasked
  · intro sig hsig
    exact hall sig (hprocess sig hsig)

/-- The innermost call of a thread goes on. -/
theorem DispatchInv.goOn {lock : Bool} (h : DispatchInv D) (hlock : lock = held calls)
    (hothers : ∀ u, u ≠ t → S.ss u = D.signals.ss u)
    (hprocess : ∀ sig, S.processPending.Has sig → D.signals.processPending.Has sig)
    (hsuspended : ∀ c ∈ calls.tail, c.point.holds = false)
    (hkeeps : Keeps (S.ss t).blocked calls) (hquiet : ended calls = true → Quiet S t) :
  DispatchInv (D.goOn t S lock calls)
  := by
  subst hlock
  constructor
  · intro u
    by_cases hu : u = t
    · simp [Dispatchers.goOn, hu]
    · simp [Dispatchers.goOn, hu, h.lock]
  · intro u
    by_cases hu : u = t
    · simpa [Dispatchers.goOn, hu] using hsuspended
    · simpa [Dispatchers.goOn, hu] using h.suspended u
  · intro u
    by_cases hu : u = t
    · simpa [Dispatchers.goOn, hu] using hkeeps
    · simpa [Dispatchers.goOn, hu, hothers u hu] using h.keeps u
  · intro u
    by_cases hu : u = t
    · simpa [Dispatchers.goOn, hu] using hquiet
    · intro hended
      simp only [Dispatchers.goOn, Function.update_of_ne hu] at hended
      apply (h.quiet u hended).mono
      · simp [Dispatchers.goOn, hothers u hu]
      · intro sig hsig
        simp only [Dispatchers.goOn, hothers u hu] at hsig
        exact .inl hsig
      · exact hprocess

omit [DecidableEq T] in
/-- A section that does not move any call. -/
theorem DispatchInv.signals (h : DispatchInv D)
    (hkeeps : ∀ u, Keeps (S.ss u).blocked (D.calls u))
    (hquiet : ∀ u, ended (D.calls u) = true → Quiet S u) :
  DispatchInv { D with signals := S }
  := ⟨h.lock, h.suspended, hkeeps, hquiet⟩

omit [DecidableEq T] in
/-- A section in which the masks remain and no signal becomes pending that is not blocked. -/
theorem DispatchInv.pending (h : DispatchInv D)
    (hblocked : ∀ u, (S.ss u).blocked = (D.signals.ss u).blocked)
    (hpending : ∀ u sig, (S.ss u).pending.Has sig → (D.signals.ss u).pending.Has sig ∨
      (D.signals.ss u).blocked.Has sig)
    (hprocess : ∀ sig, S.processPending.Has sig → D.signals.processPending.Has sig) :
  DispatchInv { D with signals := S }
  := by
  apply h.signals
  · intro u
    rw [hblocked]
    exact h.keeps u
  · intro u hended
    exact (h.quiet u hended).mono (hblocked u) (hpending u) hprocess

/-- If there is no next signal, none is pending that the restored mask does not block. -/
theorem quiet_of_nextSignal {orig : Sigset} (h : S.nextSignal t orig = 0) :
  Quiet (S.restore t orig) t
  := by
  have hpending : ((S.restore t orig).ss t).pending = (S.ss t).pending := by
    simp [Signals.restore]
  have hblocked : ((S.restore t orig).ss t).blocked = orig := by
    simp [Signals.restore]
  have hprocess : (S.restore t orig).processPending = S.processPending := rfl
  rw [Quiet, hpending, hblocked, hprocess, BitVec.and_comm _ (~~~ orig),
    BitVec.and_comm _ (~~~ orig)]
  rw [Signals.nextSignal] at h
  have hzero := eq_zero_of_lsb64 h
  split at hzero
  · rename_i hnone
    exact ⟨hnone, hzero⟩
  · rename_i hsome
    exact absurd hzero hsome

theorem take_other (S : Signals T) {signo : Nat} (hu : u ≠ t) :
  (S.take t signo).ss u = S.ss u
  := by
  rw [Signals.take, Signals.modify_ss, Function.update_of_ne hu, Signals.accept]
  split
  · simp [Signals.delete, Function.update_of_ne hu]
  · split
    · simp [Function.update_of_ne hu]
    · rfl

theorem DispatchInv.dispatch (h : DispatchInv D) (hstep : D.dispatch t = some D') :
  DispatchInv D'
  := by
  have hlock := h.lock t
  have hsuspended := h.suspended t
  have hkeeps := h.keeps t
  have hquiet := h.quiet t
  rw [Dispatchers.dispatch] at hstep
  cases hcalls : D.calls t with
  | nil => simp [hcalls] at hstep
  | cons c rest =>
      obtain ⟨si, entry, point⟩ := c
      rw [hcalls] at hlock hsuspended hkeeps hquiet hstep
      obtain ⟨hpoint, hrest⟩ := hkeeps
      cases point with
      | loop signo =>
          obtain rfl := Option.some.inj hstep
          have hblocked : ((D.signals.accept t signo).ss t).blocked = (D.signals.ss t).blocked :=
            Signals.accept_part SignalState.blocked (fun _ _ => rfl) D.signals t t signo
          apply h.goOn
          · rfl
          · exact fun u hu => take_other D.signals hu
          · exact (Signals.calm_accept _ _ _).processPending
          · exact hsuspended
          · exact ⟨hblocked.trans hpoint, hrest⟩
          · simp [ended, Point.ended]
      | process signo handler orig =>
          obtain rfl := Option.some.inj hstep
          apply h.goOn
          · exact hlock
          · exact fun _ _ => rfl
          · exact fun _ hsig => has_of_sigdelset hsig
          · exact hsuspended
          · exact ⟨hpoint, hrest⟩
          · simp [ended, Point.ended]
      | running handler orig =>
          dsimp only at hstep
          split at hstep
          · cases hstep
          · obtain rfl := Option.some.inj hstep
            have hmask : ((D.signals.restore t orig).ss t).blocked = entry := by
              rw [Signals.restore, Signals.modify_ss, Function.update_self]
              exact hpoint
            apply h.goOn
            · dsimp only [held]
              split
              · rfl
              · rfl
            · exact fun u hu => by simp [Signals.restore, Function.update_of_ne hu]
            · exact fun _ hsig => hsig
            · exact hsuspended
            · refine ⟨?_, hrest⟩
              dsimp only
              split
              · exact hmask
              · exact hmask
            · intro hended
              dsimp only [ended] at hended
              split at hended
              · rename_i hnext
                exact quiet_of_nextSignal hnext
              · simp [Point.ended] at hended
      | unlock =>
          obtain rfl := Option.some.inj hstep
          apply h.goOn
          · rfl
          · exact fun _ _ => rfl
          · exact fun _ hsig => hsig
          · exact hsuspended
          · exact ⟨hpoint, hrest⟩
          · exact fun _ => hquiet rfl
      | done =>
          obtain rfl := Option.some.inj hstep
          have hmask : (D.signals.ss t).blocked = entry := hpoint
          apply h.goOn
          · rw [hlock]
            cases rest with
            | nil => rfl
            | cons c' rest' => exact (hsuspended c' List.mem_cons_self).symm
          · exact fun _ _ => rfl
          · exact fun _ hsig => hsig
          · exact fun c hc => hsuspended c (List.mem_of_mem_tail hc)
          · rw [hmask]
            exact hrest
          · exact fun _ => hquiet rfl

/-- `sigaction` leaves a mask that has neither `SIGKILL` nor `SIGSTOP` as it is. -/
theorem sigdelset_eq {m : Sigset} {sig : Nat} (h : ¬ m.Has sig) :
  sigdelset m sig = m
  := by
  rw [sigdelset]
  split
  · apply BitVec.eq_of_getLsbD_eq
    intro i hi
    rw [Sigset.Has, not_not] at h
    have hbit := congrArg (fun x => x.getLsbD i) h
    simp only [BitVec.getLsbD_and, BitVec.getLsbD_not, hi, decide_true, Bool.true_and] at hbit ⊢
    cases hm : m.getLsbD i with
    | false => rfl
    | true => simpa [hm] using hbit
  · rfl

theorem sigaction_blocked (S : Signals T) (t u : T) (sig : Int) (sa : Option Sigaction) :
  ((S.sigaction t sig sa).1.ss u).blocked = (S.ss u).blocked ∨
    (u = t ∧ ((S.sigaction t sig sa).1.ss u).blocked =
      sigdelset (sigdelset (S.ss u).blocked sigkill) sigstop)
  := by
  rw [Signals.sigaction]
  split
  · exact .inl rfl
  · cases sa with
    | none => exact .inl rfl
    | some sa =>
        by_cases hu : u = t
        · subst hu
          right
          dsimp only
          split
          · simp [Signals.delete]
          · simp
        · left
          dsimp only
          split
          · simp [Signals.delete, Function.update_of_ne hu]
          · simp [Function.update_of_ne hu]

omit [DecidableEq T] in
/-- A thread that calls functions is inside of a handler or outside of `signal_dispatch`. -/
theorem Runs.cases (h : D.Runs t) :
  D.calls t = [] ∨ ∃ c rest f orig, D.calls t = c :: rest ∧ c.point = .running (.fn f) orig
  := by
  rw [Runs] at h
  cases hcalls : D.calls t with
  | nil => exact .inl rfl
  | cons c rest =>
      right
      simp only [hcalls, List.head?_cons, Option.all_some] at h
      split at h
      · rename_i f orig hpoint
        exact ⟨c, rest, f, orig, rfl, hpoint⟩
      · cases h

/-- `sigaction` may unblock `SIGKILL` and `SIGSTOP`, but inside of a handler the mask will be
restored, and elsewhere they are not blocked. -/
theorem DispatchInv.sigaction (h : DispatchInv D) {sig : Int} {sa : Option Sigaction}
    (hstep : D.sigaction t sig sa = some D') :
  DispatchInv D'
  := by
  rw [Dispatchers.sigaction] at hstep
  split at hstep
  · rename_i hruns
    obtain rfl := Option.some.inj hstep
    have hcalm := Signals.calm_sigaction D.signals t sig sa
    rcases hruns.1.cases with hcalls | ⟨c, rest, f, orig, hcalls, hpoint⟩
    · have hspares : (D.signals.ss t).blocked.Spares := by
        have hkeeps := h.keeps t
        rwa [hcalls] at hkeeps
      apply h.pending
      · intro u
        rcases sigaction_blocked D.signals t u sig sa with heq | ⟨rfl, heq⟩
        · exact heq
        · rw [heq, sigdelset_eq hspares.1, sigdelset_eq hspares.2]
      · exact fun u sig hsig => .inl (hcalm.pending u sig hsig)
      · exact hcalm.processPending
    · apply h.signals
      · intro u
        have hkeeps := h.keeps u
        rcases sigaction_blocked D.signals t u sig sa with heq | ⟨rfl, -⟩
        · rwa [heq]
        · rw [hcalls] at hkeeps ⊢
          rw [Keeps, hpoint] at hkeeps ⊢
          exact hkeeps
      · intro u hended
        rcases sigaction_blocked D.signals t u sig sa with heq | ⟨rfl, -⟩
        · exact (h.quiet u hended).mono heq (fun sig hsig => .inl (hcalm.pending u sig hsig))
            hcalm.processPending
        · rw [hcalls, ended, hpoint] at hended
          cases hended
  · cases hstep

omit [DecidableEq T] in
/-- A signal becomes pending for a thread that blocks it. -/
theorem blocked_of_route {sig : Nat} (h : S.route t sig = .pends) :
  (S.ss t).blocked.Has sig
  := by
  have hto : Signals.routeTo (S.ss t) sig = .pends → (S.ss t).blocked.Has sig := by
    intro hto
    rw [Signals.routeTo] at hto
    split at hto
    · cases hto
    · split at hto
      · assumption
      · cases hto
  rw [Signals.route] at h
  split at h
  · exact hto h
  · split at h
    · cases h
    · split at h
      · cases h
      · exact hto h

theorem DispatchInv.pend (h : DispatchInv D) {sig : Nat} {si : Siginfo}
    (hblocked : (D.signals.ss t).blocked.Has sig) :
  DispatchInv { D with signals := D.signals.pend t sig si }
  := by
  apply h.pending
  · intro u
    exact Signals.modify_part SignalState.blocked
      (f := fun ss => { ss with pending := ss.pending ||| sigmask sig }) (fun _ => rfl)
      D.signals t u
  · intro u sig' hsig
    by_cases hu : u = t
    · subst hu
      simp only [Signals.pend, Signals.modify_ss, Function.update_self, has_or] at hsig
      rcases hsig with hold | hnew
      · exact .inl hold
      · right
        rw [has_iff] at hblocked ⊢
        rw [has_iff, sigmask, ← BitVec.twoPow_eq, BitVec.getLsbD_twoPow] at hnew
        simp only [Bool.and_eq_true, decide_eq_true_eq] at hnew
        rwa [← hnew.2]
    · simp only [Signals.pend, Signals.modify_ss, Function.update_of_ne hu] at hsig
      exact .inl hsig
  · exact fun _ hsig => hsig

/-- A further call of `signal_dispatch` is entered only when the lock is free. -/
theorem DispatchInv.enter (h : DispatchInv D) (hfree : D.lock t = false) (sig : Nat)
    (si : Siginfo) :
  DispatchInv (D.goOn t D.signals true
    (⟨si, (D.signals.ss t).blocked, .loop sig⟩ :: D.calls t))
  := by
  apply h.goOn
  · rfl
  · exact fun _ _ => rfl
  · exact fun _ hsig => hsig
  · intro c hc
    have hheld := h.lock t
    have hsuspended := h.suspended t
    rw [List.tail_cons] at hc
    cases hcalls : D.calls t with
    | nil =>
        rw [hcalls] at hc
        cases hc
    | cons c' rest =>
        rw [hfree, hcalls] at hheld
        rw [hcalls] at hc hsuspended
        rcases List.mem_cons.mp hc with rfl | hrest
        · exact hheld.symm
        · exact hsuspended c hrest
  · exact ⟨rfl, h.keeps t⟩
  · simp [ended, Point.ended]

theorem DispatchInv.killSiginfo (h : DispatchInv D) {si : Siginfo}
    (hstep : D.killSiginfo t si = some D') :
  DispatchInv D'
  := by
  rw [Dispatchers.killSiginfo] at hstep
  split at hstep
  · obtain rfl := Option.some.inj hstep
    exact h
  · rename_i hrange
    split at hstep
    · obtain rfl := Option.some.inj hstep
      exact h
    · rename_i hzero
      split at hstep
      · cases hstep
      · rename_i hlock
        have hfree : D.lock t = false := by simpa using hlock
        dsimp only at hstep
        split at hstep
        · cases hstep
        · obtain ⟨S, hgive, rfl⟩ := Option.map_eq_some_iff.mp hstep
          have hcalm := Signals.calm_give hgive
          apply h.pending
          · exact Signals.give_part SignalState.blocked (fun _ _ => rfl) hgive
          · exact fun u sig hsig => .inl (hcalm.pending u sig hsig)
          · exact hcalm.processPending
        · obtain rfl := Option.some.inj hstep
          exact h
        · rename_i hroute
          obtain rfl := Option.some.inj hstep
          exact h.pend (blocked_of_route hroute)
        · obtain rfl := Option.some.inj hstep
          exact h.enter hfree _ _

theorem DispatchInv.step (h : DispatchInv D) {a : DispatchAct T} (hstep : D.step a = some D') :
  DispatchInv D'
  := by
  cases a with
  | sigaction t sig sa => exact h.sigaction hstep
  | killSiginfo t si => exact h.killSiginfo hstep
  | dispatch t => exact h.dispatch hstep

/-! ### Runs -/

/-- No thread is inside of `signal_dispatch`, and no thread blocks `SIGKILL` or `SIGSTOP` or has a
pending signal that it does not block. -/
structure Idle (D : Dispatchers T) : Prop where
  calls : ∀ t, D.calls t = []
  lock : ∀ t, D.lock t = false
  spared : Spared D.signals
  quiet : ∀ t, Quiet D.signals t

theorem dispatchInv_of_reach (hidle : Idle D₀) (h : D₀.Reach D) :
  DispatchInv D
  := by
  induction h with
  | refl =>
      constructor
      · intro t
        rw [hidle.lock, hidle.calls, held]
      · intro t c hc
        rw [hidle.calls] at hc
        cases hc
      · intro t
        rw [hidle.calls]
        exact hidle.spared t
      · exact fun t _ => hidle.quiet t
  | tail _ hlast ih =>
      obtain ⟨a, hstep⟩ := hlast
      exact ih.step hstep

/-- The last section of `signal_dispatch` releases the lock with the mask with which the call was
entered and with no signal pending that this mask does not block. The call then returns with the
lock free and with this mask, and outside of all calls no signal is pending that is not
blocked. -/
theorem dispatch_restores (hidle : Idle D₀) (h : D₀.Reach D) (t : T) :
  (∀ c rest, D.calls t = c :: rest → c.point = .unlock →
    ∃ D', D.step (.dispatch t) = some D' ∧ D'.lock t = false ∧
      (D'.signals.ss t).blocked = c.entry ∧ Quiet D'.signals t) ∧
    (∀ c rest, D.calls t = c :: rest → c.point = .done →
      D.lock t = false ∧ (D.signals.ss t).blocked = c.entry) ∧
    (D.calls t = [] → D.lock t = false ∧ Quiet D.signals t)
  := by
  have hinv := dispatchInv_of_reach hidle h
  have hlock := hinv.lock t
  have hkeeps := hinv.keeps t
  have hquiet := hinv.quiet t
  refine ⟨?_, ?_, ?_⟩
  · intro c rest hcalls hpoint
    rw [hcalls, Keeps, hpoint] at hkeeps
    rw [hcalls, ended, hpoint] at hquiet
    refine ⟨_, by simp only [Dispatchers.step, Dispatchers.dispatch, hcalls, hpoint]; rfl, ?_⟩
    exact ⟨by simp [Dispatchers.goOn], hkeeps.1, hquiet rfl⟩
  · intro c rest hcalls hpoint
    rw [hcalls, Keeps, hpoint] at hkeeps
    rw [hcalls, held, hpoint] at hlock
    exact ⟨hlock, hkeeps.1⟩
  · intro hcalls
    rw [hcalls] at hlock hquiet
    exact ⟨hlock, hquiet rfl⟩

end Steps

/-! ### Example -/

/-- The handler of `SIGUSR1` blocks `SIGUSR2`. While it runs, both are sent again, and it installs
a handler for `SIGALRM`, which is sent as well and handled on top of it. -/
def nestedRun : List (DispatchAct Unit) :=
  [.sigaction () 10 (some ⟨.fn 1, sigmask 12, 0⟩), .sigaction () 12 (some ⟨.fn 2, 0, 0⟩),
    .killSiginfo () (.plain 10), .dispatch (), .dispatch (),
    .killSiginfo () (.plain 12), .killSiginfo () (.plain 10),
    .sigaction () 14 (some ⟨.fn 3, sigmask 9, 0⟩), .killSiginfo () (.plain 14),
    .dispatch (), .dispatch (), .dispatch (), .dispatch (), .dispatch (),
    .dispatch (), .dispatch (), .dispatch (),
    .dispatch (), .dispatch (), .dispatch (), .dispatch ()]

/-- The call for the first signal has also handled the two that were pending. -/
theorem dispatch_restores_nestedRun :
  ∃ D D' : Dispatchers Unit, (D.calls ()).map Call.point = [.unlock] ∧
    D.step (.dispatch ()) = some D' ∧ D'.lock () = false ∧ Quiet D'.signals ()
  := by
  have hrun : (run ⟨Signals.boot Unit, fun _ => false, fun _ => []⟩ nestedRun).map (fun D =>
      decide ((D.calls ()).map Call.point = [.unlock])) = some true := by
    decide +kernel
  obtain ⟨D, hD, htest⟩ := Option.map_eq_some_iff.mp hrun
  have hpoint := of_decide_eq_true htest
  have hidle : Idle ⟨Signals.boot Unit, fun _ => false, fun _ => []⟩ :=
    ⟨fun _ => rfl, fun _ => rfl, fun _ => ⟨not_has_zero, not_has_zero⟩,
      fun _ => ⟨BitVec.zero_and, BitVec.zero_and⟩⟩
  obtain ⟨c, hcalls, hc⟩ := List.map_eq_singleton_iff.mp hpoint
  obtain ⟨D', hstep, hlock, -, hquiet⟩ :=
    (dispatch_restores hidle (reach_of_run nestedRun hD) ()).1 c [] hcalls hc
  exact ⟨D, D', hpoint, hstep, hlock, hquiet⟩

end Dispatchers

end LibPthread.Signal
