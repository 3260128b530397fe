import LibPthread.Hurd.Relock

/-!
# The end of a wait with cancellation by the Hurd

Whatever the other threads do, a call of `pthread_hurd_cond_timedwait_np` returns with the mutex
held, with no trace of the wait on the queues and ports, with the hook removed, and with the
answer that its last section under `ss->lock` has found.
-/

open Concurrency

namespace LibPthread

namespace Hurd

/-- The control points of a wait that has released the mutex and not locked it again. -/
def WaitLoc.away {T : Type} : WaitLoc T → Bool
  | .unlockMutex _ (.wakeup _) => true
  | .block _ => true
  | .blocked _ => true
  | .recheck _ => true
  | .drain => true
  | .final cancel _ => !cancel
  | .relockMutex _ _ _ => true
  | _ => false

/-- The control points of a wait after its last section, with what that section has found. -/
def WaitLoc.Answers {T : Type} (answered : Bool) : WaitLoc T → Prop
  | .start abstime => badTime abstime = false
  | .leave => answered = true
  | .relockMutex cancel _ _ => cancel = answered
  | _ => True

namespace Loc

variable {T N : Type} [DecidableEq N]

/-- A step from the control point releases the mutex `m`. -/
def releases (m : N) : Loc T N → Bool
  | .mutex n (.unlock .start) => n = m
  | .wait _ n (.unlockMutex _ .start) => n = m
  | _ => false

/-- A call that returns `r` from the control point has locked the mutex `m`. A wait that returns
from its call of the lock function has locked it, whatever it returns. -/
def acquires (m : N) (r : Answer) : Loc T N → Bool
  | .mutex n (.lock _) => n = m && r = .ret .zero
  | .mutex n .trylock => n = m && r = .ret .zero
  | .wait _ n (.relockMutex _ _ _) => n = m
  | _ => false

omit [DecidableEq N] in
/-- The step from the control point is the last section of a wait. -/
def isFinal : Loc T N → Bool
  | .wait _ _ (.final _ _) => true
  | _ => false

end Loc

variable {T N : Type} [DecidableEq T] [DecidableEq N]

/-- The number of times `t` has locked the mutex `m` and not yet unlocked it. -/
def depth (m : N) (t : T) : List (Event T (Loc T N) Answer) → Nat
  | [] => 0
  | .call _ _ :: log => depth m t log
  | .goto u l _ :: log => if u = t ∧ l.releases m = true then depth m t log - 1 else depth m t log
  | .ret u l r :: log =>
    if u = t ∧ l.releases m = true ∧ r = .ret .zero then depth m t log - 1
    else if u = t ∧ l.acquires m r = true then depth m t log + 1
    else depth m t log

/-- The number of calls of `t`. -/
def calls (t : T) : List (Event T (Loc T N) Answer) → Nat
  | [] => 0
  | .call u _ :: log => if u = t then calls t log + 1 else calls t log
  | .goto _ _ _ :: log => calls t log
  | .ret _ _ _ :: log => calls t log

/-- `ss->cancel` of `t` had been set when the last section of the last wait of `t` began. -/
def answered (t : T) : List (Event T (Loc T N) Answer) → Bool
  | [] => false
  | .call _ _ :: log => answered t log
  | .goto u l _ :: log => if u = t ∧ l.isFinal = true then requested t log else answered t log
  | .ret _ _ _ :: log => answered t log

/-- The messages meant for `t`: owed, queued on its port, or received. -/
def messages [Fintype T] (s : Sys T N) (t : T) : Nat :=
  credit (roles (fun _ => Loc.role) s) s.shared.waits t

/-- A run in which nothing is asked of the steps. -/
abbrev Runs (b : Build) (s s' : Sys T N) : Prop :=
  (machine b).Reach (fun _ _ => True) s s'

/-- The thread `t` returns from a wait, from the state `s` to the state `s'`. -/
structure Exited [Fintype T] (b : Build) (m : N) (t : T) (held : Nat) (s s' : Sys T N) :
    Prop where
  holds : depth m t s'.log = held
  queue : ∀ q, t ∉ s'.shared.waits.queue q
  link : s'.shared.waits.prevp t = none
  messages : messages s' t = 0
  hook : (s'.shared.obj.ss t).hook = none
  later : ∀ s'', Runs b s' s'' → calls t s''.log = calls t s'.log → ∀ c, ¬ Hooking s'' t c
  answer : ∃ l r, s'.log = .ret t l r :: s.log ∧
    if answered t s.log = true then r = .EINTR else r = .ret .zero ∨ r = .ret (.error .ETIMEDOUT)
  cleared : (s'.shared.obj.ss t).cancel = requested t s'.log

/-- The thread `t` is inside its `n`-th call, a wait that was called with the mutex locked `d`
times, or the call has returned. -/
def Called (c m : N) (t : T) (d n : Nat) (s : Sys T N) : Prop :=
  n < calls t s.log ∨ (calls t s.log = n ∧ (s.loc t = none ∨
    ∃ k, s.loc t = some (.wait c m k) ∧ k.Answers (answered t s.log) ∧
      depth m t s.log = if k.away then d - 1 else d))

section Called

variable {b : Build} {s s' : Sys T N} {a : Label T (Loc T N)} {t : T} {c m : N} {d n : Nat}

theorem calls_mono (hstep : (machine b).Step s a s') (t : T) :
  calls t s.log ≤ calls t s'.log
  := by
  cases hstep with
  | call =>
      simp only [State.call_log, calls]
      split <;> omega
  | goto => exact le_rfl
  | ret => exact le_rfl

/-- The steps of other threads do not touch the records of `t`. -/
theorem log_other (hstep : (machine b).Step s a s') (ht : t ≠ a.thread) :
  calls t s'.log = calls t s.log ∧ depth m t s'.log = depth m t s.log ∧
    answered t s'.log = answered t s.log
  := by
  have hne := Ne.symm ht
  cases hstep with
  | call => simp_all [calls, depth, answered]
  | goto => simp_all [calls, depth, answered]
  | ret => simp_all [calls, depth, answered]

theorem Called.other (h : Called c m t d n s) (hstep : (machine b).Step s a s')
    (ht : t ≠ a.thread) :
  Called c m t d n s'
  := by
  have hloc := loc_other hstep ht
  obtain ⟨hcalls, hdepth, hanswered⟩ := log_other (m := m) hstep ht
  rw [Called, hloc, hcalls, hdepth, hanswered]
  exact h

omit [DecidableEq N] in
theorem answered_final {l l' : Loc T N} (hl : l.isFinal = true)
    (log : List (Event T (Loc T N) Answer)) :
  answered t (.goto t l l' :: log) = requested t log
  := by
  simp [answered, hl]

theorem depth_stays {l l' : Loc T N} (hl : l.releases m = false)
    (log : List (Event T (Loc T N) Answer)) :
  depth m t (.goto t l l' :: log) = depth m t log
  := by
  simp [depth, hl]

theorem depth_release {l l' : Loc T N} (hl : l.releases m = true)
    (log : List (Event T (Loc T N) Answer)) :
  depth m t (.goto t l l' :: log) = depth m t log - 1
  := by
  simp [depth, hl]

/-- What a step inside a wait makes of the mutex. -/
theorem depth_flow {x y : Shared T N} {k k' : WaitLoc T} (h : WaitStep b c m t x k y k')
    {log : List (Event T (Loc T N) Answer)}
    (hdepth : depth m t log = if k.away then d - 1 else d) :
  depth m t (.goto t (.wait c m k) (.wait c m k') :: log) = if k'.away then d - 1 else d
  := by
  cases h with
  | unlocking step =>
      obtain ⟨rfl, hstart⟩ := Mutex.unlockStep_eq_goto step
      obtain ⟨-, u, rest, -, rfl, -⟩ := Mutex.unlockStart_eq_goto hstart
      rw [depth_release (by simp [Loc.releases]), hdepth]
      rfl
  | @unlocked timed l x r step =>
      cases l with
      | start =>
          rw [depth_release (by simp [Loc.releases]), hdepth]
          rfl
      | wakeup u =>
          rw [depth_stays rfl, hdepth]
          rfl
  | @waiting k stage stage' timeout w waits step =>
      have haway : k.away = true := by cases k <;> cases waits <;> rfl
      have haway' : (WaitLoc.ofStage (T := T) stage').away = true := by cases stage' <;> rfl
      rw [depth_stays (by cases k <;> cases waits <;> rfl), hdepth, haway, haway']
  | @waited k stage timeout err w waits step =>
      have haway : k.away = true := by cases k <;> cases waits <;> rfl
      rw [depth_stays (by cases k <;> cases waits <;> rfl), hdepth, haway]
      rfl
  | _ =>
      rw [depth_stays rfl, hdepth]
      rfl

/-- What a step inside a wait makes of the answer. -/
theorem answers_flow {x y : Shared T N} {k k' : WaitLoc T} (h : WaitStep b c m t x k y k')
    {log : List (Event T (Loc T N) Answer)} (hanswers : k.Answers (answered t log))
    (hcancel : ∀ cancel err, k = .final cancel err →
      requested t log = ((x.obj.ss t).cancel || cancel)) :
  k'.Answers (answered t (.goto t (.wait c m k) (.wait c m k') :: log))
  := by
  cases h with
  | @waiting k stage stage' timeout w waits step => cases stage' <;> trivial
  | @leave err =>
      rw [answered_final rfl, hcancel true err rfl, Bool.or_true]
      rfl
  | @final err =>
      rw [answered_final rfl, hcancel false err rfl, Bool.or_false]
      rfl
  | @relocking cancel err timeout l l' x step =>
      have hsame : answered t (.goto t (.wait c m (.relockMutex cancel err l))
          (.wait c m (.relockMutex cancel err l')) :: log) = answered t log := by
        simp [answered, Loc.isFinal]
      rw [hsame]
      exact hanswers
  | _ => trivial

variable [Fintype T]

theorem Called.step (h : Called c m t d n s) (hinv : Inv s) (hstep : (machine b).Step s a s') :
  Called c m t d n s'
  := by
  by_cases ht : t = a.thread
  · rcases h with hlater | ⟨hcalls, hcases⟩
    · exact .inl (lt_of_lt_of_le hlater (calls_mono hstep t))
    · cases hstep with
      | @call u l hidle hentry =>
          obtain rfl : t = u := ht
          left
          simp [calls, hcalls]
      | @goto u timeout l l' x hl h₁ =>
          obtain rfl : t = u := ht
          rcases hcases with hout | ⟨k, hk, hanswers, hdepth⟩
          · rw [hl] at hout
            cases hout
          · rw [hl] at hk
            obtain rfl := Option.some.inj hk
            have hinside := (step_eq_goto h₁).2
            cases hinside with
            | @wait c₁ m₁ k₁ k₁' s₁ step =>
                have hrequested := hinv.requested t
                rw [hl, Option.any_some] at hrequested
                have hflow := answers_flow step hanswers (by
                  rintro cancel err rfl
                  exact hrequested)
                exact .inr ⟨hcalls, .inr ⟨k₁', by simp, hflow, depth_flow step hdepth⟩⟩
      | @ret u timeout l x r hl h₁ =>
          obtain rfl : t = u := ht
          exact .inr ⟨hcalls, .inl (by simp)⟩
  · exact h.other hstep ht

omit [Fintype T] in
/-- What the steps keep holds until the next call of `t`. -/
theorem until_call {Q : Sys T N → Prop} (hs : Runs b s s') (start : Q s)
    (keep : ∀ s₁ a s₂, Q s₁ → (machine b).Step s₁ a s₂ → calls t s₂.log = calls t s₁.log → Q s₂)
    (hcalls : calls t s'.log = calls t s.log) :
  Q s'
  := by
  have hinv : calls t s.log ≤ calls t s'.log ∧ (calls t s'.log = calls t s.log → Q s') := by
    apply hs.invariant (I := fun s' => calls t s.log ≤ calls t s'.log ∧
      (calls t s'.log = calls t s.log → Q s'))
    · exact ⟨le_rfl, fun _ => start⟩
    · rintro s₁ a s₂ - ⟨hle, hQ⟩ - hstep
      have hmono := calls_mono hstep t
      refine ⟨hle.trans hmono, ?_⟩
      intro heq
      exact keep s₁ a s₂ (hQ (by omega)) hstep (by omega)
  exact hinv.2 hcalls

omit [Fintype T] in
theorem loc_none (hstep : (machine b).Step s a s') (hidle : s.loc t = none)
    (hcalls : calls t s'.log = calls t s.log) :
  s'.loc t = none
  := by
  by_cases ht : t = a.thread
  · cases hstep with
    | @call u l hidle' hentry =>
        obtain rfl : t = u := ht
        simp [calls] at hcalls
    | @goto u timeout l l' x hl h₁ =>
        obtain rfl : t = u := ht
        rw [hl] at hidle
        cases hidle
    | @ret u timeout l x r hl h₁ =>
        obtain rfl : t = u := ht
        rw [hl] at hidle
        cases hidle
  · rw [loc_other hstep ht, hidle]

/-- The control points of a wait that was cancelled on entry. -/
inductive Kept (c m : N) (t : T) (s : Sys T N) : Prop where
  | idle (loc : s.loc t = none)
  | enqueue {timed : Bool} (loc : s.loc t = some (.wait c m (.enqueue timed)))
    (set : (s.shared.obj.ss t).cancel = true)
  | cancelled (loc : s.loc t = some (.wait c m .cancelled))
  | final {err : Bool} (loc : s.loc t = some (.wait c m (.final true err)))
  | leave (loc : s.loc t = some (.wait c m .leave))

omit [Fintype T] [DecidableEq N] in
theorem record_true {u : T} (hu : u ≠ t) (l : Loc T N) :
  l.record u t true = true
  := by
  have hor := record_or hu l false true
  rwa [Bool.or_true, Bool.or_true] at hor

/-- Other threads do not clear `ss->cancel`. -/
theorem cancel_other (hinv : Inv s) (hstep : (machine b).Step s a s')
    (ht : t ≠ a.thread) (hset : (s.shared.obj.ss t).cancel = true) :
  (s'.shared.obj.ss t).cancel = true
  := by
  cases hstep with
  | call => exact hset
  | @goto u timeout l l' x hl h₁ =>
      have heffect := inside_effect (hinv.port hl) (step_eq_goto h₁).2
      have hne : u ≠ t := Ne.symm ht
      rw [State.goto_shared, heffect.cancel_other t ht, hset, record_true hne]
  | @ret u timeout l x r hl h₁ =>
      have hss := (returns_effect (hinv.port hl) (step_eq_ret h₁).2).1
      rw [State.ret_shared, hss, hset]

/-- A thread that was cancelled on entry keeps the mutex. -/
theorem Kept.step (h : Kept c m t s) (hinv : Inv s) (hstep : (machine b).Step s a s')
    (hcalls : calls t s'.log = calls t s.log) :
  Kept c m t s' ∧ depth m t s'.log = depth m t s.log
  := by
  by_cases ht : t = a.thread
  · cases hstep with
    | @call u l hidle hentry =>
        obtain rfl : t = u := ht
        simp [calls] at hcalls
    | @goto u timeout l l' x hl h₁ =>
        obtain rfl : t = u := ht
        have hinside := (step_eq_goto h₁).2
        cases h with
        | idle loc =>
            rw [hl] at loc
            cases loc
        | enqueue loc set =>
            obtain rfl := Option.some.inj (hl.symm.trans loc)
            cases hinside with
            | wait step =>
                cases step with
                | cancelled => exact ⟨.cancelled (by simp), depth_stays rfl s.log⟩
                | enqueue clear =>
                    rw [set] at clear
                    cases clear
                | waiting waits => cases waits
                | waited waits => cases waits
        | cancelled loc =>
            obtain rfl := Option.some.inj (hl.symm.trans loc)
            cases hinside with
            | wait step =>
                cases step with
                | relock => exact ⟨Kept.final (by simp; rfl), depth_stays rfl s.log⟩
                | waiting waits => cases waits
                | waited waits => cases waits
        | final loc =>
            obtain rfl := Option.some.inj (hl.symm.trans loc)
            cases hinside with
            | wait step =>
                cases step with
                | leave => exact ⟨.leave (by simp), depth_stays rfl s.log⟩
                | waiting waits => cases waits
                | waited waits => cases waits
        | leave loc =>
            obtain rfl := Option.some.inj (hl.symm.trans loc)
            cases hinside with
            | wait step =>
                cases step with
                | waiting waits => cases waits
                | waited waits => cases waits
    | @ret u timeout l x r hl h₁ =>
        obtain rfl : t = u := ht
        refine ⟨.idle (by simp), ?_⟩
        have hquiet : l.releases m = false ∧ l.acquires m r = false := by
          cases h with
          | idle loc =>
              rw [hl] at loc
              cases loc
          | enqueue loc => cases hl.symm.trans loc; exact ⟨rfl, rfl⟩
          | cancelled loc => cases hl.symm.trans loc; exact ⟨rfl, rfl⟩
          | final loc => cases hl.symm.trans loc; exact ⟨rfl, rfl⟩
          | leave loc => cases hl.symm.trans loc; exact ⟨rfl, rfl⟩
        simp [depth, hquiet.1, hquiet.2]
  · have hloc := loc_other hstep ht
    refine ⟨?_, (log_other (m := m) hstep ht).2.1⟩
    cases h with
    | idle loc => exact .idle (by rw [hloc, loc])
    | enqueue loc set => exact .enqueue (by rw [hloc, loc]) (cancel_other hinv hstep ht set)
    | cancelled loc => exact .cancelled (by rw [hloc, loc])
    | final loc => exact .final (by rw [hloc, loc])
    | leave loc => exact .leave (by rw [hloc, loc])

/-- A thread that is cancelled on entry does not release the mutex until its next call. -/
theorem Kept.run (h : Kept c m t s) (hinv : Inv s) (hs : Runs b s s')
    (hcalls : calls t s'.log = calls t s.log) :
  depth m t s'.log = depth m t s.log
  := by
  apply (until_call (Q := fun s' => Inv s' ∧ Kept c m t s' ∧ depth m t s'.log = depth m t s.log)
    hs ⟨hinv, h, rfl⟩ _ hcalls).2.2
  rintro s₁ a s₂ ⟨hinv₁, hkept, hdepth⟩ hstep hcalls₁
  obtain ⟨hkept₂, hdepth₂⟩ := hkept.step hinv₁ hstep hcalls₁
  exact ⟨hinv₁.step hstep, hkept₂, hdepth₂.trans hdepth⟩

/-- No hook of a thread that has returned runs until its next call. -/
theorem Inv.unhooked (h : Inv s) (hidle : s.loc t = none) (hs : Runs b s s')
    (hcalls : calls t s'.log = calls t s.log) (c : N) :
  ¬ Hooking s' t c
  := by
  obtain ⟨hinv, hloc⟩ := until_call (Q := fun s' => Inv s' ∧ s'.loc t = none) hs ⟨h, hidle⟩
    (fun s₁ a s₂ hQ hstep hcalls₁ => ⟨hQ.1.step hstep, loc_none hstep hQ.2 hcalls₁⟩) hcalls
  intro hhook
  have hinstalled := hinv.running t c hhook
  rw [hinv.hook, hloc] at hinstalled
  cases hinstalled

omit [Fintype T] in
/-- What a wait that returns has done to the mutex, and its answer. -/
theorem Called.returned {timeout : Bool} {k : WaitLoc T} {x y : Shared T N} {r : Answer}
    {log : List (Event T (Loc T N) Answer)} (hd : 0 < d) (hanswers : k.Answers (answered t log))
    (hdepth : depth m t log = if k.away then d - 1 else d)
    (h : timedwaitStep b c m t k timeout x = .ret y r) :
  depth m t (.ret t (.wait c m k) r :: log) = d ∧
    if answered t log = true then r = .EINTR else r = .ret .zero ∨ r = .ret (.error .ETIMEDOUT)
  := by
  rcases timedwaitStep_eq_ret h with ⟨abstime, rfl, hbad, -, -⟩ | ⟨rfl, -, rfl⟩ |
    ⟨cancel, err, k, z, r', rfl, -, -, rfl⟩
  · rw [WaitLoc.Answers, hbad] at hanswers
    cases hanswers
  · refine ⟨by simpa [depth, Loc.releases, Loc.acquires, WaitLoc.away] using hdepth, ?_⟩
    exact (if_pos hanswers).mpr rfl
  · constructor
    · have haway : depth m t log = d - 1 := by simpa [WaitLoc.away] using hdepth
      simp only [depth, Loc.releases, Loc.acquires, Bool.false_eq_true, false_and, and_false,
        if_false, decide_true, and_self, if_true, haway]
      omega
    · rw [← hanswers]
      cases cancel <;> cases err <;> simp

/-- A thread that has returned has left no trace of its wait. -/
theorem Exited.of_returned {r : Answer} {l : Loc T N} (hinv : Inv s')
    (hlog : s'.log = .ret t l r :: s.log) (hidle : s'.loc t = none)
    (hholds : depth m t s'.log = d)
    (hr : if answered t s.log = true then r = .EINTR
      else r = .ret .zero ∨ r = .ret (.error .ETIMEDOUT)) :
  Exited b m t d s s'
  := by
  have hrole : roles (fun _ => Loc.role) s' t = .idle := by rw [roles, hidle, Option.elim_none]
  have hout : ∀ q, t ∉ s'.shared.waits.queue q := by
    intro q hmem
    have hqueue := (hinv.sound.queued hmem).1
    rw [hrole] at hqueue
    cases hqueue
  obtain ⟨hlink, hmessages⟩ := hinv.sound.outside t (by rw [hrole]; rfl)
  refine ⟨hholds, hout, hlink, hmessages, ?_, ?_, ⟨l, r, hlog, hr⟩, ?_⟩
  · rw [hinv.hook, hidle, Option.bind_none]
  · intro s'' hs'' hcalls
    exact hinv.unhooked hidle hs'' hcalls
  · rw [hinv.requested, hidle, Option.any_none, Bool.or_false]

end Called

variable [Fintype T] {b : Build} {attr : N → Option MutexType} {s₀ s : Sys T N} {t : T} {c m : N}
    {abstime : Option Timespec}

/-- Every wait returns with the mutex held, and without a trace of the wait or of its hook. The
answer is `EINTR` if and only if `ss->cancel` had been set before the last section, which clears
it. A thread that is cancelled on entry never releases the mutex, and the hook dequeues the
thread from no queue but that of its condition variable. -/
theorem wait_exit (hs : Runs b (start attr) s₀) (hidle : s₀.loc t = none)
    (hheld : 0 < depth m t s₀.log) (hvalid : badTime abstime = false)
    (hreach : Runs b (s₀.call t (.wait c m (.start abstime))) s)
    (hcalls : calls t s.log = calls t s₀.log + 1) :
  (∀ timeout s', (machine b).Step s (.act t timeout) s' → s'.loc t = none →
      Exited b m t (depth m t s₀.log) s s') ∧
    (∀ timeout cancel err k x r, s.loc t = some (.wait c m (.relockMutex cancel err k)) →
      Mutex.lockStep b (.mutex m) t k timeout ⟨s.shared.obj.mutex m, s.shared.waits⟩ = .ret x r →
      r = .zero) ∧
    (∀ timed, s.loc t = some (.wait c m (.enqueue timed)) → (s.shared.obj.ss t).cancel = true →
      ∀ s', Runs b s s' → calls t s'.log = calls t s.log →
        depth m t s'.log = depth m t s₀.log) ∧
    (∀ c', Hooking s t c' →
      c' = c ∧ ∀ q, s.shared.waits.prevp t = some q → q = .cond c)
  := by
  have hcall : (machine b).Step s₀ (.call t (.wait c m (.start abstime)))
      (s₀.call t (.wait c m (.start abstime))) := .call hidle rfl
  have hstart : Runs b (start attr) s := (hs.step trivial hcall).trans hreach
  have hinv := Inv.of_reach hstart
  have hcalled : Called c m t (depth m t s₀.log) (calls t s₀.log + 1) s := by
    apply (hreach.invariant (I := fun s => Inv s ∧
      Called c m t (depth m t s₀.log) (calls t s₀.log + 1) s) _ _).2
    · refine ⟨(Inv.of_reach hs).step hcall, .inr ⟨by simp [calls], .inr ?_⟩⟩
      exact ⟨.start abstime, by simp, hvalid, by simp [depth, WaitLoc.away]⟩
    · rintro s a s' - ⟨hinv, hcalled⟩ - hstep
      exact ⟨hinv.step hstep, hcalled.step hinv hstep⟩
  have hcases : s.loc t = none ∨ ∃ k, s.loc t = some (.wait c m k) ∧
      k.Answers (answered t s.log) ∧
      depth m t s.log = if k.away then depth m t s₀.log - 1 else depth m t s₀.log := by
    rcases hcalled with hlater | ⟨-, hcases⟩
    · omega
    · exact hcases
  refine ⟨?_, ?_, ?_, ?_⟩
  · intro timeout s' hstep hnone
    rcases hcases with hout | ⟨k, hl, hanswers, hdepth⟩
    · cases hstep with
      | goto hl => simp [hl] at hout
      | ret hl => simp [hl] at hout
    · have hinv' := hinv.step hstep
      cases hstep with
      | goto => simp at hnone
      | @ret _ _ l y r hl₁ h₁ =>
          obtain rfl : l = .wait c m k := by simpa [hl₁] using hl
          cases (step_eq_ret h₁).2 with
          | wait step =>
              obtain ⟨hholds, hr⟩ := Called.returned hheld hanswers hdepth step
              exact Exited.of_returned hinv' rfl hnone hholds hr
  · intro timeout cancel err k x r hl hstep
    have hrelock := Relockable.of_reach hstart
    apply Mutex.lockStep_zero (hrelock.untimed t c m cancel err k hl) _ hstep
    rintro time rfl hattr
    exact hrelock.owner t c m _ hl rfl hattr
  · intro timed hl hset s' hs' hcalls'
    have hdepth : depth m t s.log = depth m t s₀.log := by
      rcases hcases with hout | ⟨k, hk, -, hdepth⟩
      · simp [hl] at hout
      · obtain rfl : WaitLoc.enqueue timed = k := by simpa [hl] using hk
        exact hdepth
    rw [← hdepth]
    exact (Kept.enqueue hl hset).run hinv hs' hcalls'
  · intro c' hhook
    obtain rfl : c' = c := by
      have hinstalled := hinv.running t c' hhook
      rw [hinv.hook] at hinstalled
      rcases hcases with hout | ⟨k, hk, -⟩
      · rw [hout] at hinstalled
        cases hinstalled
      · rw [hk, Option.bind_some, Loc.hooked] at hinstalled
        split at hinstalled
        · exact (Option.some.inj hinstalled).symm
        · cases hinstalled
    exact ⟨rfl, fun q hq => hinv.queue_of_hook hhook hq⟩

/-- The task in which no mutex has an attribute. -/
def plainStart : Sys (Fin 2) Unit :=
  start (fun _ => none)

/-- `t` waits, `u` cancels it, and `t` locks the mutex again. -/
def cancelled {T : Type} (t u : T) : List (Label T (Loc T Unit)) :=
  List.replicate 4 (.act t false) ++ .call u (.cancel t .lock) :: List.replicate 8 (.act u false) ++
    List.replicate 4 (.act t false)

/-- Thread 0 returns `EINTR` from a wait that thread 1 has cancelled. -/
theorem wait_exit_cancelled :
  ∃ s₀ s s', Runs .debug plainStart s₀ ∧ 0 < depth () 0 s₀.log ∧
    Runs .debug (s₀.call 0 (.wait () () (.start none))) s ∧
    (machine .debug).Step s (.act 0 false) s' ∧ answered 0 s.log = true ∧
    Exited .debug () 0 (depth () 0 s₀.log) s s'
  := by
  obtain ⟨s₀, hs₀, hp⟩ := Machine.exists_reach_of_run (M := machine .debug)
    (G := fun _ _ => True) (s := plainStart)
    [.call 0 (.mutex () (.lock (.start none))), .act 0 false]
    (fun s₀ => s₀.loc 0 = none ∧ 0 < depth () 0 s₀.log ∧
      (((machine .debug).run (fun _ _ => True) (s₀.call 0 (.wait () () (.start none)))
        (cancelled 0 1)).any
        fun s => calls 0 s.log = calls 0 s₀.log + 1 ∧ answered 0 s.log = true ∧
          (((machine .debug).exec s (.act 0 false)).any fun s' => s'.loc 0 = none) = true) = true)
    (by decide +kernel)
  simp only [decide_eq_true_eq] at hp
  obtain ⟨hidle, hheld, hrun⟩ := hp
  obtain ⟨s, hs, hnext⟩ := Option.any_eq_true _ _ |>.mp hrun
  simp only [decide_eq_true_eq] at hnext
  obtain ⟨hcalls, hanswered, hlast⟩ := hnext
  obtain ⟨s', hs', hnone⟩ := Option.any_eq_true _ _ |>.mp hlast
  simp only [decide_eq_true_eq] at hnone
  have hreach := Machine.reach_of_run _ _ _ hs
  have hstep := Machine.exec_eq_some_iff.mp hs'
  use s₀, s, s', hs₀, hheld, hreach, hstep, hanswered
  exact (wait_exit hs₀ hidle hheld rfl hreach hcalls).1 false s' hstep hnone

end Hurd

end LibPthread
