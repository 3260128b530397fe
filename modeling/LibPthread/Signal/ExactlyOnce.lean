import LibPthread.Signal.Waiters

/-!
# Each signal is given and returned once

A thread that waits is found through the list `sigwaiters` and through the pointer in its signal
state. Only the list is changed when the thread is given a signal: until the thread has woken up,
and forever if `NDEBUG` is defined, `pthread_kill_siginfo_np` finds the structure again.
-/

namespace LibPthread.Signal

open Concurrency

namespace Signals

variable {T : Type} [DecidableEq T]

/-! ### The property -/

/-- The list consists of the structures with which a thread is blocked that has not been given a
signal; a structure is there as long as exactly one call of its thread uses it, and everything
that has happened to it is a path of `WaiterStep`. -/
structure ExactlyOnce (S : Signals T) : Prop where
  list : ∃ l : List Nat, l.Nodup ∧ Linked S.next S.prev none S.sigwaiters l ∧
    ∀ n, n ∈ l ↔ S.Queued n ∧ ∃ t, .waiting n ∈ S.frames t
  call : ∀ t n, (S.calls t).count n = if (S.waiters n).map Sigwaiter.ss = some t then 1 else 0
  once : ∀ n < S.count, ∃ st, Path WaiterStep .queued (S.history n) st ∧
    AtStage (S.waiters n) st

/-- The structure that a signal is given to is there, and it has not been given another one. -/
def Unserved (S : Signals T) : Route → Bool
  | .fault => false
  | .waiter n => (S.waiters n).all fun w => w.info.si_signo = 0
  | _ => true

/-- `pthread_kill_siginfo_np` does not find a structure that is no longer there, or one that waits
for the signal and has been given another one; and `kill` is not called with a number that is not
one of a signal while a thread waits. -/
def GivesOnce (S : Signals T) (a : Act T) : Prop :=
  (match a with
  | .killSiginfo t si =>
    decide (0 < si.si_signo → si.si_signo < nsig → S.Unserved (S.route t si.si_signo.toNat))
  | .kill signo => decide (S.sigwaiters = none ∨ (1 ≤ signo ∧ signo ≤ 64))
  | _ => true) = true

instance (S : Signals T) (a : Act T) : Decidable (S.GivesOnce a) :=
  inferInstanceAs (Decidable (_ = true))

/-- No thread waits, and no structure has been used. -/
structure Idle (S : Signals T) : Prop where
  frames : ∀ t, S.frames t = []
  waiters : ∀ n, S.waiters n = none
  sigwaiters : S.sigwaiters = none
  count : S.count = 0
  history : ∀ n, S.history n = []

variable {b : Build} {S S' S'' S₀ : Signals T} {a : Act T} {t : T} {n : Nat} {w : Sigwaiter T}
  {l : List Nat} {si : Siginfo} {set : Sigset}

omit [DecidableEq T] in
theorem WaitInv.start [DecidableEq T] (h : Idle S) :
  WaitInv S []
  := by
  have hcalls : ∀ t, S.calls t = [] := by
    intro t
    rw [calls, h.frames, List.filterMap_nil]
  constructor
  · exact List.nodup_nil
  · exact h.sigwaiters
  · intro n
    simp [Queued, h.waiters]
  · intro n w hw
    rw [h.waiters] at hw
    cases hw
  · intro t n
    simp [hcalls, h.waiters]
  · intro t n _
    exact List.not_mem_nil
  · intro n w hw
    rw [h.waiters] at hw
    cases hw
  · intro n hn
    rw [h.count] at hn
    omega
  · intro n _
    exact h.history n

theorem WaitInv.exactlyOnce (h : WaitInv S l) :
  ExactlyOnce S
  := by
  refine ⟨⟨l, h.nodup, h.linked, ?_⟩, h.call, h.history⟩
  intro n
  constructor
  · intro hn
    exact ⟨(h.queued n).mp hn, h.waiting hn⟩
  · rintro ⟨hn, -⟩
    exact (h.queued n).mpr hn

/-! ### Steps that leave the structures alone -/

omit [DecidableEq T] in
@[refl]
theorem Still.refl (S : Signals T) :
  Still S S
  := ⟨rfl, rfl, rfl, rfl, fun _ => rfl, fun _ _ h => .inl h⟩

omit [DecidableEq T] in
theorem Still.trans (h : Still S S') (h' : Still S' S'') :
  Still S S''
  := by
  constructor
  · rw [h'.waiters, h.waiters]
  · rw [h'.sigwaiters, h.sigwaiters]
  · rw [h'.count, h.count]
  · rw [h'.history, h.history]
  · intro t
    rw [h'.calls, h.calls]
  · intro t n hmem
    rcases h'.leaving t n hmem with hmem | hgiven
    · exact h.leaving t n hmem
    · rw [h.waiters] at hgiven
      exact .inr hgiven

omit [DecidableEq T] in
/-- A change of the signal states and of what is pending. -/
theorem still_of_eq (hwaiters : S'.waiters = S.waiters) (hsigwaiters : S'.sigwaiters = S.sigwaiters)
    (hcount : S'.count = S.count) (hhistory : S'.history = S.history)
    (hframes : S'.frames = S.frames) :
  Still S S'
  := by
  refine ⟨hwaiters, hsigwaiters, hcount, hhistory, ?_, ?_⟩
  · intro t
    rw [calls, hframes, calls]
  · intro t n hmem
    rw [hframes] at hmem
    exact .inl hmem

theorem still_sigaction (S : Signals T) (t : T) (sig : Int) (sa : Option Sigaction) :
  Still S (S.sigaction t sig sa).1
  := by
  simp only [sigaction]
  split
  · exact .refl S
  · split
    · exact .refl S
    · split
      · exact still_of_eq rfl rfl rfl rfl rfl
      · exact still_of_eq rfl rfl rfl rfl rfl

theorem still_signal (S : Signals T) (t : T) (sig : Int) (handler : Handler) :
  Still S (S.signal t sig handler).1
  := by
  rw [signal]
  split
  · exact .refl S
  · exact still_sigaction _ _ _ _

theorem still_siginterrupt (S : Signals T) (t : T) (sig : Int) (flag : Bool) :
  Still S (S.siginterrupt t sig flag).1
  := by
  have hfirst := still_sigaction S t sig none
  rw [siginterrupt]
  split
  · rename_i S₁ e heq
    rw [heq] at hfirst
    exact hfirst
  · rename_i S₁ act heq
    rw [heq] at hfirst
    exact hfirst.trans (still_sigaction _ _ _ _)

theorem still_accept (S : Signals T) (t : T) (signo : Nat) :
  Still S (S.accept t signo)
  := by
  rw [accept]
  split
  · exact still_of_eq rfl rfl rfl rfl rfl
  · split
    · exact still_of_eq rfl rfl rfl rfl rfl
    · exact .refl S

theorem still_push {x : Frame} (S : Signals T) (t : T) (hx : x.waiter = none) :
  Still S (S.push t x)
  := by
  refine ⟨rfl, rfl, rfl, rfl, ?_, ?_⟩
  · intro u
    rw [calls_push, hx]
    split
    · rename_i hu
      rw [hu]
      rfl
    · rfl
  · intro u n hmem
    left
    rw [push_frames, Function.update_apply] at hmem
    split at hmem
    · rename_i hu
      rw [hu]
      rcases List.mem_cons.mp hmem with rfl | hmem
      · cases hx
      · exact hmem
    · exact hmem

theorem still_pop {x : Frame} {rest : List Frame} (hframes : S.frames t = x :: rest)
    (hx : x.waiter = none) :
  Still S (S.pop t)
  := by
  refine ⟨rfl, rfl, rfl, rfl, ?_, ?_⟩
  · intro u
    rw [calls_pop hframes]
    split
    · rename_i hu
      rw [hu, calls_cons hframes, hx]
      rfl
    · rfl
  · intro u n hmem
    left
    rw [pop_frames, Function.update_apply] at hmem
    split at hmem
    · rename_i hu
      rw [hu]
      exact List.mem_of_mem_tail hmem
    · exact hmem

theorem still_handle (S : Signals T) (t : T) (signo : Nat) (si : Siginfo) (sent : List Siginfo) :
  Still S (S.handle t signo si sent)
  := by
  refine ((still_accept S t signo).trans ?_).trans (still_push _ t rfl)
  exact still_of_eq rfl rfl rfl rfl rfl

theorem still_handlerReturns (h : S.handlerReturns t = .next S') :
  Still S S'
  := by
  simp only [handlerReturns] at h
  split at h
  · rename_i signo si handler orig rest hframes
    have hresume : Still S (S.resume t orig) := by
      have hmodify : Still S (S.modify t fun ss => { ss with blocked := orig }) :=
        still_of_eq rfl rfl rfl rfl rfl
      exact hmodify.trans (still_pop hframes rfl)
    split at h
    · cases h
    · split at h
      · cases h
        exact hresume
      · cases h
        exact hresume.trans (still_handle _ _ _ _ _)
  · cases h

theorem handlerReturns_ne_fault :
  S.handlerReturns t ≠ .fault
  := by
  rw [handlerReturns]
  split
  · split
    · simp
    · simp only
      split <;> simp
  · simp

/-! ### The steps of the threads that wait -/

/-- A call of `sigwaitinfo` fails only in its assertion about the signal state. -/
theorem WaitInv.sigwaitinfo (h : WaitInv S l) (set : Sigset) (wanted : Bool) :
  (∃ S' l', S.sigwaitinfo b t set wanted = .next S' ∧ WaitInv S' l') ∨
    (S.sigwaitinfo b t set wanted = .fault ∧ b.ndebug = false ∧ (S.ss t).sigwaiter ≠ none)
  := by
  rw [Signals.sigwaitinfo]
  split
  · exact .inl ⟨_, l, rfl, h.still (still_of_eq rfl rfl rfl rfl rfl)⟩
  · rw [h.sigwaiterBlock_eq]
    split
    · exact .inl ⟨_, S.count :: l, rfl, h.block t set⟩
    · rename_i hcheck
      right
      exact ⟨rfl, by simpa using hcheck⟩

/-- The thread returns from the futex and clears the pointer. -/
theorem still_returns {rest : List Frame} (hframes : S.frames t = .waiting n :: rest)
    (hw : S.waiters n = some w) (hsigno : w.info.si_signo ≠ 0) :
  Still S (((S.modify t fun ss => { ss with sigwaiter := none }).pop t).push t (.leaving n))
  := by
  have htail : ((S.modify t fun ss => { ss with sigwaiter := none }).pop t).frames t = rest := by
    simp [hframes]
  refine ⟨rfl, rfl, rfl, rfl, ?_, ?_⟩
  · intro u
    by_cases hu : u = t
    · subst hu
      rw [calls_push, if_pos rfl, calls, htail, calls_cons hframes]
      rfl
    · simp [calls, Function.update_of_ne hu]
  · intro u m hmem
    by_cases hu : u = t
    · subst hu
      rw [push_frames, Function.update_self, htail] at hmem
      rcases List.mem_cons.mp hmem with heq | hmem
      · cases heq
        exact .inr ⟨w, hw, hsigno⟩
      · left
        rw [hframes]
        exact List.mem_cons_of_mem _ hmem
    · left
      simpa [Function.update_of_ne hu] using hmem

theorem WaitInv.wakes (h : WaitInv S l) (b : Build) (t : T) :
  S.wakes b t = .disabled ∨ ∃ S', S.wakes b t = .next S' ∧ WaitInv S' l
  := by
  rw [Signals.wakes]
  split
  · rename_i n rest hframes
    obtain ⟨⟨w, hw, -⟩, -⟩ := h.call_top hframes rfl
    rw [hw]
    simp only
    split
    · exact .inl rfl
    · rename_i hsigno
      right
      split
      · exact ⟨_, rfl, h.finish hframes rfl hw hsigno⟩
      · exact ⟨_, rfl, h.still (still_returns hframes hw hsigno)⟩
  · exact .inl rfl

theorem WaitInv.leaves (h : WaitInv S l) (t : T) :
  S.leaves t = .disabled ∨ ∃ S', S.leaves t = .next S' ∧ WaitInv S' l
  := by
  rw [Signals.leaves]
  split
  · rename_i n rest hframes
    obtain ⟨⟨w, hw, -⟩, -⟩ := h.call_top hframes rfl
    rw [hw]
    simp only
    have hnl : n ∉ l := by
      apply h.leaving t n
      rw [hframes]
      exact List.mem_cons_self
    have hsigno : w.info.si_signo ≠ 0 := by
      intro hzero
      exact hnl ((h.queued n).mpr ⟨w, hw, hzero⟩)
    rw [if_pos ⟨hsigno, h.wanted n w hw hsigno⟩]
    exact .inr ⟨_, rfl, h.finish hframes rfl hw hsigno⟩
  · exact .inl rfl

/-! ### The steps that give signals -/

omit [DecidableEq T] in
/-- The loop of `kill` over a list. -/
theorem findWaiter_of_linked {before start : Option Nat} {fuel : Nat} (signo : Nat)
    (hlinked : Linked S.next S.prev before start l)
    (halive : ∀ n ∈ l, ∃ w, S.waiters n = some w) (hfuel : l.length ≤ fuel) :
  S.findWaiter signo fuel start = some none ∨
    ∃ n ∈ l, ∃ w, S.waiters n = some w ∧ w.signals.Has signo ∧
      S.findWaiter signo fuel start = some (some n)
  := by
  induction l generalizing before start fuel with
  | nil =>
      left
      obtain rfl := hlinked
      cases fuel <;> rfl
  | cons n l ih =>
      obtain ⟨rfl, -, hrest⟩ := hlinked
      obtain ⟨w, hw⟩ := halive n List.mem_cons_self
      cases fuel with
      | zero => simp at hfuel
      | succ fuel =>
          rw [next_eq hw] at hrest
          simp only [findWaiter, hw]
          by_cases hhas : w.signals.Has signo
          · right
            rw [if_pos hhas]
            exact ⟨n, List.mem_cons_self, w, hw, hhas, rfl⟩
          · rw [if_neg hhas]
            have hfuel : l.length ≤ fuel := by simpa using hfuel
            rcases ih hrest (fun x hx => halive x (List.mem_cons_of_mem _ hx)) hfuel with
              hnone | ⟨x, hx, hfound⟩
            · exact .inl hnone
            · exact .inr ⟨x, List.mem_cons_of_mem _ hx, hfound⟩

/-- The list has no more elements than structures have been used. -/
theorem WaitInv.length_le (h : WaitInv S l) :
  l.length ≤ S.count
  := by
  have hsub : l ⊆ List.range S.count := by
    intro n hn
    exact List.mem_range.mpr (h.path_queued hn).1
  have hle := (h.nodup.subperm hsub).length_le
  rwa [List.length_range] at hle

theorem WaitInv.kill {signo : Int} (h : WaitInv S l) (hG : S.GivesOnce (.kill signo)) :
  ∃ S' l', S.kill signo = .next S' ∧ WaitInv S' l'
  := by
  rw [Signals.kill]
  split
  · exact ⟨S, l, rfl, h⟩
  · rename_i hsome
    have hrange : 1 ≤ signo ∧ signo ≤ 64 := (of_decide_eq_true hG).resolve_left hsome
    have halive : ∀ n ∈ l, ∃ w, S.waiters n = some w := by
      intro n hn
      obtain ⟨w, hw, -⟩ := (h.queued n).mp hn
      exact ⟨w, hw⟩
    rw [if_neg (by omega)]
    rcases findWaiter_of_linked signo.toNat h.linked halive h.length_le with
      hnone | ⟨n, hn, w, hw, hhas, hfound⟩
    · rw [hnone]
      exact ⟨S, l, rfl, h⟩
    · have hdelete : WaitInv (S.delete w.ss signo.toNat) l :=
        h.still (still_of_eq rfl rfl rfl rfl rfl)
      have hsigno : (Siginfo.plain signo).si_signo ≠ 0 := by
        change signo ≠ 0
        omega
      obtain ⟨S', l', hgive, hinv⟩ := hdelete.give hn hw hsigno hhas
      rw [hfound]
      simp only [hw, hgive]
      exact ⟨S', l', rfl, hinv⟩

omit [DecidableEq T] in
/-- The structure found is there, and it waits for the signal. -/
theorem route_waiter {sig : Nat} (h : S.route t sig = .waiter n) :
  ∃ w, S.waiters n = some w ∧ w.signals.Has sig
  := by
  have hrouteTo : ∀ ss, routeTo ss sig ≠ .waiter n := by
    intro ss
    rw [routeTo]
    split
    · simp
    · split <;> simp
  rw [route] at h
  split at h
  · exact absurd h (hrouteTo _)
  · split at h
    · cases h
    · rename_i w hw
      split at h
      · rename_i hhas
        cases h
        exact ⟨w, hw, hhas⟩
      · exact absurd h (hrouteTo _)

theorem WaitInv.killSiginfo (h : WaitInv S l) (hG : S.GivesOnce (.killSiginfo t si)) :
  ∃ S' l', S.killSiginfo t si = .next S' ∧ WaitInv S' l'
  := by
  rw [Signals.killSiginfo]
  split
  · exact ⟨S, l, rfl, h⟩
  · rename_i hrange
    split
    · exact ⟨S, l, rfl, h⟩
    · rename_i hzero
      have hunserved : S.Unserved (S.route t si.si_signo.toNat) :=
        of_decide_eq_true hG (by omega) (by omega)
      simp only
      split
      · rename_i hroute
        rw [hroute] at hunserved
        cases hunserved
      · rename_i n hroute
        rw [hroute] at hunserved
        obtain ⟨w, hw, hhas⟩ := route_waiter hroute
        have hqueued : w.info.si_signo = 0 := by simpa [Unserved, hw] using hunserved
        obtain ⟨S', l', hgive, hinv⟩ := h.give ((h.queued n).mpr ⟨w, hw, hqueued⟩) hw hzero hhas
        rw [hgive]
        exact ⟨S', l', rfl, hinv⟩
      · exact ⟨S, l, rfl, h⟩
      · exact ⟨_, l, rfl, h.still (still_of_eq rfl rfl rfl rfl rfl)⟩
      · exact ⟨_, l, rfl, h.still (still_handle _ _ _ _ _)⟩

/-! ### Runs -/

/-- The thread is interrupted while it waits, and the handler waits as well: `sigwaiter_block`
asserts that this is not so. -/
def WaitsTwice (b : Build) (S : Signals T) (a : Act T) : Prop :=
  ∃ t set wanted, a = .sigwaitinfo t set wanted ∧ b.ndebug = false ∧ (S.ss t).sigwaiter ≠ none

/-- What a step does that gives no second signal. -/
theorem WaitInv.step (h : WaitInv S l) (hG : S.GivesOnce a) :
  (∃ S' l', S.step b a = .next S' ∧ WaitInv S' l') ∨ S.step b a = .disabled ∨
    S.step b a = .exit ∨ (S.step b a = .fault ∧ WaitsTwice b S a)
  := by
  cases a with
  | sigaction t sig sa =>
      simp only [Signals.step]
      split
      · exact .inl ⟨_, l, rfl, h.still (still_sigaction _ _ _ _)⟩
      · exact .inr (.inl rfl)
  | signal t sig handler =>
      simp only [Signals.step]
      split
      · exact .inl ⟨_, l, rfl, h.still (still_signal _ _ _ _)⟩
      · exact .inr (.inl rfl)
  | siginterrupt t sig flag =>
      simp only [Signals.step]
      split
      · exact .inl ⟨_, l, rfl, h.still (still_siginterrupt _ _ _ _)⟩
      · exact .inr (.inl rfl)
  | handlerReturns t =>
      simp only [Signals.step]
      cases hstep : S.handlerReturns t with
      | next S' => exact .inl ⟨S', l, rfl, h.still (still_handlerReturns hstep)⟩
      | exit => exact .inr (.inr (.inl rfl))
      | disabled => exact .inr (.inl rfl)
      | fault => exact absurd hstep handlerReturns_ne_fault
  | sigwaitinfo t set wanted =>
      simp only [Signals.step]
      split
      · rcases h.sigwaitinfo (b := b) (t := t) set wanted with hnext | ⟨hfault, hfails⟩
        · exact .inl hnext
        · exact .inr (.inr (.inr ⟨hfault, t, set, wanted, rfl, hfails⟩))
      · exact .inr (.inl rfl)
  | wakes t =>
      rcases h.wakes b t with hdisabled | ⟨S', hstep, hinv⟩
      · exact .inr (.inl hdisabled)
      · exact .inl ⟨S', l, hstep, hinv⟩
  | leaves t =>
      rcases h.leaves t with hdisabled | ⟨S', hstep, hinv⟩
      · exact .inr (.inl hdisabled)
      · exact .inl ⟨S', l, hstep, hinv⟩
  | kill signo => exact .inl (h.kill hG)
  | killSiginfo t si => exact .inl (h.killSiginfo hG)

/-! ### Steps that give a second signal -/

omit [DecidableEq T] in
theorem write_history {m : Nat} {f : Sigwaiter T → Sigwaiter T} (h : S.write m f = some S')
    (n : Nat) :
  S'.count = S.count ∧ S'.history n = S.history n ++ if n = m then [.wrote] else []
  := by
  obtain ⟨w, -, rfl⟩ := Option.map_eq_some_iff.mp h
  refine ⟨rfl, ?_⟩
  simp only [Function.update_apply]
  split
  · rename_i hn
    rw [hn]
  · rw [List.append_nil]

omit [DecidableEq T] in
theorem writeIf_history {o : Option Nat} {f : Sigwaiter T → Sigwaiter T}
    (h : S.writeIf o f = some S') (n : Nat) :
  S'.count = S.count ∧ ∃ es, S'.history n = S.history n ++ es
  := by
  cases o with
  | none =>
      obtain rfl := Option.some.inj h
      exact ⟨rfl, [], (List.append_nil _).symm⟩
  | some m =>
      obtain ⟨hcount, hhistory⟩ := write_history h n
      exact ⟨hcount, _, hhistory⟩

omit [DecidableEq T] in
theorem linkNext_history (h : S.linkNext w = some S') (n : Nat) :
  S'.count = S.count ∧ ∃ es, S'.history n = S.history n ++ es
  := by
  rw [linkNext] at h
  split at h
  · obtain ⟨hcount, hhistory⟩ := write_history h n
    exact ⟨hcount, _, hhistory⟩
  · obtain rfl := Option.some.inj h
    exact ⟨rfl, [], (List.append_nil _).symm⟩

/-- The structure is written, whatever its links are. -/
theorem give_history (h : S.give n si = some S') :
  S'.count = S.count ∧ ∃ es, S'.history n = S.history n ++ .wrote :: es
  := by
  simp only [Signals.give, sigwaiterUnblock, Option.bind_eq_bind, Option.bind_eq_some_iff] at h
  obtain ⟨S₁, hwrite, w, -, S₂, hnext, S₃, hprev, hS'⟩ := h
  obtain rfl := Option.some.inj hS'
  obtain ⟨hcount₁, hhistory₁⟩ := write_history hwrite n
  obtain ⟨hcount₂, es, hes⟩ := writeIf_history hnext n
  obtain ⟨hcount₃, es', hes'⟩ := linkNext_history hprev n
  refine ⟨hcount₃.trans (hcount₂.trans hcount₁), es ++ (es' ++ [.given w.info]), ?_⟩
  simp [hes', hes, hhistory₁]

/-- A structure that has been given a signal may not be written. -/
theorem WaitInv.not_once (h : WaitInv S l) (hw : S.waiters n = some w)
    (hsigno : w.info.si_signo ≠ 0) {es : List WaiterEvent} {st : Status} :
  ¬ Path WaiterStep .queued (S.history n ++ .wrote :: es) st
  := by
  intro hpath
  obtain ⟨st', hpath', hrest⟩ := hpath.split
  obtain ⟨st'', hpath'', hstage⟩ := h.history n (h.used n w hw)
  have hunique : ∀ s e t t', WaiterStep s e t → WaiterStep s e t' → t = t' := fun _ _ _ _ =>
    WaiterStep.unique
  obtain rfl := hpath'.unique hunique hpath''
  rw [hw] at hstage
  cases hrest with
  | cons first rest =>
      cases first
      exact hsigno hstage

/-- Any other step that gives a signal gives it to a structure that has been given one. -/
theorem WaitInv.gives_twice (h : WaitInv S l) (hG : ¬ S.GivesOnce a)
    (hstep : S.step b a = .next S') :
  ¬ ExactlyOnce S'
  := by
  intro honce
  cases a with
  | kill signo =>
      simp only [GivesOnce, decide_eq_true_eq, not_or] at hG
      simp only [Signals.step, Signals.kill] at hstep
      rw [if_neg hG.1, if_pos (by omega)] at hstep
      cases hstep
  | killSiginfo t si =>
      simp only [GivesOnce, decide_eq_true_eq, Classical.not_imp] at hG
      obtain ⟨hpos, hlt, hserved⟩ := hG
      simp only [Signals.step, Signals.killSiginfo] at hstep
      rw [if_neg (by omega), if_neg (by omega)] at hstep
      cases hroute : S.route t si.si_signo.toNat with
      | waiter n =>
          obtain ⟨w, hw, -⟩ := route_waiter hroute
          have hsigno : w.info.si_signo ≠ 0 := by
            simpa [hroute, Unserved, hw] using hserved
          rw [hroute] at hstep
          obtain ⟨hcount, es, hes⟩ := give_history (Result.ofOption_eq_next hstep)
          have hlt := h.used n w hw
          obtain ⟨st, hpath, -⟩ := honce.once n (by omega)
          rw [hes] at hpath
          exact h.not_once hw hsigno hpath
      | fault =>
          rw [hroute] at hstep
          cases hstep
      | discarded => exact hserved (by rw [hroute]; rfl)
      | pends => exact hserved (by rw [hroute]; rfl)
      | dispatched => exact hserved (by rw [hroute]; rfl)
  | _ => exact hG rfl

/-! ### The theorem -/

/-- In runs in which no structure is given a second signal, each signal is given and returned
once, and the steps use no structure that is not there; any other step that gives a signal gives
it to a structure that has been given one. -/
theorem sigwait_exactly_once (hidle : Idle S₀) (h : S₀.Reach b GivesOnce S) :
  ExactlyOnce S ∧
    (∀ a, S.GivesOnce a → S.step b a = .fault → WaitsTwice b S a) ∧
    ∀ a S', ¬ S.GivesOnce a → S.step b a = .next S' → ¬ ExactlyOnce S'
  := by
  have hinv : ∃ l, WaitInv S l := by
    apply h.invariant (P := fun S => ∃ l, WaitInv S l) ⟨[], .start hidle⟩
    rintro S a S' ⟨l, hinv⟩ hG hstep
    rcases hinv.step (b := b) hG with ⟨S'', l', hnext, hinv'⟩ | hother | hother | ⟨hother, -⟩
    · rw [hstep] at hnext
      cases hnext
      exact ⟨l', hinv'⟩
    all_goals
      rw [hstep] at hother
      cases hother
  obtain ⟨l, hinv⟩ := hinv
  refine ⟨hinv.exactlyOnce, ?_, fun a S' hG hstep => hinv.gives_twice hG hstep⟩
  intro a hG hfault
  rcases hinv.step (b := b) hG with ⟨S', l', hother, -⟩ | hother | hother | ⟨-, hwaits⟩
  · rw [hfault] at hother
    cases hother
  · rw [hfault] at hother
    cases hother
  · rw [hfault] at hother
    cases hother
  · exact hwaits

end Signals

/-! ### Examples -/

open Signals

theorem idle_boot (T : Type) [DecidableEq T] :
  Idle (Signals.boot T)
  := ⟨fun _ => rfl, fun _ => rfl, rfl, rfl, fun _ => rfl⟩

/-- Two threads wait; the second is given a signal by `kill`, the first by `pthread_kill`, and
both return. -/
def bothRun : List (Act Bool) :=
  [.sigwaitinfo false (sigmask 10) true, .sigwaitinfo true (sigmask 10 ||| sigmask 12) true,
    .kill 12, .killSiginfo false (.plain 10), .wakes true, .wakes false, .leaves true,
    .leaves false]

theorem sigwait_exactly_once_bothRun :
  ∃ S : Signals Bool,
    S.history 0 = [.wrote, .wrote, .wrote, .given (.plain 10), .returned (.plain 10)] ∧
    ExactlyOnce S ∧
    (∀ a, S.GivesOnce a → S.step .debug a = .fault → WaitsTwice .debug S a) ∧
    ∀ a S', ¬ S.GivesOnce a → S.step .debug a = .next S' → ¬ ExactlyOnce S'
  := by
  have hrun : ((Signals.boot Bool).run .debug GivesOnce bothRun).map (fun S =>
      decide (S.history 0 =
        [.wrote, .wrote, .wrote, .given (.plain 10), .returned (.plain 10)])) = some true := by
    decide +kernel
  obtain ⟨S, hS, htest⟩ := Option.map_eq_some_iff.mp hrun
  exact ⟨S, of_decide_eq_true htest,
    sigwait_exactly_once (idle_boot Bool) (Signals.reach_of_run bothRun hS)⟩

/-- A thread waits for two signals, and both are sent before it has woken up. -/
def twiceRun : List (Act Unit) :=
  [.sigwaitinfo () (sigmask 10 ||| sigmask 12) true, .killSiginfo () (.plain 10),
    .killSiginfo () (.plain 12)]

theorem given_twice :
  ¬ ∀ S₀ S : Signals Unit, Idle S₀ → S₀.Reach .debug Unguarded S → ExactlyOnce S
  := by
  intro hall
  have hrun : ((Signals.boot Unit).run .debug Unguarded twiceRun).map (fun S =>
      decide (S.count = 1 ∧ S.history 0 =
        [.wrote, .given (.plain 10), .wrote, .given (.plain 12)])) = some true := by
    decide +kernel
  obtain ⟨S, hS, htest⟩ := Option.map_eq_some_iff.mp hrun
  obtain ⟨hcount, hhistory⟩ := of_decide_eq_true htest
  have hreach := Signals.reach_of_run twiceRun hS
  obtain ⟨st, hpath, -⟩ := (hall _ S (idle_boot Unit) hreach).once 0 (by omega)
  rw [hhistory] at hpath
  cases hpath with
  | cons first rest =>
      cases first
      cases rest with
      | cons second rest =>
          cases second
          cases rest with
          | cons third rest => cases third

end LibPthread.Signal
