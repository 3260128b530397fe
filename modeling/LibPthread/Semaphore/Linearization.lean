import LibPthread.Concurrency.Linearization
import LibPthread.Semaphore.Tokens

/-!
# The semaphore as a counter

While no time-out crosses a post, the functions of a semaphore behave as operations that count
tokens and are carried out one at a time. A post takes effect in its section, and if it passes
its token to a waiter, the call of the waiter takes effect right after it, before the waiter
runs.
-/

open Concurrency

namespace LibPthread

namespace Semaphore

/-- The operations of a semaphore. -/
inductive Op where
  | wait (timeout : Option Timespec)
  | trywait
  | post
  deriving DecidableEq

/-- The operation that a call asks for. -/
def Loc.op {T : Type} : Loc T → Op
  | .wait (.start timeout) => .wait timeout
  | .wait (.blocked _) => .wait none
  | .trywait => .trywait
  | .post _ => .post

/-- What the operations do to the number of tokens. A wait returns only when there is a token,
unless it has a time-out. -/
inductive Counts {T : Type} (t : T) : Op → Nat → Ret → Nat → Prop where
  | wait (timeout : Option Timespec) (n : Nat) : Counts t (.wait timeout) (n + 1) .zero n
  | expire (timeout : Timespec) : Counts t (.wait (some timeout)) 0 (.minusOne .ETIMEDOUT) 0
  | trywait (n : Nat) : Counts t .trywait (n + 1) .zero n
  | refuse : Counts t .trywait 0 (.minusOne .EAGAIN) 0
  | post (n : Nat) : Counts t .post n .zero (n + 1)

/-- A counter of tokens, `v` at the start. -/
def counter (T : Type) (v : Nat) : Object T Nat Op Ret where
  start := v
  effect := Counts

variable {T : Type} [DecidableEq T]

/-- Where the thread stands as a user of the counter: its wait has taken effect exactly when a
post has dequeued it. -/
def Stands (s : Sys T) (t : T) (x : Standing Op Ret) : Prop :=
  match s.loc t with
  | none => x = .outside
  | some (.wait (.start timeout)) => x = .asked (.wait timeout)
  | some (.wait (.blocked stage)) =>
    (handed t s.log = true ∧ x = .answered .zero) ∨
      (handed t s.log = false ∧ ∃ timeout, x = .asked (.wait timeout) ∧
        (stage.mayExpire = true → timeout.isSome = true))
  | some .trywait => x = .asked .trywait
  | some (.post .start) => x = .asked .post
  | some (.post (.wakeup _)) => x = .answered .zero

/-- The state of the counter that belongs to a state of the system. -/
structure Abstracts (s : Sys T) (n : Nat) (st : T → Standing Op Ret) : Prop where
  value : s.shared.obj.value = n
  stands : ∀ t, Stands s t (st t)

variable {b : Build} {v n : Nat} {s s' : Sys T} {a : Label T (Loc T)} {st : T → Standing Op Ret}

theorem Stands.congr {t : T} {x : Standing Op Ret} (h : Stands s t x)
    (hloc : s'.loc t = s.loc t) (hhanded : handed t s'.log = handed t s.log) :
  Stands s' t x
  := by
  simp only [Stands, hloc, hhanded] at h ⊢
  apply h

theorem Abstracts.call {t : T} {l : Loc T} (h : Abstracts s n st) (hl : l.entry = true) :
  Abstracts (s.call t l) n (Function.update st t (.asked l.op))
  := by
  constructor
  · apply h.value
  · intro u
    by_cases hu : u = t
    · subst hu
      rcases l with (_ | _) | _ | (_ | _)
      all_goals simp_all [Stands, Loc.entry, Loc.op]
    · rw [Function.update_of_ne hu]
      apply (h.stands u).congr
      · simp [hu]
      · simp [handed]

/-- A step within a call changes nothing of the counter. -/
theorem Abstracts.goto {t : T} {l l' : Loc T} {x : World Semaphore T Unit}
    (h : Abstracts s n st) (hvalue : x.obj.value = s.shared.obj.value)
    (hl' : ∀ u, l' ≠ .post (.wakeup u))
    (hself : Stands s t (st t) → Stands (s.goto t l x l') t (st t)) :
  Abstracts (s.goto t l x l') n st
  := by
  constructor
  · apply hvalue.trans h.value
  · intro u
    by_cases hu : u = t
    · subst hu
      apply hself (h.stands u)
    · apply (h.stands u).congr
      · simp [hu]
      · simp [handed, hl']

theorem Abstracts.ret {t : T} {l : Loc T} {x : World Semaphore T Unit} {r : Ret} {m : Nat}
    (h : Abstracts s n st) (hvalue : x.obj.value = m) :
  Abstracts (s.ret t l x r) m (Function.update st t .outside)
  := by
  constructor
  · apply hvalue
  · intro u
    by_cases hu : u = t
    · subst hu
      simp [Stands]
    · rw [Function.update_of_ne hu]
      apply (h.stands u).congr
      · simp [hu]
      · simp [handed, Ne.symm hu]

/-- A call refused without taking anything is that of `sem_trywait`. -/
theorem trywait_of_refused {t : T} {c lock : Bool} {l : Loc T} {e : Errno}
    (hl : s.loc t = some l) (hrequest : l.request = true)
    (hvalid : (Option.any Loc.invalid (s.loc t)) = true → 0 < s.shared.obj.value)
    (h : (machine b).Step s (.act t c)
      (s.ret t l ⟨{ s.shared.obj with lock := lock }, s.shared.waits⟩ (.minusOne e))) :
  l = .trywait ∧ e = .EAGAIN ∧ s.shared.obj.value ≤ 0
  := by
  have hstep := h.ret_inv hl
  rcases l with (timeout | _) | _ | _
  · simp only [machine, step, Outcome.lift_eq_ret_iff, id_eq] at hstep
    obtain ⟨s₁, r₁, hstart, h'⟩ := hstep
    obtain ⟨rfl, rfl⟩ := h'
    obtain ⟨-, -, ⟨-, hret, -⟩ | ⟨hempty, hbad, -⟩⟩ := waitStart_eq_ret hstart
    · cases hret
    · have := hvalid (by simp [hl, Loc.invalid, hbad])
      omega
  · cases hrequest
  · obtain ⟨-, -, ⟨-, hret, -⟩ | ⟨hempty, hret, -⟩⟩ := trywait_eq_ret hstep
    · cases hret
    · use rfl, by simpa using hret, hempty
  · cases hrequest

/-- A thread that asks for a token has a call that has not taken effect. -/
theorem Stands.request {t : T} {x : Standing Op Ret} {l : Loc T} (h : Stands s t x)
    (hl : s.loc t = some l) (hrequest : l.request = true) :
  x = .asked l.op
  := by
  rcases l with (_ | _) | _ | _
  · simpa [Stands, hl, Loc.op] using h
  · cases hrequest
  · simpa [Stands, hl, Loc.op] using h
  · cases hrequest

omit [DecidableEq T] in
/-- A token is taken when there is one. -/
theorem Counts.take {t : T} {l : Loc T} (hrequest : l.request = true) :
  Counts t l.op (n + 1) .zero n
  := by
  rcases l with (timeout | _) | _ | _
  · apply Counts.wait
  · cases hrequest
  · apply Counts.trywait
  · cases hrequest

section Simulation

variable [Fintype T]

/-- The post that passes its token takes effect, and then the call of the waiter. -/
theorem Abstracts.pass {t u : T} {rest : List T} (hR : Abstracts s n st)
    (hsound : Sound (fun _ => False) (roles (fun _ => Loc.role ()) s) s.shared.waits)
    (hacc : Accounted v s) (hl : s.loc t = some (.post .start))
    (hfirst : s.shared.waits.queue () = u :: rest) :
  (counter T v).Follows Loc.op Abstracts s (s.goto t (.post .start)
    ⟨s.shared.obj, s.shared.waits.dequeue u⟩ (.post (.wakeup u))) n st
  := by
  have hu : u ∈ s.shared.waits.queue () := by simp [hfirst]
  have hnot := not_handed_of_queued hsound hacc hu
  have hloc := loc_of_queued hsound hu
  have hne : u ≠ t := by
    rintro rfl
    simp [hl] at hloc
  have hpost : st t = .asked .post := by simpa [Stands, hl] using hR.stands t
  obtain ⟨stage, hwait⟩ : ∃ stage, s.loc u = some (.wait (.blocked stage)) := by
    rcases hloc with ⟨timed, h⟩ | ⟨err, h⟩
    · use .block timed, h
    · use .recheck err, h
  obtain ⟨timeout, hasked⟩ : ∃ timeout, st u = .asked (.wait timeout) := by
    have hstands := hR.stands u
    simp only [Stands, hwait, hnot] at hstands
    rcases hstands with ⟨h, -⟩ | ⟨-, timeout, h, -⟩
    · cases h
    · use timeout, h
  have hadd : (counter T v).Moves n st [] (n + 1) (Function.update st t (.answered .zero)) :=
    Object.Moves.single hpost (Counts.post n)
  have htake : (counter T v).Moves (n + 1) (Function.update st t (.answered .zero)) [] n
      (Function.update (Function.update st t (.answered .zero)) u (.answered .zero)) := by
    apply Object.Moves.single _ (Counts.wait timeout n)
    rw [Function.update_of_ne hne, hasked]
  apply Object.Follows.goto (hadd.trans htake)
  constructor
  · apply hR.value
  · intro x
    by_cases hx : x = u
    · subst hx
      simp [Stands, hne, hwait, handed]
    · rw [Function.update_of_ne hx]
      by_cases hxt : x = t
      · subst hxt
        simp [Stands]
      · rw [Function.update_of_ne hxt]
        apply (hR.stands x).congr
        · simp [hxt]
        · simp [handed, Ne.symm hx]

/-- There is no token while a waiter is linked. -/
theorem value_of_linked
    (hsound : Sound (fun _ => False) (roles (fun _ => Loc.role ()) s) s.shared.waits)
    (hacc : Accounted v s) {t : T} {stage : Stage}
    (hl : s.loc t = some (.wait (.blocked stage))) (hstill : s.shared.waits.prevp t ≠ none) :
  s.shared.obj.value = 0
  := by
  obtain ⟨q, hq⟩ := Option.ne_none_iff_exists'.mp hstill
  have hphase : (roles (fun _ => Loc.role ()) s t).phase.queue = some () := by
    simp only [roles, hl, Option.elim_some, Loc.role, WaitLoc.phase, Stage.queue_phase]
  have hmem := (hsound.mem_of_linked hphase id hq).2
  have hnonneg := hacc.nonneg
  by_contra hne
  rw [hacc.idle (by omega)] at hmem
  cases hmem

/-- Every step of the semaphore is followed by the counter. -/
theorem Abstracts.step (hR : Abstracts s n st)
    (hsound : Sound (fun _ => False) (roles (fun _ => Loc.role ()) s) s.shared.waits)
    (hacc : Accounted v s) (hsettled : Settled s) (hG : Orderly s a)
    (hstep : (machine b).Step s a s') :
  (counter T v).Follows Loc.op Abstracts s s' n st
  := by
  have hvalue := hR.value
  have hstands := hR.stands a.thread
  have hplaced := hacc.placed a.thread
  have heffect := effect_of_step hsound hstep
  cases heffect with
  | @call t l hidle hentry =>
      apply Object.Follows.call
      · simpa [Stands, hidle] using hstands
      · apply hR.call hentry
  | @enqueue t c timeout hl hempty =>
      apply Object.Follows.goto Object.Moves.refl
      apply hR.goto
      · rfl
      · simp
      · simp_all [Stands, Placed, Stage.mayExpire, handed]
  | @receive t c timed hl =>
      apply Object.Follows.goto Object.Moves.refl
      apply hR.goto
      · rfl
      · simp
      · simp only [Stands, hl, State.goto_loc, Function.update_self, State.goto_log, handed]
        simp only [reduceCtorEq, decide_false, Bool.false_or, Stage.mayExpire]
        rintro (h | ⟨hnot, timeout, h, -⟩)
        · left
          apply h
        · right
          use hnot, timeout, h
          simp
  | @timeout t hl =>
      apply Object.Follows.goto Object.Moves.refl
      apply hR.goto
      · rfl
      · simp
      · simp [Stands, hl, handed, Stage.mayExpire]
  | @late t c hl hgone => apply absurd hgone (hsettled.expired t hl)
  | @woken t c hl hgone =>
      apply Object.Follows.ret
      · simp_all [Stands, Placed]
      · apply hR.ret
        apply hvalue
  | @leave t c err hl hstill =>
      have hzero := value_of_linked hsound hacc hl hstill
      cases err with
      | false =>
          -- a waiter that has received its message is no longer linked
          apply absurd _ hstill
          apply hsound.gone_of_received (q := ())
          simp [roles, hl, Loc.role, WaitLoc.phase, Stage.phase]
      | true =>
          have hnot : handed t s.log = false := by
            simpa [Placed, hl, hstill] using hplaced
          obtain ⟨timeout, hasked⟩ : ∃ timeout, st t = .asked (.wait (some timeout)) := by
            simp only [Stands, Label.thread, hl, hnot, Stage.mayExpire] at hstands
            rcases hstands with ⟨h, -⟩ | ⟨-, timeout, h, htimed⟩
            · cases h
            · obtain ⟨timeout, rfl⟩ := Option.isSome_iff_exists.mp (htimed trivial)
              use timeout, h
          obtain rfl : n = 0 := by omega
          apply Object.Follows.finish hasked (Counts.expire timeout)
          apply hR.ret
          apply hzero
  | @drain t c hl => apply absurd hl (hsettled.drained t)
  | @take t c l hl hrequest hsome =>
      obtain ⟨m, rfl⟩ : ∃ m, n = m + 1 := Nat.exists_eq_succ_of_ne_zero (by omega)
      apply Object.Follows.finish (hstands.request hl hrequest) (Counts.take hrequest)
      apply hR.ret
      simp [hvalue]
  | @refuse t c l lock e hl hrequest hreleased =>
      obtain ⟨rfl, rfl, hempty⟩ := trywait_of_refused hl hrequest hG.2.2 hstep
      obtain rfl : n = 0 := by omega
      apply Object.Follows.finish (hstands.request hl hrequest) Counts.refuse
      apply hR.ret
      apply hvalue
  | @add t c value hl hadded =>
      have hpost : st t = .asked .post := by simpa [Stands, hl] using hstands
      apply Object.Follows.finish hpost (Counts.post n)
      apply hR.ret
      have hbound := hG.1 hl
      rcases hadded with ⟨hsome, rfl⟩ | ⟨hempty, hq, rfl⟩
      · rw [toInt_of_lt (by omega) (by omega)]
        simp [hvalue]
      · have := hacc.nonneg
        simp only []
        omega
  | @pass t u c rest hl hempty hfirst => apply hR.pass hsound hacc hl hfirst
  | @wakeup t u c hl =>
      apply Object.Follows.ret
      · simpa [Stands, hl] using hstands
      · apply hR.ret
        apply hvalue

/-- The semaphore is linearizable, for any number of threads: in every run in which no token is
lost the calls look as though they had counted tokens one at a time, each at a moment between its
start and its return. The value of the counter is `__value` at every moment. -/
theorem linearizable_counter (hv : v < 2 ^ 31)
    (hs : (machine b).Reach Orderly (State.idle ⟨Semaphore.init v, Waits.empty⟩) s) :
  ∃ n st, (counter T v).Moves v (fun _ => .outside) (history Loc.op s.log) n st ∧
    s.shared.obj.value = n ∧ ∀ t, Stands s t (st t)
  := by
  obtain ⟨n, st, hm, hR⟩ := Object.simulated (O := counter T v) Loc.op Abstracts hs rfl (by
    constructor
    · simp only [State.idle_shared, Semaphore.init, counter]
      apply toInt_of_lt
      · omega
      · omega
    · simp [Stands]) (by
    intro s a s' n st hreach hR hG hstep
    apply hR.step (sound_of_reach hreach) (accounted_of_reach (fun _ _ h => h.1) hv hreach)
      (settled_of_reach hreach) hG hstep)
  use n, st, hm, hR.value, hR.stands

end Simulation

/-- The post of thread `0` and the wait of thread `1` overlap, and both have returned. -/
theorem linearizable_counter_passing :
  ∃ s, (machine Build.debug).Reach Orderly (State.idle ⟨Semaphore.init 0, Waits.empty⟩) s ∧
    history Loc.op s.log
      = [.ret (1 : Fin 2) .zero, .ret 0 .zero, .call 0 .post, .call 1 (.wait none)] ∧
    ∃ n st, (counter (Fin 2) 0).Moves 0 (fun _ => .outside) (history Loc.op s.log) n st ∧
      s.shared.obj.value = n ∧ ∀ t, Stands s t (st t)
  := by
  obtain ⟨s, hs, hp⟩ := Machine.exists_reach_of_run (M := machine Build.debug) (G := Orderly)
    (s := State.idle ⟨Semaphore.init 0, Waits.empty⟩)
    (passing (0 : Fin 2) 1 ++ [.act 0 false, .act 1 false, .act 1 false])
    (fun s => history Loc.op s.log
      = [.ret (1 : Fin 2) .zero, .ret 0 .zero, .call 0 .post, .call 1 (.wait none)])
    (by decide +kernel)
  simp only [decide_eq_true_eq] at hp
  exact ⟨s, hs, hp, linearizable_counter (by decide) hs⟩

end Semaphore

end LibPthread
