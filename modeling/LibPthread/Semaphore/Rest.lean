import LibPthread.Concurrency.Rest
import LibPthread.Semaphore.Linearization

/-!
# Semaphores at rest

A thread waits for a semaphore only while there is no token. Whatever time-outs and posts have
crossed before, when no thread can go on, those inside a call are queued waiters and the value is
zero.
-/

open Concurrency

namespace LibPthread

namespace Semaphore

variable {T : Type} [DecidableEq T] [Fintype T] {b : Build} {v : Nat} {s : Sys T}

/-- The guard under which the semaphore stays in use: no post makes the value too large, and no
wait fails with the lock held. -/
def Usable (s : Sys T) (a : Label T (Loc T)) : Prop :=
  WithinInt s a ∧ ValidTimeouts s a

instance (s : Sys T) (a : Label T (Loc T)) : Decidable (Usable s a) :=
  inferInstanceAs (Decidable (_ ∧ _))

theorem lock_of_reach (hs : (machine b).Reach Usable (State.idle ⟨init v, Waits.empty⟩) s) :
  s.shared.obj.lock = false
  := by
  apply hs.invariant (I := fun s => s.shared.obj.lock = false)
  · rfl
  · intro s a s' hreach hlock hG hstep
    cases effect_of_step (sound_of_reach hreach) hstep with
    | @refuse t c l lock e hl _ hreleased =>
        rcases hreleased with rfl | ⟨hempty, timeout, rfl, hbad⟩
        · apply hlock
        · have := hG.2 (by simp [hl, Loc.invalid, hbad])
          omega
    | _ => simp [hlock]

omit [Fintype T] in
/-- A thread that cannot go on is at a receive from its empty port. -/
theorem loc_of_spin {Q : Type} [DecidableEq Q] {q : Q} {x : World Semaphore T Q}
    (hlock : x.obj.lock = false) {t : T} {l : Loc T} (h : step b q t l false x = .spin) :
  x.waits.port t = 0 ∧ ∃ stage, l = .wait (.blocked stage) ∧
    ((∃ timed, stage = .block timed) ∨ stage = .drain)
  := by
  rcases l with (timeout | stage) | _ | (_ | thread)
  · simp only [step, timedwaitStep, waitStart, hlock, Outcome.lift_eq_spin_iff] at h
    grind [Build.assert]
  · simp only [step, timedwaitStep, hlock, Outcome.lift_eq_spin_iff, reduceCtorEq,
      and_false, exists_false, or_false] at h
    obtain ⟨hport, hstage⟩ := waitStep_eq_spin h
    use hport, stage, rfl
  · simp only [step, trywait, hlock] at h
    grind
  · simp only [step, postStep, postStart, hlock, Outcome.lift_eq_spin_iff] at h
    grind [Build.assert]
  · simp only [step, postStep, Build.wakeup, Outcome.lift_eq_spin_iff] at h
    grind [Build.assert]

/-- No step of a semaphore fails. -/
theorem step_ne_fault (hv : v < 2 ^ 31)
    (hs : (machine b).Reach Usable (State.idle ⟨init v, Waits.empty⟩) s) {t : T} {l : Loc T}
    {c : Bool} (hl : s.loc t = some l) :
  (machine b).step t l c s.shared ≠ .fault
  := by
  have hsound := sound_of_reach hs
  have hacc := accounted_of_reach (fun _ _ h => h.1) hv hs
  intro hfault
  rcases l with (timeout | stage) | _ | (_ | thread)
  · have hself : s.shared.waits.prevp t = none := by
      apply (hsound.outside t _).1
      simp [roles, hl, Loc.role, WaitLoc.phase]
    simp only [machine, step, timedwaitStep, waitStart, Outcome.lift_eq_fault_iff] at hfault
    grind [Build.assert]
  · simp only [machine, step, timedwaitStep, Outcome.lift_eq_fault_iff] at hfault
    grind [waitStep_ne_fault]
  · simp only [machine, step, trywait] at hfault
    grind
  · simp only [machine, step, postStep, Outcome.lift_eq_fault_iff, reduceCtorEq, and_false,
      exists_false, or_false] at hfault
    apply absurd hfault (postStart_ne_fault hacc.idle _)
    intro u hu
    simp [hsound.linked () u hu]
  · have hport : s.shared.waits.port thread = 0 := by
      apply hsound.port_of_owes (t := t)
      simp [roles, hl, Loc.role, PostLoc.owes]
    simp only [machine, step, postStep, Build.wakeup_of hport, Outcome.lift_eq_fault_iff] at hfault
    grind

/-- No waiter is left behind: in every state in which no thread can go on, the threads inside a
call are waiters on the queue, and there is no token for them. -/
theorem queued_at_rest (hv : v < 2 ^ 31)
    (hs : (machine b).Reach Usable (State.idle ⟨init v, Waits.empty⟩) s)
    (hrest : (machine b).Rests s) {t : T} {l : Loc T} (hl : s.loc t = some l) :
  (∃ timed, l = .wait (.blocked (.block timed))) ∧ t ∈ s.shared.waits.queue () ∧
    s.shared.obj.value = 0
  := by
  have hsound := sound_of_reach hs
  have hacc := accounted_of_reach (fun _ _ h => h.1) hv hs
  have hlock := lock_of_reach hs
  have hspin : ∀ {u l}, s.loc u = some l → (machine b).step u l false s.shared = .spin :=
    fun hu => hrest.eq_spin hu (step_ne_fault hv hs hu)
  have hnone : ∀ u, (roles (fun _ => Loc.role ()) s u).owes = [] := by
    intro u
    cases hu : s.loc u with
    | none => simp [roles, hu, Role.idle]
    | some l =>
        obtain ⟨-, stage, rfl, -⟩ := loc_of_spin hlock (hspin hu)
        simp [roles, hu, Loc.role]
  have hwalk : ∀ u, (roles (fun _ => Loc.role ()) s u).walk = [] := by
    intro u
    cases hu : s.loc u with
    | none => simp [roles, hu, Role.idle]
    | some l => rcases l with _ | _ | _ <;> simp [roles, hu, Loc.role, Role.idle]
  obtain ⟨hport, stage, rfl, hstage⟩ := loc_of_spin hlock (hspin hl)
  have hphase : (roles (fun _ => Loc.role ()) s t).phase = stage.phase () := by
    simp [roles, hl, Loc.role, WaitLoc.phase]
  obtain ⟨hqueued, hdraining⟩ := hsound.queued_of_silent hnone hwalk (t := t) (q := ())
    (by rw [hphase, Stage.queue_phase]) hport
    (by rcases hstage with ⟨timed, rfl⟩ | rfl <;> simp [hphase, Stage.phase])
  constructor
  · rcases hstage with ⟨timed, rfl⟩ | rfl
    · use timed
    · apply absurd hphase hdraining
  · use hqueued
    apply value_of_linked hsound hacc hl
    simp [hsound.linked () t hqueued]

/-- Thread `0` has been woken up by a post, and thread `1` waits. -/
theorem queued_at_rest_two :
  ∃ s, (machine Build.debug).Reach Usable (State.idle ⟨init 0, Waits.empty⟩) s ∧
    s.loc 0 = none ∧ (1 : Fin 2) ∈ s.shared.waits.queue () ∧ s.shared.obj.value = 0
  := by
  obtain ⟨s, hs, hp⟩ := Machine.exists_reach_of_run (M := machine Build.debug) (G := Usable)
    (s := State.idle ⟨init 0, Waits.empty⟩)
    (passing (1 : Fin 2) 0 ++ [.act 1 false, .act 0 false, .act 0 false,
      .call 1 (.wait (.start none)), .act 1 false])
    (fun s => (machine Build.debug).allSpin s && (s.loc 0).isNone &&
      decide (s.loc 1 = some (.wait (.blocked (.block false)))))
    (by decide +kernel)
  simp only [Bool.and_eq_true, Option.isNone_iff_eq_none, decide_eq_true_eq] at hp
  exact ⟨s, hs, hp.1.2,
    (queued_at_rest (by decide) hs (Machine.rests_of_allSpin hp.1.1) hp.2).2⟩

end Semaphore

end LibPthread
