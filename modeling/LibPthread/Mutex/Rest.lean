import LibPthread.Concurrency.Rest
import LibPthread.Mutex.Linearization

/-!
# Mutexes at rest

A thread waits for a mutex only while another thread has it. When no thread can go on, those
inside a call are queued waiters, and there is a holder. Unless the mutex is normal, the holder is
not among the waiters, so that it is up to the program to go on.
-/

open Concurrency

namespace LibPthread

namespace Mutex

variable {T Q : Type} [DecidableEq T] [DecidableEq Q] {b : Build} {attr : Option MutexType}
    {s : Sys T} {q : Q}

theorem handOver_ne_spin (mx : Mutex T) (w : Waits T Q) :
  handOver b q mx w ≠ .spin
  := by
  simp only [handOver]
  split
  · simp
  · split
    · simp
    · simp

theorem unlockStart_ne_spin {self : T} {mx : Mutex T} {w : Waits T Q} (hlock : mx.lock = false) :
  unlockStart b q self mx w ≠ .spin
  := by
  intro h
  simp only [unlockStart, hlock, Bool.false_eq_true, if_false] at h
  split at h
  · split at h
    · apply handOver_ne_spin _ _ h
    · cases h
  · split at h
    · split at h
      · cases h
      · apply handOver_ne_spin _ _ h
    · cases h
  · simp only [Build.assert] at h
    split at h
    · split at h
      · split at h
        · apply handOver_ne_spin _ _ h
        · cases h
      · cases h
    · apply handOver_ne_spin _ _ h

/-- A thread that cannot go on is at a receive from its empty port. -/
theorem loc_of_spin {x : World (Mutex T) T Q} (hlock : x.obj.lock = false) {t : T} {l : Loc T}
    (h : step b q t l false x = .spin) :
  x.waits.port t = 0 ∧ ∃ stage, l = .lock (.wait stage) ∧
    ((∃ timed, stage = .block timed) ∨ stage = .drain)
  := by
  rcases l with (abstime | stage | err) | _ | (_ | thread)
  · simp only [step, lockStep, lockStart, hlock, Outcome.lift_eq_spin_iff] at h
    grind [Build.assert, lockBusy, grab]
  · simp only [step, lockStep, hlock, Outcome.lift_eq_spin_iff, reduceCtorEq,
      and_false, exists_false, or_false] at h
    obtain ⟨hport, hstage⟩ := waitStep_eq_spin h
    use hport, stage, rfl
  · simp only [step, lockStep, lockFinish, Outcome.lift_eq_spin_iff] at h
    grind [Build.assert]
  · simp only [step, trylock, hlock] at h
    grind [Build.assert, grab]
  · simp only [step, unlockStep, Outcome.lift_eq_spin_iff, reduceCtorEq, and_false,
      exists_false, or_false] at h
    apply absurd h (unlockStart_ne_spin hlock)
  · simp only [step, unlockStep, Build.wakeup, Outcome.lift_eq_spin_iff] at h
    grind [Build.assert]

/-- A thread that has to wake up another one can go on. -/
theorem owes_of_rests
    [Fintype T] (hsound : Sound (fun _ => False) (roles (fun _ => Loc.role ()) s) s.shared.waits)
    (hrest : (machine b).Rests s) (t : T) :
  (roles (fun _ => Loc.role ()) s t).owes = [] ∧ (roles (fun _ => Loc.role ()) s t).walk = []
  := by
  cases hl : s.loc t with
  | none => simp [roles, hl, Role.idle]
  | some l =>
      rcases l with _ | _ | (_ | u)
      · simp [roles, hl, Loc.role]
      · simp [roles, hl, Loc.role, Role.idle]
      · simp [roles, hl, Loc.role, UnlockLoc.owes]
      · have hport : s.shared.waits.port u = 0 := by
          apply hsound.port_of_owes (t := t)
          simp [roles, hl, Loc.role, UnlockLoc.owes]
        apply absurd _ (hrest.ne_ret hl ⟨s.shared.obj, s.shared.waits.send u⟩ .zero)
        simp only [machine, step, unlockStep, Build.wakeup_of hport]
        rfl

/-- A thread that waits in a state at rest is on the queue. -/
theorem queued_of_spin [Fintype T] (hk : Kept b attr s) (hrest : (machine b).Rests s) {t : T}
    {l : Loc T} (hl : s.loc t = some l) (hspin : (machine b).step t l false s.shared = .spin) :
  (∃ timed, l = .lock (.wait (.block timed))) ∧ t ∈ s.shared.waits.queue ()
  := by
  obtain ⟨hport, stage, rfl, hstage⟩ := loc_of_spin hk.settled.lock hspin
  have hphase : (roles (fun _ => Loc.role ()) s t).phase = stage.phase () := by
    simp [roles, hl, Loc.role, LockLoc.phase]
  obtain ⟨hqueued, hdraining⟩ := hk.sound.queued_of_silent
    (fun v => (owes_of_rests hk.sound hrest v).1) (fun v => (owes_of_rests hk.sound hrest v).2)
    (t := t) (q := ()) (by rw [hphase, Stage.queue_phase]) hport
    (by rcases hstage with ⟨timed, rfl⟩ | rfl <;> simp [hphase, Stage.phase])
  rcases hstage with ⟨timed, rfl⟩ | rfl
  · use by use timed
  · apply absurd hphase hdraining

/-- In a state at rest no hand-over is under way. -/
theorem not_handed_of_rests [Fintype T] (hk : Kept b attr s) (hrest : (machine b).Rests s) (t : T) :
  handed t s.log = false
  := by
  by_contra hhanded
  rw [Bool.not_eq_false] at hhanded
  have hlock := hk.settled.lock
  rcases loc_of_handed hk.owned hk.settled hhanded with ⟨timed, hl, hgone⟩ | ⟨hl, hgone⟩ | hl
  · -- the message is on its port, or owed to it
    have hspin := hrest.eq_spin hl (by
      simp only [machine, step, lockStep, ne_eq, Outcome.lift_eq_fault_iff]
      grind [waitStep_ne_fault])
    have hqueued := (queued_of_spin hk hrest hl hspin).2
    simp [hk.sound.linked () t hqueued] at hgone
  · apply hrest.ne_goto hl s.shared (.lock (.finish false))
    simp [machine, step, lockStep, waitStep, hlock, hgone, Outcome.lift]
  · have hh := (hk.owned.holder_of_handed hhanded).2
    have hfault : lockFinish b t false s.shared.obj s.shared.waits ≠ .fault := by
      apply lockFinish_ne_fault _ (hh.chosen hhanded).2
      intro hdebug htracked
      have := hh.owner htracked
      simp_all
    obtain ⟨x, hx⟩ := lockFinish_exists_ret hfault
    apply hrest.ne_ret hl x .zero
    simp [machine, step, lockStep, hx, Outcome.lift]

/-- A waiting thread always waits for a holder: in every state in which no thread can go on, a
thread inside a call either fails an assertion or is a waiter on the queue, and then some thread
has acquired the mutex. If the owner is known to the mutex, that thread is not waiting itself. -/
theorem waits_for_holder [Fintype T]
    (hs : (machine b).Reach Regular (State.idle ⟨Mutex.init attr, Waits.empty⟩) s)
    (hrest : (machine b).Rests s) {t : T} {l : Loc T} (hl : s.loc t = some l)
    (hok : (machine b).step t l false s.shared ≠ .fault) :
  (∃ timed, l = .lock (.wait (.block timed))) ∧ t ∈ s.shared.waits.queue () ∧
    ∃ h, 0 < depth h s.log ∧ (s.shared.obj.tracked b = true → ∀ l', s.loc h = some l' →
      (machine b).step h l' false s.shared = .fault)
  := by
  have hk := kept_of_reach hs
  obtain ⟨hloc, hqueued⟩ := queued_of_spin hk hrest hl (hrest.eq_spin hl hok)
  use hloc, hqueued
  have hheld : s.shared.obj.held = true := by
    by_contra hfree
    rw [Bool.not_eq_true] at hfree
    rw [(hk.owned.free hfree).queue] at hqueued
    cases hqueued
  obtain ⟨h, hh | hdepth⟩ := hk.settled.holder hheld
  · simp [not_handed_of_rests hk hrest h] at hh
  · use h, hdepth
    intro htracked l' hl'
    by_contra hok'
    have hwaits := (queued_of_spin hk hrest hl' (hrest.eq_spin hl' hok')).2
    obtain ⟨h', hh'⟩ := hk.owned.taken hheld
    obtain rfl : h = h' := by
      by_contra hne
      have hzero := hk.holding_of_other hh' hne
      rw [holding] at hzero
      omega
    apply hk.foreign h hwaits htracked
    apply hk.owner_eq hh' hheld (not_handed_of_rests hk hrest h) htracked

/-- Thread `0` has the mutex, and thread `1` waits. -/
theorem waits_for_holder_two :
  ∃ s, (machine Build.debug).Reach Regular
      (State.idle ⟨Mutex.init (some .errorcheck), Waits.empty⟩) s ∧
    s.loc 0 = none ∧ (1 : Fin 2) ∈ s.shared.waits.queue () ∧ ∃ h, 0 < depth h s.log
  := by
  obtain ⟨s, hs, hp⟩ := Machine.exists_reach_of_run (M := machine Build.debug) (G := Regular)
    (s := State.idle ⟨Mutex.init (some .errorcheck), Waits.empty⟩)
    [.call (0 : Fin 2) (.lock (.start none)), .act 0 false, .call 1 (.lock (.start none)),
      .act 1 false]
    (fun s => (machine Build.debug).allSpin s && (s.loc 0).isNone &&
      decide (s.loc 1 = some (.lock (.wait (.block false)))) &&
      ((machine Build.debug).step 1 (.lock (.wait (.block false))) false s.shared).isSpin)
    (by decide +kernel)
  simp only [Bool.and_eq_true, Option.isNone_iff_eq_none, decide_eq_true_eq] at hp
  obtain ⟨⟨⟨hspin, hnone⟩, hl⟩, hwait⟩ := hp
  obtain ⟨-, hqueued, h, hdepth, -⟩ := waits_for_holder hs (Machine.rests_of_allSpin hspin) hl (by
    intro hfault
    rw [hfault] at hwait
    cases hwait)
  exact ⟨s, hs, hnone, hqueued, h, hdepth⟩

end Mutex

end LibPthread
