import LibPthread.Concurrency.Rest
import LibPthread.Rwlock.HandOver

/-!
# Rwlocks at rest

A thread waits for an rwlock only while some thread has it, and a reader only while a writer has
it. Provided that no time-out crosses a hand-over, the shares of the threads in a state at rest are
exactly those they have acquired themselves.
-/

open Concurrency

namespace LibPthread

namespace Rwlock

variable {T : Type} [DecidableEq T] {b : Build} {s s' : Sys T} {a : Label T (Loc T)}

/-- The call is that of a lock function with an invalid time-out. -/
def Loc.invalid : Loc T → Bool
  | .lock _ (.start abstime) => badTime abstime
  | .lock _ (.wait _) => false
  | .lock _ (.finish _) => false
  | .trylock _ => false
  | .unlock _ => false

/-- No lock function is called with an invalid time-out. -/
def ValidTimeouts : Label T (Loc T) → Prop
  | .call _ l => l.invalid = false
  | .act _ _ => True

/-- The guard under which the rwlock stays in use: no share is orphaned, and no lock function
fails with the lock held. -/
def Usable (s : Sys T) (a : Label T (Loc T)) : Prop :=
  Orderly s a ∧ ValidTimeouts a

instance (a : Label T (Loc T)) : Decidable (ValidTimeouts a) :=
  match a with
  | .call _ l => inferInstanceAs (Decidable (l.invalid = false))
  | .act _ _ => inferInstanceAs (Decidable True)

instance (s : Sys T) (a : Label T (Loc T)) : Decidable (Usable s a) :=
  inferInstanceAs (Decidable (_ ∧ _))

/-! ### The section that wakes up all readers -/

/-- Only the unlock that wakes up all readers keeps `__lock` from one step to the next. -/
structure Guarded (s : Sys T) : Prop where
  valid : ∀ t l, s.loc t = some l → l.invalid = false
  lock : s.shared.obj.lock = true → ∃ t us, s.loc t = some (.unlock (.wakeAll us))

/-- A call goes on with `__lock` taken only when it found it taken, or is an unlock that wakes up
all readers. -/
theorem lock_of_goto {t : T} {c : Bool} {l l' : Loc T} {x : World Rwlock T Mode}
    (hport : ∀ u ∈ (l.role id).owes, s.shared.waits.port u = 0)
    (h : (machine b).step t l c s.shared = .goto x l') (hlock : x.obj.lock = true) :
  (s.shared.obj.lock = true ∧ ∀ us, l ≠ .unlock (.wakeAll us)) ∨
    ∃ us, l' = .unlock (.wakeAll us)
  := by
  cases l with
  | lock mode l =>
      left
      refine ⟨?_, by simp⟩
      simp only [machine, step, Outcome.lift_eq_goto_iff, id_eq] at h
      rcases h with ⟨s₁, l₁, h, rfl, rfl⟩ | ⟨_, _, _, h⟩
      · rcases lockStep_eq_goto h with ⟨abstime, rfl, hs⟩ | ⟨st, st', w, rfl, rfl, rfl, hw⟩ |
          ⟨st, w, err, rfl, rfl, rfl, hw⟩
        · obtain ⟨-, -, -, -, rfl, rfl⟩ := lockStart_eq_goto hs
          apply hlock
        · apply hlock
        · apply hlock
      · cases h
  | trylock mode => apply absurd h trylock_ne_goto
  | unlock l =>
      simp only [machine, step, Outcome.lift_eq_goto_iff, id_eq] at h
      rcases h with ⟨s₁, l₁, h, rfl, rfl⟩ | ⟨_, _, _, h⟩
      · rcases unlockStep_eq_goto hport h with ⟨rfl, h⟩ | ⟨u, us, rfl, rfl, rfl⟩
        · obtain ⟨-, -, ⟨u, rest, -, rfl, rfl⟩ | ⟨u, us, -, -, rfl, rfl⟩⟩ := unlockStart_eq_goto h
          · cases hlock
          · right
            use u :: us
        · right
          use us
      · cases h

/-- A call leaves `__lock` taken only when it fails because of its time-out. -/
theorem lock_of_ret {t : T} {c : Bool} {l : Loc T} {x : World Rwlock T Mode} {r : Ret}
    (hport : ∀ u ∈ (l.role id).owes, s.shared.waits.port u = 0) (hvalid : l.invalid = false)
    (h : (machine b).step t l c s.shared = .ret x r) (hlock : x.obj.lock = true) :
  s.shared.obj.lock = true ∧ ∀ us, l ≠ .unlock (.wakeAll us)
  := by
  cases l with
  | lock mode l =>
      simp only [machine, step, Outcome.lift_eq_ret_iff, id_eq] at h
      obtain ⟨s₁, r₁, h, h'⟩ := h
      obtain ⟨rfl, rfl⟩ := h'
      rcases lockStep_eq_ret h with ⟨abstime, rfl, hs⟩ | ⟨err, rfl, hf⟩
      · obtain ⟨hfree, -, ⟨-, -, hx⟩ | ⟨-, -, -, -, hx⟩ | ⟨-, hbad, -, -⟩⟩ := lockStart_eq_ret hs
        · simp [hx] at hlock
        · simp [hx, hfree] at hlock
        · simp [Loc.invalid, hbad] at hvalid
      · obtain ⟨hx, -⟩ := lockFinish_eq_ret hf
        rw [hx] at hlock
        use hlock
        simp
  | trylock mode =>
      obtain ⟨hfree, -, ⟨-, -, hx⟩ | ⟨-, -, -, -, hx⟩ | ⟨-, -, hx⟩⟩ := trylock_eq_ret h
      all_goals simp [hx, hfree] at hlock
  | unlock l =>
      simp only [machine, step, Outcome.lift_eq_ret_iff, id_eq] at h
      obtain ⟨s₁, r₁, h, h'⟩ := h
      obtain ⟨rfl, rfl⟩ := h'
      rcases unlockStep_eq_ret hport h with ⟨rfl, h⟩ | ⟨u, rfl, rfl, rfl⟩ | ⟨rfl, rfl, rfl⟩
      · obtain ⟨hfree, -, -, ⟨-, hx⟩ | ⟨-, -, hx⟩⟩ := unlockStart_eq_ret h
        all_goals simp [hx, hfree] at hlock
      · use hlock
        simp
      · cases hlock

theorem guarded_of_reach [Fintype T]
    (hs : (machine b).Reach Usable (State.idle ⟨Rwlock.init, Waits.empty⟩) s) :
  Guarded s
  := by
  apply hs.invariant
  · constructor
    · simp
    · intro h
      cases h
  · intro s a s' hreach hguarded hG hstep
    have hsound := sound_of_reach hreach
    have hport : ∀ t l, s.loc t = some l → ∀ u ∈ (l.role id).owes, s.shared.waits.port u = 0 := by
      intro t l hl u hu
      apply hsound.port_of_owes (t := t)
      simp [roles, hl, hu]
    constructor
    · intro t l hl
      by_cases ht : t = a.thread
      · subst ht
        cases effect_of_step hsound hstep with
        | call hidle hentry =>
            simp only [State.call_loc, Label.thread, Function.update_self, Option.some.injEq] at hl
            rw [← hl]
            apply hG.2
        | _ => simp at hl <;> simp [← hl, Loc.invalid]
      · rw [((effect_of_step hsound hstep).other hsound ht).1] at hl
        apply hguarded.valid t l hl
    · intro hlock
      cases hstep with
      | call hidle hentry =>
          obtain ⟨t, us, hl⟩ := hguarded.lock hlock
          use t, us
          simp only [State.call_loc, Function.update_apply]
          grind
      | @goto t c l l' x hl h =>
          rcases lock_of_goto (hport t l hl) h hlock with ⟨hlock, hne⟩ | ⟨us, rfl⟩
          · obtain ⟨u, us, hu⟩ := hguarded.lock hlock
            use u, us
            rw [State.goto_loc, Function.update_of_ne, hu]
            rintro rfl
            apply hne us (Option.some.inj (hl.symm.trans hu))
          · use t, us
            simp
      | @ret t c l x r hl h =>
          obtain ⟨hlock, hne⟩ := lock_of_ret (hport t l hl) (hguarded.valid t l hl) h hlock
          obtain ⟨u, us, hu⟩ := hguarded.lock hlock
          use u, us
          rw [State.ret_loc, Function.update_of_ne, hu]
          rintro rfl
          apply hne us (Option.some.inj (hl.symm.trans hu))

/-! ### Nothing is on its way -/

variable {Q : Type} [DecidableEq Q] {queue : Mode → Q}

theorem lockStart_ne_spin {mode : Mode} {self : T} {abstime : Option Timespec} {rw : Rwlock}
    {w : Waits T Q} (hlock : rw.lock = false) :
  lockStart b queue mode self abstime rw w ≠ .spin
  := by
  cases mode with
  | rd =>
      simp only [lockStart, rdlockStart, hlock, Bool.false_eq_true, if_false]
      grind [Build.assert, grab, join, lockBusy]
  | wr =>
      simp only [lockStart, wrlockStart, hlock, Bool.false_eq_true, if_false]
      grind [Build.assert, grab, lockBusy]

omit [DecidableEq T] [DecidableEq Q] in
theorem trylock_ne_spin {mode : Mode} {x : World Rwlock T Q} (hlock : x.obj.lock = false) :
  (trylock b queue mode x : Outcome _ (Loc T) _) ≠ .spin
  := by
  cases mode with
  | rd =>
      simp only [trylock, tryrdlock, hlock, Bool.false_eq_true, if_false]
      grind [Build.assert, grab, join]
  | wr =>
      simp only [trylock, trywrlock, hlock, Bool.false_eq_true, if_false]
      grind [Build.assert, grab]

theorem handOver_ne_spin {rw : Rwlock} {w : Waits T Q} :
  handOver queue rw w ≠ .spin
  := by
  simp only [handOver]
  split
  · split
    · simp
    · simp
  · split
    · simp
    · simp

theorem unlockStart_ne_spin {rw : Rwlock} {w : Waits T Q} (hlock : rw.lock = false) :
  unlockStart b queue rw w ≠ .spin
  := by
  simp only [unlockStart, hlock, Bool.false_eq_true, if_false, Build.assert]
  split
  · split
    · simp
    · apply handOver_ne_spin
  · simp

/-- A thread that cannot go on is at a receive from its empty port. -/
theorem loc_of_spin {x : World Rwlock T Q} (hlock : x.obj.lock = false) {t : T} {l : Loc T}
    (h : step b queue t l false x = .spin) :
  x.waits.port t = 0 ∧ ∃ mode stage, l = .lock mode (.wait stage) ∧
    ((∃ timed, stage = .block timed) ∨ stage = .drain)
  := by
  rcases l with ⟨mode, abstime | stage | err⟩ | mode | (_ | u | _ | ⟨u, us⟩)
  · simp only [step, lockStep, Outcome.lift_eq_spin_iff, reduceCtorEq, and_false,
      exists_false, or_false] at h
    apply absurd h (lockStart_ne_spin hlock)
  · simp only [step, lockStep, hlock, Outcome.lift_eq_spin_iff, reduceCtorEq,
      and_false, exists_false, or_false] at h
    obtain ⟨hport, hstage⟩ := waitStep_eq_spin h
    use hport, mode, stage, rfl
  · simp only [step, lockStep, lockFinish, Outcome.lift_eq_spin_iff] at h
    grind [Build.assert]
  · apply absurd h (trylock_ne_spin hlock)
  · simp only [step, unlockStep, Outcome.lift_eq_spin_iff, reduceCtorEq, and_false,
      exists_false, or_false] at h
    apply absurd h (unlockStart_ne_spin hlock)
  · simp only [step, unlockStep, Build.wakeup, Outcome.lift_eq_spin_iff] at h
    grind [Build.assert]
  · simp [step, unlockStep, Outcome.lift] at h
  · simp only [step, unlockStep, Build.wakeup, Outcome.lift_eq_spin_iff] at h
    grind [Build.assert]

variable [Fintype T]

/-- In a state at rest no unlock is waking up all readers. -/
theorem lock_of_rests
    (hsound : Sound (fun _ => False) (roles (fun _ => Loc.role id) s) s.shared.waits)
    (hg : Guarded s) (hrest : (machine b).Rests s) :
  s.shared.obj.lock = false
  := by
  by_contra htaken
  rw [Bool.not_eq_false] at htaken
  obtain ⟨t, us, hl⟩ := hg.lock htaken
  cases us with
  | nil =>
      apply hrest.ne_ret hl ⟨{ s.shared.obj with lock := false }, s.shared.waits⟩ .zero
      simp [machine, step, unlockStep, Outcome.lift]
  | cons u us =>
      have hport : s.shared.waits.port u = 0 := by
        apply hsound.port_of_owes (t := t)
        simp [roles, hl, Loc.role, UnlockLoc.owes]
      apply hrest.ne_goto hl ⟨s.shared.obj, s.shared.waits.send u⟩ (.unlock (.wakeAll us))
      simp [machine, step, unlockStep, Build.wakeup_of hport, Outcome.lift]

/-- The threads inside a call of a state at rest wait on the queues. -/
theorem queued_of_rests
    (hs : (machine b).Reach Usable (State.idle ⟨Rwlock.init, Waits.empty⟩) s)
    (hrest : (machine b).Rests s) {t : T} {l : Loc T} (hl : s.loc t = some l) :
  ∃ mode, (∃ timed, l = .lock mode (.wait (.block timed))) ∧ t ∈ s.shared.waits.queue mode
  := by
  have hsound := sound_of_reach hs
  have he := exclusive_of_reach (fun _ _ h => h.1.1) hs
  have hlock := lock_of_rests hsound (guarded_of_reach hs) hrest
  have hstuck : ∀ u l, s.loc u = some l → s.shared.waits.port u = 0 ∧ ∃ mode stage,
      l = .lock mode (.wait stage) ∧ ((∃ timed, stage = .block timed) ∨ stage = .drain) := by
    intro u l hu
    apply loc_of_spin hlock (hrest.eq_spin hu (he.ne_fault hsound hu))
  have hsilent : ∀ u, (roles (fun _ => Loc.role id) s u).owes = [] ∧
      (roles (fun _ => Loc.role id) s u).walk = [] := by
    intro u
    cases hu : s.loc u with
    | none => simp [roles, hu, Role.idle]
    | some l =>
        obtain ⟨-, mode, stage, rfl, -⟩ := hstuck u l hu
        simp [roles, hu, Loc.role]
  obtain ⟨hport, mode, stage, rfl, hstage⟩ := hstuck t l hl
  have hphase : (roles (fun _ => Loc.role id) s t).phase = stage.phase mode := by
    simp [roles, hl, Loc.role, LockLoc.phase]
  obtain ⟨hqueued, hdraining⟩ := hsound.queued_of_silent (fun u => (hsilent u).1)
    (fun u => (hsilent u).2) (t := t) (q := mode) (by rw [hphase, Stage.queue_phase]) hport
    (by rcases hstage with ⟨timed, rfl⟩ | rfl <;> simp [hphase, Stage.phase])
  rcases hstage with ⟨timed, rfl⟩ | rfl
  · exact ⟨mode, ⟨timed, rfl⟩, hqueued⟩
  · apply absurd hphase hdraining

/-- Where there are queued threads, there is a share, and a share for writing where readers are
queued. -/
theorem Exclusive.exists_share (hs : Exclusive s) {t : T} {mode : Mode}
    (ht : t ∈ s.shared.waits.queue mode) :
  ∃ h m, 0 < shares h s.log m ∧ (mode = .rd → m = .wr)
  := by
  have hpos : ∀ {m}, total s.log m ≠ 0 → ∃ h, 0 < shares h s.log m := by
    intro m hm
    obtain ⟨h, -, hh⟩ := Finset.exists_ne_zero_of_sum_ne_zero hm
    use h
    omega
  have hheld : ¬ (total s.log .wr = 0 ∧ total s.log .rd = 0) := by
    rw [← hs.balanced.held]
    intro hfree
    rw [hs.queues hfree] at ht
    cases ht
  by_cases hwr : total s.log .wr = 0
  · have hrd : total s.log .rd ≠ 0 := fun hrd => hheld ⟨hwr, hrd⟩
    obtain ⟨h, hh⟩ := hpos hrd
    use h, .rd, hh
    rintro rfl
    rw [hs.queue] at ht
    · cases ht
    · have := hs.balanced.readers
      omega
  · obtain ⟨h, hh⟩ := hpos hwr
    use h, .wr, hh
    intro
    rfl

/-- A waiting thread always waits for a holder: in every state in which no thread can go on, a
thread inside a call is a waiter on the queue of its mode, every thread has as many shares as
acquisitions that it has not undone, and some thread has one; if the waiter is a reader, that
thread has the rwlock for writing. -/
theorem waits_for_share
    (hs : (machine b).Reach Usable (State.idle ⟨Rwlock.init, Waits.empty⟩) s)
    (hrest : (machine b).Rests s) {t : T} {l : Loc T} (hl : s.loc t = some l) :
  ∃ mode, (∃ timed, l = .lock mode (.wait (.block timed))) ∧ t ∈ s.shared.waits.queue mode ∧
    (∀ h, owns h s.log = acquired h s.log) ∧
    ∃ h, 0 < acquired h s.log ∧ (mode = .rd → 0 < shares h s.log .wr)
  := by
  have hsound := sound_of_reach hs
  have he := exclusive_of_reach (fun _ _ h => h.1.1) hs
  have hsettled := settled_of_reach (hs.mono fun _ _ h => h.1)
  have hhanded : ∀ h, handed h s.log = false := by
    intro h
    have hp := he.placed h
    cases hh : s.loc h with
    | none => simpa [Placed, hh] using hp
    | some l =>
        obtain ⟨mode, ⟨timed, rfl⟩, hqueued⟩ := queued_of_rests hs hrest hh
        simp only [Placed, hh, hsound.linked mode h hqueued] at hp
        simpa using hp.1
  have howns : ∀ h, owns h s.log = acquired h s.log := by
    intro h
    rw [← hsettled.claims h]
    simp [Rwlock.claims, hhanded h]
  obtain ⟨mode, hloc, hqueued⟩ := queued_of_rests hs hrest hl
  use mode, hloc, hqueued, howns
  obtain ⟨h, m, hh, hm⟩ := he.exists_share hqueued
  use h
  constructor
  · rw [← howns h, owns]
    cases m
    · omega
    · omega
  · intro hmode
    rw [← hm hmode]
    apply hh

/-- Thread `0` writes, and thread `1` waits for reading. -/
theorem waits_for_share_two :
  ∃ s, (machine Build.debug).Reach Usable (State.idle ⟨Rwlock.init, Waits.empty⟩) s ∧
    s.loc 0 = none ∧ (1 : Fin 2) ∈ s.shared.waits.queue .rd ∧ ∃ h, 0 < shares h s.log .wr
  := by
  obtain ⟨s, hs, hp⟩ := Machine.exists_reach_of_run (M := machine Build.debug) (G := Usable)
    (s := State.idle ⟨Rwlock.init, Waits.empty⟩)
    [.call (0 : Fin 2) (.lock .wr (.start none)), .act 0 false,
      .call 1 (.lock .rd (.start (some ⟨0, 0⟩))), .act 1 false]
    (fun s => (machine Build.debug).allSpin s && (s.loc 0).isNone &&
      decide (s.loc 1 = some (.lock .rd (.wait (.block true)))))
    (by decide +kernel)
  simp only [Bool.and_eq_true, Option.isNone_iff_eq_none, decide_eq_true_eq] at hp
  obtain ⟨⟨hspin, hnone⟩, hl⟩ := hp
  obtain ⟨mode, ⟨timed, heq⟩, hqueued, -, h, -, hh⟩ :=
    waits_for_share hs (Machine.rests_of_allSpin hspin) hl
  obtain rfl : Mode.rd = mode := by
    injection heq
  exact ⟨s, hs, hnone, hqueued, h, hh rfl⟩

end Rwlock

end LibPthread
