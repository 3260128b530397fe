import LibPthread.Barrier.Rounds
import LibPthread.Concurrency.Rest

/-!
# Barriers at rest

A thread waits at a barrier only for the missing callers of its round. When no thread can go on,
the threads inside a call are exactly the callers of the present round, which is not complete: all
callers of the earlier rounds have returned.
-/

open Concurrency

namespace LibPthread

namespace Barrier

variable {T : Type} [DecidableEq T] {b : Build} {s : Sys T} {count : Nat}

/-- The callers of the present round, the latest first. -/
def present (count : Nat) (log : Log T) : List T :=
  (arrivals log).take ((arrivals log).length % count)

theorem waitStart_ne_spin {Q : Type} [DecidableEq Q] {q : Q} {self : T} {bar : Barrier}
    {w : Waits T Q} (hlock : bar.lock = false) :
  waitStart b q self bar w ≠ .spin
  := by
  simp only [waitStart, hlock, Build.assert]
  generalize decPending bar.pending = pending
  grind

/-- A thread that cannot go on is at the receive from its empty port. -/
theorem loc_of_spin {Q : Type} [DecidableEq Q] {q : Q} {x : World Barrier T Q}
    (hlock : x.obj.lock = false) {t : T} {l : Loc T} (h : waitStep b q t l x = .spin) :
  l = .block ∧ x.waits.port t = 0
  := by
  rcases l with _ | (_ | ⟨u, us⟩) | ⟨u, us⟩ | _
  · apply absurd h (waitStart_ne_spin hlock)
  · cases h
  · cases h
  · simp only [waitStep, Build.wakeup] at h
    grind [Build.assert]
  · use rfl
    by_contra hport
    simp [waitStep, hport] at h

variable [Fintype T]

/-- The callers that wait in a state at rest are on the queue. -/
theorem queued_of_rests
    (hsound : Sound (fun _ => True) (roles (fun _ => Loc.role ()) s) s.shared.waits)
    (hlock : s.shared.obj.lock = false) (hrest : (machine b).Rests s) {t : T} {l : Loc T}
    (hl : s.loc t = some l) :
  l = .block ∧ t ∈ s.shared.waits.queue ()
  := by
  have hstuck : ∀ u l, s.loc u = some l → l = .block ∧ s.shared.waits.port u = 0 := by
    intro u l hu
    apply loc_of_spin hlock
    apply hrest.eq_spin hu
    intro hfault
    apply ne_fault hsound ⟨u, l, false, hu, hfault⟩
  have hsilent : ∀ u, (roles (fun _ => Loc.role ()) s u).owes = [] ∧
      (roles (fun _ => Loc.role ()) s u).walk = [] := by
    intro u
    cases hu : s.loc u with
    | none => simp [roles, hu, Role.idle]
    | some l =>
        obtain ⟨rfl, -⟩ := hstuck u l hu
        simp [roles, hu, Loc.role]
  obtain ⟨rfl, hport⟩ := hstuck t l hl
  use rfl
  apply (hsound.queued_of_silent (fun u => (hsilent u).1) (fun u => (hsilent u).2) (t := t)
    (q := ()) _ hport _).1
  · simp [roles, hl, Loc.role]
  · simp [roles, hl, Loc.role]

/-- Only an incomplete round waits: in every state in which no thread can go on, the threads
inside a call are the callers of the present round, all different and fewer than the barrier is
for. -/
theorem waits_for_round {bar : Barrier} (hinit : init count = .ok bar) (hcount : 1 < count)
    (hlt : count < 2 ^ 32)
    (hs : (machine b).Reach (fun _ _ => True) (State.idle ⟨bar, Waits.empty⟩) s)
    (hrest : (machine b).Rests s) :
  (∀ t, s.loc t ≠ none ↔ t ∈ present count s.log) ∧ (present count s.log).Nodup ∧
    (present count s.log).length < count ∧ ∀ t ∈ present count s.log, s.loc t = some .block
  := by
  have hinv := invariant_of_reach hinit hcount hlt hs
  have hsound := sound_of_reach hs
  have hqueue : present count s.log = s.shared.waits.queue () := hinv.queue.symm
  have hinside : ∀ t l, s.loc t = some l → l = .block ∧ t ∈ s.shared.waits.queue () := by
    intro t l hl
    apply queued_of_rests hsound hinv.lock hrest hl
  rw [hqueue]
  refine ⟨?_, hsound.nodup (), ?_, ?_⟩
  · intro t
    constructor
    · intro hne
      obtain ⟨l, hl⟩ := Option.ne_none_iff_exists'.mp hne
      apply (hinside t l hl).2
    · intro hqueued hnone
      have := (hsound.queued hqueued).1
      simp [roles, hnone, Role.idle] at this
  · rw [hinv.queue, List.length_take]
    have := Nat.mod_lt (arrivals s.log).length (show 0 < count by omega)
    omega
  · intro t hqueued
    cases hl : s.loc t with
    | none =>
        have := (hsound.queued hqueued).1
        simp [roles, hl, Role.idle] at this
    | some l =>
        obtain ⟨rfl, -⟩ := hinside t l hl
        rfl

/-- Threads `0` and `1` have completed a round, and thread `0` waits in the next one. -/
theorem waits_for_round_reentering :
  ∃ s : Sys (Fin 2), (machine Build.debug).Reach (fun _ _ => True)
      (State.idle ⟨⟨false, 2, 2⟩, Waits.empty⟩) s ∧
    present 2 s.log = [0] ∧ s.loc 0 = some .block ∧ s.loc 1 = none
  := by
  obtain ⟨s, hs, hp⟩ := Machine.exists_reach_of_run (M := machine Build.debug)
    (G := fun _ _ => True) (s := State.idle ⟨⟨false, 2, 2⟩, Waits.empty⟩)
    (reentering (0 : Fin 2) 1 ++ [.act 1 false])
    (fun s => (machine Build.debug).allSpin s && decide (present 2 s.log = [0]))
    (by decide +kernel)
  simp only [Bool.and_eq_true, decide_eq_true_eq] at hp
  obtain ⟨hinside, -, -, hblock⟩ := waits_for_round (show init 2 = .ok ⟨false, 2, 2⟩ from rfl)
    (by decide) (by decide) hs (Machine.rests_of_allSpin hp.1)
  use s, hs, hp.2
  rw [hp.2] at hblock hinside
  constructor
  · apply hblock 0 (by simp)
  · have := hinside 1
    simpa using this

end Barrier

end LibPthread
