import LibPthread.Mutex.Exclusion

/-!
# Counting the acquisitions of a recursive mutex

As long as `locks` does not wrap around it is the number of acquisitions of the owner, so that
the mutex is given away by exactly the unlock that undoes the last of them. Nothing refuses an
acquisition when `locks` is `UINT_MAX`.
-/

open Concurrency

namespace LibPthread

namespace Mutex

variable {T : Type} [DecidableEq T]

/-- `locks` is the number of acquisitions of the owner. -/
def Counted (s : Sys T) : Prop :=
  ∀ t, s.shared.obj.owner = some t → handed t s.log = false → s.shared.obj.locks = depth t s.log

/-- A step of `t` gives the mutex away: it clears `__held`, or it has dequeued the thread that it
is going to wake up. -/
def GivesAway (s s' : Sys T) (t : T) : Prop :=
  s.shared.obj.held = true ∧
    (s'.shared.obj.held = false ∨ ∃ u, s'.loc t = some (.unlock (.wakeup u)))

/-- A recursive mutex before any call. -/
def recursiveStart : Sys T :=
  State.idle ⟨Mutex.init (some .recursive), Waits.empty⟩

variable [Fintype T] {b : Build} {s s' : Sys T} {a : Label T (Loc T)} {t : T}

/-- On a recursive mutex the steps that do not make `locks` wrap around are disciplined. -/
theorem disciplined_of_counts (hs : (machine b).Reach CountsLocks recursiveStart s) :
  (machine b).Reach Disciplined recursiveStart s
  := by
  apply hs.invariant (I := fun s => (machine b).Reach Disciplined recursiveStart s)
  · exact .refl
  · intro s a s' _ hreach hG hstep
    apply hreach.step ⟨_, hG⟩ hstep
    cases a with
    | call t l => trivial
    | act t c =>
        intro _ hnormal
        rw [isNormal, attr_of_reach hreach] at hnormal
        cases hnormal

theorem owned_of_counts (hs : (machine b).Reach CountsLocks recursiveStart s) :
  Owned b s
  := owned_of_reach (fun _ _ => Disciplined.lawful) (disciplined_of_counts hs)

theorem attr_of_counts (hs : (machine b).Reach CountsLocks recursiveStart s) :
  s.shared.obj.attr = some .recursive
  := attr_of_reach hs

/-- The acquisitions are counted after every run. -/
theorem counted_of_reach (hs : (machine b).Reach CountsLocks recursiveStart s) :
  Counted s
  := by
  intro t howner hhanded
  have hrec := attr_of_counts hs
  have hlt := depth_lt_of_reach (disciplined_of_counts hs) rfl t
  have hholder := ((owned_of_counts hs).holder_of_owner (tracked_of_recursive hrec) howner).2
  have hlocks := (hholder.kept hhanded).1 hrec
  omega

/-- A thread that has acquired the mutex is its owner. -/
theorem owner_of_depth (hs : (machine b).Reach CountsLocks recursiveStart s)
    (hdepth : 0 < depth t s.log) :
  s.shared.obj.held = true ∧ s.shared.obj.owner = some t ∧ s.shared.obj.locks = depth t s.log
  := by
  have hrec := attr_of_counts hs
  have hlt := depth_lt_of_reach (disciplined_of_counts hs) rfl t
  have htally : tally s.shared.obj.attr (depth t s.log) ≠ 0 := by
    rw [tally, if_pos hrec]
    omega
  obtain ⟨hheld, hholder⟩ := (owned_of_counts hs).holder_of_depth htally
  have howner : s.shared.obj.owner = some t := by
    rcases hholder.owner (tracked_of_recursive hrec) with howner | ⟨-, -, hzero⟩
    · exact howner
    · exact absurd hzero htally
  have hhanded : handed t s.log = false := by
    cases hchosen : handed t s.log with
    | false => rfl
    | true => exact absurd (hholder.chosen hchosen).1 htally
  exact ⟨hheld, howner, counted_of_reach hs t howner hhanded⟩

/-- The thread that unlocks the mutex it owns has acquired it `locks` times, at least once. -/
theorem locks_of_unlock (hs : (machine b).Reach CountsLocks recursiveStart s) {c : Bool}
    (hG : CountsLocks s (.act t c)) (hl : s.loc t = some (.unlock .start))
    (howner : s.shared.obj.owner = some t) :
  s.shared.obj.held = true ∧ s.shared.obj.locks = depth t s.log ∧ 0 < depth t s.log
  := by
  have hhanded := (owned_of_counts hs).not_handed hl (.inr ⟨_, rfl⟩)
  have hlocks := counted_of_reach hs t howner hhanded
  have hpos := (hG (attr_of_counts hs) howner).1 hl
  have hdepth : 0 < depth t s.log := by omega
  exact ⟨(owner_of_depth hs hdepth).1, hlocks, hdepth⟩

theorem decLocks_eq_zero_iff {n : Nat} (hn : n < 2 ^ 32) :
  decLocks n = 0 ↔ n = 1
  := by
  rw [decLocks]
  omega

omit [Fintype T] in
/-- Only an unlock gives the mutex away. -/
theorem Effect.unlocks_of_givesAway {c : Bool} (h : Effect b s (.act t c) s')
    (hgives : GivesAway s s' t) :
  s.loc t = some (.unlock .start)
  := by
  obtain ⟨hheld, hgives⟩ := hgives
  cases h with
  | deny hl => exact hl
  | inner hl => exact hl
  | release hl => exact hl
  | handOver hl => exact hl
  | grant _ _ hfree =>
      rw [hheld] at hfree
      cases hfree
  | settle _ hmx => simp [hmx, hheld] at hgives
  | _ => simp [hheld] at hgives

/-- The mutex is given away by exactly the unlock that undoes the last acquisition. -/
theorem givesAway_iff (hs : (machine b).Reach CountsLocks recursiveStart s) {c : Bool}
    (hG : CountsLocks s (.act t c)) (hstep : (machine b).Step s (.act t c) s') :
  GivesAway s s' t ↔ s.loc t = some (.unlock .start) ∧ depth t s.log = 1
  := by
  have hlt := depth_lt_of_reach (disciplined_of_counts hs) rfl t
  have hrec := attr_of_counts hs
  have heffect := effect_of_step (sound_of_reach hs) hstep
  constructor
  · intro hgives
    have hl := heffect.unlocks_of_givesAway hgives
    refine ⟨hl, ?_⟩
    obtain ⟨hheld, hgives⟩ := hgives
    cases heffect with
    | deny => simp [hheld] at hgives
    | inner => simp [hheld] at hgives
    | release _ _ _ hreleased =>
        have hlocks := (locks_of_unlock hs hG hl (hreleased.was (tracked_of_recursive hrec))).2.1
        rw [← hlocks] at hlt ⊢
        exact (decLocks_eq_zero_iff hlt).mp (hreleased.last hrec).1
    | handOver _ _ _ hreleased =>
        have hlocks := (locks_of_unlock hs hG hl (hreleased.was (tracked_of_recursive hrec))).2.1
        rw [← hlocks] at hlt ⊢
        exact (decLocks_eq_zero_iff hlt).mp (hreleased.last hrec).1
    | _ => simp_all [Loc.request]
  · rintro ⟨hl, hone⟩
    obtain ⟨hheld, howner, hlocks⟩ := owner_of_depth hs (show 0 < depth t s.log by omega)
    use hheld
    cases heffect with
    | deny _ _ hforeign => exact absurd howner hforeign
    | inner _ _ _ hmore =>
        rw [hlocks, hone] at hmore
        exact absurd hmore (by decide)
    | release _ _ hfree => exact .inl hfree
    | @handOver _ u => exact .inr ⟨u, by simp⟩
    | _ => simp_all [Loc.request]

/-! ### The counter wraps around -/

omit [Fintype T] in
/-- An owner that asks for the mutex again acquires it once more, whatever `locks` is. -/
theorem step_again {l : Loc T} {c : Bool} {w : Waits T Unit} {mx : Mutex T}
    (hlock : mx.lock = false) (hheld : mx.held = true) (hrec : mx.attr = some .recursive)
    (howner : mx.owner = some t) (hl : l.request = true) :
  (machine b).step t l c ⟨mx, w⟩ = .ret ⟨{ mx with locks := incLocks mx.locks }, w⟩ .zero
  := by
  rcases l with (abstime | _ | _) | _ | (_ | _)
  · simp [machine, step, lockStep, lockStart, Outcome.lift, hlock, hheld, hrec, howner]
  · cases hl
  · cases hl
  · simp [machine, step, trylock, hlock, hheld, hrec, howner]
  · cases hl
  · cases hl

omit [Fintype T] in
/-- An owner that unlocks the mutex when `locks` is 0 keeps it. -/
theorem step_unlock_zero {c : Bool} {w : Waits T Unit} {mx : Mutex T} (hlock : mx.lock = false)
    (hrec : mx.attr = some .recursive) (howner : mx.owner = some t) (hzero : mx.locks = 0) :
  (machine b).step t (.unlock .start) c ⟨mx, w⟩ = .ret ⟨{ mx with locks := 2 ^ 32 - 1 }, w⟩ .zero
  := by
  simp [machine, step, unlockStep, unlockStart, Outcome.lift, hlock, hrec, howner, hzero, decLocks]

omit [Fintype T] in
theorem lock_of_step {l : Loc T} {c : Bool} (hl : s.loc t = some l)
    (hentry : l.request = true ∨ l = .unlock .start) (hstep : (machine b).Step s (.act t c) s') :
  s.shared.obj.lock = false
  := by
  cases hlock : s.shared.obj.lock with
  | false => rfl
  | true =>
      exfalso
      have hspin : (machine b).step t l c s.shared = .spin := by
        rcases l with (abstime | _ | _) | _ | (_ | _)
        · simp [machine, step, lockStep, lockStart, Outcome.lift, hlock]
        · simp [Loc.request] at hentry
        · simp [Loc.request] at hentry
        · simp [machine, step, trylock, hlock]
        · simp [machine, step, unlockStep, unlockStart, Outcome.lift, hlock]
        · simp [Loc.request] at hentry
      cases hstep with
      | goto hl' hstep =>
          obtain rfl := Option.some.inj (hl.symm.trans hl')
          rw [hspin] at hstep
          cases hstep
      | ret hl' hstep =>
          obtain rfl := Option.some.inj (hl.symm.trans hl')
          rw [hspin] at hstep
          cases hstep

omit [Fintype T] in
/-- The step of a call that returns in its next section. -/
theorem eq_ret_of_step {l : Loc T} {c : Bool} {x : World (Mutex T) T Unit} {r : Ret}
    (hl : s.loc t = some l) (hx : (machine b).step t l c s.shared = .ret x r)
    (hstep : (machine b).Step s (.act t c) s') :
  s' = s.ret t l x r
  := by
  have hret := Machine.Step.ret hl hx
  rw [← Machine.exec_eq_some_iff] at hret hstep
  exact Option.some.inj (hstep.symm.trans hret)

/-- A step that makes `locks` wrap around makes it differ from the number of acquisitions. -/
theorem not_counted_of_wraps (hs : (machine b).Reach CountsLocks recursiveStart s) {c : Bool}
    (hwraps : ¬ CountsLocks s (.act t c)) (hstep : (machine b).Step s (.act t c) s') :
  ¬ Counted s'
  := by
  have hrec := attr_of_counts hs
  have howned := owned_of_counts hs
  simp only [CountsLocks, not_forall] at hwraps
  obtain ⟨-, howner, hwraps⟩ := hwraps
  have hheld := (howned.holder_of_owner (tracked_of_recursive hrec) howner).1
  intro hcounted
  by_cases hunlock : s.loc t = some (.unlock .start) ∧ s.shared.obj.locks = 0
  · obtain ⟨hl, hzero⟩ := hunlock
    have hhanded := howned.not_handed hl (.inr ⟨_, rfl⟩)
    have hdepth := counted_of_reach hs t howner hhanded
    obtain rfl := eq_ret_of_step hl
      (step_unlock_zero (lock_of_step hl (.inr rfl) hstep) hrec howner hzero) hstep
    have hlocks := hcounted t howner (by simp [handed])
    simp [depth, ← hdepth, hzero] at hlocks
  · have hfull : (s.loc t).any Loc.request = true ∧ s.shared.obj.locks = 2 ^ 32 - 1 := by
      by_contra hnot
      apply hwraps
      grind
    obtain ⟨hrequest, hmax⟩ := hfull
    obtain ⟨l, hl, hrequest⟩ := (Option.any_eq_true _ _).mp hrequest
    have hhanded := howned.not_handed hl (.inl hrequest)
    have hdepth := counted_of_reach hs t howner hhanded
    obtain rfl := eq_ret_of_step hl
      (step_again (lock_of_step hl (.inl hrequest) hstep) hheld hrec howner hrequest) hstep
    have hlocks := hcounted t howner (by simp [handed])
    rw [depth_grant (.inl hrequest), ← hdepth] at hlocks
    simp [incLocks, hmax] at hlocks

/-- Counting the acquisitions of a recursive mutex, for any number of threads: as long as no
step has made `locks` wrap around, a thread that has acquired the mutex more often than it has
unlocked it is its owner, `locks` is the difference, the mutex is given away by exactly the
unlock that brings the difference to 0, and the next step keeps the count if and only if it
does not make `locks` wrap around. -/
theorem recursive_counting (hs : (machine b).Reach CountsLocks recursiveStart s) :
  Counted s ∧
    (∀ t, 0 < depth t s.log → s.shared.obj.held = true ∧ s.shared.obj.owner = some t ∧
      s.shared.obj.locks = depth t s.log) ∧
    (∀ t c s', CountsLocks s (.act t c) → (machine b).Step s (.act t c) s' →
      (GivesAway s s' t ↔ s.loc t = some (.unlock .start) ∧ depth t s.log = 1)) ∧
    (∀ t c s', (machine b).Step s (.act t c) s' → (CountsLocks s (.act t c) ↔ Counted s'))
  := by
  refine ⟨counted_of_reach hs, fun t => owner_of_depth hs, fun t c s' => givesAway_iff hs, ?_⟩
  intro t c s' hstep
  constructor
  · intro hG
    exact counted_of_reach (hs.step hG hstep)
  · intro hcounted
    by_contra hwraps
    exact not_counted_of_wraps hs hwraps hstep hcounted

/-- A thread acquires the mutex twice, once by trylock, and unlocks it once. -/
def nested {T : Type} (t : T) : List (Label T (Loc T)) :=
  [.call t (.lock (.start none)), .act t false, .call t .trylock, .act t false,
   .call t (.unlock .start), .act t false, .call t (.unlock .start)]

/-- The second unlock is the one that gives the mutex away. -/
theorem recursive_counting_nested :
  ∃ s, (machine Build.debug).Reach CountsLocks recursiveStart s ∧
    ∀ c s', (machine Build.debug).Step s (.act 0 c) s' → GivesAway s s' (0 : Fin 2)
  := by
  obtain ⟨s, hs, hp⟩ := Machine.exists_reach_of_run (M := machine Build.debug)
    (G := CountsLocks) (s := recursiveStart) (nested (0 : Fin 2))
    (fun s => s.loc 0 = some (.unlock .start) ∧ depth 0 s.log = 1 ∧ s.shared.obj.locks = 1)
    (by decide +kernel)
  simp only [decide_eq_true_eq] at hp
  obtain ⟨hl, hdepth, hlocks⟩ := hp
  use s, hs
  intro c s' hstep
  have hG : CountsLocks s (.act 0 c) := by
    intro _ _
    simp [hl, hlocks, Loc.request]
  exact ((recursive_counting hs).2.2.1 0 c s' hG hstep).mpr ⟨hl, hdepth⟩

/-- A thread that has acquired the mutex acquires it once more. -/
theorem reach_again {s : Sys (Fin 1)} (hs : (machine b).Reach (fun _ _ => True) recursiveStart s)
    (hidle : s.loc 0 = none) {n : Nat}
    (hshared : s.shared = ⟨⟨true, false, some .recursive, some 0, n⟩, Waits.empty⟩) :
  ∃ s' : Sys (Fin 1), (machine b).Reach (fun _ _ => True) recursiveStart s' ∧
    s'.loc 0 = none ∧
    s'.shared = ⟨⟨true, false, some .recursive, some 0, incLocks n⟩, Waits.empty⟩ ∧
    depth 0 s'.log = depth 0 s.log + 1
  := by
  have hcall : (machine b).Step s (.call 0 .trylock) (s.call 0 .trylock) :=
    Machine.Step.call hidle rfl
  have hret := Machine.Step.ret (M := machine b) (c := false)
    (s := s.call 0 .trylock) (t := 0) (l := .trylock)
    (x := ⟨⟨true, false, some .recursive, some 0, incLocks n⟩, Waits.empty⟩) (r := .zero)
    (by simp) (by
      rw [State.call_shared, hshared]
      apply step_again
      all_goals rfl)
  refine ⟨_, (hs.step trivial hcall).step trivial hret, ?_⟩
  simp [depth]

/-- One thread acquires the mutex `n + 1` times. -/
theorem reach_locks (n : Nat) :
  ∃ s : Sys (Fin 1), (machine b).Reach (fun _ _ => True) recursiveStart s ∧
    s.loc 0 = none ∧
    s.shared = ⟨⟨true, false, some .recursive, some 0, (n + 1) % 2 ^ 32⟩, Waits.empty⟩ ∧
    depth 0 s.log = n + 1
  := by
  induction n with
  | zero =>
      have hcall : (machine b).Step recursiveStart (.call 0 .trylock)
          (recursiveStart.call (0 : Fin 1) .trylock) := Machine.Step.call rfl rfl
      have hret := Machine.Step.ret (M := machine b) (c := false)
        (s := recursiveStart.call (0 : Fin 1) .trylock) (t := 0) (l := .trylock)
        (x := ⟨⟨true, false, some .recursive, some 0, 1⟩, Waits.empty⟩) (r := .zero)
        (by simp) (by
          simp [machine, step, trylock, grab, recursiveStart, init, Build.assert])
      refine ⟨_, (Machine.Reach.refl.step trivial hcall).step trivial hret, ?_⟩
      simp [depth, recursiveStart]
  | succ n ih =>
      obtain ⟨s, hs, hidle, hshared, hdepth⟩ := ih
      obtain ⟨s', hs', hidle', hshared', hdepth'⟩ := reach_again hs hidle hshared
      use s', hs', hidle'
      rw [hdepth', hdepth, hshared']
      simp [incLocks]

/-- After `2 ^ 32 + 1` acquisitions, none of which is refused, `locks` is 1 and the first unlock
releases the mutex. -/
theorem locks_wrap :
  ∃ s s' : Sys (Fin 1), (machine Build.debug).Reach (fun _ _ => True) recursiveStart s ∧
    depth 0 s.log = 2 ^ 32 + 1 ∧ (machine Build.debug).Step s (.act 0 false) s' ∧
    GivesAway s s' 0
  := by
  obtain ⟨s, hs, hidle, hshared, hdepth⟩ := reach_locks (b := Build.debug) (2 ^ 32)
  have hcall : (machine Build.debug).Step s (.call 0 (.unlock .start))
      (s.call 0 (.unlock .start)) := Machine.Step.call hidle rfl
  have hret := Machine.Step.ret (M := machine Build.debug) (c := false)
    (s := s.call 0 (.unlock .start)) (t := 0) (l := .unlock .start)
    (x := ⟨⟨false, false, some .recursive, none, 0⟩, Waits.empty⟩) (r := .zero)
    (by simp) (by
      rw [State.call_shared, hshared]
      simp [machine, step, unlockStep, unlockStart, handOver, Outcome.lift, decLocks,
        Waits.empty])
  refine ⟨s.call 0 (.unlock .start), _, hs.step trivial hcall, ?_, hret, ?_⟩
  · rw [State.call_log, depth, hdepth]
  · simp [GivesAway, hshared]

end Mutex

end LibPthread
