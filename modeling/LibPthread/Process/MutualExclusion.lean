import LibPthread.Mutex.Exclusion
import LibPthread.Process.Views
import LibPthread.Process.WaitExit

/-!
# Mutual exclusion in a process

A mutex of a process belongs to at most one thread, also when threads wait on condition variables
with it, so that it is released and locked again inside of a call, and when they are cancelled, as
long as no thread that is redirected inside a call gives it up.
-/

open Concurrency

namespace LibPthread

namespace Mutex

variable {T : Type} [DecidableEq T] [Fintype T] {b : Build} {attr : Option MutexType} {s : Sys T}

/-- A thread that has locked a mutex is the one that the mutex belongs to. -/
theorem holder_of_locked
    (hs : (machine b).Reach Disciplined (State.idle ⟨Mutex.init attr, Waits.empty⟩) s) {t : T}
    (ht : 0 < depth t s.log) :
  tally s.shared.obj.attr (depth t s.log) ≠ 0 ∧ s.shared.obj.held = true ∧ Holder b s t
  := by
  have htally : tally s.shared.obj.attr (depth t s.log) ≠ 0 := by
    rw [tally, attr_of_reach hs]
    split
    · rename_i hrec
      have := depth_lt_of_reach hs hrec t
      omega
    · omega
  use htally
  apply (owned_of_reach (fun _ _ => Disciplined.lawful) hs).holder_of_depth htally

/-- An unlock is refused only to a thread that has not locked the mutex. -/
theorem depth_of_refused
    (hs : (machine b).Reach Disciplined (State.idle ⟨Mutex.init attr, Waits.empty⟩) s) {t : T}
    {c : Bool} {x : World (Mutex T) T Unit} {r : Ret} (hr : r ≠ .zero)
    (h : (machine b).step t (.unlock .start) c s.shared = .ret x r) :
  depth t s.log = 0
  := by
  by_contra hne
  obtain ⟨htally, -, hh⟩ := holder_of_locked hs (Nat.pos_of_ne_zero hne)
  obtain ⟨y, r', hstep, hret⟩ := Outcome.lift_eq_ret_iff.mp h
  cases hret
  obtain ⟨-, -, ⟨hchecked, hother, -⟩ | ⟨-, -, -, hzero, -⟩ | ⟨-, hzero, -⟩⟩ :=
    unlockStart_eq_ret hstep
  · have htracked : s.shared.obj.tracked b = true := by simp [tracked, hchecked]
    rcases hh.owner htracked with howner | ⟨-, -, hnone⟩
    · apply hother howner
    · apply htally hnone
  · apply hr hzero
  · apply hr hzero

end Mutex

namespace Process

variable {T N : Type} [DecidableEq T] [DecidableEq N]

/-- A normal mutex is unlocked, also by a wait on a condition variable, only by a thread that has
locked it, and the count of a recursive one does not wrap around. -/
def MutexDisciplined (n : N) (s : Sys T N) : Label T (Loc T N) → Prop
  | .call _ _ => True
  | .act t _ =>
    ((s.loc t).bind (Loc.onMutex n) = some (.unlock .start) →
      (s.shared.obj.mutex (.user n)).isNormal = true → 0 < depth n t s.log) ∧
    ((s.shared.obj.mutex (.user n)).attr = some .recursive →
      (s.shared.obj.mutex (.user n)).owner = some t →
      ((s.loc t).bind (Loc.onMutex n) = some (.unlock .start) →
        (s.shared.obj.mutex (.user n)).locks ≠ 0) ∧
      (((s.loc t).bind (Loc.onMutex n)).any Mutex.Loc.request = true →
        (s.shared.obj.mutex (.user n)).locks ≠ 2 ^ 32 - 1))

instance (n : N) (s : Sys T N) (a : Label T (Loc T N)) : Decidable (MutexDisciplined n s a) :=
  match a with
  | .call _ _ => inferInstanceAs (Decidable True)
  | .act _ _ => inferInstanceAs (Decidable ((_ → _ → _) ∧ (_ → _ → _ ∧ _)))

/-! ### How often a thread has locked a mutex -/

variable {b : Build} {n : N} {s s₁ : Sys T N} {s' s₁' : Mutex.Sys T} {a : Label T (Loc T N)}
    {t : T} {l l' : Loc T N} {k : Mutex.Loc T} {r : Ret}

omit [DecidableEq T] in
theorem releases_iff (hk : l.onMutex n = some k) :
  l.releases n = true ↔ k = .unlock .start
  := by
  rcases Loc.onMutex_eq_some.mp hk with rfl | ⟨c, timed, oldtype, k', rfl, rfl⟩ |
    ⟨c, err, cancelled, k', rfl, rfl⟩
  · rcases k with k | _ | (_ | u) <;> simp [Loc.releases]
  · cases k' <;> simp [Loc.releases]
  · simp [Loc.releases]

omit [DecidableEq T] in
theorem releases_of_none (hk : l.onMutex n = none) :
  l.releases n = false ∧ ∀ r, l.acquires n r = false
  := by
  rcases l with ⟨m, k⟩ | _ | _ | _ | ⟨c, m, k⟩ | _ | _ | _ | _
  · have hne : m ≠ n := by
      rintro rfl
      simp [Loc.onMutex] at hk
    rcases k with k | _ | (_ | u) <;> simp [Loc.releases, Loc.acquires, hne]
  · simp [Loc.releases, Loc.acquires]
  · simp [Loc.releases, Loc.acquires]
  · simp [Loc.releases, Loc.acquires]
  · by_cases hm : m = n
    · subst hm
      simp only [Loc.onMutex, if_true] at hk
      cases k with
      | unlockMutex timed oldtype k => cases hk
      | relockMutex err cancelled k => cases hk
      | _ => simp [Loc.releases, Loc.acquires]
    · rcases k with _ | _ | _ | _ | ⟨_, _, _ | _⟩ | _ | _ | _ | _ | _ <;>
        simp [Loc.releases, Loc.acquires, hm]
  · simp [Loc.releases, Loc.acquires]
  · simp [Loc.releases, Loc.acquires]
  · simp [Loc.releases, Loc.acquires]
  · simp [Loc.releases, Loc.acquires]

/-- A call that goes on without the mutex has unlocked it. -/
theorem unlock_of_leave (hstep : (machine b).Step s a s₁) (he : s₁.log = .goto t l l' :: s.log)
    (hk : l.onMutex n = some k) (hk' : l'.onMutex n = none) :
  ∃ k', k = .unlock k'
  := by
  cases hstep with
  | call hidle hentry => cases he
  | ret hl h => cases he
  | goto hl h =>
      cases he
      have h' := step_eq_goto h
      rcases Loc.onMutex_eq_some.mp hk with rfl | ⟨c, timed, oldtype, k', rfl, rfl⟩ |
        ⟨c, err, cancelled, k', rfl, rfl⟩
      · rcases Outcome.lift_eq_goto_iff.mp h' with ⟨_, k₁, -, -, rfl⟩ | ⟨_, _, _, h'⟩
        · simp [Loc.onMutex] at hk'
        · cases h'
      · use k'
      · rcases Outcome.lift_eq_goto_iff.mp h' with ⟨_, k₁, hwait, -, rfl⟩ | ⟨_, _, _, h'⟩
        · rcases Shared.lock_eq_goto hwait with ⟨_, _, -, -, rfl⟩ | ⟨_, _, _, h'⟩
          · simp [Loc.onMutex, Cond.WaitLoc.onMutex] at hk'
          · cases h'
        · cases h'

/-- A call that returns from a function of the mutex is one of this function, or a wait that has
locked the mutex again. -/
theorem call_of_ret (hstep : (machine b).Step s a s₁) (he : s₁.log = .ret t l r :: s.log)
    (hk : l.onMutex n = some k) :
  l = .mutex n k ∨
    ∃ c err cancelled k', l = .condWait c n (.relockMutex err cancelled k') ∧ k = .lock k'
  := by
  cases hstep with
  | call hidle hentry => cases he
  | goto hl h => cases he
  | ret hl h =>
      cases he
      have h' := step_eq_ret h
      rcases Loc.onMutex_eq_some.mp hk with rfl | ⟨c, timed, oldtype, k', rfl, rfl⟩ |
        ⟨c, err, cancelled, k', rfl, rfl⟩
      · left
        rfl
      · obtain ⟨_, _, hwait, -⟩ := Outcome.lift_eq_ret_iff.mp h'
        obtain ⟨_, _, -, h'⟩ := Shared.unlock_eq_ret hwait
        cases h'
      · right
        use c, err, cancelled, k'

/-- The locks and unlocks of the mutex `n` in a process are those of the mutex alone. -/
def SameDepth (n : N) (s : Sys T N) (s' : Mutex.Sys T) : Prop :=
  ∀ t, Mutex.depth t s'.log = depth n t s.log

section Depth

variable [Fintype T] {attr : Option MutexType}

theorem SameDepth.step {e : Event T (Loc T N) Ret} {es : List (Event T (Mutex.Loc T) Ret)}
    (h : SameDepth n s s') (hrelock : Relockable s)
    (hs' : (Mutex.machine b).Reach Mutex.Disciplined
      (State.idle ⟨Mutex.init attr, Waits.empty⟩) s')
    (hshows : (mutexView n).Shows (fun t => Loc.role t) s s') (hstep : (machine b).Step s a s₁)
    (he : s₁.log = e :: s.log) (hes : s₁'.log = es ++ s'.log) (hsees : (mutexView n).Sees e es)
    (hnext : s₁' = s' ∨ ∃ a', (Mutex.machine b).Step s' a' s₁') :
  SameDepth n s₁ s₁'
  := by
  -- What is seen of a return was a step of the mutex alone.
  have hret : ∀ {t k r}, es = [.ret t k r] → s'.loc t = some k ∧
      ∃ c x, (Mutex.machine b).step t k c s'.shared = .ret x r := by
    rintro t k r rfl
    rcases hnext with rfl | ⟨a', hstep'⟩
    · simp at hes
    · cases hstep' with
      | call hidle hentry => cases hes
      | goto hl h => cases hes
      | @ret u c k' x r' hl h' =>
          cases hes
          exact ⟨hl, c, x, h'⟩
  intro u
  rw [he, hes]
  cases hsees with
  | callOther hk => simpa [depth] using h u
  | call hk => simpa [depth, Mutex.depth] using h u
  | other hk hk' => simpa [depth, (releases_of_none hk).1] using h u
  | enter hk hk' => simpa [depth, Mutex.depth, (releases_of_none hk).1] using h u
  | goto hk hk' => simp [depth, Mutex.depth, releases_iff hk, h u]
  | @leave t l l' k r hk hk' =>
      obtain ⟨k', rfl⟩ := unlock_of_leave hstep he hk hk'
      cases k' with
      | wakeup v => simp [depth, Mutex.depth, releases_iff hk, h u]
      | start =>
          by_cases hr : r = .zero
          · simp [depth, Mutex.depth, releases_iff hk, h u, hr]
          · obtain ⟨-, c, x, hstep'⟩ := hret rfl
            have hzero := Mutex.depth_of_refused hs' hr hstep'
            rw [h t] at hzero
            simp only [depth, Mutex.depth, releases_iff hk, h u, hr, List.singleton_append,
              and_false, if_false, and_true]
            split
            · rename_i hu
              rw [← hu, hzero]
            · rfl
  | retOther hk =>
      obtain ⟨hrel, hacq⟩ := releases_of_none hk
      simpa [depth, hrel, hacq] using h u
  | @ret t l k r r' hk hanswer =>
      rcases call_of_ret hstep he hk with rfl | ⟨c, err, cancelled, k', rfl, rfl⟩
      · obtain rfl := hanswer rfl
        rcases k with k | _ | (_ | v) <;>
          simp [depth, Mutex.depth, Loc.releases, Loc.acquires, h u]
      · obtain ⟨hl, c', x, hstep'⟩ := hret rfl
        obtain ⟨y, r₁, hlock, h'⟩ := Outcome.lift_eq_ret_iff.mp hstep'
        cases h'
        have hat : s.loc t = some (.condWait c n (.relockMutex err cancelled k')) := by
          cases hstep with
          | call hidle hentry => cases he
          | goto hl h => cases he
          | ret hl h =>
              cases he
              apply hl
        have hzero : r' = .zero := by
          apply Mutex.lockStep_zero (hrelock.untimed t c n err cancelled k' hat) _ hlock
          rintro abstime rfl hattr
          rw [hshows.obj] at hattr ⊢
          apply hrelock.owner t c n _ hat rfl hattr
        simp [depth, Mutex.depth, Loc.releases, Loc.acquires, h u, hzero]

end Depth

/-! ### Mutual exclusion -/

/-- The mutex `n` of a process belongs to at most one thread. -/
structure MutexKept (b : Build) (n : N) (s : Sys T N) : Prop where
  exclusive : ∀ t u, 0 < depth n t s.log → 0 < depth n u s.log → t = u
  held : ∀ t, 0 < depth n t s.log → (s.shared.obj.mutex (.user n)).held = true
  owner : ∀ t, 0 < depth n t s.log → (s.shared.obj.mutex (.user n)).tracked b = true →
    (s.shared.obj.mutex (.user n)).owner = some t
  count : ∀ t, 0 < depth n t s.log → (s.shared.obj.mutex (.user n)).attr = some .recursive →
    (s.shared.obj.mutex (.user n)).locks = depth n t s.log
  /-- A thread waits only for a mutex that is held. -/
  queue : (s.shared.obj.mutex (.user n)).held = false →
    s.shared.waits.queue (.mutex (.user n)) = []

variable [Fintype T] {attr : N → Option MutexType} {value count : N → Nat}

/-- The calls of the functions of a mutex of a process are a run of the system that has this mutex
alone, in which the threads have locked the mutex as often. -/
theorem mutex_run {G : Sys T N → Label T (Loc T N) → Prop}
    {G' : Mutex.Sys T → Label T (Mutex.Loc T) → Prop}
    (hdisciplined : ∀ s a, G' s a → Mutex.Disciplined s a)
    (hguard : ∀ s a s₁ s' a', (machine b).Reach G (start attr value count) s → G s a →
      (machine b).Step s a s₁ → (mutexView n).Shows (fun t => Loc.role t) s s' →
      SameDepth n s s' → (mutexView n).Labels s s₁ a a' → G' s' a')
    (hs : (machine b).Reach G (start attr value count) s) :
  ∃ s', (Mutex.machine b).Reach G' (State.idle ⟨Mutex.init (attr n), Waits.empty⟩) s' ∧
    (mutexView n).Shows (fun t => Loc.role t) s s' ∧ SameDepth n s s'
  := by
  have hrun : ∃ s', (Mutex.machine b).Reach G'
      (State.idle ⟨Mutex.init (attr n), Waits.empty⟩) s' ∧
      (mutexView n).Shows (fun t => Loc.role t) s s' ∧ SameDepth n s s' ∧
      ∀ t l k c, s.loc t = some l → (mutexView n).loc t l = some k →
        (mutexView n).Answers ((mutexView n).Waiting (fun t => Loc.role t) s) t l
          ((machine b).step t l c s.shared) ((Mutex.machine b).step t k c s'.shared) := by
    apply (mutexView_fits b n).run_keeping (Mutex.conforms b) _ (fun _ => Inv.of_reach) _ _ hs
    · intro t
      rfl
    · intro s a s₁ s' a' hs hG hstep _ hsees hdepth hlabels
      apply hguard s a s₁ s' a' hs hG hstep hsees hdepth hlabels
    · intro s a s₁ s' s₁' e es hs hstep hs' hsees hdepth he hes hsee hnext
      apply hdepth.step (Relockable.of_reach hs) (hs'.mono hdisciplined) hsees hstep he hes hsee
        hnext
  obtain ⟨s', hs', hsees, hdepth, -⟩ := hrun
  use s', hs', hsees, hdepth

omit [Fintype T] in
/-- The guard of a mutex in a process is the one of the mutex alone. -/
theorem MutexDisciplined.alone {c : Bool} (h : MutexDisciplined n s (.act t c))
    (hsees : (mutexView n).Shows (fun t => Loc.role t) s s') (hdepth : SameDepth n s s') :
  Mutex.Disciplined s' (.act t c)
  := by
  have hloc : (s.loc t).bind (Loc.onMutex n) = s'.loc t := (hsees.loc t).symm
  have hobj : s.shared.obj.mutex (.user n) = s'.shared.obj := hsees.obj.symm
  simp only [MutexDisciplined, hloc, hobj, ← hdepth t] at h
  exact h

/-- Mutual exclusion in a process: each mutex belongs to at most one thread at a time, whatever
other objects the threads use, whether they wait on condition variables with it, and however they
are cancelled, as long as no call is given up. -/
theorem mutexes_exclude
    (hs : (callExitMachine b).Reach (fun s a => Undisturbed s a ∧ MutexDisciplined n s a)
      (start attr value count) s) :
  MutexKept b n s
  := by
  have hs := reach_iff_undisturbed.mp hs
  obtain ⟨s', hs', hsees, hdepth⟩ : ∃ s', (Mutex.machine b).Reach Mutex.Disciplined
      (State.idle ⟨Mutex.init (attr n), Waits.empty⟩) s' ∧
      (mutexView n).Shows (fun t => Loc.role t) s s' ∧ SameDepth n s s' := by
    apply mutex_run (fun _ _ h => h) _ hs
    intro s a s₁ s' a' _ hG _ hsees hdepth hlabels
    cases hlabels with
    | call hk => exact ⟨trivial, trivial⟩
    | enter hplace hplace' => exact ⟨trivial, trivial⟩
    | act hplace => apply hG.alone hsees hdepth
  have hobj : s'.shared.obj = s.shared.obj.mutex (.user n) := hsees.obj
  have hqueue : s'.shared.waits.queue () = s.shared.waits.queue (.mutex (.user n)) :=
    hsees.waits.queue ()
  have hholder : ∀ t, 0 < depth n t s.log →
      Mutex.tally s'.shared.obj.attr (Mutex.depth t s'.log) ≠ 0 ∧ s'.shared.obj.held = true ∧
        Mutex.Holder b s' t := by
    intro t ht
    rw [← hdepth t] at ht
    apply Mutex.holder_of_locked hs' ht
  constructor
  · intro t u ht hu
    by_contra hne
    apply (hholder t ht).1 ((hholder u hu).2.2.others t hne).2
  · intro t ht
    rw [← hobj]
    apply (hholder t ht).2.1
  · intro t ht htracked
    rw [← hobj] at htracked ⊢
    obtain ⟨htally, -, hh⟩ := hholder t ht
    rcases hh.owner htracked with howner | ⟨-, -, hnone⟩
    · apply howner
    · apply absurd hnone htally
  · intro t ht hrec
    rw [← hobj] at hrec ⊢
    obtain ⟨htally, -, hh⟩ := hholder t ht
    have hnot : Mutex.handed t s'.log = false := by
      by_contra hhanded
      rw [Bool.not_eq_false] at hhanded
      apply htally (hh.chosen hhanded).1
    have hlt := Mutex.depth_lt_of_reach hs' (by rw [← Mutex.attr_of_reach hs', hrec]) t
    rw [← (hh.kept hnot).1 hrec, Nat.mod_eq_of_lt hlt, hdepth t]
  · intro hfree
    rw [← hobj] at hfree
    rw [← hqueue]
    apply ((Mutex.owned_of_reach (fun _ _ => Mutex.Disciplined.lawful) hs').free hfree).queue

/-- The thread `0` waits on a condition variable with a mutex, which the thread `1` locks to signal
it, and has locked the mutex again. -/
theorem mutexes_exclude_signalled :
  ∃ s, (callExitMachine .debug).Reach (fun s a => Undisturbed s a ∧ MutexDisciplined () s a)
      (start (T := Fin 2) (N := Unit) (fun _ => some .errorcheck) (fun _ => 0) (fun _ => 1)) s ∧
    s.loc 0 = none ∧ 0 < depth () 0 s.log ∧
    (s.shared.obj.mutex (.user ())).owner = some 0 ∧ MutexKept .debug () s
  := by
  obtain ⟨s, hs, hp⟩ := Machine.exists_reach_of_run (M := callExitMachine .debug)
    (G := fun s a => Undisturbed s a ∧ MutexDisciplined () s a)
    (s := start (T := Fin 2) (N := Unit) (fun _ => some .errorcheck) (fun _ => 0) (fun _ => 1))
    [.call 0 (.mutex () (.lock (.start none))), .act 0 false,
      .call 0 (.condWait () () (.start none)), .act 0 false, .act 0 false, .act 0 false,
      .act 0 false, .act 0 false, .call 1 (.mutex () (.lock (.start none))), .act 1 false,
      .call 1 (.condSignal () .start), .act 1 false, .act 1 false,
      .call 1 (.mutex () (.unlock .start)), .act 1 false, .act 0 false, .act 0 false,
      .act 0 false, .act 0 false, .act 0 false, .act 0 false]
    (fun s => decide (s.loc 0 = none) && decide (0 < depth () 0 s.log) &&
      decide ((s.shared.obj.mutex (.user ())).owner = some 0)) (by decide +kernel)
  simp only [Bool.and_eq_true, decide_eq_true_eq] at hp
  use s, hs, hp.1.1, hp.1.2, hp.2
  apply mutexes_exclude hs

end Process

end LibPthread
