import LibPthread.Mutex.Ownership

/-!
# Mutual exclusion

At most one thread holds a mutex, `owner` names the thread to which it was last granted,
and the assertions of the lock functions hold, in every run in which no step makes the
counter `locks` of a recursive mutex wrap around. The counter does wrap around when the
owner of a mutex that it does not hold, because its lock call has timed out, unlocks it.
-/

open Concurrency

namespace LibPthread

namespace Mutex

variable {T : Type} [DecidableEq T]

/-- A normal mutex is unlocked only by a thread that holds it. -/
def HolderUnlocks (s : Sys T) : Label T (Loc T) → Prop
  | .call _ _ => True
  | .act t _ => s.loc t = some (.unlock .start) → s.shared.obj.isNormal = true →
    0 < depth t s.log

/-- The step does not make `locks` wrap around: the owner of a recursive mutex neither
unlocks it when `locks` is `0` nor asks for it when `locks` is `UINT_MAX`. -/
def CountsLocks (s : Sys T) : Label T (Loc T) → Prop
  | .call _ _ => True
  | .act t _ => s.shared.obj.attr = some .recursive → s.shared.obj.owner = some t →
    (s.loc t = some (.unlock .start) → s.shared.obj.locks ≠ 0) ∧
    ((s.loc t).any Loc.request = true → s.shared.obj.locks ≠ 2 ^ 32 - 1)

instance (s : Sys T) (a : Label T (Loc T)) : Decidable (HolderUnlocks s a) :=
  match a with
  | .call _ _ => inferInstanceAs (Decidable True)
  | .act _ _ => inferInstanceAs (Decidable (_ → _ → _))

instance (s : Sys T) (a : Label T (Loc T)) : Decidable (CountsLocks s a) :=
  match a with
  | .call _ _ => inferInstanceAs (Decidable True)
  | .act _ _ => inferInstanceAs (Decidable (_ → _ → _ ∧ _))

/-- The guard under which mutual exclusion holds. -/
def Disciplined (s : Sys T) (a : Label T (Loc T)) : Prop :=
  HolderUnlocks s a ∧ CountsLocks s a

instance (s : Sys T) (a : Label T (Loc T)) : Decidable (Disciplined s a) :=
  inferInstanceAs (Decidable (_ ∧ _))

variable {b : Build} {attr : Option MutexType} {s s' : Sys T} {a : Label T (Loc T)}

theorem Disciplined.lawful (h : Disciplined s a) :
  Lawful s a
  := by
  cases a with
  | call t l => trivial
  | act t c =>
      intro hl
      constructor
      · apply h.1 hl
      · intro hrec hown hzero
        apply absurd hzero ((h.2 hrec hown).1 hl)

/-- The type of the mutex never changes. -/
theorem Effect.attr_eq (h : Effect b s a s') :
  s'.shared.obj.attr = s.shared.obj.attr
  := by
  cases h with
  | grant _ _ _ hgrant => apply hgrant.attr
  | settle _ _ _ hattr => apply hattr
  | release _ _ _ hrel => apply hrel.attr
  | handOver _ _ _ hrel => apply hrel.attr
  | _ => simp

/-- The acquisitions of a recursive mutex fit into `locks`. -/
theorem Effect.depth_lt (ho : Owned b s) (h : Effect b s a s') (hG : CountsLocks s a)
    (hrec : s.shared.obj.attr = some .recursive) (hlt : ∀ t, depth t s.log < 2 ^ 32) (u : T) :
  depth u s'.log < 2 ^ 32
  := by
  have hu := hlt u
  by_cases hne : u = a.thread
  · cases h with
    | @grant t c l mx hl hrequest hfree hgrant =>
        obtain rfl : u = t := hne
        have := ((ho.free hfree).none u).2
        rw [tally, if_pos hrec] at this
        rw [depth_grant (Or.inl hrequest)]
        omega
    | @again t c l hl hrequest hheld _ hown =>
        obtain rfl : u = t := hne
        have hh := (ho.holder_of_owner (tracked_of_recursive hrec) hown).2
        have hlocks := (hh.kept (ho.not_handed hl (Or.inl hrequest))).1 hrec
        have := (hG hrec hown).2 (by simp [hl, hrequest])
        rw [depth_grant (Or.inl hrequest)]
        omega
    | @settle t c mx hl =>
        obtain rfl : u = t := hne
        have hchosen : handed u s.log = true := by
          simpa [Placed, hl] using ho.placed u
        have := ((ho.holder_of_handed hchosen).2.chosen hchosen).1
        rw [tally, if_pos hrec] at this
        rw [depth_grant (Or.inr ⟨_, rfl⟩)]
        omega
    | _ =>
        simp only [State.call_log, State.goto_log, State.ret_log, depth]
        grind
  · rw [(h.other hne).2.1]
    apply hu

/-- With assertions, `owner` of a mutex that is held and tracked is the thread to which the
mutex was last granted. -/
theorem Effect.owner_eq_lastGrant (ho : Owned b s) (h : Effect b s a s')
    (hdebug : b.ndebug = false) (htracked : s.shared.obj.tracked b = true)
    (heq : s.shared.obj.held = true → s.shared.obj.owner = lastGrant s.log)
    (hheld : s'.shared.obj.held = true) :
  s'.shared.obj.owner = lastGrant s'.log
  := by
  cases h with
  | @grant t c l mx hl hrequest hfree hgrant =>
      simp [lastGrant, hrequest, hgrant.owner htracked]
  | again hl hrequest _ _ hown => simp [lastGrant, hrequest, hown]
  | @settle t c mx hl hmx hlock hattr howner =>
      have hchosen : handed t s.log = true := by
        simpa [Placed, hl] using ho.placed t
      have := (ho.holder_of_handed hchosen).2.owner htracked
      have := heq (hmx ▸ hheld)
      have := howner htracked
      simp_all [lastGrant, Loc.request]
  | @handOver t u c mx rest hl hfirst hmx hrel =>
      have := hrel.owner htracked
      simp_all [lastGrant]
  | release _ _ hfree => simp_all
  | _ => simp_all [lastGrant, Loc.request]

variable [Fintype T]

theorem attr_of_reach {G : Sys T → Label T (Loc T) → Prop}
    (hs : (machine b).Reach G (State.idle ⟨Mutex.init attr, Waits.empty⟩) s) :
  s.shared.obj.attr = attr
  := by
  apply hs.invariant (I := fun s => s.shared.obj.attr = attr)
  · rfl
  · intro s a s' hreach hattr _ hstep
    rw [(effect_of_step (sound_of_reach hreach) hstep).attr_eq, hattr]

theorem depth_lt_of_reach
    (hs : (machine b).Reach Disciplined (State.idle ⟨Mutex.init attr, Waits.empty⟩) s)
    (hrec : attr = some .recursive) :
  ∀ t, depth t s.log < 2 ^ 32
  := by
  apply hs.invariant (I := fun s => ∀ t, depth t s.log < 2 ^ 32)
  · simp [depth]
  · intro s a s' hreach hlt hG hstep
    apply (effect_of_step (sound_of_reach hreach) hstep).depth_lt
    · apply owned_of_reach (fun _ _ => Disciplined.lawful) hreach
    · apply hG.2
    · rw [attr_of_reach hreach, hrec]
    · apply hlt

theorem owner_of_reach
    (hs : (machine b).Reach Disciplined (State.idle ⟨Mutex.init attr, Waits.empty⟩) s)
    (hdebug : b.ndebug = false) (htracked : (init attr : Mutex T).tracked b = true) :
  s.shared.obj.held = true → s.shared.obj.owner = lastGrant s.log
  := by
  apply hs.invariant (I := fun s => s.shared.obj.held = true →
    s.shared.obj.owner = lastGrant s.log)
  · simp [Mutex.init]
  · intro s a s' hreach heq hG hstep
    apply (effect_of_step (sound_of_reach hreach) hstep).owner_eq_lastGrant
    · apply owned_of_reach (fun _ _ => Disciplined.lawful) hreach
    · apply hdebug
    · rw [← htracked]
      apply tracked_congr (attr_of_reach hreach)
    · apply heq

omit [Fintype T] in
/-- With assertions, `owner` is set exactly when the mutex is held. -/
theorem Owned.isSome_owner (ho : Owned b s) (hdebug : b.ndebug = false)
    (htracked : s.shared.obj.tracked b = true) :
  s.shared.obj.owner.isSome = s.shared.obj.held
  := by
  cases hheld : s.shared.obj.held with
  | false => simp [(ho.free hheld).owner htracked]
  | true =>
      obtain ⟨h, hh⟩ := ho.taken hheld
      have := hh.owner htracked
      simp_all

/-- With assertions, no assertion of the lock and trylock functions fails for a mutex that
is not normal. -/
theorem Owned.lock_ne_fault (ho : Owned b s)
    (hsound : Sound (fun _ => False) (roles (fun _ => Loc.role ()) s) s.shared.waits)
    (hdebug : b.ndebug = false)
    (hchecked : s.shared.obj.isNormal = false) {t : T} {c : Bool} {l : Loc T}
    (hl : s.loc t = some l) (hpath : ∀ l', l ≠ .unlock l') :
  (machine b).step t l c s.shared ≠ .fault
  := by
  have htracked : s.shared.obj.tracked b = true := by
    simp [tracked, hchecked]
  have hsome := ho.isSome_owner hdebug htracked
  cases l with
  | lock l =>
      simp only [machine, step, ne_eq, Outcome.lift_eq_fault_iff]
      rintro (h | ⟨_, _, _, h⟩)
      · cases l with
        | start abstime =>
            apply lockStart_ne_fault hchecked hsome _ h
            apply (hsound.outside t _).1
            simp [roles, hl, Loc.role, LockLoc.phase]
        | wait st =>
            simp only [lockStep, Outcome.lift_eq_fault_iff] at h
            rcases h with h | ⟨_, _, _, h⟩
            · apply waitStep_ne_fault h
            · cases h
        | finish err =>
            cases err with
            | true => simp [lockStep, lockFinish] at h
            | false =>
                have hchosen : handed t s.log = true := by
                  simpa [Placed, hl] using ho.placed t
                have hh := (ho.holder_of_handed hchosen).2
                apply lockFinish_ne_fault _ (hh.chosen hchosen).2 h
                intro _ _
                have := hh.owner htracked
                simp_all
      · cases h
  | trylock =>
      apply trylock_ne_fault
      intro hfree
      apply (ho.free hfree).owner htracked
  | unlock l => apply absurd rfl (hpath l)

/-- Mutual exclusion with hand-off, for any number of threads: in every reachable state at
most one thread holds the mutex. If the mutex is not normal and assertions are enabled,
`owner` is set exactly when the mutex is held and is then the thread to which it was last
granted, an unlock by another thread returns `EPERM` and changes nothing, and no assertion
in the lock path fails. -/
theorem mutual_exclusion
    (hs : (machine b).Reach Disciplined (State.idle ⟨Mutex.init attr, Waits.empty⟩) s) :
  (∀ t u, 0 < depth t s.log → 0 < depth u s.log → t = u) ∧
    (b.ndebug = false → attr = some .errorcheck ∨ attr = some .recursive →
      s.shared.obj.owner.isSome = s.shared.obj.held ∧
      (s.shared.obj.held = true → s.shared.obj.owner = lastGrant s.log) ∧
      (∀ t c, s.shared.obj.lock = false → s.shared.obj.owner ≠ some t →
        (machine b).step t (.unlock .start) c s.shared = .ret s.shared (.error .EPERM)) ∧
      (∀ t c l, s.loc t = some l → (∀ l', l ≠ .unlock l') →
        (machine b).step t l c s.shared ≠ .fault))
  := by
  have ho := owned_of_reach (fun _ _ => Disciplined.lawful) hs
  have hattr := attr_of_reach hs
  constructor
  · intro t u ht hu
    have htally : ∀ v, 0 < depth v s.log → tally s.shared.obj.attr (depth v s.log) ≠ 0 := by
      intro v hv
      rw [tally]
      split
      · have := depth_lt_of_reach hs (by simp_all) v
        omega
      · omega
    by_contra hne
    have hh := (ho.holder_of_depth (htally t ht)).2
    apply htally u hu (hh.others u (Ne.symm hne)).2
  · intro hdebug hchecked
    have hnormal : s.shared.obj.isNormal = false := by
      rw [isNormal, hattr]
      rcases hchecked with rfl | rfl
      · rfl
      · rfl
    have htracked : s.shared.obj.tracked b = true := by
      simp [tracked, hnormal]
    use ho.isSome_owner hdebug htracked
    constructor
    · apply owner_of_reach hs hdebug
      rw [← htracked]
      apply tracked_congr hattr.symm
    · constructor
      · intro t c hlock hforeign
        simp only [machine, step, unlockStep, unlockStart_of_not_owner hlock hnormal hforeign]
        rfl
      · intro t c l hl hpath
        apply ho.lock_ne_fault (sound_of_reach hs) hdebug hnormal hl hpath

/-! ### The counter wraps around -/

/-- Thread `1` unlocks the mutex, acquires it twice and unlocks it once, and thread `0`
acquires it. -/
def wrapping {T : Type} (t u : T) : List (Label T (Loc T)) :=
  [.call u (.unlock .start), .act u false,
   .call u (.lock (.start none)), .act u false,
   .call u (.lock (.start none)), .act u false,
   .call u (.unlock .start), .act u false,
   .call t .trylock, .act t false]

/-- Mutual exclusion after a disciplined run: the thread that timed out is the owner. -/
theorem mutual_exclusion_crossing :
  ∃ s, (machine Build.debug).Reach Disciplined
      (State.idle ⟨Mutex.init (some .recursive), Waits.empty⟩) s ∧
    s.shared.obj.owner = some 1 ∧ lastGrant s.log = some 1 ∧
    ∀ t u : Fin 2, 0 < depth t s.log → 0 < depth u s.log → t = u
  := by
  obtain ⟨s, hs, hp⟩ := Machine.exists_reach_of_run (M := machine Build.debug) (G := Disciplined)
    (s := State.idle ⟨Mutex.init (some .recursive), Waits.empty⟩) (crossing (0 : Fin 2) 1)
    (fun s => s.shared.obj.held ∧ s.shared.obj.owner = some 1) (by decide +kernel)
  simp only [decide_eq_true_eq] at hp
  obtain ⟨hexcl, hchecked⟩ := mutual_exclusion hs
  have howner := (hchecked rfl (Or.inr rfl)).2.1 hp.1
  use s, hs, hp.2, howner ▸ hp.2

/-- Two threads hold a recursive mutex whose counter has wrapped around. -/
theorem two_holders_wrapping :
  ∃ s, (machine Build.debug).Reach HolderUnlocks
      (State.idle ⟨Mutex.init (some .recursive), Waits.empty⟩) s ∧
    0 < depth (0 : Fin 2) s.log ∧ 0 < depth (1 : Fin 2) s.log
  := by
  obtain ⟨s, hs, hp⟩ := Machine.exists_reach_of_run (M := machine Build.debug)
    (G := HolderUnlocks) (s := State.idle ⟨Mutex.init (some .recursive), Waits.empty⟩)
    (crossing (0 : Fin 2) 1 ++ wrapping 0 1)
    (fun s => 0 < depth (0 : Fin 2) s.log ∧ 0 < depth (1 : Fin 2) s.log) (by decide +kernel)
  use s, hs
  simpa using hp

end Mutex

end LibPthread
