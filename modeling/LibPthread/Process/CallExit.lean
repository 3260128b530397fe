import LibPthread.Process.Exclusion

/-!
# Threads that go on in `call_exit`

A thread that has been redirected goes on in `call_exit`, which calls `pthread_exit`, wherever it
was. A call it was in is given up: its link, the wakeups under way to it and those it still has to
send, its hook and the locks it holds stay as they are. The cleanup handlers and destructors that it
runs next make calls of their own.

The runs in which no call is given up are the runs of `machine`. The invariant of these runs also
holds where the calls that are given up leave nothing behind that another thread relies on.
-/

open Concurrency

namespace LibPthread

namespace Process

variable {T N : Type} [DecidableEq T] [DecidableEq N]

/-- One step of a thread. A thread that was redirected inside a call leaves it for `call_exit`. -/
def callExitStep (b : Build) (self : T) (l : Loc T N) (timeout : Bool) (s : Shared T N) :
    Outcome (Shared T N) (Loc T N) Ret :=
  if s.obj.redirected self ∧ l.entry = false then .ret (Shared.resume self s) .canceled
  else stepInside b self l timeout (Shared.resume self s)

/-- The functions of a process, and `call_exit`. -/
def callExitMachine (b : Build) : Machine T (Shared T N) (Loc T N) Ret where
  entry := Loc.entry
  step := callExitStep b

/-- The thread has been redirected inside a call, which it has not left yet. -/
def RedirectedInside (s : Sys T N) (t : T) : Prop :=
  s.shared.obj.redirected t = true ∧ ∃ l ∈ s.loc t, l.entry = false

instance (s : Sys T N) (t : T) : Decidable (RedirectedInside s t) :=
  inferInstanceAs (Decidable (_ ∧ ∃ l ∈ s.loc t, l.entry = false))

/-- The step does not give up a call. -/
def Undisturbed (s : Sys T N) (a : Label T (Loc T N)) : Prop :=
  ¬ RedirectedInside s a.thread

instance (s : Sys T N) (a : Label T (Loc T N)) : Decidable (Undisturbed s a) :=
  inferInstanceAs (Decidable (¬ _))

/-! ### Runs in which no call is given up -/

section Runs

variable {b : Build} {G : Sys T N → Label T (Loc T N) → Prop} {s s₀ s' : Sys T N}
    {a : Label T (Loc T N)} {t : T} {l : Loc T N} {timeout : Bool}

theorem callExitStep_eq (hl : s.loc t = some l) (h : ¬ RedirectedInside s t) :
  callExitStep b t l timeout s.shared = step b t l timeout s.shared
  := by
  have hcond : ¬ (s.shared.obj.redirected t = true ∧ l.entry = false) := fun hinside =>
    h ⟨hinside.1, l, hl, hinside.2⟩
  rw [callExitStep, step, if_neg hcond, if_neg hcond]

theorem step_eq_spin (hl : s.loc t = some l) (h : RedirectedInside s t) :
  step b t l timeout s.shared = .spin
  := by
  obtain ⟨hredirected, l', hl', hinside⟩ := h
  obtain rfl : l = l' := by simpa [hl] using hl'
  rw [step, if_pos ⟨hredirected, hinside⟩]

theorem callExitStep_eq_goto {x x' : Shared T N} {l' : Loc T N}
    (h : callExitStep b t l timeout x = .goto x' l') :
  stepInside b t l timeout (Shared.resume t x) = .goto x' l'
  := by
  rw [callExitStep] at h
  split at h
  · cases h
  · apply h

theorem callExitStep_eq_ret {x x' : Shared T N} {r : Ret}
    (h : callExitStep b t l timeout x = .ret x' r) :
  r = .canceled ∨ stepInside b t l timeout (Shared.resume t x) = .ret x' r
  := by
  rw [callExitStep] at h
  split at h
  · cases h
    left
    rfl
  · right
    apply h

/-- A step that does not give up a call is one inside a call. -/
theorem step_of_undisturbed (hG : Undisturbed s a) (h : (callExitMachine b).Step s a s') :
  (machine b).Step s a s'
  := by
  cases h with
  | call hidle hentry => exact Machine.Step.call hidle hentry
  | goto hl hstep => apply Machine.Step.goto hl ((callExitStep_eq hl hG).symm.trans hstep)
  | ret hl hstep => apply Machine.Step.ret hl ((callExitStep_eq hl hG).symm.trans hstep)

theorem undisturbed_of_step (h : (machine b).Step s a s') :
  Undisturbed s a ∧ (callExitMachine b).Step s a s'
  := by
  have hG : Undisturbed s a := by
    intro hinside
    cases h with
    | call hidle _ =>
        obtain ⟨-, l, hl, -⟩ := hinside
        simp [hidle] at hl
    | goto hl hstep => cases (step_eq_spin hl hinside).symm.trans hstep
    | ret hl hstep => cases (step_eq_spin hl hinside).symm.trans hstep
  use hG
  cases h with
  | call hidle hentry => exact Machine.Step.call hidle hentry
  | goto hl hstep => apply Machine.Step.goto hl ((callExitStep_eq hl hG).trans hstep)
  | ret hl hstep => apply Machine.Step.ret hl ((callExitStep_eq hl hG).trans hstep)

/-- The runs of the threads inside their calls are the runs in which no call is given up. -/
theorem reach_iff_undisturbed :
  (callExitMachine b).Reach (fun s a => Undisturbed s a ∧ G s a) s₀ s ↔ (machine b).Reach G s₀ s
  := by
  constructor
  · intro h
    apply h.transfer
    intro s a s' hG hstep
    use hG.2, step_of_undisturbed hG.1 hstep
  · intro h
    apply h.transfer
    intro s a s' hG hstep
    obtain ⟨hundisturbed, hstep⟩ := undisturbed_of_step hstep
    use ⟨hundisturbed, hG⟩

theorem reach_of_undisturbed (h : (callExitMachine b).Reach Undisturbed s₀ s) :
  (machine b).Reach (fun _ _ => True) s₀ s
  := by
  apply reach_iff_undisturbed.mp
  apply h.mono
  intro s a hG
  use hG

end Runs

/-! ### Calls that are given up -/

/-- The thread is about to run a hook. -/
def Loc.runsHook : Loc T N → Bool
  | .cancel _ (.hook _) => true
  | _ => false

/-- A thread at this control point is on no queue, with no wakeup under way to it and none to send,
and it has installed no hook, nor is it about to run one. -/
structure Loc.Free (t : T) (l : Loc T N) : Prop where
  phase : (l.role t).phase = .out
  owes : (l.role t).owes = []
  walk : (l.role t).walk = []
  hook : l.hooked = none
  runs : l.runsHook = false

instance (t : T) (l : Loc T N) : Decidable (l.Free t) :=
  decidable_of_iff ((l.role t).phase = .out ∧ (l.role t).owes = [] ∧
      (l.role t).walk = [] ∧ l.hooked = none ∧ l.runsHook = false)
    ⟨fun ⟨hphase, howes, hwalk, hhook, hruns⟩ => ⟨hphase, howes, hwalk, hhook, hruns⟩,
      fun h => ⟨h.phase, h.owes, h.walk, h.hook, h.runs⟩⟩

/-- A call is given up only where this leaves nothing behind. -/
def GivesUpFree (s : Sys T N) (a : Label T (Loc T N)) : Prop :=
  RedirectedInside s a.thread → ∀ l ∈ s.loc a.thread, l.Free a.thread

instance (s : Sys T N) (a : Label T (Loc T N)) : Decidable (GivesUpFree s a) :=
  inferInstanceAs (Decidable (_ → ∀ l ∈ s.loc a.thread, _))

omit [DecidableEq T] [DecidableEq N] in
theorem Loc.Free.role_eq {t : T} {l : Loc T N} (h : l.Free t) :
  l.role t = .idle
  := by
  have hrole : l.role t = ⟨(l.role t).phase, (l.role t).owes, (l.role t).walk⟩ := rfl
  rw [hrole, h.phase, h.owes, h.walk]
  rfl

section Kept

variable {b : Build} {s s' : Sys T N} {a : Label T (Loc T N)} {t u : T} {l : Loc T N}

/-- The state in which `t` has given up its call. -/
def giveUp (s : Sys T N) (t : T) (l : Loc T N) : Sys T N :=
  s.ret t l (Shared.resume t s.shared) .canceled

/-- A step of a process is one inside a call, or a call is given up. -/
theorem callExit_cases (h : (callExitMachine b).Step s a s') :
  (machine b).Step s a s' ∨
    ∃ l, s.loc a.thread = some l ∧ RedirectedInside s a.thread ∧ s' = giveUp s a.thread l
  := by
  by_cases hinside : RedirectedInside s a.thread
  · right
    obtain ⟨hredirected, l, hl, hentry⟩ := id hinside
    use l, hl, hinside
    have hstep : ∀ timeout, callExitStep b a.thread l timeout s.shared =
        .ret (Shared.resume a.thread s.shared) .canceled := by
      intro timeout
      rw [callExitStep, if_pos ⟨hredirected, hentry⟩]
    cases h with
    | call hidle _ => simp [hidle] at hl
    | @goto t c l₁ _ _ hl₁ h =>
        obtain rfl : l₁ = l := by simpa [hl₁] using hl
        cases (hstep c).symm.trans h
    | @ret t c l₁ x r hl₁ h =>
        obtain rfl : l₁ = l := by simpa [hl₁] using hl
        cases (hstep c).symm.trans h
        rfl
  · left
    apply step_of_undisturbed hinside h

omit [DecidableEq N] in
theorem giveUp_loc_of_ne (hu : u ≠ t) :
  (giveUp s t l).loc u = s.loc u
  := Function.update_of_ne hu _ _

omit [DecidableEq N] in
theorem giveUp_loc_self :
  (giveUp s t l).loc t = none
  := Function.update_self _ _ _

omit [DecidableEq N] in
/-- Whoever is at a control point after a call has been given up was there before. -/
theorem loc_of_giveUp {k : Loc T N} (h : (giveUp s t l).loc u = some k) :
  u ≠ t ∧ s.loc u = some k
  := by
  have hu : u ≠ t := by
    rintro rfl
    simp [giveUp_loc_self] at h
  use hu
  rw [← h, giveUp_loc_of_ne hu]

omit [DecidableEq N] in
theorem roles_giveUp (hl : s.loc t = some l) (hfree : l.Free t) :
  roles (fun t => Loc.role t) (giveUp s t l) = roles (fun t => Loc.role t) s
  := by
  funext u
  by_cases hu : u = t
  · subst hu
    simp [roles, giveUp_loc_self, hl, hfree.role_eq]
  · rw [roles, roles, giveUp_loc_of_ne hu]

omit [DecidableEq N] in
theorem hooked_giveUp (hl : s.loc t = some l) (hfree : l.Free t) (u : T) :
  hooked (giveUp s t l) u = hooked s u
  := by
  by_cases hu : u = t
  · subst hu
    simp [hooked, giveUp_loc_self, hl, hfree.hook]
  · rw [hooked, hooked, giveUp_loc_of_ne hu]

omit [DecidableEq N] in
theorem hooking_giveUp (hl : s.loc t = some l) (hfree : l.Free t) (u : T) :
  Hooking (giveUp s t l) u ↔ Hooking s u
  := by
  constructor
  · rintro ⟨x, c, hx⟩
    use x, c, (loc_of_giveUp hx).2
  · rintro ⟨x, c, hx⟩
    have hne : x ≠ t := by
      rintro rfl
      obtain rfl : l = .cancel u (.hook c) := by simpa [hl] using hx
      cases hfree.runs
    use x, c
    rw [giveUp_loc_of_ne hne, hx]

omit [DecidableEq N] in
theorem owns_of_giveUp {x : T} (h : Owns (giveUp s t l) u x) :
  Owns s u x
  := by
  have hx : x ≠ t := by
    rintro rfl
    simp [Owns, grip, giveUp_loc_self, Grip.owns] at h
  rw [Owns, grip, giveUp_loc_of_ne hx] at h
  apply h

omit [DecidableEq N] in
theorem records_of_giveUp {x : T} (h : Records (giveUp s t l) u x) :
  Records s u x
  := by
  obtain ⟨k, hk, hrec⟩ := h
  use k, (loc_of_giveUp hk).2

variable [Fintype T]

omit [DecidableEq N] in
/-- A call that leaves nothing behind may be given up. -/
theorem Inv.giveUp (h : Inv s) (hl : s.loc t = some l) (hfree : l.Free t) :
  Inv (giveUp s t l)
  := by
  constructor
  · rw [roles_giveUp hl hfree]
    apply h.sound
  · intro u
    refine ⟨(h.plain u).attr, (h.plain u).lock, ?_⟩
    intro x k hk
    have hx : x ≠ t := by
      rintro rfl
      simp [grip, giveUp_loc_self] at hk
    rw [grip, giveUp_loc_of_ne hx] at hk
    apply (h.plain u).untimed x k hk
  · intro u
    rw [hooked_giveUp hl hfree]
    apply h.hook u
  · intro u c hhooked
    rw [hooked_giveUp hl hfree] at hhooked
    apply h.deferred u c hhooked
  · intro u x hx
    apply h.pending u x (records_of_giveUp hx)
  · intro u x y hx hy
    apply h.recorder u x y (records_of_giveUp hx) (records_of_giveUp hy)
  · intro u x c hx
    rw [hooked_giveUp hl hfree]
    apply h.hooking u x c (loc_of_giveUp hx).2
  · intro u hunspoilt
    rw [Unspoilt, hooking_giveUp hl hfree] at hunspoilt
    have hexcl := h.exclusive u hunspoilt
    constructor
    · intro hheld
      obtain ⟨hempty, hnone⟩ := hexcl.free hheld
      use hempty
      intro x hx
      apply hnone x (owns_of_giveUp hx)
    · intro x y hx hy
      apply hexcl.unique x y (owns_of_giveUp hx) (owns_of_giveUp hy)
  · intro u c hmem hpending
    rw [hooking_giveUp hl hfree]
    apply h.quiet u c hmem hpending

/-- The invariant holds in all runs in which the calls that are given up leave nothing behind. -/
theorem Inv.of_reach_free {attr : N → Option MutexType} {value count : N → Nat}
    {G : Sys T N → Label T (Loc T N) → Prop} (hG : ∀ s a, G s a → GivesUpFree s a)
    (hs : (callExitMachine b).Reach G (start attr value count) s) :
  Inv s
  := by
  apply hs.invariant Inv.init
  intro s a s' _ h hguard hstep
  rcases callExit_cases hstep with hinside | ⟨l, hl, hredirected, rfl⟩
  · apply h.step hinside
  · apply h.giveUp hl (hG s a hguard hredirected l hl)

end Kept

end Process

end LibPthread
