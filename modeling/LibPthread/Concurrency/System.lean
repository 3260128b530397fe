import Mathlib.Logic.Function.Basic
import Mathlib.Tactic.Simps.Basic
import Mathlib.Tactic.Use

/-!
# Systems of threads over a shared state

A machine describes functions that threads call on a shared state `σ`: at each control
point `l : Loc`, one atomic step of the calling thread. The states of the system record
the shared state, the control point of every thread inside a call, and the log of the
steps taken so far. The log is a history variable: no step reads it.

A run is a sequence of labels, each either a call by a thread outside any call or one step
of a thread inside a call. The labels a run may take are restricted by a guard on the state
before the step, so that `Reach M G s₀` are the states reached from `s₀` by runs all of
whose steps meet `G`.
-/

namespace Concurrency

/-- What one atomic step of a thread at a control point does: it waits (`spin`), it fails
an assertion (`fault`), it moves to another control point, or the call returns. -/
inductive Outcome (σ Loc Ret : Type) where
  | spin
  | fault
  | goto (s : σ) (l : Loc)
  | ret (s : σ) (r : Ret)

namespace Outcome

variable {σ σ' Loc Loc' Ret Ret' : Type}

/-- The outcome of a step of a called function, as a step of its caller: `f` embeds the
shared state and `g` the control points of the callee, and `k` continues with the value it
returns. -/
def lift (f : σ → σ') (g : Loc → Loc') (k : σ' → Ret → Outcome σ' Loc' Ret') :
    Outcome σ Loc Ret → Outcome σ' Loc' Ret'
  | .spin => .spin
  | .fault => .fault
  | .goto s l => .goto (f s) (g l)
  | .ret s r => k (f s) r

variable {f : σ → σ'} {g : Loc → Loc'} {k : σ' → Ret → Outcome σ' Loc' Ret'}

theorem lift_eq_goto_iff {o : Outcome σ Loc Ret} {s' : σ'} {l' : Loc'} :
  o.lift f g k = .goto s' l' ↔
    (∃ s l, o = .goto s l ∧ f s = s' ∧ g l = l') ∨ ∃ s r, o = .ret s r ∧ k (f s) r = .goto s' l'
  := by
  cases o <;> grind [lift]

theorem lift_eq_ret_iff {o : Outcome σ Loc Ret} {s' : σ'} {r' : Ret'} :
  o.lift f g k = .ret s' r' ↔ ∃ s r, o = .ret s r ∧ k (f s) r = .ret s' r'
  := by
  cases o <;> grind [lift]

theorem lift_eq_fault_iff {o : Outcome σ Loc Ret} :
  o.lift f g k = .fault ↔ o = .fault ∨ ∃ s r, o = .ret s r ∧ k (f s) r = .fault
  := by
  cases o <;> grind [lift]

end Outcome

/-- The functions of a shared object. `entry` holds of the control points at which a call
starts; the Boolean argument of `step` is `true` when the step is the expiry of a
time-out. -/
structure Machine (T σ Loc Ret : Type) where
  entry : Loc → Bool
  step : T → Loc → Bool → σ → Outcome σ Loc Ret

/-- The steps recorded in the log of a run. -/
inductive Event (T Loc Ret : Type) where
  | call (t : T) (l : Loc)
  | goto (t : T) (l l' : Loc)
  | ret (t : T) (l : Loc) (r : Ret)

/-- A state of the system: the shared state, the control point of each thread (`none` for
a thread outside any call), and the steps taken so far, the latest first. -/
structure State (T σ Loc Ret : Type) where
  shared : σ
  loc : T → Option Loc
  log : List (Event T Loc Ret)

/-- The steps the system can be asked to take. -/
inductive Label (T Loc : Type) where
  | call (t : T) (l : Loc)
  | act (t : T) (timeout : Bool)

/-- The thread that takes the step. -/
@[simp]
def Label.thread {T Loc : Type} : Label T Loc → T
  | .call t _ => t
  | .act t _ => t

/-- The step is the expiry of a time-out. -/
def Label.expires {T Loc : Type} : Label T Loc → Bool
  | .call _ _ => false
  | .act _ timeout => timeout

variable {T σ Loc Ret : Type}

namespace State

/-- The state in which no thread is inside a call. -/
@[simps]
def idle (s : σ) : State T σ Loc Ret where
  shared := s
  loc _ := none
  log := []

variable [DecidableEq T]

/-- Thread `t` starts a call at `l`. -/
@[simps]
def call (s : State T σ Loc Ret) (t : T) (l : Loc) : State T σ Loc Ret where
  shared := s.shared
  loc := Function.update s.loc t (some l)
  log := .call t l :: s.log

/-- Thread `t` moves from `l` to `l'`, leaving the shared state `x`. -/
@[simps]
def goto (s : State T σ Loc Ret) (t : T) (l : Loc) (x : σ) (l' : Loc) : State T σ Loc Ret where
  shared := x
  loc := Function.update s.loc t (some l')
  log := .goto t l l' :: s.log

/-- The call of thread `t` returns `r` from `l`, leaving the shared state `x`. -/
@[simps]
def ret (s : State T σ Loc Ret) (t : T) (l : Loc) (x : σ) (r : Ret) : State T σ Loc Ret where
  shared := x
  loc := Function.update s.loc t none
  log := .ret t l r :: s.log

end State

variable [DecidableEq T]

namespace Machine

/-- The state after the step `a`, if `a` is enabled in `s`. -/
def exec (M : Machine T σ Loc Ret) (s : State T σ Loc Ret) : Label T Loc →
    Option (State T σ Loc Ret)
  | .call t l => if (s.loc t).isNone && M.entry l then some (s.call t l) else none
  | .act t c =>
    match s.loc t with
    | none => none
    | some l =>
      match M.step t l c s.shared with
      | .spin => none
      | .fault => none
      | .goto x l' => some (s.goto t l x l')
      | .ret x r => some (s.ret t l x r)

/-- The steps of the system, one constructor for each kind of step. -/
inductive Step (M : Machine T σ Loc Ret) (s : State T σ Loc Ret) :
    Label T Loc → State T σ Loc Ret → Prop where
  | call {t : T} {l : Loc} (idle : s.loc t = none) (entry : M.entry l = true) :
    Step M s (.call t l) (s.call t l)
  | goto {t : T} {c : Bool} {l l' : Loc} {x : σ} (at_l : s.loc t = some l)
    (step : M.step t l c s.shared = .goto x l') :
    Step M s (.act t c) (s.goto t l x l')
  | ret {t : T} {c : Bool} {l : Loc} {x : σ} {r : Ret} (at_l : s.loc t = some l)
    (step : M.step t l c s.shared = .ret x r) :
    Step M s (.act t c) (s.ret t l x r)

/-- `exec` takes exactly the steps `Step`. -/
theorem exec_eq_some_iff {M : Machine T σ Loc Ret} {s s' : State T σ Loc Ret}
    {a : Label T Loc} :
  M.exec s a = some s' ↔ M.Step s a s'
  := by
  constructor
  · intro h
    cases a with
    | call t l =>
        simp only [exec, Bool.and_eq_true, Option.isNone_iff_eq_none] at h
        split at h
        · rename_i hc
          obtain rfl := Option.some.inj h
          apply Step.call hc.1 hc.2
        · cases h
    | act t c =>
        simp only [exec] at h
        split at h
        · cases h
        · rename_i l hl
          split at h
          · cases h
          · cases h
          · rename_i x l' hx
            obtain rfl := Option.some.inj h
            apply Step.goto hl hx
          · rename_i x r hx
            obtain rfl := Option.some.inj h
            apply Step.ret hl hx
  · rintro (⟨hi, he⟩ | ⟨hl, hx⟩ | ⟨hl, hx⟩)
    · simp [exec, hi, he]
    · simp [exec, hl, hx]
    · simp [exec, hl, hx]

/-- Some thread fails an assertion in its next step. -/
def Faults (M : Machine T σ Loc Ret) (s : State T σ Loc Ret) : Prop :=
  ∃ t l c, s.loc t = some l ∧ M.step t l c s.shared = .fault

/-- The states reached from `s₀` by runs all of whose steps meet the guard `G`. -/
inductive Reach (M : Machine T σ Loc Ret) (G : State T σ Loc Ret → Label T Loc → Prop)
    (s₀ : State T σ Loc Ret) : State T σ Loc Ret → Prop where
  | refl : Reach M G s₀ s₀
  | step {s s' : State T σ Loc Ret} {a : Label T Loc} (before : Reach M G s₀ s)
    (guard : G s a) (step : M.Step s a s') : Reach M G s₀ s'

namespace Reach

variable {M : Machine T σ Loc Ret} {G G' : State T σ Loc Ret → Label T Loc → Prop}
    {s₀ s s' : State T σ Loc Ret}

theorem trans (h : M.Reach G s₀ s) (h' : M.Reach G s s') :
  M.Reach G s₀ s'
  := by
  induction h' with
  | refl => apply h
  | step _ hG hs ih => apply Reach.step ih hG hs

/-- A weaker guard reaches at least as many states. -/
theorem mono (hG : ∀ s a, G s a → G' s a) (h : M.Reach G s₀ s) :
  M.Reach G' s₀ s
  := by
  induction h with
  | refl => apply Reach.refl
  | step _ hg hs ih => apply Reach.step ih (hG _ _ hg) hs

/-- A run is one of another machine, and within another guard, if each of its steps is. -/
theorem transfer {M' : Machine T σ Loc Ret} (h : M.Reach G s₀ s)
    (keep : ∀ s a s', G s a → M.Step s a s' → G' s a ∧ M'.Step s a s') :
  M'.Reach G' s₀ s
  := by
  induction h with
  | refl => apply Reach.refl
  | step _ hg hs ih =>
      obtain ⟨hg', hs'⟩ := keep _ _ _ hg hs
      apply Reach.step ih hg' hs'

/-- The invariant rule: what holds at the start and is kept by every guarded step from a
reached state holds in every reached state. -/
theorem invariant {I : State T σ Loc Ret → Prop} (h : M.Reach G s₀ s) (init : I s₀)
    (keep : ∀ s a s', M.Reach G s₀ s → I s → G s a → M.Step s a s' → I s') :
  I s
  := by
  induction h with
  | refl => apply init
  | step hs hg hst ih => apply keep _ _ _ hs ih hg hst

end Reach

/-! ### Calls that will return -/

/-- The values returned by the calls of `t`, the latest first. -/
def returned (t : T) : List (Event T Loc Ret) → List Ret
  | [] => []
  | .call _ _ :: log => returned t log
  | .goto _ _ _ :: log => returned t log
  | .ret u _ r :: log => if u = t then r :: returned t log else returned t log

/-- The present call of `t` will return `r`: in no guarded run from `s` does it return
anything else, and as long as it has not returned, it still can return `r`. -/
def WillReturn (M : Machine T σ Loc Ret) (G : State T σ Loc Ret → Label T Loc → Prop)
    (s : State T σ Loc Ret) (t : T) (r : Ret) : Prop :=
  ∀ s', M.Reach G s s' →
    (r :: returned t s.log) <:+ returned t s'.log ∨
    (returned t s'.log = returned t s.log ∧
      ∃ s'', M.Reach G s' s'' ∧ returned t s''.log = r :: returned t s.log)

section WillReturn

variable {M : Machine T σ Loc Ret} {G : State T σ Loc Ret → Label T Loc → Prop}
    {s s' : State T σ Loc Ret} {a : Label T Loc} {t : T} {r : Ret}

theorem Step.returned_suffix (h : M.Step s a s') (t : T) :
  returned t s.log <:+ returned t s'.log
  := by
  cases h with
  | call _ _ => apply List.suffix_rfl
  | goto _ _ => apply List.suffix_rfl
  | @ret u c l x r' _ _ =>
      simp only [State.ret_log, returned]
      split
      · apply List.suffix_cons
      · apply List.suffix_rfl

theorem Reach.returned_suffix (h : M.Reach G s s') (t : T) :
  returned t s.log <:+ returned t s'.log
  := by
  induction h with
  | refl => apply List.suffix_rfl
  | step _ _ hstep ih => apply ih.trans (hstep.returned_suffix t)

/-- A call returns nothing but `r` if it stays at control points that satisfy `D`, from which
nothing else is returned. -/
theorem Reach.returned_of_stays {D : Loc → Prop} {l : Loc} (hs : M.Reach G s s')
    (hl : s.loc t = some l) (hD : D l)
    (goto : ∀ l c x x' l', D l → M.step t l c x = .goto x' l' → D l')
    (ret : ∀ l c x x' r', D l → M.step t l c x = .ret x' r' → r' = r) :
  returned t s'.log = returned t s.log ∨ (r :: returned t s.log) <:+ returned t s'.log
  := by
  have hcases : (∃ l, s'.loc t = some l ∧ D l ∧ returned t s'.log = returned t s.log) ∨
      (r :: returned t s.log) <:+ returned t s'.log := by
    apply hs.invariant (I := fun s' => (∃ l, s'.loc t = some l ∧ D l ∧
      returned t s'.log = returned t s.log) ∨ (r :: returned t s.log) <:+ returned t s'.log)
    · left
      use l
    · rintro s₁ a s₂ - (⟨l₁, hl₁, hD₁, hsame⟩ | hdone) - hstep
      · cases hstep with
        | @call u l₂ hidle _ =>
            have hu : t ≠ u := by
              rintro rfl
              simp [hl₁] at hidle
            left
            use l₁
            simpa [hu, returned, hl₁, hD₁] using hsame
        | @goto u c l₂ l₃ x hl₂ h =>
            left
            by_cases hu : t = u
            · subst hu
              obtain rfl : l₁ = l₂ := by simpa [hl₁] using hl₂
              use l₃
              simpa [returned, goto l₁ c s₁.shared x l₃ hD₁ h] using hsame
            · use l₁
              simpa [hu, returned, hl₁, hD₁] using hsame
        | @ret u c l₂ x r' hl₂ h =>
            by_cases hu : t = u
            · subst hu
              obtain rfl : l₁ = l₂ := by simpa [hl₁] using hl₂
              right
              rw [ret l₁ c s₁.shared x r' hD₁ h]
              simp [returned, hsame]
            · left
              use l₁
              have hu' : u ≠ t := Ne.symm hu
              simpa [hu, hu', returned, hl₁, hD₁] using hsame
      · right
        apply hdone.trans (hstep.returned_suffix t)
  rcases hcases with ⟨l, -, -, hsame⟩ | hdone
  · left
    apply hsame
  · right
    apply hdone

/-- A call can return `r` if it is promised `P` until it does, and as long as `P` holds some
guarded step returns `r` or decreases a rank. -/
theorem exists_return_of_rank {P : State T σ Loc Ret → Prop} (rank : State T σ Loc Ret → Nat)
    (keep : ∀ s a s', P s → G s a → M.Step s a s' →
      (P s' ∧ returned t s'.log = returned t s.log) ∨ returned t s'.log = r :: returned t s.log)
    (progress : ∀ s, P s → ∃ a s', G s a ∧ M.Step s a s' ∧
      (returned t s'.log = returned t s.log → rank s' < rank s)) :
  ∀ s, P s → ∃ s', M.Reach G s s' ∧ returned t s'.log = r :: returned t s.log
  := by
  intro s
  induction hn : rank s using Nat.strongRecOn generalizing s with
  | _ n ih =>
      intro hs
      obtain ⟨a, s₁, hG, hstep, hrank⟩ := progress s hs
      rcases keep s a s₁ hs hG hstep with ⟨hs₁, hsame⟩ | hret
      · obtain ⟨s₂, hreach, hret⟩ := ih (rank s₁) (hn ▸ hrank hsame) s₁ rfl hs₁
        use s₂, (Reach.step Reach.refl hG hstep).trans hreach
        rw [hret, hsame]
      · use s₁, Reach.step Reach.refl hG hstep

/-- The rule for calls that will return: `P` holds until the call returns `r`, and as long
as it holds, some guarded step returns `r` or decreases a rank. -/
theorem WillReturn.of_rank {P : State T σ Loc Ret → Prop} (rank : State T σ Loc Ret → Nat)
    (hs : P s)
    (keep : ∀ s a s', P s → G s a → M.Step s a s' →
      (P s' ∧ returned t s'.log = returned t s.log) ∨ returned t s'.log = r :: returned t s.log)
    (progress : ∀ s, P s → ∃ a s', G s a ∧ M.Step s a s' ∧
      (returned t s'.log = returned t s.log → rank s' < rank s)) :
  M.WillReturn G s t r
  := by
  intro s' hreach
  have hcases : (r :: returned t s.log) <:+ returned t s'.log ∨
      (P s' ∧ returned t s'.log = returned t s.log) := by
    apply hreach.invariant (I := fun s' => (r :: returned t s.log) <:+ returned t s'.log ∨
      (P s' ∧ returned t s'.log = returned t s.log))
    · right
      use hs
    · rintro s₁ a s₂ - (hdone | ⟨hP, hsame⟩) hG hstep
      · left
        apply hdone.trans (hstep.returned_suffix t)
      · rcases keep s₁ a s₂ hP hG hstep with ⟨hP', hsame'⟩ | hret
        · right
          use hP'
          rw [hsame', hsame]
        · left
          use []
          rw [List.nil_append, hret, hsame]
  rcases hcases with hdone | ⟨hP, hsame⟩
  · left
    apply hdone
  · right
    obtain ⟨s'', hreach', hret⟩ := exists_return_of_rank rank keep progress s' hP
    use hsame, s'', hreach'
    rw [hret, hsame]

end WillReturn

/-! ### States that can always be reached -/

/-- `Q` comes true in every guarded run from `s` or, as long as it has not, still can. -/
def Leads (M : Machine T σ Loc Ret) (G : State T σ Loc Ret → Label T Loc → Prop)
    (s : State T σ Loc Ret) (Q : State T σ Loc Ret → Prop) : Prop :=
  ∀ s', M.Reach G s s' → Q s' ∨ ∃ s'', M.Reach G s' s'' ∧ Q s''

/-- The rule for `Leads`: `P` holds until `Q` does, `Q` is not undone, and as long as `P`
holds, some guarded step ends it or decreases a rank. -/
theorem Leads.of_rank {M : Machine T σ Loc Ret} {G : State T σ Loc Ret → Label T Loc → Prop}
    {s : State T σ Loc Ret} {P Q : State T σ Loc Ret → Prop} (rank : State T σ Loc Ret → Nat)
    (hs : P s)
    (keep : ∀ s a s', P s → G s a → M.Step s a s' → P s' ∨ Q s')
    (stays : ∀ s a s', Q s → M.Step s a s' → Q s')
    (progress : ∀ s, P s → ∃ a s', G s a ∧ M.Step s a s' ∧ (P s' → rank s' < rank s)) :
  M.Leads G s Q
  := by
  have hcan : ∀ n s, rank s = n → P s → ∃ s', M.Reach G s s' ∧ Q s' := by
    intro n
    induction n using Nat.strongRecOn with
    | _ n ih =>
        intro s hn hs
        obtain ⟨a, s₁, hG, hstep, hrank⟩ := progress s hs
        rcases keep s a s₁ hs hG hstep with hP | hQ
        · obtain ⟨s₂, hreach, hQ⟩ := ih (rank s₁) (hn ▸ hrank hP) s₁ rfl hP
          use s₂, (Reach.step Reach.refl hG hstep).trans hreach
        · use s₁, Reach.step Reach.refl hG hstep
  intro s' hreach
  have hcases : P s' ∨ Q s' := by
    apply hreach.invariant (I := fun s' => P s' ∨ Q s') (.inl hs)
    rintro s₁ a s₂ - (hP | hQ) hG hstep
    · apply keep s₁ a s₂ hP hG hstep
    · right
      apply stays s₁ a s₂ hQ hstep
  rcases hcases with hP | hQ
  · right
    apply hcan _ s' rfl hP
  · left
    apply hQ

/-- Executes the labels in order, refusing those that do not meet the guard. -/
def run (M : Machine T σ Loc Ret) (G : State T σ Loc Ret → Label T Loc → Prop)
    [∀ s a, Decidable (G s a)] :
    State T σ Loc Ret → List (Label T Loc) → Option (State T σ Loc Ret)
  | s, [] => some s
  | s, a :: as =>
    if G s a then
      match M.exec s a with
      | none => none
      | some s' => M.run G s' as
    else none

/-- A guarded execution of labels reaches its last state. -/
theorem reach_of_run (M : Machine T σ Loc Ret) (G : State T σ Loc Ret → Label T Loc → Prop)
    [∀ s a, Decidable (G s a)] (as : List (Label T Loc)) :
    ∀ {s s' : State T σ Loc Ret}, M.run G s as = some s' → M.Reach G s s'
  := by
  induction as with
  | nil =>
      intro s s' h
      obtain rfl := Option.some.inj h
      apply Reach.refl
  | cons a as ih =>
      intro s s' h
      simp only [run] at h
      split at h
      · rename_i hG
        split at h
        · cases h
        · rename_i s₁ hs₁
          apply Reach.trans _ (ih h)
          apply Reach.step Reach.refl hG (exec_eq_some_iff.mp hs₁)
      · cases h

/-- A guarded execution of labels to a state that passes a test. -/
theorem exists_reach_of_run {M : Machine T σ Loc Ret}
    {G : State T σ Loc Ret → Label T Loc → Prop} [∀ s a, Decidable (G s a)]
    {s : State T σ Loc Ret} (as : List (Label T Loc)) (p : State T σ Loc Ret → Bool)
    (h : (M.run G s as).map p = some true) :
  ∃ s', M.Reach G s s' ∧ p s' = true
  := by
  obtain ⟨s', hs', hp⟩ := Option.map_eq_some_iff.mp h
  use s', reach_of_run M G as hs', hp

end Machine

end Concurrency
