import LibPthread.Concurrency.Wakeup

/-!
# States at rest

A state is at rest when no thread inside a call can go on, except by a time-out. In such a state
of the wakeup protocol no message is on its way, so the threads that wait are on the queues.
-/

namespace Concurrency

theorem Outcome.lift_eq_spin_iff {σ σ' Loc Loc' Ret Ret' : Type} {f : σ → σ'} {g : Loc → Loc'}
    {k : σ' → Ret → Outcome σ' Loc' Ret'} {o : Outcome σ Loc Ret} :
  o.lift f g k = .spin ↔ o = .spin ∨ ∃ s r, o = .ret s r ∧ k (f s) r = .spin
  := by
  cases o <;> simp [lift]

/-- The step waits. -/
def Outcome.isSpin {σ Loc Ret : Type} : Outcome σ Loc Ret → Bool
  | .spin => true
  | _ => false

namespace Machine

variable {T σ Loc Ret : Type} [DecidableEq T]

/-- No thread inside a call can take a step, unless a time-out expires. -/
def Rests (M : Machine T σ Loc Ret) (s : State T σ Loc Ret) : Prop :=
  ∀ t s', ¬ M.Step s (.act t false) s'

variable {M : Machine T σ Loc Ret} {s : State T σ Loc Ret} {t : T} {l : Loc}

theorem Rests.ne_goto (h : M.Rests s) (hl : s.loc t = some l) (x : σ) (l' : Loc) :
  M.step t l false s.shared ≠ .goto x l'
  := by
  intro hstep
  apply h t _ (Step.goto hl hstep)

theorem Rests.ne_ret (h : M.Rests s) (hl : s.loc t = some l) (x : σ) (r : Ret) :
  M.step t l false s.shared ≠ .ret x r
  := by
  intro hstep
  apply h t _ (Step.ret hl hstep)

/-- A thread inside a call of a state at rest waits, if it does not fail. -/
theorem Rests.eq_spin (h : M.Rests s) (hl : s.loc t = some l)
    (hfault : M.step t l false s.shared ≠ .fault) :
  M.step t l false s.shared = .spin
  := by
  have hgoto := h.ne_goto hl
  have hret := h.ne_ret hl
  cases hstep : M.step t l false s.shared with
  | spin => rfl
  | fault => apply absurd hstep hfault
  | goto x l' => apply absurd hstep (hgoto x l')
  | ret x r => apply absurd hstep (hret x r)

/-- All threads inside a call wait. -/
def allSpin [Fintype T] (M : Machine T σ Loc Ret) (s : State T σ Loc Ret) : Bool :=
  decide (∀ t, (s.loc t).all (fun l => (M.step t l false s.shared).isSpin) = true)

theorem rests_of_allSpin [Fintype T] (h : M.allSpin s = true) :
  M.Rests s
  := by
  intro t s' hstep
  simp only [allSpin, decide_eq_true_eq] at h
  have ht := h t
  cases hstep with
  | goto hl hgoto => simp [hl, hgoto, Outcome.isSpin] at ht
  | ret hl hret => simp [hl, hret, Outcome.isSpin] at ht

omit [DecidableEq T] in
theorem ne_fault_of_allSpin [Fintype T] (h : M.allSpin s = true) :
  ∀ t l, s.loc t = some l → M.step t l false s.shared ≠ .fault
  := by
  intro t l hl hfault
  simp only [allSpin, decide_eq_true_eq] at h
  have ht := h t
  simp [hl, hfault, Outcome.isSpin] at ht

end Machine

/-- When no thread owes a message, a thread that waits without one is on its queue, and it does
not drain its port. -/
theorem Sound.queued_of_silent {T Q : Type} [DecidableEq T] [Fintype T] {bar : Q → Prop}
    {r : T → Role T Q} {w : Waits T Q} (h : Sound bar r w) (howes : ∀ v, (r v).owes = [])
    (hwalk : ∀ v, (r v).walk = []) {t : T} {q : Q} (hph : (r t).phase.queue = some q)
    (hport : w.port t = 0) (hreceived : (r t).phase.received = 0) :
  t ∈ w.queue q ∧ (r t).phase ≠ .draining q
  := by
  have hmem : t ∈ w.queue q := by
    by_contra hout
    obtain ⟨v, hv | hv⟩ := h.exists_pending hph hout hport hreceived
    · simp [howes] at hv
    · simp [hwalk] at hv
  use hmem
  intro hdraining
  have hgone := h.drained t q hdraining
  rw [h.linked q t hmem] at hgone
  cases hgone

/-- The thread waits on a queue without having received a message, and owes none. -/
structure Role.Sleeps {T Q : Type} (x : Role T Q) : Prop where
  owes : x.owes = []
  walk : x.walk = []
  queue : ∃ q, x.phase.queue = some q
  received : x.phase.received = 0

/-- When every thread sleeps with an empty port or is outside of any call, those that sleep are on
the queues, and only these. -/
theorem Sound.mem_queue_iff {T Q : Type} [DecidableEq T] [Fintype T] {bar : Q → Prop}
    {r : T → Role T Q} {w : Waits T Q} (h : Sound bar r w)
    (hrest : ∀ v, r v = .idle ∨ (r v).Sleeps ∧ w.port v = 0) (t : T) (q : Q) :
  t ∈ w.queue q ↔ (r t).phase.queue = some q
  := by
  constructor
  · intro hmem
    apply (h.queued hmem).1
  · intro hq
    have howes : ∀ v, (r v).owes = [] := by
      intro v
      rcases hrest v with hidle | ⟨hsleeps, -⟩
      · rw [hidle, Role.idle]
      · apply hsleeps.owes
    have hwalk : ∀ v, (r v).walk = [] := by
      intro v
      rcases hrest v with hidle | ⟨hsleeps, -⟩
      · rw [hidle, Role.idle]
      · apply hsleeps.walk
    rcases hrest t with hidle | ⟨hsleeps, hport⟩
    · rw [hidle] at hq
      cases hq
    · apply (h.queued_of_silent howes hwalk hq hport hsleeps.received).1

end Concurrency
