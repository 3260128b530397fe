/-!
# Traces

The steps of an automaton are labelled with events. A path is a sequence of steps, and its
trace is the list of their events.
-/

namespace Concurrency

variable {S E : Type}

/-- Steps lead from one state to another, with the given events. -/
inductive Path (step : S → E → S → Prop) : S → List E → S → Prop where
  | nil (s : S) : Path step s [] s
  | cons {s t u : S} {e : E} {es : List E} (first : step s e t) (rest : Path step t es u) :
    Path step s (e :: es) u

namespace Path

variable {step : S → E → S → Prop} {s t u : S} {e : E} {es es' : List E}

theorem append (h : Path step s es t) (h' : Path step t es' u) :
  Path step s (es ++ es') u
  := by
  induction h with
  | nil s => exact h'
  | cons first rest ih => exact .cons first (ih h')

theorem single (h : step s e t) :
  Path step s [e] t
  := .cons h (.nil t)

/-- A trace in two parts. -/
theorem split (h : Path step s (es ++ es') u) :
  ∃ t, Path step s es t ∧ Path step t es' u
  := by
  induction es generalizing s with
  | nil => exact ⟨s, .nil s, h⟩
  | cons e es ih =>
      cases h with
      | cons first rest =>
          obtain ⟨t, hfront, hback⟩ := ih rest
          exact ⟨t, .cons first hfront, hback⟩

/-- Where the events determine the steps, the trace determines the last state. -/
theorem unique (hstep : ∀ s e t t', step s e t → step s e t' → t = t') (h : Path step s es t)
    (h' : Path step s es u) :
  t = u
  := by
  induction h with
  | nil s =>
      cases h'
      rfl
  | cons first rest ih =>
      cases h' with
      | cons first' rest' =>
          obtain rfl := hstep _ _ _ _ first first'
          exact ih rest'

end Path

end Concurrency
