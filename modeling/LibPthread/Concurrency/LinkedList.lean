import Mathlib.Data.List.Nodup
import Mathlib.Logic.Function.Basic

/-!
# Doubly linked lists in memory

The nodes of a list are addresses, and every node holds the address of the next one and of the
one before it. `Linked next prev before start l` says that the nodes `l` hang together: `start`
is the address of the first one, and `before` is what the first one holds as the address of the
one before it.
-/

namespace Concurrency

variable {α : Type}

/-- The nodes `l` form a list. -/
def Linked (next prev : α → Option α) : Option α → Option α → List α → Prop
  | _, start, [] => start = none
  | before, start, a :: l => start = some a ∧ prev a = before ∧ Linked next prev (some a) (next a) l

namespace Linked

variable {next prev next' prev' : α → Option α} {before start : Option α} {a : α}
  {l l₁ l₂ : List α}

theorem start_eq (h : Linked next prev before start l) :
  start = l.head?
  := by
  cases l with
  | nil => exact h
  | cons a l => exact h.1

/-- A list depends on its own nodes. -/
theorem congr (h : Linked next prev before start l) (hnext : ∀ x ∈ l, next' x = next x)
    (hprev : ∀ x ∈ l, prev' x = prev x) :
  Linked next' prev' before start l
  := by
  induction l generalizing before start with
  | nil => exact h
  | cons a l ih =>
      obtain ⟨hstart, hbefore, hrest⟩ := h
      have ha : a ∈ a :: l := List.mem_cons_self
      refine ⟨hstart, by rw [hprev a ha, hbefore], ?_⟩
      rw [hnext a ha]
      apply ih hrest
      · intro x hx
        apply hnext x (List.mem_cons_of_mem _ hx)
      · intro x hx
        apply hprev x (List.mem_cons_of_mem _ hx)

/-- The neighbours of a node. -/
theorem neighbours (h : Linked next prev before start (l₁ ++ a :: l₂)) :
  prev a = l₁.getLast?.or before ∧ next a = l₂.head?
  := by
  induction l₁ generalizing before start with
  | nil =>
      obtain ⟨-, hbefore, hrest⟩ := h
      exact ⟨hbefore, hrest.start_eq⟩
  | cons c l₁ ih =>
      obtain ⟨hprev, hnext⟩ := ih h.2.2
      refine ⟨?_, hnext⟩
      rw [hprev, List.getLast?_cons]
      cases l₁.getLast? <;> rfl

variable [DecidableEq α]

/-- The first node may be told of another node before it. -/
theorem reattach (h : Linked next prev before start l) (hnodup : l.Nodup) {before' : Option α}
    (hnext : ∀ x ∈ l, next' x = next x)
    (hprev : ∀ x ∈ l, prev' x = if l.head? = some x then before' else prev x) :
  Linked next' prev' before' start l
  := by
  cases l with
  | nil => exact h
  | cons a l =>
      obtain ⟨hstart, -, hrest⟩ := h
      have ha : a ∉ l := (List.nodup_cons.mp hnodup).1
      refine ⟨hstart, ?_, ?_⟩
      · rw [hprev a List.mem_cons_self]
        simp
      · rw [hnext a List.mem_cons_self]
        apply hrest.congr
        · intro x hx
          apply hnext x (List.mem_cons_of_mem _ hx)
        · intro x hx
          rw [hprev x (List.mem_cons_of_mem _ hx), if_neg]
          simp only [List.head?_cons, Option.some_inj]
          rintro rfl
          exact ha hx

/-- A node is put in front. -/
theorem push (h : Linked next prev none start l) (hnodup : l.Nodup) (hnew : a ∉ l)
    (ha : next' a = start) (ha' : prev' a = none) (hnext : ∀ x, x ≠ a → next' x = next x)
    (hprev : ∀ x, x ≠ a → prev' x = if start = some x then some a else prev x) :
  Linked next' prev' none (some a) (a :: l)
  := by
  have hne : ∀ x ∈ l, x ≠ a := by
    rintro x hx rfl
    exact hnew hx
  refine ⟨rfl, ha', ?_⟩
  rw [ha]
  apply h.reattach hnodup
  · intro x hx
    apply hnext x (hne x hx)
  · intro x hx
    rw [hprev x (hne x hx), h.start_eq]

/-- A node is taken out: its neighbours are told of each other. -/
theorem unlink (h : Linked next prev before start (l₁ ++ a :: l₂))
    (hnodup : (l₁ ++ a :: l₂).Nodup)
    (hnext : ∀ x ∈ l₁ ++ l₂, next' x = if l₁.getLast? = some x then next a else next x)
    (hprev : ∀ x ∈ l₁ ++ l₂, prev' x = if l₂.head? = some x then prev a else prev x) :
  Linked next' prev' before (if l₁ = [] then next a else start) (l₁ ++ l₂)
  := by
  induction l₁ generalizing before start with
  | nil =>
      obtain ⟨-, hbefore, hrest⟩ := h
      rw [← hbefore]
      exact hrest.reattach (List.nodup_cons.mp hnodup).2 hnext hprev
  | cons c l₁ ih =>
      obtain ⟨hstart, hbefore, hrest⟩ := h
      obtain ⟨hc, hnodup⟩ := List.nodup_cons.mp hnodup
      have hne : ∀ x ∈ l₁ ++ l₂, x ≠ c := by
        rintro x hx rfl
        apply hc
        rcases List.mem_append.mp hx with hx | hx
        · exact List.mem_append_left _ hx
        · exact List.mem_append_right _ (List.mem_cons_of_mem _ hx)
      have hfirst : l₂.head? ≠ some c := by
        intro hmem
        exact hne c (List.mem_append_right _ (List.mem_of_mem_head? hmem)) rfl
      refine ⟨?_, ?_, ?_⟩
      · rw [if_neg (List.cons_ne_nil _ _), hstart]
      · rw [hprev c List.mem_cons_self, if_neg hfirst, hbefore]
      · have hc' : next' c = if l₁ = [] then next a else next c := by
          rw [hnext c List.mem_cons_self, List.getLast?_cons]
          cases hlast : l₁.getLast? with
          | none => simp [List.getLast?_eq_none_iff.mp hlast]
          | some d =>
              have hd : d ∈ l₁ := List.mem_of_getLast? hlast
              have hdc := hne d (List.mem_append_left _ hd)
              have hl₁ : l₁ ≠ [] := List.ne_nil_of_mem hd
              simp [hdc, hl₁]
        rw [hc']
        apply ih hrest hnodup
        · intro x hx
          rw [hnext x (List.mem_cons_of_mem _ hx), List.getLast?_cons]
          cases hlast : l₁.getLast? with
          | none =>
              have hxc := hne x hx
              simp [Ne.symm hxc]
          | some d => simp
        · intro x hx
          apply hprev x (List.mem_cons_of_mem _ hx)

end Linked

end Concurrency
