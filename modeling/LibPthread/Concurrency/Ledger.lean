import Mathlib.Data.List.Count
import Mathlib.Logic.Function.Basic
import Mathlib.Tactic.Simps.Basic

/-!
# Ledgers of names

A provider hands out names one after the other and takes them back. The ledger of the
provider records how many names it has handed out, the names `0, 1, …`, and every release,
the latest first. A release of a name that was never handed out has no effect. A name that
was released is dead for good: it is never handed out again.
-/

namespace Concurrency

/-- The names handed out so far and the releases made so far. -/
structure Ledger where
  count : Nat
  released : List Nat
  lt_count : ∀ n ∈ released, n < count

namespace Ledger

/-- The ledger of a provider that starts with the names below `n` in use. -/
@[simps]
def start (n : Nat) : Ledger where
  count := n
  released := []
  lt_count := by simp

/-- Hands out the name `l.count`. -/
@[simps]
def issue (l : Ledger) : Ledger where
  count := l.count + 1
  released := l.released
  lt_count n hn := by
    have := l.lt_count n hn
    omega

/-- Takes back the name `n`, if it was ever handed out. -/
def release (l : Ledger) (n : Nat) : Ledger :=
  if h : n < l.count then
    { count := l.count
      released := n :: l.released
      lt_count := by
        intro m hm
        rcases List.mem_cons.mp hm with rfl | hm
        · apply h
        · apply l.lt_count m hm }
  else l

/-- The name `n` was handed out and has not been released since. -/
def Live (l : Ledger) (n : Nat) : Prop :=
  n < l.count ∧ n ∉ l.released

instance (l : Ledger) (n : Nat) : Decidable (l.Live n) :=
  inferInstanceAs (Decidable (_ ∧ _))

variable {l : Ledger} {m n : Nat}

@[simp]
theorem release_count (l : Ledger) (n : Nat) :
  (l.release n).count = l.count
  := by
  rw [release]
  split <;> rfl

theorem mem_release_iff :
  m ∈ (l.release n).released ↔ m ∈ l.released ∨ (m = n ∧ n < l.count)
  := by
  rw [release]
  split
  · rename_i h
    simp [h, or_comm]
  · rename_i h
    simp [h]

/-- A released name is dead. -/
theorem not_live_release (l : Ledger) (n : Nat) :
  ¬ (l.release n).Live n
  := by
  rintro ⟨hlt, hmem⟩
  rw [release_count] at hlt
  apply hmem
  rw [mem_release_iff]
  right
  use rfl

/-- The name handed out is live, and it was not handed out before. -/
theorem live_issue (l : Ledger) :
  l.issue.Live l.count
  := by
  constructor
  · simp
  · intro h
    have := l.lt_count _ h
    omega

/-- The number of times a name was released, after one more release. -/
theorem count_release :
  (l.release n).released.count m =
    l.released.count m + if m = n ∧ n < l.count then 1 else 0
  := by
  rw [release]
  split
  · rename_i h
    by_cases hm : m = n
    · simp [hm, h]
    · have hm' : n ≠ m := Ne.symm hm
      simp [hm, hm']
  · rename_i h
    simp [h]

/-- A name that was not handed out was not released. -/
theorem count_eq_zero_of_le (h : l.count ≤ n) :
  l.released.count n = 0
  := by
  apply List.count_eq_zero_of_not_mem
  intro hn
  have := l.lt_count n hn
  omega

/-- Every name handed out between the ledgers `l` and `l'` has been released exactly once. -/
def Settles (l l' : Ledger) : Prop :=
  ∀ n, l.count ≤ n → n < l'.count → l'.released.count n = 1

variable {l' : Ledger}

/-- If no name was handed out, nothing is left to be released. -/
theorem settles_of_count_eq (h : l'.count = l.count) :
  l.Settles l'
  := by
  intro n hle hlt
  omega

/-- The only name handed out is released. -/
theorem settles_issue_release (h : l'.count = l.count) :
  l.Settles (l'.issue.release l'.count)
  := by
  intro n hle hlt
  rw [release_count, issue_count] at hlt
  obtain rfl : n = l'.count := by omega
  rw [count_release, if_pos ⟨rfl, by simp⟩, issue_released, count_eq_zero_of_le (Nat.le_refl _)]

/-- The only name handed out is not released. -/
theorem not_settles_issue (h : l'.count = l.count) :
  ¬ l.Settles l'.issue
  := by
  intro hsettles
  have hone := hsettles l'.count (Nat.le_of_eq h.symm) (by simp)
  rw [issue_released, count_eq_zero_of_le (Nat.le_refl _)] at hone
  cases hone

/-! ### Names in keeping -/

/-- Every name that was handed out has exactly one keeper, or it has been released exactly once
and has none. -/
structure Kept {α : Type} (l : Ledger) (name : α → Option Nat) : Prop where
  lt : ∀ x n, name x = some n → n < l.count
  once : ∀ n < l.count, (l.released.count n = 0 ∧ ∃! x, name x = some n) ∨
    (l.released.count n = 1 ∧ ∀ x, name x ≠ some n)

variable {α : Type} [DecidableEq α] {name : α → Option Nat} {x y : α}

omit [DecidableEq α] in
/-- Two keepers of one name are the same. -/
theorem Kept.unique (h : l.Kept name) (hx : name x = some n) (hy : name y = some n) :
  x = y
  := by
  rcases h.once n (h.lt x n hx) with ⟨-, hkeeper⟩ | ⟨-, hnone⟩
  · exact hkeeper.unique hx hy
  · exact absurd hx (hnone x)

omit [DecidableEq α] in
theorem kept_start :
  (start 0).Kept fun _ : α => none
  := by
  constructor
  · intro x n hx
    cases hx
  · intro n hn
    cases hn

/-- A keeper of nothing gets a new name. -/
theorem Kept.issue (h : l.Kept name) (hx : name x = none) :
  l.issue.Kept (Function.update name x (some l.count))
  := by
  have hne : ∀ y n, n < l.count →
      (Function.update name x (some l.count) y = some n ↔ name y = some n) := by
    intro y n hn
    rw [Function.update_apply]
    split
    · rename_i hy
      rw [hy, hx]
      simp
      omega
    · rfl
  constructor
  · intro y n hy
    rw [issue_count]
    rw [Function.update_apply] at hy
    split at hy
    · obtain rfl := Option.some.inj hy
      apply Nat.lt_succ_self
    · exact Nat.lt_succ_of_lt (h.lt y n hy)
  · intro n hn
    rw [issue_count] at hn
    rw [issue_released]
    rcases Nat.lt_or_ge n l.count with hlt | hge
    · simp only [hne _ n hlt, ne_eq]
      exact h.once n hlt
    · obtain rfl : n = l.count := by omega
      left
      refine ⟨count_eq_zero_of_le (Nat.le_refl _), x, Function.update_self _ _ _, ?_⟩
      intro y hy
      by_contra hyx
      rw [Function.update_of_ne hyx] at hy
      exact absurd (h.lt y _ hy) (Nat.lt_irrefl _)

/-- A keeper releases its name. -/
theorem Kept.release (h : l.Kept name) (hx : name x = some n) :
  (l.release n).Kept (Function.update name x none)
  := by
  have hkeeps : ∀ y m, Function.update name x none y = some m ↔ name y = some m ∧ y ≠ x := by
    intro y m
    rw [Function.update_apply]
    split
    · rename_i hy
      simp [hy]
    · rename_i hy
      simp [hy]
  constructor
  · intro y m hy
    rw [release_count]
    exact h.lt y m ((hkeeps y m).mp hy).1
  · intro m hm
    rw [release_count] at hm
    rw [count_release]
    by_cases hmn : m = n
    · subst hmn
      right
      rcases h.once m hm with ⟨hzero, hkeeper⟩ | ⟨-, hnone⟩
      · refine ⟨by rw [hzero, if_pos ⟨rfl, hm⟩], ?_⟩
        intro y hy
        obtain ⟨hy, hne⟩ := (hkeeps y m).mp hy
        apply hne (hkeeper.unique hy hx)
      · exact absurd hx (hnone x)
    · have hsame : ∀ y, Function.update name x none y = some m ↔ name y = some m := by
        intro y
        rw [hkeeps]
        constructor
        · exact fun hy => hy.1
        · intro hy
          refine ⟨hy, ?_⟩
          rintro rfl
          rw [hx, Option.some_inj] at hy
          exact hmn hy.symm
      rw [if_neg (fun hand => hmn hand.1), Nat.add_zero]
      simp only [hsame, ne_eq]
      exact h.once m hm

/-- A keeper passes its name on to a keeper of nothing. -/
theorem Kept.pass (h : l.Kept name) (hx : name x = some n) (hy : name y = none) :
  l.Kept (Function.update (Function.update name x none) y (some n))
  := by
  have hkeeps : ∀ z m, Function.update (Function.update name x none) y (some n) z = some m ↔
      (z = y ∧ m = n) ∨ (m ≠ n ∧ name z = some m) := by
    intro z m
    by_cases hzy : z = y
    · subst hzy
      simp [hy, eq_comm]
    · rw [Function.update_of_ne hzy]
      by_cases hzx : z = x
      · subst hzx
        simp [hx, hzy, eq_comm]
      · rw [Function.update_of_ne hzx]
        constructor
        · intro hz
          right
          refine ⟨?_, hz⟩
          rintro rfl
          exact hzx (h.unique hz hx)
        · rintro (⟨hz, -⟩ | ⟨-, hz⟩)
          · exact absurd hz hzy
          · exact hz
  constructor
  · intro z m hz
    rcases (hkeeps z m).mp hz with ⟨-, rfl⟩ | ⟨-, hz⟩
    · exact h.lt x m hx
    · exact h.lt z m hz
  · intro m hm
    simp only [hkeeps, ne_eq]
    by_cases hmn : m = n
    · subst hmn
      rcases h.once m hm with ⟨hzero, -⟩ | ⟨-, hnone⟩
      · left
        simp [hzero]
      · exact absurd hx (hnone x)
    · simpa [hmn] using h.once m hm

end Ledger

end Concurrency
