import LibPthread.Semaphore.Functions

/-!
# The value of a semaphore

Sequences of calls of `sem_init`, `sem_post`, `sem_trywait` and `sem_getvalue` on a semaphore on
which no thread waits. The value is kept in an `int`: the calls count exactly as long as no call
of `sem_init` asks for more than `INT_MAX` and no call of `sem_post` finds `INT_MAX`.
-/

open Concurrency

namespace LibPthread

namespace Semaphore

/-- `__sem_init`, without `SEM_VALUE_MAX`, on the memory `sem`. -/
def semInit (pshared : Int) (value : BitVec 32) (sem : Semaphore) : Semaphore × Ret :=
  if pshared ≠ 0 then (sem, .minusOne .EOPNOTSUPP) else (init value.toNat, .zero)

/-- The value that `__sem_getvalue` reports. -/
def getvalue (sem : Semaphore) : Int :=
  sem.value

/-- The calls of a thread that uses a semaphore without waiting. -/
inductive Call where
  | init (pshared : Int) (value : BitVec 32)
  | post
  | trywait
  | getvalue
  deriving DecidableEq

namespace Call

/-- The semaphore and the value returned at the end of a step in which a call returns. -/
def result {T L : Type} : Outcome (World Semaphore T Unit) L Ret → Option (Semaphore × Ret)
  | .ret s r => some (s.obj, r)
  | _ => none

/-- What a call returns, with the semaphore that it leaves, if no thread waits. -/
def run (b : Build) (sem : Semaphore) : Call → Option (Semaphore × Ret)
  | .init pshared value => some (semInit pshared value sem)
  | .post => result (postStart (T := Unit) b () sem Waits.empty)
  | .trywait => result (T := Unit) (L := WaitLoc) (Semaphore.trywait ⟨sem, Waits.empty⟩)
  | .getvalue => some (sem, .zero)

/-- The value after a call that succeeds, as a number without bounds. -/
def count (value : Int) : Call → Int
  | .init _ value' => value'.toNat
  | .post => value + 1
  | .trywait => value - 1
  | .getvalue => value

/-- The call reports an error and leaves the value as it was, or its effect on the value is
exact. -/
def Exact (call : Call) (sem sem' : Semaphore) (r : Ret) : Prop :=
  (r ≠ .zero ∧ sem'.getvalue = sem.getvalue) ∨
    (r = .zero ∧ sem'.getvalue = call.count sem.getvalue ∧ 0 ≤ sem'.getvalue)

/-- The value after the call is an `int`. -/
def Fits (sem : Semaphore) : Call → Prop
  | .init pshared value => pshared = 0 → value.toNat < 2 ^ 31
  | .post => sem.value ≠ 2 ^ 31 - 1
  | .trywait => True
  | .getvalue => True

end Call

/-- The calls return one after the other, and each of them counts exactly. -/
def ExactRun (b : Build) : Semaphore → List Call → Prop
  | _, [] => True
  | sem, call :: calls => ∃ sem' r, call.run b sem = some (sem', r) ∧ call.Exact sem sem' r ∧
    ExactRun b sem' calls

/-- The value after each of the calls is an `int`. -/
def FitsRun (b : Build) : Semaphore → List Call → Prop
  | _, [] => True
  | sem, call :: calls => call.Fits sem ∧
    ∀ sem' r, call.run b sem = some (sem', r) → FitsRun b sem' calls

/-- A semaphore whose lock is free, with a number of tokens that is an `int`. -/
structure Valid (sem : Semaphore) : Prop where
  lock : sem.lock = false
  nonneg : 0 ≤ sem.value
  small : sem.value < 2 ^ 31

variable {b : Build} {sem : Semaphore} {call : Call} {calls : List Call} {value : BitVec 32}

/-- A small value is stored as it is; any other is stored as a negative number. -/
theorem init_value (value : BitVec 32) :
  (init value.toNat).value = if value.toNat < 2 ^ 31 then (value.toNat : Int)
    else value.toNat - 2 ^ 32
  := by
  have hlt := value.isLt
  simp only [init, toInt, Int.bmod]
  split <;> split <;> omega

/-- A call of `sem_init` counts exactly if and only if the value is an `int`. -/
theorem exact_init :
  (Call.init 0 value).Exact sem (init value.toNat) .zero ↔ value.toNat < 2 ^ 31
  := by
  have hvalue := init_value value
  constructor
  · rintro (⟨hr, -⟩ | ⟨-, -, hnonneg⟩)
    · exact absurd rfl hr
    · by_contra hlarge
      rw [if_neg hlarge] at hvalue
      rw [getvalue, hvalue] at hnonneg
      have hlt := value.isLt
      omega
  · intro hsmall
    rw [if_pos hsmall] at hvalue
    have hexact : (init value.toNat).getvalue = value.toNat := by rw [getvalue, hvalue]
    refine .inr ⟨rfl, by rw [hexact, Call.count], ?_⟩
    rw [hexact]
    exact Int.natCast_nonneg _

theorem valid_init (hsmall : value.toNat < 2 ^ 31) :
  Valid (init value.toNat)
  := by
  have hvalue := init_value value
  rw [if_pos hsmall] at hvalue
  refine ⟨rfl, ?_, ?_⟩
  · omega
  · omega

/-- A post adds a token in `int` arithmetic. -/
theorem run_post (h : Valid sem) :
  Call.post.run b sem = some ({ sem with value := toInt (sem.value + 1) }, .zero)
  := by
  obtain ⟨lock, value⟩ := sem
  obtain ⟨rfl, hnonneg, hsmall⟩ := h
  by_cases hpos : 0 < value
  · simp [Call.run, postStart, Call.result, Build.assert, Waits.empty, hpos]
  · obtain rfl : value = 0 := by
      dsimp only at hnonneg
      omega
    rfl

/-- A post counts exactly if and only if the value is not `INT_MAX`. -/
theorem exact_post (h : Valid sem) :
  Call.post.Exact sem { sem with value := toInt (sem.value + 1) } .zero ↔
    sem.value ≠ 2 ^ 31 - 1
  := by
  obtain ⟨-, hnonneg, hsmall⟩ := h
  constructor
  · rintro (⟨hr, -⟩ | ⟨-, -, hpos⟩) hmax
    · exact absurd rfl hr
    · have hvalue : toInt (2 ^ 31 - 1 + 1) = - 2 ^ 31 := by decide
      simp only [getvalue, hmax, hvalue] at hpos
      omega
  · intro hmax
    have hvalue : toInt (sem.value + 1) = sem.value + 1 := toInt_of_lt (by omega) (by omega)
    refine .inr ⟨rfl, ?_, ?_⟩
    · simp only [getvalue, hvalue, Call.count]
    · simp only [getvalue, hvalue]
      omega

theorem valid_post (h : Valid sem) (hmax : sem.value ≠ 2 ^ 31 - 1) :
  Valid { sem with value := toInt (sem.value + 1) }
  := by
  obtain ⟨hlock, hnonneg, hsmall⟩ := h
  have hvalue : toInt (sem.value + 1) = sem.value + 1 := toInt_of_lt (by omega) (by omega)
  refine ⟨hlock, ?_, ?_⟩
  · simp only [hvalue]
    omega
  · simp only [hvalue]
    omega

/-- What a call of `sem_trywait` returns is exact. -/
theorem run_trywait (h : Valid sem) :
  ∃ sem' r, Call.trywait.run b sem = some (sem', r) ∧ Call.trywait.Exact sem sem' r ∧ Valid sem'
  := by
  obtain ⟨lock, value⟩ := sem
  obtain ⟨rfl, hnonneg, hsmall⟩ := h
  dsimp only at hnonneg hsmall
  by_cases hpos : 0 < value
  · refine ⟨⟨false, value - 1⟩, .zero, ?_, ?_, ?_⟩
    · simp [Call.run, Semaphore.trywait, Call.result, hpos]
    · refine .inr ⟨rfl, rfl, ?_⟩
      simp only [getvalue]
      omega
    · refine ⟨rfl, ?_, ?_⟩
      · dsimp only
        omega
      · dsimp only
        omega
  · refine ⟨⟨false, value⟩, .minusOne .EAGAIN, ?_, ?_, rfl, hnonneg, hsmall⟩
    · simp [Call.run, Semaphore.trywait, Call.result, hpos]
    · exact .inl ⟨by decide, rfl⟩

/-- A call on a valid semaphore returns. It counts exactly if and only if the value fits, and
leaves a valid semaphore then. -/
theorem run_spec (h : Valid sem) (call : Call) :
  ∃ sem' r, call.run b sem = some (sem', r) ∧ (call.Exact sem sem' r ↔ call.Fits sem) ∧
    (call.Fits sem → Valid sem')
  := by
  cases call with
  | init pshared value =>
      by_cases hshared : pshared = 0
      · subst hshared
        refine ⟨init value.toNat, .zero, rfl, ?_, ?_⟩
        · rw [exact_init]
          simp [Call.Fits]
        · intro hfits
          exact valid_init (hfits rfl)
      · refine ⟨sem, .minusOne .EOPNOTSUPP, ?_, ?_, fun _ => h⟩
        · simp [Call.run, semInit, hshared]
        · apply iff_of_true
          · exact .inl ⟨by decide, rfl⟩
          · exact fun hzero => absurd hzero hshared
  | post => exact ⟨_, _, run_post h, exact_post h, valid_post h⟩
  | trywait =>
      obtain ⟨sem', r, hrun, hexact, hvalid⟩ := run_trywait (b := b) h
      exact ⟨sem', r, hrun, iff_of_true hexact trivial, fun _ => hvalid⟩
  | getvalue =>
      refine ⟨sem, .zero, rfl, iff_of_true ?_ trivial, fun _ => h⟩
      exact .inr ⟨rfl, rfl, h.nonneg⟩

/-- One call of a sequence, and the rest. -/
theorem exactRun_cons_iff {sem' : Semaphore} {r : Ret} (hrun : call.run b sem = some (sem', r))
    (hexact : call.Exact sem sem' r ↔ call.Fits sem)
    (hrest : call.Fits sem → (ExactRun b sem' calls ↔ FitsRun b sem' calls)) :
  ExactRun b sem (call :: calls) ↔ FitsRun b sem (call :: calls)
  := by
  constructor
  · rintro ⟨sem₁, r₁, hrun₁, hexact₁, hcalls⟩
    obtain ⟨rfl, rfl⟩ := Prod.mk.inj (Option.some.inj (hrun.symm.trans hrun₁))
    have hfits := hexact.mp hexact₁
    refine ⟨hfits, ?_⟩
    intro sem₂ r₂ hrun₂
    obtain ⟨rfl, rfl⟩ := Prod.mk.inj (Option.some.inj (hrun.symm.trans hrun₂))
    exact (hrest hfits).mp hcalls
  · rintro ⟨hfits, hcalls⟩
    exact ⟨sem', r, hrun, hexact.mpr hfits, (hrest hfits).mpr (hcalls sem' r hrun)⟩

/-- A sequence of calls counts exactly if and only if all values fit. -/
theorem Valid.exactRun_iff (h : Valid sem) :
  ExactRun b sem calls ↔ FitsRun b sem calls
  := by
  induction calls generalizing sem with
  | nil => exact Iff.rfl
  | cons call calls ih =>
      obtain ⟨sem', r, hrun, hexact, hvalid⟩ := run_spec (b := b) h call
      apply exactRun_cons_iff hrun hexact
      intro hfits
      exact ih (hvalid hfits)

/-- The calls after the initialisation of a semaphore, and the initialisation itself, count
exactly if and only if no call of `sem_init` is given more than `INT_MAX` and no call of
`sem_post` finds `INT_MAX`. -/
theorem value_exact_iff (b : Build) (sem : Semaphore) (value : BitVec 32) (calls : List Call) :
  ExactRun b sem (.init 0 value :: calls) ↔ FitsRun b sem (.init 0 value :: calls)
  := by
  apply exactRun_cons_iff (r := .zero) rfl
  · rw [exact_init]
    simp [Call.Fits]
  · intro hfits
    exact (valid_init (hfits rfl)).exactRun_iff

/-- The value `2 ^ 31` is stored as a negative number, and a post on `INT_MAX` leaves a negative
number. -/
theorem value_negative :
  (init 2147483648).getvalue = -2147483648 ∧
    ¬ ExactRun .debug (init 0) [.init 0 2147483648] ∧
    ¬ ExactRun .debug (init 0) [.init 0 2147483647, .post]
  := by
  refine ⟨by decide, ?_, ?_⟩
  · rw [value_exact_iff]
    rintro ⟨hfits, -⟩
    exact absurd (hfits rfl) (by decide)
  · rw [value_exact_iff]
    rintro ⟨-, hrest⟩
    have hmax := (hrest (init 2147483647) .zero rfl).1
    exact absurd (show (init 2147483647).value = 2 ^ 31 - 1 by decide) hmax

end Semaphore

end LibPthread
