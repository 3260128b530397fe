import Mathlib.Data.List.Basic

/-!
# Sets of signals

A `sigset_t` is a word with a bit for every signal. The numbers of the signals are counted from
1, and those of the bits from 0.
-/

namespace LibPthread.Signal

/-- `sigset_t`. -/
abbrev Sigset := BitVec 64

/-- `NSIG`. -/
def nsig : Nat := 32

def sigill : Nat := 4
def sigtrap : Nat := 5
def sigkill : Nat := 9
def sigcont : Nat := 18
def sigstop : Nat := 19
def sigtstp : Nat := 20
def sigttin : Nat := 21
def sigttou : Nat := 22

/-- `sigmask (sig)`, for the numbers for which the shift is defined. -/
def sigmask (sig : Nat) : Sigset :=
  1#64 <<< (sig - 1)

/-- The signal is in the set. -/
def Sigset.Has (s : Sigset) (sig : Nat) : Prop :=
  sigmask sig &&& s ≠ 0

instance (s : Sigset) (sig : Nat) : Decidable (Sigset.Has s sig) :=
  inferInstanceAs (Decidable (_ ≠ _))

/-- `sigaddset`, which refuses numbers that are out of range. -/
def sigaddset (s : Sigset) (sig : Nat) : Sigset :=
  if 0 < sig ∧ sig < nsig then s ||| sigmask sig else s

/-- `sigdelset`, which refuses numbers that are out of range. -/
def sigdelset (s : Sigset) (sig : Nat) : Sigset :=
  if 0 < sig ∧ sig < nsig then s &&& ~~~ sigmask sig else s

/-- `STOPSIGS`. -/
def stopsigs : Sigset :=
  sigmask sigttin ||| sigmask sigttou ||| sigmask sigstop ||| sigmask sigtstp

/-- `l4_lsb64`: the number of the lowest bit that is set, counted from 1, or 0. -/
def lsb64 (x : BitVec 64) : Nat :=
  (((List.range 64).find? fun i => x.getLsbD i).map (· + 1)).getD 0

/-- `l4_msb64`: the number of the highest bit that is set, counted from 1, or 0. -/
def msb64 (x : BitVec 64) : Nat :=
  (((List.range 64).reverse.find? fun i => x.getLsbD i).map (· + 1)).getD 0

section Has

variable {s s' : Sigset} {sig signo : Nat}

/-- The signal is in the set if its bit is set. -/
theorem has_iff :
  s.Has sig ↔ s.getLsbD (sig - 1) = true
  := by
  rw [Sigset.Has, sigmask, ← BitVec.twoPow_eq, BitVec.twoPow_and]
  split
  · rename_i h
    simp only [h, iff_true]
    intro hzero
    have hbit := congrArg (fun x => x.getLsbD (sig - 1)) hzero
    simp only [BitVec.getLsbD_twoPow, BitVec.ofNat_eq_ofNat, BitVec.getLsbD_zero] at hbit
    have hlt := BitVec.lt_of_getLsbD h
    simp [hlt] at hbit
  · rename_i h
    simp [h]

@[simp]
theorem not_has_zero :
  ¬ Sigset.Has 0 sig
  := by
  simp [has_iff]

theorem has_or :
  (s ||| s').Has sig ↔ s.Has sig ∨ s'.Has sig
  := by
  simp [has_iff]

theorem has_and :
  (s &&& s').Has sig ↔ s.Has sig ∧ s'.Has sig
  := by
  simp [has_iff]

theorem has_sigmask (hsig : 0 < sig) (hsigno : 0 < signo) (hle : signo ≤ 64) :
  (sigmask signo).Has sig ↔ sig = signo
  := by
  rw [has_iff, sigmask, ← BitVec.twoPow_eq, BitVec.getLsbD_twoPow]
  simp
  omega

theorem has_sigaddset (hsig : 0 < sig) :
  (sigaddset s signo).Has sig ↔ s.Has sig ∨ (sig = signo ∧ signo < nsig)
  := by
  rw [sigaddset]
  split
  · rename_i h
    have hle : signo ≤ 64 := by
      have := h.2
      simp only [nsig] at this
      omega
    rw [has_or, has_sigmask hsig h.1 hle]
    simp [h.2]
  · rename_i h
    have hout : ¬ (sig = signo ∧ signo < nsig) := by
      rintro ⟨rfl, hlt⟩
      exact h ⟨hsig, hlt⟩
    simp [hout]

/-- The deletion of a signal adds no signals. -/
theorem has_of_sigdelset (h : (sigdelset s signo).Has sig) :
  s.Has sig
  := by
  rw [sigdelset] at h
  split at h
  · exact (has_and.mp h).1
  · exact h

theorem not_has_sigdelset (hpos : 0 < sig) (hlt : sig < nsig) :
  ¬ (sigdelset s sig).Has sig
  := by
  rw [sigdelset, if_pos ⟨hpos, hlt⟩, has_and, not_and]
  intro _
  simp only [nsig] at hlt
  rw [has_iff, sigmask, ← BitVec.twoPow_eq, BitVec.getLsbD_not, BitVec.getLsbD_twoPow]
  simp

@[simp]
theorem lsb64_zero :
  lsb64 0#64 = 0
  := by
  decide

/-- The lowest signal is in the set. -/
theorem has_lsb64 (h : lsb64 s ≠ 0) :
  s.Has (lsb64 s)
  := by
  rw [lsb64] at h ⊢
  cases hfind : (List.range 64).find? fun i => s.getLsbD i with
  | none => simp [hfind] at h
  | some i =>
      have hbit := List.find?_some hfind
      rw [has_iff]
      exact hbit

theorem eq_zero_of_lsb64 (h : lsb64 s = 0) :
  s = 0
  := by
  rw [lsb64] at h
  cases hfind : (List.range 64).find? fun i => s.getLsbD i with
  | none =>
      rw [List.find?_eq_none] at hfind
      apply BitVec.eq_of_getLsbD_eq
      intro i hi
      have hbit := hfind i (List.mem_range.mpr hi)
      simpa using hbit
  | some i => simp [hfind] at h

/-- The highest signal is in the set. -/
theorem has_msb64 (h : s ≠ 0) :
  s.Has (msb64 s)
  := by
  rw [msb64]
  cases hfind : (List.range 64).reverse.find? fun i => s.getLsbD i with
  | none =>
      rw [List.find?_eq_none] at hfind
      apply absurd _ h
      apply BitVec.eq_of_getLsbD_eq
      intro i hi
      have hbit := hfind i (by simpa using hi)
      simpa using hbit
  | some i =>
      have hbit := List.find?_some hfind
      rw [has_iff]
      exact hbit

end Has

end LibPthread.Signal
