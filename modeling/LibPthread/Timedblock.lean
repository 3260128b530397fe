import LibPthread.Types

/-!
# Timed blocking

`__pthread_timedblock` receives with a time-out in milliseconds, which it computes from the
current time and the absolute time it is given. The seconds are multiplied in the type of
`tv_sec`, which has at least 32 bits, and converted to the 32-bit unsigned type of the time-out.
-/

namespace LibPthread

/-- The nanoseconds of a time value. -/
def Timespec.nanoseconds (ts : Timespec) : Int :=
  ts.tv_sec * 1000000000 + ts.tv_nsec

/-- The nanoseconds are in range, as `clock_gettime` gives them. -/
def Timespec.Normal (ts : Timespec) : Prop :=
  0 ≤ ts.tv_nsec ∧ ts.tv_nsec < 1000000000

namespace Timedblock

/-- A value converted to `mach_msg_timeout_t`. -/
def toTimeout (n : Int) : Nat :=
  (n % 2 ^ 32).toNat

/-- The value of `timeout` in `__pthread_timedblock`, where `tv_sec` has `width` bits. -/
def timeout (width : Nat) (abstime now : Timespec) : Nat :=
  let seconds := (abstime.tv_sec - now.tv_sec).bmod (2 ^ width)
  let timeout := toTimeout ((seconds * 1000).bmod (2 ^ width))
  if abstime.tv_nsec ≥ now.tv_nsec then
    toTimeout (timeout + (abstime.tv_nsec - now.tv_nsec + 999999) / 1000000)
  else
    -- the carry, which is rounded up like the fraction it is taken from
    toTimeout (timeout - (now.tv_nsec - abstime.tv_nsec + 999999) / 1000000)

/-- What `__pthread_timedblock` does after it has read the clock: it returns `ETIMEDOUT`, or it
receives with a time-out. -/
inductive Start where
  | timedOut
  | receive (timeout : Nat)
  deriving DecidableEq, Repr

/-- `__pthread_timedblock` up to the call of `__mach_msg`. -/
def start (width : Nat) (abstime now : Timespec) : Start :=
  if now.tv_sec > abstime.tv_sec ∨
      (now.tv_sec = abstime.tv_sec ∧ now.tv_nsec > abstime.tv_nsec) then
    .timedOut
  else .receive (timeout width abstime now)

/-- The time-out is enough to reach `abstime` from `now`, by less than a millisecond. -/
structure Reaches (abstime now : Timespec) (timeout : Nat) : Prop where
  enough : abstime.nanoseconds - now.nanoseconds ≤ timeout * 1000000
  close : timeout * 1000000 < abstime.nanoseconds - now.nanoseconds + 1000000
  /-- A receive that is entered after `now` and times out does so after `abstime`. -/
  expires : ∀ entered expired : Int, now.nanoseconds ≤ entered →
    entered + timeout * 1000000 ≤ expired → abstime.nanoseconds ≤ expired

/-- The call does not end before `abstime` unless it is woken up. -/
def OnTime (abstime now : Timespec) : Start → Prop
  | .timedOut => abstime.nanoseconds < now.nanoseconds
  | .receive timeout => Reaches abstime now timeout

/-! ### The value of the time-out -/

variable {width : Nat} {abstime now : Timespec}

/-- The width of `tv_sec` does not matter to the time-out. -/
theorem bmod_emod_timeout (hwidth : 32 ≤ width) (n : Int) :
  n.bmod (2 ^ width) % 2 ^ 32 = n % 2 ^ 32
  := by
  have hdvd : (2 ^ 32 : Int) ∣ ((2 ^ width : Nat) : Int) := by
    push_cast
    exact pow_dvd_pow 2 hwidth
  rw [← Int.emod_emod_of_dvd _ hdvd, Int.bmod_emod, Int.emod_emod_of_dvd _ hdvd]

theorem toTimeout_seconds (hwidth : 32 ≤ width) (n : Int) :
  (toTimeout (((n.bmod (2 ^ width)) * 1000).bmod (2 ^ width)) : Int) = n * 1000 % 2 ^ 32
  := by
  have hnonneg := Int.emod_nonneg (n * 1000) (show (2 ^ 32 : Int) ≠ 0 by decide)
  rw [toTimeout, bmod_emod_timeout hwidth, Int.mul_emod, bmod_emod_timeout hwidth, ← Int.mul_emod,
    Int.toNat_of_nonneg hnonneg]

/-- The time-out is the difference of the seconds in milliseconds, and the difference of the
nanoseconds rounded away from zero, modulo `2 ^ 32`. -/
theorem timeout_eq (hwidth : 32 ≤ width) :
  (timeout width abstime now : Int) =
    ((abstime.tv_sec - now.tv_sec) * 1000 +
      if abstime.tv_nsec ≥ now.tv_nsec then (abstime.tv_nsec - now.tv_nsec + 999999) / 1000000
      else - ((now.tv_nsec - abstime.tv_nsec + 999999) / 1000000)) % 2 ^ 32
  := by
  have hseconds := toTimeout_seconds hwidth (abstime.tv_sec - now.tv_sec)
  rw [timeout]
  split
  · rw [toTimeout, Int.toNat_of_nonneg (Int.emod_nonneg _ (by decide)), hseconds, Int.emod_add_emod]
  · rw [toTimeout, Int.toNat_of_nonneg (Int.emod_nonneg _ (by decide)), hseconds, Int.emod_sub_emod,
      sub_eq_add_neg]

theorem reaches_iff {n : Nat} :
  Reaches abstime now n ↔ abstime.nanoseconds - now.nanoseconds ≤ n * 1000000 ∧
    n * 1000000 < abstime.nanoseconds - now.nanoseconds + 1000000
  := by
  constructor
  · intro h
    exact ⟨h.enough, h.close⟩
  · rintro ⟨henough, hclose⟩
    refine ⟨henough, hclose, ?_⟩
    intro entered expired hentered hexpired
    omega

/-- Without a carry the time that is left is rounded up. -/
theorem reaches_without_carry (hwidth : 32 ≤ width) (hleft : now.nanoseconds ≤ abstime.nanoseconds)
    (hcarry : abstime.tv_nsec ≥ now.tv_nsec) :
  Reaches abstime now (timeout width abstime now) ↔
    abstime.nanoseconds - now.nanoseconds ≤ (2 ^ 32 - 1) * 1000000
  := by
  have htimeout := @timeout_eq width abstime now hwidth
  rw [if_pos hcarry] at htimeout
  rw [reaches_iff]
  simp only [Timespec.nanoseconds] at *
  omega

/-- With a carry the time that is left is rounded down. -/
theorem reaches_with_carry (hwidth : 32 ≤ width) (habstime : abstime.Normal) (hnow : now.Normal)
    (hleft : now.nanoseconds ≤ abstime.nanoseconds) (hcarry : ¬ abstime.tv_nsec ≥ now.tv_nsec) :
  Reaches abstime now (timeout width abstime now) ↔
    abstime.nanoseconds - now.nanoseconds ≤ (2 ^ 32 - 1) * 1000000 ∧
      (now.tv_nsec - abstime.tv_nsec) % 1000000 = 0
  := by
  have htimeout := @timeout_eq width abstime now hwidth
  obtain ⟨habs₀, habs₁⟩ := habstime
  obtain ⟨hnow₀, hnow₁⟩ := hnow
  rw [if_neg hcarry] at htimeout
  rw [reaches_iff]
  simp only [Timespec.nanoseconds] at *
  omega

/-- The test at the start of `__pthread_timedblock` compares the times. -/
theorem past_iff (habstime : abstime.Normal) (hnow : now.Normal) :
  (now.tv_sec > abstime.tv_sec ∨ (now.tv_sec = abstime.tv_sec ∧ now.tv_nsec > abstime.tv_nsec)) ↔
    abstime.nanoseconds < now.nanoseconds
  := by
  obtain ⟨habs₀, habs₁⟩ := habstime
  obtain ⟨hnow₀, hnow₁⟩ := hnow
  simp only [Timespec.nanoseconds]
  omega

/-- The call ends on time if and only if it times out at once, or the time that is left is less
than `2 ^ 32` milliseconds and the carry, if there is one, is not rounded. -/
theorem timedblock_on_time_iff (hwidth : 32 ≤ width) (habstime : abstime.Normal)
    (hnow : now.Normal) :
  OnTime abstime now (start width abstime now) ↔
    abstime.nanoseconds < now.nanoseconds ∨
      (abstime.nanoseconds - now.nanoseconds ≤ (2 ^ 32 - 1) * 1000000 ∧
        (abstime.tv_nsec ≥ now.tv_nsec ∨ (now.tv_nsec - abstime.tv_nsec) % 1000000 = 0))
  := by
  rw [start]
  split
  · rename_i hpast
    rw [past_iff habstime hnow] at hpast
    exact iff_of_true hpast (.inl hpast)
  · rename_i hleft
    rw [past_iff habstime hnow] at hleft
    rw [or_iff_right hleft]
    by_cases hcarry : abstime.tv_nsec ≥ now.tv_nsec
    · rw [OnTime, reaches_without_carry hwidth (by omega) hcarry]
      simp [hcarry]
    · rw [OnTime, reaches_with_carry hwidth habstime hnow (by omega) hcarry]
      simp [hcarry]

/-- A wait of one and a half seconds without a carry ends on time. -/
theorem timedblock_on_time_half :
  OnTime ⟨1, 500000000⟩ ⟨0, 0⟩ (start 32 ⟨1, 500000000⟩ ⟨0, 0⟩)
  := by
  apply (timedblock_on_time_iff (by decide) _ _).mpr
  · right
    decide
  · exact ⟨by decide, by decide⟩
  · exact ⟨by decide, by decide⟩

/-- A wait of `999999999` nanoseconds ends after `999` milliseconds. -/
theorem timedblock_early :
  start 32 ⟨1, 0⟩ ⟨0, 1⟩ = .receive 999 ∧ ¬ OnTime ⟨1, 0⟩ ⟨0, 1⟩ (start 32 ⟨1, 0⟩ ⟨0, 1⟩)
  := by
  have hstart : start 32 ⟨1, 0⟩ ⟨0, 1⟩ = .receive 999 := by decide
  use hstart
  rw [hstart]
  intro h
  have henough := h.enough
  revert henough
  decide

end Timedblock

end LibPthread
