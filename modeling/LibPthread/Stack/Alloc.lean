import LibPthread.Types
import Mathlib.Tactic.Ring

/-!
# The addresses of the stacks

`__pthread_stack_alloc` probes the slots of the address space one after the other, from the cursor
`next_stack_base` on, and once more from the beginning. The addresses are numbers of 32 bits, so
that the step to the next slot may wrap around before the test of `VM_MAX_ADDRESS` stops the loop.
-/

namespace LibPthread.Stack

/-- The address space, the size of a page, and the default size of a stack. `VM_MIN_ADDRESS` is
`0`. -/
structure Layout where
  vmMax : Nat
  page : Nat
  stacksize : Nat
  vmMax_lt : vmMax < 2 ^ 32
  page_dvd : page ∣ 2 ^ 32
  stacksize_pos : 0 < stacksize
  stacksize_lt : stacksize < 2 ^ 32
  page_dvd_stacksize : page ∣ stacksize

/-- `next_stack_base`, and the addresses of the stacks that are allocated. -/
structure State where
  next_stack_base : Nat
  allocated : List Nat
  deriving DecidableEq, Repr

/-- The state before the first call. -/
@[simps]
def State.init : State where
  next_stack_base := 0
  allocated := []

/-- Two addresses of stacks of the same size. -/
def Disjoint (stacksize a b : Nat) : Prop :=
  a + stacksize ≤ b ∨ b + stacksize ≤ a

instance (stacksize a b : Nat) : Decidable (Disjoint stacksize a b) :=
  inferInstanceAs (Decidable (_ ∨ _))

variable (Y : Layout)

/-- The range of a stack at `base` is free and inside of the address space. -/
def Available (allocated : List Nat) (base : Nat) : Prop :=
  base + Y.stacksize ≤ Y.vmMax ∧ ∀ b ∈ allocated, Disjoint Y.stacksize base b

instance (allocated : List Nat) (base : Nat) : Decidable (Available Y allocated base) :=
  inferInstanceAs (Decidable (_ ∧ _))

/-- `__vm_allocate` at a fixed address succeeds: the kernel may refuse any range, and it refuses
one that is not free. -/
def vmAllocate (allocated : List Nat) (kernel : Bool) (base : Nat) : Bool :=
  kernel && decide (Available Y allocated base)

/-- The loop over the slots, started at `base` after the addresses `tried`, the latest first, were
refused: it returns all addresses refused so far and the value of `base` at its end. `kernel n` is
what the kernel makes of the call of `__vm_allocate` after `n` others. The result is `none` when
the loop has not ended after `fuel` rounds. -/
def probe (allocated : List Nat) (kernel : Nat → Bool) :
    Nat → List Nat → Nat → Option (List Nat × Nat)
  | 0, _, _ => none
  | fuel + 1, tried, base =>
    if base < Y.vmMax ∧ vmAllocate Y allocated (kernel tried.length) base = false then
      probe allocated kernel fuel (base :: tried) ((base + Y.stacksize) % 2 ^ 32)
    else some (tried, base)

/-- The end of `__pthread_stack_alloc`, with `base` below `VM_MAX_ADDRESS`. -/
def State.push (s : State) (base : Nat) : State where
  next_stack_base := (base + Y.stacksize) % 2 ^ 32
  allocated := base :: s.allocated

/-- `__pthread_stack_alloc`: the error or the address of the stack, the state after the call, and
the addresses that were refused, the latest first. -/
def stackAlloc (fuel : Nat) (kernel : Nat → Bool) (s : State) (stacksize : Nat) :
    Option (Except Errno Nat × State × List Nat) :=
  if stacksize ≠ Y.stacksize then some (.error .EINVAL, s, [])
  else
    match probe Y s.allocated kernel fuel [] s.next_stack_base with
    | none => none
    | some (tried, base) =>
      if base ≥ Y.vmMax then
        -- `i == 1`
        let s := { s with next_stack_base := 0 }
        match probe Y s.allocated kernel fuel tried 0 with
        | none => none
        | some (tried, base) =>
          if base ≥ Y.vmMax then some (.error .EAGAIN, s, tried)
          else some (.ok base, s.push Y base, tried)
      else some (.ok base, s.push Y base, tried)

/-- The number of slots below `VM_MAX_ADDRESS`. -/
def count : Nat :=
  (Y.vmMax + Y.stacksize - 1) / Y.stacksize

/-- The step to the slot at or above `VM_MAX_ADDRESS` does not wrap around, or the kernel accepts
one of the slots from the cursor up to `VM_MAX_ADDRESS`. -/
def Reaches (kernel : Nat → Bool) (s : State) : Prop :=
  count Y * Y.stacksize < 2 ^ 32 ∨
    ∃ k, s.next_stack_base + k * Y.stacksize < Y.vmMax ∧
      vmAllocate Y s.allocated (kernel k) (s.next_stack_base + k * Y.stacksize) = true

/-- The histories of calls of `__pthread_stack_alloc`, with any sizes, and of deallocations of
stacks. The calls with the default size all meet `G`. -/
inductive History (G : (Nat → Bool) → State → Prop) : State → Prop where
  | init : History G .init
  | alloc {s s' : State} {r : Except Errno Nat} {tried : List Nat} (fuel : Nat)
    (kernel : Nat → Bool) (stacksize : Nat) (before : History G s)
    (guard : stacksize = Y.stacksize → G kernel s)
    (call : stackAlloc Y fuel kernel s stacksize = some (r, s', tried)) : History G s'
  | dealloc {s : State} (base : Nat) (before : History G s) (mem : base ∈ s.allocated) :
    History G { s with allocated := s.allocated.erase base }

/-! ### The loop -/

variable {Y} {allocated : List Nat} {kernel : Nat → Bool}

/-- The slots below `base + n * stacksize`, started at `base`, the last one first. -/
def slots (Y : Layout) (base : Nat) : Nat → List Nat
  | 0 => []
  | n + 1 => (base + n * Y.stacksize) :: slots Y base n

theorem mem_slots (base : Nat) {n k : Nat} (hk : k < n) :
  base + k * Y.stacksize ∈ slots Y base n
  := by
  induction n with
  | zero => omega
  | succ n ih =>
      rw [slots, List.mem_cons]
      rcases Nat.lt_succ_iff_lt_or_eq.mp hk with hlt | rfl
      · exact Or.inr (ih hlt)
      · exact Or.inl rfl

theorem slots_append (base n : Nat) (tried : List Nat) :
  slots Y (base + Y.stacksize) n ++ base :: tried = slots Y base (n + 1) ++ tried
  := by
  induction n with
  | zero => simp [slots]
  | succ n ih =>
      rw [slots, List.cons_append, ih, slots, List.cons_append]
      congr 1
      ring

/-- The loop ends at the first slot that is accepted or not below `VM_MAX_ADDRESS`, if there is one
before the addresses wrap around. -/
theorem probe_eq (allocated : List Nat) (kernel : Nat → Bool) {base n : Nat} (tried : List Nat)
    (hlt : base + n * Y.stacksize < 2 ^ 32) (hstop : Y.vmMax ≤ base + n * Y.stacksize ∨
      vmAllocate Y allocated (kernel (tried.length + n)) (base + n * Y.stacksize) = true) :
  ∃ j ≤ n, (Y.vmMax ≤ base + j * Y.stacksize ∨ Available Y allocated (base + j * Y.stacksize)) ∧
    ∀ fuel, n < fuel → probe Y allocated kernel fuel tried base
      = some (slots Y base j ++ tried, base + j * Y.stacksize)
  := by
  induction n generalizing base tried with
  | zero =>
      refine ⟨0, le_rfl, ?_, ?_⟩
      · apply hstop.imp_right
        intro h
        simp only [vmAllocate, Bool.and_eq_true, decide_eq_true_eq] at h
        exact h.2
      · intro fuel hfuel
        obtain ⟨fuel, rfl⟩ := Nat.exists_eq_add_one_of_ne_zero (Nat.ne_of_gt hfuel)
        rw [probe, if_neg]
        · simp [slots]
        · rintro ⟨hbelow, hrefused⟩
          rcases hstop with h | h
          · omega
          · simp [hrefused] at h
  | succ n ih =>
      have hmul : base + (n + 1) * Y.stacksize = base + Y.stacksize + n * Y.stacksize := by
        ring
      rw [hmul] at hlt hstop
      by_cases hstep : base < Y.vmMax ∧ vmAllocate Y allocated (kernel tried.length) base = false
      · -- on to the next slot
        have hnext : (base + Y.stacksize) % 2 ^ 32 = base + Y.stacksize := by
          apply Nat.mod_eq_of_lt
          omega
        have hlength : (base :: tried).length + n = tried.length + (n + 1) := by
          rw [List.length_cons]
          omega
        obtain ⟨j, hj, hend, hprobe⟩ := ih (base :: tried) hlt (by rwa [hlength])
        have hslot : base + Y.stacksize + j * Y.stacksize = base + (j + 1) * Y.stacksize := by
          ring
        rw [hslot] at hend
        refine ⟨j + 1, by omega, hend, ?_⟩
        intro fuel hfuel
        obtain ⟨fuel, rfl⟩ := Nat.exists_eq_add_one_of_ne_zero (Nat.ne_zero_of_lt hfuel)
        rw [probe, if_pos hstep, hnext, hprobe fuel (by omega), slots_append, hslot]
      · refine ⟨0, by omega, ?_, ?_⟩
        · rw [not_and_or, not_lt, Bool.not_eq_false, vmAllocate, Bool.and_eq_true,
            decide_eq_true_eq] at hstep
          simpa using hstep.imp_right And.right
        · intro fuel hfuel
          obtain ⟨fuel, rfl⟩ := Nat.exists_eq_add_one_of_ne_zero (Nat.ne_zero_of_lt hfuel)
          rw [probe, if_neg hstep]
          simp [slots]

/-- More rounds than the loop needs change nothing. -/
theorem probe_mono {fuel fuel' base : Nat} {tried : List Nat} {r : List Nat × Nat}
    (hle : fuel ≤ fuel') (h : probe Y allocated kernel fuel tried base = some r) :
  probe Y allocated kernel fuel' tried base = some r
  := by
  induction fuel generalizing fuel' tried base with
  | zero => cases h
  | succ fuel ih =>
      obtain ⟨fuel', rfl⟩ := Nat.exists_eq_add_one_of_ne_zero (Nat.ne_zero_of_lt hle)
      rw [probe] at h ⊢
      split at h
      · rename_i hstep
        rw [if_pos hstep]
        exact ih (Nat.le_of_succ_le_succ hle) h
      · rename_i hstep
        rw [if_neg hstep]
        exact h

/-- The addresses that the loop has gone past were refused. -/
theorem probe_refused {fuel base base' : Nat} {tried tried' : List Nat}
    (h : probe Y allocated kernel fuel tried base = some (tried', base'))
    (htried : ∀ a ∈ tried, ∃ n, vmAllocate Y allocated (kernel n) a = false) :
  ∀ a ∈ tried', ∃ n, vmAllocate Y allocated (kernel n) a = false
  := by
  induction fuel generalizing tried base with
  | zero => cases h
  | succ fuel ih =>
      rw [probe] at h
      split at h
      · rename_i hstep
        apply ih h
        rw [List.forall_mem_cons]
        exact ⟨⟨_, hstep.2⟩, htried⟩
      · obtain ⟨rfl, rfl⟩ := Prod.mk.inj (Option.some.inj h)
        exact htried

theorem stackAlloc_mono {fuel fuel' stacksize : Nat} {s : State}
    {r : Except Errno Nat × State × List Nat} (hle : fuel ≤ fuel')
    (h : stackAlloc Y fuel kernel s stacksize = some r) :
  stackAlloc Y fuel' kernel s stacksize = some r
  := by
  unfold stackAlloc at h ⊢
  split at h
  · rename_i hsize
    rw [if_pos hsize]
    exact h
  · rename_i hsize
    rw [if_neg hsize]
    split at h
    · cases h
    · rename_i tried base hprobe
      rw [probe_mono hle hprobe]
      dsimp only
      split at h
      · rename_i hend
        rw [if_pos hend]
        dsimp only at h
        split at h
        · cases h
        · rename_i hagain
          rw [probe_mono hle hagain]
          exact h
      · rename_i hend
        rw [if_neg hend]
        exact h

/-! ### Histories of calls -/

/-- The cursor is a slot, or the end of the last one. -/
structure Inv (Y : Layout) (s : State) : Prop where
  dvd : Y.stacksize ∣ s.next_stack_base
  le : s.next_stack_base ≤ Y.vmMax

/-- What a call should do: it returns the address of a free slot, or `EAGAIN` after all slots were
refused. -/
structure Correct (Y : Layout) (s : State) (kernel : Nat → Bool) (r : Except Errno Nat)
    (s' : State) (tried : List Nat) : Prop where
  ok : ∀ addr, r = .ok addr → Y.stacksize ∣ addr ∧ addr < Y.vmMax ∧
    (∀ b ∈ s.allocated, Disjoint Y.stacksize addr b) ∧ s'.allocated = addr :: s.allocated
  error : ∀ e, r = .error e → e = .EAGAIN ∧ s'.allocated = s.allocated ∧
    ∀ k, k * Y.stacksize < Y.vmMax → k * Y.stacksize ∈ tried
  refused : ∀ a ∈ tried, ∃ n, vmAllocate Y s.allocated (kernel n) a = false

theorem Correct.of_available (s s₀ : State) {base : Nat} {tried : List Nat}
    (hallocated : s₀.allocated = s.allocated) (hdvd : Y.stacksize ∣ base)
    (havailable : Available Y s.allocated base)
    (hrefused : ∀ a ∈ tried, ∃ n, vmAllocate Y s.allocated (kernel n) a = false) :
  Inv Y (s₀.push Y base) ∧ Correct Y s kernel (.ok base) (s₀.push Y base) tried
  := by
  obtain ⟨hroom, hfree⟩ := havailable
  have hpos := Y.stacksize_pos
  have hmax := Y.vmMax_lt
  have hnext : (base + Y.stacksize) % 2 ^ 32 = base + Y.stacksize := by
    apply Nat.mod_eq_of_lt
    omega
  constructor
  · constructor
    · rw [State.push, hnext]
      exact Nat.dvd_add hdvd (Nat.dvd_refl _)
    · rw [State.push, hnext]
      exact hroom
  · refine ⟨?_, by simp, hrefused⟩
    intro addr haddr
    obtain rfl : base = addr := by simpa using haddr
    exact ⟨hdvd, by omega, hfree, by rw [State.push, hallocated]⟩

theorem vmMax_le_count :
  Y.vmMax ≤ count Y * Y.stacksize
  := by
  have hpos := Y.stacksize_pos
  have hdiv := Nat.div_add_mod (Y.vmMax + Y.stacksize - 1) Y.stacksize
  have hmod := Nat.mod_lt (Y.vmMax + Y.stacksize - 1) hpos
  rw [count, Nat.mul_comm]
  omega

/-- A slot that is not below `VM_MAX_ADDRESS` is behind all slots that are. -/
theorem count_le {q : Nat} (hq : Y.vmMax ≤ Y.stacksize * q) :
  count Y ≤ q
  := by
  have hpos := Y.stacksize_pos
  apply Nat.le_of_lt_succ
  apply Nat.div_lt_of_lt_mul
  rw [Nat.mul_succ]
  omega

/-- The first pass ends before the addresses wrap around. -/
theorem Inv.first_pass {s : State} (hs : Inv Y s) (hreach : Reaches Y kernel s) :
  ∃ n, s.next_stack_base + n * Y.stacksize < 2 ^ 32 ∧
    (Y.vmMax ≤ s.next_stack_base + n * Y.stacksize ∨
      vmAllocate Y s.allocated (kernel (([] : List Nat).length + n))
        (s.next_stack_base + n * Y.stacksize) = true) ∧
    (s.next_stack_base + n * Y.stacksize < Y.vmMax ∨ count Y * Y.stacksize < 2 ^ 32)
  := by
  have hmax := Y.vmMax_lt
  rcases hreach with hcount | ⟨k, hbelow, haccept⟩
  · obtain ⟨q, hq⟩ := hs.dvd
    have hle := hs.le.trans vmMax_le_count
    rw [hq, Nat.mul_comm] at hle
    have hqc : q ≤ count Y := Nat.le_of_mul_le_mul_right hle Y.stacksize_pos
    have hend : s.next_stack_base + (count Y - q) * Y.stacksize = count Y * Y.stacksize := by
      rw [hq, Nat.mul_comm Y.stacksize q, ← Nat.add_mul, Nat.add_sub_cancel' hqc]
    refine ⟨count Y - q, by rwa [hend], Or.inl ?_, Or.inr hcount⟩
    rw [hend]
    exact vmMax_le_count
  · refine ⟨k, by omega, Or.inr ?_, Or.inl hbelow⟩
    simpa using haccept

/-- A call that does not wrap around ends, and does what it should. -/
theorem Inv.stackAlloc {s : State} (hs : Inv Y s) (hreach : Reaches Y kernel s) :
  ∃ r s' tried, Inv Y s' ∧ Correct Y s kernel r s' tried ∧ ∀ fuel, 2 ^ 32 < fuel →
    Stack.stackAlloc Y fuel kernel s Y.stacksize = some (r, s', tried)
  := by
  have hrounds : ∀ {a n : Nat}, a + n * Y.stacksize < 2 ^ 32 → n < 2 ^ 32 := by
    intro a n h
    have := Nat.le_mul_of_pos_right n Y.stacksize_pos
    omega
  obtain ⟨n, hlt, hstop, hagain⟩ := hs.first_pass hreach
  obtain ⟨j, hj, hend, hprobe⟩ := probe_eq s.allocated kernel [] hlt hstop
  have hrefused := probe_refused (hprobe (n + 1) (by omega)) (by simp)
  have hjn : j * Y.stacksize ≤ n * Y.stacksize := Nat.mul_le_mul_right _ hj
  by_cases htop : Y.vmMax ≤ s.next_stack_base + j * Y.stacksize
  · -- the second pass goes through all slots
    have hcount : 0 + count Y * Y.stacksize < 2 ^ 32 := by
      rcases hagain with h | h
      · omega
      · omega
    obtain ⟨i, hi, hend₂, hprobe₂⟩ :=
      probe_eq s.allocated kernel (slots Y s.next_stack_base j ++ []) hcount
        (Or.inl (by rw [Nat.zero_add]; exact vmMax_le_count))
    have hrefused₂ := probe_refused (hprobe₂ (count Y + 1) (by omega)) hrefused
    rw [Nat.zero_add] at hend₂ hprobe₂
    by_cases htop₂ : Y.vmMax ≤ i * Y.stacksize
    · refine ⟨.error .EAGAIN, { s with next_stack_base := 0 }, _, ⟨Nat.dvd_zero _, Nat.zero_le _⟩,
        ⟨by simp, ?_, hrefused₂⟩, ?_⟩
      · intro e he
        refine ⟨by simpa using he.symm, rfl, ?_⟩
        intro k hk
        have hki : k < i := by
          apply Nat.lt_of_mul_lt_mul_right (a := Y.stacksize)
          omega
        apply List.mem_append_left
        simpa using mem_slots 0 hki
      · intro fuel hfuel
        have hn := hrounds hlt
        have hc := hrounds hcount
        rw [Stack.stackAlloc, if_neg (not_not.mpr rfl), hprobe fuel (by omega)]
        simp only [htop, ge_iff_le, if_true]
        rw [hprobe₂ fuel (by omega)]
        simp only [htop₂, if_true]
    · obtain ⟨hinv, hcorrect⟩ := Correct.of_available s { s with next_stack_base := 0 } rfl
        (Nat.dvd_mul_left _ i) (hend₂.resolve_left htop₂) hrefused₂
      refine ⟨_, _, _, hinv, hcorrect, ?_⟩
      intro fuel hfuel
      have hn := hrounds hlt
      have hc := hrounds hcount
      rw [Stack.stackAlloc, if_neg (not_not.mpr rfl), hprobe fuel (by omega)]
      simp only [htop, ge_iff_le, if_true]
      rw [hprobe₂ fuel (by omega)]
      simp only [htop₂, if_false]
  · obtain ⟨hinv, hcorrect⟩ := Correct.of_available s s rfl
      (Nat.dvd_add hs.dvd (Nat.dvd_mul_left _ j)) (hend.resolve_left htop) hrefused
    refine ⟨_, _, _, hinv, hcorrect, ?_⟩
    intro fuel hfuel
    have hn := hrounds hlt
    rw [Stack.stackAlloc, if_neg (not_not.mpr rfl), hprobe fuel (by omega)]
    simp only [htop, ge_iff_le, if_false]

/-- The invariant holds after every history whose calls do not wrap around. -/
theorem inv_of_history {s : State} (hs : History Y (Reaches Y) s) :
  Inv Y s
  := by
  induction hs with
  | init => exact ⟨Nat.dvd_zero _, Nat.zero_le _⟩
  | @alloc s s' r tried fuel kernel stacksize _ guard call ih =>
      by_cases hsize : stacksize = Y.stacksize
      · obtain ⟨r₁, s₁, tried₁, hinv, -, hcall⟩ := ih.stackAlloc (guard hsize)
        have h₁ := hcall (2 ^ 32 + 1 + fuel) (by omega)
        rw [← hsize, stackAlloc_mono (by omega) call] at h₁
        obtain ⟨-, rfl, -⟩ := h₁
        exact hinv
      · rw [Stack.stackAlloc, if_pos hsize] at call
        obtain ⟨-, rfl, -⟩ := call
        exact ih
  | dealloc base _ _ ih => exact ⟨ih.dvd, ih.le⟩

/-- After a history of calls that do not wrap around, a further one ends. It returns a multiple of
the stack size below `VM_MAX_ADDRESS` that is disjoint from all stacks still allocated, or `EAGAIN`
after every slot was refused. -/
theorem stackAlloc_correct {s : State} {kernel : Nat → Bool} (hs : History Y (Reaches Y) s)
    (hreach : Reaches Y kernel s) :
  ∃ r s' tried, Correct Y s kernel r s' tried ∧ ∀ fuel, 2 ^ 32 < fuel →
    stackAlloc Y fuel kernel s Y.stacksize = some (r, s', tried)
  := by
  obtain ⟨r, s', tried, -, hcorrect, hcall⟩ := (inv_of_history hs).stackAlloc hreach
  exact ⟨r, s', tried, hcorrect, hcall⟩

/-! ### Calls that do not end -/

/-- When the stack size divides the address space and the slot at or above `VM_MAX_ADDRESS` is
address `0` again, the loop ends only if a slot is accepted. -/
theorem probe_eq_none {fuel base : Nat} {tried : List Nat} (hsize : Y.stacksize ∣ 2 ^ 32)
    (hcount : 2 ^ 32 ≤ count Y * Y.stacksize) (hdvd : Y.stacksize ∣ base) (hlt : base < 2 ^ 32)
    (hrefused : ∀ n a, Y.stacksize ∣ a → vmAllocate Y allocated (kernel n) a = false) :
  probe Y allocated kernel fuel tried base = none
  := by
  induction fuel generalizing tried base with
  | zero => rfl
  | succ fuel ih =>
      have hbelow : base < Y.vmMax := by
        by_contra htop
        obtain ⟨q, rfl⟩ := hdvd
        have hcq : count Y ≤ q := count_le (not_lt.mp htop)
        have := Nat.mul_le_mul_right Y.stacksize hcq
        rw [Nat.mul_comm q] at this
        omega
      rw [probe, if_pos ⟨hbelow, hrefused _ _ hdvd⟩]
      apply ih
      · rw [Nat.dvd_mod_iff hsize]
        exact Nat.dvd_add hdvd (Nat.dvd_refl _)
      · exact Nat.mod_lt _ (by decide)

/-- For a stack size that divides the address space, the calls return whatever the kernel does
exactly when the step to the slot at or above `VM_MAX_ADDRESS` does not wrap around. -/
theorem stackAlloc_returns_iff {s : State} (hs : Inv Y s) (hsize : Y.stacksize ∣ 2 ^ 32) :
  (∀ kernel, ∃ fuel r, stackAlloc Y fuel kernel s Y.stacksize = some r) ↔
    count Y * Y.stacksize < 2 ^ 32
  := by
  constructor
  · intro h
    by_contra hcount
    obtain ⟨fuel, r, hr⟩ := h fun _ => false
    have hle := hs.le
    have hmax := Y.vmMax_lt
    rw [stackAlloc, if_neg (not_not.mpr rfl), probe_eq_none hsize (not_lt.mp hcount) hs.dvd
      (by omega) (fun _ _ _ => rfl)] at hr
    cases hr
  · intro hcount kernel
    have hreach : Reaches Y kernel s := Or.inl hcount
    obtain ⟨r, s', tried, -, -, hcall⟩ := hs.stackAlloc hreach
    exact ⟨2 ^ 32 + 1, _, hcall _ (by decide)⟩

/-- Stacks of `size` bytes below the address `0xC0000000`. -/
def below3G (size : Nat) (hpos : 0 < size) (hlt : size < 2 ^ 32) (hpage : 4096 ∣ size) : Layout
    where
  vmMax := 0xC0000000
  page := 4096
  stacksize := size
  vmMax_lt := by decide
  page_dvd := by decide
  stacksize_pos := hpos
  stacksize_lt := hlt
  page_dvd_stacksize := hpage

/-- Stacks of 2 GiB. -/
def halves : Layout :=
  below3G (2 ^ 31) (by decide) (by decide) (by decide)

/-- Stacks of 1 GiB. -/
def quarters : Layout :=
  below3G (2 ^ 30) (by decide) (by decide) (by decide)

/-- The second call for a stack of 1 GiB, after one that returned `0`. -/
theorem stackAlloc_correct_quarters :
  ∃ r s' tried, Correct quarters ⟨2 ^ 30, [0]⟩ (fun _ => true) r s' tried ∧
    ∀ fuel, 2 ^ 32 < fuel →
      stackAlloc quarters fuel (fun _ => true) ⟨2 ^ 30, [0]⟩ (2 ^ 30) = some (r, s', tried)
  := by
  have hreaches : ∀ s, Reaches quarters (fun _ => true) s := by
    intro s
    left
    decide
  have hfirst : stackAlloc quarters 1 (fun _ => true) .init (2 ^ 30)
      = some (.ok 0, ⟨2 ^ 30, [0]⟩, []) := by
    decide
  apply stackAlloc_correct (Y := quarters)
  · exact .alloc 1 (fun _ => true) (2 ^ 30) .init (fun _ => hreaches _) hfirst
  · apply hreaches

/-- The second call for a stack of 2 GiB does not end. -/
theorem stackAlloc_halves :
  ¬ ∀ (Y : Layout) (s : State) (kernel : Nat → Bool), History Y (fun _ _ => True) s →
    ∃ fuel r, stackAlloc Y fuel kernel s Y.stacksize = some r
  := by
  intro h
  have hfirst : stackAlloc halves 1 (fun _ => true) .init (2 ^ 31)
      = some (.ok 0, ⟨2 ^ 31, [0]⟩, []) := by
    decide
  have hs : History halves (fun _ _ => True) ⟨2 ^ 31, [0]⟩ :=
    .alloc 1 (fun _ => true) (2 ^ 31) .init (fun _ => trivial) hfirst
  obtain ⟨fuel, r, hr⟩ := h halves _ (fun _ => true) hs
  rw [stackAlloc, if_neg (not_not.mpr rfl), probe_eq_none] at hr
  · cases hr
  · decide
  · decide
  · decide
  · decide
  · rintro n a ⟨q, rfl⟩
    rw [vmAllocate, Bool.true_and, decide_eq_false_iff_not]
    rintro ⟨hroom, hfree⟩
    have := hfree 0 (by simp)
    simp only [Disjoint, halves, below3G] at this hroom
    omega

end LibPthread.Stack
