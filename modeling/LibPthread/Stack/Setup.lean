import LibPthread.Stack.Alloc
import LibPthread.Thread.Functions

/-!
# The first frame of a thread

`stack_setup` for the i386: the words for the thread variables at the top of the stack, the call
frame of `entry_point` below them, and the guard at the bottom, whose size is capped only at the
size of the whole stack. Addresses and words have 32 bits.
-/

namespace LibPthread.Stack

/-- The sum of two addresses. -/
def add (a b : Nat) : Nat :=
  (a + b) % 2 ^ 32

/-- The difference of two addresses. -/
def sub (a b : Nat) : Nat :=
  (a + (2 ^ 32 - b % 2 ^ 32)) % 2 ^ 32

/-- `n` rounded up to a multiple of `a`. -/
def roundUp (a n : Nat) : Nat :=
  (n + (a - 1)) / a * a

/-- The words in memory, and the pages without rights. -/
structure Memory where
  word : Nat → Nat
  inaccessible : Nat → Bool

/-- The page `p` is touched by the first `guardsize` bytes from `bottom` on. -/
def GuardPage (page bottom guardsize p : Nat) : Prop :=
  bottom ≤ p * page ∧ p * page < bottom + guardsize

instance (page bottom guardsize p : Nat) : Decidable (GuardPage page bottom guardsize p) :=
  inferInstanceAs (Decidable (_ ∧ _))

namespace Memory

/-- `*a = v`. -/
@[simps]
def store (m : Memory) (a v : Nat) : Memory :=
  { m with word := Function.update m.word a v }

/-- `__vm_protect` without any rights, at the address of a page. -/
@[simps]
def protect (m : Memory) (page bottom guardsize : Nat) : Memory :=
  { m with inaccessible := fun p => m.inaccessible p || decide (GuardPage page bottom guardsize p) }

end Memory

/-- The fields of `struct __pthread` that `stack_setup` reads, and the address of the structure. -/
structure Pthread where
  address : Nat
  stackaddr : Nat
  stacksize : Nat
  guardsize : Nat
  deriving DecidableEq, Repr

/-- `pthread->guardsize`, as `__pthread_create_internal` sets it. -/
def setupGuardsize (setup : Thread.Attr) : Nat :=
  if setup.stackaddr.isSome then 0
  else if setup.guardsize ≤ setup.stacksize then setup.guardsize else setup.stacksize

/-- The address of the frame without its return address: `top` after the lines for the thread
variables and the call frame. `threadvarMax` is `__hurd_threadvar_max`, and the mask is
`top & ~0xf`. -/
def frameTop (threadvarMax : Nat) (thread : Pthread) : Nat :=
  let top := add thread.stackaddr thread.stacksize
  let top := sub top (4 * threadvarMax)
  let top := sub top (4 * 3)
  top / 16 * 16

/-- `stack_setup`: the stack pointer for the new thread, and the memory. A null pointer is `0`. -/
def stackSetup (page threadvarMax : Nat) (thread : Pthread) (start_routine arg : Nat)
    (m : Memory) : Nat × Memory :=
  let bottom := thread.stackaddr
  let frame : Nat × Memory :=
    if start_routine ≠ 0 then
      let top := frameTop threadvarMax thread
      let m := m.store (add top 8) arg
      let m := m.store (add top 4) start_routine
      let m := m.store top thread.address
      let top := sub top 4
      (top, m.store top 0)
    else (sub (add bottom thread.stacksize) (4 * threadvarMax), m)
  if thread.guardsize ≠ 0 then (frame.1, frame.2.protect page bottom thread.guardsize) else frame

/-- What the entry point of a thread relies on: the frame of a call of `entry_point` from nowhere
is at `sp`, aligned as the compiler expects it, and this frame and the words of the thread
variables above it are inside of the stack and outside of the guard. -/
structure Framed (page threadvarMax : Nat) (thread : Pthread) (start_routine arg sp : Nat)
    (m : Memory) : Prop where
  aligned : 16 ∣ sp + 4
  returnAddress : m.word sp = 0
  self : m.word (sp + 4) = thread.address
  routine : m.word (sp + 8) = start_routine
  argument : m.word (sp + 12) = arg
  bottom : thread.stackaddr ≤ sp
  top : sp + 16 + 4 * threadvarMax ≤ thread.stackaddr + thread.stacksize
  frame : ∀ a, sp ≤ a → a < sp + 16 →
    ¬ GuardPage page thread.stackaddr thread.guardsize (a / page)
  threadvars : ∀ a, thread.stackaddr + thread.stacksize ≤ a + 4 * threadvarMax →
    a < thread.stackaddr + thread.stacksize →
    ¬ GuardPage page thread.stackaddr thread.guardsize (a / page)

/-! ### Rounding -/

theorem le_roundUp {a : Nat} (n : Nat) (ha : 0 < a) :
  n ≤ roundUp a n
  := by
  have hdiv := Nat.div_add_mod (n + (a - 1)) a
  have hmod := Nat.mod_lt (n + (a - 1)) ha
  rw [roundUp, Nat.mul_comm]
  omega

theorem dvd_roundUp (a n : Nat) :
  a ∣ roundUp a n
  := Nat.dvd_mul_left a _

/-- The rounded number is the least multiple that is not smaller. -/
theorem roundUp_le {a n k : Nat} (ha : 0 < a) (hn : n ≤ k) (hk : a ∣ k) :
  roundUp a n ≤ k
  := by
  obtain ⟨q, rfl⟩ := hk
  have hq : (n + (a - 1)) / a < q + 1 := by
    apply Nat.div_lt_of_lt_mul
    rw [Nat.mul_succ]
    omega
  rw [roundUp, Nat.mul_comm a q]
  exact Nat.mul_le_mul_right a (Nat.le_of_lt_succ hq)

/-- A multiple of `a` not above `n` is not above `n` rounded down. -/
theorem le_div_mul {a k n : Nat} (ha : 0 < a) (hk : a ∣ k) (hn : k ≤ n) :
  k ≤ n / a * a
  := by
  obtain ⟨q, rfl⟩ := hk
  rw [Nat.mul_comm a q]
  apply Nat.mul_le_mul_right
  rw [Nat.le_div_iff_mul_le ha, Nat.mul_comm]
  exact hn

/-! ### Where the frame is -/

variable {page threadvarMax start_routine arg : Nat} {thread : Pthread} {m : Memory}

theorem stackSetup_sp (hstart : start_routine ≠ 0) :
  (stackSetup page threadvarMax thread start_routine arg m).1
    = sub (frameTop threadvarMax thread) 4
  := by
  simp only [stackSetup, hstart, ne_eq, not_false_eq_true, if_true]
  split <;> rfl

/-- The frame is above its address, and below the thread variables, as long as both fit below the
top of the stack. -/
theorem frameTop_eq {top : Nat} (htop : thread.stackaddr + thread.stacksize = top)
    (hle : top ≤ 2 ^ 32) (haligned : 16 ∣ top) (hroom : 4 * threadvarMax + 12 ≤ top) :
  frameTop threadvarMax thread = top - roundUp 16 (4 * threadvarMax + 12)
  := by
  have hbase : sub (sub (add thread.stackaddr thread.stacksize) (4 * threadvarMax)) (4 * 3)
      = top - (4 * threadvarMax + 12) := by
    simp only [add, sub, htop]
    omega
  have hmask : (top - (4 * threadvarMax + 12)) / 16 * 16
      = top - (4 * threadvarMax + 12 + (16 - 1)) / 16 * 16 := by
    omega
  rw [frameTop, hbase, hmask, roundUp]

theorem frameTop_lt (threadvarMax : Nat) (thread : Pthread) :
  frameTop threadvarMax thread < 2 ^ 32 ∧ 16 ∣ frameTop threadvarMax thread
  := by
  constructor
  · apply lt_of_le_of_lt (Nat.div_mul_le_self _ _)
    exact Nat.mod_lt _ (by decide)
  · exact Nat.dvd_mul_left 16 _

/-- The words of the frame. -/
theorem stackSetup_word (hstart : start_routine ≠ 0) {sp : Nat}
    (hsp : (stackSetup page threadvarMax thread start_routine arg m).1 = sp)
    (hle : sp + 16 ≤ 2 ^ 32) :
  (stackSetup page threadvarMax thread start_routine arg m).2.word sp = 0
    ∧ (stackSetup page threadvarMax thread start_routine arg m).2.word (sp + 4) = thread.address
    ∧ (stackSetup page threadvarMax thread start_routine arg m).2.word (sp + 8) = start_routine
    ∧ (stackSetup page threadvarMax thread start_routine arg m).2.word (sp + 12) = arg
  := by
  rw [stackSetup_sp hstart] at hsp
  obtain ⟨hlt, haligned⟩ := frameTop_lt threadvarMax thread
  have hword : (stackSetup page threadvarMax thread start_routine arg m).2.word =
      ((((m.store (add (frameTop threadvarMax thread) 8) arg).store
        (add (frameTop threadvarMax thread) 4) start_routine).store
        (frameTop threadvarMax thread) thread.address).store sp 0).word := by
    simp only [stackSetup, hstart, ne_eq, not_false_eq_true, if_true, hsp]
    split <;> rfl
  generalize frameTop threadvarMax thread = top at *
  have htop : top = sp + 4 := by
    rw [sub] at hsp
    omega
  have h₈ : add top 8 = sp + 12 := by
    rw [add]
    omega
  have h₄ : add top 4 = sp + 8 := by
    rw [add]
    omega
  rw [hword, h₈, h₄, htop]
  simp

/-! ### The guard -/

/-- The pages of the guard end at or below an address that is above the bottom and outside of
them. -/
theorem end_le_of_outside {bottom guardsize sp : Nat} (hpage : 0 < page) (hbottom : page ∣ bottom)
    (hsp : bottom ≤ sp) (h : ¬ GuardPage page bottom guardsize (sp / page)) :
  bottom + roundUp page guardsize ≤ sp
  := by
  have hlow : bottom ≤ sp / page * page := le_div_mul hpage hbottom hsp
  have hhigh : bottom + guardsize ≤ sp / page * page := by
    by_contra hlt
    exact h ⟨hlow, not_le.mp hlt⟩
  have hround : roundUp page guardsize ≤ sp / page * page - bottom := by
    apply roundUp_le hpage (by omega)
    exact Nat.dvd_sub (Nat.dvd_mul_left _ _) hbottom
  have := Nat.div_mul_le_self sp page
  omega

theorem outside_of_end_le {bottom guardsize a : Nat} (hpage : 0 < page) (hbottom : page ∣ bottom)
    (ha : bottom + roundUp page guardsize ≤ a) :
  ¬ GuardPage page bottom guardsize (a / page)
  := by
  rintro ⟨-, hlt⟩
  have hguard := le_roundUp guardsize hpage
  have hend : bottom + roundUp page guardsize ≤ a / page * page := by
    apply le_div_mul hpage _ ha
    exact Nat.dvd_add hbottom (dvd_roundUp _ _)
  omega

/-! ### The frame -/

/-- The structure of a new thread on the stack at `bottom`. -/
@[simps]
def Pthread.create (setup : Thread.Attr) (address bottom : Nat) : Pthread where
  address := address
  stackaddr := bottom
  stacksize := setup.stacksize
  guardsize := setupGuardsize setup

/-- The first frame of a thread is as it should be exactly when the pages of the guard, the thread
variables and the frame fit into the stack. -/
theorem framed_iff (Y : Layout) (hwords : 16 ∣ Y.page) (setup : Thread.Attr)
    (hsize : setup.stacksize = Y.stacksize) (bottom threadvarMax address start_routine arg : Nat)
    (hbottom : Y.stacksize ∣ bottom) (hspace : bottom + Y.stacksize ≤ 2 ^ 32)
    (hstart : start_routine ≠ 0) (m : Memory) :
  Framed Y.page threadvarMax (.create setup address bottom) start_routine arg
      (stackSetup Y.page threadvarMax (.create setup address bottom) start_routine arg m).1
      (stackSetup Y.page threadvarMax (.create setup address bottom) start_routine arg m).2
    ↔ roundUp Y.page (setupGuardsize setup) + roundUp 16 (4 * threadvarMax + 12) + 4
      ≤ setup.stacksize
  := by
  have hpage : 0 < Y.page := Nat.pos_of_dvd_of_pos Y.page_dvd (by decide)
  have hpageBottom : Y.page ∣ bottom := Y.page_dvd_stacksize.trans hbottom
  have haligned : 16 ∣ bottom + Y.stacksize := by
    apply Nat.dvd_add
    · exact hwords.trans hpageBottom
    · exact hwords.trans Y.page_dvd_stacksize
  have hround := le_roundUp (4 * threadvarMax + 12) (a := 16) (by decide)
  have hroundAligned := dvd_roundUp 16 (4 * threadvarMax + 12)
  have htop : (Pthread.create setup address bottom).stackaddr
      + (Pthread.create setup address bottom).stacksize = bottom + Y.stacksize := by
    simp [hsize]
  constructor
  · intro h
    have hlow := h.bottom
    have hhigh := h.top
    have hguard := end_le_of_outside hpage hpageBottom hlow
      (h.frame _ le_rfl (Nat.lt_add_of_pos_right (by decide)))
    rw [htop] at hhigh
    have hroom : 4 * threadvarMax + 12 ≤ bottom + Y.stacksize := by
      omega
    have hle : roundUp 16 (4 * threadvarMax + 12) ≤ bottom + Y.stacksize :=
      roundUp_le (by decide) hroom haligned
    rw [stackSetup_sp hstart, frameTop_eq htop hspace haligned hroom] at hlow hhigh hguard
    simp only [Pthread.create_stackaddr, Pthread.create_guardsize, sub] at hlow hhigh hguard
    omega
  · intro h
    have hroom : 4 * threadvarMax + 12 ≤ bottom + Y.stacksize := by
      omega
    have hframe := frameTop_eq htop hspace haligned hroom
    have hsp : (stackSetup Y.page threadvarMax (.create setup address bottom) start_routine arg
        m).1 = bottom + Y.stacksize - roundUp 16 (4 * threadvarMax + 12) - 4 := by
      rw [stackSetup_sp hstart, hframe, sub]
      omega
    obtain ⟨hzero, hself, hroutine, harg⟩ := stackSetup_word hstart hsp (by omega)
    rw [hsp]
    have houtside : ∀ a, bottom + Y.stacksize - roundUp 16 (4 * threadvarMax + 12) - 4 ≤ a →
        ¬ GuardPage Y.page bottom (setupGuardsize setup) (a / Y.page) := by
      intro a ha
      apply outside_of_end_le hpage hpageBottom
      omega
    refine ⟨by omega, hzero, hself, hroutine, harg, ?_, ?_, ?_, ?_⟩
    · simp only [Pthread.create_stackaddr]
      omega
    · rw [htop]
      omega
    · intro a ha _
      exact houtside a ha
    · intro a ha _
      rw [htop] at ha
      apply houtside
      omega

/-- A stack of 64 KiB with a guard of one page. -/
theorem framed_iff_page :
  Framed 4096 6 (.create ⟨false, none, 0x10000, 4096⟩ 1 0x10000) 2 3
    (stackSetup 4096 6 (.create ⟨false, none, 0x10000, 4096⟩ 1 0x10000) 2 3
      ⟨fun _ => 0, fun _ => false⟩).1
    (stackSetup 4096 6 (.create ⟨false, none, 0x10000, 4096⟩ 1 0x10000) 2 3
      ⟨fun _ => 0, fun _ => false⟩).2
  := by
  have h := framed_iff (below3G 0x10000 (by decide) (by decide) (by decide)) (by decide)
    ⟨false, none, 0x10000, 4096⟩ rfl 0x10000 6 1 2 3 (by decide) (by decide) (by decide)
    ⟨fun _ => 0, fun _ => false⟩
  exact h.mpr (by decide)

/-- With a guard as large as the stack, the frame is inside of the guard. -/
theorem not_framed_of_guard :
  ¬ ∀ (setup : Thread.Attr) (m : Memory), setup.stacksize = 0x10000 →
    Framed 4096 6 (.create setup 1 0x10000) 2 3
      (stackSetup 4096 6 (.create setup 1 0x10000) 2 3 m).1
      (stackSetup 4096 6 (.create setup 1 0x10000) 2 3 m).2
  := by
  intro h
  have hframed := h ⟨false, none, 0x10000, 0x10000⟩ ⟨fun _ => 0, fun _ => false⟩ rfl
  apply hframed.frame _ le_rfl (Nat.lt_add_of_pos_right (by decide))
  decide

end LibPthread.Stack
