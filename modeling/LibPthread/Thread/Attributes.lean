import LibPthread.Thread.Structures

/-!
# Attribute objects

`struct __pthread_attr` with the functions that fill it in, and `pthread_getattr_np`, which makes
an attribute object of a running thread. All stacks have the default size. The Hurd has its own
`pthread_attr_setstackaddr` and `pthread_attr_setstacksize`, which also want the stacks at the
multiples of this size.
-/

open Concurrency

namespace LibPthread.Thread

/-- The directory in which `pthread_attr_setstackaddr` and `pthread_attr_setstacksize` are
defined. -/
inductive Port where
  | generic
  | hurd
  deriving DecidableEq, Repr

/-- The error codes of the functions on attribute objects. -/
inductive Refusal where
  | EINVAL
  | ENOTSUP
  | ESRCH
  deriving DecidableEq, Repr

/-- `enum __pthread_inheritsched`. -/
inductive Inheritsched where
  | explicitSched
  | inheritSched
  deriving DecidableEq, Repr

/-- `enum __pthread_contentionscope`. -/
inductive Contentionscope where
  | system
  | process
  deriving DecidableEq, Repr

/-- The scheduling policies `SCHED_OTHER`, `SCHED_FIFO` and `SCHED_RR`. -/
inductive Schedpolicy where
  | other
  | fifo
  | rr
  deriving DecidableEq, Repr

/-- `struct __pthread_attr`, with the fields that a creation does not read; `schedparam` is
`schedparam.sched_priority`. -/
structure PthreadAttr extends Attr where
  schedparam : Int
  inheritsched : Inheritsched
  contentionscope : Contentionscope
  schedpolicy : Schedpolicy
  deriving DecidableEq, Repr

/-- `__pthread_default_attr`, or `*attr` after `pthread_attr_init (attr)`. -/
@[simps toAttr]
def Task.defaultPthreadAttr (L : Task) : PthreadAttr where
  toAttr := L.defaultAttr
  schedparam := 0
  inheritsched := .explicitSched
  contentionscope := .system
  schedpolicy := .other

/-- A pointer, which is `NULL` for the address `0`. -/
def ofAddress (a : Nat) : Option Nat :=
  if a = 0 then none else some a

namespace PthreadAttr

/-! ### The setters -/

/-- A setter that chooses by its argument: it stores the value of the case, or refuses it. -/
def choose {V : Type} (case : Int → Except Refusal V) (store : PthreadAttr → V → PthreadAttr)
    (attr : PthreadAttr) (n : Int) : PthreadAttr × Option Refusal :=
  match case n with
  | .ok v => (store attr v, none)
  | .error e => (attr, some e)

/-- `pthread_attr_setdetachstate`. -/
def setdetachstate (attr : PthreadAttr) (detachstate : Int) : PthreadAttr × Option Refusal :=
  choose (fun n => if n = 1 then .ok true else if n = 0 then .ok false else .error .EINVAL)
    (fun attr v => { attr with detached := v }) attr detachstate

/-- `pthread_attr_setinheritsched`. -/
def setinheritsched (attr : PthreadAttr) (inheritsched : Int) : PthreadAttr × Option Refusal :=
  choose
    (fun n => if n = 1 then .ok .inheritSched else if n = 0 then .ok .explicitSched
      else .error .EINVAL)
    (fun attr v => { attr with inheritsched := v }) attr inheritsched

/-- `pthread_attr_setschedparam`; only the default priority is supported. -/
def setschedparam (attr : PthreadAttr) (param : Int) : PthreadAttr × Option Refusal :=
  choose (fun n => if n = 0 then .ok n else .error .ENOTSUP)
    (fun attr v => { attr with schedparam := v }) attr param

/-- `pthread_attr_setschedpolicy`. -/
def setschedpolicy (attr : PthreadAttr) (policy : Int) : PthreadAttr × Option Refusal :=
  choose
    (fun n => if n = 0 then .ok .other else if n = 1 ∨ n = 2 then .error .ENOTSUP
      else .error .EINVAL)
    (fun attr v => { attr with schedpolicy := v }) attr policy

/-- `pthread_attr_setscope`; the default scope is the only one that is supported. -/
def setscope (attr : PthreadAttr) (contentionscope : Int) : PthreadAttr × Option Refusal :=
  choose
    (fun n => if n = 0 then .ok .system else if n = 1 then .error .ENOTSUP else .error .EINVAL)
    (fun attr v => { attr with contentionscope := v }) attr contentionscope

/-- `pthread_attr_setguardsize`. -/
def setguardsize (attr : PthreadAttr) (guardsize : Nat) : PthreadAttr × Option Refusal :=
  ({ attr with guardsize := guardsize }, none)

/-- `pthread_attr_setstackaddr`, where the default size of a stack is `size`. -/
def setstackaddr (y : Port) (size : Nat) (attr : PthreadAttr) (stackaddr : Nat) :
    PthreadAttr × Option Refusal :=
  match y with
  | .generic => ({ attr with stackaddr := ofAddress stackaddr }, none)
  | .hurd =>
    if stackaddr &&& (size - 1) ≠ 0 then (attr, some .EINVAL)
    else ({ attr with stackaddr := ofAddress stackaddr }, none)

/-- `pthread_attr_setstacksize`. The generic one squashes a guard that is larger than the
stack. -/
def setstacksize (y : Port) (size : Nat) (attr : PthreadAttr) (stacksize : Nat) :
    PthreadAttr × Option Refusal :=
  match y with
  | .generic =>
    if stacksize = size then
      ({ attr with
          stacksize := stacksize
          guardsize := if attr.guardsize > stacksize then stacksize else attr.guardsize }, none)
    else (attr, some .ENOTSUP)
  | .hurd =>
    if stacksize ≠ size then (attr, some .EINVAL) else ({ attr with stacksize := stacksize }, none)

/-- `pthread_attr_setstack`; there is no result when the assertion fails. -/
def setstack (b : Build) (y : Port) (size : Nat) (attr : PthreadAttr) (stackaddr stacksize : Nat) :
    Option (PthreadAttr × Option Refusal) :=
  let s := attr.stacksize
  match attr.setstacksize y size stacksize with
  | (attr, some err) => some (attr, some err)
  | (attr, none) =>
    match attr.setstackaddr y size stackaddr with
    | (attr, none) => some (attr, none)
    | (attr, some err) =>
      let (attr, e) := attr.setstacksize y size s
      if b.ndebug ∨ e = none then some (attr, some err) else none

/-- The setters, with their arguments. -/
inductive Setter where
  | detachstate (n : Int)
  | inheritsched (n : Int)
  | schedparam (n : Int)
  | schedpolicy (n : Int)
  | scope (n : Int)
  | guardsize (n : Nat)
  | stackaddr (a : Nat)
  | stacksize (n : Nat)
  | stack (a n : Nat)
  deriving DecidableEq, Repr

/-- A call of a setter. -/
def set (b : Build) (y : Port) (size : Nat) (attr : PthreadAttr) :
    Setter → Option (PthreadAttr × Option Refusal)
  | .detachstate n => some (attr.setdetachstate n)
  | .inheritsched n => some (attr.setinheritsched n)
  | .schedparam n => some (attr.setschedparam n)
  | .schedpolicy n => some (attr.setschedpolicy n)
  | .scope n => some (attr.setscope n)
  | .guardsize n => some (attr.setguardsize n)
  | .stackaddr a => some (attr.setstackaddr y size a)
  | .stacksize n => some (attr.setstacksize y size n)
  | .stack a n => attr.setstack b y size a n

end PthreadAttr

/-- `pthread_getattr_np`; `base k` is the address of the stack `k`. There is no result when the
table has no entry for the ID. -/
def Task.getattr (L : Task) (base : Nat → Nat) (thread : Nat) :
    Option (Except Refusal PthreadAttr) :=
  match L.table.get thread with
  | some (.entry p) =>
    some (.ok { L.defaultPthreadAttr with
      stackaddr :=
        match (L.structs p).stackaddr with
        | .user a => some a
        | .allocated k => ofAddress (base k)
      stacksize := (L.structs p).stacksize
      guardsize := (L.structs p).guardsize
      detached := (L.structs p).state = .detached })
  | some .null => some (.error .ESRCH)
  | _ => none

/-! ### What an attribute object can hold -/

/-- The stack that an attribute asks for has the default size and, on the Hurd, lies at a multiple
of it. -/
structure Attr.Valid (y : Port) (size : Nat) (attr : Attr) : Prop where
  stacksize : attr.stacksize = size
  aligned : y = .hurd → ∀ a ∈ attr.stackaddr, size ∣ a

/-- The attribute object asks for a stack of the default size, and for nothing that is not
supported. -/
structure PthreadAttr.Valid (y : Port) (size : Nat) (attr : PthreadAttr) : Prop
    extends attr.toAttr.Valid y size where
  schedparam : attr.schedparam = 0
  contentionscope : attr.contentionscope = .system
  schedpolicy : attr.schedpolicy = .other

namespace PthreadAttr

variable {b : Build} {y : Port} {size : Nat} {attr attr' : PthreadAttr}

/-- What `pthread_attr_setstack` does to an object with the default size: it sets both the size and
the address or, whatever it refuses, nothing. -/
theorem Valid.setstack (h : attr.Valid y size) (hsize : ∃ k, size = 2 ^ k)
    (stackaddr stacksize : Nat) :
  ∃ attr' r, attr.setstack b y size stackaddr stacksize = some (attr', r) ∧
    (r = none ↔ stacksize = size ∧ (y = .hurd → size ∣ stackaddr)) ∧
    (r = none → attr'.stackaddr = ofAddress stackaddr ∧ attr'.stacksize = stacksize) ∧
    (r ≠ none → attr' = attr)
  := by
  obtain ⟨k, rfl⟩ := hsize
  obtain ⟨⟨hs, -⟩, -, -, -⟩ := h
  obtain ⟨⟨detached, oldaddr, oldsize, guardsize⟩, schedparam, inheritsched, scope, policy⟩ := attr
  obtain rfl : oldsize = 2 ^ k := hs
  by_cases hstack : stacksize = 2 ^ k
  · cases y with
    | generic => simp [PthreadAttr.setstack, setstacksize, setstackaddr, hstack]
    | hurd =>
        by_cases haddr : stackaddr % 2 ^ k = 0
        · have hdvd := Nat.dvd_of_mod_eq_zero haddr
          simp [PthreadAttr.setstack, setstacksize, setstackaddr, hstack, haddr, hdvd]
        · -- the size that is set again is the default one
          have hdvd : ¬ 2 ^ k ∣ stackaddr := mt Nat.mod_eq_zero_of_dvd haddr
          simp [PthreadAttr.setstack, setstacksize, setstackaddr, hstack, haddr, hdvd]
  · cases y <;> simp [PthreadAttr.setstack, setstacksize, hstack]

theorem Valid.setstackaddr (h : attr.Valid y size) (hsize : ∃ k, size = 2 ^ k) (stackaddr : Nat) :
  (attr.setstackaddr y size stackaddr).1.Valid y size
  := by
  obtain ⟨k, rfl⟩ := hsize
  obtain ⟨⟨hs, haddr⟩, hparam, hscope, hpolicy⟩ := h
  cases y with
  | generic => exact ⟨⟨hs, by simp⟩, hparam, hscope, hpolicy⟩
  | hurd =>
      by_cases hmask : stackaddr % 2 ^ k = 0
      · simp only [PthreadAttr.setstackaddr, Nat.and_two_pow_sub_one_eq_mod, hmask, ne_eq,
          not_true_eq_false, if_false]
        refine ⟨⟨hs, ?_⟩, hparam, hscope, hpolicy⟩
        intro _ a ha
        rw [ofAddress] at ha
        split at ha
        · cases ha
        · obtain rfl := Option.some.inj ha
          apply Nat.dvd_of_mod_eq_zero hmask
      · simp only [PthreadAttr.setstackaddr, Nat.and_two_pow_sub_one_eq_mod, hmask, ne_eq,
          not_false_eq_true, if_true]
        exact ⟨⟨hs, haddr⟩, hparam, hscope, hpolicy⟩

theorem Valid.setstacksize (h : attr.Valid y size) (stacksize : Nat) :
  (attr.setstacksize y size stacksize).1.Valid y size
  := by
  by_cases hstack : stacksize = size
  · cases y with
    | generic =>
        simp only [PthreadAttr.setstacksize, hstack, if_true]
        exact ⟨⟨rfl, h.aligned⟩, h.schedparam, h.contentionscope, h.schedpolicy⟩
    | hurd =>
        simp only [PthreadAttr.setstacksize, hstack, ne_eq, not_true_eq_false, if_false]
        exact ⟨⟨rfl, h.aligned⟩, h.schedparam, h.contentionscope, h.schedpolicy⟩
  · cases y <;> simpa [PthreadAttr.setstacksize, hstack] using h

theorem Valid.of_setstack (h : attr.Valid y size) (hsize : ∃ k, size = 2 ^ k)
    {stackaddr stacksize : Nat} {r : Option Refusal}
    (hset : attr.setstack b y size stackaddr stacksize = some (attr', r)) :
  attr'.Valid y size
  := by
  have hfirst := h.setstacksize stacksize
  simp only [PthreadAttr.setstack] at hset
  split at hset
  · rename_i attr₁ err heq
    obtain ⟨rfl, -⟩ := Prod.mk.inj (Option.some.inj hset)
    simpa [heq] using hfirst
  · rename_i attr₁ heq
    rw [heq] at hfirst
    have hsecond := hfirst.setstackaddr hsize stackaddr
    split at hset
    · rename_i attr₂ heq₂
      obtain ⟨rfl, -⟩ := Prod.mk.inj (Option.some.inj hset)
      simpa [heq₂] using hsecond
    · rename_i attr₂ err heq₂
      rw [heq₂] at hsecond
      split at hset
      · obtain ⟨rfl, -⟩ := Prod.mk.inj (Option.some.inj hset)
        apply hsecond.setstacksize
      · cases hset

/-- A setter that chooses by its argument keeps the object valid if its stores do. -/
theorem Valid.choose (h : attr.Valid y size) {V : Type} {case : Int → Except Refusal V}
    {store : PthreadAttr → V → PthreadAttr} {n : Int}
    (hstore : ∀ v, case n = .ok v → (store attr v).Valid y size) :
  ∃ attr' r, some (choose case store attr n) = some (attr', r) ∧ attr'.Valid y size
  := by
  refine ⟨_, _, rfl, ?_⟩
  cases hcase : case n with
  | ok v => apply hstore v hcase
  | error e => apply h

/-- Every setter returns, and it keeps the object valid. -/
theorem Valid.set (h : attr.Valid y size) (hsize : ∃ k, size = 2 ^ k) (x : Setter) :
  ∃ attr' r, attr.set b y size x = some (attr', r) ∧ attr'.Valid y size
  := by
  cases x with
  | detachstate n =>
      refine h.choose fun v _ => ?_
      exact ⟨⟨h.stacksize, h.aligned⟩, h.schedparam, h.contentionscope, h.schedpolicy⟩
  | inheritsched n =>
      refine h.choose fun v _ => ?_
      exact ⟨⟨h.stacksize, h.aligned⟩, h.schedparam, h.contentionscope, h.schedpolicy⟩
  | schedparam n =>
      refine h.choose fun v hv => ?_
      split at hv
      · rename_i hzero
        obtain rfl := Except.ok.inj hv
        exact ⟨⟨h.stacksize, h.aligned⟩, hzero, h.contentionscope, h.schedpolicy⟩
      · cases hv
  | schedpolicy n =>
      refine h.choose fun v hv => ?_
      split at hv
      · obtain rfl := Except.ok.inj hv
        exact ⟨⟨h.stacksize, h.aligned⟩, h.schedparam, h.contentionscope, rfl⟩
      · split at hv
        · cases hv
        · cases hv
  | scope n =>
      refine h.choose fun v hv => ?_
      split at hv
      · obtain rfl := Except.ok.inj hv
        exact ⟨⟨h.stacksize, h.aligned⟩, h.schedparam, rfl, h.schedpolicy⟩
      · split at hv
        · cases hv
        · cases hv
  | guardsize n =>
      refine ⟨_, _, rfl, ?_⟩
      exact ⟨⟨h.stacksize, h.aligned⟩, h.schedparam, h.contentionscope, h.schedpolicy⟩
  | stackaddr a => exact ⟨_, _, rfl, h.setstackaddr hsize a⟩
  | stacksize n => exact ⟨_, _, rfl, h.setstacksize n⟩
  | stack a n =>
      obtain ⟨attr', r, hset, -⟩ := h.setstack (b := b) hsize a n
      exact ⟨attr', r, hset, h.of_setstack hsize hset⟩

end PthreadAttr

end LibPthread.Thread
