import LibPthread.Concurrency.Ledger
import LibPthread.Mutex.Functions
import Mathlib.Data.Set.Card

/-!
# The attributes of objects

Mutexes, condition variables, rwlocks and barriers are initialized with attributes that are
filled in before. An object gets its own copy of the attributes, in a block from `malloc`; the
test that is to spare it the copy of default attributes compares no bytes, as `sizeof` is compared
with `0` inside of the call of `memcmp`. Only `pthread_mutex_destroy` frees the block: those of the
other objects are lost.

Every block has a serial number; the fields of an object other than the pointer to its attributes
are not part of this model.
-/

open Concurrency

namespace LibPthread.Lifecycle

/-- The error codes of the functions on attributes and of the initializers. -/
inductive Refusal where
  | EINVAL
  | ENOTSUP
  | ENOMEM
  deriving DecidableEq, Repr

/-- The kinds of objects. -/
inductive Kind where
  | mutex
  | cond
  | rwlock
  | barrier
  deriving DecidableEq, Repr

/-- `enum __pthread_process_shared`. -/
inductive Pshared where
  | processPrivate
  | processShared
  deriving DecidableEq, Repr

/-- `enum __pthread_mutex_protocol`. -/
inductive Protocol where
  | none
  | inherit
  | protect
  deriving DecidableEq, Repr

/-- The clocks `CLOCK_REALTIME` and `CLOCK_MONOTONIC`. -/
inductive Clock where
  | realtime
  | monotonic
  deriving DecidableEq, Repr

/-- `struct __pthread_mutexattr`, `struct __pthread_condattr`, `struct __pthread_rwlockattr` and
`struct __pthread_barrierattr`. -/
inductive Attr where
  | mutex (prioceiling : Int) (protocol : Protocol) (pshared : Pshared) (mutex_type : MutexType)
  | cond (pshared : Pshared) (clock : Clock)
  | rwlock (pshared : Pshared)
  | barrier (pshared : Pshared)
  deriving DecidableEq

namespace Attr

/-- The kind of the objects that have the attributes. -/
def kind : Attr → Kind
  | .mutex _ _ _ _ => .mutex
  | .cond _ _ => .cond
  | .rwlock _ => .rwlock
  | .barrier _ => .barrier

/-- `__pthread_default_mutexattr` and its likes. -/
def default : Kind → Attr
  | .mutex => .mutex 0 .none .processPrivate .normal
  | .cond => .cond .processPrivate .realtime
  | .rwlock => .rwlock .processPrivate
  | .barrier => .barrier .processPrivate

/-- A setter stores the value of its argument, or refuses it. -/
def assign {V : Type} (attr : Attr) (store : V → Attr) (value : Except Refusal V) :
    Attr × Option Refusal :=
  match value with
  | .ok v => (store v, none)
  | .error e => (attr, some e)

/-- `pthread_mutexattr_settype`, for the attributes of a mutex. -/
def settype (attr : Attr) (type : Int) : Option (Attr × Option Refusal) :=
  match attr with
  | .mutex prioceiling protocol pshared _ =>
    some (assign attr (.mutex prioceiling protocol pshared)
      (if type = 0 then .ok .normal else if type = 1 then .ok .errorcheck
        else if type = 2 then .ok .recursive else .error .EINVAL))
  | _ => none

/-- `pthread_mutexattr_setprotocol`; only the default is supported. -/
def setprotocol (attr : Attr) (protocol : Int) : Option (Attr × Option Refusal) :=
  match attr with
  | .mutex prioceiling _ pshared mutex_type =>
    some (assign attr (fun v => .mutex prioceiling v pshared mutex_type)
      (if protocol = 0 then .ok .none else if protocol = 1 ∨ protocol = 2 then .error .ENOTSUP
        else .error .EINVAL))
  | _ => none

/-- `pthread_condattr_setclock`; `available` when `clock_getres` knows the monotonic clock, whose
first answer is kept in `avail`. -/
def setclock (attr : Attr) (clock : Int) (available : Bool) : Option (Attr × Option Refusal) :=
  match attr with
  | .cond pshared _ =>
    some (assign attr (.cond pshared)
      (if clock = 1 then if available then .ok .monotonic else .error .EINVAL
        else if clock = 0 then .ok .realtime else .error .EINVAL))
  | _ => none

/-- The `switch` that the four functions that set `pshared` share; `store` sets the field. -/
def switchPshared (attr : Attr) (store : Pshared → Attr) (n : Int) : Attr × Option Refusal :=
  assign attr store
    (if n = 0 then .ok .processPrivate else if n = 1 then .error .ENOTSUP else .error .EINVAL)

/-- `pthread_mutexattr_setpshared`. -/
def mutexattrSetpshared (prioceiling : Int) (protocol : Protocol) (pshared : Pshared)
    (mutex_type : MutexType) : Int → Attr × Option Refusal :=
  switchPshared (.mutex prioceiling protocol pshared mutex_type)
    (fun v => .mutex prioceiling protocol v mutex_type)

/-- `pthread_condattr_setpshared`. -/
def condattrSetpshared (pshared : Pshared) (clock : Clock) : Int → Attr × Option Refusal :=
  switchPshared (.cond pshared clock) (fun v => .cond v clock)

/-- `pthread_rwlockattr_setpshared`. -/
def rwlockattrSetpshared (pshared : Pshared) : Int → Attr × Option Refusal :=
  switchPshared (.rwlock pshared) .rwlock

/-- `pthread_barrierattr_setpshared`. -/
def barrierattrSetpshared (pshared : Pshared) : Int → Attr × Option Refusal :=
  switchPshared (.barrier pshared) .barrier

/-- The function that sets `pshared` for attributes of this kind. -/
def setpshared : Attr → Int → Attr × Option Refusal
  | .mutex prioceiling protocol pshared mutex_type =>
    mutexattrSetpshared prioceiling protocol pshared mutex_type
  | .cond pshared clock => condattrSetpshared pshared clock
  | .rwlock pshared => rwlockattrSetpshared pshared
  | .barrier pshared => barrierattrSetpshared pshared

end Attr

/-- A pointer to attributes; two pointers that are no addresses stand for the attributes of
error-checking and of recursive mutexes. -/
inductive Pointer where
  | null
  | errorcheck
  | recursive
  | block (k : Nat)
  deriving DecidableEq, Repr

/-- An object with its pointer to attributes, which is left in memory when the object is not in
use. -/
inductive Object where
  | idle (attr : Pointer)
  | initialized (attr : Pointer)
  deriving DecidableEq, Repr

/-- The block that an object in use points to. -/
def Object.holds : Object → Option Nat
  | .initialized (.block k) => some k
  | _ => none

/-- The blocks that `malloc` has returned with their contents, the attributes of the program, the
objects by their kind and name, and `avail` of `pthread_condattr_setclock`. -/
structure State (N : Type) where
  blocks : Ledger
  contents : Nat → Attr
  attrs : Nat → Option Attr
  object : Kind × N → Object
  avail : Option Bool

/-- The calls; `attr` is the name of attributes of the program, and the last argument of `init` is
the answer of `malloc`. -/
inductive Op (N : Type) where
  | attrInit (attr : Nat) (kind : Kind)
  | settype (attr : Nat) (type : Int)
  | setprotocol (attr : Nat) (protocol : Int)
  | setpshared (attr : Nat) (pshared : Int)
  /-- With the answer of `clock_getres`. -/
  | setclock (attr : Nat) (clock : Int) (getres : Bool)
  /-- A definition with a static initializer. -/
  | static (kind : Kind) (o : N) (attr : Pointer)
  /-- The argument `count` is that of `pthread_barrier_init`. -/
  | init (kind : Kind) (o : N) (attr : Option Nat) (count : Nat) (malloc : Bool)
  | destroy (kind : Kind) (o : N)

namespace State

variable {N : Type} [DecidableEq N]

/-- Memory without attributes and objects. -/
def start : State N where
  blocks := .start 0
  contents _ := .default .mutex
  attrs _ := none
  object _ := .idle .null
  avail := none

/-- Stores attributes of the program. -/
@[simps]
def setAttr (s : State N) (attr : Nat) (x : Attr) : State N :=
  { s with attrs := Function.update s.attrs attr (some x) }

/-- Stores an object. -/
@[simps]
def setObject (s : State N) (x : Kind × N) (o : Object) : State N :=
  { s with object := Function.update s.object x o }

/-- `memcmp (attr, other, n)` is not `0`, where `n` is `0` or the size of the attributes. -/
def memcmp (attr other : Attr) (n : Nat) : Bool :=
  if n = 0 then false else attr ≠ other

/-- `malloc (sizeof *attr)` and `*mutex->attr = *attr`; `ok` when there is memory. -/
def copyAttr (s : State N) (x : Kind × N) (attr : Attr) (ok : Bool) : State N × Option Refusal :=
  if ok then
    ({ s with
        blocks := s.blocks.issue
        contents := Function.update s.contents s.blocks.count attr
        object := Function.update s.object x (.initialized (.block s.blocks.count)) }, none)
  else (s.setObject x (.idle .null), some .ENOMEM)

/-- What the four initializers share, with the attributes that `attr` points to, if it is not
null. The test `memcmp (attr, &__pthread_default_mutexattr, sizeof (*attr) == 0)` compares no
bytes, as the size of the attributes is not `0`. -/
def initObject (s : State N) (kind : Kind) (o : N) (attr : Option Attr) (malloc : Bool) :
    State N × Option Refusal :=
  match attr with
  | none => (s.setObject (kind, o) (.initialized .null), none)
  | some attr =>
    if memcmp attr (.default kind) 0 then (s.setObject (kind, o) (.initialized .null), none)
    else s.copyAttr (kind, o) attr malloc

/-- `_pthread_mutex_init`. -/
def mutexInit (s : State N) (o : N) (attr : Option Attr) (malloc : Bool) :
    State N × Option Refusal :=
  s.initObject .mutex o attr malloc

/-- `__pthread_cond_init`. -/
def condInit (s : State N) (o : N) (attr : Option Attr) (malloc : Bool) :
    State N × Option Refusal :=
  s.initObject .cond o attr malloc

/-- `_pthread_rwlock_init`. -/
def rwlockInit (s : State N) (o : N) (attr : Option Attr) (malloc : Bool) :
    State N × Option Refusal :=
  s.initObject .rwlock o attr malloc

/-- `pthread_barrier_init`, which is the only one to refuse an argument. -/
def barrierInit (s : State N) (o : N) (attr : Option Attr) (count : Nat) (malloc : Bool) :
    State N × Option Refusal :=
  if count = 0 then (s, some .EINVAL) else s.initObject .barrier o attr malloc

/-- The initializer of objects of this kind. -/
def init (s : State N) (kind : Kind) (o : N) (attr : Option Attr) (count : Nat) (malloc : Bool) :
    State N × Option Refusal :=
  match kind with
  | .mutex => s.mutexInit o attr malloc
  | .cond => s.condInit o attr malloc
  | .rwlock => s.rwlockInit o attr malloc
  | .barrier => s.barrierInit o attr count malloc

/-- `_pthread_mutex_destroy`, which calls `free` unless the pointer stands for static
attributes. -/
def mutexDestroy (s : State N) (o : N) (p : Pointer) : State N :=
  let s := s.setObject (.mutex, o) (.idle p)
  match p with
  | .block k => { s with blocks := s.blocks.release k }
  | .errorcheck => s
  | .recursive => s
  | .null => s

/-- `__pthread_cond_destroy`. -/
def condDestroy (s : State N) (o : N) (p : Pointer) : State N :=
  s.setObject (.cond, o) (.idle p)

/-- `_pthread_rwlock_destroy`. -/
def rwlockDestroy (s : State N) (o : N) (p : Pointer) : State N :=
  s.setObject (.rwlock, o) (.idle p)

/-- `pthread_barrier_destroy`. -/
def barrierDestroy (s : State N) (o : N) (p : Pointer) : State N :=
  s.setObject (.barrier, o) (.idle p)

/-- The function that destroys objects of this kind. -/
def destroy (s : State N) (kind : Kind) (o : N) (p : Pointer) : State N :=
  match kind with
  | .mutex => s.mutexDestroy o p
  | .cond => s.condDestroy o p
  | .rwlock => s.rwlockDestroy o p
  | .barrier => s.barrierDestroy o p

/-- A call, with its error. There is no result if it is not one that a program can make: the
attributes were initialized, and are of the right kind, an object is initialized when it is not in
use and destroyed when it is, and only mutexes have initializers with attributes. -/
def step (s : State N) : Op N → Option (State N × Option Refusal)
  | .attrInit attr kind => some (s.setAttr attr (.default kind), none)
  | .settype attr type => do
    let (x, r) ← (← s.attrs attr).settype type
    return (s.setAttr attr x, r)
  | .setprotocol attr protocol => do
    let (x, r) ← (← s.attrs attr).setprotocol protocol
    return (s.setAttr attr x, r)
  | .setpshared attr pshared => do
    let (x, r) := (← s.attrs attr).setpshared pshared
    return (s.setAttr attr x, r)
  | .setclock attr clock getres => do
    let avail := if clock = 1 then some (s.avail.getD getres) else s.avail
    let (x, r) ← (← s.attrs attr).setclock clock (avail.getD getres)
    return ({ s.setAttr attr x with avail := avail }, r)
  | .static kind o p =>
    match s.object (kind, o), p with
    | .idle _, .null => some (s.setObject (kind, o) (.initialized .null), none)
    | .idle _, .errorcheck =>
      if kind = .mutex then some (s.setObject (kind, o) (.initialized .errorcheck), none) else none
    | .idle _, .recursive =>
      if kind = .mutex then some (s.setObject (kind, o) (.initialized .recursive), none) else none
    | _, _ => none
  | .init kind o attr count malloc =>
    match s.object (kind, o), attr with
    | .initialized _, _ => none
    | .idle _, none => some (s.init kind o none count malloc)
    | .idle _, some attr => do
      let x ← s.attrs attr
      if x.kind = kind then some (s.init kind o (some x) count malloc) else none
  | .destroy kind o =>
    match s.object (kind, o) with
    | .initialized p => some (s.destroy kind o p, none)
    | .idle _ => none

/-- The calls in order. -/
def run (s : State N) : List (Op N) → Option (State N)
  | [] => some s
  | op :: ops => (s.step op).bind fun x => run x.1 ops

/-- The call destroys a condition variable, an rwlock or a barrier that has a block. -/
def discards (s : State N) : Op N → Bool
  | .destroy kind o => kind ≠ .mutex && (s.object (kind, o)).holds.isSome
  | _ => false

/-- The number of calls that do so. -/
def discarded (s : State N) : List (Op N) → Nat
  | [] => 0
  | op :: ops => (s.discards op).toNat + (s.step op).elim 0 fun x => discarded x.1 ops

/-- The block was not freed, and no object in use points to it. -/
def Leaked (s : State N) (k : Nat) : Prop :=
  s.blocks.Live k ∧ ∀ x, (s.object x).holds ≠ some k

/-! ### What a call does to the blocks -/

/-- What a call does: it changes no block and no pointer of an object in use to one, or it makes a
copy for an object, frees the block of a mutex, or loses that of another object. -/
inductive Effect (s : State N) (op : Op N) (s' : State N) : Prop where
  | keeps (blocks : s'.blocks = s.blocks) (contents : s'.contents = s.contents)
    (holds : ∀ x, (s'.object x).holds = (s.object x).holds) (calm : s.discards op = false)
    (stays : ∀ x p, s.object x = .initialized p → op ≠ .destroy x.1 x.2 → s'.object x = s.object x)
  | copies (x : Kind × N) (attr : Nat) (c : Attr) (given : s.attrs attr = some c)
    (kind : c.kind = x.1) (idle : (s.object x).holds = none)
    (task : s' = { s with
      blocks := s.blocks.issue
      contents := Function.update s.contents s.blocks.count c
      object := Function.update s.object x (.initialized (.block s.blocks.count)) })
    (calm : s.discards op = false)
  | frees (o : N) (k : Nat) (call : op = .destroy .mutex o)
    (holds : s.object (.mutex, o) = .initialized (.block k))
    (task : s' = { s.setObject (.mutex, o) (.idle (.block k)) with
      blocks := s.blocks.release k })
  | loses (x : Kind × N) (k : Nat) (call : op = .destroy x.1 x.2) (kind : x.1 ≠ .mutex)
    (holds : s.object x = .initialized (.block k))
    (task : s' = s.setObject x (.idle (.block k)))

variable {s s' : State N} {op : Op N} {r : Option Refusal}

/-- A change of an object that points to no block, before and after. -/
theorem Effect.of_setObject {x : Kind × N} {o : Object} (hbefore : (s.object x).holds = none)
    (hafter : o.holds = none) (hcalm : s.discards op = false)
    (hidle : (∀ p, s.object x ≠ .initialized p) ∨ op = .destroy x.1 x.2) :
  Effect s op (s.setObject x o)
  := by
  refine .keeps (by rfl) (by rfl) ?_ hcalm ?_
  · intro y
    rw [setObject_object, Function.update_apply]
    split
    · rename_i hyx
      rw [hafter, hyx, hbefore]
    · rfl
  · intro y p hy hop
    rw [setObject_object, Function.update_apply]
    split
    · rename_i hyx
      subst hyx
      rcases hidle with hidle | hidle
      · exact absurd hy (hidle p)
      · exact absurd hidle hop
    · rfl

theorem Effect.of_attrs (hblocks : s'.blocks = s.blocks) (hcontents : s'.contents = s.contents)
    (hobject : s'.object = s.object) (hcalm : s.discards op = false) :
  Effect s op s'
  := by
  refine .keeps hblocks hcontents ?_ hcalm ?_
  · intro x
    rw [hobject]
  · intro x p _ _
    rw [hobject]

/-- Only a barrier can be refused before it is initialized. -/
theorem init_eq (s : State N) (kind : Kind) (o : N) (attr : Option Attr) (count : Nat)
    (malloc : Bool) :
  s.init kind o attr count malloc =
    if kind = .barrier ∧ count = 0 then (s, some .EINVAL) else s.initObject kind o attr malloc
  := by
  cases kind <;> simp [init, mutexInit, condInit, rwlockInit, barrierInit]

/-- No block is freed unless it belongs to a mutex. -/
theorem destroy_eq (s : State N) {kind : Kind} (o : N) {p : Pointer}
    (h : kind ≠ .mutex ∨ ∀ k, p ≠ .block k) :
  s.destroy kind o p = s.setObject (kind, o) (.idle p)
  := by
  cases kind with
  | mutex =>
      cases p with
      | block k => simp at h
      | _ => rfl
  | _ => rfl

theorem effect_of_init {kind : Kind} {o : N} {p : Pointer} {attr : Option Nat}
    {x : Option Attr} {count : Nat} {malloc : Bool} (hidle : s.object (kind, o) = .idle p)
    (hx : ∀ c ∈ x, c.kind = kind ∧ ∃ n, s.attrs n = some c)
    (h : s.init kind o x count malloc = (s', r)) :
  Effect s (.init kind o attr count malloc) s'
  := by
  have hbefore : (s.object (kind, o)).holds = none := by
    rw [hidle]
    rfl
  have hnever : ∀ p', s.object (kind, o) ≠ .initialized p' := by
    simp [hidle]
  rw [init_eq] at h
  split at h
  · obtain ⟨rfl, -⟩ := Prod.mk.inj h
    apply Effect.of_attrs rfl rfl rfl rfl
  · unfold initObject at h
    cases x with
    | none =>
        obtain ⟨rfl, -⟩ := Prod.mk.inj h
        exact .of_setObject hbefore rfl rfl (.inl hnever)
    | some c =>
        obtain ⟨hkind, n, hn⟩ := hx c rfl
        simp only [memcmp, if_true, Bool.false_eq_true, if_false, copyAttr] at h
        split at h
        · obtain ⟨rfl, -⟩ := Prod.mk.inj h
          exact .copies (kind, o) n c hn hkind hbefore rfl rfl
        · obtain ⟨rfl, -⟩ := Prod.mk.inj h
          exact .of_setObject hbefore rfl rfl (.inl hnever)

theorem effect_of_step (h : s.step op = some (s', r)) :
  Effect s op s'
  := by
  cases op with
  | attrInit attr kind =>
      obtain ⟨rfl, -⟩ := Prod.mk.inj (Option.some.inj h)
      exact .of_attrs rfl rfl rfl rfl
  | settype attr type =>
      simp only [step, Option.bind_eq_bind, Option.bind_eq_some_iff, Option.pure_def,
        Option.some_inj, Prod.mk.injEq] at h
      obtain ⟨x, -, y, -, rfl, -⟩ := h
      exact .of_attrs rfl rfl rfl rfl
  | setprotocol attr protocol =>
      simp only [step, Option.bind_eq_bind, Option.bind_eq_some_iff, Option.pure_def,
        Option.some_inj, Prod.mk.injEq] at h
      obtain ⟨x, -, y, -, rfl, -⟩ := h
      exact .of_attrs rfl rfl rfl rfl
  | setpshared attr pshared =>
      simp only [step, Option.bind_eq_bind, Option.bind_eq_some_iff, Option.pure_def,
        Option.some_inj, Prod.mk.injEq] at h
      obtain ⟨x, -, rfl, -⟩ := h
      exact .of_attrs rfl rfl rfl rfl
  | setclock attr clock getres =>
      simp only [step, Option.bind_eq_bind, Option.bind_eq_some_iff, Option.pure_def,
        Option.some_inj, Prod.mk.injEq] at h
      obtain ⟨x, -, y, -, rfl, -⟩ := h
      exact .of_attrs rfl rfl rfl rfl
  | static kind o p =>
      have hidle : ∀ p', s.object (kind, o) = .idle p' →
          (s.object (kind, o)).holds = none ∧ ∀ p, s.object (kind, o) ≠ .initialized p := by
        intro p' hp'
        simp [hp', Object.holds]
      simp only [step] at h
      split at h
      · rename_i p' heq
        obtain ⟨rfl, -⟩ := Prod.mk.inj (Option.some.inj h)
        exact .of_setObject (hidle p' heq).1 rfl rfl (.inl (hidle p' heq).2)
      · rename_i p' heq
        split at h
        · obtain ⟨rfl, -⟩ := Prod.mk.inj (Option.some.inj h)
          exact .of_setObject (hidle p' heq).1 rfl rfl (.inl (hidle p' heq).2)
        · cases h
      · rename_i p' heq
        split at h
        · obtain ⟨rfl, -⟩ := Prod.mk.inj (Option.some.inj h)
          exact .of_setObject (hidle p' heq).1 rfl rfl (.inl (hidle p' heq).2)
        · cases h
      · cases h
  | init kind o attr count malloc =>
      simp only [step] at h
      split at h
      · cases h
      · rename_i p hidle
        apply effect_of_init hidle _ (Option.some.inj h)
        rintro c ⟨⟩
      · rename_i p attr hidle
        simp only [Option.bind_eq_bind, Option.bind_eq_some_iff] at h
        obtain ⟨c, hc, h⟩ := h
        split at h
        · rename_i hkind
          apply effect_of_init hidle _ (Option.some.inj h)
          rintro c' ⟨⟩
          exact ⟨hkind, attr, hc⟩
        · cases h
  | destroy kind o =>
      simp only [step] at h
      split at h
      · rename_i p heq
        obtain ⟨rfl, -⟩ := Prod.mk.inj (Option.some.inj h)
        by_cases hblock : ∃ k, p = .block k
        · obtain ⟨k, rfl⟩ := hblock
          by_cases hkind : kind = .mutex
          · subst hkind
            exact .frees o k rfl heq rfl
          · apply Effect.loses (kind, o) k rfl hkind heq
            apply destroy_eq s o (.inl hkind)
        · have hblock : ∀ k, p ≠ .block k := by
            rintro k rfl
            exact hblock ⟨k, rfl⟩
          have hholds : (s.object (kind, o)).holds = none := by
            rw [heq]
            cases p with
            | block k => exact absurd rfl (hblock k)
            | _ => rfl
          rw [destroy_eq s o (.inr hblock)]
          refine .of_setObject hholds rfl ?_ (.inr rfl)
          simp [discards, hholds]
      · cases h

/-! ### Who keeps the blocks -/

/-- The block that an object in use points to, and the lost blocks, which keep themselves. -/
def keeper (s : State N) (lost : Finset Nat) : (Kind × N) ⊕ Nat → Option Nat
  | .inl x => (s.object x).holds
  | .inr k => if k ∈ lost then some k else none

/-- Every block that was not freed is that of one object, which is of the kind of the attributes in
it, or it is lost. -/
structure Inv (s : State N) (lost : Finset Nat) : Prop where
  kept : s.blocks.Kept (s.keeper lost)
  kind : ∀ x k, (s.object x).holds = some k → (s.contents k).kind = x.1

variable {lost : Finset Nat}

theorem keeper_update {x : Kind × N} {o : Object} (h : s'.object = Function.update s.object x o) :
  s'.keeper lost = Function.update (s.keeper lost) (.inl x) o.holds
  := by
  funext y
  cases y with
  | inl y =>
      by_cases hy : y = x
      · simp [keeper, h, hy]
      · simp [keeper, h, hy]
  | inr k => simp [keeper]

omit [DecidableEq N] in
theorem Inv.lt (h : s.Inv lost) {x : Kind × N} {k : Nat} (hx : (s.object x).holds = some k) :
  k < s.blocks.count
  := h.kept.lt (.inl x) k hx

omit [DecidableEq N] in
/-- A block of an object in use is not lost. -/
theorem Inv.not_mem (h : s.Inv lost) {x : Kind × N} {k : Nat} (hx : (s.object x).holds = some k) :
  k ∉ lost
  := by
  intro hk
  have hsame : (.inr k : (Kind × N) ⊕ Nat) = .inl x := by
    apply h.kept.unique (n := k)
    · simp [keeper, hk]
    · apply hx
  cases hsame

/-- A call loses the blocks that it discards. -/
theorem Inv.step (h : s.Inv lost) (heffect : s.Effect op s') :
  ∃ lost', s'.Inv lost' ∧ lost'.card = lost.card + (s.discards op).toNat
  := by
  cases heffect with
  | keeps blocks contents holds calm stays =>
      have hkeeper : s'.keeper lost = s.keeper lost := by
        funext x
        cases x with
        | inl x => apply holds
        | inr k => rfl
      refine ⟨lost, ⟨?_, ?_⟩, by simp [calm]⟩
      · rw [blocks, hkeeper]
        apply h.kept
      · intro x k hx
        rw [holds] at hx
        rw [contents]
        apply h.kind x k hx
  | copies x attr c given kind idle task calm =>
      refine ⟨lost, ⟨?_, ?_⟩, by simp [calm]⟩
      · rw [keeper_update (s := s) (x := x) (by rw [task]), task]
        apply h.kept.issue
        apply idle
      · intro y k hy
        rw [task] at hy ⊢
        simp only [Function.update_apply] at hy ⊢
        split at hy
        · rename_i hyx
          obtain rfl : s.blocks.count = k := Option.some.inj hy
          rw [if_pos rfl, kind, hyx]
        · have := h.lt hy
          rw [if_neg (by omega)]
          apply h.kind y k hy
  | frees o k call holds task =>
      have hholds : (s.object (.mutex, o)).holds = some k := by
        rw [holds]
        rfl
      have hcalm : s.discards op = false := by
        rw [call]
        rfl
      refine ⟨lost, ⟨?_, ?_⟩, by simp [hcalm]⟩
      · rw [keeper_update (s := s) (x := (.mutex, o)) (by rw [task]; rfl), task]
        apply h.kept.release
        apply hholds
      · intro y k' hy
        rw [task] at hy ⊢
        simp only [setObject_object, Function.update_apply] at hy
        split at hy
        · cases hy
        · apply h.kind y k' hy
  | loses x k call kind holds task =>
      have hholds : (s.object x).holds = some k := by
        rw [holds]
        rfl
      have hnew := h.not_mem hholds
      have hdiscards : s.discards op = true := by
        simp [call, discards, kind, hholds]
      refine ⟨insert k lost, ⟨?_, ?_⟩, by simp [hdiscards, hnew]⟩
      · have hkeeper : s'.keeper (insert k lost) =
            Function.update (Function.update (s.keeper lost) (.inl x) none) (.inr k) (some k) := by
          rw [keeper_update (s := s) (x := x) (by rw [task]; rfl)]
          funext y
          cases y with
          | inl y =>
              rw [Function.update_of_ne (by simp : (.inl y : (Kind × N) ⊕ Nat) ≠ .inr k)]
              by_cases hy : y = x
              · simp [hy, Object.holds]
              · simp [hy, keeper]
          | inr j =>
              by_cases hj : j = k
              · simp [hj, keeper]
              · simp [hj, keeper]
        rw [hkeeper, task]
        apply h.kept.pass
        · apply hholds
        · simp [keeper, hnew]
      · intro y k' hy
        rw [task] at hy ⊢
        simp only [setObject_object, Function.update_apply] at hy
        split at hy
        · cases hy
        · apply h.kind y k' hy

omit [DecidableEq N] in
theorem Inv.start :
  (State.start : State N).Inv ∅
  := by
  constructor
  · have hkeeper : (State.start : State N).keeper ∅ = fun _ => none := by
      funext x
      cases x <;> simp [keeper, State.start, Object.holds]
    rw [hkeeper]
    apply Ledger.kept_start
  · rintro x k ⟨⟩

theorem Inv.run (ops : List (Op N)) {s s' : State N} {lost : Finset Nat} (h : s.Inv lost)
    (hrun : s.run ops = some s') :
  ∃ lost', s'.Inv lost' ∧ lost'.card = lost.card + s.discarded ops
  := by
  induction ops generalizing s lost with
  | nil =>
      obtain rfl := Option.some.inj hrun
      use lost, h
      rfl
  | cons op ops ih =>
      obtain ⟨⟨s₁, r⟩, hstep, hrest⟩ := Option.bind_eq_some_iff.mp hrun
      obtain ⟨lost₁, h₁, hcard₁⟩ := h.step (effect_of_step hstep)
      obtain ⟨lost', h', hcard⟩ := ih h₁ hrest
      use lost', h'
      simp only [discarded, hstep, Option.elim_some]
      omega

omit [DecidableEq N] in
theorem Inv.leaked_iff (h : s.Inv lost) (k : Nat) :
  s.Leaked k ↔ k ∈ lost
  := by
  constructor
  · rintro ⟨⟨hlt, hlive⟩, hfree⟩
    rcases h.kept.once k hlt with ⟨-, x | j, hx, -⟩ | ⟨hone, -⟩
    · exact absurd hx (hfree x)
    · by_cases hj : j ∈ lost
      · simp only [keeper, hj, if_true, Option.some_inj] at hx
        rw [← hx]
        apply hj
      · simp [keeper, hj] at hx
    · exact absurd (List.count_pos_iff.mp (by omega)) hlive
  · intro hk
    have hkeeper : s.keeper lost (.inr k) = some k := by
      simp [keeper, hk]
    have hlt := h.kept.lt _ k hkeeper
    rcases h.kept.once k hlt with ⟨hzero, -⟩ | ⟨-, hnone⟩
    · refine ⟨⟨hlt, List.count_eq_zero.mp hzero⟩, ?_⟩
      intro x hx
      apply h.not_mem hx hk
    · exact absurd hkeeper (hnone _)

/-- In every run, as many blocks are leaked as condition variables, rwlocks and barriers with
attributes were destroyed. No block is freed twice, and every block that an object in use points to
is live, holds attributes of its kind, and belongs to no other object. -/
theorem leaked_ncard {ops : List (Op N)} (hrun : (State.start : State N).run ops = some s) :
  {k | s.Leaked k}.ncard = (State.start : State N).discarded ops ∧
    (∀ k, s.blocks.released.count k ≤ 1) ∧
    ∀ x k, (s.object x).holds = some k →
      s.blocks.Live k ∧ (s.contents k).kind = x.1 ∧ ∀ y, (s.object y).holds = some k → y = x
  := by
  obtain ⟨lost, h, hcard⟩ := Inv.start.run ops hrun
  refine ⟨?_, ?_, ?_⟩
  · have hleaked : {k | s.Leaked k} = lost := by
      ext k
      rw [Set.mem_ofPred_eq, h.leaked_iff, Finset.mem_coe]
    rw [hleaked, Set.ncard_coe_finset, hcard, Finset.card_empty, Nat.zero_add]
  · intro k
    by_cases hlt : k < s.blocks.count
    · rcases h.kept.once k hlt with ⟨hzero, -⟩ | ⟨hone, -⟩
      · omega
      · omega
    · rw [Ledger.count_eq_zero_of_le (Nat.le_of_not_lt hlt)]
      apply Nat.zero_le
  · intro x k hx
    have hlt := h.lt hx
    refine ⟨⟨hlt, ?_⟩, h.kind x k hx, ?_⟩
    · rcases h.kept.once k hlt with ⟨hzero, -⟩ | ⟨-, hnone⟩
      · apply List.count_eq_zero.mp hzero
      · exact absurd hx (hnone (.inl x))
    · intro y hy
      have hsame : (.inl y : (Kind × N) ⊕ Nat) = .inl x := h.kept.unique (n := k) hy hx
      simpa using hsame

/-- A mutex and a condition variable with attributes, the mutex initialized a second time after it
was destroyed, and the condition variable destroyed. -/
def copying : List (Op Unit) :=
  [.attrInit 0 .mutex, .settype 0 2, .init .mutex () (some 0) 0 true, .attrInit 1 .cond,
    .init .cond () (some 1) 0 true, .destroy .mutex (), .init .mutex () (some 0) 0 true,
    .destroy .cond ()]

theorem leaked_ncard_copying :
  ∃ s, (State.start : State Unit).run copying = some s ∧ {k | s.Leaked k}.ncard = 1 ∧
    (s.object (.mutex, ())).holds = some 2 ∧ s.blocks.Live 2
  := by
  have htest : ((State.start : State Unit).run copying).map
      (fun s => (s.object (.mutex, ())).holds) = some (some 2) := by
    decide
  obtain ⟨s, hrun, hholds⟩ := Option.map_eq_some_iff.mp htest
  obtain ⟨hleaked, -, hlive⟩ := leaked_ncard hrun
  use s, hrun
  rw [hleaked]
  exact ⟨by decide, hholds, (hlive _ 2 hholds).1⟩

/-! ### Copies -/

/-- An object keeps its block and the attributes in it until it is destroyed. -/
theorem Effect.stays_copied (h : s.Effect op s') {x : Kind × N} {k : Nat}
    (hx : s.object x = .initialized (.block k)) (hlt : k < s.blocks.count)
    (hop : op ≠ .destroy x.1 x.2) :
  s'.object x = .initialized (.block k) ∧ s'.contents k = s.contents k ∧ k < s'.blocks.count
  := by
  cases h with
  | keeps blocks contents holds calm stays =>
      rw [blocks, contents, stays x _ hx hop]
      exact ⟨hx, rfl, hlt⟩
  | copies y attr c given kind idle task calm =>
      have hne : x ≠ y := by
        rintro rfl
        simp [hx, Object.holds] at idle
      rw [task]
      simp only [Function.update_of_ne hne, Ledger.issue_count]
      exact ⟨hx, Function.update_of_ne (by omega) _ _, by omega⟩
  | frees o j call holds task =>
      have hne : x ≠ (.mutex, o) := by
        rintro rfl
        exact hop call
      rw [task]
      simp only [setObject_object, Function.update_of_ne hne, Ledger.release_count]
      exact ⟨hx, rfl, hlt⟩
  | loses y j call kind holds task =>
      have hne : x ≠ y := by
        rintro rfl
        exact hop call
      rw [task]
      rw [setObject_object, Function.update_of_ne hne]
      exact ⟨hx, rfl, hlt⟩

theorem run_copied (ops : List (Op N)) {s s' : State N} {x : Kind × N} {k : Nat}
    (hx : s.object x = .initialized (.block k)) (hlt : k < s.blocks.count)
    (hops : ∀ op ∈ ops, op ≠ .destroy x.1 x.2) (hrun : s.run ops = some s') :
  s'.object x = .initialized (.block k) ∧ s'.contents k = s.contents k
  := by
  induction ops generalizing s with
  | nil =>
      obtain rfl := Option.some.inj hrun
      use hx
  | cons op ops ih =>
      obtain ⟨⟨s₁, r⟩, hstep, hrest⟩ := Option.bind_eq_some_iff.mp hrun
      obtain ⟨hx₁, hcontents, hlt₁⟩ := (effect_of_step hstep).stays_copied hx hlt
        (hops op List.mem_cons_self)
      rw [← hcontents]
      apply ih hx₁ hlt₁ _ hrest
      intro op' hop'
      apply hops op' (List.mem_cons_of_mem _ hop')

/-- An object that is initialized with attributes keeps a copy of them, of default ones too, until
it is destroyed, whatever is done to the attributes and to other objects. -/
theorem attributes_copied {kind : Kind} {o : N} {attr count : Nat} {malloc : Bool} {s₁ : State N}
    {ops : List (Op N)}
    (hinit : s.step (.init kind o (some attr) count malloc) = some (s₁, none))
    (hops : ∀ op ∈ ops, op ≠ .destroy kind o) (hrun : s₁.run ops = some s') :
  ∃ k c, s.attrs attr = some c ∧ s'.object (kind, o) = .initialized (.block k) ∧
    s'.contents k = c
  := by
  simp only [step] at hinit
  split at hinit
  · cases hinit
  · rename_i hnone
    cases hnone
  · rename_i p attr' hidle hattr
    obtain rfl := Option.some.inj hattr
    simp only [Option.bind_eq_bind, Option.bind_eq_some_iff] at hinit
    obtain ⟨c, hc, hinit⟩ := hinit
    split at hinit
    · have hinit := Option.some.inj hinit
      rw [init_eq] at hinit
      split at hinit
      · cases hinit
      · simp only [initObject, memcmp, if_true, Bool.false_eq_true, if_false, copyAttr] at hinit
        split at hinit
        · obtain ⟨rfl, -⟩ := Prod.mk.inj hinit
          obtain ⟨hobject, hcontents⟩ := run_copied ops (x := (kind, o)) (k := s.blocks.count)
            (by simp) (by simp) hops hrun
          use s.blocks.count, c, hc, hobject
          rw [hcontents]
          simp
        · cases hinit
    · cases hinit

/-- The attributes of a recursive mutex are reused for an error-checking one. -/
theorem attributes_copied_reused :
  ∃ s s₁ s' : State Bool, (State.start : State Bool).run [.attrInit 0 .mutex, .settype 0 2] = some s ∧
    s.step (.init .mutex true (some 0) 0 true) = some (s₁, none) ∧
    s₁.run [.settype 0 1, .init .mutex false (some 0) 0 true, .destroy .mutex false] = some s' ∧
    ∃ k, s'.object (.mutex, true) = .initialized (.block k) ∧
      s'.contents k = .mutex 0 .none .processPrivate .recursive
  := by
  have htest : (((State.start : State Bool).run [.attrInit 0 .mutex, .settype 0 2]).bind fun s =>
      (s.step (.init .mutex true (some 0) 0 true)).bind fun x =>
        if x.2 = none then
          (x.1.run [.settype 0 1, .init .mutex false (some 0) 0 true, .destroy .mutex false]).map
            fun _ => s.attrs 0
        else none) = some (some (.mutex 0 .none .processPrivate .recursive)) := by
    decide
  obtain ⟨s, hs, htest⟩ := Option.bind_eq_some_iff.mp htest
  obtain ⟨⟨s₁, r⟩, hinit, htest⟩ := Option.bind_eq_some_iff.mp htest
  split at htest
  · rename_i hr
    obtain rfl : r = none := hr
    obtain ⟨s', hrun, hattr⟩ := Option.map_eq_some_iff.mp htest
    obtain ⟨k, c, hc, hobject, hcontents⟩ := attributes_copied hinit (by simp) hrun
    rw [hattr, Option.some_inj] at hc
    exact ⟨s, s₁, s', hs, hinit, hrun, k, hobject, hcontents.trans hc.symm⟩
  · cases htest

end State

end LibPthread.Lifecycle
