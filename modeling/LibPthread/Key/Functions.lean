import LibPthread.Types

/-!
# Keys

The table of the keys for thread-specific data, with `pthread_key_create` and
`pthread_key_delete`. The functions take `__pthread_key_lock`, so their calls come one after the
other. `realloc` refuses an array of more than `PTRDIFF_MAX` bytes, so no `int` overflows.
-/

namespace LibPthread.Key

/-- An element of `__pthread_key_destructors`: memory that was never written,
`PTHREAD_KEY_INVALID`, or the destructor of a key, which may be `NULL`. -/
inductive Entry (D : Type) where
  | unwritten
  | invalid
  | live (destructor : Option D)
  deriving DecidableEq, Repr

/-- The element is `PTHREAD_KEY_INVALID`. -/
def Entry.isInvalid {D : Type} : Entry D → Bool
  | .invalid => true
  | _ => false

/-- `__pthread_key_destructors`, `__pthread_key_size`, `__pthread_key_count` and
`__pthread_key_invalid_count`, and the variable `index` of `pthread_key_create`. -/
structure KeyTable (D : Type) where
  destructors : List (Entry D)
  size : Nat
  count : Nat
  invalidCount : Nat
  index : Nat
  deriving DecidableEq, Repr

namespace KeyTable

variable {D : Type}

/-- No key has been created. -/
def init : KeyTable D :=
  ⟨[], 0, 0, 0, 0⟩

/-- The destructor of the key, if the key is live. -/
def destructor (T : KeyTable D) : Int → Option (Option D)
  | .ofNat key =>
    if key < T.count then
      match T.destructors[key]? with
      | some (.live d) => some d
      | _ => none
    else none
  | .negSucc _ => none

/-- The key exists. -/
def Live (T : KeyTable D) (key : Int) : Prop :=
  (T.destructor key).isSome = true

instance (T : KeyTable D) (key : Int) : Decidable (T.Live key) :=
  inferInstanceAs (Decidable (_ = true))

/-- The loop that looks for an invalid element, with `n` elements to go; `none` if it reads beyond
the array. -/
def search (destructors : List (Entry D)) : Nat → Nat → Option Nat
  | 0, index => some index
  | n + 1, index =>
    match destructors[index]? with
    | none => none
    | some .invalid => some index
    | some _ => search destructors n (index + 1)

/-- How the part of `pthread_key_create` from the label `do_search` on ends: it jumps to this
label, it returns, or an assertion fails or memory is used that is not there. -/
inductive Attempt (D : Type) where
  | again (T : KeyTable D)
  | ret (T : KeyTable D) (r : Except Errno Nat)
  | fault

/-- The destructor is stored at the position `index`, which is returned after the changes `k`. -/
def assign (T : KeyTable D) (d : Option D) (k : KeyTable D → KeyTable D) : Attempt D :=
  if T.index < T.destructors.length then
    .ret (k { T with destructors := T.destructors.set T.index (.live d) }) (.ok T.index)
  else .fault

/-- The array is enlarged. -/
def resize (T : KeyTable D) : KeyTable D :=
  let newsize := if T.size = 0 then 8 else T.size * 2
  { T with
    destructors := T.destructors ++ List.replicate (newsize - T.size) .unwritten
    size := newsize }

/-- The part after the search, when no invalid element was found. -/
def append (T : KeyTable D) (d : Option D) (realloc : Bool) : Attempt D :=
  let push := fun T : KeyTable D =>
    T.assign d fun T => { T with index := T.index + 1, count := T.count + 1 }
  if T.size = T.count then
    if T.invalidCount > 4 ∧ T.invalidCount > T.size / 8 then .again { T with index := 0 }
    else if realloc then push T.resize
    else .ret T (.error .ENOMEM)
  else push T

/-- `pthread_key_create` from the label `do_search` on. -/
def doSearch (T : KeyTable D) (d : Option D) (realloc : Bool) : Attempt D :=
  match search T.destructors (T.count - T.index) T.index with
  | none => .fault
  | some index =>
    let T := { T with index := index }
    if index < T.count then
      if T.invalidCount > 0 then
        { T with invalidCount := T.invalidCount - 1 }.assign d fun T =>
          { T with index := T.index + 1 }
      else .fault
    else if index = T.count then T.append d realloc
    else .fault

/-- What is returned, if the attempt returns. -/
def Attempt.returned : Attempt D → Option (KeyTable D × Except Errno Nat)
  | .ret T r => some (T, r)
  | _ => none

/-- `pthread_key_create`, if it takes at most the given number of jumps to `do_search`;
`realloc` tells whether there is memory for a larger array. -/
def keyCreate (d : Option D) (realloc : Bool) :
    Nat → KeyTable D → Option (KeyTable D × Except Errno Nat)
  | 0, T => (T.doSearch d realloc).returned
  | jumps + 1, T =>
    match T.doSearch d realloc with
    | .again T => keyCreate d realloc jumps T
    | attempt => attempt.returned

/-- `pthread_key_delete` on the table of the keys. -/
def keyDelete (T : KeyTable D) (key : Int) : KeyTable D × Option Errno :=
  match T.destructor key with
  | none => (T, some .EINVAL)
  | some _ =>
    ({ T with
      destructors := T.destructors.set key.toNat .invalid
      invalidCount := T.invalidCount + 1 }, none)

end KeyTable

end LibPthread.Key
