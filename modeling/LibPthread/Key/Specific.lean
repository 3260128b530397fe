import LibPthread.Key.Functions
import LibPthread.Thread.Structures

/-!
# Thread-specific data

Every thread structure has an `ihash` of its values, or none before the first value is set. The
`ihash` is a finite map, in which `NULL` means that there is no value. Keys are deleted by a walk
over the lookup table of the threads.
-/

namespace LibPthread.Key

/-- The keys, and the field `thread_specifics` of every structure; the values other than `NULL`
are of the type `V`. -/
structure Tsd (D V : Type) where
  keys : KeyTable D
  specifics : Nat → Option (Nat → Option V)

namespace Tsd

variable {D V : Type}

/-- The value that the structure `p` has for the key. -/
def value (S : Tsd D V) (p key : Nat) : Option V :=
  (S.specifics p).bind fun m => m key

/-- `hurd_ihash_remove (t->thread_specifics, key)`, if there is an `ihash`. -/
def remove (S : Tsd D V) (p key : Nat) : Tsd D V :=
  match S.specifics p with
  | none => S
  | some m =>
    { S with specifics := Function.update S.specifics p (some (Function.update m key none)) }

/-- The loop of `pthread_key_delete` over the lookup table, with `n` entries to go; `none` if
memory is used that is not there. -/
def scrub (threads : List Thread.Slot) (key : Nat) : Nat → Nat → Tsd D V → Option (Tsd D V)
  | 0, _, S => some S
  | n + 1, i, S =>
    match threads[i]? with
    | some .null => scrub threads key n (i + 1) S
    | some (.entry p) => scrub threads key n (i + 1) (S.remove p key)
    | _ => none

/-- `pthread_key_create`, which takes at most one jump. -/
def keyCreate (S : Tsd D V) (d : Option D) (realloc : Bool) :
    Option (Tsd D V × Except Errno Nat) :=
  (S.keys.keyCreate d realloc 1).map fun x => ({ S with keys := x.1 }, x.2)

/-- `pthread_key_delete`. -/
def keyDelete (t : Thread.Table) (S : Tsd D V) (key : Int) : Option (Tsd D V × Option Errno) :=
  match S.keys.keyDelete key with
  | (_, some e) => some (S, some e)
  | (keys, none) =>
    (scrub t.threads key.toNat t.num 0 { S with keys := keys }).map fun S => (S, none)

/-- The `ihash` of the structure, which is created if there is none and there is memory. -/
def ihash (S : Tsd D V) (p : Nat) (create : Bool) : Option (Nat → Option V) :=
  match S.specifics p with
  | some m => some m
  | none => if create then some fun _ => none else none

/-- `hurd_ihash_add` on the `ihash` `m` of the structure; `add` tells whether there is memory. -/
def add (S : Tsd D V) (p key : Nat) (value : Option V) (add : Bool) (m : Nat → Option V) :
    Tsd D V × Option Errno :=
  if add then
    ({ S with specifics := Function.update S.specifics p (some (Function.update m key value)) },
      none)
  else ({ S with specifics := Function.update S.specifics p (some m) }, some .ENOMEM)

/-- `pthread_setspecific`, called by the thread on the structure `caller`; `create` and `add` tell
whether there is memory for the `ihash` and for the value. -/
def setspecific (S : Tsd D V) (caller : Nat) (key : Int) (value : Option V) (create add : Bool) :
    Tsd D V × Option Errno :=
  match S.keys.destructor key with
  | none => (S, some .EINVAL)
  | some _ =>
    match S.ihash caller create with
    | none => (S, some .ENOMEM)
    | some m => S.add caller key.toNat value add m

/-- `pthread_getspecific`, called by the thread on the structure `caller`. -/
def getspecific (S : Tsd D V) (caller : Nat) (key : Int) : Option V :=
  match S.keys.destructor key with
  | none => none
  | some _ => S.value caller key.toNat

/-- `__pthread_init_specific`. -/
def initSpecific (S : Tsd D V) (p : Nat) : Tsd D V :=
  { S with specifics := Function.update S.specifics p none }

section Values

variable (S : Tsd D V) (p q key key' : Nat)

@[simp]
theorem remove_keys :
  (S.remove p key).keys = S.keys
  := by
  rw [remove]
  split <;> rfl

theorem remove_value :
  (S.remove p key).value q key' = if q = p ∧ key' = key then none else S.value q key'
  := by
  rw [remove, value, value]
  split
  · rename_i hnone
    split
    · rename_i hand
      rw [hand.1, hnone]
      rfl
    · rfl
  · rename_i m hm
    by_cases hq : q = p
    · rw [hq, hm]
      by_cases hkey : key' = key <;> simp [hkey]
    · simp [hq]

variable {S p q key key'} {S' : Tsd D V} {threads : List Thread.Slot} {n i : Nat}

/-- What the loop of `pthread_key_delete` leaves as it is. -/
theorem scrub_frame (h : scrub threads key n i S = some S') :
  S'.keys = S.keys ∧ ∀ q key', key' ≠ key → S'.value q key' = S.value q key'
  := by
  induction n generalizing i S with
  | zero =>
      obtain rfl := Option.some.inj h
      exact ⟨rfl, fun _ _ _ => rfl⟩
  | succ n ih =>
      rw [scrub] at h
      split at h
      · exact ih h
      · obtain ⟨hkeys, hvalue⟩ := ih h
        refine ⟨hkeys.trans (remove_keys _ _ _), ?_⟩
        intro q key' hne
        rw [hvalue q key' hne, remove_value, if_neg (fun hand => hne hand.2)]
      · cases h

/-- The loop creates no values. -/
theorem scrub_value_none (h : scrub threads key n i S = some S') (hq : S.value q key = none) :
  S'.value q key = none
  := by
  induction n generalizing i S with
  | zero =>
      obtain rfl := Option.some.inj h
      exact hq
  | succ n ih =>
      rw [scrub] at h
      split at h
      · exact ih h hq
      · apply ih h
        rw [remove_value]
        split
        · rfl
        · exact hq
      · cases h

/-- The loop removes the values of the structures in the table. -/
theorem scrub_value_entry (h : scrub threads key n i S = some S') {j : Nat} (hlo : i ≤ j)
    (hhi : j < i + n) (hj : threads[j]? = some (.entry q)) :
  S'.value q key = none
  := by
  induction n generalizing i S with
  | zero => omega
  | succ n ih =>
      rw [scrub] at h
      rcases Nat.eq_or_lt_of_le hlo with rfl | hlt
      · rw [hj] at h
        apply scrub_value_none h
        rw [remove_value, if_pos ⟨rfl, rfl⟩]
      · split at h
        · exact ih h (by omega) (by omega)
        · exact ih h (by omega) (by omega)
        · cases h

/-- The `ihash` holds the values of the structure. -/
theorem ihash_value {m : Nat → Option V} {create : Bool} (h : S.ihash p create = some m)
    (key : Nat) :
  m key = S.value p key
  := by
  rw [ihash] at h
  rw [value]
  cases hp : S.specifics p with
  | some m' =>
      rw [hp] at h
      obtain rfl := Option.some.inj h
      rfl
  | none =>
      rw [hp] at h
      cases create with
      | true =>
          obtain rfl := Option.some.inj h
          rfl
      | false => cases h

/-- The value is added, or nothing changes. -/
theorem add_value {m : Nat → Option V} (hm : ∀ key, m key = S.value p key) (v : Option V)
    (memory : Bool) :
  (S.add p key v memory m).1.value q key' =
    if memory = true ∧ q = p ∧ key' = key then v else S.value q key'
  := by
  rw [add]
  cases memory with
  | true =>
      by_cases hq : q = p
      · by_cases hkey : key' = key
        · simp [value, hq, hkey]
        · simp [value, hq, hkey, hm]
      · simp [value, hq]
  | false =>
      by_cases hq : q = p
      · simp [value, hq, hm]
      · simp [value, hq]

/-- A value is set for a live key, or nothing happens. -/
theorem setspecific_cases (S : Tsd D V) (p : Nat) (key : Int) (v : Option V)
    (create memory : Bool) :
  (S.setspecific p key v create memory).1.keys = S.keys ∧
    (((S.setspecific p key v create memory).2 = none ∧ S.keys.Live key ∧
        ∀ q key', (S.setspecific p key v create memory).1.value q key' =
          if q = p ∧ key' = key.toNat then v else S.value q key') ∨
      ((S.setspecific p key v create memory).2 ≠ none ∧
        ∀ q key', (S.setspecific p key v create memory).1.value q key' = S.value q key'))
  := by
  rw [setspecific]
  cases hd : S.keys.destructor key with
  | none => exact ⟨rfl, .inr ⟨by simp, fun _ _ => rfl⟩⟩
  | some d =>
      have hlive : S.keys.Live key := by
        rw [KeyTable.Live, hd]
        rfl
      cases hm : S.ihash p create with
      | none => exact ⟨rfl, .inr ⟨by simp, fun _ _ => rfl⟩⟩
      | some m =>
          have hvalue : ∀ q key', (S.add p key.toNat v memory m).1.value q key' =
              if memory = true ∧ q = p ∧ key' = key.toNat then v else S.value q key' :=
            fun _ _ => add_value (ihash_value hm) v memory
          cases memory with
          | true => exact ⟨rfl, .inl ⟨rfl, hlive, fun q key' => by simpa using hvalue q key'⟩⟩
          | false =>
              exact ⟨rfl, .inr ⟨by simp [add], fun q key' => by simpa using hvalue q key'⟩⟩

end Values

end Tsd

end LibPthread.Key
