import LibPthread.Key.Allocator
import LibPthread.Key.Specific
import LibPthread.Thread.Service

/-!
# The values of the threads

The functions on keys and values are called while threads are created, exit, and have their
structures recycled. A value belongs to a thread and to an incarnation of a key: structures and
key numbers are handed out again, and what was set for their former owners is not seen.
-/

open Concurrency

namespace LibPthread.Key

open Thread Thread.Table

/-- A thread runs, it is inside `pthread_exit`, or its `__pthread_destroy_specific` has returned,
after which it sets no values. -/
inductive Phase where
  | running
  | exiting
  | destroyed
  deriving DecidableEq, Repr

/-- The threads and their data. `serial p` counts the threads that were given the structure `p`,
and `incarnation key` the times that `key` was created. A thread is the pair of its structure and
its serial number, and the map `last` has the value it set last for an incarnation of a key. -/
structure World (T D V : Type) where
  threads : Sys T
  tsd : Tsd D V
  phase : Nat → Phase
  serial : Nat → Nat
  incarnation : Nat → Nat
  last : Nat × Nat → Nat × Nat → Option V

variable {T D V : Type}

namespace World

/-- No thread and no key has been created; memory holds anything. -/
def boot (stacksize guardsize pageSize : Nat) (memory : Nat → Pthread)
    (specifics : Nat → Option (Nat → Option V)) : World T D V where
  threads := State.idle (Task.boot stacksize guardsize pageSize memory)
  tsd := ⟨.init, specifics⟩
  phase _ := .running
  serial _ := 0
  incarnation _ := 0
  last _ _ := none

/-- The thread on the structure `p` was started, and its structure has not been given up. -/
def InService (W : World T D V) (p : Nat) : Prop :=
  Table.live p W.threads.log = true

instance (W : World T D V) (p : Nat) : Decidable (W.InService p) :=
  inferInstanceAs (Decidable (_ = true))

/-- The thread on the structure `p` was started, and it is not yet exiting. -/
def Running (W : World T D V) (p : Nat) : Prop :=
  W.InService p ∧ W.phase p = .running

instance (W : World T D V) (p : Nat) : Decidable (W.Running p) :=
  inferInstanceAs (Decidable (_ ∧ _))

/-- The threads after a step; the structure that is passed to `initialize_pthread` is given to a
new thread. -/
def withThreads (W : World T D V) (threads : Sys T) : Option Nat → World T D V
  | none => { W with threads := threads }
  | some p =>
    { W with
      threads := threads
      tsd := W.tsd.initSpecific p
      phase := Function.update W.phase p .running
      serial := Function.update W.serial p (W.serial p + 1) }

/-- The result `x` of `pthread_setspecific`, called by the thread on the structure `p`. -/
def set (W : World T D V) (p : Nat) (key : Int) (value : Option V)
    (x : Tsd D V × Option Errno) : World T D V :=
  match x.2 with
  | some _ => { W with tsd := x.1 }
  | none =>
    { W with
      tsd := x.1
      last := Function.update W.last (p, W.serial p)
        (Function.update (W.last (p, W.serial p))
          (key.toNat, W.incarnation key.toNat) value) }

/-- The structure of a thread is given up at most once, and only when the thread has no data
any more. -/
def Allowed (W : World T D V) (a : Label T Loc) : Prop :=
  OnceEach W.threads a ∧
    (match a with
    | .call _ (.stages p _) => W.phase p = .destroyed
    | _ => true) = true

instance (W : World T D V) (a : Label T Loc) : Decidable (W.Allowed a) :=
  inferInstanceAs (Decidable (_ ∧ _ = true))

/-- A thread that is not yet exiting reads the value it set last under the present incarnation of
a key, and `NULL` for a key that does not exist. -/
def Reads (W : World T D V) : Prop :=
  ∀ p, W.Running p → ∀ key : Int, W.tsd.getspecific p key =
    if W.tsd.keys.Live key then
      W.last (p, W.serial p) (key.toNat, W.incarnation key.toNat)
    else none

end World

/-- The steps: those of the functions that create threads and give up structures, the calls on
keys and values, and those of a thread on the structure `p` that exits. -/
inductive Move (T D V : Type) where
  | threads (a : Label T Loc)
  | keyCreate (d : Option D) (realloc : Bool)
  | keyDelete (key : Int)
  | setspecific (p : Nat) (key : Int) (value : Option V) (create add : Bool)
  | exit (p : Nat)
  | remove (p key : Nat)
  | destroyed (p : Nat)

namespace World

/-- The result of `pthread_key_create`. -/
def created (W : World T D V) (x : Tsd D V × Except Errno Nat) : World T D V :=
  match x.2 with
  | .ok key =>
    { W with
      tsd := x.1
      incarnation := Function.update W.incarnation key (W.incarnation key + 1) }
  | .error _ => { W with tsd := x.1 }

/-- A step, if it is possible. -/
def step [DecidableEq T] (W : World T D V) : Move T D V → Option (World T D V)
  | .threads a =>
    if W.Allowed a then
      ((machine T).exec W.threads a).map fun s => W.withThreads s (initializes W.threads a)
    else none
  | .keyCreate d realloc => (W.tsd.keyCreate d realloc).map W.created
  | .keyDelete key =>
    (W.tsd.keyDelete W.threads.shared.table key).map fun x => { W with tsd := x.1 }
  | .setspecific p key value create add =>
    if W.InService p ∧ W.phase p ≠ .destroyed then
      some (W.set p key value (W.tsd.setspecific p key value create add))
    else none
  | .exit p =>
    if W.Running p then some { W with phase := Function.update W.phase p .exiting } else none
  | .remove p key =>
    if W.InService p ∧ W.phase p = .exiting then some { W with tsd := W.tsd.remove p key }
    else none
  | .destroyed p =>
    if W.InService p ∧ W.phase p = .exiting then
      some
        { W with
          tsd := W.tsd.initSpecific p
          phase := Function.update W.phase p .destroyed }
    else none

/-- The steps in order, if they are possible. -/
def run [DecidableEq T] : List (Move T D V) → World T D V → Option (World T D V)
  | [], W => some W
  | m :: moves, W => (W.step m).bind (run moves)

end World

/-! ### What the steps preserve -/

namespace World

/-- Nothing has been set for the thread that will run on the structure `p`. -/
def Blank (W : World T D V) (p : Nat) : Prop :=
  (∀ key, W.tsd.value p key = none) ∧ ∀ key, W.last (p, W.serial p) key = none

/-- The `ihash` of the structure `p` holds for every live key the value set last, and no other
values. -/
def Agrees (W : World T D V) (p : Nat) : Prop :=
  ∀ key : Nat, W.tsd.value p key =
    if W.tsd.keys.Live key then W.last (p, W.serial p) (key, W.incarnation key) else none

/-- The invariant. -/
structure Inv (W : World T D V) : Prop where
  table : Table.Inv W.threads
  keys : Consistent W.tsd.keys
  serves : ∀ p, W.InService p → W.threads.shared.table.Serves p
  agrees : ∀ p, W.Running p → W.Agrees p
  blank : ∀ p, Pending W.threads p → W.Blank p
  futureKeys : ∀ thread key n, W.incarnation key < n → W.last thread (key, n) = none
  futureThreads : ∀ p n key, W.serial p < n → W.last (p, n) key = none

section Steps

variable {W : World T D V} {tsd : Tsd D V} {p : Nat}

/-- A thread that is not pending and not in service does not matter. -/
theorem Inv.withThreads [DecidableEq T] (h : W.Inv) {a : Label T Loc} {s : Sys T}
    (hallowed : W.Allowed a)
    (hstep : (machine T).Step W.threads a s) :
  (W.withThreads s (initializes W.threads a)).Inv
  := by
  have htable : Table.Inv s := h.table.step hallowed.1 hstep
  have hserves : ∀ p, Table.live p s.log = true → s.shared.table.Serves p :=
    fun p hp => serves_of_live h.table hstep h.serves hp
  have hagrees : ∀ p, Table.live p s.log = true → W.phase p = .running → W.Agrees p := by
    intro p hp hphase
    rcases live_step hstep hp with hlive | hpending
    · exact h.agrees p ⟨hlive, hphase⟩
    · obtain ⟨hvalue, hlast⟩ := h.blank p hpending
      intro key
      rw [hvalue, hlast]
      split <;> rfl
  cases hinit : initializes W.threads a with
  | none =>
      refine ⟨htable, h.keys, hserves, ?_, ?_, h.futureKeys, h.futureThreads⟩
      · exact fun p hp => hagrees p hp.1 hp.2
      · intro p hp
        rcases pending_step hstep hp with hold | hnew
        · exact h.blank p hold
        · rw [hinit] at hnew
          cases hnew
  | some r =>
      obtain ⟨hlive, hpending⟩ := fresh_of_initializes h.table hinit
      have hserial : ∀ p, p ≠ r → Function.update W.serial r (W.serial r + 1) p = W.serial p :=
        fun p hp => Function.update_of_ne hp _ _
      have hvalue : ∀ p key, p ≠ r → (W.tsd.initSpecific r).value p key = W.tsd.value p key := by
        intro p key hp
        simp [Tsd.value, Tsd.initSpecific, hp]
      refine ⟨htable, h.keys, hserves, ?_, ?_, h.futureKeys, ?_⟩
      · rintro p ⟨hp, hphase⟩
        have hne : p ≠ r := by
          rintro rfl
          rcases live_step hstep hp with hold | hold
          · exact hlive hold
          · exact hpending hold
        have hphase : Function.update W.phase r .running p = .running := hphase
        rw [Function.update_of_ne hne] at hphase
        intro key
        change (W.tsd.initSpecific r).value p key = if W.tsd.keys.Live key then
          W.last (p, Function.update W.serial r (W.serial r + 1) p) (key, W.incarnation key)
          else none
        rw [hvalue p key hne, hserial p hne]
        exact hagrees p hp hphase key
      · intro p hp
        change (∀ key, (W.tsd.initSpecific r).value p key = none) ∧
          ∀ key, W.last (p, Function.update W.serial r (W.serial r + 1) p) key = none
        by_cases hne : p = r
        · rw [hne, Function.update_self]
          constructor
          · intro key
            simp [Tsd.value, Tsd.initSpecific]
          · intro key
            exact h.futureThreads r _ key (Nat.lt_succ_self _)
        · rcases pending_step hstep hp with hold | hnew
          · obtain ⟨hnone, hlast⟩ := h.blank p hold
            rw [hserial p hne]
            refine ⟨fun key => ?_, hlast⟩
            rw [hvalue p key hne]
            exact hnone key
          · rw [hinit] at hnew
            exact absurd (Option.some.inj hnew).symm hne
      · intro p n key hn
        apply h.futureThreads
        by_cases hne : p = r
        · have hn : Function.update W.serial r (W.serial r + 1) p < n := hn
          rw [hne, Function.update_self] at hn
          rw [hne]
          omega
        · have hn : Function.update W.serial r (W.serial r + 1) p < n := hn
          rwa [hserial p hne] at hn

/-- A change that adds no values, and removes none under live keys from threads that are not
exiting. -/
theorem Inv.congr (h : W.Inv) {incarnation : Nat → Nat} {phase : Nat → Phase}
    (hkeys : Consistent tsd.keys)
    (hphase : ∀ p, phase p = .running → W.phase p = .running)
    (hincarnation : ∀ key, W.incarnation key ≤ incarnation key)
    (hnone : ∀ p key, W.tsd.value p key = none → tsd.value p key = none)
    (hagrees : ∀ p, phase p = .running → W.Running p → ∀ key : Nat, tsd.value p key =
      if tsd.keys.Live key then W.last (p, W.serial p) (key, incarnation key) else none) :
  Inv { W with tsd := tsd, incarnation := incarnation, phase := phase }
  := by
  refine ⟨h.table, hkeys, h.serves, ?_, ?_, ?_, h.futureThreads⟩
  · rintro p ⟨hlive, hrunning⟩
    exact hagrees p hrunning ⟨hlive, hphase p hrunning⟩
  · intro p hp
    obtain ⟨hvalue, hlast⟩ := h.blank p hp
    exact ⟨fun key => hnone p key (hvalue key), hlast⟩
  · intro thread key n hn
    exact h.futureKeys thread key n (lt_of_le_of_lt (hincarnation key) hn)

theorem live_congr {T T' : KeyTable D} {key : Int} (h : T'.destructor key = T.destructor key) :
  T'.Live key ↔ T.Live key
  := by
  rw [KeyTable.Live, KeyTable.Live, h]

theorem Inv.created (h : W.Inv) {d : Option D} {realloc : Bool} {key : Nat}
    (hcall : W.tsd.keyCreate d realloc = some (tsd, .ok key)) :
  Inv { W with
    tsd := tsd
    incarnation := Function.update W.incarnation key (W.incarnation key + 1) }
  := by
  obtain ⟨T', r, hcreates, hsucc, -⟩ := h.keys.creates d realloc
  rw [Tsd.keyCreate, hsucc 0] at hcall
  obtain ⟨rfl, rfl⟩ := Prod.mk.inj (Option.some.inj hcall)
  obtain ⟨hcons, hdead, hkey, hother⟩ := hcreates
  have hle : ∀ key', W.incarnation key' ≤
      Function.update W.incarnation key (W.incarnation key + 1) key' := by
    intro key'
    by_cases hk : key' = key
    · rw [hk, Function.update_self]
      omega
    · rw [Function.update_of_ne hk]
  have hnone : ∀ p key, W.tsd.value p key = none → Tsd.value ⟨T', W.tsd.specifics⟩ p key = none :=
    fun _ _ hv => hv
  apply h.congr hcons (fun _ hp => hp) hle hnone
  intro p hphase hp key'
  have hold : W.tsd.value p key' = _ := h.agrees p hp key'
  change W.tsd.value p key' = _
  by_cases hk : key' = key
  · subst hk
    rw [if_neg hdead] at hold
    rw [hold, Function.update_self]
    split
    · exact (h.futureKeys _ _ _ (Nat.lt_succ_self _)).symm
    · rfl
  · rw [hold, Function.update_of_ne hk]
    simp only [live_congr (hother key' (by exact_mod_cast hk))]

theorem Inv.refused (h : W.Inv) {d : Option D} {realloc : Bool} {e : Errno}
    (hcall : W.tsd.keyCreate d realloc = some (tsd, .error e)) :
  Inv { W with tsd := tsd }
  := by
  obtain ⟨T', r, hcreates, hsucc, -⟩ := h.keys.creates d realloc
  rw [Tsd.keyCreate, hsucc 0] at hcall
  obtain ⟨rfl, rfl⟩ := Prod.mk.inj (Option.some.inj hcall)
  obtain ⟨hcons, -, hsame⟩ := hcreates
  have hnone : ∀ p key, W.tsd.value p key = none → Tsd.value ⟨T', W.tsd.specifics⟩ p key = none :=
    fun _ _ hv => hv
  apply h.congr hcons (fun _ hp => hp) (fun _ => le_refl _) hnone
  intro p hphase hp key
  have hold : W.tsd.value p key = _ := h.agrees p hp key
  change W.tsd.value p key = _
  simp only [hold, live_congr (hsame key)]

/-- The walk over the lookup table misses no running thread. -/
theorem Inv.keyDelete (h : W.Inv) {key : Int} {r : Option Errno}
    (hcall : W.tsd.keyDelete W.threads.shared.table key = some (tsd, r)) :
  Inv { W with tsd := tsd }
  := by
  obtain ⟨hsucc, -, hchanges⟩ := deletesKey W.tsd.keys key
  have hcons := h.keys.keyDelete key
  rw [Tsd.keyDelete] at hcall
  split at hcall
  · obtain ⟨rfl, rfl⟩ := Prod.mk.inj (Option.some.inj hcall)
    exact h
  · rename_i keys hdelete
    rw [hdelete] at hsucc hchanges hcons
    have hlive := hsucc.mp rfl
    obtain ⟨hkey, hother⟩ := hchanges hlive
    obtain ⟨S, hscrub, heq⟩ := Option.map_eq_some_iff.mp hcall
    obtain ⟨rfl, rfl⟩ := Prod.mk.inj heq
    obtain ⟨hkeys, hvalue⟩ := Tsd.scrub_frame hscrub
    apply h.congr (by rw [hkeys]; exact hcons) (fun _ hp => hp) (fun _ => le_refl _)
    · intro p key' hnone
      by_cases hk : key' = key.toNat
      · rw [hk] at hnone ⊢
        exact Tsd.scrub_value_none hscrub hnone
      · rw [hvalue p key' hk]
        exact hnone
    · intro p _ hp key'
      by_cases hk : key' = key.toNat
      · obtain ⟨i, hi⟩ := h.serves p hp.1
        have hwf := h.table.registered.wf
        have hlt : i < W.threads.shared.table.num := by
          have hlen := (List.getElem?_eq_some_iff.mp hi).1
          rw [hwf.length] at hlen
          have hwritten := hwf.written i hlen
          rw [hi] at hwritten
          simpa using hwritten
        rw [hk, Tsd.scrub_value_entry hscrub (Nat.zero_le i) (by omega) hi, if_neg]
        rw [KeyTable.Live, hkeys, Live.natCast hlive, hkey]
        simp
      · have hne : (key' : Int) ≠ key := by
          rw [← Live.natCast hlive]
          exact_mod_cast hk
        have hsame : S.keys.destructor key' = W.tsd.keys.destructor key' := by
          rw [hkeys]
          exact hother key' hne
        rw [hvalue p key' hk]
        simp only [live_congr hsame]
        exact h.agrees p hp key'

theorem Inv.set (h : W.Inv) {key : Int} {value : Option V} {create add : Bool}
    (hp : W.InService p) :
  (W.set p key value (W.tsd.setspecific p key value create add)).Inv
  := by
  obtain ⟨hkeys, hcases⟩ := W.tsd.setspecific_cases p key value create add
  rw [World.set]
  generalize W.tsd.setspecific p key value create add = x at hkeys hcases
  obtain ⟨tsd, r⟩ := x
  rcases hcases with ⟨rfl, hlive, hvalue⟩ | ⟨hr, hvalue⟩
  · have hother : ∀ q, q ≠ p → ∀ n, Function.update W.last (p, W.serial p)
        (Function.update (W.last (p, W.serial p))
          (key.toNat, W.incarnation key.toNat) value) (q, n) = W.last (q, n) := by
      intro q hq n
      apply Function.update_of_ne
      simp [hq]
    refine ⟨h.table, ?_, h.serves, ?_, ?_, ?_, ?_⟩
    · rw [hkeys]
      exact h.keys
    · intro q hq key'
      have hold : W.tsd.value q key' = _ := h.agrees q hq key'
      change tsd.value q key' = if tsd.keys.Live key' then Function.update W.last _ _ _ _ else none
      rw [hvalue, hkeys, hold]
      by_cases hqp : q = p
      · rw [hqp, Function.update_self]
        by_cases hk : key' = key.toNat
        · rw [hk, if_pos ⟨rfl, rfl⟩, Function.update_self, Live.natCast hlive, if_pos hlive]
        · rw [if_neg (fun hand => hk hand.2), Function.update_of_ne (by simp [hk])]
      · rw [if_neg (fun hand => hqp hand.1), hother q hqp]
    · intro q hq
      have hqp : q ≠ p := by
        rintro rfl
        exact hq.not_live h.table hp
      obtain ⟨hnone, hlast⟩ := h.blank q hq
      constructor
      · intro key'
        rw [hvalue, if_neg (fun hand => hqp hand.1)]
        exact hnone key'
      · intro key'
        change Function.update W.last _ _ (q, W.serial q) key' = none
        rw [hother q hqp]
        exact hlast key'
    · rintro ⟨q, m⟩ key' n hn
      have hn : W.incarnation key' < n := hn
      have hne : (key', n) ≠ (key.toNat, W.incarnation key.toNat) := by
        rintro ⟨⟩
        omega
      change Function.update W.last _ _ (q, m) (key', n) = none
      by_cases hqm : (q, m) = (p, W.serial p)
      · rw [hqm, Function.update_self, Function.update_of_ne hne]
        exact h.futureKeys _ _ _ hn
      · rw [Function.update_of_ne hqm]
        exact h.futureKeys _ _ _ hn
    · intro q n key' hn
      have hn : W.serial q < n := hn
      have hne : (q, n) ≠ (p, W.serial p) := by
        rintro ⟨⟩
        omega
      change Function.update W.last _ _ (q, n) key' = none
      rw [Function.update_of_ne hne]
      exact h.futureThreads q n key' hn
  · cases r with
    | none => exact absurd rfl hr
    | some e =>
        apply h.congr (by rw [hkeys]; exact h.keys) (fun _ hp => hp) (fun _ => le_refl _)
        · intro q key' hnone
          rw [hvalue]
          exact hnone
        · intro q _ hq key'
          rw [hvalue, hkeys]
          exact h.agrees q hq key'

/-- The thread on the structure `p` is inside `pthread_exit`, and its data change. -/
theorem Inv.exiting (h : W.Inv) (p : Nat) {phase : Phase} (hphase : phase ≠ .running)
    (hkeys : tsd.keys = W.tsd.keys)
    (hnone : ∀ key, W.tsd.value p key = none → tsd.value p key = none)
    (hother : ∀ q, q ≠ p → ∀ key, tsd.value q key = W.tsd.value q key) :
  Inv { W with tsd := tsd, phase := Function.update W.phase p phase }
  := by
  have hne : ∀ q, Function.update W.phase p phase q = .running → q ≠ p := by
    rintro q hq rfl
    rw [Function.update_self] at hq
    exact hphase hq
  apply h.congr (by rw [hkeys]; exact h.keys) ?_ (fun _ => le_refl _)
  · intro q key hq
    by_cases hqp : q = p
    · rw [hqp] at hq ⊢
      exact hnone key hq
    · rw [hother q hqp]
      exact hq
  · intro q hq hrunning key
    rw [hother q (hne q hq), hkeys]
    exact h.agrees q hrunning key
  · intro q hq
    rwa [Function.update_of_ne (hne q hq)] at hq

theorem initSpecific_value (S : Tsd D V) (q key : Nat) :
  (S.initSpecific p).value q key = if q = p then none else S.value q key
  := by
  by_cases hq : q = p
  · simp [Tsd.value, Tsd.initSpecific, hq]
  · simp [Tsd.value, Tsd.initSpecific, hq]

variable {W' : World T D V} [DecidableEq T]

theorem Inv.step (h : W.Inv) {m : Move T D V} (hstep : W.step m = some W') :
  W'.Inv
  := by
  cases m with
  | threads a =>
      simp only [World.step, Option.ite_none_right_eq_some, Option.map_eq_some_iff] at hstep
      obtain ⟨hallowed, s, hexec, rfl⟩ := hstep
      exact h.withThreads hallowed (Machine.exec_eq_some_iff.mp hexec)
  | keyCreate d realloc =>
      obtain ⟨⟨tsd, r⟩, hcall, rfl⟩ := Option.map_eq_some_iff.mp hstep
      cases r with
      | ok key => exact h.created hcall
      | error e => exact h.refused hcall
  | keyDelete key =>
      obtain ⟨⟨tsd, r⟩, hcall, rfl⟩ := Option.map_eq_some_iff.mp hstep
      exact h.keyDelete hcall
  | setspecific p key value create add =>
      simp only [World.step, Option.ite_none_right_eq_some, Option.some_inj] at hstep
      obtain ⟨⟨hp, -⟩, rfl⟩ := hstep
      exact h.set hp
  | exit p =>
      simp only [World.step, Option.ite_none_right_eq_some, Option.some_inj] at hstep
      obtain ⟨-, rfl⟩ := hstep
      exact h.exiting p (by simp) rfl (fun _ hv => hv) (fun _ _ _ => rfl)
  | remove p key =>
      simp only [World.step, Option.ite_none_right_eq_some, Option.some_inj] at hstep
      obtain ⟨⟨-, hphase⟩, rfl⟩ := hstep
      have hremove : Inv
          { W with
            tsd := W.tsd.remove p key
            phase := Function.update W.phase p .exiting } := by
        apply h.exiting p (by simp) (Tsd.remove_keys _ _ _)
        · intro key' hnone
          rw [Tsd.remove_value, hnone]
          split <;> rfl
        · intro q hq key'
          rw [Tsd.remove_value, if_neg (fun hand => hq hand.1)]
      rwa [← hphase, Function.update_eq_self] at hremove
  | destroyed p =>
      simp only [World.step, Option.ite_none_right_eq_some, Option.some_inj] at hstep
      obtain ⟨-, rfl⟩ := hstep
      have hkeys : (W.tsd.initSpecific p).keys = W.tsd.keys := rfl
      apply h.exiting p (by simp) hkeys
      · intro key _
        rw [initSpecific_value, if_pos rfl]
      · intro q hq key
        rw [initSpecific_value, if_neg hq]

end Steps

end World

/-! ### The theorem -/

section Runs

variable [DecidableEq T] {W : World T D V}

/-- The states after any steps. -/
def World.Reachable (W : World T D V) : Prop :=
  ∃ stacksize guardsize pageSize memory specifics,
    Relation.ReflTransGen (fun W W' => ∃ m, W.step m = some W')
      (World.boot stacksize guardsize pageSize memory specifics) W

omit [DecidableEq T] in
theorem World.Inv.boot (stacksize guardsize pageSize : Nat) (memory : Nat → Pthread)
    (specifics : Nat → Option (Nat → Option V)) :
  (World.boot stacksize guardsize pageSize memory specifics : World T D V).Inv
  := by
  refine ⟨Table.Inv.init _ _ _ _, Consistent.init, ?_, ?_, ?_, fun _ _ _ _ => rfl,
    fun _ _ _ _ => rfl⟩
  · rintro p ⟨⟩
  · rintro p ⟨⟨⟩, -⟩
  · rintro p ⟨t, l, ⟨⟩, -⟩

theorem World.Reachable.inv (h : W.Reachable) :
  W.Inv
  := by
  obtain ⟨stacksize, guardsize, pageSize, memory, specifics, hrun⟩ := h
  induction hrun with
  | refl => exact .boot _ _ _ _ _
  | tail _ hlast ih =>
      obtain ⟨m, hstep⟩ := hlast
      exact ih.step hstep

theorem World.Reachable.run (h : W.Reachable) {moves : List (Move T D V)} {W' : World T D V}
    (hrun : W.run moves = some W') :
  W'.Reachable
  := by
  induction moves generalizing W with
  | nil =>
      obtain rfl := Option.some.inj hrun
      exact h
  | cons m moves ih =>
      obtain ⟨W₁, hstep, hrest⟩ := Option.bind_eq_some_iff.mp hrun
      obtain ⟨stacksize, guardsize, pageSize, memory, specifics, hreach⟩ := h
      exact ih ⟨stacksize, guardsize, pageSize, memory, specifics, hreach.tail ⟨m, hstep⟩⟩ hrest

omit [DecidableEq T] in
theorem World.Inv.reads (h : W.Inv) :
  W.Reads
  := by
  intro p hp key
  rw [Tsd.getspecific]
  cases hd : W.tsd.keys.destructor key with
  | none =>
      rw [if_neg]
      simp [KeyTable.Live, hd]
  | some d =>
      have hlive : W.tsd.keys.Live key := by simp [KeyTable.Live, hd]
      have hvalue := h.agrees p hp key.toNat
      rw [Live.natCast hlive] at hvalue
      exact hvalue

/-- A running thread reads the value it set last under the present incarnation of a key. In
particular a key that was just created and a thread that has not started yet have no values, even
if the number and the structure were used before. -/
theorem specific_map (h : W.Reachable) :
  W.Reads ∧
    (∀ d realloc S key, W.tsd.keyCreate d realloc = some (S, .ok key) →
      ∀ p, W.Running p → S.getspecific p key = none) ∧
    (∀ p, Pending W.threads p → ∀ key, W.tsd.getspecific p key = none)
  := by
  have hinv := h.inv
  refine ⟨hinv.reads, ?_, ?_⟩
  · intro d realloc S key hcall p hp
    have hreads := (hinv.created hcall).reads p hp key
    have hlast : W.last (p, W.serial p) (key, W.incarnation key + 1) = none :=
      hinv.futureKeys _ _ _ (Nat.lt_succ_self _)
    change S.getspecific p key = if S.keys.Live key then
      W.last (p, W.serial p) (((key : Int).toNat),
        Function.update W.incarnation key (W.incarnation key + 1) (key : Int).toNat) else none
      at hreads
    rw [Int.toNat_natCast, Function.update_self, hlast, ite_self] at hreads
    exact hreads
  · intro p hp key
    rw [Tsd.getspecific]
    cases W.tsd.keys.destructor key with
    | none => rfl
    | some d => exact (hinv.blank p hp).1 key.toNat

/-- A thread is created, it creates a key, and it sets a value. -/
def setRun : List (Move Unit Nat Nat) :=
  [.threads (.call () (.scan zeroed plainAttr)), .threads (.act () false),
    .threads (.act () false), .threads (.act () false), .threads (.act () false),
    .threads (.act () false), .threads (.act () false), .threads (.act () false),
    .keyCreate (some 7) true, .setspecific 0 0 (some 5) true true]

theorem specific_map_setRun :
  ∃ W : World Unit Nat Nat, W.Running 0 ∧ W.tsd.getspecific 0 0 = some 5 ∧
    W.Reads ∧
    (∀ d realloc S key, W.tsd.keyCreate d realloc = some (S, .ok key) →
      ∀ p, W.Running p → S.getspecific p key = none) ∧
    (∀ p, Pending W.threads p → ∀ key, W.tsd.getspecific p key = none)
  := by
  let W₀ : World Unit Nat Nat := .boot 16384 4096 4096 (fun _ => zeroed) fun _ => none
  have hW₀ : W₀.Reachable := ⟨_, _, _, _, _, .refl⟩
  have hrun : ((W₀.run setRun).map fun W =>
      decide (W.Running 0 ∧ W.tsd.getspecific 0 0 = some 5)) = some true := by decide +kernel
  obtain ⟨W, hW, htest⟩ := Option.map_eq_some_iff.mp hrun
  obtain ⟨hrunning, hvalue⟩ := of_decide_eq_true htest
  exact ⟨W, hrunning, hvalue, specific_map (hW₀.run hW)⟩

end Runs

end LibPthread.Key
