import LibPthread.Concurrency.Trace
import LibPthread.Key.Allocator
import LibPthread.Key.Specific

/-!
# Destructors at the exit of a thread

`__pthread_destroy_specific` walks over the keys, removes the values of the thread and calls the
destructors, which may create and delete keys and set values, until no destructor was called in
a whole pass. What happens to a key and to the value of the thread for it is logged, and every
log is a history of the automaton `KeyStep`.
-/

open Concurrency

namespace LibPthread.Key

/-- What happens to a key: it is created with a destructor, it is deleted, the thread comes to
hold a value, the value is overwritten, or it is removed and passed to the destructor, unless
this is `NULL`. -/
inductive KeyEvent (D V : Type) where
  | created (d : Option D)
  | deleted
  | held (v : V)
  | overwritten
  | removed (d : Option D) (v : V)
  deriving DecidableEq, Repr

/-- The state of a key: it does not exist, or it has a destructor, and the thread may hold a value
for it. -/
inductive KeyState (D V : Type) where
  | dead
  | live (d : Option D) (value : Option V)
  deriving DecidableEq, Repr

/-- The histories of a key: a value is held until it is overwritten, its key is deleted, or it is
removed and passed to the destructor of the key, whichever happens first. -/
inductive KeyStep {D V : Type} : KeyState D V → KeyEvent D V → KeyState D V → Prop where
  | created (d : Option D) : KeyStep .dead (.created d) (.live d none)
  | deleted (d : Option D) (value : Option V) : KeyStep (.live d value) .deleted .dead
  | held (d : Option D) (v : V) : KeyStep (.live d none) (.held v) (.live d (some v))
  | overwritten (d : Option D) (v : V) : KeyStep (.live d (some v)) .overwritten (.live d none)
  | removed (d : Option D) (v : V) :
    KeyStep (.live d (some v)) (.removed d v) (.live d none)

/-- The calls a destructor makes, with the answers they get. -/
inductive Action (D V : Type) where
  | create (d : Option D) (realloc : Bool)
  | delete (key : Int)
  | set (key : Int) (value : Option V) (create add : Bool)

/-- The state of `__pthread_destroy_specific`: the variables `i` and `seen_one`, the number of the
pass, the log of the events, and the passes and keys of the values that were removed. -/
structure Walk (D V : Type) where
  tsd : Tsd D V
  i : Nat
  seenOne : Bool
  pass : Nat
  log : List (Nat × KeyEvent D V)
  removals : List (Nat × Nat)

variable {D V : Type}

/-- The state of a key, seen by the thread on the structure `p`. -/
def Tsd.keyState (S : Tsd D V) (p key : Nat) : KeyState D V :=
  match S.keys.destructor key with
  | none => .dead
  | some d => .live d (S.value p key)

/-- The events of a key in a list of events. -/
def eventsOf (events : List (Nat × KeyEvent D V)) (key : Nat) : List (KeyEvent D V) :=
  (events.filter fun x => x.1 = key).map Prod.snd

namespace Walk

/-- The walk before the first pass. -/
def start (S : Tsd D V) : Walk D V :=
  ⟨S, 0, false, 0, [], []⟩

/-- The events of a key. -/
def history (W : Walk D V) (key : Nat) : List (KeyEvent D V) :=
  eventsOf W.log key

/-- The state after events that are logged. -/
def append (W : Walk D V) (S : Tsd D V) (events : List (Nat × KeyEvent D V)) : Walk D V :=
  { W with tsd := S, log := W.log ++ events }

/-- A call made by a destructor that runs in the thread on the structure `p`. -/
def act (t : Thread.Table) (p : Nat) (W : Walk D V) : Action D V → Option (Walk D V)
  | .create d realloc =>
    (W.tsd.keyCreate d realloc).map fun x =>
      match x.2 with
      | .error _ => W.append x.1 []
      | .ok key =>
        W.append x.1 ((key, .created d) :: (x.1.value p key).toList.map fun v => (key, .held v))
  | .delete key =>
    (W.tsd.keyDelete t key).map fun x =>
      match x.2 with
      | some _ => W.append x.1 []
      | none => W.append x.1 [(key.toNat, .deleted)]
  | .set key value create add =>
    let x := W.tsd.setspecific p key value create add
    match x.2 with
    | some _ => W.append x.1 []
    | none =>
      W.append x.1 (((W.tsd.value p key.toNat).toList.map fun _ => (key.toNat, .overwritten)) ++
        value.toList.map fun v => (key.toNat, .held v))

/-- The calls made by a destructor. -/
def acts (t : Thread.Table) (p : Nat) : List (Action D V) → Walk D V → Option (Walk D V)
  | [], W => some W
  | a :: actions, W => (W.act t p a).bind (acts t p actions)

/-- The value is removed, and passed to the destructor of the key, which makes the given calls. -/
def callDestructor (t : Thread.Table) (p : Nat) (actions : List (Action D V)) (W : Walk D V)
    (d : Option D) (v : V) : Option (Walk D V) :=
  let W := W.append (W.tsd.remove p W.i) [(W.i, .removed d v)]
  let W := { W with removals := W.removals ++ [(W.pass, W.i)] }
  match d with
  | none => some W
  | some _ => acts t p actions { W with seenOne := true }

/-- The body of the loop over the keys; `none` if memory is used that is not there. -/
def examine (t : Thread.Table) (p : Nat) (actions : List (Action D V)) (W : Walk D V) :
    Option (Walk D V) :=
  match W.tsd.keys.destructors[W.i]? with
  | some .invalid => some W
  | some (.live d) =>
    match W.tsd.specifics p with
    | none => none
    | some m =>
      match m W.i with
      | none => some W
      | some v => W.callDestructor t p actions d v
  | _ => none

/-- One round of the loop over the keys. -/
def visit (t : Thread.Table) (p : Nat) (actions : List (Action D V)) (W : Walk D V) :
    Option (Walk D V) :=
  (W.examine t p actions).map fun W => { W with i := W.i + 1 }

end Walk

/-- The steps of the loops. -/
inductive WalkStep (t : Thread.Table) (p : Nat) : Walk D V → Walk D V → Prop where
  | visit {W W' : Walk D V} (actions : List (Action D V)) (more : W.i < W.tsd.keys.count)
    (step : W.visit t p actions = some W') : WalkStep t p W W'
  | again {W : Walk D V} (last : ¬ W.i < W.tsd.keys.count) (seen : W.seenOne = true) :
    WalkStep t p W { W with i := 0, seenOne := false, pass := W.pass + 1 }

/-- The loops have ended. -/
def Walk.Finished (W : Walk D V) : Prop :=
  ¬ W.i < W.tsd.keys.count ∧ W.seenOne = false

/-- `__pthread_destroy_specific` ends with the state `W`, before the `ihash` is freed; without an
`ihash` there is nothing to do. -/
def DestroySpecific (t : Thread.Table) (p : Nat) (S : Tsd D V) (W : Walk D V) : Prop :=
  (S.specifics p = none ∧ W = .start S) ∨
    (S.specifics p ≠ none ∧ Relation.ReflTransGen (WalkStep t p) (.start S) W ∧ W.Finished)

/-- The log is a history of every key that ends without a value, and within every pass the values
are removed in the order of the keys. -/
structure DestroyedProperly (p : Nat) (S : Tsd D V) (W : Walk D V) : Prop where
  history : ∀ key, Path KeyStep (S.keyState p key) (W.history key) (W.tsd.keyState p key)
  empty : ∀ key d v, W.tsd.keyState p key ≠ .live d (some v)
  ordered : W.removals.Pairwise fun x y => x.1 < y.1 ∨ (x.1 = y.1 ∧ x.2 < y.2)

/-! ### The events of an action -/

section Follow

variable {S S' S'' : Tsd D V} {t : Thread.Table} {p key : Nat}
  {events events' : List (Nat × KeyEvent D V)}

/-- The events lead from one state to the other for every key. -/
def Follows (p : Nat) (S : Tsd D V) (events : List (Nat × KeyEvent D V)) (S' : Tsd D V) : Prop :=
  ∀ key, Path KeyStep (S.keyState p key) (eventsOf events key) (S'.keyState p key)

theorem Follows.trans (h : Follows p S events S') (h' : Follows p S' events' S'') :
  Follows p S (events ++ events') S''
  := by
  intro key
  rw [eventsOf, List.filter_append, List.map_append]
  exact (h key).append (h' key)

theorem follows_of_eq (h : ∀ key, S'.keyState p key = S.keyState p key) :
  Follows p S [] S'
  := by
  intro key
  rw [h key]
  exact .nil _

/-- Events of one key, which is the only one whose state changes. -/
theorem follows_of_key {e : List (KeyEvent D V)}
    (hkey : Path KeyStep (S.keyState p key) e (S'.keyState p key))
    (hother : ∀ key', key' ≠ key → S'.keyState p key' = S.keyState p key') :
  Follows p S (e.map fun x => (key, x)) S'
  := by
  intro key'
  by_cases hk : key' = key
  · have hevents : eventsOf (e.map fun x => (key, x)) key = e := by
      simp [eventsOf, List.filter_map, Function.comp_def]
    rw [hk, hevents]
    exact hkey
  · have hevents : eventsOf (e.map fun x => (key, x)) key' = [] := by
      simp [eventsOf, List.filter_map, Function.comp_def, Ne.symm hk]
    rw [hevents, hother key' hk]
    exact .nil _

/-- The state of a key depends on its destructor and on the value of the thread. -/
theorem keyState_congr (hd : S'.keys.destructor key = S.keys.destructor key)
    (hv : S'.value p key = S.value p key) :
  S'.keyState p key = S.keyState p key
  := by
  rw [Tsd.keyState, Tsd.keyState, hd, hv]

theorem keyState_live {d : Option D} (hd : S.keys.destructor key = some d) :
  S.keyState p key = .live d (S.value p key)
  := by
  rw [Tsd.keyState, hd]

theorem keyState_dead (hd : S.keys.destructor key = none) :
  S.keyState p key = .dead
  := by
  rw [Tsd.keyState, hd]

theorem follows_keyCreate (hc : Consistent S.keys) {d : Option D} {realloc : Bool}
    {r : Except Errno Nat} (h : S.keyCreate d realloc = some (S', r)) :
  Consistent S'.keys ∧
    match r with
    | .error _ => Follows p S [] S'
    | .ok key =>
      Follows p S ((key, .created d) :: (S'.value p key).toList.map fun v => (key, .held v)) S'
  := by
  obtain ⟨T, r', hcreates, hsucc, -⟩ := hc.creates d realloc
  rw [Tsd.keyCreate, hsucc 0] at h
  obtain ⟨rfl, rfl⟩ := Prod.mk.inj (Option.some.inj h)
  cases r' with
  | error e =>
      refine ⟨hcreates.1, follows_of_eq fun key => ?_⟩
      exact keyState_congr (hcreates.2.2 key) rfl
  | ok key =>
      obtain ⟨hcons, hdead, hkey, hother⟩ := hcreates
      refine ⟨hcons, ?_⟩
      have hbefore : S.keyState p key = .dead := by
        apply keyState_dead
        rw [KeyTable.Live, Option.not_isSome_iff_eq_none] at hdead
        exact hdead
      have hafter := keyState_live (S := { S with keys := T }) (p := p) hkey
      have hfollows : Follows p S
          ((.created d :: (S.value p key).toList.map .held).map fun e => (key, e))
          { S with keys := T } := by
        apply follows_of_key
        · rw [hbefore, hafter]
          apply Path.cons (.created d)
          change Path KeyStep _ _ (.live d (S.value p key))
          cases S.value p key with
          | none => exact .nil _
          | some v => exact .single (.held d v)
        · intro key' hne
          exact keyState_congr (hother key' (by exact_mod_cast hne)) rfl
      change Follows p S
        ((key, .created d) :: (S.value p key).toList.map fun v => (key, .held v)) _
      simpa [Function.comp_def] using hfollows

theorem follows_keyDelete (hc : Consistent S.keys) {key : Int} {r : Option Errno}
    (h : S.keyDelete t key = some (S', r)) :
  Consistent S'.keys ∧
    Follows p S (match r with | some _ => [] | none => [(key.toNat, .deleted)]) S'
  := by
  obtain ⟨hsucc, hfail, hchanges⟩ := deletesKey S.keys key
  rw [Tsd.keyDelete] at h
  split at h
  · obtain ⟨rfl, rfl⟩ := Prod.mk.inj (Option.some.inj h)
    exact ⟨hc, follows_of_eq fun key => rfl⟩
  · rename_i keys hdelete
    rw [hdelete] at hsucc hchanges
    have hlive := hsucc.mp rfl
    obtain ⟨hkey, hother⟩ := hchanges hlive
    obtain ⟨S₁, hscrub, heq⟩ := Option.map_eq_some_iff.mp h
    obtain ⟨rfl, rfl⟩ := Prod.mk.inj heq
    obtain ⟨hkeys, hvalue⟩ := Tsd.scrub_frame hscrub
    have hcons := hc.keyDelete key
    rw [hdelete] at hcons
    refine ⟨by rw [hkeys]; exact hcons, ?_⟩
    obtain ⟨d, hd⟩ := destructor_of_live hlive
    apply follows_of_key (e := [.deleted])
    · rw [keyState_live hd, keyState_dead]
      · exact .single (.deleted d _)
      · rw [hkeys, Live.natCast hlive]
        exact hkey
    · intro key' hne
      apply keyState_congr
      · rw [hkeys]
        apply hother
        rw [← Live.natCast hlive]
        exact_mod_cast hne
      · exact hvalue p key' hne

theorem follows_setspecific (S : Tsd D V) (p : Nat) (key : Int) (v : Option V)
    (create add : Bool) :
  Follows p S
    (match (S.setspecific p key v create add).2 with
      | some _ => []
      | none => ((S.value p key.toNat).toList.map fun _ => (key.toNat, .overwritten)) ++
          v.toList.map fun v => (key.toNat, .held v))
    (S.setspecific p key v create add).1
  := by
  obtain ⟨hkeys, ⟨hr, hlive, hvalue⟩ | ⟨hr, hvalue⟩⟩ := S.setspecific_cases p key v create add
  · rw [hr]
    obtain ⟨d, hd⟩ := destructor_of_live hlive
    have hafter : (S.setspecific p key v create add).1.keyState p key.toNat = .live d v := by
      rw [keyState_live (hkeys ▸ hd), hvalue, if_pos ⟨rfl, rfl⟩]
    have hfollows : Follows p S
        ((((S.value p key.toNat).toList.map fun _ => KeyEvent.overwritten) ++
          v.toList.map KeyEvent.held).map
          fun e => (key.toNat, e)) (S.setspecific p key v create add).1 := by
      apply follows_of_key
      · rw [keyState_live hd, hafter]
        apply Path.append (t := .live d none)
        · cases S.value p key.toNat with
          | none => exact .nil _
          | some v => exact .single (.overwritten d v)
        · cases v with
          | none => exact .nil _
          | some v => exact .single (.held d v)
      · intro key' hne
        apply keyState_congr
        · rw [hkeys]
        · rw [hvalue, if_neg (fun hand => hne hand.2)]
    simpa [Function.comp_def] using hfollows
  · cases h2 : (S.setspecific p key v create add).2 with
    | none => exact absurd h2 hr
    | some e =>
        apply follows_of_eq
        intro key'
        apply keyState_congr
        · rw [hkeys]
        · rw [hvalue]

theorem follows_remove {d : Option D} {v : V} (hd : S.keys.destructor key = some d)
    (hv : S.value p key = some v) :
  Follows p S [(key, .removed d v)] (S.remove p key)
  := by
  apply follows_of_key (e := [.removed d v])
  · rw [keyState_live hd, keyState_live (S := S.remove p key) (by rw [Tsd.remove_keys]; exact hd),
      hv, Tsd.remove_value, if_pos ⟨rfl, rfl⟩]
    exact .single (.removed d v)
  · intro key' hne
    apply keyState_congr
    · rw [Tsd.remove_keys]
    · rw [Tsd.remove_value, if_neg (fun hand => hne hand.2)]

end Follow

/-! ### The calls of a destructor -/

section Calls

variable {t : Thread.Table} {p : Nat} {W W' W'' : Walk D V}

/-- The walk `W'` is `W` after more events, which are logged. -/
structure Extends (p : Nat) (W W' : Walk D V) : Prop where
  i : W'.i = W.i
  seenOne : W'.seenOne = W.seenOne
  pass : W'.pass = W.pass
  removals : W'.removals = W.removals
  keys : Consistent W'.tsd.keys
  log : ∃ events, W'.log = W.log ++ events ∧ Follows p W.tsd events W'.tsd

theorem Extends.refl (hc : Consistent W.tsd.keys) :
  Extends p W W
  := ⟨rfl, rfl, rfl, rfl, hc, [], (List.append_nil _).symm, follows_of_eq fun _ => rfl⟩

theorem Extends.trans (h : Extends p W W') (h' : Extends p W' W'') :
  Extends p W W''
  := by
  obtain ⟨events, hlog, hfollows⟩ := h.log
  obtain ⟨events', hlog', hfollows'⟩ := h'.log
  refine ⟨h'.i.trans h.i, h'.seenOne.trans h.seenOne, h'.pass.trans h.pass,
    h'.removals.trans h.removals, h'.keys, events ++ events', ?_, hfollows.trans hfollows'⟩
  rw [hlog', hlog, List.append_assoc]

/-- The events that are appended are what extends the log. -/
theorem extends_append {S : Tsd D V} {events : List (Nat × KeyEvent D V)}
    (hc : Consistent S.keys) (hfollows : Follows p W.tsd events S) :
  Extends p W (W.append S events)
  := ⟨rfl, rfl, rfl, rfl, hc, events, rfl, hfollows⟩

theorem extends_act (hc : Consistent W.tsd.keys) {a : Action D V} (h : W.act t p a = some W') :
  Extends p W W'
  := by
  cases a with
  | create d realloc =>
      obtain ⟨⟨S, r⟩, hcreate, rfl⟩ := Option.map_eq_some_iff.mp h
      obtain ⟨hcons, hfollows⟩ := follows_keyCreate (p := p) hc hcreate
      cases r with
      | error e => exact extends_append hcons hfollows
      | ok key => exact extends_append hcons hfollows
  | delete key =>
      obtain ⟨⟨S, r⟩, hdelete, rfl⟩ := Option.map_eq_some_iff.mp h
      obtain ⟨hcons, hfollows⟩ := follows_keyDelete (p := p) hc hdelete
      cases r with
      | none => exact extends_append hcons hfollows
      | some e => exact extends_append hcons hfollows
  | set key v create add =>
      have hkeys := (W.tsd.setspecific_cases p key v create add).1
      have hcons : Consistent (W.tsd.setspecific p key v create add).1.keys := hkeys ▸ hc
      have hfollows := follows_setspecific W.tsd p key v create add
      simp only [Walk.act] at h
      cases hr : (W.tsd.setspecific p key v create add).2 with
      | none =>
          rw [hr] at hfollows h
          obtain rfl := Option.some.inj h
          exact extends_append hcons hfollows
      | some e =>
          rw [hr] at hfollows h
          obtain rfl := Option.some.inj h
          exact extends_append hcons hfollows

theorem extends_acts (hc : Consistent W.tsd.keys) {actions : List (Action D V)}
    (h : Walk.acts t p actions W = some W') :
  Extends p W W'
  := by
  induction actions generalizing W with
  | nil =>
      obtain rfl := Option.some.inj h
      exact .refl hc
  | cons a actions ih =>
      obtain ⟨W₁, hact, hacts⟩ := Option.bind_eq_some_iff.mp h
      have hfirst := extends_act hc hact
      exact hfirst.trans (ih hfirst.keys hacts)

end Calls

/-! ### The walk -/

section Walk

variable {t : Thread.Table} {p : Nat} {S : Tsd D V} {W W' : Walk D V}

/-- The invariant of the walk that starts with `S`: as long as no destructor was called in a pass,
the keys that were visited in it have no values. -/
structure Walk.Inv (p : Nat) (S : Tsd D V) (W : Walk D V) : Prop where
  keys : Consistent W.tsd.keys
  follows : Follows p S W.log W.tsd
  visited : W.seenOne = false → ∀ key, key < W.i → ∀ d v, W.tsd.keyState p key ≠ .live d (some v)
  ordered : W.removals.Pairwise fun x y => x.1 < y.1 ∨ (x.1 = y.1 ∧ x.2 < y.2)
  removals : ∀ x ∈ W.removals, x.1 < W.pass ∨ (x.1 = W.pass ∧ x.2 < W.i)

theorem Walk.Inv.start (hc : Consistent S.keys) :
  (Walk.start S).Inv p S
  := by
  constructor
  · exact hc
  · exact follows_of_eq fun _ => rfl
  · intro _ key hkey
    exact absurd hkey (Nat.not_lt_zero _)
  · exact .nil
  · intro x hx
    cases hx

/-- The next pass starts. -/
theorem Walk.Inv.again (h : W.Inv p S) :
  Walk.Inv p S { W with i := 0, seenOne := false, pass := W.pass + 1 }
  := by
  constructor
  · exact h.keys
  · exact h.follows
  · intro _ key hkey
    exact absurd hkey (Nat.not_lt_zero _)
  · exact h.ordered
  · intro x hx
    left
    rcases h.removals x hx with hlt | ⟨heq, -⟩
    · exact Nat.lt_succ_of_lt hlt
    · exact Nat.lt_succ_of_le heq.le

/-- The next key is visited, and there is nothing to remove. -/
theorem Walk.Inv.skip (h : W.Inv p S)
    (hempty : ∀ d v, W.tsd.keyState p W.i ≠ .live d (some v)) :
  Walk.Inv p S { W with i := W.i + 1 }
  := by
  constructor
  · exact h.keys
  · exact h.follows
  · intro hseen key hkey
    rcases Nat.lt_succ_iff_lt_or_eq.mp hkey with hlt | rfl
    · exact h.visited hseen key hlt
    · exact hempty
  · exact h.ordered
  · intro x hx
    rcases h.removals x hx with hlt | ⟨heq, hlt⟩
    · exact .inl hlt
    · exact .inr ⟨heq, Nat.lt_succ_of_lt hlt⟩

/-- The walk after a value was removed, before the destructor is called. -/
def Walk.removed (p : Nat) (W : Walk D V) (d : Option D) (v : V) : Walk D V :=
  { W.append (W.tsd.remove p W.i) [(W.i, .removed d v)] with
    removals := W.removals ++ [(W.pass, W.i)] }

/-- A value is removed; the destructor changes nothing but the data and the log. -/
theorem Walk.Inv.callDestructor (h : W.Inv p S) {d : Option D} {v : V}
    {actions : List (Action D V)} (hd : W.tsd.keys.destructor W.i = some d)
    (hv : W.tsd.value p W.i = some v) (hcall : W.callDestructor t p actions d v = some W') :
  Walk.Inv p S { W' with i := W'.i + 1 }
  := by
  have hremove : Follows p W.tsd [(W.i, .removed d v)] (W.removed p d v).tsd :=
    follows_remove hd hv
  have hkeys : Consistent (W.removed p d v).tsd.keys := by
    change Consistent (W.tsd.remove p W.i).keys
    rw [Tsd.remove_keys]
    exact h.keys
  have hordered : (W.removed p d v).removals.Pairwise
      fun x y => x.1 < y.1 ∨ (x.1 = y.1 ∧ x.2 < y.2) := by
    apply List.pairwise_append.mpr
    refine ⟨h.ordered, List.pairwise_singleton _ _, ?_⟩
    intro x hx y hy
    rw [List.mem_singleton.mp hy]
    exact h.removals x hx
  have hremovals : ∀ x ∈ (W.removed p d v).removals,
      x.1 < W.pass ∨ (x.1 = W.pass ∧ x.2 < W.i + 1) := by
    intro x hx
    rcases List.mem_append.mp hx with hold | hnew
    · rcases h.removals x hold with hlt | ⟨heq, hlt⟩
      · exact .inl hlt
      · exact .inr ⟨heq, Nat.lt_succ_of_lt hlt⟩
    · rw [List.mem_singleton.mp hnew]
      exact .inr ⟨rfl, Nat.lt_succ_self _⟩
  cases d with
  | none =>
      obtain rfl : W.removed p none v = W' := Option.some.inj hcall
      refine ⟨hkeys, h.follows.trans hremove, ?_, hordered, hremovals⟩
      intro hseen key hkey d' v'
      by_cases heq : key = W.i
      · rw [heq, keyState_live (S := (W.removed p none v).tsd)
          (by change (W.tsd.remove p W.i).keys.destructor _ = _; rw [Tsd.remove_keys]; exact hd)]
        change KeyState.live none ((W.tsd.remove p W.i).value p W.i) ≠ _
        rw [Tsd.remove_value, if_pos ⟨rfl, rfl⟩]
        simp
      · have hsame : (W.removed p none v).tsd.keyState p key = W.tsd.keyState p key := by
          apply keyState_congr
          · change (W.tsd.remove p W.i).keys.destructor _ = _
            rw [Tsd.remove_keys]
          · change (W.tsd.remove p W.i).value p key = _
            rw [Tsd.remove_value, if_neg (fun hand => heq hand.2)]
        rw [hsame]
        apply h.visited hseen
        have hkey : key < W.i + 1 := hkey
        omega
  | some d =>
      have hext : Extends p { W.removed p (some d) v with seenOne := true } W' :=
        extends_acts hkeys hcall
      obtain ⟨events, hlog, hfollows⟩ := hext.log
      refine ⟨hext.keys, ?_, ?_, ?_, ?_⟩
      · change Follows p S W'.log W'.tsd
        rw [hlog]
        exact (h.follows.trans hremove).trans hfollows
      · intro hseen
        have hseen : W'.seenOne = false := hseen
        rw [hext.seenOne] at hseen
        cases hseen
      · change W'.removals.Pairwise _
        rw [hext.removals]
        exact hordered
      · change ∀ x ∈ W'.removals, x.1 < W'.pass ∨ (x.1 = W'.pass ∧ x.2 < W'.i + 1)
        rw [hext.removals, hext.pass, hext.i]
        exact hremovals

theorem Walk.Inv.visit (h : W.Inv p S) {actions : List (Action D V)}
    (hmore : W.i < W.tsd.keys.count) (hvisit : W.visit t p actions = some W') :
  W'.Inv p S
  := by
  obtain ⟨W₁, hexamine, rfl⟩ := Option.map_eq_some_iff.mp hvisit
  rw [Walk.examine] at hexamine
  split at hexamine
  · rename_i hinvalid
    obtain rfl := Option.some.inj hexamine
    apply h.skip
    intro d v
    rw [keyState_dead]
    · simp
    · change KeyTable.destructor _ (.ofNat W.i) = _
      rw [KeyTable.destructor, if_pos hmore, hinvalid]
  · rename_i d hlive
    have hd : W.tsd.keys.destructor W.i = some d := by
      change KeyTable.destructor _ (.ofNat W.i) = _
      rw [KeyTable.destructor, if_pos hmore, hlive]
    split at hexamine
    · cases hexamine
    · rename_i m hm
      have hvalue : m W.i = W.tsd.value p W.i := by
        rw [Tsd.value, hm]
        rfl
      split at hexamine
      · rename_i hnone
        obtain rfl := Option.some.inj hexamine
        apply h.skip
        intro d' v
        rw [keyState_live hd, ← hvalue, hnone]
        simp
      · rename_i v hv
        exact h.callDestructor hd (hvalue.symm.trans hv) hexamine
  · cases hexamine

theorem Walk.Inv.step (h : W.Inv p S) (hstep : WalkStep t p W W') :
  W'.Inv p S
  := by
  cases hstep with
  | visit actions more step => exact h.visit more step
  | again last seen => exact h.again

theorem Walk.Inv.run (hc : Consistent S.keys)
    (hrun : Relation.ReflTransGen (WalkStep t p) (.start S) W) :
  W.Inv p S
  := by
  induction hrun with
  | refl => exact .start hc
  | tail _ hlast ih => exact ih.step hlast

/-- If `__pthread_destroy_specific` ends, then it has destroyed the data properly. -/
theorem destroy_specific (hc : Reachable S.keys) (h : DestroySpecific t p S W) :
  DestroyedProperly p S W
  := by
  have hc := hc.consistent
  rcases h with ⟨hnone, rfl⟩ | ⟨-, hrun, hlast, hseen⟩
  · have hstart := Walk.Inv.start (p := p) hc
    refine ⟨hstart.follows, ?_, hstart.ordered⟩
    intro key d v
    change S.keyState p key ≠ _
    rw [Tsd.keyState, Tsd.value, hnone]
    cases S.keys.destructor key with
    | none => simp
    | some d => simp
  · have hinv := Walk.Inv.run hc hrun
    refine ⟨hinv.follows, ?_, hinv.ordered⟩
    intro key d v
    by_cases hkey : key < W.i
    · exact hinv.visited hseen key hkey d v
    · have hcount : ¬ key < W.tsd.keys.count := by omega
      rw [keyState_dead]
      · simp
      · change KeyTable.destructor _ (.ofNat key) = _
        rw [KeyTable.destructor, if_neg hcount]

/-- A thread has a value for a key, and the destructor sets another value once. -/
theorem destroy_specific_twice :
  ∃ (S : Tsd Nat Nat) (W : Walk Nat Nat), DestroySpecific ⟨[.entry 1], 1, 1⟩ 1 S W ∧
    W.history 0 = [.removed (some 7) 5, .held 6, .removed (some 7) 6] ∧ DestroyedProperly 1 S W
  := by
  let S : Tsd Nat Nat := ⟨KeyTable.init.resize.push (some 7), fun _ => some fun _ => some 5⟩
  have hkeys : Reachable S.keys := .tail .refl ⟨.create (some 7) true, 0, .ok 0, rfl⟩
  have hrun : ∃ W : Walk Nat Nat, DestroySpecific ⟨[.entry 1], 1, 1⟩ 1 S W ∧
      W.history 0 = [.removed (some 7) 5, .held 6, .removed (some 7) 6] :=
    ⟨_, .inr ⟨by simp [S],
      .tail (.tail (.tail (.tail (.tail .refl
        (.visit [.set 0 (some 6) true true] (by decide) rfl)) (.again (by decide) rfl))
        (.visit [] (by decide) rfl)) (.again (by decide) rfl)) (.visit [] (by decide) rfl),
      by decide, rfl⟩, by decide⟩
  obtain ⟨W, hW, hhistory⟩ := hrun
  exact ⟨S, W, hW, hhistory, destroy_specific hkeys hW⟩

end Walk

end LibPthread.Key
