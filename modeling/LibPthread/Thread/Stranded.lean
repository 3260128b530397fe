import LibPthread.Thread.Functions
import Mathlib.Data.List.Infix

/-!
# Joiners of a thread that was not started

A creation publishes the ID of its thread before it starts it. If the start fails, the structure
is given up while other threads may wait for it in `pthread_join`. `__pthread_dealloc` wakes them
up in one section and stores `PTHREAD_TERMINATED`, which makes them leave their loop, after two
more steps: a joiner that tests the state in between waits, or waits again, and there is no
further broadcast.
-/

open Concurrency

namespace LibPthread.Thread.Stranded

/-! ### The failed start -/

/-- The steps by which a creation is undone. -/
inductive Undo where
  | stage (st : Stage)
  /-- `__atomic_dec (&__pthread_total)`. -/
  | decTotal
  /-- `_dl_deallocate_tls (pthread->tcb, 1)` and `pthread->tcb = NULL`. -/
  | dropTls
  deriving DecidableEq, Repr

/-- The effect of a step on the structure `p`, or `none` if an assertion fails. -/
def Undo.run (L : Task) (p : Nat) : Undo → Option Task
  | .stage st => st.run L p
  | .decTotal => some { L with total := L.total - 1 }
  | .dropTls => some (L.dropTls p)

/-- The steps from the label `failed_starting` on. The last five are `__pthread_dealloc`. -/
def failedStarting : List Undo :=
  [.stage .setid, .decTotal, .dropTls, .stage .threadDealloc, .stage .halt,
    .stage .stackDealloc, .stage .clearStack] ++ Stage.dealloc.map .stage

/-! ### The system -/

/-- The control points: in `pthread_join`, or at the steps by which the creation is undone, which
returns `err`. -/
inductive Loc where
  | call (l : Reclaim.Loc)
  | undo (rest : List Undo) (err : Errno)
  deriving DecidableEq, Repr

variable {T : Type} [DecidableEq T]

/-- The steps of thread `t`, where the new thread has the structure `p` and the ID `thread`. -/
def step (p thread : Nat) (t : T) (L : Task) : Loc → Outcome Task Loc Reclaim.Ret
  | .call l => (Reclaim.step t p thread t l L).lift id .call .ret
  | .undo [] err => .ret L (.error err)
  | .undo (x :: rest) err =>
    match x.run L p with
    | none => .fault
    | some L' => .goto L' (.undo rest err)

def entry : Loc → Bool
  | .call l => l = .join
  | .undo _ _ => false

/-- The machine of the calls of `pthread_join` and the failed creation. -/
def machine (p thread : Nat) : Machine T Task Loc Reclaim.Ret where
  entry := entry
  step t l _ L := step p thread t L l

/-- The states of the system. -/
abbrev Sys (T : Type) := State T Task Loc Reclaim.Ret

/-- Thread `u` has published the new thread, and its start fails. -/
@[simps]
def start (L : Task) (u : T) (err : Errno) : Sys T where
  shared := L
  loc := Function.update (fun _ => none) u (some (.undo failedStarting err))
  log := []

/-- The steps that are left of the failed creation. -/
def Loc.rest : Loc → List Undo
  | .call _ => []
  | .undo rest _ => rest

/-- The steps that are left of the failed creation by `u`. -/
def left (u : T) (s : Sys T) : List Undo :=
  (s.loc u).elim [] Loc.rest

/-- `__pthread_dealloc` has woken up the joiners and has not stored `PTHREAD_TERMINATED`. -/
def Between (u : T) (s : Sys T) : Prop :=
  .stage .broadcast ∉ left u s ∧ .stage .terminate ∈ left u s

instance (u : T) (s : Sys T) : Decidable (Between u s) :=
  inferInstanceAs (Decidable (_ ∧ _))

/-- No joiner tests the state between the broadcast and the store of `PTHREAD_TERMINATED` and
finds it `PTHREAD_JOINABLE`. -/
def TestsInTime (u : T) (p : Nat) (s : Sys T) : Label T Loc → Prop
  | .call _ _ => True
  | .act v _ => s.loc v = some (.call (.joinLock p)) → (s.shared.structs p).state = .joinable →
    ¬ Between u s

instance (u : T) (p : Nat) (s : Sys T) : (a : Label T Loc) → Decidable (TestsInTime u p s a)
  | .call _ _ => .isTrue trivial
  | .act _ _ => inferInstanceAs (Decidable (_ → _ → _))

/-- A published thread that has not been started. -/
structure Published (L : Task) (p thread : Nat) : Prop where
  entry : L.table.get thread = some (.entry p)
  thread : (L.structs p).thread = thread
  state : (L.structs p).state = .joinable ∨ (L.structs p).state = .detached

/-! ### The steps -/

section Run

variable {L L' : Task} {p thread : Nat} {x : Undo}

/-- What a step does to the structure and to the entry of its ID. -/
structure Undone (L : Task) (p thread : Nat) (x : Undo) (L' : Task) : Prop where
  slot : L'.table.get thread = L.table.get thread ∨ L'.table.get thread = some .null
  thread : (L'.structs p).thread = (L.structs p).thread
  state : (L'.structs p).state =
    if x = .stage .terminate then .terminated else (L.structs p).state
  stateCond : (L'.structs p).stateCond =
    if x = .stage .broadcast then (L.structs p).stateCond + 1 else (L.structs p).stateCond

theorem undone (hthread : (L.structs p).thread = thread) (hstate : (L.structs p).state ≠ .exited)
    (h : x.run L p = some L') :
  Undone L p thread x L'
  := by
  cases x with
  | decTotal =>
      obtain rfl := Option.some.inj h
      exact ⟨.inl rfl, rfl, rfl, rfl⟩
  | dropTls =>
      obtain rfl := Option.some.inj h
      refine ⟨.inl ?_, ?_, ?_, ?_⟩
      · rw [Task.dropTls_table]
      · exact Task.dropTls_part L p Pthread.thread (fun _ => rfl) p
      · exact Task.dropTls_part L p Pthread.state (fun _ => rfl) p
      · exact Task.dropTls_part L p Pthread.stateCond (fun _ => rfl) p
  | stage st =>
      obtain ⟨hslot, hthread', -, hstate', hcond⟩ := Stage.run_effect hthread h
      refine ⟨hslot, hthread', ?_, ?_⟩
      · rw [hstate']
        simp only [Undo.stage.injEq]
      · rw [hcond]
        simp only [Undo.stage.injEq, ne_eq, hstate, not_false_eq_true, and_true]

end Run

/-! ### What holds in every run -/

/-- The control points of the joiners. -/
inductive Joins (p : Nat) : Loc → Prop where
  | join : Joins p (.call .join)
  | joinLock : Joins p (.call (.joinLock p))
  | joinWait (seen : Nat) : Joins p (.call (.joinWait p seen))

/-- The creation is undone step by step, and the other threads only join; `created` is the state
of the structure before. -/
structure Base (u : T) (p thread : Nat) (err : Errno) (created : PthreadState) (s : Sys T) :
    Prop where
  fresh : created = .joinable ∨ created = .detached
  slot : s.shared.table.get thread = some (.entry p) ∨ s.shared.table.get thread = some .null
  thread : (s.shared.structs p).thread = thread
  suffix : left u s <:+ failedStarting
  state : (s.shared.structs p).state =
    if .stage .terminate ∈ left u s then created else .terminated
  control : ∀ v l, s.loc v = some l → (v = u ∧ ∃ rest, l = .undo rest err) ∨ Joins p l
  returns : ∀ v l r, Event.ret v (.call l) r ∈ s.log →
    r = .error .ESRCH ∨ (created = .detached ∧ r = .error .EINVAL)

/-- The moves of a joiner. -/
inductive Move (L : Task) (p : Nat) : Loc → Loc → Prop where
  | found : Move L p (.call .join) (.call (.joinLock p))
  | waits (joinable : (L.structs p).state = .joinable) :
    Move L p (.call (.joinLock p)) (.call (.joinWait p (L.structs p).stateCond))
  | wakes (seen : Nat) (woken : (L.structs p).stateCond ≠ seen) :
    Move L p (.call (.joinWait p seen)) (.call (.joinLock p))

section Base

variable {L' : Task} {p thread : Nat} {u v : T} {err : Errno} {created : PthreadState}
  {s s' : Sys T} {a : Label T Loc} {l l' : Loc} {r : Reclaim.Ret}
  {c : Bool}

/-- The steps that are left contain the broadcast and the last step until they have been
executed. -/
theorem mem_of_suffix {x : Undo} {rest : List Undo} (h : x :: rest <:+ failedStarting) :
  rest <:+ failedStarting ∧ (.stage .terminate ∈ rest ↔ x ≠ .stage .terminate) ∧
    (.stage .broadcast ∈ rest → x ≠ .stage .broadcast)
  := by
  have hall : ∀ k ∈ failedStarting.tails, ∀ y ∈ k.head?,
      (.stage .terminate ∈ k.tail ↔ y ≠ .stage .terminate) ∧
        (.stage .broadcast ∈ k.tail → y ≠ .stage .broadcast) := by
    decide
  have hx := hall (x :: rest) ((List.mem_tails _ _).mpr h) x rfl
  exact ⟨(List.suffix_cons x rest).trans h, hx⟩

omit [DecidableEq T] in
theorem left_eq (hl : s.loc u = some l) :
  left u s = l.rest
  := by
  rw [left, hl, Option.elim_some]

/-- The steps that are left do not change when a thread joins. -/
theorem left_update {s₁ : Sys T} {k : Option Loc}
    (hv : v ≠ u ∨ (left u s = [] ∧ k.elim [] Loc.rest = []))
    (hloc : s₁.loc = Function.update s.loc v k) :
  left u s₁ = left u s
  := by
  rw [left, hloc]
  by_cases huv : v = u
  · subst huv
    obtain hv | ⟨hleft, hk⟩ := hv
    · contradiction
    · rw [Function.update_self, hk, hleft]
  · rw [Function.update_of_ne (Ne.symm huv), left]

theorem Move.rest {L : Task} (h : Move L p l l') :
  l.rest = [] ∧ l'.rest = []
  := by
  cases h <;> exact ⟨rfl, rfl⟩

theorem Move.joins {L : Task} (h : Move L p l l') :
  Joins p l'
  := by
  cases h <;> constructor

namespace Base

omit [DecidableEq T] in
theorem not_exited (hs : Base u p thread err created s) :
  (s.shared.structs p).state ≠ .exited
  := by
  rw [hs.state]
  obtain rfl | rfl := hs.fresh
  all_goals split <;> decide

/-- The steps that lead from one control point to another. -/
theorem goto_cases (hs : Base u p thread err created s) (hl : s.loc v = some l)
    (h : step p thread v s.shared l = .goto L' l') :
  (L' = s.shared ∧ Move s.shared p l l') ∨
    (v = u ∧ ∃ x rest, l = .undo (x :: rest) err ∧ l' = .undo rest err ∧
      x.run s.shared p = some L')
  := by
  obtain ⟨rfl, rest, rfl⟩ | hjoins := hs.control v l hl
  · right
    cases rest with
    | nil => cases h
    | cons x rest =>
        simp only [step] at h
        cases hx : x.run s.shared p with
        | none =>
            rw [hx] at h
            cases h
        | some L₁ =>
            rw [hx] at h
            cases h
            exact ⟨rfl, x, rest, rfl, rfl, hx⟩
  · left
    cases hjoins with
    | join =>
        obtain hslot | hslot := hs.slot
        · simp only [step, Reclaim.step, Reclaim.lookup, hslot, Outcome.lift] at h
          cases h
          exact ⟨rfl, .found⟩
        · simp only [step, Reclaim.step, Reclaim.lookup, hslot, Outcome.lift] at h
          cases h
    | joinLock =>
        cases hstate : (s.shared.structs p).state with
        | joinable =>
            simp only [step, Reclaim.step, Reclaim.joinSection, hstate, Outcome.lift] at h
            cases h
            exact ⟨rfl, .waits hstate⟩
        | exited => exact absurd hstate hs.not_exited
        | terminated =>
            simp only [step, Reclaim.step, Reclaim.joinSection, hstate, Outcome.lift] at h
            cases h
        | detached =>
            simp only [step, Reclaim.step, Reclaim.joinSection, hstate, Outcome.lift] at h
            cases h
    | joinWait seen =>
        simp only [step, Reclaim.step] at h
        split at h
        · cases h
        · cases h
          exact ⟨rfl, .wakes seen ‹_›⟩

/-- The steps that return. -/
theorem ret_cases (hs : Base u p thread err created s) (hl : s.loc v = some l)
    (h : step p thread v s.shared l = .ret L' r) :
  L' = s.shared ∧ ((v = u ∧ l = .undo [] err) ∨ (∃ k, l = .call k ∧
    (r = .error .ESRCH ∨ (created = .detached ∧ r = .error .EINVAL))))
  := by
  obtain ⟨rfl, rest, rfl⟩ | hjoins := hs.control v l hl
  · cases rest with
    | nil =>
        cases h
        exact ⟨rfl, .inl ⟨rfl, rfl⟩⟩
    | cons x rest =>
        simp only [step] at h
        split at h
        · cases h
        · cases h
  · cases hjoins with
    | join =>
        obtain hslot | hslot := hs.slot
        · simp only [step, Reclaim.step, Reclaim.lookup, hslot, Outcome.lift] at h
          cases h
        · simp only [step, Reclaim.step, Reclaim.lookup, hslot, Outcome.lift] at h
          cases h
          exact ⟨rfl, .inr ⟨_, rfl, .inl rfl⟩⟩
    | joinLock =>
        cases hstate : (s.shared.structs p).state with
        | joinable =>
            simp only [step, Reclaim.step, Reclaim.joinSection, hstate, Outcome.lift] at h
            cases h
        | exited => exact absurd hstate hs.not_exited
        | terminated =>
            simp only [step, Reclaim.step, Reclaim.joinSection, hstate, Outcome.lift] at h
            cases h
            exact ⟨rfl, .inr ⟨_, rfl, .inl rfl⟩⟩
        | detached =>
            simp only [step, Reclaim.step, Reclaim.joinSection, hstate, Outcome.lift] at h
            cases h
            have hcreated := hs.state
            rw [hstate] at hcreated
            split at hcreated
            · exact ⟨rfl, .inr ⟨_, rfl, .inr ⟨hcreated.symm, rfl⟩⟩⟩
            · cases hcreated
    | joinWait seen =>
        simp only [step, Reclaim.step] at h
        split at h
        · cases h
        · cases h

omit [DecidableEq T] in
/-- A step after which the structure and the steps that are left are the same. -/
theorem of_same {s₁ : Sys T} (hs : Base u p thread err created s) (hshared : s₁.shared = s.shared)
    (hleft : left u s₁ = left u s)
    (hcontrol : ∀ v l, s₁.loc v = some l → (v = u ∧ ∃ rest, l = .undo rest err) ∨ Joins p l)
    (hreturns : ∀ v l r, Event.ret v (.call l) r ∈ s₁.log →
      r = .error .ESRCH ∨ (created = .detached ∧ r = .error .EINVAL)) :
  Base u p thread err created s₁
  := by
  constructor
  · exact hs.fresh
  · rw [hshared]
    exact hs.slot
  · rw [hshared]
    exact hs.thread
  · rw [hleft]
    exact hs.suffix
  · rw [hshared, hleft]
    exact hs.state
  · exact hcontrol
  · exact hreturns

theorem control_update {s₁ : Sys T} {k : Option Loc} (hs : Base u p thread err created s)
    (hloc : s₁.loc = Function.update s.loc v k)
    (hk : ∀ l, k = some l → (v = u ∧ ∃ rest, l = .undo rest err) ∨ Joins p l) :
  ∀ w l, s₁.loc w = some l → (w = u ∧ ∃ rest, l = .undo rest err) ∨ Joins p l
  := by
  intro w l hl
  rw [hloc] at hl
  by_cases hw : w = v
  · subst hw
    rw [Function.update_self] at hl
    exact hk l hl
  · rw [Function.update_of_ne hw] at hl
    exact hs.control w l hl

/-- A step of the creation. -/
theorem undo {x : Undo} {rest : List Undo} (hs : Base u p thread err created s)
    (hl : s.loc u = some (.undo (x :: rest) err)) (hrun : x.run s.shared p = some L') :
  Base u p thread err created (s.goto u (.undo (x :: rest) err) L' (.undo rest err)) ∧
    (L'.structs p).stateCond =
      if x = .stage .broadcast then (s.shared.structs p).stateCond + 1
      else (s.shared.structs p).stateCond
  := by
  have hsuffix := hs.suffix
  rw [left_eq hl, Loc.rest] at hsuffix
  obtain ⟨hrest, hterminate, -⟩ := mem_of_suffix hsuffix
  have hundone := undone hs.thread hs.not_exited hrun
  have hleft : left u (s.goto u (.undo (x :: rest) err) L' (.undo rest err)) = rest := by
    rw [left, State.goto_loc, Function.update_self, Option.elim_some, Loc.rest]
  refine ⟨?_, hundone.stateCond⟩
  constructor
  · exact hs.fresh
  · obtain hslot | hslot := hundone.slot
    · rw [State.goto_shared, hslot]
      exact hs.slot
    · exact .inr hslot
  · rw [State.goto_shared, hundone.thread]
    exact hs.thread
  · rw [hleft]
    exact hrest
  · rw [hleft, State.goto_shared, hundone.state]
    by_cases hx : x = .stage .terminate
    · rw [if_pos hx, if_neg (fun h => hterminate.mp h hx)]
    · rw [if_neg hx, if_pos (hterminate.mpr hx), hs.state, left_eq hl, Loc.rest,
        if_pos (List.mem_cons_of_mem _ (hterminate.mpr hx))]
  · apply hs.control_update rfl
    intro l hl
    obtain rfl := Option.some.inj hl
    exact .inl ⟨rfl, rest, rfl⟩
  · intro v l r hr
    rw [State.goto_log, List.mem_cons] at hr
    obtain hr | hr := hr
    · cases hr
    · exact hs.returns v l r hr

/-- A call, or a move of a joiner. -/
theorem move (hs : Base u p thread err created s) (hl : s.loc v = some l)
    (hmove : Move s.shared p l l') :
  left u (s.goto v l s.shared l') = left u s ∧
    Base u p thread err created (s.goto v l s.shared l')
  := by
  have hleft : left u (s.goto v l s.shared l') = left u s := by
    apply left_update _ rfl
    by_cases hv : v = u
    · subst hv
      exact .inr ⟨(left_eq hl).trans hmove.rest.1, hmove.rest.2⟩
    · exact .inl hv
  use hleft
  refine hs.of_same rfl hleft ?_ ?_
  · apply hs.control_update rfl
    intro k hk
    obtain rfl := Option.some.inj hk
    exact .inr hmove.joins
  · intro w k r hr
    rw [State.goto_log, List.mem_cons] at hr
    obtain hr | hr := hr
    · cases hr
    · exact hs.returns w k r hr

theorem call (hs : Base u p thread err created s) (hidle : s.loc v = none)
    (hentry : entry l = true) :
  left u (s.call v l) = left u s ∧ l = .call .join ∧ Base u p thread err created (s.call v l)
  := by
  obtain rfl : l = .call .join := by
    cases l with
    | call k => exact congrArg Loc.call (of_decide_eq_true hentry)
    | undo rest err => cases hentry
  have hleft : left u (s.call v (.call .join)) = left u s := by
    apply left_update _ rfl
    by_cases hv : v = u
    · subst hv
      refine .inr ⟨?_, rfl⟩
      rw [left, hidle, Option.elim_none]
    · exact .inl hv
  refine ⟨hleft, rfl, ?_⟩
  refine hs.of_same rfl hleft ?_ ?_
  · apply hs.control_update rfl
    intro k hk
    obtain rfl := Option.some.inj hk
    exact .inr .join
  · intro w k r hr
    rw [State.call_log, List.mem_cons] at hr
    obtain hr | hr := hr
    · cases hr
    · exact hs.returns w k r hr

theorem ret (hs : Base u p thread err created s) (hl : s.loc v = some l)
    (h : step p thread v s.shared l = .ret L' r) :
  L' = s.shared ∧ left u (s.ret v l L' r) = left u s ∧
    Base u p thread err created (s.ret v l L' r)
  := by
  obtain ⟨rfl, hcases⟩ := hs.ret_cases hl h
  have hrest : l.rest = [] := by
    obtain ⟨-, rfl⟩ | ⟨k, rfl, -⟩ := hcases
    all_goals rfl
  have hleft : left u (s.ret v l s.shared r) = left u s := by
    apply left_update _ rfl
    by_cases hv : v = u
    · subst hv
      exact .inr ⟨(left_eq hl).trans hrest, rfl⟩
    · exact .inl hv
  refine ⟨rfl, hleft, ?_⟩
  refine hs.of_same rfl hleft ?_ ?_
  · apply hs.control_update rfl
    intro k hk
    cases hk
  · intro w k r' hr
    rw [State.ret_log, List.mem_cons] at hr
    obtain hr | hr := hr
    · cases hr
      obtain ⟨-, hundo⟩ | ⟨k, -, hret⟩ := hcases
      · cases hundo
      · exact hret
    · exact hs.returns w k r' hr

theorem step (hs : Base u p thread err created s) (h : (machine p thread).Step s a s') :
  Base u p thread err created s'
  := by
  cases h with
  | call hidle hentry => exact (hs.call hidle hentry).2.2
  | goto hl hstep =>
      obtain ⟨rfl, hmove⟩ | ⟨rfl, x, rest, rfl, rfl, hrun⟩ := hs.goto_cases hl hstep
      · exact (hs.move hl hmove).2
      · exact (hs.undo hl hrun).1
  | ret hl hstep => exact (hs.ret hl hstep).2.2

theorem init {L : Task} (hL : Published L p thread) (u : T) (err : Errno) :
  Base u p thread err (L.structs p).state (start L u err)
  := by
  have hleft : left u (start L u err) = failedStarting := by
    rw [left, start_loc, Function.update_self, Option.elim_some, Loc.rest]
  constructor
  · exact hL.state
  · exact .inl hL.entry
  · exact hL.thread
  · rw [hleft]
  · rw [hleft, if_pos (by decide)]
    rfl
  · intro v l hl
    by_cases hv : v = u
    · subst hv
      rw [start_loc, Function.update_self] at hl
      obtain rfl := Option.some.inj hl
      exact .inl ⟨rfl, _, rfl⟩
    · rw [start_loc, Function.update_of_ne hv] at hl
      cases hl
  · intro v l r hr
    cases hr

theorem reach {L : Task} (hL : Published L p thread)
    (hs : (machine p thread).Reach (fun _ _ => True) (start L u err) s) :
  Base u p thread err (L.structs p).state s
  := by
  apply hs.invariant (init hL u err)
  intro s a s' _ hb _ hstep
  exact hb.step hstep

end Base

/-! ### No joiner waits for good -/

/-- A joiner that waits has not seen the broadcast, which is still to come. -/
def Awaits (u : T) (p : Nat) (s : Sys T) : Prop :=
  ∀ v seen, s.loc v = some (.call (.joinWait p seen)) →
    seen ≤ (s.shared.structs p).stateCond ∧
      (.stage .broadcast ∉ left u s → seen < (s.shared.structs p).stateCond)

theorem Awaits.step (hs : Awaits u p s) (hb : Base u p thread err created s)
    (hG : TestsInTime u p s a) (h : (machine p thread).Step s a s') :
  Awaits u p s'
  := by
  cases h with
  | @call v l hidle hentry =>
      obtain ⟨hleft, rfl, -⟩ := hb.call hidle hentry
      intro w seen hw
      rw [hleft]
      by_cases hwv : w = v
      · subst hwv
        rw [State.call_loc, Function.update_self] at hw
        cases hw
      · rw [State.call_loc, Function.update_of_ne hwv] at hw
        exact hs w seen hw
  | @ret v c l L' r hl hstep =>
      obtain ⟨rfl, hleft, -⟩ := hb.ret hl hstep
      intro w seen hw
      rw [hleft]
      by_cases hwv : w = v
      · subst hwv
        rw [State.ret_loc, Function.update_self] at hw
        cases hw
      · rw [State.ret_loc, Function.update_of_ne hwv] at hw
        exact hs w seen hw
  | @goto v c l l' L' hl hstep =>
      obtain ⟨rfl, hmove⟩ | ⟨rfl, x, rest, rfl, rfl, hrun⟩ := hb.goto_cases hl hstep
      · intro w seen hw
        rw [(hb.move hl hmove).1]
        by_cases hwv : w = v
        · subst hwv
          rw [State.goto_loc, Function.update_self] at hw
          obtain rfl := Option.some.inj hw
          cases hmove with
          | waits hjoinable =>
              -- the guard says that the broadcast is still to come
              refine ⟨le_rfl, fun hbroadcast => absurd ⟨hbroadcast, ?_⟩ (hG hl hjoinable)⟩
              by_contra hterminate
              have hstate := hb.state
              rw [hjoinable, if_neg hterminate] at hstate
              cases hstate
        · rw [State.goto_loc, Function.update_of_ne hwv] at hw
          exact hs w seen hw
      · obtain ⟨hbase, hcond⟩ := hb.undo hl hrun
        intro w seen hw
        have hwv : w ≠ v := by
          rintro rfl
          rw [State.goto_loc, Function.update_self] at hw
          cases hw
        rw [State.goto_loc, Function.update_of_ne hwv] at hw
        obtain ⟨hle, hlt⟩ := hs w seen hw
        rw [State.goto_shared, hcond, left, State.goto_loc, Function.update_self,
          Option.elim_some, Loc.rest]
        rw [left_eq hl, Loc.rest] at hlt
        by_cases hx : x = .stage .broadcast
        · rw [if_pos hx]
          exact ⟨by omega, fun _ => by omega⟩
        · rw [if_neg hx]
          refine ⟨hle, fun hbroadcast => hlt ?_⟩
          rw [List.mem_cons, not_or]
          exact ⟨Ne.symm hx, hbroadcast⟩

/-- The creation is undone, and `v` is in `pthread_join` and does not wait. -/
structure Leaves (u : T) (p thread : Nat) (err : Errno) (created : PthreadState) (v : T)
    (s : Sys T) : Prop where
  base : Base u p thread err created s
  finished : left u s = []
  joins : ∃ l, s.loc v = some l ∧ Joins p l ∧
    ∀ seen, l = .call (.joinWait p seen) → seen ≠ (s.shared.structs p).stateCond

namespace Leaves

omit [DecidableEq T] in
theorem terminated (hs : Leaves u p thread err created v s) :
  (s.shared.structs p).state = .terminated
  := by
  rw [hs.base.state, hs.finished, if_neg (List.not_mem_nil)]

/-- The steps of the other threads. -/
theorem other {s₁ : Sys T} {w : T} {k : Option Loc} (hs : Leaves u p thread err created v s)
    (hbase : Base u p thread err created s₁) (hshared : s₁.shared = s.shared)
    (hleft : left u s₁ = left u s) (hw : v ≠ w) (hloc : s₁.loc = Function.update s.loc w k) :
  Leaves u p thread err created v s₁
  := by
  use hbase, hleft.trans hs.finished
  rw [hshared, hloc, Function.update_of_ne hw]
  exact hs.joins

theorem step (hs : Leaves u p thread err created v s) (h : (machine p thread).Step s a s') :
  (Leaves u p thread err created v s' ∧ Machine.returned v s'.log = Machine.returned v s.log) ∨
    Machine.returned v s'.log = .error .ESRCH :: Machine.returned v s.log
  := by
  obtain ⟨l₀, hl₀, hjoins, hawake⟩ := hs.joins
  cases h with
  | @call w l hidle hentry =>
      obtain ⟨hleft, -, hbase⟩ := hs.base.call hidle hentry
      have hw : v ≠ w := by
        rintro rfl
        rw [hl₀] at hidle
        cases hidle
      exact .inl ⟨hs.other hbase rfl hleft hw rfl, rfl⟩
  | @ret w c l L' r hl hstep =>
      obtain ⟨rfl, hleft, hbase⟩ := hs.base.ret hl hstep
      by_cases hw : w = v
      · subst hw
        right
        obtain rfl := Option.some.inj (hl₀.symm.trans hl)
        have hr : r = .error .ESRCH := by
          cases hjoins with
          | join =>
              obtain hslot | hslot := hs.base.slot
              all_goals
                simp only [machine, Stranded.step, Reclaim.step, Reclaim.lookup, hslot,
                  Outcome.lift] at hstep
                cases hstep
              rfl
          | joinLock =>
              simp only [machine, Stranded.step, Reclaim.step, Reclaim.joinSection,
                hs.terminated, Outcome.lift] at hstep
              cases hstep
              rfl
          | joinWait seen =>
              simp only [machine, Stranded.step, Reclaim.step] at hstep
              split at hstep
              · cases hstep
              · cases hstep
        rw [State.ret_log, Machine.returned, if_pos rfl, hr]
      · left
        use hs.other hbase rfl hleft (Ne.symm hw) rfl
        rw [State.ret_log, Machine.returned, if_neg hw]
  | @goto w c l l' L' hl hstep =>
      left
      refine ⟨?_, rfl⟩
      obtain ⟨rfl, hmove⟩ | ⟨rfl, x, rest, rfl, rfl, hrun⟩ := hs.base.goto_cases hl hstep
      · obtain ⟨hleft, hbase⟩ := hs.base.move hl hmove
        by_cases hw : w = v
        · subst hw
          use hbase, hleft.trans hs.finished, l', Function.update_self .., hmove.joins
          rintro seen rfl
          cases hmove with
          | waits hjoinable =>
              rw [hs.terminated] at hjoinable
              cases hjoinable
        · exact hs.other hbase rfl hleft (Ne.symm hw) rfl
      · have hleft := hs.finished
        rw [left_eq hl] at hleft
        cases hleft

/-- The number of steps to the return. -/
def distance : Loc → Nat
  | .call (.joinLock _) => 1
  | .call _ => 2
  | .undo _ _ => 0

theorem progress (hs : Leaves u p thread err created v s) :
  ∃ s', (machine p thread).Step s (.act v false) s' ∧
    (Machine.returned v s'.log = Machine.returned v s.log →
      (s'.loc v).elim 0 distance < (s.loc v).elim 0 distance)
  := by
  obtain ⟨l, hl, hjoins, hawake⟩ := hs.joins
  have hreturns (k : Loc) (h : Stranded.step p thread v s.shared k = .ret s.shared (.error .ESRCH))
      (hk : s.loc v = some k) :
      ∃ s', (machine p thread).Step s (.act v false) s' ∧
        (Machine.returned v s'.log = Machine.returned v s.log →
          (s'.loc v).elim 0 distance < (s.loc v).elim 0 distance) := by
    refine ⟨_, .ret hk h, fun hsame => ?_⟩
    rw [State.ret_log, Machine.returned, if_pos rfl] at hsame
    exact absurd hsame (List.cons_ne_self _ _)
  have hlocks (k : Loc)
      (h : Stranded.step p thread v s.shared k = .goto s.shared (.call (.joinLock p)))
      (hk : s.loc v = some k) (htwo : distance k = 2) :
      ∃ s', (machine p thread).Step s (.act v false) s' ∧
        (Machine.returned v s'.log = Machine.returned v s.log →
          (s'.loc v).elim 0 distance < (s.loc v).elim 0 distance) := by
    refine ⟨_, .goto hk h, fun _ => ?_⟩
    rw [hk, State.goto_loc, Function.update_self, Option.elim_some, Option.elim_some, htwo]
    exact Nat.one_lt_two
  cases hjoins with
  | join =>
      obtain hslot | hslot := hs.base.slot
      · apply hlocks _ _ hl rfl
        simp only [Stranded.step, Reclaim.step, Reclaim.lookup, hslot, Outcome.lift, id_eq]
      · apply hreturns _ _ hl
        simp only [Stranded.step, Reclaim.step, Reclaim.lookup, hslot, Outcome.lift, id_eq]
  | joinLock =>
      apply hreturns _ _ hl
      simp only [Stranded.step, Reclaim.step, Reclaim.joinSection, hs.terminated, Outcome.lift,
        id_eq]
  | joinWait seen =>
      apply hlocks _ _ hl rfl
      simp only [Stranded.step, Reclaim.step, if_neg (hawake seen rfl).symm, Outcome.lift, id_eq]

end Leaves

/-- If no joiner tests the state between the broadcast and the store of `PTHREAD_TERMINATED` and
finds it `PTHREAD_JOINABLE`, no thread waits once `__pthread_dealloc` has finished, and all
calls of `pthread_join` that are in progress then will return `ESRCH`. Before, only those on a
detached thread return anything else. -/
theorem joiners_leave {L : Task} (hL : Published L p thread)
    (hs : (machine p thread).Reach (TestsInTime u p) (start L u err) s) :
  (∀ v l r, Event.ret v (.call l) r ∈ s.log → r = .error .ESRCH ∨
      ((L.structs p).state = .detached ∧ r = .error .EINVAL)) ∧
    (left u s = [] → ∀ v l, s.loc v = some (.call l) →
      (∀ seen, l = .joinWait p seen → seen ≠ (s.shared.structs p).stateCond) ∧
        (machine p thread).WillReturn (fun _ _ => True) s v (.error .ESRCH))
  := by
  have hinv : Base u p thread err (L.structs p).state s ∧ Awaits u p s := by
    apply hs.invariant (I := fun s => Base u p thread err (L.structs p).state s ∧ Awaits u p s)
    · use Base.init hL u err
      intro v seen hv
      by_cases hvu : v = u
      · subst hvu
        rw [start_loc, Function.update_self] at hv
        cases hv
      · rw [start_loc, Function.update_of_ne hvu] at hv
        cases hv
    · rintro s a s' - ⟨hb, hw⟩ hG hstep
      exact ⟨hb.step hstep, hw.step hb hG hstep⟩
  obtain ⟨hb, hw⟩ := hinv
  use hb.returns
  intro hleft v l hl
  have hawake : ∀ seen, l = .joinWait p seen → seen ≠ (s.shared.structs p).stateCond := by
    rintro seen rfl
    apply Nat.ne_of_lt
    apply (hw v seen hl).2
    rw [hleft]
    exact List.not_mem_nil
  use hawake
  have hjoins : Joins p (.call l) := by
    obtain ⟨-, rest, hundo⟩ | hjoins := hb.control v _ hl
    · cases hundo
    · exact hjoins
  apply Machine.WillReturn.of_rank (P := Leaves u p thread err (L.structs p).state v)
    (fun s => (s.loc v).elim 0 Leaves.distance)
  · use hb, hleft, .call l, hl, hjoins
    rintro seen hseen
    exact hawake seen (Loc.call.inj hseen)
  · intro s₁ a s₂ hs₁ _ hstep
    exact hs₁.step hstep
  · intro s₁ hs₁
    obtain ⟨s₂, hstep, hrank⟩ := hs₁.progress
    exact ⟨_, s₂, trivial, hstep, hrank⟩

/-- The broadcast is over, and `v` waits. -/
structure Waits (u : T) (p thread : Nat) (err : Errno) (created : PthreadState) (v : T)
    (s : Sys T) : Prop where
  base : Base u p thread err created s
  past : .stage .broadcast ∉ left u s
  waits : s.loc v = some (.call (.joinWait p (s.shared.structs p).stateCond))

theorem Waits.step (hs : Waits u p thread err created v s)
    (h : (machine p thread).Step s a s') :
  Waits u p thread err created v s'
  := by
  cases h with
  | @call w l hidle hentry =>
      obtain ⟨hleft, -, hbase⟩ := hs.base.call hidle hentry
      have hw : v ≠ w := by
        rintro rfl
        rw [hs.waits] at hidle
        cases hidle
      use hbase, hleft ▸ hs.past
      rw [State.call_loc, Function.update_of_ne hw]
      exact hs.waits
  | @ret w c l L' r hl hstep =>
      obtain ⟨rfl, hleft, hbase⟩ := hs.base.ret hl hstep
      have hw : v ≠ w := by
        rintro rfl
        obtain rfl := Option.some.inj (hs.waits.symm.trans hl)
        simp [machine, Stranded.step, Reclaim.step, Outcome.lift] at hstep
      use hbase, hleft ▸ hs.past
      rw [State.ret_loc, Function.update_of_ne hw]
      exact hs.waits
  | @goto w c l l' L' hl hstep =>
      have hw : v ≠ w := by
        rintro rfl
        obtain rfl := Option.some.inj (hs.waits.symm.trans hl)
        simp [machine, Stranded.step, Reclaim.step, Outcome.lift] at hstep
      obtain ⟨rfl, hmove⟩ | ⟨rfl, x, rest, rfl, rfl, hrun⟩ := hs.base.goto_cases hl hstep
      · obtain ⟨hleft, hbase⟩ := hs.base.move hl hmove
        use hbase, hleft ▸ hs.past
        rw [State.goto_loc, Function.update_of_ne hw]
        exact hs.waits
      · obtain ⟨hbase, hcond⟩ := hs.base.undo hl hrun
        have hpast := hs.past
        rw [left_eq hl, Loc.rest, List.mem_cons, not_or] at hpast
        refine ⟨hbase, ?_, ?_⟩
        · rw [left, State.goto_loc, Function.update_self]
          exact hpast.2
        · rw [State.goto_loc, Function.update_of_ne hw, State.goto_shared, hcond,
            if_neg (Ne.symm hpast.1)]
          exact hs.waits

theorem Waits.reach (hs : Waits u p thread err created v s)
    (h : (machine p thread).Reach (fun _ _ => True) s s') :
  Waits u p thread err created v s'
  := by
  apply h.invariant hs
  intro s a s' _ hs _ hstep
  exact hs.step hstep

/-- A joiner that tests the state in between waits for good, so the condition is necessary. -/
theorem waits_for_good {L : Task} {s₀ : Sys T} (hL : Published L p thread)
    (hs : (machine p thread).Reach (fun _ _ => True) (start L u err) s)
    (hlate : ¬ TestsInTime u p s (.act v c)) (hstep : (machine p thread).Step s (.act v c) s')
    (hafter : (machine p thread).Reach (fun _ _ => True) s' s₀) :
  s₀.loc v = some (.call (.joinWait p (s₀.shared.structs p).stateCond))
  := by
  have hb := Base.reach hL hs
  simp only [TestsInTime, not_forall, not_not] at hlate
  obtain ⟨hl, hjoinable, hbroadcast, -⟩ := hlate
  have hwaits : Waits u p thread err (L.structs p).state v s' := by
    have hgoto : Stranded.step p thread v s.shared (.call (.joinLock p)) =
        .goto s.shared (.call (.joinWait p (s.shared.structs p).stateCond)) := by
      simp only [Stranded.step, Reclaim.step, Reclaim.joinSection, hjoinable, Outcome.lift, id_eq]
    cases hstep with
    | ret hl' hret =>
        obtain rfl := Option.some.inj (hl.symm.trans hl')
        cases hgoto.symm.trans hret
    | goto hl' hgoto' =>
        obtain rfl := Option.some.inj (hl.symm.trans hl')
        cases hgoto.symm.trans hgoto'
        obtain ⟨hleft, hbase⟩ := hb.move hl (.waits hjoinable)
        exact ⟨hbase, hleft ▸ hbroadcast, Function.update_self ..⟩
  exact (hwaits.reach hafter).waits

end Base

/-! ### Runs -/

/-- A thread that is published and not started. -/
theorem published_oneThread :
  Published Reclaim.oneThread 0 1
  := by
  constructor
  · decide
  · decide
  · exact .inl (by decide)

/-- The first `n` steps of the creation by `t`. -/
def undoes {T : Type} (t : T) (n : Nat) : List (Label T Loc) :=
  List.replicate n (.act t false)

/-- Thread `u` waits before the broadcast, and tests the state again after the last step. -/
def inTimeRun {T : Type} (t u : T) : List (Label T Loc) :=
  [.call u (.call .join), .act u false, .act u false] ++ undoes t 13

theorem joiners_leave_inTimeRun :
  ∃ s : Sys (Fin 2),
    (machine 0 1).Reach (TestsInTime 0 0) (start Reclaim.oneThread 0 .EAGAIN) s ∧
      s.loc 0 = none ∧ s.loc 1 = some (.call (.joinWait 0 0)) ∧
      (s.shared.structs 0).stateCond = 1 ∧
      (machine 0 1).WillReturn (fun _ _ => True) s 1 (.error .ESRCH)
  := by
  obtain ⟨s, hs, hp⟩ := Machine.exists_reach_of_run (M := machine 0 1)
    (G := TestsInTime 0 0) (s := start Reclaim.oneThread (0 : Fin 2) .EAGAIN) (inTimeRun 0 1)
    (fun s => s.loc 0 = none ∧ s.loc 1 = some (.call (.joinWait 0 0)) ∧
      (s.shared.structs 0).stateCond = 1) (by decide +kernel)
  simp only [decide_eq_true_eq] at hp
  obtain ⟨hu, hv, hcond⟩ := hp
  use s, hs, hu, hv, hcond
  apply ((joiners_leave published_oneThread hs).2 _ 1 _ hv).2
  rw [left, hu, Option.elim_none]

/-- Thread `u` has looked up the ID, and tests the state between the broadcast and the last
step. -/
def lateRun {T : Type} (t u : T) : List (Label T Loc) :=
  [.call u (.call .join), .act u false] ++ undoes t 10 ++ [.act u false] ++ undoes t 3

/-- The creation has returned, and the joiner waits for good. -/
theorem joiner_stranded :
  ∃ s : Sys (Fin 2),
    (machine 0 1).Reach (fun _ _ => True) (start Reclaim.oneThread 0 .EAGAIN) s ∧
      Published Reclaim.oneThread 0 1 ∧ s.loc 0 = none ∧
      ∀ s', (machine 0 1).Reach (fun _ _ => True) s s' →
        s'.loc 1 = some (.call (.joinWait 0 (s'.shared.structs 0).stateCond)) ∧
          ∀ c, (machine 0 1).exec s' (.act 1 c) = none
  := by
  obtain ⟨s, hs, hp⟩ := Machine.exists_reach_of_run (M := machine 0 1)
    (G := fun _ _ => True) (s := start Reclaim.oneThread (0 : Fin 2) .EAGAIN) (lateRun 0 1)
    (fun s => s.loc 0 = none ∧ s.loc 1 = some (.call (.joinWait 0 (s.shared.structs 0).stateCond)))
    (by decide +kernel)
  simp only [decide_eq_true_eq] at hp
  obtain ⟨hu, hv⟩ := hp
  use s, hs, published_oneThread, hu
  intro s' hs'
  have hpast : .stage .broadcast ∉ left 0 s := by
    rw [left, hu, Option.elim_none]
    exact List.not_mem_nil
  have hwaits := (Waits.mk (Base.reach published_oneThread hs) hpast hv).reach hs'
  use hwaits.waits
  intro c
  simp only [Machine.exec, hwaits.waits, machine, step, Reclaim.step, if_pos, Outcome.lift]

end LibPthread.Thread.Stranded
