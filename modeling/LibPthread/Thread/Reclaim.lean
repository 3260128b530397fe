import LibPthread.Concurrency.System
import LibPthread.Thread.Structures

/-!
# The reclaim of a thread

One joinable thread, which runs on the structure `p` and calls `pthread_exit`, and any number
of calls of `pthread_join` and `pthread_detach` with its ID. A call is a lookup in the table,
sections under `state_lock`, and the stages of the reclaim. A call of `pthread_join` waits
until the number of broadcasts of the condition differs from the one it has seen.

Both functions leave `state_lock` when they find the thread `PTHREAD_EXITED`, and the state
becomes `PTHREAD_TERMINATED` only in the last stage of the reclaim. `Alone` restricts the
runs to those in which no call runs its section while another one reclaims the thread.
-/

open Concurrency

namespace LibPthread.Thread.Reclaim

/-- The results of `pthread_join` and `pthread_detach`: `0`, with the exit status that
`pthread_join` stores, or an error. -/
inductive Ret where
  | success (status : Option Status)
  | error (e : Errno)
  deriving DecidableEq, Repr

/-- The control points. The thread itself passes from `exit` to `exitHalt`, or to
`processExit` if it is the last one. -/
inductive Loc where
  | join
  | joinLock (p : Nat)
  | joinWait (p : Nat) (seen : Nat)
  | detach
  | detachLock (p : Nat)
  | reclaim (p : Nat) (rest : List Stage) (r : Ret)
  | exit (status : Status)
  | exitLock (status : Status)
  | exitDealloc (rest : List Stage)
  | exitHalt
  | halted
  | processExit
  deriving DecidableEq, Repr

variable {T : Type} [DecidableEq T]

/-- The lookup of the ID, followed by the control point `k`. -/
def lookup (thread : Nat) (L : Task) (k : Nat → Loc) : Outcome Task Loc Ret :=
  match L.table.get thread with
  | some (.entry p) => .goto L (k p)
  | some .null => .ret L (.error .ESRCH)
  | some .unwritten => .fault
  | none => .fault

/-- The section of `pthread_join` under `state_lock`. -/
def joinSection (p : Nat) (L : Task) : Outcome Task Loc Ret :=
  match (L.structs p).state with
  | .joinable => .goto L (.joinWait p (L.structs p).stateCond)
  | .exited => .goto L (.reclaim p Stage.reclaim (.success (some (L.structs p).status)))
  | .terminated => .ret L (.error .ESRCH)
  | .detached => .ret L (.error .EINVAL)

/-- The section of `pthread_detach` under `state_lock`. -/
def detachSection (p : Nat) (L : Task) : Outcome Task Loc Ret :=
  match (L.structs p).state with
  | .joinable =>
    .ret ((L.modify p fun q => { q with state := .detached }).broadcast p) (.success none)
  | .exited => .goto L (.reclaim p Stage.reclaim (.success none))
  | .terminated => .ret L (.error .ESRCH)
  | .detached => .ret L (.error .EINVAL)

/-- The section of `__pthread_exit` under `state_lock`, of the thread that runs on `p`. -/
def exitSection (p : Nat) (status : Status) (L : Task) : Outcome Task Loc Ret :=
  match (L.structs p).state with
  | .joinable =>
    .goto ((L.modify p fun q =>
      { q with
        state := .exited
        status := if q.cancelEnabled && q.cancelPending then .canceled else status }).broadcast p)
      .exitHalt
  | .detached => .goto L (.exitDealloc Stage.dealloc)
  | .exited => .fault
  | .terminated => .fault

/-- The steps of thread `t`; `u` is the thread that runs on `p` and has the ID `thread`. -/
def step (u : T) (p thread : Nat) (t : T) (l : Loc) (L : Task) : Outcome Task Loc Ret :=
  match l with
  | .join => lookup thread L .joinLock
  | .joinLock q => joinSection q L
  | .joinWait q seen => if (L.structs q).stateCond = seen then .spin else .goto L (.joinLock q)
  | .detach => lookup thread L .detachLock
  | .detachLock q => detachSection q L
  | .reclaim _ [] r => .ret L r
  | .reclaim q (st :: rest) r =>
    match st.run L q with
    | none => .fault
    | some L' => .goto L' (.reclaim q rest r)
  | .exit status =>
    if t = u then
      .goto { L with total := L.total - 1 }
        (if L.total - 1 = 0 then .processExit else .exitLock status)
    else .spin
  | .exitLock status => exitSection p status L
  | .exitDealloc [] => .goto L .exitHalt
  | .exitDealloc (st :: rest) =>
    match st.run L p with
    | none => .fault
    | some L' => .goto L' (.exitDealloc rest)
  | .exitHalt =>
    -- a thread that was halted by another one takes no step
    if L.kernel.threads.Live (L.structs p).kernelThread then .goto (L.threadHalt p) .halted
    else .spin
  | .halted => .spin
  | .processExit => .spin

def entry : Loc → Bool
  | .join => true
  | .detach => true
  | .exit _ => true
  | _ => false

/-- The machine of the calls on the thread `u`, which runs on `p` and has the ID `thread`. -/
def machine (u : T) (p thread : Nat) : Machine T Task Loc Ret where
  entry := entry
  step t l _ := step u p thread t l

/-- The states of the system. -/
abbrev Sys (T : Type) := State T Task Loc Ret

/-- The stages that are left of a reclaim. -/
def Loc.work : Loc → List Stage
  | .reclaim _ rest _ => rest
  | .exitDealloc rest => rest
  | _ => []

/-- The stages that are left of the reclaim thread `t` is in. -/
def work (s : Sys T) (t : T) : List Stage :=
  (s.loc t).elim [] Loc.work

/-- The structure whose `state_lock` the next step takes. -/
def Loc.locks : Loc → Option Nat
  | .joinLock p => some p
  | .detachLock p => some p
  | _ => none

/-- No call runs its section and finds the thread `PTHREAD_EXITED` while another one reclaims
it. -/
def Alone (s : Sys T) : Label T Loc → Prop
  | .call _ _ => True
  | .act t _ => ∀ l ∈ s.loc t, ∀ p ∈ l.locks,
    (s.shared.structs p).state = .exited → ∀ v, work s v = []

instance [Fintype T] (s : Sys T) : (a : Label T Loc) → Decidable (Alone s a)
  | .call _ _ => .isTrue trivial
  | .act t _ => inferInstanceAs (Decidable (∀ l ∈ s.loc t, ∀ p ∈ l.locks,
      (s.shared.structs p).state = .exited → ∀ v, work s v = []))

/-- The stages executed so far, with the threads that executed them, the latest first. -/
def reclaims : List (Event T Loc Ret) → List (T × Stage)
  | .goto t l _ :: log => (l.work.head?.toList.map fun st => (t, st)) ++ reclaims log
  | _ :: log => reclaims log
  | [] => []

/-- The calls that returned `0`. -/
def successes : List (Event T Loc Ret) → Nat
  | .ret _ _ (.success _) :: log => successes log + 1
  | _ :: log => successes log
  | [] => 0

/-- The thread is reclaimed at most once: every stage of the reclaim is executed at most once
and all by one thread, the structure is linked at most once, at most one call returns `0` and
all others return `ESRCH` or `EINVAL`, and no assertion fails. -/
structure ReclaimedOnce (u : T) (p thread : Nat) (s : Sys T) : Prop where
  once : ((reclaims s.log).map Prod.snd).Nodup
  same : ∀ x ∈ reclaims s.log, ∀ y ∈ reclaims s.log, x.1 = y.1
  linked : s.shared.freeThreads.count p ≤ 1
  success : successes s.log ≤ 1
  returns : ∀ t l r, Event.ret t l r ∈ s.log →
    (∃ status, r = .success status) ∨ r = .error .ESRCH ∨ r = .error .EINVAL
  safe : ¬ (machine u p thread).Faults s

/-- A joinable thread that runs on the structure `p` and has the ID `thread`. -/
structure Running (L : Task) (p thread : Nat) : Prop where
  published : L.table.get thread = some (.entry p)
  thread : (L.structs p).thread = thread
  state : (L.structs p).state = .joinable
  stack : (L.structs p).stack = true
  unlinked : p ∉ L.freeThreads

/-! ### The phases of the reclaim -/

/-- The structure and its entry in the table, after the stages `executed`. -/
structure View (L : Task) (p thread : Nat) (state : PthreadState) (executed : List Stage) :
    Prop where
  slot : L.table.get thread = some (.entry p) ∨ L.table.get thread = some .null
  thread : (L.structs p).thread = thread
  state : (L.structs p).state = state
  stack : (L.structs p).stack = true ∨ .clearStack ∈ executed
  free : L.freeThreads.count p = if .enqueue ∈ executed then 1 else 0

/-- The control points of threads that do not reclaim; `left` when the thread `u` has passed
its section under `state_lock`. -/
def Calm (u : T) (p : Nat) (left : Bool) (v : T) : Option Loc → Prop
  | none => v = u → left = false
  | some .join => v = u → left = false
  | some .detach => v = u → left = false
  | some (.exit _) => v = u → left = false
  | some (.joinLock q) => q = p ∧ (v = u → left = false)
  | some (.joinWait q _) => q = p ∧ (v = u → left = false)
  | some (.detachLock q) => q = p ∧ (v = u → left = false)
  | some (.exitLock _) => v = u ∧ left = false
  | some .processExit => v = u ∧ left = false
  | some .exitHalt => v = u ∧ left = true
  | some .halted => v = u ∧ left = true
  | some (.reclaim _ _ _) => False
  | some (.exitDealloc _) => False

/-- A situation of the reclaim: whether the thread has passed its section, its state, the
stages executed, the thread that executes them, its control point while it does so, and the
number of calls that returned `0`. -/
structure Situation (T : Type) where
  left : Bool
  state : PthreadState
  executed : List Stage
  actor : T
  worker : Option Loc
  successes : Nat

/-- The phases: the thread runs, it has exited, a call reclaims it or it deallocates itself, the
last stage is done, and the reclaim is over. -/
inductive Phase (u : T) (p : Nat) : Situation T → Prop where
  | running (t : T) (detached : Bool) :
    Phase u p ⟨false, if detached then .detached else .joinable, [], t, none,
      if detached then 1 else 0⟩
  | exited (t : T) : Phase u p ⟨true, .exited, [], t, none, 0⟩
  | reclaiming (t : T) (other : t ≠ u) (executed rest : List Stage) (r : Option Status)
    (split : executed ++ rest = Stage.reclaim) (more : rest ≠ []) :
    Phase u p ⟨true, .exited, executed, t, some (.reclaim p rest (.success r)), 0⟩
  | deallocating (executed rest : List Stage) (split : executed ++ rest = Stage.dealloc)
    (more : rest ≠ []) :
    Phase u p ⟨true, .detached, executed, u, some (.exitDealloc rest), 1⟩
  | returning (t : T) (other : t ≠ u) (r : Option Status) :
    Phase u p ⟨true, .terminated, Stage.reclaim, t, some (.reclaim p [] (.success r)), 0⟩
  | leaving : Phase u p ⟨true, .terminated, Stage.dealloc, u, some (.exitDealloc []), 1⟩
  | ended (t : T) (stages : List Stage)
    (full : stages = Stage.reclaim ∨ stages = Stage.dealloc) :
    Phase u p ⟨true, .terminated, stages, t, none, 1⟩

/-- The system is in the situation `x`. -/
structure Holds (u : T) (p thread : Nat) (x : Situation T) (s : Sys T) : Prop where
  view : View s.shared p thread x.state x.executed
  calm : ∀ v, (x.worker ≠ none → v ≠ x.actor) → Calm u p x.left v (s.loc v)
  worker : ∀ l ∈ x.worker, s.loc x.actor = some l
  log : reclaims s.log = x.executed.reverse.map fun st => (x.actor, st)
  successes : successes s.log = x.successes
  returns : ∀ t l r, Event.ret t l r ∈ s.log →
    (∃ status, r = .success status) ∨ r = .error .ESRCH ∨ r = .error .EINVAL

section View

variable {L L' : Task} {p thread : Nat} {state : PthreadState} {executed : List Stage}

/-- Only these parts of the task matter. -/
theorem View.congr (h : View L p thread state executed) (htable : L'.table = L.table)
    (hstructs : L'.structs = L.structs) (hfree : L'.freeThreads = L.freeThreads) :
  View L' p thread state executed
  := by
  constructor
  · rw [htable]
    apply h.slot
  · rw [hstructs]
    apply h.thread
  · rw [hstructs]
    apply h.state
  · rw [hstructs]
    apply h.stack
  · rw [hfree]
    apply h.free

/-- A change of the state of the structure. -/
theorem View.modify {f : Pthread → Pthread} {state' : PthreadState}
    (h : View L p thread state executed)
    (hf : (f (L.structs p)).thread = (L.structs p).thread)
    (hstate : (f (L.structs p)).state = state')
    (hstack : (f (L.structs p)).stack = (L.structs p).stack) :
  View (L.modify p f) p thread state' executed
  := by
  constructor
  · apply h.slot
  · rw [Task.modify_structs, Function.update_self, hf, h.thread]
  · rw [Task.modify_structs, Function.update_self, hstate]
  · rw [Task.modify_structs, Function.update_self, hstack]
    apply h.stack
  · apply h.free

/-- A structure whose entry exists can be withdrawn from the table. -/
theorem View.unpublish (h : View L p thread state executed) :
  ∃ t, L.unpublish p = some { L with table := t } ∧ t.get thread = some .null
  := by
  have hrange : 1 ≤ thread ∧ thread ≤ L.table.threads.length := by
    have hsome : ∃ e, L.table.get thread = some e := by
      rcases h.slot with hslot | hslot <;> exact ⟨_, hslot⟩
    obtain ⟨e, he⟩ := hsome
    rw [Table.get] at he
    split at he
    · cases he
    · have := (List.getElem?_eq_some_iff.mp he).1
      omega
  refine ⟨{ L.table with threads := L.table.threads.set (thread - 1) .null }, ?_, ?_⟩
  · rw [Task.unpublish, h.thread, Table.set, if_pos hrange]
    rfl
  · rw [Table.get, if_neg (by omega), List.getElem?_set_self (by omega)]

/-- A stage that was not executed yet fails no assertion. -/
theorem View.run {st : Stage} {rest : List Stage} (h : View L p thread state executed)
    (hnodup : (executed ++ st :: rest).Nodup) (hstate : state ≠ .terminated)
    (hstack : st = .assertStack → .clearStack ∉ executed) :
  ∃ L', st.run L p = some L' ∧
    View L' p thread (if st = .terminate then .terminated else state) (executed ++ [st])
  := by
  have hst : st ∉ executed := by
    have := List.disjoint_of_nodup_append hnodup
    intro hmem
    apply this hmem List.mem_cons_self
  have hstack' : ∀ st', (L.structs p).stack = true ∨ Stage.clearStack ∈ executed ++ [st'] := by
    intro st'
    rcases h.stack with hs | hs
    · left
      apply hs
    · right
      apply List.mem_append_left _ hs
  have hfree : ∀ st', st' ≠ Stage.enqueue → L.freeThreads.count p =
      if .enqueue ∈ executed ++ [st'] then 1 else 0 := by
    intro st' hne
    rw [h.free]
    have : Stage.enqueue ≠ st' := Ne.symm hne
    simp [this]
  cases st with
  | halt => exact ⟨_, rfl, h.slot, h.thread, h.state, hstack' _, hfree _ (by decide)⟩
  | assertStack =>
      refine ⟨L, ?_, h.slot, h.thread, h.state, hstack' _, hfree _ (by decide)⟩
      rcases h.stack with hs | hs
      · rw [Stage.run, if_pos hs]
      · apply absurd hs (hstack rfl)
  | stackDealloc =>
      refine ⟨_, rfl, ?_⟩
      rw [Task.stackDealloc]
      split
      · exact ⟨h.slot, h.thread, h.state, hstack' _, hfree _ (by decide)⟩
      · exact ⟨h.slot, h.thread, h.state, hstack' _, hfree _ (by decide)⟩
  | clearStack =>
      refine ⟨_, rfl, h.slot, ?_, ?_, .inr (by simp), hfree _ (by decide)⟩
      · simpa using h.thread
      · simpa using h.state
  | threadDealloc =>
      exact ⟨_, rfl, h.slot, h.thread, h.state, hstack' _, hfree _ (by decide)⟩
  | assertState =>
      refine ⟨L, ?_, h.slot, h.thread, h.state, hstack' _, hfree _ (by decide)⟩
      rw [Stage.run, if_neg]
      rw [h.state]
      apply hstate
  | setid =>
      obtain ⟨t, ht, hnull⟩ := h.unpublish
      exact ⟨_, ht, .inr hnull, h.thread, h.state, hstack' _, hfree _ (by decide)⟩
  | broadcast =>
      refine ⟨_, rfl, ?_⟩
      have hview : View L p thread state (executed ++ [.broadcast]) :=
        ⟨h.slot, h.thread, h.state, hstack' _, hfree _ (by decide)⟩
      rw [if_neg (show Stage.broadcast ≠ .terminate by decide)]
      split
      · apply hview
      · apply hview.modify rfl
        · apply h.state
        · rfl
  | enqueue =>
      have hcount : L.freeThreads.count p = 0 := by
        rw [h.free, if_neg hst]
      have hmem : p ∉ L.freeThreads := List.count_eq_zero.mp hcount
      refine ⟨{ L with freeThreads := p :: L.freeThreads }, by rw [Stage.run, if_neg hmem],
        h.slot, h.thread, h.state, hstack' _, ?_⟩
      simp [hcount]
  | terminate =>
      refine ⟨_, rfl, h.slot, ?_, ?_, ?_, hfree _ (by decide)⟩
      · simpa using h.thread
      · simp
      · simpa using hstack' .terminate

end View

/-! ### The steps -/

section Steps

variable {u t : T} {p thread : Nat} {left : Bool} {state : PthreadState}
    {executed : List Stage} {s : Sys T}

/-- What a step of a thread that does not reclaim can do, besides waiting: it goes on, it
returns an error, it starts to reclaim the exited thread, it detaches the running thread, or it
is the section of `__pthread_exit`. -/
inductive CalmStep (u : T) (p thread : Nat) (left : Bool) (state : PthreadState)
    (executed : List Stage) (t : T) (l : Loc) (L : Task) : Outcome Task Loc Ret → Prop where
  | spin : CalmStep u p thread left state executed t l L .spin
  | goto (L' : Task) (l' : Loc) (view : View L' p thread state executed)
    (calm : Calm u p left t (some l')) :
    CalmStep u p thread left state executed t l L (.goto L' l')
  | error (e : Errno) (code : e = .ESRCH ∨ e = .EINVAL) (calm : Calm u p left t none) :
    CalmStep u p thread left state executed t l L (.ret L (.error e))
  | reclaim (r : Option Status) (locks : l.locks = some p) (exited : state = .exited)
    (other : t = u → left = false) :
    CalmStep u p thread left state executed t l L (.goto L (.reclaim p Stage.reclaim (.success r)))
  | detach (joinable : state = .joinable)
    (view : View ((L.modify p fun q => { q with state := .detached }).broadcast p) p thread
      .detached executed) (calm : Calm u p left t none) :
    CalmStep u p thread left state executed t l L
      (.ret ((L.modify p fun q => { q with state := .detached }).broadcast p) (.success none))
  | exit (status : Status) (o : Outcome Task Loc Ret) (self : t = u) (stays : left = false)
    (section_eq : exitSection p status L = o) :
    CalmStep u p thread left state executed t l L o

theorem calmStep {l : Loc} {L : Task} (hview : View L p thread state executed)
    (hcalm : Calm u p left t (some l)) :
  CalmStep u p thread left state executed t l L (step u p thread t l L)
  := by
  cases l with
  | join =>
      simp only [step, lookup]
      rcases hview.slot with hslot | hslot
      · rw [hslot]
        exact .goto L _ hview ⟨rfl, hcalm⟩
      · rw [hslot]
        exact .error .ESRCH (.inl rfl) hcalm
  | detach =>
      simp only [step, lookup]
      rcases hview.slot with hslot | hslot
      · rw [hslot]
        exact .goto L _ hview ⟨rfl, hcalm⟩
      · rw [hslot]
        exact .error .ESRCH (.inl rfl) hcalm
  | joinLock q =>
      obtain ⟨rfl, hleft⟩ := hcalm
      simp only [step, joinSection, hview.state]
      cases state with
      | joinable => exact .goto L _ hview ⟨rfl, hleft⟩
      | detached => exact .error .EINVAL (.inr rfl) hleft
      | exited => exact .reclaim _ rfl rfl hleft
      | terminated => exact .error .ESRCH (.inl rfl) hleft
  | detachLock q =>
      obtain ⟨rfl, hleft⟩ := hcalm
      simp only [step, detachSection, hview.state]
      cases state with
      | joinable =>
          refine .detach rfl ?_ hleft
          apply View.modify (View.modify hview rfl rfl rfl) rfl
          · simp
          · rfl
      | detached => exact .error .EINVAL (.inr rfl) hleft
      | exited => exact .reclaim _ rfl rfl hleft
      | terminated => exact .error .ESRCH (.inl rfl) hleft
  | joinWait q seen =>
      simp only [step]
      split
      · exact .spin
      · exact .goto L _ hview hcalm
  | exit status =>
      simp only [step]
      split
      · rename_i ht
        have hleft := hcalm ht
        refine .goto _ _ (hview.congr ?_ ?_ ?_) ?_
        · rfl
        · rfl
        · rfl
        · split
          · exact ⟨ht, hleft⟩
          · exact ⟨ht, hleft⟩
      · exact .spin
  | exitLock status => exact .exit status _ hcalm.1 hcalm.2 rfl
  | exitHalt =>
      simp only [step]
      split
      · refine .goto _ _ (hview.congr ?_ ?_ ?_) hcalm
        · rfl
        · rfl
        · rfl
      · exact .spin
  | halted => exact .spin
  | processExit => exact .spin
  | reclaim q rest r => exact hcalm.elim
  | exitDealloc rest => exact hcalm.elim

/-- The section of `__pthread_exit` of the running thread. -/
theorem exitSection_running {L : Task} {detached : Bool} (status : Status)
    (hview : View L p thread (if detached then .detached else .joinable) []) :
  (detached = false ∧ ∃ L', exitSection p status L = .goto L' .exitHalt ∧
      View L' p thread .exited []) ∨
    (detached = true ∧ exitSection p status L = .goto L (.exitDealloc Stage.dealloc))
  := by
  have hstate := hview.state
  cases detached with
  | false =>
      left
      simp only [Bool.false_eq_true, if_false] at hstate
      simp only [exitSection, hstate]
      refine ⟨trivial, _, rfl, ?_⟩
      apply View.modify (View.modify hview rfl rfl rfl) rfl
      · simp
      · rfl
  | true =>
      right
      refine ⟨rfl, ?_⟩
      simp only [if_true] at hstate
      simp only [exitSection, hstate]

omit [DecidableEq T] in
theorem work_of_calm {l : Loc} (h : Calm u p left t (some l)) :
  l.work = []
  := by
  cases l with
  | reclaim q rest r => exact h.elim
  | exitDealloc rest => exact h.elim
  | _ => rfl

omit [DecidableEq T] in
/-- Whether the thread has left matters for the thread itself only. -/
theorem Calm.leave {v : T} {o : Option Loc} {left' : Bool} (hv : v ≠ u)
    (h : Calm u p left v o) :
  Calm u p left' v o
  := by
  cases o with
  | none => exact fun hvu => absurd hvu hv
  | some l =>
      cases l with
      | join => exact fun hvu => absurd hvu hv
      | detach => exact fun hvu => absurd hvu hv
      | exit status => exact fun hvu => absurd hvu hv
      | joinLock q => exact ⟨h.1, fun hvu => absurd hvu hv⟩
      | joinWait q seen => exact ⟨h.1, fun hvu => absurd hvu hv⟩
      | detachLock q => exact ⟨h.1, fun hvu => absurd hvu hv⟩
      | reclaim q rest r => exact h.elim
      | exitDealloc rest => exact h.elim
      | exitLock status => exact absurd h.1 hv
      | processExit => exact absurd h.1 hv
      | exitHalt => exact absurd h.1 hv
      | halted => exact absurd h.1 hv

variable {x : Situation T} {l : Loc}

/-- A step of a calm thread leaves the situation as it is if it ends at a calm control point
and counts for nothing. -/
theorem Holds.calm_move {s' : Sys T} {o : Option Loc} (h : Holds u p thread x s)
    (ht : x.worker ≠ none → t ≠ x.actor) (hloc : s'.loc = Function.update s.loc t o)
    (hview : View s'.shared p thread x.state x.executed) (ho : Calm u p x.left t o)
    (hlog : reclaims s'.log = reclaims s.log)
    (hsucc : Reclaim.successes s'.log = Reclaim.successes s.log)
    (hret : ∀ t l r, Event.ret t l r ∈ s'.log →
      (∃ status, r = .success status) ∨ r = .error .ESRCH ∨ r = .error .EINVAL) :
  Holds u p thread x s'
  := by
  constructor
  · apply hview
  · intro v hv
    rw [hloc]
    rcases eq_or_ne v t with rfl | hvt
    · rw [Function.update_self]
      apply ho
    · rw [Function.update_of_ne hvt]
      apply h.calm v hv
  · intro l hl
    have hne : x.actor ≠ t := by
      apply Ne.symm
      apply ht
      rintro hnone
      rw [hnone] at hl
      cases hl
    rw [hloc, Function.update_of_ne hne]
    apply h.worker l hl
  · rw [hlog, h.log]
  · rw [hsucc, h.successes]
  · apply hret

/-- The only thread at a stage executes it. -/
theorem Holds.calm_others {x' : Situation T} {s' : Sys T} {o : Option Loc}
    (h : Holds u p thread x s) (hleft : x'.left = x.left) (hw : x.worker ≠ none → x.actor = t)
    (hloc : s'.loc = Function.update s.loc t o)
    (ho : x'.worker = none → Calm u p x'.left t o) (ht : x'.actor = t) :
  ∀ v, (x'.worker ≠ none → v ≠ x'.actor) → Calm u p x'.left v (s'.loc v)
  := by
  intro v hv
  rw [hloc]
  rcases eq_or_ne v t with rfl | hvt
  · rw [Function.update_self]
    apply ho
    by_contra hnone
    apply hv hnone ht.symm
  · rw [Function.update_of_ne hvt, hleft]
    apply h.calm v
    intro hnone
    rw [hw hnone]
    apply hvt

/-- The worker executes a stage. -/
theorem Holds.stage {x' : Situation T} {l' : Loc} {L : Task} (st : Stage)
    (h : Holds u p thread x s) (hl : l.work.head? = some st)
    (hactor : x'.actor = x.actor) (hleft : x'.left = x.left)
    (hexec : x'.executed = x.executed ++ [st]) (hw' : x'.worker = some l')
    (hsucc : x'.successes = x.successes) (hview : View L p thread x'.state x'.executed) :
  Holds u p thread x' (s.goto x.actor l L l')
  := by
  constructor
  · apply hview
  · apply h.calm_others hleft (fun _ => rfl) rfl _ hactor
    intro hnone
    rw [hw'] at hnone
    cases hnone
  · intro k hk
    rw [hw'] at hk
    cases hk
    rw [hactor, State.goto_loc, Function.update_self]
  · rw [State.goto_log, reclaims, hl, h.log, hexec, hactor]
    simp
  · rw [hsucc, ← h.successes]
    rfl
  · intro v k r hr
    apply h.returns v k r
    simpa using hr

/-- A stage that ends the list is the last one, `terminate`. -/
theorem last_stage {executed : List Stage} {st : Stage} {stages : List Stage}
    (hstages : stages = Stage.reclaim ∨ stages = Stage.dealloc)
    (h : executed ++ [st] = stages) :
  st = .terminate
  := by
  have hlast : stages.getLast? = some st := by
    rw [← h]
    simp
  rcases hstages with rfl | rfl
  · simpa [Stage.reclaim, Stage.dealloc] using hlast.symm
  · simpa [Stage.dealloc] using hlast.symm

/-- A stage of the list tells which stages stand before it and after it. -/
theorem split_eq {executed : List Stage} {st : Stage} {rest stages : List Stage}
    (hstages : stages = Stage.reclaim ∨ stages = Stage.dealloc)
    (h : executed ++ st :: rest = stages) :
  executed = stages.takeWhile (· ≠ st) ∧ rest = (stages.dropWhile (· ≠ st)).tail
  := by
  have hnodup : (executed ++ st :: rest).Nodup := by
    rw [h]
    rcases hstages with rfl | rfl <;> decide
  have hne : ∀ a ∈ executed, decide (a ≠ st) = true := by
    intro a ha
    rw [decide_eq_true_eq]
    rintro rfl
    apply List.disjoint_of_nodup_append hnodup ha List.mem_cons_self
  rw [← h]
  constructor
  · rw [List.takeWhile_append_of_pos hne]
    simp
  · rw [List.dropWhile_append_of_pos hne]
    simp

/-- A stage before the end of the list is not the last one. -/
theorem not_last_stage {executed : List Stage} {st : Stage} {rest stages : List Stage}
    (hstages : stages = Stage.reclaim ∨ stages = Stage.dealloc)
    (h : executed ++ st :: rest = stages) (hrest : rest ≠ []) :
  st ≠ .terminate
  := by
  rintro rfl
  apply hrest
  rw [(split_eq hstages h).2]
  rcases hstages with rfl | rfl <;> rfl

/-- While `assertStack` has not been executed, `clearStack` has not been either. -/
theorem clearStack_not_mem {executed rest stages : List Stage}
    (hstages : stages = Stage.reclaim ∨ stages = Stage.dealloc)
    (h : executed ++ Stage.assertStack :: rest = stages) :
  .clearStack ∉ executed
  := by
  rw [(split_eq hstages h).1]
  rcases hstages with rfl | rfl <;> decide

omit [DecidableEq T] in
/-- The next stage of a list can be run. -/
theorem Holds.run {st : Stage} {rest stages : List Stage} (h : Holds u p thread x s)
    (hstages : stages = Stage.reclaim ∨ stages = Stage.dealloc)
    (hsplit : x.executed ++ st :: rest = stages) (hstate : x.state ≠ .terminated) :
  ∃ L, st.run s.shared p = some L ∧
    View L p thread (if rest = [] then .terminated else x.state) (x.executed ++ [st])
  := by
  have hnodup : (x.executed ++ st :: rest).Nodup := by
    rw [hsplit]
    rcases hstages with rfl | rfl <;> decide
  have hstack : st = .assertStack → .clearStack ∉ x.executed := by
    rintro rfl
    apply clearStack_not_mem hstages hsplit
  obtain ⟨L, hL, hview⟩ := h.view.run hnodup hstate hstack
  refine ⟨L, hL, ?_⟩
  by_cases hrest : rest = []
  · subst hrest
    rw [last_stage hstages hsplit] at hview ⊢
    simpa using hview
  · rw [if_neg (not_last_stage hstages hsplit hrest)] at hview
    rw [if_neg hrest]
    apply hview

/-- The thread at a stage, in the present phase. -/
theorem Phase.step_worker {s' : Sys T} {c : Bool} (hx : Phase u p x)
    (h : Holds u p thread x s) (hw : x.worker ≠ none)
    (hstep : (machine u p thread).Step s (.act x.actor c) s') :
  ∃ x', Phase u p x' ∧ Holds u p thread x' s'
  := by
  cases hx with
  | running t detached => exact absurd rfl hw
  | exited t => exact absurd rfl hw
  | ended t stages full => exact absurd rfl hw
  | reclaiming t other executed rest r split more =>
      have hl := h.worker _ rfl
      cases rest with
      | nil => exact absurd rfl more
      | cons st rest =>
          obtain ⟨L, hL, hview⟩ := h.run (.inl rfl) split (by simp)
          have hst : step u p thread t (.reclaim p (st :: rest) (.success r)) s.shared =
              .goto L (.reclaim p rest (.success r)) := by
            simp only [step, hL]
          cases hstep with
          | goto hl' hst' =>
              obtain rfl := Option.some.inj (hl.symm.trans hl')
              obtain ⟨rfl, rfl⟩ := Outcome.goto.inj (hst.symm.trans hst')
              by_cases hrest : rest = []
              · subst hrest
                refine ⟨_, .returning t other r, h.stage st ?_ rfl rfl ?_ rfl rfl ?_⟩
                · rfl
                · apply split.symm
                · rw [← split]
                  simpa using hview
              · refine ⟨_, .reclaiming t other (executed ++ [st]) rest r ?_ hrest,
                  h.stage st ?_ rfl rfl rfl rfl rfl ?_⟩
                · simpa using split
                · rfl
                · simpa [hrest] using hview
          | ret hl' hst' =>
              obtain rfl := Option.some.inj (hl.symm.trans hl')
              cases hst.symm.trans hst'
  | deallocating executed rest split more =>
      have hl := h.worker _ rfl
      cases rest with
      | nil => exact absurd rfl more
      | cons st rest =>
          obtain ⟨L, hL, hview⟩ := h.run (.inr rfl) split (by simp)
          have hst : step u p thread u (.exitDealloc (st :: rest)) s.shared =
              .goto L (.exitDealloc rest) := by
            simp only [step, hL]
          cases hstep with
          | goto hl' hst' =>
              obtain rfl := Option.some.inj (hl.symm.trans hl')
              obtain ⟨rfl, rfl⟩ := Outcome.goto.inj (hst.symm.trans hst')
              by_cases hrest : rest = []
              · subst hrest
                refine ⟨_, .leaving, h.stage st ?_ rfl rfl ?_ rfl rfl ?_⟩
                · rfl
                · apply split.symm
                · rw [← split]
                  simpa using hview
              · refine ⟨_, .deallocating (executed ++ [st]) rest ?_ hrest,
                  h.stage st ?_ rfl rfl rfl rfl rfl ?_⟩
                · simpa using split
                · rfl
                · simpa [hrest] using hview
          | ret hl' hst' =>
              obtain rfl := Option.some.inj (hl.symm.trans hl')
              cases hst.symm.trans hst'
  | returning t other r =>
      have hl := h.worker _ rfl
      cases hstep with
      | goto hl' hst' =>
          obtain rfl := Option.some.inj (hl.symm.trans hl')
          cases hst'
      | ret hl' hst' =>
          obtain rfl := Option.some.inj (hl.symm.trans hl')
          cases hst'
          refine ⟨_, .ended t Stage.reclaim (.inl rfl), h.view, ?_, ?_, h.log, ?_, ?_⟩
          · refine h.calm_others (o := none) ?_ (fun _ => rfl) ?_ ?_ ?_
            · rfl
            · rfl
            · intro _ ht
              exact absurd ht other
            · rfl
          · rintro l ⟨⟩
          · rw [State.ret_log, Reclaim.successes, h.successes]
          · intro v k r' hr
            rcases List.mem_cons.mp hr with heq | hr
            · cases heq
              exact .inl ⟨r, rfl⟩
            · apply h.returns v k r' hr
  | leaving =>
      have hl := h.worker _ rfl
      cases hstep with
      | goto hl' hst' =>
          obtain rfl := Option.some.inj (hl.symm.trans hl')
          cases hst'
          refine ⟨_, .ended u Stage.dealloc (.inr rfl), h.view, ?_, ?_, h.log, h.successes, ?_⟩
          · refine h.calm_others (o := some .exitHalt) ?_ (fun _ => rfl) ?_ ?_ ?_
            · rfl
            · rfl
            · intro _
              exact ⟨rfl, rfl⟩
            · rfl
          · rintro l ⟨⟩
          · intro v k r hr
            apply h.returns v k r
            simpa using hr
      | ret hl' hst' =>
          obtain rfl := Option.some.inj (hl.symm.trans hl')
          cases hst'

omit [DecidableEq T] in
/-- In which phases the thread has not left, is joinable, or has exited. -/
theorem Phase.running_of_left (hx : Phase u p x) (hleft : x.left = false) :
  ∃ (t : T) (detached : Bool), x = ⟨false, if detached then .detached else .joinable, [], t, none,
    if detached then 1 else 0⟩
  := by
  cases hx with
  | running t detached => exact ⟨t, detached, rfl⟩
  | _ => cases hleft

omit [DecidableEq T] in
theorem Phase.running_of_joinable (hx : Phase u p x) (hstate : x.state = .joinable) :
  ∃ t, x = ⟨false, .joinable, [], t, none, 0⟩
  := by
  cases hx with
  | running t detached =>
      cases detached with
      | false => exact ⟨t, rfl⟩
      | true => cases hstate
  | _ => cases hstate

omit [DecidableEq T] in
/-- A thread that has exited is not being reclaimed if no thread is at a stage. -/
theorem Phase.exited_of_alone (hx : Phase u p x) (h : Holds u p thread x s)
    (hstate : x.state = .exited) (halone : ∀ v, work s v = []) :
  ∃ t, x = ⟨true, .exited, [], t, none, 0⟩
  := by
  cases hx with
  | exited t => exact ⟨t, rfl⟩
  | running t detached => cases detached <;> cases hstate
  | reclaiming t other executed rest r split more =>
      have hl := h.worker _ rfl
      have hwork := halone t
      rw [work, hl] at hwork
      exact absurd hwork more
  | _ => cases hstate

/-- A thread that does not reclaim goes on in its call. -/
theorem Phase.calm_goto {c : Bool} {l l' : Loc} {L : Task} (hx : Phase u p x)
    (h : Holds u p thread x s) (ht : x.worker ≠ none → t ≠ x.actor)
    (hG : Alone s (.act t c)) (hl : s.loc t = some l)
    (hst : step u p thread t l s.shared = .goto L l') :
  ∃ x', Phase u p x' ∧ Holds u p thread x' (s.goto t l L l')
  := by
  have hcalm := h.calm t ht
  rw [hl] at hcalm
  have hwork := work_of_calm hcalm
  have hlog : reclaims (.goto t l l' :: s.log) = reclaims s.log := by
    rw [reclaims, hwork]
    rfl
  have hret : ∀ v k r, Event.ret v k r ∈ (s.goto t l L l').log →
      (∃ status, r = .success status) ∨ r = .error .ESRCH ∨ r = .error .EINVAL := by
    intro v k r hr
    apply h.returns v k r
    simpa using hr
  have hc : CalmStep u p thread x.left x.state x.executed t l s.shared (.goto L l') := by
    rw [← hst]
    apply calmStep h.view hcalm
  cases hc with
  | goto _ _ view calm =>
      refine ⟨x, hx, h.calm_move (o := some l') ht ?_ view calm hlog ?_ hret⟩
      · rfl
      · rfl
  | reclaim r locks exited other =>
      obtain ⟨t', rfl⟩ := hx.exited_of_alone h exited
        (hG l hl p locks (by rw [h.view.state, exited]))
      have hne : t ≠ u := by
        intro htu
        cases other htu
      refine ⟨_, .reclaiming t hne [] Stage.reclaim r rfl (by decide), h.view, ?_, ?_, ?_,
        h.successes, hret⟩
      · refine h.calm_others (t := t)
          (o := some (.reclaim p Stage.reclaim (.success r))) ?_ ?_ ?_
          ?_ ?_
        · rfl
        · intro hnone
          exact absurd rfl hnone
        · rfl
        · rintro ⟨⟩
        · rfl
      · rintro k ⟨⟩
        exact Function.update_self ..
      · rw [State.goto_log, hlog, h.log]
        rfl
  | exit status _ self stays section_eq =>
      obtain ⟨t', detached, rfl⟩ := hx.running_of_left stays
      subst self
      rcases exitSection_running status h.view with ⟨rfl, L', hL', view⟩ | ⟨rfl, hL'⟩
      · obtain ⟨rfl, rfl⟩ := Outcome.goto.inj (section_eq.symm.trans hL')
        refine ⟨_, .exited t, view, ?_, ?_, ?_, h.successes, hret⟩
        · intro v _
          rcases eq_or_ne v t with rfl | hv
          · rw [State.goto_loc, Function.update_self]
            exact ⟨rfl, rfl⟩
          · rw [State.goto_loc, Function.update_of_ne hv]
            apply (h.calm v (fun hnone => absurd rfl hnone)).leave hv
        · rintro k ⟨⟩
        · rw [State.goto_log, hlog, h.log]
          rfl
      · obtain ⟨rfl, rfl⟩ := Outcome.goto.inj (section_eq.symm.trans hL')
        refine ⟨_, .deallocating [] Stage.dealloc rfl (by decide), h.view, ?_, ?_, ?_,
          h.successes, hret⟩
        · intro v hv
          have hvt : v ≠ t := hv (by simp)
          rw [State.goto_loc, Function.update_of_ne hvt]
          apply (h.calm v (fun hnone => absurd rfl hnone)).leave hvt
        · rintro k ⟨⟩
          exact Function.update_self ..
        · rw [State.goto_log, hlog, h.log]
          rfl

/-- A call of a thread that does not reclaim returns. -/
theorem Phase.calm_ret {l : Loc} {L : Task} {r : Ret} (hx : Phase u p x)
    (h : Holds u p thread x s) (ht : x.worker ≠ none → t ≠ x.actor) (hl : s.loc t = some l)
    (hst : step u p thread t l s.shared = .ret L r) :
  ∃ x', Phase u p x' ∧ Holds u p thread x' (s.ret t l L r)
  := by
  have hcalm := h.calm t ht
  rw [hl] at hcalm
  have hc : CalmStep u p thread x.left x.state x.executed t l s.shared (.ret L r) := by
    rw [← hst]
    apply calmStep h.view hcalm
  have hret : (∃ status, r = .success status) ∨ r = .error .ESRCH ∨ r = .error .EINVAL →
      ∀ v k r', Event.ret v k r' ∈ (s.ret t l L r).log →
      (∃ status, r' = .success status) ∨ r' = .error .ESRCH ∨ r' = .error .EINVAL := by
    intro hr v k r' hr'
    rcases List.mem_cons.mp hr' with heq | hr'
    · cases heq
      apply hr
    · apply h.returns v k r' hr'
  cases hc with
  | error e code calm =>
      refine ⟨x, hx, h.calm_move (o := none) ht ?_ h.view calm ?_ ?_ (hret ?_)⟩
      · rfl
      · rfl
      · rfl
      · rcases code with rfl | rfl
        · exact .inr (.inl rfl)
        · exact .inr (.inr rfl)
  | detach joinable view calm =>
      obtain ⟨t', rfl⟩ := hx.running_of_joinable joinable
      refine ⟨_, .running t' true, view, ?_, ?_, h.log, ?_, hret (.inl ⟨none, rfl⟩)⟩
      · intro v _
        rcases eq_or_ne v t with rfl | hv
        · rw [State.ret_loc, Function.update_self]
          apply calm
        · rw [State.ret_loc, Function.update_of_ne hv]
          apply h.calm v (fun hnone => absurd rfl hnone)
      · rintro k ⟨⟩
      · rw [State.ret_log, Reclaim.successes, h.successes]
        rfl
  | exit status _ self stays section_eq =>
      obtain ⟨t', detached, rfl⟩ := hx.running_of_left stays
      rcases exitSection_running status h.view with ⟨rfl, L', hL', view⟩ | ⟨rfl, hL'⟩
      · cases section_eq.symm.trans hL'
      · cases section_eq.symm.trans hL'

/-- A step of a thread that does not reclaim. -/
theorem Phase.step_calm {s' : Sys T} {c : Bool} (hx : Phase u p x)
    (h : Holds u p thread x s) (ht : x.worker ≠ none → t ≠ x.actor)
    (hG : Alone s (.act t c)) (hstep : (machine u p thread).Step s (.act t c) s') :
  ∃ x', Phase u p x' ∧ Holds u p thread x' s'
  := by
  cases hstep with
  | goto hl hst => apply hx.calm_goto h ht hG hl hst
  | ret hl hst => apply hx.calm_ret h ht hl hst

/-- Every step leads from a phase to a phase. -/
theorem Phase.step {s' : Sys T} {a : Label T Loc} (hx : Phase u p x)
    (h : Holds u p thread x s) (hG : Alone s a) (hstep : (machine u p thread).Step s a s') :
  ∃ x', Phase u p x' ∧ Holds u p thread x' s'
  := by
  cases a with
  | act t c =>
      by_cases ht : x.worker ≠ none → t ≠ x.actor
      · apply hx.step_calm h ht hG hstep
      · obtain ⟨hw, rfl⟩ : x.worker ≠ none ∧ t = x.actor := by
          simpa [Classical.not_imp] using ht
        apply hx.step_worker h hw hstep
  | call t l =>
      cases hstep with
      | call hidle hentry =>
          have ht : x.worker ≠ none → t ≠ x.actor := by
            rintro hw rfl
            obtain ⟨k, hk⟩ := Option.ne_none_iff_exists'.mp hw
            rw [h.worker k hk] at hidle
            cases hidle
          have hcalm := h.calm t ht
          rw [hidle] at hcalm
          refine ⟨x, hx, h.calm_move (o := some l) ht ?_ h.view ?_ ?_ ?_ ?_⟩
          · rfl
          · cases l with
            | join => exact hcalm
            | detach => exact hcalm
            | exit status => exact hcalm
            | _ => cases hentry
          · rfl
          · rfl
          · intro v k r hr
            apply h.returns v k r
            simpa using hr

/-- No assertion fails in any phase. -/
theorem Phase.safe (hx : Phase u p x) (h : Holds u p thread x s) :
  ¬ (machine u p thread).Faults s
  := by
  rintro ⟨t, l, c, hl, hst⟩
  replace hst : Reclaim.step u p thread t l s.shared = .fault := hst
  by_cases ht : x.worker ≠ none → t ≠ x.actor
  · have hcalm := h.calm t ht
    rw [hl] at hcalm
    have hc := calmStep h.view hcalm
    rw [hst] at hc
    cases hc with
    | exit status _ self stays section_eq =>
        obtain ⟨t', detached, rfl⟩ := hx.running_of_left stays
        rcases exitSection_running status h.view with ⟨rfl, L', hL', view⟩ | ⟨rfl, hL'⟩
        · cases section_eq.symm.trans hL'
        · cases section_eq.symm.trans hL'
  · obtain ⟨hw, rfl⟩ : x.worker ≠ none ∧ t = x.actor := by
      simpa [Classical.not_imp] using ht
    cases hx with
    | running t detached => exact absurd rfl hw
    | exited t => exact absurd rfl hw
    | ended t stages full => exact absurd rfl hw
    | reclaiming t other executed rest r split more =>
        obtain rfl := Option.some.inj (hl.symm.trans (h.worker _ rfl))
        cases rest with
        | nil => exact absurd rfl more
        | cons st rest =>
            obtain ⟨L, hL, -⟩ := h.run (.inl rfl) split (by simp)
            simp only [Reclaim.step, hL] at hst
            cases hst
    | deallocating executed rest split more =>
        obtain rfl := Option.some.inj (hl.symm.trans (h.worker _ rfl))
        cases rest with
        | nil => exact absurd rfl more
        | cons st rest =>
            obtain ⟨L, hL, -⟩ := h.run (.inr rfl) split (by simp)
            simp only [Reclaim.step, hL] at hst
            cases hst
    | returning t other r =>
        obtain rfl := Option.some.inj (hl.symm.trans (h.worker _ rfl))
        cases hst
    | leaving =>
        obtain rfl := Option.some.inj (hl.symm.trans (h.worker _ rfl))
        cases hst

end Steps

/-! ### At most one reclaim -/

section Once

variable {u : T} {p thread : Nat} {s : Sys T} {x : Situation T}

omit [DecidableEq T] in
/-- In every phase a part of one list of stages was executed, by one thread. -/
theorem Phase.executed_prefix (hx : Phase u p x) :
  x.executed <+: Stage.reclaim ∨ x.executed <+: Stage.dealloc
  := by
  cases hx with
  | running t detached => exact .inl List.nil_prefix
  | exited t => exact .inl List.nil_prefix
  | reclaiming t other executed rest r split more => exact .inl ⟨rest, split⟩
  | deallocating executed rest split more => exact .inr ⟨rest, split⟩
  | returning t other r => exact .inl List.prefix_rfl
  | leaving => exact .inr List.prefix_rfl
  | ended t stages full =>
      rcases full with rfl | rfl
      · exact .inl List.prefix_rfl
      · exact .inr List.prefix_rfl

theorem Phase.reclaimedOnce (hx : Phase u p x) (h : Holds u p thread x s) :
  ReclaimedOnce u p thread s
  := by
  have hnodup : x.executed.Nodup := by
    rcases hx.executed_prefix with hpre | hpre
    · apply hpre.sublist.nodup
      decide
    · apply hpre.sublist.nodup
      decide
  have hsucc : x.successes ≤ 1 := by
    cases hx with
    | running t detached => cases detached <;> simp
    | _ => simp
  constructor
  · rw [h.log]
    simpa [Function.comp_def] using List.nodup_reverse.mpr hnodup
  · intro a ha b hb
    rw [h.log] at ha hb
    simp only [List.mem_map, List.mem_reverse] at ha hb
    obtain ⟨_, -, rfl⟩ := ha
    obtain ⟨_, -, rfl⟩ := hb
    rfl
  · rw [h.view.free]
    split <;> simp
  · rw [h.successes]
    apply hsucc
  · apply h.returns
  · apply hx.safe h

/-- In every run in which no call finds the thread exited while another one reclaims it, the
thread is reclaimed at most once. -/
theorem thread_reclaimed_once {L : Task} (hL : Running L p thread)
    (h : (machine u p thread).Reach Alone (State.idle L) s) :
  ReclaimedOnce u p thread s
  := by
  have hphase : ∃ x, Phase u p x ∧ Holds u p thread x s := by
    apply h.invariant (I := fun s => ∃ x, Phase u p x ∧ Holds u p thread x s)
    · refine ⟨_, .running u false, ?_, ?_, ?_, rfl, rfl, ?_⟩
      · refine ⟨.inl hL.published, hL.thread, hL.state, .inl hL.stack, ?_⟩
        simpa [List.count_eq_zero] using hL.unlinked
      · intro v _ hv
        rfl
      · rintro l ⟨⟩
      · rintro t l r ⟨⟩
    · rintro s a s' - ⟨x, hx, hh⟩ hG hstep
      apply hx.step hh hG hstep
  obtain ⟨x, hx, hh⟩ := hphase
  apply hx.reclaimedOnce hh

/-- A task with one thread that runs on the structure `0`, besides the first one. -/
def oneThread : Task :=
  { Task.boot 16384 4096 4096 fun _ =>
      { zeroed with
        thread := 1
        stackaddr := .allocated 0
        stacksize := 16384
        guardsize := 4096
        stack := true
        kernelThread := 1
        haveKernelResources := true } with
    table := ⟨[.entry 0], 1, 1⟩
    heap := 1
    total := 2
    kernel :=
      { pageSize := 4096
        threads := Ledger.start 2
        ports := Ledger.start 1
        vmStacks := Ledger.start 1
        userDeallocs := []
        inaccessible := fun _ page => page = 0
        tls := Ledger.start 1 } }

theorem running_oneThread :
  Running oneThread 0 1
  := by
  constructor <;> decide

/-- Thread `1` waits in `pthread_join` until thread `0` has exited, and reclaims it; then
thread `2` calls `pthread_detach`. -/
def joinRun {T : Type} (t u v : T) : List (Label T Loc) :=
  [.call u .join, .act u false, .act u false, .call v .detach, .act v false,
    .call t (.exit (.value 7)), .act t false, .act t false, .act u false, .act u false] ++
  (List.replicate 11 (.act u false) ++ [.act v false])

theorem thread_reclaimed_once_joinRun :
  ∃ s : Sys (Fin 3), (machine 0 0 1).Reach Alone (State.idle oneThread) s ∧
    reclaims s.log = Stage.reclaim.reverse.map (fun st => (1, st)) ∧ successes s.log = 1 ∧
    s.loc 2 = none ∧ ReclaimedOnce 0 0 1 s
  := by
  obtain ⟨s, hs, hp⟩ := Machine.exists_reach_of_run (M := machine (0 : Fin 3) 0 1) (G := Alone)
    (s := State.idle oneThread) (joinRun (0 : Fin 3) 1 2)
    (fun s => reclaims s.log = Stage.reclaim.reverse.map (fun st => (1, st)) ∧
      successes s.log = 1 ∧ s.loc 2 = none) (by decide +kernel)
  simp only [decide_eq_true_eq] at hp
  use s, hs, hp.1, hp.2.1, hp.2.2
  apply thread_reclaimed_once running_oneThread hs

/-- Threads `1` and `2` call `pthread_join`, and both find that thread `0` has exited before
either of them reclaims it. -/
def twoJoinsRun {T : Type} (t u v : T) : List (Label T Loc) :=
  [.call u .join, .act u false, .call v .join, .act v false, .call t (.exit (.value 7)),
    .act t false, .act t false, .act u false, .act v false, .act u false, .act v false,
    .act u false, .act v false, .act u false, .act v false]

/-- Two calls of `pthread_join` deallocate the same stack. -/
theorem stack_deallocated_twice :
  ∃ s : Sys (Fin 3), (machine 0 0 1).Reach (fun _ _ => True) (State.idle oneThread) s ∧
    Running oneThread 0 1 ∧ s.shared.kernel.vmStacks.released = [0, 0] ∧
    ¬ ReclaimedOnce 0 0 1 s
  := by
  obtain ⟨s, hs, hp⟩ := Machine.exists_reach_of_run (M := machine (0 : Fin 3) 0 1)
    (G := fun _ _ => True) (s := State.idle oneThread) (twoJoinsRun (0 : Fin 3) 1 2)
    (fun s => s.shared.kernel.vmStacks.released = [0, 0] ∧
      ¬ ((reclaims s.log).map Prod.snd).Nodup) (by decide +kernel)
  simp only [decide_eq_true_eq] at hp
  use s, hs, running_oneThread, hp.1
  intro honce
  apply hp.2 honce.once

end Once

end LibPthread.Thread.Reclaim
