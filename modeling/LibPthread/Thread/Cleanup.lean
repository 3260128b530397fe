import LibPthread.Thread.Exit

/-!
# Cleanup handlers

The list `cancelation_handlers` holds the handlers of the open regions, through all the functions
of the program that have not returned. `pthread_cleanup_pop` and the loop of `pthread_exit` both
take a handler off the list only after it has returned: a handler that leaves through
`pthread_exit` is called a second time.
-/

open Concurrency

namespace LibPthread.Thread.Exit

/-! ### The list of the handlers -/

/-- The regions, closed one after the other, lead from the list `hs` to `base`. -/
def Open : List Region → List Handler → List Handler → Prop
  | [], hs, base => hs = base
  | r :: regions, hs, base => hs = r.handler :: r.next ∧ Open regions r.next base

/-- The list `hs` holds the handlers of the functions that run, and below them those of `base`,
which the loop of `pthread_exit` has yet to take off the list. -/
def Linked : List Activation → List Handler → List Handler → Prop
  | [], _, _ => False
  | f :: rest, hs, base =>
    match f.back with
    | .start => rest = [] ∧ base = [] ∧ Open f.regions hs base
    | .pop r => Open f.regions hs (r.handler :: r.next) ∧ Linked rest r.next base
    | .handlers h _ _ =>
      rest = [] ∧ h.routine = .program ∧ (∃ below, base = h :: below) ∧ Open f.regions hs base
    | .destructor _ _ => rest = [] ∧ base = [] ∧ Open f.regions hs base

/-- The part of the code a thread is in. -/
def placeOf {D V : Type} (o : Option (Loc D V)) : Place :=
  o.elim .program Loc.place

/-- The list of the handlers at a part of the code. -/
def Nested (base : List Handler) (code : Code) : Place → Prop
  | .program => Linked code.running code.handlers base
  | .outside => Linked code.running code.handlers base
  | .joined q => Linked code.running code.handlers base ∧
    ∃ r regions back rest, code.running = ⟨r :: regions, back⟩ :: rest ∧
      r.handler.routine = .unlock q
  | .unlink _ r => code.handlers = r.handler :: r.next ∧ Linked code.running r.next base
  | .loop => code.running = [] ∧ code.handlers = base
  | .unlock h q => code.running = [] ∧ code.handlers = base ∧ h.routine = .unlock q ∧
    ∃ below, base = h :: below
  | .next h => code.running = [] ∧ code.handlers = base ∧ ∃ below, base = h :: below
  | .after => code.running = [] ∧ code.handlers = base ∧ base = []

section Linked

variable {r : Region} {regions : List Region} {back : Back} {f : Activation}
  {rest : List Activation} {hs base : List Handler}

theorem Linked.push {h : Handler} (hlinked : Linked (f :: rest) hs base) :
  Linked ({ f with regions := ⟨h, hs⟩ :: f.regions } :: rest) (h :: hs) base
  := by
  obtain ⟨regions, back⟩ := f
  cases back with
  | start =>
      obtain ⟨hrest, hbase, hopen⟩ := hlinked
      exact ⟨hrest, hbase, rfl, hopen⟩
  | pop r =>
      obtain ⟨hopen, hbelow⟩ := hlinked
      exact ⟨⟨rfl, hopen⟩, hbelow⟩
  | handlers h oldstate call =>
      obtain ⟨hrest, hroutine, hbase, hopen⟩ := hlinked
      exact ⟨hrest, hroutine, hbase, rfl, hopen⟩
  | destructor i call =>
      obtain ⟨hrest, hbase, hopen⟩ := hlinked
      exact ⟨hrest, hbase, rfl, hopen⟩

/-- The innermost region is the head of the list. -/
theorem Linked.pop (hlinked : Linked (⟨r :: regions, back⟩ :: rest) hs base) :
  hs = r.handler :: r.next ∧ Linked (⟨regions, back⟩ :: rest) r.next base
  := by
  cases back with
  | start =>
      obtain ⟨hrest, hbase, hhead, hopen⟩ := hlinked
      exact ⟨hhead, hrest, hbase, hopen⟩
  | pop r =>
      obtain ⟨⟨hhead, hopen⟩, hbelow⟩ := hlinked
      exact ⟨hhead, hopen, hbelow⟩
  | handlers h oldstate call =>
      obtain ⟨hrest, hroutine, hbase, hhead, hopen⟩ := hlinked
      exact ⟨hhead, hrest, hroutine, hbase, hopen⟩
  | destructor i call =>
      obtain ⟨hrest, hbase, hhead, hopen⟩ := hlinked
      exact ⟨hhead, hrest, hbase, hopen⟩

/-- The handlers of the functions that run are on the list. -/
theorem Open.mem {h : Handler} (hopen : Open regions hs base) (hh : h ∈ base) :
  h ∈ hs
  := by
  induction regions generalizing hs with
  | nil =>
      subst hopen
      exact hh
  | cons r regions ih =>
      obtain ⟨rfl, hopen⟩ := hopen
      exact List.mem_cons_of_mem _ (ih hopen)

end Linked

/-! ### What a run does to the handlers -/

/-- What an event means for the handlers: one is pushed, the latest one is taken off the list, one
is called, by the loop of `pthread_exit` or by `pthread_cleanup_pop`, or `pthread_exit` is
entered. -/
inductive Note where
  | pushed
  | popped
  | called (serial : Nat) (byExit : Bool)
  | entered
  | other
  deriving DecidableEq, Repr

/-- The meaning of an event. -/
def note {T D V : Type} : Event T (Loc D V) Ret → Note
  | .ret _ _ (.pushed _) => .pushed
  | .goto _ (.joinPush _) (.joinTest _) => .pushed
  | .ret _ (.unlink _ _) _ => .popped
  | .goto _ (.joinPop _) (.joinUnlock _) => .popped
  | .goto _ (.exitNext _ _ _) (.exitLoop _ _) => .popped
  | .ret _ (.exitLoop _ _) (.handler n) => .called n true
  | .goto _ (.exitLoop _ _) (.exitUnlock h _ _ _) => .called h.serial true
  | .ret _ _ (.handler n) => .called n false
  | .goto _ _ (.lock (.exitDisable _)) => .entered
  | _ => .other

/-- The meaning of a run, the latest event first. -/
abbrev History := List Note

namespace History

/-- How many handlers were pushed. -/
def pushes : History → Nat
  | .pushed :: H => pushes H + 1
  | _ :: H => pushes H
  | [] => 0

/-- The handlers that were pushed and not taken off the list, the latest first. A handler is known
by the number of those pushed before it. -/
def pending : History → List Nat
  | .pushed :: H => pushes H :: pending H
  | .popped :: H => (pending H).tail
  | _ :: H => pending H
  | [] => []

/-- The handlers that were called, the latest first. -/
def called : History → List Nat
  | .called n _ :: H => n :: called H
  | _ :: H => called H
  | [] => []

/-- The handlers that were pushed and not popped when `pthread_exit` was entered last. -/
def atExit : History → List Nat
  | .entered :: H => pending H
  | _ :: H => atExit H
  | [] => []

/-- The handlers that the loop of `pthread_exit` has called since, in this order. -/
def calledByExit : History → List Nat
  | .entered :: _ => []
  | .called n true :: H => calledByExit H ++ [n]
  | _ :: H => calledByExit H
  | [] => []

end History

/-- The history of a state. -/
def history {T D V : Type} (s : Sys T D V) : History :=
  s.log.map note

/-! ### Handlers that are active -/

/-- The handler that has returned, or is `__pthread_mutex_unlock`, and is on the list still. -/
def Place.active : Place → Option Handler
  | .unlink true r => some r.handler
  | .unlock h _ => some h
  | .next h => some h
  | _ => none

/-- The handler that is the function of the program. -/
def Back.active : Back → Option Handler
  | .pop r => some r.handler
  | .handlers h _ _ => some h
  | _ => none

/-- The handlers that were called and have not been taken off the list. -/
def active (pl : Place) (code : Code) : List Handler :=
  pl.active.toList ++ code.running.filterMap fun f => f.back.active

/-- The step enters `pthread_exit`. -/
def Entering {T D V : Type} (u : T) (p : Nat) (s : Sys T D V) : Prop :=
  s.shared.redirected = true ∨ ∃ l ∈ s.loc u, enters p s.shared l = true

/-- The thread does not enter `pthread_exit` while a handler that `pthread_cleanup_pop` or
`pthread_exit` has called is on the list. -/
def LeavesOutside {T D V : Type} (u : T) (p : Nat) (s : Sys T D V) : Label T (Loc D V) → Prop
  | .call _ _ => True
  | .act t _ => t = u → Entering u p s → active (placeOf (s.loc u)) s.shared.code = []

instance {T D V : Type} [DecidableEq T] (u : T) (p : Nat) (s : Sys T D V) :
    (a : Label T (Loc D V)) → Decidable (LeavesOutside u p s a)
  | .call _ _ => .isTrue trivial
  | .act _ _ =>
    inferInstanceAs (Decidable (_ → (_ ∨ ∃ l ∈ s.loc u, enters p s.shared l = true) → _ = []))

/-- Handlers are called at most once, and when the loop of `pthread_exit` has ended, it has called
the handlers that were pushed and not popped, in reverse order, and the list is empty. -/
structure CalledOnce {T D V : Type} (u : T) (s : Sys T D V) : Prop where
  once : (history s).called.Nodup
  order : (history s).atExit.Pairwise (· > ·)
  exit : ∀ call, s.loc u = some (.destroySpecific call) →
    (history s).calledByExit = (history s).atExit ∧ s.shared.code.handlers = []

/-! ### The steps -/

section Steps

variable {D V : Type} {p : Nat} {l l' : Loc D V} {s s' : Shared D V} {r : Ret}
  {base : List Handler} {H : History}

/-- The history and the list of the handlers at a part of the code: `base` is what the loop of
`pthread_exit` has yet to take off the list. -/
structure Tracks (base : List Handler) (code : Code) (pl : Place) (H : History) : Prop where
  nested : Nested base code pl
  pushed : H.pushes = code.pushed
  pending : H.pending = code.handlers.map Handler.serial
  sorted : (code.handlers.map Handler.serial).Pairwise (· > ·)
  bound : ∀ n ∈ code.handlers.map Handler.serial, n < code.pushed
  order : H.atExit.Pairwise (· > ·)
  exit : H.atExit =
    H.calledByExit ++ (if pl = .loop then base else base.tail).map Handler.serial
  calledBound : ∀ n ∈ H.called, n < code.pushed

/-- The handlers that were called and are on the list are active. -/
structure Once (code : Code) (pl : Place) (H : History) : Prop where
  once : H.called.Nodup
  calledActive : ∀ h ∈ code.handlers, h.serial ∈ H.called → h ∈ active pl code

/-- An event that does not concern the list of the handlers. -/
def Note.Idle (code : Code) : Note → Prop
  | .other => True
  | .called n byExit => n < code.pushed ∧ byExit = false
  | _ => False

namespace Tracks

variable {code code' : Code} {pl pl' : Place}

/-- A step that leaves the list as it is. -/
theorem keep {e : Note} (h : Tracks base code pl H) (he : e.Idle code)
    (hnested : Nested base code' pl') (hhandlers : code'.handlers = code.handlers)
    (hpushed : code'.pushed = code.pushed)
    (hloop : (if pl' = .loop then base else base.tail) = if pl = .loop then base else base.tail) :
  Tracks base code' pl' (e :: H)
  := by
  cases e with
  | other =>
      refine ⟨hnested, ?_, ?_, ?_, ?_, h.order, ?_, ?_⟩
      · exact h.pushed.trans hpushed.symm
      · exact h.pending.trans (by rw [hhandlers])
      · rw [hhandlers]
        exact h.sorted
      · rw [hhandlers, hpushed]
        exact h.bound
      · rw [hloop]
        exact h.exit
      · rw [hpushed]
        exact h.calledBound
  | called n byExit =>
      obtain ⟨hn, rfl⟩ := he
      refine ⟨hnested, ?_, ?_, ?_, ?_, h.order, ?_, ?_⟩
      · exact h.pushed.trans hpushed.symm
      · exact h.pending.trans (by rw [hhandlers])
      · rw [hhandlers]
        exact h.sorted
      · rw [hhandlers, hpushed]
        exact h.bound
      · rw [hloop]
        exact h.exit
      · rw [hpushed]
        exact List.forall_mem_cons.mpr ⟨hn, h.calledBound⟩
  | pushed => exact he.elim
  | popped => exact he.elim
  | entered => exact he.elim

theorem push {routine : Routine} (h : Tracks base code pl H) (hpl : pl ≠ .loop) (hpl' : pl' ≠ .loop)
    (hnested : Nested base code' pl')
    (hhandlers : code'.handlers = ⟨code.pushed, routine⟩ :: code.handlers)
    (hpushed : code'.pushed = code.pushed + 1) :
  Tracks base code' pl' (.pushed :: H)
  := by
  refine ⟨hnested, ?_, ?_, ?_, ?_, h.order, ?_, ?_⟩
  · rw [hpushed, ← h.pushed]
    rfl
  · rw [hhandlers, List.map_cons, ← h.pending, ← h.pushed]
    rfl
  · rw [hhandlers, List.map_cons, List.pairwise_cons]
    exact ⟨h.bound, h.sorted⟩
  · rw [hhandlers, hpushed, List.map_cons, List.forall_mem_cons]
    exact ⟨Nat.lt_succ_self _, fun n hn => Nat.lt_succ_of_lt (h.bound n hn)⟩
  · have hexit := h.exit
    rw [if_neg hpl] at hexit
    rw [if_neg hpl']
    exact hexit
  · rw [hpushed]
    exact fun n hn => Nat.lt_succ_of_lt (h.calledBound n hn)

/-- The head is taken off the list. -/
theorem take {x : Handler} {base' : List Handler} (h : Tracks base code pl H)
    (hnested : Nested base' code' pl') (hhead : code.handlers = x :: code'.handlers)
    (hpushed : code'.pushed = code.pushed)
    (hloop : (if pl' = .loop then base' else base'.tail) =
      if pl = .loop then base else base.tail) :
  Tracks base' code' pl' (.popped :: H)
  := by
  have hsorted := h.sorted
  have hbound := h.bound
  have hpending := h.pending
  rw [hhead, List.map_cons] at hsorted hbound hpending
  refine ⟨hnested, ?_, ?_, ?_, ?_, h.order, ?_, ?_⟩
  · exact h.pushed.trans hpushed.symm
  · rw [History.pending, hpending, List.tail_cons]
  · exact (List.pairwise_cons.mp hsorted).2
  · rw [hpushed]
    exact (List.forall_mem_cons.mp hbound).2
  · rw [hloop]
    exact h.exit
  · rw [hpushed]
    exact h.calledBound

/-- The loop of `pthread_exit` calls the head of the list. -/
theorem callHead {x : Handler} {below : List Handler} (h : Tracks (x :: below) code .loop H)
    (hpl' : pl' ≠ .loop) (hnested : Nested (x :: below) code' pl')
    (hhandlers : code'.handlers = code.handlers) (hpushed : code'.pushed = code.pushed) :
  Tracks (x :: below) code' pl' (.called x.serial true :: H)
  := by
  have hexit := h.exit
  rw [if_pos rfl, List.map_cons] at hexit
  refine ⟨hnested, ?_, ?_, ?_, ?_, h.order, ?_, ?_⟩
  · exact h.pushed.trans hpushed.symm
  · exact h.pending.trans (by rw [hhandlers])
  · rw [hhandlers]
    exact h.sorted
  · rw [hhandlers, hpushed]
    exact h.bound
  · rw [if_neg hpl', List.tail_cons, History.calledByExit, List.append_assoc]
    exact hexit
  · rw [hpushed]
    refine List.forall_mem_cons.mpr ⟨?_, h.calledBound⟩
    apply h.bound
    rw [h.nested.2]
    exact List.mem_cons_self

/-- `pthread_exit` is entered. -/
theorem enter (h : Tracks base code pl H) :
  Tracks code.handlers { code with running := [] } .loop (.entered :: H)
  := by
  refine ⟨⟨rfl, rfl⟩, h.pushed, h.pending, h.sorted, h.bound, ?_, ?_, h.calledBound⟩
  · rw [History.atExit, h.pending]
    exact h.sorted
  · rw [if_pos rfl, History.atExit, History.calledByExit, h.pending, List.nil_append]

end Tracks

section Events

variable {T : Type} {u : T}

/-- A step that stays in a part of the code. -/
theorem note_stay (hplace : l'.place = l.place) (hinside : ∀ call, l' ≠ .lock (.exitDisable call)) :
  note (.goto u l l') = .other
  := by
  rw [note.eq_def]
  split
  all_goals
    rename_i heq
    first
    | rfl
    | cases heq
  · cases hplace
  · cases hplace
  · cases hplace
  · cases hplace
  · exact absurd rfl (hinside _)

theorem note_enter (call : Call) :
  note (.goto u l (.lock (.exitDisable call))) = .entered
  := by
  cases l <;> rfl

theorem note_back (hplace : l.place = .program ∨ l.place = .outside) (hquiet : r.Quiet) :
  note (.ret u l r) = .other
  := by
  rw [note.eq_def]
  split
  all_goals
    rename_i heq
    first
    | rfl
    | cases heq
  · exact hquiet.elim
  · obtain hplace | hplace := hplace
    · cases hplace
    · cases hplace
  · exact hquiet.elim
  · exact hquiet.elim

end Events

/-- The handlers that the loop of `pthread_exit` has yet to take off the list, after a step: all of
them when it is entered, and those below the head when the head is taken off. -/
def nextBase (l l' : Loc D V) (code : Code) (base : List Handler) : List Handler :=
  match l' with
  | .lock (.exitDisable _) => code.handlers
  | .exitLoop _ _ =>
    match l with
    | .exitNext _ _ _ => base.tail
    | _ => base
  | _ => base

theorem nextBase_stay {code : Code} (hplace : l'.place = l.place)
    (hinside : ∀ call, l' ≠ .lock (.exitDisable call)) :
  nextBase l l' code base = base
  := by
  rw [nextBase.eq_def]
  split
  · exact absurd rfl (hinside _)
  · split
    · cases hplace
    · rfl
  · rfl

/-- A step of the thread from one part of the code to another keeps the regions nested. -/
theorem Moves.nested_goto (h : Moves p l s (.goto s' l')) (hn : Nested base s.code l.place) :
  Nested (nextBase l l' s.code base) s'.code l'.place
  := by
  cases h with
  | stay _ hcode hplace _ _ hinside =>
      rw [nextBase_stay hplace hinside, hcode, hplace]
      exact hn
  | exit _ _ _ hcode _ =>
      rw [hcode]
      exact ⟨rfl, rfl⟩
  | join hplace hrunning =>
      subst hplace
      have hlinked : Linked s.code.running s.code.handlers base := hn
      rw [hrunning] at hlinked
      exact ⟨hlinked.push, _, _, _, _, rfl, rfl⟩
  | joinPop hplace hrunning =>
      subst hplace
      have hlinked := hn.1
      rw [hrunning] at hlinked
      exact hlinked.pop.2
  | pop hplace hrunning =>
      subst hplace
      have hlinked : Linked s.code.running s.code.handlers base := hn
      rw [hrunning] at hlinked
      exact hlinked.pop
  | executed hplace hrunning =>
      subst hplace
      have hlinked : Linked s.code.running s.code.handlers base := hn
      rw [hrunning] at hlinked
      exact hlinked
  | handled hplace hrunning =>
      subst hplace
      have hlinked : Linked s.code.running s.code.handlers base := hn
      rw [hrunning] at hlinked
      obtain ⟨hrest, -, hbase, hopen⟩ := hlinked
      exact ⟨hrest, hopen, hbase⟩
  | unlock hplace hhandlers hroutine =>
      subst hplace
      obtain ⟨hrunning, hbase⟩ := hn
      exact ⟨hrunning, hbase, hroutine, _, hbase.symm.trans hhandlers⟩
  | unlocked hplace =>
      subst hplace
      obtain ⟨hrunning, hhandlers, -, hbase⟩ := hn
      exact ⟨hrunning, hhandlers, hbase⟩
  | next hplace hhandlers =>
      subst hplace
      obtain ⟨hrunning, hbase, -⟩ := hn
      rw [hhandlers] at hbase
      subst hbase
      exact ⟨hrunning, rfl⟩
  | ended hplace hhandlers =>
      subst hplace
      obtain ⟨hrunning, hbase⟩ := hn
      exact ⟨hrunning, hbase, hbase.symm.trans hhandlers⟩
  | destroyed hplace hrunning =>
      subst hplace
      have hlinked : Linked s.code.running s.code.handlers base := hn
      rw [hrunning] at hlinked
      obtain ⟨hrest, hbase, hopen⟩ := hlinked
      exact ⟨hrest, hopen, hbase⟩

/-- So does a step that returns to the program. -/
theorem Moves.nested_ret (h : Moves p l s (.ret s' r)) (hn : Nested base s.code l.place) :
  Nested base s'.code .program
  := by
  cases h with
  | back _ hcode hplace _ _ =>
      rw [hcode]
      rw [hplace] at hn
      exact hn
  | push hplace hrunning =>
      subst hplace
      have hlinked : Linked s.code.running s.code.handlers base := hn
      rw [hrunning] at hlinked
      exact hlinked.push
  | execute hplace hrunning =>
      subst hplace
      have hlinked : Linked s.code.running s.code.handlers base := hn
      rw [hrunning] at hlinked
      exact hlinked.pop
  | unlink hplace =>
      subst hplace
      exact hn.2
  | handler hplace hhandlers hroutine =>
      subst hplace
      obtain ⟨-, hbase⟩ := hn
      exact ⟨rfl, hroutine, ⟨_, hbase.symm.trans hhandlers⟩, hbase⟩
  | destructor hplace hcode _ _ =>
      subst hplace
      rw [hcode]
      obtain ⟨-, hbase, hnil⟩ := hn
      exact ⟨rfl, hnil, hbase⟩

/-- The history after a step of the thread from one part of the code to another. -/
theorem Moves.tracks_goto {T : Type} (u : T) (h : Moves p l s (.goto s' l'))
    (ht : Tracks base s.code l.place H) :
  Tracks (nextBase l l' s.code base) s'.code l'.place (note (.goto u l l') :: H)
  := by
  have hnested := h.nested_goto ht.nested
  cases h with
  | stay _ hcode hplace _ _ hinside =>
      rw [nextBase_stay hplace hinside] at hnested ⊢
      rw [note_stay hplace hinside]
      exact ht.keep trivial hnested (by rw [hcode]) (by rw [hcode]) (by rw [hplace])
  | exit _ _ _ hcode _ =>
      rw [note_enter, hcode]
      exact ht.enter
  | join hplace hrunning =>
      subst hplace
      exact ht.push (by simp [Loc.place]) (by simp [Loc.place]) hnested rfl rfl
  | joinPop hplace hrunning =>
      subst hplace
      have hlinked := ht.nested.1
      rw [hrunning] at hlinked
      exact ht.take hnested hlinked.pop.1 rfl rfl
  | pop hplace hrunning =>
      subst hplace
      exact ht.keep trivial hnested rfl rfl rfl
  | executed hplace hrunning =>
      subst hplace
      exact ht.keep trivial hnested rfl rfl rfl
  | handled hplace hrunning =>
      subst hplace
      exact ht.keep trivial hnested rfl rfl rfl
  | unlock hplace hhandlers hroutine =>
      subst hplace
      have hbase := ht.nested.2
      rw [hhandlers] at hbase
      subst hbase
      exact ht.callHead (by simp [Loc.place]) hnested rfl rfl
  | unlocked hplace =>
      subst hplace
      exact ht.keep trivial hnested rfl rfl rfl
  | next hplace hhandlers =>
      subst hplace
      exact ht.take hnested hhandlers rfl rfl
  | ended hplace hhandlers =>
      subst hplace
      have hbase := ht.nested.2
      rw [hhandlers] at hbase
      subst hbase
      exact ht.keep trivial hnested rfl rfl rfl
  | destroyed hplace hrunning =>
      subst hplace
      exact ht.keep trivial hnested rfl rfl rfl

theorem Moves.tracks_ret {T : Type} (u : T) (h : Moves p l s (.ret s' r))
    (ht : Tracks base s.code l.place H) :
  Tracks base s'.code .program (note (.ret u l r) :: H)
  := by
  have hnested := h.nested_ret ht.nested
  cases h with
  | back _ hcode hplace hquiet _ =>
      rw [note_back (.inl hplace) hquiet]
      exact ht.keep trivial hnested (by rw [hcode]) (by rw [hcode]) (by rw [hplace])
  | push hplace hrunning =>
      subst hplace
      exact ht.push (by simp [Loc.place]) (by decide) hnested rfl rfl
  | execute hplace hrunning =>
      subst hplace
      refine ht.keep ⟨ht.bound _ ?_, rfl⟩ hnested rfl rfl rfl
      rw [Shared.withCode_code, Nested, Linked] at hnested
      rw [show s.code.handlers = _ from hnested.1]
      exact List.mem_cons_self
  | unlink hplace =>
      subst hplace
      exact ht.take hnested ht.nested.1 rfl rfl
  | handler hplace hhandlers hroutine =>
      subst hplace
      have hbase := ht.nested.2
      rw [hhandlers] at hbase
      subst hbase
      exact ht.callHead (by decide) hnested rfl rfl
  | destructor hplace hcode _ _ =>
      subst hplace
      exact ht.keep trivial hnested (by rw [hcode]) (by rw [hcode]) rfl

theorem Linked.active_mem {running : List Activation} {hs : List Handler} {h : Handler}
    (hlinked : Linked running hs base) (hh : h ∈ running.filterMap fun f => f.back.active) :
  h ∈ hs
  := by
  induction running generalizing hs with
  | nil => cases hh
  | cons f rest ih =>
      obtain ⟨regions, back⟩ := f
      cases back with
      | start =>
          obtain ⟨rfl, -, -⟩ := hlinked
          simp [Back.active] at hh
      | pop r =>
          obtain ⟨hopen, hbelow⟩ := hlinked
          apply hopen.mem
          simp only [List.filterMap_cons, Back.active, List.mem_cons] at hh
          obtain rfl | hh := hh
          · exact List.mem_cons_self
          · exact List.mem_cons_of_mem _ (ih hbelow hh)
      | handlers x oldstate call =>
          obtain ⟨rfl, -, ⟨below, rfl⟩, hopen⟩ := hlinked
          apply hopen.mem
          simp only [List.filterMap_cons, Back.active, List.filterMap_nil,
            List.mem_singleton] at hh
          subst hh
          exact List.mem_cons_self
      | destructor i call =>
          obtain ⟨rfl, -, -⟩ := hlinked
          simp [Back.active] at hh

namespace Once

variable {code code' : Code} {pl pl' : Place}

/-- A step that leaves the list as it is. -/
theorem keep (h : Once code pl H) (hhandlers : code'.handlers = code.handlers)
    (hactive : ∀ x ∈ active pl code, x ∈ active pl' code') :
  Once code' pl' (.other :: H)
  := by
  refine ⟨h.once, ?_⟩
  rw [hhandlers]
  exact fun x hx hcalled => hactive x (h.calledActive x hx hcalled)

theorem push {routine : Routine} (h : Once code pl H) (ht : Tracks base code pl H)
    (hhandlers : code'.handlers = ⟨code.pushed, routine⟩ :: code.handlers)
    (hactive : ∀ x ∈ active pl code, x ∈ active pl' code') :
  Once code' pl' (.pushed :: H)
  := by
  refine ⟨h.once, ?_⟩
  rw [hhandlers, List.forall_mem_cons]
  constructor
  · intro hcalled
    exact absurd (ht.calledBound _ hcalled) (lt_irrefl _)
  · exact fun x hx hcalled => hactive x (h.calledActive x hx hcalled)

/-- The head is taken off the list. -/
theorem take {x : Handler} (h : Once code pl H) (ht : Tracks base code pl H)
    (hhead : code.handlers = x :: code'.handlers)
    (hactive : ∀ y ∈ active pl code, y ≠ x → y ∈ active pl' code') :
  Once code' pl' (.popped :: H)
  := by
  refine ⟨h.once, fun y hy hcalled => ?_⟩
  apply hactive y
  · apply h.calledActive y _ hcalled
    rw [hhead]
    exact List.mem_cons_of_mem _ hy
  · rintro rfl
    have hsorted := ht.sorted
    rw [hhead, List.map_cons, List.pairwise_cons] at hsorted
    exact lt_irrefl _ (hsorted.1 _ (List.mem_map_of_mem hy))

/-- A handler that is not active is called. -/
theorem call {x : Handler} {below : List Handler} {byExit : Bool} (h : Once code pl H)
    (ht : Tracks base code pl H) (hhead : code.handlers = x :: below) (hx : x ∉ active pl code)
    (hhandlers : code'.handlers = code.handlers) (hx' : x ∈ active pl' code')
    (hactive : ∀ y ∈ active pl code, y ∈ active pl' code') :
  Once code' pl' (.called x.serial byExit :: H)
  := by
  have hmem : x ∈ code.handlers := by
    rw [hhead]
    exact List.mem_cons_self
  refine ⟨?_, ?_⟩
  · exact List.nodup_cons.mpr ⟨fun hcalled => hx (h.calledActive x hmem hcalled), h.once⟩
  · rw [hhandlers]
    intro y hy hcalled
    obtain hsame | hcalled := List.mem_cons.mp hcalled
    · have hsorted := ht.sorted
      rw [hhead] at hy hsorted
      rw [List.map_cons, List.pairwise_cons] at hsorted
      obtain rfl | hy := List.mem_cons.mp hy
      · exact hx'
      · have hlt := hsorted.1 _ (List.mem_map_of_mem hy)
        omega
    · exact hactive y (h.calledActive y hy hcalled)

/-- `pthread_exit` is entered. -/
theorem enter (h : Once code pl H) (hnone : active pl code = []) :
  Once { code with running := [] } .loop (.entered :: H)
  := by
  refine ⟨h.once, fun x hx hcalled => ?_⟩
  have hactive := h.calledActive x hx hcalled
  rw [hnone] at hactive
  cases hactive

end Once

/-- A step of the thread that does not leave a handler through `pthread_exit`. -/
theorem Moves.once_goto {T : Type} (u : T) (h : Moves p l s (.goto s' l'))
    (ht : Tracks base s.code l.place H) (ho : Once s.code l.place H)
    (hG : enters p s l = true → active l.place s.code = []) :
  Once s'.code l'.place (note (.goto u l l') :: H)
  := by
  cases h with
  | stay _ hcode hplace _ _ hinside =>
      rw [note_stay hplace hinside, hcode, hplace]
      exact ho.keep rfl fun x hx => hx
  | exit henters _ _ hcode _ =>
      rw [note_enter, hcode]
      exact ho.enter (hG henters)
  | join hplace hrunning =>
      subst hplace
      refine ho.push ht rfl fun x hx => ?_
      simp only [active, Loc.place, Place.active, hrunning, Shared.withCode_code] at hx ⊢
      exact hx
  | joinPop hplace hrunning =>
      subst hplace
      have hlinked := ht.nested.1
      rw [hrunning] at hlinked
      refine ho.take ht hlinked.pop.1 fun x hx _ => ?_
      simp only [active, Loc.place, Place.active, hrunning, Shared.withCode_code] at hx ⊢
      exact hx
  | pop hplace hrunning =>
      subst hplace
      refine ho.keep rfl fun x hx => ?_
      simp only [active, Loc.place, Place.active, hrunning, Shared.withCode_code] at hx ⊢
      exact hx
  | executed hplace hrunning =>
      subst hplace
      refine ho.keep rfl fun x hx => ?_
      simp only [active, Loc.place, Place.active, hrunning, Shared.withCode_code] at hx ⊢
      exact hx
  | handled hplace hrunning =>
      subst hplace
      refine ho.keep rfl fun x hx => ?_
      simp only [active, Loc.place, Place.active, hrunning, Shared.withCode_code] at hx ⊢
      exact hx
  | unlock hplace hhandlers hroutine =>
      subst hplace
      have hrunning := ht.nested.1
      refine ho.call ht hhandlers ?_ rfl ?_ fun x hx => ?_
      · simp [active, Loc.place, Place.active, hrunning]
      · simp [active, Loc.place, Place.active]
      · simp [active, Loc.place, Place.active, hrunning] at hx
  | unlocked hplace =>
      subst hplace
      exact ho.keep rfl fun x hx => hx
  | next hplace hhandlers =>
      subst hplace
      obtain ⟨hrunning, hbase, below, rfl⟩ := ht.nested
      rw [hhandlers] at hbase
      obtain ⟨rfl, -⟩ := List.cons.inj hbase
      refine ho.take ht hhandlers fun x hx hne => ?_
      simp only [active, Loc.place, Place.active, hrunning, Option.toList_some,
        List.filterMap_nil, List.append_nil, List.mem_singleton] at hx
      exact absurd hx hne
  | ended hplace hhandlers =>
      subst hplace
      exact ho.keep rfl fun x hx => hx
  | destroyed hplace hrunning =>
      subst hplace
      refine ho.keep rfl fun x hx => ?_
      simp only [active, Loc.place, Place.active, hrunning, Shared.withCode_code] at hx ⊢
      exact hx

theorem Moves.once_ret {T : Type} (u : T) (h : Moves p l s (.ret s' r))
    (ht : Tracks base s.code l.place H) (ho : Once s.code l.place H) :
  Once s'.code .program (note (.ret u l r) :: H)
  := by
  cases h with
  | back _ hcode hplace hquiet _ =>
      rw [note_back (.inl hplace) hquiet, hcode]
      rw [hplace] at ho
      exact ho.keep rfl fun x hx => hx
  | push hplace hrunning =>
      subst hplace
      refine ho.push ht rfl fun x hx => ?_
      simp only [active, Loc.place, Place.active, hrunning, Shared.withCode_code] at hx ⊢
      exact hx
  | execute hplace hrunning =>
      subst hplace
      have hlinked : Linked s.code.running s.code.handlers base := ht.nested
      rw [hrunning] at hlinked
      obtain ⟨hhead, hbelow⟩ := hlinked.pop
      refine ho.call ht hhead ?_ rfl ?_ fun x hx => ?_
      · intro hactive
        simp only [active, Loc.place, Place.active, hrunning, Option.toList_none,
          List.nil_append] at hactive
        have hmem := hbelow.active_mem hactive
        have hsorted := ht.sorted
        rw [hhead, List.map_cons, List.pairwise_cons] at hsorted
        exact lt_irrefl _ (hsorted.1 _ (List.mem_map_of_mem hmem))
      · simp [active, Place.active, Back.active]
      · simp only [active, Loc.place, Place.active, hrunning, Shared.withCode_code,
          Option.toList_none, List.nil_append] at hx ⊢
        exact List.mem_cons_of_mem _ hx
  | unlink hplace =>
      rename_i executed r
      subst hplace
      refine ho.take ht ht.nested.1 fun x hx hne => ?_
      cases executed with
      | false => exact hx
      | true =>
          simp only [active, Loc.place, Place.active, Option.toList_some, List.singleton_append,
            List.mem_cons] at hx
          exact hx.resolve_left hne
  | handler hplace hhandlers hroutine =>
      subst hplace
      have hrunning := ht.nested.1
      refine ho.call ht hhandlers ?_ rfl ?_ fun x hx => ?_
      · simp [active, Loc.place, Place.active, hrunning]
      · simp [active, Place.active, Back.active]
      · simp [active, Loc.place, Place.active, hrunning] at hx
  | destructor hplace hcode _ _ =>
      subst hplace
      rw [hcode]
      have hrunning := ht.nested.1
      refine ho.keep rfl fun x hx => ?_
      simp [active, Loc.place, Place.active, hrunning] at hx

end Steps

/-! ### Runs -/

section Runs

variable {T D V : Type} [DecidableEq T] {u t : T} {p thread : Nat} {s s' : Sys T D V}
  {a : Label T (Loc D V)}

/-- The invariant of all runs, and with `guarded` of those in which the thread does not leave its
handlers. -/
def Cleanup (guarded : Prop) (u : T) (s : Sys T D V) : Prop :=
  ∃ base, Tracks base s.shared.code (placeOf (s.loc u)) (history s) ∧
    (guarded → Once s.shared.code (placeOf (s.loc u)) (history s))

omit [DecidableEq T] in
/-- An event that does not concern the handlers. -/
theorem Cleanup.other {guarded : Prop} (hs : Cleanup guarded u s)
    (hplace : placeOf (s'.loc u) = placeOf (s.loc u)) (hcode : s'.shared.code = s.shared.code)
    (hhistory : history s' = .other :: history s) :
  Cleanup guarded u s'
  := by
  obtain ⟨base, ht, ho⟩ := hs
  refine ⟨base, ?_, fun hg => ?_⟩
  · rw [hplace, hcode, hhistory]
    exact ht.keep trivial ht.nested rfl rfl rfl
  · rw [hplace, hcode, hhistory]
    exact (ho hg).keep rfl fun x hx => hx

theorem Cleanup.entry {guarded : Prop} {l : Loc D V} (hs : Cleanup guarded u s)
    (hidle : s.loc u = none) (hentry : entry l = true) :
  Cleanup guarded u (s.call u l)
  := by
  obtain ⟨base, ht, ho⟩ := hs
  rw [hidle] at ht ho
  rw [Cleanup, State.call_loc, Function.update_self, placeOf, Option.elim_some]
  obtain hplace | hplace := entry_place hentry
  all_goals
    rw [hplace]
    refine ⟨base, ht.keep trivial ht.nested rfl rfl rfl, fun hg => ?_⟩
    exact (ho hg).keep rfl fun x hx => hx

theorem Cleanup.self_goto {guarded : Prop} {c : Bool} {x : Shared D V} {l l' : Loc D V}
    (hs : Cleanup guarded u s) (hG : guarded → LeavesOutside u p s (.act u c))
    (hl : s.loc u = some l) (hstep : Exit.step u p thread u l c s.shared = .goto x l') :
  Cleanup guarded u (s.goto u l x l')
  := by
  obtain ⟨base, ht, ho⟩ := hs
  rw [LeavesOutside] at hG
  rw [hl] at ht ho hG
  rw [Cleanup, State.goto_loc, Function.update_self]
  obtain ⟨hredirected, hexit⟩ | ⟨-, hself⟩ := step_self_goto hstep
  · cases hexit
    refine ⟨s.shared.code.handlers, ?_, fun hg => ?_⟩
    · rw [history, State.goto_log, List.map_cons, note_enter]
      exact ht.enter
    · rw [history, State.goto_log, List.map_cons, note_enter]
      exact (ho hg).enter (hG hg rfl (.inl hredirected))
  · have hmoves := Moves.of_eq hself
    refine ⟨_, hmoves.tracks_goto u ht, fun hg => hmoves.once_goto u ht (ho hg) fun henters => ?_⟩
    exact hG hg rfl (.inr ⟨l, hl, henters⟩)

theorem Cleanup.self_ret {guarded : Prop} {c : Bool} {x : Shared D V} {l : Loc D V} {r : Ret}
    (hs : Cleanup guarded u s) (hl : s.loc u = some l)
    (hstep : Exit.step u p thread u l c s.shared = .ret x r) :
  Cleanup guarded u (s.ret u l x r)
  := by
  obtain ⟨base, ht, ho⟩ := hs
  rw [hl] at ht ho
  rw [Cleanup, State.ret_loc, Function.update_self]
  obtain ⟨-, hself⟩ := step_self_ret hstep
  have hmoves := Moves.of_eq hself
  exact ⟨base, hmoves.tracks_ret u ht, fun hg => hmoves.once_ret u ht (ho hg)⟩

theorem Cleanup.step {guarded : Prop} (hs : Cleanup guarded u s)
    (hG : guarded → LeavesOutside u p s a) (h : (machine u p thread).Step s a s') :
  Cleanup guarded u s'
  := by
  cases h with
  | @call t l hidle hentry =>
      by_cases htu : t = u
      · subst htu
        exact hs.entry hidle hentry
      · refine hs.other ?_ rfl rfl
        rw [State.call_loc, Function.update_of_ne (Ne.symm htu)]
  | @goto t c l l' x hl hstep =>
      by_cases htu : t = u
      · subst htu
        exact hs.self_goto hG hl hstep
      · obtain ⟨hplace, hplace', hcode, -⟩ := other_goto_parts ((step_other htu).symm.trans hstep)
        refine hs.other ?_ hcode ?_
        · rw [State.goto_loc, Function.update_of_ne (Ne.symm htu)]
        · rw [history, State.goto_log, List.map_cons, note_stay (hplace'.trans hplace.symm)]
          · rfl
          · rintro call rfl
            cases hplace'
  | @ret t c l x r hl hstep =>
      by_cases htu : t = u
      · subst htu
        exact hs.self_ret hl hstep
      · obtain ⟨hplace, hquiet, hcode, -⟩ := other_ret_parts ((step_other htu).symm.trans hstep)
        refine hs.other ?_ hcode ?_
        · rw [State.ret_loc, Function.update_of_ne (Ne.symm htu)]
        · rw [history, State.ret_log, List.map_cons, note_back (.inr hplace) hquiet]
          rfl

omit [DecidableEq T] in
theorem Cleanup.init (guarded : Prop) (L : Task) (S : Key.Tsd D V) :
  Cleanup guarded u (start L S)
  := by
  refine ⟨[], ?_, fun _ => ⟨List.nodup_nil, fun h hh => by cases hh⟩⟩
  refine ⟨⟨rfl, rfl, rfl⟩, rfl, rfl, List.Pairwise.nil, ?_, List.Pairwise.nil, rfl, ?_⟩
  · intro n hn
    cases hn
  · intro n hn
    cases hn

/-- Cleanup handlers are called at most once, and `pthread_exit` calls those that were pushed and
not popped in reverse order and leaves the list empty, in every run of a program with nested
regions in which the thread does not enter `pthread_exit` while a handler that
`pthread_cleanup_pop` or `pthread_exit` has called is on the list. -/
theorem handlers_called_once {L : Task} {S : Key.Tsd D V}
    (hs : (machine u p thread).Reach (LeavesOutside u p) (start L S) s) :
  CalledOnce u s
  := by
  have hinv : Cleanup True u s := by
    apply hs.invariant (Cleanup.init True L S)
    intro s a s' _ hs hG hstep
    exact hs.step (fun _ => hG) hstep
  obtain ⟨base, ht, ho⟩ := hinv
  refine ⟨(ho trivial).once, ht.order, fun call hl => ?_⟩
  rw [hl] at ht
  obtain ⟨-, hhandlers, rfl⟩ := ht.nested
  refine ⟨?_, hhandlers⟩
  have hexit := ht.exit
  simpa [placeOf, Loc.place] using hexit.symm

/-- A function of the library, which takes `n` steps. -/
def calls {T : Type} (t : T) (l : Loc Unit Unit) (n : Nat) : List (Label T (Loc Unit Unit)) :=
  .call t l :: List.replicate n (.act t false)

/-- The thread pushes two handlers, pops one and executes it, and leaves. -/
def nestedRun {T : Type} (t : T) : List (Label T (Loc Unit Unit)) :=
  calls t .cleanupPush 1 ++ calls t .cleanupPush 1 ++ calls t (.cleanupPop true) 1 ++
    calls t (.leave 0) 2 ++ calls t (.exit (.value 7)) 4 ++ calls t (.leave 0) 5

theorem handlers_called_once_nestedRun :
  ∃ s : Sys (Fin 2) Unit Unit,
    (machine 0 0 1).Reach (LeavesOutside 0 0) (start enabledThread noData) s ∧
      (history s).called = [0, 1] ∧ (history s).atExit = [0] ∧ CalledOnce 0 s
  := by
  obtain ⟨s, hs, hp⟩ := Machine.exists_reach_of_run (M := machine (0 : Fin 2) 0 1)
    (G := LeavesOutside 0 0) (s := start enabledThread noData) (nestedRun (0 : Fin 2))
    (fun s => (history s).called = [0, 1] ∧ (history s).atExit = [0] ∧
      s.loc 0 = some (.destroySpecific ⟨.value 7, .program⟩)) (by decide +kernel)
  simp only [decide_eq_true_eq] at hp
  exact ⟨s, hs, hp.1, hp.2.1, handlers_called_once hs⟩

/-- The thread pushes a handler and pops it; thread `u` cancels it while the handler runs, which
calls `pthread_testcancel`. -/
def cancelledRun {T : Type} (t u : T) : List (Label T (Loc Unit Unit)) :=
  calls t .cleanupPush 1 ++ calls t (.cleanupPop true) 1 ++ calls u .cancel 2 ++
    calls t (.lock .testcancel) 5

/-- The handler is called by `pthread_cleanup_pop`, and again by `pthread_exit`. -/
theorem handler_called_twice :
  ∃ s : Sys (Fin 2) Unit Unit,
    (machine 0 0 1).Reach (fun _ _ => True) (start enabledThread noData) s ∧
      (history s).pushes = 1 ∧ (history s).called = [0, 0] ∧ ¬ CalledOnce 0 s
  := by
  obtain ⟨s, hs, hp⟩ := Machine.exists_reach_of_run (M := machine (0 : Fin 2) 0 1)
    (G := fun _ _ => True) (s := start enabledThread noData) (cancelledRun (0 : Fin 2) 1)
    (fun s => (history s).pushes = 1 ∧ (history s).called = [0, 0]) (by decide +kernel)
  simp only [decide_eq_true_eq] at hp
  refine ⟨s, hs, hp.1, hp.2, fun honce => ?_⟩
  have hnodup := honce.once
  rw [hp.2] at hnodup
  exact absurd hnodup (by decide)

end Runs

end LibPthread.Thread.Exit
