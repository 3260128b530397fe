import LibPthread.Concurrency.LinkedList
import LibPthread.Concurrency.Trace
import LibPthread.Signal.Blocked

/-!
# The threads that wait for signals

A structure of a thread that waits is put in front of the list `sigwaiters`, and it is taken out
when the thread is given a signal. `WaitInv S l` says that `l` are the structures of the list, and
that everything that has happened to a structure is a path of `WaiterStep`: it is written while it
is in the list, it is unlinked once with a signal, and this signal is returned.
-/

namespace LibPthread.Signal

open Concurrency

/-! ### Structures and calls -/

/-- How far a structure has come. -/
inductive Status where
  | queued
  | given (si : Siginfo)
  | returned (si : Siginfo)

/-- What may happen to a structure. -/
inductive WaiterStep : Status → WaiterEvent → Status → Prop where
  | wrote : WaiterStep .queued .wrote .queued
  | given (si : Siginfo) : WaiterStep .queued (.given si) (.given si)
  | returned (si : Siginfo) : WaiterStep (.given si) (.returned si) (.returned si)

theorem WaiterStep.unique {s t t' : Status} {e : WaiterEvent} (h : WaiterStep s e t)
    (h' : WaiterStep s e t') :
  t = t'
  := by
  cases h <;> cases h' <;> rfl

/-- The structure, if it is there, is at this point. -/
def AtStage {T : Type} : Option (Sigwaiter T) → Status → Prop
  | some w, .queued => w.info.si_signo = 0
  | some w, .given si => w.info = si ∧ si.si_signo ≠ 0
  | none, .returned _ => True
  | _, _ => False

/-- The point depends on the information alone. -/
theorem AtStage.map {T : Type} {o : Option (Sigwaiter T)} {st : Status}
    {f : Sigwaiter T → Sigwaiter T} (h : AtStage o st) (hf : ∀ w, (f w).info = w.info) :
  AtStage (o.map f) st
  := by
  cases o with
  | none => exact h
  | some w =>
      cases st with
      | queued => exact (congrArg Siginfo.si_signo (hf w)).trans h
      | given si => exact ⟨(hf w).trans h.1, h.2⟩
      | returned si => exact h

/-- The structure of a call of `sigwaiter_block`. -/
def Frame.waiter : Frame → Option Nat
  | .dispatch _ _ _ _ => none
  | .waiting n => some n
  | .leaving n => some n

namespace Signals

variable {T : Type}

/-- The structures of the calls of `sigwaiter_block` that the thread is inside of. -/
def calls (S : Signals T) (t : T) : List Nat :=
  (S.frames t).filterMap Frame.waiter

/-- `waiter->next`. -/
def next (S : Signals T) (n : Nat) : Option Nat :=
  (S.waiters n).bind Sigwaiter.next

/-- `waiter->prev`. -/
def prev (S : Signals T) (n : Nat) : Option Nat :=
  (S.waiters n).bind Sigwaiter.prev

/-- The structure is there, and its thread has not been given a signal. -/
def Queued (S : Signals T) (n : Nat) : Prop :=
  ∃ w, S.waiters n = some w ∧ w.info.si_signo = 0

variable {S S' : Signals T} {n : Nat} {w : Sigwaiter T}

theorem next_eq (h : S.waiters n = some w) :
  S.next n = w.next
  := by
  rw [next, h, Option.bind_some]

theorem prev_eq (h : S.waiters n = some w) :
  S.prev n = w.prev
  := by
  rw [prev, h, Option.bind_some]

theorem calls_cons {t : T} {x : Frame} {rest : List Frame} (h : S.frames t = x :: rest) :
  S.calls t = x.waiter.toList ++ rest.filterMap Frame.waiter
  := by
  rw [calls, h]
  cases hx : x.waiter with
  | none => rw [List.filterMap_cons_none hx, Option.toList_none, List.nil_append]
  | some n => rw [List.filterMap_cons_some hx, Option.toList_some, List.singleton_append]

section Calls

variable [DecidableEq T]

theorem calls_push (S : Signals T) (t u : T) (x : Frame) :
  (S.push t x).calls u = if u = t then x.waiter.toList ++ S.calls t else S.calls u
  := by
  split
  · rename_i hu
    subst hu
    exact calls_cons (by rw [push_frames, Function.update_self])
  · rename_i hu
    rw [calls, push_frames, Function.update_of_ne hu, calls]

theorem calls_pop {t : T} {x : Frame} {rest : List Frame} (h : S.frames t = x :: rest) (u : T) :
  (S.pop t).calls u = if u = t then rest.filterMap Frame.waiter else S.calls u
  := by
  split
  · rename_i hu
    subst hu
    rw [calls, pop_frames, Function.update_self, h, List.tail_cons]
  · rename_i hu
    rw [calls, pop_frames, Function.update_of_ne hu, calls]

end Calls

/-! ### The invariant -/

/-- The list `sigwaiters` consists of the structures `l`. -/
structure WaitInv [DecidableEq T] (S : Signals T) (l : List Nat) : Prop where
  nodup : l.Nodup
  linked : Linked S.next S.prev none S.sigwaiters l
  queued : ∀ n, n ∈ l ↔ S.Queued n
  wanted : ∀ n w, S.waiters n = some w → w.info.si_signo ≠ 0 →
    w.signals.Has w.info.si_signo.toNat
  call : ∀ t n, (S.calls t).count n = if (S.waiters n).map Sigwaiter.ss = some t then 1 else 0
  leaving : ∀ t n, .leaving n ∈ S.frames t → n ∉ l
  used : ∀ n w, S.waiters n = some w → n < S.count
  history : ∀ n < S.count, ∃ st, Path WaiterStep .queued (S.history n) st ∧
    AtStage (S.waiters n) st
  fresh : ∀ n, S.count ≤ n → S.history n = []

/-- Nothing happens to the structures, and no call of `sigwaiter_block` starts or ends; a thread
that has been given a signal may return from the futex. -/
structure Still (S S' : Signals T) : Prop where
  waiters : S'.waiters = S.waiters
  sigwaiters : S'.sigwaiters = S.sigwaiters
  count : S'.count = S.count
  history : S'.history = S.history
  calls : ∀ t, S'.calls t = S.calls t
  leaving : ∀ t n, .leaving n ∈ S'.frames t → .leaving n ∈ S.frames t ∨
    ∃ w, S.waiters n = some w ∧ w.info.si_signo ≠ 0

section Invariant

variable [DecidableEq T] {b : Build} {l : List Nat} {t : T} {si : Siginfo} {set : Sigset}

theorem WaitInv.still (h : WaitInv S l) (hstill : Still S S') :
  WaitInv S' l
  := by
  obtain ⟨hwaiters, hsigwaiters, hcount, hhistory, hcalls, hleaving⟩ := hstill
  constructor
  · exact h.nodup
  · rw [hsigwaiters]
    apply h.linked.congr
    · intro n _
      rw [next, hwaiters, next]
    · intro n _
      rw [prev, hwaiters, prev]
  · intro n
    rw [Queued, hwaiters]
    exact h.queued n
  · rw [hwaiters]
    exact h.wanted
  · intro t n
    rw [hcalls, hwaiters]
    exact h.call t n
  · intro t n hmem hn
    rcases hleaving t n hmem with hmem | ⟨w, hw, hsigno⟩
    · exact h.leaving t n hmem hn
    · obtain ⟨w', hw', hzero⟩ := (h.queued n).mp hn
      rw [hw] at hw'
      obtain rfl := Option.some.inj hw'
      exact hsigno hzero
  · rw [hwaiters, hcount]
    exact h.used
  · rw [hcount, hhistory, hwaiters]
    exact h.history
  · rw [hcount, hhistory]
    exact h.fresh

/-- The structure of a call is there, and it is the structure of the thread. -/
theorem WaitInv.called (h : WaitInv S l) (hmem : n ∈ S.calls t) :
  ∃ w, S.waiters n = some w ∧ w.ss = t
  := by
  have hcount := List.count_pos_iff.mpr hmem
  rw [h.call] at hcount
  split at hcount
  · rename_i hmap
    exact Option.map_eq_some_iff.mp hmap
  · omega

/-- A queued structure is the structure of a thread that waits for the futex. -/
theorem WaitInv.waiting (h : WaitInv S l) (hn : n ∈ l) :
  ∃ t, .waiting n ∈ S.frames t
  := by
  obtain ⟨w, hw, -⟩ := (h.queued n).mp hn
  have hcount := h.call w.ss n
  rw [hw, Option.map_some, if_pos rfl] at hcount
  have hmem : n ∈ S.calls w.ss := List.count_pos_iff.mp (by omega)
  obtain ⟨x, hx, hwaiter⟩ := List.mem_filterMap.mp hmem
  use w.ss
  cases x with
  | dispatch signo si handler orig => cases hwaiter
  | waiting m =>
      obtain rfl := Option.some.inj hwaiter
      exact hx
  | leaving m =>
      obtain rfl := Option.some.inj hwaiter
      exact absurd hn (h.leaving _ _ hx)

/-- The next structure is queued as well, and so is the one before. -/
theorem WaitInv.neighbours (h : WaitInv S l) (hn : n ∈ l) (hw : S.waiters n = some w) :
  ∃ l₁ l₂, l = l₁ ++ n :: l₂ ∧ w.prev = l₁.getLast? ∧ w.next = l₂.head?
  := by
  obtain ⟨l₁, l₂, rfl⟩ := List.append_of_mem hn
  obtain ⟨hprev, hnext⟩ := h.linked.neighbours
  rw [prev_eq hw, Option.or_none] at hprev
  rw [next_eq hw] at hnext
  exact ⟨l₁, l₂, rfl, hprev, hnext⟩

end Invariant

/-! ### Unlinking a structure -/

/-- The structure `w`, which is `n`, has been given the signal `si`, and its neighbours have been
told of each other. -/
structure Given (S : Signals T) (n : Nat) (w : Sigwaiter T) (si : Siginfo) (S' : Signals T) :
    Prop where
  frames : S'.frames = S.frames
  count : S'.count = S.count
  sigwaiters : S'.sigwaiters = if w.prev = none then w.next else S.sigwaiters
  target : S'.waiters n = some { w with info := si }
  targetHistory : S'.history n = S.history n ++ [.wrote, .given si]
  others : ∀ x, x ≠ n → S'.waiters x = (S.waiters x).map fun y =>
    { y with
      next := if w.prev = some x then w.next else y.next
      prev := if w.next = some x then w.prev else y.prev }
  othersHistory : ∀ x, x ≠ n → S'.history x =
    S.history x ++ if w.next = some x ∨ w.prev = some x then [.wrote] else []

section Unlink

variable [DecidableEq T] {l : List Nat} {si : Siginfo} {f : Sigwaiter T → Sigwaiter T}

/-- The structures after a write through a pointer that may be `NULL`. -/
@[simps]
def touch (S : Signals T) (o : Option Nat) (f : Sigwaiter T → Sigwaiter T) : Signals T :=
  { S with
    waiters := fun x => if o = some x then (S.waiters x).map f else S.waiters x
    history := fun x => if o = some x then S.history x ++ [.wrote] else S.history x }

omit [DecidableEq T] in
theorem write_eq_touch (hw : S.waiters n = some w) (f : Sigwaiter T → Sigwaiter T) :
  S.write n f = some (S.touch (some n) f)
  := by
  rw [write, hw, Option.map_some, touch]
  congr 2
  · funext x
    by_cases hx : x = n
    · subst hx
      rw [Function.update_self, if_pos rfl, hw, Option.map_some]
    · have hne : some n ≠ some x := by
        intro heq
        exact hx (Option.some.inj heq).symm
      rw [Function.update_of_ne hx, if_neg hne]
  · funext x
    by_cases hx : x = n
    · subst hx
      rw [Function.update_self, if_pos rfl]
    · have hne : some n ≠ some x := by
        intro heq
        exact hx (Option.some.inj heq).symm
      rw [Function.update_of_ne hx, if_neg hne]

omit [DecidableEq T] in
theorem writeIf_eq_touch {o : Option Nat} (ho : ∀ m, o = some m → ∃ y, S.waiters m = some y)
    (f : Sigwaiter T → Sigwaiter T) :
  S.writeIf o f = some (S.touch o f)
  := by
  cases o with
  | none => simp [writeIf, touch]
  | some m =>
      obtain ⟨y, hy⟩ := ho m rfl
      exact write_eq_touch hy f

omit [DecidableEq T] in
theorem linkNext_eq_touch (hprev : ∀ m, w.prev = some m → ∃ y, S.waiters m = some y) :
  S.linkNext w = some { S.touch w.prev (fun x => { x with next := w.next }) with
    sigwaiters := if w.prev = none then w.next else S.sigwaiters }
  := by
  rw [linkNext]
  split
  · rename_i m hm
    obtain ⟨y, hy⟩ := hprev m hm
    rw [write_eq_touch hy, hm]
    simp [touch]
  · rename_i hnone
    rw [hnone]
    simp [touch]

/-- The neighbours are other structures, and they are there. -/
theorem given_of_neighbours (hw : S.waiters n = some w)
    (hnext : ∀ m, w.next = some m → m ≠ n ∧ ∃ y, S.waiters m = some y)
    (hprev : ∀ m, w.prev = some m → m ≠ n ∧ ∃ y, S.waiters m = some y)
    (hne : ∀ m, w.next = some m → w.prev ≠ some m) (si : Siginfo) :
  ∃ S', S.give n si = some S' ∧ Given S n w si S'
  := by
  let S₁ := S.touch (some n) fun x => { x with info := si }
  have hw₁ : S₁.waiters n = some { w with info := si } := by simp [S₁, hw]
  have hS₁ : ∀ m, (∃ y, S.waiters m = some y) → ∃ y, S₁.waiters m = some y := by
    rintro m ⟨y, hy⟩
    simp only [S₁, touch_waiters]
    split <;> simp [hy]
  let S₂ := S₁.touch w.next fun x => { x with prev := w.prev }
  have hS₂ : ∀ m, (∃ y, S.waiters m = some y) → ∃ y, S₂.waiters m = some y := by
    intro m hm
    obtain ⟨y, hy⟩ := hS₁ m hm
    simp only [S₂, touch_waiters]
    split <;> simp [hy]
  have hnext₁ : S₁.writeIf w.next (fun x => { x with prev := w.prev }) = some S₂ :=
    writeIf_eq_touch (fun m hm => hS₁ m (hnext m hm).2) _
  have hprev₂ := linkNext_eq_touch (S := S₂) (w := { w with info := si })
    (fun m hm => hS₂ m (hprev m hm).2)
  rw [give, write_eq_touch hw, Option.bind_eq_bind, Option.bind_some, sigwaiterUnblock]
  simp only [Option.bind_eq_bind, Option.pure_def]
  rw [hw₁, Option.bind_some, hnext₁, Option.bind_some, hprev₂, Option.bind_some]
  refine ⟨_, rfl, ?_⟩
  have hnn : w.next ≠ some n := fun hm => (hnext n hm).1 rfl
  have hpn : w.prev ≠ some n := fun hm => (hprev n hm).1 rfl
  constructor
  · rfl
  · rfl
  · rfl
  · simp [S₁, S₂, delete, hnn, hpn, hw]
  · simp [S₁, S₂, hnn, hpn]
  · intro x hx
    have hxn : n ≠ x := Ne.symm hx
    have hboth := hne x
    by_cases h₁ : w.next = some x <;> by_cases h₂ : w.prev = some x
    · exact absurd h₂ (hboth h₁)
    · simp [S₁, S₂, delete, hxn, h₁, h₂]
    · simp [S₁, S₂, delete, hxn, h₁, h₂]
    · simp [S₁, S₂, delete, hxn, h₁, h₂]
  · intro x hx
    have hxn : n ≠ x := Ne.symm hx
    have hboth := hne x
    by_cases h₁ : w.next = some x <;> by_cases h₂ : w.prev = some x
    · exact absurd h₂ (hboth h₁)
    · simp [S₁, S₂, hx, hxn, h₁, h₂]
    · simp [S₁, S₂, hx, hxn, h₁, h₂]
    · simp [S₁, S₂, hx, hxn, h₁, h₂]

omit [DecidableEq T] in
/-- The structures remain those of the same threads. -/
theorem Given.ss_eq (h : Given S n w si S') (hw : S.waiters n = some w) (x : Nat) :
  (S'.waiters x).map Sigwaiter.ss = (S.waiters x).map Sigwaiter.ss
  := by
  by_cases hx : x = n
  · rw [hx, h.target, hw]
    rfl
  · rw [h.others x hx, Option.map_map]
    rfl

omit [DecidableEq T] in
/-- The structure before the change. -/
theorem Given.of_other (h : Given S n w si S') {x : Nat} (hx : x ≠ n) {y' : Sigwaiter T}
    (hy' : S'.waiters x = some y') :
  ∃ y, S.waiters x = some y ∧ y'.info = y.info ∧ y'.signals = y.signals
  := by
  rw [h.others x hx] at hy'
  obtain ⟨y, hy, rfl⟩ := Option.map_eq_some_iff.mp hy'
  exact ⟨y, hy, rfl, rfl⟩

omit [DecidableEq T] in
/-- The list without the structure. -/
theorem Given.linked {l₁ l₂ : List Nat} (h : Given S n w si S') (hw : S.waiters n = some w)
    (hlinked : Linked S.next S.prev none S.sigwaiters (l₁ ++ n :: l₂))
    (hnodup : (l₁ ++ n :: l₂).Nodup) (halive : ∀ x ∈ l₁ ++ l₂, x ≠ n ∧ ∃ y, S.waiters x = some y)
    (hprev : w.prev = l₁.getLast?) (hnext : w.next = l₂.head?) :
  Linked S'.next S'.prev none S'.sigwaiters (l₁ ++ l₂)
  := by
  have hstart : S'.sigwaiters = if l₁ = [] then S.next n else S.sigwaiters := by
    rw [h.sigwaiters, hprev, next_eq hw]
    simp only [List.getLast?_eq_none_iff]
  rw [hstart]
  apply hlinked.unlink hnodup
  · intro x hx
    obtain ⟨hxn, y, hy⟩ := halive x hx
    have hy' := h.others x hxn
    rw [hy, Option.map_some] at hy'
    rw [next_eq hy', next_eq hy, next_eq hw, hprev]
  · intro x hx
    obtain ⟨hxn, y, hy⟩ := halive x hx
    have hy' := h.others x hxn
    rw [hy, Option.map_some] at hy'
    rw [prev_eq hy', prev_eq hy, prev_eq hw, hnext]

omit [DecidableEq T] in
theorem Given.queued_iff (h : Given S n w si S') (hsigno : si.si_signo ≠ 0) (x : Nat) :
  S'.Queued x ↔ x ≠ n ∧ S.Queued x
  := by
  by_cases hx : x = n
  · subst hx
    simp [Queued, h.target, hsigno]
  · simp only [Queued, h.others x hx, Option.map_eq_some_iff]
    constructor
    · rintro ⟨-, ⟨y, hy, rfl⟩, hzero⟩
      exact ⟨hx, y, hy, hzero⟩
    · rintro ⟨-, y, hy, hzero⟩
      exact ⟨_, ⟨y, hy, rfl⟩, hzero⟩

/-- A structure that is queued has only been written. -/
theorem WaitInv.path_queued (h : WaitInv S l) (hn : n ∈ l) :
  n < S.count ∧ Path WaiterStep .queued (S.history n) .queued
  := by
  obtain ⟨w, hw, hzero⟩ := (h.queued n).mp hn
  have hlt := h.used n w hw
  obtain ⟨st, hpath, hstage⟩ := h.history n hlt
  rw [hw] at hstage
  cases st with
  | queued => exact ⟨hlt, hpath⟩
  | given si => exact absurd (hstage.1 ▸ hzero) hstage.2
  | returned si => cases hstage

theorem WaitInv.history_given (h : WaitInv S l) (hgiven : Given S n w si S') (hn : n ∈ l)
    (hsigno : si.si_signo ≠ 0)
    (hneighbour : ∀ x, w.next = some x ∨ w.prev = some x → x ∈ l) :
  ∀ x < S'.count, ∃ st, Path WaiterStep .queued (S'.history x) st ∧ AtStage (S'.waiters x) st
  := by
  intro x hx
  rw [hgiven.count] at hx
  by_cases hxn : x = n
  · subst hxn
    refine ⟨.given si, ?_, ?_⟩
    · rw [hgiven.targetHistory]
      exact (h.path_queued hn).2.append (.cons .wrote (.single (.given si)))
    · rw [hgiven.target]
      exact ⟨rfl, hsigno⟩
  · rw [hgiven.othersHistory x hxn]
    split
    · rename_i hx
      have hmem := hneighbour x hx
      refine ⟨.queued, (h.path_queued hmem).2.append (.single .wrote), ?_⟩
      obtain ⟨y, hy, hzero⟩ := (h.queued x).mp hmem
      rw [hgiven.others x hxn, hy]
      exact hzero
    · obtain ⟨st, hpath, hstage⟩ := h.history x hx
      rw [List.append_nil]
      rw [hgiven.others x hxn]
      exact ⟨st, hpath, hstage.map fun _ => rfl⟩

/-- A queued structure is given a signal. -/
theorem WaitInv.give (h : WaitInv S l) (hn : n ∈ l) (hw : S.waiters n = some w)
    (hsigno : si.si_signo ≠ 0) (hhas : w.signals.Has si.si_signo.toNat) :
  ∃ S' l', S.give n si = some S' ∧ WaitInv S' l'
  := by
  obtain ⟨l₁, l₂, rfl, hprev, hnext⟩ := h.neighbours hn hw
  obtain ⟨hnot, hnodup⟩ := List.nodup_cons.mp (List.nodup_middle.mp h.nodup)
  have hmem : ∀ x, x ∈ l₁ ++ n :: l₂ ↔ x = n ∨ x ∈ l₁ ++ l₂ := by
    intro x
    simp only [List.mem_append, List.mem_cons]
    tauto
  have halive : ∀ x ∈ l₁ ++ l₂, x ≠ n ∧ ∃ y, S.waiters x = some y := by
    intro x hx
    constructor
    · rintro rfl
      exact hnot hx
    · obtain ⟨y, hy, -⟩ := (h.queued x).mp ((hmem x).mpr (.inr hx))
      exact ⟨y, hy⟩
  have hnext_mem : ∀ x, w.next = some x → x ∈ l₂ := by
    intro x hx
    rw [hnext] at hx
    exact List.mem_of_mem_head? hx
  have hprev_mem : ∀ x, w.prev = some x → x ∈ l₁ := by
    intro x hx
    rw [hprev] at hx
    exact List.mem_of_getLast? hx
  have hneighbour : ∀ x, w.next = some x ∨ w.prev = some x → x ∈ l₁ ++ n :: l₂ := by
    rintro x (hx | hx)
    · exact (hmem x).mpr (.inr (List.mem_append_right _ (hnext_mem x hx)))
    · exact (hmem x).mpr (.inr (List.mem_append_left _ (hprev_mem x hx)))
  have hdisjoint := List.disjoint_of_nodup_append hnodup
  obtain ⟨S', hS', hgiven⟩ := given_of_neighbours hw
    (fun x hx => halive x (List.mem_append_right _ (hnext_mem x hx)))
    (fun x hx => halive x (List.mem_append_left _ (hprev_mem x hx)))
    (fun x hx hx' => hdisjoint (hprev_mem x hx') (hnext_mem x hx)) si
  refine ⟨S', l₁ ++ l₂, hS', ?_⟩
  constructor
  · exact hnodup
  · exact hgiven.linked hw h.linked h.nodup halive hprev hnext
  · intro x
    rw [hgiven.queued_iff hsigno, ← h.queued, hmem]
    constructor
    · intro hx
      exact ⟨(halive x hx).1, .inr hx⟩
    · rintro ⟨hxn, rfl | hx⟩
      · exact absurd rfl hxn
      · exact hx
  · intro x y' hy' hy'signo
    by_cases hxn : x = n
    · rw [hxn, hgiven.target] at hy'
      obtain rfl := Option.some.inj hy'
      exact hhas
    · obtain ⟨y, hy, hinfo, hsignals⟩ := hgiven.of_other hxn hy'
      rw [hinfo] at hy'signo ⊢
      rw [hsignals]
      exact h.wanted x y hy hy'signo
  · intro t x
    have hcall := h.call t x
    rw [calls] at hcall
    rw [calls, hgiven.frames, hcall, hgiven.ss_eq hw]
  · intro t x hx
    rw [hgiven.frames] at hx
    have hx := h.leaving t x hx
    rw [hmem] at hx
    tauto
  · intro x y' hy'
    rw [hgiven.count]
    by_cases hxn : x = n
    · rw [hxn]
      exact h.used n w hw
    · obtain ⟨y, hy, -⟩ := hgiven.of_other hxn hy'
      exact h.used x y hy
  · exact h.history_given hgiven hn hsigno hneighbour
  · intro x hx
    rw [hgiven.count] at hx
    have hxl : x ∉ l₁ ++ n :: l₂ := by
      intro hxl
      have hlt := (h.path_queued hxl).1
      omega
    have hxn : x ≠ n := by
      rintro rfl
      exact hxl hn
    rw [hgiven.othersHistory x hxn, h.fresh x hx, if_neg]
    · rfl
    · intro hx
      exact hxl (hneighbour x hx)

end Unlink

/-! ### Starting and ending a call -/

section Calls

variable [DecidableEq T] {b : Build} {l : List Nat} {t : T} {set : Sigset}

/-- The first structure of the list, if any, holds no address of one before it. -/
theorem WaitInv.first (h : WaitInv S l) :
  ∃ first, S.firstWaiter = some first ∧ (∀ w ∈ first, w.prev = none) ∧
    ∀ n, S.sigwaiters = some n → n ∈ l ∧ ∃ w, S.waiters n = some w
  := by
  rw [firstWaiter]
  cases l with
  | nil =>
      rw [h.linked.start_eq]
      exact ⟨none, rfl, by simp, by simp⟩
  | cons n l =>
      have hn : n ∈ n :: l := List.mem_cons_self
      obtain ⟨w, hw, -⟩ := (h.queued n).mp hn
      have hprev := h.linked.2.1
      rw [prev_eq hw] at hprev
      rw [h.linked.1]
      refine ⟨some w, ?_, ?_, ?_⟩
      · simp only [hw, Option.map_some]
      · rintro w ⟨⟩
        exact hprev
      · rintro n ⟨⟩
        exact ⟨hn, w, hw⟩

/-- The state in which the thread waits with a new structure. -/
def blockedWith (S : Signals T) (t : T) (set : Sigset) : Signals T :=
  let S' := S.touch S.sigwaiters fun x => { x with prev := some S.count }
  ({ S' with
      waiters := Function.update S'.waiters S.count
        (some ⟨S.sigwaiters, none, t, set, .plain 0⟩)
      sigwaiters := some S.count
      count := S.count + 1 }.modify t fun ss => { ss with sigwaiter := some S.count }).push t
    (.waiting S.count)

/-- The assertion about the signal state is the only one that can fail. -/
theorem WaitInv.sigwaiterBlock_eq (h : WaitInv S l) :
  S.sigwaiterBlock b t set =
    if b.ndebug ∨ (S.ss t).sigwaiter = none then some (S.blockedWith t set) else none
  := by
  obtain ⟨first, hfirst, hprev, halive⟩ := h.first
  rw [sigwaiterBlock]
  split
  · rename_i hcheck
    simp only [guard, if_pos hcheck, hfirst, if_pos (Or.inr hprev), Option.bind_eq_bind,
      Option.pure_def, Option.bind_some]
    rw [writeIf_eq_touch (fun m hm => (halive m hm).2), Option.bind_some]
    rfl
  · rename_i hcheck
    simp only [guard, if_neg hcheck]
    rfl

theorem blockedWith_new (S : Signals T) (t : T) (set : Sigset) :
  (S.blockedWith t set).waiters S.count = some ⟨S.sigwaiters, none, t, set, .plain 0⟩
  := by
  simp [blockedWith]

theorem blockedWith_other {x : Nat} (hx : x ≠ S.count) :
  (S.blockedWith t set).waiters x = (S.waiters x).map fun y =>
    { y with prev := if S.sigwaiters = some x then some S.count else y.prev }
  := by
  by_cases hfirst : S.sigwaiters = some x <;> simp [blockedWith, hx, hfirst]

theorem blockedWith_calls (S : Signals T) (t u : T) (set : Sigset) :
  (S.blockedWith t set).calls u = if u = t then S.count :: S.calls t else S.calls u
  := calls_push _ _ _ _

/-- The next structure has not been used. -/
theorem WaitInv.waiters_count (h : WaitInv S l) :
  S.waiters S.count = none
  := by
  cases hw : S.waiters S.count with
  | none => rfl
  | some w =>
      have hlt := h.used _ w hw
      omega

theorem WaitInv.linked_block (h : WaitInv S l) (t : T) (set : Sigset) :
  Linked (S.blockedWith t set).next (S.blockedWith t set).prev none (some S.count) (S.count :: l)
  := by
  have hnew := blockedWith_new S t set
  apply h.linked.push h.nodup
  · intro hmem
    have hlt := (h.path_queued hmem).1
    omega
  · rw [next_eq hnew]
  · rw [prev_eq hnew]
  · intro x hx
    rw [next, next, blockedWith_other hx]
    cases S.waiters x <;> rfl
  · intro x hx
    rw [prev, prev, blockedWith_other hx]
    cases hw : S.waiters x with
    | some w => rfl
    | none =>
        obtain ⟨-, -, -, halive⟩ := h.first
        rw [if_neg]
        · rfl
        · intro hfirst
          obtain ⟨-, w, hw'⟩ := halive x hfirst
          rw [hw] at hw'
          cases hw'

theorem WaitInv.history_block (h : WaitInv S l) (t : T) (set : Sigset) :
  ∀ x < S.count + 1, ∃ st, Path WaiterStep .queued ((S.blockedWith t set).history x) st ∧
    AtStage ((S.blockedWith t set).waiters x) st
  := by
  intro x hx
  have hhistory : (S.blockedWith t set).history x =
      if S.sigwaiters = some x then S.history x ++ [.wrote] else S.history x := rfl
  obtain ⟨-, -, -, halive⟩ := h.first
  by_cases hxn : x = S.count
  · subst hxn
    refine ⟨.queued, ?_, ?_⟩
    · rw [hhistory, if_neg, h.fresh _ le_rfl]
      · exact .nil _
      · intro hfirst
        have hlt := (h.path_queued (halive _ hfirst).1).1
        omega
    · rw [blockedWith_new]
      rfl
  · rw [hhistory, blockedWith_other hxn]
    split
    · rename_i hfirst
      have hmem := (halive x hfirst).1
      obtain ⟨y, hy, hzero⟩ := (h.queued x).mp hmem
      rw [hy]
      exact ⟨.queued, (h.path_queued hmem).2.append (.single .wrote), hzero⟩
    · obtain ⟨st, hpath, hstage⟩ := h.history x (by omega)
      exact ⟨st, hpath, hstage.map fun _ => rfl⟩

/-- The thread waits with a new structure. -/
theorem WaitInv.block (h : WaitInv S l) (t : T) (set : Sigset) :
  WaitInv (S.blockedWith t set) (S.count :: l)
  := by
  have hnew := blockedWith_new S t set
  have hcount : (S.blockedWith t set).count = S.count + 1 := rfl
  have hnot : S.count ∉ l := by
    intro hmem
    have hlt := (h.path_queued hmem).1
    omega
  constructor
  · exact List.nodup_cons.mpr ⟨hnot, h.nodup⟩
  · exact h.linked_block t set
  · intro x
    rw [List.mem_cons, h.queued]
    by_cases hx : x = S.count
    · subst hx
      simp [Queued, hnew, Siginfo.plain]
    · simp [Queued, blockedWith_other hx, hx]
  · intro x y' hy' hsigno
    by_cases hx : x = S.count
    · subst hx
      rw [hnew] at hy'
      obtain rfl := Option.some.inj hy'
      exact absurd rfl hsigno
    · rw [blockedWith_other hx] at hy'
      obtain ⟨y, hy, rfl⟩ := Option.map_eq_some_iff.mp hy'
      exact h.wanted x y hy hsigno
  · intro u x
    have hcall := h.call u x
    rw [blockedWith_calls]
    by_cases hx : x = S.count
    · subst hx
      rw [h.waiters_count] at hcall
      rw [hnew]
      by_cases hu : u = t
      · subst hu
        simpa using hcall
      · simpa [hu, Ne.symm hu] using hcall
    · have hss : ((S.blockedWith t set).waiters x).map Sigwaiter.ss =
          (S.waiters x).map Sigwaiter.ss := by
        rw [blockedWith_other hx, Option.map_map]
        rfl
      rw [hss, ← hcall]
      split
      · rename_i hu
        rw [hu, List.count_cons_of_ne (Ne.symm hx)]
      · rfl
  · intro u x hx
    have hold : .leaving x ∈ S.frames u := by
      simp only [blockedWith, push_frames, Function.update_apply] at hx
      split at hx
      · rename_i hu
        rw [hu]
        simpa using hx
      · exact hx
    have hmem : x ∈ S.calls u := List.mem_filterMap.mpr ⟨_, hold, rfl⟩
    obtain ⟨w, hw, -⟩ := h.called hmem
    have hlt := h.used x w hw
    rw [List.mem_cons, not_or]
    exact ⟨by omega, h.leaving u x hold⟩
  · intro x y' hy'
    rw [hcount]
    by_cases hx : x = S.count
    · omega
    · rw [blockedWith_other hx] at hy'
      obtain ⟨y, hy, -⟩ := Option.map_eq_some_iff.mp hy'
      have hlt := h.used x y hy
      omega
  · exact h.history_block t set
  · intro x hx
    rw [hcount] at hx
    have hfirst : S.sigwaiters ≠ some x := by
      intro hfirst
      obtain ⟨-, -, -, halive⟩ := h.first
      have hlt := (h.path_queued (halive x hfirst).1).1
      omega
    have hsame : (S.blockedWith t set).history x = S.history x := if_neg hfirst
    rw [hsame]
    exact h.fresh x (by omega)

/-- The structure of the innermost call, which is that of the thread. -/
theorem WaitInv.call_top (h : WaitInv S l) {x : Frame} {rest : List Frame}
    (hframes : S.frames t = x :: rest) (hx : x.waiter = some n) :
  (∃ w, S.waiters n = some w ∧ w.ss = t) ∧ S.calls t = n :: rest.filterMap Frame.waiter
  := by
  have hcalls := calls_cons hframes
  rw [hx, Option.toList_some, List.singleton_append] at hcalls
  refine ⟨h.called ?_, hcalls⟩
  rw [hcalls]
  exact List.mem_cons_self

/-- A call ends whose thread has been given a signal. -/
theorem WaitInv.finish (h : WaitInv S l) {x : Frame} {rest : List Frame}
    (hframes : S.frames t = x :: rest) (hx : x.waiter = some n) (hw : S.waiters n = some w)
    (hsigno : w.info.si_signo ≠ 0) :
  WaitInv (S.finish t n w.info) l
  := by
  obtain ⟨⟨w', hw', hss⟩, hcalls⟩ := h.call_top hframes hx
  obtain rfl := Option.some.inj (hw.symm.trans hw')
  have hnl : n ∉ l := by
    intro hmem
    obtain ⟨y, hy, hzero⟩ := (h.queued n).mp hmem
    rw [hw] at hy
    obtain rfl := Option.some.inj hy
    exact hsigno hzero
  have hwaiters : ∀ y, y ≠ n → (S.finish t n w.info).waiters y = S.waiters y := fun y hy =>
    Function.update_of_ne hy _ _
  have hnone : (S.finish t n w.info).waiters n = none := Function.update_self _ _ _
  constructor
  · exact h.nodup
  · apply h.linked.congr
    · intro y hy
      have hyn : y ≠ n := by
        rintro rfl
        exact hnl hy
      rw [next, next, hwaiters y hyn]
    · intro y hy
      have hyn : y ≠ n := by
        rintro rfl
        exact hnl hy
      rw [prev, prev, hwaiters y hyn]
  · intro y
    by_cases hy : y = n
    · subst hy
      simp [Queued, hnone, hnl]
    · rw [Queued, hwaiters y hy]
      exact h.queued y
  · intro y v hv hsigno
    by_cases hy : y = n
    · rw [hy, hnone] at hv
      cases hv
    · rw [hwaiters y hy] at hv
      exact h.wanted y v hv hsigno
  · intro u y
    have hcall := h.call u y
    have hpop : (S.finish t n w.info).calls u =
        if u = t then rest.filterMap Frame.waiter else S.calls u := calls_pop hframes u
    rw [hpop]
    by_cases hu : u = t
    · subst hu
      rw [hcalls, List.count_cons] at hcall
      rw [if_pos rfl]
      by_cases hy : y = n
      · subst hy
        simp only [hw, Option.map_some, hss, BEq.rfl, if_true] at hcall
        rw [hnone]
        simp only [Option.map_none, reduceCtorEq, if_false]
        omega
      · rw [hwaiters y hy, ← hcall]
        simp [Ne.symm hy]
    · rw [if_neg hu]
      by_cases hy : y = n
      · subst hy
        rw [hcall, hw, hnone]
        simp [hss, Ne.symm hu]
      · rw [hwaiters y hy, hcall]
  · intro u y hy
    apply h.leaving u y
    simp only [Signals.finish, pop_frames, Function.update_apply] at hy
    split at hy
    · rename_i hu
      rw [hu]
      exact List.mem_of_mem_tail hy
    · exact hy
  · intro y v hv
    by_cases hy : y = n
    · rw [hy]
      exact h.used n w hw
    · rw [hwaiters y hy] at hv
      exact h.used y v hv
  · intro y hlt
    obtain ⟨st, hpath, hstage⟩ := h.history y hlt
    by_cases hy : y = n
    · subst hy
      rw [hw] at hstage
      have hhistory : (S.finish t y w.info).history y = S.history y ++ [.returned w.info] :=
        Function.update_self _ _ _
      rw [hhistory, hnone]
      cases st with
      | queued => exact absurd hstage hsigno
      | given si =>
          obtain ⟨rfl, -⟩ := hstage
          exact ⟨.returned w.info, hpath.append (.single (.returned _)), trivial⟩
      | returned si => cases hstage
    · have hhistory : (S.finish t n w.info).history y = S.history y :=
        Function.update_of_ne hy _ _
      rw [hhistory, hwaiters y hy]
      exact ⟨st, hpath, hstage⟩
  · intro y hlt
    have hy : y ≠ n := by
      rintro rfl
      have hlt' := h.used y w hw
      have hcount : (S.finish t y w.info).count = S.count := rfl
      omega
    have hhistory : (S.finish t n w.info).history y = S.history y := Function.update_of_ne hy _ _
    rw [hhistory]
    exact h.fresh y hlt

end Calls

end Signals

end LibPthread.Signal
