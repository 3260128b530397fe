import LibPthread.Concurrency.Custody
import LibPthread.Concurrency.System
import LibPthread.Thread.Structures

/-!
# The thread table

Threads that run `__pthread_alloc`, the publishing store of `__pthread_create_internal` and
`__pthread_dealloc` concurrently. The steps are the sections under `__pthread_threads_lock`
and `__pthread_free_threads_lock` and the code between them; the Boolean of a step is `true`
when the memory allocation of the step fails, or the creation fails later.

A structure is in service from the publishing store on, until `__pthread_dealloc` is called
on it. The log tells which structures are in service, so that calls of `__pthread_dealloc`
at most once for every allocation are those made on structures in service.
-/

open Concurrency

namespace LibPthread.Thread.Table

/-- The control points. `scan` is the start of `__pthread_create_internal`, called with the
attribute `setup`; `junk` are the contents of the memory that `malloc` will return. -/
inductive Loc where
  | scan (junk : Pthread) (setup : Attr)
  | recycle (p : Nat) (setup : Attr)
  | malloc (junk : Pthread) (setup : Attr)
  | slot (p : Nat) (setup : Attr)
  | grow (p : Nat) (max_threads : Nat) (setup : Attr)
  | install (p : Nat) (max_threads : Nat) (setup : Attr)
  | prepare (p : Nat) (setup : Attr)
  | publish (p : Nat)
  | stages (p : Nat) (rest : List Stage)
  deriving DecidableEq, Repr

/-- The results of the calls: the structure created, or an error. -/
inductive Ret where
  | created (p : Nat)
  | error (e : Errno)
  | deallocated
  deriving DecidableEq, Repr

/-- The steps. -/
def step (l : Loc) (fails : Bool) (L : Task) : Outcome Task Loc Ret :=
  match l with
  | .scan junk setup =>
    match L.takeFree with
    | some (p, L') => .goto L' (.recycle p setup)
    | none => .goto L (.malloc junk setup)
  | .recycle p setup =>
    .goto (((L.threadHalt p).dropTls p).initializePthread p true) (.prepare p setup)
  | .malloc junk setup =>
    if fails then .ret L (.error .ENOMEM)
    else .goto ((L.malloc junk).initializePthread L.heap false) (.slot L.heap setup)
  | .slot p setup =>
    if L.table.num < L.table.max then
      match L.takeSlot p with
      | none => .fault
      | some L' => .goto L' (.prepare p setup)
    else .goto L (.grow p L.table.max setup)
  | .grow p max_threads setup =>
    if fails then .ret L (.error .ENOMEM) else .goto L (.install p max_threads setup)
  | .install p max_threads setup =>
    -- somebody else may have enlarged the table while no lock was held
    if max_threads ≠ L.table.max then .goto L (.slot p setup)
    else
      match L.growTable p with
      | none => .fault
      | some L' => .goto L' (.prepare p setup)
  | .prepare p setup =>
    .goto (L.initThread p setup) (if fails then .stages p Stage.dealloc else .publish p)
  | .publish p =>
    match L.publish p with
    | none => .fault
    | some L' =>
      if fails then .goto L' (.stages p (.setid :: Stage.dealloc)) else .ret L' (.created p)
  | .stages _ [] => .ret L .deallocated
  | .stages p (st :: rest) =>
    match st.run L p with
    | none => .fault
    | some L' => .goto L' (.stages p rest)

/-- A call starts a creation, or it is a call of `__pthread_dealloc`. -/
def entry : Loc → Bool
  | .scan _ _ => true
  | .stages _ rest => rest = Stage.dealloc
  | _ => false

/-- The machine of the concurrent allocations and deallocations. -/
def machine (T : Type) : Machine T Task Loc Ret where
  entry := entry
  step _ := step

/-- The states of the system. -/
abbrev Sys (T : Type) := State T Task Loc Ret

variable {T : Type}

/-- The structure `p` is in service: it was published, and `__pthread_dealloc` has not been
called on it since. -/
def live (p : Nat) : List (Event T Loc Ret) → Bool
  | [] => false
  | .ret _ (.publish q) _ :: log => p = q || live p log
  | .call _ (.stages q _) :: log => p ≠ q && live p log
  | _ :: log => live p log

/-- `__pthread_alloc` has returned the structure `p`. -/
def Allocated (p : Nat) (log : List (Event T Loc Ret)) : Prop :=
  ∃ t l setup, Event.goto t l (.prepare p setup) ∈ log

/-- `__pthread_dealloc` is called at most once for every allocation of a structure. -/
def OnceEach (s : Sys T) (a : Label T Loc) : Prop :=
  (match a with
  | .call _ (.stages p _) => live p s.log
  | _ => true) = true

instance (s : Sys T) (a : Label T Loc) : Decidable (OnceEach s a) :=
  inferInstanceAs (Decidable (_ = true))

/-- What a thread at the control point has in its hands. -/
def Loc.own : Loc → Own Nat
  | .scan _ _ => .nothing
  | .malloc _ _ => .nothing
  | .slot p _ => .fresh p
  | .grow p _ _ => .fresh p
  | .install p _ _ => .fresh p
  | .recycle p _ => .held p
  | .prepare p _ => .held p
  | .publish p => .held p
  | .stages p rest =>
    if .enqueue ∈ rest then .held p else if .terminate ∈ rest then .leaving p else .nothing

/-- The structure is in use: a thread has it between its allocation and the enqueue of its
deallocation, or it is in service. -/
def InUse (s : Sys T) (p : Nat) : Prop :=
  live p s.log = true ∨ ∃ t l, s.loc t = some l ∧ l.own = .held p

/-! ### The table and the identifiers -/

/-- The table is well formed: the entries in use are those that were written. -/
structure Wf (t : Table) : Prop where
  num_le : t.num ≤ t.max
  length : t.threads.length = t.max
  written : ∀ i, i < t.max → (t.threads[i]? = some .unwritten ↔ t.num ≤ i)

/-- The adopted structures have identifiers of their own, which name them in the table. -/
structure Registered (L : Task) (known : Nat → Prop) : Prop where
  wf : L.table.Wf
  entry : ∀ i p, L.table.threads[i]? = some (.entry p) →
    (L.structs p).thread = i + 1 ∧ known p
  range : ∀ p, known p → 1 ≤ (L.structs p).thread ∧ (L.structs p).thread ≤ L.table.num
  distinct : ∀ p q, known p → known q → (L.structs p).thread = (L.structs q).thread → p = q

section Registered

variable {L L' : Task} {known known' : Nat → Prop} {p : Nat}

theorem Registered.congr (h : Registered L known) (htable : L'.table = L.table)
    (hknown : ∀ q, known' q ↔ known q)
    (hthread : ∀ q, known q → (L'.structs q).thread = (L.structs q).thread) :
  Registered L' known'
  := by
  constructor
  · rw [htable]
    apply h.wf
  · intro i q hq
    rw [htable] at hq
    obtain ⟨hid, hk⟩ := h.entry i q hq
    rw [hthread q hk, hknown]
    use hid, hk
  · intro q hq
    rw [hknown] at hq
    rw [hthread q hq, htable]
    apply h.range q hq
  · intro q r hq hr
    rw [hknown] at hq hr
    rw [hthread q hq, hthread r hr]
    apply h.distinct q r hq hr

/-- A store in the entry of an adopted structure is in range, and changes that entry only. -/
theorem Registered.store (h : Registered L known) (hp : known p) {e : Slot}
    (he : e = .null ∨ e = .entry p) :
  ∃ t, L.table.set (L.structs p).thread e = some t ∧ Registered { L with table := t } known
  := by
  obtain ⟨hlo, hhi⟩ := h.range p hp
  have hnum := h.wf.num_le
  have hlen := h.wf.length
  refine ⟨{ L.table with threads := L.table.threads.set ((L.structs p).thread - 1) e }, ?_, ?_⟩
  · rw [Table.set, if_pos]
    omega
  · constructor
    · constructor
      · apply hnum
      · simpa using hlen
      · intro i hi
        have hwritten := h.wf.written i hi
        simp only [List.getElem?_set]
        split
        · rename_i heq
          rw [if_pos (by omega)]
          constructor
          · rcases he with rfl | rfl <;> simp
          · omega
        · apply hwritten
    · intro i q hq
      simp only [List.getElem?_set] at hq
      split at hq
      · rename_i heq
        rw [if_pos (by omega)] at hq
        rcases he with rfl | rfl
        · cases hq
        · obtain rfl : p = q := by simpa using hq
          refine ⟨?_, hp⟩
          simp only
          omega
      · apply h.entry i q hq
    · apply h.range
    · apply h.distinct

/-- A well-formed table with a free slot hands it out. -/
theorem takeSlot_eq (h : L.table.Wf) (hroom : L.table.num < L.table.max) (p : Nat) :
  L.takeSlot p = some
    { L.modify p fun q => { q with thread := 1 + L.table.num } with
      table := ⟨L.table.threads.set L.table.num .null, L.table.max, L.table.num + 1⟩ }
  := by
  have hlen := h.length
  rw [Task.takeSlot, Table.take, Table.set, if_pos (by simp only; omega)]
  simp [Nat.add_comm 1]

/-- A structure that was not adopted before gets an identifier of its own. -/
theorem Registered.takeSlot (h : Registered L known) (hroom : L.table.num < L.table.max)
    (hp : ¬ known p) (hL : L.takeSlot p = some L') :
  Registered L' (fun q => q = p ∨ known q)
  := by
  rw [takeSlot_eq h.wf hroom] at hL
  obtain rfl := Option.some.inj hL
  have hlen := h.wf.length
  have hne : ∀ q, known q → q ≠ p := by
    rintro q hq rfl
    apply hp hq
  constructor
  · constructor
    · simp only
      omega
    · simpa using hlen
    · intro i hi
      have hwritten := h.wf.written i hi
      simp only [List.getElem?_set]
      split
      · rw [if_pos (by omega)]
        constructor
        · simp
        · omega
      · rw [hwritten]
        omega
  · intro i q hq
    simp only [List.getElem?_set] at hq
    split at hq
    · rw [if_pos (by omega)] at hq
      cases hq
    · obtain ⟨hq', hk⟩ := h.entry i q hq
      rw [Task.modify_structs, Function.update_of_ne (hne q hk)]
      use hq', .inr hk
  · rintro q (rfl | hq)
    · simp only [Task.modify_structs, Function.update_self]
      omega
    · have hrange := h.range q hq
      simp only [Task.modify_structs, Function.update_of_ne (hne q hq)]
      omega
  · rintro q r (rfl | hq) (rfl | hr) heq
    · rfl
    · have hrange := h.range r hr
      simp only [Task.modify_structs, Function.update_self,
        Function.update_of_ne (hne r hr)] at heq
      omega
    · have hrange := h.range q hq
      simp only [Task.modify_structs, Function.update_self,
        Function.update_of_ne (hne q hq)] at heq
      omega
    · simp only [Task.modify_structs, Function.update_of_ne (hne q hq),
        Function.update_of_ne (hne r hr)] at heq
      apply h.distinct q r hq hr heq

/-- An enlarged table keeps the entries and has room. -/
theorem Wf.enlarge {t : Table} (h : t.Wf) :
  (t.enlarge (newMax t.max)).Wf ∧ t.num < newMax t.max ∧
    ∀ i, i < t.max → (t.enlarge (newMax t.max)).threads[i]? = t.threads[i]?
  := by
  have hnum := h.num_le
  have hlen := h.length
  have hmax : t.max < newMax t.max := by
    rw [newMax]
    split <;> omega
  have htake : (t.threads.take t.max).length = t.max := by
    simp [hlen]
  have hold : ∀ i, i < t.max →
      (t.enlarge (newMax t.max)).threads[i]? = t.threads[i]? := by
    intro i hi
    simp only [Table.enlarge]
    rw [List.getElem?_append_left (by omega), List.getElem?_take_of_lt hi]
  refine ⟨⟨?_, ?_, ?_⟩, by omega, hold⟩
  · simp only [Table.enlarge]
    omega
  · simp only [Table.enlarge, List.length_append, htake, List.length_replicate]
    omega
  · intro i hi
    simp only [Table.enlarge] at hi
    rcases Nat.lt_or_ge i t.max with hlt | hge
    · rw [hold i hlt]
      apply h.written i hlt
    · simp only [Table.enlarge]
      rw [List.getElem?_append_right (by omega), htake, List.getElem?_replicate]
      rw [if_pos (by omega)]
      simp
      omega

theorem Registered.enlarge (h : Registered L known) :
  Registered { L with table := L.table.enlarge (newMax L.table.max) } known
  := by
  obtain ⟨hwf, -, hold⟩ := h.wf.enlarge
  constructor
  · apply hwf
  · intro i p hp
    simp only at hp
    rcases Nat.lt_or_ge i L.table.max with hlt | hge
    · rw [hold i hlt] at hp
      apply h.entry i p hp
    · -- the new part of the table was never written
      have hi : i < (L.table.enlarge (newMax L.table.max)).max := by
        rw [← hwf.length]
        apply (List.getElem?_eq_some_iff.mp hp).1
      have hnum := h.wf.num_le
      rw [(hwf.written i hi).mpr (by simp only [Table.enlarge]; omega)] at hp
      cases hp
  · apply h.range
  · apply h.distinct

end Registered

/-! ### What the steps preserve -/

/-- Where the structures are. -/
def custody (s : Sys T) : Custody T Nat where
  own t := (s.loc t).elim .nothing Loc.own
  free := s.shared.freeThreads
  live p := live p s.log = true

/-- The structure whose state the thread has set, and which it has not terminated yet. -/
def Loc.started : Loc → Option Nat
  | .publish p => some p
  | .stages p (_ :: _) => some p
  | _ => none

/-- The state of the structure is set, and the structure is not terminated yet. -/
def Active (s : Sys T) (p : Nat) : Prop :=
  live p s.log = true ∨ ∃ t l, s.loc t = some l ∧ l.started = some p

/-- The invariant of the table. -/
structure Inv (s : Sys T) : Prop where
  custody : (custody s).Sound
  registered : Registered s.shared (Table.custody s).Known
  heap : ∀ p, (Table.custody s).Known p ∨ (∃ t, ((Table.custody s).own t).object = some p) →
    p < s.shared.heap
  allocated : ∀ p, Allocated p s.log → (Table.custody s).Known p
  active : ∀ p, Active s p → (s.shared.structs p).state ≠ .terminated
  rest : ∀ t p rest, s.loc t = some (.stages p rest) → rest <:+ .setid :: Stage.dealloc

/-- The stages that are left of a deallocation. -/
theorem suffix_cases {rest : List Stage} (h : rest <:+ .setid :: Stage.dealloc) :
  rest = .setid :: Stage.dealloc ∨ rest = Stage.dealloc ∨
    rest = [.setid, .broadcast, .enqueue, .terminate] ∨
    rest = [.broadcast, .enqueue, .terminate] ∨ rest = [.enqueue, .terminate] ∨
    rest = [.terminate] ∨ rest = []
  := by
  simpa [Stage.dealloc, List.suffix_cons_iff] using h

section Inv

variable {s : Sys T} {t : T} {l l' : Loc} {L : Task} {p : Nat}

theorem custody_own (hl : s.loc t = some l) :
  (custody s).own t = l.own
  := by
  simp [custody, hl]

theorem Inv.object_of_started (h : Inv s) (hl : s.loc t = some l) (hp : l.started = some p) :
  l.own.object = some p
  := by
  cases l with
  | publish q =>
      obtain rfl : q = p := by simpa [Loc.started] using hp
      rfl
  | stages q rest =>
      rcases suffix_cases (h.rest t q rest hl) with rfl | rfl | rfl | rfl | rfl | rfl | rfl
      all_goals
        simp_all [Loc.started, Loc.own, Own.object, Stage.dealloc]
  | _ => cases hp

variable [DecidableEq T]

theorem custody_goto :
  custody (s.goto t l L l') =
    ⟨Function.update (custody s).own t l'.own, L.freeThreads, (custody s).live⟩
  := by
  simp only [custody, State.goto_loc, State.goto_shared, State.goto_log, live]
  congr 1
  funext u
  rcases eq_or_ne u t with rfl | hu
  · simp
  · simp [hu]

theorem custody_ret {r : Ret} :
  custody (s.ret t l L r) =
    ⟨Function.update (custody s).own t .nothing, L.freeThreads,
      fun p => live p (.ret t l r :: s.log) = true⟩
  := by
  simp only [custody, State.ret_loc, State.ret_shared, State.ret_log]
  congr 1
  funext u
  rcases eq_or_ne u t with rfl | hu
  · simp
  · simp [hu]

theorem custody_call :
  custody (s.call t l) =
    ⟨Function.update (custody s).own t l.own, s.shared.freeThreads,
      fun p => live p (.call t l :: s.log) = true⟩
  := by
  simp only [custody, State.call_loc, State.call_shared, State.call_log]
  congr 1
  funext u
  rcases eq_or_ne u t with rfl | hu
  · simp
  · simp [hu]

omit [DecidableEq T] in
theorem allocated_goto {log : List (Event T Loc Ret)} (h : Allocated p (.goto t l l' :: log)) :
  Allocated p log ∨ ∃ setup, some l' = some (.prepare p setup)
  := by
  obtain ⟨u, k, setup, hmem⟩ := h
  rcases List.mem_cons.mp hmem with heq | hmem
  · cases heq
    right
    use setup
  · left
    use u, k, setup

omit [DecidableEq T] in
theorem allocated_call {log : List (Event T Loc Ret)} (h : Allocated p (.call t l :: log)) :
  Allocated p log
  := by
  obtain ⟨u, k, setup, hmem⟩ := h
  rcases List.mem_cons.mp hmem with heq | hmem
  · cases heq
  · use u, k, setup

omit [DecidableEq T] in
theorem allocated_ret {log : List (Event T Loc Ret)} {r : Ret}
    (h : Allocated p (.ret t l r :: log)) :
  Allocated p log
  := by
  obtain ⟨u, k, setup, hmem⟩ := h
  rcases List.mem_cons.mp hmem with heq | hmem
  · cases heq
  · use u, k, setup

/-- A step of thread `t` keeps the invariant if it keeps its parts for the structure in its
hands: it terminates no other structure. -/
theorem Inv.move {s' : Sys T} {o : Option Loc} (h : Inv s)
    (hloc : s'.loc = Function.update s.loc t o)
    (hsound : (Table.custody s').Sound)
    (hreg : Registered s'.shared (Table.custody s').Known)
    (hgrow : ∀ p, (Table.custody s).Known p → (Table.custody s').Known p)
    (hlog : ∀ p, Allocated p s'.log →
      Allocated p s.log ∨ ∃ setup, o = some (.prepare p setup))
    (hheap : s.shared.heap ≤ s'.shared.heap)
    (hknown : ∀ p, (Table.custody s').Known p ∨ ((Table.custody s').own t).object = some p →
      p < s'.shared.heap)
    (hstate : ∀ p, (s'.shared.structs p).state = .terminated →
      (s.shared.structs p).state = .terminated ∨
        ((Table.custody s).own t).object = some p ∨ s.shared.heap ≤ p)
    (hlive : ∀ p, live p s'.log = true →
      live p s.log = true ∨ (s'.shared.structs p).state ≠ .terminated)
    (hself : ∀ l p, o = some l → l.started = some p →
      (s'.shared.structs p).state ≠ .terminated)
    (hrest : ∀ p rest, o = some (.stages p rest) → rest <:+ .setid :: Stage.dealloc) :
  Inv s'
  := by
  have hown : ∀ u, u ≠ t → (Table.custody s').own u = (Table.custody s).own u := by
    intro u hu
    simp [Table.custody, hloc, hu]
  constructor
  · apply hsound
  · apply hreg
  · rintro p (hp | ⟨u, hu⟩)
    · apply hknown p (.inl hp)
    · rcases eq_or_ne u t with rfl | hut
      · apply hknown p (.inr hu)
      · rw [hown u hut] at hu
        apply lt_of_lt_of_le (h.heap p (.inr ⟨u, hu⟩)) hheap
  · intro p hp
    rcases hlog p hp with hp | ⟨setup, ho⟩
    · apply hgrow p (h.allocated p hp)
    · refine .inr (.inr ⟨t, ?_⟩)
      simp [Table.custody, hloc, ho, Loc.own]
  · rintro p (hp | ⟨u, l, hl, hp⟩) hterm
    · rcases hlive p hp with hbefore | hnew
      · rcases hstate p hterm with hold | hobj | hout
        · apply h.active p (.inl hbefore) hold
        · apply (h.custody.placed t).not_live hobj hbefore
        · have := h.heap p (.inl (.inr (.inl hbefore)))
          omega
      · apply hnew hterm
    · rcases eq_or_ne u t with rfl | hut
      · apply hself l p _ hp hterm
        rw [← hl, hloc, Function.update_self]
      · rw [hloc, Function.update_of_ne hut] at hl
        have hobj := h.object_of_started hl hp
        rw [← custody_own hl] at hobj
        rcases hstate p hterm with hold | hobj' | hout
        · apply h.active p (.inr ⟨u, l, hl, hp⟩) hold
        · apply hut
          apply h.custody.unique u t p hobj hobj'
        · have := h.heap p (.inr ⟨u, hobj⟩)
          omega
  · intro u p rest hu
    rcases eq_or_ne u t with rfl | hut
    · apply hrest p rest
      rw [← hu, hloc, Function.update_self]
    · rw [hloc, Function.update_of_ne hut] at hu
      apply h.rest u p rest hu

omit [DecidableEq T] in
/-- No thread is about to terminate a structure that is terminated. -/
theorem Inv.not_leaving (h : Inv s) (hp : (s.shared.structs p).state = .terminated) (u : T) :
  (Table.custody s).own u ≠ .leaving p
  := by
  intro hu
  cases hl : s.loc u with
  | none => simp [Table.custody, hl] at hu
  | some l =>
      rw [custody_own hl] at hu
      cases l with
      | stages q rest =>
          apply h.active p (.inr ⟨u, _, hl, _⟩) hp
          rcases rest with _ | ⟨st, rest⟩
          · simp [Loc.own] at hu
          · simp only [Loc.own] at hu
            split at hu
            · cases hu
            · split at hu
              · cases hu
                rfl
              · cases hu
      | _ => cases hu

/-- A step that moves no structure and terminates none. -/
theorem Inv.keep (h : Inv s) (hl : s.loc t = some l) (hown : l'.own = l.own)
    (hreg : Registered L (Table.custody s).Known)
    (hfree : L.freeThreads = s.shared.freeThreads) (hheap : L.heap = s.shared.heap)
    (hstate : ∀ p, (L.structs p).state = .terminated →
      (s.shared.structs p).state = .terminated)
    (hself : ∀ p, l'.started = some p → (L.structs p).state ≠ .terminated)
    (hrest : ∀ p rest, l' = .stages p rest → rest <:+ .setid :: Stage.dealloc) :
  Inv (s.goto t l L l')
  := by
  have hcustody : Table.custody (s.goto t l L l') = Table.custody s := by
    rw [custody_goto, hown, ← custody_own hl, Function.update_eq_self, hfree]
    rfl
  apply h.move rfl
  · rw [hcustody]
    apply h.custody
  · rw [hcustody]
    apply hreg
  · rw [hcustody]
    exact fun _ hp => hp
  · intro p hp
    apply allocated_goto hp
  · rw [State.goto_shared, hheap]
  · intro p hp
    rw [hcustody] at hp
    rw [State.goto_shared, hheap]
    apply h.heap p
    rcases hp with hp | hp
    · left
      apply hp
    · right
      use t
  · intro p hp
    left
    apply hstate p hp
  · intro p hp
    left
    apply hp
  · rintro _ p ⟨⟩
    apply hself p
  · rintro p rest ⟨⟩
    apply hrest p rest rfl

/-- A thread that puts away a structure it has not adopted, or no structure. -/
theorem Inv.drop {s' : Sys T} {o : Option Loc} (h : Inv s)
    (hloc : s'.loc = Function.update s.loc t o) (hshared : s'.shared = s.shared)
    (hlive : ∀ p, live p s'.log = live p s.log)
    (hlog : ∀ p, Allocated p s'.log →
      Allocated p s.log ∨ ∃ setup, o = some (.prepare p setup))
    (ho : ∀ l, o = some l → l.own = .nothing ∧ l.started = none ∧ ∀ p rest, l ≠ .stages p rest)
    (hheld : ∀ p, (Table.custody s).own t ≠ .held p) :
  Inv s'
  := by
  have hcustody : Table.custody s' = ⟨Function.update (Table.custody s).own t .nothing,
      (Table.custody s).free, (Table.custody s).live⟩ := by
    simp only [Table.custody, hloc, hshared, hlive]
    congr 1
    funext u
    rcases eq_or_ne u t with rfl | hu
    · simp only [Function.update_self]
      cases o with
      | none => rfl
      | some l => apply (ho l rfl).1
    · simp [hu]
  have hknown : ∀ q, (Table.custody s').Known q ↔ (Table.custody s).Known q := by
    intro q
    rw [hcustody]
    apply Custody.known_update
    intro r
    simp [hheld r]
  apply h.move hloc
  · rw [hcustody]
    apply h.custody.drop
  · rw [hshared]
    apply h.registered.congr rfl hknown (fun _ _ => rfl)
  · intro p
    apply (hknown p).mpr
  · apply hlog
  · rw [hshared]
  · rintro p (hp | hp)
    · rw [hshared]
      apply h.heap p (.inl ((hknown p).mp hp))
    · rw [hcustody] at hp
      simp [Own.object] at hp
  · intro p hp
    left
    rw [← hshared]
    apply hp
  · intro p hp
    left
    rw [← hlive]
    apply hp
  · intro l p hl hp
    rw [(ho l hl).2.1] at hp
    cases hp
  · intro p rest hl
    apply absurd rfl ((ho _ hl).2.2 p rest)

/-- A free structure is taken. -/
theorem Inv.scan {junk : Pthread} {setup : Attr} (h : Inv s)
    (hl : s.loc t = some (.scan junk setup)) (hL : s.shared.takeFree = some (p, L)) :
  Inv (s.goto t (.scan junk setup) L (.recycle p setup))
  := by
  rw [Task.takeFree] at hL
  split at hL
  · cases hL
  · rename_i q hq
    cases hL
    have hmem := List.mem_of_find?_eq_some hq
    have hterm : (s.shared.structs p).state = .terminated := by
      simpa using List.find?_some hq
    have hown : (Table.custody s).own t = .nothing := custody_own hl
    have hknown : ∀ q, Custody.Known
        ⟨Function.update (Table.custody s).own t (.held p), s.shared.freeThreads.erase p,
          (Table.custody s).live⟩ q ↔ (Table.custody s).Known q := by
      intro q
      apply Custody.known_update
      intro r
      have := h.custody.nodup.mem_erase_iff (a := p) (b := r)
      rw [hown]
      grind [Table.custody]
    apply h.move rfl
    all_goals
      try rw [custody_goto]
    · apply h.custody.take hmem (h.not_leaving hterm)
    · refine h.registered.congr ?_ hknown (fun _ _ => ?_)
      · rfl
      · rfl
    · intro q
      apply (hknown q).mpr
    · intro q hq
      apply allocated_goto hq
    · apply le_rfl
    · rintro q (hq | hq)
      · apply h.heap q (.inl ((hknown q).mp hq))
      · obtain rfl : p = q := by simpa [Loc.own, Own.object] using hq
        apply h.heap p (.inl (.inl hmem))
    · intro q hq
      left
      apply hq
    · intro q hq
      left
      apply hq
    · rintro _ q ⟨⟩ ⟨⟩
    · rintro q rest ⟨⟩

/-- A structure is obtained from `malloc`. -/
theorem Inv.malloc {junk : Pthread} {setup : Attr} (h : Inv s)
    (hl : s.loc t = some (.malloc junk setup)) :
  Inv (s.goto t (.malloc junk setup)
    ((s.shared.malloc junk).initializePthread s.shared.heap false) (.slot s.shared.heap setup))
  := by
  have hout : ∀ u, ((Table.custody s).own u).object ≠ some s.shared.heap := by
    intro u hu
    apply lt_irrefl _ (h.heap _ (.inr ⟨u, hu⟩))
  have hnew : ¬ (Table.custody s).Known s.shared.heap := by
    intro hp
    apply lt_irrefl _ (h.heap _ (.inl hp))
  have hown : (Table.custody s).own t = .nothing := custody_own hl
  have hknown : ∀ q, Custody.Known
      ⟨Function.update (Table.custody s).own t (.fresh s.shared.heap),
        s.shared.freeThreads, (Table.custody s).live⟩ q ↔ (Table.custody s).Known q := by
    intro q
    apply Custody.known_update
    intro r
    rw [hown]
    simp [Table.custody]
  have hpart : ∀ {α : Type} (part : Pthread → α), (∀ r : Pthread,
      part { r with cancelEnabled := true, cancelPending := false } = part r) →
      (∀ r : Pthread, part { r with stack := false, stateCond := 0, tcb := none } = part r) →
      ∀ q, q ≠ s.shared.heap →
      part ((((s.shared.malloc junk).initializePthread s.shared.heap false)).structs q) =
        part (s.shared.structs q) := by
    intro α part h₁ h₂ q hq
    rw [Task.initializePthread_part _ _ _ part h₁ (fun r _ => h₂ r), Task.malloc_structs,
      Function.update_of_ne hq]
  apply h.move rfl
  all_goals
    try rw [custody_goto, Task.initializePthread_freeThreads]
  · apply h.custody.obtain hnew hout
  · apply h.registered.congr (by simp) hknown
    intro q hq
    apply hpart Pthread.thread (fun _ => rfl) (fun _ => rfl)
    rintro rfl
    apply hnew hq
  · intro q
    apply (hknown q).mpr
  · intro q hq
    apply allocated_goto hq
  · simp
  · rintro q (hq | hq)
    · have := h.heap q (.inl ((hknown q).mp hq))
      simp
      omega
    · obtain rfl : s.shared.heap = q := by simpa [Loc.own, Own.object] using hq
      simp
  · intro q hq
    rcases eq_or_ne q s.shared.heap with rfl | hne
    · right
      right
      apply le_rfl
    · left
      rw [← hpart Pthread.state (fun _ => rfl) (fun _ => rfl) q hne]
      apply hq
  · intro q hq
    left
    apply hq
  · rintro _ q ⟨⟩ ⟨⟩
  · rintro q rest ⟨⟩

/-- The structure gets its identifier. -/
theorem Inv.adopt {setup : Attr} (h : Inv s) (hl : s.loc t = some l) (hown : l.own = .fresh p)
    (hreg : Registered L (fun q => q = p ∨ (Table.custody s).Known q))
    (hfree : L.freeThreads = s.shared.freeThreads) (hheap : L.heap = s.shared.heap)
    (hstate : ∀ q, (L.structs q).state = (s.shared.structs q).state) :
  Inv (s.goto t l L (.prepare p setup))
  := by
  have hfresh : (Table.custody s).own t = .fresh p := by rw [custody_own hl, hown]
  have hknown : ∀ q, Custody.Known
      ⟨Function.update (Table.custody s).own t (.held p), s.shared.freeThreads,
        (Table.custody s).live⟩ q ↔ q = p ∨ (Table.custody s).Known q := by
    intro q
    apply Custody.known_adopt hfresh
  have hp : p < s.shared.heap := by
    apply h.heap p (.inr ⟨t, _⟩)
    rw [hfresh]
    rfl
  apply h.move rfl
  all_goals
    try rw [custody_goto, hfree]
  · apply h.custody.adopt hfresh
  · refine hreg.congr ?_ hknown (fun _ _ => ?_)
    · rfl
    · rfl
  · intro q hq
    apply (hknown q).mpr (.inr hq)
  · intro q hq
    apply allocated_goto hq
  · apply hheap.ge
  · rintro q (hq | hq)
    · rw [State.goto_shared, hheap]
      rcases (hknown q).mp hq with rfl | hq
      · apply hp
      · apply h.heap q (.inl hq)
    · obtain rfl : p = q := by simpa [Loc.own, Own.object] using hq
      rw [State.goto_shared, hheap]
      apply hp
  · intro q hq
    left
    rw [← hstate]
    apply hq
  · intro q hq
    left
    apply hq
  · rintro _ q ⟨⟩ ⟨⟩
  · rintro q rest ⟨⟩

/-- The structure is published, and its creator returns. -/
theorem Inv.publish (h : Inv s) (hl : s.loc t = some (.publish p))
    (hL : s.shared.publish p = some L) :
  Inv (s.ret t (.publish p) L (.created p))
  := by
  have hheld : (Table.custody s).own t = .held p := custody_own hl
  have hp : (Table.custody s).Known p := .inr (.inr ⟨t, hheld⟩)
  obtain ⟨tb, htb, hreg⟩ := h.registered.store hp (.inr rfl)
  rw [Task.publish, htb] at hL
  obtain rfl := Option.some.inj hL
  have hlive : (fun q => live q (.ret t (.publish p) (.created p) :: s.log) = true) =
      fun q => q = p ∨ (Table.custody s).live q := by
    funext q
    simp [live, Table.custody]
  have hknown : ∀ q, Custody.Known ⟨Function.update (Table.custody s).own t .nothing,
      s.shared.freeThreads, fun q => q = p ∨ (Table.custody s).live q⟩ q ↔
      (Table.custody s).Known q := by
    intro q
    apply Custody.known_update
    intro r
    rw [hheld]
    simp only [Table.custody]
    grind
  apply h.move rfl
  all_goals
    try rw [custody_ret, hlive]
  · apply h.custody.serve hheld
  · apply hreg.congr rfl hknown (fun _ _ => rfl)
  · intro q
    apply (hknown q).mpr
  · intro q hq
    left
    apply allocated_ret hq
  · apply le_rfl
  · rintro q (hq | hq)
    · apply h.heap q (.inl ((hknown q).mp hq))
    · simp [Own.object] at hq
  · intro q hq
    left
    apply hq
  · intro q hq
    rcases (iff_of_eq (congrFun hlive q)).mp hq with rfl | hq
    · right
      apply h.active q (.inr ⟨t, _, hl, rfl⟩)
    · left
      apply hq
  · rintro _ q ⟨⟩
  · rintro q rest ⟨⟩

/-- The structure goes to the free list. -/
theorem Inv.enqueue (h : Inv s) (hl : s.loc t = some (.stages p [.enqueue, .terminate])) :
  Inv (s.goto t (.stages p [.enqueue, .terminate])
    { s.shared with freeThreads := p :: s.shared.freeThreads } (.stages p [.terminate]))
  := by
  have hheld : (Table.custody s).own t = .held p := by
    rw [custody_own hl]
    simp [Loc.own]
  have hto : (Loc.stages p [.terminate]).own = .leaving p := by
    simp [Loc.own]
  have hknown : ∀ q, Custody.Known ⟨Function.update (Table.custody s).own t (.leaving p),
      p :: s.shared.freeThreads, (Table.custody s).live⟩ q ↔ (Table.custody s).Known q := by
    intro q
    apply Custody.known_update
    intro r
    rw [hheld]
    simp only [Table.custody]
    grind
  have hactive := h.active p (.inr ⟨t, _, hl, rfl⟩)
  apply h.move rfl
  all_goals
    try rw [custody_goto, hto]
  · apply h.custody.enqueue hheld
  · refine h.registered.congr ?_ hknown (fun _ _ => ?_)
    · rfl
    · rfl
  · intro q
    apply (hknown q).mpr
  · intro q hq
    apply allocated_goto hq
  · apply le_rfl
  · rintro q (hq | hq)
    · apply h.heap q (.inl ((hknown q).mp hq))
    · obtain rfl : p = q := by simpa [Own.object] using hq
      apply h.heap p (.inl (.inr (.inr ⟨t, hheld⟩)))
  · intro q hq
    left
    apply hq
  · intro q hq
    left
    apply hq
  · rintro _ q ⟨⟩ ⟨⟩
    apply hactive
  · rintro q rest ⟨⟩
    simp [Stage.dealloc, List.suffix_cons_iff]

/-- The structure becomes available. -/
theorem Inv.terminate (h : Inv s) (hl : s.loc t = some (.stages p [.terminate])) :
  Inv (s.goto t (.stages p [.terminate])
    (s.shared.modify p fun q => { q with state := .terminated }) (.stages p []))
  := by
  have hleaving : (Table.custody s).own t = .leaving p := by
    rw [custody_own hl]
    simp [Loc.own]
  have hto : (Loc.stages p []).own = .nothing := by
    simp [Loc.own]
  have hknown : ∀ q, Custody.Known ⟨Function.update (Table.custody s).own t .nothing,
      s.shared.freeThreads, (Table.custody s).live⟩ q ↔ (Table.custody s).Known q := by
    intro q
    apply Custody.known_update
    intro r
    rw [hleaving]
    simp [Table.custody]
  apply h.move rfl
  all_goals
    try rw [custody_goto, hto]
  · apply h.custody.drop
  · refine h.registered.congr ?_ hknown (fun q _ => ?_)
    · rfl
    · rw [State.goto_shared]
      apply Task.modify_part Pthread.thread
      intro r
      rfl
  · intro q
    apply (hknown q).mpr
  · intro q hq
    apply allocated_goto hq
  · apply le_rfl
  · rintro q (hq | hq)
    · apply h.heap q (.inl ((hknown q).mp hq))
    · simp [Own.object] at hq
  · intro q hq
    rcases eq_or_ne q p with rfl | hne
    · right
      left
      rw [hleaving]
      rfl
    · left
      simpa [hne] using hq
  · intro q hq
    left
    apply hq
  · rintro _ q ⟨⟩ ⟨⟩
  · rintro q rest ⟨⟩
    apply List.nil_suffix

/-- A structure in service is deallocated, or a creation starts. -/
theorem Inv.call (h : Inv s) (hidle : s.loc t = none) (hentry : entry l = true)
    (hG : OnceEach s (.call t l)) :
  Inv (s.call t l)
  := by
  cases l with
  | scan junk setup =>
      have hloc : (s.call t (.scan junk setup)).loc =
          Function.update s.loc t (some (.scan junk setup)) := rfl
      apply h.drop hloc rfl
      · intro p
        rfl
      · intro p hp
        left
        apply allocated_call hp
      · rintro _ ⟨⟩
        refine ⟨rfl, rfl, ?_⟩
        rintro p rest ⟨⟩
      · simp [Table.custody, hidle]
  | stages p rest =>
      obtain rfl : rest = Stage.dealloc := by simpa [entry] using hentry
      have hp : live p s.log = true := hG
      have hnothing : (Table.custody s).own t = .nothing := by
        simp [Table.custody, hidle]
      have hto : (Loc.stages p Stage.dealloc).own = .held p := by
        simp [Loc.own, Stage.dealloc]
      have hlive : (fun q => live q (.call t (.stages p Stage.dealloc) :: s.log) = true) =
          fun q => q ≠ p ∧ (Table.custody s).live q := by
        funext q
        simp [live, Table.custody]
      have hknown : ∀ q, Custody.Known ⟨Function.update (Table.custody s).own t (.held p),
          s.shared.freeThreads, fun q => q ≠ p ∧ (Table.custody s).live q⟩ q ↔
          (Table.custody s).Known q := by
        intro q
        apply Custody.known_update
        intro r
        rw [hnothing]
        simp only [Table.custody]
        grind
      apply h.move rfl
      all_goals
        try rw [custody_call, hto, hlive]
      · apply h.custody.claim hp
      · refine h.registered.congr ?_ hknown (fun _ _ => ?_)
        · rfl
        · rfl
      · intro q
        apply (hknown q).mpr
      · intro q hq
        left
        apply allocated_call hq
      · apply le_rfl
      · rintro q (hq | hq)
        · apply h.heap q (.inl ((hknown q).mp hq))
        · obtain rfl : p = q := by simpa [Own.object] using hq
          apply h.heap p (.inl (.inr (.inl hp)))
      · intro q hq
        left
        apply hq
      · intro q hq
        left
        apply ((iff_of_eq (congrFun hlive q)).mp hq).2
      · rintro _ q ⟨⟩ ⟨⟩
        apply h.active p (.inl hp)
      · rintro q rest ⟨⟩
        apply List.suffix_cons
  | _ => cases hentry

/-- A store in the table by the thread that holds the structure. -/
theorem Inv.store {e : Slot} (h : Inv s) (hl : s.loc t = some l) (hheld : l.own = .held p)
    (he : e = .null ∨ e = .entry p) (hown : l'.own = .held p) (hstarted : l.started = some p)
    (hself : ∀ q, l'.started = some q → q = p)
    (hrest : ∀ p rest, l' = .stages p rest → rest <:+ .setid :: Stage.dealloc) :
  ∃ tb, s.shared.table.set (s.shared.structs p).thread e = some tb ∧
    Inv (s.goto t l { s.shared with table := tb } l')
  := by
  have hp : (Table.custody s).Known p := by
    refine .inr (.inr ⟨t, ?_⟩)
    rw [custody_own hl, hheld]
  obtain ⟨tb, htb, hreg⟩ := h.registered.store hp he
  use tb, htb
  apply h.keep hl (by rw [hown, hheld]) hreg
  · rfl
  · rfl
  · intro q hq
    apply hq
  · intro q hq
    obtain rfl := hself q hq
    apply h.active q (.inr ⟨t, l, hl, hstarted⟩)
  · apply hrest

/-- The stages of a deallocation fail no assertion and keep the invariant. -/
theorem Inv.stage {st : Stage} {rest : List Stage} (h : Inv s)
    (hl : s.loc t = some (.stages p (st :: rest))) :
  ∃ L, st.run s.shared p = some L ∧
    Inv (s.goto t (.stages p (st :: rest)) L (.stages p rest))
  := by
  have hactive := h.active p (.inr ⟨t, _, hl, rfl⟩)
  have hsuffix := h.rest t p _ hl
  have hnext : ∀ q r, Loc.stages p rest = .stages q r → r <:+ .setid :: Stage.dealloc := by
    rintro q r ⟨⟩
    apply (List.suffix_cons st rest).trans hsuffix
  have hself : ∀ q, (Loc.stages p rest).started = some q → q = p := by
    intro q hq
    cases rest with
    | nil => cases hq
    | cons _ _ =>
        cases hq
        rfl
  have hwf : ∀ L' : Task, L'.table = s.shared.table →
      (∀ q, (L'.structs q).thread = (s.shared.structs q).thread) →
      Registered L' (Table.custody s).Known := by
    intro L' htable hthread
    apply h.registered.congr htable (fun _ => Iff.rfl) (fun q _ => hthread q)
  rcases suffix_cases hsuffix with heq | heq | heq | heq | heq | heq | heq
  · cases heq
    obtain ⟨tb, htb, hinv⟩ := h.store hl rfl (.inl rfl) rfl rfl hself hnext
    use { s.shared with table := tb }
    simp [Stage.run, Task.unpublish, htb, hinv]
  · cases heq
    use s.shared
    refine ⟨by simp [Stage.run, hactive], ?_⟩
    refine h.keep hl ?_ h.registered rfl rfl (fun q hq => hq) ?_ hnext
    · rfl
    · intro q hq
      obtain rfl := hself q hq
      apply hactive
  · cases heq
    obtain ⟨tb, htb, hinv⟩ := h.store hl rfl (.inl rfl) rfl rfl hself hnext
    use { s.shared with table := tb }
    simp [Stage.run, Task.unpublish, htb, hinv]
  · cases heq
    refine ⟨_, rfl, ?_⟩
    have hpart : ∀ {α : Type} (part : Pthread → α),
        (∀ r : Pthread, part { r with stateCond := r.stateCond + 1 } = part r) → ∀ q,
        part ((if (s.shared.structs p).state = .exited then s.shared
          else s.shared.broadcast p).structs q) = part (s.shared.structs q) := by
      intro α part hr q
      split
      · rfl
      · apply Task.modify_part part hr
    refine h.keep hl ?_ ?_ ?_ ?_ ?_ ?_ hnext
    · rfl
    · apply hwf
      · split <;> rfl
      · apply hpart Pthread.thread
        intro r
        rfl
    · split <;> rfl
    · split <;> rfl
    · intro q hq
      rw [hpart Pthread.state (fun r => rfl)] at hq
      apply hq
    · intro q hq
      obtain rfl := hself q hq
      rw [hpart Pthread.state (fun r => rfl)]
      apply hactive
  · cases heq
    have hheld : (Table.custody s).own t = .held p := custody_own hl
    have hfree : p ∉ s.shared.freeThreads := (h.custody.held hheld).1
    exact ⟨_, by rw [Stage.run, if_neg hfree], h.enqueue hl⟩
  · cases heq
    exact ⟨_, rfl, h.terminate hl⟩
  · cases heq

/-- A step between control points that hold the same structure, with nothing else changed. -/
theorem Inv.stay (h : Inv s) (hl : s.loc t = some l) (hown : l'.own = l.own)
    (hstarted : l'.started = none) (hstages : ∀ p rest, l' ≠ .stages p rest) :
  Inv (s.goto t l s.shared l')
  := by
  refine h.keep hl hown h.registered rfl rfl (fun q hq => hq) ?_ ?_
  · intro q hq
    rw [hstarted] at hq
    cases hq
  · intro q rest hq
    exact absurd hq (hstages q rest)

/-- The structure taken from the free list is halted and initialized. -/
theorem Inv.recycle {setup : Attr} (h : Inv s) (hl : s.loc t = some (.recycle p setup)) :
  Inv (s.goto t (.recycle p setup)
    (((s.shared.threadHalt p).dropTls p).initializePthread p true) (.prepare p setup))
  := by
  have hpart : ∀ {α : Type} (part : Pthread → α), (∀ r : Pthread,
      part { r with cancelEnabled := true, cancelPending := false } = part r) →
      (∀ r : Pthread, part { r with tcb := none } = part r) → ∀ q,
      part ((((s.shared.threadHalt p).dropTls p).initializePthread p true).structs q) =
        part (s.shared.structs q) := by
    intro α part h₁ h₂ q
    rw [Task.initializePthread_part _ _ true part h₁ (by simp),
      Task.dropTls_part _ _ part h₂]
    rfl
  refine h.keep hl ?_ ?_ ?_ ?_ ?_ ?_ ?_
  · rfl
  · apply h.registered.congr (by simp) (fun _ => Iff.rfl)
    intro q _
    apply hpart Pthread.thread (fun _ => rfl) (fun _ => rfl)
  · simp
  · simp
  · intro q hq
    rw [hpart Pthread.state (fun _ => rfl) (fun _ => rfl)] at hq
    apply hq
  · rintro q ⟨⟩
  · rintro q rest ⟨⟩

/-- A new structure takes a free slot of the table. -/
theorem Inv.takeSlot {L : Task} {tb : Thread.Table} {setup : Attr} (h : Inv s)
    (hl : s.loc t = some l) (hfresh : l.own = .fresh p)
    (hreg : Registered { s.shared with table := tb } (Table.custody s).Known)
    (hroom : tb.num < tb.max) (hL : Task.takeSlot { s.shared with table := tb } p = some L) :
  Inv (s.goto t l L (.prepare p setup))
  := by
  have hown : (Table.custody s).own t = .fresh p := by
    rw [custody_own hl, hfresh]
  obtain ⟨hfree, hheap, -, -⟩ := Task.takeSlot_frame hL
  apply h.adopt hl hfresh (hreg.takeSlot hroom (h.custody.not_known hown) hL) hfree hheap
  apply Task.takeSlot_part hL Pthread.state (fun _ _ => rfl)

/-- The first assignments of `__pthread_create_internal`. -/
theorem Inv.prepare {setup : Attr} (h : Inv s) (hl : s.loc t = some (.prepare p setup))
    (hown : l'.own = .held p) (hself : ∀ q, l'.started = some q → q = p)
    (hrest : ∀ q rest, l' = .stages q rest → rest <:+ .setid :: Stage.dealloc) :
  Inv (s.goto t (.prepare p setup) (s.shared.initThread p setup) l')
  := by
  have hstate : ((s.shared.initThread p setup).structs p).state ≠ .terminated := by
    simp only [Task.initThread, Task.modify_structs, Function.update_self]
    split <;> simp
  refine h.keep hl hown ?_ rfl rfl ?_ ?_ hrest
  · refine h.registered.congr ?_ (fun _ => Iff.rfl) (fun q _ => ?_)
    · rfl
    · apply Task.modify_part Pthread.thread
      intro r
      rfl
  · intro q hq
    rcases eq_or_ne q p with rfl | hne
    · apply absurd hq hstate
    · simpa [Task.initThread, hne] using hq
  · intro q hq
    rw [hself q hq]
    apply hstate

/-- A step from one control point to another. -/
theorem Inv.goto {c : Bool} {L : Task} (h : Inv s) (hl : s.loc t = some l)
    (hst : Table.step l c s.shared = .goto L l') :
  Inv (s.goto t l L l')
  := by
  cases l with
  | scan junk setup =>
      simp only [Table.step] at hst
      split at hst
      · rename_i p L' hL
        cases hst
        apply h.scan hl hL
      · cases hst
        have hloc : (s.goto t (.scan junk setup) s.shared (.malloc junk setup)).loc =
            Function.update s.loc t (some (.malloc junk setup)) := rfl
        apply h.drop hloc rfl
        · intro p
          rfl
        · intro p hp
          apply allocated_goto hp
        · rintro _ ⟨⟩
          refine ⟨rfl, rfl, ?_⟩
          rintro p rest ⟨⟩
        · simp [Table.custody, hl, Loc.own]
  | recycle p setup =>
      cases hst
      apply h.recycle hl
  | malloc junk setup =>
      simp only [Table.step] at hst
      split at hst
      · cases hst
      · cases hst
        apply h.malloc hl
  | slot p setup =>
      simp only [Table.step] at hst
      split at hst
      · rename_i hroom
        split at hst
        · cases hst
        · rename_i L' hL
          cases hst
          apply h.takeSlot hl rfl h.registered hroom hL
      · cases hst
        refine h.stay hl rfl rfl ?_
        rintro p rest ⟨⟩
  | grow p max_threads setup =>
      simp only [Table.step] at hst
      split at hst
      · cases hst
      · cases hst
        refine h.stay hl rfl rfl ?_
        rintro p rest ⟨⟩
  | install p max_threads setup =>
      simp only [Table.step] at hst
      split at hst
      · cases hst
        refine h.stay hl rfl rfl ?_
        rintro p rest ⟨⟩
      · split at hst
        · cases hst
        · rename_i L' hL
          cases hst
          obtain ⟨-, hroom, -⟩ := h.registered.wf.enlarge
          apply h.takeSlot hl rfl h.registered.enlarge hroom hL
  | prepare p setup =>
      simp only [Table.step] at hst
      cases hst
      apply h.prepare hl
      · split <;> rfl
      · intro q hq
        split at hq <;> cases hq <;> rfl
      · intro q rest hq
        split at hq <;> cases hq
        apply List.suffix_cons
  | publish p =>
      simp only [Table.step] at hst
      split at hst
      · cases hst
      · rename_i L' hL
        split at hst
        · cases hst
          have hself : ∀ q, (Loc.stages p (.setid :: Stage.dealloc)).started = some q →
              q = p := by
            rintro q ⟨⟩
            rfl
          obtain ⟨tb, htb, hinv⟩ := h.store hl rfl (.inr rfl)
            (show (Loc.stages p (.setid :: Stage.dealloc)).own = .held p from rfl) rfl hself
            (by rintro q rest ⟨⟩; apply List.suffix_rfl)
          rw [Task.publish, htb] at hL
          cases hL
          apply hinv
        · cases hst
  | stages p rest =>
      cases rest with
      | nil => cases hst
      | cons st rest =>
          obtain ⟨L', hL, hinv⟩ := h.stage hl
          simp only [Table.step, hL] at hst
          cases hst
          apply hinv

/-- A call that returns. -/
theorem Inv.ret {c : Bool} {L : Task} {r : Ret} (h : Inv s) (hl : s.loc t = some l)
    (hst : Table.step l c s.shared = .ret L r) :
  Inv (s.ret t l L r)
  := by
  -- a thread that holds no structure returns
  have hdrop : L = s.shared → (∀ p, live p (s.ret t l L r).log = live p s.log) →
      (∀ p, l.own ≠ .held p) → Inv (s.ret t l L r) := by
    rintro rfl hlive hheld
    have hloc : (s.ret t l s.shared r).loc = Function.update s.loc t none := rfl
    apply h.drop hloc rfl hlive (fun _ hp => .inl (allocated_ret hp))
    · rintro l' ⟨⟩
    · rw [custody_own hl]
      exact hheld
  cases l with
  | publish p =>
      simp only [Table.step] at hst
      split at hst
      · cases hst
      · rename_i L' hL
        split at hst
        · cases hst
        · cases hst
          apply h.publish hl hL
  | malloc junk setup =>
      simp only [Table.step] at hst
      split at hst
      · cases hst
        exact hdrop rfl (fun _ => rfl) (by simp [Loc.own])
      · cases hst
  | grow p max_threads setup =>
      simp only [Table.step] at hst
      split at hst
      · cases hst
        exact hdrop rfl (fun _ => rfl) (by simp [Loc.own])
      · cases hst
  | stages p rest =>
      cases rest with
      | nil =>
          cases hst
          exact hdrop rfl (fun _ => rfl) (by simp [Loc.own])
      | cons st rest =>
          simp only [Table.step] at hst
          split at hst <;> cases hst
  | scan junk setup =>
      simp only [Table.step] at hst
      split at hst <;> cases hst
  | recycle p setup => cases hst
  | slot p setup =>
      simp only [Table.step] at hst
      split at hst
      · split at hst <;> cases hst
      · cases hst
  | install p max_threads setup =>
      simp only [Table.step] at hst
      split at hst
      · cases hst
      · split at hst <;> cases hst
  | prepare p setup => cases hst

theorem Inv.step {a : Label T Loc} {s' : Sys T} (h : Inv s) (hG : OnceEach s a)
    (hstep : (machine T).Step s a s') :
  Inv s'
  := by
  cases hstep with
  | call hidle hentry => apply h.call hidle hentry hG
  | goto hl hst => apply h.goto hl hst
  | ret hl hst => apply h.ret hl hst

/-- No assertion fails, and every access to the table is in range. -/
theorem Inv.ne_fault (h : Inv s) (hl : s.loc t = some l) (c : Bool) :
  Table.step l c s.shared ≠ .fault
  := by
  intro hst
  cases l with
  | slot p setup =>
      simp only [Table.step] at hst
      split at hst
      · rename_i hroom
        rw [takeSlot_eq h.registered.wf hroom] at hst
        cases hst
      · cases hst
  | install p max_threads setup =>
      obtain ⟨hwf, hroom, -⟩ := h.registered.wf.enlarge
      simp only [Table.step, Task.growTable] at hst
      rw [takeSlot_eq hwf hroom] at hst
      split at hst <;> cases hst
  | publish p =>
      have hheld : (Table.custody s).own t = .held p := custody_own hl
      obtain ⟨tb, htb, -⟩ := h.registered.store (.inr (.inr ⟨t, hheld⟩)) (.inr rfl)
      simp only [Table.step, Task.publish, htb, Option.map_some] at hst
      split at hst <;> cases hst
  | stages p rest =>
      cases rest with
      | nil => cases hst
      | cons st rest =>
          obtain ⟨L', hL, -⟩ := h.stage hl
          simp only [Table.step, hL] at hst
          cases hst
  | scan junk setup =>
      simp only [Table.step] at hst
      split at hst <;> cases hst
  | malloc junk setup =>
      simp only [Table.step] at hst
      split at hst <;> cases hst
  | grow p max_threads setup =>
      simp only [Table.step] at hst
      split at hst <;> cases hst
  | recycle p setup => cases hst
  | prepare p setup => cases hst

end Inv

/-! ### The table of the library -/

section Consistent

variable [DecidableEq T] {s s' : Sys T}

/-- A store does not change the size of the table. -/
theorem set_max {t t' : Table} {thread : Nat} {e : Slot} (h : t.set thread e = some t') :
  t'.max = t.max
  := by
  rw [Table.set] at h
  split at h
  · cases h
    rfl
  · cases h

theorem takeSlot_max {L L' : Task} {p : Nat} (h : L.takeSlot p = some L') :
  L'.table.max = L.table.max
  := by
  obtain ⟨t, ht, rfl⟩ := Option.map_eq_some_iff.mp h
  apply set_max ht

theorem run_max {L L' : Task} {p : Nat} {st : Stage} (h : st.run L p = some L') :
  L'.table.max = L.table.max
  := by
  cases st with
  | setid =>
      obtain ⟨t, ht, rfl⟩ := Option.map_eq_some_iff.mp h
      apply set_max ht
  | stackDealloc =>
      cases h
      rw [Task.stackDealloc]
      split <;> rfl
  | broadcast =>
      cases h
      split <;> rfl
  | assertStack =>
      simp only [Stage.run] at h
      split at h <;> cases h
      rfl
  | assertState =>
      simp only [Stage.run] at h
      split at h <;> cases h
      rfl
  | enqueue =>
      simp only [Stage.run] at h
      split at h <;> cases h
      rfl
  | _ =>
      cases h
      rfl

/-- Only the replacement of the table changes its size. -/
theorem step_max {l : Loc} {c : Bool} {L L' : Task}
    (h : (∃ l', step l c L = .goto L' l') ∨ ∃ r, step l c L = .ret L' r) :
  L'.table.max = L.table.max ∨ ∃ p, L.growTable p = some L'
  := by
  cases l with
  | scan junk setup =>
      left
      simp only [step, Task.takeFree] at h
      grind
  | recycle p setup =>
      left
      rcases h with ⟨l', h⟩ | ⟨r, h⟩
      · cases h
        simp
      · cases h
  | malloc junk setup =>
      left
      rcases h with ⟨l', h⟩ | ⟨r, h⟩
      · simp only [step] at h
        split at h <;> cases h
        simp
      · simp only [step] at h
        split at h <;> cases h
        rfl
  | slot p setup =>
      left
      rcases h with ⟨l', h⟩ | ⟨r, h⟩
      all_goals
        simp only [step] at h
        split at h
      · split at h
        · cases h
        · rename_i hL
          cases h
          apply takeSlot_max hL
      · cases h
        rfl
      · split at h <;> cases h
      · cases h
  | grow p max_threads setup =>
      left
      rcases h with ⟨l', h⟩ | ⟨r, h⟩
      all_goals
        simp only [step] at h
        split at h <;> cases h
        rfl
  | install p max_threads setup =>
      rcases h with ⟨l', h⟩ | ⟨r, h⟩
      all_goals
        simp only [step] at h
        split at h
      · cases h
        left
        rfl
      · split at h
        · cases h
        · rename_i hL
          cases h
          right
          use p
      · cases h
      · split at h <;> cases h
  | prepare p setup =>
      left
      rcases h with ⟨l', h⟩ | ⟨r, h⟩ <;> cases h
      rfl
  | publish p =>
      left
      rcases h with ⟨l', h⟩ | ⟨r, h⟩
      all_goals
        simp only [step] at h
        split at h
        · cases h
        · rename_i hL
          obtain ⟨t, ht, rfl⟩ := Option.map_eq_some_iff.mp hL
          split at h <;> cases h
          apply set_max ht
  | stages p rest =>
      left
      rcases h with ⟨l', h⟩ | ⟨r, h⟩
      · cases rest with
        | nil => cases h
        | cons st rest =>
            simp only [step] at h
            split at h
            · cases h
            · rename_i hL
              cases h
              apply run_max hL
      · cases rest with
        | nil =>
            cases h
            rfl
        | cons st rest =>
            simp only [step] at h
            split at h <;> cases h

/-- Enlarging the table keeps the entries in use. -/
theorem Inv.enlarge {a : Label T Loc} (h : Inv s) (hstep : (machine T).Step s a s')
    (hmax : s'.shared.table.max ≠ s.shared.table.max) :
  ∀ i, i < s.shared.table.num →
    s'.shared.table.threads[i]? = s.shared.table.threads[i]?
  := by
  have hgrow : ∃ p, s.shared.growTable p = some s'.shared := by
    cases hstep with
    | call hidle hentry => apply absurd rfl hmax
    | goto hl hst =>
        rcases step_max (.inl ⟨_, hst⟩) with hsame | hp
        · apply absurd hsame hmax
        · apply hp
    | ret hl hst =>
        rcases step_max (.inr ⟨_, hst⟩) with hsame | hp
        · apply absurd hsame hmax
        · apply hp
  obtain ⟨p, hL⟩ := hgrow
  obtain ⟨hwf, hroom, hold⟩ := h.registered.wf.enlarge
  have hnum := h.registered.wf.num_le
  rw [Task.growTable, takeSlot_eq hwf hroom] at hL
  rw [← Option.some.inj hL]
  intro i hi
  simp only [List.getElem?_set]
  rw [if_neg, hold i (by omega)]
  simp only [Table.enlarge]
  omega

/-- What holds of the thread table: sizes, identifiers, entries, growth and the free list, and
that no access to the table is out of range and no assertion fails. -/
structure Consistent (s : Sys T) : Prop where
  num_le : s.shared.table.num ≤ s.shared.table.max
  length : s.shared.table.max = s.shared.table.threads.length
  range : ∀ p, Allocated p s.log →
    1 ≤ (s.shared.structs p).thread ∧ (s.shared.structs p).thread ≤ s.shared.table.num
  distinct : ∀ p q, Allocated p s.log → Allocated q s.log →
    (s.shared.structs p).thread = (s.shared.structs q).thread → p = q
  entry : ∀ i, i < s.shared.table.num → s.shared.table.threads[i]? = some .null ∨
    ∃ p, s.shared.table.threads[i]? = some (.entry p) ∧ (s.shared.structs p).thread = i + 1
  enlarge : ∀ a s', (machine T).Step s a s' → s'.shared.table.max ≠ s.shared.table.max →
    ∀ i, i < s.shared.table.num →
      s'.shared.table.threads[i]? = s.shared.table.threads[i]?
  nodup : s.shared.freeThreads.Nodup
  free : ∀ p, Allocated p s.log → (p ∈ s.shared.freeThreads ↔ ¬ InUse s p)
  safe : ¬ (machine T).Faults s

omit [DecidableEq T] in
theorem Inv.init (stacksize guardsize pageSize : Nat) (memory : Nat → Pthread) :
  Inv (State.idle (Task.boot stacksize guardsize pageSize memory) : Sys T)
  := by
  have hknown : ∀ p, ¬ (Table.custody (State.idle (Task.boot stacksize guardsize pageSize memory) :
      Sys T)).Known p := by
    rintro p (hp | hp | ⟨t, ht⟩)
    · cases hp
    · cases hp
    · cases ht
  constructor
  · constructor
    · apply List.nodup_nil
    · rintro t u p ⟨⟩
    · intro t
      trivial
    · rintro p ⟨⟩
  · constructor
    · constructor
      · apply le_rfl
      · rfl
      · rintro i ⟨⟩
    · rintro i p ⟨⟩
    · intro p hp
      apply absurd hp (hknown p)
    · intro p q hp
      apply absurd hp (hknown p)
  · rintro p (hp | ⟨t, ⟨⟩⟩)
    apply absurd hp (hknown p)
  · rintro p ⟨t, l, setup, ⟨⟩⟩
  · rintro p (⟨⟨⟩⟩ | ⟨t, l, ⟨⟩, -⟩)
  · rintro t p rest ⟨⟩

theorem Inv.of_reach {stacksize guardsize pageSize : Nat} {memory : Nat → Pthread}
    (h : (machine T).Reach OnceEach
      (State.idle (Task.boot stacksize guardsize pageSize memory)) s) :
  Inv s
  := by
  apply h.invariant (I := Inv) (Inv.init stacksize guardsize pageSize memory)
  intro s a s' _ hs hG hstep
  apply hs.step hG hstep

/-- In every state reached by threads that allocate, publish and deallocate structures, each
allocation deallocated at most once, the thread table is consistent. -/
theorem thread_table_consistent {stacksize guardsize pageSize : Nat} {memory : Nat → Pthread}
    (h : (machine T).Reach OnceEach
      (State.idle (Task.boot stacksize guardsize pageSize memory)) s) :
  Consistent s
  := by
  have hinv := Inv.of_reach h
  have hwf := hinv.registered.wf
  constructor
  · apply hwf.num_le
  · apply hwf.length.symm
  · intro p hp
    apply hinv.registered.range p (hinv.allocated p hp)
  · intro p q hp hq
    apply hinv.registered.distinct p q (hinv.allocated p hp) (hinv.allocated q hq)
  · intro i hi
    have hnum := hwf.num_le
    have hwritten := hwf.written i (by omega)
    cases hslot : s.shared.table.threads[i]? with
    | none =>
        have := List.getElem?_eq_none_iff.mp hslot
        have := hwf.length
        omega
    | some e =>
        cases e with
        | unwritten =>
            have := hwritten.mp hslot
            omega
        | null =>
            left
            rfl
        | entry p =>
            right
            use p, rfl
            apply (hinv.registered.entry i p hslot).1
  · intro a s' hstep
    apply hinv.enlarge hstep
  · apply hinv.custody.nodup
  · intro p hp
    apply (hinv.custody.free_iff (hinv.allocated p hp)).trans
    apply not_congr
    apply or_congr Iff.rfl
    constructor
    · rintro ⟨t, ht⟩
      cases hl : s.loc t with
      | none => simp [custody, hl] at ht
      | some l =>
          rw [custody_own hl] at ht
          use t, l
    · rintro ⟨t, l, hl, ht⟩
      use t
      rw [custody_own hl, ht]
  · rintro ⟨t, l, c, hl, hst⟩
    apply hinv.ne_fault hl c hst

/-- Two threads find the table full and enlarge it at the same time; one of them tries again.
Then one structure is deallocated and taken again. -/
def growRun {T : Type} (t u : T) : List (Label T Loc) :=
  [.call t (.scan zeroed plainAttr), .call u (.scan zeroed plainAttr), .act t false, .act u false,
    .act t false, .act u false, .act t false, .act u false, .act t false, .act u false,
    .act t false, .act u false, .act u false, .act t false, .act t false, .act u false,
    .act u false, .call u (.stages 0 Stage.dealloc), .act u false, .act u false, .act u false,
    .act u false, .act u false, .act u false, .call t (.scan zeroed plainAttr), .act t false]

theorem thread_table_consistent_growRun :
  ∃ s : Sys (Fin 2), (machine (Fin 2)).Reach OnceEach
      (State.idle (Task.boot 16384 4096 4096 fun _ => zeroed)) s ∧
    s.loc 0 = some (.recycle 0 plainAttr) ∧ s.shared.table.num = 2 ∧ s.shared.table.max = 64 ∧
    s.shared.table.threads[1]? = some (.entry 1) ∧ Consistent s
  := by
  obtain ⟨s, hs, hp⟩ := Machine.exists_reach_of_run (M := machine (Fin 2)) (G := OnceEach)
    (s := State.idle (Task.boot 16384 4096 4096 fun _ => zeroed)) (growRun (0 : Fin 2) 1)
    (fun s => s.loc 0 = some (.recycle 0 plainAttr) ∧ s.shared.table.num = 2 ∧
      s.shared.table.max = 64 ∧ s.shared.table.threads[1]? = some (.entry 1))
    (by decide +kernel)
  simp only [decide_eq_true_eq] at hp
  use s, hs, hp.1, hp.2.1, hp.2.2.1, hp.2.2.2
  apply thread_table_consistent hs

end Consistent

end LibPthread.Thread.Table
