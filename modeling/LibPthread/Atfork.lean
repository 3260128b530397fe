import LibPthread.Concurrency.LinkedList
import LibPthread.Types

/-!
# Fork handlers

`__register_atfork` keeps the handlers in a doubly linked list in memory: a new handler is put
in front, and `fork_last_handler` points to the last one, which was registered first. Before a
fork the list is walked from its last handler to the first one, and after it from the first
handler to the last one.
-/

open Concurrency

namespace LibPthread.Atfork

/-- `struct atfork`; the functions are of the type `F`, and `none` is `NULL`. -/
structure Handler (F : Type) where
  prepare : Option F
  parent : Option F
  child : Option F
  prev : Option Nat
  next : Option Nat

/-- The memory of the handlers and the variables `fork_handlers` and `fork_last_handler`. -/
structure Handlers (F : Type) where
  memory : Nat → Option (Handler F)
  forkHandlers : Option Nat
  forkLastHandler : Option Nat

namespace Handlers

variable {F : Type}

/-- Nothing has been registered. -/
def init : Handlers F :=
  ⟨fun _ => none, none, none⟩

/-- `__register_atfork`; `new` is the memory that `malloc` returns. -/
def registerAtfork (S : Handlers F) (new : Option Nat) (prepare parent child : Option F) :
    Option Errno × Handlers F :=
  match new with
  | none => (some .ENOMEM, S)
  | some new =>
    let memory := Function.update S.memory new
      (some ⟨prepare, parent, child, none, S.forkHandlers⟩)
    let memory := match S.forkHandlers with
      | none => memory
      | some first =>
        Function.update memory first ((memory first).map fun h => { h with prev := some new })
    (none, ⟨memory, some new, S.forkLastHandler.or (some new)⟩)

/-- The loop of `atfork_pthread_prepare`, which goes on for at most `fuel` handlers: the functions
called, or `none` if the loop has not ended or memory is used that is not there. -/
def prepareLoop (S : Handlers F) (handlers : Option Nat) : Nat → Nat → Option (List F)
  | 0, _ => none
  | fuel + 1, last =>
    match S.memory last with
    | none => none
    | some h =>
      if some last = handlers then some h.prepare.toList
      else
        match h.prev with
        | none => none
        | some p => (S.prepareLoop handlers fuel p).map (h.prepare.toList ++ ·)

/-- `atfork_pthread_prepare`. -/
def atforkPrepare (S : Handlers F) (fuel : Nat) : Option (List F) :=
  match S.forkLastHandler with
  | none => some []
  | some last => S.prepareLoop S.forkHandlers fuel last

/-- The loop of `atfork_pthread_parent` and `atfork_pthread_child`; `f` is the function called
of each handler. -/
def forwardLoop (S : Handlers F) (f : Handler F → Option F) : Nat → Option Nat → Option (List F)
  | _, none => some []
  | 0, some _ => none
  | fuel + 1, some p =>
    match S.memory p with
    | none => none
    | some h => (S.forwardLoop f fuel h.next).map ((f h).toList ++ ·)

/-- `atfork_pthread_parent`. -/
def atforkParent (S : Handlers F) (fuel : Nat) : Option (List F) :=
  S.forwardLoop Handler.parent fuel S.forkHandlers

/-- `atfork_pthread_child`. -/
def atforkChild (S : Handlers F) (fuel : Nat) : Option (List F) :=
  S.forwardLoop Handler.child fuel S.forkHandlers

end Handlers

/-! ### Registrations -/

/-- What is registered with one call. -/
structure Functions (F : Type) where
  prepare : Option F
  parent : Option F
  child : Option F

/-- The state after successful registrations, the first of which is the first in the list;
`malloc` returns memory that is not in use. -/
inductive Registered {F : Type} : List (Functions F) → Handlers F → Prop where
  | nil : Registered [] .init
  | snoc {fs : List (Functions F)} {S S' : Handlers F} (f : Functions F) (new : Nat)
    (before : Registered fs S) (fresh : S.memory new = none)
    (call : S.registerAtfork (some new) f.prepare f.parent f.child = (none, S')) :
    Registered (fs ++ [f]) S'

/-- The documented order: the functions called before a fork run in the reverse order of their
registration, those called after it in the order of their registration, and each runs once. -/
def DocumentedOrder {F : Type} (fs : List (Functions F)) (S : Handlers F) (fuel : Nat) : Prop :=
  S.atforkPrepare fuel = some (fs.filterMap Functions.prepare).reverse ∧
    S.atforkParent fuel = some (fs.filterMap Functions.parent) ∧
    S.atforkChild fuel = some (fs.filterMap Functions.child)

section Registered

variable {F : Type} {fs : List (Functions F)} {S S' : Handlers F}

/-- The memory at an address holds the functions of one registration. -/
def Holds (S : Handlers F) (e : Nat × Functions F) : Prop :=
  ∃ h, S.memory e.1 = some h ∧ h.prepare = e.2.prepare ∧ h.parent = e.2.parent ∧
    h.child = e.2.child

/-- The list of the handlers, the latest first, with their addresses. -/
structure Listed (S : Handlers F) (entries : List (Nat × Functions F)) : Prop where
  linked : Linked (fun a => (S.memory a).bind Handler.next)
    (fun a => (S.memory a).bind Handler.prev) none S.forkHandlers (entries.map Prod.fst)
  nodup : (entries.map Prod.fst).Nodup
  last : S.forkLastHandler = (entries.map Prod.fst).getLast?
  holds : ∀ e ∈ entries, Holds S e

theorem Listed.init :
  Listed (.init : Handlers F) []
  := by
  constructor
  · rfl
  · exact List.nodup_nil
  · rfl
  · intro e he
    cases he

/-- The memory after a registration. -/
theorem registerAtfork_memory {f : Functions F} {new : Nat}
    (hcall : S.registerAtfork (some new) f.prepare f.parent f.child = (none, S')) (a : Nat)
    (hne : S.forkHandlers ≠ some new) :
  S'.memory a = if a = new then some ⟨f.prepare, f.parent, f.child, none, S.forkHandlers⟩
    else if S.forkHandlers = some a then (S.memory a).map fun h => { h with prev := some new }
    else S.memory a
  := by
  obtain rfl := (Prod.mk.inj hcall).2
  cases hfirst : S.forkHandlers with
  | none => simp [Function.update_apply]
  | some first =>
      have hnew : first ≠ new := by
        rintro rfl
        exact hne hfirst
      simp only [Function.update_apply, Option.some_inj]
      by_cases ha : a = first
      · simp [ha, hnew]
      · simp [ha, Ne.symm ha]

/-- A registration puts a node in front. -/
theorem Listed.register {entries : List (Nat × Functions F)} (h : Listed S entries)
    {f : Functions F} {new : Nat} (hfresh : S.memory new = none)
    (hcall : S.registerAtfork (some new) f.prepare f.parent f.child = (none, S')) :
  Listed S' ((new, f) :: entries)
  := by
  have hne : ∀ e ∈ entries, e.1 ≠ new := by
    rintro e he rfl
    obtain ⟨h, hmem, -⟩ := h.holds e he
    rw [hfresh] at hmem
    cases hmem
  have hnew : new ∉ entries.map Prod.fst := by
    intro hmem
    obtain ⟨e, he, hfst⟩ := List.mem_map.mp hmem
    exact hne e he hfst
  have hfirst : S.forkHandlers ≠ some new := by
    rw [h.linked.start_eq]
    intro hhead
    exact hnew (List.mem_of_mem_head? hhead)
  have hmemory := fun a => registerAtfork_memory hcall a hfirst
  obtain ⟨hstart, hlast⟩ : S'.forkHandlers = some new ∧
      S'.forkLastHandler = S.forkLastHandler.or (some new) := by
    obtain rfl := (Prod.mk.inj hcall).2
    exact ⟨rfl, rfl⟩
  constructor
  · rw [hstart, List.map_cons]
    apply h.linked.push h.nodup hnew
    · simp [hmemory]
    · simp [hmemory]
    · intro a ha
      rw [hmemory, if_neg ha]
      split
      · cases S.memory a <;> rfl
      · rfl
    · intro a ha
      rw [hmemory, if_neg ha]
      split
      · rename_i hhead
        rw [h.linked.start_eq] at hhead
        obtain ⟨e, he, hfst⟩ := List.mem_map.mp (List.mem_of_mem_head? hhead)
        obtain ⟨h, hmem, -⟩ := h.holds e he
        rw [← hfst, hmem]
        rfl
      · rfl
  · exact List.nodup_cons.mpr ⟨hnew, h.nodup⟩
  · rw [hlast, h.last, List.map_cons, List.getLast?_cons]
    cases (entries.map Prod.fst).getLast? <;> rfl
  · intro e he
    rcases List.mem_cons.mp he with rfl | he
    · exact ⟨_, (hmemory new).trans (if_pos rfl), rfl, rfl, rfl⟩
    · obtain ⟨node, hmem, hfields⟩ := h.holds e he
      rw [Holds, hmemory, if_neg (hne e he), hmem]
      split
      · exact ⟨_, rfl, hfields⟩
      · exact ⟨_, rfl, hfields⟩

/-- The handlers that were registered are listed. -/
theorem Registered.listed (h : Registered fs S) :
  ∃ entries, Listed S entries ∧ entries.map Prod.snd = fs.reverse
  := by
  induction h with
  | nil => exact ⟨[], Listed.init, rfl⟩
  | snoc f new before fresh call ih =>
      obtain ⟨entries, hlisted, hfs⟩ := ih
      refine ⟨(new, f) :: entries, hlisted.register fresh call, ?_⟩
      simp [hfs]

/-! ### The walks -/

/-- A walk towards the last handler. -/
theorem forwardLoop_eq {field : Handler F → Option F} {g : Functions F → Option F}
    {entries : List (Nat × Functions F)} {before start : Option Nat} {fuel : Nat}
    (hlinked : Linked (fun a => (S.memory a).bind Handler.next)
      (fun a => (S.memory a).bind Handler.prev) before start (entries.map Prod.fst))
    (hholds : ∀ e ∈ entries, ∃ h, S.memory e.1 = some h ∧ field h = g e.2)
    (hfuel : entries.length ≤ fuel) :
  S.forwardLoop field fuel start = some ((entries.map Prod.snd).filterMap g)
  := by
  induction entries generalizing before start fuel with
  | nil =>
      obtain rfl : start = none := hlinked
      cases fuel <;> rfl
  | cons e entries ih =>
      obtain ⟨rfl, -, hrest⟩ := hlinked
      obtain ⟨h, hmem, hfield⟩ := hholds e List.mem_cons_self
      cases fuel with
      | zero => cases hfuel
      | succ fuel =>
          simp only [hmem, Option.bind_some] at hrest
          have hnext := ih hrest (fun e he => hholds e (List.mem_cons_of_mem _ he))
            (Nat.le_of_succ_le_succ hfuel)
          rw [Handlers.forwardLoop, hmem]
          simp only [hnext, hfield, Option.map_some, Option.some_inj]
          cases hg : g e.2 <;> simp [hg]

/-- A walk from a handler to the first one. -/
theorem Listed.prepareLoop_eq {entries : List (Nat × Functions F)} (h : Listed S entries)
    {l₁ : List (Nat × Functions F)} {e : Nat × Functions F} {l₂ : List (Nat × Functions F)}
    (hentries : entries = l₁ ++ e :: l₂) {fuel : Nat} (hfuel : l₁.length < fuel) :
  S.prepareLoop S.forkHandlers fuel e.1 =
    some (((l₁ ++ [e]).reverse.map Prod.snd).filterMap Functions.prepare)
  := by
  induction l₁ using List.reverseRecOn generalizing e l₂ fuel with
  | nil =>
      have hstart := h.linked.start_eq
      obtain ⟨node, hmem, hprepare, -⟩ := h.holds e (by rw [hentries]; simp)
      rw [hentries] at hstart
      cases fuel with
      | zero => cases hfuel
      | succ fuel =>
          rw [Handlers.prepareLoop, hmem]
          simp only
          rw [if_pos (by rw [hstart]; rfl), hprepare]
          cases hg : e.2.prepare <;> simp [hg]
  | append_singleton l₁ d ih =>
      have hlinked := h.linked
      have hnodup := h.nodup
      have hstart := hlinked.start_eq
      obtain ⟨node, hmem, hprepare, -⟩ := h.holds e (by rw [hentries]; simp)
      rw [hentries, List.map_append, List.map_cons] at hlinked hnodup hstart
      obtain ⟨hprev, -⟩ := hlinked.neighbours
      simp only [hmem, Option.bind_some, List.map_append, List.map_cons, List.map_nil,
        List.getLast?_append, List.getLast?_singleton, Option.some_or] at hprev
      -- the handler is not the first one, since another is before it
      have hother : some e.1 ≠ S.forkHandlers := by
        intro heq
        rw [hstart] at heq
        have hmem' : e.1 ∈ (l₁ ++ [d]).map Prod.fst := by
          cases l₁ with
          | nil => simp_all
          | cons c l₁ => simp_all
        exact (List.disjoint_of_nodup_append hnodup) hmem' List.mem_cons_self
      cases fuel with
      | zero => cases hfuel
      | succ fuel =>
          have hlen : l₁.length < fuel := by
            simp only [List.length_append, List.length_singleton] at hfuel
            omega
          have hentries' : entries = l₁ ++ d :: e :: l₂ := by
            rw [hentries]
            simp
          have hnext := ih hentries' hlen
          rw [Handlers.prepareLoop, hmem]
          simp only
          rw [if_neg hother, hprev]
          simp only [hnext, hprepare, Option.map_some, Option.some_inj]
          cases hg : e.2.prepare <;> simp [hg]

/-- What a fork runs. -/
theorem Registered.runs (h : Registered fs S) {fuel : Nat} (hfuel : fs.length ≤ fuel) :
  S.atforkPrepare fuel = some (fs.filterMap Functions.prepare) ∧
    S.atforkParent fuel = some (fs.filterMap Functions.parent).reverse ∧
    S.atforkChild fuel = some (fs.filterMap Functions.child).reverse
  := by
  obtain ⟨entries, hlisted, hfs⟩ := h.listed
  have hlen : entries.length = fs.length := by
    have := congrArg List.length hfs
    simpa using this
  refine ⟨?_, ?_, ?_⟩
  · rw [Handlers.atforkPrepare, hlisted.last]
    rcases List.eq_nil_or_concat entries with rfl | ⟨l₁, e, rfl⟩
    · have hnil : fs = [] := by simpa using hfs.symm
      simp [hnil]
    · have hlt : l₁.length < fuel := by
        simp only [List.concat_eq_append, List.length_append, List.length_singleton] at hlen
        omega
      have hloop := hlisted.prepareLoop_eq List.concat_eq_append hlt
      have hfs' : fs = ((l₁ ++ [e]).reverse.map Prod.snd) := by
        rw [List.map_reverse]
        simp only [List.concat_eq_append] at hfs
        rw [hfs, List.reverse_reverse]
      simp only [List.concat_eq_append, List.map_append, List.map_cons, List.map_nil,
        List.getLast?_append, List.getLast?_singleton, Option.some_or]
      rw [hloop, ← hfs']
  · rw [Handlers.atforkParent, forwardLoop_eq hlisted.linked (g := Functions.parent) ?_
      (by omega), hfs, List.filterMap_reverse]
    intro e he
    obtain ⟨node, hmem, -, hparent, -⟩ := hlisted.holds e he
    exact ⟨node, hmem, hparent⟩
  · rw [Handlers.atforkChild, forwardLoop_eq hlisted.linked (g := Functions.child) ?_
      (by omega), hfs, List.filterMap_reverse]
    intro e he
    obtain ⟨node, hmem, -, -, hchild⟩ := hlisted.holds e he
    exact ⟨node, hmem, hchild⟩

/-- A fork runs the functions in the documented order exactly if those of each kind read the same
in both directions. -/
theorem documented_order_iff (h : Registered fs S) {fuel : Nat} (hfuel : fs.length ≤ fuel) :
  DocumentedOrder fs S fuel ↔
    (fs.filterMap Functions.prepare).reverse = fs.filterMap Functions.prepare ∧
      (fs.filterMap Functions.parent).reverse = fs.filterMap Functions.parent ∧
      (fs.filterMap Functions.child).reverse = fs.filterMap Functions.child
  := by
  obtain ⟨hprepare, hparent, hchild⟩ := h.runs hfuel
  rw [DocumentedOrder, hprepare, hparent, hchild, Option.some_inj, Option.some_inj,
    Option.some_inj]
  constructor
  · rintro ⟨hprepare, hparent, hchild⟩
    exact ⟨hprepare.symm, hparent, hchild⟩
  · rintro ⟨hprepare, hparent, hchild⟩
    exact ⟨hprepare.symm, hparent, hchild⟩

end Registered

/-! ### Two handlers -/

/-- The state after the registration of two handlers at the addresses `1` and `2`. -/
theorem registered_two {F : Type} (f g : Functions F) :
  ∃ S, Registered [f, g] S
  := ⟨_, .snoc g 2 (.snoc f 1 .nil rfl rfl) rfl rfl⟩

/-- One handler has a function to be run before a fork, the other has one for the child. -/
theorem documented_order_apart :
  ∃ S, Registered [⟨some 1, none, none⟩, (⟨none, none, some 2⟩ : Functions Nat)] S ∧
    DocumentedOrder [⟨some 1, none, none⟩, ⟨none, none, some 2⟩] S 2
  := by
  obtain ⟨S, hS⟩ := registered_two (⟨some 1, none, none⟩ : Functions Nat) ⟨none, none, some 2⟩
  refine ⟨S, hS, (documented_order_iff hS (le_refl _)).mpr ?_⟩
  decide

/-- Two handlers with all three functions: those run before the fork run in the order of their
registration, and those run after it in the reverse order. -/
theorem reversed_order :
  ∃ S, Registered [⟨some 1, some 2, some 3⟩, (⟨some 4, some 5, some 6⟩ : Functions Nat)] S ∧
    S.atforkPrepare 2 = some [1, 4] ∧ S.atforkParent 2 = some [5, 2] ∧
    S.atforkChild 2 = some [6, 3] ∧
    ¬ DocumentedOrder [⟨some 1, some 2, some 3⟩, ⟨some 4, some 5, some 6⟩] S 2
  := by
  obtain ⟨S, hS⟩ := registered_two (⟨some 1, some 2, some 3⟩ : Functions Nat)
    ⟨some 4, some 5, some 6⟩
  obtain ⟨hprepare, hparent, hchild⟩ := hS.runs (le_refl _)
  refine ⟨S, hS, hprepare, hparent, hchild, ?_⟩
  intro horder
  have hreverse := hprepare.symm.trans horder.1
  exact absurd hreverse (by decide)

end LibPthread.Atfork
