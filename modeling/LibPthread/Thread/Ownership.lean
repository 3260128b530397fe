import LibPthread.Thread.Failure

/-!
# Stacks

A structure whose flag `stack` is set owns the memory at its `stackaddr`: the flag is all that
the library knows of it. Every call finds a stack for a structure, gives one up, or leaves the
ownership as it is, and in every history a stack that `__pthread_stack_alloc` returned has one
owner or was deallocated once. Whether the owned memory is what the attribute asked for depends
on the histories.
-/

open Concurrency

namespace LibPthread.Thread

/-! ### Ownership of stacks -/

/-- The memory that each structure owns as its stack, the stacks handed out, and the addresses
of attributes that were deallocated. -/
@[ext]
structure Ownership where
  owned : Nat → Option Stackaddr
  vmStacks : Ledger
  userDeallocs : List Nat

/-- The serial number of a stack that was handed out. -/
def Stackaddr.serial : Stackaddr → Option Nat
  | .user _ => none
  | .allocated k => some k

theorem Stackaddr.serial_eq_some {b : Stackaddr} {k : Nat} :
  b.serial = some k ↔ b = .allocated k
  := by
  cases b <;> simp [Stackaddr.serial]

namespace Ownership

/-- `__pthread_stack_dealloc`. -/
def give (O : Ownership) : Stackaddr → Ownership
  | .user u => { O with userDeallocs := u :: O.userDeallocs }
  | .allocated k => { O with vmStacks := O.vmStacks.release k }

/-- The structure `p` is to run a thread whose attribute has the given address. -/
def find (O : Ownership) (p : Nat) (addr : Option Nat) : Ownership :=
  match O.owned p with
  | none =>
    { O with
      owned := Function.update O.owned p (some (.allocated O.vmStacks.count))
      vmStacks := O.vmStacks.issue }
  | some b =>
    match addr with
    | none => O
    | some u => { O.give b with owned := Function.update O.owned p (some (.user u)) }

/-- The structure `p` gives its stack up. -/
def drop (O : Ownership) (p : Nat) : Ownership :=
  match O.owned p with
  | none => O
  | some b => { O.give b with owned := Function.update O.owned p none }

/-- Every stack that was handed out has exactly one owner, or it was deallocated exactly once
and has none. -/
def Balanced (O : Ownership) : Prop :=
  O.vmStacks.Kept fun r => (O.owned r).bind Stackaddr.serial

variable {O : Ownership} {p r : Nat} {addr : Option Nat} {b : Stackaddr}

@[simp]
theorem give_owned (O : Ownership) (b : Stackaddr) :
  (O.give b).owned = O.owned
  := by
  cases b <;> rfl

theorem find_owned_of_ne (hr : r ≠ p) :
  (O.find p addr).owned r = O.owned r
  := by
  rw [find]
  split
  · exact Function.update_of_ne hr _ _
  · split
    · rfl
    · exact Function.update_of_ne hr _ _

theorem drop_owned (O : Ownership) (p : Nat) :
  (O.drop p).owned = Function.update O.owned p none
  := by
  rw [drop]
  split
  · rename_i hp
    rw [← hp, Function.update_eq_self]
  · rfl

/-- The stack that is found. -/
theorem find_owned_self (O : Ownership) (p : Nat) (addr : Option Nat) :
  (O.find p addr).owned p = some (match O.owned p, addr with
    | none, _ => .allocated O.vmStacks.count
    | some b, none => b
    | some _, some u => .user u)
  := by
  rw [find]
  cases hp : O.owned p with
  | none => simp
  | some b =>
      cases addr with
      | none => simp [hp]
      | some u => simp

/-- What is given up while a stack is found was handed out. -/
theorem find_userDeallocs (h : addr = none ∨ ∀ b ∈ O.owned p, b.serial ≠ none) :
  (O.find p addr).userDeallocs = O.userDeallocs
  := by
  rw [find]
  cases hp : O.owned p with
  | none => rfl
  | some b =>
      cases addr with
      | none => rfl
      | some u =>
          have hserial := (h.resolve_left (by simp)) b hp
          cases b with
          | user v => exact absurd rfl hserial
          | allocated k => rfl

theorem drop_userDeallocs (h : ∀ b ∈ O.owned p, b.serial ≠ none) :
  (O.drop p).userDeallocs = O.userDeallocs
  := by
  rw [drop]
  cases hp : O.owned p with
  | none => rfl
  | some b =>
      cases b with
      | user v => exact absurd rfl (h _ hp)
      | allocated k => rfl

/-- Giving up what another owner does not own keeps the balance. -/
theorem Balanced.give (h : O.Balanced) (hp : O.owned p = some b) {b' : Option Stackaddr}
    (hb' : b'.bind Stackaddr.serial = none) :
  Balanced { O.give b with owned := Function.update O.owned p b' }
  := by
  have hname : (fun r => (Function.update O.owned p b' r).bind Stackaddr.serial) =
      Function.update (fun r => (O.owned r).bind Stackaddr.serial) p none := by
    funext r
    simp only [Function.update_apply]
    split
    · exact hb'
    · rfl
  rw [Balanced, hname]
  cases b with
  | user u =>
      have hself : Function.update (fun r => (O.owned r).bind Stackaddr.serial) p none =
          fun r => (O.owned r).bind Stackaddr.serial := by
        rw [Function.update_eq_self_iff, hp]
        rfl
      rw [hself]
      exact h
  | allocated k =>
      apply Ledger.Kept.release h
      rw [hp]
      rfl

theorem Balanced.drop (h : O.Balanced) (p : Nat) :
  (O.drop p).Balanced
  := by
  rw [Ownership.drop]
  split
  · exact h
  · rename_i b hp
    apply h.give hp
    rfl

theorem Balanced.find (h : O.Balanced) (p : Nat) (addr : Option Nat) :
  (O.find p addr).Balanced
  := by
  rw [Ownership.find]
  split
  · rename_i hp
    have hname : (fun r => (Function.update O.owned p
          (some (.allocated O.vmStacks.count)) r).bind Stackaddr.serial) =
        Function.update (fun r => (O.owned r).bind Stackaddr.serial) p
          (some O.vmStacks.count) := by
      funext r
      simp only [Function.update_apply]
      split <;> rfl
    rw [Balanced, hname]
    apply Ledger.Kept.issue h
    rw [hp]
    rfl
  · rename_i b hp
    split
    · exact h
    · apply h.give hp
      rfl

/-- Two structures do not own one stack that was handed out. -/
theorem Balanced.unique (h : O.Balanced) {k : Nat} (hp : O.owned p = some (.allocated k))
    (hr : O.owned r = some (.allocated k)) :
  p = r
  := by
  apply Ledger.Kept.unique h
  · rw [hp]
    rfl
  · rw [hr]
    rfl

theorem Balanced.lt (h : O.Balanced) {k : Nat} (hp : O.owned p = some (.allocated k)) :
  k < O.vmStacks.count
  := by
  apply Ledger.Kept.lt h p
  rw [hp]
  rfl

end Ownership

/-- The stacks of a task. -/
def Task.ownership (L : Task) : Ownership where
  owned r := if r < L.heap ∧ (L.structs r).stack = true then some (L.structs r).stackaddr else none
  vmStacks := L.kernel.vmStacks
  userDeallocs := L.kernel.userDeallocs

/-- The library knows the structure: it is free, or its thread is published. -/
def Task.Listed (L : Task) (r : Nat) : Prop :=
  r ∈ L.freeThreads ∨ L.table.Serves r

section Ownership

variable {L B : Task} {self p : Nat} {attr : Option Attr} {a : Answers} {c q : Pthread}
  {K : Kernel}

/-- A structure with a stack owns it. -/
theorem ownership_put (L : Task) (hp : p < L.heap) (q : Pthread) (K : Kernel) :
  (L.put p q K).ownership =
    ⟨Function.update L.ownership.owned p (if q.stack then some q.stackaddr else none),
      K.vmStacks, K.userDeallocs⟩
  := by
  rw [Task.ownership, Ownership.mk.injEq]
  refine ⟨?_, rfl, rfl⟩
  funext r
  by_cases hr : r = p
  · rw [hr, Function.update_self, Task.put_structs_self, Task.put_heap]
    simp [hp]
  · rw [Function.update_of_ne hr, Task.put_structs_of_ne _ _ _ _ hr]
    rfl

theorem ownership_freed (L : Task) (hp : p < L.heap) (q : Pthread) (K : Kernel) :
  (L.freed p q K).ownership = (L.put p q K).ownership
  := by
  exact (ownership_put { L with freeThreads := p :: L.freeThreads } hp q.terminated K).trans
    (ownership_put L hp q K).symm

/-- The ownership depends on the fields of the stack and on the stacks that were handed out. -/
theorem ownership_put_congr (hp : p < B.heap) {q' : Pthread} {K' : Kernel}
    (hstack : q'.stack = q.stack) (hstackaddr : q'.stackaddr = q.stackaddr)
    (hstacks : K'.vmStacks = K.vmStacks) (husers : K'.userDeallocs = K.userDeallocs) :
  (B.put p q' K').ownership = (B.put p q K).ownership
  := by
  rw [ownership_put _ hp, ownership_put _ hp, hstack, hstackaddr, hstacks, husers]

/-- A structure that is handed out owns what it owned before, or nothing if it is new. -/
theorem Inv.owned_handed (h : Inv L) (hhanded : L.handed a = some (p, c)) :
  L.ownership.owned p = if c.stack then some c.stackaddr else none
  := by
  rw [Task.handed] at hhanded
  split at hhanded
  · rename_i p' rest hfree
    rw [Option.some_inj] at hhanded
    obtain ⟨rfl, rfl⟩ := Prod.mk.inj hhanded
    have hlt := (h.free p' (by rw [hfree]; exact List.mem_cons_self)).1
    simp [Task.ownership, hlt]
  · split at hhanded
    · cases hhanded
    · split at hhanded
      · rw [Option.some_inj] at hhanded
        obtain ⟨rfl, rfl⟩ := Prod.mk.inj hhanded
        simp [Task.ownership]
      · cases hhanded

/-- `__pthread_alloc` leaves the ownership as it is. -/
theorem Handed.ownership (h : Handed L a p c B q K) (hL : Inv L) :
  (B.put p q K).ownership = L.ownership
  := by
  obtain ⟨hstack, hstackaddr, -⟩ := h.fields
  have hp : p < B.heap := h.held.lt
  have howned := hL.owned_handed h.handed
  have hkernel : K.vmStacks = L.kernel.vmStacks ∧ K.userDeallocs = L.kernel.userDeallocs := by
    rw [h.kernel]
    split <;> exact ⟨rfl, rfl⟩
  rw [ownership_put _ hp]
  apply Ownership.ext _ hkernel.1 hkernel.2
  funext r
  by_cases hr : r = p
  · rw [hr, howned, hstack, hstackaddr]
    simp
  · simp only [Function.update_of_ne hr, Task.ownership, h.heap r hr, h.structs]

/-- The structure finds a stack. -/
theorem ownership_takeStack (hp : p < B.heap) (setup : Attr) :
  (B.put p (takeStack q K setup).1 (takeStack q K setup).2).ownership =
    (B.put p q K).ownership.find p setup.stackaddr
  := by
  rw [ownership_put _ hp, ownership_put _ hp, Ownership.find, takeStack]
  simp only [Function.update_self]
  cases hstack : q.stack with
  | false => simp [Function.update_idem]
  | true =>
      cases setup.stackaddr with
      | none => simp [hstack]
      | some u =>
          cases hb : q.stackaddr <;>
            simp [Function.update_idem, Kernel.dropStack, Ownership.give]

/-- The structure gives its stack up. -/
theorem ownership_dropStack (hp : p < B.heap) (hstack : q.stack = true) {q' : Pthread}
    (hq' : q'.stack = false) {b : Stackaddr} (hb : b = q.stackaddr) {K' : Kernel}
    (hstacks : K'.vmStacks = K.vmStacks) (husers : K'.userDeallocs = K.userDeallocs) :
  (B.put p q' (K'.dropStack b)).ownership = (B.put p q K).ownership.drop p
  := by
  rw [ownership_put _ hp, ownership_put _ hp, Ownership.drop]
  simp only [Function.update_self, hstack, hq', hb, if_true]
  cases q.stackaddr <;>
    simp [Function.update_idem, Kernel.dropStack, Ownership.give, hstacks, husers]

theorem Handed.lt_heap (h : Handed L a p c B q K) :
  p < B.heap
  := h.held.lt

/-- A structure that is handed out finds its stack. -/
theorem Handed.ownership_withStack (h : Handed L a p c B q K) (hL : Inv L) (attr : Option Attr) :
  (B.put p (L.withStack attr q K).1 (L.withStack attr q K).2).ownership =
    L.ownership.find p (L.setup attr).stackaddr
  := by
  rw [Task.withStack, ownership_takeStack h.lt_heap, ← h.ownership hL]
  congr 1
  exact ownership_put_congr h.lt_heap rfl rfl rfl rfl

theorem withStack_stack (L : Task) (attr : Option Attr) (q : Pthread) (K : Kernel) :
  (L.withStack attr q K).1.stack = true
  := by
  obtain ⟨stackaddr, stacksize, hz⟩ := takeStack_fst (q.prepared (L.setup attr)) K (L.setup attr)
  rw [Task.withStack, hz]

/-- The stack that was found is that of the structure. -/
theorem Handed.found (h : Handed L a p c B q K) (hL : Inv L) (attr : Option Attr) :
  (L.ownership.find p (L.setup attr).stackaddr).owned p =
    some (L.withStack attr q K).1.stackaddr
  := by
  rw [← h.ownership_withStack hL attr, ownership_put _ h.lt_heap]
  simp [withStack_stack]

/-- Everything but the kernel threads, the ports and the blocks is as after the stack was
found. -/
theorem withTls_frame (L : Task) (self : Nat) (attr : Option Attr) (q : Pthread) (K : Kernel) :
  (L.withTls self attr q K).1.stack = true ∧
    (L.withTls self attr q K).1.stackaddr = (L.withStack attr q K).1.stackaddr ∧
    (L.withTls self attr q K).1.stacksize = (L.withStack attr q K).1.stacksize ∧
    (L.withTls self attr q K).1.guardsize = (q.prepared (L.setup attr)).guardsize ∧
    (L.withTls self attr q K).2.vmStacks = (L.withStack attr q K).2.vmStacks ∧
    (L.withTls self attr q K).2.userDeallocs = (L.withStack attr q K).2.userDeallocs ∧
    (L.withTls self attr q K).2.pageSize = K.pageSize ∧
    (L.withTls self attr q K).2.inaccessible =
      (K.protect (L.withStack attr q K).1.stackaddr
        (q.prepared (L.setup attr)).guardsize).inaccessible
  := by
  obtain ⟨threads, ports, hK⟩ := takeKernel_snd (L.withStack attr q K).1
    (L.withStack attr q K).2 self L.numAfter
  obtain ⟨kernelThread, wakeupPort, hq⟩ := takeKernel_fst (L.withStack attr q K).1
    (L.withStack attr q K).2 self L.numAfter
  have hstack := withStack_stack L attr q K
  obtain ⟨stackaddr, stacksize, hfst⟩ := takeStack_fst (q.prepared (L.setup attr)) K (L.setup attr)
  obtain ⟨vmStacks, userDeallocs, hsnd⟩ :=
    takeStack_snd (q.prepared (L.setup attr)) K (L.setup attr)
  rw [Task.withTls, Task.withKernel, takeTls, hK, hq]
  refine ⟨hstack, rfl, rfl, ?_, rfl, rfl, ?_, ?_⟩
  · rw [Task.withStack, hfst]
  · rw [Task.withStack, hsnd]
    rfl
  · rw [Task.withStack, hfst, hsnd]
    rfl

end Ownership

/-! ### What the calls do to the stacks -/

/-- The labels of a creation that fails at the given point terminate the kernel thread of the
caller. -/
def HaltsCaller (L : Task) (self : Nat) (c : Pthread) (point : Point) : Prop :=
  (point = .tls ∨ point = .setup ∨ point = .sigstateInit ∨ point = .start) ∧
    if c.haveKernelResources then c.kernelThread = self else L.numAfter = 1

/-- The structure `p` with the contents `c` was handed out to a creation, which has protected
pages of its stack and left the other structures as they are. -/
structure Occupies (L : Task) (caller : Nat) (attr : Option Attr) (a : Answers) (p : Nat)
    (c : Pthread) (L' : Task) : Prop where
  other : ∀ r ∈ L.freeThreads.head?, (L.structs r).kernelThread ≠ caller
  handed : L.handed a = some (p, c)
  absent : ¬ L.table.Serves p
  listed : ∀ r, r ≠ p → (L'.Listed r ↔ L.Listed r)
  serves : ∀ r, r ≠ p → (L'.table.Serves r ↔ L.table.Serves r)
  structs : ∀ r, r ≠ p → L'.structs r = L.structs r
  pageSize : L'.kernel.pageSize = L.kernel.pageSize
  pages : ∃ b guardsize, (L.ownership.find p (L.setup attr).stackaddr).owned p = some b ∧
    L'.kernel.inaccessible = (L.kernel.protect b guardsize).inaccessible

/-- What a call does to the stacks: nothing; a structure is lost when its creator is terminated
before or after it found a stack; a creation fails and gives up the stack it found; a thread is
started on the stack that was found; a thread is reclaimed with its stack. -/
inductive StackCases (H : History) (op : Op) (H' : History) : Prop where
  | keeps (ownership : H'.task.ownership = H.task.ownership)
    (pages : H'.task.kernel.pageSize = H.task.kernel.pageSize ∧
      H'.task.kernel.inaccessible = H.task.kernel.inaccessible)
    (created : H'.created = H.created)
    (listed : ∀ r b, H.task.ownership.owned r = some b →
      (H'.task.Listed r ↔ H.task.Listed r))
    (serves : ∀ r, H'.task.table.Serves r → H.task.table.Serves r ∧
      (H'.task.structs r).stackaddr = (H.task.structs r).stackaddr ∧
      (H'.task.structs r).stacksize = (H.task.structs r).stacksize)
  | loses (self : Nat) (attr : Option Attr) (a : Answers) (p : Nat)
    (creation : op.creation = some (self, attr, a))
    (head : H.task.freeThreads.head? = some p)
    (own : (H.task.structs p).kernelThread = self)
    (ownership : H'.task.ownership = H.task.ownership)
    (pages : H'.task.kernel.pageSize = H.task.kernel.pageSize ∧
      H'.task.kernel.inaccessible = H.task.kernel.inaccessible)
    (created : H'.created = H.created)
    (listed : ∀ r, H'.task.Listed r ↔ H.task.Listed r ∧ r ≠ p)
    (serves : ∀ r, H'.task.table.Serves r → H.task.table.Serves r)
    (structs : H'.task.structs = H.task.structs)
  | discards (self : Nat) (attr : Option Attr) (a : Answers) (p : Nat) (c : Pthread)
    (creation : op.creation = some (self, attr, a))
    (occupies : Occupies H.task self attr a p c H'.task)
    (fails : H.task.failurePoint attr a ≠ none)
    (ownership : H'.task.ownership =
      (H.task.ownership.find p (H.task.setup attr).stackaddr).drop p)
    (created : H'.created = H.created)
    (withdrawn : ¬ H'.task.table.Serves p)
  | strands (self : Nat) (attr : Option Attr) (a : Answers) (p : Nat) (c : Pthread)
    (creation : op.creation = some (self, attr, a))
    (occupies : Occupies H.task self attr a p c H'.task)
    (fails : ∃ point ∈ H.task.failurePoint attr a, HaltsCaller H.task self c point)
    (ownership : H'.task.ownership =
      H.task.ownership.find p (H.task.setup attr).stackaddr)
    (created : H'.created = H.created)
    (unlisted : ¬ H'.task.Listed p)
  | starts (self : Nat) (attr : Option Attr) (a : Answers) (p : Nat) (c : Pthread)
    (creation : op.creation = some (self, attr, a))
    (occupies : Occupies H.task self attr a p c H'.task)
    (succeeds : H.task.failurePoint attr a = none)
    (ownership : H'.task.ownership =
      H.task.ownership.find p (H.task.setup attr).stackaddr)
    (created : H'.created =
      ⟨p, H.task.setup attr, (H'.task.structs p).stackaddr⟩ :: H.created)
    (published : H'.task.table.Serves p)
    (found : (H.task.ownership.find p (H.task.setup attr).stackaddr).owned p =
      some (H'.task.structs p).stackaddr)
    (stacksize : (H.task.setup attr).stackaddr ≠ none →
      (H'.task.structs p).stacksize = (H.task.setup attr).stacksize)
    (guardsize : (H.task.setup attr).stackaddr = none → H'.task.kernel.inaccessible =
      (H.task.kernel.protect (H'.task.structs p).stackaddr
        (min (H.task.setup attr).guardsize (H.task.setup attr).stacksize)).inaccessible)
  | reclaims (thread p : Nat) (target : op.target = some thread)
    (get : H.task.table.get thread = some (.entry p))
    (state : (H.task.structs p).state = .exited)
    (owned : H.task.ownership.owned p = some (H.task.structs p).stackaddr)
    (ownership : H'.task.ownership = H.task.ownership.drop p)
    (pages : H'.task.kernel.pageSize = H.task.kernel.pageSize ∧
      H'.task.kernel.inaccessible = H.task.kernel.inaccessible)
    (created : H'.created = H.created)
    (listed : ∀ r, H'.task.Listed r ↔ H.task.Listed r)
    (serves : ∀ r, H'.task.table.Serves r ↔ H.task.table.Serves r ∧ r ≠ p)
    (structs : ∀ r, r ≠ p → H'.task.structs r = H.task.structs r)

section Cases

/-- No page is protected by a guard of no bytes. -/
theorem Kernel.protect_zero (K : Kernel) (b : Stackaddr) :
  (K.protect b 0).inaccessible = K.inaccessible
  := by
  funext j page
  simp

theorem Kernel.protect_congr {K K' : Kernel} (hpageSize : K'.pageSize = K.pageSize)
    (hpages : K'.inaccessible = K.inaccessible) (b : Stackaddr) (guardsize : Nat) :
  (K'.protect b guardsize).inaccessible = (K.protect b guardsize).inaccessible
  := by
  funext j page
  rw [Kernel.protect_inaccessible, Kernel.protect_inaccessible, hpageSize, hpages]

@[simp]
theorem Kernel.dropStack_pageSize (K : Kernel) (b : Stackaddr) :
  (K.dropStack b).pageSize = K.pageSize
  := by
  cases b <;> rfl

theorem Kernel.dropStack_dropPort (K : Kernel) (b : Stackaddr) (n : Nat) :
  (K.dropStack b).dropPort n = (K.dropPort n).dropStack b
  := by
  cases b <;> rfl

@[simp]
theorem Kernel.dropStack_inaccessible (K : Kernel) (b : Stackaddr) :
  (K.dropStack b).inaccessible = K.inaccessible
  := by
  cases b <;> rfl

variable {L B : Task} {self p : Nat} {attr : Option Attr} {a : Answers} {c q : Pthread}
  {K : Kernel}

theorem Handed.serves (h : Handed L a p c B q K) (r : Nat) :
  B.table.Serves r ↔ L.table.Serves r
  := by
  apply exists_congr
  intro i
  apply h.entry

theorem Handed.listed (h : Handed L a p c B q K) {r : Nat} (hr : r ≠ p) :
  (r ∈ B.freeThreads ↔ r ∈ L.freeThreads)
  := by
  rcases h.free with hfree | ⟨hfree, hfree', -⟩
  · rw [hfree, List.mem_cons]
    simp [hr]
  · rw [hfree, hfree']

theorem Handed.absent (h : Handed L a p c B q K) :
  ¬ L.table.Serves p
  := by
  rw [← h.serves]
  apply h.held.absent

/-- Pages are protected only on the stack that was found. -/
theorem Handed.occupies (h : Handed L a p c B q K) (hL : Inv L)
    (hother : ∀ r ∈ L.freeThreads.head?, (L.structs r).kernelThread ≠ self) {L' : Task}
    (hlisted : ∀ r, r ≠ p → (L'.Listed r ↔ B.Listed r))
    (hserves : ∀ r, r ≠ p → (L'.table.Serves r ↔ B.table.Serves r))
    (hstructs : ∀ r, r ≠ p → L'.structs r = B.structs r)
    (hpageSize : L'.kernel.pageSize = K.pageSize)
    {guardsize : Nat} (hpages : L'.kernel.inaccessible =
      (K.protect (L.withStack attr q K).1.stackaddr guardsize).inaccessible) :
  Occupies L self attr a p c L'
  := by
  have hK : K.pageSize = L.kernel.pageSize ∧ K.inaccessible = L.kernel.inaccessible := by
    rw [h.kernel]
    split <;> exact ⟨rfl, rfl⟩
  constructor
  · apply hother
  · apply h.handed
  · apply h.absent
  · intro r hr
    rw [hlisted r hr, Task.Listed, Task.Listed, h.listed hr, h.serves]
  · intro r hr
    rw [hserves r hr, h.serves]
  · intro r hr
    rw [hstructs r hr, h.structs]
  · rw [hpageSize, hK.1]
  · refine ⟨_, guardsize, h.found hL attr, ?_⟩
    rw [hpages, Kernel.protect_congr hK.1 hK.2]

/-- A structure that was handed out goes to the free list. -/
theorem Handed.occupies_freed (h : Handed L a p c B q K) (hL : Inv L)
    (hother : ∀ r ∈ L.freeThreads.head?, (L.structs r).kernelThread ≠ self) (q' : Pthread)
    {K' : Kernel} (hpageSize : K'.pageSize = K.pageSize) {guardsize : Nat}
    (hpages : K'.inaccessible =
      (K.protect (L.withStack attr q K).1.stackaddr guardsize).inaccessible) :
  Occupies L self attr a p c (B.freed p q' K')
  := by
  apply h.occupies hL hother _ _ _ hpageSize hpages
  · intro r hr
    simp [Task.Listed, Task.freed, hr]
  · exact fun r _ => Iff.rfl
  · intro r hr
    exact Task.put_structs_of_ne _ _ _ _ hr


/-- Finding a stack protects no pages. -/
theorem withStack_pages (L : Task) (attr : Option Attr) (q : Pthread) (K : Kernel) :
  (L.withStack attr q K).2.pageSize = K.pageSize ∧
    (L.withStack attr q K).2.inaccessible = K.inaccessible
  := by
  obtain ⟨vmStacks, userDeallocs, hz⟩ :=
    takeStack_snd (q.prepared (L.setup attr)) K (L.setup attr)
  rw [Task.withStack, hz]
  exact ⟨rfl, rfl⟩

/-- The structure has its stack when the labels are reached. -/
theorem Cleanup.stack {point : Point} {x : Pthread × Kernel} {err : Option Errno}
    {thread : Option Nat} (h : Cleanup L self attr a p q K point x err thread) :
  x.1.stack = true ∧ x.1.stackaddr = (L.withStack attr q K).1.stackaddr ∧
    x.2.vmStacks = (L.withStack attr q K).2.vmStacks ∧
    x.2.userDeallocs = (L.withStack attr q K).2.userDeallocs ∧ x.2.pageSize = K.pageSize ∧
    ∃ guardsize, x.2.inaccessible =
      (K.protect (L.withStack attr q K).1.stackaddr guardsize).inaccessible
  := by
  obtain ⟨hstack, hstackaddr, -, -, hstacks, husers, hpageSize, hpages⟩ :=
    withTls_frame L self attr q K
  have hwithTls : (L.withTls self attr q K).1.stack = true ∧
      (L.withTls self attr q K).1.stackaddr = (L.withStack attr q K).1.stackaddr ∧
      (L.withTls self attr q K).2.vmStacks = (L.withStack attr q K).2.vmStacks ∧
      (L.withTls self attr q K).2.userDeallocs = (L.withStack attr q K).2.userDeallocs ∧
      (L.withTls self attr q K).2.pageSize = K.pageSize ∧
      ∃ guardsize, (L.withTls self attr q K).2.inaccessible =
        (K.protect (L.withStack attr q K).1.stackaddr guardsize).inaccessible :=
    ⟨hstack, hstackaddr, hstacks, husers, hpageSize, _, hpages⟩
  cases h with
  | tls =>
      refine ⟨hstack, hstackaddr, hstacks, husers, hpageSize, 0, ?_⟩
      obtain ⟨threads, ports, hK⟩ := takeKernel_snd (L.withStack attr q K).1
        (L.withStack attr q K).2 self L.numAfter
      rw [Task.withKernel, hK, Kernel.protect_zero]
      exact (withStack_pages L attr q K).2
  | setup e answer => exact hwithTls
  | sigstateInit e answer => exact hwithTls
  | start e answer main => exact hwithTls

/-- A creation fails and gives up the stack it found. -/
theorem Handed.discards {H H' : History} {op : Op} (h : Handed H.task a p c B q K)
    (hL : Inv H.task)
    (hother : ∀ r ∈ H.task.freeThreads.head?, (H.task.structs r).kernelThread ≠ self)
    (hcreation : op.creation = some (self, attr, a))
    (hfails : H.task.failurePoint attr a ≠ none) {q' : Pthread} {K' : Kernel} {b : Stackaddr}
    (htask : H'.task = B.freed p q' (K'.dropStack b)) (hq' : q'.stack = false)
    (hstacks : K'.vmStacks = (H.task.withStack attr q K).2.vmStacks)
    (husers : K'.userDeallocs = (H.task.withStack attr q K).2.userDeallocs)
    (hpageSize : K'.pageSize = K.pageSize) {guardsize : Nat} (hpages : K'.inaccessible =
      (K.protect (H.task.withStack attr q K).1.stackaddr guardsize).inaccessible)
    (hb : b = (H.task.withStack attr q K).1.stackaddr) (hcreated : H'.created = H.created) :
  StackCases H op H'
  := by
  apply StackCases.discards self attr a p c hcreation
  · rw [htask]
    apply h.occupies_freed hL hother q'
    · rw [Kernel.dropStack_pageSize, hpageSize]
    · rw [Kernel.dropStack_inaccessible, hpages]
  · apply hfails
  · rw [htask, ownership_freed _ h.lt_heap, ← h.ownership_withStack hL attr]
    apply ownership_dropStack h.lt_heap (withStack_stack _ _ _ _) hq' hb hstacks husers
  · apply hcreated
  · rw [htask]
    apply h.held.absent

/-- The kernel thread of the caller of a creation is alive, except in `init_routine`. -/
theorem Inv.alive (h : Inv L) (halive : L.table.num ≠ 0 → L.kernel.threads.Live self)
    (hnum : L.numAfter ≠ 1) :
  L.kernel.threads.Live self
  := by
  apply halive
  intro hzero
  rw [Task.numAfter, hzero] at hnum
  split at hnum
  · apply hnum
    rfl
  · rename_i hfree
    obtain ⟨p, hp⟩ := List.exists_mem_of_ne_nil _ hfree
    obtain ⟨hlo, hhi⟩ := h.registered.range p (.inl hp)
    omega

/-- The structure stays with the stack that was found for it. -/
theorem Handed.ownership_found (h : Handed L a p c B q K) (hL : Inv L) (attr : Option Attr)
    {q' : Pthread} {K' : Kernel} (hstack : q'.stack = true)
    (hstackaddr : q'.stackaddr = (L.withStack attr q K).1.stackaddr)
    (hstacks : K'.vmStacks = (L.withStack attr q K).2.vmStacks)
    (husers : K'.userDeallocs = (L.withStack attr q K).2.userDeallocs) :
  (B.put p q' K').ownership = L.ownership.find p (L.setup attr).stackaddr
  := by
  rw [← h.ownership_withStack hL attr]
  apply ownership_put_congr h.lt_heap _ hstackaddr hstacks husers
  rw [hstack, withStack_stack]

variable {H H' : History} {op : Op}

/-- A structure that found no stack goes to the free list. -/
theorem Handed.keeps (h : Handed H.task a p c B q K) (hL : Inv H.task)
    (hother : ∀ r ∈ H.task.freeThreads.head?, (H.task.structs r).kernelThread ≠ self)
    (hclear : c.stack = false)
    (htask : H'.task = B.freed p (q.prepared (H.task.setup attr)) K)
    (hcreated : H'.created = H.created) :
  StackCases H op H'
  := by
  have hownership : H'.task.ownership = H.task.ownership := by
    rw [htask, ownership_freed _ h.lt_heap, ← h.ownership hL]
    exact ownership_put_congr h.lt_heap rfl rfl rfl rfl
  have hnone : H.task.ownership.owned p = none := by
    rw [← h.ownership hL, ownership_put _ h.lt_heap, h.fields.1, hclear]
    simp
  have hoccupies : Occupies H.task self attr a p c H'.task := by
    rw [htask]
    apply h.occupies_freed hL hother _ rfl
    rw [Kernel.protect_zero]
  apply StackCases.keeps hownership
  · rw [htask]
    have hkernel := h.kernel
    rw [Task.freed, Task.put_kernel, hkernel]
    split <;> exact ⟨rfl, rfl⟩
  · apply hcreated
  · intro r b hr
    apply hoccupies.listed
    rintro rfl
    rw [hnone] at hr
    cases hr
  · intro r hr
    have hne : r ≠ p := by
      rintro rfl
      rw [htask] at hr
      exact h.held.absent hr
    refine ⟨(hoccupies.serves r hne).mp hr, ?_, ?_⟩
    · rw [hoccupies.structs r hne]
    · rw [hoccupies.structs r hne]

/-- The caller of a creation is terminated before it finds a stack. -/
theorem Inv.loses (h : Inv H.task) (hcreation : op.creation = some (self, attr, a)) {p : Nat}
    {rest : List Nat} (hfree : H.task.freeThreads = p :: rest)
    (hown : (H.task.structs p).kernelThread = self)
    (htask : H'.task = { H.task with freeThreads := rest }.threadHalt p)
    (hcreated : H'.created = H.created) :
  StackCases H op H'
  := by
  have hnodup := h.nodup
  rw [hfree] at hnodup
  have habsent := (h.free p (by rw [hfree]; exact List.mem_cons_self)).2.2
  apply StackCases.loses self attr a p hcreation
  · rw [hfree]
    rfl
  · apply hown
  · rw [htask]
    rfl
  · rw [htask]
    exact ⟨rfl, rfl⟩
  · apply hcreated
  · intro r
    rw [htask, Task.Listed, Task.Listed, hfree, List.mem_cons]
    constructor
    · rintro (hr | hr)
      · refine ⟨.inl (.inr hr), ?_⟩
        rintro rfl
        exact (List.nodup_cons.mp hnodup).1 hr
      · refine ⟨.inr hr, ?_⟩
        rintro rfl
        exact habsent hr
    · rintro ⟨(rfl | hr) | hr, hne⟩
      · exact absurd rfl hne
      · exact .inl hr
      · exact .inr hr
  · intro r hr
    rw [htask] at hr
    exact hr
  · rw [htask]
    rfl

/-- A creation that does not start a thread. -/
theorem Ends.stackCases {x : Exec (Option Errno × Option Nat)}
    (hends : Ends H.task self attr a (H.task.failurePoint attr a) x) (h : Inv H.task)
    (hfree : ∀ r ∈ H.task.freeThreads.head?, (H.task.structs r).kernelThread ≠ self)
    (hcreation : op.creation = some (self, attr, a))
    (halive : H.task.table.num ≠ 0 → H.task.kernel.threads.Live self)
    (htask : x.task? = some H'.task) (hother : ∀ L p, x ≠ .ret L (none, some p))
    (hcreated : H'.created = H.created) :
  StackCases H op H'
  := by
  generalize hpoint : H.task.failurePoint attr a = point at hends
  cases hends with
  | halted point p rest free own =>
      exact absurd own (hfree p (by rw [free]; rfl))
  | alloc free refused heap memory grows same clear =>
      have htask := Option.some.inj htask
      have hstructs : ∀ r, H.task.table.Serves r → H'.task.structs r = H.task.structs r := by
        intro r hr
        rw [← htask]
        exact same r (h.serving r hr).1
      apply StackCases.keeps
      · rw [← htask, Task.ownership, Task.ownership, Ownership.mk.injEq]
        refine ⟨?_, rfl, rfl⟩
        funext r
        by_cases hr : r < H.task.heap
        · simp only [same r hr, hr, hr.trans_le grows]
        · have hr' : r < heap → (memory r).stack = false := fun hlt => clear r hlt (by omega)
          simp only [hr, false_and, if_false]
          rw [if_neg]
          rintro ⟨hlt, hstack⟩
          rw [hr' hlt] at hstack
          cases hstack
      · rw [← htask]
        exact ⟨rfl, rfl⟩
      · apply hcreated
      · intro r b hr
        rw [← htask]
        exact Iff.rfl
      · intro r hr
        have hr' : H.task.table.Serves r := by
          rw [← htask] at hr
          exact hr
        rw [hstructs r hr']
        exact ⟨hr', rfl, rfl⟩
  | stackAlloc handed clear e =>
      exact handed.keeps h hfree clear (Option.some.inj htask).symm hcreated
  | @portAllocate p c B q K handed =>
      obtain ⟨hpageSize, hpages⟩ := withStack_pages H.task attr q K
      exact handed.discards h hfree hcreation (by rw [hpoint]; simp)
        (Option.some.inj htask).symm rfl
        rfl rfl hpageSize (hpages.trans (Kernel.protect_zero K _).symm) rfl hcreated
  | @insertRight p c B q K handed x port =>
      subst port
      obtain ⟨hpageSize, hpages⟩ := withStack_pages H.task attr q K
      exact handed.discards h hfree hcreation (by rw [hpoint]; simp)
        (Option.some.inj htask).symm rfl
        rfl rfl hpageSize (hpages.trans (Kernel.protect_zero K _).symm) rfl hcreated
  | @threadCreate p c B q K handed x port =>
      subst port
      obtain ⟨hpageSize, hpages⟩ := withStack_pages H.task attr q K
      exact handed.discards h hfree hcreation (by rw [hpoint]; simp)
        (Option.some.inj htask).symm rfl
        rfl rfl hpageSize (hpages.trans (Kernel.protect_zero K _).symm) rfl hcreated
  | cleanup handed from_point other =>
      obtain ⟨hstack, hstackaddr, hstacks, husers, hpageSize, guardsize, hpages⟩ :=
        from_point.stack
      exact handed.discards h hfree hcreation (by rw [hpoint]; simp)
        (Option.some.inj htask).symm rfl
        hstacks husers hpageSize hpages hstackaddr hcreated
  | @haltedCleanup p c B q K handed point x err thread from_point own =>
      have htask := Option.some.inj htask
      obtain ⟨hstack, hstackaddr, hstacks, husers, hpageSize, guardsize, hpages⟩ :=
        from_point.stack
      apply StackCases.strands self attr a p c hcreation
      · rw [← htask]
        refine handed.occupies h hfree (fun _ _ => Iff.rfl) (fun _ _ => Iff.rfl) ?_ hpageSize hpages
        intro r hr
        exact Task.put_structs_of_ne _ _ _ _ hr
      · refine ⟨point, hpoint, ?_, ?_⟩
        · cases from_point <;> simp
        · have hown := mt (handed.kernelThread_ne_iff attr (h.alive halive)).mpr
          rw [← (from_point.agrees handed).2.2.2.1, own] at hown
          have hown' := hown (by simp)
          split at hown'
          · rename_i hkr
            rw [if_pos hkr]
            exact not_not.mp hown'
          · rename_i hkr
            rw [if_neg hkr]
            exact not_not.mp hown'
      · rw [← htask]
        exact handed.ownership_found h attr hstack hstackaddr hstacks husers
      · apply hcreated
      · rw [← htask]
        rintro (hmem | hserves)
        · exact (List.nodup_cons.mp handed.held.nodup).1 hmem
        · exact handed.held.absent hserves
  | started handed published => exact absurd rfl (hother _ _)
  | assertThreadAlloc point handed clear main late => cases htask
  | assertThreadStart point handed main late => cases htask
  | fault point handed answer => cases htask

/-- A creation that starts a thread. -/
theorem Ends.starts {M : Task}
    (hends : Ends H.task self attr a (H.task.failurePoint attr a) (.ret M (none, some p)))
    (h : Inv H.task)
    (hother : ∀ r ∈ H.task.freeThreads.head?, (H.task.structs r).kernelThread ≠ self)
    (hcreation : op.creation = some (self, attr, a)) {total : Int}
    (htask : H'.task = { M with total := total })
    (hcreated : H'.created =
      ⟨p, H.task.setup attr, (M.structs p).stackaddr⟩ :: H.created) :
  StackCases H op H'
  := by
  obtain ⟨hpoint, c, B, q, K, t, hB, ⟨hpublished, -⟩, rfl⟩ := hends.of_started
  obtain ⟨hstack, hstackaddr, hstacksize, hguardsize, hstacks, husers, hpageSize, hpages⟩ :=
    withTls_frame H.task self attr q K
  have hserves := hB.held.serves_publish (q := q) (K := K) hpublished
  have hstructs : H'.task.structs p = (H.task.withTls self attr q K).1 := by
    rw [htask]
    simp only [Task.put_structs_self]
  apply StackCases.starts self attr a p c hcreation
  · rw [htask]
    refine hB.occupies h hother ?_ ?_ ?_ hpageSize hpages
    · intro r hr
      simp [Task.Listed, hserves, hr]
    · intro r hr
      simp [hserves, hr]
    · intro r hr
      exact Task.put_structs_of_ne { B with table := t, total := B.total + 1 } p _
        (H.task.withTls self attr q K).2 hr
  · apply hpoint
  · rw [htask]
    exact hB.ownership_found h attr hstack hstackaddr hstacks husers
  · rw [hcreated, hstructs, Task.put_structs_self]
  · rw [htask]
    exact (hserves p).mpr (.inl rfl)
  · rw [hstructs, hstackaddr]
    apply hB.found h
  · intro haddr
    rw [hstructs, hstacksize, Task.withStack, takeStack]
    split
    · obtain ⟨u, hu⟩ := Option.ne_none_iff_exists'.mp haddr
      rw [hu]
    · rfl
  · intro haddr
    have hK : K.pageSize = H.task.kernel.pageSize ∧
        K.inaccessible = H.task.kernel.inaccessible := by
      rw [hB.kernel]
      split <;> exact ⟨rfl, rfl⟩
    have hguard : (q.prepared (H.task.setup attr)).guardsize =
        min (H.task.setup attr).guardsize (H.task.setup attr).stacksize := by
      rw [Pthread.prepared]
      simp only [haddr, Option.isSome_none, Bool.false_eq_true, if_false]
      rw [Nat.min_def]
    rw [hstructs, hstackaddr, ← hguard, htask]
    exact hpages.trans (Kernel.protect_congr hK.1 hK.2 _ _)

/-- The structure keeps its stack. -/
theorem ownership_put_self {q' : Pthread} {K' : Kernel}
    (hstack : q'.stack = (L.structs p).stack)
    (hstackaddr : q'.stackaddr = (L.structs p).stackaddr) (hp : p < L.heap)
    (hstacks : K'.vmStacks = L.kernel.vmStacks)
    (husers : K'.userDeallocs = L.kernel.userDeallocs) :
  (L.put p q' K').ownership = L.ownership
  := by
  conv_rhs => rw [← Task.put_eq_self L p]
  apply ownership_put_congr hp hstack hstackaddr hstacks husers

/-- A call that changes a structure, but neither its stack nor the table. -/
theorem StackCases.of_put (h : Inv H.task) (hserves : H.task.table.Serves p) {L : Task}
    {x : Pthread} {K : Kernel} (htask : H'.task = L.put p x K)
    (htable : L.table = H.task.table) (hfree : L.freeThreads = H.task.freeThreads)
    (hheap : L.heap = H.task.heap) (hstructs : L.structs = H.task.structs)
    (hkernel : L.kernel = H.task.kernel)
    (hstack : x.stack = (H.task.structs p).stack)
    (hstackaddr : x.stackaddr = (H.task.structs p).stackaddr)
    (hstacksize : x.stacksize = (H.task.structs p).stacksize)
    (hstacks : K.vmStacks = H.task.kernel.vmStacks)
    (husers : K.userDeallocs = H.task.kernel.userDeallocs)
    (hpageSize : K.pageSize = H.task.kernel.pageSize)
    (hpages : K.inaccessible = H.task.kernel.inaccessible)
    (hcreated : H'.created = H.created) :
  StackCases H op H'
  := by
  apply StackCases.keeps
  · rw [htask, ownership_put_self (by rw [hstructs, hstack]) (by rw [hstructs, hstackaddr])
      (by rw [hheap]; exact (h.serving p hserves).1) (by rw [hkernel, hstacks])
      (by rw [hkernel, husers]), Task.ownership, Task.ownership, hheap, hstructs, hkernel]
  · rw [htask]
    exact ⟨hpageSize, hpages⟩
  · exact hcreated
  · intro r b _
    rw [htask, Task.Listed, Task.Listed, Task.put_freeThreads, Task.put_table, htable, hfree]
  · intro r hr
    rw [htask, Task.put_table, htable] at hr
    refine ⟨hr, ?_⟩
    rw [htask]
    by_cases hrp : r = p
    · rw [hrp, Task.put_structs_self]
      exact ⟨hstackaddr, hstacksize⟩
    · rw [Task.put_structs_of_ne _ _ _ _ hrp, hstructs]
      exact ⟨rfl, rfl⟩

/-- A published thread that is withdrawn is the only one that the table serves no more. -/
theorem serves_withdrawn (h : Inv L) {t : Table} (hserves : L.table.Serves p)
    (hset : L.table.set (L.structs p).thread .null = some t) (r : Nat) :
  t.Serves r ↔ L.table.Serves r ∧ r ≠ p
  := by
  obtain ⟨t', ht', -, -, hentry⟩ := h.withdraw hserves
  obtain rfl := Option.some_inj.mp (ht'.symm.trans hset)
  constructor
  · rintro ⟨i, hi⟩
    rw [hentry] at hi
    exact ⟨⟨i, hi.2⟩, hi.1⟩
  · rintro ⟨⟨i, hi⟩, hne⟩
    use i
    rw [hentry]
    exact ⟨hne, hi⟩

/-- A call on a published thread. -/
theorem CallEffect.stackCases (heffect : CallEffect H.task op.target H'.task) (h : Inv H.task)
    (hcreated : H'.created = H.created) :
  StackCases H op H'
  := by
  generalize htask : H'.task = L' at heffect
  cases heffect with
  | nothing =>
      apply StackCases.keeps
      · rw [htask]
      · rw [htask]
        exact ⟨rfl, rfl⟩
      · apply hcreated
      · intro r b _
        rw [htask]
      · intro r hr
        rw [htask] at hr
        rw [htask]
        exact ⟨hr, rfl, rfl⟩
  | exits p status serves state =>
      apply StackCases.of_put h serves htask
      all_goals first | rfl | exact hcreated
  | detaches p serves state =>
      apply StackCases.of_put h serves htask
      all_goals first | rfl | exact hcreated
  | leaves p t serves state withdrawn =>
      have hserves := serves_withdrawn h serves withdrawn
      apply StackCases.keeps
      · rw [htask, ownership_freed _ (by exact (h.serving p serves).1)]
        exact ownership_put_self (L := { H.task with table := t, total := H.task.total - 1 })
          rfl rfl (h.serving p serves).1 rfl rfl
      · rw [htask]
        exact ⟨rfl, rfl⟩
      · apply hcreated
      · intro r b _
        rw [htask]
        simp only [Task.Listed, Task.freed, Task.put_freeThreads, Task.put_table, hserves,
          List.mem_cons]
        by_cases hr : r = p
        · simp [hr, serves]
        · simp [hr]
      · intro r hr
        rw [htask] at hr
        obtain ⟨hr, hne⟩ := (hserves r).mp hr
        refine ⟨hr, ?_⟩
        rw [htask, Task.freed, Task.put_structs_of_ne _ _ _ _ hne]
        exact ⟨rfl, rfl⟩
  | reclaims p t serves asked state stack withdrawn =>
      obtain ⟨thread, htarget, hget⟩ := asked
      have hserves := serves_withdrawn h serves withdrawn
      have hlt := (h.serving p serves).1
      apply StackCases.reclaims thread p htarget hget state
      · rw [Task.ownership]
        simp [hlt, stack]
      · rw [htask, ownership_freed _ (by exact hlt)]
        have hdrop : (({ H.task with table := t }.put p { H.task.structs p with stack := false }
            (((H.task.kernel.dropThread (H.task.structs p).kernelThread).dropPort
              (H.task.structs p).wakeupPort).dropStack (H.task.structs p).stackaddr))).ownership =
            (H.task.put p (H.task.structs p) H.task.kernel).ownership.drop p :=
          ownership_dropStack (B := { H.task with table := t }) hlt stack rfl rfl rfl rfl
        rw [Task.put_eq_self] at hdrop
        rw [← hdrop, Kernel.dropStack_dropPort]
      · rw [htask]
        exact ⟨Kernel.dropStack_pageSize _ _, Kernel.dropStack_inaccessible _ _⟩
      · apply hcreated
      · intro r
        rw [htask]
        simp only [Task.Listed, Task.freed, Task.put_freeThreads, Task.put_table, hserves,
          List.mem_cons]
        by_cases hr : r = p
        · simp [hr, serves]
        · simp [hr]
      · intro r
        rw [htask]
        apply hserves
      · intro r hr
        rw [htask]
        exact Task.put_structs_of_ne _ _ _ _ hr

/-- The caller of a creation is terminated by `__pthread_alloc`, or it is not that thread whose
structure is recycled. -/
theorem Inv.create_halted (h : Inv L) (self : Nat) (attr : Option Attr) (a : Answers) :
  (∃ p rest, L.freeThreads = p :: rest ∧ (L.structs p).kernelThread = self ∧
      L.createInternal self attr a = .halted ({ L with freeThreads := rest }.threadHalt p)) ∨
    ∀ r ∈ L.freeThreads.head?, (L.structs r).kernelThread ≠ self
  := by
  by_cases hfree : ∀ r ∈ L.freeThreads.head?, (L.structs r).kernelThread ≠ self
  · right
    apply hfree
  · left
    push Not at hfree
    obtain ⟨p, hp, hown⟩ := hfree
    obtain ⟨rest, hcons⟩ := List.head?_eq_some_iff.mp hp
    refine ⟨p, rest, hcons, hown, ?_⟩
    rw [Task.createInternal, Task.prepare, h.alloc_halted hcons a hown, Exec.halted_bind,
      Exec.halted_bind]

/-- Every call is one of these. -/
theorem StepCases.stackCases (hcases : StepCases H op H') (h : Inv H.task) :
  StackCases H op H'
  := by
  cases hcases with
  | started self attr a creation alive L p total call ends task created =>
      rcases h.create_halted self attr a with ⟨r, rest, hfree, hown, hhalted⟩ | hother
      · rw [hhalted] at call
        cases call
      · apply ends.starts h hother creation task created
  | ended self attr a creation alive x call ends task other created =>
      rcases h.create_halted self attr a with ⟨r, rest, hfree, hown, hhalted⟩ | hother
      · rw [hhalted] at call
        subst call
        apply h.loses creation hfree hown (Option.some.inj task).symm created
      · apply ends.stackCases h hother creation alive task other created
  | called creation effect created => apply effect.stackCases h created

end Cases

end LibPthread.Thread
