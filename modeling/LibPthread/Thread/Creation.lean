import LibPthread.Thread.Functions

/-!
# The steps of a creation

A creation works on one structure and on the kernel. `L.put p q K` is the task `L` with the
structure `p` and the kernel replaced, and the steps of a creation are computed on tasks of
this form.
-/

open Concurrency

namespace LibPthread.Thread

namespace Kernel

variable (K : Kernel)

/-- `thread_terminate` of the kernel thread `n`. -/
@[simps]
def dropThread (n : Nat) : Kernel :=
  { K with threads := K.threads.release n }

/-- `mach_port_destroy` of the port `n`. -/
@[simps]
def dropPort (n : Nat) : Kernel :=
  { K with ports := K.ports.release n }

/-- `__pthread_stack_dealloc` of the stack at the given address. -/
def dropStack : Stackaddr → Kernel
  | .user a => { K with userDeallocs := a :: K.userDeallocs }
  | .allocated k => { K with vmStacks := K.vmStacks.release k }

/-- `_dl_deallocate_tls` of the block, if there is one. -/
@[simps]
def dropTls (tcb : Option Nat) : Kernel :=
  { K with tls := tcb.elim K.tls K.tls.release }

end Kernel

/-- The structure after `__pthread_dealloc`. -/
def Pthread.terminated (q : Pthread) : Pthread :=
  { q with
    state := .terminated
    stateCond := if q.state = .exited then q.stateCond else q.stateCond + 1 }

namespace Task

/-- The task with the structure `p` and the kernel replaced. -/
def put (L : Task) (p : Nat) (q : Pthread) (K : Kernel) : Task :=
  { L with structs := Function.update L.structs p q, kernel := K }

section Put

variable (L : Task) (p : Nat) (q : Pthread) (K : Kernel)

theorem put_eq_self :
  L.put p (L.structs p) L.kernel = L
  := by
  rw [put, Function.update_eq_self]

@[simp]
theorem put_structs_self :
  (L.put p q K).structs p = q
  := by
  simp [put]

theorem put_structs_of_ne {r : Nat} (hr : r ≠ p) :
  (L.put p q K).structs r = L.structs r
  := by
  simp [put, hr]

@[simp]
theorem put_kernel :
  (L.put p q K).kernel = K
  := rfl

@[simp]
theorem put_table :
  (L.put p q K).table = L.table
  := rfl

@[simp]
theorem put_freeThreads :
  (L.put p q K).freeThreads = L.freeThreads
  := rfl

@[simp]
theorem put_total :
  (L.put p q K).total = L.total
  := rfl

@[simp]
theorem put_heap :
  (L.put p q K).heap = L.heap
  := rfl

@[simp]
theorem put_defaultStacksize :
  (L.put p q K).defaultStacksize = L.defaultStacksize
  := rfl

@[simp]
theorem put_defaultAttr :
  (L.put p q K).defaultAttr = L.defaultAttr
  := rfl

@[simp]
theorem put_modify (f : Pthread → Pthread) :
  (L.put p q K).modify p f = L.put p (f q) K
  := by
  simp [put, modify]

@[simp]
theorem put_put (q' : Pthread) (K' : Kernel) :
  (L.put p q K).put p q' K' = L.put p q' K'
  := by
  simp [put]

@[simp]
theorem put_setKernel (K' : Kernel) :
  (L.put p q K).setKernel K' = L.put p q K'
  := rfl

@[simp]
theorem put_threadHalt :
  (L.put p q K).threadHalt p = L.put p q (K.dropThread q.kernelThread)
  := by
  rw [threadHalt, put_structs_self]
  rfl

@[simp]
theorem put_threadDealloc :
  (L.put p q K).threadDealloc p = L.put p q (K.dropPort q.wakeupPort)
  := by
  rw [threadDealloc, put_structs_self]
  rfl

@[simp]
theorem put_stackDealloc :
  (L.put p q K).stackDealloc p = L.put p q (K.dropStack q.stackaddr)
  := by
  rw [stackDealloc, put_structs_self]
  cases q.stackaddr <;> rfl

@[simp]
theorem put_dropTls :
  (L.put p q K).dropTls p = L.put p { q with tcb := none } (K.dropTls q.tcb)
  := by
  rw [dropTls, put_structs_self]
  cases hq : q.tcb with
  | none =>
      have hself : { q with tcb := none } = q := by rw [← hq]
      rw [hself]
      rfl
  | some b =>
      rw [put_modify]
      rfl

@[simp]
theorem put_allocateTls :
  (L.put p q K).allocateTls p = L.put p { q with tcb := some K.tls.count } K.newTls
  := by
  simp [allocateTls]

@[simp]
theorem put_protect :
  (L.put p q K).protect p = L.put p q (K.protect q.stackaddr q.guardsize)
  := by
  simp [protect]

theorem put_publish :
  (L.put p q K).publish p =
    (L.table.set q.thread (.entry p)).map fun t => { L with table := t }.put p q K
  := by
  rw [publish, put_structs_self]
  rfl

theorem put_unpublish :
  (L.put p q K).unpublish p =
    (L.table.set q.thread .null).map fun t => { L with table := t }.put p q K
  := by
  rw [unpublish, put_structs_self]
  rfl

@[simp]
theorem put_initializePthread (recycling : Bool) :
  (L.put p q K).initializePthread p recycling =
    L.put p { q with
      cancelEnabled := true
      cancelPending := false
      stack := recycling && q.stack
      stateCond := if recycling then q.stateCond else 0
      tcb := if recycling then q.tcb else none } K
  := by
  cases recycling <;> simp [initializePthread]

@[simp]
theorem put_initThread (setup : Attr) :
  (L.put p q K).initThread p setup =
    L.put p { q with
      state := if setup.detached then .detached else .joinable
      guardsize := if setup.stackaddr.isSome then 0
        else if setup.guardsize ≤ setup.stacksize then setup.guardsize
        else setup.stacksize } K
  := by
  simp [initThread]

/-- The structure is put on the free list. -/
def freed : Task :=
  { L with freeThreads := p :: L.freeThreads }.put p q.terminated K

theorem freed_threadHalt :
  (L.freed p q K).threadHalt p = L.freed p q (K.dropThread q.kernelThread)
  := by
  rw [freed, put_threadHalt]
  rfl

variable {L p q K}

/-- The steps of `__pthread_dealloc`. -/
theorem runAll_dealloc {t : Table} (hset : L.table.set q.thread .null = some t)
    (hfree : p ∉ L.freeThreads) (hstate : q.state ≠ .terminated) :
  Stage.runAll p Stage.dealloc (L.put p q K) = some ({ L with table := t }.freed p q K)
  := by
  have hassert : Stage.assertState.run (L.put p q K) p = some (L.put p q K) := by
    rw [Stage.run, put_structs_self, if_neg hstate]
  have hsetid : Stage.setid.run (L.put p q K) p = some ({ L with table := t }.put p q K) := by
    rw [Stage.run, put_unpublish, hset]
    rfl
  have hbroadcast : Stage.broadcast.run ({ L with table := t }.put p q K) p =
      some ({ L with table := t }.put p { q.terminated with state := q.state } K) := by
    rw [Stage.run, put_structs_self]
    by_cases hexited : q.state = .exited
    · rw [if_pos hexited, Pthread.terminated, if_pos hexited]
    · rw [if_neg hexited, Pthread.terminated, if_neg hexited, broadcast, put_modify]
  have henqueue : ∀ q', Stage.enqueue.run ({ L with table := t }.put p q' K) p =
      some ({ L with table := t, freeThreads := p :: L.freeThreads }.put p q' K) :=
    fun q' => if_neg hfree
  simp only [Stage.dealloc, Stage.runAll, hassert, hsetid, hbroadcast, henqueue]
  rw [Stage.run, put_modify]
  rfl

end Put

end Task

/-! ### The structures between the calls -/

/-- The table has an entry for the structure. -/
def Table.Serves (t : Table) (p : Nat) : Prop :=
  ∃ i : Nat, t.threads[i]? = some (.entry p)

/-- The state between the calls: every structure that has an ID is on the free list or has an
entry in the table, or was lost when a caller was halted. -/
structure Inv (L : Task) : Prop where
  registered : Table.Registered L fun r => r ∈ L.freeThreads ∨ L.table.Serves r
  nodup : L.freeThreads.Nodup
  free : ∀ r ∈ L.freeThreads,
    r < L.heap ∧ (L.structs r).state = .terminated ∧ ¬ L.table.Serves r
  serving : ∀ r, L.table.Serves r → r < L.heap ∧ (L.structs r).state ≠ .terminated

/-- The state while a call has the structure `p` in its hands. -/
structure Held (L : Task) (p : Nat) : Prop where
  registered : Table.Registered L fun r => r = p ∨ r ∈ L.freeThreads ∨ L.table.Serves r
  nodup : (p :: L.freeThreads).Nodup
  lt : p < L.heap
  absent : ¬ L.table.Serves p
  free : ∀ r ∈ L.freeThreads,
    r < L.heap ∧ (L.structs r).state = .terminated ∧ ¬ L.table.Serves r
  serving : ∀ r, L.table.Serves r → r < L.heap ∧ (L.structs r).state ≠ .terminated

section Held

variable {L L' : Task} {p : Nat} {q q' : Pthread} {K K' : Kernel}

/-- The structure may change, except for its ID. -/
theorem Held.put (h : Held (L.put p q K) p) (hthread : q'.thread = q.thread) :
  Held (L.put p q' K') p
  := by
  have hne : ∀ r, r ≠ p → (L.put p q' K').structs r = (L.put p q K).structs r := by
    intro r hr
    rw [L.put_structs_of_ne _ _ _ hr, L.put_structs_of_ne _ _ _ hr]
  have hfree : ∀ r ∈ L.freeThreads, r ≠ p := by
    rintro r hr rfl
    apply (List.nodup_cons.mp h.nodup).1 hr
  have hserving : ∀ r, L.table.Serves r → r ≠ p := by
    rintro r hr rfl
    apply h.absent hr
  constructor
  · refine h.registered.congr rfl (fun r => Iff.rfl) ?_
    intro r _
    rcases eq_or_ne r p with rfl | hr
    · simpa using hthread
    · rw [hne r hr]
  · apply h.nodup
  · apply h.lt
  · apply h.absent
  · intro r hr
    rw [hne r (hfree r hr)]
    apply h.free r hr
  · intro r hr
    rw [hne r (hserving r hr)]
    apply h.serving r hr

/-- A structure that nobody has in hand any more is lost. -/
theorem Held.lose (h : Held L p) :
  Inv L
  := by
  constructor
  · constructor
    · apply h.registered.wf
    · intro i r hr
      use (h.registered.entry i r hr).1
      right
      use i
    · intro r hr
      apply h.registered.range r (.inr hr)
    · intro r r' hr hr'
      apply h.registered.distinct r r' (.inr hr) (.inr hr')
  · apply (List.nodup_cons.mp h.nodup).2
  · apply h.free
  · apply h.serving

/-- The entry of the structure is `NULL`. -/
theorem Held.set_null (h : Held L p) :
  L.table.set (L.structs p).thread .null = some L.table
  := by
  obtain ⟨hlo, hhi⟩ := h.registered.range p (.inl rfl)
  have hnum := h.registered.wf.num_le
  have hlen := h.registered.wf.length
  have hlt : (L.structs p).thread - 1 < L.table.threads.length := by omega
  have hwritten := h.registered.wf.written ((L.structs p).thread - 1) (by omega)
  have hnull : L.table.threads[(L.structs p).thread - 1] = .null := by
    cases hslot : L.table.threads[(L.structs p).thread - 1] with
    | null => rfl
    | unwritten =>
        rw [List.getElem?_eq_getElem hlt, hslot] at hwritten
        have := hwritten.mp rfl
        omega
    | entry r =>
        have hr : L.table.threads[(L.structs p).thread - 1]? = some (.entry r) := by
          rw [List.getElem?_eq_getElem hlt, hslot]
        obtain ⟨hid, hk⟩ := h.registered.entry _ r hr
        obtain rfl := h.registered.distinct r p hk (.inl rfl) (by omega)
        exact absurd ⟨_, hr⟩ h.absent
  rw [Table.set, if_pos (by omega), ← hnull, List.set_getElem_self]

/-- The structure goes to the free list. -/
theorem Held.toFree (h : Held (L.put p q K) p) (hthread : q'.thread = q.thread) :
  Inv (L.freed p q' K')
  := by
  have h' : Held (L.put p q'.terminated K') p := h.put hthread
  rw [Task.freed]
  constructor
  · refine h'.registered.congr rfl ?_ (fun _ _ => rfl)
    intro r
    simp [or_assoc]
  · apply h.nodup
  · intro r hr
    rcases List.mem_cons.mp hr with rfl | hr
    · refine ⟨h.lt, ?_, h.absent⟩
      rw [Task.put_structs_self]
      rfl
    · apply h'.free r hr
  · apply h'.serving

/-- The steps of `__pthread_dealloc` on a structure without an entry. -/
theorem Held.runAll_dealloc (h : Held (L.put p q K) p) (hstate : q.state ≠ .terminated) :
  Stage.runAll p Stage.dealloc (L.put p q K) = some (L.freed p q K)
  := by
  have hnull := h.set_null
  rw [Task.put_structs_self, Task.put_table] at hnull
  apply Task.runAll_dealloc hnull (List.nodup_cons.mp h.nodup).1 hstate

end Held

/-! ### The structure that is handed out -/

/-- The structure that `__pthread_alloc` hands out, with the contents the creation finds. -/
def Task.handed (L : Task) (a : Answers) : Option (Nat × Pthread) :=
  match L.freeThreads with
  | p :: _ => some (p, L.structs p)
  | [] =>
    match a.structMalloc with
    | none => none
    | some junk =>
      if L.table.num < L.table.max ∨ a.tableMalloc then
        some (L.heap, { junk with stack := false })
      else none

/-- `__pthread_num_threads` after a structure was handed out. -/
def Task.numAfter (L : Task) : Nat :=
  if L.freeThreads = [] then L.table.num + 1 else L.table.num

/-- The ID of the structure `p` that was handed out. -/
def Task.handedId (L : Task) (p : Nat) : Nat :=
  if L.freeThreads = [] then 1 + L.table.num else (L.structs p).thread

/-- The structure `p` with the contents `c` was handed out: it has become `q`, the kernel `K`,
and the rest of the task `B`. -/
structure Handed (L : Task) (a : Answers) (p : Nat) (c : Pthread) (B : Task) (q : Pthread)
    (K : Kernel) : Prop where
  handed : L.handed a = some (p, c)
  held : Held (B.put p q K) p
  structs : B.structs = L.structs
  heap : ∀ r, r ≠ p → (r < B.heap ↔ r < L.heap)
  total : B.total = L.total
  defaultStacksize : B.defaultStacksize = L.defaultStacksize
  defaultAttr : B.defaultAttr = L.defaultAttr
  num : B.table.num = L.numAfter
  entry : ∀ (i : Nat) r,
    B.table.threads[i]? = some (.entry r) ↔ L.table.threads[i]? = some (.entry r)
  free : L.freeThreads = p :: B.freeThreads ∨
    L.freeThreads = [] ∧ B.freeThreads = [] ∧ p = L.heap
  contents : ∃ stateCond, q =
    { c with
      thread := L.handedId p
      cancelEnabled := true
      cancelPending := false
      stateCond := stateCond
      tcb := none }
  kernel : K = if L.freeThreads = [] then L.kernel
    else (L.kernel.dropThread c.kernelThread).dropTls c.tcb

section Alloc

variable {L : Task}

theorem Inv.takeFree (h : Inv L) {p : Nat} {rest : List Nat} (hfree : L.freeThreads = p :: rest) :
  L.takeFree = some (p, { L with freeThreads := rest })
  := by
  have hp : p ∈ L.freeThreads := by
    rw [hfree]
    exact List.mem_cons_self
  have hstate := (h.free p hp).2.1
  rw [Task.takeFree, hfree, List.find?_cons_of_pos (by simpa using hstate)]
  simp

/-- The first structure of the free list leaves it. -/
theorem Inv.take (h : Inv L) {p : Nat} {rest : List Nat} (hfree : L.freeThreads = p :: rest) :
  Held { L with freeThreads := rest } p
  := by
  have hmem : ∀ r, r ∈ L.freeThreads ↔ r = p ∨ r ∈ rest := by
    intro r
    rw [hfree, List.mem_cons]
  constructor
  · refine h.registered.congr rfl ?_ (fun _ _ => rfl)
    intro r
    rw [hmem, or_assoc]
  · rw [← hfree]
    apply h.nodup
  · apply (h.free p ((hmem p).mpr (.inl rfl))).1
  · apply (h.free p ((hmem p).mpr (.inl rfl))).2.2
  · intro r hr
    apply h.free r ((hmem r).mpr (.inr hr))
  · apply h.serving

/-- A recycled structure is handed out. -/
theorem Inv.recycle (h : Inv L) {p : Nat} {rest : List Nat} (hfree : L.freeThreads = p :: rest)
    (self : Nat) (a : Answers) (hself : (L.structs p).kernelThread ≠ self) :
  ∃ B q K, Handed L a p (L.structs p) B q K ∧ L.alloc self a = .ret (B.put p q K) (.ok p)
  := by
  have hput := Task.put_eq_self { L with freeThreads := rest } p
  refine ⟨{ L with freeThreads := rest },
    { L.structs p with cancelEnabled := true, cancelPending := false, tcb := none },
    (L.kernel.dropThread (L.structs p).kernelThread).dropTls (L.structs p).tcb, ?_, ?_⟩
  · constructor
    · simp [Task.handed, hfree]
    · have hheld := h.take hfree
      rw [← hput] at hheld
      apply hheld.put
      rfl
    · rfl
    · exact fun _ _ => Iff.rfl
    · rfl
    · rfl
    · rfl
    · simp [Task.numAfter, hfree]
    · intro i r
      rfl
    · left
      apply hfree
    · use (L.structs p).stateCond
      rw [Task.handedId, if_neg (by simp [hfree])]
    · rw [if_neg (by simp [hfree])]
  · rw [Task.alloc, h.takeFree hfree]
    simp only [Task.halt]
    rw [if_neg hself, Exec.ret_bind, ← hput, Task.put_threadHalt, Task.put_dropTls,
      Task.put_initializePthread]
    simp

/-- `__pthread_alloc` terminates the kernel thread of its caller. -/
theorem Inv.alloc_halted (h : Inv L) {p : Nat} {rest : List Nat}
    (hfree : L.freeThreads = p :: rest) {self : Nat} (a : Answers)
    (hself : (L.structs p).kernelThread = self) :
  L.alloc self a = .halted ({ L with freeThreads := rest }.threadHalt p)
  := by
  rw [Task.alloc, h.takeFree hfree]
  simp only [Task.halt]
  rw [if_pos hself, Exec.halted_bind]

/-- The memory that `malloc` has returned. -/
theorem malloc_initializePthread (L : Task) (junk : Pthread) :
  (L.malloc junk).initializePthread L.heap false =
    { L with heap := L.heap + 1 }.put L.heap
      { junk with
        cancelEnabled := true
        cancelPending := false
        stack := false
        stateCond := 0
        tcb := none } L.kernel
  := by
  have hput : L.malloc junk = { L with heap := L.heap + 1 }.put L.heap junk L.kernel := rfl
  rw [hput, Task.put_initializePthread]
  simp

/-- The entries of a table with room for one more are those of the table. -/
theorem entry_take {t : Table} (h : t.Wf) (hroom : t.num < t.max) (i r : Nat) :
  (t.threads.set t.num .null)[i]? = some (.entry r) ↔ t.threads[i]? = some (.entry r)
  := by
  rw [List.getElem?_set]
  split
  · rename_i hi
    have hlen := h.length
    have hunwritten := (h.written i (by omega)).mpr (by omega)
    rw [if_pos (by omega), hunwritten]
    simp
  · rfl

/-- The entries of an enlarged table are those of the table. -/
theorem entry_enlarge {t : Table} (h : t.Wf) (i r : Nat) :
  (t.enlarge (Table.newMax t.max)).threads[i]? = some (.entry r) ↔
    t.threads[i]? = some (.entry r)
  := by
  obtain ⟨hwf, hmax, hold⟩ := h.enlarge
  have hlen := h.length
  rcases Nat.lt_or_ge i t.max with hi | hi
  · rw [hold i hi]
  · rw [List.getElem?_eq_none (by omega : t.threads.length ≤ i)]
    constructor
    · intro hr
      have hlt : i < (t.enlarge (Table.newMax t.max)).max := by
        rw [← hwf.length]
        apply (List.getElem?_eq_some_iff.mp hr).1
      have hnum := h.num_le
      rw [(hwf.written i hlt).mpr (by simp only [Table.enlarge]; omega)] at hr
      cases hr
    · simp

/-- A new structure gets the ID of a free slot. -/
theorem Inv.adopt (h : Inv L) (hfree : L.freeThreads = []) {t : Table}
    (ht : Table.Registered { L with table := t } fun r => r ∈ L.freeThreads ∨ L.table.Serves r)
    (hentry : ∀ (i : Nat) r,
      t.threads[i]? = some (.entry r) ↔ L.table.threads[i]? = some (.entry r))
    (hnum : t.num = L.table.num) (hroom : t.num < t.max) {a : Answers} {junk : Pthread}
    (hhanded : L.handed a = some (L.heap, { junk with stack := false })) :
  ∃ B q K, Handed L a L.heap { junk with stack := false } B q K ∧
    Task.takeSlot { (L.malloc junk).initializePthread L.heap false with table := t } L.heap =
      some (B.put L.heap q K)
  := by
  have hlt : ∀ r, r ∈ L.freeThreads ∨ L.table.Serves r → r < L.heap := by
    rintro r (hr | hr)
    · apply (h.free r hr).1
    · apply (h.serving r hr).1
  -- the table with the slot taken
  have hentry' : ∀ (i : Nat) r, (t.threads.set t.num .null)[i]? = some (.entry r) ↔
      L.table.threads[i]? = some (.entry r) := by
    intro i r
    rw [entry_take ht.wf hroom, hentry]
  have hserves : ∀ r, (⟨t.threads.set t.num .null, t.max, t.num + 1⟩ : Table).Serves r ↔
      L.table.Serves r := by
    intro r
    apply exists_congr
    intro i
    apply hentry'
  have hreg : Table.Registered
      { (L.malloc junk).initializePthread L.heap false with table := t }
      fun r => r ∈ L.freeThreads ∨ L.table.Serves r := by
    refine ht.congr rfl (fun r => Iff.rfl) ?_
    intro r hr
    rw [malloc_initializePthread]
    simp [Task.put, (hlt r hr).ne]
  let B : Task := { L with
    heap := L.heap + 1
    table := ⟨t.threads.set t.num .null, t.max, t.num + 1⟩ }
  let q : Pthread := { junk with
    cancelEnabled := true
    cancelPending := false
    stack := false
    stateCond := 0
    tcb := none
    thread := 1 + t.num }
  have htake : Task.takeSlot
      { (L.malloc junk).initializePthread L.heap false with table := t } L.heap =
      some (B.put L.heap q L.kernel) := by
    rw [Table.takeSlot_eq hreg.wf hroom L.heap, malloc_initializePthread]
    simp [B, q, Task.put, Task.modify]
  refine ⟨B, q, L.kernel, ?_, htake⟩
  constructor
  · apply hhanded
  · constructor
    · refine (hreg.takeSlot hroom (fun hk => (hlt _ hk).false) htake).congr rfl ?_
        (fun _ _ => rfl)
      intro r
      rw [Task.put_freeThreads, Task.put_table, hserves]
    · simp [B, hfree]
    · simp [B]
    · rw [Task.put_table, hserves]
      intro hserve
      apply (hlt _ (.inr hserve)).false
    · simp [B, hfree]
    · intro r hr
      rw [Task.put_table, hserves] at hr
      obtain ⟨hr', hstate⟩ := h.serving r hr
      rw [Task.put_structs_of_ne _ _ _ _ hr'.ne]
      use hr'.trans (Nat.lt_succ_self _)
  · rfl
  · intro r hr
    simp only [B]
    omega
  · rfl
  · rfl
  · rfl
  · simp [B, Task.numAfter, hfree, hnum]
  · apply hentry'
  · right
    use hfree, hfree
  · use 0
    rw [Task.handedId, if_pos hfree, ← hnum]
  · rw [if_pos hfree]

/-- What `__pthread_alloc` does: it terminates its caller, fails, or hands out a structure. -/
theorem Inv.alloc_cases (h : Inv L) (self : Nat) (a : Answers) :
  (∃ p rest, L.freeThreads = p :: rest ∧ (L.structs p).kernelThread = self ∧
      L.alloc self a = .halted ({ L with freeThreads := rest }.threadHalt p)) ∨
    (L.freeThreads = [] ∧ L.handed a = none ∧ ∃ heap memory, L.heap ≤ heap ∧
      (∀ r < L.heap, memory r = L.structs r) ∧
      (∀ r < heap, L.heap ≤ r → (memory r).stack = false) ∧
      L.alloc self a = .ret { L with heap := heap, structs := memory } (.error .ENOMEM)) ∨
    ∃ p c B q K, Handed L a p c B q K ∧ (L.freeThreads ≠ [] → c.kernelThread ≠ self) ∧
      L.alloc self a = .ret (B.put p q K) (.ok p)
  := by
  by_cases hfree : L.freeThreads = []
  · right
    have htake : L.takeFree = none := by
      simp [Task.takeFree, hfree]
    cases hmalloc : a.structMalloc with
    | none =>
        left
        refine ⟨hfree, ?_, L.heap, L.structs, le_refl _, fun _ _ => rfl,
          by omega, ?_⟩
        · simp [Task.handed, hfree, hmalloc]
        · simp [Task.alloc, htake, hmalloc]
    | some junk =>
        have hhanded : L.table.num < L.table.max ∨ a.tableMalloc = true →
            L.handed a = some (L.heap, { junk with stack := false }) := by
          intro hroom
          simp [Task.handed, hfree, hmalloc, hroom]
        have halloc : L.alloc self a =
            if L.table.num < L.table.max then
              .ofOption (((L.malloc junk).initializePthread L.heap false).takeSlot L.heap)
                (.ok L.heap)
            else if a.tableMalloc then
              .ofOption (((L.malloc junk).initializePthread L.heap false).growTable L.heap)
                (.ok L.heap)
            else .ret ((L.malloc junk).initializePthread L.heap false) (.error .ENOMEM) := by
          rw [Task.alloc, htake, hmalloc]
          simp
        rw [halloc]
        split
        · rename_i hroom
          right
          obtain ⟨B, q, K, hB, hslot⟩ := h.adopt hfree h.registered (fun _ _ => Iff.rfl) rfl
            hroom (hhanded (.inl hroom))
          refine ⟨_, _, B, q, K, hB, absurd hfree, ?_⟩
          rw [show (L.malloc junk).initializePthread L.heap false =
            { (L.malloc junk).initializePthread L.heap false with table := L.table } from rfl,
            hslot, Exec.ofOption_some]
        · rename_i hroom
          split
          · rename_i htable
            right
            obtain ⟨hwf, hmax, -⟩ := h.registered.wf.enlarge
            obtain ⟨B, q, K, hB, hslot⟩ := h.adopt hfree h.registered.enlarge
              (entry_enlarge h.registered.wf) rfl hmax (hhanded (.inr htable))
            refine ⟨_, _, B, q, K, hB, absurd hfree, ?_⟩
            rw [Task.growTable, Task.initializePthread_table, Task.malloc_table, hslot,
              Exec.ofOption_some]
          · rename_i htable
            left
            refine ⟨hfree, ?_, L.heap + 1, ((L.malloc junk).initializePthread L.heap false).structs,
              Nat.le_succ _, ?_, ?_, rfl⟩
            · simp [Task.handed, hfree, hmalloc, hroom, htable]
            · intro r hr
              rw [malloc_initializePthread, Task.put_structs_of_ne _ _ _ _ hr.ne]
            · intro r hlt hge
              obtain rfl : r = L.heap := by omega
              rw [malloc_initializePthread, Task.put_structs_self]
  · obtain ⟨p, rest, hcons⟩ := List.exists_cons_of_ne_nil hfree
    by_cases hself : (L.structs p).kernelThread = self
    · left
      refine ⟨p, rest, hcons, hself, h.alloc_halted hcons a hself⟩
    · right; right
      obtain ⟨B, q, K, hB, halloc⟩ := h.recycle hcons self a hself
      exact ⟨p, _, B, q, K, hB, fun _ => hself, halloc⟩

end Alloc

/-! ### The steps of a creation on the structure -/

section Steps

variable (q : Pthread) (K : Kernel)

/-- The structure after the first assignments of `__pthread_create_internal`. -/
def Pthread.prepared (setup : Attr) : Pthread :=
  { q with
    state := if setup.detached then .detached else .joinable
    guardsize := if setup.stackaddr.isSome then 0
      else if setup.guardsize ≤ setup.stacksize then setup.guardsize else setup.stacksize }

/-- A stack is found. -/
def takeStack (setup : Attr) : Pthread × Kernel :=
  if q.stack then
    match setup.stackaddr with
    | none => (q, K)
    | some addr =>
      ({ q with stackaddr := .user addr, stacksize := setup.stacksize },
        K.dropStack q.stackaddr)
  else
    ({ q with
        stackaddr := .allocated K.vmStacks.count
        stacksize := setup.stacksize
        stack := true }, K.newStack)

/-- The wakeup port is allocated. -/
def takePort : Pthread × Kernel :=
  ({ q with wakeupPort := K.ports.count }, K.newPort)

/-- The kernel resources are allocated, when there are `num` structures. -/
def takeKernel (self num : Nat) : Pthread × Kernel :=
  if q.haveKernelResources then (q, K)
  else
    let x := takePort q K
    if num = 1 then ({ x.1 with kernelThread := self, haveKernelResources := true }, x.2)
    else
      ({ x.1 with kernelThread := K.threads.count, haveKernelResources := true },
        x.2.newThread)

/-- The block for thread-local storage is allocated, and the guard is set up. -/
def takeTls : Pthread × Kernel :=
  ({ q with tcb := some K.tls.count }, K.newTls.protect q.stackaddr q.guardsize)

/-- What the labels of a failed creation release before the stack. -/
def Kernel.release : Kernel :=
  ((K.dropTls q.tcb).dropPort q.wakeupPort).dropThread q.kernelThread

end Steps

section Put

variable {L : Task} {p : Nat} {q : Pthread} {K : Kernel}

theorem findStack_put (setup : Attr) (a : Answers) :
  (L.put p q K).findStack p setup a =
    if q.stack = false ∧ setup.stacksize ≠ L.defaultStacksize then .error .EINVAL
    else if q.stack = false ∧ a.vmAllocate = false then .error .EAGAIN
    else .ok (L.put p (takeStack q K setup).1 (takeStack q K setup).2)
  := by
  rw [Task.findStack, Task.put_structs_self, takeStack]
  cases hstack : q.stack with
  | true =>
      simp only [if_true, Bool.true_eq_false, false_and, if_false]
      cases setup.stackaddr with
      | none => rfl
      | some addr => simp [hstack]
  | false =>
      rw [Task.stackAlloc]
      by_cases hsize : setup.stacksize = L.defaultStacksize
      · cases a.vmAllocate <;> simp [hsize]
      · simp [hsize]

theorem threadAlloc_put (self : Nat) (a : Answers) :
  (L.put p q K).threadAlloc self p a =
    if q.haveKernelResources then .ret (L.put p q K) none
    else if a.portAllocate = false then .ret (L.put p q K) (some .EAGAIN)
    else if a.insertRight = false then
      .ret (L.put p (takePort q K).1 ((takePort q K).2.dropPort K.ports.count)) (some .EAGAIN)
    else if L.table.num = 1 ∧ L.total ≠ 0 then .fault
    else if L.table.num ≠ 1 ∧ a.threadCreate = false then
      .ret (L.put p (takePort q K).1 (takePort q K).2) (some .EAGAIN)
    else
      .ret (L.put p (takeKernel q K self L.table.num).1 (takeKernel q K self L.table.num).2) none
  := by
  rw [Task.threadAlloc, Task.put_structs_self]
  cases hkr : q.haveKernelResources with
  | true => rfl
  | false =>
      rw [Task.createWakeupmsg, takeKernel, takePort, hkr]
      cases a.portAllocate with
      | false => rfl
      | true =>
          cases a.insertRight with
          | false => simp [hkr]
          | true =>
              by_cases hnum : L.table.num = 1
              · by_cases htotal : L.total = 0
                · simp [hnum, htotal]
                · simp [hnum, htotal]
              · cases a.threadCreate <;> simp [hkr, hnum]

theorem failedStackAlloc_put (h : Held (L.put p q K) p) (hstate : q.state ≠ .terminated)
    (err : Option Errno) :
  (L.put p q K).failedStackAlloc p err = .ret (L.freed p q K) err
  := by
  rw [Task.failedStackAlloc, h.runAll_dealloc hstate]
  rfl

theorem failedThreadAlloc_put (h : Held (L.put p q K) p) (hstate : q.state ≠ .terminated)
    (err : Option Errno) :
  (L.put p q K).failedThreadAlloc p err =
    .ret (L.freed p { q with stack := false } (K.dropStack q.stackaddr)) err
  := by
  have h' : Held (L.put p { q with stack := false } (K.dropStack q.stackaddr)) p := h.put rfl
  rw [Task.failedThreadAlloc, Task.put_stackDealloc, Task.put_modify,
    failedStackAlloc_put h' hstate]

/-- The labels from `failed_setup` on: the caller terminates its own kernel thread, or everything
is released. -/
theorem failedSetup_put (h : Held (L.put p q K) p) (hstate : q.state ≠ .terminated)
    (self : Nat) (err : Option Errno) :
  (L.put p q K).failedSetup self p err =
    if q.kernelThread = self then .halted (L.put p { q with tcb := none } (K.release q))
    else .ret (L.freed p { q with tcb := none, stack := false }
      ((K.release q).dropStack q.stackaddr)) err
  := by
  have h' : Held (L.put p { q with tcb := none } (K.release q)) p := h.put rfl
  rw [Task.failedSetup, Task.put_dropTls, Task.failedThreadTlsAlloc, Task.put_threadDealloc,
    Task.halt, Task.put_structs_self, Task.put_threadHalt]
  split
  · rfl
  · rw [Exec.ret_bind]
    apply failedThreadAlloc_put h' hstate

/-- The label `failed_thread_tls_alloc` is the label `failed_setup` without a block. -/
theorem failedThreadTlsAlloc_put (htcb : q.tcb = none) (self : Nat) (err : Option Errno) :
  (L.put p q K).failedThreadTlsAlloc self p err = (L.put p q K).failedSetup self p err
  := by
  have hself : { q with tcb := none } = q := by rw [← htcb]
  rw [Task.failedSetup, Task.put_dropTls, hself, htcb]
  rfl

/-- The structure is stored in the table, and its entry can be cleared again. -/
theorem Held.publish (h : Held (L.put p q K) p) :
  ∃ t, L.table.set q.thread (.entry p) = some t ∧ t.set q.thread .null = some L.table ∧
    t.num = L.table.num ∧
    (∀ (i : Nat) r, t.threads[i]? = some (.entry r) ↔
      (i + 1 = q.thread ∧ r = p) ∨ L.table.threads[i]? = some (.entry r))
  := by
  obtain ⟨hlo, hhi⟩ := h.registered.range p (.inl rfl)
  have hnum := h.registered.wf.num_le
  have hlen := h.registered.wf.length
  have hnull := h.set_null
  simp only [Task.put_structs_self, Task.put_table] at hnull hlo hhi hnum hlen
  have hrange : 1 ≤ q.thread ∧ q.thread ≤ L.table.threads.length := by omega
  rw [Table.set, if_pos hrange, Option.some_inj] at hnull
  refine ⟨{ L.table with threads := L.table.threads.set (q.thread - 1) (.entry p) },
    if_pos hrange, ?_, rfl, ?_⟩
  · rw [Table.set, if_pos (by simpa using hrange)]
    simpa using hnull
  · intro i r
    simp only [List.getElem?_set]
    split
    · rename_i hi
      have hslot : L.table.threads[i]? = some .null := by
        rw [← hnull]
        simp only [List.getElem?_set, if_pos hi]
        rw [if_pos (by omega)]
      have hi' : i + 1 = q.thread := by omega
      rw [if_pos (by omega), hslot]
      simp [hi', eq_comm]
    · have hi' : i + 1 ≠ q.thread := by omega
      simp [hi']

/-- The structure is served when it is stored in the table. -/
theorem Held.serves_publish (h : Held (L.put p q K) p) {t : Table}
    (ht : L.table.set q.thread (.entry p) = some t) (r : Nat) :
  t.Serves r ↔ r = p ∨ L.table.Serves r
  := by
  obtain ⟨t', ht', -, -, hentry⟩ := h.publish
  obtain rfl : t' = t := Option.some_inj.mp (ht'.symm.trans ht)
  constructor
  · rintro ⟨i, hi⟩
    rcases (hentry i r).mp hi with ⟨-, hr⟩ | hi
    · exact .inl hr
    · exact .inr ⟨i, hi⟩
  · rintro (rfl | ⟨i, hi⟩)
    · have hlo := (h.registered.range r (.inl rfl)).1
      rw [Task.put_structs_self] at hlo
      use q.thread - 1
      rw [hentry]
      left
      exact ⟨by omega, rfl⟩
    · use i
      rw [hentry]
      right
      apply hi

/-- The structure is in service. -/
theorem Held.serve (h : Held (L.put p q K) p) {t : Table} {q' : Pthread} {K' : Kernel}
    (ht : L.table.set q.thread (.entry p) = some t) (hthread : q'.thread = q.thread)
    (hstate : q'.state ≠ .terminated) :
  Inv ({ L with table := t }.put p q' K')
  := by
  have h' : Held (L.put p q' K') p := h.put hthread
  have hserves := h.serves_publish ht
  obtain ⟨t', hset, hreg⟩ := h'.registered.store (.inl rfl) (.inr rfl)
  rw [Task.put_structs_self, hthread, Task.put_table, ht, Option.some_inj] at hset
  subst hset
  constructor
  · refine hreg.congr rfl ?_ (fun _ _ => rfl)
    intro r
    simp only [Task.put_freeThreads, Task.put_table, hserves]
    tauto
  · apply (List.nodup_cons.mp h.nodup).2
  · intro r hr
    obtain ⟨hlt, hterm, habsent⟩ := h'.free r hr
    refine ⟨hlt, hterm, ?_⟩
    rw [Task.put_table, hserves]
    rintro (rfl | hr')
    · apply (List.nodup_cons.mp h.nodup).1 hr
    · apply habsent hr'
  · intro r hr
    rw [Task.put_table, hserves] at hr
    rcases hr with rfl | hr
    · refine ⟨h.lt, ?_⟩
      rw [Task.put_structs_self]
      apply hstate
    · apply h'.serving r hr

/-- From the allocation of the block for thread-local storage on. -/
theorem prepareTls_put (htcb : q.tcb = none) {t : Table}
    (ht : L.table.set q.thread (.entry p) = some t) (self : Nat) (a : Answers) :
  (L.put p q K).prepareTls self p a =
    let y := takeTls q K
    if a.allocateTls then
      match a.setup, a.sigstateInit with
      | .fault, _ => .fault
      | .error e, _ => Task.fail ((L.put p y.1 y.2).failedSetup self p (some e))
      | .ok, .fault => .fault
      | .ok, .error e => Task.fail ((L.put p y.1 y.2).failedSetup self p (some e))
      | .ok, .ok => .ret ({ L with table := t, total := L.total + 1 }.put p y.1 y.2) (.start p)
    else Task.fail ((L.put p q K).failedSetup self p none)
  := by
  rw [Task.prepareTls, failedThreadTlsAlloc_put htcb]
  split
  · simp only [Task.put_allocateTls, Task.put_protect]
    cases a.setup with
    | fault => rfl
    | error e => rfl
    | ok =>
        cases a.sigstateInit with
        | fault => rfl
        | error e => rfl
        | ok =>
            have hpublish := Task.put_publish { L with total := L.total + 1 } p
              (takeTls q K).1 (takeTls q K).2
            rw [show (takeTls q K).1.thread = q.thread from rfl, ht] at hpublish
            exact congrArg (Exec.ofOption · (Task.Prepared.start p)) hpublish
  · rfl

/-- From the allocation of the kernel resources on. -/
theorem prepareKernel_put (h : Held (L.put p q K) p) (hstate : q.state ≠ .terminated)
    (self : Nat) (a : Answers) :
  (L.put p q K).prepareKernel self p a =
    if q.haveKernelResources = false ∧ a.portAllocate = false then
      .ret (L.freed p { q with stack := false } (K.dropStack q.stackaddr))
        (.failed (some .EAGAIN))
    else if q.haveKernelResources = false ∧ a.insertRight = false then
      .ret (L.freed p { (takePort q K).1 with stack := false }
        (((takePort q K).2.dropPort K.ports.count).dropStack q.stackaddr))
        (.failed (some .EAGAIN))
    else if q.haveKernelResources = false ∧ L.table.num = 1 ∧ L.total ≠ 0 then .fault
    else if q.haveKernelResources = false ∧ L.table.num ≠ 1 ∧ a.threadCreate = false then
      .ret (L.freed p { (takePort q K).1 with stack := false }
        ((takePort q K).2.dropStack q.stackaddr)) (.failed (some .EAGAIN))
    else
      (L.put p (takeKernel q K self L.table.num).1
        (takeKernel q K self L.table.num).2).prepareTls self p a
  := by
  have hport : ∀ K', Held (L.put p (takePort q K).1 K') p := fun K' => h.put rfl
  rw [Task.prepareKernel, threadAlloc_put]
  by_cases hkr : q.haveKernelResources = true
  · simp [takeKernel, hkr]
  · have hand : ∀ P : Prop, (q.haveKernelResources = false ∧ P) ↔ P :=
      fun P => and_iff_right (by simpa using hkr)
    simp only [hand, if_neg hkr]
    split
    · rw [Exec.ret_bind]
      simp only [failedThreadAlloc_put h hstate]
      rfl
    · split
      · rw [Exec.ret_bind]
        simp only [failedThreadAlloc_put (hport _) hstate]
        rfl
      · split
        · rfl
        · split
          · rw [Exec.ret_bind]
            simp only [failedThreadAlloc_put (hport _) hstate]
            rfl
          · rfl

theorem threadStart_put (self : Nat) (a : Answers) :
  (L.put p q K).threadStart self p a =
    if L.table.num = 1 ∧ ¬ (L.total = 1 ∧ q.kernelThread = self) then .fault
    else
      match a.start with
      | .ok => .ret (L.put p q K) none
      | .error e => .ret (L.put p q K) (some e)
      | .fault => .fault
  := by
  rw [Task.threadStart, Task.put_structs_self]
  rfl

/-- A thread that could not be started is withdrawn from the table. -/
theorem failedStarting_put {t : Table} (ht : t.set q.thread .null = some L.table)
    (self : Nat) (err : Option Errno) :
  ({ L with table := t, total := L.total + 1 }.put p q K).failedStarting self p err =
    (L.put p q K).failedSetup self p err
  := by
  have hunpublish : ({ L with table := t, total := L.total + 1 }.put p q K).unpublish p =
      some ({ L with total := L.total + 1 }.put p q K) := by
    rw [Task.put_unpublish]
    simp only
    rw [ht]
    rfl
  have htotal : { { L with total := L.total + 1 }.put p q K with total := L.total + 1 - 1 } =
      L.put p q K := by
    rw [Int.add_sub_cancel]
    rfl
  rw [Task.failedStarting, hunpublish]
  simp only [Task.put_total]
  rw [htotal]
  rfl

end Put

/-! ### The whole creation -/

section Create

variable {L B : Task} {self p : Nat} {attr : Option Attr} {a : Answers} {c q : Pthread}
  {K : Kernel}

/-- The attribute that a creation works with. -/
def Task.setup (L : Task) (attr : Option Attr) : Attr :=
  attr.getD L.defaultAttr

/-- The fields that `__pthread_alloc` leaves as it finds them. -/
theorem Handed.fields (h : Handed L a p c B q K) :
  q.stack = c.stack ∧ q.stackaddr = c.stackaddr ∧ q.stacksize = c.stacksize ∧
    q.kernelThread = c.kernelThread ∧ q.wakeupPort = c.wakeupPort ∧
    q.haveKernelResources = c.haveKernelResources ∧ q.tcb = none
  := by
  obtain ⟨stateCond, rfl⟩ := h.contents
  exact ⟨rfl, rfl, rfl, rfl, rfl, rfl, rfl⟩

theorem Handed.held_prepared (h : Handed L a p c B q K) (setup : Attr) (K' : Kernel) :
  Held (B.put p (q.prepared setup) K') p
  := by
  apply h.held.put
  rfl

theorem prepared_state (q : Pthread) (setup : Attr) :
  (q.prepared setup).state ≠ .terminated
  := by
  rw [Pthread.prepared]
  cases setup.detached <;> simp

/-- The creation up to the call of `__pthread_thread_start`, on the structure handed out. -/
theorem Handed.prepare_eq (h : Handed L a p c B q K)
    (halloc : L.alloc self a = .ret (B.put p q K) (.ok p)) (attr : Option Attr) :
  L.prepare self attr a =
    if c.stack = false ∧ (L.setup attr).stacksize ≠ L.defaultStacksize then
      .ret (B.freed p (q.prepared (L.setup attr)) K) (.failed (some .EINVAL))
    else if c.stack = false ∧ a.vmAllocate = false then
      .ret (B.freed p (q.prepared (L.setup attr)) K) (.failed (some .EAGAIN))
    else
      (B.put p (takeStack (q.prepared (L.setup attr)) K (L.setup attr)).1
        (takeStack (q.prepared (L.setup attr)) K (L.setup attr)).2).prepareKernel self p a
  := by
  have hinit : (B.put p q K).initThread p (L.setup attr) =
      B.put p (q.prepared (L.setup attr)) K := by
    rw [Task.put_initThread]
    rfl
  have hfail : ∀ err, Task.fail
      ((B.put p (q.prepared (L.setup attr)) K).failedStackAlloc p err) =
      .ret (B.freed p (q.prepared (L.setup attr)) K) (.failed err) := by
    intro err
    rw [failedStackAlloc_put (h.held_prepared _ _) (prepared_state _ _)]
    rfl
  rw [Task.prepare, halloc, Exec.ret_bind]
  simp only [Task.put_defaultAttr, h.defaultAttr]
  rw [← Task.setup, hinit, findStack_put, h.defaultStacksize,
    show (q.prepared (L.setup attr)).stack = c.stack from h.fields.1]
  by_cases hsize : c.stack = false ∧ (L.setup attr).stacksize ≠ L.defaultStacksize
  · simp only [if_pos hsize]
    apply hfail
  · by_cases hvm : c.stack = false ∧ a.vmAllocate = false
    · simp only [if_neg hsize, if_pos hvm]
      apply hfail
    · simp only [if_neg hsize, if_neg hvm]

end Create

end LibPthread.Thread
