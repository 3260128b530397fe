import LibPthread.Thread.Ends

/-!
# Histories

A history is a sequence of calls, each run to its end: the bootstrap of the library by
`init_routine`, creations, and exits, joins and detaches. It records the threads that were
created, the latest first. A call is made by a thread whose kernel thread is alive.
-/

open Concurrency

namespace LibPthread.Thread

/-- A thread that was created: its structure, its attribute and the stack it was given. -/
structure Creation where
  p : Nat
  setup : Attr
  stackaddr : Stackaddr
  deriving DecidableEq, Repr

/-- The state after a history, and the threads created. -/
structure History where
  task : Task
  created : List Creation

/-- The calls. -/
inductive Op where
  | initRoutine (a : Answers)
  | create (self : Nat) (attr : Option Attr) (a : Answers)
  | exit (p : Nat) (status : Status)
  | join (thread : Nat)
  | detach (thread : Nat)

/-- The creation that a call makes: the kernel thread of the caller, the attribute and the
answers. -/
def Op.creation : Op → Option (Nat × Option Attr × Answers)
  | .initRoutine a => some (0, none, a)
  | .create self attr a => some (self, attr, a)
  | _ => none

/-- The ID of the thread that is joined or detached. -/
def Op.target : Op → Option Nat
  | .join thread => some thread
  | .detach thread => some thread
  | _ => none

/-- The thread on the structure `p` runs. -/
def Task.Running (L : Task) (p : Nat) : Prop :=
  L.table.get (L.structs p).thread = some (.entry p) ∧
    L.kernel.threads.Live (L.structs p).kernelThread

instance (L : Task) (p : Nat) : Decidable (L.Running p) :=
  inferInstanceAs (Decidable (_ ∧ _))

namespace History

/-- The library before the first thread is created. -/
def boot (stacksize guardsize pageSize : Nat) (memory : Nat → Pthread) : History :=
  ⟨Task.boot stacksize guardsize pageSize memory, []⟩

/-- A creation; the state after `pthread_create` is that after `__pthread_create_internal`. -/
def create (H : History) (self : Nat) (attr : Option Attr) (a : Answers) : Option History :=
  match H.task.createInternal self attr a with
  | .ret L (none, some p) =>
    some ⟨L, ⟨p, H.task.setup attr, (L.structs p).stackaddr⟩ :: H.created⟩
  | .ret L _ => some ⟨L, H.created⟩
  | .halted L => some ⟨L, H.created⟩
  | .fault => none

/-- `init_routine`: the main thread is created, and not counted; an error ends the program. -/
def initRoutine (H : History) (a : Answers) : Option History :=
  match H.task.createInternal 0 none a with
  | .ret L (none, some p) =>
    some ⟨{ L with total := L.total - 1 },
      ⟨p, H.task.setup none, (L.structs p).stackaddr⟩ :: H.created⟩
  | _ => none

/-- A call. -/
def step (H : History) : Op → Option History
  | .initRoutine a => if H.task.table.num = 0 then H.initRoutine a else none
  | .create self attr a =>
    if H.task.kernel.threads.Live self then H.create self attr a else none
  | .exit p status =>
    if H.task.Running p then (H.task.pthreadExit p status).map fun L => ⟨L, H.created⟩ else none
  | .join thread => (H.task.join thread).map fun L => ⟨L, H.created⟩
  | .detach thread => (H.task.detach thread).map fun L => ⟨L, H.created⟩

/-- Calls that satisfy `G` lead from `H` to `H'`. -/
def Reach (G : History → Op → Prop) : History → History → Prop :=
  Relation.ReflTransGen fun H H' => ∃ op, G H op ∧ H.step op = some H'

/-- Any calls. -/
def Any (_ : History) (_ : Op) : Prop := True

instance (H : History) (op : Op) : Decidable (Any H op) :=
  .isTrue trivial

/-- Makes the calls in order, refusing those that do not meet the guard. -/
def run (G : History → Op → Prop) [∀ H op, Decidable (G H op)] :
    History → List Op → Option History
  | H, [] => some H
  | H, op :: ops =>
    if G H op then
      match H.step op with
      | none => none
      | some H' => run G H' ops
    else none

theorem reach_of_run {G : History → Op → Prop} [∀ H op, Decidable (G H op)] (ops : List Op) :
    ∀ {H H' : History}, run G H ops = some H' → Reach G H H'
  := by
  induction ops with
  | nil =>
      intro H H' hrun
      obtain rfl := Option.some.inj hrun
      apply Relation.ReflTransGen.refl
  | cons op ops ih =>
      intro H H' hrun
      simp only [run] at hrun
      split at hrun
      · rename_i hG
        split at hrun
        · cases hrun
        · rename_i H₁ hstep
          apply Relation.ReflTransGen.head _ (ih hrun)
          use op
      · cases hrun

/-- A run to a state that passes a test. -/
theorem exists_reach_of_run {G : History → Op → Prop} [∀ H op, Decidable (G H op)]
    {H : History} (ops : List Op) (test : History → Bool)
    (h : (run G H ops).map test = some true) :
  ∃ H', Reach G H H' ∧ test H' = true
  := by
  obtain ⟨H', hrun, htest⟩ := Option.map_eq_some_iff.mp h
  use H', reach_of_run ops hrun

end History

/-! ### The calls on a thread -/

/-- The effects of the calls other than creations on the structure of a published thread. -/
inductive CallEffect (L : Task) (target : Option Nat) : Task → Prop where
  | nothing : CallEffect L target L
  | exits (p : Nat) (status : Status) (serves : L.table.Serves p)
    (state : (L.structs p).state = .joinable) :
    CallEffect L target ({ L with total := L.total - 1 }.put p
      { L.structs p with
        state := .exited
        status := status
        stateCond := (L.structs p).stateCond + 1 }
      (L.kernel.dropThread (L.structs p).kernelThread))
  | detaches (p : Nat) (serves : L.table.Serves p) (state : (L.structs p).state = .joinable) :
    CallEffect L target (L.put p
      { L.structs p with state := .detached, stateCond := (L.structs p).stateCond + 1 }
      L.kernel)
  | leaves (p : Nat) (t : Table) (serves : L.table.Serves p)
    (state : (L.structs p).state = .detached)
    (withdrawn : L.table.set (L.structs p).thread .null = some t) :
    CallEffect L target ({ L with table := t, total := L.total - 1 }.freed p (L.structs p)
      (L.kernel.dropThread (L.structs p).kernelThread))
  | reclaims (p : Nat) (t : Table) (serves : L.table.Serves p)
    (asked : ∃ thread ∈ target, L.table.get thread = some (.entry p))
    (state : (L.structs p).state = .exited) (stack : (L.structs p).stack = true)
    (withdrawn : L.table.set (L.structs p).thread .null = some t) :
    CallEffect L target ({ L with table := t }.freed p { L.structs p with stack := false }
      (((L.kernel.dropThread (L.structs p).kernelThread).dropStack
        (L.structs p).stackaddr).dropPort (L.structs p).wakeupPort))

section Calls

variable {L : Task} {p thread : Nat}

theorem serves_of_get {thread : Nat} (h : L.table.get thread = some (.entry p)) :
  L.table.Serves p
  := by
  rw [Table.get] at h
  split at h
  · cases h
  · exact ⟨_, h⟩

/-- A published thread is withdrawn from the table. -/
theorem Inv.withdraw (h : Inv L) (hp : L.table.Serves p) :
  ∃ t, L.table.set (L.structs p).thread .null = some t ∧ Held { L with table := t } p ∧
    t.num = L.table.num ∧ ∀ (i : Nat) r, t.threads[i]? = some (.entry r) ↔
      r ≠ p ∧ L.table.threads[i]? = some (.entry r)
  := by
  obtain ⟨t, ht, hreg⟩ := h.registered.store (.inr hp) (.inl rfl)
  obtain ⟨j, hj⟩ := hp
  have hid := (h.registered.entry j p hj).1
  have hentry : ∀ (i : Nat) r, t.threads[i]? = some (.entry r) ↔
      r ≠ p ∧ L.table.threads[i]? = some (.entry r) := by
    intro i r
    rw [Table.set] at ht
    split at ht
    · obtain rfl := Option.some.inj ht
      simp only [List.getElem?_set]
      split
      · rename_i hi
        obtain rfl : i = j := by omega
        rw [hj]
        split <;> simp [eq_comm]
      · rename_i hi
        constructor
        · intro hr
          refine ⟨?_, hr⟩
          rintro rfl
          have := (h.registered.entry i r hr).1
          omega
        · exact fun hr => hr.2
    · cases ht
  have hnum : t.num = L.table.num := by
    rw [Table.set] at ht
    split at ht
    · obtain rfl := Option.some.inj ht
      rfl
    · cases ht
  have hserves : ∀ r, t.Serves r ↔ r ≠ p ∧ L.table.Serves r := by
    intro r
    constructor
    · rintro ⟨i, hi⟩
      obtain ⟨hne, hi⟩ := (hentry i r).mp hi
      exact ⟨hne, i, hi⟩
    · rintro ⟨hne, i, hi⟩
      use i
      rw [hentry]
      exact ⟨hne, hi⟩
  have hfree : p ∉ L.freeThreads := fun hp' => (h.free p hp').2.2 ⟨j, hj⟩
  refine ⟨t, ht, ⟨?_, ?_, ?_, ?_, ?_, ?_⟩, hnum, hentry⟩
  · refine hreg.congr rfl ?_ (fun _ _ => rfl)
    intro r
    rw [hserves]
    constructor
    · rintro (rfl | hr | hr)
      · right
        exact ⟨j, hj⟩
      · left
        apply hr
      · right
        apply hr.2
    · rintro (hr | hr)
      · right; left
        apply hr
      · by_cases hne : r = p
        · left
          apply hne
        · right; right
          exact ⟨hne, hr⟩
  · exact List.nodup_cons.mpr ⟨hfree, h.nodup⟩
  · apply (h.serving p ⟨j, hj⟩).1
  · rw [hserves]
    tauto
  · intro r hr
    obtain ⟨hlt, hstate, habsent⟩ := h.free r hr
    refine ⟨hlt, hstate, ?_⟩
    rw [hserves]
    tauto
  · intro r hr
    rw [hserves] at hr
    apply h.serving r hr.2

/-- The effect of `pthread_exit`. -/
theorem Inv.exit_effect (h : Inv L) (hp : L.table.Serves p) {status : Status} {L' : Task}
    (hstep : L.pthreadExit p status = some L') :
  CallEffect L none L'
  := by
  have hput := Task.put_eq_self { L with total := L.total - 1 } p
  rw [Task.pthreadExit] at hstep
  split at hstep
  · cases hstep
  rw [Reclaim.exitSection] at hstep
  simp only at hstep
  cases hstate : (L.structs p).state with
  | joinable =>
      rw [hstate] at hstep
      simp only [Task.complete, Option.some_inj] at hstep
      rw [← hput, Task.put_modify, Task.broadcast, Task.put_modify, Task.put_threadHalt] at hstep
      subst hstep
      exact .exits p _ hp hstate
  | detached =>
      obtain ⟨t, ht, -⟩ := h.withdraw hp
      have hfree : p ∉ L.freeThreads := fun hfree => (h.free p hfree).2.2 hp
      have hrun := Task.runAll_dealloc (L := { L with total := L.total - 1 })
        (K := L.kernel) ht hfree (by rw [hstate]; decide)
      rw [hstate] at hstep
      simp only [Task.complete] at hstep
      rw [← hput, hrun, Option.map_some, Option.some_inj, Task.freed_threadHalt] at hstep
      subst hstep
      exact .leaves p t hp hstate ht
  | exited =>
      rw [hstate] at hstep
      cases hstep
  | terminated =>
      rw [hstate] at hstep
      cases hstep

/-- A call reclaims an exited thread. -/
theorem Inv.reclaim_effect (h : Inv L) (hget : L.table.get thread = some (.entry p))
    (hstate : (L.structs p).state = .exited) {L' : Task}
    (hrun : Stage.runAll p Stage.reclaim L = some L') :
  CallEffect L (some thread) L'
  := by
  have hp := serves_of_get hget
  obtain ⟨t, ht, -⟩ := h.withdraw hp
  have hfree : p ∉ L.freeThreads := fun hfree => (h.free p hfree).2.2 hp
  rw [← Task.put_eq_self L p] at hrun
  cases hstack : (L.structs p).stack with
  | false =>
      simp [Stage.reclaim, Stage.runAll, Stage.run, hstack] at hrun
  | true =>
      have hdealloc := Task.runAll_dealloc (L := L)
        (q := { L.structs p with stack := false })
        (K := ((L.kernel.dropThread (L.structs p).kernelThread).dropStack
          (L.structs p).stackaddr).dropPort (L.structs p).wakeupPort)
        ht hfree (by simp [hstate])
      have hreclaim : Stage.runAll p Stage.reclaim (L.put p (L.structs p) L.kernel) =
          Stage.runAll p Stage.dealloc (L.put p { L.structs p with stack := false }
            (((L.kernel.dropThread (L.structs p).kernelThread).dropStack
              (L.structs p).stackaddr).dropPort (L.structs p).wakeupPort)) := by
        rw [Stage.reclaim]
        simp only [List.cons_append, List.nil_append, Stage.runAll, Stage.run,
          Task.put_threadHalt, Task.put_structs_self, Task.put_stackDealloc, Task.put_modify,
          Task.put_threadDealloc, hstack, if_true]
      rw [hreclaim, hdealloc, Option.some_inj] at hrun
      subst hrun
      exact .reclaims p t hp ⟨thread, rfl, hget⟩ hstate hstack ht

/-- The effect of `pthread_join`. -/
theorem Inv.join_effect (h : Inv L) {L' : Task} (hstep : L.join thread = some L') :
  CallEffect L (some thread) L'
  := by
  rw [Task.join] at hstep
  split at hstep
  · rename_i p hget
    have hp := serves_of_get hget
    rw [Reclaim.joinSection] at hstep
    cases hstate : (L.structs p).state with
    | exited =>
        rw [hstate] at hstep
        apply h.reclaim_effect hget hstate hstep
    | joinable =>
        rw [hstate] at hstep
        cases hstep
    | _ =>
        rw [hstate] at hstep
        obtain rfl := Option.some.inj hstep
        exact .nothing
  · obtain rfl := Option.some.inj hstep
    exact .nothing
  · cases hstep

/-- The effect of `pthread_detach`. -/
theorem Inv.detach_effect (h : Inv L) {L' : Task} (hstep : L.detach thread = some L') :
  CallEffect L (some thread) L'
  := by
  rw [Task.detach] at hstep
  split at hstep
  · rename_i p hget
    have hp := serves_of_get hget
    rw [Reclaim.detachSection] at hstep
    cases hstate : (L.structs p).state with
    | exited =>
        rw [hstate] at hstep
        apply h.reclaim_effect hget hstate hstep
    | joinable =>
        rw [hstate] at hstep
        obtain rfl := Option.some.inj hstep
        have heffect : (L.modify p fun q => { q with state := .detached }).broadcast p =
            L.put p { L.structs p with
              state := .detached
              stateCond := (L.structs p).stateCond + 1 } L.kernel := by
          conv_lhs => rw [← Task.put_eq_self L p]
          rw [Task.put_modify, Task.broadcast, Task.put_modify]
        rw [heffect]
        exact .detaches p hp hstate
    | _ =>
        rw [hstate] at hstep
        obtain rfl := Option.some.inj hstep
        exact .nothing
  · obtain rfl := Option.some.inj hstep
    exact .nothing
  · cases hstep

end Calls

/-! ### The invariant -/

section Invariant

variable {L L' : Task}

theorem Inv.congr (h : Inv L) (htable : L'.table = L.table)
    (hfree : L'.freeThreads = L.freeThreads) (hheap : L.heap ≤ L'.heap)
    (hstructs : ∀ r < L.heap, L'.structs r = L.structs r) :
  Inv L'
  := by
  have hlt : ∀ r, r ∈ L.freeThreads ∨ L.table.Serves r → r < L.heap := by
    rintro r (hr | hr)
    · apply (h.free r hr).1
    · apply (h.serving r hr).1
  constructor
  · refine h.registered.congr htable ?_ ?_
    · intro r
      rw [htable, hfree]
    · intro r hr
      rw [hstructs r (hlt r hr)]
  · rw [hfree]
    apply h.nodup
  · intro r hr
    rw [hfree] at hr
    rw [htable, hstructs r (hlt r (.inl hr))]
    obtain ⟨hr', hstate, hserves⟩ := h.free r hr
    exact ⟨hr'.trans_le hheap, hstate, hserves⟩
  · intro r hr
    rw [htable] at hr
    rw [hstructs r (hlt r (.inr hr))]
    obtain ⟨hr', hstate⟩ := h.serving r hr
    exact ⟨hr'.trans_le hheap, hstate⟩

/-- A published thread may change, except for its ID. -/
theorem Inv.put (h : Inv L) {p : Nat} (hp : L.table.Serves p) {q : Pthread} (K : Kernel)
    (hthread : q.thread = (L.structs p).thread) (hstate : q.state ≠ .terminated) :
  Inv (L.put p q K)
  := by
  have hne : ∀ r ∈ L.freeThreads, r ≠ p := by
    rintro r hr rfl
    apply (h.free r hr).2.2 hp
  constructor
  · refine h.registered.congr rfl (fun _ => Iff.rfl) ?_
    intro r hr
    by_cases hrp : r = p
    · rw [hrp, Task.put_structs_self, hthread]
    · rw [Task.put_structs_of_ne _ _ _ _ hrp]
  · apply h.nodup
  · intro r hr
    rw [Task.put_structs_of_ne _ _ _ _ (hne r hr)]
    apply h.free r hr
  · intro r hr
    obtain ⟨hlt, hstate'⟩ := h.serving r hr
    refine ⟨hlt, ?_⟩
    by_cases hrp : r = p
    · rw [hrp, Task.put_structs_self]
      apply hstate
    · rw [Task.put_structs_of_ne _ _ _ _ hrp]
      apply hstate'

/-- A published thread that is withdrawn and put on the free list. -/
theorem Inv.retire (h : Inv L) {p : Nat} (hp : L.table.Serves p) {t : Table}
    (ht : L.table.set (L.structs p).thread .null = some t) {q : Pthread} (K : Kernel)
    (hthread : q.thread = (L.structs p).thread) :
  Inv ({ L with table := t }.freed p q K)
  := by
  obtain ⟨t', ht', hheld, -⟩ := h.withdraw hp
  obtain rfl : t' = t := Option.some_inj.mp (ht'.symm.trans ht)
  rw [← Task.put_eq_self { L with table := t' } p] at hheld
  apply hheld.toFree hthread

theorem CallEffect.inv {target : Option Nat} (heffect : CallEffect L target L') (h : Inv L) :
  Inv L'
  := by
  have htotal : ∀ n, Inv { L with total := n } :=
    fun n => h.congr rfl rfl (le_refl _) fun _ _ => rfl
  cases heffect with
  | nothing => apply h
  | exits p status serves state =>
      apply (htotal (L.total - 1)).put serves
      · rfl
      · simp
  | detaches p serves state =>
      apply h.put serves
      · rfl
      · simp
  | leaves p t serves state withdrawn =>
      apply (htotal (L.total - 1)).retire serves withdrawn
      rfl
  | reclaims p t serves asked state stack withdrawn =>
      apply h.retire serves withdrawn
      rfl

/-- The structure after a failed creation has its ID. -/
theorem Cleanup.thread {self p : Nat} {attr : Option Attr} {a : Answers} {c q : Pthread}
    {B : Task} {K : Kernel} {point : Point} {x : Pthread × Kernel} {err : Option Errno}
    {thread : Option Nat} (h : Cleanup L self attr a p q K point x err thread)
    (hB : Handed L a p c B q K) :
  x.1.thread = q.thread
  := by
  have hthread := (withKernel_fields L self attr q K).1.trans (hB.withStack_fields attr).1
  cases h <;> exact hthread

/-- A creation keeps the invariant. -/
theorem Ends.inv {self : Nat} {attr : Option Attr} {a : Answers} {point : Option Point}
    {x : Exec (Option Errno × Option Nat)} (hends : Ends L self attr a point x) (h : Inv L)
    (hx : x.task? = some L') :
  Inv L'
  := by
  cases hends with
  | halted point p rest free own =>
      obtain rfl := Option.some.inj hx
      exact (h.take free).lose.congr rfl rfl (le_refl _) fun _ _ => rfl
  | alloc free refused heap memory grows same clear =>
      obtain rfl := Option.some.inj hx
      exact h.congr rfl rfl grows same
  | stackAlloc handed clear e =>
      obtain rfl := Option.some.inj hx
      apply handed.held.toFree
      rfl
  | portAllocate handed =>
      obtain rfl := Option.some.inj hx
      apply handed.held.toFree
      apply (handed.withStack_fields attr).1
  | insertRight handed port =>
      obtain rfl := Option.some.inj hx
      subst port
      apply handed.held.toFree
      apply (handed.withStack_fields attr).1
  | threadCreate handed port =>
      obtain rfl := Option.some.inj hx
      subst port
      apply handed.held.toFree
      apply (handed.withStack_fields attr).1
  | cleanup handed from_point other =>
      obtain rfl := Option.some.inj hx
      apply handed.held.toFree
      apply from_point.thread handed
  | haltedCleanup handed from_point own =>
      obtain rfl := Option.some.inj hx
      refine (handed.held.put ?_).lose
      exact from_point.thread handed
  | @started p c B q K handed t published =>
      obtain rfl := Option.some.inj hx
      obtain ⟨hthread, hstate, -⟩ := handed.withStack_fields attr
      have hfields := withKernel_fields L self attr q K
      rw [← hfields.1] at hthread
      rw [← hfields.2.1] at hstate
      have hinv : Inv ({ B with table := t }.put p (L.withTls self attr q K).1
          (L.withTls self attr q K).2) := handed.held.serve published hthread hstate
      exact hinv.congr rfl rfl (le_refl _) fun _ _ => rfl
  | _ => cases hx

/-- What a call does: a creation starts a thread, or it ends in another way, or the call acts on
a published thread. -/
inductive StepCases (H : History) (op : Op) (H' : History) : Prop where
  | started (self : Nat) (attr : Option Attr) (a : Answers)
    (creation : op.creation = some (self, attr, a))
    (alive : H.task.table.num ≠ 0 → H.task.kernel.threads.Live self)
    (L : Task) (p : Nat) (total : Int)
    (call : H.task.createInternal self attr a = .ret L (none, some p))
    (ends : Ends H.task self attr a (H.task.failurePoint attr a) (.ret L (none, some p)))
    (task : H'.task = { L with total := total })
    (created : H'.created =
      ⟨p, H.task.setup attr, (L.structs p).stackaddr⟩ :: H.created)
  | ended (self : Nat) (attr : Option Attr) (a : Answers)
    (creation : op.creation = some (self, attr, a))
    (alive : H.task.table.num ≠ 0 → H.task.kernel.threads.Live self)
    (x : Exec (Option Errno × Option Nat)) (call : H.task.createInternal self attr a = x)
    (ends : Ends H.task self attr a (H.task.failurePoint attr a) x)
    (task : x.task? = some H'.task) (other : ∀ L p, x ≠ .ret L (none, some p))
    (created : H'.created = H.created)
  | called (creation : op.creation = none) (effect : CallEffect H.task op.target H'.task)
    (created : H'.created = H.created)

theorem Inv.create_cases {H H' : History} (h : Inv H.task) {op : Op} {self : Nat}
    {attr : Option Attr} {a : Answers} (hcreation : op.creation = some (self, attr, a))
    (hself : H.task.kernel.threads.Live self) (hstep : H.create self attr a = some H') :
  StepCases H op H'
  := by
  have hends := h.ends self attr a
  rw [History.create] at hstep
  generalize hcall : H.task.createInternal self attr a = x at hends hstep
  match x, hcall, hstep, hends with
  | .ret L (none, some p), hcall, hstep, hends =>
      obtain rfl := Option.some.inj hstep
      exact .started self attr a hcreation (fun _ => hself) L p L.total hcall hends rfl rfl
  | .ret L (none, none), hcall, hstep, hends =>
      obtain rfl := Option.some.inj hstep
      exact .ended self attr a hcreation (fun _ => hself) _ hcall hends rfl (by simp) rfl
  | .ret L (some e, thread), hcall, hstep, hends =>
      obtain rfl := Option.some.inj hstep
      exact .ended self attr a hcreation (fun _ => hself) _ hcall hends rfl (by simp) rfl
  | .halted L, hcall, hstep, hends =>
      obtain rfl := Option.some.inj hstep
      exact .ended self attr a hcreation (fun _ => hself) _ hcall hends rfl (by simp) rfl
  | .fault, hcall, hstep, hends => cases hstep

theorem Inv.initRoutine_cases {H H' : History} (h : Inv H.task) {a : Answers}
    (hnum : H.task.table.num = 0) (hstep : H.initRoutine a = some H') :
  StepCases H (.initRoutine a) H'
  := by
  have hends := h.ends 0 none a
  rw [History.initRoutine] at hstep
  generalize hcall : H.task.createInternal 0 none a = x at hends hstep
  match x, hcall, hstep, hends with
  | .ret L (none, some p), hcall, hstep, hends =>
      obtain rfl := Option.some.inj hstep
      exact .started 0 none a rfl (absurd hnum) L p (L.total - 1) hcall hends rfl rfl
  | .ret L (none, none), hcall, hstep, hends => cases hstep
  | .ret L (some e, thread), hcall, hstep, hends => cases hstep
  | .halted L, hcall, hstep, hends => cases hstep
  | .fault, hcall, hstep, hends => cases hstep

/-- What a call does between the calls. -/
theorem Inv.step_cases {H H' : History} (h : Inv H.task) {op : Op}
    (hstep : H.step op = some H') :
  StepCases H op H'
  := by
  cases op with
  | initRoutine a =>
      rw [History.step] at hstep
      split at hstep
      · rename_i hnum
        apply h.initRoutine_cases hnum hstep
      · cases hstep
  | create self attr a =>
      rw [History.step] at hstep
      split at hstep
      · rename_i hself
        apply h.create_cases rfl hself hstep
      · cases hstep
  | exit p status =>
      rw [History.step] at hstep
      split at hstep
      · rename_i hrun
        obtain ⟨L, hL, rfl⟩ := Option.map_eq_some_iff.mp hstep
        exact .called rfl (h.exit_effect (serves_of_get hrun.1) hL) rfl
      · cases hstep
  | join thread =>
      obtain ⟨L, hL, rfl⟩ := Option.map_eq_some_iff.mp hstep
      exact .called rfl (h.join_effect hL) rfl
  | detach thread =>
      obtain ⟨L, hL, rfl⟩ := Option.map_eq_some_iff.mp hstep
      exact .called rfl (h.detach_effect hL) rfl

theorem StepCases.inv {H H' : History} {op : Op} (hcases : StepCases H op H')
    (h : Inv H.task) :
  Inv H'.task
  := by
  cases hcases with
  | started self attr a creation alive L p total call ends task created =>
      rw [task]
      exact (ends.inv h rfl).congr rfl rfl (le_refl _) fun _ _ => rfl
  | ended self attr a creation alive x call ends task other created => apply ends.inv h task
  | called creation effect created => apply effect.inv h

theorem Inv.boot (stacksize guardsize pageSize : Nat) (memory : Nat → Pthread) :
  Inv (Task.boot stacksize guardsize pageSize memory)
  := by
  have hserves : ∀ r, ¬ (Task.boot stacksize guardsize pageSize memory).table.Serves r := by
    rintro r ⟨i, hi⟩
    simp [Task.boot] at hi
  constructor
  · constructor
    · constructor
      · apply le_refl
      · rfl
      · intro i hi
        simp [Task.boot] at hi
    · intro i p hp
      simp [Task.boot] at hp
    · rintro p (hp | hp)
      · simp [Task.boot] at hp
      · exact absurd hp (hserves p)
    · rintro p q (hp | hp)
      · simp [Task.boot] at hp
      · exact absurd hp (hserves p)
  · exact List.nodup_nil
  · intro r hr
    simp [Task.boot] at hr
  · intro r hr
    exact absurd hr (hserves r)

/-- An invariant that the calls preserve between the calls holds after every history. -/
theorem History.Reach.invariant {G : History → Op → Prop} {P : History → Prop}
    {H H' : History} (hreach : History.Reach G H H') (hinv : Inv H.task) (hP : P H)
    (hstep : ∀ H op H', Inv H.task → P H → G H op → StepCases H op H' → P H') :
  Inv H'.task ∧ P H'
  := by
  induction hreach with
  | refl => exact ⟨hinv, hP⟩
  | tail _ hlast ih =>
      obtain ⟨hinv', hP'⟩ := ih
      obtain ⟨op, hG, hop⟩ := hlast
      have hcases := hinv'.step_cases hop
      exact ⟨hcases.inv hinv', hstep _ _ _ hinv' hP' hG hcases⟩

theorem Inv.of_reach {G : History → Op → Prop} {stacksize guardsize pageSize : Nat}
    {memory : Nat → Pthread} {H : History}
    (hreach : History.Reach G (.boot stacksize guardsize pageSize memory) H) :
  Inv H.task
  := (hreach.invariant (P := fun _ => True) (Inv.boot _ _ _ _) trivial
    fun _ _ _ _ _ _ _ => trivial).1

end Invariant

end LibPthread.Thread
