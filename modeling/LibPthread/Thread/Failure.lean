import LibPthread.Thread.Histories

/-!
# Failed creations

What a creation leaves behind that is refused something. Whether it leaves nothing is known
from the point at which it fails: a kernel thread that is refused leaves the wakeup port, and
a block for thread-local storage that is refused is not reported as an error. Past these
points the failure labels terminate the kernel thread of the new structure, which must not be
that of the caller.
-/

open Concurrency

namespace LibPthread.Thread

/-- Nothing that the creation obtained is left in the state `L'`: the counter and the published
entries are as before, every kernel thread, port, stack and block of thread-local storage
obtained has been released exactly once, and the structure is on the free list with its ID. -/
structure LeavesNothing (L : Task) (a : Answers) (L' : Task) : Prop where
  total : L'.total = L.total
  entries : ∀ (i : Nat) r,
    L'.table.threads[i]? = some (.entry r) ↔ L.table.threads[i]? = some (.entry r)
  threads : L.kernel.threads.Settles L'.kernel.threads
  ports : L.kernel.ports.Settles L'.kernel.ports
  vmStacks : L.kernel.vmStacks.Settles L'.kernel.vmStacks
  tls : L.kernel.tls.Settles L'.kernel.tls
  freed : ∀ p c, L.handed a = some (p, c) →
    p ∈ L'.freeThreads ∧ (L'.structs p).state = .terminated ∧
      (L'.structs p).thread = L.handedId p

/-- The creation returns an error, does not store an ID, and leaves nothing behind. -/
def FailsCleanly (L : Task) (a : Answers) : Exec Task.Created → Prop
  | .ret L' (.error _) => LeavesNothing L a L'
  | _ => False

/-- The points at which a creation fails cleanly, with a structure that has the contents `c`:
before the allocation of the kernel thread, and after that of the block for thread-local
storage if an error is returned and the kernel thread is not that of the caller. The main
thread cannot fail to be started: either an assertion fails or its own kernel thread is
terminated. -/
def CleanAt (L : Task) (self : Nat) (a : Answers) (c : Pthread) : Point → Prop
  | .alloc => True
  | .stackAlloc => True
  | .wakeupmsg => True
  | .threadCreate => False
  | .tls => False
  | point => a.at point ≠ .fault ∧
    (if c.haveKernelResources then c.kernelThread ≠ self else L.numAfter ≠ 1) ∧
    (point = .start → L.numAfter ≠ 1)

/-- The creation does not recycle a structure with the kernel thread of its caller, and it fails
at a point where it can fail cleanly. -/
def CanFailCleanly (L : Task) (self : Nat) (a : Answers) (point : Point) : Prop :=
  (∀ p ∈ L.freeThreads.head?, (L.structs p).kernelThread ≠ self) ∧
    ∀ p c, L.handed a = some (p, c) → CleanAt L self a c point

/-! ### The ledgers of a creation -/

namespace Kernel

variable (K : Kernel) (stackaddr : Stackaddr)

@[simp]
theorem dropStack_threads :
  (K.dropStack stackaddr).threads = K.threads
  := by
  cases stackaddr <;> rfl

@[simp]
theorem dropStack_ports :
  (K.dropStack stackaddr).ports = K.ports
  := by
  cases stackaddr <;> rfl

@[simp]
theorem dropStack_tls :
  (K.dropStack stackaddr).tls = K.tls
  := by
  cases stackaddr <;> rfl

@[simp]
theorem dropStack_count :
  (K.dropStack stackaddr).vmStacks.count = K.vmStacks.count
  := by
  cases stackaddr with
  | user b => rfl
  | allocated k => apply Ledger.release_count

/-- The stacks after a release are determined by the stacks before it. -/
theorem dropStack_vmStacks {K K' : Kernel} (h : K'.vmStacks = K.vmStacks) :
  (K'.dropStack stackaddr).vmStacks = (K.dropStack stackaddr).vmStacks
  := by
  cases stackaddr with
  | user b => exact h
  | allocated k => simp only [dropStack, h]

end Kernel

section Ledgers

variable {L B : Task} {self p : Nat} {attr : Option Attr} {a : Answers} {c q : Pthread}
  {K : Kernel}

/-- A stack that was found is released. -/
theorem Handed.settles_stack (h : Handed L a p c B q K) (attr : Option Attr) {K' : Kernel}
    {stackaddr : Stackaddr} (hK : K'.vmStacks = (L.withStack attr q K).2.vmStacks)
    (hstack : stackaddr = (L.withStack attr q K).1.stackaddr) :
  L.kernel.vmStacks.Settles (K'.dropStack stackaddr).vmStacks
  := by
  have hcount := h.counts.2.2.1
  rw [Kernel.dropStack_vmStacks _ hK, hstack, Task.withStack, takeStack]
  split
  · apply Ledger.settles_of_count_eq
    split <;> simp [hcount]
  · apply Ledger.settles_issue_release hcount

/-- A wakeup port that was allocated is destroyed. -/
theorem Handed.settles_ports (h : Handed L a p c B q K) (self : Nat) (attr : Option Attr) :
  L.kernel.ports.Settles ((L.withKernel self attr q K).2.ports.release
    (L.withKernel self attr q K).1.wakeupPort)
  := by
  have hcount : (L.withStack attr q K).2.ports.count = L.kernel.ports.count := by
    rw [(withStack_snd L attr q K).2.1]
    apply h.counts.2.1
  rw [Task.withKernel, takeKernel]
  split
  · apply Ledger.settles_of_count_eq
    rw [Ledger.release_count, hcount]
  · split
    · apply Ledger.settles_issue_release hcount
    · apply Ledger.settles_issue_release hcount

/-- A kernel thread that was created is terminated. -/
theorem Handed.settles_threads (h : Handed L a p c B q K) (self : Nat) (attr : Option Attr) :
  L.kernel.threads.Settles ((L.withKernel self attr q K).2.threads.release
    (L.withKernel self attr q K).1.kernelThread)
  := by
  have hcount : (L.withStack attr q K).2.threads.count = L.kernel.threads.count := by
    rw [(withStack_snd L attr q K).1]
    apply h.counts.1
  rw [Task.withKernel, takeKernel]
  split
  · apply Ledger.settles_of_count_eq
    rw [Ledger.release_count, hcount]
  · split
    · apply Ledger.settles_of_count_eq
      exact (Ledger.release_count _ _).trans hcount
    · apply Ledger.settles_issue_release hcount

/-- The kernel thread of a new thread is that of the caller in two cases: the caller becomes the
main thread, or the structure had it before. -/
theorem Handed.kernelThread_ne_iff (h : Handed L a p c B q K) (attr : Option Attr)
    (hself : L.numAfter ≠ 1 → L.kernel.threads.Live self) :
  (L.withKernel self attr q K).1.kernelThread ≠ self ↔
    if c.haveKernelResources then c.kernelThread ≠ self else L.numAfter ≠ 1
  := by
  obtain ⟨-, -, -, hkr, hkernelThread⟩ := h.withStack_fields attr
  have hcount : (L.withStack attr q K).2.threads.count = L.kernel.threads.count := by
    rw [(withStack_snd L attr q K).1]
    apply h.counts.1
  rw [Task.withKernel, takeKernel, hkr]
  by_cases hc : c.haveKernelResources = true
  · rw [if_pos hc, if_pos hc, hkernelThread]
  · rw [if_neg hc, if_neg hc]
    by_cases hnum : L.numAfter = 1
    · simp [hnum]
    · have hlt := (hself hnum).1
      simp only [if_neg hnum, hcount]
      constructor
      · intro _
        apply hnum
      · omega

/-- A failed creation that put the structure on the free list leaves nothing behind if the
ledgers agree. -/
theorem Handed.leavesNothing (h : Handed L a p c B q K) {q' : Pthread} {K' : Kernel}
    (hthread : q'.thread = q.thread) (hthreads : L.kernel.threads.Settles K'.threads)
    (hports : L.kernel.ports.Settles K'.ports)
    (hstacks : L.kernel.vmStacks.Settles K'.vmStacks) (htls : L.kernel.tls.Settles K'.tls) :
  LeavesNothing L a (B.freed p q' K')
  := by
  obtain ⟨stateCond, hq⟩ := h.contents
  constructor
  · apply h.total
  · apply h.entry
  · apply hthreads
  · apply hports
  · apply hstacks
  · apply htls
  · intro p' c' hhanded
    rw [h.handed, Option.some_inj] at hhanded
    obtain rfl : p = p' := congrArg Prod.fst hhanded
    rw [Task.freed, Task.put_structs_self]
    refine ⟨List.mem_cons_self, rfl, ?_⟩
    rw [Pthread.terminated, hthread, hq]

/-- A creation that fails while it allocates the kernel resources leaves nothing behind if the
ports are settled. -/
theorem Handed.leavesNothing_withStack (h : Handed L a p c B q K) (attr : Option Attr)
    {q' : Pthread} {K' : Kernel} {stackaddr : Stackaddr} (hthread : q'.thread = q.thread)
    (hstackaddr : stackaddr = (L.withStack attr q K).1.stackaddr)
    (hthreads : K'.threads = (L.withStack attr q K).2.threads)
    (hports : L.kernel.ports.Settles K'.ports)
    (hstacks : K'.vmStacks = (L.withStack attr q K).2.vmStacks)
    (htls : K'.tls = (L.withStack attr q K).2.tls) :
  LeavesNothing L a (B.freed p q' (K'.dropStack stackaddr))
  := by
  obtain ⟨hthreads', -, htls'⟩ := withStack_snd L attr q K
  apply h.leavesNothing hthread
  · apply Ledger.settles_of_count_eq
    rw [Kernel.dropStack_threads, hthreads, hthreads', h.counts.1]
  · rw [Kernel.dropStack_ports]
    apply hports
  · apply h.settles_stack attr hstacks hstackaddr
  · apply Ledger.settles_of_count_eq
    rw [Kernel.dropStack_tls, htls, htls', h.counts.2.2.2]

end Ledgers

/-! ### The points of failure -/

section Points

variable {L B : Task} {self p : Nat} {attr : Option Attr} {a : Answers} {c q : Pthread}
  {K : Kernel} {point : Point} {x : Pthread × Kernel} {err : Option Errno}
  {thread : Option Nat}

/-- The structure has its kernel resources and its stack when the labels are reached, and the
block is settled. -/
theorem Cleanup.agrees (h : Cleanup L self attr a p q K point x err thread)
    (hB : Handed L a p c B q K) :
  x.2.threads = (L.withKernel self attr q K).2.threads ∧
    x.2.ports = (L.withKernel self attr q K).2.ports ∧
    x.2.vmStacks = (L.withStack attr q K).2.vmStacks ∧
    x.1.kernelThread = (L.withKernel self attr q K).1.kernelThread ∧
    x.1.wakeupPort = (L.withKernel self attr q K).1.wakeupPort ∧
    x.1.stackaddr = (L.withStack attr q K).1.stackaddr ∧
    L.kernel.tls.Settles (x.2.dropTls x.1.tcb).tls
  := by
  obtain ⟨hstacks, htls, hstackaddr⟩ := withKernel_snd L self attr q K
  have hcount : (L.withKernel self attr q K).2.tls.count = L.kernel.tls.count := by
    rw [htls, (withStack_snd L attr q K).2.2]
    apply hB.counts.2.2.2
  have hissued : L.kernel.tls.Settles
      ((L.withTls self attr q K).2.dropTls (L.withTls self attr q K).1.tcb).tls :=
    Ledger.settles_issue_release hcount
  cases h with
  | tls =>
      refine ⟨rfl, rfl, hstacks, rfl, rfl, hstackaddr, ?_⟩
      apply Ledger.settles_of_count_eq
      rw [(withKernel_fields L self attr q K).2.2, (hB.withStack_fields attr).2.2.1]
      apply hcount
  | setup e answer => exact ⟨rfl, rfl, hstacks, rfl, rfl, hstackaddr, hissued⟩
  | sigstateInit e answer => exact ⟨rfl, rfl, hstacks, rfl, rfl, hstackaddr, hissued⟩
  | start e answer main => exact ⟨rfl, rfl, hstacks, rfl, rfl, hstackaddr, hissued⟩

/-- The labels from `failed_setup` on settle everything. -/
theorem Cleanup.leavesNothing (h : Cleanup L self attr a p q K point x err thread)
    (hB : Handed L a p c B q K) :
  LeavesNothing L a (B.freed p { x.1 with tcb := none, stack := false }
    ((x.2.release x.1).dropStack x.1.stackaddr))
  := by
  obtain ⟨hthreads, hports, hstacks, hkernelThread, hwakeupPort, hstackaddr, htls⟩ :=
    h.agrees hB
  apply hB.leavesNothing
  · exact h.thread hB
  · have := hB.settles_threads self attr
    rw [← hthreads, ← hkernelThread] at this
    rw [Kernel.dropStack_threads]
    exact this
  · have := hB.settles_ports self attr
    rw [← hports, ← hwakeupPort] at this
    rw [Kernel.dropStack_ports]
    exact this
  · have hrelease : (x.2.release x.1).vmStacks = (L.withStack attr q K).2.vmStacks := hstacks
    apply hB.settles_stack attr hrelease hstackaddr
  · rw [Kernel.dropStack_tls]
    exact htls

/-- The conditions under which a creation that reached these labels fails cleanly. -/
theorem Cleanup.cleanAt (h : Cleanup L self attr a p q K point x err thread)
    (hB : Handed L a p c B q K) (hself : L.kernel.threads.Live self)
    (hother : x.1.kernelThread ≠ self) :
  CleanAt L self a c point ↔ err ≠ none
  := by
  have hne := hother
  rw [(h.agrees hB).2.2.2.1, hB.kernelThread_ne_iff attr fun _ => hself] at hne
  cases h with
  | tls => simp [CleanAt]
  | setup e answer =>
      apply iff_of_true
      · refine ⟨?_, hne, by simp⟩
        simp [Answers.at, answer]
      · simp
  | sigstateInit e answer =>
      apply iff_of_true
      · refine ⟨?_, hne, by simp⟩
        simp [Answers.at, answer]
      · simp
  | start e answer main =>
      apply iff_of_true
      · refine ⟨?_, hne, fun _ hnum => hother (main hnum)⟩
        simp [Answers.at, answer]
      · simp

/-- A creation that terminates its own caller does not fail cleanly. -/
theorem Cleanup.not_cleanAt (h : Cleanup L self attr a p q K point x err thread)
    (hB : Handed L a p c B q K) (hself : L.kernel.threads.Live self)
    (hown : x.1.kernelThread = self) :
  ¬ CleanAt L self a c point
  := by
  have hne : ¬ (if c.haveKernelResources then c.kernelThread ≠ self else L.numAfter ≠ 1) := by
    rw [← hB.kernelThread_ne_iff attr fun _ => hself, ← (h.agrees hB).2.2.2.1, hown]
    simp
  cases h with
  | tls => exact id
  | setup e answer => exact fun hclean => hne hclean.2.1
  | sigstateInit e answer => exact fun hclean => hne hclean.2.1
  | start e answer main => exact fun hclean => hne hclean.2.1

end Points

/-! ### The theorem -/

section FailsCleanly

variable {L : Task} {self : Nat} {attr : Option Attr} {a : Answers} {point : Point}

/-- `pthread_create` after a failed creation. -/
theorem failsCleanly_pthreadCreate {x : Exec (Option Errno × Option Nat)}
    (hx : L.createInternal self attr a = x) :
  FailsCleanly L a (L.pthreadCreate self attr a) ↔
    ∃ L' e thread, x = .ret L' (some e, thread) ∧ LeavesNothing L a L'
  := by
  rw [Task.pthreadCreate, hx]
  match x with
  | .ret L' (none, some p) => simp [FailsCleanly]
  | .ret L' (none, none) => simp [FailsCleanly]
  | .ret L' (some e, thread) => simp [FailsCleanly]
  | .halted L' => simp [FailsCleanly]
  | .fault => simp [FailsCleanly]

/-- The structure handed out tells whether the creation can fail cleanly. -/
theorem canFailCleanly_iff {p : Nat} {c : Pthread} (hhanded : L.handed a = some (p, c))
    (hfree : ∀ r ∈ L.freeThreads.head?, (L.structs r).kernelThread ≠ self) :
  CanFailCleanly L self a point ↔ CleanAt L self a c point
  := by
  constructor
  · exact fun h => h.2 p c hhanded
  · intro h
    refine ⟨hfree, ?_⟩
    intro p' c' h'
    rw [hhanded, Option.some_inj] at h'
    obtain ⟨rfl, rfl⟩ := Prod.mk.inj h'
    apply h

theorem Ends.failsCleanly {x : Exec (Option Errno × Option Nat)}
    (hends : Ends L self attr a (some point) x) (hself : L.kernel.threads.Live self)
    (hfree : ∀ p ∈ L.freeThreads.head?, (L.structs p).kernelThread ≠ self) :
  (∃ L' e thread, x = .ret L' (some e, thread) ∧ LeavesNothing L a L') ↔
    CanFailCleanly L self a point
  := by
  cases hends with
  | halted point p rest free own =>
      exact absurd own (hfree p (by rw [free]; rfl))
  | alloc free refused heap memory grows same clear =>
      apply iff_of_true
      · refine ⟨_, _, _, rfl, ?_⟩
        constructor
        · rfl
        · exact fun _ _ => Iff.rfl
        · exact Ledger.settles_of_count_eq rfl
        · exact Ledger.settles_of_count_eq rfl
        · exact Ledger.settles_of_count_eq rfl
        · exact Ledger.settles_of_count_eq rfl
        · intro p c hhanded
          rw [refused] at hhanded
          cases hhanded
      · refine ⟨hfree, ?_⟩
        intro p c hhanded
        trivial
  | stackAlloc handed clear e =>
      rw [canFailCleanly_iff handed.handed hfree]
      apply iff_of_true _ trivial
      refine ⟨_, _, _, rfl, ?_⟩
      obtain ⟨hthreads, hports, hstacks, htls⟩ := handed.counts
      apply handed.leavesNothing
      · rfl
      · exact Ledger.settles_of_count_eq hthreads
      · exact Ledger.settles_of_count_eq hports
      · exact Ledger.settles_of_count_eq hstacks
      · exact Ledger.settles_of_count_eq htls
  | portAllocate handed =>
      rw [canFailCleanly_iff handed.handed hfree]
      apply iff_of_true _ trivial
      refine ⟨_, _, _, rfl, ?_⟩
      refine handed.leavesNothing_withStack attr ?_ rfl rfl ?_ rfl rfl
      · exact (handed.withStack_fields attr).1
      apply Ledger.settles_of_count_eq
      rw [(withStack_snd L attr _ _).2.1, handed.counts.2.1]
  | insertRight handed port =>
      rw [canFailCleanly_iff handed.handed hfree]
      apply iff_of_true _ trivial
      refine ⟨_, _, _, rfl, ?_⟩
      subst port
      refine handed.leavesNothing_withStack attr ?_ rfl rfl ?_ rfl rfl
      · exact (handed.withStack_fields attr).1
      refine Ledger.settles_issue_release ?_
      rw [(withStack_snd L attr _ _).2.1, handed.counts.2.1]
  | @threadCreate p c B q K handed x port =>
      rw [canFailCleanly_iff handed.handed hfree]
      apply iff_of_false _ id
      rintro ⟨L', e, thread, heq, hleaves⟩
      cases heq
      -- the wakeup port is neither destroyed nor in the hands of a thread
      have hports := hleaves.ports
      subst port
      rw [Task.freed, Task.put_kernel, Kernel.dropStack_ports] at hports
      apply Ledger.not_settles_issue _ hports
      rw [(withStack_snd L attr q K).2.1, handed.counts.2.1]
  | cleanup handed from_point other =>
      rw [canFailCleanly_iff handed.handed hfree, from_point.cleanAt handed hself other]
      constructor
      · rintro ⟨L', e, thread, heq, -⟩
        cases heq
        simp
      · intro herr
        obtain ⟨e, rfl⟩ := Option.ne_none_iff_exists'.mp herr
        exact ⟨_, _, _, rfl, from_point.leavesNothing handed⟩
  | haltedCleanup handed from_point own =>
      rw [canFailCleanly_iff handed.handed hfree]
      apply iff_of_false _ (from_point.not_cleanAt handed hself own)
      rintro ⟨L', e, thread, heq, -⟩
      cases heq
  | assertThreadAlloc point handed clear main late =>
      rw [canFailCleanly_iff handed hfree]
      apply iff_of_false
      · rintro ⟨L', e, thread, heq, -⟩
        cases heq
      · rcases late _ rfl with rfl | rfl | rfl | rfl
        · exact id
        · exact fun hclean => by simp [CleanAt, clear, main] at hclean
        · exact fun hclean => by simp [CleanAt, clear, main] at hclean
        · exact fun hclean => by simp [CleanAt, clear, main] at hclean
  | assertThreadStart point handed main late =>
      obtain rfl := late _ rfl
      rw [canFailCleanly_iff handed hfree]
      apply iff_of_false
      · rintro ⟨L', e, thread, heq, -⟩
        cases heq
      · exact fun hclean => hclean.2.2 rfl main
  | fault point handed answer =>
      rw [canFailCleanly_iff handed hfree]
      apply iff_of_false
      · rintro ⟨L', e, thread, heq, -⟩
        cases heq
      · cases point with
        | setup => exact fun hclean => hclean.1 answer
        | sigstateInit => exact fun hclean => hclean.1 answer
        | start => exact fun hclean => hclean.1 answer
        | _ => cases answer

/-- After any history, a creation that is refused something fails cleanly exactly if it can at
that point. -/
theorem failed_creation_clean_iff {stacksize guardsize pageSize : Nat}
    {memory : Nat → Pthread} {H : History}
    (hreach : History.Reach History.Any (.boot stacksize guardsize pageSize memory) H)
    (hself : H.task.kernel.threads.Live self)
    (hpoint : H.task.failurePoint attr a = some point) :
  FailsCleanly H.task a (H.task.pthreadCreate self attr a) ↔
    CanFailCleanly H.task self a point
  := by
  have hinv := Inv.of_reach hreach
  have hends := hinv.ends self attr a
  rw [hpoint] at hends
  rw [failsCleanly_pthreadCreate rfl]
  by_cases hfree : ∀ p ∈ H.task.freeThreads.head?, (H.task.structs p).kernelThread ≠ self
  · apply hends.failsCleanly hself hfree
  · push Not at hfree
    obtain ⟨p, hp, hown⟩ := hfree
    obtain ⟨rest, hcons⟩ := List.head?_eq_some_iff.mp hp
    apply iff_of_false
    · rw [Task.createInternal, Task.prepare, hinv.alloc_halted hcons a hown]
      rintro ⟨L', e, thread, heq, -⟩
      cases heq
    · exact fun hcan => hcan.1 p hp hown

/-- The main thread is bootstrapped. -/
def bootRun : List Op :=
  [.initRoutine allGranted]

/-- The wakeup port of the second thread is refused. -/
theorem failed_creation_clean_refusedPort :
  ∃ H, History.Reach History.Any (.boot 16384 4096 4096 fun _ => zeroed) H ∧
    H.task.failurePoint none { allGranted with portAllocate := false } = some .wakeupmsg ∧
    FailsCleanly H.task { allGranted with portAllocate := false }
      (H.task.pthreadCreate 0 none { allGranted with portAllocate := false })
  := by
  obtain ⟨H, hH, hp⟩ := History.exists_reach_of_run (G := History.Any)
    (H := .boot 16384 4096 4096 fun _ => zeroed) bootRun
    (fun H => H.task.kernel.threads.Live 0 ∧ H.task.freeThreads = [] ∧
      H.task.failurePoint none { allGranted with portAllocate := false } = some .wakeupmsg)
    (by decide +kernel)
  simp only [decide_eq_true_eq] at hp
  use H, hH, hp.2.2
  apply (failed_creation_clean_iff hH hp.1 hp.2.2).mpr
  constructor
  · simp [hp.2.1]
  · intro p c _
    trivial

/-- The kernel thread of the second thread is refused: its wakeup port is left. The block for
thread-local storage is refused: `pthread_create` returns `0`. -/
theorem failed_creation_leaves_port :
  ∃ H, History.Reach History.Any (.boot 16384 4096 4096 fun _ => zeroed) H ∧
    H.task.kernel.threads.Live 0 ∧
    (H.task.failurePoint none { allGranted with threadCreate := false } = some .threadCreate ∧
      ¬ FailsCleanly H.task { allGranted with threadCreate := false }
        (H.task.pthreadCreate 0 none { allGranted with threadCreate := false })) ∧
    (H.task.failurePoint none { allGranted with allocateTls := false } = some .tls ∧
      ¬ FailsCleanly H.task { allGranted with allocateTls := false }
        (H.task.pthreadCreate 0 none { allGranted with allocateTls := false }))
  := by
  obtain ⟨H, hH, hp⟩ := History.exists_reach_of_run (G := History.Any)
    (H := .boot 16384 4096 4096 fun _ => zeroed) bootRun
    (fun H => H.task.kernel.threads.Live 0 ∧
      H.task.freeThreads = [] ∧ (H.task.handed allGranted).isSome ∧
      H.task.failurePoint none { allGranted with threadCreate := false } = some .threadCreate ∧
      H.task.failurePoint none { allGranted with allocateTls := false } = some .tls)
    (by decide +kernel)
  simp only [decide_eq_true_eq] at hp
  obtain ⟨hlive, hfree, hhanded, hcreate, htls⟩ := hp
  obtain ⟨⟨p, c⟩, hhanded⟩ := Option.isSome_iff_exists.mp hhanded
  have hinv := Inv.of_reach hH
  have hhead : ∀ p ∈ H.task.freeThreads.head?, (H.task.structs p).kernelThread ≠ 0 := by
    simp [hfree]
  refine ⟨H, hH, hlive, ⟨hcreate, ?_⟩, ⟨htls, ?_⟩⟩
  · have hends := hinv.ends 0 none { allGranted with threadCreate := false }
    rw [hcreate] at hends
    rw [failsCleanly_pthreadCreate rfl, hends.failsCleanly hlive hhead]
    exact fun hcan => hcan.2 p c hhanded
  · have hends := hinv.ends 0 none { allGranted with allocateTls := false }
    rw [htls] at hends
    rw [failsCleanly_pthreadCreate rfl, hends.failsCleanly hlive hhead]
    exact fun hcan => hcan.2 p c hhanded

end FailsCleanly

end LibPthread.Thread
