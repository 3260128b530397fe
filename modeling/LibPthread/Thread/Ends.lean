import LibPthread.Thread.Creation

/-!
# The ends of a creation

A creation fails at the first point at which a resource is refused, and this point is known
from the state before the call and from the answers. `Ends` lists how a creation can end, with
the state it leaves; a call that terminates its own caller, or fails an assertion, does so on
its way to one of these points.
-/

open Concurrency

namespace LibPthread.Thread

/-- The points at which `__pthread_create_internal` can fail. -/
inductive Point where
  | alloc
  | stackAlloc
  | wakeupmsg
  | threadCreate
  | tls
  | setup
  | sigstateInit
  | start
  deriving DecidableEq, Repr

/-- The first point at which the creation is refused something. -/
def Task.failurePoint (L : Task) (attr : Option Attr) (a : Answers) : Option Point :=
  match L.handed a with
  | none => some .alloc
  | some (_, c) =>
    if c.stack = false ∧
        ((L.setup attr).stacksize ≠ L.defaultStacksize ∨ a.vmAllocate = false) then
      some .stackAlloc
    else if c.haveKernelResources = false ∧
        (a.portAllocate = false ∨ a.insertRight = false) then
      some .wakeupmsg
    else if c.haveKernelResources = false ∧ L.numAfter ≠ 1 ∧ a.threadCreate = false then
      some .threadCreate
    else if a.allocateTls = false then some .tls
    else if a.setup ≠ .ok then some .setup
    else if a.sigstateInit ≠ .ok then some .sigstateInit
    else if a.start ≠ .ok then some .start
    else none

/-- The answer at a point where a system-dependent function is called. -/
def Answers.at (a : Answers) : Point → Sysdep
  | .setup => a.setup
  | .sigstateInit => a.sigstateInit
  | .start => a.start
  | _ => .ok

/-- The structure and the kernel with a stack. -/
def Task.withStack (L : Task) (attr : Option Attr) (q : Pthread) (K : Kernel) :
    Pthread × Kernel :=
  takeStack (q.prepared (L.setup attr)) K (L.setup attr)

/-- The structure and the kernel with a stack and kernel resources. -/
def Task.withKernel (L : Task) (self : Nat) (attr : Option Attr) (q : Pthread) (K : Kernel) :
    Pthread × Kernel :=
  takeKernel (L.withStack attr q K).1 (L.withStack attr q K).2 self L.numAfter

/-- The structure and the kernel of a thread that can be started. -/
def Task.withTls (L : Task) (self : Nat) (attr : Option Attr) (q : Pthread) (K : Kernel) :
    Pthread × Kernel :=
  takeTls (L.withKernel self attr q K).1 (L.withKernel self attr q K).2

/-- The labels from `failed_thread_tls_alloc` or `failed_setup` on are reached from the given
point, with a structure and a kernel, the value to be returned, and what `*thread` holds. -/
inductive Cleanup (L : Task) (self : Nat) (attr : Option Attr) (a : Answers) (p : Nat)
    (q : Pthread) (K : Kernel) :
    Point → Pthread × Kernel → Option Errno → Option Nat → Prop where
  | tls : Cleanup L self attr a p q K .tls (L.withKernel self attr q K) none none
  | setup (e : Errno) (answer : a.setup = .error e) :
    Cleanup L self attr a p q K .setup (L.withTls self attr q K) (some e) none
  | sigstateInit (e : Errno) (answer : a.sigstateInit = .error e) :
    Cleanup L self attr a p q K .sigstateInit (L.withTls self attr q K) (some e) none
  | start (e : Errno) (answer : a.start = .error e)
    (main : L.numAfter = 1 → (L.withTls self attr q K).1.kernelThread = self) :
    Cleanup L self attr a p q K .start (L.withTls self attr q K) (some e) (some p)

/-- The ends of a creation that is refused something at the given point. -/
inductive Ends (L : Task) (self : Nat) (attr : Option Attr) (a : Answers) :
    Option Point → Exec (Option Errno × Option Nat) → Prop where
  | halted (point : Option Point) (p : Nat) (rest : List Nat)
    (free : L.freeThreads = p :: rest) (own : (L.structs p).kernelThread = self) :
    Ends L self attr a point (.halted ({ L with freeThreads := rest }.threadHalt p))
  | alloc (free : L.freeThreads = []) (refused : L.handed a = none) (heap : Nat)
    (memory : Nat → Pthread) (grows : L.heap ≤ heap)
    (same : ∀ r < L.heap, memory r = L.structs r)
    (clear : ∀ r < heap, L.heap ≤ r → (memory r).stack = false) :
    Ends L self attr a (some .alloc)
      (.ret { L with heap := heap, structs := memory } (some .ENOMEM, none))
  | stackAlloc {p : Nat} {c : Pthread} {B : Task} {q : Pthread} {K : Kernel}
    (handed : Handed L a p c B q K) (clear : c.stack = false) (e : Errno) :
    Ends L self attr a (some .stackAlloc)
      (.ret (B.freed p (q.prepared (L.setup attr)) K) (some e, none))
  | portAllocate {p : Nat} {c : Pthread} {B : Task} {q : Pthread} {K : Kernel}
    (handed : Handed L a p c B q K) :
    Ends L self attr a (some .wakeupmsg)
      (.ret (B.freed p { (L.withStack attr q K).1 with stack := false }
        ((L.withStack attr q K).2.dropStack (L.withStack attr q K).1.stackaddr))
        (some .EAGAIN, none))
  | insertRight {p : Nat} {c : Pthread} {B : Task} {q : Pthread} {K : Kernel}
    (handed : Handed L a p c B q K) {x : Pthread × Kernel}
    (port : x = takePort (L.withStack attr q K).1 (L.withStack attr q K).2) :
    Ends L self attr a (some .wakeupmsg)
      (.ret (B.freed p { x.1 with stack := false }
        ((x.2.dropPort x.1.wakeupPort).dropStack x.1.stackaddr)) (some .EAGAIN, none))
  | threadCreate {p : Nat} {c : Pthread} {B : Task} {q : Pthread} {K : Kernel}
    (handed : Handed L a p c B q K) {x : Pthread × Kernel}
    (port : x = takePort (L.withStack attr q K).1 (L.withStack attr q K).2) :
    Ends L self attr a (some .threadCreate)
      (.ret (B.freed p { x.1 with stack := false } (x.2.dropStack x.1.stackaddr))
        (some .EAGAIN, none))
  | cleanup {p : Nat} {c : Pthread} {B : Task} {q : Pthread} {K : Kernel}
    (handed : Handed L a p c B q K) {point : Point} {x : Pthread × Kernel} {err : Option Errno}
    {thread : Option Nat} (from_point : Cleanup L self attr a p q K point x err thread)
    (other : x.1.kernelThread ≠ self) :
    Ends L self attr a (some point)
      (.ret (B.freed p { x.1 with tcb := none, stack := false }
        ((x.2.release x.1).dropStack x.1.stackaddr)) (err, thread))
  | haltedCleanup {p : Nat} {c : Pthread} {B : Task} {q : Pthread} {K : Kernel}
    (handed : Handed L a p c B q K) {point : Point} {x : Pthread × Kernel} {err : Option Errno}
    {thread : Option Nat} (from_point : Cleanup L self attr a p q K point x err thread)
    (own : x.1.kernelThread = self) :
    Ends L self attr a (some point)
      (.halted (B.put p { x.1 with tcb := none } (x.2.release x.1)))
  | assertThreadAlloc (point : Option Point) {p : Nat} {c : Pthread}
    (handed : L.handed a = some (p, c)) (clear : c.haveKernelResources = false)
    (main : L.numAfter = 1)
    (late : ∀ x ∈ point, x = .tls ∨ x = .setup ∨ x = .sigstateInit ∨ x = .start) :
    Ends L self attr a point .fault
  | assertThreadStart (point : Option Point) {p : Nat} {c : Pthread}
    (handed : L.handed a = some (p, c)) (main : L.numAfter = 1)
    (late : ∀ x ∈ point, x = .start) :
    Ends L self attr a point .fault
  | fault (point : Point) {p : Nat} {c : Pthread} (handed : L.handed a = some (p, c))
    (answer : a.at point = .fault) :
    Ends L self attr a (some point) .fault
  | started {p : Nat} {c : Pthread} {B : Task} {q : Pthread} {K : Kernel}
    (handed : Handed L a p c B q K) {t : Table}
    (published : B.table.set q.thread (.entry p) = some t) :
    Ends L self attr a none
      (.ret ({ B with table := t, total := B.total + 1 }.put p (L.withTls self attr q K).1
        (L.withTls self attr q K).2) (none, some p))

section Frames

variable (q : Pthread) (K : Kernel)

/-- Finding a stack changes the fields of the stack. -/
theorem takeStack_fst (setup : Attr) :
  ∃ stackaddr stacksize, (takeStack q K setup).1 =
    { q with stackaddr := stackaddr, stacksize := stacksize, stack := true }
  := by
  by_cases hstack : q.stack = true
  · rw [takeStack, if_pos hstack, ← hstack]
    cases setup.stackaddr with
    | none => exact ⟨q.stackaddr, q.stacksize, rfl⟩
    | some addr => exact ⟨.user addr, setup.stacksize, rfl⟩
  · rw [takeStack, if_neg hstack]
    exact ⟨.allocated K.vmStacks.count, setup.stacksize, rfl⟩

/-- Finding a stack changes the stacks. -/
theorem takeStack_snd (setup : Attr) :
  ∃ vmStacks userDeallocs, (takeStack q K setup).2 =
    { K with vmStacks := vmStacks, userDeallocs := userDeallocs }
  := by
  by_cases hstack : q.stack = true
  · rw [takeStack, if_pos hstack]
    cases setup.stackaddr with
    | none => exact ⟨K.vmStacks, K.userDeallocs, rfl⟩
    | some addr =>
        cases q.stackaddr with
        | user b => exact ⟨K.vmStacks, b :: K.userDeallocs, rfl⟩
        | allocated k => exact ⟨K.vmStacks.release k, K.userDeallocs, rfl⟩
  · rw [takeStack, if_neg hstack]
    exact ⟨K.vmStacks.issue, K.userDeallocs, rfl⟩

/-- Allocating the kernel resources changes their fields. -/
theorem takeKernel_fst (self num : Nat) :
  ∃ kernelThread wakeupPort, (takeKernel q K self num).1 =
    { q with
      kernelThread := kernelThread, wakeupPort := wakeupPort, haveKernelResources := true }
  := by
  by_cases hkr : q.haveKernelResources = true
  · rw [takeKernel, if_pos hkr, ← hkr]
    exact ⟨q.kernelThread, q.wakeupPort, rfl⟩
  · rw [takeKernel, if_neg hkr]
    by_cases hnum : num = 1
    · simp only [if_pos hnum]
      exact ⟨self, K.ports.count, rfl⟩
    · simp only [if_neg hnum]
      exact ⟨K.threads.count, K.ports.count, rfl⟩

/-- Allocating the kernel resources changes the kernel threads and the ports. -/
theorem takeKernel_snd (self num : Nat) :
  ∃ threads ports, (takeKernel q K self num).2 = { K with threads := threads, ports := ports }
  := by
  by_cases hkr : q.haveKernelResources = true
  · rw [takeKernel, if_pos hkr]
    exact ⟨K.threads, K.ports, rfl⟩
  · rw [takeKernel, if_neg hkr]
    by_cases hnum : num = 1
    · simp only [if_pos hnum]
      exact ⟨K.threads, K.ports.issue, rfl⟩
    · simp only [if_neg hnum]
      exact ⟨K.threads.issue, K.ports.issue, rfl⟩

end Frames

section Ends

variable {L B : Task} {self p : Nat} {attr : Option Attr} {a : Answers} {c q : Pthread}
  {K : Kernel}

/-- The fields that are not touched before the thread is started. -/
theorem Handed.withStack_fields (h : Handed L a p c B q K) (attr : Option Attr) :
  (L.withStack attr q K).1.thread = q.thread ∧ (L.withStack attr q K).1.state ≠ .terminated ∧
    (L.withStack attr q K).1.tcb = none ∧
    (L.withStack attr q K).1.haveKernelResources = c.haveKernelResources ∧
    (L.withStack attr q K).1.kernelThread = c.kernelThread
  := by
  obtain ⟨stackaddr, stacksize, hz⟩ := takeStack_fst (q.prepared (L.setup attr)) K (L.setup attr)
  obtain ⟨-, -, -, hkernelThread, -, hkr, htcb⟩ := h.fields
  rw [Task.withStack, hz]
  exact ⟨rfl, prepared_state q (L.setup attr), htcb, hkr, hkernelThread⟩

theorem Handed.withStack_wakeupPort (h : Handed L a p c B q K) (attr : Option Attr) :
  (L.withStack attr q K).1.wakeupPort = c.wakeupPort
  := by
  obtain ⟨stackaddr, stacksize, hz⟩ := takeStack_fst (q.prepared (L.setup attr)) K (L.setup attr)
  rw [Task.withStack, hz]
  exact h.fields.2.2.2.2.1

theorem withKernel_fields (L : Task) (self : Nat) (attr : Option Attr) (q : Pthread)
    (K : Kernel) :
  (L.withKernel self attr q K).1.thread = (L.withStack attr q K).1.thread ∧
    (L.withKernel self attr q K).1.state = (L.withStack attr q K).1.state ∧
    (L.withKernel self attr q K).1.tcb = (L.withStack attr q K).1.tcb
  := by
  obtain ⟨kernelThread, wakeupPort, hx⟩ := takeKernel_fst (L.withStack attr q K).1
    (L.withStack attr q K).2 self L.numAfter
  rw [Task.withKernel, hx]
  exact ⟨rfl, rfl, rfl⟩

/-- Finding a stack keeps the other ledgers. -/
theorem withStack_snd (L : Task) (attr : Option Attr) (q : Pthread) (K : Kernel) :
  (L.withStack attr q K).2.threads = K.threads ∧ (L.withStack attr q K).2.ports = K.ports ∧
    (L.withStack attr q K).2.tls = K.tls
  := by
  obtain ⟨vmStacks, userDeallocs, hz⟩ :=
    takeStack_snd (q.prepared (L.setup attr)) K (L.setup attr)
  rw [Task.withStack, hz]
  exact ⟨rfl, rfl, rfl⟩

/-- Allocating the kernel resources keeps the stacks and the blocks. -/
theorem withKernel_snd (L : Task) (self : Nat) (attr : Option Attr) (q : Pthread)
    (K : Kernel) :
  (L.withKernel self attr q K).2.vmStacks = (L.withStack attr q K).2.vmStacks ∧
    (L.withKernel self attr q K).2.tls = (L.withStack attr q K).2.tls ∧
    (L.withKernel self attr q K).1.stackaddr = (L.withStack attr q K).1.stackaddr
  := by
  obtain ⟨threads, ports, hK⟩ := takeKernel_snd (L.withStack attr q K).1
    (L.withStack attr q K).2 self L.numAfter
  obtain ⟨kernelThread, wakeupPort, hq⟩ := takeKernel_fst (L.withStack attr q K).1
    (L.withStack attr q K).2 self L.numAfter
  rw [Task.withKernel, hK, hq]
  exact ⟨rfl, rfl, rfl⟩

/-- Nothing is handed out by `__pthread_alloc`. -/
theorem Handed.counts (h : Handed L a p c B q K) :
  K.threads.count = L.kernel.threads.count ∧ K.ports.count = L.kernel.ports.count ∧
    K.vmStacks.count = L.kernel.vmStacks.count ∧ K.tls.count = L.kernel.tls.count
  := by
  rw [h.kernel]
  split
  · exact ⟨rfl, rfl, rfl, rfl⟩
  · refine ⟨Ledger.release_count _ _, rfl, rfl, ?_⟩
    cases c.tcb with
    | none => rfl
    | some b => exact Ledger.release_count _ _

/-- A creation that has a structure fails at the first of the following points that refuses. -/
theorem Handed.failurePoint_eq (h : Handed L a p c B q K) (attr : Option Attr) :
  L.failurePoint attr a =
    if c.stack = false ∧
        ((L.setup attr).stacksize ≠ L.defaultStacksize ∨ a.vmAllocate = false) then
      some .stackAlloc
    else if c.haveKernelResources = false ∧
        (a.portAllocate = false ∨ a.insertRight = false) then
      some .wakeupmsg
    else if c.haveKernelResources = false ∧ L.numAfter ≠ 1 ∧ a.threadCreate = false then
      some .threadCreate
    else if a.allocateTls = false then some .tls
    else if a.setup ≠ .ok then some .setup
    else if a.sigstateInit ≠ .ok then some .sigstateInit
    else if a.start ≠ .ok then some .start
    else none
  := by
  rw [Task.failurePoint, h.handed]

/-- The labels from `failed_setup` on end the creation. -/
theorem Handed.ends_cleanup (h : Handed L a p c B q K) {point : Point} {x : Pthread × Kernel}
    {err : Option Errno} {thread : Option Nat}
    (hfrom : Cleanup L self attr a p q K point x err thread) :
  Ends L self attr a (some point)
    (((B.put p x.1 x.2).failedSetup self p err).bind fun L err => .ret L (err, thread))
  := by
  have hfields : x.1.thread = q.thread ∧ x.1.state ≠ .terminated := by
    obtain ⟨hthread, hstate, -⟩ := h.withStack_fields attr
    obtain ⟨hthread', hstate', -⟩ := withKernel_fields L self attr q K
    rw [← hstate'] at hstate
    rw [hthread] at hthread'
    cases hfrom with
    | tls => exact ⟨hthread', hstate⟩
    | setup e answer => exact ⟨hthread', hstate⟩
    | sigstateInit e answer => exact ⟨hthread', hstate⟩
    | start e answer main => exact ⟨hthread', hstate⟩
  rw [failedSetup_put (h.held.put hfields.1) hfields.2]
  split
  · rename_i hown
    exact .haltedCleanup h hfrom hown
  · rename_i hother
    exact .cleanup h hfrom hother

theorem fail_bind_finish (x : Exec (Option Errno)) :
  (Task.fail x).bind (Task.finish self a) = x.bind fun L err => .ret L (err, none)
  := by
  cases x with
  | ret L err => rfl
  | halted L => rfl
  | fault => rfl

/-- The creation from the call of `__pthread_thread_start` on. -/
theorem Handed.ends_start (h : Handed L a p c B q K) {t : Table}
    (ht : B.table.set q.thread (.entry p) = some t)
    (hnull : t.set q.thread .null = some B.table) (hnum : t.num = B.table.num) :
  Ends L self attr a (if a.start ≠ .ok then some .start else none)
    (Task.finish self a ({ B with table := t, total := B.total + 1 }.put p
      (L.withTls self attr q K).1 (L.withTls self attr q K).2) (.start p))
  := by
  have hthread : (L.withTls self attr q K).1.thread = q.thread :=
    (withKernel_fields L self attr q K).1.trans (h.withStack_fields attr).1
  simp only [Task.finish, threadStart_put]
  by_cases hmain : t.num = 1 ∧ ¬ (B.total + 1 = 1 ∧ (L.withTls self attr q K).1.kernelThread = self)
  · rw [if_pos hmain]
    apply Ends.assertThreadStart _ h.handed
    · rw [← h.num, ← hnum]
      apply hmain.1
    · intro x hx
      split at hx
      · exact (Option.mem_some_iff.mp hx).symm
      · cases hx
  · rw [if_neg hmain]
    cases hstart : a.start with
    | ok => exact .started h ht
    | error e =>
        simp only [Exec.ret_bind]
        rw [failedStarting_put (by rw [hthread]; apply hnull)]
        apply h.ends_cleanup (.start e hstart _)
        intro hnum'
        rw [← h.num, ← hnum] at hnum'
        by_contra hother
        apply hmain ⟨hnum', fun hself => hother hself.2⟩
    | fault => exact .fault .start h.handed hstart

/-- The creation from the allocation of the block for thread-local storage on. -/
theorem Handed.ends_tls (h : Handed L a p c B q K) :
  Ends L self attr a
    (if a.allocateTls = false then some .tls
    else if a.setup ≠ .ok then some .setup
    else if a.sigstateInit ≠ .ok then some .sigstateInit
    else if a.start ≠ .ok then some .start
    else none)
    (((B.put p (L.withKernel self attr q K).1 (L.withKernel self attr q K).2).prepareTls
      self p a).bind (Task.finish self a))
  := by
  have hfields := h.withStack_fields attr
  have hfields' := withKernel_fields L self attr q K
  have hthread := hfields'.1.trans hfields.1
  obtain ⟨t, ht, hnull, hnum, -⟩ := h.held.publish
  rw [prepareTls_put (hfields'.2.2.trans hfields.2.2.1) (by rw [hthread]; apply ht)]
  cases a.allocateTls with
  | false =>
      simp only [Bool.false_eq_true, if_false, if_true, fail_bind_finish]
      apply h.ends_cleanup .tls
  | true =>
      simp only [Bool.true_eq_false, if_false, if_true]
      cases hsetup : a.setup with
      | fault => exact .fault .setup h.handed hsetup
      | error e =>
          rw [if_pos (by simp)]
          simp only [fail_bind_finish]
          apply h.ends_cleanup (.setup e hsetup)
      | ok =>
          rw [if_neg (by simp)]
          cases hsig : a.sigstateInit with
          | fault => exact .fault .sigstateInit h.handed hsig
          | error e =>
              rw [if_pos (by simp)]
              simp only [fail_bind_finish]
              apply h.ends_cleanup (.sigstateInit e hsig)
          | ok =>
              rw [if_neg (by simp)]
              apply h.ends_start ht hnull hnum

/-- The creation on the structure handed out. -/
theorem Handed.ends (h : Handed L a p c B q K)
    (halloc : L.alloc self a = .ret (B.put p q K) (.ok p)) (attr : Option Attr) :
  Ends L self attr a (L.failurePoint attr a) (L.createInternal self attr a)
  := by
  obtain ⟨hthread, hstate, -, hkr, -⟩ := h.withStack_fields attr
  have hheld : Held (B.put p (L.withStack attr q K).1 (L.withStack attr q K).2) p :=
    h.held.put hthread
  rw [h.failurePoint_eq attr, ← hkr, Task.createInternal, h.prepare_eq halloc attr]
  by_cases hsize : c.stack = false ∧ (L.setup attr).stacksize ≠ L.defaultStacksize
  · rw [if_pos hsize, if_pos ⟨hsize.1, .inl hsize.2⟩]
    exact .stackAlloc h hsize.1 .EINVAL
  by_cases hvm : c.stack = false ∧ a.vmAllocate = false
  · rw [if_neg hsize, if_pos hvm, if_pos ⟨hvm.1, .inr hvm.2⟩]
    exact .stackAlloc h hvm.1 .EAGAIN
  rw [if_neg hsize, if_neg hvm, if_neg (by tauto), ← Task.withStack,
    prepareKernel_put hheld hstate, h.num, h.total]
  by_cases hport : (L.withStack attr q K).1.haveKernelResources = false ∧ a.portAllocate = false
  · rw [if_pos hport, if_pos ⟨hport.1, .inl hport.2⟩]
    exact .portAllocate h
  by_cases hright : (L.withStack attr q K).1.haveKernelResources = false ∧ a.insertRight = false
  · rw [if_neg hport, if_pos hright, if_pos ⟨hright.1, .inr hright.2⟩]
    exact .insertRight h rfl
  rw [if_neg hport, if_neg hright, if_neg (by tauto)]
  by_cases hmain : (L.withStack attr q K).1.haveKernelResources = false ∧ L.numAfter = 1 ∧
      L.total ≠ 0
  · rw [if_pos hmain, if_neg (by tauto)]
    apply Ends.assertThreadAlloc _ h.handed (hkr ▸ hmain.1) hmain.2.1
    intro x hx
    split at hx
    · exact .inl (Option.mem_some_iff.mp hx).symm
    · split at hx
      · exact .inr (.inl (Option.mem_some_iff.mp hx).symm)
      · split at hx
        · exact .inr (.inr (.inl (Option.mem_some_iff.mp hx).symm))
        · split at hx
          · exact .inr (.inr (.inr (Option.mem_some_iff.mp hx).symm))
          · cases hx
  by_cases hcreate : (L.withStack attr q K).1.haveKernelResources = false ∧ L.numAfter ≠ 1 ∧
      a.threadCreate = false
  · rw [if_neg hmain, if_pos hcreate, if_pos hcreate]
    exact .threadCreate h rfl
  · rw [if_neg hmain, if_neg hcreate, if_neg hcreate]
    apply h.ends_tls

/-- Every creation ends so. -/
theorem Inv.ends (h : Inv L) (self : Nat) (attr : Option Attr) (a : Answers) :
  Ends L self attr a (L.failurePoint attr a) (L.createInternal self attr a)
  := by
  obtain ⟨p, rest, hfree, hown, halloc⟩ | ⟨hfree, hnone, heap, memory, hle, hsame, hclear, halloc⟩ |
    ⟨p, c, B, q, K, hB, -, halloc⟩ := h.alloc_cases self a
  · rw [Task.createInternal, Task.prepare, halloc]
    exact .halted _ p rest hfree hown
  · rw [Task.createInternal, Task.prepare, halloc, Task.failurePoint, hnone]
    exact .alloc hfree hnone heap memory hle hsame hclear
  · apply hB.ends halloc

/-- A creation that succeeds has started a thread. -/
theorem Ends.of_started {point : Option Point} {L' : Task}
    (h : Ends L self attr a point (.ret L' (none, some p))) :
  point = none ∧ ∃ c B q K t, Handed L a p c B q K ∧
    (B.table.set q.thread (.entry p) = some t ∧ t.num = L.numAfter) ∧
      L' = { B with table := t, total := B.total + 1 }.put p (L.withTls self attr q K).1
      (L.withTls self attr q K).2
  := by
  generalize hx : Exec.ret L' (none, some p) = x at h
  cases h with
  | started handed published =>
      obtain ⟨rfl, heq⟩ := Exec.ret.inj hx
      obtain rfl := Option.some.inj (Prod.mk.inj heq).2
      obtain ⟨t, ht, -, hnum, -⟩ := handed.held.publish
      obtain rfl := Option.some_inj.mp (ht.symm.trans published)
      exact ⟨rfl, _, _, _, _, _, handed, ⟨published, hnum.trans handed.num⟩, rfl⟩
  | cleanup handed from_point other =>
      obtain ⟨rfl, heq⟩ := Exec.ret.inj hx
      cases from_point <;> cases heq
  | _ => cases hx

end Ends

end LibPthread.Thread
