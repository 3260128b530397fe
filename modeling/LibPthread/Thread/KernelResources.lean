import LibPthread.Thread.Histories

/-!
# Kernel resources of started threads

When `__pthread_create_internal` is about to start a thread, `have_kernel_resources` is set:
by `__pthread_thread_alloc`, or because the structure was found with the flag set. The flag is
never cleared, while `__pthread_alloc` terminates the kernel thread of every structure that it
recycles, and it is not initialized in a new structure.
-/

open Concurrency

namespace LibPthread.Thread

/-- The kernel thread of the structure was obtained from `thread_create` and is alive, and so is
its wakeup port. -/
structure HasLiveResources (L : Task) (p : Nat) : Prop where
  flag : (L.structs p).haveKernelResources = true
  obtained : (L.structs p).kernelThread ≠ 0
  thread : L.kernel.threads.Live (L.structs p).kernelThread
  port : L.kernel.ports.Live (L.structs p).wakeupPort

/-- The structure that will be handed out has no flag set, or it is new and the memory that
`malloc` returned happens to name a live kernel thread and a live port. -/
def FindsLiveResources (L : Task) (a : Answers) : Prop :=
  ∀ p c, L.handed a = some (p, c) → c.haveKernelResources = false ∨
    (L.freeThreads = [] ∧ c.kernelThread ≠ 0 ∧ L.kernel.threads.Live c.kernelThread ∧
      L.kernel.ports.Live c.wakeupPort)

section Start

variable {L L' : Task} {self p : Nat} {attr : Option Attr} {a : Answers}

/-- The state in which a thread other than the main one is about to be started. -/
theorem Inv.prepare_start (h : Inv L) (hstart : L.prepare self attr a = .ret L' (.start p))
    (hother : L'.table.num ≠ 1) :
  ∃ c B q K t, Handed L a p c B q K ∧ t.num = L.numAfter ∧ L' =
    { B with table := t, total := B.total + 1 }.put p (L.withTls self attr q K).1
      (L.withTls self attr q K).2
  := by
  -- the answer of `thread_resume` comes later, so it may be assumed to be positive
  have hprepare : L.prepare self attr { a with start := .ok } = .ret L' (.start p) := hstart
  have hends := h.ends self attr { a with start := .ok }
  have hcreate : L.createInternal self attr { a with start := .ok } =
      .ret L' (none, some p) := by
    rw [Task.createInternal, hprepare, Exec.ret_bind, Task.finish, Task.threadStart,
      if_neg (fun hmain => hother hmain.1)]
    rfl
  rw [hcreate] at hends
  obtain ⟨-, c, B, q, K, t, hB, ⟨-, hnum⟩, hL⟩ := hends.of_started
  refine ⟨c, B, q, K, t, ?_, hnum, hL⟩
  obtain ⟨handed, held, structs, heap, total, size, default, num, entry, free, contents,
    kernel⟩ := hB
  exact ⟨handed, held, structs, heap, total, size, default, num, entry, free, contents, kernel⟩

/-- A started thread has the kernel resources that were allocated for it. -/
theorem hasLiveResources_iff {q : Pthread} {K : Kernel} {M : Task}
    (hstructs : M.structs p = (L.withTls self attr q K).1)
    (hkernel : M.kernel = (L.withTls self attr q K).2) :
  HasLiveResources M p ↔ (L.withKernel self attr q K).1.kernelThread ≠ 0 ∧
    (L.withKernel self attr q K).2.threads.Live
      (L.withKernel self attr q K).1.kernelThread ∧
    (L.withKernel self attr q K).2.ports.Live (L.withKernel self attr q K).1.wakeupPort
  := by
  have hflag : (L.withKernel self attr q K).1.haveKernelResources = true := by
    obtain ⟨kernelThread, wakeupPort, hx⟩ := takeKernel_fst (L.withStack attr q K).1
      (L.withStack attr q K).2 self L.numAfter
    rw [Task.withKernel, hx]
  constructor
  · rintro ⟨-, hobtained, hthread, hport⟩
    rw [hstructs] at hobtained hthread hport
    rw [hkernel] at hthread hport
    exact ⟨hobtained, hthread, hport⟩
  · rintro ⟨hobtained, hthread, hport⟩
    constructor
    · rw [hstructs]
      exact hflag
    · rw [hstructs]
      exact hobtained
    · rw [hstructs, hkernel]
      exact hthread
    · rw [hstructs, hkernel]
      exact hport

/-- The structure that was handed out tells whether live resources are found. -/
theorem findsLiveResources_iff {c : Pthread} (hhanded : L.handed a = some (p, c)) :
  FindsLiveResources L a ↔ c.haveKernelResources = false ∨
    (L.freeThreads = [] ∧ c.kernelThread ≠ 0 ∧ L.kernel.threads.Live c.kernelThread ∧
      L.kernel.ports.Live c.wakeupPort)
  := by
  constructor
  · exact fun h => h p c hhanded
  · intro h p' c' hhanded'
    rw [hhanded, Option.some_inj] at hhanded'
    obtain ⟨rfl, rfl⟩ := Prod.mk.inj hhanded'
    apply h

/-- After any history, when a thread other than the main one is about to be started, it has live
kernel resources exactly if its structure was handed out without the flag. -/
theorem started_thread_live_iff {stacksize guardsize pageSize : Nat}
    {memory : Nat → Pthread} {H : History}
    (hreach : History.Reach History.Any (.boot stacksize guardsize pageSize memory) H)
    (hself : H.task.kernel.threads.Live self)
    (hstart : H.task.prepare self attr a = .ret L' (.start p)) (hother : L'.table.num ≠ 1) :
  HasLiveResources L' p ↔ FindsLiveResources H.task a
  := by
  obtain ⟨c, B, q, K, t, hB, hnum, hL'⟩ := (Inv.of_reach hreach).prepare_start hstart hother
  rw [hL', Task.put_table] at hother
  rw [hnum] at hother
  have hstructs : L'.structs p = (H.task.withTls self attr q K).1 := by
    rw [hL', Task.put_structs_self]
  have hkernel : L'.kernel = (H.task.withTls self attr q K).2 := by
    rw [hL', Task.put_kernel]
  obtain ⟨-, -, -, hflag, hkernelThread⟩ := hB.withStack_fields attr
  have hwakeupPort := hB.withStack_wakeupPort attr
  obtain ⟨hthreads, hports, -⟩ := withStack_snd H.task attr q K
  rw [findsLiveResources_iff hB.handed, hasLiveResources_iff hstructs hkernel, Task.withKernel,
    takeKernel, hflag]
  by_cases hc : c.haveKernelResources = true
  · rw [if_pos hc, hkernelThread, hwakeupPort, hthreads, hports, hB.kernel]
    by_cases hfree : H.task.freeThreads = []
    · simp [hc, hfree]
    · -- the structure is recycled, so its kernel thread has just been terminated
      simp only [hc, hfree, false_and, or_false]
      apply iff_of_false
      · exact fun hlive => Ledger.not_live_release _ _ hlive.2.1
      · simp
  · rw [if_neg hc]
    simp only [if_neg hother]
    apply iff_of_true
    · have hcount : (H.task.withStack attr q K).2.threads.count =
          H.task.kernel.threads.count := by
        rw [hthreads, hB.counts.1]
      refine ⟨?_, Ledger.live_issue _, Ledger.live_issue _⟩
      have hlt := hself.1
      simp only [hcount]
      omega
    · left
      simpa using hc

/-- The thread on the structure `p` is about to be started in a task that satisfies `test`. -/
def startsWith (p : Nat) (test : Task → Bool) : Exec Task.Prepared → Bool
  | .ret L (.start q) => decide (q = p) && test L
  | _ => false

theorem exists_start {p : Nat} {test : Task → Bool} {x : Exec Task.Prepared}
    (h : startsWith p test x = true) :
  ∃ L, x = .ret L (.start p) ∧ test L = true
  := by
  unfold startsWith at h
  split at h
  · rename_i L q
    obtain ⟨hq, htest⟩ := Bool.and_eq_true _ _ |>.mp h
    obtain rfl := of_decide_eq_true hq
    use L
  · cases h

/-- The second thread is started with a new kernel thread and a new port. -/
theorem started_thread_live_second :
  ∃ H L, History.Reach History.Any (.boot 16384 4096 4096 fun _ => zeroed) H ∧
    H.task.prepare 0 none allGranted = .ret L (.start 1) ∧ HasLiveResources L 1
  := by
  obtain ⟨H, hH, hp⟩ := History.exists_reach_of_run (G := History.Any)
    (H := .boot 16384 4096 4096 fun _ => zeroed) [.initRoutine allGranted]
    (fun H => (decide (H.task.kernel.threads.Live 0) &&
      decide ((H.task.handed allGranted).map (fun x => x.2.haveKernelResources) = some false)) &&
      startsWith 1 (fun L => decide (L.table.num ≠ 1)) (H.task.prepare 0 none allGranted))
    (by decide +kernel)
  simp only [Bool.and_eq_true, decide_eq_true_eq] at hp
  obtain ⟨⟨hlive, hhanded⟩, hprepare⟩ := hp
  obtain ⟨L, hstart, hnum⟩ := exists_start hprepare
  refine ⟨H, L, hH, hstart, ?_⟩
  apply (started_thread_live_iff hH hlive hstart (of_decide_eq_true hnum)).mpr
  intro p c hc
  rw [hc] at hhanded
  left
  simpa using hhanded

/-- Two threads are created; the second of them exits and is joined. -/
def recycleRun : List Op :=
  [.initRoutine allGranted, .create 0 none allGranted, .create 0 none allGranted,
    .exit 2 (.value 0), .join 3]

/-- The next creation recycles the structure of the thread that exited. The new thread is about
to be started, and its kernel thread and its port are dead. -/
theorem recycled_thread_dead :
  ∃ H L, History.Reach History.Any (.boot 16384 4096 4096 fun _ => zeroed) H ∧
    H.task.prepare 0 none allGranted = .ret L (.start 2) ∧ L.table.num ≠ 1 ∧
    (L.structs 2).haveKernelResources = true ∧
    ¬ L.kernel.threads.Live (L.structs 2).kernelThread ∧
    ¬ L.kernel.ports.Live (L.structs 2).wakeupPort
  := by
  obtain ⟨H, hH, hp⟩ := History.exists_reach_of_run (G := History.Any)
    (H := .boot 16384 4096 4096 fun _ => zeroed) recycleRun
    (fun H => startsWith 2
      (fun L => decide (L.table.num ≠ 1 ∧ (L.structs 2).haveKernelResources = true ∧
        ¬ L.kernel.threads.Live (L.structs 2).kernelThread ∧
        ¬ L.kernel.ports.Live (L.structs 2).wakeupPort))
      (H.task.prepare 0 none allGranted))
    (by decide +kernel)
  obtain ⟨L, hstart, hdead⟩ := exists_start hp
  use H, L, hH, hstart
  exact of_decide_eq_true hdead

end Start

end LibPthread.Thread
