import LibPthread.Mutex.Functions
import LibPthread.Thread.Table

/-!
# Lookup of thread IDs

The functions that take a `pthread_t`, up to the point where the structure of the thread is
known. The macro `__pthread_getid` reads `__pthread_threads[thread - 1]` without looking at
the size of the table, so that its result depends on which entries exist and which of them
were written.
-/

open Concurrency

namespace LibPthread.Thread

/-- What `__pthread_getid (thread)` reads: `none` when the entry is outside the table. -/
def Task.getid (L : Task) (thread : Int) : Option Slot :=
  if thread < 1 then none else L.table.threads[(thread - 1).toNat]?

/-- The ID names a published thread. -/
def Published (L : Task) (thread : Int) : Prop :=
  ∃ p, L.getid thread = some (.entry p)

/-- How a call that takes a thread ID goes: it reads an entry that is outside the table or was
never written, it uses a null pointer, it fails an assertion, it returns without having done
anything, or it goes on with the structure of the thread. -/
inductive Lookup where
  | badRead
  | nullPointer
  | abort
  | error (e : Errno)
  | zero
  | found (p : Nat)
  deriving DecidableEq, Repr

/-- `__pthread_getid (thread)`, followed by `k` with the pointer that was read. -/
def Task.withId (L : Task) (thread : Int) (k : Option Nat → Lookup) : Lookup :=
  match L.getid thread with
  | none => .badRead
  | some .unwritten => .badRead
  | some .null => k none
  | some (.entry p) => k (some p)

/-- The lookup at the start of most functions: `ESRCH` if the entry is `NULL`. -/
def Task.findThread (L : Task) (thread : Int) : Lookup :=
  L.withId thread fun
    | none => .error .ESRCH
    | some p => .found p

/-- `pthread_join`. -/
def pthreadJoin (L : Task) (thread : Int) : Lookup :=
  L.findThread thread

/-- `pthread_detach`. -/
def pthreadDetach (L : Task) (thread : Int) : Lookup :=
  L.findThread thread

/-- `pthread_cancel`. -/
def pthreadCancel (L : Task) (t : Int) : Lookup :=
  L.findThread t

/-- `pthread_kill`; the signal is looked at after the thread. -/
def pthreadKill (L : Task) (thread : Int) : Lookup :=
  L.findThread thread

/-- `pthread_getattr_np`. -/
def pthreadGetattrNp (L : Task) (thread : Int) : Lookup :=
  L.findThread thread

/-- `__pthread_mutex_transfer_np`, called by the thread `u`: the assertion on the owner
stands before the lookup. -/
def pthreadMutexTransferNp (b : Build) (mutex : Mutex Nat) (u : Nat) (L : Task) (tid : Int) :
    Lookup :=
  if b.ndebug ∨ mutex.owner = some u then L.findThread tid else .abort

/-- The number of signals, `NSIG`. -/
def nsig : Int := 32

/-- `pthread_kill_siginfo_np`: the pointer that was read is not compared with `NULL`. -/
def pthreadKillSiginfoNp (sig : Int) (L : Task) (tid : Int) : Lookup :=
  if sig < 0 ∨ sig ≥ nsig then .error .EINVAL
  else if sig = 0 then .zero
  else
    L.withId tid fun
      | none => .nullPointer
      | some p => .found p

/-- The functions that take a thread ID. -/
inductive Call where
  | join
  | detach
  | cancel
  | kill
  | getattrNp
  | mutexTransferNp (b : Build) (mutex : Mutex Nat) (u : Nat)
  | killSiginfoNp (sig : Int)

/-- The call with the given thread ID. -/
def Call.run (L : Task) (thread : Int) : Call → Lookup
  | .join => pthreadJoin L thread
  | .detach => pthreadDetach L thread
  | .cancel => pthreadCancel L thread
  | .kill => pthreadKill L thread
  | .getattrNp => pthreadGetattrNp L thread
  | .mutexTransferNp b mutex u => pthreadMutexTransferNp b mutex u L thread
  | .killSiginfoNp sig => pthreadKillSiginfoNp sig L thread

/-- The call reads only entries that were written, and if the ID names no published thread, it
returns `ESRCH` and does nothing else. -/
def Call.RejectsUnknown (c : Call) (L : Task) (thread : Int) : Prop :=
  c.run L thread ≠ .badRead ∧ (¬ Published L thread → c.run L thread = .error .ESRCH)

/-- The IDs with which the call does so: those that were handed out; for the transfer of a
mutex the caller must be the owner unless the thread is published; a signal can only be sent
to a published thread. -/
def Call.Accepts (c : Call) (L : Task) (thread : Int) : Prop :=
  match c with
  | .mutexTransferNp b mutex u =>
    Published L thread ∨
      ((b.ndebug ∨ mutex.owner = some u) ∧ 1 ≤ thread ∧ thread ≤ L.table.num)
  | .killSiginfoNp _ => Published L thread
  | _ => 1 ≤ thread ∧ thread ≤ L.table.num

section Lookup

variable {L : Task} {thread : Int}

/-- In a well-formed table the entries that can be read are those of the IDs handed out. -/
theorem getid_cases (h : L.table.Wf) (thread : Int) :
  ((1 ≤ thread ∧ thread ≤ L.table.num) ∧
      (L.getid thread = some .null ∨ Published L thread)) ∨
    (¬ (1 ≤ thread ∧ thread ≤ L.table.num) ∧
      (L.getid thread = none ∨ L.getid thread = some .unwritten))
  := by
  have hnum := h.num_le
  have hlen := h.length
  by_cases hpos : thread < 1
  · right
    refine ⟨by omega, ?_⟩
    left
    rw [Task.getid, if_pos hpos]
  · obtain ⟨i, rfl⟩ : ∃ i : Nat, thread = i + 1 := ⟨(thread - 1).toNat, by omega⟩
    have hget : L.getid (i + 1) = L.table.threads[i]? := by
      rw [Task.getid, if_neg hpos]
      congr 1
      omega
    rcases Nat.lt_or_ge i L.table.max with hi | hi
    · have hwritten := h.written i hi
      rcases Nat.lt_or_ge i L.table.num with hlt | hge
      · left
        refine ⟨by omega, ?_⟩
        rw [Published, hget]
        cases hslot : L.table.threads[i]? with
        | none =>
            have := List.getElem?_eq_none_iff.mp hslot
            omega
        | some e =>
            cases e with
            | unwritten =>
                have := hwritten.mp hslot
                omega
            | null => exact .inl rfl
            | entry p => exact .inr ⟨p, rfl⟩
      · right
        refine ⟨by omega, ?_⟩
        right
        rw [hget, hwritten.mpr hge]
    · right
      refine ⟨by omega, ?_⟩
      left
      rw [hget]
      apply List.getElem?_eq_none
      omega

theorem Published.range (h : L.table.Wf) (hp : Published L thread) :
  1 ≤ thread ∧ thread ≤ L.table.num
  := by
  obtain ⟨p, hp⟩ := hp
  rcases getid_cases h thread with ⟨hrange, -⟩ | ⟨-, hnone | hunwritten⟩
  · apply hrange
  · rw [hnone] at hp
    cases hp
  · rw [hunwritten] at hp
    cases hp

theorem findThread_of_published (hp : Published L thread) :
  ∃ p, L.findThread thread = .found p
  := by
  obtain ⟨p, hp⟩ := hp
  use p
  simp [Task.findThread, Task.withId, hp]

/-- The lookup with a test for `NULL` rejects unknown IDs exactly within the IDs handed out. -/
theorem findThread_iff (h : L.table.Wf) :
  (L.findThread thread ≠ .badRead ∧
      (¬ Published L thread → L.findThread thread = .error .ESRCH)) ↔
    1 ≤ thread ∧ thread ≤ L.table.num
  := by
  rcases getid_cases h thread with ⟨hrange, hnull | hp⟩ | ⟨hout, hbad⟩
  · simp [hrange, Task.findThread, Task.withId, hnull]
  · obtain ⟨p, hfound⟩ := findThread_of_published hp
    simp [hrange, hfound, hp]
  · have hread : L.findThread thread = .badRead := by
      rcases hbad with hbad | hbad
      · simp [Task.findThread, Task.withId, hbad]
      · simp [Task.findThread, Task.withId, hbad]
    simp [hout, hread]

theorem mutexTransferNp_iff (h : L.table.Wf) (b : Build) (mutex : Mutex Nat) (u : Nat) :
  (Call.mutexTransferNp b mutex u).RejectsUnknown L thread ↔
    (Call.mutexTransferNp b mutex u).Accepts L thread
  := by
  by_cases howner : b.ndebug ∨ mutex.owner = some u
  · have hrun : (Call.mutexTransferNp b mutex u).run L thread = L.findThread thread := by
      rw [Call.run, pthreadMutexTransferNp, if_pos howner]
    rw [Call.RejectsUnknown, hrun, findThread_iff h, Call.Accepts]
    constructor
    · intro hrange
      right
      use howner
    · rintro (hp | ⟨-, hrange⟩)
      · apply hp.range h
      · apply hrange
  · have hrun : (Call.mutexTransferNp b mutex u).run L thread = .abort := by
      rw [Call.run, pthreadMutexTransferNp, if_neg howner]
    rw [Call.RejectsUnknown, hrun, Call.Accepts]
    simp [howner]

theorem killSiginfoNp_iff (h : L.table.Wf) {sig : Int} (hsig : sig ≠ 0) :
  (Call.killSiginfoNp sig).RejectsUnknown L thread ↔ Published L thread
  := by
  by_cases hbad : sig < 0 ∨ sig ≥ nsig
  · have hrun : (Call.killSiginfoNp sig).run L thread = .error .EINVAL := by
      rw [Call.run, pthreadKillSiginfoNp, if_pos hbad]
    rw [Call.RejectsUnknown, hrun]
    simp
  · have hrun : (Call.killSiginfoNp sig).run L thread = L.withId thread fun
        | none => .nullPointer
        | some p => .found p := by
      rw [Call.run, pthreadKillSiginfoNp, if_neg hbad, if_neg hsig]
    rw [Call.RejectsUnknown, hrun]
    rcases getid_cases h thread with ⟨-, hnull | hp⟩ | ⟨hout, hread⟩
    · simp [Published, Task.withId, hnull]
    · obtain ⟨p, hp'⟩ := hp
      simp [Published, Task.withId, hp']
    · have hnot : ¬ Published L thread := by
        intro hp
        apply hout (hp.range h)
      rcases hread with hread | hread
      · simp [Task.withId, hread, hnot]
      · simp [Task.withId, hread, hnot]

end Lookup

section Rejects

variable {T : Type} [DecidableEq T] {s : Table.Sys T}

/-- In every reachable thread table, a call rejects an unknown ID exactly if the ID is one with
which it can be called. -/
theorem unknown_ids_rejected_iff {stacksize guardsize pageSize : Nat} {memory : Nat → Pthread}
    (h : (Table.machine T).Reach Table.OnceEach
      (State.idle (Task.boot stacksize guardsize pageSize memory)) s)
    (c : Call) (hsig : ∀ sig, c = .killSiginfoNp sig → sig ≠ 0) (thread : Int) :
  c.RejectsUnknown s.shared thread ↔ c.Accepts s.shared thread
  := by
  have hwf := (Table.Inv.of_reach h).registered.wf
  cases c with
  | mutexTransferNp b mutex u => apply mutexTransferNp_iff hwf
  | killSiginfoNp sig => apply killSiginfoNp_iff hwf (hsig sig rfl)
  | _ => apply findThread_iff hwf

/-- One thread creates one thread. -/
def createRun {T : Type} (t : T) : List (Label T Table.Loc) :=
  [.call t (.scan zeroed plainAttr), .act t false, .act t false, .act t false,
    .act t false, .act t false, .act t false, .act t false]

/-- The only thread has the ID 1, and a call with the ID 1 goes on with it. -/
theorem unknown_ids_rejected_createRun :
  ∃ s : Table.Sys (Fin 1), (Table.machine (Fin 1)).Reach Table.OnceEach
      (State.idle (Task.boot 16384 4096 4096 fun _ => zeroed)) s ∧
    (Call.killSiginfoNp 9).run s.shared 1 = .found 0 ∧
    (Call.killSiginfoNp 9).RejectsUnknown s.shared 1
  := by
  obtain ⟨s, hs, hp⟩ := Machine.exists_reach_of_run (M := Table.machine (Fin 1))
    (G := Table.OnceEach) (s := State.idle (Task.boot 16384 4096 4096 fun _ => zeroed))
    (createRun (0 : Fin 1))
    (fun s => s.shared.getid 1 = some (.entry 0)) (by decide +kernel)
  simp only [decide_eq_true_eq] at hp
  use s, hs
  refine ⟨?_, ?_⟩
  · simp [Call.run, pthreadKillSiginfoNp, nsig, Task.withId, hp]
  · apply (unknown_ids_rejected_iff hs (.killSiginfoNp 9) (by simp) 1).mpr
    use 0

/-- With one thread, which has the ID 1, `pthread_join` of the ID 2 reads an entry that was
never written, and `pthread_join` of the ID 0 one outside the table. -/
theorem unknown_id_read_createRun :
  ∃ s : Table.Sys (Fin 1), (Table.machine (Fin 1)).Reach Table.OnceEach
      (State.idle (Task.boot 16384 4096 4096 fun _ => zeroed)) s ∧
    s.shared.getid 2 = some .unwritten ∧ s.shared.getid 0 = none ∧
    ¬ Call.join.RejectsUnknown s.shared 2 ∧ ¬ Call.join.RejectsUnknown s.shared 0
  := by
  obtain ⟨s, hs, hp⟩ := Machine.exists_reach_of_run (M := Table.machine (Fin 1))
    (G := Table.OnceEach) (s := State.idle (Task.boot 16384 4096 4096 fun _ => zeroed))
    (createRun (0 : Fin 1))
    (fun s => s.shared.getid 2 = some .unwritten ∧ s.shared.getid 0 = none)
    (by decide +kernel)
  simp only [decide_eq_true_eq] at hp
  use s, hs, hp.1, hp.2
  constructor
  · simp [Call.RejectsUnknown, Call.run, pthreadJoin, Task.findThread, Task.withId, hp.1]
  · simp [Call.RejectsUnknown, Call.run, pthreadJoin, Task.findThread, Task.withId, hp.2]

end Rejects

end LibPthread.Thread
