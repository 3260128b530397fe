import LibPthread.Queue.Accesses
import LibPthread.Semaphore.Tokens

/-!
# The semaphore access by access

The semaphore functions as code that reads and writes the memory of the semaphore and of the
thread structures one cell at a time, under the spin lock of the semaphore. The sections of the
functions can be taken to be executed at once: whatever the order of the single accesses, the
threads do what they do in a run of the system in which each section is one step.
-/

open Concurrency

namespace LibPthread

namespace Semaphore

/-- The fields of `struct __semaphore` that the functions use. -/
inductive Field where
  | value
  deriving DecidableEq

/-- The memory of a semaphore, with the queue links of the threads. -/
abbrev Contents (T : Type) : Queue.Address T Unit Field → Type :=
  Queue.Contents T Unit fun _ => Int

section Functions

variable {T : Type}

/-- `-1` with `errno` set to the error of a wait, or `0`. -/
def waitRet (err : Bool) : Ret :=
  if err then .minusOne .ETIMEDOUT else .zero

/-- The accesses of `sem->__value --`. -/
def takeToken : Code (Contents T) (Exit (Loc T) Ret) :=
  .read (.field .value) fun (value : Int) =>
  .write (.field .value) (value - 1) (.done (.ret .zero))

/-- The accesses of the first section of `__sem_timedwait_internal`. -/
def waitStartCode (b : Build) (self : T) (timeout : Option Timespec) :
    Code (Contents T) (Exit (Loc T) Ret) :=
  .read (.field .value) fun (value : Int) =>
    if 0 < value then takeToken
    else if badTime timeout then .done (.keep (.minusOne .EINVAL))
    else
      (Queue.enqueueCode b () self).bind fun _ =>
        .done (.goto (.wait (.blocked (.block timeout.isSome))))

/-- The accesses of the section of `__sem_timedwait_internal` after the wait. -/
def recheckCode (b : Build) (self : T) (err : Bool) : Code (Contents T) (Exit (Loc T) Ret) :=
  .read (.prevp self) fun (prevp : Option (Queue.Cell T Unit)) =>
    if prevp.isNone then
      .done (if err then .goto (.wait (.blocked .drain)) else .ret (waitRet false))
    else (Queue.dequeueCode b self).bind fun _ => .done (.ret (waitRet err))

/-- The accesses of `__sem_trywait`. -/
def trywaitCode : Code (Contents T) (Exit (Loc T) Ret) :=
  .read (.field .value) fun (value : Int) =>
    if 0 < value then takeToken else .done (.ret (.minusOne .EAGAIN))

/-- The accesses of `assert (! sem->__queue)`. -/
def assertEmpty (b : Build) (k : Code (Contents T) (Exit (Loc T) Ret)) :
    Code (Contents T) (Exit (Loc T) Ret) :=
  if b.ndebug then k
  else .read (.head ()) fun (first : Option T) => if first.isNone then k else .fault

/-- The accesses of the section of `__sem_post`. -/
def postCode (b : Build) : Code (Contents T) (Exit (Loc T) Ret) :=
  .read (.field .value) fun (value : Int) =>
    if 0 < value then
      assertEmpty b <|
      .read (.field .value) fun (value : Int) =>
      .write (.field .value) (toInt (value + 1)) (.done (.ret .zero))
    else
      .read (.head ()) fun (first : Option T) =>
        if first.isNone then .write (.field .value) (1 : Int) (.done (.ret .zero))
        else
          .read (.head ()) fun (first : Option T) =>
            match first with
            | none => .fault
            | some wakeup =>
              (Queue.dequeueCode b wakeup).bind fun _ => .done (.goto (.post (.wakeup wakeup)))

variable [DecidableEq T]

/-- The steps that concern the ports only. -/
def outside (b : Build) (self : T) : Loc T → Bool → (T → Nat) → Outcome (T → Nat) (Loc T) Ret
  | .wait (.blocked (.block timed)), timeout, port =>
    if timeout then
      if timed then .goto port (.wait (.blocked (.recheck true))) else .spin
    else if port self = 0 then .spin
    else .goto (Function.update port self (port self - 1)) (.wait (.blocked (.recheck false)))
  | .wait (.blocked .drain), _, port =>
    if port self = 0 then .spin
    else .ret (Function.update port self (port self - 1)) (waitRet true)
  | .post (.wakeup thread), _, port =>
    if port thread = 0 then .ret (Function.update port thread (port thread + 1)) .zero
    else b.assert False (.ret port .zero)
  | _, _, _ => .spin

/-- The sections of the semaphore functions. -/
def code (b : Build) (self : T) : Loc T → Option (Code (Contents T) (Exit (Loc T) Ret))
  | .wait (.start timeout) => some (waitStartCode b self timeout)
  | .wait (.blocked (.recheck err)) => some (recheckCode b self err)
  | .wait (.blocked _) => none
  | .trywait => some trywaitCode
  | .post .start => some (postCode b)
  | .post (.wakeup _) => none

/-- The functions of a semaphore on memory. -/
def program (b : Build) : Program T (Contents T) (T → Nat) (Loc T) Ret where
  entry := Loc.entry
  code := code b
  outside := outside b

/-- The memory and the ports belong to the state of the system. -/
structure InMemory (lock : Bool) (m : ∀ c, Contents T c) (port : T → Nat)
    (x : World Semaphore T Unit) : Prop where
  lock : x.obj.lock = lock
  value : x.obj.value = Queue.fields m .value
  queue : Queue.Represents (Queue.queues m) x.waits
  port : x.waits.port = port

/-! ### The sections, executed at once -/

variable {b : Build} {self : T} {lock : Bool} {m m' : ∀ c, Contents T c} {port : T → Nat}
    {x : World Semaphore T Unit}

omit [DecidableEq T] in
/-- The change of the queue and the fields in a section. -/
theorem InMemory.change (h : InMemory false m port x) {w : Waits T Unit}
    (hvalue : Queue.fields m' .value = Queue.fields m .value)
    (hqueue : Queue.Represents (Queue.queues m') w) (hport : w.port = x.waits.port) :
  InMemory false m' port ⟨⟨false, x.obj.value⟩, w⟩
  := by
  constructor
  · rfl
  · rw [hvalue, h.value]
  · apply hqueue
  · rw [hport, h.port]

theorem InMemory.write (h : InMemory false m port x) (value : Int) :
  InMemory false (Function.update m (.field .value) value) port ⟨⟨false, value⟩, x.waits⟩
  := by
  constructor
  · rfl
  · simp
  · simpa using h.queue
  · apply h.port

omit [DecidableEq T] in
theorem InMemory.load (h : InMemory lock m port x) :
  m (.field .value) = x.obj.value
  := h.value.symm

theorem agrees_waitStart (h : InMemory false m port x) {timeout : Option Timespec} {c : Bool}
    (hself : x.waits.prevp self = none) :
  Program.Agrees InMemory port ((waitStartCode b self timeout).run m)
    (step b () self (.wait (.start timeout)) c x)
  := by
  have hlock := h.lock
  simp only [waitStartCode, Code.run, h.load, step, timedwaitStep, waitStart, hlock]
  by_cases hpos : 0 < x.obj.value
  · simp only [hpos, takeToken, Code.run, h.load, if_true]
    use ⟨⟨false, x.obj.value - 1⟩, x.waits⟩, rfl
    apply h.write
  · by_cases hbad : badTime timeout = true
    · simp only [hpos, hbad, Code.run, if_true, if_false]
      use ⟨⟨true, x.obj.value⟩, x.waits⟩, rfl
      constructor
      · rfl
      · apply h.value
      · apply h.queue
      · apply h.port
    · obtain ⟨m', hrun, hqueue, hfields⟩ := h.queue.run_enqueueCode b () hself
      simp only [hpos, hbad, hrun, Code.run, Code.run_bind, Build.assert_of hself, if_false,
        Bool.false_eq_true, Option.bind_some]
      use ⟨⟨false, x.obj.value⟩, x.waits.enqueue () self⟩, rfl
      apply h.change (by rw [hfields]) hqueue rfl

theorem agrees_recheck (h : InMemory false m port x) {err c : Bool} :
  Program.Agrees InMemory port ((recheckCode b self err).run m)
    (step b () self (.wait (.blocked (.recheck err))) c x)
  := by
  have hlock := h.lock
  have hlink : m (.prevp self) = none ↔ x.waits.prevp self = none := h.queue.prevp self
  simp only [recheckCode, Code.run, step, timedwaitStep, waitStep, hlock]
  by_cases hgone : x.waits.prevp self = none
  · simp only [hlink.mpr hgone, hgone, Option.isNone_none, if_true, Code.run]
    cases err with
    | false => use x, rfl
    | true =>
        use x, rfl
  · obtain ⟨m', hrun, hqueue, hfields⟩ := h.queue.run_dequeueCode b hgone
    have hsome : (m (.prevp self)).isNone = false := by
      simpa [Option.isSome_iff_ne_none] using hlink.not.mpr hgone
    simp only [hsome, hgone, hrun, Code.run, Code.run_bind, if_false, Bool.false_eq_true,
      Option.bind_some]
    use ⟨⟨false, x.obj.value⟩, x.waits.dequeue self⟩
    constructor
    · rw [← hlock]
      rfl
    · apply h.change (by rw [hfields]) hqueue
      funext u
      simp

theorem agrees_trywait {t : T} (h : InMemory false m port x) {c : Bool} :
  Program.Agrees InMemory port ((trywaitCode (T := T)).run m) (step b () t .trywait c x)
  := by
  have hlock := h.lock
  simp only [trywaitCode, Code.run, h.load, step, trywait, hlock]
  by_cases hpos : 0 < x.obj.value
  · simp only [hpos, takeToken, Code.run, h.load, if_true]
    use ⟨⟨false, x.obj.value - 1⟩, x.waits⟩, rfl
    apply h.write
  · simp only [hpos, Code.run, if_false]
    use ⟨⟨false, x.obj.value⟩, x.waits⟩, rfl
    apply h.change rfl h.queue rfl

omit [DecidableEq T] in
/-- The first thread of the queue in memory. -/
theorem InMemory.load_head (h : InMemory lock m port x) :
  m (.head ()) = (x.waits.queue ()).head?
  := (h.queue.chain ()).load_eq

/-- The assertion of `__sem_post` on the queue in memory. -/
theorem InMemory.run_assertEmpty (h : InMemory lock m port x)
    (k : Code (Contents T) (Exit (Loc T) Ret)) :
  (assertEmpty b k).run m = if b.ndebug = true ∨ x.waits.queue () = [] then k.run m else none
  := by
  have hhead := h.load_head
  simp only [assertEmpty]
  by_cases hb : b.ndebug = true
  · simp [hb]
  · simp only [hb, if_false, Code.run, false_or, Bool.false_eq_true]
    rw [hhead]
    cases x.waits.queue () with
    | nil => simp
    | cons u rest => simp

theorem agrees_post {t : T} (h : InMemory false m port x) {c : Bool} :
  Program.Agrees InMemory port ((postCode b).run m) (step b () t (.post .start) c x)
  := by
  have hlock := h.lock
  simp only [postCode, Code.run, h.load, step, postStep, postStart, hlock]
  by_cases hpos : 0 < x.obj.value
  · simp only [hpos, if_true, Bool.false_eq_true, if_false]
    rw [h.run_assertEmpty]
    by_cases hpass : b.ndebug = true ∨ x.waits.queue () = []
    · simp only [Code.run, h.load, Build.assert, hpass, if_true]
      use ⟨⟨false, toInt (x.obj.value + 1)⟩, x.waits⟩, rfl
      apply h.write
    · simp only [Build.assert, hpass, if_false]
      rfl
  · have hhead := h.load_head
    simp only [hpos, if_false, Code.run]
    rw [hhead]
    cases hq : x.waits.queue () with
    | nil =>
        simp only [Code.run, List.head?_nil, Option.isNone_none, if_true]
        use ⟨⟨false, 1⟩, x.waits⟩, rfl
        apply h.write
    | cons wakeup rest =>
        have hlinked : x.waits.prevp wakeup ≠ none := by
          rw [(h.queue.queued wakeup ()).mpr (by simp [hq])]
          simp
        obtain ⟨m', hrun, hqueue, hfields⟩ := h.queue.run_dequeueCode b hlinked
        simp only [h.load_head, hq, hlinked, hrun, Code.run, Code.run_bind, List.head?_cons,
          Option.isNone_some, Bool.false_eq_true, if_false, Option.bind_some]
        use ⟨⟨false, x.obj.value⟩, x.waits.dequeue wakeup⟩, rfl
        apply h.change (by rw [hfields]) hqueue
        funext u
        simp

omit [DecidableEq T] in
/-- The ports are not in the memory that the lock protects. -/
theorem InMemory.post (h : InMemory lock m port x) (port' : T → Nat) :
  InMemory lock m port' ⟨x.obj, { x.waits with port := port' }⟩
  := by
  constructor
  · apply h.lock
  · apply h.value
  · constructor
    · apply h.queue.chain
    · apply h.queue.nodup
    · apply h.queue.queued
    · apply h.queue.prevp
  · rfl

/-- The steps on the ports are those of the system. -/
theorem agrees_outside (h : InMemory lock m port x) {l : Loc T} {c : Bool}
    (hcode : code b self l = none) :
  (outside b self l c port).Within (InMemory lock m) (step b () self l c x)
  := by
  obtain rfl := h.port
  rcases l with (timeout | (timed | err | _)) | _ | (_ | thread)
  · cases hcode
  · simp only [outside, step, timedwaitStep, waitStep]
    cases c with
    | false =>
        by_cases hempty : x.waits.port self = 0
        · simp [hempty, Outcome.Within]
        · simp only [hempty, if_false, Bool.false_eq_true]
          use ⟨x.obj, x.waits.receive self⟩, rfl
          apply h.post
    | true =>
        cases timed with
        | false => trivial
        | true => use x, rfl
  · cases hcode
  · simp only [outside, step, timedwaitStep, waitStep]
    by_cases hempty : x.waits.port self = 0
    · simp [hempty, Outcome.Within]
    · simp only [hempty, if_false]
      use ⟨x.obj, x.waits.receive self⟩, rfl
      apply h.post
  · cases hcode
  · cases hcode
  · simp only [outside, step, postStep, Build.wakeup]
    by_cases hempty : x.waits.port thread = 0
    · rw [if_pos hempty, if_pos hempty]
      use ⟨x.obj, x.waits.send thread⟩, rfl
      apply h.post
    · simp only [hempty, if_false, Build.assert]
      by_cases hb : b.ndebug = true ∨ False
      · simp only [hb, if_true]
        use x, rfl
      · simp only [hb, if_false]
        rfl

end Functions

/-! ### The system in memory -/

section System

variable {T : Type} [DecidableEq T] [Fintype T] {b : Build} {v : Nat}

/-- The semaphore functions on memory implement the system. -/
theorem implements (b : Build) :
  (program (T := T) b).Implements (machine b)
    (fun s => Sound (fun _ => False) (roles (fun _ => Loc.role ()) s) s.shared.waits) InMemory
  := by
  constructor
  · intro l
    rfl
  · intro s t l code m port c hsound hl hcode hmem
    rcases l with (timeout | (timed | err | _)) | _ | (_ | thread)
    · obtain rfl := Option.some.inj hcode
      apply agrees_waitStart hmem
      apply (hsound.outside t _).1
      simp [roles, hl, Loc.role, WaitLoc.phase]
    · cases hcode
    · obtain rfl := Option.some.inj hcode
      apply agrees_recheck hmem
    · cases hcode
    · obtain rfl := Option.some.inj hcode
      apply agrees_trywait (b := b) (t := t) (c := c) hmem
    · obtain rfl := Option.some.inj hcode
      apply agrees_post (t := t) (c := c) hmem
    · cases hcode
  · intro s t l c lock m port _ hl hcode hmem
    apply agrees_outside hmem hcode

/-- The memory and the ports after `__sem_init`, with the links `next` undefined. -/
def start (value : Int) (next : T → Option T) :
    Concurrency.Shared (Contents T) (T → Nat) where
  lock := 0
  mem
    | .head _ => none
    | .next t => next t
    | .prevp _ => none
    | .field .value => value
  rest _ := 0

omit [DecidableEq T] [Fintype T] in
theorem fields_start (value : Int) (next : T → Option T) :
  Queue.fields (start value next).mem .value = value
  := rfl

omit [DecidableEq T] [Fintype T] in
theorem inMemory_start (next : T → Option T) :
  InMemory false (start (init v).value next).mem (start (init v).value next).rest
    ⟨init v, Waits.empty⟩
  := by
  constructor
  · rfl
  · rw [fields_start]
  · constructor
    · intro q
      rfl
    · simp [Waits.empty]
    · simp [Waits.empty]
    · intro t
      simp [Waits.empty, Queue.queues, start]
  · rfl

/-- The sections of the semaphore functions are atomic: whatever the order in which the threads
read and write single cells of memory, and however long they spin, they follow a run of the system
with the same calls and returns. While no thread is inside a section, the lock, `__value` and the
queue in memory are those of the system. An access through a null pointer or an assertion fails
only where a step of the system fails. -/
theorem accesses_follow_sections {count : Int} {next : T → Option T}
    {f : Program.Exec T (Contents T) (T → Nat) (Loc T) Ret}
    (hf : ((program b).accesses count).Reach (fun _ _ => True) (State.idle (start (init v).value next)) f) :
  (∀ t u l l' code code', f.loc t = some (.inside l code) → f.loc u = some (.inside l' code') →
      t = u) ∧
    ∃ s, (machine b).Reach (fun _ _ => True) (State.idle ⟨init v, Waits.empty⟩) s ∧
      s.log = Program.committed f.log ∧ (∀ t, s.loc t = (f.loc t).map Point.loc) ∧
      ((∀ t l code, f.loc t ≠ some (.inside l code)) →
        InMemory (decide (f.shared.lock ≠ 0)) f.shared.mem f.shared.rest s.shared) ∧
      ∀ t c point, f.loc t = some point →
        ((program b).accesses count).step t point c f.shared = .fault →
          (machine b).step t point.loc c s.shared = .fault
  := by
  have hexcl := Program.exclusive_of_reach hf
  constructor
  · intro t u l l' code code' ht hu
    apply hexcl.one t u _ _ ht hu rfl rfl
  · obtain ⟨s, lock, m, hs, htracks⟩ := (implements b).tracks
      (G := fun _ _ => True) (fun s hs => sound_of_reach hs) (fun _ _ _ _ _ _ _ _ _ => trivial)
      (x := start (init v).value next) (inMemory_start next) hf
    use s, hs, htracks.log, htracks.loc
    constructor
    · intro hnone
      obtain ⟨rfl, rfl⟩ := htracks.idle hnone
      apply htracks.rel
    · intro t c point hpoint hfault
      apply (htracks.fault (implements b) (sound_of_reach hs) hpoint hfault).2

/-- Thread `1` spins in its post while thread `0` puts itself on the queue, and then wakes it up. -/
theorem accesses_follow_sections_spinning :
  ∃ f : Program.Exec (Fin 2) (Contents (Fin 2)) (Fin 2 → Nat) (Loc (Fin 2)) Ret,
    f.loc 0 = none ∧ f.loc 1 = none ∧
      ∃ s, (machine Build.debug).Reach (fun _ _ => True) (State.idle ⟨init 0, Waits.empty⟩) s ∧
        s.log = Program.committed f.log
  := by
  obtain ⟨f, hf, hp⟩ := Machine.exists_reach_of_run
    (M := (program Build.debug).accesses 1) (G := fun _ _ => True)
    (s := State.idle (start (init 0).value fun _ : Fin 2 => none))
    ([.call 0 (.before (.wait (.start none))), .call 1 (.before (.post .start)), .act 0 false,
      .act 1 false] ++ List.replicate 8 (.act 0 false) ++ List.replicate 12 (.act 1 false)
      ++ List.replicate 4 (.act 0 false))
    (fun f => (f.loc 0).isNone && (f.loc 1).isNone) (by decide +kernel)
  simp only [Bool.and_eq_true, Option.isNone_iff_eq_none] at hp
  obtain ⟨-, s, hs, hlog, -⟩ := accesses_follow_sections hf
  exact ⟨f, hp.1, hp.2, s, hs, hlog⟩

end System

end Semaphore

end LibPthread
