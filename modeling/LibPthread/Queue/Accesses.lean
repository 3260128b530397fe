import LibPthread.Concurrency.Section
import LibPthread.Queue.Representation
import LibPthread.Types

/-!
# The queue functions access by access

`__pthread_enqueue` and `__pthread_dequeue` as code that reads and writes one cell of memory at a
time, where the memory holds the queues next to the fields of an object. Executed without
interruption they do what they do as functions.
-/

open Concurrency

namespace LibPthread.Queue

/-- The cells of memory of an object with queues: the heads of the queues, the queue links of the
thread structures, and the fields of the object. -/
inductive Address (T Q F : Type) where
  | head (q : Q)
  | next (t : T)
  | prevp (t : T)
  | field (x : F)
  deriving DecidableEq

variable {T Q F α : Type} {W : F → Type}

/-- What the cells hold, where the field `x` of the object holds a value in `W x`. -/
abbrev Contents (T Q : Type) (W : F → Type) : Address T Q F → Type
  | .head _ => Option T
  | .next _ => Option T
  | .prevp _ => Option (Cell T Q)
  | .field x => W x

/-- The queues in memory. -/
def queues (m : ∀ c, Contents T Q W c) : Memory T Q where
  head q := m (.head q)
  next t := m (.next t)
  prevp t := m (.prevp t)

/-- The fields of the object. -/
def fields (m : ∀ c, Contents T Q W c) (x : F) : W x :=
  m (.field x)

/-- `*c = v`. -/
def store (c : Cell T Q) (v : Option T) (k : Code (Contents T Q W) α) :
    Code (Contents T Q W) α :=
  match c with
  | .head q => .write (.head q) v k
  | .next t => .write (.next t) v k

/-- `assert (p)` on the link of `thread`, compiled out under `NDEBUG`. -/
def assertPrevp (b : Build) (thread : T) (p : Option (Cell T Q) → Bool)
    (k : Code (Contents T Q W) α) : Code (Contents T Q W) α :=
  if b.ndebug then k
  else .read (.prevp thread) fun (prevp : Option (Cell T Q)) => if p prevp then k else .fault

/-- The accesses of `__pthread_enqueue`. -/
def enqueueCode (b : Build) (head : Q) (thread : T) : Code (Contents T Q W) Unit :=
  assertPrevp b thread (·.isNone) <|
  .read (.head head) fun (first : Option T) =>
  .write (.next thread) first <|
  .write (.prevp thread) (some (.head head)) <|
  .read (.head head) fun (first : Option T) =>
    if first.isNone then store (.head head) (some thread) (.done ())
    else
      .read (.head head) fun (first : Option T) =>
        match first with
        | none => .fault
        | some first =>
          .write (.prevp first) (some (.next thread)) <|
          store (.head head) (some thread) (.done ())

/-- The accesses of `__pthread_dequeue` after its assertions and after the link of the next thread
has been set. -/
def unlinkCode (thread : T) : Code (Contents T Q W) Unit :=
  .read (.prevp thread) fun (prevp : Option (Cell T Q)) =>
  .read (.next thread) fun (next : Option T) =>
    match prevp with
    | none => .fault
    | some prevp => store prevp next (.write (.prevp thread) none (.done ()))

/-- The accesses of `__pthread_dequeue`. -/
def dequeueCode (b : Build) (thread : T) : Code (Contents T Q W) Unit :=
  assertPrevp b thread (·.isSome) <|
  .read (.next thread) fun (next : Option T) =>
    if next.isNone then unlinkCode thread
    else
      .read (.next thread) fun (next : Option T) =>
      .read (.prevp thread) fun (prevp : Option (Cell T Q)) =>
        match next with
        | none => .fault
        | some next => .write (.prevp next) prevp (unlinkCode thread)

variable [DecidableEq T] [DecidableEq Q] [DecidableEq F]

section Updates

variable (m : ∀ c, Contents T Q W c)

omit [DecidableEq T] [DecidableEq Q] [DecidableEq F] in
theorem queues_ext {m' : Memory T Q} (hhead : ∀ q, m (.head q) = m'.head q)
    (hnext : ∀ t, m (.next t) = m'.next t) (hprevp : ∀ t, m (.prevp t) = m'.prevp t) :
  queues m = m'
  := by
  obtain ⟨head, next, prevp⟩ := m'
  obtain rfl : (fun q => m (.head q)) = head := funext hhead
  obtain rfl : (fun t => m (.next t)) = next := funext hnext
  obtain rfl : (fun t => m (.prevp t)) = prevp := funext hprevp
  rfl

@[simp]
theorem queues_head (q : Q) (v : Option T) :
  queues (Function.update m (.head q) v) = (queues m).store (.head q) v
  := by
  apply queues_ext
  · intro q'
    by_cases hq : q' = q
    · subst hq
      simp [Memory.store]
    · simp [Memory.store, queues, hq]
  · intro t
    simp [Memory.store, queues]
  · intro t
    simp [Memory.store, queues]

@[simp]
theorem queues_next (t : T) (v : Option T) :
  queues (Function.update m (.next t) v) = (queues m).store (.next t) v
  := by
  apply queues_ext
  · intro q
    simp [Memory.store, queues]
  · intro u
    by_cases hu : u = t
    · subst hu
      simp [Memory.store]
    · simp [Memory.store, queues, hu]
  · intro u
    simp [Memory.store, queues]

@[simp]
theorem queues_prevp (t : T) (v : Option (Cell T Q)) :
  queues (Function.update m (.prevp t) v) = (queues m).setPrevp t v
  := by
  apply queues_ext
  · intro q
    simp [Memory.setPrevp, queues]
  · intro u
    simp [Memory.setPrevp, queues]
  · intro u
    by_cases hu : u = t
    · subst hu
      simp [Memory.setPrevp]
    · simp [Memory.setPrevp, queues, hu]

@[simp]
theorem queues_field (x : F) (v : W x) :
  queues (T := T) (Q := Q) (Function.update m (.field x) v) = queues m
  := by
  apply queues_ext
  all_goals simp [queues]

@[simp]
theorem fields_head (q : Q) (v : Option T) :
  fields (Function.update m (.head q) v) = fields m
  := by
  funext x
  simp [fields]

@[simp]
theorem fields_next (t : T) (v : Option T) :
  fields (Function.update m (.next t) v) = fields m
  := by
  funext x
  simp [fields]

@[simp]
theorem fields_prevp (t : T) (v : Option (Cell T Q)) :
  fields (Function.update m (.prevp t) v) = fields m
  := by
  funext x
  simp [fields]

@[simp]
theorem fields_field (x : F) (v : W x) :
  fields (T := T) (Q := Q) (Function.update m (.field x) v) = Function.update (fields m) x v
  := by
  funext y
  by_cases hy : y = x
  · subst hy
    simp [fields]
  · simp [fields, hy]

end Updates

variable {m : ∀ c, Contents T Q W c} {thread : T}

/-- `*c = v` as an access. -/
theorem run_store (c : Cell T Q) (v : Option T) (k : Code (Contents T Q W) α) :
  ∃ m', (store c v k).run m = k.run m' ∧ queues m' = (queues m).store c v ∧ fields m' = fields m
  := by
  cases c with
  | head q =>
      use Function.update m (.head q) v, rfl, queues_head m q v
      apply fields_head
  | next t =>
      use Function.update m (.next t) v, rfl, queues_next m t v
      apply fields_next

theorem run_assertPrevp {b : Build} {p : Option (Cell T Q) → Bool}
    (k : Code (Contents T Q W) α) (hp : p ((queues m).prevp thread) = true) :
  (assertPrevp b thread p k).run m = k.run m
  := by
  simp only [assertPrevp]
  split
  · rfl
  · simp only [queues] at hp
    simp [hp]

/-- `__pthread_enqueue` of a thread that is on no queue, executed without interruption. -/
theorem run_enqueueCode (b : Build) (head : Q) (hprevp : (queues m).prevp thread = none) :
  ∃ m', (enqueueCode b head thread).run m = some ((), m') ∧
    enqueue (queues m) head thread = some (queues m') ∧ fields m' = fields m
  := by
  rw [enqueueCode, run_assertPrevp _ (by simp [hprevp]), enqueue, if_neg (by simp [hprevp])]
  cases hfirst : m (.head head) with
  | none =>
      have hhead : (queues m).load (.head head) = none := by simp [Memory.load, queues, hfirst]
      refine ⟨_, (by simp [hfirst, store]; rfl), ?_, ?_⟩
      · simp [hhead]
      · simp
  | some first =>
      have hhead : (queues m).load (.head head) = some first := by
        simp [Memory.load, queues, hfirst]
      refine ⟨_, (by simp [hfirst, store]; rfl), ?_, ?_⟩
      · simp [hhead]
      · simp

/-- The end of `__pthread_dequeue`. -/
theorem run_unlinkCode {c : Cell T Q} (hprevp : (queues m).prevp thread = some c) :
  ∃ m', (unlinkCode thread).run m = some ((), m') ∧
    queues m' = ((queues m).store c ((queues m).next thread)).setPrevp thread none ∧
    fields m' = fields m
  := by
  have hlink : m (.prevp thread) = some c := hprevp
  obtain ⟨m', hrun, hqueues, hfields⟩ := run_store (m := m) c (m (.next thread))
    (.write (.prevp thread) (none : Option (Cell T Q)) (.done ()))
  refine ⟨_, (by simp [unlinkCode, hlink, hrun]; rfl), ?_, ?_⟩
  · rw [queues_prevp, hqueues]
    rfl
  · rw [fields_prevp, hfields]

/-- `__pthread_dequeue` of a thread on a queue, executed without interruption. -/
theorem run_dequeueCode (b : Build) (hprevp : (queues m).prevp thread ≠ none) :
  ∃ m', (dequeueCode b thread).run m = some ((), m') ∧
    dequeue (queues m) thread = some (queues m') ∧ fields m' = fields m
  := by
  rw [dequeueCode, run_assertPrevp _ (by simp [Option.isSome_iff_ne_none, hprevp]), dequeue]
  obtain ⟨c, hlink⟩ := Option.ne_none_iff_exists'.mp hprevp
  cases hnext : m (.next thread) with
  | none =>
      obtain ⟨m', hrun, hqueues, hfields⟩ := run_unlinkCode hlink
      refine ⟨m', by simp [hnext, hrun], ?_, hfields⟩
      have hnone : (queues m).next thread = none := hnext
      simp [hlink, hnone, hqueues]
  | some next =>
      have hnext' : (queues m).next thread = some next := hnext
      have hlink' : m (.prevp thread) = some c := hlink
      have hkept : (queues (Function.update m (.prevp next) (some c))).prevp thread = some c := by
        by_cases hself : thread = next
        · simp [hself]
        · simp [hself, hlink]
      obtain ⟨m', hrun, hqueues, hfields⟩ := run_unlinkCode hkept
      refine ⟨m', by simp [hnext, hlink', hrun], ?_, ?_⟩
      · simp [hlink, hnext', hqueues]
      · rw [hfields, fields_prevp]

variable {w : Waits T Q}

/-- `__pthread_enqueue` puts a thread on the queue that the memory represents. -/
theorem Represents.run_enqueueCode (b : Build) (h : Represents (queues m) w) (head : Q)
    (hprevp : w.prevp thread = none) :
  ∃ m', (enqueueCode b head thread).run m = some ((), m') ∧
    Represents (queues m') (w.enqueue head thread) ∧ fields m' = fields m
  := by
  obtain ⟨m', hrun, henqueue, hfields⟩ :=
    Queue.run_enqueueCode b head ((h.prevp thread).mpr hprevp)
  obtain ⟨m₁, henqueue₁, hwalking, -⟩ :=
    (represents_iff_walking.mp h).enqueue (q := head) trivial hprevp (by simp)
  rw [henqueue, Option.some.injEq] at henqueue₁
  subst henqueue₁
  use m', hrun, represents_iff_walking.mpr hwalking

/-- `__pthread_dequeue` takes a thread off the queue that the memory represents. -/
theorem Represents.run_dequeueCode (b : Build) (h : Represents (queues m) w)
    (hprevp : w.prevp thread ≠ none) :
  ∃ m', (dequeueCode b thread).run m = some ((), m') ∧
    Represents (queues m') (w.dequeue thread) ∧ fields m' = fields m
  := by
  obtain ⟨q, hq⟩ := Option.ne_none_iff_exists'.mp hprevp
  obtain ⟨l₁, l₂, hqueue⟩ := List.append_of_mem ((h.queued thread q).mp hq)
  obtain ⟨m', hrun, hdequeue, hfields⟩ :=
    Queue.run_dequeueCode b ((h.prevp thread).not.mpr hprevp)
  obtain ⟨m₁, hdequeue₁, hrep, -⟩ := h.dequeue hqueue
  rw [hdequeue, Option.some.injEq] at hdequeue₁
  subst hdequeue₁
  use m', hrun, hrep

end LibPthread.Queue
