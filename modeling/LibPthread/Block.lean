import LibPthread.Types

/-!
# Blocking on a queue

The second half of `__pthread_mutex_timedlock_internal`,
`__pthread_rwlock_timedrdlock_internal`, `__pthread_rwlock_timedwrlock_internal` and
`__sem_timedwait_internal`, which is the same in all of them: the caller, linked on the
queue of the object, blocks in `__pthread_block` or `__pthread_timedblock`, takes the spin
lock of the object to look at its own link, and drains its port if it has timed out but was
dequeued all the same. `waitStep` is one step of it; it returns whether the wait timed out.
-/

open Concurrency

namespace LibPthread

/-- The control points of a wait. -/
inductive Stage where
  /-- At `__pthread_timedblock` or, if there is no time-out, `__pthread_block`. -/
  | block (timed : Bool)
  /-- At the section that tests `self->prevp`, with the value of `err`. -/
  | recheck (err : Bool)
  /-- At the `__pthread_block` of the `drain` branch. -/
  | drain
  deriving DecidableEq

/-- The phase of a thread that waits on `q`. -/
def Stage.phase {Q : Type} (q : Q) : Stage → Phase Q
  | .block timed => .blocking q timed
  | .recheck err => .checking q err
  | .drain => .draining q

/-- The wait can end with a time-out. -/
def Stage.mayExpire : Stage → Bool
  | .block timed => timed
  | .recheck err => err
  | .drain => true

theorem Stage.queue_phase {Q : Type} (st : Stage) (q : Q) :
  (st.phase q).queue = some q
  := by
  cases st <;> rfl

variable {T Q : Type} [DecidableEq T] [DecidableEq Q]

/-- One step of a wait of `self`, where `lock` is the spin lock of the object. The receive
of `__pthread_block` waits for a message; `__pthread_timedblock` may also time out, at any
moment. The returned Boolean tells whether `err` is `ETIMEDOUT`. -/
def waitStep (self : T) (lock : Bool) : Stage → Bool → Waits T Q →
    Outcome (Waits T Q) Stage Bool
  | .block timed, timeout, w =>
    if timeout then
      if timed then .goto w (.recheck true) else .spin
    else if w.port self = 0 then .spin
    else .goto (w.receive self) (.recheck false)
  | .recheck err, _, w =>
    if lock then .spin
    else if w.prevp self = none then
      if err then .goto w .drain else .ret w false
    else .ret (w.dequeue self) err
  | .drain, _, w =>
    if w.port self = 0 then .spin else .ret (w.receive self) true

variable {self : T} {lock : Bool} {st st' : Stage} {c err : Bool} {w w' : Waits T Q}

/-- What a step inside a wait does. -/
theorem waitStep_eq_goto (h : waitStep self lock st c w = .goto w' st') :
  (∃ timed, st = .block timed ∧ 0 < w.port self ∧ w' = w.receive self ∧ st' = .recheck false)
    ∨ (st = .block true ∧ c = true ∧ w' = w ∧ st' = .recheck true)
    ∨ (st = .recheck true ∧ lock = false ∧ w.prevp self = none ∧ w' = w ∧ st' = .drain)
  := by
  cases st with
  | block timed =>
      simp only [waitStep] at h
      grind
  | recheck e =>
      simp only [waitStep] at h
      grind
  | drain =>
      simp only [waitStep] at h
      grind

/-- What the last step of a wait does. -/
theorem waitStep_eq_ret (h : waitStep self lock st c w = .ret w' err) :
  (st = .recheck false ∧ lock = false ∧ w.prevp self = none ∧ w' = w ∧ err = false)
    ∨ (st = .recheck err ∧ lock = false ∧ w.prevp self ≠ none ∧ w' = w.dequeue self)
    ∨ (st = .drain ∧ 0 < w.port self ∧ w' = w.receive self ∧ err = true)
  := by
  cases st with
  | block timed =>
      simp only [waitStep] at h
      grind
  | recheck e =>
      simp only [waitStep] at h
      grind
  | drain =>
      simp only [waitStep] at h
      grind

theorem waitStep_ne_fault :
  waitStep self lock st c w ≠ .fault
  := by
  cases st <;> simp only [waitStep] <;> grind

/-- A wait that cannot go on while the lock of the object is free is at a receive from an empty
port. -/
theorem waitStep_eq_spin (h : waitStep self false st false w = .spin) :
  w.port self = 0 ∧ ((∃ timed, st = .block timed) ∨ st = .drain)
  := by
  cases st with
  | block timed =>
      by_cases hport : w.port self = 0
      · use hport
        left
        use timed
      · simp [waitStep, hport] at h
  | recheck err =>
      simp only [waitStep, Bool.false_eq_true, if_false] at h
      split at h
      · split at h
        · cases h
        · cases h
      · cases h
  | drain =>
      by_cases hport : w.port self = 0
      · use hport
        right
        rfl
      · simp [waitStep, hport] at h

/-- A step inside a wait is an act of the wakeup protocol. -/
theorem waitStep_act {bar : Q → Prop} {q : Q} {o k : List T}
    (h : waitStep self lock st c w = .goto w' st') :
  Act bar (Eq q) self w ⟨st.phase q, o, k⟩ w' ⟨st'.phase q, o, k⟩
  := by
  rcases waitStep_eq_goto h with ⟨timed, rfl, hport, rfl, rfl⟩ | ⟨rfl, -, rfl, rfl⟩ |
    ⟨rfl, -, hgone, rfl, rfl⟩
  · apply Act.receive q timed rfl hport
  · apply Act.timeout q rfl
  · apply Act.late q rfl hgone

/-- The last step of a wait is an act of the wakeup protocol. -/
theorem waitStep_act_ret {bar : Q → Prop} {q : Q} {o k : List T}
    (h : waitStep self lock st c w = .ret w' err) :
  Act bar (Eq q) self w ⟨st.phase q, o, k⟩ w' ⟨.out, o, k⟩
  := by
  rcases waitStep_eq_ret h with ⟨rfl, -, hgone, rfl, -⟩ | ⟨rfl, -, hstill, rfl⟩ |
    ⟨rfl, hport, rfl, -⟩
  · apply Act.woken q rfl hgone
  · apply Act.leave q err rfl hstill rfl
  · apply Act.drain q rfl hport

end LibPthread
