import LibPthread.Barrier.Functions
import LibPthread.Concurrency.View
import LibPthread.Mutex.System
import LibPthread.Rwlock.Functions
import LibPthread.Semaphore.Functions

/-!
# Naturality of the functions

A function on an object sees no more of the waiting threads than the queues of the object and the
ports of the threads on them. So it does the same whichever other queues there are: its steps match
when the queues are renamed along an injection `f`.
-/

open Concurrency

namespace LibPthread

variable {T Q Q' : Type} [DecidableEq T] [DecidableEq Q] [DecidableEq Q'] {f : Q' → Q}
    {inside : T → Prop} {w : Waits T Q} {w' : Waits T Q'} {b : Build} {self : T}

/-! ### The primitives -/

section Primitives

variable {σ σ' Loc Ret : Type} {R : σ → σ' → Prop}

omit [DecidableEq T] in
theorem Build.assert_all {p : Prop} [Decidable p] {k : Outcome σ Loc Ret} {P : σ → Prop}
    (h : k.All P) :
  (b.assert p k).All P
  := by
  rw [assert]
  split
  · apply h
  · trivial

omit [DecidableEq Q] in
theorem Build.wakeup_all {u : T} {k : Waits T Q → Outcome σ Loc Ret} {P : σ → Prop}
    (h : ∀ w, (k w).All P) :
  (b.wakeup u w k).All P
  := by
  rw [wakeup]
  split
  · apply h
  · apply assert_all (h w)

theorem Build.assert_matches {p p' : Prop} [Decidable p] [Decidable p'] {k : Outcome σ Loc Ret}
    {k' : Outcome σ' Loc Ret} (hp : p' ↔ p) (h : k.Matches R k') :
  (b.assert p k).Matches R (b.assert p' k')
  := by
  rw [assert, assert]
  apply Outcome.Matches.ite (or_congr Iff.rfl hp) h
  rfl

omit [DecidableEq Q] [DecidableEq Q'] in
theorem Build.wakeup_matches {u : T} {k : Waits T Q → Outcome σ Loc Ret}
    {k' : Waits T Q' → Outcome σ' Loc Ret} (hw : w.Shows f inside w') (hu : inside u)
    (h : ∀ w w', Waits.Shows f inside w w' → (k w).Matches R (k' w')) :
  (b.wakeup u w k).Matches R (b.wakeup u w' k')
  := by
  rw [wakeup, wakeup]
  apply Outcome.Matches.ite
  · rw [hw.port u hu]
  · apply h _ _ (hw.send hu)
  · apply Build.assert_matches Iff.rfl (h _ _ hw)

/-- A wait looks at the link and the port of the caller only. -/
theorem waitStep_matches (hf : Function.Injective f) (hw : w.Shows f inside w')
    (hin : inside self) (hown : w'.prevp self = none ↔ w.prevp self = none) (lock : Bool)
    (st : Stage) (c : Bool) :
  (waitStep self lock st c w).Matches (Waits.Shows f inside) (waitStep self lock st c w')
  := by
  have hport : w'.port self = 0 ↔ w.port self = 0 := by
    rw [hw.port self hin]
  cases st with
  | block timed =>
      apply Outcome.Matches.ite Iff.rfl
      · apply Outcome.Matches.ite Iff.rfl
        · apply Outcome.Matches.goto hw
        · rfl
      · apply Outcome.Matches.ite hport
        · rfl
        · apply Outcome.Matches.goto (hw.receive hin)
  | recheck err =>
      apply Outcome.Matches.ite Iff.rfl
      · rfl
      · apply Outcome.Matches.ite hown
        · apply Outcome.Matches.ite Iff.rfl
          · apply Outcome.Matches.goto hw
          · apply Outcome.Matches.ret hw
        · apply Outcome.Matches.ret (hw.dequeue hf self)
  | drain =>
      apply Outcome.Matches.ite hport
      · rfl
      · apply Outcome.Matches.ret (hw.receive hin)

end Primitives

/-! ### Mutexes -/

namespace Mutex

variable {q : Q'} {mx : Mutex T} {x : World (Mutex T) T Q} {x' : World (Mutex T) T Q'}

omit [DecidableEq Q] [DecidableEq Q'] [DecidableEq T] in
theorem grab_matches {Loc : Type} (hw : w.Shows f inside w') :
  (grab b self mx w : Outcome (World (Mutex T) T Q) Loc Ret).Matches (World.Shows f inside)
    (grab b self mx w')
  := by
  obtain ⟨held, lock, attr, owner, locks⟩ := mx
  rcases attr with _ | _ | _ | _
  all_goals
    apply Outcome.Matches.ite Iff.rfl
    · apply Build.assert_matches Iff.rfl
      apply Outcome.Matches.ret ⟨rfl, hw⟩
    · apply Outcome.Matches.ret ⟨rfl, hw⟩

theorem lockBusy_matches (hf : Function.Injective f) (hw : w.Shows f inside w')
    (hown : w'.prevp self = none ↔ w.prevp self = none) (abstime : Option Timespec) :
  (lockBusy b (f q) self abstime mx w).Matches (World.Shows f inside)
    (lockBusy b q self abstime mx w')
  := by
  apply Outcome.Matches.ite Iff.rfl
  · apply Build.assert_matches Iff.rfl
    apply Outcome.Matches.ite Iff.rfl
    · apply Outcome.Matches.ret ⟨rfl, hw⟩
    · apply Build.assert_matches hown
      apply Outcome.Matches.goto ⟨rfl, hw.enqueue hf q self⟩
  · apply Outcome.Matches.ite Iff.rfl
    · apply Outcome.Matches.ret ⟨rfl, hw⟩
    · apply Build.assert_matches hown
      apply Outcome.Matches.goto ⟨rfl, hw.enqueue hf q self⟩

theorem lockStart_matches (hf : Function.Injective f) (hw : w.Shows f inside w')
    (hown : w'.prevp self = none ↔ w.prevp self = none) (abstime : Option Timespec) :
  (lockStart b (f q) self abstime mx w).Matches (World.Shows f inside)
    (lockStart b q self abstime mx w')
  := by
  have hbusy : ∀ mx : Mutex T, (lockBusy b (f q) self abstime mx w).Matches (World.Shows f inside)
      (lockBusy b q self abstime mx w') := by
    intro mx
    apply lockBusy_matches hf hw hown
  obtain ⟨held, lock, attr, owner, locks⟩ := mx
  apply Outcome.Matches.ite Iff.rfl
  · rfl
  · apply Outcome.Matches.ite Iff.rfl
    · rcases attr with _ | _ | _ | _
      · apply Outcome.Matches.ite Iff.rfl
        · apply Build.assert_matches Iff.rfl (hbusy _)
        · apply hbusy
      · apply Outcome.Matches.ite Iff.rfl
        · apply Build.assert_matches Iff.rfl (hbusy _)
        · apply hbusy
      · apply Outcome.Matches.ite Iff.rfl
        · apply Outcome.Matches.ret ⟨rfl, hw⟩
        · apply hbusy
      · apply Outcome.Matches.ite Iff.rfl
        · apply Outcome.Matches.ret ⟨rfl, hw⟩
        · apply hbusy
    · apply grab_matches hw

omit [DecidableEq Q] [DecidableEq Q'] in
theorem lockFinish_matches (hw : w.Shows f inside w') (err : Bool) :
  (lockFinish b self err mx w).Matches (World.Shows f inside) (lockFinish b self err mx w')
  := by
  obtain ⟨held, lock, attr, owner, locks⟩ := mx
  have hswitch : ∀ mx' : Mutex T, (Outcome.ret ⟨mx', w⟩ .zero
      : Outcome (World (Mutex T) T Q) LockLoc Ret).Matches (World.Shows f inside)
        (.ret ⟨mx', w'⟩ .zero) := by
    intro mx'
    apply Outcome.Matches.ret ⟨rfl, hw⟩
  apply Outcome.Matches.ite Iff.rfl
  · apply Outcome.Matches.ret ⟨rfl, hw⟩
  · rcases attr with _ | _ | _ | _
    · apply Outcome.Matches.ite Iff.rfl
      · apply Build.assert_matches Iff.rfl (hswitch _)
      · apply hswitch
    · apply Outcome.Matches.ite Iff.rfl
      · apply Build.assert_matches Iff.rfl (hswitch _)
      · apply hswitch
    · apply Outcome.Matches.ite Iff.rfl
      · apply Build.assert_matches Iff.rfl (hswitch _)
      · apply hswitch
    · apply Outcome.Matches.ite Iff.rfl
      · apply Build.assert_matches Iff.rfl (Build.assert_matches Iff.rfl (hswitch _))
      · apply Build.assert_matches Iff.rfl (hswitch _)

theorem lockStep_matches (hf : Function.Injective f) (hx : x.Shows f inside x')
    (hown : x'.waits.prevp self = none ↔ x.waits.prevp self = none) {l : LockLoc}
    (hin : ∀ q', (l.phase q).queue = some q' → inside self) (c : Bool) :
  (lockStep b (f q) self l c x).Matches (World.Shows f inside) (lockStep b q self l c x')
  := by
  obtain ⟨mx, w⟩ := x
  obtain ⟨mx', w'⟩ := x'
  obtain ⟨rfl, hw⟩ := hx
  cases l with
  | start abstime => apply lockStart_matches hf hw hown
  | wait st =>
      have hself := hin q (Stage.queue_phase st q)
      rw [lockStep, lockStep]
      apply Outcome.Matches.lift (waitStep_matches hf hw hself hown mx'.lock st c)
      · intro w w' hw
        constructor
        · rfl
        · apply hw
      · intro w w' err hw
        apply Outcome.Matches.goto ⟨rfl, hw⟩
  | finish err => apply lockFinish_matches hw

omit [DecidableEq Q] [DecidableEq Q'] in
theorem trylock_matches {Loc : Type} (hx : x.Shows f inside x') :
  (trylock b self x : Outcome (World (Mutex T) T Q) Loc Ret).Matches (World.Shows f inside)
    (trylock b self x')
  := by
  obtain ⟨mx, w⟩ := x
  obtain ⟨⟨held, lock, attr, owner, locks⟩, w'⟩ := x'
  obtain ⟨rfl, hw⟩ := hx
  have hrefuse : ∀ (mx' : Mutex T) (r : Ret), (Outcome.ret ⟨mx', w⟩ r
      : Outcome (World (Mutex T) T Q) Loc Ret).Matches (World.Shows f inside)
        (.ret ⟨mx', w'⟩ r) := by
    intro mx' r
    apply Outcome.Matches.ret ⟨rfl, hw⟩
  apply Outcome.Matches.ite Iff.rfl
  · rfl
  · apply Outcome.Matches.ite Iff.rfl
    · rcases attr with _ | _ | _ | _
      · apply hrefuse
      · apply hrefuse
      · apply hrefuse
      · apply Outcome.Matches.ite Iff.rfl
        · apply hrefuse
        · apply hrefuse
    · apply grab_matches hw

theorem handOver_matches (hf : Function.Injective f) (hw : w.Shows f inside w')
    (hlinked : ∀ u ∈ w.queue (f q), w.prevp u = some (f q)) :
  (handOver b (f q) mx w).Matches (World.Shows f inside) (handOver b q mx w')
  := by
  rw [handOver, handOver, hw.queue]
  cases hq : w.queue (f q) with
  | nil => apply Outcome.Matches.ret ⟨rfl, hw⟩
  | cons u rest =>
      have hu := hlinked u (by simp [hq])
      apply Outcome.Matches.ite
      · simp [hu, (hw.linked u q).mpr hu]
      · rfl
      · apply Outcome.Matches.goto ⟨rfl, hw.dequeue hf u⟩

theorem unlockStart_matches (hf : Function.Injective f) (hw : w.Shows f inside w')
    (hlinked : ∀ u ∈ w.queue (f q), w.prevp u = some (f q)) :
  (unlockStart b (f q) self mx w).Matches (World.Shows f inside) (unlockStart b q self mx w')
  := by
  have hover : ∀ mx : Mutex T, (handOver b (f q) mx w).Matches (World.Shows f inside)
      (handOver b q mx w') := by
    intro mx
    apply handOver_matches hf hw hlinked
  obtain ⟨held, lock, attr, owner, locks⟩ := mx
  dsimp only [unlockStart]
  generalize decLocks locks = n
  apply Outcome.Matches.ite Iff.rfl
  · rfl
  · rcases attr with _ | _ | _ | _
    · apply Outcome.Matches.ite Iff.rfl
      · apply Build.assert_matches Iff.rfl (Build.assert_matches Iff.rfl (hover _))
      · apply hover
    · apply Outcome.Matches.ite Iff.rfl
      · apply Build.assert_matches Iff.rfl (Build.assert_matches Iff.rfl (hover _))
      · apply hover
    · apply Outcome.Matches.ite Iff.rfl
      · apply hover
      · apply Outcome.Matches.ret ⟨rfl, hw⟩
    · apply Outcome.Matches.ite Iff.rfl
      · apply Outcome.Matches.ite Iff.rfl
        · apply Outcome.Matches.ret ⟨rfl, hw⟩
        · apply hover
      · apply Outcome.Matches.ret ⟨rfl, hw⟩

theorem unlockStep_matches (hf : Function.Injective f) (hx : x.Shows f inside x')
    (hlinked : ∀ u ∈ x.waits.queue (f q), x.waits.prevp u = some (f q)) {l : UnlockLoc T}
    (howes : ∀ u ∈ l.owes, inside u) :
  (unlockStep b (f q) self l x).Matches (World.Shows f inside) (unlockStep b q self l x')
  := by
  obtain ⟨mx, w⟩ := x
  obtain ⟨mx', w'⟩ := x'
  obtain ⟨rfl, hw⟩ := hx
  cases l with
  | start => apply unlockStart_matches hf hw hlinked
  | wakeup u =>
      have hu := howes u (by simp [UnlockLoc.owes])
      rw [unlockStep, unlockStep]
      apply Build.wakeup_matches hw hu
      intro w w' hw
      apply Outcome.Matches.ret ⟨rfl, hw⟩

/-- The steps of a thread using a mutex match, if what they have to do with the thread and with the
threads it wakes up is seen. -/
theorem step_matches (hf : Function.Injective f) (hx : x.Shows f inside x')
    (hlinked : ∀ u ∈ x.waits.queue (f q), x.waits.prevp u = some (f q))
    (hown : x'.waits.prevp self = none ↔ x.waits.prevp self = none) {l : Loc T}
    (hin : ∀ q', (l.role q).phase.queue = some q' → inside self)
    (howes : ∀ u ∈ (l.role q).owes, inside u) (c : Bool) :
  (step b (f q) self l c x).Matches (World.Shows f inside) (step b q self l c x')
  := by
  cases l with
  | lock l =>
      apply Outcome.Matches.lift (lockStep_matches hf hx hown hin c) (fun _ _ h => h)
      intro y y' r hy
      apply Outcome.Matches.ret hy
  | trylock => apply trylock_matches hx
  | unlock l =>
      apply Outcome.Matches.lift (unlockStep_matches hf hx hlinked howes) (fun _ _ h => h)
      intro y y' r hy
      apply Outcome.Matches.ret hy

omit [DecidableEq T] [DecidableEq Q] [DecidableEq Q'] in
theorem Loc.queue_role (f : Q' → Q) (q : Q') (l : Loc T) :
  (l.role (f q)).phase.queue = (l.role q).phase.queue.map f
  := by
  rcases l with (_ | (_ | _ | _) | _) | _ | _ <;> rfl

omit [DecidableEq Q] [DecidableEq Q'] in
theorem Loc.pending_role (q : Q) (q' : Q') (l : Loc T) (u : T) :
  (l.role q).pending u = (l.role q').pending u
  := by
  cases l <;> rfl

end Mutex

/-! ### Rwlocks -/

namespace Rwlock

variable {queue : Mode → Q'} {rw : Rwlock} {x : World Rwlock T Q} {x' : World Rwlock T Q'}

omit [DecidableEq T] [DecidableEq Q] [DecidableEq Q'] in
theorem grab_matches {Loc : Type} (hw : w.Shows f inside w') (readers : Int) :
  (grab b (fun mode => f (queue mode)) readers rw w
      : Outcome (World Rwlock T Q) Loc Ret).Matches (World.Shows f inside)
    (grab b queue readers rw w')
  := by
  apply Build.assert_matches (by rw [hw.queue])
  apply Build.assert_matches (by rw [hw.queue])
  apply Build.assert_matches Iff.rfl
  apply Outcome.Matches.ret ⟨rfl, hw⟩

omit [DecidableEq T] [DecidableEq Q] [DecidableEq Q'] in
theorem join_matches {Loc : Type} (hw : w.Shows f inside w') :
  (join b (fun mode => f (queue mode)) rw w
      : Outcome (World Rwlock T Q) Loc Ret).Matches (World.Shows f inside) (join b queue rw w')
  := by
  apply Build.assert_matches (by rw [hw.queue])
  apply Outcome.Matches.ret ⟨rfl, hw⟩

theorem lockBusy_matches (hf : Function.Injective f) (hw : w.Shows f inside w')
    (hown : w'.prevp self = none ↔ w.prevp self = none) (q : Q') (abstime : Option Timespec) :
  (lockBusy b (f q) self abstime rw w).Matches (World.Shows f inside)
    (lockBusy b q self abstime rw w')
  := by
  apply Outcome.Matches.ite Iff.rfl
  · apply Outcome.Matches.ret ⟨rfl, hw⟩
  · apply Build.assert_matches hown
    apply Outcome.Matches.goto ⟨rfl, hw.enqueue hf q self⟩

theorem lockStart_matches (hf : Function.Injective f) (hw : w.Shows f inside w')
    (hown : w'.prevp self = none ↔ w.prevp self = none) (mode : Mode)
    (abstime : Option Timespec) :
  (lockStart b (fun mode => f (queue mode)) mode self abstime rw w).Matches (World.Shows f inside)
    (lockStart b queue mode self abstime rw w')
  := by
  cases mode with
  | rd =>
      apply Outcome.Matches.ite Iff.rfl
      · rfl
      · apply Outcome.Matches.ite Iff.rfl
        · apply grab_matches hw
        · apply Outcome.Matches.ite Iff.rfl
          · apply join_matches hw
          · apply Build.assert_matches Iff.rfl (lockBusy_matches hf hw hown _ abstime)
  | wr =>
      apply Outcome.Matches.ite Iff.rfl
      · rfl
      · apply Outcome.Matches.ite Iff.rfl
        · apply grab_matches hw
        · apply lockBusy_matches hf hw hown

omit [DecidableEq T] [DecidableEq Q] [DecidableEq Q'] in
theorem lockFinish_matches (hw : w.Shows f inside w') (mode : Mode) (err : Bool) :
  (lockFinish b mode err rw w).Matches (World.Shows f inside) (lockFinish b mode err rw w')
  := by
  apply Outcome.Matches.ite Iff.rfl
  · apply Outcome.Matches.ret ⟨rfl, hw⟩
  · cases mode with
    | rd =>
        apply Build.assert_matches Iff.rfl
        apply Outcome.Matches.ret ⟨rfl, hw⟩
    | wr =>
        apply Build.assert_matches Iff.rfl
        apply Outcome.Matches.ret ⟨rfl, hw⟩

theorem lockStep_matches (hf : Function.Injective f) (hx : x.Shows f inside x')
    (hown : x'.waits.prevp self = none ↔ x.waits.prevp self = none) {mode : Mode} {l : LockLoc}
    (hin : ∀ q', (l.phase (queue mode)).queue = some q' → inside self) (c : Bool) :
  (lockStep b (fun mode => f (queue mode)) mode self l c x).Matches (World.Shows f inside)
    (lockStep b queue mode self l c x')
  := by
  obtain ⟨rw, w⟩ := x
  obtain ⟨rw', w'⟩ := x'
  obtain ⟨rfl, hw⟩ := hx
  cases l with
  | start abstime => apply lockStart_matches hf hw hown
  | wait st =>
      have hself := hin _ (Stage.queue_phase st (queue mode))
      rw [lockStep, lockStep]
      apply Outcome.Matches.lift (waitStep_matches hf hw hself hown rw'.lock st c)
      · intro w w' hw
        constructor
        · rfl
        · apply hw
      · intro w w' err hw
        apply Outcome.Matches.goto ⟨rfl, hw⟩
  | finish err => apply lockFinish_matches hw

omit [DecidableEq T] [DecidableEq Q] [DecidableEq Q'] in
theorem trylock_matches {Loc : Type} (hx : x.Shows f inside x') (mode : Mode) :
  (trylock b (fun mode => f (queue mode)) mode x
      : Outcome (World Rwlock T Q) Loc Ret).Matches (World.Shows f inside)
    (trylock b queue mode x')
  := by
  obtain ⟨rw, w⟩ := x
  obtain ⟨rw', w'⟩ := x'
  obtain ⟨rfl, hw⟩ := hx
  cases mode with
  | rd =>
      apply Outcome.Matches.ite Iff.rfl
      · rfl
      · apply Outcome.Matches.ite Iff.rfl
        · apply grab_matches hw
        · apply Outcome.Matches.ite Iff.rfl
          · apply join_matches hw
          · apply Outcome.Matches.ret ⟨rfl, hw⟩
  | wr =>
      apply Outcome.Matches.ite Iff.rfl
      · rfl
      · apply Outcome.Matches.ite Iff.rfl
        · apply grab_matches hw
        · apply Outcome.Matches.ret ⟨rfl, hw⟩

theorem handOver_matches (hf : Function.Injective f) (hw : w.Shows f inside w')
    (hlinked : ∀ u ∈ w.queue (f (queue .wr)), w.prevp u = some (f (queue .wr))) :
  (handOver (fun mode => f (queue mode)) rw w).Matches (World.Shows f inside)
    (handOver queue rw w')
  := by
  rw [handOver, handOver, hw.queue]
  cases hwr : w.queue (f (queue .wr)) with
  | nil =>
      rw [hw.queue]
      cases hrd : w.queue (f (queue .rd)) with
      | nil => apply Outcome.Matches.ret ⟨rfl, hw⟩
      | cons u us => apply Outcome.Matches.goto ⟨rfl, hw.dequeueAll hf _⟩
  | cons u rest =>
      have hu := hlinked u (by simp [hwr])
      apply Outcome.Matches.ite
      · simp [hu, (hw.linked u _).mpr hu]
      · rfl
      · apply Outcome.Matches.goto ⟨rfl, hw.dequeue hf u⟩

theorem unlockStep_matches (hf : Function.Injective f) (hx : x.Shows f inside x')
    (hlinked : ∀ u ∈ x.waits.queue (f (queue .wr)), x.waits.prevp u = some (f (queue .wr)))
    {l : UnlockLoc T} (howes : ∀ u ∈ l.owes, inside u) :
  (unlockStep b (fun mode => f (queue mode)) l x).Matches (World.Shows f inside)
    (unlockStep b queue l x')
  := by
  obtain ⟨rw, w⟩ := x
  obtain ⟨rw', w'⟩ := x'
  obtain ⟨rfl, hw⟩ := hx
  cases l with
  | start =>
      apply Outcome.Matches.ite Iff.rfl
      · rfl
      · apply Build.assert_matches Iff.rfl
        apply Outcome.Matches.ite Iff.rfl
        · apply Outcome.Matches.ret ⟨rfl, hw⟩
        · apply handOver_matches hf hw hlinked
  | wakeup u =>
      have hu := howes u (by simp [UnlockLoc.owes])
      rw [unlockStep, unlockStep]
      apply Build.wakeup_matches hw hu
      intro w w' hw
      apply Outcome.Matches.ret ⟨rfl, hw⟩
  | wakeAll us =>
      cases us with
      | nil => apply Outcome.Matches.ret ⟨rfl, hw⟩
      | cons u us =>
          have hu := howes u (by simp [UnlockLoc.owes])
          rw [unlockStep, unlockStep]
          apply Build.wakeup_matches hw hu
          intro w w' hw
          apply Outcome.Matches.goto ⟨rfl, hw⟩

theorem step_matches (hf : Function.Injective f) (hx : x.Shows f inside x')
    (hlinked : ∀ u ∈ x.waits.queue (f (queue .wr)), x.waits.prevp u = some (f (queue .wr)))
    (hown : x'.waits.prevp self = none ↔ x.waits.prevp self = none) {l : Loc T}
    (hin : ∀ q', (l.role queue).phase.queue = some q' → inside self)
    (howes : ∀ u ∈ (l.role queue).owes, inside u) (c : Bool) :
  (step b (fun mode => f (queue mode)) self l c x).Matches (World.Shows f inside)
    (step b queue self l c x')
  := by
  cases l with
  | lock mode l =>
      apply Outcome.Matches.lift (lockStep_matches hf hx hown hin c) (fun _ _ h => h)
      intro y y' r hy
      apply Outcome.Matches.ret hy
  | trylock mode => apply trylock_matches hx
  | unlock l =>
      apply Outcome.Matches.lift (unlockStep_matches hf hx hlinked howes) (fun _ _ h => h)
      intro y y' r hy
      apply Outcome.Matches.ret hy

omit [DecidableEq T] [DecidableEq Q] [DecidableEq Q'] in
theorem Loc.queue_role (f : Q' → Q) (queue : Mode → Q') (l : Loc T) :
  (l.role (fun mode => f (queue mode))).phase.queue = (l.role queue).phase.queue.map f
  := by
  rcases l with ⟨_, _ | (_ | _ | _) | _⟩ | _ | _ <;> rfl

omit [DecidableEq Q] [DecidableEq Q'] in
theorem Loc.pending_role (queue : Mode → Q) (queue' : Mode → Q') (l : Loc T) (u : T) :
  (l.role queue).pending u = (l.role queue').pending u
  := by
  cases l <;> rfl

end Rwlock

/-! ### Semaphores -/

namespace Semaphore

variable {q : Q'} {sem : Semaphore} {x : World Semaphore T Q} {x' : World Semaphore T Q'}

theorem timedwaitStep_matches (hf : Function.Injective f) (hx : x.Shows f inside x')
    (hown : x'.waits.prevp self = none ↔ x.waits.prevp self = none) {l : WaitLoc}
    (hin : ∀ q', (l.phase q).queue = some q' → inside self) (c : Bool) :
  (timedwaitStep b (f q) self l c x).Matches (World.Shows f inside)
    (timedwaitStep b q self l c x')
  := by
  obtain ⟨sem, w⟩ := x
  obtain ⟨sem', w'⟩ := x'
  obtain ⟨rfl, hw⟩ := hx
  cases l with
  | start timeout =>
      apply Outcome.Matches.ite Iff.rfl
      · rfl
      · apply Outcome.Matches.ite Iff.rfl
        · apply Outcome.Matches.ret ⟨rfl, hw⟩
        · apply Outcome.Matches.ite Iff.rfl
          · apply Outcome.Matches.ret ⟨rfl, hw⟩
          · apply Build.assert_matches hown
            apply Outcome.Matches.goto ⟨rfl, hw.enqueue hf q self⟩
  | blocked st =>
      have hself := hin q (Stage.queue_phase st q)
      rw [timedwaitStep, timedwaitStep]
      apply Outcome.Matches.lift (waitStep_matches hf hw hself hown sem'.lock st c)
      · intro w w' hw
        constructor
        · rfl
        · apply hw
      · intro w w' err hw
        apply Outcome.Matches.ret ⟨rfl, hw⟩

omit [DecidableEq T] [DecidableEq Q] [DecidableEq Q'] in
theorem trywait_matches {Loc : Type} (hx : x.Shows f inside x') :
  (trywait x : Outcome (World Semaphore T Q) Loc Ret).Matches (World.Shows f inside) (trywait x')
  := by
  obtain ⟨sem, w⟩ := x
  obtain ⟨sem', w'⟩ := x'
  obtain ⟨rfl, hw⟩ := hx
  apply Outcome.Matches.ite Iff.rfl
  · rfl
  · apply Outcome.Matches.ite Iff.rfl
    · apply Outcome.Matches.ret ⟨rfl, hw⟩
    · apply Outcome.Matches.ret ⟨rfl, hw⟩

theorem postStart_matches (hf : Function.Injective f) (hw : w.Shows f inside w')
    (hlinked : ∀ u ∈ w.queue (f q), w.prevp u = some (f q)) :
  (postStart b (f q) sem w).Matches (World.Shows f inside) (postStart b q sem w')
  := by
  apply Outcome.Matches.ite Iff.rfl
  · rfl
  · apply Outcome.Matches.ite Iff.rfl
    · apply Build.assert_matches (by rw [hw.queue])
      apply Outcome.Matches.ret ⟨rfl, hw⟩
    · rw [hw.queue]
      cases hq : w.queue (f q) with
      | nil => apply Outcome.Matches.ret ⟨rfl, hw⟩
      | cons u rest =>
          have hu := hlinked u (by simp [hq])
          apply Outcome.Matches.ite
          · simp [hu, (hw.linked u q).mpr hu]
          · rfl
          · apply Outcome.Matches.goto ⟨rfl, hw.dequeue hf u⟩

theorem postStep_matches (hf : Function.Injective f) (hx : x.Shows f inside x')
    (hlinked : ∀ u ∈ x.waits.queue (f q), x.waits.prevp u = some (f q)) {l : PostLoc T}
    (howes : ∀ u ∈ l.owes, inside u) :
  (postStep b (f q) l x).Matches (World.Shows f inside) (postStep b q l x')
  := by
  obtain ⟨sem, w⟩ := x
  obtain ⟨sem', w'⟩ := x'
  obtain ⟨rfl, hw⟩ := hx
  cases l with
  | start => apply postStart_matches hf hw hlinked
  | wakeup u =>
      have hu := howes u (by simp [PostLoc.owes])
      rw [postStep, postStep]
      apply Build.wakeup_matches hw hu
      intro w w' hw
      apply Outcome.Matches.ret ⟨rfl, hw⟩

theorem step_matches (hf : Function.Injective f) (hx : x.Shows f inside x')
    (hlinked : ∀ u ∈ x.waits.queue (f q), x.waits.prevp u = some (f q))
    (hown : x'.waits.prevp self = none ↔ x.waits.prevp self = none) {l : Loc T}
    (hin : ∀ q', (l.role q).phase.queue = some q' → inside self)
    (howes : ∀ u ∈ (l.role q).owes, inside u) (c : Bool) :
  (step b (f q) self l c x).Matches (World.Shows f inside) (step b q self l c x')
  := by
  cases l with
  | wait l =>
      apply Outcome.Matches.lift (timedwaitStep_matches hf hx hown hin c) (fun _ _ h => h)
      intro y y' r hy
      apply Outcome.Matches.ret hy
  | trywait => apply trywait_matches hx
  | post l =>
      apply Outcome.Matches.lift (postStep_matches hf hx hlinked howes) (fun _ _ h => h)
      intro y y' r hy
      apply Outcome.Matches.ret hy

omit [DecidableEq T] [DecidableEq Q] [DecidableEq Q'] in
theorem Loc.queue_role (f : Q' → Q) (q : Q') (l : Loc T) :
  (l.role (f q)).phase.queue = (l.role q).phase.queue.map f
  := by
  rcases l with (_ | (_ | _ | _)) | _ | _ <;> rfl

omit [DecidableEq Q] [DecidableEq Q'] in
theorem Loc.pending_role (q : Q) (q' : Q') (l : Loc T) (u : T) :
  (l.role q).pending u = (l.role q').pending u
  := by
  cases l <;> rfl

end Semaphore

/-! ### Barriers -/

namespace Barrier

variable {q : Q'} {x : World Barrier T Q} {x' : World Barrier T Q'}

theorem waitStep_matches (hf : Function.Injective f) (hx : x.Shows f inside x')
    (hown : x'.waits.prevp self = none ↔ x.waits.prevp self = none) {l : Loc T}
    (hin : ∀ q', (l.role q).phase.queue = some q' → inside self)
    (howes : ∀ u ∈ (l.role q).owes, inside u) :
  (waitStep b (f q) self l x).Matches (World.Shows f inside) (waitStep b q self l x')
  := by
  obtain ⟨bar, w⟩ := x
  obtain ⟨bar', w'⟩ := x'
  obtain ⟨rfl, hw⟩ := hx
  cases l with
  | start =>
      rw [waitStep, waitStep, waitStart, waitStart]
      generalize decPending bar'.pending = pending
      apply Outcome.Matches.ite Iff.rfl
      · rfl
      · apply Outcome.Matches.ite Iff.rfl
        · apply Outcome.Matches.ite Iff.rfl
          · rw [hw.queue]
            apply Outcome.Matches.goto ⟨rfl, hw.detach hf q⟩
          · apply Outcome.Matches.ret ⟨rfl, hw⟩
        · apply Build.assert_matches hown
          apply Outcome.Matches.goto ⟨rfl, hw.enqueue hf q self⟩
  | iterate us =>
      cases us with
      | nil => apply Outcome.Matches.ret ⟨rfl, hw⟩
      | cons u us => apply Outcome.Matches.goto ⟨rfl, hw.unlink u⟩
  | wakeup u us =>
      have hu := howes u (by simp [Loc.role])
      rw [waitStep, waitStep]
      apply Build.wakeup_matches hw hu
      intro w w' hw
      apply Outcome.Matches.goto ⟨rfl, hw⟩
  | block =>
      have hself := hin q rfl
      apply Outcome.Matches.ite
      · rw [hw.port self hself]
      · rfl
      · apply Outcome.Matches.ret ⟨rfl, hw.receive hself⟩

omit [DecidableEq T] [DecidableEq Q] [DecidableEq Q'] in
theorem Loc.queue_role (f : Q' → Q) (q : Q') (l : Loc T) :
  (l.role (f q)).phase.queue = (l.role q).phase.queue.map f
  := by
  cases l <;> rfl

omit [DecidableEq Q] [DecidableEq Q'] in
theorem Loc.pending_role (q : Q) (q' : Q') (l : Loc T) (u : T) :
  (l.role q).pending u = (l.role q').pending u
  := by
  cases l <;> rfl

end Barrier

end LibPthread
