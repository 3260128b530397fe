import LibPthread.Process.System
import Mathlib.Logic.Basic

/-!
# The wakeup protocol of a process

Without `pthread_cancel`, the steps of all functions conform to the wakeup protocol, so
that its invariant holds in every reachable state, with any objects and any number of
threads.
-/

open Concurrency

namespace LibPthread

namespace Process

variable {T N : Type} [DecidableEq T] [DecidableEq N]

/-- The control points outside `pthread_cancel`. -/
def Loc.NotCancel : Loc T N → Prop
  | .cancel _ _ => False
  | _ => True

instance : DecidablePred (Loc.NotCancel (T := T) (N := N)) := fun l =>
  match l with
  | .mutex _ _ => isTrue trivial
  | .rwlock _ _ => isTrue trivial
  | .sem _ _ => isTrue trivial
  | .barrier _ _ => isTrue trivial
  | .condWait _ _ _ => isTrue trivial
  | .condSignal _ _ => isTrue trivial
  | .condBroadcast _ _ => isTrue trivial
  | .cancel _ _ => isFalse id
  | .set _ _ => isTrue trivial

/-- No thread calls `pthread_cancel`. -/
def NoCancel (_ : Sys T N) : Label T (Loc T N) → Prop
  | .call _ l => l.NotCancel
  | .act _ _ => True

instance (s : Sys T N) (a : Label T (Loc T N)) : Decidable (NoCancel s a) :=
  match a with
  | .call _ l => inferInstanceAs (Decidable l.NotCancel)
  | .act _ _ => isTrue trivial

variable {b : Build} {self : T} {l l' : Loc T N} {timeout : Bool} {s s' : Shared T N}

/-- A thread stays in the function it is in. -/
theorem stepInside_notCancel (hl : l.NotCancel)
    (h : stepInside b self l timeout s = .goto s' l') :
  l'.NotCancel
  := by
  cases l with
  | cancel target l => cases hl
  | _ =>
      rcases Outcome.lift_eq_goto_iff.mp h with ⟨_, _, _, _, rfl⟩ | ⟨_, _, _, h⟩
      · trivial
      · cases h

variable [Fintype T]

omit [Fintype T] in
/-- The steps of the system are acts of the wakeup protocol as long as no thread is inside
`pthread_cancel`. -/
theorem conforms (b : Build) :
  Conforms (machine (T := T) (N := N) b) QueueRef.IsBarrier (fun t => Loc.role t) Loc.NotCancel
  := by
  constructor
  · intro t l he _
    apply Loc.role_of_entry he
  · intro t l c s s' l' hl hport h
    use stepInside_notCancel hl (step_eq_goto h)
    apply (step_act hport _ h).mono (fun _ _ => trivial)
    rintro target c rfl
    cases hl
  · intro t l c s s' r hl hport h
    apply (step_act_ret hport h).mono (fun _ _ => trivial)

/-- The thread is inside a blocking section on the queue `q`. -/
def Blocks (s : Sys T N) (u : T) (q : QueueRef T N) : Prop :=
  (roles (fun t => Loc.role t) s u).phase.queue = some q

/-- The thread is inside no blocking section. -/
def Outside (s : Sys T N) (u : T) : Prop :=
  (roles (fun t => Loc.role t) s u).phase = .out

/-- The thread is in the list that the last thread to arrive at a barrier has detached and
is still walking. -/
def Walked (s : Sys T N) (u : T) : Prop :=
  ∃ t, u ∈ (roles (fun t => Loc.role t) s t).walk

/-- The messages meant for `u` in its present section: owed, queued on its port, or
received. -/
def messages (s : Sys T N) (u : T) : Nat :=
  credit (roles (fun t => Loc.role t) s) s.shared.waits u

variable {attr : N → Option MutexType} {value count : N → Nat} {s : Sys T N}

/-- The wakeup protocol: a thread inside a blocking section is either linked on the queue of
the section, and no message is meant for it, or on no queue, and exactly one message is; a
thread outside is on no queue, and no message is meant for it. So a message is only sent to
an empty port. -/
theorem wakeup_protocol (hs : (machine b).Reach NoCancel (start attr value count) s) (u : T) :
  (∀ q, Blocks s u q → Xor
      (u ∈ s.shared.waits.queue q ∧ s.shared.waits.prevp u = some q ∧
        (∀ q', u ∈ s.shared.waits.queue q' → q' = q) ∧ messages s u = 0)
      ((∀ q', u ∉ s.shared.waits.queue q') ∧
        (s.shared.waits.prevp u = none ∨ Walked s u) ∧ messages s u = 1)) ∧
    (Outside s u → (∀ q', u ∉ s.shared.waits.queue q') ∧ s.shared.waits.prevp u = none ∧
      messages s u = 0) ∧
    (∀ t, u ∈ (roles (fun t => Loc.role t) s t).owes → s.shared.waits.port u = 0)
  := by
  obtain ⟨-, hsound⟩ := (conforms b).sound (fun _ _ _ h => h) hs
  refine ⟨?_, ?_, ?_⟩
  · intro q hq
    rcases hsound.inside u q hq with ⟨hmem, hzero⟩ | ⟨hnone, hone⟩
    · have hlink := hsound.linked q u hmem
      left
      refine ⟨⟨hmem, hlink, ?_, hzero⟩, ?_⟩
      · intro q' hmem'
        have hlink' := hsound.linked q' u hmem'
        rw [hlink] at hlink'
        apply (Option.some.inj hlink').symm
      · rintro ⟨hnone, -⟩
        apply hnone q hmem
    · right
      refine ⟨⟨hnone, ?_, hone⟩, ?_⟩
      · by_contra hnot
        rw [not_or] at hnot
        obtain ⟨q', hq'⟩ := Option.ne_none_iff_exists'.mp hnot.1
        apply hnot.2 (hsound.stray q' u hq' (hnone q'))
      · rintro ⟨hmem, -⟩
        apply hnone q hmem
  · intro hout
    obtain ⟨hlink, hzero⟩ := hsound.outside u hout
    refine ⟨?_, hlink, hzero⟩
    intro q' hmem
    rw [hsound.linked q' u hmem] at hlink
    cases hlink
  · intro t howes
    apply hsound.port_of_owes howes

/-- Thread 0 holds a mutex, on which thread 1 waits. -/
theorem wakeup_protocol_contended :
  ∃ s, (machine .debug).Reach NoCancel
      (start (T := Fin 2) (N := Unit) (fun _ => none) (fun _ => 0) (fun _ => 1)) s ∧
    Blocks s 1 (.mutex (.user ())) ∧ 1 ∈ s.shared.waits.queue (.mutex (.user ())) ∧
    messages s 1 = 0 ∧ Outside s 0 ∧ messages s 0 = 0
  := by
  obtain ⟨s, hs, hp⟩ := Machine.exists_reach_of_run (M := machine .debug) (G := NoCancel)
    (s := start (T := Fin 2) (N := Unit) (fun _ => none) (fun _ => 0) (fun _ => 1))
    [.call 0 (.mutex () (.lock (.start none))), .act 0 false,
      .call 1 (.mutex () (.lock (.start none))), .act 1 false]
    (fun s => (roles (fun t => Loc.role t) s 1).phase = .blocking (.mutex (.user ())) false ∧
      s.loc 0 = none ∧ 1 ∈ s.shared.waits.queue (.mutex (.user ())))
    (by decide +kernel)
  simp only [decide_eq_true_eq] at hp
  obtain ⟨hphase, hidle, hmem⟩ := hp
  have hblocks : Blocks s 1 (.mutex (.user ())) := by
    rw [Blocks, hphase]
    rfl
  have hout : Outside s 0 := by
    rw [Outside, roles, hidle]
    rfl
  rcases (wakeup_protocol hs 1).1 _ hblocks with ⟨⟨-, -, -, hzero⟩, -⟩ | ⟨⟨hnone, -⟩, -⟩
  · use s, hs, hblocks, hmem, hzero, hout, ((wakeup_protocol hs 0).2.1 hout).2.2
  · apply absurd hmem (hnone _)

end Process

end LibPthread
