import LibPthread.Rwlock.Sharing

/-!
# Hand-over of an rwlock

An unlock passes the rwlock to the first queued writer or to all queued readers before they
run. A waiter that finds itself dequeued after its time-out has fired returns `ETIMEDOUT`
and its share is never given back. In the runs in which no time-out crosses a hand-over, the
shares of a thread outside the functions are its acquisitions, so that the rwlock is free
once all of them have been undone.
-/

open Concurrency

namespace LibPthread

namespace Rwlock

variable {T : Type} [DecidableEq T]

/-- The threads to which an unlock of the last holder passes the rwlock. -/
def heirs (w : Waits T Mode) : List T :=
  match w.queue .wr with
  | u :: _ => [u]
  | [] => w.queue .rd

/-- No time-out crosses a hand-over: a waiter does not time out once it has been dequeued,
and an unlock does not dequeue a waiter that has timed out. -/
def Uncrossed (s : Sys T) : Label T (Loc T) → Prop
  | .call _ _ => True
  | .act t timeout =>
    ((s.loc t = some (.lock .rd (.wait (.block true))) ∨
        s.loc t = some (.lock .wr (.wait (.block true)))) → timeout = true →
      s.shared.waits.prevp t ≠ none) ∧
    (s.loc t = some (.unlock .start) → s.shared.obj.readers ≤ 1 →
      ∀ u ∈ heirs s.shared.waits, s.loc u ≠ some (.lock .rd (.wait (.recheck true))) ∧
        s.loc u ≠ some (.lock .wr (.wait (.recheck true))))

instance (s : Sys T) (a : Label T (Loc T)) : Decidable (Uncrossed s a) :=
  match a with
  | .call _ _ => inferInstanceAs (Decidable True)
  | .act _ _ => inferInstanceAs (Decidable ((_ → _ → _) ∧ (_ → _ → _)))

/-- The guard under which no share is orphaned. -/
def Orderly (s : Sys T) (a : Label T (Loc T)) : Prop :=
  Disciplined s a ∧ Uncrossed s a

instance (s : Sys T) (a : Label T (Loc T)) : Decidable (Orderly s a) :=
  inferInstanceAs (Decidable (_ ∧ _))

variable {b : Build} {s s' : Sys T} {a : Label T (Loc T)}

/-- What holds in addition to the exclusion invariant while no time-out crosses a
hand-over. -/
structure Settled (s : Sys T) : Prop where
  expired : ∀ t mode, s.loc t = some (.lock mode (.wait (.recheck true))) →
    s.shared.waits.prevp t ≠ none
  drained : ∀ t mode, s.loc t ≠ some (.lock mode (.wait .drain))
  timedOut : ∀ t mode, s.loc t = some (.lock mode (.finish true)) → handed t s.log = false
  claims : ∀ t, claims t s.log = owns t s.log

/-- A thread that is dequeued by the step of another thread is an heir of the rwlock. -/
theorem Effect.prevp_of_not_heir {t : T} (h : Effect b s a s') (ht : t ≠ a.thread)
    (hheir : s.loc a.thread = some (.unlock .start) → s.shared.obj.readers ≤ 1 →
      t ∉ heirs s.shared.waits) :
  s'.shared.waits.prevp t = s.shared.waits.prevp t
  := by
  cases h with
  | handOver hat hlast hfirst =>
      have := hheir hat hlast
      simp_all [heirs]
  | handAll hat hlast hwr hrd =>
      have := hheir hat hlast
      simp_all [heirs]
  | _ => simp_all

variable [Fintype T]

/-- A thread that has timed out is still linked. -/
theorem Effect.expired
    (hsound : Sound (fun _ => False) (roles (fun _ => Loc.role id) s) s.shared.waits)
    (h : Effect b s a s') (hG : Uncrossed s a) (hs : Settled s) :
  ∀ t mode, s'.loc t = some (.lock mode (.wait (.recheck true))) →
    s'.shared.waits.prevp t ≠ none
  := by
  intro t mode hl
  by_cases ht : t = a.thread
  · subst ht
    cases h with
    | call hidle hentry =>
        simp only [State.call_loc, Label.thread, Function.update_self, Option.some.injEq] at hl
        subst hl
        cases hentry
    | @timeout u m hat =>
        apply hG.1 _ rfl
        cases m
        · left; apply hat
        · right; apply hat
    | _ => simp at hl
  · rw [(h.other hsound ht).1] at hl
    rw [h.prevp_of_not_heir ht]
    · apply hs.expired t mode hl
    · intro hat hlast hheir
      cases a with
      | call u l =>
          cases h with
          | call hidle => simp_all
      | act u c =>
          have := hG.2 hat hlast t hheir
          cases mode
          · apply this.1 hl
          · apply this.2 hl

theorem Effect.drained
    (hsound : Sound (fun _ => False) (roles (fun _ => Loc.role id) s) s.shared.waits)
    (h : Effect b s a s') (hs : Settled s) :
  ∀ t mode, s'.loc t ≠ some (.lock mode (.wait .drain))
  := by
  intro t mode hl
  by_cases ht : t = a.thread
  · subst ht
    cases h with
    | call hidle hentry =>
        simp only [State.call_loc, Label.thread, Function.update_self, Option.some.injEq] at hl
        subst hl
        cases hentry
    | late hat hgone => apply hs.expired _ _ hat hgone
    | _ => simp at hl
  · rw [(h.other hsound ht).1] at hl
    apply hs.drained t mode hl

/-- A call that will return `ETIMEDOUT` has not been passed a share. -/
theorem Effect.timedOut
    (hsound : Sound (fun _ => False) (roles (fun _ => Loc.role id) s) s.shared.waits)
    (h : Effect b s a s') (he : Exclusive s) (hs : Settled s) :
  ∀ t mode, s'.loc t = some (.lock mode (.finish true)) → handed t s'.log = false
  := by
  intro t mode hl
  by_cases ht : t = a.thread
  · subst ht
    have hp := he.placed a.thread
    cases h with
    | call hidle hentry =>
        simp only [State.call_loc, Label.thread, Function.update_self, Option.some.injEq] at hl
        subst hl
        cases hentry
    | leave hat hstill => simp_all [Placed, handed]
    | drain hat => apply absurd hat (hs.drained _ _)
    | _ => simp at hl
  · obtain ⟨hloc, -, ⟨hh, -⟩ | ⟨m, hq, -⟩⟩ := h.other hsound ht
    · rw [hh]
      apply hs.timedOut t mode (hloc ▸ hl)
    · have := loc_of_queued hsound hq
      grind

theorem settled_of_reach
    (hs : (machine b).Reach Orderly (State.idle ⟨Rwlock.init, Waits.empty⟩) s) :
  Settled s
  := by
  apply hs.invariant
  · constructor
    · simp
    · simp
    · simp
    · simp [Rwlock.claims, owns, acquired, handed, shares]
  · intro s a s' hreach hsettled hG hstep
    have hsound := sound_of_reach hreach
    have he := exclusive_of_reach (fun _ _ h => h.1) hreach
    have heffect := effect_of_step hsound hstep
    constructor
    · apply heffect.expired hsound hG.2 hsettled
    · apply heffect.drained hsound hsettled
    · apply heffect.timedOut hsound he hsettled
    · intro t
      have heq := hsettled.claims t
      rcases heffect.claims hsound he t with hsame | ⟨⟨mode, hl⟩, hh, -⟩
      · omega
      · simp [hsettled.timedOut t mode hl] at hh

/-- No orphaned share: a thread outside the functions has a share for each of its
acquisitions that is not undone and no other, so that the rwlock is free when no thread is
inside a call and all acquisitions have been undone. -/
theorem no_orphaned_share
    (hs : (machine b).Reach Orderly (State.idle ⟨Rwlock.init, Waits.empty⟩) s) :
  (∀ t, s.loc t = none → owns t s.log = acquired t s.log) ∧
    ((∀ t, s.loc t = none ∧ acquired t s.log = 0) →
      s.shared.obj.held = false ∧ s.shared.obj.readers = 0 ∧
        ∀ mode, s.shared.waits.queue mode = [])
  := by
  have he := exclusive_of_reach (fun _ _ h => h.1) hs
  have hsettled := settled_of_reach hs
  have howns : ∀ t, s.loc t = none → owns t s.log = acquired t s.log := by
    intro t hidle
    have hp := he.placed t
    simp only [Placed, hidle] at hp
    rw [← hsettled.claims t]
    simp [Rwlock.claims, hp]
  use howns
  intro hidle
  have hnone : ∀ t mode, shares t s.log mode = 0 := by
    intro t mode
    have := howns t (hidle t).1
    rw [(hidle t).2, owns] at this
    cases mode
    · omega
    · omega
  have hfree : s.shared.obj.held = false := by
    rw [he.balanced.held]
    simp [total, hnone]
  use hfree
  constructor
  · simp [he.balanced.readers, total, hnone]
  · apply he.queues hfree

/-! ### A time-out that crosses a hand-over -/

/-- Thread `0` writes and passes the rwlock to thread `1`, which waits for reading and has
not timed out; then both leave. -/
def handOverRun {T : Type} (t u : T) : List (Label T (Loc T)) :=
  [.call t (.lock .wr (.start none)), .act t false,
   .call u (.lock .rd (.start (some ⟨0, 0⟩))), .act u false,
   .call t (.unlock .start), .act t false, .act t false, .act t false,
   .act u false, .act u false, .act u false, .call u (.unlock .start), .act u false]

/-- The time-out of thread `1` fires before thread `0` passes the rwlock to it. -/
def crossing {T : Type} (t u : T) : List (Label T (Loc T)) :=
  [.call t (.lock .wr (.start none)), .act t false,
   .call u (.lock .rd (.start (some ⟨0, 0⟩))), .act u false, .act u true,
   .call t (.unlock .start), .act t false, .act t false, .act t false,
   .act u false, .act u false, .act u false]

theorem no_orphaned_share_handOverRun :
  ∃ s : Sys (Fin 2), (machine Build.debug).Reach Orderly
      (State.idle ⟨Rwlock.init, Waits.empty⟩) s ∧
    Machine.returned 1 s.log = [.zero, .zero] ∧ s.shared.obj.held = false ∧
    s.shared.obj.readers = 0 ∧ ∀ mode, s.shared.waits.queue mode = []
  := by
  obtain ⟨s, hs, hp⟩ := Machine.exists_reach_of_run (M := machine Build.debug) (G := Orderly)
    (s := State.idle ⟨Rwlock.init, Waits.empty⟩) (handOverRun (0 : Fin 2) 1)
    (fun s => Machine.returned 1 s.log = [.zero, .zero] ∧
      ∀ t, s.loc t = none ∧ acquired t s.log = 0) (by decide +kernel)
  simp only [decide_eq_true_eq] at hp
  use s, hs, hp.1
  apply (no_orphaned_share hs).2 hp.2

/-- All threads are outside the functions and all acquisitions undone, but the rwlock is
held by a reader whose call returned `ETIMEDOUT`. -/
theorem orphaned_share_crossing :
  ∃ s : Sys (Fin 2), (machine Build.debug).Reach Disciplined
      (State.idle ⟨Rwlock.init, Waits.empty⟩) s ∧
    (∀ t, s.loc t = none ∧ acquired t s.log = 0) ∧
    Machine.returned 1 s.log = [.error .ETIMEDOUT] ∧
    s.shared.obj.held = true ∧ s.shared.obj.readers = 1
  := by
  obtain ⟨s, hs, hp⟩ := Machine.exists_reach_of_run (M := machine Build.debug) (G := Disciplined)
    (s := State.idle ⟨Rwlock.init, Waits.empty⟩) (crossing (0 : Fin 2) 1)
    (fun s => (∀ t, s.loc t = none ∧ acquired t s.log = 0) ∧
      Machine.returned 1 s.log = [.error .ETIMEDOUT] ∧
      s.shared.obj.held = true ∧ s.shared.obj.readers = 1) (by decide +kernel)
  simp only [decide_eq_true_eq] at hp
  use s, hs, hp.1, hp.2.1, hp.2.2.1, hp.2.2.2

end Rwlock

end LibPthread
