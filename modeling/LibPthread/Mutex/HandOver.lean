import LibPthread.Mutex.Ownership

/-!
# Hand-over of a mutex

An unlock hands the mutex over to a waiter without clearing `__held`. The waiter returns
`0` from its lock call, unless its time-out fires: a waiter that finds itself dequeued after
a time-out drains its port and returns `ETIMEDOUT`, and the mutex stays held for ever. In
the runs in which no time-out crosses a hand-over, a mutex that is held has a holder, or a
thread chosen by an unlock whose lock call will return `0`.
-/

open Concurrency

namespace LibPthread

namespace Mutex

variable {T : Type} [DecidableEq T]

/-- The use the functions of a mutex ask for: time-outs are valid and the mutex is unlocked
only by a thread that holds it. -/
def ProperUse (s : Sys T) : Label T (Loc T) → Prop
  | .call _ (.lock (.start abstime)) => badTime abstime = false
  | .call _ _ => True
  | .act t _ => s.loc t = some (.unlock .start) → 0 < depth t s.log

/-- The unlock of `t` releases the mutex: the mutex is normal, or `t` is its owner and
undoes its last acquisition. -/
def releases (t : T) (mx : Mutex T) : Bool :=
  mx.isNormal || (mx.owner = some t && (mx.attr ≠ some .recursive || decLocks mx.locks = 0))

/-- No time-out crosses a hand-over: a waiter does not time out once it has been dequeued,
and an unlock does not dequeue a waiter that has timed out. -/
def Uncrossed (s : Sys T) : Label T (Loc T) → Prop
  | .call _ _ => True
  | .act t timeout =>
    (s.loc t = some (.lock (.wait (.block true))) → timeout = true →
      s.shared.waits.prevp t ≠ none) ∧
    (s.loc t = some (.unlock .start) → releases t s.shared.obj = true →
      ∀ u ∈ (s.shared.waits.queue ()).head?, s.loc u ≠ some (.lock (.wait (.recheck true))))

instance (s : Sys T) (a : Label T (Loc T)) : Decidable (ProperUse s a) :=
  match a with
  | .call _ (.lock (.start _)) => inferInstanceAs (Decidable (_ = _))
  | .call _ (.lock (.wait _)) => inferInstanceAs (Decidable True)
  | .call _ (.lock (.finish _)) => inferInstanceAs (Decidable True)
  | .call _ .trylock => inferInstanceAs (Decidable True)
  | .call _ (.unlock _) => inferInstanceAs (Decidable True)
  | .act _ _ => inferInstanceAs (Decidable (_ → _))

instance (s : Sys T) (a : Label T (Loc T)) : Decidable (Uncrossed s a) :=
  match a with
  | .call _ _ => inferInstanceAs (Decidable True)
  | .act _ _ => inferInstanceAs (Decidable ((_ → _ → _) ∧ (_ → _ → _)))

/-- The guard under which no mutex is orphaned. -/
def Orderly (s : Sys T) (a : Label T (Loc T)) : Prop :=
  ProperUse s a ∧ Uncrossed s a

instance (s : Sys T) (a : Label T (Loc T)) : Decidable (Orderly s a) :=
  inferInstanceAs (Decidable (_ ∧ _))

variable {b : Build} {attr : Option MutexType} {s s' : Sys T} {a : Label T (Loc T)}

theorem Orderly.lawful (h : Orderly s a) :
  Lawful s a
  := by
  cases a with
  | call t l => trivial
  | act t c =>
      intro hl
      constructor
      · intro _
        apply h.1 hl
      · intro _ _ _
        apply h.1 hl

/-- What holds in addition to the ownership invariant while no time-out crosses a
hand-over. -/
structure Settled (s : Sys T) : Prop where
  lock : s.shared.obj.lock = false
  valid : ∀ t abstime, s.loc t = some (.lock (.start abstime)) → badTime abstime = false
  expired : ∀ t, s.loc t = some (.lock (.wait (.recheck true))) → s.shared.waits.prevp t ≠ none
  drained : ∀ t, s.loc t ≠ some (.lock (.wait .drain))
  timedOut : ∀ t, s.loc t = some (.lock (.finish true)) → handed t s.log = false
  holder : s.shared.obj.held = true → ∃ t, handed t s.log = true ∨ 0 < depth t s.log

theorem Released.releases {t : T} {mx mx' : Mutex T} {owner : Option T}
    (h : Released b t mx mx' owner) :
  releases t mx = true
  := by
  cases hn : mx.isNormal with
  | true => simp [Mutex.releases, hn]
  | false =>
      have hwas := h.was (by simp [tracked, hn])
      have hlast := fun hrec => (h.last hrec).1
      grind [Mutex.releases]

/-- Where the time-outs are valid, the steps release `__lock`. -/
theorem Effect.lock_eq (h : Effect b s a s') (hlock : s.shared.obj.lock = false)
    (hvalid : ∀ t abstime, s.loc t = some (.lock (.start abstime)) → badTime abstime = false) :
  s'.shared.obj.lock = false
  := by
  cases h with
  | grant _ _ _ hgrant => apply hgrant.lock
  | refuse hl _ _ hreleased =>
      rcases hreleased with rfl | ⟨abstime, rfl, hbad⟩
      · apply hlock
      · simp [hvalid _ _ hl] at hbad
  | settle _ _ hmx => simp [hmx, hlock]
  | release _ _ _ hrel => apply hrel.lock
  | handOver _ _ _ hrel => apply hrel.lock
  | _ => simp [hlock]

theorem Effect.valid (h : Effect b s a s')
    (hcall : ∀ t abstime, a = .call t (.lock (.start abstime)) → badTime abstime = false)
    (hvalid : ∀ t abstime, s.loc t = some (.lock (.start abstime)) → badTime abstime = false) :
  ∀ t abstime, s'.loc t = some (.lock (.start abstime)) → badTime abstime = false
  := by
  intro t abstime hl
  by_cases ht : t = a.thread
  · subst ht
    cases h with
    | call hidle hentry =>
        simp only [State.call_loc, Label.thread, Function.update_self, Option.some.injEq] at hl
        subst hl
        apply hcall _ _ rfl
    | _ => simp at hl
  · rw [(h.other ht).1] at hl
    apply hvalid t abstime hl

/-- A thread that has timed out is still linked. -/
theorem Effect.expired (h : Effect b s a s') (hG : Uncrossed s a) (hs : Settled s) :
  ∀ t, s'.loc t = some (.lock (.wait (.recheck true))) → s'.shared.waits.prevp t ≠ none
  := by
  intro t hl
  have hexpired := hs.expired t
  by_cases ht : t = a.thread
  · subst ht
    cases h with
    | call hidle hentry => 
        simp only [State.call_loc, Label.thread, Function.update_self, Option.some.injEq] at hl
        subst hl
        cases hentry
    | timeout hat => apply hG.1 hat rfl
    | _ => simp at hl
  · rw [(h.other ht).1] at hl
    cases h with
    | @handOver u v c mx rest hat hfirst hmx hrel =>
        have hv := hG.2 hat hrel.releases v (by simp [hfirst])
        have hne : t ≠ v := by grind
        simpa [hne] using hexpired hl
    | enqueue => simp_all
    | leave => simp_all
    | _ => apply hexpired hl

theorem Effect.drained (h : Effect b s a s') (hs : Settled s) :
  ∀ t, s'.loc t ≠ some (.lock (.wait .drain))
  := by
  intro t hl
  by_cases ht : t = a.thread
  · subst ht
    cases h with
    | call hidle hentry => 
        simp only [State.call_loc, Label.thread, Function.update_self, Option.some.injEq] at hl
        subst hl
        cases hentry
    | late hat hgone => apply hs.expired _ hat hgone
    | _ => simp at hl
  · rw [(h.other ht).1] at hl
    apply hs.drained t hl

/-- A call that will return `ETIMEDOUT` has not been handed the mutex. -/
theorem Effect.timedOut [Fintype T]
    (hsound : Sound (fun _ => False) (roles (fun _ => Loc.role ()) s) s.shared.waits)
    (ho : Owned b s)
    (h : Effect b s a s') (hs : Settled s) :
  ∀ t, s'.loc t = some (.lock (.finish true)) → handed t s'.log = false
  := by
  intro t hl
  by_cases ht : t = a.thread
  · subst ht
    have hp := ho.placed a.thread
    cases h with
    | call hidle hentry =>
        simp only [State.call_loc, Label.thread, Function.update_self, Option.some.injEq] at hl
        subst hl
        cases hentry
    | leave hat hstill => simp_all [Placed, handed]
    | drain hat => apply absurd hat (hs.drained _)
    | _ => simp at hl
  · obtain ⟨hloc, -, ⟨hh, -⟩ | ⟨hq, -⟩⟩ := h.other ht
    · rw [hh]
      apply hs.timedOut t (hloc ▸ hl)
    · have := loc_of_queued hsound hq
      grind

theorem exists_of_quiet (hq : Quiet s s')
    (h : ∃ t, handed t s.log = true ∨ 0 < depth t s.log) :
  ∃ t, handed t s'.log = true ∨ 0 < depth t s'.log
  := by
  simpa only [hq.handed, hq.depth] using h

/-- A mutex that is held after a step of an orderly run has a holder or has been handed
over. -/
theorem Effect.holder (ho : Owned b s) (h : Effect b s a s') (hG : ProperUse s a)
    (hs : Settled s) (hheld : s'.shared.obj.held = true) :
  ∃ t, handed t s'.log = true ∨ 0 < depth t s'.log
  := by
  cases h with
  | @grant t c l mx hl hrequest =>
      use t
      right
      rw [depth_grant (Or.inl hrequest)]
      omega
  | @again t c l hl hrequest =>
      use t
      right
      rw [depth_grant (Or.inl hrequest)]
      omega
  | @settle t c mx hl =>
      use t
      right
      rw [depth_grant (Or.inr ⟨_, rfl⟩)]
      omega
  | @inner t c hl hrec hown hmore =>
      use t
      right
      have hh := (ho.holder_of_owner (tracked_of_recursive hrec) hown).2
      have hlocks := (hh.kept (ho.not_handed hl (Or.inr ⟨_, rfl⟩))).1 hrec
      have hpos : 0 < depth t s.log := hG hl
      have hpred : 0 < depth t s.log - 1 := by
        rw [decLocks] at hmore
        omega
      simpa [depth] using hpred
  | @handOver t u c mx rest hl hfirst =>
      use u
      left
      simp [handed]
  | release _ _ hfree => simp_all
  | expire hl =>
      apply exists_of_quiet (Quiet.ret (hs.timedOut _ hl) (by simp)) (hs.holder hheld)
  | refuse hl hrequest =>
      apply exists_of_quiet _ (hs.holder hheld)
      apply Quiet.ret (ho.not_handed hl (Or.inl hrequest)) (by simp)
  | deny hl =>
      apply exists_of_quiet _ (hs.holder hheld)
      apply Quiet.ret (ho.not_handed hl (Or.inr ⟨_, rfl⟩)) (by simp)
  | wakeup hl =>
      apply exists_of_quiet _ (hs.holder hheld)
      apply Quiet.ret (ho.not_handed hl (Or.inr ⟨_, rfl⟩)) (by simp)
  | call => apply exists_of_quiet Quiet.call (hs.holder hheld)
  | _ => apply exists_of_quiet (Quiet.goto (by simp) (by simp)) (hs.holder hheld)

variable [Fintype T]

theorem settled_of_reach
    (hs : (machine b).Reach Orderly (State.idle ⟨Mutex.init attr, Waits.empty⟩) s) :
  Settled s
  := by
  apply hs.invariant
  · constructor
    all_goals simp [Mutex.init]
  · intro s a s' hreach hsettled hG hstep
    have hsound := sound_of_reach hreach
    have ho := owned_of_reach (fun _ _ => Orderly.lawful) hreach
    have heffect := effect_of_step hsound hstep
    constructor
    · apply heffect.lock_eq hsettled.lock hsettled.valid
    · apply heffect.valid _ hsettled.valid
      rintro t abstime rfl
      apply hG.1
    · apply heffect.expired hG.2 hsettled
    · apply heffect.drained hsettled
    · apply heffect.timedOut hsound ho hsettled
    · apply heffect.holder ho hG.1 hsettled

/-! ### The call of a thread that was handed the mutex -/

omit [Fintype T] in
/-- Where a thread that was handed the mutex can be. -/
theorem loc_of_handed (ho : Owned b s) (hs : Settled s) {t : T} (ht : handed t s.log = true) :
  (∃ timed, s.loc t = some (.lock (.wait (.block timed))) ∧ s.shared.waits.prevp t = none) ∨
    (s.loc t = some (.lock (.wait (.recheck false))) ∧ s.shared.waits.prevp t = none) ∨
    s.loc t = some (.lock (.finish false))
  := by
  have hp := ho.placed t
  have hexpired := hs.expired t
  have hdrained := hs.drained t
  have htimedOut := hs.timedOut t
  cases hl : s.loc t with
  | none => simp_all [Placed]
  | some l =>
      rcases l with (_ | (_ | (_ | _) | _) | (_ | _)) | _ | _
      all_goals simp_all [Placed]

omit [Fintype T] in
/-- A thread that was handed the mutex stays so until its call returns `0`. -/
theorem Effect.pledge (ho : Owned b s) (h : Effect b s a s') (hs : Settled s) {t : T}
    (ht : handed t s.log = true) :
  (handed t s'.log = true ∧ Machine.returned t s'.log = Machine.returned t s.log) ∨
    Machine.returned t s'.log = .zero :: Machine.returned t s.log
  := by
  have hloc := loc_of_handed ho hs ht
  cases h with
  | @settle u c mx hl =>
      by_cases hu : u = t
      · right
        simp [Machine.returned, hu]
      · left
        simp [handed, Machine.returned, hu, ht]
  | call => simp [handed, Machine.returned, ht]
  | @grant u c l mx hl hrequest =>
      have hu : u ≠ t := by grind [Loc.request]
      simp [handed, Machine.returned, hu, ht]
  | @again u c l hl hrequest =>
      have hu : u ≠ t := by grind [Loc.request]
      simp [handed, Machine.returned, hu, ht]
  | @refuse u c l lock e hl hrequest =>
      have hu : u ≠ t := by grind [Loc.request]
      simp [handed, Machine.returned, hu, ht]
  | @expire u c hl =>
      have hu : u ≠ t := by grind
      simp [handed, Machine.returned, hu, ht]
  | @deny u c hl =>
      have hu : u ≠ t := by grind
      simp [handed, Machine.returned, hu, ht]
  | @inner u c hl =>
      have hu : u ≠ t := by grind
      simp [handed, Machine.returned, hu, ht]
  | @release u c mx hl =>
      have hu : u ≠ t := by grind
      simp [handed, Machine.returned, hu, ht]
  | @wakeup u v c hl =>
      have hu : u ≠ t := by grind
      simp [handed, Machine.returned, hu, ht]
  | _ => simp [handed, Machine.returned, ht]

/-- The number of steps that separate a thread that was handed the mutex from its
return. -/
def distance (t : T) (s : Sys T) : Nat :=
  match s.loc t with
  | some (.lock (.wait (.block _))) => if s.shared.waits.port t = 0 then 4 else 3
  | some (.lock (.wait _)) => 2
  | _ => 1

/-- A thread that was handed the mutex, or the thread that will wake it up, can take a step
towards its return. -/
theorem exists_progress
    (hs : (machine b).Reach Orderly (State.idle ⟨Mutex.init attr, Waits.empty⟩) s) {t : T}
    (ht : handed t s.log = true) :
  ∃ a s', Orderly s a ∧ (machine b).Step s a s' ∧
    (Machine.returned t s'.log = Machine.returned t s.log → distance t s' < distance t s)
  := by
  have hsound := sound_of_reach hs
  have ho := owned_of_reach (fun _ _ => Orderly.lawful) hs
  have hsettled := settled_of_reach hs
  have hh := (ho.holder_of_handed ht).2
  rcases loc_of_handed ho hsettled ht with ⟨timed, hl, hgone⟩ | ⟨hl, hgone⟩ | hl
  · by_cases hport : s.shared.waits.port t = 0
    · -- the message is still owed: its sender can send it
      obtain ⟨v, hv⟩ := hsound.exists_waker (t := t)
        (show (roles (fun _ => Loc.role ()) s t).phase = .blocking () timed by
          simp [roles, hl, Loc.role, LockLoc.phase, Stage.phase]) hgone hport
      have hlv : s.loc v = some (.unlock (.wakeup t)) := by
        cases hlv : s.loc v with
        | none => simp [roles, hlv, Role.idle] at hv
        | some l =>
            rcases l with _ | _ | (_ | _)
            all_goals simp_all [roles, Loc.role, Role.idle, UnlockLoc.owes]
      have hne : t ≠ v := by
        rintro rfl
        simp [hl] at hlv
      use .act v false, s.ret v (.unlock (.wakeup t)) ⟨s.shared.obj, s.shared.waits.send t⟩ .zero
      constructor
      · simp [Orderly, ProperUse, Uncrossed, hlv]
      · constructor
        · apply Machine.Step.ret hlv
          simp only [machine, step, unlockStep, Build.wakeup_of hport]
          rfl
        · intro _
          simp [distance, hl, hne, hport]
    · use .act t false, s.goto t (.lock (.wait (.block timed)))
        ⟨s.shared.obj, s.shared.waits.receive t⟩ (.lock (.wait (.recheck false)))
      constructor
      · simp [Orderly, ProperUse, Uncrossed, hl]
      · constructor
        · apply Machine.Step.goto hl
          simp [machine, step, lockStep, waitStep, hport, Outcome.lift]
        · intro _
          simp [distance, hl, hport]
  · use .act t false, s.goto t (.lock (.wait (.recheck false))) s.shared (.lock (.finish false))
    constructor
    · simp [Orderly, ProperUse, Uncrossed, hl]
    · constructor
      · apply Machine.Step.goto hl
        simp [machine, step, lockStep, waitStep, hsettled.lock, hgone, Outcome.lift]
      · intro _
        simp [distance, hl]
  · have hfault : lockFinish b t false s.shared.obj s.shared.waits ≠ .fault := by
      apply lockFinish_ne_fault _ (hh.chosen ht).2
      intro hdebug htracked
      have := hh.owner htracked
      simp_all
    obtain ⟨x, hx⟩ := lockFinish_exists_ret hfault
    use .act t false, s.ret t (.lock (.finish false)) x .zero
    constructor
    · simp [Orderly, ProperUse, Uncrossed, hl]
    · constructor
      · apply Machine.Step.ret hl
        simp [machine, step, lockStep, hx, Outcome.lift]
      · simp [Machine.returned]

/-- The lock call of a thread that was handed the mutex will return `0`. -/
theorem willReturn_of_handed
    (hs : (machine b).Reach Orderly (State.idle ⟨Mutex.init attr, Waits.empty⟩) s) {t : T}
    (ht : handed t s.log = true) :
  (machine b).WillReturn Orderly s t .zero
  := by
  apply Machine.WillReturn.of_rank (distance t) (P := fun s =>
    (machine b).Reach Orderly (State.idle ⟨Mutex.init attr, Waits.empty⟩) s ∧
      handed t s.log = true)
  · use hs, ht
  · rintro s a s' ⟨hreach, hh⟩ hG hstep
    have ho := owned_of_reach (fun _ _ => Orderly.lawful) hreach
    have heffect := effect_of_step (sound_of_reach hreach) hstep
    rcases heffect.pledge ho (settled_of_reach hreach) hh with ⟨hh', hsame⟩ | hret
    · left
      use ⟨hreach.step hG hstep, hh'⟩
    · right
      apply hret
  · rintro s ⟨hreach, hh⟩
    apply exists_progress hreach hh

/-- No orphaned mutex, for any number of threads: if the mutex is held, some thread holds it,
or a thread chosen by an unlock is inside its lock call and that call will return `0`. The
call of any thread to which an unlock has passed the mutex returns `0`. -/
theorem no_orphan
    (hs : (machine b).Reach Orderly (State.idle ⟨Mutex.init attr, Waits.empty⟩) s) :
  (s.shared.obj.held = true → (∃ t, 0 < depth t s.log) ∨
    ∃ t l, handed t s.log = true ∧ s.loc t = some (.lock l) ∧
      (machine b).WillReturn Orderly s t .zero) ∧
    (∀ t, handed t s.log = true → (machine b).WillReturn Orderly s t .zero)
  := by
  have ho := owned_of_reach (fun _ _ => Orderly.lawful) hs
  have hsettled := settled_of_reach hs
  constructor
  · intro hheld
    obtain ⟨t, ht | ht⟩ := hsettled.holder hheld
    · right
      obtain ⟨l, hl⟩ : ∃ l, s.loc t = some (.lock l) := by
        rcases loc_of_handed ho hsettled ht with ⟨timed, hl, -⟩ | ⟨hl, -⟩ | hl
        all_goals simp [hl]
      use t, l, ht, hl, willReturn_of_handed hs ht
    · left
      use t
  · intro t ht
    apply willReturn_of_handed hs ht

/-- Thread `0` hands the mutex over to thread `1`, which waits without time-out. -/
def handOverRun {T : Type} (t u : T) : List (Label T (Loc T)) :=
  [.call t (.lock (.start none)), .act t false,
   .call u (.lock (.start none)), .act u false,
   .call t (.unlock .start), .act t false]

/-- In the middle of a hand-over the call of the waiter will return `0`. -/
theorem no_orphan_handOverRun :
  ∃ s, (machine Build.debug).Reach Orderly
      (State.idle ⟨Mutex.init (some .errorcheck), Waits.empty⟩) s ∧
    s.shared.obj.held = true ∧ (∀ t : Fin 2, depth t s.log = 0) ∧
    (machine Build.debug).WillReturn Orderly s 1 .zero
  := by
  obtain ⟨s, hs, hp⟩ := Machine.exists_reach_of_run (M := machine Build.debug) (G := Orderly)
    (s := State.idle ⟨Mutex.init (some .errorcheck), Waits.empty⟩) (handOverRun (0 : Fin 2) 1)
    (fun s => s.shared.obj.held ∧ handed 1 s.log ∧ ∀ t : Fin 2, depth t s.log = 0)
    (by decide +kernel)
  simp only [decide_eq_true_eq] at hp
  use s, hs, hp.1, hp.2.2, (no_orphan hs).2 1 hp.2.1

/-- A mutex orphaned by a time-out that crosses its hand-over: it is held, no thread holds
it, and no thread is inside a call. -/
theorem orphan_crossing :
  ∃ s, (machine Build.debug).Reach ProperUse
      (State.idle ⟨Mutex.init none, Waits.empty⟩) s ∧
    s.shared.obj.held = true ∧ (∀ t : Fin 2, depth t s.log = 0) ∧ (∀ t, s.loc t = none)
  := by
  obtain ⟨s, hs, hp⟩ := Machine.exists_reach_of_run (M := machine Build.debug) (G := ProperUse)
    (s := State.idle ⟨Mutex.init none, Waits.empty⟩) (crossing (0 : Fin 2) 1)
    (fun s => s.shared.obj.held ∧ (∀ t : Fin 2, depth t s.log = 0) ∧ ∀ t, s.loc t = none)
    (by decide +kernel)
  simp only [decide_eq_true_eq] at hp
  use s, hs

end Mutex

end LibPthread
