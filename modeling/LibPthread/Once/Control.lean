import LibPthread.Once.Functions

/-!
# What the control of a one-time initialisation knows

A thread that has taken the lock of the control is at one of the control points of `pthread_once`
between the lock and the unlock, on its stack, whatever it runs on top of it. The invariant
relates the control and the log to the one such thread, if there is one.
-/

namespace LibPthread.Once

variable {T : Type}

/-! ### The history of a run -/

/-- The number of init routines that were started. -/
def starts : List (Event T) → Nat
  | [] => 0
  | .started _ :: log => starts log + 1
  | _ :: log => starts log

/-- No init routine has returned. -/
def Unfinished (log : List (Event T)) : Prop :=
  ∀ t, .finished t ∉ log

/-- An init routine was started and has returned. -/
def Completed (log : List (Event T)) : Prop :=
  ∃ t later earlier, log = later ++ .finished t :: earlier ∧ .started t ∈ earlier

/-- Calls of `pthread_once` have returned only after an init routine had. -/
def Ordered (log : List (Event T)) : Prop :=
  ∀ later t earlier, log = later ++ .returned t :: earlier → Completed earlier

theorem Completed.cons {log : List (Event T)} (h : Completed log) (e : Event T) :
  Completed (e :: log)
  := by
  obtain ⟨t, later, earlier, rfl, hstarted⟩ := h
  exact ⟨t, e :: later, earlier, rfl, hstarted⟩

theorem Completed.not_unfinished {log : List (Event T)} (h : Completed log) :
  ¬ Unfinished log
  := by
  obtain ⟨t, later, earlier, rfl, -⟩ := h
  intro hun
  exact hun t (by simp)

theorem Ordered.cons {log : List (Event T)} (h : Ordered log) {e : Event T}
    (he : ∀ t, e = .returned t → Completed log) :
  Ordered (e :: log)
  := by
  intro later t earlier heq
  cases later with
  | nil =>
      obtain ⟨rfl, rfl⟩ := List.cons.inj heq
      exact he t rfl
  | cons e' later =>
      obtain ⟨rfl, rfl⟩ := List.cons.inj heq
      exact h later t earlier rfl

/-- Before an init routine has returned, no call of `pthread_once` has. -/
theorem Ordered.not_returned {log : List (Event T)} (h : Ordered log) (hun : Unfinished log)
    (t : T) :
  .returned t ∉ log
  := by
  intro hmem
  obtain ⟨later, earlier, rfl⟩ := List.append_of_mem hmem
  apply (h later t earlier rfl).not_unfinished
  intro u hu
  exact hun u (by simp [hu])

/-! ### The thread that has the lock -/

/-- A control point of `pthread_once` between the lock and the unlock. -/
def OnceLoc.critical : OnceLoc → Bool
  | .test => false
  | .lock => false
  | .inner => true
  | .routine => true
  | .store => true
  | .unlock => true

/-- The control points of the calls of `pthread_once` on a stack that have the lock. -/
def critical : List Frame → List OnceLoc
  | [] => []
  | .once l :: rest => if l.critical then l :: critical rest else critical rest
  | .program :: rest => critical rest
  | .exit _ :: rest => critical rest

/-- The run so far, when the lock is free (`none`) or a thread has it at a control point. -/
def Phase (run : Int) (log : List (Event T)) : Option (T × OnceLoc) → Prop
  | some (h, .routine) => run = 0 ∧ starts log = 1 ∧ .started h ∈ log ∧ Unfinished log
  | some (_, .store) => run = 0 ∧ starts log = 1 ∧ Completed log
  | some (_, .unlock) => run ≠ 0 ∧ starts log = 1 ∧ Completed log
  | _ => (run = 0 ∧ starts log = 0 ∧ Unfinished log) ∨ (run ≠ 0 ∧ starts log = 1 ∧ Completed log)

/-- The lock is free, or exactly one thread has it. -/
inductive Held (s : State T) : Option (T × OnceLoc) → Prop where
  | free (lock : s.control.lock = false) (all : ∀ t, critical (s.thread t).frames = []) :
    Held s none
  | held {h : T} {l : OnceLoc} (lock : s.control.lock = true)
    (here : critical (s.thread h).frames = [l])
    (others : ∀ t, t ≠ h → critical (s.thread t).frames = []) : Held s (some (h, l))

/-- The invariant of the control. -/
structure Inv (s : State T) : Prop where
  phase : ∃ p, Held s p ∧ Phase s.control.run s.log p
  ordered : Ordered s.log

theorem inv_init :
  Inv (State.init : State T)
  := by
  constructor
  · use none
    constructor
    · exact Held.free rfl fun _ => rfl
    · left
      exact ⟨rfl, rfl, fun _ => List.not_mem_nil⟩
  · intro later t earlier heq
    simp at heq

/-! ### What a step does to the control -/

/-- What a step of `t` does, one constructor for each kind of step: `quiet` are those that leave the
control, the log and the threads that have the lock as they are. -/
inductive Effect (s s' : State T) (t : T) : Prop where
  | quiet (control : s'.control = s.control) (log : s'.log = s.log)
    (same : ∀ u, critical (s'.thread u).frames = critical (s.thread u).frames)
  | late (run : s.control.run ≠ 0) (control : s'.control = s.control)
    (log : s'.log = .returned t :: s.log)
    (same : ∀ u, critical (s'.thread u).frames = critical (s.thread u).frames)
  | lock (free : s.control.lock = false) (control : s'.control = { s.control with lock := true })
    (log : s'.log = s.log)
    (here : critical (s'.thread t).frames = .inner :: critical (s.thread t).frames)
    (others : ∀ u, u ≠ t → s'.thread u = s.thread u)
  | move (l l' : OnceLoc) (rest : List OnceLoc) (lock : s'.control.lock = s.control.lock)
    (before : critical (s.thread t).frames = l :: rest)
    (after : critical (s'.thread t).frames = l' :: rest)
    (others : ∀ u, u ≠ t → s'.thread u = s.thread u)
    (step : (l = .inner ∧ l' = .routine ∧ s.control.run = 0 ∧ s'.control.run = 0
        ∧ s'.log = .started t :: s.log)
      ∨ (l = .inner ∧ l' = .unlock ∧ s.control.run ≠ 0 ∧ s'.control.run = s.control.run
        ∧ s'.log = s.log)
      ∨ (l = .routine ∧ l' = .store ∧ s'.control.run = s.control.run
        ∧ s'.log = .finished t :: s.log)
      ∨ (l = .store ∧ l' = .unlock ∧ s'.control.run = 1 ∧ s'.log = s.log))
  | unlock (rest : List OnceLoc) (control : s'.control = { s.control with lock := false })
    (log : s'.log = .returned t :: s.log)
    (before : critical (s.thread t).frames = .unlock :: rest)
    (after : critical (s'.thread t).frames = rest)
    (others : ∀ u, u ≠ t → s'.thread u = s.thread u)

/-- A function of the program returns to the call that has started an init routine, or it leaves
the calls that have the lock as they are. -/
theorem leave_cases {th th' : Thread} {rest : List Frame} (h : th.leave rest = some th') :
  (∃ below, rest = .once .routine :: below ∧ th'.frames = .once .store :: below)
    ∨ (rest.head? ≠ some (.once .routine) ∧ critical th'.frames = critical rest)
  := by
  unfold Thread.leave at h
  split at h
  all_goals grind [critical]

theorem critical_of_exitStep {th th' : Thread} {rest : List Frame} {choice : Bool} {l : ExitLoc}
    (h : th.exitStep rest choice l = some th') :
  critical th'.frames = critical rest
  := by
  cases l
  all_goals grind [Thread.exitStep, critical]

variable [DecidableEq T] {s s' : State T} {t : T}

/-- A step that changes one thread only, and not its calls that have the lock. -/
theorem Effect.of_setThread {u : T} {th : Thread}
    (h : critical th.frames = critical (s.thread u).frames) :
  Effect s (s.setThread u th) t
  := by
  refine .quiet rfl rfl ?_
  intro v
  by_cases hv : v = u
  · subst hv
    simpa [State.setThread] using h
  · simp [State.setThread, hv]

/-- The effect of a step of the program. -/
theorem effect_of_programStep {rest : List Frame} {a : Act T}
    (hframes : (s.thread t).frames = .program :: rest) (h : s.programStep t rest a = some s') :
  Effect s s' t
  := by
  have hcritical : critical (s.thread t).frames = critical rest := by
    rw [hframes, critical]
  cases a with
  | leave =>
      obtain ⟨th, hleave, rfl⟩ := Option.map_eq_some_iff.mp h
      rcases leave_cases hleave with ⟨below, rfl, hth⟩ | ⟨hhead, hth⟩
      · refine .move .routine .store (critical below) rfl ?_ ?_ ?_ ?_
        · rw [hcritical]
          rfl
        · simp [hth, critical, OnceLoc.critical]
        · intro u hu
          simp [hu]
        · simp
      · refine .quiet rfl (by simp [hhead]) ?_
        intro u
        by_cases hu : u = t
        · subst hu
          simpa [hcritical] using hth
        · simp [hu]
  | testcancel =>
      simp only [State.programStep] at h
      split at h
      · obtain rfl := Option.some.inj h
        apply Effect.of_setThread
        rfl
      · obtain rfl := Option.some.inj h
        exact .quiet rfl rfl fun _ => rfl
  | cancel target =>
      obtain rfl := Option.some.inj h
      apply Effect.of_setThread
      rfl
  | go choice => cases h
  | once =>
      obtain rfl := Option.some.inj h
      apply Effect.of_setThread
      rw [hcritical]
      rfl
  | _ =>
      obtain rfl := Option.some.inj h
      apply Effect.of_setThread
      rfl

/-- The effect of a step of `pthread_once`. -/
theorem effect_of_onceStep {rest : List Frame} {l : OnceLoc}
    (hframes : (s.thread t).frames = .once l :: rest) (h : s.onceStep t rest l = some s') :
  Effect s s' t
  := by
  have hothers : ∀ {th : Thread} {c : Control} {log : List (Event T)} (u : T), u ≠ t →
      (s.set t th c log).thread u = s.thread u := by
    intro th c log u hu
    simp [hu]
  cases l with
  | test =>
      by_cases hrun : s.control.run = 0
      · simp only [State.onceStep, pthreadOnce, hrun, if_true] at h
        obtain rfl := Option.some.inj h
        apply Effect.of_setThread
        rw [hframes]
        rfl
      · simp only [State.onceStep, pthreadOnce, hrun, if_false] at h
        obtain rfl := Option.some.inj h
        refine .late hrun rfl rfl ?_
        intro u
        by_cases hu : u = t
        · subst hu
          rw [hframes]
          simp [critical, OnceLoc.critical]
        · rw [hothers u hu]
  | lock =>
      by_cases hlock : s.control.lock = true
      · simp [State.onceStep, pthreadOnce, hlock] at h
      · simp only [State.onceStep, pthreadOnce, hlock] at h
        obtain rfl := Option.some.inj h
        refine .lock (by simpa using hlock) rfl rfl ?_ hothers
        rw [hframes]
        simp [critical, OnceLoc.critical]
  | inner =>
      have hbefore : critical (s.thread t).frames = .inner :: critical rest := by
        rw [hframes]
        rfl
      by_cases hrun : s.control.run = 0
      · simp only [State.onceStep, pthreadOnce, hrun, if_true] at h
        obtain rfl := Option.some.inj h
        refine .move .inner .routine (critical rest) rfl hbefore ?_ hothers ?_
        · simp [critical, OnceLoc.critical]
        · simp [hrun]
      · simp only [State.onceStep, pthreadOnce, hrun, if_false] at h
        obtain rfl := Option.some.inj h
        refine .move .inner .unlock (critical rest) rfl hbefore ?_ hothers ?_
        · simp [critical, OnceLoc.critical]
        · simp [hrun]
  | routine => cases h
  | store =>
      obtain rfl := Option.some.inj h
      refine .move .store .unlock (critical rest) rfl ?_ ?_ hothers ?_
      · rw [hframes]
        rfl
      · simp [critical, OnceLoc.critical]
      · simp
  | unlock =>
      obtain rfl := Option.some.inj h
      refine .unlock (critical rest) rfl rfl ?_ ?_ hothers
      · rw [hframes]
        rfl
      · simp

/-- Every step of the system is one of the effects. -/
theorem effect_of_step {a : Act T} (h : s.step t a = some s') :
  Effect s s' t
  := by
  unfold State.step at h
  split at h
  · rename_i rest hframes
    exact effect_of_programStep hframes h
  · rename_i l rest choice hframes
    exact effect_of_onceStep hframes h
  · rename_i l rest choice hframes
    obtain ⟨th, hexit, rfl⟩ := Option.map_eq_some_iff.mp h
    apply Effect.of_setThread
    rw [critical_of_exitStep hexit, hframes, critical]
  · cases h

/-! ### The invariant -/

/-- A thread that has the lock is the one that the phase is about. -/
theorem Held.eq_of_critical {p : Option (T × OnceLoc)} (h : Held s p) {l : OnceLoc}
    {rest : List OnceLoc} (ht : critical (s.thread t).frames = l :: rest) :
  p = some (t, l) ∧ rest = []
  := by
  cases h with
  | free lock all =>
      rw [all t] at ht
      cases ht
  | @held u l' lock here others =>
      by_cases hu : t = u
      · subst hu
        rw [here] at ht
        obtain ⟨rfl, rfl⟩ := List.cons.inj ht
        exact ⟨rfl, rfl⟩
      · rw [others t hu] at ht
        cases ht

omit [DecidableEq T] in
theorem Held.congr {p : Option (T × OnceLoc)} (h : Held s p)
    (hlock : s'.control.lock = s.control.lock)
    (hsame : ∀ u, critical (s'.thread u).frames = critical (s.thread u).frames) :
  Held s' p
  := by
  cases h with
  | free lock all => exact .free (by rw [hlock, lock]) fun u => by rw [hsame, all]
  | held lock here others =>
      refine .held (by rw [hlock, lock]) (by rw [hsame, here]) ?_
      intro u hu
      rw [hsame, others u hu]

omit [DecidableEq T] in
/-- When `run` is set, the one init routine has returned. -/
theorem Phase.completed {run : Int} {log : List (Event T)} {p : Option (T × OnceLoc)}
    (h : Phase run log p) (hrun : run ≠ 0) :
  Completed log
  := by
  unfold Phase at h
  split at h
  all_goals grind

omit [DecidableEq T] in
theorem Phase.returned {run : Int} {log : List (Event T)} {p : Option (T × OnceLoc)}
    (h : Phase run log p) (hrun : run ≠ 0) (t : T) :
  Phase run (.returned t :: log) p
  := by
  have hcompleted := (h.completed hrun).cons (.returned t)
  unfold Phase at h ⊢
  split at h
  all_goals grind [starts]

omit [DecidableEq T] in
/-- A thread takes the lock that is free. -/
theorem Held.take {p : Option (T × OnceLoc)} (h : Held s p) (hfree : s.control.lock = false)
    (hlock : s'.control.lock = true)
    (hhere : critical (s'.thread t).frames = .inner :: critical (s.thread t).frames)
    (hothers : ∀ u, u ≠ t → s'.thread u = s.thread u) :
  p = none ∧ Held s' (some (t, .inner))
  := by
  cases h with
  | held lock => simp [hfree] at lock
  | free lock all =>
      refine ⟨rfl, .held hlock ?_ ?_⟩
      · rw [hhere, all]
      · intro u hu
        rw [hothers u hu, all]

/-- The thread that has the lock goes on. -/
theorem Held.move {p : Option (T × OnceLoc)} (h : Held s p) {l l' : OnceLoc}
    {rest : List OnceLoc} (hlock : s'.control.lock = s.control.lock)
    (hbefore : critical (s.thread t).frames = l :: rest)
    (hafter : critical (s'.thread t).frames = l' :: rest)
    (hothers : ∀ u, u ≠ t → s'.thread u = s.thread u) :
  p = some (t, l) ∧ Held s' (some (t, l'))
  := by
  obtain ⟨rfl, rfl⟩ := h.eq_of_critical hbefore
  cases h with
  | held locked here rest =>
      refine ⟨rfl, .held (by rw [hlock, locked]) hafter ?_⟩
      intro u hu
      rw [hothers u hu, rest u hu]

/-- The thread that has the lock drops it. -/
theorem Held.release {p : Option (T × OnceLoc)} (h : Held s p) {l : OnceLoc}
    {rest : List OnceLoc} (hlock : s'.control.lock = false)
    (hbefore : critical (s.thread t).frames = l :: rest)
    (hafter : critical (s'.thread t).frames = rest)
    (hothers : ∀ u, u ≠ t → s'.thread u = s.thread u) :
  p = some (t, l) ∧ Held s' none
  := by
  obtain ⟨rfl, rfl⟩ := h.eq_of_critical hbefore
  cases h with
  | held locked here rest =>
      refine ⟨rfl, .free hlock ?_⟩
      intro u
      by_cases hu : u = t
      · rw [hu, hafter]
      · rw [hothers u hu, rest u hu]

omit [DecidableEq T] in
/-- What the step of the thread that has the lock makes of `run` and of the log. -/
theorem Phase.move {run run' : Int} {log log' : List (Event T)} {l l' : OnceLoc}
    (h : Phase run log (some (t, l)))
    (step : (l = .inner ∧ l' = .routine ∧ run = 0 ∧ run' = 0 ∧ log' = .started t :: log)
      ∨ (l = .inner ∧ l' = .unlock ∧ run ≠ 0 ∧ run' = run ∧ log' = log)
      ∨ (l = .routine ∧ l' = .store ∧ run' = run ∧ log' = .finished t :: log)
      ∨ (l = .store ∧ l' = .unlock ∧ run' = 1 ∧ log' = log)) :
  Phase run' log' (some (t, l'))
  := by
  rcases step with ⟨rfl, rfl, hrun, rfl, rfl⟩ | ⟨rfl, rfl, hrun, rfl, rfl⟩ |
    ⟨rfl, rfl, rfl, rfl⟩ | ⟨rfl, rfl, rfl, rfl⟩
  · -- the init routine is called
    rcases h with ⟨-, hstarts, hun⟩ | ⟨hne, -⟩
    · refine ⟨rfl, by rw [starts, hstarts], by simp, ?_⟩
      intro u hu
      apply hun u
      simpa using hu
    · exact (hne hrun).elim
  · rcases h with ⟨hzero, -⟩ | ⟨hne, hstarts, hcompleted⟩
    · exact (hrun hzero).elim
    · exact ⟨hne, hstarts, hcompleted⟩
  · obtain ⟨hrun, hstarts, hstarted, -⟩ := h
    exact ⟨hrun, hstarts, t, [], log, rfl, hstarted⟩
  · obtain ⟨-, hstarts, hcompleted⟩ := h
    exact ⟨by decide, hstarts, hcompleted⟩

theorem Inv.step (hs : Inv s) (h : Effect s s' t) :
  Inv s'
  := by
  obtain ⟨⟨p, hheld, hphase⟩, hordered⟩ := hs
  cases h with
  | quiet control log same =>
      refine ⟨⟨p, hheld.congr (by rw [control]) same, ?_⟩, ?_⟩
      · rw [control, log]
        exact hphase
      · rw [log]
        exact hordered
  | late run control log same =>
      refine ⟨⟨p, hheld.congr (by rw [control]) same, ?_⟩, ?_⟩
      · rw [control, log]
        exact hphase.returned run t
      · rw [log]
        apply hordered.cons
        intro _ _
        exact hphase.completed run
  | lock free control log here others =>
      obtain ⟨rfl, hheld'⟩ := hheld.take free (by rw [control]) here others
      refine ⟨⟨_, hheld', ?_⟩, ?_⟩
      · rw [control, log]
        exact hphase
      · rw [log]
        exact hordered
  | move l l' rest lock before after others step =>
      obtain ⟨rfl, hheld'⟩ := hheld.move lock before after others
      refine ⟨⟨_, hheld', hphase.move step⟩, ?_⟩
      rcases step with ⟨-, -, -, -, hlog⟩ | ⟨-, -, -, -, hlog⟩ | ⟨-, -, -, hlog⟩ |
        ⟨-, -, -, hlog⟩
      · rw [hlog]
        apply hordered.cons
        simp
      · rw [hlog]
        exact hordered
      · rw [hlog]
        apply hordered.cons
        simp
      · rw [hlog]
        exact hordered
  | unlock rest control log before after others =>
      obtain ⟨rfl, hheld'⟩ := hheld.release (by rw [control]) before after others
      obtain ⟨hrun, hstarts, hcompleted⟩ := hphase
      refine ⟨⟨none, hheld', ?_⟩, ?_⟩
      · rw [control, log]
        exact Or.inr ⟨hrun, hstarts, hcompleted.cons _⟩
      · rw [log]
        apply hordered.cons
        intro _ _
        exact hcompleted

/-- The invariant holds in every state of every run. -/
theorem inv_of_run (h : Run (State.init : State T) s) :
  Inv s
  := by
  induction h with
  | refl => exact inv_init
  | tail _ hstep ih =>
      obtain ⟨t, a, hstep⟩ := hstep
      exact ih.step (effect_of_step hstep)

/-! ### The init routine -/

/-- In every run of any number of threads an init routine is started at most once, and a call of
`pthread_once` returns only after that one routine has returned. -/
theorem routine_once (h : Run (State.init : State T) s) :
  starts s.log ≤ 1 ∧ Ordered s.log
  := by
  obtain ⟨⟨p, -, hphase⟩, hordered⟩ := inv_of_run h
  refine ⟨?_, hordered⟩
  unfold Phase at hphase
  split at hphase
  all_goals omega

/-- Two threads pass the test without the lock; the second one finds `run` set when it has the
lock. -/
theorem routine_once_two :
  ∃ s : State Nat, Run .init s
    ∧ s.log = [.returned 1, .returned 0, .finished 0, .started 0]
    ∧ starts s.log ≤ 1 ∧ Ordered s.log
  := by
  have hrun := run_of_execute (s := State.init (T := Nat))
    [(0, .once), (1, .once), (0, .go false), (1, .go false), (0, .go false), (0, .go false),
      (0, .leave), (0, .go false), (0, .go false), (1, .go false), (1, .go false),
      (1, .go false)] rfl
  exact ⟨_, hrun, rfl, routine_once hrun⟩

/-! ### The end of a thread in the init routine -/

/-- The thread `t` was terminated in an init routine that `pthread_once` had called, and is
halted. -/
def HaltedInRoutine (s : State T) (t : T) : Prop :=
  ∃ rest, (s.thread t).frames = .exit .halted :: rest ∧ .once .routine ∈ rest

omit [DecidableEq T] in
theorem routine_mem_critical {frames : List Frame} (h : .once .routine ∈ frames) :
  .routine ∈ critical frames
  := by
  induction frames with
  | nil => cases h
  | cons f rest ih =>
      cases f with
      | program => exact ih (by simpa using h)
      | exit l => exact ih (by simpa using h)
      | once l =>
          cases l
          all_goals simp_all [critical, OnceLoc.critical]

theorem frames_of_programStep {u : T} {rest : List Frame} {a : Act T}
    (h : s.programStep u rest a = some s') (ht : t ≠ u) :
  (s'.thread t).frames = (s.thread t).frames
  := by
  cases a with
  | leave =>
      obtain ⟨th, -, rfl⟩ := Option.map_eq_some_iff.mp h
      simp [ht]
  | testcancel =>
      simp only [State.programStep] at h
      split at h
      all_goals
        obtain rfl := Option.some.inj h
        simp [State.setThread, ht]
  | cancel target =>
      obtain rfl := Option.some.inj h
      by_cases htarget : t = target
      · simp [State.setThread, htarget]
      · simp [State.setThread, htarget]
  | go choice => cases h
  | _ =>
      obtain rfl := Option.some.inj h
      simp [State.setThread, ht]

/-- A step leaves the stacks of the other threads as they are. -/
theorem frames_of_step {u : T} {a : Act T} (h : s.step u a = some s') (ht : t ≠ u) :
  (s'.thread t).frames = (s.thread t).frames
  := by
  unfold State.step at h
  split at h
  · exact frames_of_programStep h ht
  · simp only [State.onceStep] at h
    split at h
    · cases h
    all_goals
      obtain rfl := Option.some.inj h
      simp [ht]
  · obtain ⟨th, -, rfl⟩ := Option.map_eq_some_iff.mp h
    simp [State.setThread, ht]
  · cases h

/-- A halted thread stays as it is. -/
theorem HaltedInRoutine.run (ht : HaltedInRoutine s t) (h : Run s s') :
  HaltedInRoutine s' t
  := by
  induction h with
  | refl => exact ht
  | tail _ hstep ih =>
      obtain ⟨u, a, hstep⟩ := hstep
      obtain ⟨rest, hframes, hroutine⟩ := ih
      refine ⟨rest, ?_, hroutine⟩
      by_cases hu : t = u
      · subst hu
        cases a <;> simp [State.step, hframes, Thread.exitStep] at hstep
      · rw [frames_of_step hstep hu, hframes]

/-- While the init routine runs, or after its thread was terminated in it, the lock is held,
`run` is `0`, and no call of `pthread_once` has returned. -/
theorem Inv.of_haltedInRoutine (hs : Inv s) (ht : HaltedInRoutine s t) :
  s.control = ⟨0, true⟩ ∧ starts s.log = 1 ∧ ∀ u, .returned u ∉ s.log
  := by
  obtain ⟨⟨p, hheld, hphase⟩, hordered⟩ := hs
  obtain ⟨rest, hframes, hroutine⟩ := ht
  have hmem : .routine ∈ critical (s.thread t).frames := by
    rw [hframes]
    exact routine_mem_critical (List.mem_cons_of_mem _ hroutine)
  cases hheld with
  | free lock all => simp [all t] at hmem
  | @held h l lock here others =>
      have hth : t = h := by
        by_contra hne
        simp [others t hne] at hmem
      subst hth
      obtain rfl : .routine = l := by simpa [here] using hmem
      obtain ⟨hrun, hstarts, -, hun⟩ := hphase
      refine ⟨?_, hstarts, hordered.not_returned hun⟩
      rw [← hrun, ← lock]

/-- When a thread was terminated in the init routine, the control is never again as if its call
had not been made: `run` is `0` and the lock is held for ever, so that no later call runs the
routine, gets past the lock or returns. -/
theorem control_of_haltedInRoutine (h : Run State.init s) (ht : HaltedInRoutine s t) :
  s.control ≠ .init ∧ ∀ s', Run s s' → s'.control = ⟨0, true⟩ ∧ starts s'.log = 1
    ∧ (∀ u, .returned u ∉ s'.log) ∧ ∀ u rest choice, (s'.thread u).frames = .once .lock :: rest →
      s'.step u (.go choice) = none
  := by
  constructor
  · rw [((inv_of_run h).of_haltedInRoutine ht).1]
    decide
  · intro s' hrun
    obtain ⟨hcontrol, hstarts, hreturned⟩ :=
      (inv_of_run (h.trans hrun)).of_haltedInRoutine (ht.run hrun)
    refine ⟨hcontrol, hstarts, hreturned, ?_⟩
    intro u rest choice hframes
    simp [State.step, hframes, State.onceStep, pthreadOnce, hcontrol]

/-- Thread `1` cancels thread `0`, which acts on it in the init routine and is halted; thread `1`
then waits for the lock. -/
def cancelledRun : List (Nat × Act Nat) :=
  [(0, .once), (0, .go false), (0, .go false), (0, .go false), (1, .cancel 0), (0, .testcancel),
    (0, .go false), (0, .go false), (0, .go false), (0, .go false), (0, .go false),
    (0, .go false), (1, .once), (1, .go false)]

theorem frames_of_cancelledRun :
  ∃ s, State.init.execute cancelledRun = some s
    ∧ (s.thread 0).frames = [.exit .halted, .program, .once .routine, .program]
    ∧ (s.thread 1).frames = [.once .lock, .program] ∧ s.control = ⟨0, true⟩
  := by
  have h : (State.init.execute cancelledRun).map
        (fun s => ((s.thread 0).frames, (s.thread 1).frames, s.control))
      = some ([.exit .halted, .program, .once .routine, .program], [.once .lock, .program],
        ⟨0, true⟩) := by
    decide +kernel
  obtain ⟨s, hs, heq⟩ := Option.map_eq_some_iff.mp h
  obtain ⟨h₀, h⟩ := Prod.mk.inj heq
  obtain ⟨h₁, hcontrol⟩ := Prod.mk.inj h
  exact ⟨s, hs, h₀, h₁, hcontrol⟩

theorem control_of_haltedInRoutine_cancelled :
  ∃ s : State Nat, Run .init s ∧ HaltedInRoutine s 0 ∧ s.control ≠ .init
    ∧ s.step 1 (.go false) = none
  := by
  obtain ⟨s, hs, h₀, h₁, -⟩ := frames_of_cancelledRun
  have hrun := run_of_execute cancelledRun hs
  have hhalted : HaltedInRoutine s 0 := ⟨_, h₀, by simp⟩
  obtain ⟨hnot, hforever⟩ := control_of_haltedInRoutine hrun hhalted
  obtain ⟨-, -, -, hspin⟩ := hforever s .refl
  exact ⟨s, hrun, hhalted, hnot, hspin 1 [.program] false h₁⟩

/-- The lock stays held when a thread is cancelled in the init routine. -/
theorem not_reset_of_cancelled :
  ¬ ∀ (s : State Nat) t, Run .init s → HaltedInRoutine s t → s.control = .init
  := by
  intro h
  obtain ⟨s, hs, h₀, -, hcontrol⟩ := frames_of_cancelledRun
  have := h s 0 (run_of_execute cancelledRun hs) ⟨_, h₀, by simp⟩
  rw [hcontrol] at this
  cases this

end LibPthread.Once
