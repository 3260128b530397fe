import LibPthread.Thread.Exit

/-!
# The value that `pthread_join` delivers

`__pthread_exit` decides on the status in its section under `state_lock`: it stores its argument,
or `PTHREAD_CANCELED` if cancellation is enabled and a request is pending then, also if it was the
program that called it. `pthread_join` delivers what has been stored.
-/

open Concurrency

namespace LibPthread.Thread.Exit

/-- The events of a run. -/
abbrev Log (T D V : Type) := List (Event T (Loc D V) Ret)

section Definitions

variable {T D V : Type}

/-- The thread `u` has made the call of `pthread_exit`. -/
def Entered (u : T) (call : Call) (log : Log T D V) : Prop :=
  ∃ l, Event.goto u l (.lock (.exitDisable call)) ∈ log

/-- The call of `pthread_exit` has stored a status. -/
def Stored (u : T) (call : Call) (log : Log T D V) : Prop :=
  Event.goto u (.inside (.exitState call)) .exitHalt ∈ log

/-- The status is the argument of the call, or `PTHREAD_CANCELED` if the call acts on a
cancellation. -/
def Call.Delivers (call : Call) (status : Status) : Prop :=
  status = call.status ∨ (status = .canceled ∧ call.caller = .cancellation)

/-- The thread `u` has left with the status. -/
def Exited (u : T) (status : Status) (log : Log T D V) : Prop :=
  ∃ call, Entered u call log ∧ Stored u call log ∧ call.Delivers status

/-- The thread has left with the status, if there is one. -/
def Left (u : T) (log : Log T D V) (x : Option Status) : Prop :=
  ∀ status ∈ x, Exited u status log

/-- When a call returned `0` with a status, the thread `u` had left with that status. -/
def Delivered (u : T) (log : Log T D V) : Prop :=
  ∀ t l status before, Event.ret t (.call l) (.call (.success (some status))) :: before <:+ log →
    Exited u status before

/-- The program itself calls `pthread_exit`, and not with `PTHREAD_CANCELED`. -/
def Call.ByProgram (call : Call) : Prop :=
  call.caller = .program ∧ call.status ≠ .canceled

instance (call : Call) : Decidable call.ByProgram :=
  inferInstanceAs (Decidable (_ ∧ _))

/-- The call of `pthread_exit` whose section under `state_lock` is next. -/
def Loc.stores : Loc D V → Option Call
  | .inside (.exitState e) => some e
  | _ => none

/-- When the program itself has called `pthread_exit`, no request is pending with cancellation
enabled in its section under `state_lock`. -/
def NotCancelled (u : T) (p : Nat) (s : Sys T D V) : Label T (Loc D V) → Prop
  | .call _ _ => True
  | .act t _ => t = u → s.shared.redirected = false → ∀ call ∈ (s.loc u).bind Loc.stores,
    call.ByProgram → s.shared.cancelled p = false

instance [DecidableEq T] (u : T) (p : Nat) (s : Sys T D V) :
    (a : Label T (Loc D V)) → Decidable (NotCancelled u p s a)
  | .call _ _ => .isTrue trivial
  | .act _ _ => inferInstanceAs (Decidable (_ → _ → ∀ call ∈ (s.loc u).bind Loc.stores, _ → _))

end Definitions

/-! ### The calls of `pthread_exit` -/

section Carries

variable {D V : Type} {p : Nat} {l l' : Loc D V} {s s' : Shared D V} {r : Ret} {call : Call}

/-- The thread is in the call of `pthread_exit`, or runs a function that the call has called. -/
def Carries (now : Option Call) (code : Code) (call : Call) : Prop :=
  now = some call ∨ ∃ f ∈ code.running, f.back.exits = some call

theorem Moves.carries_goto (h : Moves p l s (.goto s' l')) (hc : Carries l'.exits s'.code call) :
  Carries l.exits s.code call ∨ l' = .lock (.exitDisable call)
  := by
  cases h with
  | stay _ hcode _ hexits _ _ =>
      left
      rw [hcode] at hc
      obtain hexits | hexits := hexits
      · rwa [hexits] at hc
      · rw [hexits] at hc
        exact hc.imp_left fun h => by cases h
  | exit _ _ _ hcode _ =>
      rw [hcode] at hc
      obtain hc | ⟨f, hf, -⟩ := hc
      · obtain rfl := Option.some.inj hc
        exact .inr rfl
      · cases hf
  | join hplace hrunning =>
      subst hplace
      simp only [Carries, Shared.withCode_code, hrunning, List.mem_cons] at hc ⊢
      grind [Loc.exits]
  | joinPop hplace hrunning =>
      subst hplace
      simp only [Carries, Shared.withCode_code, hrunning, List.mem_cons] at hc ⊢
      grind [Loc.exits]
  | pop hplace hrunning =>
      subst hplace
      simp only [Carries, Shared.withCode_code, hrunning, List.mem_cons] at hc ⊢
      grind [Loc.exits]
  | executed hplace hrunning =>
      subst hplace
      simp only [Carries, Shared.withCode_code, hrunning, List.mem_cons] at hc ⊢
      grind [Loc.exits]
  | handled hplace hrunning =>
      subst hplace
      simp only [Carries, Shared.withCode_code, hrunning, List.mem_cons] at hc ⊢
      grind [Loc.exits, Back.exits]
  | destroyed hplace hrunning =>
      subst hplace
      simp only [Carries, Shared.withCode_code, hrunning, List.mem_cons] at hc ⊢
      grind [Loc.exits, Back.exits]
  | unlock hplace _ _ =>
      subst hplace
      exact .inl hc
  | unlocked hplace =>
      subst hplace
      exact .inl hc
  | next hplace _ =>
      subst hplace
      exact .inl hc
  | ended hplace _ =>
      subst hplace
      exact .inl hc

theorem Moves.carries_ret (h : Moves p l s (.ret s' r)) (hc : Carries none s'.code call) :
  Carries l.exits s.code call
  := by
  obtain hc | ⟨f, hf, hback⟩ := hc
  · cases hc
  · cases h with
    | back _ hcode _ _ _ =>
        rw [hcode] at hf
        exact .inr ⟨f, hf, hback⟩
    | push hplace hrunning =>
        subst hplace
        simp only [Carries, Shared.withCode_code, hrunning, List.mem_cons] at hf ⊢
        grind
    | execute hplace hrunning =>
        subst hplace
        simp only [Carries, Shared.withCode_code, hrunning, List.mem_cons] at hf ⊢
        grind [Back.exits]
    | unlink hplace => exact .inr ⟨f, hf, hback⟩
    | handler hplace _ _ =>
        subst hplace
        obtain rfl := List.mem_singleton.mp hf
        exact .inl hback
    | destructor hplace hcode _ _ =>
        subst hplace
        rw [hcode] at hf
        obtain rfl := List.mem_singleton.mp hf
        exact .inl hback

/-- The section of `__pthread_exit` under `state_lock`. -/
theorem exitState_goto {timeout : Bool}
    (h : selfStep p (.inside (.exitState call)) timeout s = .goto s' l') :
  ((s'.task.structs p).state ≠ .exited ∧ s'.task = s.task) ∨
    (l' = .exitHalt ∧ s'.task.table = s.task.table ∧
      (s'.task.structs p).thread = (s.task.structs p).thread ∧
      (s'.task.structs p).status = if s.cancelled p then .canceled else call.status)
  := by
  simp only [selfStep, sectionStep, Reclaim.exitSection, Shared.release_task] at h
  cases hstate : (s.task.structs p).state with
  | joinable =>
      rw [hstate] at h
      cases h
      right
      refine ⟨rfl, rfl, ?_, ?_⟩
      · simp [Task.broadcast]
      · simp [Task.broadcast, Shared.cancelled]
  | detached =>
      rw [hstate] at h
      cases h
      left
      refine ⟨?_, rfl⟩
      rw [Shared.withTask_task, hstate]
      decide
  | exited =>
      rw [hstate] at h
      cases h
  | terminated =>
      rw [hstate] at h
      cases h

end Carries

/-! ### Runs -/

section Runs

variable {T D V : Type} [DecidableEq T] {u t : T} {p thread : Nat} {s s' : Sys T D V}
  {a : Label T (Loc D V)} {e : Event T (Loc D V) Ret} {log : Log T D V} {status : Status}

/-- The invariant: what has been stored and what is about to be returned is what the thread has
left with. -/
structure Inv (u : T) (p thread : Nat) (s : Sys T D V) : Prop where
  sound : Sound (Left u s.log) p thread s.shared.task
  entered : ∀ call, Carries ((s.loc u).bind Loc.exits) s.shared.code call → Entered u call s.log
  control : ∀ v k, s.loc v = some (.call k) → Awaits (Left u s.log) p k
  delivered : Delivered u s.log

omit [DecidableEq T] in
theorem Entered.cons {call : Call} (h : Entered u call log) :
  Entered u call (e :: log)
  := by
  obtain ⟨l, hl⟩ := h
  exact ⟨l, List.mem_cons_of_mem _ hl⟩

omit [DecidableEq T] in
theorem Exited.cons (h : Exited u status log) :
  Exited u status (e :: log)
  := by
  obtain ⟨call, hentered, hstored, hdelivers⟩ := h
  exact ⟨call, hentered.cons, List.mem_cons_of_mem _ hstored, hdelivers⟩

omit [DecidableEq T] in
theorem Left.cons {x : Option Status} (h : Left u log x) :
  Left u (e :: log) x
  := fun status hstatus => (h status hstatus).cons

omit [DecidableEq T] in
theorem Delivered.cons (h : Delivered u log)
    (he : ∀ t l status, e = .ret t (.call l) (.call (.success (some status))) →
      Exited u status log) :
  Delivered u (e :: log)
  := by
  intro t l status before hsuffix
  obtain hsame | hsuffix := List.suffix_cons_iff.mp hsuffix
  · obtain ⟨rfl, rfl⟩ := List.cons.inj hsame
    exact he t l status rfl
  · exact h t l status before hsuffix

/-- A step of a thread keeps the invariant. -/
theorem Inv.of_step {o : Option (Loc D V)} (hs : Inv u p thread s)
    (hlog : s'.log = e :: s.log) (hloc : s'.loc = Function.update s.loc t o)
    (hsound : Sound (Left u (e :: s.log)) p thread s'.shared.task)
    (hentered : ∀ call, Carries ((s'.loc u).bind Loc.exits) s'.shared.code call →
      Entered u call (e :: s.log))
    (hcontrol : ∀ k, o = some (.call k) → Awaits (Left u s.log) p k)
    (hdelivered : ∀ t l status, e = .ret t (.call l) (.call (.success (some status))) →
      Exited u status s.log) :
  Inv u p thread s'
  := by
  constructor
  · rw [hlog]
    exact hsound
  · rw [hlog]
    exact hentered
  · intro v k hk
    rw [hlog]
    rw [hloc] at hk
    by_cases hv : v = t
    · subst hv
      rw [Function.update_self] at hk
      exact (hcontrol k hk).mono fun _ => Left.cons
    · rw [Function.update_of_ne hv] at hk
      exact (hs.control v k hk).mono fun _ => Left.cons
  · rw [hlog]
    exact hs.delivered.cons hdelivered

omit [DecidableEq T] in
theorem entry_call {P : Option Status → Prop} {k : Reclaim.Loc}
    (h : entry (.call k : Loc D V) = true) :
  Awaits P p k
  := by
  cases k with
  | join => exact .join
  | detach => exact .detach
  | _ => cases h

theorem entry_exits {l : Loc D V} (h : entry l = true) :
  l.exits = none
  := by
  cases l with
  | lock x => cases x <;> first | rfl | cases h
  | _ => first | rfl | cases h

omit [DecidableEq T] in
/-- The section under `state_lock`. -/
theorem Inv.state {c : Bool} {call : Call} {x : Shared D V} {l' : Loc D V}
    (hs : Inv u p thread s) (hl : s.loc u = some (.inside (.exitState call)))
    (hG : call.ByProgram → s.shared.cancelled p = false)
    (h : selfStep p (.inside (.exitState call)) c s.shared = .goto x l') :
  Sound (Left u (.goto u (.inside (.exitState call)) l' :: s.log)) p thread x.task
  := by
  obtain ⟨hstate, htask⟩ | ⟨rfl, htable, hthread, hstatus⟩ := exitState_goto h
  · rw [htask]
    exact (hs.sound.mono fun _ => Left.cons)
  · have hentered : Entered u call s.log := hs.entered call (.inl (by rw [hl]; rfl))
    constructor
    · rw [htable]
      exact hs.sound.slot
    · rw [hthread, hs.sound.thread]
    · intro _
      refine ⟨fun x hx => (by cases hx), fun x hx => ?_⟩
      obtain rfl := Option.mem_some_iff.mp hx
      refine ⟨call, hentered.cons, List.mem_cons_self, ?_⟩
      rw [hstatus]
      split
      · rename_i hcancelled
        by_cases hprogram : call.ByProgram
        · rw [hG hprogram] at hcancelled
          cases hcancelled
        · rw [Call.ByProgram, not_and_or, not_not] at hprogram
          obtain hcaller | hcanceled := hprogram
          · cases hcall : call.caller with
            | program => exact absurd hcall hcaller
            | cancellation => exact .inr ⟨rfl, hcall⟩
          · exact .inl hcanceled.symm
      · exact .inl rfl

theorem Inv.self_goto {c : Bool} {x : Shared D V} {l l' : Loc D V} (hs : Inv u p thread s)
    (hl : s.loc u = some l) (hG : NotCancelled u p s (.act u c))
    (h : step u p thread u l c s.shared = .goto x l') :
  Inv u p thread (s.goto u l x l')
  := by
  obtain ⟨-, hexit⟩ | ⟨hredirected, hself⟩ := step_self_goto h
  · cases hexit
    refine hs.of_step rfl rfl (hs.sound.mono fun _ => Left.cons) ?_ (fun k hk => by cases hk)
      (fun t l status he => by cases he)
    intro call hcarries
    rw [State.goto_loc, Function.update_self] at hcarries
    obtain hcarries | ⟨f, hf, -⟩ := hcarries
    · cases hcarries
      exact ⟨l, List.mem_cons_self⟩
    · cases hf
  · have hmoves := Moves.of_eq hself
    refine hs.of_step rfl rfl ?_ ?_ ?_ (fun t l status he => by cases he)
    · rw [State.goto_shared]
      by_cases hstate : ∃ call, l = .inside (.exitState call)
      · obtain ⟨call, rfl⟩ := hstate
        refine hs.state hl (fun hprogram => ?_) hself
        apply hG rfl hredirected call _ hprogram
        rw [hl]
        rfl
      · exact (hs.sound.later (hmoves.task_goto.later hs.sound.thread
          fun call hcall => hstate ⟨call, hcall⟩)).mono fun _ => Left.cons
    · intro call hcarries
      rw [State.goto_loc, Function.update_self] at hcarries
      obtain hcarries | rfl := hmoves.carries_goto hcarries
      · apply (hs.entered call _).cons
        rw [hl]
        exact hcarries
      · exact ⟨l, List.mem_cons_self⟩
    · intro k hk
      obtain rfl := Option.some.inj hk
      cases hmoves with
      | stay _ _ hplace _ _ _ =>
          rw [selfStep_outside hplace.symm] at hself
          cases hself

theorem Inv.self_ret {c : Bool} {x : Shared D V} {l : Loc D V} {r : Ret} (hs : Inv u p thread s)
    (hl : s.loc u = some l) (h : step u p thread u l c s.shared = .ret x r) :
  Inv u p thread (s.ret u l x r)
  := by
  obtain ⟨-, hself⟩ := step_self_ret h
  have hmoves := Moves.of_eq hself
  have hstate : ∀ call, l ≠ .inside (.exitState call) := by
    rintro call rfl
    exact exitState_ne_ret hself
  refine hs.of_step rfl rfl ?_ ?_ (fun k hk => by cases hk) ?_
  · exact (hs.sound.later (hmoves.task_ret.later hs.sound.thread hstate)).mono fun _ => Left.cons
  · intro call hcarries
    rw [State.ret_loc, Function.update_self] at hcarries
    apply (hs.entered call _).cons
    rw [hl]
    exact hmoves.carries_ret hcarries
  · intro t k status he
    cases he
    rw [selfStep_outside rfl] at hself
    cases hself

theorem Inv.other_goto {c : Bool} {x : Shared D V} {l l' : Loc D V} (hs : Inv u p thread s)
    (ht : t ≠ u) (hl : s.loc t = some l) (h : step u p thread t l c s.shared = .goto x l') :
  Inv u p thread (s.goto t l x l')
  := by
  rw [step_other ht] at h
  obtain ⟨hlater, hcontrol⟩ := Exit.other_goto hs.sound (fun k hk => hs.control t k (hk ▸ hl)) h
  obtain ⟨-, -, hcode, -⟩ := other_goto_parts h
  refine hs.of_step rfl rfl ((hs.sound.later hlater).mono fun _ => Left.cons) ?_ ?_
    (fun t l status he => by cases he)
  · intro call hcarries
    rw [State.goto_loc, Function.update_of_ne ht.symm, State.goto_shared, hcode] at hcarries
    exact (hs.entered call hcarries).cons
  · intro k hk
    exact hcontrol k (Option.some.inj hk)

theorem Inv.other_ret {c : Bool} {x : Shared D V} {l : Loc D V} {r : Ret} (hs : Inv u p thread s)
    (ht : t ≠ u) (hl : s.loc t = some l) (h : step u p thread t l c s.shared = .ret x r) :
  Inv u p thread (s.ret t l x r)
  := by
  rw [step_other ht] at h
  obtain ⟨hlater, hexited⟩ := Exit.other_ret hs.sound (fun k hk => hs.control t k (hk ▸ hl)) h
  obtain ⟨-, -, hcode, -⟩ := other_ret_parts h
  refine hs.of_step rfl rfl ((hs.sound.later hlater).mono fun _ => Left.cons) ?_
    (fun k hk => by cases hk) ?_
  · intro call hcarries
    rw [State.ret_loc, Function.update_of_ne ht.symm, State.ret_shared, hcode] at hcarries
    exact (hs.entered call hcarries).cons
  · intro t' k status he
    cases he
    exact hexited k status rfl rfl status rfl

theorem Inv.step (hs : Inv u p thread s) (hG : NotCancelled u p s a)
    (h : (machine u p thread).Step s a s') :
  Inv u p thread s'
  := by
  cases h with
  | @call t l hidle hentry =>
      refine hs.of_step rfl rfl (hs.sound.mono fun _ => Left.cons) ?_ ?_
        (fun t l status he => by cases he)
      · intro call hcarries
        apply (hs.entered call _).cons
        by_cases ht : u = t
        · subst ht
          rw [State.call_loc, Function.update_self, Option.bind_some, entry_exits hentry]
            at hcarries
          rw [hidle]
          exact hcarries
        · rw [State.call_loc, Function.update_of_ne ht] at hcarries
          exact hcarries
      · intro k hk
        obtain rfl := Option.some.inj hk
        exact entry_call hentry
  | @goto t c l l' x hl hstep =>
      by_cases ht : t = u
      · subst ht
        exact hs.self_goto hl hG hstep
      · exact hs.other_goto ht hl hstep
  | @ret t c l x r hl hstep =>
      by_cases ht : t = u
      · subst ht
        exact hs.self_ret hl hstep
      · exact hs.other_ret ht hl hstep

/-- A joinable thread. -/
structure Joinable (L : Task) (p thread : Nat) : Prop where
  published : L.table.get thread = some (.entry p)
  thread : (L.structs p).thread = thread
  state : (L.structs p).state = .joinable

omit [DecidableEq T] in
theorem Inv.init {L : Task} {S : Key.Tsd D V} (hL : Joinable L p thread) :
  Inv u p thread (start L S)
  := by
  constructor
  · refine ⟨.inl hL.published, hL.thread, fun h => ?_⟩
    rw [start, State.idle_shared, hL.state] at h
    cases h
  · intro call hcarries
    obtain hcarries | ⟨f, hf, hback⟩ := hcarries
    · cases hcarries
    · obtain rfl := List.mem_singleton.mp hf
      cases hback
  · intro v k hk
    cases hk
  · intro t l status before h
    cases List.suffix_nil.mp h

/-- `pthread_join` delivers the exit value, for every interleaving of a joinable thread with
joiners and cancellers, if no request is pending with cancellation enabled when a call of
`pthread_exit` that the program makes reaches its section under `state_lock`. -/
theorem join_delivers {L : Task} {S : Key.Tsd D V} (hL : Joinable L p thread)
    (hs : (machine u p thread).Reach (NotCancelled u p) (start L S) s) :
  Delivered u s.log
  := by
  have hinv : Inv u p thread s := by
    apply hs.invariant (Inv.init hL)
    intro s a s' _ hs hG hstep
    exact hs.step hG hstep
  exact hinv.delivered

/-- The calls of `pthread_exit` by the thread `u`, the latest first. -/
def exitCalls (u : T) : Log T D V → List Call
  | .goto t _ (.lock (.exitDisable call)) :: log =>
    if t = u then call :: exitCalls u log else exitCalls u log
  | _ :: log => exitCalls u log
  | [] => []

theorem mem_exitCalls {call : Call} (h : Entered u call log) :
  call ∈ exitCalls u log
  := by
  obtain ⟨l, hl⟩ := h
  induction log with
  | nil => cases hl
  | cons e log ih =>
      obtain rfl | hl := List.mem_cons.mp hl
      · rw [exitCalls, if_pos rfl]
        exact List.mem_cons_self
      · have hcall := ih hl
        rw [exitCalls.eq_def]
        split
        · rename_i heq
          cases heq
          split
          · exact List.mem_cons_of_mem _ hcall
          · exact hcall
        · rename_i heq
          cases heq
          exact hcall
        · rename_i heq
          cases heq

/-- The status of the call that has just returned. -/
def justJoined : Log T D V → Option Status
  | .ret _ (.call _) (.call (.success status)) :: _ => status
  | _ => none

omit [DecidableEq T] in
theorem of_justJoined (h : justJoined log = some status) :
  ∃ t l before, log = Event.ret t (.call l) (.call (.success (some status))) :: before
  := by
  rw [justJoined.eq_def] at h
  split at h
  · subst h
    exact ⟨_, _, _, rfl⟩
  · cases h

theorem joinable_enabledThread :
  Joinable enabledThread 0 1
  := by
  constructor <;> decide

/-- Thread `t` calls `pthread_exit (7)`, and is halted. -/
def exits {T : Type} (t : T) : List (Label T (Loc Unit Unit)) :=
  .call t (.exit (.value 7)) :: List.replicate 10 (.act t false)

/-- Thread `u` calls `pthread_join` after thread `t` has left. -/
def joins {T : Type} (u : T) : List (Label T (Loc Unit Unit)) :=
  .call u (.call .join) :: List.replicate 13 (.act u false)

theorem join_delivers_joins :
  ∃ s : Sys (Fin 2) Unit Unit,
    (machine 0 0 1).Reach (NotCancelled 0 0) (start enabledThread noData) s ∧
      justJoined s.log = some (.value 7) ∧ Delivered 0 s.log
  := by
  obtain ⟨s, hs, hp⟩ := Machine.exists_reach_of_run (M := machine (0 : Fin 2) 0 1)
    (G := NotCancelled 0 0) (s := start enabledThread noData) (exits (0 : Fin 2) ++ joins 1)
    (fun s => justJoined s.log = some (.value 7)) (by decide +kernel)
  simp only [decide_eq_true_eq] at hp
  exact ⟨s, hs, hp, join_delivers joinable_enabledThread hs⟩

/-- Thread `u` cancels thread `t`, with cancellation deferred. -/
def cancels {T : Type} (u : T) : List (Label T (Loc Unit Unit)) :=
  [.call u .cancel, .act u false, .act u false]

/-- A request is pending when the thread calls `pthread_exit (7)`, which is its only call, and
`pthread_join` delivers `PTHREAD_CANCELED`. -/
theorem join_delivers_canceled :
  ∃ s : Sys (Fin 2) Unit Unit,
    (machine 0 0 1).Reach (fun _ _ => True) (start enabledThread noData) s ∧
      Joinable enabledThread 0 1 ∧ justJoined s.log = some .canceled ∧
      exitCalls 0 s.log = [⟨.value 7, .program⟩] ∧ ¬ Delivered 0 s.log
  := by
  obtain ⟨s, hs, hp⟩ := Machine.exists_reach_of_run (M := machine (0 : Fin 2) 0 1)
    (G := fun _ _ => True) (s := start enabledThread noData)
    (cancels (1 : Fin 2) ++ exits 0 ++ joins 1)
    (fun s => justJoined s.log = some .canceled ∧ exitCalls 0 s.log = [⟨.value 7, .program⟩])
    (by decide +kernel)
  simp only [decide_eq_true_eq] at hp
  refine ⟨s, hs, joinable_enabledThread, hp.1, hp.2, fun hdelivered => ?_⟩
  obtain ⟨t, l, before, hlog⟩ := of_justJoined hp.1
  obtain ⟨call, hentered, -, hdelivers⟩ := hdelivered t l .canceled before
    (by rw [hlog])
  have hcall := mem_exitCalls
    (hentered.cons (e := .ret t (.call l) (.call (.success (some .canceled)))))
  rw [← hlog, hp.2, List.mem_singleton] at hcall
  subst hcall
  obtain hstatus | ⟨-, hcaller⟩ := hdelivers
  · cases hstatus
  · cases hcaller

end Runs

end LibPthread.Thread.Exit
