import LibPthread.Semaphore.Functions

/-!
# The tokens of a semaphore

A post adds a token to `__value` or passes it to a waiter it dequeues. The tokens that were
there at the start or posted since are in `__value`, have been taken by a wait that
succeeded, or are on their way to a dequeued waiter; the ones passed to a waiter that timed
out at the same moment are lost. No token is lost in the runs in which no time-out crosses
a post.
-/

open Concurrency

namespace LibPthread

namespace Semaphore

/-! ### The history of a run -/

/-- The log of a run. -/
abbrev Log (T : Type) :=
  List (Event T (Loc T) Ret)

/-- The control points at which a call asks for a token. -/
def Loc.request {T : Type} : Loc T → Bool
  | .wait (.start _) => true
  | .wait (.blocked _) => false
  | .trywait => true
  | .post _ => false

/-- The start of a wait with an invalid time-out. -/
def Loc.invalid {T : Type} : Loc T → Bool
  | .wait (.start timeout) => badTime timeout
  | .wait (.blocked _) => false
  | .trywait => false
  | .post _ => false

/-- The control points of the wait functions. -/
def Loc.waits {T : Type} : Loc T → Bool
  | .wait _ => true
  | .trywait => true
  | .post _ => false

variable {T : Type} [DecidableEq T]

/-- The number of posts that took effect, in their section under `__lock`. -/
def posts : Log T → Nat
  | [] => 0
  | .call _ _ :: log => posts log
  | .goto _ l _ :: log => if l = .post .start then posts log + 1 else posts log
  | .ret _ l _ :: log => if l = .post .start then posts log + 1 else posts log

/-- The number of wait calls that returned success. -/
def successes : Log T → Nat
  | [] => 0
  | .call _ _ :: log => successes log
  | .goto _ _ _ :: log => successes log
  | .ret _ l r :: log => if l.waits ∧ r = .zero then successes log + 1 else successes log

/-- The number of wait calls that returned a time-out although a post had dequeued them. -/
def lost : Log T → Nat
  | [] => 0
  | .call _ _ :: log => lost log
  | .goto _ _ _ :: log => lost log
  | .ret _ l _ :: log => if l = .wait (.blocked .drain) then lost log + 1 else lost log

/-- A post has dequeued `t` and its wait call has not returned since. -/
def handed (t : T) : Log T → Bool
  | [] => false
  | .call _ _ :: log => handed t log
  | .goto _ _ l' :: log => l' = .post (.wakeup t) || handed t log
  | .ret u _ _ :: log => u ≠ t && handed t log

/-- The number of waiters dequeued by a post whose call has not returned. -/
def inFlight [Fintype T] (log : Log T) : Nat :=
  (Finset.univ.filter (fun t => handed t log = true)).card

/-! ### The effects of the steps -/

/-- What the steps of the system do, one constructor for each kind of step. -/
inductive Effect (b : Build) (s : Sys T) : Label T (Loc T) → Sys T → Prop where
  | call {t : T} {l : Loc T} (idle : s.loc t = none)
    (entry : (machine (T := T) b).entry l = true) :
    Effect b s (.call t l) (s.call t l)
  | enqueue {t : T} {c : Bool} {timeout : Option Timespec}
    (at_l : s.loc t = some (.wait (.start timeout))) (empty : s.shared.obj.value ≤ 0) :
    Effect b s (.act t c) (s.goto t (.wait (.start timeout))
      ⟨s.shared.obj, s.shared.waits.enqueue () t⟩ (.wait (.blocked (.block timeout.isSome))))
  | receive {t : T} {c timed : Bool} (at_l : s.loc t = some (.wait (.blocked (.block timed)))) :
    Effect b s (.act t c) (s.goto t (.wait (.blocked (.block timed)))
      ⟨s.shared.obj, s.shared.waits.receive t⟩ (.wait (.blocked (.recheck false))))
  | timeout {t : T} (at_l : s.loc t = some (.wait (.blocked (.block true)))) :
    Effect b s (.act t true) (s.goto t (.wait (.blocked (.block true))) s.shared
      (.wait (.blocked (.recheck true))))
  | late {t : T} {c : Bool} (at_l : s.loc t = some (.wait (.blocked (.recheck true))))
    (gone : s.shared.waits.prevp t = none) :
    Effect b s (.act t c) (s.goto t (.wait (.blocked (.recheck true))) s.shared
      (.wait (.blocked .drain)))
  | woken {t : T} {c : Bool} (at_l : s.loc t = some (.wait (.blocked (.recheck false))))
    (gone : s.shared.waits.prevp t = none) :
    Effect b s (.act t c) (s.ret t (.wait (.blocked (.recheck false))) s.shared .zero)
  | leave {t : T} {c err : Bool} (at_l : s.loc t = some (.wait (.blocked (.recheck err))))
    (still : s.shared.waits.prevp t ≠ none) :
    Effect b s (.act t c) (s.ret t (.wait (.blocked (.recheck err)))
      ⟨s.shared.obj, s.shared.waits.dequeue t⟩
      (if err then .minusOne .ETIMEDOUT else .zero))
  | drain {t : T} {c : Bool} (at_l : s.loc t = some (.wait (.blocked .drain))) :
    Effect b s (.act t c) (s.ret t (.wait (.blocked .drain))
      ⟨s.shared.obj, s.shared.waits.receive t⟩ (.minusOne .ETIMEDOUT))
  | take {t : T} {c : Bool} {l : Loc T} (at_l : s.loc t = some l) (request : l.request = true)
    (some : 0 < s.shared.obj.value) :
    Effect b s (.act t c) (s.ret t l
      ⟨{ s.shared.obj with value := s.shared.obj.value - 1 }, s.shared.waits⟩ .zero)
  | refuse {t : T} {c : Bool} {l : Loc T} {lock : Bool} {e : Errno} (at_l : s.loc t = some l)
    (request : l.request = true)
    (released : lock = s.shared.obj.lock ∨
      (s.shared.obj.value ≤ 0 ∧ ∃ timeout, l = .wait (.start timeout) ∧ badTime timeout = true)) :
    Effect b s (.act t c) (s.ret t l ⟨{ s.shared.obj with lock := lock }, s.shared.waits⟩
      (.minusOne e))
  | add {t : T} {c : Bool} {value : Int} (at_l : s.loc t = some (.post .start))
    (added : (0 < s.shared.obj.value ∧ value = toInt (s.shared.obj.value + 1)) ∨
      (s.shared.obj.value ≤ 0 ∧ s.shared.waits.queue () = [] ∧ value = 1)) :
    Effect b s (.act t c) (s.ret t (.post .start)
      ⟨{ s.shared.obj with value := value }, s.shared.waits⟩ .zero)
  | pass {t u : T} {c : Bool} {rest : List T} (at_l : s.loc t = some (.post .start))
    (empty : s.shared.obj.value ≤ 0) (first : s.shared.waits.queue () = u :: rest) :
    Effect b s (.act t c) (s.goto t (.post .start)
      ⟨s.shared.obj, s.shared.waits.dequeue u⟩ (.post (.wakeup u)))
  | wakeup {t u : T} {c : Bool} (at_l : s.loc t = some (.post (.wakeup u))) :
    Effect b s (.act t c) (s.ret t (.post (.wakeup u))
      ⟨s.shared.obj, s.shared.waits.send u⟩ .zero)

variable {b : Build} {v : Nat} {s s' : Sys T} {a : Label T (Loc T)}

theorem effect_of_goto {t : T} {c : Bool} {l l' : Loc T} {x : World Semaphore T Unit}
    (hl : s.loc t = some l) (h : (machine b).step t l c s.shared = .goto x l') :
  Effect b s (.act t c) (s.goto t l x l')
  := by
  cases l with
  | wait l =>
      simp only [machine, step, Outcome.lift_eq_goto_iff, id_eq] at h
      rcases h with ⟨s₁, l₁, h, rfl, rfl⟩ | ⟨_, _, _, h⟩
      · rcases timedwaitStep_eq_goto h with ⟨timeout, rfl, hs⟩ | ⟨st, st', w, rfl, rfl, rfl, hw⟩
        · obtain ⟨-, hempty, -, rfl, rfl⟩ := waitStart_eq_goto hs
          apply Effect.enqueue hl hempty
        · rcases waitStep_eq_goto hw with ⟨timed, rfl, -, rfl, rfl⟩ | ⟨rfl, rfl, rfl, rfl⟩ |
            ⟨rfl, -, hgone, rfl, rfl⟩
          · apply Effect.receive hl
          · apply Effect.timeout hl
          · apply Effect.late hl hgone
      · cases h
  | trywait => apply absurd h trywait_ne_goto
  | post l =>
      simp only [machine, step, Outcome.lift_eq_goto_iff, id_eq] at h
      rcases h with ⟨s₁, l₁, h, rfl, rfl⟩ | ⟨_, _, _, h⟩
      · obtain ⟨rfl, h⟩ := postStep_eq_goto h
        obtain ⟨-, hempty, u, rest, hq, rfl, rfl⟩ := postStart_eq_goto h
        apply Effect.pass hl hempty hq
      · cases h

theorem effect_of_ret {t : T} {c : Bool} {l : Loc T} {x : World Semaphore T Unit} {r : Ret}
    (hl : s.loc t = some l) (hport : ∀ u ∈ (l.role ()).owes, s.shared.waits.port u = 0)
    (h : (machine b).step t l c s.shared = .ret x r) :
  Effect b s (.act t c) (s.ret t l x r)
  := by
  obtain ⟨sem, w⟩ := x
  cases l with
  | wait l =>
      simp only [machine, step, Outcome.lift_eq_ret_iff, id_eq] at h
      obtain ⟨s₁, r₁, h, h'⟩ := h
      obtain ⟨rfl, rfl⟩ := h'
      rcases timedwaitStep_eq_ret h with ⟨timeout, rfl, hs⟩ | ⟨st, w', err, rfl, hx, rfl, hw⟩
      · obtain ⟨-, rfl, ⟨hsome, rfl, rfl⟩ | ⟨hempty, hbad, rfl, rfl⟩⟩ := waitStart_eq_ret hs
        · apply Effect.take hl rfl hsome
        · apply Effect.refuse hl rfl (Or.inr ⟨hempty, timeout, rfl, hbad⟩)
      · obtain ⟨rfl, rfl⟩ := World.mk.inj hx
        rcases waitStep_eq_ret hw with ⟨rfl, -, hgone, rfl, rfl⟩ | ⟨rfl, -, hstill, rfl⟩ |
          ⟨rfl, -, rfl, rfl⟩
        · apply Effect.woken hl hgone
        · apply Effect.leave hl hstill
        · apply Effect.drain hl
  | trywait =>
      obtain ⟨-, rfl, ⟨hsome, rfl, rfl⟩ | ⟨-, rfl, rfl⟩⟩ := trywait_eq_ret h
      · apply Effect.take hl rfl hsome
      · apply Effect.refuse hl rfl (Or.inl rfl)
  | post l =>
      simp only [machine, step, Outcome.lift_eq_ret_iff, id_eq] at h
      obtain ⟨s₁, r₁, h, h'⟩ := h
      obtain ⟨rfl, rfl⟩ := h'
      rcases postStep_eq_ret hport h with ⟨rfl, h⟩ | ⟨u, rfl, hx, rfl⟩
      · obtain ⟨-, rfl, rfl, ⟨hsome, rfl⟩ | ⟨hempty, hq, rfl⟩⟩ := postStart_eq_ret h
        · apply Effect.add hl (Or.inl ⟨hsome, rfl⟩)
        · apply Effect.add hl (Or.inr ⟨hempty, hq, rfl⟩)
      · obtain ⟨rfl, rfl⟩ := World.mk.inj hx
        apply Effect.wakeup hl

/-- Every step of the system is one of the effects. -/
theorem effect_of_step [Fintype T]
    (hsound : Sound (fun _ => False) (roles (fun _ => Loc.role ()) s) s.shared.waits)
    (h : (machine b).Step s a s') :
  Effect b s a s'
  := by
  cases h with
  | call hidle hentry => apply Effect.call hidle hentry
  | goto hl hstep => apply effect_of_goto hl hstep
  | @ret t c l x r hl hstep =>
      apply effect_of_ret hl _ hstep
      intro u hu
      apply hsound.port_of_owes (t := t)
      simp [roles, hl, hu]

/-! ### Where the tokens are -/

section InFlight

variable [Fintype T] {log : Log T} {t : T} {l l' : Loc T} {r : Ret}

theorem inFlight_goto (hl' : ∀ u, l' ≠ .post (.wakeup u)) :
  inFlight (.goto t l l' :: log) = inFlight log
  := by
  simp [inFlight, handed, hl']

/-- A post that dequeues `u` puts a token in flight. -/
theorem inFlight_pass {u : T} (hu : handed u log = false) :
  inFlight (.goto t l (.post (.wakeup u)) :: log) = inFlight log + 1
  := by
  rw [inFlight, inFlight, ← Finset.card_insert_of_notMem (a := u) (by simp [hu])]
  congr 1
  ext x
  by_cases hx : u = x
  · simp [handed, hx]
  · simp [handed, hx, Ne.symm hx]

/-- The return of a wait ends the flight of its token. -/
theorem inFlight_ret (t : T) (l : Loc T) (r : Ret) (log : Log T) :
  inFlight (.ret t l r :: log) + (if handed t log then 1 else 0) = inFlight log
  := by
  have herase : Finset.univ.filter (fun x => handed x (.ret t l r :: log) = true)
      = (Finset.univ.filter (fun x => handed x log = true)).erase t := by
    ext x
    by_cases hx : t = x
    · simp [handed, hx]
    · simp [handed, hx, Ne.symm hx]
  rw [inFlight, inFlight, herase]
  split
  · rename_i ht
    apply Finset.card_erase_add_one
    simp [ht]
  · rename_i ht
    rw [Finset.erase_eq_of_notMem (by simp [ht]), Nat.add_zero]

end InFlight

/-- A waiter has been dequeued by a post exactly when its place in the code says so. -/
def Placed (s : Sys T) (t : T) : Prop :=
  match s.loc t with
  | some (.wait (.blocked .drain)) => handed t s.log = true
  | some (.wait (.blocked _)) => handed t s.log = true ↔ s.shared.waits.prevp t = none
  | _ => handed t s.log = false

/-- Where the tokens of a semaphore initialised with `v` are. -/
structure Accounted [Fintype T] (v : Nat) (s : Sys T) : Prop where
  nonneg : 0 ≤ s.shared.obj.value
  lt : s.shared.obj.value < 2 ^ 31
  idle : 0 < s.shared.obj.value → s.shared.waits.queue () = []
  placed : ∀ t, Placed s t
  total : (v : Int) + posts s.log
    = s.shared.obj.value + successes s.log + inFlight s.log + lost s.log

/-- No post makes `__value` exceed the range of `int`. -/
def WithinInt (s : Sys T) : Label T (Loc T) → Prop
  | .call _ _ => True
  | .act t _ => s.loc t = some (.post .start) → s.shared.obj.value < 2 ^ 31 - 1

/-- What a step does to a thread other than the one that takes it: nothing, or a post
dequeues it. -/
theorem Effect.other {t : T} (h : Effect b s a s') (ht : t ≠ a.thread) :
  s'.loc t = s.loc t ∧
    ((handed t s'.log = handed t s.log ∧ s'.shared.waits.prevp t = s.shared.waits.prevp t) ∨
      (t ∈ s.shared.waits.queue () ∧ handed t s'.log = true ∧ s'.shared.waits.prevp t = none))
  := by
  have hne := ht.symm
  cases h with
  | @pass u v c rest hl hempty hfirst =>
      by_cases hv : v = t
      · simp_all [handed]
      · have hne' : t ≠ v := Ne.symm hv
        simp_all [handed]
  | _ => simp_all [handed]

section Invariant

variable [Fintype T]

/-- A queued thread is before its receive or before looking at its link. -/
theorem loc_of_queued
    (hsound : Sound (fun _ => False) (roles (fun _ => Loc.role ()) s) s.shared.waits) {u : T}
    (hu : u ∈ s.shared.waits.queue ()) :
  (∃ timed, s.loc u = some (.wait (.blocked (.block timed)))) ∨
    ∃ err, s.loc u = some (.wait (.blocked (.recheck err)))
  := by
  have hq := (hsound.queued hu).1
  have hp := hsound.linked () u hu
  have hd := hsound.drained u ()
  cases hl : s.loc u with
  | none => simp [roles, hl, Role.idle] at hq
  | some l =>
      rcases l with (_ | (_ | _ | _)) | _ | _
      all_goals simp_all [roles, Loc.role, WaitLoc.phase, Stage.phase, Role.idle]

/-- A queued thread has not been dequeued by a post. -/
theorem not_handed_of_queued
    (hsound : Sound (fun _ => False) (roles (fun _ => Loc.role ()) s) s.shared.waits)
    (hs : Accounted v s) {u : T} (hu : u ∈ s.shared.waits.queue ()) :
  handed u s.log = false
  := by
  have hplaced := hs.placed u
  have hprevp := hsound.linked () u hu
  rcases loc_of_queued hsound hu with ⟨_, hl⟩ | ⟨_, hl⟩
  all_goals simp_all [Placed]

/-- Every step keeps the threads in their places. -/
theorem Effect.placed
    (hsound : Sound (fun _ => False) (roles (fun _ => Loc.role ()) s) s.shared.waits)
    (hs : Accounted v s) (h : Effect b s a s') (t : T) :
  Placed s' t
  := by
  have hp := hs.placed t
  by_cases ht : t = a.thread
  · subst ht
    cases h with
    | @call t l hidle hentry =>
        rcases l with (_ | _) | _ | (_ | _)
        all_goals simp_all [Placed, machine, Loc.entry, handed]
    | @pass t u c rest hl hempty hfirst =>
        have hu := loc_of_queued hsound (u := u) (by simp [hfirst])
        have hne : u ≠ t := by grind
        simp_all [Placed, handed]
    | _ => simp_all [Placed, handed]
  · obtain ⟨hloc, ⟨hh, hprevp⟩ | ⟨hq, hh, hprevp⟩⟩ := h.other ht
    · simp only [Placed, hloc, hh, hprevp] at hp ⊢
      apply hp
    · rcases loc_of_queued hsound hq with ⟨_, hl⟩ | ⟨_, hl⟩
      all_goals simp [Placed, hloc, hh, hprevp, hl]

/-- Every step keeps the value in range and the queue empty while there are tokens. -/
theorem Effect.value (h : Effect b s a s') (hG : WithinInt s a) (hs : Accounted v s) :
  0 ≤ s'.shared.obj.value ∧ s'.shared.obj.value < 2 ^ 31 ∧
    (0 < s'.shared.obj.value → s'.shared.waits.queue () = [])
  := by
  obtain ⟨hnonneg, hlt, hidle, -, -⟩ := hs
  cases h with
  | take hl hrequest hsome =>
      simp only [State.ret_shared]
      use (by omega), (by omega)
      intro _
      apply hidle hsome
  | add hl hadded =>
      have hbound := hG hl
      simp only [State.ret_shared]
      rcases hadded with ⟨hsome, rfl⟩ | ⟨hempty, hq, rfl⟩
      · rw [toInt_of_lt (by omega) (by omega)]
        use (by omega), (by omega)
        intro _
        apply hidle hsome
      · use (by omega), (by omega)
        intro _
        apply hq
  | enqueue hl hempty =>
      use hnonneg, hlt
      intro hpos
      apply absurd hpos (by simpa using hempty)
  | pass hl hempty hfirst =>
      use hnonneg, hlt
      intro hpos
      apply absurd hpos (by simpa using hempty)
  | leave hl hstill =>
      obtain ⟨q, hq⟩ := Option.ne_none_iff_exists'.mp hstill
      use hnonneg, hlt
      intro hpos
      simp [Waits.dequeue_queue hq, hidle hpos]
  | _ => use hnonneg, hlt, hidle

omit [Fintype T] in
/-- A thread that asks for a token or posts one has not been dequeued by a post. -/
theorem Placed.not_handed {t : T} {l : Loc T} (h : Placed s t) (hl : s.loc t = some l)
    (hreq : l.request = true ∨ ∃ l', l = .post l') :
  handed t s.log = false
  := by
  rcases l with (_ | _) | _ | (_ | _)
  all_goals simp_all [Placed, Loc.request]

/-- The return of a call that was not dequeued by a post leaves the tokens in flight. -/
theorem inFlight_ret_of_not {t : T} {l : Loc T} {r : Ret} {log : Log T}
    (ht : handed t log = false) :
  inFlight (.ret t l r :: log) = inFlight log
  := by
  simpa [ht] using inFlight_ret t l r log

/-- Every step conserves the tokens. -/
theorem Effect.total
    (hsound : Sound (fun _ => False) (roles (fun _ => Loc.role ()) s) s.shared.waits)
    (h : Effect b s a s') (hG : WithinInt s a) (hs : Accounted v s) :
  (v : Int) + posts s'.log
    = s'.shared.obj.value + successes s'.log + inFlight s'.log + lost s'.log
  := by
  have htotal := hs.total
  have hnonneg := hs.nonneg
  have hplaced := hs.placed a.thread
  cases h with
  | call => simpa [posts, successes, inFlight, handed, lost] using htotal
  | @pass t u c rest hl hempty hfirst =>
      have hu := not_handed_of_queued hsound hs (u := u) (by simp [hfirst])
      simp only [State.goto_log, State.goto_shared, posts, successes, lost, inFlight_pass hu,
        if_true]
      push_cast
      omega
  | @woken t c hl hgone =>
      have hflight := inFlight_ret t (.wait (.blocked (.recheck false))) .zero s.log
      simp only [State.ret_log, State.ret_shared, posts, successes, lost]
      simp_all [Placed, Loc.waits]
      omega
  | @drain t c hl =>
      have hflight := inFlight_ret t (.wait (.blocked .drain)) (.minusOne .ETIMEDOUT) s.log
      simp only [State.ret_log, State.ret_shared, posts, successes, lost]
      simp_all [Placed, Loc.waits]
      omega
  | @leave t c err hl hstill =>
      cases err with
      | false =>
          -- a waiter that has received its message is no longer linked
          apply absurd _ hstill
          apply hsound.gone_of_received (q := ())
          simp [roles, hl, Loc.role, WaitLoc.phase, Stage.phase]
      | true =>
          have hnot : handed t s.log = false := by
            simpa [Placed, hl, hstill] using hplaced
          simp only [State.ret_log, State.ret_shared, posts, successes, lost,
            inFlight_ret_of_not hnot]
          simpa using htotal
  | @take t c l hl hrequest hsome =>
      have hnot : handed t s.log = false := hplaced.not_handed hl (Or.inl hrequest)
      have hl' : l.waits = true ∧ l ≠ .post .start ∧ l ≠ .wait (.blocked .drain) := by
        rcases l with (_ | _) | _ | _
        all_goals simp_all [Loc.request, Loc.waits]
      simp only [State.ret_log, State.ret_shared, posts, successes, lost,
        inFlight_ret_of_not hnot, hl']
      simp only [and_true, if_true, if_false]
      push_cast
      omega
  | @refuse t c l lock e hl hrequest =>
      have hnot : handed t s.log = false := hplaced.not_handed hl (Or.inl hrequest)
      have hl' : l ≠ .post .start ∧ l ≠ .wait (.blocked .drain) := by
        rcases l with (_ | _) | _ | _
        all_goals simp_all [Loc.request]
      simp only [State.ret_log, State.ret_shared, posts, successes, lost,
        inFlight_ret_of_not hnot, hl']
      simpa using htotal
  | @add t c value hl hadded =>
      have hnot : handed t s.log = false := hplaced.not_handed hl (Or.inr ⟨_, rfl⟩)
      have hbound := hG hl
      have hvalue : value = s.shared.obj.value + 1 := by
        rcases hadded with ⟨hsome, rfl⟩ | ⟨hempty, -, rfl⟩
        · apply toInt_of_lt
          · omega
          · omega
        · omega
      simp only [State.ret_log, State.ret_shared, posts, successes, lost,
        inFlight_ret_of_not hnot, hvalue, Loc.waits]
      simp
      omega
  | @wakeup t u c hl =>
      have hnot : handed t s.log = false := hplaced.not_handed hl (Or.inr ⟨_, rfl⟩)
      simp only [State.ret_log, State.ret_shared, posts, successes, lost,
        inFlight_ret_of_not hnot, Loc.waits]
      simpa using htotal
  | _ =>
      simp only [State.goto_log, State.goto_shared, posts, successes, lost]
      rw [inFlight_goto (by simp)]
      simpa using htotal

theorem sound_of_reach {G : Sys T → Label T (Loc T) → Prop}
    (hs : (machine b).Reach G (State.idle ⟨Semaphore.init v, Waits.empty⟩) s) :
  Sound (fun _ => False) (roles (fun _ => Loc.role ()) s) s.shared.waits
  := ((conforms b).sound (fun _ _ _ _ => trivial) hs).2

/-- The tokens are accounted for in every state reached while `__value` stays in range, also
when time-outs cross posts. -/
theorem accounted_of_reach {G : Sys T → Label T (Loc T) → Prop}
    (hG : ∀ s a, G s a → WithinInt s a) (hv : v < 2 ^ 31)
    (hs : (machine b).Reach G (State.idle ⟨Semaphore.init v, Waits.empty⟩) s) :
  Accounted v s
  := by
  have hinit : toInt v = v := by
    apply toInt_of_lt
    · omega
    · omega
  apply hs.invariant
  · constructor
    · simp [Semaphore.init, hinit]
    · simp [Semaphore.init, hinit]
      omega
    · simp [Waits.empty]
    · simp [Placed, handed]
    · simp [Semaphore.init, hinit, posts, successes, inFlight, handed, lost]
  · intro s a s' hreach hacc hg hstep
    have hsound := sound_of_reach hreach
    have heffect := effect_of_step hsound hstep
    obtain ⟨hnonneg, hlt, hidle⟩ := heffect.value (hG s a hg) hacc
    constructor
    · apply hnonneg
    · apply hlt
    · apply hidle
    · apply heffect.placed hsound hacc
    · apply heffect.total hsound (hG s a hg) hacc

end Invariant

/-! ### Runs in which no token is lost -/

/-- No time-out crosses a post: a waiter does not time out once it has been dequeued, and a
post does not dequeue a waiter that has timed out. -/
def Uncrossed (s : Sys T) : Label T (Loc T) → Prop
  | .call _ _ => True
  | .act t timeout =>
    (s.loc t = some (.wait (.blocked (.block true))) → timeout = true →
      s.shared.waits.prevp t ≠ none) ∧
    (s.loc t = some (.post .start) → s.shared.obj.value ≤ 0 →
      ∀ u ∈ (s.shared.waits.queue ()).head?,
        s.loc u ≠ some (.wait (.blocked (.recheck true))))

/-- No call with an invalid time-out finds the semaphore without tokens. -/
def ValidTimeouts (s : Sys T) : Label T (Loc T) → Prop
  | .call _ _ => True
  | .act t _ => (s.loc t).any Loc.invalid = true → 0 < s.shared.obj.value

instance (s : Sys T) (a : Label T (Loc T)) : Decidable (WithinInt s a) :=
  match a with
  | .call _ _ => inferInstanceAs (Decidable True)
  | .act _ _ => inferInstanceAs (Decidable (_ → _))

instance (s : Sys T) (a : Label T (Loc T)) : Decidable (Uncrossed s a) :=
  match a with
  | .call _ _ => inferInstanceAs (Decidable True)
  | .act _ _ => inferInstanceAs (Decidable ((_ → _ → _) ∧ (_ → _ → _)))

instance (s : Sys T) (a : Label T (Loc T)) : Decidable (ValidTimeouts s a) :=
  match a with
  | .call _ _ => inferInstanceAs (Decidable True)
  | .act _ _ => inferInstanceAs (Decidable (_ → _))

/-- The guard under which no token is lost. -/
def Orderly (s : Sys T) (a : Label T (Loc T)) : Prop :=
  WithinInt s a ∧ Uncrossed s a ∧ ValidTimeouts s a

instance (s : Sys T) (a : Label T (Loc T)) : Decidable (Orderly s a) :=
  inferInstanceAs (Decidable (_ ∧ _ ∧ _))

/-- What holds in addition while no time-out crosses a post. -/
structure Settled (s : Sys T) : Prop where
  lock : s.shared.obj.lock = false
  expired : ∀ t, s.loc t = some (.wait (.blocked (.recheck true))) →
    s.shared.waits.prevp t ≠ none
  drained : ∀ t, s.loc t ≠ some (.wait (.blocked .drain))
  lost : lost s.log = 0

theorem Effect.lock_eq (h : Effect b s a s') (hG : ValidTimeouts s a) (hs : Settled s) :
  s'.shared.obj.lock = false
  := by
  have hlock := hs.lock
  cases h with
  | refuse hl _ hreleased =>
      rcases hreleased with rfl | ⟨hempty, timeout, rfl, hbad⟩
      · apply hlock
      · have := hG (by simp [hl, Loc.invalid, hbad])
        omega
  | _ => simp [hlock]

/-- A thread that has timed out is still linked. -/
theorem Effect.expired (h : Effect b s a s') (hG : Uncrossed s a) (hs : Settled s) :
  ∀ t, s'.loc t = some (.wait (.blocked (.recheck true))) → s'.shared.waits.prevp t ≠ none
  := by
  intro t hl
  have hexpired := hs.expired t
  by_cases ht : t = a.thread
  · subst ht
    cases h with
    | call hidle hentry =>
        simp only [State.call_loc, Label.thread, Function.update_self, Option.some.injEq] at hl
        subst hl
        cases hentry
    | timeout hat => apply hG.1 hat rfl
    | _ => simp at hl
  · rw [(h.other ht).1] at hl
    cases h with
    | @pass u v c rest hat hempty hfirst =>
        have hv := hG.2 hat hempty v (by simp [hfirst])
        have hne : t ≠ v := by grind
        simpa [hne] using hexpired hl
    | enqueue => simp_all
    | leave => simp_all
    | _ => apply hexpired hl

theorem Effect.drained (h : Effect b s a s') (hs : Settled s) :
  ∀ t, s'.loc t ≠ some (.wait (.blocked .drain))
  := by
  intro t hl
  by_cases ht : t = a.thread
  · subst ht
    cases h with
    | call hidle hentry =>
        simp only [State.call_loc, Label.thread, Function.update_self, Option.some.injEq] at hl
        subst hl
        cases hentry
    | late hat hgone => apply hs.expired _ hat hgone
    | _ => simp at hl
  · rw [(h.other ht).1] at hl
    apply hs.drained t hl

theorem Effect.lost_eq (h : Effect b s a s') (hs : Settled s) :
  Semaphore.lost s'.log = 0
  := by
  have hlost := hs.lost
  have hdrained := hs.drained a.thread
  cases h with
  | drain hl => simp_all
  | @take t c l hl => simp_all [Semaphore.lost]
  | @refuse t c l lock e hl => simp_all [Semaphore.lost]
  | _ => simpa [Semaphore.lost] using hlost

section Orderly

variable [Fintype T]

theorem settled_of_reach
    (hs : (machine b).Reach Orderly (State.idle ⟨Semaphore.init v, Waits.empty⟩) s) :
  Settled s
  := by
  apply hs.invariant
  · constructor
    all_goals simp [Semaphore.init, lost]
  · intro s a s' hreach hsettled hG hstep
    have heffect := effect_of_step (sound_of_reach hreach) hstep
    constructor
    · apply heffect.lock_eq hG.2.2 hsettled
    · apply heffect.expired hG.2.1 hsettled
    · apply heffect.drained hsettled
    · apply heffect.lost_eq hsettled

omit [Fintype T] in
/-- Where a waiter dequeued by a post can be. -/
theorem loc_of_handed (hs : Settled s) {t : T} (hp : Placed s t)
    (ht : handed t s.log = true) :
  (∃ timed, s.loc t = some (.wait (.blocked (.block timed)))
      ∧ s.shared.waits.prevp t = none) ∨
    (s.loc t = some (.wait (.blocked (.recheck false))) ∧ s.shared.waits.prevp t = none)
  := by
  have hexpired := hs.expired t
  have hdrained := hs.drained t
  cases hl : s.loc t with
  | none => simp_all [Placed]
  | some l =>
      rcases l with (_ | (_ | (_ | _) | _)) | _ | _
      all_goals simp_all [Placed]

omit [Fintype T] in
/-- A waiter dequeued by a post stays so until its call returns success. -/
theorem Effect.pledge (h : Effect b s a s') (hs : Settled s) {t : T} (hp : Placed s t)
    (ht : handed t s.log = true) :
  (handed t s'.log = true ∧ Machine.returned t s'.log = Machine.returned t s.log) ∨
    Machine.returned t s'.log = .zero :: Machine.returned t s.log
  := by
  have hloc := loc_of_handed hs hp ht
  cases h with
  | @woken u c hl =>
      by_cases hu : u = t
      · right
        simp [Machine.returned, hu]
      · left
        simp [handed, Machine.returned, hu, ht]
  | @leave u c err hl hstill =>
      have hu : u ≠ t := by grind
      simp [handed, Machine.returned, hu, ht]
  | @drain u c hl =>
      have hu : u ≠ t := by grind
      simp [handed, Machine.returned, hu, ht]
  | @take u c l hl hrequest =>
      have hu : u ≠ t := by grind [Loc.request]
      simp [handed, Machine.returned, hu, ht]
  | @refuse u c l lock e hl hrequest =>
      have hu : u ≠ t := by grind [Loc.request]
      simp [handed, Machine.returned, hu, ht]
  | @add u c value hl =>
      have hu : u ≠ t := by grind
      simp [handed, Machine.returned, hu, ht]
  | @wakeup u v c hl =>
      have hu : u ≠ t := by grind
      simp [handed, Machine.returned, hu, ht]
  | _ => simp [handed, Machine.returned, ht]

/-- The number of steps that separate a waiter dequeued by a post from its return. -/
def distance (t : T) (s : Sys T) : Nat :=
  match s.loc t with
  | some (.wait (.blocked (.block _))) => if s.shared.waits.port t = 0 then 3 else 2
  | _ => 1

/-- A waiter dequeued by a post, or the thread that will wake it up, can take a step towards
its return. -/
theorem exists_progress (hv : v < 2 ^ 31)
    (hs : (machine b).Reach Orderly (State.idle ⟨Semaphore.init v, Waits.empty⟩) s) {t : T}
    (ht : handed t s.log = true) :
  ∃ a s', Orderly s a ∧ (machine b).Step s a s' ∧
    (Machine.returned t s'.log = Machine.returned t s.log → distance t s' < distance t s)
  := by
  have hsound := sound_of_reach hs
  have hp := (accounted_of_reach (fun _ _ h => h.1) hv hs).placed t
  have hsettled := settled_of_reach hs
  rcases loc_of_handed hsettled hp ht with ⟨timed, hl, hgone⟩ | ⟨hl, hgone⟩
  · by_cases hport : s.shared.waits.port t = 0
    · -- the message is still owed: its sender can send it
      obtain ⟨u, hu⟩ := hsound.exists_waker (t := t)
        (show (roles (fun _ => Loc.role ()) s t).phase = .blocking () timed by
          simp [roles, hl, Loc.role, WaitLoc.phase, Stage.phase]) hgone hport
      have hlu : s.loc u = some (.post (.wakeup t)) := by
        cases hlu : s.loc u with
        | none => simp [roles, hlu, Role.idle] at hu
        | some l =>
            rcases l with _ | _ | (_ | _)
            all_goals simp_all [roles, Loc.role, Role.idle, PostLoc.owes]
      have hne : t ≠ u := by
        rintro rfl
        simp [hl] at hlu
      use .act u false, s.ret u (.post (.wakeup t)) ⟨s.shared.obj, s.shared.waits.send t⟩ .zero
      constructor
      · simp [Orderly, WithinInt, Uncrossed, ValidTimeouts, Loc.invalid, hlu]
      · constructor
        · apply Machine.Step.ret hlu
          simp only [machine, step, postStep, Build.wakeup_of hport]
          rfl
        · intro _
          simp [distance, hl, hne, hport]
    · use .act t false, s.goto t (.wait (.blocked (.block timed)))
        ⟨s.shared.obj, s.shared.waits.receive t⟩ (.wait (.blocked (.recheck false)))
      constructor
      · simp [Orderly, WithinInt, Uncrossed, ValidTimeouts, Loc.invalid, hl]
      · constructor
        · apply Machine.Step.goto hl
          simp [machine, step, timedwaitStep, waitStep, hport, Outcome.lift]
        · intro _
          simp [distance, hl, hport]
  · use .act t false, s.ret t (.wait (.blocked (.recheck false))) s.shared .zero
    constructor
    · simp [Orderly, WithinInt, Uncrossed, ValidTimeouts, Loc.invalid, hl]
    · constructor
      · apply Machine.Step.ret hl
        simp [machine, step, timedwaitStep, waitStep, hsettled.lock, hgone, Outcome.lift]
      · simp [Machine.returned]

/-- The call of a waiter dequeued by a post will return success. -/
theorem willReturn_of_handed (hv : v < 2 ^ 31)
    (hs : (machine b).Reach Orderly (State.idle ⟨Semaphore.init v, Waits.empty⟩) s) {t : T}
    (ht : handed t s.log = true) :
  (machine b).WillReturn Orderly s t .zero
  := by
  apply Machine.WillReturn.of_rank (distance t) (P := fun s =>
    (machine b).Reach Orderly (State.idle ⟨Semaphore.init v, Waits.empty⟩) s ∧
      handed t s.log = true)
  · use hs, ht
  · rintro s a s' ⟨hreach, hh⟩ hG hstep
    have hp := (accounted_of_reach (fun _ _ h => h.1) hv hreach).placed t
    have heffect := effect_of_step (sound_of_reach hreach) hstep
    rcases heffect.pledge (settled_of_reach hreach) hp hh with ⟨hh', hsame⟩ | hret
    · left
      use ⟨hreach.step hG hstep, hh'⟩
    · right
      apply hret
  · rintro s ⟨hreach, hh⟩
    apply exists_progress hv hreach hh

/-- The assertions of the post function hold. -/
theorem Accounted.post_ne_fault (hs : Accounted v s)
    (hsound : Sound (fun _ => False) (roles (fun _ => Loc.role ()) s) s.shared.waits) {t : T}
    {c : Bool}
    {l : PostLoc T} (hl : s.loc t = some (.post l)) :
  (machine b).step t (.post l) c s.shared ≠ .fault
  := by
  simp only [machine, step, ne_eq, Outcome.lift_eq_fault_iff]
  rintro (h | ⟨_, _, _, h⟩)
  · cases l with
    | start =>
        apply postStart_ne_fault hs.idle _ h
        intro u hu
        simp [hsound.linked () u hu]
    | wakeup u =>
        have hport : s.shared.waits.port u = 0 := by
          apply hsound.port_of_owes (t := t)
          simp [roles, hl, Loc.role, PostLoc.owes]
        rw [postStep, Build.wakeup_of hport] at h
        cases h
  · cases h

/-- Conservation of tokens, for any number of threads: the tokens that were there at the
start or posted since are in `__value`, were taken by a wait that succeeded, or are on their
way to a waiter whose call will return success. Moreover `__value` is not negative, the
queue is empty while there are tokens, and the assertions of `sem_post` hold. -/
theorem token_conservation (hv : v < 2 ^ 31)
    (hs : (machine b).Reach Orderly (State.idle ⟨Semaphore.init v, Waits.empty⟩) s) :
  (v : Int) + posts s.log = s.shared.obj.value + successes s.log + inFlight s.log ∧
    (∀ t, handed t s.log = true → (∃ l, s.loc t = some (.wait l)) ∧
      (machine b).WillReturn Orderly s t .zero) ∧
    0 ≤ s.shared.obj.value ∧
    (0 < s.shared.obj.value → s.shared.waits.queue () = []) ∧
    ∀ t c l, s.loc t = some (.post l) → (machine b).step t (.post l) c s.shared ≠ .fault
  := by
  have hacc := accounted_of_reach (fun _ _ h => h.1) hv hs
  have hsettled := settled_of_reach hs
  constructor
  · rw [hacc.total, hsettled.lost]
    simp
  · constructor
    · intro t ht
      constructor
      · rcases loc_of_handed hsettled (hacc.placed t) ht with ⟨timed, hl, -⟩ | ⟨hl, -⟩
        all_goals simp [hl]
      · apply willReturn_of_handed hv hs ht
    · use hacc.nonneg, hacc.idle
      intro t c l hl
      apply hacc.post_ne_fault (sound_of_reach hs) hl

end Orderly

/-- Thread `0` posts to thread `1`, which waits without time-out. -/
def passing {T : Type} (t u : T) : List (Label T (Loc T)) :=
  [.call u (.wait (.start none)), .act u false, .call t (.post .start), .act t false]

/-- In the middle of a post its token is on its way to the waiter. -/
theorem token_conservation_passing :
  ∃ s, (machine Build.debug).Reach Orderly (State.idle ⟨Semaphore.init 0, Waits.empty⟩) s ∧
    handed (1 : Fin 2) s.log = true ∧
    (0 : Int) + posts s.log = s.shared.obj.value + successes s.log + inFlight s.log ∧
    (machine Build.debug).WillReturn Orderly s 1 .zero
  := by
  obtain ⟨s, hs, hp⟩ := Machine.exists_reach_of_run (M := machine Build.debug) (G := Orderly)
    (s := State.idle ⟨Semaphore.init 0, Waits.empty⟩) (passing (0 : Fin 2) 1)
    (fun s => handed (1 : Fin 2) s.log) (by decide +kernel)
  obtain ⟨htotal, hreturn, -⟩ := token_conservation (by decide) hs
  use s, hs, hp, htotal, (hreturn 1 hp).2

/-- Thread `1` times out while thread `0` posts to it. -/
def crossing {T : Type} (t u : T) : List (Label T (Loc T)) :=
  [.call u (.wait (.start (some ⟨0, 0⟩))), .act u false, .act u true,
   .call t (.post .start), .act t false, .act t false, .act u false, .act u false]

/-- A token lost by a time-out that crosses a post: one token was posted, no wait succeeded,
`__value` is `0` and no thread is inside a call. -/
theorem token_lost_crossing :
  ∃ s, (machine Build.debug).Reach WithinInt (State.idle ⟨Semaphore.init 0, Waits.empty⟩) s ∧
    posts s.log = 1 ∧ s.shared.obj.value = 0 ∧ successes s.log = 0 ∧
    ∀ t : Fin 2, s.loc t = none
  := by
  obtain ⟨s, hs, hp⟩ := Machine.exists_reach_of_run (M := machine Build.debug) (G := WithinInt)
    (s := State.idle ⟨Semaphore.init 0, Waits.empty⟩) (crossing (0 : Fin 2) 1)
    (fun s => posts s.log = 1 ∧ s.shared.obj.value = 0 ∧ successes s.log = 0 ∧
      ∀ t : Fin 2, s.loc t = none) (by decide +kernel)
  simp only [decide_eq_true_eq] at hp
  use s, hs

end Semaphore

end LibPthread
