import LibPthread.Mutex.System

/-!
# Who owns a mutex

The number of acquisitions of each thread, the hand-overs on their way and the thread the
mutex was last granted to are read off the log of a run. The ownership invariant relates
them to the fields of the mutex: a mutex that is not held has no holder and no waiter, and
a mutex that is held has exactly one thread to which it belongs, either because its lock
call returned or because an unlock has chosen it.

A recursive mutex counts the acquisitions of its owner in an `unsigned`, so that the
invariant determines them only modulo `2 ^ 32`.
-/

open Concurrency

namespace LibPthread

namespace Mutex

/-! ### The history of a run -/

/-- The log of a run. -/
abbrev Log (T : Type) :=
  List (Event T (Loc T) Ret)

/-- The control points at which a call asks for the mutex. -/
def Loc.request {T : Type} : Loc T → Bool
  | .lock (.start _) => true
  | .lock (.wait _) => false
  | .lock (.finish _) => false
  | .trylock => true
  | .unlock _ => false

variable {T : Type} [DecidableEq T]

/-- The number of lock and trylock calls of `t` that returned `0` and are not yet undone by
an unlock of `t`. An unlock takes effect in its section under `__lock`. -/
def depth (t : T) : Log T → Nat
  | [] => 0
  | .call _ _ :: log => depth t log
  | .goto u l _ :: log =>
    if u = t ∧ l = .unlock .start then depth t log - 1 else depth t log
  | .ret u l r :: log =>
    if u = t ∧ r = .zero then
      match l with
      | .lock _ => depth t log + 1
      | .trylock => depth t log + 1
      | .unlock .start => depth t log - 1
      | .unlock (.wakeup _) => depth t log
    else depth t log

/-- An unlock has dequeued `t` and passed it the mutex, and the lock call of `t` has not
returned since. -/
def handed (t : T) : Log T → Bool
  | [] => false
  | .call _ _ :: log => handed t log
  | .goto _ _ l' :: log => l' = .unlock (.wakeup t) || handed t log
  | .ret u _ _ :: log => u ≠ t && handed t log

/-- The thread to which the mutex was last granted, by a request that succeeded or by an
unlock that handed it over. -/
def lastGrant : Log T → Option T
  | [] => none
  | .call _ _ :: log => lastGrant log
  | .goto _ _ l' :: log =>
    match l' with
    | .unlock (.wakeup u) => some u
    | _ => lastGrant log
  | .ret u l r :: log => if l.request ∧ r = .zero then some u else lastGrant log

/-! ### The effects of the steps -/

/-- What the steps of the system do, one constructor for each kind of step. -/
inductive Effect (b : Build) (s : Sys T) : Label T (Loc T) → Sys T → Prop where
  | call {t : T} {l : Loc T} (idle : s.loc t = none)
    (entry : (machine (T := T) b).entry l = true) :
    Effect b s (.call t l) (s.call t l)
  | enqueue {t : T} {c : Bool} {abstime : Option Timespec}
    (at_l : s.loc t = some (.lock (.start abstime))) (held : s.shared.obj.held = true)
    (valid : badTime abstime = false)
    (foreign : s.shared.obj.tracked b = true → s.shared.obj.owner ≠ some t) :
    Effect b s (.act t c) (s.goto t (.lock (.start abstime))
      ⟨s.shared.obj, s.shared.waits.enqueue () t⟩ (.lock (.wait (.block abstime.isSome))))
  | receive {t : T} {c timed : Bool} (at_l : s.loc t = some (.lock (.wait (.block timed))))
    (port : 0 < s.shared.waits.port t) :
    Effect b s (.act t c) (s.goto t (.lock (.wait (.block timed)))
      ⟨s.shared.obj, s.shared.waits.receive t⟩ (.lock (.wait (.recheck false))))
  | timeout {t : T} (at_l : s.loc t = some (.lock (.wait (.block true)))) :
    Effect b s (.act t true) (s.goto t (.lock (.wait (.block true))) s.shared
      (.lock (.wait (.recheck true))))
  | late {t : T} {c : Bool} (at_l : s.loc t = some (.lock (.wait (.recheck true))))
    (gone : s.shared.waits.prevp t = none) :
    Effect b s (.act t c) (s.goto t (.lock (.wait (.recheck true))) s.shared
      (.lock (.wait .drain)))
  | woken {t : T} {c : Bool} (at_l : s.loc t = some (.lock (.wait (.recheck false))))
    (gone : s.shared.waits.prevp t = none) :
    Effect b s (.act t c) (s.goto t (.lock (.wait (.recheck false))) s.shared
      (.lock (.finish false)))
  | leave {t : T} {c err : Bool} (at_l : s.loc t = some (.lock (.wait (.recheck err))))
    (still : s.shared.waits.prevp t ≠ none) :
    Effect b s (.act t c) (s.goto t (.lock (.wait (.recheck err)))
      ⟨s.shared.obj, s.shared.waits.dequeue t⟩ (.lock (.finish err)))
  | drain {t : T} {c : Bool} (at_l : s.loc t = some (.lock (.wait .drain)))
    (port : 0 < s.shared.waits.port t) :
    Effect b s (.act t c) (s.goto t (.lock (.wait .drain))
      ⟨s.shared.obj, s.shared.waits.receive t⟩ (.lock (.finish true)))
  | grant {t : T} {c : Bool} {l : Loc T} {mx : Mutex T} (at_l : s.loc t = some l)
    (request : l.request = true) (free : s.shared.obj.held = false)
    (granted : Granted b t s.shared.obj mx) :
    Effect b s (.act t c) (s.ret t l ⟨mx, s.shared.waits⟩ .zero)
  | again {t : T} {c : Bool} {l : Loc T} (at_l : s.loc t = some l)
    (request : l.request = true) (held : s.shared.obj.held = true)
    (recursive : s.shared.obj.attr = some .recursive) (own : s.shared.obj.owner = some t) :
    Effect b s (.act t c) (s.ret t l
      ⟨{ s.shared.obj with locks := incLocks s.shared.obj.locks }, s.shared.waits⟩ .zero)
  | refuse {t : T} {c : Bool} {l : Loc T} {lock : Bool} {e : Errno} (at_l : s.loc t = some l)
    (request : l.request = true) (held : s.shared.obj.held = true)
    (released : lock = s.shared.obj.lock ∨
      ∃ abstime, l = .lock (.start abstime) ∧ badTime abstime = true) :
    Effect b s (.act t c) (s.ret t l ⟨{ s.shared.obj with lock := lock }, s.shared.waits⟩
      (.error e))
  | expire {t : T} {c : Bool} (at_l : s.loc t = some (.lock (.finish true))) :
    Effect b s (.act t c) (s.ret t (.lock (.finish true)) s.shared (.error .ETIMEDOUT))
  | settle {t : T} {c : Bool} {mx : Mutex T} (at_l : s.loc t = some (.lock (.finish false)))
    (held : mx.held = s.shared.obj.held) (lock : mx.lock = s.shared.obj.lock)
    (attr : mx.attr = s.shared.obj.attr)
    (owner : s.shared.obj.tracked b = true → mx.owner = some t)
    (locks : s.shared.obj.attr = some .recursive → mx.locks = 1) :
    Effect b s (.act t c) (s.ret t (.lock (.finish false)) ⟨mx, s.shared.waits⟩ .zero)
  | deny {t : T} {c : Bool} (at_l : s.loc t = some (.unlock .start))
    (checked : s.shared.obj.isNormal = false) (foreign : s.shared.obj.owner ≠ some t) :
    Effect b s (.act t c) (s.ret t (.unlock .start) s.shared (.error .EPERM))
  | inner {t : T} {c : Bool} (at_l : s.loc t = some (.unlock .start))
    (recursive : s.shared.obj.attr = some .recursive) (own : s.shared.obj.owner = some t)
    (more : 0 < decLocks s.shared.obj.locks) :
    Effect b s (.act t c) (s.ret t (.unlock .start)
      ⟨{ s.shared.obj with locks := decLocks s.shared.obj.locks }, s.shared.waits⟩ .zero)
  | release {t : T} {c : Bool} {mx : Mutex T} (at_l : s.loc t = some (.unlock .start))
    (alone : s.shared.waits.queue () = []) (free : mx.held = false)
    (released : Released b t s.shared.obj mx none) :
    Effect b s (.act t c) (s.ret t (.unlock .start) ⟨mx, s.shared.waits⟩ .zero)
  | handOver {t u : T} {c : Bool} {mx : Mutex T} {rest : List T}
    (at_l : s.loc t = some (.unlock .start)) (first : s.shared.waits.queue () = u :: rest)
    (held : mx.held = s.shared.obj.held)
    (released : Released b t s.shared.obj mx (if b.ndebug then none else some u)) :
    Effect b s (.act t c) (s.goto t (.unlock .start) ⟨mx, s.shared.waits.dequeue u⟩
      (.unlock (.wakeup u)))
  | wakeup {t u : T} {c : Bool} (at_l : s.loc t = some (.unlock (.wakeup u))) :
    Effect b s (.act t c) (s.ret t (.unlock (.wakeup u))
      ⟨s.shared.obj, s.shared.waits.send u⟩ .zero)

variable {b : Build} {s s' : Sys T} {a : Label T (Loc T)}

/-- The step of a thread from one control point to another is one of the effects. -/
theorem effect_of_goto {t : T} {c : Bool} {l l' : Loc T} {x : World (Mutex T) T Unit}
    (hl : s.loc t = some l) (h : (machine b).step t l c s.shared = .goto x l') :
  Effect b s (.act t c) (s.goto t l x l')
  := by
  cases l with
  | lock l =>
      simp only [machine, step, Outcome.lift_eq_goto_iff, id_eq] at h
      rcases h with ⟨s₁, l₁, h, rfl, rfl⟩ | ⟨_, _, _, h⟩
      · rcases lockStep_eq_goto h with ⟨abstime, rfl, hs⟩ | ⟨st, st', w, rfl, rfl, rfl, hw⟩ |
          ⟨st, w, err, rfl, rfl, rfl, hw⟩
        · obtain ⟨-, hheld, howner, hvalid, rfl, rfl⟩ := lockStart_eq_goto hs
          apply Effect.enqueue hl hheld hvalid howner
        · rcases waitStep_eq_goto hw with ⟨timed, rfl, hport, rfl, rfl⟩ | ⟨rfl, rfl, rfl, rfl⟩ |
            ⟨rfl, -, hgone, rfl, rfl⟩
          · apply Effect.receive hl hport
          · apply Effect.timeout hl
          · apply Effect.late hl hgone
        · rcases waitStep_eq_ret hw with ⟨rfl, -, hgone, rfl, rfl⟩ | ⟨rfl, -, hstill, rfl⟩ |
            ⟨rfl, hport, rfl, rfl⟩
          · apply Effect.woken hl hgone
          · apply Effect.leave hl hstill
          · apply Effect.drain hl hport
      · cases h
  | trylock => apply absurd h trylock_ne_goto
  | unlock l =>
      simp only [machine, step, Outcome.lift_eq_goto_iff, id_eq] at h
      rcases h with ⟨⟨mx, w⟩, l₁, h, rfl, rfl⟩ | ⟨_, _, _, h⟩
      · obtain ⟨rfl, h⟩ := unlockStep_eq_goto h
        obtain ⟨-, u, rest, hq, rfl, rfl, hheld, hrel⟩ := unlockStart_eq_goto h
        apply Effect.handOver hl hq hheld hrel
      · cases h

/-- The step in which a call returns is one of the effects. -/
theorem effect_of_ret {t : T} {c : Bool} {l : Loc T} {x : World (Mutex T) T Unit} {r : Ret}
    (hl : s.loc t = some l) (hport : ∀ u ∈ (l.role ()).owes, s.shared.waits.port u = 0)
    (h : (machine b).step t l c s.shared = .ret x r) :
  Effect b s (.act t c) (s.ret t l x r)
  := by
  obtain ⟨mx, w⟩ := x
  cases l with
  | lock l =>
      simp only [machine, step, Outcome.lift_eq_ret_iff, id_eq] at h
      obtain ⟨s₁, r₁, h, h'⟩ := h
      obtain ⟨rfl, rfl⟩ := h'
      rcases lockStep_eq_ret h with ⟨abstime, rfl, hs⟩ | ⟨err, rfl, hf⟩
      · obtain ⟨-, rfl, hcase⟩ := lockStart_eq_ret hs
        rcases hcase with ⟨hfree, rfl, hgrant⟩ | ⟨hheld, hrec, hown, rfl, rfl⟩ |
          ⟨hheld, -, -, rfl, rfl⟩ | ⟨hheld, hbad, rfl, rfl⟩
        · apply Effect.grant hl rfl hfree hgrant
        · apply Effect.again hl rfl hheld hrec hown
        · apply Effect.refuse hl rfl hheld (Or.inl rfl)
        · apply Effect.refuse hl rfl hheld (Or.inr ⟨abstime, rfl, hbad⟩)
      · obtain ⟨rfl, ⟨rfl, rfl, rfl⟩ | ⟨rfl, rfl, hheld, hlock, hattr, howner, hlocks⟩⟩ :=
          lockFinish_eq_ret hf
        · apply Effect.expire hl
        · apply Effect.settle hl hheld hlock hattr howner hlocks
  | trylock =>
      obtain ⟨-, rfl, hcase⟩ := trylock_eq_ret h
      rcases hcase with ⟨hfree, rfl, hgrant⟩ | ⟨hheld, hrec, hown, rfl, rfl⟩ | ⟨hheld, rfl, rfl⟩
      · apply Effect.grant hl rfl hfree hgrant
      · apply Effect.again hl rfl hheld hrec hown
      · apply Effect.refuse hl rfl hheld (Or.inl rfl)
  | unlock l =>
      simp only [machine, step, Outcome.lift_eq_ret_iff, id_eq] at h
      obtain ⟨s₁, r₁, h, h'⟩ := h
      obtain ⟨rfl, rfl⟩ := h'
      rcases unlockStep_eq_ret hport h with ⟨rfl, h⟩ | ⟨u, rfl, hx, rfl⟩
      · obtain ⟨-, rfl, hcase⟩ := unlockStart_eq_ret h
        rcases hcase with ⟨hchecked, howner, rfl, rfl⟩ | ⟨hrec, hown, hmore, rfl, rfl⟩ |
          ⟨hq, rfl, hfree, hrel⟩
        · apply Effect.deny hl hchecked howner
        · apply Effect.inner hl hrec hown hmore
        · apply Effect.release hl hq hfree hrel
      · obtain ⟨rfl, rfl⟩ := World.mk.inj hx
        apply Effect.wakeup hl

/-- Every step of the system is one of the effects. -/
theorem effect_of_step [Fintype T]
    (hsound : Sound (fun _ => False) (roles (fun _ => Loc.role ()) s) s.shared.waits)
    (h : (machine b).Step s a s') :
  Effect b s a s'
  := by
  cases h with
  | call hidle hentry => apply Effect.call hidle hentry
  | goto hl hstep => apply effect_of_goto hl hstep
  | @ret t c l x r hl hstep =>
      apply effect_of_ret hl _ hstep
      intro u hu
      apply hsound.port_of_owes (t := t)
      simp [roles, hl, hu]

/-! ### The ownership invariant -/

/-- A number of acquisitions as the mutex counts it: a recursive mutex counts in an
`unsigned`. -/
def tally (attr : Option MutexType) (n : Nat) : Nat :=
  if attr = some .recursive then n % 2 ^ 32 else n

/-- The mutex belongs to no thread. -/
structure Free (b : Build) (s : Sys T) : Prop where
  queue : s.shared.waits.queue () = []
  owner : s.shared.obj.tracked b = true → s.shared.obj.owner = none
  none : ∀ t, handed t s.log = false ∧ tally s.shared.obj.attr (depth t s.log) = 0

/-- The mutex belongs to the thread `h` and to no other. -/
structure Holder (b : Build) (s : Sys T) (h : T) : Prop where
  others : ∀ t, t ≠ h → handed t s.log = false ∧ tally s.shared.obj.attr (depth t s.log) = 0
  chosen : handed h s.log = true → tally s.shared.obj.attr (depth h s.log) = 0 ∧
    (s.shared.obj.attr = some .recursive → s.shared.obj.locks = 0)
  kept : handed h s.log = false →
    (s.shared.obj.attr = some .recursive → depth h s.log % 2 ^ 32 = s.shared.obj.locks) ∧
    (s.shared.obj.attr ≠ some .recursive → depth h s.log ≤ 1)
  owner : s.shared.obj.tracked b = true → s.shared.obj.owner = some h ∨
    (b.ndebug = true ∧ s.shared.obj.owner = none ∧
      tally s.shared.obj.attr (depth h s.log) = 0)

/-- A thread has been handed the mutex exactly when its place in the code says so: not
outside the lock function, and while it waits, when it is no longer linked. -/
def Placed (s : Sys T) (t : T) : Prop :=
  match s.loc t with
  | some (.lock (.wait .drain)) => handed t s.log = true
  | some (.lock (.wait _)) => handed t s.log = true ↔ s.shared.waits.prevp t = none
  | some (.lock (.finish false)) => handed t s.log = true
  | some (.lock (.finish true)) => True
  | _ => handed t s.log = false

/-- The ownership invariant. -/
structure Owned (b : Build) (s : Sys T) : Prop where
  free : s.shared.obj.held = false → Free b s
  taken : s.shared.obj.held = true → ∃ h, Holder b s h
  placed : ∀ t, Placed s t

/-- Steps that keep the ownership invariant: a normal mutex is unlocked only by a thread
that holds it, and a recursive one is not unlocked by an owner that does not hold it. -/
def Lawful (s : Sys T) : Label T (Loc T) → Prop
  | .call _ _ => True
  | .act t _ => s.loc t = some (.unlock .start) →
    (s.shared.obj.isNormal = true → 0 < depth t s.log) ∧
    (s.shared.obj.attr = some .recursive → s.shared.obj.owner = some t →
      s.shared.obj.locks = 0 → 0 < depth t s.log)

/-- What a step does to a thread other than the one that takes it: nothing, or it is the
first of the queue and is handed the mutex. -/
theorem Effect.other {t : T} (h : Effect b s a s') (ht : t ≠ a.thread) :
  s'.loc t = s.loc t ∧ depth t s'.log = depth t s.log ∧
    ((handed t s'.log = handed t s.log ∧ s'.shared.waits.prevp t = s.shared.waits.prevp t) ∨
      (t ∈ s.shared.waits.queue () ∧ handed t s'.log = true ∧ s'.shared.waits.prevp t = none))
  := by
  have hne := ht.symm
  cases h with
  | @handOver u v c mx rest hl hfirst =>
      by_cases hv : v = t
      · simp_all [depth, handed]
      · have hne' : t ≠ v := Ne.symm hv
        simp_all [depth, handed]
  | _ => simp_all [depth, handed]

/-- A queued thread is before its receive or before looking at its link. -/
theorem loc_of_queued [Fintype T]
    (hsound : Sound (fun _ => False) (roles (fun _ => Loc.role ()) s) s.shared.waits) {u : T}
    (hu : u ∈ s.shared.waits.queue ()) :
  (∃ timed, s.loc u = some (.lock (.wait (.block timed)))) ∨
    ∃ err, s.loc u = some (.lock (.wait (.recheck err)))
  := by
  have hq := (hsound.queued hu).1
  have hp := hsound.linked () u hu
  have hd := hsound.drained u ()
  cases hl : s.loc u with
  | none => simp [roles, hl, Role.idle] at hq
  | some l =>
      rcases l with (_ | (_ | _ | _) | _) | _ | _
      all_goals simp_all [roles, Loc.role, LockLoc.phase, Stage.phase, Role.idle]

/-- Every step keeps the threads in their places. -/
theorem Effect.placed [Fintype T]
    (hsound : Sound (fun _ => False) (roles (fun _ => Loc.role ()) s) s.shared.waits)
    (ho : Owned b s) (h : Effect b s a s') (t : T) :
  Placed s' t
  := by
  have hp := ho.placed t
  by_cases ht : t = a.thread
  · subst ht
    cases h with
    | @call t l hidle hentry =>
        rcases l with (_ | _ | _) | _ | (_ | _)
        all_goals simp_all [Placed, machine, Loc.entry, handed]
    | @leave t c err hl hstill =>
        -- a waiter that has received its message is no longer linked
        have := hsound.gone_of_received (t := t) (q := ())
        cases err
        all_goals simp_all [Placed, roles, Loc.role, LockLoc.phase, Stage.phase]
    | @handOver t u c mx rest hl hfirst =>
        have hu := loc_of_queued hsound (u := u) (by simp [hfirst])
        have hne : u ≠ t := by grind
        simp_all [Placed, handed]
    | _ => simp_all [Placed, handed]
  · obtain ⟨hloc, -, ⟨hh, hprevp⟩ | ⟨hq, hh, hprevp⟩⟩ := h.other ht
    · simp only [Placed, hloc, hh, hprevp] at hp ⊢
      apply hp
    · rcases loc_of_queued hsound hq with ⟨_, hl⟩ | ⟨_, hl⟩
      all_goals simp [Placed, hloc, hh, hprevp, hl]


/-- A thread that has been handed the mutex is the one it belongs to. -/
theorem Owned.holder_of_handed (ho : Owned b s) {t : T} (ht : handed t s.log = true) :
  s.shared.obj.held = true ∧ Holder b s t
  := by
  cases hheld : s.shared.obj.held with
  | false =>
      have := ((ho.free hheld).none t).1
      simp_all
  | true =>
      obtain ⟨h, hh⟩ := ho.taken hheld
      have := hh.others t
      grind

/-- A thread with an acquisition that is counted is the one the mutex belongs to. -/
theorem Owned.holder_of_depth (ho : Owned b s) {t : T}
    (ht : tally s.shared.obj.attr (depth t s.log) ≠ 0) :
  s.shared.obj.held = true ∧ Holder b s t
  := by
  cases hheld : s.shared.obj.held with
  | false => apply absurd ((ho.free hheld).none t).2 ht
  | true =>
      obtain ⟨h, hh⟩ := ho.taken hheld
      have := hh.others t
      grind

/-- The thread in `owner` is the one the mutex belongs to. -/
theorem Owned.holder_of_owner (ho : Owned b s) {t : T}
    (htracked : s.shared.obj.tracked b = true) (ht : s.shared.obj.owner = some t) :
  s.shared.obj.held = true ∧ Holder b s t
  := by
  cases hheld : s.shared.obj.held with
  | false =>
      have := (ho.free hheld).owner htracked
      simp_all
  | true =>
      obtain ⟨h, hh⟩ := ho.taken hheld
      have := hh.owner htracked
      grind

/-- A thread that releases the mutex is the one it belongs to. -/
theorem Owned.holder_of_release (ho : Owned b s) {t : T} {c : Bool} {mx : Mutex T}
    {owner : Option T} (hG : Lawful s (.act t c)) (hl : s.loc t = some (.unlock .start))
    (hrel : Released b t s.shared.obj mx owner) :
  s.shared.obj.held = true ∧ Holder b s t
  := by
  cases hn : s.shared.obj.isNormal with
  | true =>
      apply ho.holder_of_depth
      have := (hG hl).1 hn
      rw [tally, if_neg]
      · omega
      · intro hattr
        simp [isNormal, hattr] at hn
  | false =>
      have htracked : s.shared.obj.tracked b = true := by
        simp [tracked, hn]
      apply ho.holder_of_owner htracked (hrel.was htracked)

/-- After a release the thread that released the mutex has no acquisition left that is
counted. -/
theorem Holder.tally_pred {t : T} {mx : Mutex T} {owner : Option T} (hh : Holder b s t)
    (hnot : handed t s.log = false) (hrel : Released b t s.shared.obj mx owner) :
  tally s.shared.obj.attr (depth t s.log - 1) = 0
  := by
  obtain ⟨hrec, hnonrec⟩ := hh.kept hnot
  rw [tally]
  split
  · rename_i hattr
    have h₁ := hrec hattr
    have h₂ := (hrel.last hattr).1
    rw [decLocks] at h₂
    omega
  · rename_i hattr
    have := hnonrec hattr
    omega

/-- A step changes neither the mutex, except for `__lock`, nor what the history says about
its ownership. -/
structure Quiet (s s' : Sys T) : Prop where
  obj : ∃ lock, s'.shared.obj = { s.shared.obj with lock := lock }
  handed : ∀ t, handed t s'.log = handed t s.log
  depth : ∀ t, depth t s'.log = depth t s.log

theorem Holder.quiet {h : T} (hh : Holder b s h) (hq : Quiet s s') :
  Holder b s' h
  := by
  obtain ⟨hothers, hchosen, hkept, howner⟩ := hh
  obtain ⟨⟨lock, hobj⟩, hhanded, hdepth⟩ := hq
  constructor
  all_goals simpa only [hhanded, hdepth, hobj]

theorem Free.quiet (hf : Free b s) (hq : Quiet s s')
    (hqueue : s'.shared.waits.queue () = s.shared.waits.queue ()) :
  Free b s'
  := by
  obtain ⟨hempty, howner, hnone⟩ := hf
  obtain ⟨⟨lock, hobj⟩, hhanded, hdepth⟩ := hq
  constructor
  · rw [hqueue, hempty]
  · rw [hobj]
    apply howner
  · rw [hobj]
    simpa only [hhanded, hdepth]

theorem Quiet.call {t : T} {l : Loc T} :
  Quiet s (s.call t l)
  := by
  constructor
  · use s.shared.obj.lock
    rfl
  · simp [Mutex.handed]
  · simp [Mutex.depth]

theorem Quiet.goto {t : T} {l l' : Loc T} {w : Waits T Unit} (hl : l ≠ .unlock .start)
    (hl' : ∀ u, l' ≠ .unlock (.wakeup u)) :
  Quiet s (s.goto t l ⟨s.shared.obj, w⟩ l')
  := by
  constructor
  · use s.shared.obj.lock
    rfl
  · simp [Mutex.handed, hl']
  · simp [Mutex.depth, hl]

theorem Quiet.ret {t : T} {l : Loc T} {lock : Bool} {w : Waits T Unit} {r : Ret}
    (hnot : Mutex.handed t s.log = false) (hr : r ≠ .zero ∨ ∃ u, l = .unlock (.wakeup u)) :
  Quiet s (s.ret t l ⟨{ s.shared.obj with lock := lock }, w⟩ r)
  := by
  constructor
  · use lock
    rfl
  · intro u
    by_cases hu : t = u
    · subst hu
      simp [Mutex.handed, hnot]
    · simp [Mutex.handed, hu]
  · intro u
    rcases hr with hr | ⟨v, rfl⟩
    · simp [Mutex.depth, hr]
    · simp [Mutex.depth]

/-- A thread that asks for the mutex or unlocks it has not been handed it. -/
theorem Owned.not_handed (ho : Owned b s) {t : T} {l : Loc T} (hl : s.loc t = some l)
    (hreq : l.request = true ∨ ∃ l', l = .unlock l') :
  handed t s.log = false
  := by
  have := ho.placed t
  rcases l with (_ | _ | _) | _ | (_ | _)
  all_goals simp_all [Placed, Loc.request]

omit [DecidableEq T] in
theorem tracked_of_recursive {mx : Mutex T} (hrec : mx.attr = some .recursive) :
  mx.tracked b = true
  := by
  simp [tracked, isNormal, hrec]

omit [DecidableEq T] in
theorem tracked_congr {mx mx' : Mutex T} (hattr : mx'.attr = mx.attr) :
  mx'.tracked b = mx.tracked b
  := by
  simp [tracked, isNormal, hattr]

theorem depth_grant {t : T} {l : Loc T} {x : World (Mutex T) T Unit}
    (hl : l.request = true ∨ ∃ err, l = .lock (.finish err)) :
  depth t (s.ret t l x .zero).log = depth t s.log + 1
  := by
  rcases l with (_ | _ | _) | _ | (_ | _)
  all_goals simp_all [Loc.request, depth]

/-- The mutex is granted to `t` by a request. -/
theorem Free.grant {t : T} {l : Loc T} {mx : Mutex T} (hf : Free b s) (hl : l.request = true)
    (hgrant : Granted b t s.shared.obj mx) :
  Holder b (s.ret t l ⟨mx, s.shared.waits⟩ .zero) t
  := by
  have hattr := hgrant.attr
  constructor
  · intro u hu
    have := hf.none u
    simpa [handed, depth, Ne.symm hu, hattr]
  · simp [handed]
  · intro _
    have htally := (hf.none t).2
    simp only [depth_grant (Or.inl hl), State.ret_shared, hattr]
    grind [hgrant.locks, tally]
  · intro ht
    left
    apply hgrant.owner
    simpa [tracked_congr hattr] using ht

/-- The owner of a recursive mutex acquires it once more. -/
theorem Holder.again {t : T} {l : Loc T} (hh : Holder b s t) (hl : l.request = true)
    (hnot : handed t s.log = false) (hrec : s.shared.obj.attr = some .recursive)
    (hown : s.shared.obj.owner = some t) :
  Holder b (s.ret t l ⟨{ s.shared.obj with locks := incLocks s.shared.obj.locks }, s.shared.waits⟩
    .zero) t
  := by
  constructor
  · intro u hu
    have := hh.others u hu
    simpa [handed, depth, Ne.symm hu]
  · simp [handed]
  · intro _
    have := (hh.kept hnot).1 hrec
    simp only [depth_grant (Or.inl hl), State.ret_shared, hrec, incLocks]
    grind
  · intro _
    left
    apply hown

/-- A call that was handed the mutex returns `0`. -/
theorem Holder.settle {t : T} {mx : Mutex T} (hh : Holder b s t) (hchosen : handed t s.log = true)
    (hattr : mx.attr = s.shared.obj.attr)
    (howner : s.shared.obj.tracked b = true → mx.owner = some t)
    (hlocks : s.shared.obj.attr = some .recursive → mx.locks = 1) :
  Holder b (s.ret t (.lock (.finish false)) ⟨mx, s.shared.waits⟩ .zero) t
  := by
  constructor
  · intro u hu
    have := hh.others u hu
    simpa [handed, depth, Ne.symm hu, hattr]
  · simp [handed]
  · intro _
    have htally := (hh.chosen hchosen).1
    simp only [depth_grant (Or.inr ⟨_, rfl⟩), State.ret_shared, hattr]
    grind [tally]
  · intro ht
    left
    apply howner
    simpa [tracked_congr hattr] using ht

/-- A call that times out returns, although it may have been handed the mutex. -/
theorem Holder.expire {h t : T} {l : Loc T} {e : Errno} (hh : Holder b s h) :
  Holder b (s.ret t l s.shared (.error e)) h
  := by
  constructor
  · intro u hu
    have := hh.others u hu
    simp_all [handed, depth]
  · have := hh.chosen
    simp_all [handed, depth]
  · intro hnot
    have hc := hh.chosen
    have hk := hh.kept
    simp only [State.ret_log, State.ret_shared, handed, depth] at *
    grind [tally]
  · have := hh.owner
    simp_all [depth]

/-- The owner of a recursive mutex undoes one of its acquisitions. -/
theorem Holder.inner {t : T} (hh : Holder b s t) (hnot : handed t s.log = false)
    (hrec : s.shared.obj.attr = some .recursive) (hown : s.shared.obj.owner = some t)
    (hpos : s.shared.obj.locks = 0 → 0 < depth t s.log) :
  Holder b (s.ret t (.unlock .start)
    ⟨{ s.shared.obj with locks := decLocks s.shared.obj.locks }, s.shared.waits⟩ .zero) t
  := by
  constructor
  · intro u hu
    have := hh.others u hu
    simpa [handed, depth, Ne.symm hu]
  · simp [handed]
  · intro _
    have := (hh.kept hnot).1 hrec
    have hpred : (depth t s.log - 1) % 2 ^ 32 = decLocks s.shared.obj.locks := by
      rw [decLocks]
      omega
    simpa [depth, hrec] using hpred
  · intro _
    left
    simp [hown]

/-- The mutex is handed over to `u`. -/
theorem Holder.handOver {t u : T} {mx : Mutex T} {w : Waits T Unit} (hh : Holder b s t)
    (hnot : handed t s.log = false) (hne : u ≠ t)
    (hrel : Released b t s.shared.obj mx (if b.ndebug then none else some u)) :
  Holder b (s.goto t (.unlock .start) ⟨mx, w⟩ (.unlock (.wakeup u))) u
  := by
  have hattr := hrel.attr
  have htally := (hh.others u hne).2
  constructor
  · intro v hv
    by_cases ht : t = v
    · subst ht
      simpa [handed, depth, hnot, hne, hattr] using hh.tally_pred hnot hrel
    · simpa [handed, depth, hv, Ne.symm hv, ht, hattr] using hh.others v (Ne.symm ht)
  · intro _
    simp only [State.goto_log, State.goto_shared, depth, hattr, hne.symm]
    simp [htally]
    intro hrec
    apply (hrel.last hrec).2
  · simp [handed]
  · intro ht
    have := hrel.owner (by simpa [tracked_congr hattr] using ht)
    simp only [State.goto_log, State.goto_shared, depth, hattr]
    grind

/-- A step that leaves the mutex free leaves it without owner, holder and waiters. -/
theorem Effect.free (ho : Owned b s) (hG : Lawful s a) (h : Effect b s a s')
    (hfree : s'.shared.obj.held = false) :
  Free b s'
  := by
  cases h with
  | call hidle hentry => apply (ho.free hfree).quiet Quiet.call rfl
  | enqueue hl hheld => simp_all
  | receive hl hport =>
      apply (ho.free hfree).quiet (Quiet.goto (by simp) (by simp))
      rfl
  | timeout hl =>
      apply (ho.free hfree).quiet (Quiet.goto (by simp) (by simp))
      rfl
  | late hl hgone =>
      apply (ho.free hfree).quiet (Quiet.goto (by simp) (by simp))
      rfl
  | woken hl hgone =>
      apply (ho.free hfree).quiet (Quiet.goto (by simp) (by simp))
      rfl
  | leave hl hstill =>
      obtain ⟨q, hq⟩ := Option.ne_none_iff_exists'.mp hstill
      apply (ho.free hfree).quiet (Quiet.goto (by simp) (by simp))
      simp [Waits.dequeue_queue hq, (ho.free hfree).queue]
  | drain hl hport =>
      apply (ho.free hfree).quiet (Quiet.goto (by simp) (by simp))
      rfl
  | grant hl hrequest hheld hgrant =>
      have := hgrant.held
      simp_all
  | again hl hrequest hheld => simp_all
  | refuse hl hrequest hheld => simp_all
  | @expire t c hl =>
      apply (ho.free hfree).quiet (Quiet.ret ((ho.free hfree).none t).1 (by simp))
      rfl
  | @settle t c mx hl hheld =>
      have := (ho.free (hheld ▸ hfree)).none t
      have := ho.placed t
      simp_all [Placed]
  | @deny t c hl =>
      apply (ho.free hfree).quiet (Quiet.ret ((ho.free hfree).none t).1 (by simp))
      rfl
  | inner hl hrec hown =>
      have := (ho.holder_of_owner (tracked_of_recursive hrec) hown).1
      simp_all
  | @release t c mx hl halone hmx hrel =>
      have hnot := ho.not_handed hl (Or.inr ⟨_, rfl⟩)
      obtain ⟨-, hh⟩ := ho.holder_of_release hG hl hrel
      constructor
      · apply halone
      · intro ht
        apply hrel.owner
        simpa [tracked_congr hrel.attr] using ht
      · intro u
        by_cases hu : u = t
        · subst hu
          simp only [State.ret_shared, hrel.attr]
          simpa [handed, depth, hnot] using hh.tally_pred hnot hrel
        · simpa [handed, depth, Ne.symm hu, hrel.attr] using hh.others u hu
  | handOver hl hfirst hheld =>
      have := (ho.free (hheld ▸ hfree)).queue
      simp_all
  | @wakeup t u c hl =>
      apply (ho.free hfree).quiet (Quiet.ret ((ho.free hfree).none t).1 (by simp))
      rfl

/-- A step that leaves the mutex held leaves it to exactly one thread. -/
theorem Effect.taken [Fintype T]
    (hsound : Sound (fun _ => False) (roles (fun _ => Loc.role ()) s) s.shared.waits)
    (ho : Owned b s) (hG : Lawful s a) (h : Effect b s a s')
    (hheld : s'.shared.obj.held = true) :
  ∃ h, Holder b s' h
  := by
  cases h with
  | @grant t c l mx hl hrequest hfree hgrant =>
      use t
      apply (ho.free hfree).grant hrequest hgrant
  | @again t c l hl hrequest _ hrec hown =>
      use t
      obtain ⟨-, hh⟩ := ho.holder_of_owner (tracked_of_recursive hrec) hown
      apply hh.again hrequest (ho.not_handed hl (Or.inl hrequest)) hrec hown
  | @expire t c hl =>
      obtain ⟨h, hh⟩ := ho.taken hheld
      use h
      apply hh.expire
  | @settle t c mx hl hmx hlock hattr howner hlocks =>
      use t
      have hchosen : handed t s.log = true := by
        simpa [Placed, hl] using ho.placed t
      apply (ho.holder_of_handed hchosen).2.settle hchosen hattr howner hlocks
  | @inner t c hl hrec hown =>
      use t
      obtain ⟨-, hh⟩ := ho.holder_of_owner (tracked_of_recursive hrec) hown
      apply hh.inner (ho.not_handed hl (Or.inr ⟨_, rfl⟩)) hrec hown
      apply (hG hl).2 hrec hown
  | release hl halone hmx hrel => simp_all
  | @handOver t u c mx rest hl hfirst hmx hrel =>
      use u
      obtain ⟨-, hh⟩ := ho.holder_of_release hG hl hrel
      apply hh.handOver (ho.not_handed hl (Or.inr ⟨_, rfl⟩)) _ hrel
      have := loc_of_queued hsound (u := u) (by simp [hfirst])
      grind
  | call hidle hentry =>
      obtain ⟨h, hh⟩ := ho.taken hheld
      use h
      apply hh.quiet Quiet.call
  | refuse hl hrequest =>
      obtain ⟨h, hh⟩ := ho.taken hheld
      use h
      apply hh.quiet (Quiet.ret (ho.not_handed hl (Or.inl hrequest)) (by simp))
  | deny hl =>
      obtain ⟨h, hh⟩ := ho.taken hheld
      use h
      apply hh.quiet (Quiet.ret (ho.not_handed hl (Or.inr ⟨_, rfl⟩)) (by simp))
  | wakeup hl =>
      obtain ⟨h, hh⟩ := ho.taken hheld
      use h
      apply hh.quiet (Quiet.ret (ho.not_handed hl (Or.inr ⟨_, rfl⟩)) (by simp))
  | _ =>
      -- the steps inside a wait
      obtain ⟨h, hh⟩ := ho.taken hheld
      use h
      apply hh.quiet (Quiet.goto (by simp) (by simp))

theorem sound_of_reach [Fintype T] {attr : Option MutexType} {G : Sys T → Label T (Loc T) → Prop}
    (hs : (machine b).Reach G (State.idle ⟨Mutex.init attr, Waits.empty⟩) s) :
  Sound (fun _ => False) (roles (fun _ => Loc.role ()) s) s.shared.waits
  := ((conforms b).sound (fun _ _ _ _ => trivial) hs).2

/-- The ownership invariant holds in every state reached by lawful steps. -/
theorem owned_of_reach [Fintype T] {G : Sys T → Label T (Loc T) → Prop} {attr : Option MutexType}
    (hG : ∀ s a, G s a → Lawful s a)
    (hs : (machine b).Reach G (State.idle ⟨Mutex.init attr, Waits.empty⟩) s) :
  Owned b s
  := by
  apply hs.invariant
  · constructor
    · intro _
      constructor
      · rfl
      · intro _
        rfl
      · simp [handed, depth, tally]
    · simp [Mutex.init]
    · simp [Placed, handed]
  · intro s a s' hreach ho hg hstep
    have hsound := sound_of_reach hreach
    have heffect := effect_of_step hsound hstep
    constructor
    · apply heffect.free ho (hG s a hg)
    · apply heffect.taken hsound ho (hG s a hg)
    · apply heffect.placed hsound ho

/-- Thread `1` times out while thread `0` hands the mutex over to it, so that thread `1`
becomes its owner although its call returns `ETIMEDOUT`. -/
def crossing {T : Type} (t u : T) : List (Label T (Loc T)) :=
  [.call t (.lock (.start none)), .act t false,
   .call u (.lock (.start (some ⟨0, 0⟩))), .act u false, .act u true,
   .call t (.unlock .start), .act t false, .act t false,
   .act u false, .act u false, .act u false]

end Mutex

end LibPthread
