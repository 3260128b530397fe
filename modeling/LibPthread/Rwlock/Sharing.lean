import LibPthread.Rwlock.Functions

/-!
# The holders of an rwlock

The shares that a thread has in an rwlock are read off the log of a run: a thread gains a
share when a request of it succeeds or when an unlock dequeues it, and loses one with its
unlock. Readers and writers exclude each other, and `readers`, `__held` and the two queues
agree with the shares, in every run in which `readers` stays in the range of `int`.
-/

open Concurrency

namespace LibPthread

namespace Rwlock

/-! ### The history of a run -/

/-- The log of a run. -/
abbrev Log (T : Type) :=
  List (Event T (Loc T) Ret)

/-- The mode for which a call asks at the control point. -/
def Loc.request {T : Type} : Loc T → Option Mode
  | .lock mode (.start _) => some mode
  | .lock _ (.wait _) => none
  | .lock _ (.finish _) => none
  | .trylock mode => some mode
  | .unlock _ => none

/-- The threads to which an unlock that goes on to the control point has passed the rwlock
in the given mode. -/
def Loc.chosen {T : Type} : Loc T → Mode → List T
  | .unlock (.wakeup u), mode => if mode = .wr then [u] else []
  | .unlock (.wakeAll us), mode => if mode = .rd then us else []
  | _, _ => []

/-- The shares that remain after an unlock. -/
def leave (x : Mode → Nat) : Mode → Nat
  | .wr => x .wr - 1
  | .rd => if x .wr = 0 then x .rd - 1 else x .rd

variable {T : Type} [DecidableEq T]

/-- The number of shares of `t` in each mode. -/
def shares (t : T) : Log T → Mode → Nat
  | [], _ => 0
  | .call _ _ :: log, mode => shares t log mode
  | .goto u l l' :: log, mode =>
    if l = .unlock .start then
      (if u = t then leave (shares t log) mode else shares t log mode) + (l'.chosen mode).count t
    else shares t log mode
  | .ret u l r :: log, mode =>
    if u = t ∧ r = .zero then
      if l = .unlock .start then leave (shares t log) mode
      else if l.request = some mode then shares t log mode + 1
      else shares t log mode
    else shares t log mode

/-- The number of lock and trylock calls of `t` that returned `0` and are not yet undone by
an unlock of `t`. -/
def acquired (t : T) : Log T → Nat
  | [] => 0
  | .call _ _ :: log => acquired t log
  | .goto u l _ :: log =>
    if u = t ∧ l = .unlock .start then acquired t log - 1 else acquired t log
  | .ret u l r :: log =>
    if u = t ∧ r = .zero then
      match l with
      | .lock _ _ => acquired t log + 1
      | .trylock _ => acquired t log + 1
      | .unlock .start => acquired t log - 1
      | .unlock _ => acquired t log
    else acquired t log

/-- An unlock has dequeued `t` for the rwlock and the lock call of `t` has not returned
since. -/
def handed (t : T) : Log T → Bool
  | [] => false
  | .call _ _ :: log => handed t log
  | .goto _ l l' :: log =>
    (l = .unlock .start && (t ∈ l'.chosen .rd || t ∈ l'.chosen .wr)) || handed t log
  | .ret u _ _ :: log => u ≠ t && handed t log

/-- The acquisitions of `t`, including the one on its way to it. -/
def claims (t : T) (log : Log T) : Nat :=
  acquired t log + if handed t log then 1 else 0

/-- The shares of `t` in both modes. -/
def owns (t : T) (log : Log T) : Nat :=
  shares t log .rd + shares t log .wr

/-- The number of shares of all threads. -/
def total [Fintype T] (log : Log T) (mode : Mode) : Nat :=
  ∑ t, shares t log mode

/-! ### The effects of the steps -/

/-- What the steps of the system do, one constructor for each kind of step. -/
inductive Effect (b : Build) (s : Sys T) : Label T (Loc T) → Sys T → Prop where
  | call {t : T} {l : Loc T} (idle : s.loc t = none)
    (entry : (machine (T := T) b).entry l = true) :
    Effect b s (.call t l) (s.call t l)
  | enqueue {t : T} {c : Bool} {mode : Mode} {abstime : Option Timespec}
    (at_l : s.loc t = some (.lock mode (.start abstime))) (held : s.shared.obj.held = true)
    (alone : mode = .rd → s.shared.obj.readers ≤ 0) :
    Effect b s (.act t c) (s.goto t (.lock mode (.start abstime))
      ⟨s.shared.obj, s.shared.waits.enqueue mode t⟩
      (.lock mode (.wait (.block abstime.isSome))))
  | receive {t : T} {c timed : Bool} {mode : Mode}
    (at_l : s.loc t = some (.lock mode (.wait (.block timed)))) :
    Effect b s (.act t c) (s.goto t (.lock mode (.wait (.block timed)))
      ⟨s.shared.obj, s.shared.waits.receive t⟩ (.lock mode (.wait (.recheck false))))
  | timeout {t : T} {mode : Mode} (at_l : s.loc t = some (.lock mode (.wait (.block true)))) :
    Effect b s (.act t true) (s.goto t (.lock mode (.wait (.block true))) s.shared
      (.lock mode (.wait (.recheck true))))
  | late {t : T} {c : Bool} {mode : Mode}
    (at_l : s.loc t = some (.lock mode (.wait (.recheck true))))
    (gone : s.shared.waits.prevp t = none) :
    Effect b s (.act t c) (s.goto t (.lock mode (.wait (.recheck true))) s.shared
      (.lock mode (.wait .drain)))
  | woken {t : T} {c : Bool} {mode : Mode}
    (at_l : s.loc t = some (.lock mode (.wait (.recheck false))))
    (gone : s.shared.waits.prevp t = none) :
    Effect b s (.act t c) (s.goto t (.lock mode (.wait (.recheck false))) s.shared
      (.lock mode (.finish false)))
  | leave {t : T} {c err : Bool} {mode : Mode}
    (at_l : s.loc t = some (.lock mode (.wait (.recheck err))))
    (still : s.shared.waits.prevp t ≠ none) :
    Effect b s (.act t c) (s.goto t (.lock mode (.wait (.recheck err)))
      ⟨s.shared.obj, s.shared.waits.dequeue t⟩ (.lock mode (.finish err)))
  | drain {t : T} {c : Bool} {mode : Mode} (at_l : s.loc t = some (.lock mode (.wait .drain))) :
    Effect b s (.act t c) (s.goto t (.lock mode (.wait .drain))
      ⟨s.shared.obj, s.shared.waits.receive t⟩ (.lock mode (.finish true)))
  | grant {t : T} {c : Bool} {l : Loc T} {mode : Mode} (at_l : s.loc t = some l)
    (request : l.request = some mode) (free : s.shared.obj.held = false) :
    Effect b s (.act t c) (s.ret t l
      ⟨⟨true, false, s.shared.obj.freshReaders mode⟩, s.shared.waits⟩ .zero)
  | join {t : T} {c : Bool} {l : Loc T} (at_l : s.loc t = some l)
    (request : l.request = some .rd) (held : s.shared.obj.held = true)
    (shared : 0 < s.shared.obj.readers) :
    Effect b s (.act t c) (s.ret t l
      ⟨{ s.shared.obj with readers := toInt (s.shared.obj.readers + 1) }, s.shared.waits⟩ .zero)
  | refuse {t : T} {c : Bool} {l : Loc T} {mode : Mode} {lock : Bool} {e : Errno}
    (at_l : s.loc t = some l) (request : l.request = some mode) :
    Effect b s (.act t c) (s.ret t l ⟨{ s.shared.obj with lock := lock }, s.shared.waits⟩
      (.error e))
  | expire {t : T} {c : Bool} {mode : Mode} (at_l : s.loc t = some (.lock mode (.finish true))) :
    Effect b s (.act t c) (s.ret t (.lock mode (.finish true)) s.shared (.error .ETIMEDOUT))
  | settle {t : T} {c : Bool} {mode : Mode}
    (at_l : s.loc t = some (.lock mode (.finish false))) :
    Effect b s (.act t c) (s.ret t (.lock mode (.finish false)) s.shared .zero)
  | depart {t : T} {c : Bool} (at_l : s.loc t = some (.unlock .start))
    (others : 1 < s.shared.obj.readers) :
    Effect b s (.act t c) (s.ret t (.unlock .start)
      ⟨{ s.shared.obj with readers := s.shared.obj.readers - 1 }, s.shared.waits⟩ .zero)
  | release {t : T} {c : Bool} (at_l : s.loc t = some (.unlock .start))
    (last : s.shared.obj.readers ≤ 1) (alone : ∀ mode, s.shared.waits.queue mode = []) :
    Effect b s (.act t c) (s.ret t (.unlock .start)
      ⟨⟨false, false, s.shared.obj.lastReaders⟩, s.shared.waits⟩ .zero)
  | handOver {t u : T} {c : Bool} {rest : List T} (at_l : s.loc t = some (.unlock .start))
    (last : s.shared.obj.readers ≤ 1) (first : s.shared.waits.queue .wr = u :: rest) :
    Effect b s (.act t c) (s.goto t (.unlock .start)
      ⟨⟨s.shared.obj.held, false, s.shared.obj.lastReaders⟩, s.shared.waits.dequeue u⟩
      (.unlock (.wakeup u)))
  | handAll {t : T} {c : Bool} (at_l : s.loc t = some (.unlock .start))
    (last : s.shared.obj.readers ≤ 1) (no_writer : s.shared.waits.queue .wr = [])
    (some : s.shared.waits.queue .rd ≠ []) :
    Effect b s (.act t c) (s.goto t (.unlock .start)
      ⟨⟨s.shared.obj.held, true,
        toInt (s.shared.obj.lastReaders + (s.shared.waits.queue .rd).length)⟩,
        s.shared.waits.dequeueAll .rd⟩ (.unlock (.wakeAll (s.shared.waits.queue .rd))))
  | wakeup {t u : T} {c : Bool} (at_l : s.loc t = some (.unlock (.wakeup u))) :
    Effect b s (.act t c) (s.ret t (.unlock (.wakeup u))
      ⟨s.shared.obj, s.shared.waits.send u⟩ .zero)
  | wakeNext {t u : T} {c : Bool} {us : List T}
    (at_l : s.loc t = some (.unlock (.wakeAll (u :: us)))) :
    Effect b s (.act t c) (s.goto t (.unlock (.wakeAll (u :: us)))
      ⟨s.shared.obj, s.shared.waits.send u⟩ (.unlock (.wakeAll us)))
  | wakeLast {t : T} {c : Bool} (at_l : s.loc t = some (.unlock (.wakeAll []))) :
    Effect b s (.act t c) (s.ret t (.unlock (.wakeAll []))
      ⟨{ s.shared.obj with lock := false }, s.shared.waits⟩ .zero)

variable {b : Build} {s s' : Sys T} {a : Label T (Loc T)}

theorem effect_of_goto {t : T} {c : Bool} {l l' : Loc T} {x : World Rwlock T Mode}
    (hl : s.loc t = some l) (hport : ∀ u ∈ (l.role id).owes, s.shared.waits.port u = 0)
    (h : (machine b).step t l c s.shared = .goto x l') :
  Effect b s (.act t c) (s.goto t l x l')
  := by
  cases l with
  | lock mode l =>
      simp only [machine, step, Outcome.lift_eq_goto_iff, id_eq] at h
      rcases h with ⟨s₁, l₁, h, rfl, rfl⟩ | ⟨_, _, _, h⟩
      · rcases lockStep_eq_goto h with ⟨abstime, rfl, hs⟩ | ⟨st, st', w, rfl, rfl, rfl, hw⟩ |
          ⟨st, w, err, rfl, rfl, rfl, hw⟩
        · obtain ⟨-, hheld, halone, -, rfl, rfl⟩ := lockStart_eq_goto hs
          apply Effect.enqueue hl hheld halone
        · rcases waitStep_eq_goto hw with ⟨timed, rfl, -, rfl, rfl⟩ | ⟨rfl, rfl, rfl, rfl⟩ |
            ⟨rfl, -, hgone, rfl, rfl⟩
          · apply Effect.receive hl
          · apply Effect.timeout hl
          · apply Effect.late hl hgone
        · rcases waitStep_eq_ret hw with ⟨rfl, -, hgone, rfl, rfl⟩ | ⟨rfl, -, hstill, rfl⟩ |
            ⟨rfl, -, rfl, rfl⟩
          · apply Effect.woken hl hgone
          · apply Effect.leave hl hstill
          · apply Effect.drain hl
      · cases h
  | trylock mode => apply absurd h trylock_ne_goto
  | unlock l =>
      simp only [machine, step, Outcome.lift_eq_goto_iff, id_eq] at h
      rcases h with ⟨s₁, l₁, h, rfl, rfl⟩ | ⟨_, _, _, h⟩
      · rcases unlockStep_eq_goto hport h with ⟨rfl, h⟩ | ⟨u, us, rfl, rfl, rfl⟩
        · obtain ⟨-, hlast, ⟨u, rest, hq, rfl, rfl⟩ | ⟨u, us, hwr, hrd, rfl, rfl⟩⟩ :=
            unlockStart_eq_goto h
          · apply Effect.handOver hl hlast hq
          · rw [id_eq] at hrd
            have heffect := Effect.handAll (b := b) (c := c) hl hlast hwr (by simp [hrd])
            simpa only [hrd, id_eq] using heffect
        · apply Effect.wakeNext hl
      · cases h

theorem effect_of_ret {t : T} {c : Bool} {l : Loc T} {x : World Rwlock T Mode} {r : Ret}
    (hl : s.loc t = some l) (hport : ∀ u ∈ (l.role id).owes, s.shared.waits.port u = 0)
    (h : (machine b).step t l c s.shared = .ret x r) :
  Effect b s (.act t c) (s.ret t l x r)
  := by
  obtain ⟨rw, w⟩ := x
  cases l with
  | lock mode l =>
      simp only [machine, step, Outcome.lift_eq_ret_iff, id_eq] at h
      obtain ⟨s₁, r₁, h, h'⟩ := h
      obtain ⟨rfl, rfl⟩ := h'
      rcases lockStep_eq_ret h with ⟨abstime, rfl, hs⟩ | ⟨err, rfl, hf⟩
      · obtain ⟨-, rfl, hcase⟩ := lockStart_eq_ret hs
        rcases hcase with ⟨hfree, rfl, rfl⟩ | ⟨hheld, rfl, hpos, rfl, rfl⟩ | ⟨-, -, rfl, rfl⟩
        · apply Effect.grant hl rfl hfree
        · apply Effect.join hl rfl hheld hpos
        · apply Effect.refuse hl rfl
      · obtain ⟨hx, rfl⟩ := lockFinish_eq_ret hf
        obtain ⟨rfl, rfl⟩ := World.mk.inj hx
        cases err with
        | true => apply Effect.expire hl
        | false => apply Effect.settle hl
  | trylock mode =>
      obtain ⟨-, rfl, hcase⟩ := trylock_eq_ret h
      rcases hcase with ⟨hfree, rfl, rfl⟩ | ⟨hheld, rfl, hpos, rfl, rfl⟩ | ⟨-, rfl, rfl⟩
      · apply Effect.grant hl rfl hfree
      · apply Effect.join hl rfl hheld hpos
      · apply Effect.refuse hl rfl
  | unlock l =>
      simp only [machine, step, Outcome.lift_eq_ret_iff, id_eq] at h
      obtain ⟨s₁, r₁, h, h'⟩ := h
      obtain ⟨rfl, rfl⟩ := h'
      rcases unlockStep_eq_ret hport h with ⟨rfl, h⟩ | ⟨u, rfl, hx, rfl⟩ | ⟨rfl, hx, rfl⟩
      · obtain ⟨-, rfl, rfl, ⟨hmore, rfl⟩ | ⟨hlast, halone, rfl⟩⟩ := unlockStart_eq_ret h
        · apply Effect.depart hl hmore
        · apply Effect.release hl hlast halone
      · obtain ⟨rfl, rfl⟩ := World.mk.inj hx
        apply Effect.wakeup hl
      · obtain ⟨rfl, rfl⟩ := World.mk.inj hx
        apply Effect.wakeLast hl

/-- Every step of the system is one of the effects. -/
theorem effect_of_step [Fintype T]
    (hsound : Sound (fun _ => False) (roles (fun _ => Loc.role id) s) s.shared.waits)
    (h : (machine b).Step s a s') :
  Effect b s a s'
  := by
  have hport : ∀ t l, s.loc t = some l → ∀ u ∈ (l.role id).owes, s.shared.waits.port u = 0 := by
    intro t l hl u hu
    apply hsound.port_of_owes (t := t)
    simp [roles, hl, hu]
  cases h with
  | call hidle hentry => apply Effect.call hidle hentry
  | goto hl hstep => apply effect_of_goto hl (hport _ _ hl) hstep
  | ret hl hstep => apply effect_of_ret hl (hport _ _ hl) hstep

/-! ### Readers and writers exclude each other -/

/-- A thread has been dequeued for the rwlock exactly when its place in the code says so,
and has a share then. -/
def Placed (s : Sys T) (t : T) : Prop :=
  match s.loc t with
  | some (.lock mode (.wait .drain)) => handed t s.log = true ∧ 0 < shares t s.log mode
  | some (.lock mode (.wait _)) => (handed t s.log = true ↔ s.shared.waits.prevp t = none) ∧
    (handed t s.log = true → 0 < shares t s.log mode)
  | some (.lock mode (.finish false)) => handed t s.log = true ∧ 0 < shares t s.log mode
  | some (.lock _ (.finish true)) => True
  | some (.unlock .start) => handed t s.log = false ∧ 0 < acquired t s.log
  | _ => handed t s.log = false

/-- The fields of the rwlock agree with the numbers of shares in each mode, and readers and
writers exclude each other. -/
structure Balanced (rw : Rwlock) (total : Mode → Nat) : Prop where
  lt : total .rd < 2 ^ 31
  readers : rw.readers = total .rd
  one : total .wr ≤ 1
  exclusive : total .wr = 0 ∨ total .rd = 0
  held : rw.held = false ↔ total .wr = 0 ∧ total .rd = 0

/-- The invariant of an rwlock: its fields and its queues agree with the shares of the
threads. -/
structure Exclusive [Fintype T] (s : Sys T) : Prop where
  balanced : Balanced s.shared.obj (total s.log)
  queues : s.shared.obj.held = false → ∀ mode, s.shared.waits.queue mode = []
  queue : 0 < s.shared.obj.readers → s.shared.waits.queue .rd = []
  /-- The acquisitions of a thread, and the one on its way, are shares of it. -/
  claims : ∀ t, claims t s.log ≤ owns t s.log
  placed : ∀ t, Placed s t

section Totals

variable [Fintype T]

theorem shares_le_total (t : T) (log : Log T) (mode : Mode) :
  shares t log mode ≤ total log mode
  := Finset.single_le_sum (f := fun t => shares t log mode) (fun _ _ => Nat.zero_le _)
    (Finset.mem_univ t)

/-- The total changes as much as the shares of the only thread whose shares change. -/
theorem total_change (t : T) (log log' : Log T) (mode : Mode)
    (h : ∀ u, u ≠ t → shares u log' mode = shares u log mode) :
  total log' mode + shares t log mode = total log mode + shares t log' mode
  := sum_change h

theorem total_congr {log log' : Log T} {mode : Mode}
    (h : ∀ u, shares u log' mode = shares u log mode) :
  total log' mode = total log mode
  := by
  simp [total, h]

/-- The total after an unlock of `t` that passes the rwlock on. -/
theorem total_unlock (t : T) (l' : Loc T) (log : Log T) (mode : Mode) :
  total (.goto t (.unlock .start) l' :: log) mode + shares t log mode
    = total log mode + leave (shares t log) mode + (l'.chosen mode).length
  := by
  have hcount : ∑ u, (l'.chosen mode).count u = (l'.chosen mode).length := by
    simpa using Multiset.sum_count_eq_card (s := Finset.univ)
      (m := (l'.chosen mode : Multiset T)) (by simp)
  have hleave : ∑ u, (if t = u then leave (shares u log) mode else shares u log mode)
      + shares t log mode = ∑ u, shares u log mode + leave (shares t log) mode := by
    have := sum_change (f := fun u => shares u log mode)
      (g := fun u => if t = u then leave (shares u log) mode else shares u log mode) (t := t)
      (fun u hu => if_neg (Ne.symm hu))
    simpa using this
  simp only [total, shares, if_true, Finset.sum_add_distrib]
  omega

end Totals

section Steps

variable [Fintype T]

/-- What a step does to a thread other than the one that takes it: nothing, or an unlock
dequeues it and passes it a share. -/
theorem Effect.other {t : T}
    (hsound : Sound (fun _ => False) (roles (fun _ => Loc.role id) s) s.shared.waits)
    (h : Effect b s a s') (ht : t ≠ a.thread) :
  s'.loc t = s.loc t ∧ acquired t s'.log = acquired t s.log ∧
    ((handed t s'.log = handed t s.log ∧ s'.shared.waits.prevp t = s.shared.waits.prevp t ∧
        ∀ mode, shares t s'.log mode = shares t s.log mode) ∨
      ∃ mode, t ∈ s.shared.waits.queue mode ∧ handed t s'.log = true ∧
        s'.shared.waits.prevp t = none ∧
        ∀ m, shares t s'.log m = shares t s.log m + if m = mode then 1 else 0)
  := by
  have hne := ht.symm
  cases h with
  | @handOver u v c rest hl hlast hfirst =>
      replace hne : u ≠ t := hne
      use (by simp [hne.symm]), (by simp [acquired, hne])
      by_cases hv : v = t
      · right
        use .wr
        simp [hfirst, hv, handed, shares, Loc.chosen, hne]
        grind
      · left
        simp [handed, shares, Loc.chosen, hne, Ne.symm hv]
        grind
  | @handAll u c hl hlast hwr hrd =>
      replace hne : u ≠ t := hne
      use (by simp [hne.symm]), (by simp [acquired, hne])
      by_cases hm : t ∈ s.shared.waits.queue .rd
      · right
        use .rd
        have hone := List.count_eq_one_of_mem (hsound.nodup .rd) hm
        simp [hm, handed, shares, Loc.chosen, hne]
        grind
      · left
        have hzero := List.count_eq_zero_of_not_mem hm
        simp [hm, handed, shares, Loc.chosen, hne]
        grind
  | _ => simp_all [acquired, handed, shares]

/-- A queued thread is before its receive or before looking at its link. -/
theorem loc_of_queued
    (hsound : Sound (fun _ => False) (roles (fun _ => Loc.role id) s) s.shared.waits) {u : T}
    {mode : Mode} (hu : u ∈ s.shared.waits.queue mode) :
  (∃ timed, s.loc u = some (.lock mode (.wait (.block timed)))) ∨
    ∃ err, s.loc u = some (.lock mode (.wait (.recheck err)))
  := by
  have hq := (hsound.queued hu).1
  have hp := hsound.linked mode u hu
  have hd := hsound.drained u mode
  cases hl : s.loc u with
  | none => simp [roles, hl, Role.idle] at hq
  | some l =>
      rcases l with ⟨_, _ | (_ | _ | _) | _⟩ | _ | _
      all_goals simp_all [roles, Loc.role, LockLoc.phase, Stage.phase, Role.idle]

/-- Unlocks are called only by threads that have acquired the rwlock. -/
def HolderUnlocks (s : Sys T) : Label T (Loc T) → Prop
  | .call t l => l = .unlock .start → 0 < acquired t s.log
  | .act _ _ => True

/-- Every step keeps the threads in their places. -/
theorem Effect.placed
    (hsound : Sound (fun _ => False) (roles (fun _ => Loc.role id) s) s.shared.waits)
    {t : T} (hp : Placed s t) (h : Effect b s a s') (hG : HolderUnlocks s a) :
  Placed s' t
  := by
  by_cases ht : t = a.thread
  · subst ht
    cases h with
    | @call t l hidle hentry =>
        rcases l with ⟨_, _ | _ | _⟩ | _ | (_ | _ | _)
        all_goals simp_all [Placed, machine, Loc.entry, handed, HolderUnlocks, acquired]
    | @leave t c err mode hl hstill =>
        -- a waiter that has received its message is no longer linked
        have := hsound.gone_of_received (t := t) (q := mode)
        cases err
        all_goals simp_all [Placed, roles, Loc.role, LockLoc.phase, Stage.phase]
    | @handOver t u c rest hl hlast hfirst =>
        have hm : u ∈ s.shared.waits.queue .wr := by
          simp [hfirst]
        have hne : t ≠ u := by
          have := loc_of_queued hsound hm
          grind
        simp_all [Placed, handed, Loc.chosen]
    | @handAll t c hl hlast hwr hrd =>
        have hne : t ∉ s.shared.waits.queue .rd := by
          intro hm
          have := loc_of_queued hsound hm
          grind
        simp_all [Placed, handed, Loc.chosen]
    | _ => simp_all [Placed, handed, shares, Loc.chosen]
  · obtain ⟨hloc, hacq, ⟨hh, hprevp, hshares⟩ | ⟨mode, hq, hh, hprevp, hshares⟩⟩ :=
      h.other hsound ht
    · simp only [Placed, hloc, hacq, hh, hprevp, hshares] at hp ⊢
      apply hp
    · rcases loc_of_queued hsound hq with ⟨_, hl⟩ | ⟨_, hl⟩
      all_goals simp [Placed, hloc, hh, hprevp, hl, hshares]

/-- `readers` stays in the range of `int`: a reader does not join `INT_MAX` readers, and an
unlock does not wake up more readers than that. -/
def WithinInt (s : Sys T) : Label T (Loc T) → Prop
  | .call _ _ => True
  | .act t _ =>
    ((s.loc t).any (fun l => l.request = some .rd) = true →
      s.shared.obj.readers < 2 ^ 31 - 1) ∧
    (s.loc t = some (.unlock .start) → s.shared.obj.readers ≤ 1 →
      s.shared.waits.queue .wr = [] → (s.shared.waits.queue .rd).length < 2 ^ 31)

/-- The shares of a thread that unlocks the rwlock decrease by one. -/
theorem leave_add (x : Mode → Nat) (h : 0 < x .rd + x .wr) :
  leave x .rd + leave x .wr + 1 = x .rd + x .wr
  := by
  simp only [leave]
  split
  · omega
  · omega

/-- A thread that unlocks the rwlock has a share. -/
theorem Exclusive.shares_pos (hs : Exclusive s) {t : T} (hl : s.loc t = some (.unlock .start)) :
  0 < shares t s.log .rd + shares t s.log .wr
  := by
  have hp := hs.placed t
  have hclaims := hs.claims t
  simp only [Placed, hl] at hp
  simp only [Rwlock.claims, owns] at hclaims
  omega

/-- When one of several readers unlocks the rwlock, one reader less is left. -/
theorem Exclusive.depart (hs : Exclusive s) {t : T} (hl : s.loc t = some (.unlock .start))
    (hmore : 1 < s.shared.obj.readers) :
  total s.log .wr = 0 ∧ leave (shares t s.log) .wr = shares t s.log .wr ∧
    leave (shares t s.log) .rd + 1 = shares t s.log .rd
  := by
  have hpos := hs.shares_pos hl
  have hreaders := hs.balanced.readers
  have hexcl := hs.balanced.exclusive
  have hwr := shares_le_total t s.log .wr
  have hzero : total s.log .wr = 0 := by
    omega
  simp only [leave]
  split
  · omega
  · omega

/-- When the last reader or the writer unlocks the rwlock, no share is left. -/
theorem Exclusive.last (hs : Exclusive s) {t : T} (hl : s.loc t = some (.unlock .start))
    (hlast : s.shared.obj.readers ≤ 1) (mode : Mode) :
  total s.log mode + leave (shares t s.log) mode = shares t s.log mode
  := by
  have hpos := hs.shares_pos hl
  have hreaders := hs.balanced.readers
  have hexcl := hs.balanced.exclusive
  have hone := hs.balanced.one
  have hrd := shares_le_total t s.log .rd
  have hwr := shares_le_total t s.log .wr
  cases mode with
  | rd =>
      simp only [leave]
      split
      · omega
      · omega
  | wr =>
      simp only [leave]
      omega

theorem Exclusive.lastReaders (hs : Exclusive s) (hlast : s.shared.obj.readers ≤ 1) :
  s.shared.obj.lastReaders = 0
  := by
  have hreaders := hs.balanced.readers
  simp only [Rwlock.lastReaders]
  split
  · rfl
  · omega

theorem Exclusive.held_of_unlock (hs : Exclusive s) {t : T}
    (hl : s.loc t = some (.unlock .start)) :
  s.shared.obj.held = true
  := by
  have hpos := hs.shares_pos hl
  have hrd := shares_le_total t s.log .rd
  have hwr := shares_le_total t s.log .wr
  have hheld := hs.balanced.held
  cases h : s.shared.obj.held with
  | true => rfl
  | false =>
      have := hheld.mp h
      omega

omit [DecidableEq T] in
theorem Balanced.quiet {rw rw' : Rwlock} {x x' : Mode → Nat} (h : Balanced rw x)
    (hreaders : rw'.readers = rw.readers) (hheld : rw'.held = rw.held)
    (hx : ∀ mode, x' mode = x mode) :
  Balanced rw' x'
  := by
  obtain ⟨hlt, hr, hone, hexcl, hh⟩ := h
  constructor
  all_goals simpa only [hreaders, hheld, hx]

omit [Fintype T] in
/-- The shares of a thread whose request succeeds. -/
theorem shares_request {t : T} {l : Loc T} {mode : Mode} (hl : l.request = some mode)
    (u : T) (log : Log T) (m : Mode) :
  shares u (.ret t l .zero :: log) m = shares u log m + if u = t ∧ m = mode then 1 else 0
  := by
  have hne : l ≠ .unlock .start := by
    rintro rfl
    cases hl
  simp only [shares, hl, hne, if_false, and_true]
  grind

/-- The total when a request of a thread succeeds. -/
theorem total_request {t : T} {l : Loc T} {mode : Mode} (hl : l.request = some mode)
    (log : Log T) (m : Mode) :
  total (.ret t l .zero :: log) m = total log m + if m = mode then 1 else 0
  := by
  have h := total_change t log (.ret t l .zero :: log) m (by
    intro u hu
    simp [shares_request hl, hu])
  simp only [shares_request hl, true_and] at h
  omega

/-- The total after an unlock from whose section the call returns. -/
theorem total_leave (t : T) (log : Log T) (m : Mode) :
  total (.ret t (.unlock .start) .zero :: log) m + shares t log m
    = total log m + leave (shares t log) m
  := by
  have h := total_change t log (.ret t (.unlock .start) .zero :: log) m (by
    intro u hu
    simp [shares, Ne.symm hu])
  simpa [shares] using h

/-- Every step keeps the fields of the rwlock and the shares in balance. -/
theorem Effect.balanced (h : Effect b s a s') (hG : WithinInt s a) (hs : Exclusive s) :
  Balanced s'.shared.obj (total s'.log)
  := by
  have hbal := hs.balanced
  obtain ⟨hlt, hreaders, hone, hexcl, hheld⟩ := hs.balanced
  cases h with
  | @grant t c l mode hl hrequest hfree =>
      obtain ⟨hwr, hrd⟩ := hheld.mp hfree
      have htotal := total_request (t := t) hrequest s.log
      cases mode with
      | rd =>
          constructor
          all_goals simp [htotal, hwr, hrd, freshReaders]
      | wr =>
          constructor
          all_goals simp [htotal, hwr, hrd, freshReaders, hreaders]
  | @join t c l hl hrequest hh hpos =>
      have hrd : total (.ret t l .zero :: s.log) .rd = total s.log .rd + 1 := by
        simpa using total_request hrequest s.log .rd
      have hwr : total (.ret t l .zero :: s.log) .wr = total s.log .wr := by
        simpa using total_request hrequest s.log .wr
      have hbound := hG.1 (by simp [hl, hrequest])
      have hint : toInt (s.shared.obj.readers + 1) = s.shared.obj.readers + 1 := by
        apply toInt_of_lt
        · omega
        · omega
      constructor
      all_goals simp only [State.ret_log, State.ret_shared, hrd, hwr, hint, hh]
      · omega
      · omega
      · omega
      · omega
      · simp
  | @depart t c hl hmore =>
      obtain ⟨hzero, hwr, hrd⟩ := hs.depart hl hmore
      have hleftRd := total_leave t s.log .rd
      have hleftWr := total_leave t s.log .wr
      have hh := hs.held_of_unlock hl
      constructor
      all_goals simp only [State.ret_log, State.ret_shared, hh]
      · omega
      · omega
      · omega
      · omega
      · simp
        omega
  | @release t c hl hlast halone =>
      have hleftRd := total_leave t s.log .rd
      have hleftWr := total_leave t s.log .wr
      have hlastRd := hs.last hl hlast .rd
      have hlastWr := hs.last hl hlast .wr
      have hzero := hs.lastReaders hlast
      constructor
      all_goals simp only [State.ret_log, State.ret_shared, hzero]
      · omega
      · omega
      · omega
      · omega
      · simp
        omega
  | @handOver t u c rest hl hlast hfirst =>
      have hleftRd := total_unlock t (.unlock (.wakeup u)) s.log .rd
      have hleftWr := total_unlock t (.unlock (.wakeup u)) s.log .wr
      have hlastRd := hs.last hl hlast .rd
      have hlastWr := hs.last hl hlast .wr
      have hzero := hs.lastReaders hlast
      have hh := hs.held_of_unlock hl
      simp [Loc.chosen] at hleftRd hleftWr
      constructor
      all_goals simp only [State.goto_log, State.goto_shared, hzero, hh]
      · omega
      · omega
      · omega
      · omega
      · simp
        omega
  | @handAll t c hl hlast hwr hrd =>
      have hleftRd := total_unlock t (.unlock (.wakeAll (s.shared.waits.queue .rd))) s.log .rd
      have hleftWr := total_unlock t (.unlock (.wakeAll (s.shared.waits.queue .rd))) s.log .wr
      have hlastRd := hs.last hl hlast .rd
      have hlastWr := hs.last hl hlast .wr
      have hzero := hs.lastReaders hlast
      have hh := hs.held_of_unlock hl
      have hbound := hG.2 hl hlast hwr
      have hpos := List.length_pos_iff.mpr hrd
      have hint : toInt (0 + ((s.shared.waits.queue .rd).length : Int))
          = (s.shared.waits.queue .rd).length := by
        rw [toInt_of_lt]
        all_goals omega
      simp [Loc.chosen] at hleftRd hleftWr
      constructor
      all_goals simp only [State.goto_log, State.goto_shared, hzero, hh, hint]
      · omega
      · omega
      · omega
      · omega
      · simp
        omega
  | _ =>
      apply hbal.quiet
      · rfl
      · rfl
      · intro m
        apply total_congr
        simp [shares, Loc.request]

/-- Every step keeps the queues empty while the rwlock is free, and the queue of the readers
while there are readers. -/
theorem Effect.queues (h : Effect b s a s') (hs : Exclusive s) :
  (s'.shared.obj.held = false → ∀ mode, s'.shared.waits.queue mode = []) ∧
    (0 < s'.shared.obj.readers → s'.shared.waits.queue .rd = [])
  := by
  have hqueues := hs.queues
  have hqueue := hs.queue
  cases h with
  | @enqueue t c mode abstime hl hheld halone =>
      constructor
      · intro hfree
        simp_all
      · intro hpos
        cases mode with
        | rd =>
            have := halone rfl
            simp only [State.goto_shared] at hpos
            omega
        | wr => simpa using hqueue hpos
  | @leave t c err mode hl hstill =>
      obtain ⟨q, hq⟩ := Option.ne_none_iff_exists'.mp hstill
      constructor
      · intro hfree m
        simp [Waits.dequeue_queue hq, hqueues hfree]
      · intro hpos
        have := hqueue hpos
        simp only [State.goto_shared, Waits.dequeue_queue hq]
        grind
  | grant hl hrequest hfree =>
      constructor
      · simp
      · intro _
        apply hqueues hfree
  | join hl hrequest hh hpos =>
      constructor
      · intro hfree
        simp_all
      · intro _
        apply hqueue hpos
  | depart hl hmore =>
      constructor
      · apply hqueues
      · intro _
        apply hqueue
        omega
  | release hl hlast halone =>
      constructor
      · intro _
        apply halone
      · intro _
        apply halone
  | handOver hl hlast hfirst =>
      have hheld := hs.held_of_unlock hl
      have hzero := hs.lastReaders hlast
      constructor
      · simp [hheld]
      · simp [hzero]
  | handAll hl hlast hwr hrd =>
      have hheld := hs.held_of_unlock hl
      constructor
      · simp [hheld]
      · simp
  | _ => use hqueues, hqueue

omit [Fintype T] in
/-- A thread that asks for the rwlock or is inside an unlock has not been dequeued for it. -/
theorem Placed.not_handed {t : T} {l : Loc T} (hp : Placed s t) (hl : s.loc t = some l)
    (hreq : l.request.isSome = true ∨ ∃ l', l = .unlock l') :
  handed t s.log = false
  := by
  rcases l with ⟨_, _ | _ | _⟩ | _ | (_ | _ | _)
  all_goals simp_all [Placed, Loc.request]

omit [Fintype T] in
/-- A request that succeeds is an acquisition. -/
theorem acquired_request {t : T} {l : Loc T} (hl : l.request.isSome = true) (log : Log T) :
  acquired t (.ret t l .zero :: log) = acquired t log + 1
  := by
  rcases l with ⟨_, _ | _ | _⟩ | _ | (_ | _ | _)
  all_goals simp_all [Loc.request, acquired]

/-- An unlock that dequeues nobody gives up one acquisition and one share. -/
theorem claims_release {t : T} {y : World Rwlock T Mode} (hs : Exclusive s)
    (hl : s.loc t = some (.unlock .start)) :
  Rwlock.claims t (s.ret t (.unlock .start) y .zero).log + owns t s.log =
    Rwlock.claims t s.log + owns t (s.ret t (.unlock .start) y .zero).log
  := by
  have hleave := leave_add (shares t s.log) (hs.shares_pos hl)
  have hp := hs.placed t
  simp only [Placed, hl] at hp
  simp only [State.ret_log, Rwlock.claims, owns, handed, acquired, shares, hp.1]
  simp
  omega

/-- So does one that dequeues other threads. -/
theorem claims_pass {t : T} {l' : Loc T} {y : World Rwlock T Mode} (hs : Exclusive s)
    (hl : s.loc t = some (.unlock .start)) (hnot : ∀ mode, t ∉ l'.chosen mode) :
  Rwlock.claims t (s.goto t (.unlock .start) y l').log + owns t s.log =
    Rwlock.claims t s.log + owns t (s.goto t (.unlock .start) y l').log
  := by
  have hleave := leave_add (shares t s.log) (hs.shares_pos hl)
  have hp := hs.placed t
  have hzero : ∀ mode, (l'.chosen mode).count t = 0 := fun mode =>
    List.count_eq_zero_of_not_mem (hnot mode)
  simp only [Placed, hl] at hp
  simp only [State.goto_log, Rwlock.claims, owns, handed, acquired, shares, hp.1, hzero]
  simp [hnot]
  omega

/-- A step changes the acquisitions of a thread as much as its shares, unless a call returns
`ETIMEDOUT` to a thread that was dequeued for the rwlock. -/
theorem Effect.claims
    (hsound : Sound (fun _ => False) (roles (fun _ => Loc.role id) s) s.shared.waits)
    (h : Effect b s a s') (hs : Exclusive s) (t : T) :
  Rwlock.claims t s'.log + owns t s.log = Rwlock.claims t s.log + owns t s'.log ∨
    ((∃ mode, s.loc t = some (.lock mode (.finish true))) ∧ handed t s.log = true ∧
      Rwlock.claims t s'.log + 1 = Rwlock.claims t s.log ∧ owns t s'.log = owns t s.log)
  := by
  by_cases ht : t = a.thread
  · have hp := hs.placed t
    cases h with
    | @grant u c l mode hl hrequest hfree =>
        obtain rfl : t = u := ht
        have hnot := hp.not_handed hl (by simp [hrequest])
        have hacq := acquired_request (t := t) (l := l) (by simp [hrequest]) s.log
        left
        simp only [State.ret_log, Rwlock.claims, owns, shares_request hrequest, hacq, handed,
          hnot]
        cases mode <;> simp <;> omega
    | @join u c l hl hrequest hh hpos =>
        obtain rfl : t = u := ht
        have hnot := hp.not_handed hl (by simp [hrequest])
        have hacq := acquired_request (t := t) (l := l) (by simp [hrequest]) s.log
        left
        simp only [State.ret_log, Rwlock.claims, owns, shares_request hrequest, hacq, handed,
          hnot]
        simp
        omega
    | @settle u c mode hl =>
        obtain rfl : t = u := ht
        left
        simp only [Placed, hl] at hp
        simp [Rwlock.claims, owns, handed, acquired, shares, Loc.request, hp.1]
    | @expire u c mode hl =>
        obtain rfl : t = u := ht
        by_cases hh : handed t s.log = true
        · right
          simp [Rwlock.claims, owns, handed, acquired, shares, hl, hh]
        · left
          simp [Rwlock.claims, owns, handed, acquired, shares, hh]
    | @depart u c hl hmore =>
        obtain rfl : t = u := ht
        left
        apply claims_release hs hl
    | @release u c hl hlast halone =>
        obtain rfl : t = u := ht
        left
        apply claims_release hs hl
    | @handOver u v c rest hl hlast hfirst =>
        obtain rfl : t = u := ht
        left
        apply claims_pass hs hl
        have hne : t ≠ v := by
          have hm : v ∈ s.shared.waits.queue .wr := by
            simp [hfirst]
          have := loc_of_queued hsound hm
          grind
        intro mode
        cases mode <;> simp [Loc.chosen, hne]
    | @handAll u c hl hlast hwr hrd =>
        obtain rfl : t = u := ht
        left
        apply claims_pass hs hl
        have hnot : t ∉ s.shared.waits.queue .rd := by
          intro hm
          have := loc_of_queued hsound hm
          grind
        intro mode
        cases mode <;> simp [Loc.chosen, hnot]
    | @refuse u c l mode lock e hl hrequest =>
        obtain rfl : t = u := ht
        have hnot := hp.not_handed hl (by simp [hrequest])
        left
        simp [Rwlock.claims, owns, handed, acquired, shares, hnot]
    | @wakeup u v c hl =>
        obtain rfl : t = u := ht
        have hnot := hp.not_handed hl (by simp)
        left
        simp [Rwlock.claims, owns, handed, acquired, shares, hnot, Loc.request]
    | @wakeLast u c hl =>
        obtain rfl : t = u := ht
        have hnot := hp.not_handed hl (by simp)
        left
        simp [Rwlock.claims, owns, handed, acquired, shares, hnot, Loc.request]
    | _ =>
        left
        simp [Rwlock.claims, owns, handed, acquired, shares]
  · left
    obtain ⟨-, hsame, ⟨hh, -, hshares⟩ | ⟨mode, hq, hh, -, hshares⟩⟩ := h.other hsound ht
    · simp only [Rwlock.claims, owns, hsame, hh, hshares]
    · have hnot : handed t s.log = false := by
        have hp := hs.placed t
        have hprevp := hsound.linked mode t hq
        rcases loc_of_queued hsound hq with ⟨_, hl⟩ | ⟨_, hl⟩
        all_goals simp_all [Placed]
      simp only [Rwlock.claims, owns, hsame, hh, hshares, hnot]
      cases mode <;> simp <;> omega

theorem sound_of_reach {G : Sys T → Label T (Loc T) → Prop}
    (hs : (machine b).Reach G (State.idle ⟨Rwlock.init, Waits.empty⟩) s) :
  Sound (fun _ => False) (roles (fun _ => Loc.role id) s) s.shared.waits
  := ((conforms b).sound (fun _ _ _ _ => trivial) hs).2

/-- The invariant holds in every state reached by steps in which unlocks are called only by
threads that have acquired the rwlock and `readers` does not wrap around. -/
theorem exclusive_of_reach {G : Sys T → Label T (Loc T) → Prop}
    (hG : ∀ s a, G s a → HolderUnlocks s a ∧ WithinInt s a)
    (hs : (machine b).Reach G (State.idle ⟨Rwlock.init, Waits.empty⟩) s) :
  Exclusive s
  := by
  apply hs.invariant
  · constructor
    · constructor
      all_goals simp [init, total, shares]
    · simp [init, Waits.empty]
    · simp [init]
    · simp [Rwlock.claims, acquired, handed]
    · simp [Placed, handed]
  · intro s a s' hreach he hg hstep
    have hsound := sound_of_reach hreach
    have heffect := effect_of_step hsound hstep
    obtain ⟨hunlock, hint⟩ := hG s a hg
    obtain ⟨hqueues, hqueue⟩ := heffect.queues he
    constructor
    · apply heffect.balanced hint he
    · apply hqueues
    · apply hqueue
    · intro t
      have hle := he.claims t
      rcases heffect.claims hsound he t with heq | ⟨-, -, hless, hsame⟩
      · omega
      · omega
    · intro t
      apply heffect.placed hsound (he.placed t) hunlock

theorem Exclusive.consistent (hs : Exclusive s) :
  Consistent id s.shared.obj s.shared.waits
  := by
  have hreaders := hs.balanced.readers
  constructor
  · omega
  · intro hfree
    constructor
    · have := (hs.balanced.held.mp hfree).2
      omega
    · apply hs.queues hfree
  · apply hs.queue

/-- A thread that is about to return from a lock function that has been woken up finds
`readers` as it asserts. -/
theorem Exclusive.finish (hs : Exclusive s) {t : T} {mode : Mode}
    (hl : s.loc t = some (.lock mode (.finish false))) :
  (mode = .rd → 0 < s.shared.obj.readers) ∧ (mode = .wr → s.shared.obj.readers = 0)
  := by
  have hp := hs.placed t
  simp only [Placed, hl] at hp
  have hle := shares_le_total t s.log mode
  have hreaders := hs.balanced.readers
  have hexcl := hs.balanced.exclusive
  constructor
  · rintro rfl
    omega
  · rintro rfl
    omega

/-- No assertion of the functions fails. -/
theorem Exclusive.ne_fault (hs : Exclusive s)
    (hsound : Sound (fun _ => False) (roles (fun _ => Loc.role id) s) s.shared.waits) {t : T}
    {c : Bool}
    {l : Loc T} (hl : s.loc t = some l) :
  (machine b).step t l c s.shared ≠ .fault
  := by
  have hport : ∀ u ∈ (l.role id).owes, s.shared.waits.port u = 0 := by
    intro u hu
    apply hsound.port_of_owes (t := t)
    simp [roles, hl, hu]
  cases l with
  | lock mode l =>
      simp only [machine, step, ne_eq, Outcome.lift_eq_fault_iff]
      rintro (h | ⟨_, _, _, h⟩)
      · cases l with
        | start abstime =>
            apply lockStart_ne_fault hs.consistent _ h
            apply (hsound.outside t _).1
            simp [roles, hl, Loc.role, LockLoc.phase]
        | wait st =>
            simp only [lockStep, Outcome.lift_eq_fault_iff] at h
            rcases h with h | ⟨_, _, _, h⟩
            · apply waitStep_ne_fault h
            · cases h
        | finish err =>
            cases err with
            | true => simp [lockStep, lockFinish] at h
            | false =>
                obtain ⟨hrd, hwr⟩ := hs.finish hl
                apply lockFinish_ne_fault (fun _ => hrd) (fun _ => hwr) h
      · cases h
  | trylock mode => apply trylock_ne_fault hs.consistent
  | unlock l =>
      simp only [machine, step, ne_eq, Outcome.lift_eq_fault_iff]
      rintro (h | ⟨_, _, _, h⟩)
      · rcases l with _ | u | _ | ⟨u, us⟩
        · apply unlockStart_ne_fault (hs.held_of_unlock hl) _ h
          intro u hu
          simp [hsound.linked _ u hu]
        · simp [unlockStep, Build.wakeup_of (hport u (by simp [Loc.role, UnlockLoc.owes]))] at h
        · cases h
        · simp [unlockStep, Build.wakeup_of (hport u (by simp [Loc.role, UnlockLoc.owes]))] at h
      · cases h


/-- The guard under which readers and writers exclude each other. -/
def Disciplined (s : Sys T) (a : Label T (Loc T)) : Prop :=
  HolderUnlocks s a ∧ WithinInt s a

omit [Fintype T] in
instance (s : Sys T) (a : Label T (Loc T)) : Decidable (HolderUnlocks s a) :=
  match a with
  | .call _ _ => inferInstanceAs (Decidable (_ → _))
  | .act _ _ => inferInstanceAs (Decidable True)

instance (s : Sys T) (a : Label T (Loc T)) : Decidable (WithinInt s a) :=
  match a with
  | .call _ _ => inferInstanceAs (Decidable True)
  | .act _ _ => inferInstanceAs (Decidable ((_ → _) ∧ (_ → _ → _ → _)))

instance (s : Sys T) (a : Label T (Loc T)) : Decidable (Disciplined s a) :=
  inferInstanceAs (Decidable (_ ∧ _))

/-- Reader and writer exclusion, for any number of threads: in every reachable state there
is at most one write holder, and none together with a read holder; `readers` is the number
of read holders, `__held` is clear exactly when there is no holder; the queue of the readers
is empty when there are readers and both queues are empty when `__held` is clear; and no
assertion fails. -/
theorem reader_writer_exclusion
    (hs : (machine b).Reach Disciplined (State.idle ⟨Rwlock.init, Waits.empty⟩) s) :
  (∑ t, shares t s.log .wr ≤ 1) ∧
    (∀ t u, 0 < shares t s.log .wr → shares u s.log .rd = 0) ∧
    s.shared.obj.readers = ∑ t, shares t s.log .rd ∧
    (s.shared.obj.held = false ↔ ∀ t mode, shares t s.log mode = 0) ∧
    (0 < s.shared.obj.readers → s.shared.waits.queue .rd = []) ∧
    (s.shared.obj.held = false → ∀ mode, s.shared.waits.queue mode = []) ∧
    ¬ (machine b).Faults s
  := by
  have he := exclusive_of_reach (fun _ _ h => h) hs
  obtain ⟨-, hreaders, hone, hexcl, hheld⟩ := he.balanced
  use hone
  constructor
  · intro t u ht
    have hwr := shares_le_total t s.log .wr
    have hrd := shares_le_total u s.log .rd
    omega
  · use (by simpa [total] using hreaders)
    constructor
    · rw [hheld]
      constructor
      · rintro ⟨hwr, hrd⟩ t mode
        have := shares_le_total t s.log mode
        cases mode
        · omega
        · omega
      · intro hnone
        simp [total, hnone]
    · use he.queue, he.queues
      rintro ⟨t, l, c, hl, hfault⟩
      apply he.ne_fault (sound_of_reach hs) hl hfault

end Steps

/-- Threads `0` and `1` read while thread `2` waits for writing, and leave, so that the
rwlock passes to thread `2`. -/
def passing {T : Type} (t u v : T) : List (Label T (Loc T)) :=
  [.call t (.lock .rd (.start none)), .act t false, .call u (.trylock .rd), .act u false,
   .call v (.lock .wr (.start none)), .act v false,
   .call t (.unlock .start), .act t false, .call u (.unlock .start), .act u false]

theorem reader_writer_exclusion_passing :
  ∃ s, (machine Build.debug).Reach Disciplined (State.idle ⟨Rwlock.init, Waits.empty⟩) s ∧
    shares (2 : Fin 3) s.log .wr = 1 ∧ (∀ u, shares u s.log .rd = 0) ∧
    ¬ (machine Build.debug).Faults s
  := by
  obtain ⟨s, hs, hp⟩ := Machine.exists_reach_of_run (M := machine Build.debug) (G := Disciplined)
    (s := State.idle ⟨Rwlock.init, Waits.empty⟩) (passing (0 : Fin 3) 1 2)
    (fun s => shares (2 : Fin 3) s.log .wr = 1) (by decide +kernel)
  simp only [decide_eq_true_eq] at hp
  obtain ⟨-, hexcl, -, -, -, -, hfault⟩ := reader_writer_exclusion hs
  use s, hs, hp
  constructor
  · intro u
    apply hexcl 2
    omega
  · apply hfault

/-! ### The counter wraps around -/

/-- A thread that acquires a free or shared rwlock for reading. -/
theorem reach_rdlock {s : Sys (Fin 1)} (rw : Rwlock)
    (hs : (machine Build.debug).Reach HolderUnlocks (State.idle ⟨Rwlock.init, Waits.empty⟩) s)
    (hidle : s.loc 0 = none)
    (hstep : lockStart Build.debug id .rd (0 : Fin 1) none s.shared.obj s.shared.waits
      = .ret ⟨rw, s.shared.waits⟩ .zero) :
  ∃ s', (machine Build.debug).Reach HolderUnlocks (State.idle ⟨Rwlock.init, Waits.empty⟩) s' ∧
    s'.loc 0 = none ∧ s'.shared = ⟨rw, s.shared.waits⟩ ∧
    total s'.log .rd = total s.log .rd + 1
  := by
  have hcall : (machine Build.debug).Step s (.call 0 (.lock .rd (.start none)))
      (s.call 0 (.lock .rd (.start none))) := Machine.Step.call hidle rfl
  have hret := Machine.Step.ret (M := machine Build.debug) (c := false) (x := ⟨rw, s.shared.waits⟩)
    (s := s.call 0 (.lock .rd (.start none))) (t := 0) (l := .lock .rd (.start none))
    (r := .zero) (by simp) (by simp [machine, step, lockStep, hstep, Outcome.lift])
  refine ⟨_, (hs.step (by simp [HolderUnlocks]) hcall).step (by trivial) hret, ?_⟩
  use (by simp), rfl
  simp only [State.ret_log, State.call_log]
  rw [total_request rfl]
  simp [total, shares]

/-- One thread acquires the rwlock for reading `n` times. -/
theorem reach_readers (n : Nat) (hn : n + 1 < 2 ^ 31) :
  ∃ s : Sys (Fin 1), (machine Build.debug).Reach HolderUnlocks
      (State.idle ⟨Rwlock.init, Waits.empty⟩) s ∧
    s.loc 0 = none ∧ s.shared = ⟨⟨true, false, n + 1⟩, Waits.empty⟩ ∧ total s.log .rd = n + 1
  := by
  induction n with
  | zero =>
      obtain ⟨s, hs, hidle, hshared, htotal⟩ := reach_rdlock ⟨true, false, 1⟩
        Machine.Reach.refl rfl (by
          simp [lockStart, rdlockStart, grab, init, Build.assert_of, Waits.empty])
      use s, hs, hidle, hshared
      rw [htotal]
      rfl
  | succ n ih =>
      obtain ⟨s, hs, hidle, hshared, htotal⟩ := ih (by omega)
      have hint : toInt ((n : Int) + 1 + 1) = (n : Int) + 1 + 1 := by
        apply toInt_of_lt
        all_goals omega
      obtain ⟨s', hs', hidle', hshared', htotal'⟩ := reach_rdlock
        ⟨true, false, n + 1 + 1⟩ hs hidle (by
          simp [hshared, lockStart, rdlockStart, join, Build.assert_of, Waits.empty, hint])
      use s', hs', hidle'
      simp [hshared', hshared, htotal', htotal]

/-- After `2 ^ 31` acquisitions for reading, `readers` is negative and the assertion of the
next one fails. -/
theorem readers_wrap :
  ∃ s : Sys (Fin 1), (machine Build.debug).Reach HolderUnlocks
      (State.idle ⟨Rwlock.init, Waits.empty⟩) s ∧
    total s.log .rd = 2 ^ 31 ∧ s.shared.obj.readers = -2 ^ 31 ∧
    (machine Build.debug).step 0 (.lock .rd (.start none)) false s.shared = .fault
  := by
  obtain ⟨s, hs, hidle, hshared, htotal⟩ := reach_readers (2 ^ 31 - 2) (by decide)
  obtain ⟨s', hs', -, hshared', htotal'⟩ := reach_rdlock ⟨true, false, -2 ^ 31⟩ hs hidle (by
    simp [hshared, lockStart, rdlockStart, join, Build.assert_of, Waits.empty, toInt])
  use s', hs'
  rw [hshared']
  simp [htotal', htotal, machine, step, lockStep, lockStart, rdlockStart, Build.assert, Build.debug,
    Outcome.lift]

end Rwlock

end LibPthread
