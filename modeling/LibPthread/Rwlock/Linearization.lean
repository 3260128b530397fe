import LibPthread.Concurrency.Linearization
import LibPthread.Rwlock.HandOver

/-!
# The rwlock as a lock with shares

While no time-out crosses a hand-over, the functions of an rwlock behave as operations on the
shares of the threads that are carried out one at a time. An unlock takes effect in its section,
and if it passes the rwlock on to waiters, their calls take effect right after it, before any of
them runs.
-/

open Concurrency

namespace LibPthread

namespace Rwlock

/-- The operations of an rwlock. -/
inductive Op where
  | lock (mode : Mode) (abstime : Option Timespec)
  | trylock (mode : Mode)
  | unlock
  deriving DecidableEq

/-- The operation that a call asks for. -/
def Loc.op {T : Type} : Loc T → Op
  | .lock mode (.start abstime) => .lock mode abstime
  | .lock mode (.wait _) => .lock mode none
  | .lock mode (.finish _) => .lock mode none
  | .trylock mode => .trylock mode
  | .unlock _ => .unlock

/-- The shares of the threads leave room for one more in the given mode. -/
def Admits {T : Type} (x : T → Mode → Nat) : Mode → Prop
  | .rd => ∀ t, x t .wr = 0
  | .wr => ∀ t mode, x t mode = 0

variable {T : Type} [DecidableEq T]

/-- The thread `t` gets a share. -/
def gain (x : T → Mode → Nat) (t : T) (mode : Mode) : T → Mode → Nat :=
  fun u m => x u m + if u = t ∧ m = mode then 1 else 0

/-- The thread `t` gives up a share. -/
def giveUp (x : T → Mode → Nat) (t : T) : T → Mode → Nat :=
  fun u => if u = t then leave (x u) else x u

/-- What the operations of the thread `t` do to the shares. A call for a mode that is not
admitted waits until it is, unless it has a time-out, which may also be invalid. -/
inductive Shares (t : T) : Op → (T → Mode → Nat) → Ret → (T → Mode → Nat) → Prop where
  | lock (mode : Mode) (abstime : Option Timespec) (x : T → Mode → Nat) (room : Admits x mode) :
    Shares t (.lock mode abstime) x .zero (gain x t mode)
  | expire (mode : Mode) (abstime : Timespec) (x : T → Mode → Nat) (busy : ¬ Admits x mode) :
    Shares t (.lock mode (some abstime)) x (.error .ETIMEDOUT) x
  | invalid (mode : Mode) (abstime : Option Timespec) (x : T → Mode → Nat)
    (busy : ¬ Admits x mode) (bad : badTime abstime = true) :
    Shares t (.lock mode abstime) x (.error .EINVAL) x
  | trylock (mode : Mode) (x : T → Mode → Nat) (room : Admits x mode) :
    Shares t (.trylock mode) x .zero (gain x t mode)
  | busy (mode : Mode) (x : T → Mode → Nat) (busy : ¬ Admits x mode) :
    Shares t (.trylock mode) x (.error .EBUSY) x
  | unlock (x : T → Mode → Nat) (holds : 0 < x t .rd + x t .wr) :
    Shares t .unlock x .zero (giveUp x t)

/-- An rwlock in which no thread has a share at the start. -/
def sharesObject (T : Type) [DecidableEq T] : Object T (T → Mode → Nat) Op Ret where
  start := fun _ _ => 0
  effect := Shares

/-- Where the thread stands as a user of the rwlock. -/
def Stands (s : Sys T) (t : T) (x : Standing Op Ret) : Prop :=
  match s.loc t with
  | none => x = .outside
  | some (.lock mode (.start abstime)) => x = .asked (.lock mode abstime)
  | some (.lock mode (.wait stage)) =>
    (handed t s.log = true ∧ x = .answered .zero) ∨
      (handed t s.log = false ∧ ∃ abstime, x = .asked (.lock mode abstime) ∧
        (stage.mayExpire = true → abstime.isSome = true))
  | some (.lock _ (.finish err)) => x = .answered (if err then .error .ETIMEDOUT else .zero)
  | some (.trylock mode) => x = .asked (.trylock mode)
  | some (.unlock .start) => x = .asked .unlock
  | some (.unlock _) => x = .answered .zero

/-- The shares and standings that belong to a state of the system. -/
structure Abstracts (s : Sys T) (x : T → Mode → Nat) (st : T → Standing Op Ret) : Prop where
  value : ∀ t mode, x t mode = shares t s.log mode
  stands : ∀ t, Stands s t (st t)

variable {b : Build} {s s' : Sys T} {a : Label T (Loc T)} {x : T → Mode → Nat}
    {st : T → Standing Op Ret}

theorem Stands.congr {t : T} {y : Standing Op Ret} (h : Stands s t y)
    (hloc : s'.loc t = s.loc t) (hhanded : handed t s'.log = handed t s.log) :
  Stands s' t y
  := by
  simp only [Stands, hloc, hhanded] at h ⊢
  apply h

/-- A thread that asks for the rwlock has a call that has not taken effect. -/
theorem Stands.request {t : T} {y : Standing Op Ret} {l : Loc T} {mode : Mode}
    (h : Stands s t y) (hl : s.loc t = some l) (hrequest : l.request = some mode) :
  y = .asked l.op
  := by
  rcases l with ⟨m, abstime | _ | _⟩ | m | _
  · simpa [Stands, hl, Loc.op] using h
  · cases hrequest
  · cases hrequest
  · simpa [Stands, hl, Loc.op] using h
  · cases hrequest

/-- Why a request is refused. -/
theorem refused {Q : Type} [DecidableEq Q] {queue : Mode → Q} {self : T}
    {c : Bool} {l : Loc T} {mode : Mode} {y y' : World Rwlock T Q} {e : Errno}
    (hrequest : l.request = some mode)
    (h : step b queue self l c y = .ret y' (.error e)) :
  y.obj.held = true ∧ (mode = .rd → y.obj.readers ≤ 0) ∧
    ((∃ abstime, l = .lock mode (.start abstime) ∧ badTime abstime = true ∧ e = .EINVAL) ∨
      (l = .trylock mode ∧ e = .EBUSY))
  := by
  obtain ⟨⟨held, lock, readers⟩, w⟩ := y
  rcases l with ⟨m, abstime | _ | _⟩ | m | _
  · obtain rfl : m = mode := by simpa [Loc.request] using hrequest
    simp only [step, lockStep, Outcome.lift_eq_ret_iff, id_eq] at h
    obtain ⟨y₁, r₁, hstart, h'⟩ := h
    obtain ⟨rfl, rfl⟩ := h'
    cases m
    · simp only [lockStart, rdlockStart, grab, join, lockBusy, Build.assert] at hstart
      grind
    · simp only [lockStart, wrlockStart, grab, lockBusy, Build.assert] at hstart
      grind
  · cases hrequest
  · cases hrequest
  · obtain rfl : m = mode := by simpa [Loc.request] using hrequest
    cases m
    · simp only [step, trylock, tryrdlock, grab, join, Build.assert] at h
      grind
    · simp only [step, trylock, trywrlock, grab, Build.assert] at h
      grind
  · cases hrequest

theorem shares_lock {t : T} {l : Loc T} {mode : Mode} (hrequest : l.request = some mode)
    (hroom : Admits x mode) :
  Shares t l.op x .zero (gain x t mode)
  := by
  rcases l with ⟨m, abstime | _ | _⟩ | m | _
  · obtain rfl : m = mode := by simpa [Loc.request] using hrequest
    apply Shares.lock m abstime x hroom
  · cases hrequest
  · cases hrequest
  · obtain rfl : m = mode := by simpa [Loc.request] using hrequest
    apply Shares.trylock m x hroom
  · cases hrequest

/-! ### The shares follow the rwlock -/

/-- A step of one thread that changes the standing of no other. -/
theorem Abstracts.change {t : T} {y : Standing Op Ret} {x' : T → Mode → Nat}
    (hR : Abstracts s x st) (hvalue : ∀ u mode, x' u mode = shares u s'.log mode)
    (hother : ∀ u, u ≠ t → s'.loc u = s.loc u ∧ handed u s'.log = handed u s.log)
    (hself : Stands s' t y) :
  Abstracts s' x' (Function.update st t y)
  := by
  constructor
  · apply hvalue
  · intro u
    by_cases hu : u = t
    · rw [hu, Function.update_self]
      apply hself
    · rw [Function.update_of_ne hu]
      apply (hR.stands u).congr (hother u hu).1 (hother u hu).2

theorem Abstracts.call {t : T} {l : Loc T} (hR : Abstracts s x st) (hl : l.entry = true) :
  Abstracts (s.call t l) x (Function.update st t (.asked l.op))
  := by
  apply hR.change
  · apply hR.value
  · intro u hu
    simp [hu, handed]
  · rcases l with ⟨_, _ | _ | _⟩ | _ | (_ | _ | _)
    all_goals simp_all [Stands, Loc.entry, Loc.op]

/-- A step within a call that changes nothing of the shares. -/
theorem Abstracts.goto {t : T} {l l' : Loc T} {y : World Rwlock T Mode} (hR : Abstracts s x st)
    (hl : l ≠ .unlock .start) (hself : Stands s t (st t) → Stands (s.goto t l y l') t (st t)) :
  Abstracts (s.goto t l y l') x st
  := by
  rw [← Function.update_eq_self t st]
  apply hR.change
  · simp [shares, hl, hR.value]
  · intro u hu
    simp [hu, handed, hl]
  · apply hself (hR.stands t)

/-- A call returns and leaves the shares `x'`. -/
theorem Abstracts.ret {t : T} {l : Loc T} {y : World Rwlock T Mode} {r : Ret}
    {x' : T → Mode → Nat} (hR : Abstracts s x st)
    (hvalue : ∀ u mode, x' u mode = shares u (s.ret t l y r).log mode) :
  Abstracts (s.ret t l y r) x' (Function.update st t .outside)
  := by
  apply hR.change hvalue
  · intro u hu
    simp [hu, handed, Ne.symm hu]
  · simp [Stands]

section Simulation

variable [Fintype T]

/-- No thread has a share in the mode exactly when the total is zero. -/
theorem Abstracts.none_iff (hR : Abstracts s x st) (mode : Mode) :
  (∀ t, x t mode = 0) ↔ total s.log mode = 0
  := by
  simp [total, Finset.sum_eq_zero_iff, hR.value]

/-- When there is room for one more share. -/
theorem Abstracts.admits_iff (hR : Abstracts s x st) (hs : Exclusive s) (mode : Mode) :
  Admits x mode ↔ s.shared.obj.held = false ∨ (mode = .rd ∧ 0 < s.shared.obj.readers)
  := by
  obtain ⟨-, hreaders, -, hexcl, hheld⟩ := hs.balanced
  have hrd := hR.none_iff .rd
  have hwr := hR.none_iff .wr
  cases mode with
  | rd =>
      rw [Admits, hwr, hheld]
      simp only [true_and]
      omega
  | wr =>
      have hall : (∀ t mode, x t mode = 0) ↔ (∀ t, x t .wr = 0) ∧ ∀ t, x t .rd = 0 := by
        constructor
        · intro h
          use fun t => h t .wr, fun t => h t .rd
        · rintro ⟨hw, hr⟩ t (_ | _)
          · apply hr
          · apply hw
      rw [Admits, hall, hrd, hwr, hheld]
      simp

/-- There is no room for a thread that is linked on a queue. -/
theorem Abstracts.busy_of_linked (hR : Abstracts s x st) (hs : Exclusive s)
    (hsound : Sound (fun _ => False) (roles (fun _ => Loc.role id) s) s.shared.waits) {t : T}
    {mode : Mode} {stage : Stage} (hl : s.loc t = some (.lock mode (.wait stage)))
    (hstill : s.shared.waits.prevp t ≠ none) :
  ¬ Admits x mode
  := by
  obtain ⟨q, hq⟩ := Option.ne_none_iff_exists'.mp hstill
  have hphase : (roles (fun _ => Loc.role id) s t).phase.queue = some mode := by
    simp only [roles, hl, Option.elim_some, Loc.role, LockLoc.phase, Stage.queue_phase, id_eq]
  have hmem := (hsound.mem_of_linked hphase id hq).2
  rw [hR.admits_iff hs]
  rintro (hfree | ⟨rfl, hpos⟩)
  · rw [hs.queues hfree mode] at hmem
    cases hmem
  · rw [hs.queue hpos] at hmem
    cases hmem

omit [Fintype T] in
/-- The call of a writer takes effect when no thread has a share. -/
theorem moves_writer (u : T) (x : T → Mode → Nat) (st : T → Standing Op Ret)
    (hroom : ∀ t mode, x t mode = 0) (hasked : ∃ abstime, st u = .asked (.lock .wr abstime)) :
  (sharesObject T).Moves x st [] (fun w mode => x w mode + if mode = .wr then [u].count w else 0)
    (fun w => if w ∈ [u] then .answered .zero else st w)
  := by
  obtain ⟨abstime, hu⟩ := hasked
  have hx : gain x u .wr = fun w mode => x w mode + if mode = .wr then [u].count w else 0 := by
    funext w mode
    simp only [gain, List.count_singleton, beq_iff_eq]
    grind
  have hst : Function.update st u (.answered .zero)
      = fun w => if w ∈ [u] then .answered .zero else st w := by
    funext w
    simp [Function.update_apply]
  rw [← hx, ← hst]
  apply Object.Moves.single hu (Shares.lock .wr abstime x hroom)

omit [Fintype T] in
/-- The calls of the readers in the list take effect one after the other. -/
theorem moves_readers (us : List T) (hnodup : us.Nodup) (x : T → Mode → Nat)
    (st : T → Standing Op Ret) (hroom : ∀ t, x t .wr = 0)
    (hasked : ∀ u ∈ us, ∃ abstime, st u = .asked (.lock .rd abstime)) :
  (sharesObject T).Moves x st [] (fun u mode => x u mode + if mode = .rd then us.count u else 0)
    (fun u => if u ∈ us then .answered .zero else st u)
  := by
  induction us generalizing x st with
  | nil =>
      simp only [List.count_nil, ite_self, add_zero, List.not_mem_nil, if_false]
      apply Object.Moves.refl
  | cons u us ih =>
      obtain ⟨hnot, hnodup'⟩ := List.nodup_cons.mp hnodup
      obtain ⟨abstime, hu⟩ := hasked u List.mem_cons_self
      have hfirst : (sharesObject T).Moves x st [] (gain x u .rd)
          (Function.update st u (.answered .zero)) :=
        Object.Moves.single hu (Shares.lock .rd abstime x hroom)
      have hrest := ih hnodup' (gain x u .rd) (Function.update st u (.answered .zero)) (by
        simp [gain, hroom]) (by
        intro w hw
        have hne : w ≠ u := by
          rintro rfl
          apply hnot hw
        rw [Function.update_of_ne hne]
        apply hasked w (List.mem_cons_of_mem u hw))
      have hx : (fun w mode => gain x u .rd w mode + if mode = .rd then us.count w else 0)
          = fun w mode => x w mode + if mode = .rd then (u :: us).count w else 0 := by
        funext w mode
        simp only [gain, List.count_cons, beq_iff_eq]
        grind
      have hst : (fun w => if w ∈ us then .answered .zero
            else Function.update st u (.answered .zero) w)
          = fun w => if w ∈ u :: us then .answered .zero else st w := by
        funext w
        by_cases hw : w = u <;> simp [hw]
      have hm := hfirst.trans hrest
      rw [hx, hst] at hm
      apply hm

/-- An unlock gives up a share. -/
theorem Abstracts.unlock (hR : Abstracts s x st) (hs : Exclusive s) {t : T}
    (hl : s.loc t = some (.unlock .start)) :
  (sharesObject T).Moves x st [] (giveUp x t) (Function.update st t (.answered .zero))
  := by
  have hasked : st t = .asked .unlock := by simpa [Stands, hl] using hR.stands t
  have hpos : 0 < x t .rd + x t .wr := by
    simpa only [hR.value] using hs.shares_pos hl
  apply Object.Moves.single hasked (Shares.unlock x hpos)

/-- After the last holder has given up its share there is none left. -/
theorem Abstracts.last (hR : Abstracts s x st) (hs : Exclusive s) {t : T}
    (hl : s.loc t = some (.unlock .start)) (hlast : s.shared.obj.readers ≤ 1) :
  ∀ u mode, giveUp x t u mode = 0
  := by
  have hx : x = fun u mode => shares u s.log mode := by
    funext u mode
    apply hR.value
  intro u mode
  have htotal := hs.last hl hlast mode
  have hsum := sum_change (f := fun u => shares u s.log mode) (g := fun u => giveUp x t u mode)
    (t := t) (by
      intro u hu
      simp [giveUp, hu, hR.value])
  have hself : giveUp x t t mode = leave (shares t s.log) mode := by
    simp [giveUp, hx]
  have hle : giveUp x t u mode ≤ ∑ u, giveUp x t u mode :=
    Finset.single_le_sum (f := fun u => giveUp x t u mode) (fun _ _ => Nat.zero_le _)
      (Finset.mem_univ u)
  rw [hself] at hsum
  rw [total] at htotal
  omega

/-- Where a queued thread stands. -/
theorem Abstracts.queued (hR : Abstracts s x st)
    (hsound : Sound (fun _ => False) (roles (fun _ => Loc.role id) s) s.shared.waits)
    (hs : Exclusive s) {u : T} {mode : Mode} (hu : u ∈ s.shared.waits.queue mode) :
  (∃ stage, s.loc u = some (.lock mode (.wait stage))) ∧
    ∃ abstime, st u = .asked (.lock mode abstime)
  := by
  have hloc := loc_of_queued hsound hu
  have hlinked := hsound.linked mode u hu
  have hplaced := hs.placed u
  have hstands := hR.stands u
  obtain ⟨stage, hwait⟩ : ∃ stage, s.loc u = some (.lock mode (.wait stage)) := by
    rcases hloc with ⟨timed, h⟩ | ⟨err, h⟩
    · use .block timed, h
    · use .recheck err, h
  have hnot : handed u s.log = false := by
    rcases hloc with ⟨_, h⟩ | ⟨_, h⟩
    all_goals
      simp only [Placed, h, hlinked] at hplaced
      simpa using hplaced.1
  constructor
  · use stage, hwait
  · simp only [Stands, hwait, hnot] at hstands
    rcases hstands with ⟨h, -⟩ | ⟨-, abstime, h, -⟩
    · cases h
    · use abstime, h

/-- An unlock takes effect and passes the rwlock to the threads in `us`, whose calls take effect
after it. -/
theorem Abstracts.pass {t : T} {l' : Loc T} {y : World Rwlock T Mode} (us : List T)
    (mode : Mode) (hR : Abstracts s x st)
    (hsound : Sound (fun _ => False) (roles (fun _ => Loc.role id) s) s.shared.waits)
    (hs : Exclusive s) (hl : s.loc t = some (.unlock .start))
    (hus : ∀ u ∈ us, u ∈ s.shared.waits.queue mode)
    (hl' : ∀ m, l'.chosen m = if m = mode then us else [])
    (hself : ∀ s' : Sys T, s'.loc t = some l' → Stands s' t (.answered .zero))
    (hmoves : (sharesObject T).Moves (giveUp x t) (Function.update st t (.answered .zero)) []
      (fun u m => giveUp x t u m + if m = mode then us.count u else 0)
      (fun u => if u ∈ us then .answered .zero
        else Function.update st t (.answered .zero) u)) :
  (sharesObject T).Follows Loc.op Abstracts s (s.goto t (.unlock .start) y l') x st
  := by
  apply Object.Follows.goto ((hR.unlock hs hl).trans hmoves)
  have hchosen : ∀ u, (u ∈ l'.chosen .rd ∨ u ∈ l'.chosen .wr) ↔ u ∈ us := by
    intro u
    rw [hl', hl']
    cases mode <;> simp
  constructor
  · intro u m
    have hx : x u = shares u s.log := by
      funext m
      apply hR.value
    simp only [State.goto_log, shares, if_true, hl', giveUp, hx]
    by_cases hut : u = t
    · by_cases hm : m = mode <;> simp [hut, hm]
    · by_cases hm : m = mode <;> simp [hut, Ne.symm hut, hm]
  · intro u
    by_cases hu : u ∈ us
    · obtain ⟨⟨stage, hwait⟩, -⟩ := hR.queued hsound hs (hus u hu)
      have hne : u ≠ t := by
        rintro rfl
        simp [hl] at hwait
      simp [Stands, hu, hne, hwait, handed, hchosen]
    · rw [if_neg hu]
      by_cases hut : u = t
      · subst hut
        rw [Function.update_self]
        apply hself
        simp
      · rw [Function.update_of_ne hut]
        apply (hR.stands u).congr
        · simp [hut]
        · simp [handed, hchosen, hu]

/-- An unlock that passes the rwlock to no thread. -/
theorem Abstracts.release {t : T} {y : World Rwlock T Mode} (hR : Abstracts s x st)
    (hs : Exclusive s) (hl : s.loc t = some (.unlock .start)) :
  (sharesObject T).Follows Loc.op Abstracts s (s.ret t (.unlock .start) y .zero) x st
  := by
  have hasked : st t = .asked .unlock := by simpa [Stands, hl] using hR.stands t
  have hpos : 0 < x t .rd + x t .wr := by
    simpa only [hR.value] using hs.shares_pos hl
  apply Object.Follows.finish hasked (Shares.unlock x hpos)
  apply hR.ret
  intro u m
  have hx : x u = shares u s.log := by
    funext m
    apply hR.value
  by_cases hu : u = t
  · subst hu
    simp [giveUp, shares, hx]
  · simp [giveUp, shares, hu, Ne.symm hu, hx]

/-- A call that is enqueued or receives a message has not taken effect unless the rwlock was
passed to it. -/
theorem Abstracts.enqueue (hR : Abstracts s x st) (hs : Exclusive s) {t : T} {mode : Mode}
    {abstime : Option Timespec} {y : World Rwlock T Mode}
    (hl : s.loc t = some (.lock mode (.start abstime))) :
  Abstracts (s.goto t (.lock mode (.start abstime)) y
    (.lock mode (.wait (.block abstime.isSome)))) x st
  := by
  have hplaced := hs.placed t
  apply hR.goto
  · simp
  · simp_all [Stands, Placed, Stage.mayExpire, handed]

omit [Fintype T] in
theorem Abstracts.receive (hR : Abstracts s x st) {t : T} {mode : Mode} {timed : Bool}
    {y : World Rwlock T Mode} (hl : s.loc t = some (.lock mode (.wait (.block timed)))) :
  Abstracts (s.goto t (.lock mode (.wait (.block timed))) y
    (.lock mode (.wait (.recheck false)))) x st
  := by
  apply hR.goto
  · simp
  · simp only [Stands, hl, State.goto_loc, Function.update_self, State.goto_log, handed]
    simp only [reduceCtorEq, decide_false, Bool.false_and, Bool.false_or, Stage.mayExpire]
    rintro (h | ⟨hnot, abstime, h, -⟩)
    · left
      apply h
    · right
      use hnot, abstime, h
      simp

/-- A time-out takes effect when the waiter removes itself from its queue: there is no room for
it then. -/
theorem Abstracts.leave (hR : Abstracts s x st)
    (hsound : Sound (fun _ => False) (roles (fun _ => Loc.role id) s) s.shared.waits)
    (hs : Exclusive s) {t : T} {mode : Mode} {y : World Rwlock T Mode}
    (hl : s.loc t = some (.lock mode (.wait (.recheck true))))
    (hstill : s.shared.waits.prevp t ≠ none) :
  (sharesObject T).Follows Loc.op Abstracts s
    (s.goto t (.lock mode (.wait (.recheck true))) y (.lock mode (.finish true))) x st
  := by
  have hstands := hR.stands t
  have hplaced := hs.placed t
  have hnot : handed t s.log = false := by
    simp only [Placed, hl, hstill] at hplaced
    simpa using hplaced.1
  obtain ⟨abstime, hasked⟩ : ∃ abstime, st t = .asked (.lock mode (some abstime)) := by
    simp only [Stands, hl, hnot, Stage.mayExpire] at hstands
    rcases hstands with ⟨h, -⟩ | ⟨-, abstime, h, htimed⟩
    · cases h
    · obtain ⟨abstime, rfl⟩ := Option.isSome_iff_exists.mp (htimed trivial)
      use abstime, h
  have hbusy := hR.busy_of_linked hs hsound hl hstill
  apply Object.Follows.goto (Object.Moves.single hasked (Shares.expire mode abstime x hbusy))
  apply hR.change
  · simp [shares, hR.value]
  · intro u hu
    simp [hu, handed]
  · simp [Stands]

omit [Fintype T] in
/-- A request that finds room for one more share takes effect at once. -/
theorem Abstracts.acquire (hR : Abstracts s x st) {t : T} {l : Loc T} {mode : Mode}
    {y : World Rwlock T Mode} (hl : s.loc t = some l) (hrequest : l.request = some mode)
    (hroom : Admits x mode) :
  (sharesObject T).Follows Loc.op Abstracts s (s.ret t l y .zero) x st
  := by
  apply Object.Follows.finish ((hR.stands t).request hl hrequest) (shares_lock hrequest hroom)
  apply hR.ret
  intro u m
  simp only [gain, hR.value, State.ret_log, shares_request hrequest]

/-- The shares refuse the requests that the rwlock refuses. -/
theorem Abstracts.refuse (hR : Abstracts s x st) (hs : Exclusive s) {t : T} {c : Bool}
    {l : Loc T} {mode : Mode} {y : World Rwlock T Mode} {e : Errno} (hl : s.loc t = some l)
    (hrequest : l.request = some mode)
    (h : (machine b).step t l c s.shared = .ret y (.error e)) :
  (sharesObject T).Follows Loc.op Abstracts s (s.ret t l y (.error e)) x st
  := by
  obtain ⟨hheld, halone, hcase⟩ := refused hrequest h
  have hbusy : ¬ Admits x mode := by
    rw [hR.admits_iff hs]
    rintro (hfree | ⟨rfl, hpos⟩)
    · simp [hheld] at hfree
    · have := halone rfl
      omega
  have hrefuse : Shares t l.op x (.error e) x := by
    rcases hcase with ⟨abstime, rfl, hbad, rfl⟩ | ⟨rfl, rfl⟩
    · apply Shares.invalid mode abstime x hbusy hbad
    · apply Shares.busy mode x hbusy
  apply Object.Follows.finish ((hR.stands t).request hl hrequest) hrefuse
  apply hR.ret
  simp [shares, hR.value]

omit [Fintype T] in
/-- A call returns that has taken effect before. -/
theorem Abstracts.answered (hR : Abstracts s x st) {t : T} {l : Loc T} {y : World Rwlock T Mode}
    {r : Ret} (hst : st t = .answered r) (hrequest : r = .zero → l.request = none)
    (hunlock : l ≠ .unlock .start) :
  (sharesObject T).Follows Loc.op Abstracts s (s.ret t l y r) x st
  := by
  apply Object.Follows.ret hst
  apply hR.ret
  intro u m
  cases r with
  | zero => simp [shares, hR.value, hrequest, hunlock]
  | _ => simp [shares, hR.value]

/-- The unlock that passes the rwlock to a writer takes effect, and then the call of the
writer. -/
theorem Abstracts.handOver (hR : Abstracts s x st)
    (hsound : Sound (fun _ => False) (roles (fun _ => Loc.role id) s) s.shared.waits)
    (hs : Exclusive s) {t u : T} {rest : List T} {y : World Rwlock T Mode}
    (hl : s.loc t = some (.unlock .start)) (hlast : s.shared.obj.readers ≤ 1)
    (hfirst : s.shared.waits.queue .wr = u :: rest) :
  (sharesObject T).Follows Loc.op Abstracts s
    (s.goto t (.unlock .start) y (.unlock (.wakeup u))) x st
  := by
  have hmem : u ∈ s.shared.waits.queue .wr := by simp [hfirst]
  apply Abstracts.pass [u] .wr hR hsound hs hl
  · simp [hmem]
  · intro m
    cases m <;> rfl
  · intro s' hs'
    simp [Stands, hs']
  · apply moves_writer
    · apply hR.last hs hl hlast
    · obtain ⟨⟨stage, hwait⟩, hasked⟩ := hR.queued hsound hs hmem
      have hne : u ≠ t := by
        rintro rfl
        simp [hl] at hwait
      rw [Function.update_of_ne hne]
      apply hasked

/-- The unlock that passes the rwlock to all waiting readers takes effect, and then their
calls. -/
theorem Abstracts.handAll (hR : Abstracts s x st)
    (hsound : Sound (fun _ => False) (roles (fun _ => Loc.role id) s) s.shared.waits)
    (hs : Exclusive s) {t : T} {y : World Rwlock T Mode}
    (hl : s.loc t = some (.unlock .start)) (hlast : s.shared.obj.readers ≤ 1) :
  (sharesObject T).Follows Loc.op Abstracts s
    (s.goto t (.unlock .start) y (.unlock (.wakeAll (s.shared.waits.queue .rd)))) x st
  := by
  apply Abstracts.pass (s.shared.waits.queue .rd) .rd hR hsound hs hl
  · simp
  · intro m
    cases m <;> rfl
  · intro s' hs'
    simp [Stands, hs']
  · have hnone := hR.last hs hl hlast
    apply moves_readers _ (hsound.nodup .rd)
    · simp [hnone]
    · intro u hu
      obtain ⟨⟨stage, hwait⟩, hasked⟩ := hR.queued hsound hs hu
      have hne : u ≠ t := by
        rintro rfl
        simp [hl] at hwait
      rw [Function.update_of_ne hne]
      apply hasked

/-- Every step of the rwlock is followed by the shares. -/
theorem Abstracts.step (hR : Abstracts s x st)
    (hsound : Sound (fun _ => False) (roles (fun _ => Loc.role id) s) s.shared.waits)
    (hs : Exclusive s) (hsettled : Settled s) (hstep : (machine b).Step s a s') :
  (sharesObject T).Follows Loc.op Abstracts s s' x st
  := by
  have hstands := hR.stands a.thread
  have hplaced := hs.placed a.thread
  have heffect := effect_of_step hsound hstep
  cases heffect with
  | @call t l hidle hentry =>
      apply Object.Follows.call
      · simpa [Stands, hidle] using hstands
      · apply hR.call hentry
  | enqueue hl => apply Object.Follows.goto Object.Moves.refl (hR.enqueue hs hl)
  | receive hl => apply Object.Follows.goto Object.Moves.refl (hR.receive hl)
  | @timeout t mode hl =>
      apply Object.Follows.goto Object.Moves.refl
      apply hR.goto
      · simp
      · simp [Stands, hl, handed, Stage.mayExpire]
  | @late t c mode hl hgone => apply absurd hgone (hsettled.expired t mode hl)
  | @woken t c mode hl hgone =>
      apply Object.Follows.goto Object.Moves.refl
      apply hR.goto
      · simp
      · simp_all [Stands, Placed]
  | @leave t c err mode hl hstill =>
      cases err with
      | false =>
          -- a waiter that has received its message is no longer linked
          apply absurd _ hstill
          apply hsound.gone_of_received (q := mode)
          simp [roles, hl, Loc.role, LockLoc.phase, Stage.phase]
      | true => apply hR.leave hsound hs hl hstill
  | @drain t c mode hl => apply absurd hl (hsettled.drained t mode)
  | @grant t c l mode hl hrequest hfree =>
      apply hR.acquire hl hrequest
      apply (hR.admits_iff hs mode).mpr (Or.inl hfree)
  | @join t c l hl hrequest hheld hpos =>
      apply hR.acquire hl hrequest
      apply (hR.admits_iff hs .rd).mpr (Or.inr ⟨rfl, hpos⟩)
  | refuse hl hrequest => apply hR.refuse hs hl hrequest (hstep.ret_inv hl)
  | @expire t c mode hl =>
      apply hR.answered
      · simpa [Stands, hl] using hstands
      · simp
      · simp
  | @settle t c mode hl =>
      apply hR.answered
      · simpa [Stands, hl] using hstands
      · simp [Loc.request]
      · simp
  | depart hl hmore => apply hR.release hs hl
  | release hl hlast halone => apply hR.release hs hl
  | handOver hl hlast hfirst => apply hR.handOver hsound hs hl hlast hfirst
  | handAll hl hlast hwr hrd => apply hR.handAll hsound hs hl hlast
  | @wakeup t u c hl =>
      apply hR.answered
      · simpa [Stands, hl] using hstands
      · simp [Loc.request]
      · simp
  | @wakeNext t u c us hl =>
      apply Object.Follows.goto Object.Moves.refl
      apply hR.goto
      · simp
      · simp [Stands, hl]
  | @wakeLast t c hl =>
      apply hR.answered
      · simpa [Stands, hl] using hstands
      · simp [Loc.request]
      · simp

/-- An rwlock is linearizable, for any number of threads: in every run in which no share
is orphaned the calls look as though they had given and taken shares one at a time, each
at a moment between its start and its return. -/
theorem linearizable_shares
    (hs : (machine b).Reach Orderly (State.idle ⟨Rwlock.init, Waits.empty⟩) s) :
  ∃ x st, (sharesObject T).Moves (fun _ _ => 0) (fun _ => .outside) (history Loc.op s.log) x st ∧
    (∀ mode, Admits x mode ↔
      s.shared.obj.held = false ∨ (mode = .rd ∧ 0 < s.shared.obj.readers)) ∧
    ∀ t, Stands s t (st t)
  := by
  obtain ⟨x, st, hm, hR⟩ := Object.simulated (O := sharesObject T) Loc.op Abstracts hs rfl (by
    constructor
    · simp [sharesObject, shares]
    · simp [Stands]) (by
    intro s a s' x st hreach hR hG hstep
    apply hR.step (sound_of_reach hreach) (exclusive_of_reach (fun _ _ h => h.1) hreach)
      (settled_of_reach hreach) hstep)
  use x, st, hm, hR.admits_iff (exclusive_of_reach (fun _ _ h => h.1) hs), hR.stands

end Simulation

/-- Two readers wait for the writer `0`, which passes the rwlock to both. -/
def passAll {T : Type} (t u v : T) : List (Label T (Loc T)) :=
  [.call t (.lock .wr (.start none)), .act t false,
   .call u (.lock .rd (.start none)), .act u false,
   .call v (.lock .rd (.start (some ⟨0, 0⟩))), .act v false,
   .call t (.unlock .start), .act t false, .act t false, .act t false, .act t false,
   .act u false, .act u false, .act u false]

/-- The unlock of thread `0` and the calls of two readers overlap. -/
theorem linearizable_shares_passAll :
  ∃ s, (machine Build.debug).Reach Orderly (State.idle ⟨Rwlock.init, Waits.empty⟩) s ∧
    history Loc.op s.log = [.ret (1 : Fin 3) .zero, .ret 0 .zero, .call 0 .unlock,
      .call 2 (.lock .rd (some ⟨0, 0⟩)), .call 1 (.lock .rd none), .ret 0 .zero,
      .call 0 (.lock .wr none)] ∧
    ∃ x st, (sharesObject (Fin 3)).Moves (fun _ _ => 0) (fun _ => .outside)
        (history Loc.op s.log) x st ∧
      (∀ mode, Admits x mode ↔
        s.shared.obj.held = false ∨ (mode = .rd ∧ 0 < s.shared.obj.readers)) ∧
      ∀ t, Stands s t (st t)
  := by
  obtain ⟨s, hs, hp⟩ := Machine.exists_reach_of_run (M := machine Build.debug) (G := Orderly)
    (s := State.idle ⟨Rwlock.init, Waits.empty⟩) (passAll (0 : Fin 3) 1 2)
    (fun s => history Loc.op s.log = [.ret (1 : Fin 3) .zero, .ret 0 .zero, .call 0 .unlock,
      .call 2 (.lock .rd (some ⟨0, 0⟩)), .call 1 (.lock .rd none), .ret 0 .zero,
      .call 0 (.lock .wr none)]) (by decide +kernel)
  simp only [decide_eq_true_eq] at hp
  exact ⟨s, hs, hp, linearizable_shares hs⟩

end Rwlock

end LibPthread
