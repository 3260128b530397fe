import LibPthread.Mutex.Transfer
import LibPthread.Mutex.Exclusion
import LibPthread.Mutex.HandOver
import LibPthread.Mutex.Relock

/-!
# The holder passes the mutex on

After a transfer the target gives back the acquisitions of the former holder, one with each
unlock, and the last of these unlocks gives the mutex away. This is so unless the mutex is normal
and the assertion on its `owner` is made although `owner` is not maintained, or the mutex is
recursive and `NDEBUG` leaves out the rewriting of its `owner`.
-/

open Concurrency

namespace LibPthread

namespace Mutex

variable {T Q : Type} [DecidableEq T] {b : Build} {self t : T}

/-! ### What the functions do for a holder -/

/-- `x'` is `x` after a transfer to `t`: `owner` is rewritten if the build maintains it, and
everything else is as before. -/
structure Passed (b : Build) (t : T) (x x' : World (Mutex T) T Q) : Prop where
  waits : x'.waits = x.waits
  obj : x'.obj = { x.obj with owner := x'.obj.owner }
  owner : x.obj.tracked b = true → x'.obj.owner = some t
  untracked : x.obj.tracked b = false → x'.obj.owner = x.obj.owner

/-- A transfer to another thread whose tests succeed. -/
theorem transfer_eq {L : Type} {x : World (Mutex T) T Q} (ht : t ≠ self)
    (hassert : b.ndebug = true ∨ x.obj.owner = some self)
    (hcheck : x.obj.attr = some .errorcheck → x.obj.owner = some self) :
  (transfer b self (some t) x : Outcome (World (Mutex T) T Q) L Ret)
    = .ret ⟨{ x.obj with
        owner := if x.obj.attr = some .errorcheck ∨
            (b.ndebug = false ∧ (b.alwaysTrackMutexOwner = true ∨ x.obj.isNormal = false))
          then some t else x.obj.owner }, x.waits⟩ .zero
  := by
  obtain ⟨⟨held, lock, attr, owner, locks⟩, w⟩ := x
  simp only [transfer, Build.assert, if_pos hassert, if_neg ht]
  by_cases herr : attr = some .errorcheck
  · obtain rfl := hcheck herr
    subst herr
    simp [isNormal]
  · simp only [herr, false_and, if_false, false_or]
    grind

/-- The holder of a transferable mutex transfers it. -/
theorem exists_transfer {L : Type} {x : World (Mutex T) T Q}
    (howner : x.obj.tracked b = true → x.obj.owner = some self)
    (hpass : Transferable b self t x.obj) :
  ∃ x', (transfer b self (some t) x : Outcome (World (Mutex T) T Q) L Ret) = .ret x' .zero
    ∧ Passed b t x x'
  := by
  obtain ⟨hchecked, hrewritten⟩ := hpass
  have hassert : b.ndebug = true ∨ x.obj.owner = some self := by
    grind [tracked]
  by_cases ht : t = self
  · subst ht
    refine ⟨x, ?_, rfl, rfl, howner, fun _ => rfl⟩
    simp only [transfer, Build.assert, if_pos hassert, if_true]
  · have hcheck : x.obj.attr = some .errorcheck → x.obj.owner = some self := by
      intro herr
      apply howner
      simp [tracked, isNormal, herr]
    have hattr : x.obj.isNormal = false ↔ x.obj.attr = some .errorcheck
        ∨ x.obj.attr = some .recursive := by
      rcases x.obj with ⟨-, -, _ | _ | _ | _, -, -⟩
      all_goals simp [isNormal]
    refine ⟨_, transfer_eq ht hassert hcheck, rfl, rfl, ?_, ?_⟩
    · intro htracked
      simp only [tracked] at htracked
      grind
    · intro hu
      simp only [tracked] at hu
      grind

theorem transfer_none_eq_ret {L : Type} {x x' : World (Mutex T) T Q} {r : Ret}
    (h : (transfer b self none x : Outcome (World (Mutex T) T Q) L Ret) = .ret x' r) :
  x' = x ∧ r = .error .ESRCH
  := by
  simp only [transfer, Build.assert] at h
  grind

/-! ### An owner that is not maintained -/

section Untracked

variable [DecidableEq Q] {q : Q} {mx : Mutex T} {w : Waits T Q} {abstime : Option Timespec}
    {c err : Bool} {r : Ret} {s s' : World (Mutex T) T Q}

omit [DecidableEq T] in
theorem normal_of_untracked (h : mx.tracked b = false) :
  (mx.attr = none ∨ mx.attr = some .normal)
    ∧ ¬ (b.alwaysTrackMutexOwner = true ∧ ¬ b.ndebug = true)
  := by
  obtain ⟨held, lock, attr, owner, locks⟩ := mx
  rcases attr with _ | _ | _ | _
  all_goals simp_all [tracked, isNormal]

omit [DecidableEq T] [DecidableEq Q] in
theorem grab_owner {Loc : Type} (hu : mx.tracked b = false)
    (h : (grab b self mx w : Outcome (World (Mutex T) T Q) Loc Ret) = .ret s' r) :
  s'.obj.owner = mx.owner
  := by
  obtain ⟨hattr, hb⟩ := normal_of_untracked hu
  rw [grab, if_neg hb] at h
  rcases hattr with hattr | hattr
  all_goals
    simp only [hattr, Outcome.ret.injEq] at h
    rw [← h.1]

theorem lockStart_owner (hu : mx.tracked b = false)
    (h : lockStart b q self abstime mx w = .ret s' r) :
  s'.obj.owner = mx.owner
  := by
  obtain ⟨hlock, -, ⟨hfree, -, -⟩ | ⟨-, hrec, -⟩ | ⟨-, herr, -⟩ | ⟨-, -, -, hobj⟩⟩ :=
    lockStart_eq_ret h
  · have hgrab : (grab b self { mx with lock := true, held := true } w
        : Outcome (World (Mutex T) T Q) LockLoc Ret) = .ret s' r := by
      simpa [lockStart, hfree, hlock] using h
    apply grab_owner _ hgrab
    exact hu
  · simp [tracked_of_recursive hrec] at hu
  · simp [tracked, isNormal, herr] at hu
  · rw [hobj]

omit [DecidableEq Q] in
theorem trylock_owner {Loc : Type} (hu : s.obj.tracked b = false)
    (h : (trylock b self s : Outcome (World (Mutex T) T Q) Loc Ret) = .ret s' r) :
  s'.obj.owner = s.obj.owner
  := by
  obtain ⟨hlock, -, ⟨hfree, -, -⟩ | ⟨-, hrec, -⟩ | ⟨-, -, hobj⟩⟩ := trylock_eq_ret h
  · have hgrab : (grab b self { s.obj with lock := true, held := true } s.waits
        : Outcome (World (Mutex T) T Q) Loc Ret) = .ret s' r := by
      simpa [trylock, hfree, hlock] using h
    apply grab_owner _ hgrab
    exact hu
  · simp [tracked_of_recursive hrec] at hu
  · rw [hobj]

omit [DecidableEq Q] in
theorem lockFinish_owner (hu : mx.tracked b = false)
    (h : lockFinish b self err mx w = .ret s' r) :
  s'.obj.owner = mx.owner
  := by
  obtain ⟨hattr, -⟩ := normal_of_untracked hu
  obtain ⟨held, lock, attr, owner, locks⟩ := mx
  rcases hattr with rfl | rfl
  all_goals
    simp only [lockFinish, Build.assert] at h
    grind

/-- An untracked mutex is unlocked without a look at its owner. -/
theorem unlockStart_of_untracked (hlock : mx.lock = false) (hu : mx.tracked b = false) :
  unlockStart b q self mx w = handOver b q { mx with lock := true } w
  := by
  obtain ⟨hattr, hb⟩ := normal_of_untracked hu
  rcases hattr with hattr | hattr
  all_goals simp only [unlockStart, hlock, hattr, hb, if_false, Bool.false_eq_true]

theorem handOver_owner (hu : mx.tracked b = false) :
  (∀ l', handOver b q mx w = .goto s' l' → s'.obj.owner = mx.owner)
    ∧ ∀ r, handOver b q mx w = .ret s' r → s'.obj.owner = mx.owner
  := by
  have hnot : ¬ (¬ b.ndebug = true ∧ (b.alwaysTrackMutexOwner = true ∨ ¬ mx.isNormal = true)) := by
    simp only [tracked] at hu
    grind
  simp only [handOver, if_neg hnot]
  grind

theorem step_owner {l l' : Loc T} (hu : s.obj.tracked b = false)
    (h : step b q self l c s = .goto s' l') :
  s'.obj.owner = s.obj.owner
  := by
  cases l with
  | lock l =>
      simp only [step, Outcome.lift_eq_goto_iff, id_eq] at h
      rcases h with ⟨s₁, l₁, h, rfl, -⟩ | ⟨_, _, _, h⟩
      · rw [lockStep_same h]
      · cases h
  | trylock => exact absurd h trylock_ne_goto
  | unlock l =>
      simp only [step, Outcome.lift_eq_goto_iff, id_eq] at h
      rcases h with ⟨s₁, l₁, h, rfl, -⟩ | ⟨_, _, _, h⟩
      · obtain ⟨-, hstart⟩ := unlockStep_eq_goto h
        have hu' : ({ s.obj with lock := true } : Mutex T).tracked b = false := hu
        rw [unlockStart_of_untracked (unlockStart_eq_goto hstart).1 hu] at hstart
        exact (handOver_owner hu').1 _ hstart
      · cases h

theorem step_owner_ret {l : Loc T} (hu : s.obj.tracked b = false)
    (hport : ∀ u ∈ (l.role q).owes, s.waits.port u = 0) (h : step b q self l c s = .ret s' r) :
  s'.obj.owner = s.obj.owner
  := by
  cases l with
  | lock l =>
      simp only [step, Outcome.lift_eq_ret_iff, id_eq] at h
      obtain ⟨s₁, r₁, h, h'⟩ := h
      obtain ⟨rfl, rfl⟩ := h'
      rcases lockStep_eq_ret h with ⟨abstime, -, h⟩ | ⟨err, -, h⟩
      · exact lockStart_owner hu h
      · exact lockFinish_owner hu h
  | trylock => exact trylock_owner hu h
  | unlock l =>
      simp only [step, Outcome.lift_eq_ret_iff, id_eq] at h
      obtain ⟨s₁, r₁, h, h'⟩ := h
      obtain ⟨rfl, rfl⟩ := h'
      rcases unlockStep_eq_ret hport h with ⟨-, h⟩ | ⟨u, -, rfl, -⟩
      · have hu' : ({ s.obj with lock := true } : Mutex T).tracked b = false := hu
        rw [unlockStart_of_untracked (unlockStart_eq_ret h).1 hu] at h
        exact (handOver_owner hu').2 _ h
      · rfl

end Untracked

section Unlock

variable [DecidableEq Q] {q : Q} {mx : Mutex T} {w : Waits T Q} {u : T} {rest : List T}

/-- The owner of a recursive mutex undoes one of several acquisitions. -/
theorem unlockStart_inner (hlock : mx.lock = false) (hrec : mx.attr = some .recursive)
    (howner : mx.owner = some self) (hmore : 0 < decLocks mx.locks) :
  unlockStart b q self mx w = .ret ⟨{ mx with locks := decLocks mx.locks }, w⟩ .zero
  := by
  obtain ⟨held, lock, attr, owner, locks⟩ := mx
  obtain rfl : lock = false := hlock
  obtain rfl : attr = some .recursive := hrec
  simp only [unlockStart, if_pos howner, if_pos hmore, Bool.false_eq_true, if_false]

/-- The holder of a mutex undoes its last acquisition. -/
theorem unlockStart_last (hlock : mx.lock = false)
    (howner : mx.tracked b = true → mx.owner = some self)
    (hlast : mx.attr = some .recursive → decLocks mx.locks = 0) :
  ∃ mx₀, unlockStart b q self mx w = handOver b q mx₀ w ∧ mx₀.held = mx.held
  := by
  cases hu : mx.tracked b with
  | false => exact ⟨_, unlockStart_of_untracked hlock hu, rfl⟩
  | true =>
      have hself := howner hu
      obtain ⟨held, lock, attr, owner, locks⟩ := mx
      obtain rfl : lock = false := hlock
      obtain rfl : owner = some self := hself
      rcases attr with _ | _ | _ | _
      · refine ⟨⟨held, true, none, none, locks⟩, ?_, rfl⟩
        simp_all [unlockStart, Build.assert, tracked, isNormal]
      · refine ⟨⟨held, true, some .normal, none, locks⟩, ?_, rfl⟩
        simp_all [unlockStart, Build.assert, tracked, isNormal]
      · refine ⟨⟨held, true, some .errorcheck, none, locks⟩, ?_, rfl⟩
        simp [unlockStart]
      · refine ⟨⟨held, true, some .recursive, none, decLocks locks⟩, ?_, rfl⟩
        simp [unlockStart, hlast]

theorem handOver_nil (hq : w.queue q = []) :
  handOver b q mx w = .ret ⟨{ mx with held := false, lock := false }, w⟩ .zero
  := by
  simp only [handOver, hq]

theorem handOver_cons (b : Build) (mx : Mutex T) (hq : w.queue q = u :: rest)
    (hprevp : w.prevp u ≠ none) :
  ∃ mx', handOver b q mx w = .goto ⟨mx', w.dequeue u⟩ (.wakeup u) ∧ mx'.held = mx.held
  := by
  simp only [handOver, hq, if_neg hprevp]
  exact ⟨_, rfl, rfl⟩

end Unlock

namespace Transfer

/-! ### The invariant -/

/-- The invariant of the histories without transfers. -/
structure Inv (b : Build) (s : Mutex.Sys T) : Prop where
  owned : Owned b s
  lock : s.shared.obj.lock = false
  valid : ∀ t abstime, s.loc t = some (.lock (.start abstime)) → badTime abstime = false
  untracked : s.shared.obj.tracked b = false → s.shared.obj.owner = none

/-- A thread with an acquisition that is counted is named by an owner that is maintained. -/
theorem Inv.owner_of_depth {s : Mutex.Sys T} (h : Inv b s)
    (ht : tally s.shared.obj.attr (depth t s.log) ≠ 0) (htracked : s.shared.obj.tracked b = true) :
  s.shared.obj.owner = some t
  := by
  rcases (h.owned.holder_of_depth ht).2.owner htracked with howner | ⟨-, -, hzero⟩
  · exact howner
  · exact absurd hzero ht

/-- A thread with an acquisition that is counted has not been handed the mutex since. -/
theorem Inv.not_handed {s : Mutex.Sys T} (h : Inv b s)
    (ht : tally s.shared.obj.attr (depth t s.log) ≠ 0) :
  handed t s.log = false
  := by
  cases hchosen : handed t s.log with
  | false => rfl
  | true => exact absurd ((h.owned.holder_of_depth ht).2.chosen hchosen).1 ht

/-- The steps of the system without transfers keep the invariant. -/
theorem Inv.step [Fintype T] {s s' : Mutex.Sys T} {a : Label T (Mutex.Loc T)} (h : Inv b s)
    (hsound : Sound (fun _ => False) (roles (fun _ => Mutex.Loc.role ()) s) s.shared.waits)
    (hG : Mutex.Lawful s a)
    (hcall : ∀ t abstime, a = .call t (.lock (.start abstime)) → badTime abstime = false)
    (hstep : (Mutex.machine b).Step s a s') :
  Inv b s'
  := by
  have heffect := effect_of_step hsound hstep
  constructor
  · constructor
    · exact heffect.free h.owned hG
    · exact heffect.taken hsound h.owned hG
    · exact heffect.placed hsound h.owned
  · exact heffect.lock_eq h.lock h.valid
  · exact heffect.valid hcall h.valid
  · rw [tracked_congr heffect.attr_eq]
    intro hu
    rw [← h.untracked hu]
    cases hstep with
    | call => rfl
    | goto hl hx => exact step_owner hu hx
    | ret hl hx =>
        apply step_owner_ret hu _ hx
        intro u hu
        apply hsound.port_of_owes
        rw [roles, hl]
        exact hu

variable {s s' : Sys T} {h : T} {x : World (Mutex T) T Unit}

theorem count_eq (s : Sys T) (t : T) :
  count s t = tally s.shared.obj.attr (depth t (view s).log)
  := by
  rw [count, view_log, depth_viewLog]

/-- The transfer by a holder keeps the invariant. -/
theorem Inv.transfer (hinv : Inv b (view s)) (hloc : s.loc h = some (.transfer (some t)))
    (hcount : count s h ≠ 0) (hpassed : Passed b t s.shared x) :
  Inv b (view (s.ret h (.transfer (some t)) x .zero))
  := by
  rw [count_eq] at hcount
  obtain ⟨hheld, hholder⟩ := hinv.owned.holder_of_depth hcount
  have hnot := hinv.not_handed hcount
  have hattr : x.obj.attr = s.shared.obj.attr := by rw [hpassed.obj]
  have hothers : ∀ u, u = h ∨ u = t → handed u (view s).log = false := by
    intro u hu
    by_cases huh : u = h
    · rw [huh, hnot]
    · exact (hholder.others u huh).1
  constructor
  · constructor
    · intro hfree
      have hkept : x.obj.held = s.shared.obj.held := by rw [hpassed.obj]
      exact absurd (hkept.trans hheld) (by simpa using hfree)
    · intro _
      use t
      exact holder_of_transfer hholder hnot hattr (by rw [hpassed.obj]) hpassed.owner
    · intro u
      exact placed_of_transfer hloc hpassed.waits hothers (hinv.owned.placed u)
  · have hlock : x.obj.lock = s.shared.obj.lock := by rw [hpassed.obj]
    exact hlock.trans hinv.lock
  · rw [view_ret_transfer_loc hloc]
    exact hinv.valid
  · intro hu
    rw [view_shared, State.ret_shared, tracked_congr hattr] at hu
    exact (hpassed.untracked hu).trans (hinv.untracked hu)

/-- The holder of a mutex that is not normal, or whose owner is tracked, is its owner. -/
theorem Inv.owner_of_count (hinv : Inv b (view s)) (hcount : count s h ≠ 0)
    (htracked : s.shared.obj.tracked b = true) :
  s.shared.obj.owner = some h
  := hinv.owner_of_depth (count_eq s h ▸ hcount) htracked

/-- A transfer that is refused changes nothing. -/
theorem view_ret_of_error {thread : Option T} {e : Errno}
    (hloc : s.loc h = some (.transfer thread)) :
  view (s.ret h (.transfer thread) s.shared (.error e)) = view s
  := by
  have hview : view (s.ret h (.transfer thread) s.shared (.error e))
      = ⟨s.shared, (view (s.ret h (.transfer thread) s.shared (.error e))).loc, viewLog s.log⟩ := by
    cases thread with
    | none => rfl
    | some t => rfl
  rw [hview, view_ret_transfer_loc hloc]
  rfl

section Reach

variable [Fintype T] {attr : Option MutexType}

/-- The invariant holds in every state reached by lawful steps. -/
theorem inv_of_reach
    (hs : (machine b).Reach (Lawful b) (State.idle ⟨Mutex.init attr, Waits.empty⟩) s) :
  Inv b (view s)
  := by
  apply hs.invariant (I := fun s => Inv b (view s))
  · have hidle : view (State.idle (σ := World (Mutex T) T Unit) ⟨Mutex.init attr, Waits.empty⟩)
        = (State.idle ⟨Mutex.init attr, Waits.empty⟩ : Mutex.Sys T) := rfl
    rw [hidle]
    constructor
    · exact owned_of_reach (G := Mutex.Lawful) (fun _ _ hG => hG) .refl
    · rfl
    · simp
    · intro _
      rfl
  · intro s a s' hreach hinv hG hstep
    rcases step_cases hstep with ⟨a₀, ha, hstep⟩ | hsame |
      ⟨h, c, thread, x, r, rfl, hloc, hx, rfl⟩
    · apply hinv.step (sound_of_reach hreach) (hG.view ha) _ hstep
      rintro t abstime rfl
      cases a with
      | call u l =>
          cases l with
          | op l =>
              obtain ⟨rfl, rfl⟩ := Label.call.inj (Option.some.inj ha)
              exact hG
          | transfer thread => cases ha
      | act u c => cases ha
    · rw [hsame]
      exact hinv
    · obtain ⟨hcount, hpass⟩ := hG.2 thread hloc
      cases thread with
      | none =>
          obtain ⟨rfl, rfl⟩ := transfer_none_eq_ret hx
          rw [view_ret_of_error hloc]
          exact hinv
      | some t =>
          obtain ⟨x', hx', hpassed⟩ := exists_transfer (L := Loc T) (x := s.shared)
            (hinv.owner_of_count hcount) (hpass t rfl)
          obtain ⟨rfl, rfl⟩ := Outcome.ret.inj (hx.symm.trans hx')
          exact hinv.transfer hloc hcount hpassed

/-! ### The holder after a transfer -/

/-- Thread `t` holds the mutex: its unlocks undo its acquisitions one by one, and the last of them
releases the mutex, to the first waiter if there is one. An unlock of a mutex that is not normal
by another thread is refused. -/
structure HeldBy (b : Build) (s : Sys T) (t : T) : Prop where
  held : s.shared.obj.held = true
  locks : s.shared.obj.attr = some .recursive → s.shared.obj.locks = count s t
  inner : count s t ≠ 1 → ∀ c, (machine b).step t (.op (.unlock .start)) c s.shared
    = .ret ⟨{ s.shared.obj with locks := count s t - 1 }, s.shared.waits⟩ .zero
  release : count s t = 1 → s.shared.waits.queue () = [] → ∀ c, ∃ x,
    (machine b).step t (.op (.unlock .start)) c s.shared = .ret x .zero ∧ x.obj.held = false
  handOver : count s t = 1 → ∀ u rest, s.shared.waits.queue () = u :: rest → ∀ c, ∃ x,
    (machine b).step t (.op (.unlock .start)) c s.shared = .goto x (.op (.unlock (.wakeup u)))
      ∧ x.waits = s.shared.waits.dequeue u ∧ x.obj.held = true
  denied : s.shared.obj.isNormal = false → ∀ u, u ≠ t → ∀ c,
    (machine b).step u (.op (.unlock .start)) c s.shared = .ret s.shared (.error .EPERM)

omit [Fintype T] in
/-- The section of an unlock, as a step of the system. -/
theorem step_unlock (b : Build) (t : T) (c : Bool) (x : World (Mutex T) T Unit) :
  (machine b).step t (.op (.unlock .start)) c x
    = (unlockStart b () t x.obj x.waits).lift id (fun l => .op (.unlock l)) .ret
  := by
  simp only [machine, Mutex.step, unlockStep]
  cases unlockStart b () t x.obj x.waits with
  | _ => rfl

omit [Fintype T] in
/-- The holder of a recursive mutex has acquired it `locks` times. -/
theorem Inv.locks_eq (hinv : Inv b (view s)) (hcount : count s t ≠ 0)
    (hattr : s.shared.obj.attr = some .recursive) :
  s.shared.obj.locks = count s t ∧ count s t < 2 ^ 32
  := by
  rw [count_eq] at hcount
  have hkept := (hinv.owned.holder_of_depth hcount).2.kept (hinv.not_handed hcount)
  rw [count_eq, tally, if_pos hattr]
  exact ⟨(hkept.1 hattr).symm, Nat.mod_lt _ (Nat.two_pow_pos 32)⟩

omit [Fintype T] in
/-- The holder of a mutex that is not recursive has acquired it once. -/
theorem Inv.count_eq_one (hinv : Inv b (view s)) (hcount : count s t ≠ 0)
    (hattr : s.shared.obj.attr ≠ some .recursive) :
  count s t = 1
  := by
  have hcount' := hcount
  rw [count_eq] at hcount'
  have hkept := (hinv.owned.holder_of_depth hcount').2.kept (hinv.not_handed hcount')
  have hle := hkept.2 hattr
  rw [count_eq, tally, if_neg hattr] at hcount ⊢
  exact Nat.le_antisymm hle (Nat.pos_of_ne_zero hcount)

omit [Fintype T] in
/-- The unlock that undoes the last acquisition of the holder gives the mutex away. -/
theorem Inv.unlockStart_eq (hinv : Inv b (view s)) (hcount : count s t = 1) :
  ∃ mx, unlockStart b () t s.shared.obj s.shared.waits = Mutex.handOver b () mx s.shared.waits
    ∧ mx.held = true
  := by
  have hne : count s t ≠ 0 := by omega
  have hlock : s.shared.obj.lock = false := hinv.lock
  have hheld : s.shared.obj.held = true :=
    (hinv.owned.holder_of_depth (count_eq s t ▸ hne)).1
  have hlast : s.shared.obj.attr = some .recursive → decLocks s.shared.obj.locks = 0 := by
    intro hattr
    rw [(hinv.locks_eq hne hattr).1, hcount]
    rfl
  obtain ⟨mx, heq, hkept⟩ := unlockStart_last (b := b) (q := ()) (w := s.shared.waits) hlock
    (hinv.owner_of_count hne) hlast
  exact ⟨mx, heq, hkept.trans hheld⟩

/-- A thread with an acquisition that is counted holds the mutex. -/
theorem heldBy_of_count
    (hs : (machine b).Reach (Lawful b) (State.idle ⟨Mutex.init attr, Waits.empty⟩) s)
    (hcount : count s t ≠ 0) :
  HeldBy b s t
  := by
  have hinv := inv_of_reach hs
  have hsound := sound_of_reach hs
  have howner := hinv.owner_of_count hcount
  have hlock : s.shared.obj.lock = false := hinv.lock
  constructor
  · exact (hinv.owned.holder_of_depth (count_eq s t ▸ hcount)).1
  · intro hattr
    exact (hinv.locks_eq hcount hattr).1
  · intro hmore c
    have hattr : s.shared.obj.attr = some .recursive := by
      by_contra hattr
      exact hmore (hinv.count_eq_one hcount hattr)
    obtain ⟨hlocks, hlt⟩ := hinv.locks_eq hcount hattr
    have hdec : decLocks s.shared.obj.locks = count s t - 1 := by
      rw [hlocks, decLocks]
      omega
    rw [step_unlock, unlockStart_inner hlock hattr (howner (tracked_of_recursive hattr))
      (by omega), hdec]
    rfl
  · intro hone hempty c
    obtain ⟨mx, heq, -⟩ := hinv.unlockStart_eq hone
    rw [step_unlock, heq, handOver_nil hempty]
    exact ⟨_, rfl, rfl⟩
  · intro hone u rest hq c
    obtain ⟨mx, heq, hheld⟩ := hinv.unlockStart_eq hone
    have hprevp : s.shared.waits.prevp u ≠ none := by
      rw [hsound.linked () u (by simp [hq])]
      simp
    obtain ⟨mx', hgoto, hkept⟩ := handOver_cons b mx hq hprevp
    rw [step_unlock, heq, hgoto]
    exact ⟨_, rfl, rfl, hkept.trans hheld⟩
  · intro hchecked u hu c
    have hforeign : s.shared.obj.owner ≠ some u := by
      rw [howner (by simp [tracked, hchecked])]
      exact fun h => hu (Option.some.inj h).symm
    rw [step_unlock, unlockStart_of_not_owner hlock hchecked hforeign]
    rfl

/-- The second step of an unlock that has handed the mutex over. -/
theorem step_wakeup
    (hs : (machine b).Reach (Lawful b) (State.idle ⟨Mutex.init attr, Waits.empty⟩) s) {u : T}
    {c : Bool} (hloc : s.loc t = some (.op (.unlock (.wakeup u)))) :
  (machine b).step t (.op (.unlock (.wakeup u))) c s.shared
    = .ret ⟨s.shared.obj, s.shared.waits.send u⟩ .zero
  := by
  have hport : s.shared.waits.port u = 0 := by
    apply (sound_of_reach hs).port_of_owes (t := t)
    simp [roles, hloc, Loc.op?, Mutex.Loc.role, UnlockLoc.owes]
  simp only [machine, Mutex.step, unlockStep, Build.wakeup_of hport]
  rfl

/-- The transfer from `h` to `t` returns 0 and leaves everything but `owner` as it was, with the
acquisitions of `h` counted for `t`. As long as some of them are left, `t` holds the mutex in
every later state, and an unlock in which `t` has handed the mutex over returns 0. -/
structure Passes (b : Build) (s : Sys T) (h t : T) (x : World (Mutex T) T Unit) : Prop where
  step : ∀ c, (machine b).step h (.transfer (some t)) c s.shared = .ret x .zero
  waits : x.waits = s.shared.waits
  obj : x.obj = { s.shared.obj with owner := x.obj.owner }
  count : count (s.ret h (.transfer (some t)) x .zero) t = count s h
  holder : ∀ s', (machine b).Reach (Lawful b) (s.ret h (.transfer (some t)) x .zero) s' →
    Transfer.count s' t ≠ 0 → HeldBy b s' t
  wakeup : ∀ s', (machine b).Reach (Lawful b) (s.ret h (.transfer (some t)) x .zero) s' →
    ∀ u c, s'.loc t = some (.op (.unlock (.wakeup u))) →
      (machine b).step t (.op (.unlock (.wakeup u))) c s'.shared
        = .ret ⟨s'.shared.obj, s'.shared.waits.send u⟩ .zero

/-- The holder passes a transferable mutex to `t`. -/
theorem exists_passes
    (hs : (machine b).Reach (Lawful b) (State.idle ⟨Mutex.init attr, Waits.empty⟩) s)
    (hloc : s.loc h = some (.transfer (some t))) (hcount : count s h ≠ 0)
    (hpass : Transferable b h t s.shared.obj) :
  ∃ x, Passes b s h t x
  := by
  obtain ⟨x, hx, hpassed⟩ := exists_transfer (L := Loc T) (x := s.shared)
    ((inv_of_reach hs).owner_of_count hcount) hpass
  have hlawful : Lawful b s (.act h false) := by
    constructor
    · intro hl
      simp [hloc, Loc.op?] at hl
    · intro thread hl
      obtain rfl := Loc.transfer.inj (Option.some.inj (hloc.symm.trans hl))
      use hcount
      rintro u hu
      obtain rfl := Option.some.inj hu
      exact hpass
  have hafter := hs.step hlawful (.ret (c := false) hloc hx)
  have hattr : x.obj.attr = s.shared.obj.attr := by rw [hpassed.obj]
  use x
  constructor
  · exact fun _ => hx
  · exact hpassed.waits
  · exact hpassed.obj
  · simp only [count, State.ret_log, State.ret_shared, acquisitions, Equiv.swap_apply_right, hattr]
  · intro s' hs' hleft
    exact heldBy_of_count (hafter.trans hs') hleft
  · intro s' hs' u c hl
    exact step_wakeup (hafter.trans hs') hl

/-- The assertion fails for a normal mutex whose `owner` is not maintained. -/
theorem transfer_eq_fault
    (hs : (machine b).Reach (Lawful b) (State.idle ⟨Mutex.init attr, Waits.empty⟩) s)
    (hnormal : s.shared.obj.isNormal = true) (hdebug : b.ndebug = false)
    (htrack : b.alwaysTrackMutexOwner = false) (h : T) (thread : Option T) (c : Bool) :
  (machine b).step h (.transfer thread) c s.shared = .fault
  := by
  have howner : s.shared.obj.owner = none := by
    apply (inv_of_reach hs).untracked
    simp [tracked, hnormal, htrack]
  simp [machine, transfer, Build.assert, hdebug, howner]

/-- The owner of a recursive mutex is not rewritten under `NDEBUG`. -/
theorem transfer_eq_self
    (hs : (machine b).Reach (Lawful b) (State.idle ⟨Mutex.init attr, Waits.empty⟩) s)
    (hcount : count s h ≠ 0) (hrec : s.shared.obj.attr = some .recursive)
    (hndebug : b.ndebug = true) (ht : t ≠ h) {c : Bool} :
  s.shared.obj.owner = some h ∧
    (machine b).step h (.transfer (some t)) c s.shared = .ret s.shared .zero
  := by
  have howner := (inv_of_reach hs).owner_of_count hcount (tracked_of_recursive hrec)
  refine ⟨howner, ?_⟩
  simp only [machine]
  rw [transfer_eq ht (.inl hndebug) (fun _ => howner), if_neg]
  simp [hrec, hndebug]

/-- The transfer of a mutex, for any number of threads: the holder passes it to `t` with all its
acquisitions, if and only if the mutex is transferable. -/
theorem exists_passes_iff
    (hs : (machine b).Reach (Lawful b) (State.idle ⟨Mutex.init attr, Waits.empty⟩) s)
    (hloc : s.loc h = some (.transfer (some t))) (hcount : count s h ≠ 0) :
  (∃ x, Passes b s h t x) ↔ Transferable b h t s.shared.obj
  := by
  constructor
  · rintro ⟨x, hx⟩
    constructor
    · rintro ⟨hnormal, hdebug, htrack⟩
      have hfault := transfer_eq_fault hs hnormal hdebug htrack h (some t) false
      rw [hx.step] at hfault
      cases hfault
    · rintro ⟨hrec, hndebug, ht⟩
      obtain ⟨howner, hself⟩ := transfer_eq_self (c := false) hs hcount hrec hndebug ht
      rw [hx.step] at hself
      obtain ⟨rfl, -⟩ := Outcome.ret.inj hself
      -- the former holder is still the owner, so that its unlock is not refused
      have hheld := hx.holder _ .refl (hx.count ▸ hcount)
      have hdenied := hheld.denied (by simp [isNormal, hrec]) h ht.symm false
      rw [step_unlock, State.ret_shared] at hdenied
      obtain ⟨x₁, r₁, hunlock, hr⟩ := Outcome.lift_eq_ret_iff.mp hdenied
      obtain ⟨-, rfl⟩ := Outcome.ret.inj hr
      obtain ⟨-, -, ⟨-, hforeign, -⟩ | ⟨-, -, -, hr, -⟩ | ⟨-, hr, -⟩⟩ := unlockStart_eq_ret hunlock
      · exact hforeign howner
      · cases hr
      · cases hr
  · exact exists_passes hs hloc hcount

/-- A thread locks the mutex twice and is about to transfer it. -/
def passing {T : Type} (t u : T) : List (Label T (Loc T)) :=
  [.call t (.op (.lock (.start none))), .act t false, .call t (.op .trylock), .act t false,
   .call t (.transfer (some u))]

/-- With assertions a recursive mutex is passed on with both acquisitions. -/
theorem exists_passes_recursive :
  ∃ s, (machine Build.debug).Reach (Lawful Build.debug)
      (State.idle ⟨Mutex.init (some .recursive), Waits.empty⟩) s ∧ count s 0 = 2 ∧
    ∃ x, Passes Build.debug s (0 : Fin 2) 1 x
  := by
  obtain ⟨s, hs, hp⟩ := Machine.exists_reach_of_run (M := machine Build.debug)
    (G := Lawful Build.debug) (s := State.idle ⟨Mutex.init (some .recursive), Waits.empty⟩)
    (passing (0 : Fin 2) 1)
    (fun s => s.loc 0 = some (.transfer (some 1)) ∧ count s 0 = 2 ∧
      Transferable Build.debug 0 1 s.shared.obj) (by decide +kernel)
  simp only [decide_eq_true_eq] at hp
  obtain ⟨hloc, hcount, hpass⟩ := hp
  use s, hs, hcount
  exact (exists_passes_iff hs hloc (by simp [hcount])).mpr hpass

/-- With assertions the transfer of a normal mutex by its holder fails. -/
theorem not_passes_normal :
  ∃ s, (machine Build.debug).Reach (Lawful Build.debug)
      (State.idle ⟨Mutex.init none, Waits.empty⟩) s ∧
    s.loc 0 = some (.transfer (some 1)) ∧ count s 0 = 1 ∧
    (machine Build.debug).step 0 (.transfer (some 1)) false s.shared = .fault ∧
    ¬ ∃ x, Passes Build.debug s (0 : Fin 2) 1 x
  := by
  obtain ⟨s, hs, hp⟩ := Machine.exists_reach_of_run (M := machine Build.debug)
    (G := Lawful Build.debug) (s := State.idle ⟨Mutex.init none, Waits.empty⟩)
    [.call 0 (.op .trylock), .act 0 false, .call 0 (.transfer (some (1 : Fin 2)))]
    (fun s => s.loc 0 = some (.transfer (some 1)) ∧ count s 0 = 1 ∧
      s.shared.obj.isNormal = true) (by decide +kernel)
  simp only [decide_eq_true_eq] at hp
  obtain ⟨hloc, hcount, hnormal⟩ := hp
  have hfault := transfer_eq_fault hs hnormal rfl rfl 0 (some 1) false
  refine ⟨s, hs, hloc, hcount, hfault, ?_⟩
  rintro ⟨x, hx⟩
  rw [hx.step] at hfault
  cases hfault

end Reach

end Transfer

end Mutex

end LibPthread
