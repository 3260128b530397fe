import LibPthread.Concurrency.Order
import LibPthread.Mutex.Linearization

/-!
# The order in which a mutex is handed over

Threads join the queue of a mutex at its front, and an unlock takes the first one: the thread
that has begun to wait latest gets the mutex next. Two threads can therefore pass the mutex to
each other as often as they like while a third one waits.
-/

open Concurrency

namespace LibPthread

namespace Mutex

variable {T : Type} [DecidableEq T] {b : Build} {attr : Option MutexType} {s : Sys T}

/-- Last in, first out: in every run, an unlock that hands the mutex over picks, among all
threads that are still queued, the one that has joined the queue latest. -/
theorem hand_over_latest [Fintype T] {G : Sys T → Label T (Loc T) → Prop}
    (hs : (machine b).Reach G (State.idle ⟨Mutex.init attr, Waits.empty⟩) s) {t u : T} {c : Bool}
    {x : World (Mutex T) T Unit}
    (hstep : (machine b).step t (.unlock .start) c s.shared = .goto x (.unlock (.wakeup u))) :
  u ∈ s.shared.waits.queue () ∧ ∀ v ∈ s.shared.waits.queue (), v ≠ u →
    After (fun _ => Loc.role ()) () s.log u v ∧ ¬ After (fun _ => Loc.role ()) () s.log v u
  := by
  obtain ⟨rest, hfirst⟩ : ∃ rest, s.shared.waits.queue () = u :: rest := by
    simp only [machine, step, Outcome.lift_eq_goto_iff, id_eq, unlockStep] at hstep
    rcases hstep with ⟨s₁, l₁, h, -, hl₁⟩ | ⟨_, _, _, h⟩
    · obtain ⟨-, v, rest, hq, rfl, -⟩ := unlockStart_eq_goto h
      obtain rfl : v = u := by
        simpa using hl₁
      use rest, hq
    · cases h
  constructor
  · simp [hfirst]
  · intro v hv hne
    have hafter : After (fun _ => Loc.role ()) () s.log u v := by
      apply (conforms b).head_after (fun _ _ _ _ => trivial) hs hfirst
      simpa [hfirst, hne] using hv
    use hafter, hafter.asymm

/-- Thread `0` has the mutex, thread `1` waits for it and then thread `2`, to which the unlock hands
it over. -/
theorem hand_over_latest_three :
  ∃ s : Sys (Fin 3), (machine Build.debug).Reach (fun _ _ => True)
      (State.idle ⟨Mutex.init none, Waits.empty⟩) s ∧ s.loc 0 = some (.unlock .start) ∧
    After (fun _ => Loc.role ()) () s.log 2 1 ∧ ¬ After (fun _ => Loc.role ()) () s.log 1 2
  := by
  obtain ⟨s, hs, hp⟩ := Machine.exists_reach_of_run (M := machine Build.debug)
    (G := fun _ _ => True) (s := State.idle ⟨Mutex.init none, Waits.empty⟩)
    [.call (0 : Fin 3) (.lock (.start none)), .act 0 false, .call 1 (.lock (.start none)),
      .act 1 false, .call 2 (.lock (.start none)), .act 2 false, .call 0 (.unlock .start)]
    (fun s => decide (s.loc 0 = some (.unlock .start)) &&
      decide (s.shared.waits.queue () = [2, 1]) &&
      match (machine Build.debug).step 0 (.unlock .start) false s.shared with
      | .goto _ l => decide (l = .unlock (.wakeup 2))
      | _ => false) (by decide +kernel)
  simp only [Bool.and_eq_true, decide_eq_true_eq] at hp
  obtain ⟨⟨hl, hqueue⟩, hstep⟩ := hp
  cases hx : (machine Build.debug).step 0 (.unlock .start) false s.shared with
  | goto x l =>
      obtain rfl : l = .unlock (.wakeup 2) := by
        simpa [hx] using hstep
      use s, hs, hl
      apply (hand_over_latest hs hx).2 1 (by simp [hqueue]) (by decide)
  | _ => simp [hx] at hstep

/-! ### A waiter that is passed over -/

/-- The number of calls that have acquired the mutex. -/
def grants : Log T → Nat
  | [] => 0
  | .call _ _ :: log => grants log
  | .goto _ _ _ :: log => grants log
  | .ret _ l r :: log =>
    match l with
    | .lock _ => grants log + if r = .zero then 1 else 0
    | .trylock => grants log + if r = .zero then 1 else 0
    | .unlock _ => grants log

/-- `t` has the mutex, `v` is the only waiter, and no other thread is inside a call. -/
structure Contended (b : Build) (v t : T) (s : Sys T) : Prop where
  held : s.shared.obj.held = true
  lock : s.shared.obj.lock = false
  attr : s.shared.obj.attr = none
  owner : b.alwaysTrackMutexOwner = true → b.ndebug = false → s.shared.obj.owner = some t
  queue : s.shared.waits.queue () = [v]
  linked : ∀ u, s.shared.waits.prevp u = if u = v then some () else none
  port : ∀ u, s.shared.waits.port u = 0
  loc : ∀ u, s.loc u = if u = v then some (.lock (.wait (.block false))) else none
  depth : 0 < depth t s.log
  waits : Machine.returned v s.log = []

/-- The owner that an unlock of `t` leaves in a normal mutex that it hands over to `u`. -/
def handedOwner (b : Build) (u : T) (owner : Option T) : Option T :=
  if b.alwaysTrackMutexOwner ∧ ¬ b.ndebug then some u else owner

theorem lockStart_contended {u t : T} {owner : Option T} {locks : Nat} {w : Waits T Unit}
    (howner : b.alwaysTrackMutexOwner = true → b.ndebug = false → owner = some t) (hut : u ≠ t)
    (hprevp : w.prevp u = none) :
  lockStart b () u none ⟨true, false, none, owner, locks⟩ w =
    .goto ⟨⟨true, false, none, owner, locks⟩, w.enqueue () u⟩ (.wait (.block false))
  := by
  obtain ⟨ndebug, track⟩ := b
  cases ndebug
  · cases track
    · simp [lockStart, lockBusy, isNormal, badTime, Build.assert, hprevp]
    · obtain rfl := howner rfl rfl
      simp [lockStart, lockBusy, isNormal, badTime, Build.assert, hprevp, hut.symm]
  · simp [lockStart, lockBusy, isNormal, badTime, Build.assert]

theorem unlockStart_contended {u t : T} {owner : Option T} {locks : Nat} {w : Waits T Unit}
    {rest : List T}
    (howner : b.alwaysTrackMutexOwner = true → b.ndebug = false → owner = some t)
    (hqueue : w.queue () = u :: rest) (hprevp : w.prevp u = some ()) :
  unlockStart b () t ⟨true, false, none, owner, locks⟩ w =
    .goto ⟨⟨true, false, none, handedOwner b u owner, locks⟩, w.dequeue u⟩ (.wakeup u)
  := by
  obtain ⟨ndebug, track⟩ := b
  cases ndebug
  · cases track
    · simp [unlockStart, handOver, handedOwner, isNormal, hqueue, hprevp]
    · obtain rfl := howner rfl rfl
      simp [unlockStart, handOver, handedOwner, isNormal, Build.assert, hqueue, hprevp]
  · simp [unlockStart, handOver, handedOwner, hqueue, hprevp]

theorem lockFinish_contended {u : T} {owner : Option T} {locks : Nat} {w : Waits T Unit}
    (howner : b.alwaysTrackMutexOwner = true → b.ndebug = false → owner = some u) :
  lockFinish b u false ⟨true, false, none, owner, locks⟩ w =
    .ret ⟨⟨true, false, none, owner, locks⟩, w⟩ .zero
  := by
  obtain ⟨ndebug, track⟩ := b
  cases ndebug
  · cases track
    · simp [lockFinish, isNormal]
    · obtain rfl := howner rfl rfl
      simp [lockFinish, isNormal, Build.assert]
  · simp [lockFinish, isNormal, Build.assert]

/-- No time-out expires in a run in which the mutex is a lock. -/
def Timeless (s : Sys T) (a : Label T (Loc T)) : Prop :=
  Regular s a ∧ a.expires = false

theorem timeless_call {t : T} {l : Loc T} :
  Timeless s (.call t l) ↔ ValidTimeout (.call t l)
  := by
  constructor
  · intro h
    apply h.1.1
  · intro h
    exact ⟨⟨h, ⟨trivial, trivial⟩, trivial⟩, rfl⟩

theorem timeless_act {t : T} :
  Timeless s (.act t false) ↔ HolderUnlocks s (.act t false) ∧ CountsLocks s (.act t false) ∧
    (s.loc t = some (.unlock .start) → releases t s.shared.obj = true →
      ∀ u ∈ (s.shared.waits.queue ()).head?, s.loc u ≠ some (.lock (.wait (.recheck true))))
  := by
  constructor
  · rintro ⟨⟨-, ⟨hholder, hcounts⟩, -, hcrossed⟩, -⟩
    use hholder, hcounts
  · rintro ⟨hholder, hcounts, hcrossed⟩
    refine ⟨⟨trivial, ⟨hholder, hcounts⟩, ?_, hcrossed⟩, rfl⟩
    simp

/-- The mutex passes from `t` to `u` while `v` waits. -/
theorem Contended.pass {v t u : T} (h : Contended b v t s) (htv : t ≠ v) (huv : u ≠ v)
    (hut : u ≠ t) :
  ∃ s', (machine b).Reach Timeless s s' ∧ Contended b v u s' ∧ grants s'.log = grants s.log + 1
  := by
  obtain ⟨⟨⟨held, lock, attr, owner, locks⟩, w⟩, loc, log⟩ := s
  obtain ⟨rfl, rfl, rfl, howner, hqueue, hlinked, hport, hloc, hdepth, hwaits⟩ := h
  dsimp only at howner hqueue hlinked hport hloc hdepth hwaits
  have htu := hut.symm
  have huw : w.prevp u = none := by
    rw [hlinked, if_neg huv]
  let s : Sys T := ⟨⟨⟨true, false, none, owner, locks⟩, w⟩, loc, log⟩
  let s₁ := s.call u (.lock (.start none))
  let w₂ := w.enqueue () u
  let s₂ := s₁.goto u (.lock (.start none)) ⟨⟨true, false, none, owner, locks⟩, w₂⟩
    (.lock (.wait (.block false)))
  let s₃ := s₂.call t (.unlock .start)
  let mx : Mutex T := ⟨true, false, none, handedOwner b u owner, locks⟩
  let w₄ := w₂.dequeue u
  let s₄ := s₃.goto t (.unlock .start) ⟨mx, w₄⟩ (.unlock (.wakeup u))
  let w₅ := w₄.send u
  let s₅ := s₄.ret t (.unlock (.wakeup u)) ⟨mx, w₅⟩ .zero
  let w₆ := w₅.receive u
  let s₆ := s₅.goto u (.lock (.wait (.block false))) ⟨mx, w₆⟩ (.lock (.wait (.recheck false)))
  let s₇ := s₆.goto u (.lock (.wait (.recheck false))) ⟨mx, w₆⟩ (.lock (.finish false))
  let s₈ := s₇.ret u (.lock (.finish false)) ⟨mx, w₆⟩ .zero
  -- `u` asks for the mutex and waits in front of `v`
  have h₁ : (machine b).Reach Timeless s s₁ := by
    apply Machine.Reach.refl.step _ (.call (by simp [s, hloc, huv]) rfl)
    simp [timeless_call, ValidTimeout, badTime]
  have h₂ : (machine b).Reach Timeless s s₂ := by
    apply h₁.step (a := .act u false) _ (.goto (by simp [s₁]) _)
    · simp [timeless_act, HolderUnlocks, CountsLocks, s₁, s]
    · simp [machine, step, lockStep, s₁, s, lockStart_contended howner hut huw, Outcome.lift, w₂]
  -- `t` hands the mutex over to it
  have h₃ : (machine b).Reach Timeless s s₃ := by
    apply h₂.step _ (.call (by simp [s₂, s₁, s, hloc, htv, htu]) rfl)
    simp [timeless_call, ValidTimeout]
  have h₄ : (machine b).Reach Timeless s s₄ := by
    apply h₃.step (a := .act t false) _ (.goto (by simp [s₃]) _)
    · simp [timeless_act, HolderUnlocks, CountsLocks, s₃, s₂, s₁,
        s, w₂, isNormal, Mutex.depth, hdepth, hut]
    · simp [machine, step, unlockStep, s₃, s₂,
        unlockStart_contended howner (show w₂.queue () = u :: [v] by simp [w₂, hqueue])
          (by simp [w₂]), Outcome.lift, mx, w₄]
  have h₅ : (machine b).Reach Timeless s s₅ := by
    apply h₄.step (a := .act t false) _ (.ret (by simp [s₄]) _)
    · simp [timeless_act, HolderUnlocks, CountsLocks, s₄, mx]
    · simp [machine, step, unlockStep, s₄, Build.wakeup_of (w := w₄) (t := u)
        (by simp [w₄, w₂, hport]), Outcome.lift, w₅]
  -- `u` wakes up and returns
  have h₆ : (machine b).Reach Timeless s s₆ := by
    apply h₅.step (a := .act u false) _ (.goto (by simp [s₅, s₄, s₃, s₂, hut]) _)
    · simp [timeless_act, HolderUnlocks, CountsLocks, s₅, s₄, s₃,
        s₂, mx, hut]
    · simp [machine, step, lockStep, waitStep, s₅, w₅, Outcome.lift, w₆]
  have h₇ : (machine b).Reach Timeless s s₇ := by
    apply h₆.step (a := .act u false) _ (.goto (by simp [s₆]) _)
    · simp [timeless_act, HolderUnlocks, CountsLocks, s₆, mx]
    · simp [machine, step, lockStep, waitStep, s₆, w₆, w₅, w₄, mx, Outcome.lift]
  have h₈ : (machine b).Reach Timeless s s₈ := by
    apply h₇.step (a := .act u false) _ (.ret (by simp [s₇]) _)
    · simp [timeless_act, HolderUnlocks, CountsLocks, s₇, mx]
    · have hfinish : lockFinish b u false mx w₆ = .ret ⟨mx, w₆⟩ .zero := by
        apply lockFinish_contended
        simp_all [handedOwner]
      simp [machine, step, lockStep, s₇, hfinish, Outcome.lift]
  use s₈, h₈
  constructor
  · constructor
    · rfl
    · rfl
    · rfl
    · simp_all [s₈, mx, handedOwner]
    · simp [s₈, w₆, w₅, w₄, w₂, Waits.dequeue_queue (w := w₂) (t := u) (q := ()), hqueue]
    · intro x
      by_cases hx : x = u
      · simp [s₈, w₆, w₅, w₄, hx, huv]
      · simp [s₈, w₆, w₅, w₄, w₂, hx, hlinked]
    · intro x
      by_cases hx : x = u
      · simp [s₈, w₆, w₅, w₄, w₂, hx, hport]
      · simp [s₈, w₆, w₅, w₄, w₂, hx, hport]
    · intro x
      simp only [s₈, s₇, s₆, s₅, s₄, s₃, s₂, s₁, s, State.ret_loc, State.goto_loc, State.call_loc,
        Function.update_apply, hloc]
      grind
    · simp [s₈, s₇, s₆, s₅, s₄, s₃, s₂, s₁, Mutex.depth]
    · simpa [s₈, s₇, s₆, s₅, s₄, s₃, s₂, s₁, Machine.returned, htv, huv] using hwaits
  · simp [s₈, s₇, s₆, s₅, s₄, s₃, s₂, s₁, s, grants]

/-- The mutex passes to and fro between `t` and `u` any number of times. -/
theorem Contended.rounds {v t u : T} (h : Contended b v t s) (htv : t ≠ v) (huv : u ≠ v)
    (hut : u ≠ t) (n : Nat) :
  ∃ s' t', (machine b).Reach Timeless s s' ∧ Contended b v t' s' ∧ grants s'.log = grants s.log + n
  := by
  obtain ⟨s', hs', ⟨t', -, h'⟩, hgrants⟩ := Machine.exists_reach_rounds (M := machine b)
    (G := Timeless) (P := fun s => ∃ t', (t' = t ∨ t' = u) ∧ Contended b v t' s) (fun s => grants s.log) (by
      rintro s₁ ⟨t', rfl | rfl, h₁⟩
      · obtain ⟨s₂, hs₂, h₂, hgrants⟩ := h₁.pass (b := b) htv huv hut
        use s₂, hs₂, ⟨u, .inr rfl, h₂⟩
      · obtain ⟨s₂, hs₂, h₂, hgrants⟩ := h₁.pass (b := b) huv htv hut.symm
        use s₂, hs₂, ⟨t, .inl rfl, h₂⟩) n ⟨t, .inl rfl, h⟩
  use s', t', hs', h'

/-- The thread `t` acquires the mutex, and `v` waits for it. -/
theorem exists_contended {v t : T} (htv : t ≠ v) :
  ∃ s : Sys T, (machine b).Reach Timeless (State.idle ⟨Mutex.init none, Waits.empty⟩) s ∧
    Contended b v t s
  := by
  let s : Sys T := State.idle ⟨Mutex.init none, Waits.empty⟩
  let s₁ := s.call t (.lock (.start none))
  let mx : Mutex T := ⟨true, false, none, handedOwner b t none, 0⟩
  let s₂ := s₁.ret t (.lock (.start none)) ⟨mx, Waits.empty⟩ .zero
  let s₃ := s₂.call v (.lock (.start none))
  let s₄ := s₃.goto v (.lock (.start none)) ⟨mx, Waits.empty.enqueue () v⟩
    (.lock (.wait (.block false)))
  have howner : b.alwaysTrackMutexOwner = true → b.ndebug = false →
      handedOwner b t none = some t := by
    simp_all [handedOwner]
  have h₁ : (machine b).Reach Timeless s s₁ := by
    apply Machine.Reach.refl.step _ (.call (by simp [s]) rfl)
    simp [timeless_call, ValidTimeout, badTime]
  have h₂ : (machine b).Reach Timeless s s₂ := by
    apply h₁.step (a := .act t false) _ (.ret (by simp [s₁]) _)
    · simp [timeless_act, HolderUnlocks, CountsLocks, s₁, s, init]
    · obtain ⟨ndebug, track⟩ := b
      cases ndebug <;> cases track <;>
        simp [machine, step, lockStep, lockStart, grab, Build.assert, s₁, s, init, mx, handedOwner,
          Outcome.lift]
  have h₃ : (machine b).Reach Timeless s s₃ := by
    apply h₂.step _ (.call (by simp [s₂, s₁, s, htv.symm]) rfl)
    simp [timeless_call, ValidTimeout, badTime]
  have h₄ : (machine b).Reach Timeless s s₄ := by
    apply h₃.step (a := .act v false) _ (.goto (by simp [s₃]) _)
    · simp [timeless_act, HolderUnlocks, CountsLocks, s₃, s₂, mx]
    · simp [machine, step, lockStep, s₃, s₂, mx,
        lockStart_contended (w := Waits.empty) howner htv.symm rfl, Outcome.lift]
  use s₄, h₄
  constructor
  · rfl
  · rfl
  · rfl
  · apply howner
  · simp [s₄, Waits.empty]
  · simp [s₄, Waits.empty, Function.update_apply]
  · simp [s₄, Waits.empty]
  · simp [s₄, s₃, s₂, s₁, s, Function.update_apply]
    grind
  · simp [s₄, s₃, s₂, s₁, s, Mutex.depth]
  · simp [s₄, s₃, s₂, s₁, s, Machine.returned, htv]

/-- No bound on overtaking: while a thread waits for a mutex, in a run without time-outs in which
only holders unlock it, two other threads can acquire the mutex any number of times. -/
theorem waiter_overtaken {v t u : T} (htv : t ≠ v) (huv : u ≠ v) (hut : u ≠ t) :
  ∃ s : Sys T, (machine b).Reach Timeless (State.idle ⟨Mutex.init none, Waits.empty⟩) s ∧
    v ∈ s.shared.waits.queue () ∧ ∀ n, ∃ s', (machine b).Reach Timeless s s' ∧
      v ∈ s'.shared.waits.queue () ∧ Machine.returned v s'.log = [] ∧
      (∀ x, x ≠ v → s'.loc x = none) ∧ grants s'.log = grants s.log + n
  := by
  obtain ⟨s, hs, h⟩ := exists_contended (b := b) htv
  use s, hs
  constructor
  · simp [h.queue]
  · intro n
    obtain ⟨s', t', hs', h', hgrants⟩ := h.rounds htv huv hut n
    use s', hs'
    refine ⟨by simp [h'.queue], h'.waits, ?_, hgrants⟩
    intro x hx
    rw [h'.loc, if_neg hx]

/-- Three threads are enough. -/
theorem waiter_overtaken_three :
  ∃ s : Sys (Fin 3), (machine Build.debug).Reach Timeless
      (State.idle ⟨Mutex.init none, Waits.empty⟩) s ∧
    (0 : Fin 3) ∈ s.shared.waits.queue () ∧ ∀ n, ∃ s', (machine Build.debug).Reach Timeless s s' ∧
      (0 : Fin 3) ∈ s'.shared.waits.queue () ∧ grants s'.log = grants s.log + n
  := by
  obtain ⟨s, hs, hv, h⟩ := waiter_overtaken (b := Build.debug) (v := (0 : Fin 3)) (t := 1) (u := 2)
    (by decide) (by decide) (by decide)
  use s, hs, hv
  intro n
  obtain ⟨s', hs', hv', -, -, hgrants⟩ := h n
  use s', hs', hv'

end Mutex

end LibPthread
