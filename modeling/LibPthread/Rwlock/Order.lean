import LibPthread.Concurrency.Order
import LibPthread.Rwlock.HandOver

/-!
# The order in which an rwlock is handed over

The unlock of the last holder prefers the writers, of whom the one that has begun to wait latest
comes first, to the readers. But readers join other readers even while a writer waits, so that
two readers whose shares overlap can keep a writer waiting as long as they like.
-/

open Concurrency

namespace LibPthread

namespace Rwlock

variable {T : Type} [DecidableEq T] {b : Build} {s : Sys T}

/-- In every run, an unlock that passes the rwlock on picks the queued writer that has joined the
queue latest, or, when no writer is queued, all queued readers. -/
theorem writers_first [Fintype T] {G : Sys T → Label T (Loc T) → Prop}
    (hs : (machine b).Reach G (State.idle ⟨Rwlock.init, Waits.empty⟩) s) {t : T} {c : Bool}
    {x : World Rwlock T Mode} {l : Loc T}
    (hstep : (machine b).step t (.unlock .start) c s.shared = .goto x l) :
  (∃ u, l = .unlock (.wakeup u) ∧ u ∈ s.shared.waits.queue .wr ∧
      ∀ v ∈ s.shared.waits.queue .wr, v ≠ u → After (fun _ => Loc.role id) .wr s.log u v ∧
        ¬ After (fun _ => Loc.role id) .wr s.log v u) ∨
    (l = .unlock (.wakeAll (s.shared.waits.queue .rd)) ∧ s.shared.waits.queue .wr = [] ∧
      s.shared.waits.queue .rd ≠ [] ∧ x.waits.queue .rd = [])
  := by
  simp only [machine, step, Outcome.lift_eq_goto_iff, id_eq, unlockStep] at hstep
  rcases hstep with ⟨s₁, l₁, h, rfl, rfl⟩ | ⟨_, _, _, h⟩
  · obtain ⟨-, -, ⟨u, rest, hfirst, rfl, -⟩ | ⟨u, us, hwr, hrd, rfl, rfl⟩⟩ := unlockStart_eq_goto h
    · left
      use u, rfl
      constructor
      · simp [show s.shared.waits.queue .wr = u :: rest from hfirst]
      · intro v hv hne
        have hafter : After (fun _ => Loc.role id) .wr s.log u v := by
          apply (conforms b).head_after (fun _ _ _ _ => trivial) hs hfirst
          rw [show s.shared.waits.queue .wr = u :: rest from hfirst] at hv
          simpa [hne] using hv
        use hafter, hafter.asymm
    · right
      simp only [id_eq] at hwr hrd
      simp [hwr, hrd]
  · cases h

/-- Thread `0` writes, thread `1` waits for writing and then thread `2`, to which the unlock passes
the rwlock, although thread `3` waits for reading. -/
theorem writers_first_four :
  ∃ s : Sys (Fin 4), (machine Build.debug).Reach (fun _ _ => True)
      (State.idle ⟨Rwlock.init, Waits.empty⟩) s ∧ s.shared.waits.queue .rd = [3] ∧
    After (fun _ => Loc.role id) .wr s.log 2 1 ∧ ¬ After (fun _ => Loc.role id) .wr s.log 1 2
  := by
  obtain ⟨s, hs, hp⟩ := Machine.exists_reach_of_run (M := machine Build.debug)
    (G := fun _ _ => True) (s := State.idle ⟨Rwlock.init, Waits.empty⟩)
    [.call (0 : Fin 4) (.lock .wr (.start none)), .act 0 false,
      .call 1 (.lock .wr (.start none)), .act 1 false, .call 2 (.lock .wr (.start none)),
      .act 2 false, .call 3 (.lock .rd (.start none)), .act 3 false]
    (fun s => decide (s.shared.waits.queue .rd = [3]) &&
      decide (s.shared.waits.queue .wr = [2, 1]) &&
      match (machine Build.debug).step 0 (.unlock .start) false s.shared with
      | .goto _ l => decide (l = .unlock (.wakeup 2))
      | _ => false) (by decide +kernel)
  simp only [Bool.and_eq_true, decide_eq_true_eq] at hp
  obtain ⟨⟨hrd, hwr⟩, hstep⟩ := hp
  cases hx : (machine Build.debug).step 0 (.unlock .start) false s.shared with
  | goto x l =>
      obtain rfl : l = .unlock (.wakeup 2) := by
        simpa [hx] using hstep
      rcases writers_first hs hx with ⟨u, hu, -, hlatest⟩ | ⟨h, -⟩
      · obtain rfl : 2 = u := by
          simpa using hu
        use s, hs, hrd
        apply hlatest 1 (by simp [hwr]) (by decide)
      · cases h
  | _ => simp [hx] at hstep

/-! ### A writer that is passed over -/

/-- The number of calls that have acquired the rwlock for reading. -/
def readGrants : Log T → Nat
  | [] => 0
  | .call _ _ :: log => readGrants log
  | .goto _ _ _ :: log => readGrants log
  | .ret _ l r :: log =>
    match l with
    | .lock .rd _ => readGrants log + if r = .zero then 1 else 0
    | .lock .wr _ => readGrants log
    | .trylock .rd => readGrants log + if r = .zero then 1 else 0
    | .trylock .wr => readGrants log
    | .unlock _ => readGrants log

/-- `t` is the only reader, `v` waits for writing, and no other thread is inside a call. -/
structure Contended (v t : T) (s : Sys T) : Prop where
  obj : s.shared.obj = ⟨true, false, 1⟩
  waits : s.shared.waits = Waits.empty.enqueue .wr v
  loc : ∀ u, s.loc u = if u = v then some (.lock .wr (.wait (.block false))) else none
  acquired : 0 < acquired t s.log
  waiting : Machine.returned v s.log = []

/-- No time-out expires in a run in which no share is orphaned. -/
def Timeless (s : Sys T) (a : Label T (Loc T)) : Prop :=
  Orderly s a ∧ a.expires = false

theorem timeless_call {t : T} {l : Loc T} :
  Timeless s (.call t l) ↔ HolderUnlocks s (.call t l)
  := by
  constructor
  · intro h
    apply h.1.1.1
  · intro h
    exact ⟨⟨⟨h, trivial⟩, trivial⟩, rfl⟩

theorem timeless_act {t : T} :
  Timeless s (.act t false) ↔ WithinInt s (.act t false) ∧
    (s.loc t = some (.unlock .start) → s.shared.obj.readers ≤ 1 →
      ∀ u ∈ heirs s.shared.waits, s.loc u ≠ some (.lock .rd (.wait (.recheck true))) ∧
        s.loc u ≠ some (.lock .wr (.wait (.recheck true))))
  := by
  constructor
  · rintro ⟨⟨⟨-, hwithin⟩, -, hcrossed⟩, -⟩
    use hwithin
  · rintro ⟨hwithin, hcrossed⟩
    refine ⟨⟨⟨trivial, hwithin⟩, ?_, hcrossed⟩, rfl⟩
    simp

/-- The reader `u` joins `t` while `v` waits for writing, and `t` leaves. -/
theorem Contended.pass {v t u : T} (h : Contended v t s) (htv : t ≠ v) (huv : u ≠ v)
    (hut : u ≠ t) :
  ∃ s', (machine b).Reach Timeless s s' ∧ Contended v u s' ∧
    readGrants s'.log = readGrants s.log + 1
  := by
  obtain ⟨⟨obj, w⟩, loc, log⟩ := s
  obtain ⟨rfl, rfl, hloc, hacquired, hwaiting⟩ := h
  dsimp only at hloc hacquired hwaiting
  have htu := hut.symm
  let w : Waits T Mode := Waits.empty.enqueue .wr v
  let s : Sys T := ⟨⟨⟨true, false, 1⟩, w⟩, loc, log⟩
  let s₁ := s.call u (.lock .rd (.start none))
  let s₂ := s₁.ret u (.lock .rd (.start none)) ⟨⟨true, false, 2⟩, w⟩ .zero
  let s₃ := s₂.call t (.unlock .start)
  let s₄ := s₃.ret t (.unlock .start) ⟨⟨true, false, 1⟩, w⟩ .zero
  have htwo : toInt 2 = 2 := by
    apply toInt_of_lt
    · decide
    · decide
  have hrd : w.queue .rd = [] := by
    simp [w, Waits.empty]
  have h₁ : (machine b).Reach Timeless s s₁ := by
    apply Machine.Reach.refl.step _ (.call (by simp [s, hloc, huv]) rfl)
    simp [timeless_call, HolderUnlocks]
  have h₂ : (machine b).Reach Timeless s s₂ := by
    apply h₁.step (a := .act u false) _ (.ret (by simp [s₁]) _)
    · simp [timeless_act, WithinInt, s₁, s, Loc.request]
    · simp [machine, step, lockStep, lockStart, rdlockStart, join, s₁, s, hrd, htwo, Build.assert_of,
        Outcome.lift]
  have h₃ : (machine b).Reach Timeless s s₃ := by
    apply h₂.step _ (.call (by simp [s₂, s₁, s, hloc, htv, htu]) rfl)
    simp [timeless_call, HolderUnlocks, s₂, s₁, s, Rwlock.acquired, hut,
      hacquired]
  have h₄ : (machine b).Reach Timeless s s₄ := by
    apply h₃.step (a := .act t false) _ (.ret (by simp [s₃]) _)
    · simp [timeless_act, WithinInt, s₃, s₂, Loc.request]
    · simp [machine, step, unlockStep, unlockStart, s₃, s₂, Build.assert_of, Outcome.lift]
  use s₄, h₄
  constructor
  · constructor
    · rfl
    · rfl
    · intro x
      simp only [s₄, s₃, s₂, s₁, s, State.ret_loc, State.call_loc, Function.update_apply, hloc]
      grind
    · simp [s₄, s₃, s₂, s₁, Rwlock.acquired, htu]
    · simpa [s₄, s₃, s₂, s₁, s, Machine.returned, htv, huv] using hwaiting
  · simp [s₄, s₃, s₂, s₁, s, readGrants]

/-- The readers `t` and `u` take turns any number of times. -/
theorem Contended.rounds {v t u : T} (h : Contended v t s) (htv : t ≠ v) (huv : u ≠ v)
    (hut : u ≠ t) (n : Nat) :
  ∃ s' t', (machine b).Reach Timeless s s' ∧ Contended v t' s' ∧ readGrants s'.log = readGrants s.log + n
  := by
  obtain ⟨s', hs', ⟨t', -, h'⟩, hgrants⟩ := Machine.exists_reach_rounds (M := machine b)
    (G := Timeless) (P := fun s => ∃ t', (t' = t ∨ t' = u) ∧ Contended v t' s) (fun s => readGrants s.log) (by
      rintro s₁ ⟨t', rfl | rfl, h₁⟩
      · obtain ⟨s₂, hs₂, h₂, hgrants⟩ := h₁.pass (b := b) htv huv hut
        use s₂, hs₂, ⟨u, .inr rfl, h₂⟩
      · obtain ⟨s₂, hs₂, h₂, hgrants⟩ := h₁.pass (b := b) huv htv hut.symm
        use s₂, hs₂, ⟨t, .inl rfl, h₂⟩) n ⟨t, .inl rfl, h⟩
  use s', t', hs', h'

/-- The thread `t` acquires the rwlock for reading, and `v` waits for writing. -/
theorem exists_contended {v t : T} (htv : t ≠ v) :
  ∃ s : Sys T, (machine b).Reach Timeless (State.idle ⟨Rwlock.init, Waits.empty⟩) s ∧
    Contended v t s
  := by
  let s : Sys T := State.idle ⟨Rwlock.init, Waits.empty⟩
  let s₁ := s.call t (.lock .rd (.start none))
  let s₂ := s₁.ret t (.lock .rd (.start none)) ⟨⟨true, false, 1⟩, Waits.empty⟩ .zero
  let s₃ := s₂.call v (.lock .wr (.start none))
  let s₄ := s₃.goto v (.lock .wr (.start none)) ⟨⟨true, false, 1⟩, Waits.empty.enqueue .wr v⟩
    (.lock .wr (.wait (.block false)))
  have h₁ : (machine b).Reach Timeless s s₁ := by
    apply Machine.Reach.refl.step _ (.call (by simp [s]) rfl)
    simp [timeless_call, HolderUnlocks]
  have h₂ : (machine b).Reach Timeless s s₂ := by
    apply h₁.step (a := .act t false) _ (.ret (by simp [s₁]) _)
    · simp [timeless_act, WithinInt, s₁, s, init, Loc.request]
    · simp [machine, step, lockStep, lockStart, rdlockStart, grab, s₁, s, init, Waits.empty,
        Build.assert_of, Outcome.lift]
  have h₃ : (machine b).Reach Timeless s s₃ := by
    apply h₂.step _ (.call (by simp [s₂, s₁, s, htv.symm]) rfl)
    simp [timeless_call, HolderUnlocks]
  have h₄ : (machine b).Reach Timeless s s₄ := by
    apply h₃.step (a := .act v false) _ (.goto (by simp [s₃]) _)
    · simp [timeless_act, WithinInt, s₃, s₂, Loc.request]
    · simp [machine, step, lockStep, lockStart, wrlockStart, lockBusy, badTime, s₃, s₂,
        Waits.empty, Build.assert_of, Outcome.lift]
  use s₄, h₄
  constructor
  · rfl
  · rfl
  · intro x
    simp only [s₄, s₃, s₂, s₁, s, State.goto_loc, State.ret_loc, State.call_loc, State.idle_loc,
      Function.update_apply]
    grind
  · simp [s₄, s₃, s₂, s₁, s, Rwlock.acquired]
  · simp [s₄, s₃, s₂, s₁, s, Machine.returned, htv]

/-- Readers can starve a writer: while a thread waits for writing, in a run without time-outs in
which only holders unlock the rwlock, two readers can acquire the rwlock any number of times and
give back all their shares but one. -/
theorem writer_overtaken {v t u : T} (htv : t ≠ v) (huv : u ≠ v) (hut : u ≠ t) :
  ∃ s : Sys T, (machine b).Reach Timeless (State.idle ⟨Rwlock.init, Waits.empty⟩) s ∧
    v ∈ s.shared.waits.queue .wr ∧ ∀ n, ∃ s', (machine b).Reach Timeless s s' ∧
      v ∈ s'.shared.waits.queue .wr ∧ Machine.returned v s'.log = [] ∧
      (∀ x, x ≠ v → s'.loc x = none) ∧ s'.shared.obj.readers = 1 ∧
      readGrants s'.log = readGrants s.log + n
  := by
  obtain ⟨s, hs, h⟩ := exists_contended (b := b) htv
  use s, hs
  constructor
  · simp [h.waits]
  · intro n
    obtain ⟨s', t', hs', h', hgrants⟩ := h.rounds htv huv hut n
    use s', hs'
    refine ⟨by simp [h'.waits], h'.waiting, ?_, by simp [h'.obj], hgrants⟩
    intro x hx
    rw [h'.loc, if_neg hx]

/-- Two readers and a writer. -/
theorem writer_overtaken_three :
  ∃ s : Sys (Fin 3), (machine Build.debug).Reach Timeless
      (State.idle ⟨Rwlock.init, Waits.empty⟩) s ∧
    (0 : Fin 3) ∈ s.shared.waits.queue .wr ∧ ∀ n, ∃ s', (machine Build.debug).Reach Timeless s s' ∧
      (0 : Fin 3) ∈ s'.shared.waits.queue .wr ∧ readGrants s'.log = readGrants s.log + n
  := by
  obtain ⟨s, hs, hv, h⟩ := writer_overtaken (b := Build.debug) (v := (0 : Fin 3)) (t := 1) (u := 2)
    (by decide) (by decide) (by decide)
  use s, hs, hv
  intro n
  obtain ⟨s', hs', hv', -, -, -, hgrants⟩ := h n
  use s', hs', hv'

end Rwlock

end LibPthread
