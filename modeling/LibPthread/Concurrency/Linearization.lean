import LibPthread.Concurrency.System

/-!
# Linearizable objects

An object is described by what its operations do when they are called one after the other. When
many threads call its functions at a time, a call takes effect in one moment between its start
and its return, and the object is linearizable if it looks as though all calls did: what is seen
of a run, its calls and returns, is what is seen of threads that have their operations carried
out one at a time.
-/

namespace Concurrency

/-- An object that is used by one thread at a time: the operation `op` of the thread `t` may
return `r` in the state `v` and leave the state `v'` if `effect t op v r v'`. -/
structure Object (T α Op Ret : Type) where
  start : α
  effect : T → Op → α → Ret → α → Prop

/-- What is seen of a run from outside. -/
inductive Visible (T Op Ret : Type) where
  | call (t : T) (op : Op)
  | ret (t : T) (r : Ret)
  deriving DecidableEq

/-- Where a thread stands: it has no call, or its call has not yet taken effect, or it has and
will return `r`. -/
inductive Standing (Op Ret : Type) where
  | outside
  | asked (op : Op)
  | answered (r : Ret)

variable {T σ Loc α Op Ret : Type}

/-- What is seen of a run, the latest first, where the control point at which a call starts tells
which operation it asks for. -/
def history (name : Loc → Op) : List (Event T Loc Ret) → List (Visible T Op Ret)
  | [] => []
  | .call t l :: log => .call t (name l) :: history name log
  | .goto _ _ _ :: log => history name log
  | .ret t _ r :: log => .ret t r :: history name log

variable [DecidableEq T]

/-- A step after which a call has returned is that return. -/
theorem Machine.Step.ret_inv {M : Machine T σ Loc Ret} {s : State T σ Loc Ret} {t : T} {c : Bool}
    {l : Loc} {x : σ} {r : Ret} (h : M.Step s (.act t c) (s.ret t l x r))
    (hl : s.loc t = some l) :
  M.step t l c s.shared = .ret x r
  := by
  rw [← exec_eq_some_iff] at h
  simp only [exec, hl] at h
  split at h
  · cases h
  · cases h
  · simp [State.goto, State.ret] at h
  · rename_i hstep
    simp only [State.ret, Option.some.injEq, State.mk.injEq, List.cons.injEq,
      Event.ret.injEq] at h
    rw [hstep, h.1, h.2.2.1.2.2]

namespace Object

/-- The threads call the object and return from it, and the calls take effect one at a time.
`O.Moves v st h v' st'` leads from the state `v` of the object and the standings `st` of the
threads to `v'` and `st'`, and `h` is seen of it, the latest first. -/
inductive Moves (O : Object T α Op Ret) (v : α) (st : T → Standing Op Ret) :
    List (Visible T Op Ret) → α → (T → Standing Op Ret) → Prop where
  | refl : Moves O v st [] v st
  | call {h : List (Visible T Op Ret)} {v' : α} {st' : T → Standing Op Ret} {t : T} {op : Op}
    (before : Moves O v st h v' st') (outside : st' t = .outside) :
    Moves O v st (.call t op :: h) v' (Function.update st' t (.asked op))
  | effect {h : List (Visible T Op Ret)} {v' v'' : α} {st' : T → Standing Op Ret} {t : T}
    {op : Op} {r : Ret} (before : Moves O v st h v' st') (asked : st' t = .asked op)
    (effect : O.effect t op v' r v'') :
    Moves O v st h v'' (Function.update st' t (.answered r))
  | ret {h : List (Visible T Op Ret)} {v' : α} {st' : T → Standing Op Ret} {t : T} {r : Ret}
    (before : Moves O v st h v' st') (answered : st' t = .answered r) :
    Moves O v st (.ret t r :: h) v' (Function.update st' t .outside)

variable {O : Object T α Op Ret} {v v' v'' : α} {st st' st'' : T → Standing Op Ret}
    {h h' : List (Visible T Op Ret)}

theorem Moves.trans (hm : O.Moves v st h v' st') (hm' : O.Moves v' st' h' v'' st'') :
  O.Moves v st (h' ++ h) v'' st''
  := by
  induction hm' with
  | refl => apply hm
  | call _ outside ih => apply Moves.call ih outside
  | effect _ asked effect ih => apply Moves.effect ih asked effect
  | ret _ answered ih => apply Moves.ret ih answered

/-- A call that takes effect at once. -/
theorem Moves.single {t : T} {op : Op} {r : Ret} (asked : st t = .asked op)
    (effect : O.effect t op v r v') :
  O.Moves v st [] v' (Function.update st t (.answered r))
  := Moves.effect Moves.refl asked effect

/-- A call that takes effect when it returns. -/
theorem Moves.finish {t : T} {op : Op} {r : Ret} (asked : st t = .asked op)
    (effect : O.effect t op v r v') :
  O.Moves v st [.ret t r] v' (Function.update st t .outside)
  := by
  have hm := Moves.ret (Moves.single asked effect) (Function.update_self _ _ _)
  rw [Function.update_idem] at hm
  apply hm

/-- The object answers the step from `s` to `s'` with moves of which the same is seen, and that
lead to a state and standings to which `s'` is related again. -/
def Follows (O : Object T α Op Ret) (name : Loc → Op)
    (R : State T σ Loc Ret → α → (T → Standing Op Ret) → Prop) (s s' : State T σ Loc Ret) (v : α)
    (st : T → Standing Op Ret) : Prop :=
  ∃ h v' st', O.Moves v st h v' st' ∧ history name s'.log = h ++ history name s.log ∧ R s' v' st'

section Follows

variable {name : Loc → Op} {R : State T σ Loc Ret → α → (T → Standing Op Ret) → Prop}
    {s : State T σ Loc Ret} {t : T} {l l' : Loc} {x : σ} {op : Op} {r : Ret}

/-- A call starts. -/
theorem Follows.call (hout : st t = .outside)
    (hR : R (s.call t l) v (Function.update st t (.asked (name l)))) :
  O.Follows name R s (s.call t l) v st
  := by
  use [.call t (name l)], v, Function.update st t (.asked (name l))
  use Moves.call Moves.refl hout, rfl

/-- Calls take effect in the middle of a call, or none does. -/
theorem Follows.goto (hm : O.Moves v st [] v' st') (hR : R (s.goto t l x l') v' st') :
  O.Follows name R s (s.goto t l x l') v st
  := by
  use [], v', st', hm, rfl

/-- A call that has taken effect returns. -/
theorem Follows.ret (hanswered : st t = .answered r)
    (hR : R (s.ret t l x r) v (Function.update st t .outside)) :
  O.Follows name R s (s.ret t l x r) v st
  := by
  use [.ret t r], v, Function.update st t .outside
  use Moves.ret Moves.refl hanswered, rfl

/-- A call takes effect when it returns. -/
theorem Follows.finish (hasked : st t = .asked op) (effect : O.effect t op v r v')
    (hR : R (s.ret t l x r) v' (Function.update st t .outside)) :
  O.Follows name R s (s.ret t l x r) v st
  := by
  use [.ret t r], v', Function.update st t .outside
  use Moves.finish hasked effect, rfl

end Follows

/-- The rule for linearizable objects: the relation `R` between the states of a machine and those
of the object is kept by every step, which the object follows. -/
theorem simulated {M : Machine T σ Loc Ret} {G : State T σ Loc Ret → Label T Loc → Prop}
    {s₀ s : State T σ Loc Ret} (name : Loc → Op)
    (R : State T σ Loc Ret → α → (T → Standing Op Ret) → Prop) (hs : M.Reach G s₀ s)
    (hlog : s₀.log = []) (init : R s₀ O.start fun _ => .outside)
    (keep : ∀ s a s' v st, M.Reach G s₀ s → R s v st → G s a → M.Step s a s' →
      O.Follows name R s s' v st) :
  ∃ v st, O.Moves O.start (fun _ => .outside) (history name s.log) v st ∧ R s v st
  := by
  apply hs.invariant (I := fun s => ∃ v st,
    O.Moves O.start (fun _ => .outside) (history name s.log) v st ∧ R s v st)
  · use O.start, fun _ => .outside
    rw [hlog]
    use Moves.refl, init
  · rintro s a s' hreach ⟨v, st, hm, hR⟩ hG hstep
    obtain ⟨h, v', st', hm', hlog', hR'⟩ := keep s a s' v st hreach hR hG hstep
    use v', st'
    rw [hlog']
    use hm.trans hm', hR'

end Object

end Concurrency
