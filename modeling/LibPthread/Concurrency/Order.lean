import LibPthread.Concurrency.Wakeup

/-!
# The order of the waiters

A thread joins a queue at the front. Whatever time-outs and wakeups have taken threads away in
between, a queue lists its members in the order in which they have joined it, the latest first.
A round that can be repeated takes place any number of times, which shows that a thread can be
passed over without bound.
-/

namespace Concurrency

variable {T Q Obj Loc Ret : Type} [DecidableEq T] [DecidableEq Q]

/-- The step from `l` to `l'` starts a blocking section on the queue `q`. -/
def Joins (role : T → Loc → Role T Q) (q : Q) (t : T) (l l' : Loc) : Prop :=
  (role t l).phase = .out ∧ (role t l').phase.queue = some q

instance (role : T → Loc → Role T Q) (q : Q) (t : T) (l l' : Loc) :
    Decidable (Joins role q t l l') :=
  inferInstanceAs (Decidable (_ ∧ _))

/-- The threads that have joined the queue `q`, each once, the one that did so latest first. -/
def joined (role : T → Loc → Role T Q) (q : Q) : List (Event T Loc Ret) → List T
  | [] => []
  | .call _ _ :: log => joined role q log
  | .goto t l l' :: log =>
    if Joins role q t l l' then t :: (joined role q log).erase t else joined role q log
  | .ret _ _ _ :: log => joined role q log

theorem nodup_joined (role : T → Loc → Role T Q) (q : Q) (log : List (Event T Loc Ret)) :
  (joined role q log).Nodup
  := by
  induction log with
  | nil => apply List.nodup_nil
  | cons e log ih =>
      cases e with
      | call t l => apply ih
      | goto t l l' =>
          rw [joined]
          split
          · apply List.nodup_cons.mpr
            use ih.not_mem_erase
            apply ih.erase
          · apply ih
      | ret t l r => apply ih

/-- The thread `u` has joined the queue later than `v`. -/
def After (role : T → Loc → Role T Q) (q : Q) (log : List (Event T Loc Ret)) (u v : T) : Prop :=
  [u, v].Sublist (joined role q log)

omit [DecidableEq T] in
theorem not_sublist_swap {l : List T} (hl : l.Nodup) {u v : T} (h : [u, v].Sublist l) :
  ¬ [v, u].Sublist l
  := by
  induction l with
  | nil => cases h
  | cons a l ih =>
      obtain ⟨hnew, hrest⟩ := List.nodup_cons.mp hl
      intro h'
      cases h with
      | cons _ h =>
          cases h' with
          | cons _ h' => apply ih hrest h h'
          | cons_cons _ h' => apply hnew (h.subset (by simp))
      | cons_cons _ h =>
          cases h' with
          | cons _ h' => apply hnew (h'.subset (by simp))
          | cons_cons _ h' => apply hnew (h.subset (by simp))

/-- Of two threads, at most one has joined the queue later than the other. -/
theorem After.asymm {role : T → Loc → Role T Q} {q : Q} {log : List (Event T Loc Ret)} {u v : T}
    (h : After role q log u v) :
  ¬ After role q log v u
  := not_sublist_swap (nodup_joined role q log) h

variable {bar on : Q → Prop} {t : T} {w w' : Waits T Q} {x x' : Role T Q} {q : Q}

theorem Waits.dequeue_sublist (w : Waits T Q) (u : T) (q : Q) :
  ((w.dequeue u).queue q).Sublist (w.queue q)
  := by
  cases hp : w.prevp u with
  | none => simp [Waits.dequeue, hp]
  | some q' =>
      rw [Waits.dequeue_queue hp]
      split
      · rename_i hq
        rw [hq]
        apply List.erase_sublist
      · apply List.Sublist.refl

/-- An act puts its thread in front of the queue that it joins, and only takes threads away from
the other queues. -/
theorem Act.queue_joins (act : Act bar on t w x w' x') :
  (x.phase = .out ∧ x'.phase.queue = some q ∧ w'.queue q = t :: w.queue q) ∨
    (¬ (x.phase = .out ∧ x'.phase.queue = some q) ∧ (w'.queue q).Sublist (w.queue q))
  := by
  cases act with
  | enqueue q' timed hout hkind hacts =>
      by_cases hq : q' = q
      · left
        simp [hout, hq]
      · right
        simp [hq, Ne.symm hq]
  | park q' hout hkind hacts =>
      by_cases hq : q' = q
      · left
        simp [hout, hq]
      · right
        simp [hq, Ne.symm hq]
  | dequeue q' u hmem hacts =>
      right
      use (by grind [Phase.queue])
      apply Waits.dequeue_sublist
  | dequeueAll q' hacts =>
      right
      use (by grind [Phase.queue])
      by_cases hq : q = q' <;> simp [hq]
  | detach q' hkind hacts =>
      right
      use (by grind [Phase.queue])
      by_cases hq : q = q' <;> simp [hq]
  | leave q' err hphase hstill hacts =>
      right
      use (by simp)
      apply Waits.dequeue_sublist
  | _ =>
      right
      simp_all

/-- A step keeps the order of the queue. -/
theorem Act.sublist_joined {role : T → Loc → Role T Q} {l l' : Loc} {log : List (Event T Loc Ret)}
    (act : Act bar on t w (role t l) w' (role t l'))
    (hsub : (w.queue q).Sublist (joined role q log))
    (hqueued : t ∈ w.queue q → (role t l).phase ≠ .out) :
  (w'.queue q).Sublist (joined role q (.goto t l l' :: log))
  := by
  rcases act.queue_joins (q := q) with ⟨hout, hin, hqueue⟩ | ⟨hnot, hless⟩
  · have hnew : t ∉ w.queue q := by
      intro hmem
      apply hqueued hmem hout
    rw [joined, if_pos (show Joins role q t l l' from ⟨hout, hin⟩), hqueue]
    apply List.Sublist.cons_cons
    rw [← List.erase_of_not_mem hnew]
    apply hsub.erase
  · rw [joined, if_neg (show ¬ Joins role q t l l' from hnot)]
    apply hless.trans hsub

/-- A return keeps the order of the queue. -/
theorem Act.sublist_joined_ret {role : T → Loc → Role T Q} {l : Loc} {r : Ret}
    {log : List (Event T Loc Ret)} (act : Act bar on t w (role t l) w' .idle)
    (hsub : (w.queue q).Sublist (joined role q log)) :
  (w'.queue q).Sublist (joined role q (.ret t l r :: log))
  := by
  rcases act.queue_joins (q := q) with ⟨-, hin, -⟩ | ⟨-, hless⟩
  · simp [Role.idle] at hin
  · apply hless.trans hsub

variable [Fintype T]

/-- In every run of a machine that conforms to the wakeup protocol, a queue lists its members in
the order in which they have joined it. -/
theorem Conforms.queue_sublist {M : Machine T (World Obj T Q) Loc Ret}
    {role : T → Loc → Role T Q} {ok : Loc → Prop} (hM : Conforms M bar role ok)
    {G : State T (World Obj T Q) Loc Ret → Label T Loc → Prop}
    (hG : ∀ s t l, G s (.call t l) → ok l) {o : Obj} {s : State T (World Obj T Q) Loc Ret}
    (hs : M.Reach G (State.idle ⟨o, Waits.empty⟩) s) :
  (s.shared.waits.queue q).Sublist (joined role q s.log)
  := by
  apply hs.invariant (I := fun s => (s.shared.waits.queue q).Sublist (joined role q s.log))
  · simp [Waits.empty, joined]
  · intro s a s' hreach hsub _ hstep
    obtain ⟨hok, hsound⟩ := hM.sound hG hreach
    cases hstep with
    | call hidle hentry => apply hsub
    | @goto t c l l' x hl h =>
        have hrole : roles role s t = role t l := by
          simp [roles, hl]
        obtain ⟨-, act⟩ := hM.goto t l c s.shared x l' (hok t l hl)
          (fun u hu => hsound.port_of_owes (hrole ▸ hu)) h
        apply act.sublist_joined hsub
        intro hmem hout
        have := (hsound.queued hmem).1
        simp [hrole, hout] at this
    | @ret t c l x r hl h =>
        have hrole : roles role s t = role t l := by
          simp [roles, hl]
        have act := hM.ret t l c s.shared x r (hok t l hl)
          (fun u hu => hsound.port_of_owes (hrole ▸ hu)) h
        apply act.sublist_joined_ret hsub

omit [Fintype T] in
/-- The first member of a queue in the order of joining has joined it later than the others. -/
theorem after_of_sublist {role : T → Loc → Role T Q} {log : List (Event T Loc Ret)} {u v : T}
    {rest : List T} (h : (u :: rest).Sublist (joined role q log)) (hv : v ∈ rest) :
  After role q log u v
  := by
  apply List.Sublist.trans _ h
  apply List.Sublist.cons_cons
  apply List.singleton_sublist.mpr hv

/-- The first member of a queue has joined it later than the others. -/
theorem Conforms.head_after {M : Machine T (World Obj T Q) Loc Ret}
    {role : T → Loc → Role T Q} {ok : Loc → Prop} (hM : Conforms M bar role ok)
    {G : State T (World Obj T Q) Loc Ret → Label T Loc → Prop}
    (hG : ∀ s t l, G s (.call t l) → ok l) {o : Obj} {s : State T (World Obj T Q) Loc Ret}
    (hs : M.Reach G (State.idle ⟨o, Waits.empty⟩) s) {u v : T} {rest : List T}
    (hfirst : s.shared.waits.queue q = u :: rest) (hv : v ∈ rest) :
  After role q s.log u v
  := by
  apply after_of_sublist _ hv
  rw [← hfirst]
  apply hM.queue_sublist hG hs

omit [DecidableEq Q] [Fintype T] in
/-- The rule for rounds: if from every state that satisfies `P` a guarded run that counts one more
leads to such a state again, then there are runs that count any number more. -/
theorem Machine.exists_reach_rounds {σ : Type} {M : Machine T σ Loc Ret}
    {G : State T σ Loc Ret → Label T Loc → Prop} {P : State T σ Loc Ret → Prop}
    (f : State T σ Loc Ret → Nat)
    (round : ∀ s, P s → ∃ s', M.Reach G s s' ∧ P s' ∧ f s' = f s + 1) (n : Nat) :
    ∀ {s : State T σ Loc Ret}, P s →
  ∃ s', M.Reach G s s' ∧ P s' ∧ f s' = f s + n
  := by
  induction n with
  | zero =>
      intro s h
      use s, Machine.Reach.refl, h
      rfl
  | succ n ih =>
      intro s h
      obtain ⟨s₁, hs₁, h₁, hf₁⟩ := round s h
      obtain ⟨s₂, hs₂, h₂, hf₂⟩ := ih h₁
      use s₂, hs₁.trans hs₂, h₂
      omega

end Concurrency
