import LibPthread.Concurrency.Wakeup

/-!
# One object among many

Threads use many objects, but a thread has one link and one port, which serve whatever object it
waits for. Each object looks as though there were no other: the calls of its functions, with its
queues and with the messages for the threads that wait on them, are a run of a machine that has
this object alone. A call of such a function may take place inside of a call on another object.
-/

namespace Concurrency

variable {T Q Q' : Type}

/-! ### The queues of an object -/

/-- `w'` is what is seen of `w` through the queues that `f` names, on which the threads wait for
which `inside` holds. -/
structure Waits.Shows (f : Q' → Q) (inside : T → Prop) (w : Waits T Q) (w' : Waits T Q') :
    Prop where
  queue : ∀ q, w'.queue q = w.queue (f q)
  linked : ∀ u q, w'.prevp u = some q ↔ w.prevp u = some (f q)
  port : ∀ u, inside u → w'.port u = w.port u
  silent : ∀ u, ¬ inside u → w'.port u = 0

namespace Waits.Shows

variable [DecidableEq T] [DecidableEq Q] [DecidableEq Q'] {f : Q' → Q} {inside : T → Prop}
    {w : Waits T Q} {w' : Waits T Q'} {t u : T}

omit [DecidableEq T] [DecidableEq Q] [DecidableEq Q'] in
theorem prevp_none (h : Shows f inside w w') (hp : w.prevp u = none) :
  w'.prevp u = none
  := by
  cases hp' : w'.prevp u with
  | none => rfl
  | some q =>
      rw [h.linked, hp] at hp'
      cases hp'

omit [DecidableEq T] [DecidableEq Q] [DecidableEq Q'] in
/-- The link of a thread is null for the object if it is null, or names another queue. -/
theorem prevp_none_iff (h : Shows f inside w w')
    (hown : ∀ q, w.prevp u = some q → ∃ q', q = f q') :
  w'.prevp u = none ↔ w.prevp u = none
  := by
  constructor
  · intro hp'
    cases hp : w.prevp u with
    | none => rfl
    | some q =>
        obtain ⟨q', rfl⟩ := hown q hp
        rw [← h.linked, hp'] at hp
        cases hp
  · apply h.prevp_none

theorem enqueue (h : Shows f inside w w') (hf : Function.Injective f) (q : Q') (t : T) :
  Shows f inside (w.enqueue (f q) t) (w'.enqueue q t)
  := by
  constructor
  · intro q'
    by_cases hq : q' = q
    · simp [hq, h.queue]
    · simp [hq, hf.ne hq, h.queue]
  · intro u q'
    by_cases hu : u = t
    · simp [hu, hf.eq_iff]
    · simp [hu, h.linked]
  · apply h.port
  · apply h.silent

theorem dequeue (h : Shows f inside w w') (hf : Function.Injective f) (t : T) :
  Shows f inside (w.dequeue t) (w'.dequeue t)
  := by
  constructor
  · intro q'
    cases hp' : w'.prevp t with
    | some q =>
        rw [dequeue_queue hp', dequeue_queue ((h.linked t q).mp hp')]
        simp [h.queue, hf.eq_iff]
    | none =>
        rw [Waits.dequeue, hp', h.queue]
        cases hp : w.prevp t with
        | none => simp [Waits.dequeue, hp]
        | some q =>
            have hne : f q' ≠ q := by
              rintro rfl
              simp [(h.linked t q').mpr hp] at hp'
            simp [dequeue_queue hp, hne]
  · intro u q
    by_cases hu : u = t
    · simp [hu]
    · simp [hu, h.linked]
  · intro u hu
    simp [h.port u hu]
  · intro u hu
    simp [h.silent u hu]

theorem dequeueAll (h : Shows f inside w w') (hf : Function.Injective f) (q : Q') :
  Shows f inside (w.dequeueAll (f q)) (w'.dequeueAll q)
  := by
  constructor
  · intro q'
    by_cases hq : q' = q
    · simp [hq]
    · simp [hq, hf.ne hq, h.queue]
  · intro u q'
    simp only [dequeueAll_prevp, h.queue]
    split
    · simp
    · apply h.linked
  · apply h.port
  · apply h.silent

omit [DecidableEq T] in
theorem detach (h : Shows f inside w w') (hf : Function.Injective f) (q : Q') :
  Shows f inside (w.detach (f q)) (w'.detach q)
  := by
  constructor
  · intro q'
    by_cases hq : q' = q
    · simp [hq]
    · simp [hq, hf.ne hq, h.queue]
  · apply h.linked
  · apply h.port
  · apply h.silent

omit [DecidableEq Q] [DecidableEq Q'] in
theorem unlink (h : Shows f inside w w') (t : T) :
  Shows f inside (w.unlink t) (w'.unlink t)
  := by
  constructor
  · apply h.queue
  · intro u q
    by_cases hu : u = t
    · simp [hu]
    · simp [hu, h.linked]
  · apply h.port
  · apply h.silent

omit [DecidableEq Q] [DecidableEq Q'] in
theorem send (h : Shows f inside w w') (ht : inside t) :
  Shows f inside (w.send t) (w'.send t)
  := by
  constructor
  · apply h.queue
  · apply h.linked
  · intro u hu
    by_cases hut : u = t
    · simp [hut, h.port t ht]
    · simp [hut, h.port u hu]
  · intro u hu
    have hut : u ≠ t := by
      rintro rfl
      apply hu ht
    simp [hut, h.silent u hu]

omit [DecidableEq Q] [DecidableEq Q'] in
theorem receive (h : Shows f inside w w') (ht : inside t) :
  Shows f inside (w.receive t) (w'.receive t)
  := by
  constructor
  · apply h.queue
  · apply h.linked
  · intro u hu
    by_cases hut : u = t
    · simp [hut, h.port t ht]
    · simp [hut, h.port u hu]
  · intro u hu
    have hut : u ≠ t := by
      rintro rfl
      apply hu ht
    simp [hut, h.silent u hu]

omit [DecidableEq T] [DecidableEq Q] [DecidableEq Q'] in
/-- Other threads wait on the queues: those that have begun or ended to do so have no message. -/
theorem change {inside' : T → Prop} (h : Shows f inside w w')
    (hport : ∀ u, ¬ (inside u ↔ inside' u) → w.port u = 0) :
  Shows f inside' w w'
  := by
  constructor
  · apply h.queue
  · apply h.linked
  · intro u hu
    by_cases hin : inside u
    · apply h.port u hin
    · rw [h.silent u hin, hport u (by simp [hin, hu])]
  · intro u hu
    by_cases hin : inside u
    · rw [h.port u hin, hport u (by simp [hin, hu])]
    · apply h.silent u hin

end Waits.Shows

/-! ### The acts of the other objects -/

/-- A thread is linked only to the queue it waits on. -/
def Homed (r : T → Role T Q) (w : Waits T Q) : Prop :=
  ∀ u q, w.prevp u = some q → (r u).phase.queue = some q

section Acts

variable [DecidableEq T] [Fintype T] [DecidableEq Q] [DecidableEq Q'] {bar on : Q → Prop}
    {r : T → Role T Q} {w w₁ : Waits T Q} {w' : Waits T Q'} {x : Role T Q} {t u : T} {f : Q' → Q}
    {inside : T → Prop}

/-- A thread that begins or ends to wait has no message on its port then. -/
theorem Act.port_eq_zero (h : Sound bar r w) (act : Act bar on t w (r t) w₁ x)
    (hne : (r t).phase.queue ≠ x.phase.queue) :
  w₁.port t = 0
  := by
  by_cases hout : (r t).phase = .out
  · have hport : w.port t = 0 := by
      have := (h.outside t hout).2
      rw [credit] at this
      omega
    cases act with
    | enqueue q timed _ hkind hacts => apply hport
    | park q _ hkind hacts => apply hport
    | _ => simp_all
  · by_cases hout' : x.phase = .out
    · have := ((act.sound h).outside t (by rw [Function.update_self, hout'])).2
      rw [credit] at this
      omega
    · cases act <;> simp_all

theorem Act.homed (h : Sound bar r w) (hhomed : Homed r w) (act : Act bar on t w (r t) w₁ x) :
  Homed (Function.update r t x) w₁
  := by
  intro u q hp
  by_cases hu : u = t
  · subst hu
    have hout := (act.sound h).outside u
    rw [Function.update_self] at hout ⊢
    have hbefore := hhomed u q
    by_cases hx : x.phase = .out
    · rw [(hout hx).1] at hp
      cases hp
    · cases act with
      | enqueue q' timed _ hkind hacts => simpa using hp
      | park q' _ hkind hacts => simpa using hp
      | dequeueAll q' hacts =>
          simp only [Waits.dequeueAll_prevp] at hp
          split at hp
          · cases hp
          · apply hbefore hp
      | dequeue q' v hmem hacts => grind [Waits.dequeue_prevp]
      | visit v k hwalk => grind [Waits.unlink_prevp, Function.update_apply]
      | _ => simp_all
  · rw [Function.update_of_ne hu]
    rcases act.prevp_other hu with hsame | hnone
    · apply hhomed
      rw [← hsame, hp]
    · rw [hnone] at hp
      cases hp

omit [Fintype T] in
/-- An act links a thread only to a queue it acts on. -/
theorem Act.prevp_cases {x x' : Role T Q} (act : Act bar on t w x w₁ x') (u : T) :
  w₁.prevp u = w.prevp u ∨ w₁.prevp u = none ∨ ∃ q, on q ∧ w₁.prevp u = some q
  := by
  by_cases hu : u = t
  · subst hu
    cases act with
    | enqueue q timed hout hkind hacts => simp [hacts]
    | park q hout hkind hacts => simp [hacts]
    | dequeue q v hmem hacts => grind [Waits.dequeue_prevp]
    | dequeueAll q hacts => grind [Waits.dequeueAll_prevp]
    | visit v k hwalk => grind [Waits.unlink_prevp, Function.update_apply]
    | leave q err hphase hstill hacts => simp
    | _ => simp
  · rcases act.prevp_other hu with hsame | hnone
    · simp [hsame]
    · simp [hnone]

omit [Fintype T] in
/-- A thread that ends an act waiting on a queue and has not begun it outside has waited there. -/
theorem Act.queue_of_inside {x x' : Role T Q} {q : Q} (act : Act bar on t w x w₁ x')
    (hin : x.phase ≠ .out) (hq : x'.phase.queue = some q) :
  x.phase.queue = some q
  := by
  cases act <;> simp_all

omit [Fintype T] [DecidableEq Q] in
theorem Role.pending_pos {x : Role T Q} (hu : u ∈ x.owes) :
  0 < x.pending u
  := by
  rw [Role.pending]
  have := List.count_pos_iff.mpr hu
  omega

omit [DecidableEq Q] in
/-- Messages are owed to threads that wait. -/
theorem Sound.inside_of_pending (h : Sound bar r w) (hu : 0 < (r t).pending u) :
  (r u).phase ≠ .out
  := by
  intro hout
  have hcredit := (h.outside u hout).2
  have howed := (h.of_pending hu).1
  rw [credit] at hcredit
  omega

omit [DecidableEq Q'] in
/-- Acts on other queues are not seen, if they are those of a thread that neither waits on the
queues of the object nor owes messages to threads that do. -/
theorem Waits.Shows.other (h : w.Shows f inside w') (hsound : Sound bar r w)
    (act : Act bar on t w (r t) w₁ x) (hon : ∀ q, ¬ on (f q))
    (hlinked : ∀ u q, w.prevp u = some (f q) → inside u) (ht : ¬ inside t)
    (howes : ∀ u, 0 < (r t).pending u → ¬ inside u) :
  w₁.Shows f inside w'
  := by
  have hsame : ∀ u, inside u → w₁.port u = w.port u ∧
      ∀ q, w.prevp u = some (f q) → w₁.prevp u = some (f q) := by
    intro u hu
    have hut : u ≠ t := by
      rintro rfl
      apply ht hu
    have hown : u ∉ (r t).owes ∧ u ∉ (r t).walk := by
      have hnone := mt (howes u) (not_not_intro hu)
      simpa [Role.pending, List.count_pos_iff] using hnone
    have hqueued : ∀ q q', on q' → w.prevp u = some (f q) → u ∉ w.queue q' := by
      intro q q' hq' hp hmem
      rw [hsound.linked q' u hmem, Option.some_inj] at hp
      apply hon q (hp ▸ hq')
    cases act with
    | enqueue q timed hout hkind hacts => simp [hut]
    | park q hout hkind hacts => simp [hut]
    | dequeue q v hmem hacts =>
        use Waits.dequeue_port w v u
        intro q' hp
        have hne : u ≠ v := by
          rintro rfl
          apply hqueued q' q hacts hp hmem
        simp [hne, hp]
    | dequeueAll q hacts =>
        use rfl
        intro q' hp
        simp [hqueued q' q hacts hp, hp]
    | visit v k hwalk =>
        have hne : u ≠ v := by
          rintro rfl
          simp [hwalk] at hown
        simp [hne]
    | send v o howes =>
        have hne : u ≠ v := by
          rintro rfl
          simp [howes] at hown
        simp [hne]
    | leave q err hphase hstill hacts => simp [hut]
    | _ => simp [hut]
  constructor
  · intro q
    rw [h.queue, act.queue_eq hsound (hon q)]
  · intro u q
    rw [h.linked]
    constructor
    · intro hp
      apply (hsame u (hlinked u q hp)).2 q hp
    · intro hp
      rcases act.prevp_cases u with heq | hnone | ⟨q', hacts, hq'⟩
      · rw [← heq, hp]
      · rw [hnone] at hp
        cases hp
      · rw [hp, Option.some_inj] at hq'
        apply absurd (hq' ▸ hacts) (hon q)
  · intro u hu
    rw [h.port u hu, (hsame u hu).1]
  · apply h.silent

end Acts

/-! ### What a step leaves alone -/

section Step

variable [DecidableEq T] {Obj Loc Ret : Type} {M : Machine T (World Obj T Q) Loc Ret}
    {s s₁ : State T (World Obj T Q) Loc Ret} {a : Label T Loc} {u : T}

theorem Machine.Step.loc_eq (h : M.Step s a s₁) :
  s₁.loc = Function.update s.loc a.thread (s₁.loc a.thread)
  := by
  funext u
  cases h <;> simp

theorem Machine.Step.log_eq (h : M.Step s a s₁) :
  ∃ e, s₁.log = e :: s.log
  := by
  cases h <;> exact ⟨_, rfl⟩

theorem Machine.Step.roles_eq {role : T → Loc → Role T Q} (h : M.Step s a s₁) :
  roles role s₁ = Function.update (roles role s) a.thread (roles role s₁ a.thread)
  := by
  rw [roles_update role h.loc_eq]
  simp

theorem Machine.Step.roles_other {role : T → Loc → Role T Q} (h : M.Step s a s₁)
    (hu : u ≠ a.thread) :
  roles role s₁ u = roles role s u
  := by
  rw [roles, roles, h.loc_eq, Function.update_of_ne hu]

end Step

/-! ### Steps that match -/

namespace Outcome

variable {σ τ Loc Loc' Loc'' Ret Ret' Ret'' : Type}

theorem lift_id (o : Outcome σ Loc Ret) :
  o.lift id id .ret = o
  := by
  cases o <;> rfl

/-- All states that the step can lead to satisfy `P`. -/
def All (P : σ → Prop) : Outcome σ Loc Ret → Prop
  | .spin => True
  | .fault => True
  | .goto s _ => P s
  | .ret s _ => P s

theorem All.lift {P : τ → Prop} {o : Outcome σ Loc Ret} {f : σ → τ} {g : Loc → Loc'}
    {k : τ → Ret → Outcome τ Loc' Ret'} (hf : ∀ x, P (f x)) (hk : ∀ x r, (k (f x) r).All P) :
  (o.lift f g k).All P
  := by
  cases o with
  | spin => trivial
  | fault => trivial
  | goto x l => apply hf
  | ret x r => apply hk

theorem All.lift_id {P : σ → Prop} {o : Outcome σ Loc Ret} {g : Loc → Loc'} (h : o.All P) :
  (o.lift id g .ret).All P
  := by
  cases o <;> apply h

/-- A call of a call. -/
theorem lift_lift (o : Outcome σ Loc Ret) (f : σ → τ) (g : Loc → Loc')
    (k : τ → Ret → Outcome τ Loc' Ret') (g' : Loc' → Loc'')
    (k' : τ → Ret' → Outcome τ Loc'' Ret'') :
  (o.lift f g k).lift id g' k' = o.lift f (fun l => g' (g l)) (fun s r => (k s r).lift id g' k')
  := by
  cases o <;> rfl

end Outcome

/-- The second step does what the first one does, with states related by `R`. -/
def Outcome.Matches {σ σ' Loc Ret : Type} (R : σ → σ' → Prop) :
    Outcome σ Loc Ret → Outcome σ' Loc Ret → Prop
  | .spin, o => o = .spin
  | .fault, o => o = .fault
  | .goto x l, o => ∃ x', o = .goto x' l ∧ R x x'
  | .ret x r, o => ∃ x', o = .ret x' r ∧ R x x'

namespace Outcome.Matches

variable {σ σ' τ τ' Loc Loc' Ret Ret' : Type} {R : σ → σ' → Prop} {o₁ o₂ : Outcome σ Loc Ret}
    {o₁' o₂' : Outcome σ' Loc Ret}

theorem goto {x : σ} {x' : σ'} (h : R x x') (l : Loc) :
  (Outcome.goto x l : Outcome σ Loc Ret).Matches R (.goto x' l)
  := ⟨x', rfl, h⟩

theorem ret {x : σ} {x' : σ'} (h : R x x') (r : Ret) :
  (Outcome.ret x r : Outcome σ Loc Ret).Matches R (.ret x' r)
  := ⟨x', rfl, h⟩

theorem ite {p p' : Prop} [Decidable p] [Decidable p'] (hp : p' ↔ p)
    (h₁ : o₁.Matches R o₁') (h₂ : o₂.Matches R o₂') :
  (if p then o₁ else o₂).Matches R (if p' then o₁' else o₂')
  := by
  by_cases h : p
  · rw [if_pos h, if_pos (hp.mpr h)]
    apply h₁
  · rw [if_neg h, if_neg (hp.not.mpr h)]
    apply h₂

/-- Two callers whose callees match. -/
theorem lift {R' : τ → τ' → Prop} {f : σ → τ} {f' : σ' → τ'} {g : Loc → Loc'}
    {k : τ → Ret → Outcome τ Loc' Ret'} {k' : τ' → Ret → Outcome τ' Loc' Ret'}
    (h : o₁.Matches R o₁') (hf : ∀ x x', R x x' → R' (f x) (f' x'))
    (hk : ∀ x x' r, R x x' → (k (f x) r).Matches R' (k' (f' x') r)) :
  (o₁.lift f g k).Matches R' (o₁'.lift f' g k')
  := by
  cases o₁ with
  | spin =>
      obtain rfl := h
      rfl
  | fault =>
      obtain rfl := h
      rfl
  | goto x l =>
      obtain ⟨x', rfl, hR⟩ := h
      apply goto (hf x x' hR)
  | ret x r =>
      obtain ⟨x', rfl, hR⟩ := h
      apply hk x x' r hR

end Outcome.Matches

/-- The objects are the same, and the queues of the second world are what is seen of the first. -/
def World.Shows {Obj : Type} (f : Q' → Q) (inside : T → Prop) (x : World Obj T Q)
    (x' : World Obj T Q') : Prop :=
  x'.obj = x.obj ∧ x.waits.Shows f inside x'.waits

/-! ### Views -/

/-- How one object is seen in a system: its queues, its state, and the control points of the calls
of its functions. A control point is `direct` if the call is one of the system, so that it returns
what the function does. -/
structure View (T Obj Q Loc Obj' Q' Loc' : Type) where
  queue : Q' → Q
  obj : Obj → Obj'
  loc : T → Loc → Option Loc'
  direct : Loc → Bool

namespace View

variable {Obj Loc Obj' Loc' Ret : Type} (V : View T Obj Q Loc Obj' Q' Loc')

/-- What is seen of an event. A call of a function of the object may begin or end in the middle of
a call of the system. -/
inductive Sees : Event T Loc Ret → List (Event T Loc' Ret) → Prop where
  | callOther {t : T} {l : Loc} (other : V.loc t l = none) : Sees (.call t l) []
  | call {t : T} {l : Loc} {k : Loc'} (at_k : V.loc t l = some k) : Sees (.call t l) [.call t k]
  | other {t : T} {l l' : Loc} (other : V.loc t l = none) (other' : V.loc t l' = none) :
    Sees (.goto t l l') []
  | enter {t : T} {l l' : Loc} {k' : Loc'} (other : V.loc t l = none)
    (at_k' : V.loc t l' = some k') : Sees (.goto t l l') [.call t k']
  | goto {t : T} {l l' : Loc} {k k' : Loc'} (at_k : V.loc t l = some k)
    (at_k' : V.loc t l' = some k') : Sees (.goto t l l') [.goto t k k']
  | leave {t : T} {l l' : Loc} {k : Loc'} {r : Ret} (at_k : V.loc t l = some k)
    (other' : V.loc t l' = none) : Sees (.goto t l l') [.ret t k r]
  | retOther {t : T} {l : Loc} {r : Ret} (other : V.loc t l = none) : Sees (.ret t l r) []
  | ret {t : T} {l : Loc} {k : Loc'} {r r' : Ret} (at_k : V.loc t l = some k)
    (answer : V.direct l = true → r' = r) : Sees (.ret t l r) [.ret t k r']

/-- What is seen of a log. -/
inductive Notes : List (Event T Loc Ret) → List (Event T Loc' Ret) → Prop where
  | nil : Notes [] []
  | cons {e : Event T Loc Ret} {es log : _} {log' : List (Event T Loc' Ret)}
    (before : Notes log log') (sees : V.Sees e es) : Notes (e :: log) (es ++ log')

/-- What is seen of an event, if a call of a function of the object neither begins nor ends in the
middle of a call of the system. -/
def event : Event T Loc Ret → Option (Event T Loc' Ret)
  | .call t l => (V.loc t l).map (.call t)
  | .goto t l l' => (V.loc t l).bind fun k => (V.loc t l').map (.goto t k)
  | .ret t l r => (V.loc t l).map fun k => .ret t k r

/-- The calls of functions of the object are calls of the system `M`. -/
structure Direct (M : Machine T (World Obj T Q) Loc Ret) : Prop where
  direct : ∀ l, V.direct l = true
  stays : ∀ t c l l' x y, M.step t l c x = .goto y l' → (V.loc t l' = none ↔ V.loc t l = none)

/-- Where a thread stands in a call of a function of the object. -/
def place (s : State T (World Obj T Q) Loc Ret) (t : T) : Option Loc' :=
  (s.loc t).bind (V.loc t)

/-- A thread waits on a queue of the object. -/
def Waiting (role : T → Loc → Role T Q) (s : State T (World Obj T Q) Loc Ret) (u : T) : Prop :=
  ∃ q, (roles role s u).phase.queue = some (V.queue q)

/-- The state `s'` of a system that has this object alone is what is seen of the state `s`. -/
structure Shows (role : T → Loc → Role T Q) (s : State T (World Obj T Q) Loc Ret)
    (s' : State T (World Obj' T Q') Loc' Ret) : Prop where
  obj : s'.shared.obj = V.obj s.shared.obj
  waits : s.shared.waits.Shows V.queue (V.Waiting role s) s'.shared.waits
  loc : ∀ t, s'.loc t = V.place s t
  log : V.Notes s.log s'.log

/-- What is seen of the step that a label asks for, from `s` to `s'`. -/
inductive Labels (s s' : State T (World Obj T Q) Loc Ret) :
    Label T Loc → Label T Loc' → Prop where
  | call {t : T} {l : Loc} {k : Loc'} (at_k : V.loc t l = some k) :
    Labels s s' (.call t l) (.call t k)
  | act {t : T} {c : Bool} {k : Loc'} (at_k : V.place s t = some k) :
    Labels s s' (.act t c) (.act t c)
  | enter {t : T} {c : Bool} {k' : Loc'} (other : V.place s t = none)
    (at_k' : V.place s' t = some k') : Labels s s' (.act t c) (.call t k')

/-- The step of `t` from `l`, in a call of a function of the object, is seen as a step of this
function. -/
def Answers (inside : T → Prop) (t : T) (l : Loc) :
    Outcome (World Obj T Q) Loc Ret → Outcome (World Obj' T Q') Loc' Ret → Prop
  | .spin, _ => True
  | .fault, o => o = .fault
  | .goto x l', o => ∃ x', x'.obj = V.obj x.obj ∧ x.waits.Shows V.queue inside x'.waits ∧
    ((∃ k', V.loc t l' = some k' ∧ o = .goto x' k') ∨
      (V.loc t l' = none ∧ ∃ r, o = .ret x' r))
  | .ret x r, o => ∃ x' r', x'.obj = V.obj x.obj ∧ x.waits.Shows V.queue inside x'.waits ∧
    o = .ret x' r' ∧ (V.direct l = true → r' = r)

variable {V} in
/-- A call of a function of the object that matches the function where the object is all there is,
if the system goes on with `k` when it returns. -/
theorem Answers.lift {L R : Type} {inside : T → Prop} {t : T} {l : Loc}
    {o : Outcome (World Obj' T Q) L R} {o' : Outcome (World Obj' T Q') L R}
    {f : World Obj' T Q → World Obj T Q} {g : L → Loc} {g' : L → Loc'}
    {k : World Obj T Q → R → Outcome (World Obj T Q) Loc Ret}
    {k' : World Obj' T Q' → R → Outcome (World Obj' T Q') Loc' Ret}
    (h : o.Matches (World.Shows V.queue inside) o')
    (hf : ∀ x, V.obj (f x).obj = x.obj ∧ (f x).waits = x.waits)
    (hg : ∀ l', V.loc t (g l') = some (g' l'))
    (hk : ∀ x x' r, World.Shows V.queue inside x x' → V.Answers inside t l (k (f x) r) (k' x' r)) :
  V.Answers inside t l (o.lift f g k) (o'.lift id g' k')
  := by
  cases o with
  | spin => trivial
  | fault =>
      obtain rfl := h
      rfl
  | goto x l' =>
      obtain ⟨x', rfl, hobj, hwaits⟩ := h
      obtain ⟨hobj', hwaits'⟩ := hf x
      refine ⟨x', by rw [hobj, hobj'], ?_, .inl ⟨g' l', hg l', rfl⟩⟩
      rw [hwaits']
      apply hwaits
  | ret x r =>
      obtain ⟨x', rfl, hshows⟩ := h
      apply hk x x' r hshows

variable {V} in
/-- A call of the system that is a call of a function of the object. -/
theorem Answers.direct {inside : T → Prop} {t : T} {l : Loc}
    {o : Outcome (World Obj' T Q) Loc' Ret} {o' : Outcome (World Obj' T Q') Loc' Ret}
    {f : World Obj' T Q → World Obj T Q} {g : Loc' → Loc}
    (h : o.Matches (World.Shows V.queue inside) o')
    (hf : ∀ x, V.obj (f x).obj = x.obj ∧ (f x).waits = x.waits)
    (hg : ∀ k, V.loc t (g k) = some k) :
  V.Answers inside t l (o.lift f g .ret) o'
  := by
  rw [← Outcome.lift_id o']
  apply Answers.lift h hf hg
  rintro x x' r ⟨hobj, hwaits⟩
  obtain ⟨hobj', hwaits'⟩ := hf x
  refine ⟨x', r, by rw [hobj, hobj'], ?_, rfl, fun _ => rfl⟩
  rw [hwaits']
  apply hwaits

variable {V} in
theorem Answers.eq_fault {inside : T → Prop} {t : T} {l : Loc}
    {o : Outcome (World Obj T Q) Loc Ret} {o' : Outcome (World Obj' T Q') Loc' Ret}
    (h : V.Answers inside t l o o') (hfault : o = .fault) :
  o' = .fault
  := by
  subst hfault
  apply h

variable {V} in
theorem Answers.eq_ret {inside : T → Prop} {t : T} {l : Loc}
    {o : Outcome (World Obj T Q) Loc Ret} {o' : Outcome (World Obj' T Q') Loc' Ret}
    {x : World Obj T Q} {r : Ret} (h : V.Answers inside t l o o') (hret : o = .ret x r)
    (hdirect : V.direct l = true) :
  ∃ x', o' = .ret x' r
  := by
  subst hret
  obtain ⟨x', r', -, -, rfl, hanswer⟩ := h
  use x'
  rw [hanswer hdirect]

/-- The state `s'` of `M'`, which has this object alone, is what is seen of the state `s` of `M`,
and the steps that come next are seen too. The calls of functions of the object are calls of `M`. -/
structure Follows [DecidableEq T] (role : T → Loc → Role T Q)
    (M : Machine T (World Obj T Q) Loc Ret) (M' : Machine T (World Obj' T Q') Loc' Ret)
    (s : State T (World Obj T Q) Loc Ret) (s' : State T (World Obj' T Q') Loc' Ret) : Prop where
  shows : V.Shows role s s'
  log : s'.log = s.log.filterMap V.event
  answers : ∀ t l k c, s.loc t = some l → V.loc t l = some k →
    V.Answers (V.Waiting role s) t l (M.step t l c s.shared) (M'.step t k c s'.shared)

variable [DecidableEq T] [Fintype T] [DecidableEq Q]

/-- The system `M` uses the object `M'` as the view says, in the states in which `I` holds. The acts
of a thread concern the queues that `on` names. -/
structure Fits (M : Machine T (World Obj T Q) Loc Ret) (M' : Machine T (World Obj' T Q') Loc' Ret)
    (bar : Q → Prop) (role : T → Loc → Role T Q) (role' : T → Loc' → Role T Q')
    (on : State T (World Obj T Q) Loc Ret → T → Q → Prop)
    (I : State T (World Obj T Q) Loc Ret → Prop) : Prop where
  injective : Function.Injective V.queue
  sound : ∀ s, I s → Sound bar (roles role s) s.shared.waits
  act : ∀ s a s', I s → M.Step s a s' → Act bar (on s a.thread) a.thread s.shared.waits
    (roles role s a.thread) s'.shared.waits (roles role s' a.thread)
  away : ∀ s t, I s → V.place s t = none → ∀ q, ¬ on s t (V.queue q)
  phase : ∀ t l q, (role t l).phase.queue = some (V.queue q) ↔
    ∃ k, V.loc t l = some k ∧ (role' t k).phase.queue = some q
  pending : ∀ t l k u, V.loc t l = some k → (role t l).pending u = (role' t k).pending u
  entry : ∀ t l k, M.entry l = true → V.loc t l = some k → M'.entry k = true
  /-- A function of the object that returns has sent its messages. -/
  settled : ∀ t l l' c x y, V.loc t l ≠ none → V.loc t l' = none → M.step t l c x = .goto y l' →
    ∀ u, (role t l').pending u = 0
  inside : ∀ s t l k c w', I s → Homed (roles role s) s.shared.waits → s.loc t = some l →
    V.loc t l = some k → s.shared.waits.Shows V.queue (V.Waiting role s) w' →
    (∀ u, 0 < (role t l).pending u → V.Waiting role s u) →
    V.Answers (V.Waiting role s) t l (M.step t l c s.shared)
      (M'.step t k c ⟨V.obj s.shared.obj, w'⟩)
  /-- Other calls leave the object alone, and may go on to call one of its functions. -/
  outside : ∀ s t l c x l', I s → s.loc t = some l → V.loc t l = none →
    M.step t l c s.shared = .goto x l' →
    V.obj x.obj = V.obj s.shared.obj ∧ ∀ k', V.loc t l' = some k' → M'.entry k' = true
  outside_ret : ∀ s t l c x r, I s → s.loc t = some l → V.loc t l = none →
    M.step t l c s.shared = .ret x r → V.obj x.obj = V.obj s.shared.obj

/-! ### The run that is seen -/

section Run

variable {V} {M : Machine T (World Obj T Q) Loc Ret} {M' : Machine T (World Obj' T Q') Loc' Ret}
    {bar : Q → Prop} {bar' : Q' → Prop} {role : T → Loc → Role T Q} {role' : T → Loc' → Role T Q'}
    {on : State T (World Obj T Q) Loc Ret → T → Q → Prop}
    {I : State T (World Obj T Q) Loc Ret → Prop} {s s₁ : State T (World Obj T Q) Loc Ret}
    {s' : State T (World Obj' T Q') Loc' Ret} {a : Label T Loc} {t u : T}

omit [Fintype T] [DecidableEq Q] in
theorem place_update {o : Option Loc} (hloc : s₁.loc = Function.update s.loc t o) :
  V.place s₁ = Function.update (V.place s) t (o.bind (V.loc t))
  := by
  funext u
  by_cases hu : u = t
  · subst hu
    simp [place, hloc]
  · simp [place, hloc, hu]

/-- A thread waits on a queue of the object if it waits where the object is all there is. -/
theorem Fits.waiting_iff (hfits : V.Fits M M' bar role role' on I) (hloc : s'.loc u = V.place s u)
    (q : Q') :
  (roles role s u).phase.queue = some (V.queue q) ↔ (roles role' s' u).phase.queue = some q
  := by
  simp only [roles, hloc, place]
  cases hl : s.loc u with
  | none => simp [Role.idle]
  | some l =>
      simp only [Option.elim_some, hfits.phase, Option.bind_some]
      cases hk : V.loc u l with
      | none => simp [Role.idle]
      | some k => simp

theorem Fits.not_waiting (hfits : V.Fits M M' bar role role' on I) (hplace : V.place s t = none) :
  ¬ V.Waiting role s t
  := by
  rintro ⟨q, hq⟩
  cases hl : s.loc t with
  | none => simp [roles, hl, Role.idle] at hq
  | some l =>
      simp only [roles, hl, Option.elim_some, hfits.phase] at hq
      obtain ⟨k, hk, -⟩ := hq
      simp [place, hl, hk] at hplace

/-- The states of the threads that wait on the object, after a step. -/
theorem Fits.waits_step (hfits : V.Fits M M' bar role role' on I) (hs : I s)
    (hstep : M.Step s a s₁) {w' : Waits T Q'}
    (h : s₁.shared.waits.Shows V.queue (V.Waiting role s) w') :
  s₁.shared.waits.Shows V.queue (V.Waiting role s₁) w'
  := by
  apply h.change
  intro u hne
  by_cases hu : u = a.thread
  · subst hu
    apply (hfits.act s a s₁ hs hstep).port_eq_zero (hfits.sound s hs)
    intro hsame
    apply hne
    simp only [Waiting, hsame]
  · apply absurd _ hne
    simp only [Waiting, hstep.roles_other hu]

/-- Only threads in calls of functions of the object owe messages to threads that wait on its
queues. -/
def Addressed (V : View T Obj Q Loc Obj' Q' Loc') (role : T → Loc → Role T Q)
    (s : State T (World Obj T Q) Loc Ret) : Prop :=
  ∀ t u, 0 < (roles role s t).pending u → V.Waiting role s u → V.place s t ≠ none

theorem Fits.addressed (hfits : V.Fits M M' bar role role' on I) (hs : I s)
    (haddr : V.Addressed role s) (hstep : M.Step s a s₁) :
  V.Addressed role s₁
  := by
  intro t u hpend ⟨q, hq⟩
  have hsound := hfits.sound s hs
  have act := hfits.act s a s₁ hs hstep
  have hbefore : (roles role s u).phase ≠ .out → V.Waiting role s u := by
    intro hin
    use q
    by_cases hu : u = a.thread
    · subst hu
      apply act.queue_of_inside hin hq
    · rw [← hstep.roles_other hu, hq]
  by_cases ht : t = a.thread
  · subst ht
    have hplace : V.place s a.thread ≠ none := by
      rcases Nat.lt_or_ge ((roles role s a.thread).pending u) ((roles role s₁ a.thread).pending u)
        with hmore | hless
      · obtain ⟨g, hon, hmem⟩ := act.mem_of_pending hmore
        have hqueue := (hsound.queued hmem).1
        have hin : (roles role s u).phase ≠ .out := by
          intro hout
          rw [hout] at hqueue
          cases hqueue
        obtain ⟨q', hq'⟩ := hbefore hin
        rw [hqueue, Option.some_inj] at hq'
        intro hnone
        apply hfits.away s a.thread hs hnone q' (hq' ▸ hon)
      · have hpend' : 0 < (roles role s a.thread).pending u := by omega
        apply haddr a.thread u hpend' (hbefore (hsound.inside_of_pending hpend'))
    cases hstep with
    | call hidle hentry => simp [place, hidle] at hplace
    | @goto t c l l' x hl h =>
        intro hnone
        simp only [place, Label.thread, hl, State.goto_loc, Function.update_self,
          Option.bind_some] at hplace hnone
        simp only [roles, Label.thread, State.goto_loc, Function.update_self,
          Option.elim_some] at hpend
        have := hfits.settled t l l' c s.shared x hplace hnone h u
        omega
    | ret hl h => simp [roles, Role.idle, Role.pending] at hpend
  · rw [hstep.roles_other ht] at hpend
    rw [place, hstep.loc_eq, Function.update_of_ne ht]
    apply haddr t u hpend (hbefore (hsound.inside_of_pending hpend))

/-- The acts of a thread outside of the functions of the object are not seen. -/
theorem Fits.waits_other (hfits : V.Fits M M' bar role role' on I) (hs : I s)
    (hhomed : Homed (roles role s) s.shared.waits) (haddr : V.Addressed role s)
    (hsees : V.Shows role s s') (hplace : V.place s a.thread = none) (hstep : M.Step s a s₁) :
  s₁.shared.waits.Shows V.queue (V.Waiting role s₁) s'.shared.waits
  := by
  apply hfits.waits_step hs hstep
  apply hsees.waits.other (hfits.sound s hs) (hfits.act s a s₁ hs hstep)
    (hfits.away s a.thread hs hplace)
  · intro u q hp
    use q, hhomed u _ hp
  · apply hfits.not_waiting hplace
  · intro u hpend hwait
    apply haddr a.thread u hpend hwait hplace

omit [Fintype T] [DecidableEq Q] in
theorem loc_of_update {s₁' : State T (World Obj' T Q') Loc' Ret} {o : Option Loc}
    {o' : Option Loc'} (hsees : ∀ u, s'.loc u = V.place s u)
    (hloc : s₁.loc = Function.update s.loc t o) (hloc' : s₁'.loc = Function.update s'.loc t o')
    (ho : o' = o.bind (V.loc t)) :
  ∀ u, s₁'.loc u = V.place s₁ u
  := by
  intro u
  rw [place_update hloc, hloc', ho, funext hsees]

/-- The step that a thread in a call of a function of the object is about to take is seen, whatever
it is. -/
theorem Fits.answers (hfits : V.Fits M M' bar role role' on I) (hs : I s)
    (hhomed : Homed (roles role s) s.shared.waits)
    (hsound : Sound bar' (roles role' s') s'.shared.waits) (hsees : V.Shows role s s') {l : Loc}
    {k : Loc'} (hl : s.loc t = some l) (hk : V.loc t l = some k) (c : Bool) :
  V.Answers (V.Waiting role s) t l (M.step t l c s.shared) (M'.step t k c s'.shared)
  := by
  have hk' : s'.loc t = some k := by
    simp [hsees.loc, place, hl, hk]
  have hanswer := hfits.inside s t l k c s'.shared.waits hs hhomed hl hk hsees.waits
  rw [← hsees.obj] at hanswer
  apply hanswer
  intro u hpend
  have hpend' : 0 < (roles role' s' t).pending u := by
    rw [hfits.pending t l k u hk] at hpend
    simpa [roles, hk'] using hpend
  obtain ⟨q, hq⟩ := Option.ne_none_iff_exists'.mp
    ((Phase.queue_eq_none_iff _).not.mpr (hsound.inside_of_pending hpend'))
  use q
  rw [hfits.waiting_iff (hsees.loc u), hq]

omit [Fintype T] [DecidableEq Q] in
/-- A step that is not seen: the queues and the messages are all that has to be looked at. -/
theorem Shows.unseen {o : Option Loc} (hsees : V.Shows role s s')
    (hloc : s₁.loc = Function.update s.loc t o) (hobj : V.obj s₁.shared.obj = V.obj s.shared.obj)
    (hwaits : s₁.shared.waits.Shows V.queue (V.Waiting role s₁) s'.shared.waits)
    (hplace : V.place s t = none) (ho : o.bind (V.loc t) = none) {e : Event T Loc Ret}
    (hlog : s₁.log = e :: s.log) (he : V.Sees e []) :
  V.Shows role s₁ s'
  := by
  constructor
  · rw [hobj, hsees.obj]
  · apply hwaits
  · apply loc_of_update hsees.loc hloc (Function.update_eq_self t _).symm
    rw [ho, hsees.loc, hplace]
  · rw [hlog]
    apply Notes.cons hsees.log he

omit [Fintype T] [DecidableEq Q] in
/-- A step that is seen. -/
theorem Shows.seen {s₁' : State T (World Obj' T Q') Loc' Ret} {o : Option Loc} {o' : Option Loc'}
    (hsees : V.Shows role s s') (hloc : s₁.loc = Function.update s.loc t o)
    (hloc' : s₁'.loc = Function.update s'.loc t o')
    (hobj : s₁'.shared.obj = V.obj s₁.shared.obj)
    (hwaits : s₁.shared.waits.Shows V.queue (V.Waiting role s₁) s₁'.shared.waits)
    (ho : o' = o.bind (V.loc t)) {e : Event T Loc Ret} {e' : Event T Loc' Ret}
    (hlog : s₁.log = e :: s.log) (hlog' : s₁'.log = e' :: s'.log) (he : V.Sees e [e']) :
  V.Shows role s₁ s₁'
  := by
  constructor
  · apply hobj
  · apply hwaits
  · apply loc_of_update hsees.loc hloc hloc' ho
  · rw [hlog, hlog']
    apply Notes.cons hsees.log he

/-- A step of a thread outside of the functions of the object begins a call of one of them, or is
not seen. -/
theorem Fits.step_outside (hfits : V.Fits M M' bar role role' on I) (hs : I s)
    (hhomed : Homed (roles role s) s.shared.waits) (haddr : V.Addressed role s)
    (hsees : V.Shows role s s') (hplace : V.place s a.thread = none) (hstep : M.Step s a s₁) :
  V.Shows role s₁ s' ∨
    ∃ a' s₁', V.Labels s s₁ a a' ∧ M'.Step s' a' s₁' ∧ V.Shows role s₁ s₁'
  := by
  have hwaits := hfits.waits_other hs hhomed haddr hsees hplace hstep
  have hidle : s'.loc a.thread = none := by
    rw [hsees.loc, hplace]
  cases hstep with
  | @call t l hout hentry =>
      cases hk : V.loc t l with
      | none =>
          left
          refine hsees.unseen rfl rfl hwaits hplace ?_ rfl (Sees.callOther hk)
          simp [hk]
      | some k =>
          right
          use .call t k, s'.call t k, Labels.call hk,
            Machine.Step.call hidle (hfits.entry t l k hentry hk)
          refine hsees.seen rfl rfl hsees.obj hwaits ?_ rfl rfl (Sees.call hk)
          simp [hk]
  | @goto t c l l' x hl h =>
      have hk : V.loc t l = none := by
        simpa [place, hl] using hplace
      obtain ⟨hobj, hentry⟩ := hfits.outside s t l c x l' hs hl hk h
      cases hk' : V.loc t l' with
      | none =>
          left
          refine hsees.unseen rfl hobj hwaits hplace ?_ rfl (Sees.other hk hk')
          simp [hk']
      | some k' =>
          right
          have hplace' : V.place (s.goto t l x l') t = some k' := by
            simp [place, hk']
          use .call t k', s'.call t k', Labels.enter hplace hplace',
            Machine.Step.call hidle (hentry k' hk')
          refine hsees.seen rfl rfl (hsees.obj.trans hobj.symm) hwaits ?_ rfl rfl
            (Sees.enter hk hk')
          simp [hk']
  | @ret t c l x r hl h =>
      have hk : V.loc t l = none := by
        simpa [place, hl] using hplace
      have hobj := hfits.outside_ret s t l c x r hs hl hk h
      left
      refine hsees.unseen rfl hobj hwaits hplace rfl rfl (Sees.retOther hk)

/-- A step of a thread in a call of a function of the object is a step of this function. -/
theorem Fits.step_inside (hfits : V.Fits M M' bar role role' on I) (hs : I s)
    (hhomed : Homed (roles role s) s.shared.waits)
    (hsound : Sound bar' (roles role' s') s'.shared.waits) (hsees : V.Shows role s s') {k : Loc'}
    (hplace : V.place s a.thread = some k) (hstep : M.Step s a s₁) :
  ∃ a' s₁', V.Labels s s₁ a a' ∧ M'.Step s' a' s₁' ∧ V.Shows role s₁ s₁'
  := by
  have hwaits : ∀ w', s₁.shared.waits.Shows V.queue (V.Waiting role s) w' →
      s₁.shared.waits.Shows V.queue (V.Waiting role s₁) w' := by
    intro w' hw
    apply hfits.waits_step hs hstep hw
  have hloc : s'.loc a.thread = some k := by
    rw [hsees.loc, hplace]
  cases hstep with
  | call hout hentry => simp [place, hout] at hplace
  | @goto t c l l' x hl h =>
      have hk : V.loc t l = some k := by
        simpa [place, hl] using hplace
      have hanswer := hfits.answers hs hhomed hsound hsees hl hk c
      rw [h] at hanswer
      obtain ⟨x', hobj, hshows, ⟨k', hk', h'⟩ | ⟨hk', r, h'⟩⟩ := hanswer
      · use .act t c, s'.goto t k x' k', Labels.act hplace, Machine.Step.goto hloc h'
        refine hsees.seen rfl rfl hobj (hwaits _ hshows) ?_ rfl rfl (Sees.goto hk hk')
        simp [hk']
      · use .act t c, s'.ret t k x' r, Labels.act hplace, Machine.Step.ret hloc h'
        refine hsees.seen rfl rfl hobj (hwaits _ hshows) ?_ rfl rfl (Sees.leave hk hk')
        simp [hk']
  | @ret t c l x r hl h =>
      have hk : V.loc t l = some k := by
        simpa [place, hl] using hplace
      have hanswer := hfits.answers hs hhomed hsound hsees hl hk c
      rw [h] at hanswer
      obtain ⟨x', r', hobj, hshows, h', hdirect⟩ := hanswer
      use .act t c, s'.ret t k x' r', Labels.act hplace, Machine.Step.ret hloc h'
      refine hsees.seen rfl rfl hobj (hwaits _ hshows) rfl rfl rfl (Sees.ret hk hdirect)

omit [Fintype T] [DecidableEq Q] [DecidableEq T] in
theorem Sees.length_eq {e : Event T Loc Ret} {es es' : List (Event T Loc' Ret)}
    (h : V.Sees e es) (h' : V.Sees e es') :
  es.length = es'.length
  := by
  cases h <;> cases h' <;> simp_all

omit [Fintype T] [DecidableEq Q] [DecidableEq T] in
theorem Notes.length_eq {log : List (Event T Loc Ret)} {log' log'' : List (Event T Loc' Ret)}
    (h : V.Notes log log') (h' : V.Notes log log'') :
  log'.length = log''.length
  := by
  induction h generalizing log'' with
  | nil =>
      cases h'
      rfl
  | cons before sees ih =>
      cases h' with
      | cons before' sees' =>
          rw [List.length_append, List.length_append, sees.length_eq sees', ih before']

omit [Fintype T] [DecidableEq Q] [DecidableEq T] in
/-- What is seen of the last event. -/
theorem Notes.sees {e : Event T Loc Ret} {log : List (Event T Loc Ret)}
    {log' : List (Event T Loc' Ret)} (es : List (Event T Loc' Ret))
    (h : V.Notes (e :: log) (es ++ log')) (h' : V.Notes log log') :
  V.Sees e es
  := by
  generalize hlog : es ++ log' = log₁ at h
  cases h with
  | cons before sees =>
      rw [(List.append_inj' hlog (h'.length_eq before)).1]
      apply sees

/-- What is seen of a run of the system is a run of the object alone. The relation `R` between the
two is kept by the steps of the system, seen or not, and may serve to show that the steps of the
object alone are within the guard. -/
theorem Fits.run_keeping [DecidableEq Q'] (hfits : V.Fits M M' bar role role' on I)
    (hM' : Conforms M' bar' role' (fun _ => True))
    {G : State T (World Obj T Q) Loc Ret → Label T Loc → Prop}
    {G' : State T (World Obj' T Q') Loc' Ret → Label T Loc' → Prop} {o : Obj}
    {R : State T (World Obj T Q) Loc Ret → State T (World Obj' T Q') Loc' Ret → Prop}
    (hinit : R (State.idle ⟨o, Waits.empty⟩) (State.idle ⟨V.obj o, Waits.empty⟩))
    (hinv : ∀ s, M.Reach G (State.idle ⟨o, Waits.empty⟩) s → I s)
    (hguard : ∀ s a s₁ s' a', M.Reach G (State.idle ⟨o, Waits.empty⟩) s → G s a → M.Step s a s₁ →
      M'.Reach G' (State.idle ⟨V.obj o, Waits.empty⟩) s' → V.Shows role s s' → R s s' →
      V.Labels s s₁ a a' → G' s' a')
    (hkeep : ∀ s a s₁ s' s₁' e es, M.Reach G (State.idle ⟨o, Waits.empty⟩) s → M.Step s a s₁ →
      M'.Reach G' (State.idle ⟨V.obj o, Waits.empty⟩) s' → V.Shows role s s' → R s s' →
      s₁.log = e :: s.log → s₁'.log = es ++ s'.log → V.Sees e es →
      (s₁' = s' ∨ ∃ a', M'.Step s' a' s₁') → R s₁ s₁')
    (hs : M.Reach G (State.idle ⟨o, Waits.empty⟩) s) :
  ∃ s', M'.Reach G' (State.idle ⟨V.obj o, Waits.empty⟩) s' ∧ V.Shows role s s' ∧ R s s' ∧
    ∀ t l k c, s.loc t = some l → V.loc t l = some k →
      V.Answers (V.Waiting role s) t l (M.step t l c s.shared) (M'.step t k c s'.shared)
  := by
  have hsound : ∀ s', M'.Reach G' (State.idle ⟨V.obj o, Waits.empty⟩) s' →
      Sound bar' (roles role' s') s'.shared.waits :=
    fun s' hs' => (hM'.sound (fun _ _ _ _ => trivial) hs').2
  have hrun : Homed (roles role s) s.shared.waits ∧ V.Addressed role s ∧
      ∃ s', M'.Reach G' (State.idle ⟨V.obj o, Waits.empty⟩) s' ∧ V.Shows role s s' ∧ R s s' := by
    apply hs.invariant (I := fun s => Homed (roles role s) s.shared.waits ∧ V.Addressed role s ∧
      ∃ s', M'.Reach G' (State.idle ⟨V.obj o, Waits.empty⟩) s' ∧ V.Shows role s s' ∧ R s s')
    · refine ⟨?_, ?_, State.idle ⟨V.obj o, Waits.empty⟩, Machine.Reach.refl, ?_, hinit⟩
      · simp [Homed, Waits.empty]
      · simp [Addressed, roles, Role.idle, Role.pending]
      · constructor
        · rfl
        · constructor <;> simp [Waits.empty]
        · simp [place]
        · apply Notes.nil
    · rintro s a s₁ hreach ⟨hhomed, haddr, s', hreach', hsees, hR⟩ hG hstep
      have hI := hinv s hreach
      refine ⟨?_, hfits.addressed hI haddr hstep, ?_⟩
      · rw [hstep.roles_eq]
        apply (hfits.act s a s₁ hI hstep).homed (hfits.sound s hI) hhomed
      · obtain ⟨e, he⟩ := hstep.log_eq
        have hnext : V.Shows role s₁ s' ∨
            ∃ a' s₁', V.Labels s s₁ a a' ∧ M'.Step s' a' s₁' ∧ V.Shows role s₁ s₁' := by
          cases hplace : V.place s a.thread with
          | none => apply hfits.step_outside hI hhomed haddr hsees hplace hstep
          | some k =>
              right
              apply hfits.step_inside hI hhomed (hsound s' hreach') hsees hplace hstep
        rcases hnext with hunseen | ⟨a', s₁', hlabels, hstep', hseen⟩
        · have hlog := hunseen.log
          rw [he] at hlog
          refine ⟨s', hreach', hunseen, ?_⟩
          apply hkeep s a s₁ s' s' e [] hreach hstep hreach' hsees hR he rfl
            (Notes.sees [] hlog hsees.log) (.inl rfl)
        · have hG' := hguard s a s₁ s' a' hreach hG hstep hreach' hsees hR hlabels
          obtain ⟨e', he'⟩ := hstep'.log_eq
          have hlog := hseen.log
          rw [he, he'] at hlog
          refine ⟨s₁', hreach'.step hG' hstep', hseen, ?_⟩
          apply hkeep s a s₁ s' s₁' e [e'] hreach hstep hreach' hsees hR he he'
            (Notes.sees [e'] hlog hsees.log) (.inr ⟨a', hstep'⟩)
  obtain ⟨hhomed, -, s', hreach', hsees, hR⟩ := hrun
  refine ⟨s', hreach', hsees, hR, ?_⟩
  intro t l k c hl hk
  apply hfits.answers (hinv s hs) hhomed (hsound s' hreach') hsees hl hk

/-- What is seen of a run of the system is a run of the object alone, and whatever a thread in a
call of a function of the object is about to do is seen too. -/
theorem Fits.run [DecidableEq Q'] (hfits : V.Fits M M' bar role role' on I)
    (hM' : Conforms M' bar' role' (fun _ => True))
    {G : State T (World Obj T Q) Loc Ret → Label T Loc → Prop}
    {G' : State T (World Obj' T Q') Loc' Ret → Label T Loc' → Prop} {o : Obj}
    (hinv : ∀ s, M.Reach G (State.idle ⟨o, Waits.empty⟩) s → I s)
    (hguard : ∀ s a s₁ s' a', M.Reach G (State.idle ⟨o, Waits.empty⟩) s → G s a → M.Step s a s₁ →
      M'.Reach G' (State.idle ⟨V.obj o, Waits.empty⟩) s' → V.Shows role s s' →
      V.Labels s s₁ a a' → G' s' a')
    (hs : M.Reach G (State.idle ⟨o, Waits.empty⟩) s) :
  ∃ s', M'.Reach G' (State.idle ⟨V.obj o, Waits.empty⟩) s' ∧ V.Shows role s s' ∧
    ∀ t l k c, s.loc t = some l → V.loc t l = some k →
      V.Answers (V.Waiting role s) t l (M.step t l c s.shared) (M'.step t k c s'.shared)
  := by
  obtain ⟨s', hs', hsees, -, hanswers⟩ := hfits.run_keeping (R := fun _ _ => True) hM' trivial hinv
    (fun s a s₁ s' a' hs hG hstep hs' hsees _ => hguard s a s₁ s' a' hs hG hstep hs' hsees)
    (fun _ _ _ _ _ _ _ _ _ _ _ _ _ _ _ _ => trivial) hs
  exact ⟨s', hs', hsees, hanswers⟩

/-! ### Calls of the system -/

omit [Fintype T] [DecidableEq Q] in
/-- What is seen of a step is an event or none. -/
theorem Direct.sees (hdirect : V.Direct M) (hstep : M.Step s a s₁) {e : Event T Loc Ret}
    {es : List (Event T Loc' Ret)} (he : s₁.log = e :: s.log) (h : V.Sees e es) :
  es = (V.event e).toList
  := by
  cases h with
  | callOther hk => simp [event, hk]
  | call hk => simp [event, hk]
  | other hk hk' => simp [event, hk]
  | enter hk hk' =>
      cases hstep with
      | call hidle hentry => cases he
      | ret hl h => cases he
      | goto hl h =>
          cases he
          rw [(hdirect.stays _ _ _ _ _ _ h).mpr hk] at hk'
          cases hk'
  | goto hk hk' => simp [event, hk, hk']
  | leave hk hk' =>
      cases hstep with
      | call hidle hentry => cases he
      | ret hl h => cases he
      | goto hl h =>
          cases he
          rw [(hdirect.stays _ _ _ _ _ _ h).mp hk'] at hk
          cases hk
  | retOther hk => simp [event, hk]
  | ret hk hanswer => simp [event, hk, hanswer (hdirect.direct _)]

omit [Fintype T] [DecidableEq Q] in
/-- The log that is seen is made of the events that are seen. -/
theorem Direct.log_eq (hdirect : V.Direct M)
    {G : State T (World Obj T Q) Loc Ret → Label T Loc → Prop} {x : World Obj T Q}
    (hs : M.Reach G (State.idle x) s) {log' : List (Event T Loc' Ret)} (h : V.Notes s.log log') :
  log' = s.log.filterMap V.event
  := by
  induction hs generalizing log' with
  | refl =>
      cases h
      rfl
  | @step s s₁ a hs hG hstep ih =>
      obtain ⟨e, he⟩ := hstep.log_eq
      rw [he] at h ⊢
      cases h with
      | cons before hsees =>
          rw [ih before, hdirect.sees hstep he hsees]
          cases hevent : V.event e <;> simp [hevent]

/-- What is seen of a run of the system is a run of the object alone: each label of a step in a
call of a function of the object is one of this call. -/
theorem Fits.run_direct [DecidableEq Q'] (hfits : V.Fits M M' bar role role' on I)
    (hdirect : V.Direct M) (hM' : Conforms M' bar' role' (fun _ => True))
    {G : State T (World Obj T Q) Loc Ret → Label T Loc → Prop}
    {G' : State T (World Obj' T Q') Loc' Ret → Label T Loc' → Prop} {o : Obj}
    (hinv : ∀ s, M.Reach G (State.idle ⟨o, Waits.empty⟩) s → I s)
    (hcall : ∀ s s' t l k, G s (.call t l) → V.Shows role s s' →
      s'.log = s.log.filterMap V.event → V.loc t l = some k → G' s' (.call t k))
    (hact : ∀ s s' t c, G s (.act t c) → V.Shows role s s' →
      s'.log = s.log.filterMap V.event → G' s' (.act t c))
    (hs : M.Reach G (State.idle ⟨o, Waits.empty⟩) s) :
  ∃ s', M'.Reach G' (State.idle ⟨V.obj o, Waits.empty⟩) s' ∧ V.Follows role M M' s s'
  := by
  have hguard : ∀ s a s₁ s' a', M.Reach G (State.idle ⟨o, Waits.empty⟩) s → G s a → M.Step s a s₁ →
      M'.Reach G' (State.idle ⟨V.obj o, Waits.empty⟩) s' → V.Shows role s s' →
      V.Labels s s₁ a a' → G' s' a' := by
    intro s a s₁ s' a' hs hG hstep hs' hsees hlabels
    have hlog := hdirect.log_eq hs hsees.log
    cases hlabels with
    | call hk => apply hcall s s' _ _ _ hG hsees hlog hk
    | act hk => apply hact s s' _ _ hG hsees hlog
    | enter hplace hplace' =>
        -- A call of the system does not enter one of a function of the object later.
        cases hstep with
        | goto hl h =>
            simp only [place, hl, Option.bind_some] at hplace
            rw [place, State.goto_loc, Function.update_self, Option.bind_some,
              (hdirect.stays _ _ _ _ _ _ h).mpr hplace] at hplace'
            cases hplace'
        | ret hl h => simp [place] at hplace'
  obtain ⟨s', hs', hsees, hanswers⟩ := hfits.run hM' hinv hguard hs
  use s', hs'
  exact ⟨hsees, hdirect.log_eq hs hsees.log, hanswers⟩

end Run

end View

end Concurrency
