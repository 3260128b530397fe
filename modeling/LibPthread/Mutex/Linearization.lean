import LibPthread.Concurrency.Linearization
import LibPthread.Mutex.Exclusion
import LibPthread.Mutex.HandOver

/-!
# The mutex as a lock

While no time-out crosses a hand-over, the functions of a mutex behave as operations on a lock
that are carried out one at a time. An unlock takes effect in its section, and if it hands the
mutex over to a waiter, the call of the waiter takes effect right after it, before the waiter
runs.
-/

open Concurrency

namespace LibPthread

namespace Mutex

/-- The operations of a mutex. -/
inductive Op where
  | lock (abstime : Option Timespec)
  | trylock
  | unlock
  deriving DecidableEq

/-- The operation that a call asks for. -/
def Loc.op {T : Type} : Loc T → Op
  | .lock (.start abstime) => .lock abstime
  | .lock (.wait _) => .lock none
  | .lock (.finish _) => .lock none
  | .trylock => .trylock
  | .unlock _ => .unlock

/-- The attributes make the mutex a normal one. -/
def normal (attr : Option MutexType) : Prop :=
  attr ≠ some .errorcheck ∧ attr ≠ some .recursive

/-- What the operations of the thread `t` do to the lock, which is free or belongs to a thread
that has acquired it a number of times. A call that finds the lock taken waits until it is free,
unless it has a time-out or the type of the mutex tells it to return. -/
inductive Locks {T : Type} (attr : Option MutexType) (t : T) :
    Op → Option (T × Nat) → Ret → Option (T × Nat) → Prop where
  | lock (abstime : Option Timespec) : Locks attr t (.lock abstime) none .zero (some (t, 1))
  | relock (abstime : Option Timespec) (n : Nat) (recursive : attr = some .recursive) :
    Locks attr t (.lock abstime) (some (t, n)) .zero (some (t, n + 1))
  | deadlock (abstime : Option Timespec) (n : Nat) (errorcheck : attr = some .errorcheck) :
    Locks attr t (.lock abstime) (some (t, n)) (.error .EDEADLK) (some (t, n))
  | expire (abstime : Timespec) (h : T) (n : Nat) (foreign : normal attr ∨ h ≠ t) :
    Locks attr t (.lock (some abstime)) (some (h, n)) (.error .ETIMEDOUT) (some (h, n))
  | trylock : Locks attr t .trylock none .zero (some (t, 1))
  | retrylock (n : Nat) (recursive : attr = some .recursive) :
    Locks attr t .trylock (some (t, n)) .zero (some (t, n + 1))
  | busy (h : T) (n : Nat) (foreign : attr ≠ some .recursive ∨ h ≠ t) :
    Locks attr t .trylock (some (h, n)) (.error .EBUSY) (some (h, n))
  | unlock : Locks attr t .unlock (some (t, 1)) .zero none
  | inner (n : Nat) (recursive : attr = some .recursive) :
    Locks attr t .unlock (some (t, n + 2)) .zero (some (t, n + 1))
  | deny (v : Option (T × Nat)) (checked : ¬ normal attr) (foreign : ∀ n, v ≠ some (t, n)) :
    Locks attr t .unlock v (.error .EPERM) v

/-- A lock that is free at the start. -/
def lockObject (T : Type) (attr : Option MutexType) : Object T (Option (T × Nat)) Op Ret where
  start := none
  effect := Locks attr

variable {T : Type} [DecidableEq T]

/-- The number of acquisitions of `t`, where that of a waiter counts from its hand-over. -/
def holding (t : T) (log : Log T) : Nat :=
  depth t log + if handed t log then 1 else 0

/-- The number of times that `t` has acquired the lock. -/
def acquired (v : Option (T × Nat)) (t : T) : Nat :=
  match v with
  | none => 0
  | some (h, n) => if h = t then n else 0

/-- Where the thread stands as a user of the lock. -/
def Stands (s : Sys T) (t : T) (x : Standing Op Ret) : Prop :=
  match s.loc t with
  | none => x = .outside
  | some (.lock (.start abstime)) => x = .asked (.lock abstime)
  | some (.lock (.wait stage)) =>
    (handed t s.log = true ∧ x = .answered .zero) ∨
      (handed t s.log = false ∧ ∃ abstime, x = .asked (.lock abstime) ∧
        (stage.mayExpire = true → abstime.isSome = true))
  | some (.lock (.finish err)) => x = .answered (if err then .error .ETIMEDOUT else .zero)
  | some .trylock => x = .asked .trylock
  | some (.unlock .start) => x = .asked .unlock
  | some (.unlock (.wakeup _)) => x = .answered .zero

/-- The state of the lock that belongs to a state of the system. -/
structure Abstracts (s : Sys T) (v : Option (T × Nat)) (st : T → Standing Op Ret) : Prop where
  value : ∀ t, holding t s.log = acquired v t
  pos : ∀ h n, v = some (h, n) → 0 < n
  stands : ∀ t, Stands s t (st t)

/-- The time-out of the call is valid. -/
def ValidTimeout : Label T (Loc T) → Prop
  | .call _ (.lock (.start abstime)) => badTime abstime = false
  | _ => True

/-- The guard of the runs in which the mutex is a lock: time-outs are valid and cross no
hand-over, a normal mutex is unlocked by its holder, and `locks` does not wrap around. -/
def Regular (s : Sys T) (a : Label T (Loc T)) : Prop :=
  ValidTimeout a ∧ Disciplined s a ∧ Uncrossed s a

instance (a : Label T (Loc T)) : Decidable (ValidTimeout a) :=
  match a with
  | .call _ (.lock (.start _)) => inferInstanceAs (Decidable (_ = _))
  | .call _ (.lock (.wait _)) => inferInstanceAs (Decidable True)
  | .call _ (.lock (.finish _)) => inferInstanceAs (Decidable True)
  | .call _ .trylock => inferInstanceAs (Decidable True)
  | .call _ (.unlock _) => inferInstanceAs (Decidable True)
  | .act _ _ => inferInstanceAs (Decidable True)

instance (s : Sys T) (a : Label T (Loc T)) : Decidable (Regular s a) :=
  inferInstanceAs (Decidable (_ ∧ _ ∧ _))

variable {b : Build} {attr : Option MutexType} {s s' : Sys T} {a : Label T (Loc T)}
    {v v' : Option (T × Nat)} {st : T → Standing Op Ret}

theorem Stands.congr {t : T} {x : Standing Op Ret} (h : Stands s t x)
    (hloc : s'.loc t = s.loc t) (hhanded : handed t s'.log = handed t s.log) :
  Stands s' t x
  := by
  simp only [Stands, hloc, hhanded] at h ⊢
  apply h

/-! ### What holds in the runs in which the mutex is a lock -/

/-- A thread on the queue is not the owner of the mutex. -/
def Foreign (b : Build) (s : Sys T) : Prop :=
  ∀ t ∈ s.shared.waits.queue (), s.shared.obj.tracked b = true → s.shared.obj.owner ≠ some t

section Invariant

variable [Fintype T]

/-- A thread that is granted the mutex is not on the queue. -/
theorem Effect.foreign
    (hsound : Sound (fun _ => False) (roles (fun _ => Loc.role ()) s) s.shared.waits)
    (h : Effect b s a s') (hf : Foreign b s) :
  Foreign b s'
  := by
  intro t ht htracked
  have hloc := loc_of_queued hsound (u := t)
  rw [tracked_congr h.attr_eq] at htracked
  have hold := fun hmem => hf t hmem htracked
  cases h with
  | @enqueue u c abstime hl hheld hvalid hforeign =>
      by_cases hu : t = u
      · subst hu
        apply hforeign htracked
      · apply hold
        simpa [hu] using ht
  | @grant u c l mx hl hrequest hfree hgrant =>
      have hq := hloc ht
      have hu : u ≠ t := by grind [Loc.request]
      simp [hgrant.owner htracked, hu]
  | @settle u c mx hl hmx hlock hattr howner =>
      have hq := hloc ht
      have hu : u ≠ t := by grind
      simp [howner htracked, hu]
  | @release u c mx hl halone =>
      rw [State.ret_shared, halone] at ht
      cases ht
  | @handOver u w c mx rest hl hfirst hmx hrel =>
      have hw : w ∈ s.shared.waits.queue () := by simp [hfirst]
      have hnodup := hsound.nodup ()
      rw [State.goto_shared, Waits.dequeue_queue (hsound.linked () w hw), if_pos rfl,
        hnodup.mem_erase_iff] at ht
      have howner := hrel.owner htracked
      rw [State.goto_shared, howner]
      split
      · simp
      · simp [Ne.symm ht.1]
  | leave hl hstill => apply hold (Waits.mem_of_mem_dequeue ht)
  | again hl => simpa using hold ht
  | refuse hl => simpa using hold ht
  | inner hl => simpa using hold ht
  | _ => simpa using hold (by simpa using ht)

theorem foreign_of_reach {G : Sys T → Label T (Loc T) → Prop}
    (hs : (machine b).Reach G (State.idle ⟨Mutex.init attr, Waits.empty⟩) s) :
  Foreign b s
  := by
  apply hs.invariant
  · simp [Foreign, Waits.empty]
  · intro s a s' hreach hf _ hstep
    apply (effect_of_step (sound_of_reach hreach) hstep).foreign (sound_of_reach hreach) hf

omit [Fintype T] in
/-- A mutex that is held after a step of a regular run has a holder or has been handed over. -/
theorem Effect.holder_of_regular (ho : Owned b s) (h : Effect b s a s') (hG : Disciplined s a)
    (hs : Settled s) (hheld : s'.shared.obj.held = true) :
  ∃ t, handed t s'.log = true ∨ 0 < depth t s'.log
  := by
  by_cases hproper : ProperUse s a
  · apply h.holder ho hproper hs hheld
  · cases h with
    | deny hl =>
        apply exists_of_quiet _ (hs.holder hheld)
        apply Quiet.ret (ho.not_handed hl (Or.inr ⟨_, rfl⟩)) (by simp)
    | @inner t c hl hrec hown hmore =>
        apply absurd _ hproper
        intro _
        have hh := (ho.holder_of_owner (tracked_of_recursive hrec) hown).2
        have hlocks := (hh.kept (ho.not_handed hl (Or.inr ⟨_, rfl⟩))).1 hrec
        have := (hG.2 hrec hown).1 hl
        omega
    | release _ _ hfree => simp_all
    | @handOver t u c mx rest hl hfirst =>
        use u
        left
        simp [handed]
    | call => apply exists_of_quiet Quiet.call (hs.holder hheld)
    | _ =>
        apply absurd _ hproper
        simp_all [ProperUse, Loc.request]

theorem settled_of_regular
    (hs : (machine b).Reach Regular (State.idle ⟨Mutex.init attr, Waits.empty⟩) s) :
  Settled s
  := by
  apply hs.invariant
  · constructor
    all_goals simp [Mutex.init]
  · intro s a s' hreach hsettled hG hstep
    have hsound := sound_of_reach hreach
    have ho := owned_of_reach (fun _ _ h => h.2.1.lawful) hreach
    have heffect := effect_of_step hsound hstep
    constructor
    · apply heffect.lock_eq hsettled.lock hsettled.valid
    · apply heffect.valid _ hsettled.valid
      rintro t abstime rfl
      apply hG.1
    · apply heffect.expired hG.2.2 hsettled
    · apply heffect.drained hsettled
    · apply heffect.timedOut hsound ho hsettled
    · apply heffect.holder_of_regular ho hG.2.1 hsettled

/-- What holds in every state of a regular run. -/
structure Kept (b : Build) (attr : Option MutexType) (s : Sys T) : Prop where
  sound : Sound (fun _ => False) (roles (fun _ => Loc.role ()) s) s.shared.waits
  owned : Owned b s
  settled : Settled s
  foreign : Foreign b s
  attr_eq : s.shared.obj.attr = attr
  depth_lt : attr = some .recursive → ∀ t, depth t s.log < 2 ^ 32

theorem kept_of_reach
    (hs : (machine b).Reach Regular (State.idle ⟨Mutex.init attr, Waits.empty⟩) s) :
  Kept b attr s
  := by
  constructor
  · apply sound_of_reach hs
  · apply owned_of_reach (fun _ _ h => h.2.1.lawful) hs
  · apply settled_of_regular hs
  · apply foreign_of_reach hs
  · apply attr_of_reach hs
  · apply depth_lt_of_reach (hs.mono fun _ _ h => h.2.1)

end Invariant

/-! ### The lock follows the mutex -/

section Simulation

omit [DecidableEq T] in
theorem tracked_of_not_normal {mx : Mutex T} (h : ¬ normal mx.attr) :
  mx.tracked b = true
  := by
  obtain ⟨held, lock, attr, owner, locks⟩ := mx
  rcases attr with _ | _ | _ | _
  all_goals simp_all [normal, tracked, isNormal]

variable [Fintype T]

/-- A thread to which the mutex does not belong has acquired nothing. -/
theorem Kept.holding_of_other (hk : Kept b attr s) {h t : T} (hh : Holder b s h) (ht : t ≠ h) :
  holding t s.log = 0
  := by
  obtain ⟨hhanded, htally⟩ := hh.others t ht
  have hlt := fun hrec => hk.depth_lt hrec t
  rw [holding, hhanded]
  rw [tally, hk.attr_eq] at htally
  grind

/-- No thread has acquired a mutex that is not held. -/
theorem Kept.holding_of_free (hk : Kept b attr s) (hfree : s.shared.obj.held = false) (t : T) :
  holding t s.log = 0
  := by
  obtain ⟨hhanded, htally⟩ := (hk.owned.free hfree).none t
  have hlt := fun hrec => hk.depth_lt hrec t
  rw [holding, hhanded]
  rw [tally, hk.attr_eq] at htally
  grind

theorem Kept.held_of_holding (hk : Kept b attr s) {t : T} (ht : 0 < holding t s.log) :
  s.shared.obj.held = true
  := by
  by_contra hfree
  have := hk.holding_of_free (by simpa using hfree) t
  omega

/-- The lock is free if the mutex is not held. -/
theorem Abstracts.free (hR : Abstracts s v st) (hk : Kept b attr s)
    (hfree : s.shared.obj.held = false) :
  v = none
  := by
  cases hv : v with
  | none => rfl
  | some x =>
      have hvalue := hR.value x.1
      have hpos := hR.pos x.1 x.2 hv
      rw [hk.holding_of_free hfree, hv] at hvalue
      simp [acquired] at hvalue
      omega

/-- The lock belongs to the thread to which the mutex belongs. -/
theorem Abstracts.holder (hR : Abstracts s v st) (hk : Kept b attr s) {h : T}
    (hh : Holder b s h) (hheld : s.shared.obj.held = true) :
  v = some (h, holding h s.log)
  := by
  obtain ⟨t, ht⟩ := hk.settled.holder hheld
  have hvalue := hR.value
  have hpos : 0 < holding t s.log := by
    rw [holding]
    rcases ht with ht | ht
    · simp [ht]
    · omega
  obtain rfl : t = h := by
    by_contra hne
    have := hk.holding_of_other hh hne
    omega
  cases hv : v with
  | none =>
      rw [hvalue t, hv] at hpos
      simp [acquired] at hpos
  | some x =>
      have hx := hvalue x.1
      have hxpos := hR.pos x.1 x.2 hv
      rw [hv] at hx
      simp only [acquired, if_true] at hx
      obtain rfl : x.1 = t := by
        by_contra hne
        have := hk.holding_of_other hh hne
        omega
      rw [hx]

omit [Fintype T] in
/-- A step of one thread that changes the standing of no other. -/
theorem Abstracts.change {t : T} {x : Standing Op Ret} (hR : Abstracts s v st)
    (hvalue : ∀ u, holding u s'.log = acquired v' u) (hpos : ∀ h n, v' = some (h, n) → 0 < n)
    (hother : ∀ u, u ≠ t → s'.loc u = s.loc u ∧ handed u s'.log = handed u s.log)
    (hself : Stands s' t x) :
  Abstracts s' v' (Function.update st t x)
  := by
  constructor
  · apply hvalue
  · apply hpos
  · intro u
    by_cases hu : u = t
    · rw [hu, Function.update_self]
      apply hself
    · rw [Function.update_of_ne hu]
      apply (hR.stands u).congr (hother u hu).1 (hother u hu).2

omit [Fintype T] in
theorem holding_of_quiet (hq : Quiet s s') (t : T) :
  holding t s'.log = holding t s.log
  := by
  rw [holding, holding, hq.handed, hq.depth]

omit [Fintype T] in
/-- A step of one thread that changes nothing of the lock. -/
theorem Abstracts.quiet {t : T} {x : Standing Op Ret} (hR : Abstracts s v st) (hq : Quiet s s')
    (hother : ∀ u, u ≠ t → s'.loc u = s.loc u) (hself : Stands s' t x) :
  Abstracts s' v (Function.update st t x)
  := by
  apply hR.change _ hR.pos _ hself
  · intro u
    rw [holding_of_quiet hq, hR.value]
  · intro u hu
    use hother u hu, hq.handed u

omit [Fintype T] in
/-- A step within a wait, after which the call stands as before. -/
theorem Abstracts.wait {t : T} {l l' : Loc T} {w : Waits T Unit} (hR : Abstracts s v st)
    (hl : l ≠ .unlock .start) (hl' : ∀ u, l' ≠ .unlock (.wakeup u))
    (hself : Stands s t (st t) → Stands (s.goto t l ⟨s.shared.obj, w⟩ l') t (st t)) :
  Abstracts (s.goto t l ⟨s.shared.obj, w⟩ l') v st
  := by
  rw [← Function.update_eq_self t st]
  apply hR.quiet (Quiet.goto hl hl') _ (hself (hR.stands t))
  intro u hu
  simp [hu]

omit [Fintype T] in
/-- A call returns and leaves the lock with the state `v'`. -/
theorem Abstracts.ret {t : T} {l : Loc T} {x : World (Mutex T) T Unit} {r : Ret}
    (hR : Abstracts s v st) (hvalue : ∀ u, holding u (s.ret t l x r).log = acquired v' u)
    (hpos : ∀ h n, v' = some (h, n) → 0 < n) :
  Abstracts (s.ret t l x r) v' (Function.update st t .outside)
  := by
  apply hR.change hvalue hpos
  · intro u hu
    simp [hu, handed, Ne.symm hu]
  · simp [Stands]

omit [Fintype T] in
/-- A call returns and changes nothing of the lock. -/
theorem Abstracts.ret_quiet {t : T} {l : Loc T} {lock : Bool} {w : Waits T Unit} {r : Ret}
    (hR : Abstracts s v st) (hnot : handed t s.log = false)
    (hr : r ≠ .zero ∨ ∃ u, l = .unlock (.wakeup u)) :
  Abstracts (s.ret t l ⟨{ s.shared.obj with lock := lock }, w⟩ r) v
    (Function.update st t .outside)
  := by
  apply hR.quiet (Quiet.ret hnot hr)
  · intro u hu
    simp [hu]
  · simp [Stands]

omit [Fintype T] in
/-- What a thread has acquired when the other has returned. -/
theorem Abstracts.value_ret {t : T} {l : Loc T} {x : World (Mutex T) T Unit} {r : Ret}
    (hR : Abstracts s v st) (hv : v = none ∨ ∃ n, v = some (t, n))
    (hv' : v' = none ∨ ∃ n, v' = some (t, n))
    (hself : holding t (s.ret t l x r).log = acquired v' t) :
  ∀ u, holding u (s.ret t l x r).log = acquired v' u
  := by
  intro u
  by_cases hu : u = t
  · rw [hu, hself]
  · have hvalue := hR.value u
    have hsame : holding u (s.ret t l x r).log = holding u s.log := by
      simp [holding, depth, handed, Ne.symm hu]
    rw [hsame, hvalue]
    rcases hv with rfl | ⟨n, rfl⟩
    all_goals rcases hv' with rfl | ⟨n', rfl⟩
    all_goals simp [acquired, Ne.symm hu]

omit [DecidableEq T] [Fintype T] in
/-- The lock is acquired when it is free. -/
theorem Locks.grant {t : T} {l : Loc T} (hrequest : l.request = true) :
  Locks attr t l.op none .zero (some (t, 1))
  := by
  rcases l with (abstime | _ | _) | _ | _
  · apply Locks.lock
  · cases hrequest
  · cases hrequest
  · apply Locks.trylock
  · cases hrequest

omit [DecidableEq T] [Fintype T] in
/-- A recursive lock is acquired once more by its holder. -/
theorem Locks.again {t : T} {l : Loc T} {n : Nat} (hrequest : l.request = true)
    (hrec : attr = some .recursive) :
  Locks attr t l.op (some (t, n)) .zero (some (t, n + 1))
  := by
  rcases l with (abstime | _ | _) | _ | _
  · apply Locks.relock abstime n hrec
  · cases hrequest
  · cases hrequest
  · apply Locks.retrylock n hrec
  · cases hrequest

omit [Fintype T] in
/-- A thread that asks for the mutex has a call that has not taken effect. -/
theorem Stands.request {t : T} {x : Standing Op Ret} {l : Loc T} (h : Stands s t x)
    (hl : s.loc t = some l) (hrequest : l.request = true) :
  x = .asked l.op
  := by
  rcases l with (_ | _ | _) | _ | _
  · simpa [Stands, hl, Loc.op] using h
  · cases hrequest
  · cases hrequest
  · simpa [Stands, hl, Loc.op] using h
  · cases hrequest

omit [Fintype T] in
theorem trylock_eq_busy {Loc : Type} {t : T} {x x' : World (Mutex T) T Unit}
    (h : (trylock b t x : Outcome (World (Mutex T) T Unit) Loc Ret) = .ret x' (.error .EBUSY)) :
  x.obj.attr ≠ some .recursive ∨ x.obj.owner ≠ some t
  := by
  obtain ⟨⟨held, lock, attr, owner, locks⟩, w⟩ := x
  by_contra hnot
  rw [not_or, not_not, not_not] at hnot
  obtain ⟨rfl, rfl⟩ := hnot
  simp only [trylock, grab, Build.assert] at h
  grind

/-- A thread to which the mutex belongs and that is before its request or its unlock is in
`owner`. -/
theorem Kept.owner_eq (hk : Kept b attr s) {h : T} (hh : Holder b s h)
    (hheld : s.shared.obj.held = true) (hnot : handed h s.log = false)
    (htracked : s.shared.obj.tracked b = true) :
  s.shared.obj.owner = some h
  := by
  rcases hh.owner htracked with howner | ⟨-, -, htally⟩
  · apply howner
  · obtain ⟨t, ht⟩ := hk.settled.holder hheld
    have hlt := fun hrec => hk.depth_lt hrec h
    have hzero : holding h s.log = 0 := by
      rw [holding, hnot]
      rw [tally, hk.attr_eq] at htally
      grind
    by_cases hth : t = h
    · rw [holding] at hzero
      grind
    · have hother := hk.holding_of_other hh hth
      rw [holding] at hother
      grind

/-- The lock before a release belongs to the thread that releases it, which has acquired it
once. -/
theorem Abstracts.release (hR : Abstracts s v st) (hk : Kept b attr s) {t : T} {c : Bool}
    {mx : Mutex T} {owner : Option T} (hG : Disciplined s (.act t c))
    (hl : s.loc t = some (.unlock .start)) (hrel : Released b t s.shared.obj mx owner) :
  v = some (t, 1) ∧ depth t s.log = 1 ∧ handed t s.log = false
  := by
  have hnot := hk.owned.not_handed hl (Or.inr ⟨_, rfl⟩)
  obtain ⟨hheld, hh⟩ := hk.owned.holder_of_release hG.lawful hl hrel
  have hv := hR.holder hk hh hheld
  have hpos := hR.pos t _ hv
  have htally := hh.tally_pred hnot hrel
  have hlt := fun hrec => hk.depth_lt hrec t
  have hdepth : depth t s.log = 1 := by
    rw [tally, hk.attr_eq] at htally
    rw [holding, hnot] at hpos
    grind
  constructor
  · rw [hv, holding, hnot, hdepth]
    rfl
  · use hdepth, hnot

/-- The unlock that hands the mutex over takes effect, and then the call of the waiter. -/
theorem Abstracts.handOver (hR : Abstracts s v st) (hk : Kept b attr s) {t u : T} {c : Bool}
    {mx : Mutex T} {rest : List T} (hG : Disciplined s (.act t c))
    (hl : s.loc t = some (.unlock .start)) (hfirst : s.shared.waits.queue () = u :: rest)
    (hrel : Released b t s.shared.obj mx (if b.ndebug then none else some u)) :
  (lockObject T attr).Follows Loc.op Abstracts s (s.goto t (.unlock .start)
    ⟨mx, s.shared.waits.dequeue u⟩ (.unlock (.wakeup u))) v st
  := by
  obtain ⟨rfl, hdepth, hnot⟩ := hR.release hk hG hl hrel
  have hu : u ∈ s.shared.waits.queue () := by simp [hfirst]
  have hloc := loc_of_queued hk.sound hu
  have hlinked := hk.sound.linked () u hu
  have hnotu : handed u s.log = false := by
    have hplaced := hk.owned.placed u
    rcases hloc with ⟨_, h⟩ | ⟨_, h⟩
    all_goals simpa [Placed, h, hlinked] using hplaced
  have hne : u ≠ t := by
    rintro rfl
    simp [hl] at hloc
  have hunlock : st t = .asked .unlock := by simpa [Stands, hl] using hR.stands t
  obtain ⟨stage, hwait⟩ : ∃ stage, s.loc u = some (.lock (.wait stage)) := by
    rcases hloc with ⟨timed, h⟩ | ⟨err, h⟩
    · use .block timed, h
    · use .recheck err, h
  obtain ⟨abstime, hasked⟩ : ∃ abstime, st u = .asked (.lock abstime) := by
    have hstands := hR.stands u
    simp only [Stands, hwait, hnotu] at hstands
    rcases hstands with ⟨h, -⟩ | ⟨-, abstime, h, -⟩
    · cases h
    · use abstime, h
  have hrelease : (lockObject T attr).Moves (some (t, 1)) st [] none
      (Function.update st t (.answered .zero)) := Object.Moves.single hunlock Locks.unlock
  have hacquire : (lockObject T attr).Moves none (Function.update st t (.answered .zero)) []
      (some (u, 1)) (Function.update (Function.update st t (.answered .zero)) u
        (.answered .zero)) := by
    apply Object.Moves.single _ (Locks.lock abstime)
    rw [Function.update_of_ne hne, hasked]
  apply Object.Follows.goto (hrelease.trans hacquire)
  constructor
  · intro x
    have hvalue := hR.value x
    simp only [acquired, holding] at hvalue ⊢
    by_cases hx : x = u
    · subst hx
      simp only [Ne.symm hne, if_false, hnotu] at hvalue
      simp_all [depth, handed, Ne.symm hne]
    · by_cases hxt : x = t
      · subst hxt
        simp [depth, handed, hdepth, hnot, hne]
      · simp_all [depth, handed, Ne.symm hx, Ne.symm hxt]
  · simp
  · intro x
    by_cases hx : x = u
    · subst hx
      simp [Stands, hne, hwait, handed]
    · rw [Function.update_of_ne hx]
      by_cases hxt : x = t
      · subst hxt
        simp [Stands]
      · rw [Function.update_of_ne hxt]
        apply (hR.stands x).congr
        · simp [hxt]
        · simp [handed, Ne.symm hx]

/-- The lock belongs to a thread while a waiter is linked, which is not the waiter unless the
mutex is normal. -/
theorem Abstracts.foreign (hR : Abstracts s v st) (hk : Kept b attr s) {t : T} {stage : Stage}
    (hl : s.loc t = some (.lock (.wait stage))) (hstill : s.shared.waits.prevp t ≠ none)
    (hnot : handed t s.log = false) :
  ∃ h n, v = some (h, n) ∧ (normal attr ∨ h ≠ t)
  := by
  obtain ⟨q, hq⟩ := Option.ne_none_iff_exists'.mp hstill
  have hphase : (roles (fun _ => Loc.role ()) s t).phase.queue = some () := by
    simp only [roles, hl, Option.elim_some, Loc.role, LockLoc.phase, Stage.queue_phase]
  have hmem := (hk.sound.mem_of_linked hphase id hq).2
  have hheld : s.shared.obj.held = true := by
    by_contra hfree
    rw [(hk.owned.free (by simpa using hfree)).queue] at hmem
    cases hmem
  obtain ⟨h, hh⟩ := hk.owned.taken hheld
  use h, holding h s.log, hR.holder hk hh hheld
  by_cases hn : normal attr
  · left
    apply hn
  · right
    rintro rfl
    rw [← hk.attr_eq] at hn
    have htracked : s.shared.obj.tracked b = true := tracked_of_not_normal hn
    apply hk.foreign h hmem htracked (hk.owner_eq hh hheld hnot htracked)

/-- The lock refuses the requests that the mutex refuses. -/
theorem Abstracts.refused (hR : Abstracts s v st) (hk : Kept b attr s) {t : T} {c : Bool}
    {l : Loc T} {x : World (Mutex T) T Unit} {e : Errno} (hl : s.loc t = some l)
    (hrequest : l.request = true) (hheld : s.shared.obj.held = true)
    (hnot : handed t s.log = false)
    (h : (machine b).step t l c s.shared = .ret x (.error e)) :
  Locks attr t l.op v (.error e) v
  := by
  obtain ⟨u, hh⟩ := hk.owned.taken hheld
  obtain rfl := hR.holder hk hh hheld
  rcases l with (abstime | _ | _) | _ | _
  · simp only [machine, Mutex.step, Outcome.lift_eq_ret_iff, id_eq] at h
    obtain ⟨s₁, r₁, hstart, h'⟩ := h
    obtain ⟨rfl, rfl⟩ := h'
    rcases (lockStart_eq_ret hstart).2.2 with ⟨-, hr, -⟩ | ⟨-, -, -, hr, -⟩ |
      ⟨-, hattr, hown, hr, -⟩ | ⟨-, hbad, -⟩
    · cases hr
    · cases hr
    · obtain rfl : e = .EDEADLK := by simpa using hr
      have htracked : s.shared.obj.tracked b = true :=
        tracked_of_not_normal (by simp [normal, hattr])
      obtain rfl : u = t := by
        have hx := hR.holder hk (hk.owned.holder_of_owner htracked hown).2 hheld
        simpa using congrArg (Option.map Prod.fst) hx
      apply Locks.deadlock
      rw [← hk.attr_eq, hattr]
    · simp [hk.settled.valid t abstime hl] at hbad
  · cases hrequest
  · cases hrequest
  · have hcase := (trylock_eq_ret h).2.2
    obtain rfl : e = .EBUSY := by
      rcases hcase with ⟨-, hr, -⟩ | ⟨-, -, -, hr, -⟩ | ⟨-, hr, -⟩
      · cases hr
      · cases hr
      · simpa using hr
    apply Locks.busy
    rcases trylock_eq_busy h with hattr | hown
    · left
      rw [← hk.attr_eq]
      apply hattr
    · by_cases hrec : attr = some .recursive
      · right
        rintro rfl
        apply hown
        apply hk.owner_eq hh hheld hnot
        apply tracked_of_recursive
        rw [hk.attr_eq, hrec]
      · left
        apply hrec
  · cases hrequest

/-- The lock denies the unlocks that the mutex denies. -/
theorem Abstracts.denied (hR : Abstracts s v st) (hk : Kept b attr s) {t : T}
    (hnot : handed t s.log = false) (hchecked : s.shared.obj.isNormal = false)
    (hforeign : s.shared.obj.owner ≠ some t) :
  Locks attr t .unlock v (.error .EPERM) v
  := by
  have hn : ¬ normal s.shared.obj.attr := by
    rintro ⟨herr, hrec⟩
    simp only [isNormal] at hchecked
    split at hchecked
    all_goals simp_all
  apply Locks.deny
  · rw [← hk.attr_eq]
    apply hn
  · rintro n rfl
    have hpos : 0 < holding t s.log := by
      have := hR.pos t n rfl
      have := hR.value t
      simp only [acquired, if_true] at this
      omega
    have hheld := hk.held_of_holding hpos
    obtain ⟨h, hh⟩ := hk.owned.taken hheld
    obtain rfl : t = h := by
      by_contra hne
      have := hk.holding_of_other hh hne
      omega
    apply hforeign (hk.owner_eq hh hheld hnot (tracked_of_not_normal hn))

/-- A call that is enqueued, receives a message or times out has not taken effect unless the
mutex was handed over to it. -/
theorem Abstracts.enqueue (hR : Abstracts s v st) (hk : Kept b attr s) {t : T}
    {abstime : Option Timespec} {w : Waits T Unit}
    (hl : s.loc t = some (.lock (.start abstime))) :
  Abstracts (s.goto t (.lock (.start abstime)) ⟨s.shared.obj, w⟩
    (.lock (.wait (.block abstime.isSome)))) v st
  := by
  have hnot := hk.owned.not_handed hl (Or.inl rfl)
  apply hR.wait
  · simp
  · simp
  · simp_all [Stands, Stage.mayExpire, handed]

omit [Fintype T] in
theorem Abstracts.receive (hR : Abstracts s v st) {t : T} {timed : Bool} {w : Waits T Unit}
    (hl : s.loc t = some (.lock (.wait (.block timed)))) :
  Abstracts (s.goto t (.lock (.wait (.block timed))) ⟨s.shared.obj, w⟩
    (.lock (.wait (.recheck false)))) v st
  := by
  apply hR.wait
  · simp
  · simp
  · simp only [Stands, hl, State.goto_loc, Function.update_self, State.goto_log, handed]
    simp only [reduceCtorEq, decide_false, Bool.false_or, Stage.mayExpire]
    rintro (h | ⟨hnot, abstime, h, -⟩)
    · left
      apply h
    · right
      use hnot, abstime, h
      simp

omit [Fintype T] in
theorem Abstracts.timeout (hR : Abstracts s v st) {t : T}
    (hl : s.loc t = some (.lock (.wait (.block true)))) :
  Abstracts (s.goto t (.lock (.wait (.block true))) s.shared (.lock (.wait (.recheck true)))) v st
  := by
  apply hR.wait
  · simp
  · simp
  · simp [Stands, hl, handed, Stage.mayExpire]

/-- The mutex was handed over to a waiter that is no longer linked, so that its call has taken
effect. -/
theorem Abstracts.woken (hR : Abstracts s v st) (hk : Kept b attr s) {t : T}
    (hl : s.loc t = some (.lock (.wait (.recheck false))))
    (hgone : s.shared.waits.prevp t = none) :
  Abstracts (s.goto t (.lock (.wait (.recheck false))) s.shared (.lock (.finish false))) v st
  := by
  have hplaced := hk.owned.placed t
  apply hR.wait
  · simp
  · simp
  · simp_all [Stands, Placed]

/-- A time-out takes effect when the waiter removes itself from the queue: the lock belongs to
another thread then. -/
theorem Abstracts.leave (hR : Abstracts s v st) (hk : Kept b attr s) {t : T} {w : Waits T Unit}
    (hl : s.loc t = some (.lock (.wait (.recheck true))))
    (hstill : s.shared.waits.prevp t ≠ none) :
  (lockObject T attr).Follows Loc.op Abstracts s (s.goto t (.lock (.wait (.recheck true)))
    ⟨s.shared.obj, w⟩ (.lock (.finish true))) v st
  := by
  have hstands := hR.stands t
  have hplaced := hk.owned.placed t
  have hnot : handed t s.log = false := by
    simpa [Placed, hl, hstill] using hplaced
  obtain ⟨abstime, hasked⟩ : ∃ abstime, st t = .asked (.lock (some abstime)) := by
    simp only [Stands, hl, hnot, Stage.mayExpire] at hstands
    rcases hstands with ⟨h, -⟩ | ⟨-, abstime, h, htimed⟩
    · cases h
    · obtain ⟨abstime, rfl⟩ := Option.isSome_iff_exists.mp (htimed trivial)
      use abstime, h
  obtain ⟨h, n, rfl, hforeign⟩ := hR.foreign hk hl hstill hnot
  apply Object.Follows.goto (Object.Moves.single hasked (Locks.expire abstime h n hforeign))
  apply hR.quiet (Quiet.goto (by simp) (by simp))
  · intro u hu
    simp [hu]
  · simp [Stands]

/-- A request that finds the mutex free takes effect at once. -/
theorem Abstracts.grant (hR : Abstracts s v st) (hk : Kept b attr s) {t : T} {l : Loc T}
    {x : World (Mutex T) T Unit} (hl : s.loc t = some l) (hrequest : l.request = true)
    (hfree : s.shared.obj.held = false) :
  (lockObject T attr).Follows Loc.op Abstracts s (s.ret t l x .zero) v st
  := by
  obtain rfl := hR.free hk hfree
  apply Object.Follows.finish ((hR.stands t).request hl hrequest) (Locks.grant hrequest)
  have hzero : holding t s.log = 0 := hR.value t
  apply hR.ret
  · apply hR.value_ret (Or.inl rfl) (Or.inr ⟨1, rfl⟩)
    rw [holding, depth_grant (Or.inl hrequest)]
    simp_all [acquired, handed, holding]
  · simp

/-- A request of the owner of a recursive mutex takes effect at once. -/
theorem Abstracts.again (hR : Abstracts s v st) (hk : Kept b attr s) {t : T} {l : Loc T}
    {x : World (Mutex T) T Unit} (hl : s.loc t = some l) (hrequest : l.request = true)
    (hheld : s.shared.obj.held = true) (hrec : s.shared.obj.attr = some .recursive)
    (hown : s.shared.obj.owner = some t) :
  (lockObject T attr).Follows Loc.op Abstracts s (s.ret t l x .zero) v st
  := by
  obtain ⟨-, hh⟩ := hk.owned.holder_of_owner (tracked_of_recursive hrec) hown
  obtain rfl := hR.holder hk hh hheld
  have hnot := hk.owned.not_handed hl (Or.inl hrequest)
  apply Object.Follows.finish ((hR.stands t).request hl hrequest)
    (Locks.again hrequest (hk.attr_eq ▸ hrec))
  apply hR.ret
  · apply hR.value_ret (Or.inr ⟨_, rfl⟩) (Or.inr ⟨_, rfl⟩)
    rw [holding, depth_grant (Or.inl hrequest)]
    simp [acquired, handed, holding, hnot]
  · simp

/-- The call of a waiter to which the mutex was handed over returns. -/
theorem Abstracts.settle (hR : Abstracts s v st) (hk : Kept b attr s) {t : T}
    {x : World (Mutex T) T Unit} (hl : s.loc t = some (.lock (.finish false))) :
  (lockObject T attr).Follows Loc.op Abstracts s (s.ret t (.lock (.finish false)) x .zero) v st
  := by
  have hstands := hR.stands t
  have hplaced := hk.owned.placed t
  have hchosen : handed t s.log = true := by
    simpa [Placed, hl] using hplaced
  obtain ⟨hheld, hh⟩ := hk.owned.holder_of_handed hchosen
  obtain rfl := hR.holder hk hh hheld
  apply Object.Follows.ret
  · simpa [Stands, hl] using hstands
  · apply hR.ret
    · apply hR.value_ret (Or.inr ⟨_, rfl⟩) (Or.inr ⟨_, rfl⟩)
      rw [holding, depth_grant (Or.inr ⟨_, rfl⟩)]
      simp [acquired, handed, holding, hchosen]
    · apply hR.pos

/-- An unlock that is not the last one of the owner of a recursive mutex. -/
theorem Abstracts.inner (hR : Abstracts s v st) (hk : Kept b attr s) {t : T} {c : Bool}
    {x : World (Mutex T) T Unit} (hG : Disciplined s (.act t c))
    (hl : s.loc t = some (.unlock .start)) (hrec : s.shared.obj.attr = some .recursive)
    (hown : s.shared.obj.owner = some t) (hmore : 0 < decLocks s.shared.obj.locks) :
  (lockObject T attr).Follows Loc.op Abstracts s (s.ret t (.unlock .start) x .zero) v st
  := by
  have hnot := hk.owned.not_handed hl (Or.inr ⟨_, rfl⟩)
  have hunlock : st t = .asked .unlock := by simpa [Stands, hl] using hR.stands t
  obtain ⟨hheld, hh⟩ := hk.owned.holder_of_owner (tracked_of_recursive hrec) hown
  have hlocks := (hh.kept hnot).1 hrec
  have hattr : attr = some .recursive := hk.attr_eq ▸ hrec
  have hlt := hk.depth_lt hattr t
  obtain ⟨n, hn⟩ : ∃ n, depth t s.log = n + 2 := by
    use depth t s.log - 2
    rw [decLocks] at hmore
    have hpos := (hG.2 hrec hown).1 hl
    omega
  obtain rfl : v = some (t, n + 2) := by
    rw [hR.holder hk hh hheld, holding, hnot, hn]
    rfl
  apply Object.Follows.finish hunlock (Locks.inner n hattr)
  apply hR.ret
  · apply hR.value_ret (Or.inr ⟨_, rfl⟩) (Or.inr ⟨_, rfl⟩)
    simp [holding, depth, handed, hn, acquired]
  · simp

/-- Every step of the mutex is followed by the lock. -/
theorem Abstracts.step (hR : Abstracts s v st) (hk : Kept b attr s) (hG : Regular s a)
    (hstep : (machine b).Step s a s') :
  (lockObject T attr).Follows Loc.op Abstracts s s' v st
  := by
  have hstands := hR.stands a.thread
  have heffect := effect_of_step hk.sound hstep
  cases heffect with
  | @call t l hidle hentry =>
      apply Object.Follows.call
      · simpa [Stands, hidle] using hstands
      · apply hR.quiet Quiet.call
        · intro u hu
          simp [hu]
        · rcases l with (_ | _ | _) | _ | (_ | _)
          all_goals simp_all [Stands, machine, Loc.entry, Loc.op]
  | enqueue hl => apply Object.Follows.goto Object.Moves.refl (hR.enqueue hk hl)
  | receive hl => apply Object.Follows.goto Object.Moves.refl (hR.receive hl)
  | timeout hl => apply Object.Follows.goto Object.Moves.refl (hR.timeout hl)
  | @late t c hl hgone => apply absurd hgone (hk.settled.expired t hl)
  | woken hl hgone => apply Object.Follows.goto Object.Moves.refl (hR.woken hk hl hgone)
  | @leave t c err hl hstill =>
      cases err with
      | false =>
          -- a waiter that has received its message is no longer linked
          apply absurd _ hstill
          apply hk.sound.gone_of_received (q := ())
          simp [roles, hl, Loc.role, LockLoc.phase, Stage.phase]
      | true => apply hR.leave hk hl hstill
  | @drain t c hl => apply absurd hl (hk.settled.drained t)
  | grant hl hrequest hfree => apply hR.grant hk hl hrequest hfree
  | again hl hrequest hheld hrec hown => apply hR.again hk hl hrequest hheld hrec hown
  | @refuse t c l lock e hl hrequest hheld hreleased =>
      have hnot := hk.owned.not_handed hl (Or.inl hrequest)
      apply Object.Follows.finish (hstands.request hl hrequest)
      · apply hR.refused hk hl hrequest hheld hnot (hstep.ret_inv hl)
      · apply hR.ret_quiet hnot
        simp
  | @expire t c hl =>
      have hnot := hk.settled.timedOut t hl
      apply Object.Follows.ret
      · simpa [Stands, hl] using hstands
      · apply hR.ret_quiet hnot
        simp
  | settle hl => apply hR.settle hk hl
  | @deny t c hl hchecked hforeign =>
      have hnot := hk.owned.not_handed hl (Or.inr ⟨_, rfl⟩)
      have hunlock : st t = .asked .unlock := by simpa [Stands, hl] using hstands
      apply Object.Follows.finish hunlock (hR.denied hk hnot hchecked hforeign)
      apply hR.ret_quiet hnot
      simp
  | inner hl hrec hown hmore => apply hR.inner hk hG.2.1 hl hrec hown hmore
  | @release t c mx hl halone hfree hrel =>
      have hunlock : st t = .asked .unlock := by simpa [Stands, hl] using hstands
      obtain ⟨rfl, hdepth, hnot⟩ := hR.release hk hG.2.1 hl hrel
      apply Object.Follows.finish hunlock Locks.unlock
      apply hR.ret
      · apply hR.value_ret (Or.inr ⟨1, rfl⟩) (Or.inl rfl)
        simp [holding, depth, handed, hdepth, acquired]
      · simp
  | handOver hl hfirst hmx hrel => apply hR.handOver hk hG.2.1 hl hfirst hrel
  | @wakeup t u c hl =>
      apply Object.Follows.ret
      · simpa [Stands, hl] using hstands
      · apply hR.ret_quiet (hk.owned.not_handed hl (Or.inr ⟨_, rfl⟩))
        simp

/-- A mutex is linearizable, for any number of threads and each type of mutex: in every regular
run the calls look as though they had been carried out on a lock one at a time, each at a moment
between its start and its return. The lock is free exactly when `__held` is not set. -/
theorem linearizable_lock
    (hs : (machine b).Reach Regular (State.idle ⟨Mutex.init attr, Waits.empty⟩) s) :
  ∃ v st, (lockObject T attr).Moves none (fun _ => .outside) (history Loc.op s.log) v st ∧
    (v = none ↔ s.shared.obj.held = false) ∧ ∀ t, Stands s t (st t)
  := by
  obtain ⟨v, st, hm, hR⟩ := Object.simulated (O := lockObject T attr) Loc.op Abstracts hs rfl (by
    constructor
    · simp [holding, depth, handed, lockObject, acquired]
    · simp [lockObject]
    · simp [Stands]) (by
    intro s a s' v st hreach hR hG hstep
    apply hR.step (kept_of_reach hreach) hG hstep)
  use v, st, hm
  constructor
  · constructor
    · rintro rfl
      by_contra hheld
      obtain ⟨h, hh⟩ := (kept_of_reach hs).owned.taken (by simpa using hheld)
      have hv := hR.holder (kept_of_reach hs) hh (by simpa using hheld)
      cases hv
    · apply hR.free (kept_of_reach hs)
  · apply hR.stands

end Simulation

/-- The unlock of thread `0` and the lock of thread `1` overlap, and both have returned. -/
theorem linearizable_lock_handOverRun :
  ∃ s, (machine Build.debug).Reach Regular
      (State.idle ⟨Mutex.init (some .errorcheck), Waits.empty⟩) s ∧
    history Loc.op s.log = [.ret (1 : Fin 2) .zero, .ret 0 .zero, .call 0 .unlock,
      .call 1 (.lock none), .ret 0 .zero, .call 0 (.lock none)] ∧
    ∃ v st, (lockObject (Fin 2) (some .errorcheck)).Moves none (fun _ => .outside)
        (history Loc.op s.log) v st ∧
      (v = none ↔ s.shared.obj.held = false) ∧ ∀ t, Stands s t (st t)
  := by
  obtain ⟨s, hs, hp⟩ := Machine.exists_reach_of_run (M := machine Build.debug) (G := Regular)
    (s := State.idle ⟨Mutex.init (some .errorcheck), Waits.empty⟩)
    (handOverRun (0 : Fin 2) 1
      ++ [.act 0 false, .act 1 false, .act 1 false, .act 1 false])
    (fun s => history Loc.op s.log = [.ret (1 : Fin 2) .zero, .ret 0 .zero, .call 0 .unlock,
      .call 1 (.lock none), .ret 0 .zero, .call 0 (.lock none)]) (by decide +kernel)
  simp only [decide_eq_true_eq] at hp
  exact ⟨s, hs, hp, linearizable_lock hs⟩

end Mutex

end LibPthread
