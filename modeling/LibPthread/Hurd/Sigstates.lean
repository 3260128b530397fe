import LibPthread.Hurd.Steps

/-!
# Sigstates and suspensions

The invariant of the system: the hook of a thread is installed exactly while the thread is
between its enqueue and its last section, a thread is suspended as often as it is being
cancelled, and a request to cancel a thread is in its sigstate, or in a variable of its call,
until the last section of a call. So the hook of a thread runs only while the thread is suspended
inside its call.
-/

open Concurrency

namespace LibPthread

namespace Hurd

open Shared

/-- The hook is installed. -/
def WaitLoc.hooked {T : Type} : WaitLoc T → Bool
  | .unlockMutex _ _ => true
  | .block _ => true
  | .blocked _ => true
  | .recheck _ => true
  | .drain => true
  | .final cancel _ => !cancel
  | _ => false

/-- The thread was cancelled on entry, and its last section is still to come. -/
def WaitLoc.early {T : Type} : WaitLoc T → Bool
  | .cancelled => true
  | .final cancel _ => cancel
  | _ => false

/-- The target is suspended by this call. -/
def CancelLoc.suspends {N : Type} : CancelLoc N → Bool
  | .lock => false
  | .suspend => false
  | _ => true

namespace Loc

variable {T N : Type}

/-- The condition variable of the hook that the thread has installed. -/
def hooked : Loc T N → Option N
  | .wait c _ k => if k.hooked then some c else none
  | _ => none

/-- The thread was cancelled on entry to a wait, and its last section is still to come. -/
def early : Loc T N → Bool
  | .wait _ _ k => k.early
  | _ => false

variable [DecidableEq T]

/-- How often the thread suspends `t`. -/
def suspends (t : T) : Loc T N → Nat
  | .cancel target k => if target = t ∧ k.suspends = true then 1 else 0
  | _ => 0

/-- A step of `u` from the control point sets `ss->cancel` of `t`, or it is the last section of
`t` in a wait; otherwise nothing changes. -/
def record (u t : T) : Loc T N → Bool → Bool
  | .cancel target .mark, was => target = t || was
  | .wait _ _ (.final _ _), was => u ≠ t && was
  | _, was => was

end Loc

variable {T N : Type} [DecidableEq T] [DecidableEq N]

/-- `ss->cancel` of `t` has been set since the last section of its last wait. -/
def requested (t : T) : List (Event T (Loc T N) Answer) → Bool
  | [] => false
  | .call _ _ :: log => requested t log
  | .goto u l _ :: log => l.record u t (requested t log)
  | .ret _ _ _ :: log => requested t log

/-! ### The effects of the steps -/

section Effects

variable {b : Build} {self t target : T} {s s' : Shared T N} {l l' : Loc T N}
    {k k' : CancelLoc N} {r : Answer}

/-- What a step of `u` inside `hurd_thread_cancel` changes. -/
theorem cancelStep_effect (h : CancelStep target s k s' k') (u t : T) :
  (s'.obj.ss t).hook = (s.obj.ss t).hook ∧
    (s'.obj.ss t).cancel =
      (Loc.cancel target k).record u t (s.obj.ss t).cancel ∧
    s'.obj.suspended t + (Loc.cancel (N := N) target k).suspends t =
      s.obj.suspended t + (Loc.cancel (N := N) target k').suspends t ∧
    ∀ c, k' = .hook c → (s.obj.ss target).hook = some c
  := by
  by_cases ht : t = target
  · subst ht
    cases h with
    | hooked installed => simp [Loc.record, Loc.suspends, CancelLoc.suspends, installed]
    | _ => simp [Loc.record, Loc.suspends, CancelLoc.suspends]
  · cases h with
    | hooked installed => simp [Loc.record, Loc.suspends, CancelLoc.suspends, installed]
    | _ => simp [Loc.record, Loc.suspends, CancelLoc.suspends, ht, Ne.symm ht]

omit [DecidableEq T] [DecidableEq N] in
/-- A thread that waits has its hook installed. -/
theorem hooked_of_stage {k : WaitLoc T} {stage : Stage} (hk : k.stage = some stage) :
  k.hooked = true ∧ k.early = false
  := by
  cases k <;> cases hk <;> exact ⟨rfl, rfl⟩

omit [DecidableEq T] [DecidableEq N] in
theorem hooked_ofStage (stage : Stage) :
  (WaitLoc.ofStage (T := T) stage).hooked = true ∧
    (WaitLoc.ofStage (T := T) stage).early = false
  := by
  cases stage <;> exact ⟨rfl, rfl⟩

omit [DecidableEq N] in
theorem record_of_stage {c m : N} {k : WaitLoc T} {stage : Stage} (hk : k.stage = some stage)
    (t : T) (was : Bool) :
  (Loc.wait c m k).record self t was = was
  := by
  cases k <;> cases hk <;> rfl

/-- What a step inside a wait makes of the sigstate of its thread. -/
theorem waitStep_effect {c m : N} {k k' : WaitLoc T} (h : WaitStep b c m self s k s' k') :
  ((s.obj.ss self).hook = (Loc.wait c m k).hooked →
      (s'.obj.ss self).hook = (Loc.wait c m k').hooked) ∧
    ((s'.obj.ss self).cancel || k'.early) =
      (Loc.wait c m k).record self self ((s.obj.ss self).cancel || k.early) ∧
    ∀ t, t ≠ self → s'.obj.ss t = s.obj.ss t
  := by
  cases h with
  | start valid => exact ⟨id, rfl, fun _ _ => rfl⟩
  | enter free =>
      refine ⟨?_, ?_, fun t ht => by simp [ht]⟩
      · simp [Loc.hooked, WaitLoc.hooked]
      · simp [Loc.record, WaitLoc.early]
  | cancelled set =>
      refine ⟨?_, ?_, fun t ht => by simp [ht]⟩
      · simp [Loc.hooked, WaitLoc.hooked]
      · simp [Loc.record, WaitLoc.early, set]
  | enqueue clear =>
      refine ⟨?_, ?_, fun t ht => by simp [ht]⟩
      · simp [Loc.hooked, WaitLoc.hooked]
      · simp [Loc.record, WaitLoc.early, clear]
  | relock free =>
      refine ⟨?_, ?_, fun t ht => by simp [ht]⟩
      · simp [Loc.hooked, WaitLoc.hooked]
      · simp [Loc.record, WaitLoc.early]
  | unlocking step => exact ⟨id, rfl, fun _ _ => rfl⟩
  | unlocked step => exact ⟨id, rfl, fun _ _ => rfl⟩
  | @waiting k stage stage' timeout w waits step =>
      obtain ⟨hhooked, hearly⟩ := hooked_of_stage waits
      obtain ⟨hhooked', hearly'⟩ := hooked_ofStage (T := T) stage'
      refine ⟨?_, ?_, fun _ _ => rfl⟩
      · simp [Loc.hooked, hhooked, hhooked']
      · rw [record_of_stage waits, hearly, hearly']
  | @waited k stage timeout err w waits step =>
      obtain ⟨hhooked, hearly⟩ := hooked_of_stage waits
      refine ⟨?_, ?_, fun _ _ => rfl⟩
      · intro hhook
        rw [hhook, Loc.hooked, if_pos hhooked]
        rfl
      · rw [record_of_stage waits, hearly]
        rfl
  | blocked free =>
      refine ⟨?_, ?_, fun t ht => by simp [ht]⟩
      · simp [Loc.hooked, WaitLoc.hooked]
      · simp [Loc.record, WaitLoc.early]
  | leave =>
      refine ⟨?_, ?_, fun t ht => by simp [ht]⟩
      · simp [Loc.hooked, WaitLoc.hooked]
      · simp [Loc.record, WaitLoc.early]
  | final =>
      refine ⟨?_, ?_, fun t ht => by simp [ht]⟩
      · simp [Loc.hooked, WaitLoc.hooked]
      · simp [Loc.record, WaitLoc.early]
  | relocking step => exact ⟨id, rfl, fun _ _ => rfl⟩

theorem waitStep_suspended {c m : N} {k k' : WaitLoc T} (h : WaitStep b c m self s k s' k') :
  s'.obj.suspended = s.obj.suspended
  := by
  cases h <;> rfl

/-- What a step of `u` makes of the sigstates and the suspend counts. -/
structure Effect (u : T) (s s' : Shared T N) (l l' : Loc T N) : Prop where
  hook_self : (s.obj.ss u).hook = l.hooked → (s'.obj.ss u).hook = l'.hooked
  hook_other : ∀ t, t ≠ u → (s'.obj.ss t).hook = (s.obj.ss t).hook
  cancel_self : ((s'.obj.ss u).cancel || l'.early) =
    l.record u u ((s.obj.ss u).cancel || l.early)
  cancel_other : ∀ t, t ≠ u → (s'.obj.ss t).cancel = l.record u t (s.obj.ss t).cancel
  suspended : ∀ t, s'.obj.suspended t + l.suspends t = s.obj.suspended t + l'.suspends t
  running : ∀ t c, l' = .cancel t (.hook c) → (s.obj.ss t).hook = some c

theorem inside_effect (hport : ∀ u ∈ l.role.owes, s.waits.port u = 0)
    (h : Inside b self s l s' l') :
  Effect self s s' l l'
  := by
  cases h with
  | mutex step => exact ⟨id, fun _ _ => rfl, rfl, fun _ _ => rfl, fun _ => rfl, by simp⟩
  | signal step => exact ⟨id, fun _ _ => rfl, rfl, fun _ _ => rfl, fun _ => rfl, by simp⟩
  | broadcast step => exact ⟨id, fun _ _ => rfl, rfl, fun _ _ => rfl, fun _ => rfl, by simp⟩
  | @wait c m k k' s' step =>
      obtain ⟨hhook, hcancel, hother⟩ := waitStep_effect step
      constructor
      · exact hhook
      · intro t ht
        rw [hother t ht]
      · exact hcancel
      · intro t ht
        rw [hother t ht]
        cases k <;> simp [Loc.record, Ne.symm ht]
      · intro t
        rw [waitStep_suspended step]
        rfl
      · simp
  | @cancel target k k' s' step =>
      have heffect := cancelStep_effect (cancelStep_eq_goto hport step) self
      constructor
      · intro hhook
        rw [(heffect self).1, hhook]
        rfl
      · intro t ht
        rw [(heffect t).1]
      · have hcancel := (heffect self).2.1
        simpa [Loc.early] using hcancel
      · intro t ht
        exact (heffect t).2.1
      · intro t
        exact (heffect t).2.2.1
      · intro t c hl
        cases hl
        exact (heffect target).2.2.2 c rfl

/-- What a step in which a call returns makes of the sigstates and the suspend counts. -/
theorem returns_effect (hport : ∀ u ∈ l.role.owes, s.waits.port u = 0)
    (h : Returns b self s l s' r) :
  s'.obj.ss = s.obj.ss ∧ l.hooked = none ∧ l.early = false ∧
    ∀ t, s'.obj.suspended t = s.obj.suspended t - l.suspends t
  := by
  cases h with
  | mutex step => exact ⟨rfl, rfl, rfl, fun _ => rfl⟩
  | signal step => exact ⟨rfl, rfl, rfl, fun _ => rfl⟩
  | broadcast step => exact ⟨rfl, rfl, rfl, fun _ => rfl⟩
  | wait step =>
      rcases timedwaitStep_eq_ret step with ⟨abstime, rfl, -, rfl, -⟩ | ⟨rfl, rfl, -⟩ |
        ⟨cancel, err, k, x, r', rfl, hlock, rfl, -⟩
      · exact ⟨rfl, rfl, rfl, fun _ => rfl⟩
      · exact ⟨rfl, rfl, rfl, fun _ => rfl⟩
      · exact ⟨rfl, rfl, rfl, fun _ => rfl⟩
  | cancel step =>
      obtain ⟨rfl, rfl, -⟩ := cancelStep_eq_ret hport step
      refine ⟨rfl, rfl, rfl, fun t => ?_⟩
      simp only [setSuspended_obj_suspended, Function.update_apply, Loc.suspends]
      split
      · rename_i ht
        simp [ht, CancelLoc.suspends]
      · rename_i ht
        simp [Ne.symm ht]

end Effects

/-! ### The invariant -/

/-- The control points of a thread whose hook is running. -/
def Hooking (s : Sys T N) (t : T) (c : N) : Prop :=
  ∃ u, s.loc u = some (.cancel t (.hook c))

/-- How often `u` suspends `t`. -/
def suspends (s : Sys T N) (t u : T) : Nat :=
  (s.loc u).elim 0 (Loc.suspends t)

/-- The invariant. -/
structure Inv [Fintype T] (s : Sys T N) : Prop where
  sound : Sound bar (roles (fun _ => Loc.role) s) s.shared.waits
  hook : ∀ t, (s.shared.obj.ss t).hook = (s.loc t).bind Loc.hooked
  suspended : ∀ t, s.shared.obj.suspended t = ∑ u, suspends s t u
  running : ∀ t c, Hooking s t c → (s.shared.obj.ss t).hook = some c
  requested : ∀ t, requested t s.log =
    ((s.shared.obj.ss t).cancel || (s.loc t).any Loc.early)

section Invariant

variable [Fintype T] {b : Build} {s s' : Sys T N} {a : Label T (Loc T N)} {t : T} {c : N}

omit [DecidableEq N] in
/-- A thread whose hook is running is suspended. -/
theorem Inv.suspended_of_hooking (h : Inv s) (hhook : Hooking s t c) :
  0 < s.shared.obj.suspended t
  := by
  obtain ⟨u, hu⟩ := hhook
  have hone : suspends s t u = 1 := by
    rw [suspends, hu, Option.elim_some, Loc.suspends, if_pos ⟨rfl, rfl⟩]
  have hle := Finset.single_le_sum (f := suspends s t) (fun _ _ => Nat.zero_le _)
    (Finset.mem_univ u)
  rw [h.suspended]
  omega

omit [Fintype T] [DecidableEq T] [DecidableEq N] in
/-- A thread whose hook is installed waits on its condition variable. -/
theorem role_of_hooked {l : Loc T N} {q : Queue N} (h : l.hooked = some c)
    (hq : l.role.phase.queue = some q) :
  q = .cond c
  := by
  cases l with
  | wait c' m k =>
      rw [Loc.hooked] at h
      split at h
      · cases h
        cases k with
        | final cancel err => cases hq
        | unlockMutex timed k => exact (Option.some.inj hq).symm
        | block timed => exact (Option.some.inj hq).symm
        | blocked err => exact (Option.some.inj hq).symm
        | recheck err => exact (Option.some.inj hq).symm
        | drain => exact (Option.some.inj hq).symm
        | _ => rename_i hhooked; cases hhooked
      · cases h
  | _ => cases h

omit [Fintype T] [DecidableEq T] [DecidableEq N] in
theorem role_walk (l : Loc T N) :
  l.role.walk = []
  := by
  cases l with
  | mutex n k => cases k <;> rfl
  | wait c m k => cases k <;> rfl
  | cancel target k => cases k <;> rfl
  | _ => rfl

omit [DecidableEq N] in
/-- A thread that is linked is on the queue that its link names. -/
theorem Inv.queued_of_linked (h : Inv s) {q : Queue N} (hq : s.shared.waits.prevp t = some q) :
  t ∈ s.shared.waits.queue q
  := by
  by_contra hnot
  obtain ⟨u, hu⟩ := h.sound.stray q t hq hnot
  rw [roles] at hu
  cases hl : s.loc u with
  | none =>
      rw [hl] at hu
      cases hu
  | some l =>
      rw [hl, Option.elim_some, role_walk] at hu
      cases hu

omit [DecidableEq N] in
theorem Inv.init (attr : N → Option MutexType) :
  Inv (start (T := T) attr)
  := by
  constructor
  · exact Sound.init bar
  · intro t
    rfl
  · intro t
    simp [start, Task.init, suspends]
  · rintro t c ⟨u, hu⟩
    cases hu
  · intro t
    rfl

omit [Fintype T] [DecidableEq N] in
theorem hooking_before {u : T} {o : Option (Loc T N)} (hloc : s'.loc = Function.update s.loc u o)
    (hhook : Hooking s' t c) :
  o = some (.cancel t (.hook c)) ∨ Hooking s t c
  := by
  obtain ⟨v, hv⟩ := hhook
  rw [hloc, Function.update_apply] at hv
  split at hv
  · exact .inl hv
  · exact .inr ⟨v, hv⟩

omit [Fintype T] [DecidableEq N] in
/-- What the first control point of a call says about the sigstates. -/
theorem Loc.entry_effect {l : Loc T N} (hl : l.entry = true) :
  l.role = .idle ∧ l.hooked = none ∧ l.early = false ∧ (∀ t, l.suspends t = 0) ∧
    ∀ t c, l ≠ .cancel t (.hook c)
  := by
  cases l with
  | mutex n k => exact ⟨Mutex.Loc.role_of_entry hl, rfl, rfl, fun _ => rfl, by simp⟩
  | wait c m k =>
      cases k with
      | start abstime => exact ⟨rfl, rfl, rfl, fun _ => rfl, by simp⟩
      | _ => cases hl
  | signal c k =>
      obtain rfl : k = .start := by simpa [Loc.entry] using hl
      exact ⟨rfl, rfl, rfl, fun _ => rfl, by simp⟩
  | broadcast c k =>
      obtain rfl : k = .start := by simpa [Loc.entry] using hl
      exact ⟨rfl, rfl, rfl, fun _ => rfl, by simp⟩
  | cancel target k =>
      cases k with
      | lock => exact ⟨rfl, rfl, rfl, fun _ => by simp [Loc.suspends, CancelLoc.suspends], by simp⟩
      | _ => cases hl

/-- A thread starts a call. -/
theorem Inv.call (h : Inv s) {l : Loc T N} (hidle : s.loc t = none) (hl : l.entry = true) :
  Inv (s.call t l)
  := by
  obtain ⟨hrole, hhooked, hearly, hsuspends, hhook⟩ := Loc.entry_effect hl
  constructor
  · apply h.sound.step (t := t) (o := some l) rfl
    have hidle' : roles (fun _ => Loc.role) s t = .idle := by rw [roles, hidle, Option.elim_none]
    rw [hidle', Option.elim_some, hrole]
    exact (Act.skip : Act bar (fun _ : Queue N => True) t _ _ _ _)
  · intro u
    rw [State.call_shared, h.hook, State.call_loc, Function.update_apply]
    split
    · rename_i hu
      rw [hu, hidle, Option.bind_some, hhooked]
      rfl
    · rfl
  · intro u
    rw [State.call_shared, h.suspended]
    apply Finset.sum_congr rfl
    intro v _
    rw [suspends, suspends, State.call_loc, Function.update_apply]
    split
    · rename_i hv
      rw [hv, hidle, Option.elim_some, hsuspends]
      rfl
    · rfl
  · intro u c hrunning
    rcases hooking_before rfl hrunning with heq | hrunning
    · exact absurd (Option.some.inj heq) (hhook u c)
    · exact h.running u c hrunning
  · intro u
    rw [State.call_log, Hurd.requested, h.requested, State.call_loc, Function.update_apply]
    split
    · rename_i hu
      rw [hu, hidle, Option.any_some, hearly]
      rfl
    · rfl

omit [DecidableEq N] in
/-- The ports of the threads to which a thread owes a message are empty. -/
theorem Inv.port (h : Inv s) {u : T} {l : Loc T N} (hl : s.loc u = some l) :
  ∀ v ∈ l.role.owes, s.shared.waits.port v = 0
  := by
  intro v hv
  apply h.sound.port_of_owes (t := u)
  rw [roles, hl, Option.elim_some]
  exact hv

omit [Fintype T] [DecidableEq N] in
/-- A step of another thread adds a request. -/
theorem record_or {u : T} (hu : u ≠ t) (l : Loc T N) (x y : Bool) :
  l.record u t (x || y) = (l.record u t x || y)
  := by
  cases l with
  | wait c m k => cases k <;> simp [Loc.record, hu]
  | cancel target k =>
      cases k with
      | mark => simp [Loc.record, Bool.or_assoc]
      | _ => rfl
  | _ => rfl

/-- A thread takes a step inside a call. -/
theorem Inv.goto (h : Inv s) {u : T} {l l' : Loc T N} {x : Shared T N}
    (hl : s.loc u = some l) (hrun : s.shared.obj.suspended u = 0)
    (hstep : Inside b u s.shared l x l') :
  Inv (s.goto u l x l')
  := by
  have heffect := inside_effect (h.port hl) hstep
  have hrole : roles (fun _ => Loc.role) s u = l.role := by rw [roles, hl, Option.elim_some]
  have hstopped : ∀ c, ¬ Hooking s u c := by
    intro c hhook
    have hpos := h.suspended_of_hooking hhook
    omega
  constructor
  · apply h.sound.step (t := u) (o := some l') rfl
    rw [hrole]
    apply inside_act (h.port hl) _ hstep
    rintro target c rfl q hq
    exact h.queued_of_linked hq
  · intro t
    rw [State.goto_shared, State.goto_loc]
    by_cases ht : t = u
    · subst ht
      have hhook := h.hook t
      rw [hl, Option.bind_some] at hhook
      rw [heffect.hook_self hhook, Function.update_self, Option.bind_some]
    · rw [heffect.hook_other t ht, h.hook, Function.update_of_ne ht]
  · intro t
    have hother : ∀ v, v ≠ u → suspends (s.goto u l x l') t v = suspends s t v := by
      intro v hv
      rw [suspends, suspends, State.goto_loc, Function.update_of_ne hv]
    have hsum := sum_change hother
    have hold : suspends s t u = l.suspends t := by rw [suspends, hl, Option.elim_some]
    have hnew : suspends (s.goto u l x l') t u = l'.suspends t := by
      rw [suspends, State.goto_loc, Function.update_self, Option.elim_some]
    have hcount := heffect.suspended t
    rw [h.suspended] at hcount
    rw [State.goto_shared]
    omega
  · intro t c hrunning
    rw [State.goto_shared]
    rcases hooking_before rfl hrunning with heq | hbefore
    · have hhook := heffect.running t c (Option.some.inj heq)
      by_cases ht : t = u
      · subst ht
        rw [h.hook, hl, Option.bind_some] at hhook
        rw [heffect.hook_self (by rw [h.hook, hl, Option.bind_some]), Option.some.inj heq]
        cases hstep <;> cases heq
        cases hhook
      · rw [heffect.hook_other t ht, hhook]
    · have ht : t ≠ u := by
        rintro rfl
        exact hstopped c hbefore
      rw [heffect.hook_other t ht, h.running t c hbefore]
  · intro t
    rw [State.goto_log, Hurd.requested, h.requested, State.goto_loc]
    by_cases ht : t = u
    · subst ht
      rw [hl, Option.any_some, Function.update_self, Option.any_some, ← heffect.cancel_self]
      rfl
    · rw [Function.update_of_ne ht, record_or (Ne.symm ht), ← heffect.cancel_other t ht]
      rfl

/-- A call returns. -/
theorem Inv.ret (h : Inv s) {u : T} {l : Loc T N} {x : Shared T N} {r : Answer}
    (hl : s.loc u = some l) (hstep : Returns b u s.shared l x r) :
  Inv (s.ret u l x r)
  := by
  obtain ⟨hss, hhooked, hearly, hsuspended⟩ := returns_effect (h.port hl) hstep
  have hrole : roles (fun _ => Loc.role) s u = l.role := by rw [roles, hl, Option.elim_some]
  constructor
  · apply h.sound.step (t := u) (o := none) rfl
    rw [hrole]
    exact returns_act (h.port hl) hstep
  · intro t
    rw [State.ret_shared, hss, h.hook, State.ret_loc, Function.update_apply]
    split
    · rename_i ht
      rw [ht, hl, Option.bind_some, hhooked]
      rfl
    · rfl
  · intro t
    have hother : ∀ v, v ≠ u → suspends (s.ret u l x r) t v = suspends s t v := by
      intro v hv
      rw [suspends, suspends, State.ret_loc, Function.update_of_ne hv]
    have hsum := sum_change hother
    have hold : suspends s t u = l.suspends t := by rw [suspends, hl, Option.elim_some]
    have hnew : suspends (s.ret u l x r) t u = 0 := by
      rw [suspends, State.ret_loc, Function.update_self, Option.elim_none]
    rw [State.ret_shared, hsuspended, h.suspended]
    omega
  · intro t c hrunning
    rw [State.ret_shared, hss]
    rcases hooking_before rfl hrunning with heq | hrunning
    · cases heq
    · exact h.running t c hrunning
  · intro t
    rw [State.ret_log, Hurd.requested, h.requested, State.ret_shared, hss, State.ret_loc,
      Function.update_apply]
    split
    · rename_i ht
      rw [ht, hl, Option.any_some, hearly]
      rfl
    · rfl

theorem Inv.step (h : Inv s) (hstep : (machine b).Step s a s') :
  Inv s'
  := by
  cases hstep with
  | call hidle hentry => exact h.call hidle hentry
  | goto hl hstep =>
      obtain ⟨hrun, hinside⟩ := step_eq_goto hstep
      exact h.goto hl hrun hinside
  | ret hl hstep => exact h.ret hl (step_eq_ret hstep).2

theorem Inv.of_reach {attr : N → Option MutexType} {G : Sys T N → Label T (Loc T N) → Prop}
    (hs : (machine b).Reach G (start attr) s) :
  Inv s
  := by
  apply hs.invariant (Inv.init attr)
  intro s a s' _ h _ hstep
  exact h.step hstep

omit [DecidableEq N] in
/-- The hook dequeues its thread from the queue of the condition variable of its call. -/
theorem Inv.queue_of_hook (h : Inv s) (hhook : Hooking s t c) {q : Queue N}
    (hq : s.shared.waits.prevp t = some q) :
  q = .cond c
  := by
  have hinstalled := h.running t c hhook
  rw [h.hook] at hinstalled
  obtain ⟨l, hl, hhooked⟩ := Option.bind_eq_some_iff.mp hinstalled
  have hqueue := (h.sound.queued (h.queued_of_linked hq)).1
  rw [roles, hl, Option.elim_some] at hqueue
  exact role_of_hooked hhooked hqueue

end Invariant

end Hurd

end LibPthread
