import LibPthread.Concurrency.Wakeup
import LibPthread.Types

/-!
# The number of threads

`__pthread_total` is increased by a creation before the new thread starts, decreased by one that
fails to start it, and decreased and tested by every `__pthread_exit`, each time by one locked
instruction. The startup code of the Hurd decreases it once more, to leave out the signal thread
that it creates next and that never exits. Whoever decreases it to zero in `__pthread_exit` calls
`exit (0)`.

A thread is named by its structure. The Boolean of a step is `true` when a part of a creation
fails, or when the thread that exits is detached.
-/

open Concurrency

namespace LibPthread.Thread.Total

/-- What becomes of a structure: it is free, a creation prepares a thread on it, the thread has
been started, or it has exited and waits to be joined or detached. -/
inductive Life where
  | free
  | reserved
  | started
  | exited
  deriving DecidableEq, Repr

/-- `__pthread_total` and what has become of the structures. -/
structure Threads (T : Type) where
  total : Int
  life : T → Life

/-- The control points. In a creation, `u` is the structure that `__pthread_alloc` takes. -/
inductive Loc (T : Type) where
  /-- At `__pthread_alloc`. -/
  | alloc (u : T)
  /-- At the part of `__pthread_create_internal` that prepares the thread. -/
  | prepare (u : T)
  /-- At `__atomic_inc (&__pthread_total)`. -/
  | count (u : T)
  /-- At the store to `__pthread_threads`. -/
  | publish (u : T)
  /-- At `__pthread_thread_start (pthread)`. -/
  | start (u : T)
  /-- At `__pthread_setid (pthread->thread, NULL)`. -/
  | withdraw (u : T)
  /-- At `__atomic_dec (&__pthread_total)`. -/
  | uncount (u : T)
  /-- At the rest of the labels of a failed creation, up to `__pthread_dealloc (pthread)`. -/
  | dealloc (u : T)
  /-- At `__atomic_dec_and_test (&__pthread_total)` in `__pthread_exit`. -/
  | exit
  /-- At `exit (0)`. -/
  | terminate
  /-- At the rest of `__pthread_exit`. -/
  | leave
  /-- In `pthread_join` or `pthread_detach` of a thread that has exited. -/
  | reclaim (u : T)
  deriving DecidableEq, Repr

/-- The results of the calls. -/
inductive Ret where
  | created
  | failed
  | halted
  | reclaimed
  deriving DecidableEq, Repr

/-- `__atomic_inc`. -/
def atomicInc (var : Int) : Int :=
  toInt (var + 1)

/-- `__atomic_dec`. -/
def atomicDec (var : Int) : Int :=
  toInt (var - 1)

/-- `__atomic_dec_and_test`, which also tells whether the new value is zero. -/
def atomicDecAndTest (var : Int) : Int × Bool :=
  (atomicDec var, decide (atomicDec var = 0))

variable {T : Type} [DecidableEq T]

/-- One step of the thread `self`. -/
def step (self : T) : Loc T → Bool → Threads T → Outcome (Threads T) (Loc T) Ret
  | .alloc u, _, s =>
    if s.life u = .free then .goto { s with life := Function.update s.life u .reserved } (.prepare u)
    else .spin
  | .prepare u, fails, s => .goto s (if fails then .dealloc u else .count u)
  | .count u, _, s => .goto { s with total := atomicInc s.total } (.publish u)
  | .publish u, _, s => .goto s (.start u)
  | .start u, fails, s =>
    if fails then .goto s (.withdraw u)
    else .ret { s with life := Function.update s.life u .started } .created
  | .withdraw u, _, s => .goto s (.uncount u)
  | .uncount u, _, s => .goto { s with total := atomicDec s.total } (.dealloc u)
  | .dealloc u, _, s => .ret { s with life := Function.update s.life u .free } .failed
  | .exit, _, s =>
    let (total, last) := atomicDecAndTest s.total
    .goto { s with total := total } (if last then .terminate else .leave)
  | .terminate, _, _ => .spin
  | .leave, detached, s =>
    .ret { s with life := Function.update s.life self (if detached then .free else .exited) } .halted
  | .reclaim u, _, s =>
    if s.life u = .exited then .ret { s with life := Function.update s.life u .free } .reclaimed
    else .spin

/-- The threads of a task. -/
def machine (T : Type) [DecidableEq T] : Machine T (Threads T) (Loc T) Ret where
  entry
    | .alloc _ => true
    | .exit => true
    | .reclaim _ => true
    | _ => false
  step := step

/-- A state of the system. -/
abbrev Sys (T : Type) := State T (Threads T) (Loc T) Ret

/-- The task after `init_routine`, which creates the structure of the main thread and decreases
`__pthread_total` again. -/
def boot (main : T) : Sys T :=
  State.idle ⟨atomicInc 0 - 1, Function.update (fun _ => .free) main .started⟩

/-- Only started threads make calls, the signal thread makes none, and it has been started by the
time that the first thread exits. -/
def Regular (signal : T) (s : Sys T) : Label T (Loc T) → Prop
  | .call t l => s.shared.life t = .started ∧ t ≠ signal ∧
    (l = .exit → s.shared.life signal = .started)
  | .act _ _ => True

instance (signal : T) (s : Sys T) (a : Label T (Loc T)) : Decidable (Regular signal s a) :=
  match a with
  | .call _ _ => inferInstanceAs (Decidable (_ ∧ _ ∧ (_ → _)))
  | .act _ _ => inferInstanceAs (Decidable True)

/-! ### What is counted -/

/-- The thread runs: it has been started, and has not passed the decrement of
`__pthread_exit`. -/
def Runs (s : Sys T) (t : T) : Prop :=
  s.shared.life t = .started ∧ s.loc t ≠ some .leave ∧ s.loc t ≠ some .terminate

instance (s : Sys T) (t : T) : Decidable (Runs s t) :=
  inferInstanceAs (Decidable (_ ∧ _ ∧ _))

/-- The structure on which a creation prepares a thread. -/
def Loc.target : Loc T → Option T
  | .prepare u => some u
  | .count u => some u
  | .publish u => some u
  | .start u => some u
  | .withdraw u => some u
  | .uncount u => some u
  | .dealloc u => some u
  | _ => none

/-- The creation has counted the new thread, which has not been started. -/
def Loc.counted : Loc T → Bool
  | .publish _ => true
  | .start _ => true
  | .withdraw _ => true
  | .uncount _ => true
  | _ => false

/-- What a thread contributes to the count. -/
def share (s : Sys T) (t : T) : Nat :=
  (if Runs s t then 1 else 0) + if (s.loc t).any Loc.counted = true then 1 else 0

/-- What the steps of the system do, one constructor for each kind of step. -/
inductive Effect (s : Sys T) : Label T (Loc T) → Sys T → Prop where
  | call {t : T} {l : Loc T} (idle : s.loc t = none) (entry : (machine T).entry l = true) :
    Effect s (.call t l) (s.call t l)
  | alloc {t u : T} {c : Bool} (at_l : s.loc t = some (.alloc u)) (free : s.shared.life u = .free) :
    Effect s (.act t c) (s.goto t (.alloc u)
      ⟨s.shared.total, Function.update s.shared.life u .reserved⟩ (.prepare u))
  | advance {t u : T} {c : Bool} {l l' : Loc T} (at_l : s.loc t = some l)
    (target : l.target = some u) (target' : l'.target = some u) (same : l'.counted = l.counted) :
    Effect s (.act t c) (s.goto t l s.shared l')
  | count {t u : T} {c : Bool} (at_l : s.loc t = some (.count u)) :
    Effect s (.act t c) (s.goto t (.count u) ⟨toInt (s.shared.total + 1), s.shared.life⟩
      (.publish u))
  | start {t u : T} {c : Bool} (at_l : s.loc t = some (.start u)) :
    Effect s (.act t c) (s.ret t (.start u)
      ⟨s.shared.total, Function.update s.shared.life u .started⟩ .created)
  | uncount {t u : T} {c : Bool} (at_l : s.loc t = some (.uncount u)) :
    Effect s (.act t c) (s.goto t (.uncount u) ⟨toInt (s.shared.total - 1), s.shared.life⟩
      (.dealloc u))
  | dealloc {t u : T} {c : Bool} (at_l : s.loc t = some (.dealloc u)) :
    Effect s (.act t c) (s.ret t (.dealloc u)
      ⟨s.shared.total, Function.update s.shared.life u .free⟩ .failed)
  | exit {t : T} {c : Bool} {l' : Loc T} (at_l : s.loc t = some .exit)
    (next : l' = if toInt (s.shared.total - 1) = 0 then .terminate else .leave) :
    Effect s (.act t c) (s.goto t .exit ⟨toInt (s.shared.total - 1), s.shared.life⟩ l')
  | leave {t : T} {c : Bool} {x : Life} (at_l : s.loc t = some .leave) (ended : x ≠ .started)
    (unused : x ≠ .reserved) :
    Effect s (.act t c) (s.ret t .leave ⟨s.shared.total, Function.update s.shared.life t x⟩ .halted)
  | reclaim {t u : T} {c : Bool} (at_l : s.loc t = some (.reclaim u))
    (exited : s.shared.life u = .exited) :
    Effect s (.act t c) (s.ret t (.reclaim u)
      ⟨s.shared.total, Function.update s.shared.life u .free⟩ .reclaimed)

variable {main signal : T} {s s' : Sys T} {a : Label T (Loc T)}

/-- Every step of the system is one of the effects. -/
theorem effect_of_step (h : (machine T).Step s a s') :
  Effect s a s'
  := by
  cases h with
  | call hidle hentry => apply Effect.call hidle hentry
  | @goto t c l l' x hl h =>
      cases l with
      | alloc u =>
          simp only [machine, step] at h
          split at h
          · obtain ⟨rfl, rfl⟩ := h
            apply Effect.alloc hl (by assumption)
          · cases h
      | prepare u =>
          obtain ⟨rfl, rfl⟩ := h
          apply Effect.advance (u := u) hl rfl
          · cases c <;> rfl
          · cases c <;> rfl
      | count u =>
          obtain ⟨rfl, rfl⟩ := h
          apply Effect.count hl
      | publish u =>
          obtain ⟨rfl, rfl⟩ := h
          apply Effect.advance (u := u) hl rfl
          · rfl
          · rfl
      | start u =>
          simp only [machine, step] at h
          split at h
          · obtain ⟨rfl, rfl⟩ := h
            apply Effect.advance (u := u) hl rfl
            · rfl
            · rfl
          · cases h
      | withdraw u =>
          obtain ⟨rfl, rfl⟩ := h
          apply Effect.advance (u := u) hl rfl
          · rfl
          · rfl
      | uncount u =>
          obtain ⟨rfl, rfl⟩ := h
          apply Effect.uncount hl
      | dealloc u => cases h
      | exit =>
          obtain ⟨rfl, rfl⟩ := h
          apply Effect.exit hl
          by_cases hzero : toInt (s.shared.total - 1) = 0
          · simp [atomicDec, hzero]
          · simp [atomicDec, hzero]
      | terminate => cases h
      | leave => cases h
      | reclaim u =>
          simp only [machine, step] at h
          split at h
          · cases h
          · cases h
  | @ret t c l x r hl h =>
      cases l with
      | alloc u =>
          simp only [machine, step] at h
          split at h
          · cases h
          · cases h
      | start u =>
          simp only [machine, step] at h
          split at h
          · cases h
          · obtain ⟨rfl, rfl⟩ := h
            apply Effect.start hl
      | dealloc u =>
          obtain ⟨rfl, rfl⟩ := h
          apply Effect.dealloc hl
      | leave =>
          obtain ⟨rfl, rfl⟩ := h
          apply Effect.leave hl
          · cases c <;> simp
          · cases c <;> simp
      | reclaim u =>
          simp only [machine, step] at h
          split at h
          · obtain ⟨rfl, rfl⟩ := h
            apply Effect.reclaim hl (by assumption)
          · cases h
      | _ => cases h

/-! ### The invariant -/

/-- Where the threads stand, and which structures they have in their hands. -/
structure Placed (signal : T) (s : Sys T) : Prop where
  outside : ∀ t, s.shared.life t ≠ .started → s.loc t = none
  silent : s.loc signal = none
  target : ∀ t l u, s.loc t = some l → l.target = some u → s.shared.life u = .reserved
  unique : ∀ t t' l l' u, s.loc t = some l → s.loc t' = some l' → l.target = some u →
    l'.target = some u → t = t'
  early : ∀ t, s.loc t = some .exit ∨ s.loc t = some .leave ∨ s.loc t = some .terminate →
    s.shared.life signal = .started

/-- The structures of the threads that have been started stay so, until the threads have left. -/
theorem Effect.started (h : Effect s a s') (hs : Placed signal s) {t : T} (ht : t ≠ a.thread)
    (hlife : s.shared.life t = .started) :
  s'.shared.life t = .started
  := by
  cases h with
  | @alloc v u c hl hfree =>
      have hne : t ≠ u := by
        rintro rfl
        simp [hlife] at hfree
      simpa [hne] using hlife
  | @start v u c hl =>
      simp only [State.ret_shared, Function.update_apply]
      split
      · rfl
      · apply hlife
  | @dealloc v u c hl =>
      have hne : t ≠ u := by
        rintro rfl
        simp [hs.target v _ t hl rfl] at hlife
      simpa [hne] using hlife
  | @leave v c x hl =>
      have hne : t ≠ v := ht
      simpa [hne] using hlife
  | @reclaim v u c hl hexited =>
      have hne : t ≠ u := by
        rintro rfl
        simp [hlife] at hexited
      simpa [hne] using hlife
  | _ => apply hlife

theorem Effect.loc_of_ne (h : Effect s a s') {t : T} (ht : t ≠ a.thread) :
  s'.loc t = s.loc t
  := by
  cases h with
  | _ => simp_all

/-- A structure that is being prepared stays so until it is started or given up by the creation that
has it in its hands. -/
theorem Effect.reserved (h : Effect s a s') (hs : Placed signal s) {t u : T} {l : Loc T}
    (ht : t ≠ a.thread) (hl : s.loc t = some l) (hu : l.target = some u) :
  s'.shared.life u = .reserved
  := by
  have hlife := hs.target t l u hl hu
  cases h with
  | @alloc v u' c hat hfree =>
      have hne : u ≠ u' := by
        rintro rfl
        simp [hlife] at hfree
      simpa [hne] using hlife
  | @start v u' c hat =>
      have hne : u ≠ u' := by
        rintro rfl
        apply ht (hs.unique t v l _ u hl hat hu rfl)
      simpa [hne] using hlife
  | @dealloc v u' c hat =>
      have hne : u ≠ u' := by
        rintro rfl
        apply ht (hs.unique t v l _ u hl hat hu rfl)
      simpa [hne] using hlife
  | @leave v c x hat =>
      have hne : u ≠ v := by
        rintro rfl
        have := hs.outside u
        simp_all
      simpa [hne] using hlife
  | @reclaim v u' c hat hexited =>
      have hne : u ≠ u' := by
        rintro rfl
        simp [hlife] at hexited
      simpa [hne] using hlife
  | _ => apply hlife

/-- The control point that the acting thread moves to. -/
theorem Effect.target (h : Effect s a s') (hs : Placed signal s) {l : Loc T} {u : T}
    (hl : s'.loc a.thread = some l) (hu : l.target = some u) :
  s'.shared.life u = .reserved ∧ (s.shared.life u = .free ∨
    ∃ l₀, s.loc a.thread = some l₀ ∧ l₀.target = some u)
  := by
  cases h with
  | @call t l' hidle hentry =>
      obtain rfl : l' = l := by
        simpa using hl
      cases l' <;> simp_all [machine, Loc.target]
  | @alloc t u' c hat hfree =>
      obtain rfl : .prepare u' = l := by
        simpa using hl
      obtain rfl : u' = u := by
        simpa [Loc.target] using hu
      simp [hfree]
  | @advance t u' c l₀ l' hat htarget htarget' =>
      obtain rfl : l' = l := by
        simpa using hl
      obtain rfl : u' = u := by
        simpa [htarget'] using hu
      use hs.target t l₀ u' hat htarget
      right
      use l₀, hat
  | @count t u' c hat =>
      obtain rfl : .publish u' = l := by
        simpa using hl
      obtain rfl : u' = u := by
        simpa [Loc.target] using hu
      use hs.target t _ u' hat rfl
      right
      use .count u', hat
      rfl
  | @uncount t u' c hat =>
      obtain rfl : .dealloc u' = l := by
        simpa using hl
      obtain rfl : u' = u := by
        simpa [Loc.target] using hu
      use hs.target t _ u' hat rfl
      right
      use .uncount u', hat
      rfl
  | @exit t c l' hat hnext =>
      obtain rfl : l' = l := by
        simpa using hl
      grind [Loc.target]
  | _ => simp at hl

theorem Effect.ne_signal (h : Effect s a s') (hG : Regular signal s a) (hs : Placed signal s) :
  signal ≠ a.thread
  := by
  rintro rfl
  have hsilent := hs.silent
  cases h with
  | call hidle => apply hG.2.1 rfl
  | _ => simp_all

/-- A thread that takes a step and stays inside a call is a started one. -/
theorem Effect.actor (h : Effect s a s') (hG : Regular signal s a) (hs : Placed signal s)
    (hin : s'.loc a.thread ≠ none) :
  s'.shared.life a.thread = .started
  := by
  have hstarted : ∀ t l, s.loc t = some l → s.shared.life t = .started := by
    intro t l hl
    by_contra hne
    simp [hs.outside t hne] at hl
  cases h with
  | call hidle => apply hG.1
  | @alloc t u c hl hfree =>
      have hlife := hstarted t _ hl
      have hne : t ≠ u := by
        rintro rfl
        simp [hlife] at hfree
      simpa [hne] using hlife
  | advance hl => apply hstarted _ _ hl
  | count hl => apply hstarted _ _ hl
  | uncount hl => apply hstarted _ _ hl
  | exit hl => apply hstarted _ _ hl
  | _ => simp at hin

theorem Effect.placed (h : Effect s a s') (hG : Regular signal s a) (hs : Placed signal s) :
  Placed signal s'
  := by
  have hsignal := h.ne_signal hG hs
  constructor
  · intro t hlife
    by_cases ht : t = a.thread
    · subst ht
      by_contra hin
      apply hlife (h.actor hG hs hin)
    · rw [h.loc_of_ne ht]
      apply hs.outside
      intro hstarted
      apply hlife (h.started hs ht hstarted)
  · rw [h.loc_of_ne hsignal]
    apply hs.silent
  · intro t l u hl hu
    by_cases ht : t = a.thread
    · subst ht
      apply (h.target hs hl hu).1
    · rw [h.loc_of_ne ht] at hl
      apply h.reserved hs ht hl hu
  · have hone : ∀ t l l' u, t ≠ a.thread → s'.loc t = some l → s'.loc a.thread = some l' →
        l.target = some u → l'.target ≠ some u := by
      intro t l l' u ht hl hl' hu hu'
      rw [h.loc_of_ne ht] at hl
      rcases (h.target hs hl' hu').2 with hfree | ⟨l₀, hl₀, hu₀⟩
      · simp [hs.target t l u hl hu] at hfree
      · apply ht (hs.unique t a.thread l l₀ u hl hl₀ hu hu₀)
    intro t t' l l' u hl hl' hu hu'
    by_cases ht : t = a.thread
    · by_cases ht' : t' = a.thread
      · rw [ht, ht']
      · apply absurd hu (hone t' l' l u ht' hl' (ht ▸ hl) hu')
    · by_cases ht' : t' = a.thread
      · apply absurd hu' (hone t l l' u ht hl (ht' ▸ hl') hu)
      · rw [h.loc_of_ne ht] at hl
        rw [h.loc_of_ne ht'] at hl'
        apply hs.unique t t' l l' u hl hl' hu hu'
  · intro t hl
    apply h.started hs hsignal
    by_cases ht : t = a.thread
    · subst ht
      cases h with
      | @call t l hidle hentry =>
          apply hG.2.2
          cases l <;> simp_all [machine]
      | @advance t u c l l' hat htarget htarget' =>
          simp only [State.goto_loc, Label.thread, Function.update_self, Option.some.injEq] at hl
          rcases hl with rfl | rfl | rfl
          all_goals cases htarget'
      | exit hat =>
          apply hs.early _
          left
          apply hat
      | _ => simp at hl
    · rw [h.loc_of_ne ht] at hl
      apply hs.early t hl

/-! ### The count -/

theorem share_congr {t : T}
    (hlife : s'.shared.life t = .started ↔ s.shared.life t = .started) (hloc : s'.loc t = s.loc t) :
  share s' t = share s t
  := by
  have hruns : Runs s' t ↔ Runs s t := by
    simp [Runs, hlife, hloc]
  simp only [share, hruns, hloc]

/-- A thread inside a call contributes itself and the thread that it has counted. -/
theorem share_of_loc {t : T} {l : Loc T} (hlife : s.shared.life t = .started)
    (hl : s.loc t = some l) (hleave : l ≠ .leave) (hterminate : l ≠ .terminate) :
  share s t = 1 + if l.counted = true then 1 else 0
  := by
  have hruns : Runs s t := by
    simp [Runs, hlife, hl, hleave, hterminate]
  simp [share, hruns, hl]

theorem share_of_idle {t : T} (hl : s.loc t = none) :
  share s t = if s.shared.life t = .started then 1 else 0
  := by
  have hruns : Runs s t ↔ s.shared.life t = .started := by
    simp [Runs, hl]
  simp [share, hruns, hl]

theorem share_of_done {t : T} (hl : s.loc t = some .leave ∨ s.loc t = some .terminate) :
  share s t = 0
  := by
  have hruns : ¬ Runs s t := by
    rintro ⟨-, hleave, hterminate⟩
    apply hl.elim hleave hterminate
  rcases hl with hl | hl
  · simp [share, hruns, hl, Loc.counted]
  · simp [share, hruns, hl, Loc.counted]

omit [DecidableEq T] in
theorem Placed.started (hs : Placed signal s) {t : T} {l : Loc T} (hl : s.loc t = some l) :
  s.shared.life t = .started
  := by
  by_contra hne
  simp [hs.outside t hne] at hl

/-- A sum over all threads changes as much as its terms for `t` and `u` if the others are
equal. -/
theorem sum_change_two [Fintype T] {f g : T → Nat} {t u : T} (htu : t ≠ u)
    (h : ∀ v, v ≠ t → v ≠ u → g v = f v) :
  ∑ v, g v + (f t + f u) = ∑ v, f v + (g t + g u)
  := by
  have hfirst := sum_change (f := f) (g := Function.update f t (g t)) (t := t) (by
    intro v hv
    rw [Function.update_of_ne hv])
  have hsecond := sum_change (f := Function.update f t (g t)) (g := g) (t := u) (by
    intro v hv
    by_cases hvt : v = t
    · rw [hvt, Function.update_self]
    · rw [Function.update_of_ne hvt, h v hvt hv])
  rw [Function.update_self] at hfirst
  rw [Function.update_of_ne htu.symm] at hsecond
  omega

/-- The number of threads without the signal thread, with those that a creation has counted. The
signal thread is left out before it runs, too. -/
def users [Fintype T] (s : Sys T) : Int :=
  (∑ t, share s t : Nat) - 1

theorem started_of_update {life : T → Life} {u v : T} {x : Life} (hx : x ≠ .started)
    (h : Function.update life u x v = .started) :
  life v = .started
  := by
  by_cases hv : v = u
  · subst hv
    rw [Function.update_self] at h
    apply absurd h hx
  · rwa [Function.update_of_ne hv] at h

/-- The share of a thread that takes no step changes only when it is started. -/
theorem Effect.share_other (h : Effect s a s') (hs : Placed signal s) {v : T} (hv : v ≠ a.thread)
    (hnew : s.loc a.thread ≠ some (.start v) ∨ s'.loc a.thread ≠ none) :
  share s' v = share s v
  := by
  apply share_congr _ (h.loc_of_ne hv)
  constructor
  · intro hlife
    cases h with
    | alloc => apply started_of_update (by simp) hlife
    | @start t u c hl =>
        have hne : v ≠ u := by
          rintro rfl
          simp [hl] at hnew
        simpa [hne] using hlife
    | dealloc => apply started_of_update (by simp) hlife
    | leave hl hended => apply started_of_update hended hlife
    | reclaim => apply started_of_update (by simp) hlife
    | _ => apply hlife
  · apply h.started hs hv

/-- Where no thread is started, the count changes as much as the share of the acting thread. -/
theorem Effect.users_change [Fintype T] (h : Effect s a s') (hs : Placed signal s) {m n : Nat}
    (hnew : ∀ v, s.loc a.thread = some (.start v) → s'.loc a.thread ≠ none)
    (hbefore : share s a.thread = m) (hafter : share s' a.thread = n) :
  users s' = users s + (n - m)
  := by
  have hsum := sum_change (f := share s) (g := share s') (t := a.thread) (by
    intro v hv
    apply h.share_other hs hv
    by_cases hl : s.loc a.thread = some (.start v)
    · right
      apply hnew v hl
    · left
      apply hl)
  simp only [users]
  omega

/-- The count changes with `__pthread_total`. -/
theorem Effect.users_eq [Fintype T] (h : Effect s a s') (hG : Regular signal s a)
    (hs : Placed signal s) :
  (s'.shared.total = s.shared.total ∧ users s' = users s) ∨
    ∃ d, s'.shared.total = toInt (s.shared.total + d) ∧ users s' = users s + d
  := by
  have hinside := h.actor hG hs
  have heffect := h
  cases h with
  | @call t l hidle hentry =>
      left
      use rfl
      have hcounted : l.counted = false ∧ l ≠ .leave ∧ l ≠ .terminate := by
        cases l with
        | alloc u => simp [Loc.counted]
        | exit => simp [Loc.counted]
        | reclaim u => simp [Loc.counted]
        | _ => cases hentry
      have := heffect.users_change hs (by simp [hidle]) (by rw [Label.thread, share_of_idle hidle, if_pos hG.1])
        (share_of_loc hG.1 (l := l) (by simp) hcounted.2.1 hcounted.2.2)
      simpa [hcounted.1] using this
  | @alloc t u c hl hfree =>
      left
      use rfl
      have := heffect.users_change hs (by simp) (share_of_loc (hs.started hl) hl (by simp) (by simp))
        (share_of_loc (hinside (by simp)) (l := .prepare u) (by simp) (by simp) (by simp))
      simpa [Loc.counted] using this
  | @advance t u c l l' hl htarget htarget' hsame =>
      left
      use rfl
      have := heffect.users_change hs (by simp)
        (share_of_loc (hs.started hl) hl (by rintro rfl; cases htarget)
          (by rintro rfl; cases htarget))
        (share_of_loc (hinside (by simp)) (l := l') (by simp) (by rintro rfl; cases htarget')
          (by rintro rfl; cases htarget'))
      simpa [hsame] using this
  | @count t u c hl =>
      right
      use 1, rfl
      have := heffect.users_change hs (by simp) (share_of_loc (hs.started hl) hl (by simp) (by simp))
        (share_of_loc (hinside (by simp)) (l := .publish u) (by simp) (by simp) (by simp))
      simpa [Loc.counted] using this
  | @start t u c hl =>
      left
      use rfl
      have hreserved := hs.target t _ u hl rfl
      have hne : t ≠ u := by
        rintro rfl
        simp [hs.started hl] at hreserved
      have hidle := hs.outside u (by simp [hreserved])
      -- the new thread takes over the share that its creator had for it
      have hsum := sum_change_two (f := share s) (g := share (s.ret t (.start u)
        ⟨s.shared.total, Function.update s.shared.life u .started⟩ .created)) hne (by
          intro v hvt hvu
          apply heffect.share_other hs hvt
          left
          simp [hl, hvu.symm])
      have hbefore := share_of_loc (hs.started hl) hl (by simp) (by simp)
      have hbefore' := share_of_idle hidle
      have hafter := share_of_idle (s := s.ret t (.start u)
        ⟨s.shared.total, Function.update s.shared.life u .started⟩ .created) (t := t) (by simp)
      have hafter' := share_of_idle (s := s.ret t (.start u)
        ⟨s.shared.total, Function.update s.shared.life u .started⟩ .created) (t := u)
        (by simp [hne.symm, hidle])
      simp only [State.ret_shared, Function.update_of_ne hne, Function.update_self, hs.started hl,
        hreserved, Loc.counted, if_true, reduceCtorEq, if_false] at hbefore hbefore' hafter hafter'
      simp only [users]
      omega
  | @uncount t u c hl =>
      right
      use -1, rfl
      have := heffect.users_change hs (by simp) (share_of_loc (hs.started hl) hl (by simp) (by simp))
        (share_of_loc (hinside (by simp)) (l := .dealloc u) (by simp) (by simp) (by simp))
      simpa [Loc.counted] using this
  | @dealloc t u c hl =>
      left
      use rfl
      have hne : t ≠ u := by
        rintro rfl
        have := hs.target t _ t hl rfl
        simp [hs.started hl] at this
      have := heffect.users_change hs (by simp [hl]) (share_of_loc (hs.started hl) hl (by simp) (by simp))
        (share_of_idle (by simp))
      simpa [Loc.counted, hne, hs.started hl] using this
  | @exit t c l' hl hnext =>
      right
      use -1, rfl
      have := heffect.users_change hs (by simp) (share_of_loc (hs.started hl) hl (by simp) (by simp))
        (share_of_done (by simp [hnext]; grind))
      simpa [Loc.counted] using this
  | @leave t c x hl hended =>
      left
      use rfl
      have := heffect.users_change hs (by simp [hl]) (share_of_done (.inl hl)) (share_of_idle (by simp))
      simpa [hended] using this
  | @reclaim t u c hl hexited =>
      left
      use rfl
      have hne : t ≠ u := by
        rintro rfl
        simp [hs.started hl] at hexited
      have := heffect.users_change hs (by simp [hl]) (share_of_loc (hs.started hl) hl (by simp) (by simp))
        (share_of_idle (by simp))
      simpa [Loc.counted, hne, hs.started hl] using this

/-- The invariant: `__pthread_total` is the number of threads without the signal thread, and
`exit (0)` has been reached exactly when no thread but the signal thread runs. -/
structure Counted [Fintype T] (signal : T) (s : Sys T) : Prop where
  placed : Placed signal s
  total : s.shared.total = toInt (users s)
  last : ∀ t, s.loc t = some .terminate → ∀ u, Runs s u → u = signal
  once : ∀ t t', s.loc t = some .terminate → s.loc t' = some .terminate → t = t'
  final : (∀ u, Runs s u → u = signal) → ∃ t, s.loc t = some .terminate

theorem toInt_toInt_add (x d : Int) :
  toInt (toInt x + d) = toInt (x + d)
  := Int.bmod_add_bmod

theorem Effect.total [Fintype T] (h : Effect s a s') (hG : Regular signal s a)
    (hs : Counted signal s) :
  s'.shared.total = toInt (users s')
  := by
  rcases h.users_eq hG hs.placed with ⟨htotal, husers⟩ | ⟨d, htotal, husers⟩
  · rw [htotal, husers, hs.total]
  · rw [htotal, husers, hs.total, toInt_toInt_add]

theorem toInt_eq_zero_iff {x : Int} (hlo : 0 ≤ x) (hhi : x < 2 ^ 32) :
  toInt x = 0 ↔ x = 0
  := by
  have hcast : ((2 ^ 32 : Nat) : Int) = 4294967296 := rfl
  rw [toInt, Int.bmod_def, hcast]
  split
  · omega
  · omega

omit [DecidableEq T] in
theorem Placed.runs_of_loc (hs : Placed signal s) {t : T} {l : Loc T} (hl : s.loc t = some l)
    (hleave : l ≠ .leave) (hterminate : l ≠ .terminate) :
  Runs s t
  := by
  use hs.started hl
  rw [hl]
  simp [hleave, hterminate]

/-- A thread that does not run contributes nothing. -/
theorem Placed.share_eq_zero (hs : Placed signal s) {t : T} (ht : ¬ Runs s t) :
  share s t = 0
  := by
  cases hl : s.loc t with
  | none =>
      rw [share_of_idle hl, if_neg]
      intro hlife
      apply ht
      simp [Runs, hlife, hl]
  | some l =>
      by_cases hleave : l = .leave
      · apply share_of_done
        simp [hl, hleave]
      · by_cases hterminate : l = .terminate
        · apply share_of_done
          simp [hl, hterminate]
        · apply absurd (hs.runs_of_loc hl hleave hterminate) ht

theorem share_le_two (s : Sys T) (t : T) :
  share s t ≤ 2
  := by
  simp only [share]
  split <;> split <;> omega

/-- A thread that exits is the last one if and only if `__pthread_total` becomes zero. -/
theorem Counted.last_iff [Fintype T] (hs : Counted signal s) (hT : Fintype.card T < 2 ^ 31) {t : T}
    (hl : s.loc t = some .exit) :
  toInt (s.shared.total - 1) = 0 ↔ ∀ u, Runs s u → u = signal ∨ u = t
  := by
  have hne : signal ≠ t := by
    rintro rfl
    simp [hs.placed.silent] at hl
  have hsignal : share s signal = 1 := by
    rw [share_of_idle hs.placed.silent, if_pos (hs.placed.early t (.inl hl))]
  have ht : share s t = 1 := share_of_loc (hs.placed.started hl) hl (by simp) (by simp)
  have hpair : ∑ u ∈ {signal, t}, share s u = 2 := by
    rw [Finset.sum_pair hne, hsignal, ht]
  have hle : ∑ u, share s u ≤ Fintype.card T * 2 := by
    have := Finset.sum_le_card_nsmul Finset.univ (share s) 2 (fun u _ => share_le_two s u)
    simpa using this
  have hge : 2 ≤ ∑ u, share s u := by
    rw [← hpair]
    apply Finset.sum_le_sum_of_subset (Finset.subset_univ _)
  have hzero : toInt (s.shared.total - 1) = 0 ↔ ∑ u, share s u = 2 := by
    rw [hs.total, Int.sub_eq_add_neg, toInt_toInt_add, toInt_eq_zero_iff]
    · simp only [users]
      omega
    · simp only [users]
      omega
    · simp only [users]
      omega
  rw [hzero]
  constructor
  · intro hsum u hu
    by_contra hother
    rw [not_or] at hother
    have hmore : ∑ u ∈ {u, signal, t}, share s u ≤ ∑ u, share s u :=
      Finset.sum_le_sum_of_subset (Finset.subset_univ _)
    rw [Finset.sum_insert (by simpa using hother), hpair, hsum] at hmore
    have hpos : 0 < share s u := by
      simp [share, hu]
    omega
  · intro hother
    rw [← hpair]
    symm
    apply Finset.sum_subset (Finset.subset_univ _)
    intro u _ hu
    apply hs.placed.share_eq_zero
    intro hruns
    apply hu
    simpa using hother u hruns

theorem Effect.runs_of_runs (h : Effect s a s') (hG : Regular signal s a) (hs : Placed signal s)
    {t : T} (ht : Runs s t) (hne : s.loc t = some .exit → t ≠ a.thread) :
  Runs s' t
  := by
  obtain ⟨hlife, hleave, hterminate⟩ := ht
  by_cases hta : t = a.thread
  · subst hta
    have hinside := h.actor hG hs
    cases h with
    | @call t l hidle hentry =>
        use hlife
        cases l <;> simp_all [machine]
    | @alloc t u c hl => simp_all [Runs]
    | @advance t u c l l' hl htarget htarget' =>
        use hinside (by simp)
        simp only [State.goto_loc, Label.thread, Function.update_self]
        constructor
        · rintro ⟨⟩
          cases htarget'
        · rintro ⟨⟩
          cases htarget'
    | @count t u c hl => simp_all [Runs]
    | @start t u c hl => simp_all [Runs, Function.update_apply]
    | @uncount t u c hl => simp_all [Runs]
    | @dealloc t u c hl =>
        have := hs.target t _ u hl rfl
        simp_all [Runs, Function.update_apply]
        grind
    | @exit t c l' hl => apply absurd rfl (hne hl)
    | @leave t c x hl => apply absurd hl hleave
    | @reclaim t u c hl hexited =>
        simp_all [Runs, Function.update_apply]
        grind
  · rw [Runs, h.loc_of_ne hta]
    use h.started hs hta hlife, hleave, hterminate

/-- A thread that runs after a step ran before it, or has been started by it. -/
theorem Effect.runs_before (h : Effect s a s') (hG : Regular signal s a) (hs : Placed signal s)
    {t : T} (ht : Runs s' t) :
  Runs s t ∨ s.loc a.thread = some (.start t)
  := by
  by_cases hstart : s.loc a.thread = some (.start t)
  · right
    apply hstart
  left
  by_contra hnot
  by_cases hta : t = a.thread
  · subst hta
    have hdone : ∀ l, s.loc a.thread = some l → l = .leave ∨ l = .terminate := by
      intro l hl
      by_contra hother
      rw [not_or] at hother
      apply hnot (hs.runs_of_loc hl hother.1 hother.2)
    cases h with
    | call hidle =>
        apply hnot
        simp [Runs, hG.1, hidle]
    | advance hl htarget =>
        rcases hdone _ hl with rfl | rfl
        · cases htarget
        · cases htarget
    | leave hl hended => simp [Runs, hended] at ht
    | alloc hl => simpa using hdone _ hl
    | count hl => simpa using hdone _ hl
    | start hl => simpa using hdone _ hl
    | uncount hl => simpa using hdone _ hl
    | dealloc hl => simpa using hdone _ hl
    | exit hl => simpa using hdone _ hl
    | reclaim hl => simpa using hdone _ hl
  · have hsame := h.share_other hs hta (.inl hstart)
    rw [hs.share_eq_zero hnot] at hsame
    simp [share, ht] at hsame

/-- The step of a thread that exits. -/
theorem Effect.loc_of_exit (h : Effect s a s') (hl : s.loc a.thread = some .exit) :
  s'.loc a.thread = some (if toInt (s.shared.total - 1) = 0 then .terminate else .leave)
  := by
  cases h with
  | call hidle => simp_all
  | advance hat htarget =>
      obtain rfl := Option.some.inj (hat.symm.trans hl)
      cases htarget
  | exit hat hnext => simp [hnext]
  | _ => simp_all

/-- No thread goes on after `exit (0)`. -/
theorem Effect.ne_terminate (h : Effect s a s') :
  s.loc a.thread ≠ some .terminate
  := by
  intro hl
  cases h with
  | call hidle => simp_all
  | advance hat htarget =>
      obtain rfl := Option.some.inj (hat.symm.trans hl)
      cases htarget
  | _ => simp_all

/-- A thread reaches `exit (0)` only from the decrement. -/
theorem Effect.exit_of_terminate (h : Effect s a s') (hl : s'.loc a.thread = some .terminate) :
  s.loc a.thread = some .exit ∧ toInt (s.shared.total - 1) = 0
  := by
  cases h with
  | @call t l hidle hentry =>
      obtain rfl : l = .terminate := by
        simpa using hl
      cases hentry
  | @advance t v c l l' hat htarget htarget' =>
      obtain rfl : l' = .terminate := by
        simpa using hl
      cases htarget'
  | @exit t c l' hat hnext =>
      use hat
      by_contra hne
      simp [hnext, hne] at hl
  | _ => simp at hl

theorem Effect.counted [Fintype T] (h : Effect s a s') (hG : Regular signal s a)
    (hs : Counted signal s) (hT : Fintype.card T < 2 ^ 31) :
  Counted signal s'
  := by
  have hp := hs.placed
  have hsignal := h.ne_signal hG hp
  constructor
  · apply h.placed hG hp
  · apply h.total hG hs
  · intro t hl u hu
    by_cases ht : t = a.thread
    · -- the last thread exits
      subst ht
      obtain ⟨hexit, hzero⟩ := h.exit_of_terminate hl
      rcases h.runs_before hG hp hu with hruns | hstart
      · rcases (hs.last_iff hT hexit).mp hzero u hruns with hu' | rfl
        · apply hu'
        · apply absurd hl hu.2.2
      · rw [hexit] at hstart
        cases hstart
    · -- the signal thread takes no step
      rw [h.loc_of_ne ht] at hl
      have hactor : ¬ Runs s a.thread := fun hruns => hsignal (hs.last t hl _ hruns).symm
      rcases h.runs_before hG hp hu with hruns | hstart
      · apply hs.last t hl u hruns
      · apply absurd (hp.runs_of_loc hstart (by simp) (by simp)) hactor
  · have hone : ∀ t, t ≠ a.thread → s'.loc t = some .terminate →
        s'.loc a.thread ≠ some .terminate := by
      intro t ht hl hl'
      rw [h.loc_of_ne ht] at hl
      obtain ⟨hexit, -⟩ := h.exit_of_terminate hl'
      apply hsignal
      apply (hs.last t hl a.thread (hp.runs_of_loc hexit (by simp) (by simp))).symm
    intro t t' hl hl'
    by_cases ht : t = a.thread
    · by_cases ht' : t' = a.thread
      · rw [ht, ht']
      · apply absurd (ht ▸ hl) (hone t' ht' hl')
    · by_cases ht' : t' = a.thread
      · apply absurd (ht' ▸ hl') (hone t ht hl)
      · rw [h.loc_of_ne ht] at hl
        rw [h.loc_of_ne ht'] at hl'
        apply hs.once t t' hl hl'
  · intro hnone
    by_cases hexit : s.loc a.thread = some .exit
    · have hzero : toInt (s.shared.total - 1) = 0 := by
        rw [hs.last_iff hT hexit]
        intro u hu
        by_cases hut : u = a.thread
        · right
          apply hut
        · left
          apply hnone u (h.runs_of_runs hG hp hu (fun _ => hut))
      use a.thread
      rw [h.loc_of_exit hexit, if_pos hzero]
    · obtain ⟨t, hl⟩ := hs.final (by
        intro u hu
        apply hnone u (h.runs_of_runs hG hp hu _)
        rintro hl rfl
        apply hexit hl)
      use t
      rw [h.loc_of_ne, hl]
      rintro rfl
      apply h.ne_terminate hl

theorem counted_of_reach [Fintype T] (hT : Fintype.card T < 2 ^ 31) (hne : main ≠ signal)
    (hs : (machine T).Reach (Regular signal) (boot main) s) :
  Counted signal s
  := by
  apply hs.invariant
  · have hruns : ∀ u, Runs (boot main) u ↔ u = main := by
      simp [Runs, boot, Function.update_apply]
    have hplaced : Placed signal (boot main) := by
      constructor <;> simp [boot]
    constructor
    · apply hplaced
    · have hsum : ∑ t, share (boot main) t = 1 := by
        rw [Finset.sum_eq_single main]
        · rw [share_of_idle (by rfl)]
          simp [boot]
        · intro u _ hu
          apply hplaced.share_eq_zero
          rw [hruns]
          apply hu
        · simp
      have hone : toInt 1 = 1 := toInt_of_lt (by decide) (by decide)
      have hzero : toInt 0 = 0 := toInt_of_lt (by decide) (by decide)
      rw [users, hsum]
      simp [boot, atomicInc, hone, hzero]
    · simp [boot]
    · simp [boot]
    · intro hnone
      apply absurd (hnone main ((hruns main).mpr rfl)) hne
  · intro s a s' _ hcounted hG hstep
    apply (effect_of_step hstep).counted hG hcounted hT

/-- The process ends with its last thread: in every run of creations, failed creations, exits and
joins, in any interleaving, a thread is at `exit (0)` if and only if no thread but the signal
thread runs. It is the only one there, no creation is under way then, and `__pthread_total` is
always the number of the other threads, with those that a creation has counted. -/
theorem last_thread_exits [Fintype T] (hT : Fintype.card T < 2 ^ 31) (hne : main ≠ signal)
    (hs : (machine T).Reach (Regular signal) (boot main) s) :
  ((∃ t, s.loc t = some .terminate) ↔ ∀ u, Runs s u → u = signal) ∧
    (∀ t t', s.loc t = some .terminate → s.loc t' = some .terminate → t = t') ∧
    (∀ t, s.loc t = some .terminate → ∀ u l, s.loc u = some l → l.target = none) ∧
    s.shared.total = toInt (users s)
  := by
  have hc := counted_of_reach hT hne hs
  refine ⟨⟨?_, hc.final⟩, hc.once, ?_, hc.total⟩
  · rintro ⟨t, hl⟩
    apply hc.last t hl
  · intro t hl u l hu
    cases l with
    | alloc v => rfl
    | exit => rfl
    | terminate => rfl
    | leave => rfl
    | reclaim v => rfl
    | _ =>
        obtain rfl := hc.last t hl u (hc.placed.runs_of_loc hu (by simp) (by simp))
        rw [hc.placed.silent] at hu
        cases hu

/-- The main thread `0` creates the signal thread `1` and a thread `2`, and exits; the thread `2`
fails to create another one and exits. -/
def lastRun : List (Label (Fin 4) (Loc (Fin 4))) :=
  [.call 0 (.alloc 1), .act 0 false, .act 0 false, .act 0 false, .act 0 false, .act 0 false,
    .call 0 (.alloc 2), .act 0 false, .act 0 false, .act 0 false, .act 0 false, .act 0 false,
    .call 0 .exit, .call 2 (.alloc 3), .act 2 false, .act 2 false, .act 2 false, .act 0 false,
    .act 2 false, .act 2 true, .act 2 false, .act 2 false, .act 2 false, .act 0 true,
    .call 2 .exit, .act 2 false]

theorem last_thread_exits_lastRun :
  ∃ s : Sys (Fin 4), (machine (Fin 4)).Reach (Regular 1) (boot 0) s ∧
    s.loc 2 = some .terminate ∧ ∀ u, Runs s u → u = 1
  := by
  obtain ⟨s, hs, hp⟩ := Machine.exists_reach_of_run (M := machine (Fin 4)) (G := Regular 1)
    (s := boot 0) lastRun (fun s => s.loc 2 = some .terminate) (by decide +kernel)
  simp only [decide_eq_true_eq] at hp
  use s, hs, hp
  apply (last_thread_exits (by simp) (by decide) hs).1.mp
  use 2

end LibPthread.Thread.Total
