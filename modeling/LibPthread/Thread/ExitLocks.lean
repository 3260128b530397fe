import LibPthread.Thread.Cleanup
import LibPthread.Thread.ExitStatus
import Mathlib.Data.List.Flatten

/-!
# The locks of a thread that leaves

`__pthread_exit` restores the cancellation state before it calls the destructors, which run under
`__pthread_key_lock`, and a pending request stays pending. A destructor that reaches a cancellation
point enters `pthread_exit` again, and the lock of the call that is given up is never released.
-/

open Concurrency

namespace LibPthread.Thread.Exit

/-! ### The condition -/

/-- The loops of `pthread_exit` and what comes after them. -/
def Place.inExit : Place → Bool
  | .loop => true
  | .unlock _ _ => true
  | .next _ => true
  | .after => true
  | _ => false

/-- A handler or a destructor that `pthread_exit` has called. -/
def Back.inExit : Back → Bool
  | .handlers _ _ _ => true
  | .destructor _ _ => true
  | _ => false

/-- The locks that are held while the function of the program runs. -/
def Back.locks : Back → List LibLock
  | .destructor _ _ => [.key]
  | _ => []

/-- The thread is in `pthread_exit`, or in a function that it has called. -/
def inExit (pl : Place) (code : Code) : Bool :=
  pl.inExit || code.running.any fun f => f.back.inExit

/-- The thread is in a destructor. -/
def inDestructor (code : Code) : Bool :=
  code.running.any fun f => f.back.locks ≠ []

section Condition

variable {T D V : Type}

/-- The thread is in a function that takes a lock of the library, or in `pthread_cond_wait`, and may
be on a queue. -/
def Loc.mayQueue {D V : Type} : Loc D V → Bool
  | .lock _ => true
  | .join _ => true
  | .condUnlock _ _ => true
  | .condBlock _ _ => true
  | .condRelock _ _ => true
  | .pass _ => true
  | _ => false

/-- The thread is not redirected while it is in `pthread_exit`, or may be on a queue, or holds a lock
of the library that no handler releases; in `pthread_exit` it does not act on a cancellation; and a
destructor does not call `pthread_exit`. -/
def LeavesCleanly (u : T) (p : Nat) (s : Sys T D V) : Label T (Loc D V) → Prop
  | .call _ _ => True
  | .act t _ => t = u → ∀ l ∈ s.loc u,
    (s.shared.redirected = true → inExit l.place s.shared.code = false ∧ l.mayQueue = false ∧
      (l.locks p = [] ∨ l.locks p = l.place.armed)) ∧
    (s.shared.redirected = false → enters p s.shared l = true →
      (l.caller = .cancellation → inExit l.place s.shared.code = false) ∧
      (l.caller = .program → inDestructor s.shared.code = false))

instance [DecidableEq T] (u : T) (p : Nat) (s : Sys T D V) :
    (a : Label T (Loc D V)) → Decidable (LeavesCleanly u p s a)
  | .call _ _ => .isTrue trivial
  | .act _ _ => inferInstanceAs
    (Decidable (_ → ∀ l ∈ s.loc u, (_ → _ ∧ _ ∧ (_ ∨ _)) ∧ (_ → _ → (_ → _) ∧ (_ → _))))

/-- The kernel thread of the structure has not been halted. -/
def Alive (p : Nat) (L : Task) : Prop :=
  L.kernel.threads.Live (L.structs p).kernelThread

instance (p : Nat) (L : Task) : Decidable (Alive p L) :=
  inferInstanceAs (Decidable (L.kernel.threads.Live _))

/-- `pthread_exit` is not entered again to act on a cancellation. -/
def EntersOnce (u : T) (log : Log T D V) : Prop :=
  ∀ l call before, Event.goto u l (.lock (.exitDisable call)) :: before <:+ log →
    call.caller = .cancellation → ∀ call', ¬ Entered u call' before

/-- `pthread_exit` is not entered again to act on a cancellation, and once the thread has been
halted it holds no lock of the library. -/
structure LeftCleanly (u : T) (p : Nat) (s : Sys T D V) : Prop where
  entered : EntersOnce u s.log
  free : ¬ Alive p s.shared.task → ∀ k, s.shared.held k = 0

end Condition

/-! ### The locks that are held -/

/-- The handlers that the loop of `pthread_exit` has yet to call, or is calling. -/
def Place.left (base : List Handler) : Place → List Handler
  | .next _ => base.tail
  | _ => base

/-- The locks that a handler releases. -/
def Handler.locks (h : Handler) : List LibLock :=
  match h.routine with
  | .program => []
  | .unlock q => [.state q]

/-- The locks that the handlers release. -/
def armed (hs : List Handler) : List LibLock :=
  hs.flatMap Handler.locks

/-- The locks that the thread may hold besides those of the function it is in: those that the loop
of `pthread_exit` has yet to release, and that of the destructors. -/
def spare (base : List Handler) (pl : Place) (code : Code) : List LibLock :=
  armed (pl.left base) ++ code.running.flatMap fun f => f.back.locks

/-- The thread holds no other locks. -/
def Covered {D V : Type} (p : Nat) (base : List Handler) (o : Option (Loc D V)) (s : Shared D V) :
    Prop :=
  ∀ k, s.held k - (o.elim [] (Loc.locks p)).count k ≤ (spare base (placeOf o) s.code).count k

section Covered

variable {D V : Type} {p : Nat} {l l' : Loc D V} {s s' : Shared D V} {r : Ret}
  {base : List Handler} {code : Code} {pl : Place}

theorem Open.suffix {regions : List Region} {hs : List Handler} (h : Open regions hs base) :
  base <:+ hs
  := by
  induction regions generalizing hs with
  | nil =>
      subst h
      exact List.suffix_rfl
  | cons r regions ih =>
      obtain ⟨rfl, h⟩ := h
      exact (ih h).trans (List.suffix_cons _ _)

theorem Linked.suffix {running : List Activation} {hs : List Handler} (h : Linked running hs base) :
  base <:+ hs
  := by
  induction running generalizing hs with
  | nil => cases h
  | cons f rest ih =>
      obtain ⟨regions, back⟩ := f
      cases back with
      | start => exact h.2.2.suffix
      | pop r => exact ((ih h.2).trans (List.suffix_cons _ _)).trans h.1.suffix
      | handlers x oldstate call => exact h.2.2.2.suffix
      | destructor i call => exact h.2.2.suffix

theorem armed_count_le {hs : List Handler} (h : base <:+ hs) (k : LibLock) :
  (armed base).count k ≤ (armed hs).count k
  := (h.sublist.flatMap _).count_le _

/-- No destructor runs. -/
theorem spare_count (hdestructor : inDestructor code = false) (k : LibLock) :
  (spare base pl code).count k = (armed (pl.left base)).count k
  := by
  have hnone : (code.running.flatMap fun f => f.back.locks) = [] := by
    rw [List.flatMap_eq_nil_iff]
    intro f hf
    by_contra hlocks
    rw [inDestructor, List.any_eq_false] at hdestructor
    exact hdestructor f hf (decide_eq_true hlocks)
  rw [spare, hnone, List.append_nil]

/-- When `pthread_exit` is entered, the locks that the thread holds are those that the handlers
release. -/
theorem Covered.enter (hn : Nested base s.code pl) (hpl : pl.inExit = false)
    (hdestructor : inDestructor s.code = false) (hcode : s'.code = { s.code with running := [] })
    (hheld : ∀ k, s'.held k ≤ (spare base pl s.code).count k + pl.armed.count k) (call : Call) :
  Covered p s.code.handlers (some (.lock (.exitDisable call) : Loc D V)) s'
  := by
  intro k
  have hk := hheld k
  rw [spare_count hdestructor] at hk
  have hspare : spare s.code.handlers .loop s'.code = armed s.code.handlers := by
    rw [spare, hcode]
    exact List.append_nil _
  have hgoal : s'.held k ≤ (armed s.code.handlers).count k := by
    cases pl with
    | program => exact hk.trans (armed_count_le hn.suffix k)
    | outside => exact hk.trans (armed_count_le hn.suffix k)
    | joined q =>
        obtain ⟨hlinked, r, regions, back, rest, hrunning, hroutine⟩ := hn
        rw [hrunning] at hlinked
        obtain ⟨hhead, hbelow⟩ := hlinked.pop
        have hle := armed_count_le hbelow.suffix k
        simp only [hhead, armed, List.flatMap_cons, Handler.locks, hroutine, List.count_append]
          at hk hle ⊢
        simp only [Place.left, Place.armed] at hk
        omega
    | unlink executed r =>
        obtain ⟨hhead, hlinked⟩ := hn
        have hsuffix : base <:+ s.code.handlers := by
          rw [hhead]
          exact hlinked.suffix.trans (List.suffix_cons _ _)
        exact hk.trans (armed_count_le hsuffix k)
    | loop => cases hpl
    | unlock h q => cases hpl
    | next h => cases hpl
    | after => cases hpl
  have hlocks : ((some (.lock (.exitDisable call) : Loc D V)).elim [] (Loc.locks p)) = [] := rfl
  rw [hlocks, List.count_nil, Nat.sub_zero]
  change s'.held k ≤ (spare s.code.handlers .loop s'.code).count k
  rw [hspare]
  exact hgoal

theorem enters_place (h : enters p s l = true) :
  l.place.inExit = false
  := by
  cases l with
  | inside x =>
      cases x with
      | condEnter mutex => cases mutex <;> rfl
      | testcancel => rfl
      | cancelSelf => rfl
      | _ => cases h
  | condRelock mutex cancelled => cases mutex <;> rfl
  | leave v => rfl
  | exit status => rfl
  | _ => cases h

/-- A destructor is called by `pthread_exit`. -/
theorem inDestructor_of_inExit (h : inExit pl code = false) :
  inDestructor code = false
  := by
  rw [inExit, Bool.or_eq_false_iff, List.any_eq_false] at h
  rw [inDestructor, List.any_eq_false]
  intro f hf
  have hexit := h.2 f hf
  cases hback : f.back with
  | destructor i call =>
      rw [hback] at hexit
      exact absurd rfl hexit
  | start => simp [Back.locks]
  | pop r => simp [Back.locks]
  | handlers h oldstate call => simp [Back.locks]

/-- The locks that a step releases, and those that are left to be released. -/
theorem Moves.covered_goto (h : Moves p l s (.goto s' l')) (hn : Nested base s.code l.place)
    (hc : Covered p base (some l) s)
    (hdestructor : enters p s l = true → inDestructor s.code = false) :
  Covered p (nextBase l l' s.code base) (some l') s'
  := by
  cases h with
  | stay _ hcode hplace _ hheld hinside =>
      rw [nextBase_stay hplace hinside]
      intro k
      have hspare : spare base (placeOf (some l')) s'.code =
          spare base (placeOf (some l)) s.code := by
        rw [hcode, placeOf, Option.elim_some, hplace]
        rfl
      rw [hspare]
      exact (hheld k).trans (hc k)
  | exit henters _ _ hcode hheld =>
      refine Covered.enter hn (enters_place henters) (hdestructor henters) hcode ?_ _
      intro k
      have hk := hc k
      have hk' := hheld k
      simp only [placeOf, Option.elim_some, Shared.surplus] at hk hk'
      omega
  | join hplace hrunning =>
      subst hplace
      intro k
      have hk := hc k
      simp only [spare, placeOf, Option.elim_some, Loc.place, Place.left, hrunning] at hk ⊢
      exact hk
  | joinPop hplace hrunning =>
      subst hplace
      intro k
      have hk := hc k
      simp only [spare, placeOf, Option.elim_some, Loc.place, Place.left, hrunning] at hk ⊢
      exact hk
  | pop hplace hrunning =>
      subst hplace
      intro k
      have hk := hc k
      simp only [spare, placeOf, Option.elim_some, Loc.place, Place.left, hrunning] at hk ⊢
      exact hk
  | executed hplace hrunning =>
      subst hplace
      intro k
      have hk := hc k
      simp only [spare, placeOf, Option.elim_some, Loc.place, Place.left, hrunning] at hk ⊢
      exact hk
  | handled hplace hrunning =>
      subst hplace
      have hlinked : Linked s.code.running s.code.handlers base := hn
      rw [hrunning] at hlinked
      obtain ⟨-, hroutine, ⟨below, rfl⟩, -⟩ := hlinked
      intro k
      have hk := hc k
      simp only [spare, placeOf, Option.elim_some, Loc.place, Place.left, hrunning, armed,
        List.flatMap_cons, Handler.locks, hroutine] at hk ⊢
      exact hk
  | unlock hplace hhandlers hroutine =>
      subst hplace
      exact hc
  | unlocked hplace =>
      rename_i h q oldstate call
      subst hplace
      obtain ⟨-, -, hroutine, below, rfl⟩ := hn
      intro k
      have hk := hc k
      simp only [spare, placeOf, Option.elim_some, Loc.place, Place.left, nextBase, armed,
        List.tail_cons, List.flatMap_cons, Handler.locks, hroutine, Loc.locks, List.count_append,
        List.count_cons, List.count_nil, beq_iff_eq, Shared.release_held, Shared.release_code,
        Function.update_apply] at hk ⊢
      by_cases hkq : k = .state q
      · subst hkq
        rw [if_pos rfl] at hk ⊢
        omega
      · rw [if_neg (Ne.symm hkq)] at hk
        rw [if_neg hkq]
        omega
  | next hplace hhandlers =>
      subst hplace
      exact hc
  | ended hplace hhandlers =>
      subst hplace
      exact hc
  | destroyed hplace hrunning =>
      subst hplace
      intro k
      have hk := hc k
      simp only [spare, placeOf, Option.elim_some, Loc.place, Place.left, nextBase, hrunning,
        Shared.withCode_code, Shared.withCode_held, List.flatMap_cons, Back.locks, Loc.locks,
        List.count_append, List.count_cons, List.count_nil] at hk ⊢
      omega

theorem Moves.covered_ret (h : Moves p l s (.ret s' r)) (hn : Nested base s.code l.place)
    (hc : Covered p base (some l) s) :
  Covered p base (none : Option (Loc D V)) s'
  := by
  cases h with
  | back _ hcode hplace _ hheld =>
      intro k
      have hspare : spare base (placeOf (none : Option (Loc D V))) s'.code =
          spare base (placeOf (some l)) s.code := by
        rw [hcode, placeOf, placeOf, Option.elim_some, hplace]
        rfl
      rw [hspare]
      exact (hheld k).trans (hc k)
  | push hplace hrunning =>
      subst hplace
      intro k
      have hk := hc k
      simp only [spare, placeOf, Option.elim_some, Loc.place, Place.left, hrunning] at hk ⊢
      exact hk
  | execute hplace hrunning =>
      subst hplace
      intro k
      have hk := hc k
      simp only [spare, placeOf, Option.elim_some, Loc.place, Place.left, hrunning] at hk ⊢
      exact hk
  | unlink hplace =>
      subst hplace
      exact hc
  | handler hplace hhandlers hroutine =>
      subst hplace
      obtain ⟨hrunning, -⟩ := hn
      intro k
      have hk := hc k
      simp only [spare, placeOf, Option.elim_some, Loc.place, Place.left, hrunning] at hk ⊢
      exact hk
  | destructor hplace hcode hheld _ =>
      subst hplace
      obtain ⟨hrunning, -⟩ := hn
      intro k
      have hk := hc k
      simp only [spare, placeOf, Option.elim_some, Loc.place, Place.left, hrunning, hcode, hheld,
        Loc.locks, Option.elim_none, List.count_append, List.count_cons, List.count_nil,
        List.flatMap_cons, List.flatMap_nil, Back.locks] at hk ⊢
      omega

/-! ### The calls of `pthread_exit` -/

theorem Moves.inExit_goto (h : Moves p l s (.goto s' l')) (hl : inExit l.place s.code = true) :
  inExit l'.place s'.code = true
  := by
  cases h with
  | stay _ hcode hplace _ _ _ => rwa [hcode, hplace]
  | exit _ _ _ _ _ => rfl
  | handled hplace hrunning => rfl
  | unlock hplace hhandlers hroutine => rfl
  | unlocked hplace => rfl
  | next hplace hhandlers => rfl
  | ended hplace hhandlers => rfl
  | destroyed hplace hrunning => rfl
  | join hplace hrunning =>
      subst hplace
      simpa [inExit, Loc.place, Place.inExit, hrunning] using hl
  | joinPop hplace hrunning =>
      subst hplace
      simpa [inExit, Loc.place, Place.inExit, hrunning] using hl
  | pop hplace hrunning =>
      subst hplace
      simpa [inExit, Loc.place, Place.inExit, hrunning] using hl
  | executed hplace hrunning =>
      subst hplace
      simpa [inExit, Loc.place, Place.inExit, hrunning, Back.inExit] using hl

theorem Moves.inExit_ret (h : Moves p l s (.ret s' r)) (hl : inExit l.place s.code = true) :
  inExit .program s'.code = true
  := by
  cases h with
  | back _ hcode hplace _ _ =>
      rw [hplace] at hl
      rwa [hcode]
  | push hplace hrunning =>
      subst hplace
      simpa [inExit, Loc.place, Place.inExit, hrunning] using hl
  | execute hplace hrunning =>
      subst hplace
      simpa [inExit, Loc.place, Place.inExit, hrunning, Back.inExit] using hl
  | unlink hplace =>
      subst hplace
      exact hl
  | handler hplace hhandlers hroutine => rfl
  | destructor hplace hcode _ _ =>
      rw [hcode]
      rfl

end Covered

/-! ### The end of the thread -/

section Gone

variable {T D V : Type} [DecidableEq T] {u t : T} {p thread : Nat} {l l' : Loc D V}
  {s s' : Shared D V} {r : Ret} {L L' : Task} {k k' : Reclaim.Loc} {G : Prop}

/-- The thread has passed its section under `state_lock`. -/
def Loc.gone : Loc D V → Bool
  | .exitDealloc _ => true
  | .exitHalt => true
  | .halted => true
  | _ => false

/-- The thread is at such a control point. -/
def Gone (o : Option (Loc D V)) : Prop :=
  ∃ l ∈ o, l.gone = true

theorem gone_some :
  Gone (some l) ↔ l.gone = true
  := by
  simp [Gone]

theorem gone_none (h : Gone (none : Option (Loc D V))) :
  G
  := by
  obtain ⟨l, hl, -⟩ := h
  cases hl

theorem gone_place (h : l.gone = true) :
  l.place = .after ∧ l.locks p = []
  := by
  cases l with
  | exitDealloc rest => exact ⟨rfl, rfl⟩
  | exitHalt => exact ⟨rfl, rfl⟩
  | halted => exact ⟨rfl, rfl⟩
  | _ => cases h

theorem gone_goto {c : Bool} (hl : l.gone = true) (h : selfStep p l c s = .goto s' l') :
  l'.gone = true
  := by
  cases l with
  | exitDealloc rest =>
      cases rest with
      | nil =>
          cases h
          rfl
      | cons st rest =>
          simp only [selfStep] at h
          split at h
          · cases h
          · cases h
            rfl
  | exitHalt =>
      cases h
      rfl
  | halted => cases h
  | _ => cases hl

theorem gone_ret {c : Bool} (hl : l.gone = true) :
  selfStep p l c s ≠ .ret s' r
  := by
  intro h
  cases l with
  | exitDealloc rest =>
      cases rest with
      | nil => cases h
      | cons st rest =>
          simp only [selfStep] at h
          split at h <;> cases h
  | exitHalt => cases h
  | halted => cases h
  | _ => cases hl

/-- A change of other fields of a structure. -/
theorem Alive.modify {f : Pthread → Pthread} (q : Nat)
    (hf : ∀ x, (f x).kernelThread = x.kernelThread) (ha : Alive p L) :
  Alive p (L.modify q f)
  := by
  rw [Alive, Task.modify_part Pthread.kernelThread hf]
  exact ha

theorem Alive.broadcast (q : Nat) (ha : Alive p L) :
  Alive p (L.broadcast q)
  := ha.modify q fun _ => rfl

/-- Before its section under `state_lock` the thread does not halt itself. -/
theorem TaskStep.alive (h : TaskStep p l L L') (hl : l.gone = false) (ha : Alive p L) :
  Alive p L'
  := by
  cases h with
  | same => exact ha
  | cancel enabled pending => exact ha.modify p fun _ => rfl
  | total place => exact ha
  | stage place run =>
      subst place
      cases hl
  | state place leaves =>
      rw [Reclaim.exitSection] at leaves
      split at leaves
      · cases leaves
        apply Alive.broadcast
        exact ha.modify p fun _ => rfl
      · cases leaves
        exact ha
      · cases leaves
      · cases leaves
  | halt place =>
      subst place
      cases hl

/-- The threads that reclaim the thread halt it. -/
theorem Awaits.alive_goto (hk : Awaits (fun _ => G) p k)
    (h : Reclaim.step u p thread t k L = .goto L' k') (ha : Alive p L) :
  Alive p L' ∨ G
  := by
  cases hk with
  | join =>
      simp only [Reclaim.step, Reclaim.lookup] at h
      split at h
      all_goals cases h
      exact .inl ha
  | detach =>
      simp only [Reclaim.step, Reclaim.lookup] at h
      split at h
      all_goals cases h
      exact .inl ha
  | joinLock =>
      simp only [Reclaim.step, Reclaim.joinSection] at h
      split at h
      all_goals cases h
      · exact .inl ha
      · exact .inl ha
  | detachLock =>
      simp only [Reclaim.step, Reclaim.detachSection] at h
      split at h
      all_goals cases h
      exact .inl ha
  | joinWait seen =>
      simp only [Reclaim.step] at h
      split at h
      all_goals cases h
      exact .inl ha
  | reclaim rest status exited => exact .inr exited

theorem Awaits.alive_ret {r : Reclaim.Ret} (hk : Awaits (fun _ => G) p k)
    (h : Reclaim.step u p thread t k L = .ret L' r) (ha : Alive p L) :
  Alive p L' ∨ G
  := by
  cases hk with
  | join =>
      simp only [Reclaim.step, Reclaim.lookup] at h
      split at h
      all_goals cases h
      exact .inl ha
  | detach =>
      simp only [Reclaim.step, Reclaim.lookup] at h
      split at h
      all_goals cases h
      exact .inl ha
  | joinLock =>
      simp only [Reclaim.step, Reclaim.joinSection] at h
      split at h
      all_goals cases h
      · exact .inl ha
      · exact .inl ha
  | detachLock =>
      simp only [Reclaim.step, Reclaim.detachSection] at h
      split at h
      all_goals cases h
      · left
        apply Alive.broadcast
        exact ha.modify p fun _ => rfl
      · exact .inl ha
      · exact .inl ha
  | joinWait seen =>
      simp only [Reclaim.step] at h
      split at h
      all_goals cases h
  | reclaim rest status exited => exact .inr exited

theorem Requests.alive (h : Requests L L') (ha : Alive p L) :
  Alive p L'
  := by
  cases h with
  | same => exact ha
  | pending q => exact ha.modify q fun _ => rfl

theorem other_alive_goto (hl : ∀ k, l = .call k → Awaits (fun _ => G) p k)
    (h : otherStep u p thread t l s = .goto s' l') (ha : Alive p s.task) :
  Alive p s'.task ∨ G
  := by
  cases otherMoves h with
  | callGoto place step => exact (hl _ place).alive_goto step ha
  | goto _ _ _ task _ _ => exact .inl (task.alive ha)

theorem other_alive_ret (hl : ∀ k, l = .call k → Awaits (fun _ => G) p k)
    (h : otherStep u p thread t l s = .ret s' r) (ha : Alive p s.task) :
  Alive p s'.task ∨ G
  := by
  cases otherMoves h with
  | callRet place step => exact (hl _ place).alive_ret step ha
  | ret _ _ _ task _ _ => exact .inl (task.alive ha)

end Gone

/-! ### Runs -/

section Runs

variable {T D V : Type} [DecidableEq T] {u t : T} {p thread : Nat} {s s' : Sys T D V}
  {a : Label T (Loc D V)} {e : Event T (Loc D V) Ret} {log : Log T D V}

/-- The invariant: the thread holds the locks of the function it is in, those that `pthread_exit`
has yet to release, and that of the destructors, and it is halted only after its section under
`state_lock`. -/
structure Locks (u : T) (p thread : Nat) (s : Sys T D V) : Prop where
  sound : Sound (fun _ => Gone (s.loc u)) p thread s.shared.task
  control : ∀ v k, s.loc v = some (.call k) → Awaits (fun _ => Gone (s.loc u)) p k
  alive : Alive p s.shared.task ∨ Gone (s.loc u)
  covered : ∃ base, Nested base s.shared.code (placeOf (s.loc u)) ∧
    Covered p base (s.loc u) s.shared
  outside : inExit (placeOf (s.loc u)) s.shared.code = false → ∀ call, ¬ Entered u call s.log
  entered : EntersOnce u s.log

omit [DecidableEq T] in
theorem EntersOnce.cons (h : EntersOnce u log)
    (he : ∀ l call, e = .goto u l (.lock (.exitDisable call)) → call.caller = .cancellation →
      ∀ call', ¬ Entered u call' log) :
  EntersOnce u (e :: log)
  := by
  intro l call before hsuffix
  obtain hsame | hsuffix := List.suffix_cons_iff.mp hsuffix
  · obtain ⟨rfl, rfl⟩ := List.cons.inj hsame
    exact he l call rfl
  · exact h l call before hsuffix

omit [DecidableEq T] in
/-- The event is not a call of `pthread_exit`. -/
theorem Entered.of_cons {call : Call} (h : Entered u call (e :: log))
    (he : ∀ l, e ≠ .goto u l (.lock (.exitDisable call))) :
  Entered u call log
  := by
  obtain ⟨l, hl⟩ := h
  obtain hsame | hl := List.mem_cons.mp hl
  · exact absurd hsame.symm (he l)
  · exact ⟨l, hl⟩

/-- A step of another thread. -/
theorem Locks.of_other {o : Option (Loc D V)} (hs : Locks u p thread s) (ht : t ≠ u)
    (hlog : s'.log = e :: s.log) (hloc : s'.loc = Function.update s.loc t o)
    (he : ∀ l call, e ≠ .goto u l (.lock (.exitDisable call)))
    (hlater : Later p thread s.shared.task s'.shared.task)
    (hcontrol : ∀ k, o = some (.call k) → Awaits (fun _ => Gone (s.loc u)) p k)
    (halive : Alive p s.shared.task → Alive p s'.shared.task ∨ Gone (s.loc u))
    (hcode : s'.shared.code = s.shared.code) (hheld : s'.shared.held = s.shared.held) :
  Locks u p thread s'
  := by
  have hu : s'.loc u = s.loc u := by
    rw [hloc, Function.update_of_ne ht.symm]
  constructor
  · rw [hu]
    exact hs.sound.later hlater
  · intro v k hk
    rw [hu]
    rw [hloc] at hk
    by_cases hv : v = t
    · subst hv
      rw [Function.update_self] at hk
      exact hcontrol k hk
    · rw [Function.update_of_ne hv] at hk
      exact hs.control v k hk
  · rw [hu]
    exact hs.alive.elim halive .inr
  · obtain ⟨base, hn, hc⟩ := hs.covered
    refine ⟨base, ?_, ?_⟩
    · rw [hu, hcode]
      exact hn
    · rw [hu, Covered, hcode, hheld]
      exact hc
  · rw [hu, hcode, hlog]
    intro hinside call hentered
    exact hs.outside hinside call (hentered.of_cons fun l => he l call)
  · rw [hlog]
    exact hs.entered.cons fun l call hcall => absurd hcall (he l call)

/-- A step of the thread itself, which is not halted yet. -/
theorem Locks.of_self {o : Option (Loc D V)} (hs : Locks u p thread s) (base : List Handler)
    (hlog : s'.log = e :: s.log) (hloc : s'.loc = Function.update s.loc u o)
    (hsound : Sound (fun _ => Gone o) p thread s'.shared.task)
    (hgone : Gone (s.loc u) → Gone o)
    (hcontrol : ∀ k, o = some (.call k) → Awaits (fun _ => Gone o) p k)
    (halive : Alive p s'.shared.task ∨ Gone o)
    (hn : Nested base s'.shared.code (placeOf o)) (hc : Covered p base o s'.shared)
    (houtside : inExit (placeOf o) s'.shared.code = false → ∀ call, ¬ Entered u call s'.log)
    (hentered : ∀ l call, e = .goto u l (.lock (.exitDisable call)) →
      call.caller = .cancellation → ∀ call', ¬ Entered u call' s.log) :
  Locks u p thread s'
  := by
  have hu : s'.loc u = o := by
    rw [hloc, Function.update_self]
  constructor
  · rw [hu]
    exact hsound
  · intro v k hk
    rw [hu]
    rw [hloc] at hk
    by_cases hv : v = u
    · subst hv
      rw [Function.update_self] at hk
      exact hcontrol k hk
    · rw [Function.update_of_ne hv] at hk
      exact (hs.control v k hk).mono fun _ => hgone
  · rw [hu]
    exact halive
  · rw [hu]
    exact ⟨base, hn, hc⟩
  · rw [hu]
    exact houtside
  · rw [hlog]
    exact hs.entered.cons hentered

theorem entry_locks {l : Loc D V} (h : entry l = true) :
  l.locks p = []
  := by
  cases l with
  | lock x =>
      cases x with
      | condEnter mutex =>
          cases mutex with
          | none => rfl
          | some q => cases h
      | _ => rfl
  | _ => first | rfl | cases h

theorem Locks.entry_self {l : Loc D V} (hs : Locks u p thread s) (hidle : s.loc u = none)
    (hentry : entry l = true) :
  Locks u p thread (s.call u l)
  := by
  have hgone : Gone (s.loc u) → Gone (some l) := by
    rw [hidle]
    exact gone_none
  obtain ⟨base, hn, hc⟩ := hs.covered
  have houtside := hs.outside
  rw [hidle] at hn hc houtside
  have hplace : Nested base s.shared.code l.place ∧
      spare base l.place s.shared.code = spare base .program s.shared.code ∧
      inExit l.place s.shared.code = inExit .program s.shared.code := by
    obtain hplace | hplace := entry_place hentry
    all_goals
      rw [hplace]
      exact ⟨hn, rfl, rfl⟩
  refine hs.of_self base rfl rfl (hs.sound.mono fun _ => hgone) hgone ?_
    (hs.alive.imp_right hgone) hplace.1 ?_ ?_ (fun l call he => by cases he)
  · intro k hk
    obtain rfl := Option.some.inj hk
    exact entry_call hentry
  · intro k
    rw [Option.elim_some, entry_locks hentry, placeOf, Option.elim_some, State.call_shared,
      hplace.2.1]
    exact hc k
  · intro hinside call hentered
    rw [placeOf, Option.elim_some, State.call_shared, hplace.2.2] at hinside
    exact houtside hinside call (hentered.of_cons fun l he => by cases he)

/-- A step of a thread that has not been halted. -/
theorem step_self_alive {c : Bool} {l : Loc D V} {x : Shared D V}
    (h : step u p thread u l c x ≠ .spin) :
  Alive p x.task
  := by
  by_contra halive
  apply h
  rw [step, if_pos rfl]
  exact if_pos halive

/-- The thread is redirected. -/
theorem Locks.redirected {l : Loc D V} (hs : Locks u p thread s) (hl : s.loc u = some l)
    (halive : Alive p s.shared.task) (hinside : inExit l.place s.shared.code = false)
    (hlocks : l.locks p = [] ∨ l.locks p = l.place.armed) (call : Call) :
  Locks u p thread (s.goto u l
    ({ s.shared with redirected := false }.withCode { s.shared.code with running := [] })
    (.lock (.exitDisable call)))
  := by
  obtain ⟨base, hn, hc⟩ := hs.covered
  have hplace : l.place.inExit = false := by
    rw [inExit, Bool.or_eq_false_iff] at hinside
    exact hinside.1
  have hgone : Gone (s.loc u) → Gone (some (.lock (.exitDisable call) : Loc D V)) := by
    rw [hl, gone_some]
    intro hgone
    rw [(gone_place (p := p) hgone).1] at hplace
    cases hplace
  have houtside := hs.outside
  rw [hl] at hn hc houtside
  refine hs.of_self s.shared.code.handlers rfl rfl (hs.sound.mono fun _ => hgone) hgone
    (fun k hk => by cases hk) (.inl halive) ⟨rfl, rfl⟩ ?_ (fun h => by cases h)
    fun l call he _ => houtside hinside
  refine Covered.enter hn hplace (inDestructor_of_inExit hinside) rfl ?_ call
  intro k
  have hk : s.shared.held k - (l.locks p).count k ≤ (spare base l.place s.shared.code).count k :=
    hc k
  change s.shared.held k ≤
    (spare base l.place s.shared.code).count k + l.place.armed.count k
  obtain hlocks | hlocks := hlocks
  · rw [hlocks, List.count_nil, Nat.sub_zero] at hk
    omega
  · rw [hlocks] at hk
    omega

omit [DecidableEq T] in
theorem Locks.sound_goto {c : Bool} {x : Shared D V} {l l' : Loc D V} (hs : Locks u p thread s)
    (hl : s.loc u = some l) (hgone : Gone (s.loc u) → Gone (some l'))
    (hself : selfStep p l c s.shared = .goto x l') :
  Sound (fun _ => Gone (some l')) p thread x.task
  := by
  by_cases hstate : ∃ call, l = .inside (.exitState call)
  · obtain ⟨call, rfl⟩ := hstate
    obtain ⟨hstate, htask⟩ | ⟨rfl, htable, hthread, -⟩ := exitState_goto hself
    · rw [htask]
      exact hs.sound.mono fun _ => hgone
    · refine ⟨?_, ?_, fun _ => ⟨gone_some.mpr rfl, gone_some.mpr rfl⟩⟩
      · rw [htable]
        exact hs.sound.slot
      · rw [hthread]
        exact hs.sound.thread
  · have hmoves := Moves.of_eq hself
    exact (hs.sound.later (hmoves.task_goto.later hs.sound.thread
      fun call hcall => hstate ⟨call, hcall⟩)).mono fun _ => hgone

theorem Locks.self_goto {c : Bool} {x : Shared D V} {l l' : Loc D V} (hs : Locks u p thread s)
    (hl : s.loc u = some l) (hG : LeavesCleanly u p s (.act u c))
    (h : step u p thread u l c s.shared = .goto x l') :
  Locks u p thread (s.goto u l x l')
  := by
  obtain ⟨hredirect, henter⟩ := hG rfl l hl
  have halive : Alive p s.shared.task := step_self_alive (by rw [h]; simp)
  obtain ⟨hredirected, hexit⟩ | ⟨hredirected, hself⟩ := step_self_goto h
  · cases hexit
    obtain ⟨hinside, -, hlocks⟩ := hredirect hredirected
    exact hs.redirected hl halive hinside hlocks _
  · have hmoves := Moves.of_eq hself
    have hgone : Gone (s.loc u) → Gone (some l') := by
      rw [hl, gone_some, gone_some]
      exact fun hgone => gone_goto hgone hself
    have hdestructor : enters p s.shared l = true → inDestructor s.shared.code = false := by
      intro henters
      obtain ⟨hcancellation, hprogram⟩ := henter hredirected henters
      cases hcaller : l.caller with
      | program => exact hprogram hcaller
      | cancellation => exact inDestructor_of_inExit (hcancellation hcaller)
    have hsound := hs.sound_goto hl hgone hself
    obtain ⟨base, hn, hc⟩ := hs.covered
    have houtside := hs.outside
    rw [hl] at hn hc houtside
    refine hs.of_self _ rfl rfl hsound hgone ?_ ?_ (hmoves.nested_goto hn)
      (hmoves.covered_goto hn hc hdestructor) ?_ ?_
    · intro k hk
      obtain rfl := Option.some.inj hk
      cases hmoves with
      | stay _ _ hplace _ _ _ =>
          rw [selfStep_outside hplace.symm] at hself
          cases hself
    · by_cases hl' : l.gone = true
      · exact .inr (hgone (by rw [hl, gone_some, hl']))
      · exact .inl (hmoves.task_goto.alive (Bool.eq_false_of_not_eq_true hl') halive)
    · intro hinside call hentered
      have hbefore : inExit l.place s.shared.code = false := by
        by_contra hexit
        have hafter := hmoves.inExit_goto (Bool.eq_true_of_not_eq_false hexit)
        rw [placeOf, Option.elim_some] at hinside
        rw [State.goto_shared, hafter] at hinside
        cases hinside
      refine houtside hbefore call (hentered.of_cons fun l₁ he => ?_)
      cases he
      cases hinside
    · intro l₁ call he hcaller
      cases he
      cases hmoves with
      | exit henters hcall _ _ _ =>
          rw [hcall] at hcaller
          exact houtside ((henter hredirected henters).1 hcaller)
      | stay _ _ _ _ _ hinside => exact absurd rfl (hinside _)

theorem Locks.self_ret {c : Bool} {x : Shared D V} {l : Loc D V} {r : Ret}
    (hs : Locks u p thread s) (hl : s.loc u = some l)
    (h : step u p thread u l c s.shared = .ret x r) :
  Locks u p thread (s.ret u l x r)
  := by
  have halive : Alive p s.shared.task := step_self_alive (by rw [h]; simp)
  obtain ⟨-, hself⟩ := step_self_ret h
  have hmoves := Moves.of_eq hself
  have hstate : ∀ call, l ≠ .inside (.exitState call) := by
    rintro call rfl
    exact exitState_ne_ret hself
  have hgone : l.gone = false := by
    apply Bool.eq_false_of_not_eq_true
    exact fun hgone => gone_ret hgone hself
  have hnone : Gone (s.loc u) → Gone (none : Option (Loc D V)) := by
    rw [hl, gone_some, hgone]
    intro h
    cases h
  obtain ⟨base, hn, hc⟩ := hs.covered
  have houtside := hs.outside
  rw [hl] at hn hc houtside
  refine hs.of_self _ rfl rfl ?_ hnone (fun k hk => by cases hk)
    (.inl (hmoves.task_ret.alive hgone halive)) (hmoves.nested_ret hn) (hmoves.covered_ret hn hc)
    ?_ (fun l call he => by cases he)
  · exact (hs.sound.later (hmoves.task_ret.later hs.sound.thread hstate)).mono fun _ => hnone
  · intro hinside call hentered
    have hbefore : inExit l.place s.shared.code = false := by
      by_contra hexit
      have hafter := hmoves.inExit_ret (Bool.eq_true_of_not_eq_false hexit)
      rw [placeOf, Option.elim_none, State.ret_shared, hafter] at hinside
      cases hinside
    exact houtside hbefore call (hentered.of_cons fun l he => by cases he)

theorem Locks.step (hs : Locks u p thread s) (hG : LeavesCleanly u p s a)
    (h : (machine u p thread).Step s a s') :
  Locks u p thread s'
  := by
  cases h with
  | @call t l hidle hentry =>
      by_cases ht : t = u
      · subst ht
        exact hs.entry_self hidle hentry
      · refine hs.of_other ht rfl rfl (fun l call he => by cases he) (.refl _) ?_ .inl rfl rfl
        intro k hk
        obtain rfl := Option.some.inj hk
        exact entry_call hentry
  | @goto t c l l' x hl hstep =>
      by_cases ht : t = u
      · subst ht
        exact hs.self_goto hl hG hstep
      · have hother := (step_other ht).symm.trans hstep
        have hcontrol := fun k (hk : l = .call k) => hs.control t k (hk ▸ hl)
        obtain ⟨hlater, hcontrol'⟩ := other_goto hs.sound hcontrol hother
        obtain ⟨-, -, hcode, hheld⟩ := other_goto_parts hother
        refine hs.of_other ht rfl rfl ?_ hlater ?_ (other_alive_goto hcontrol hother) hcode hheld
        · intro l₁ call he
          cases he
          exact ht rfl
        · intro k hk
          exact hcontrol' k (Option.some.inj hk)
  | @ret t c l x r hl hstep =>
      by_cases ht : t = u
      · subst ht
        exact hs.self_ret hl hstep
      · have hother := (step_other ht).symm.trans hstep
        have hcontrol := fun k (hk : l = .call k) => hs.control t k (hk ▸ hl)
        obtain ⟨hlater, -⟩ := other_ret hs.sound hcontrol hother
        obtain ⟨-, -, hcode, hheld⟩ := other_ret_parts hother
        exact hs.of_other ht rfl rfl (fun l call he => by cases he) hlater (fun k hk => by cases hk)
          (other_alive_ret hcontrol hother) hcode hheld

/-- A thread that has not been halted and is joinable or detached. -/
structure Started (L : Task) (p thread : Nat) : Prop where
  published : L.table.get thread = some (.entry p)
  thread : (L.structs p).thread = thread
  state : (L.structs p).state = .joinable ∨ (L.structs p).state = .detached
  alive : Alive p L

omit [DecidableEq T] in
theorem Locks.init {L : Task} {S : Key.Tsd D V} (hL : Started L p thread) :
  Locks u p thread (start L S)
  := by
  constructor
  · refine ⟨.inl hL.published, hL.thread, fun hexited => ?_⟩
    rw [start, State.idle_shared] at hexited
    obtain hstate | hstate := hL.state
    all_goals
      rw [hstate] at hexited
      cases hexited
  · intro v k hk
    cases hk
  · exact .inl hL.alive
  · refine ⟨[], ⟨rfl, rfl, rfl⟩, fun k => ?_⟩
    simp [start]
  · intro _ call hentered
    obtain ⟨l, hl⟩ := hentered
    cases hl
  · intro l call before hsuffix
    cases List.suffix_nil.mp hsuffix

omit [DecidableEq T] in
/-- A thread that has been halted has released its locks. -/
theorem Locks.leftCleanly (hs : Locks u p thread s) :
  LeftCleanly u p s
  := by
  refine ⟨hs.entered, fun hhalted k => ?_⟩
  obtain halive | ⟨l, hl, hgone⟩ := hs.alive
  · exact absurd halive hhalted
  · obtain ⟨base, hn, hc⟩ := hs.covered
    obtain ⟨hplace, hlocks⟩ := gone_place (p := p) hgone
    rw [Option.mem_def.mp hl] at hn hc
    rw [placeOf, Option.elim_some, hplace] at hn
    obtain ⟨hrunning, -, rfl⟩ := hn
    have hk := hc k
    rw [Option.elim_some, hlocks, placeOf, Option.elim_some, hplace, spare, hrunning] at hk
    exact Nat.le_zero.mp hk

/-- A thread that is not redirected inside `pthread_exit`, nor while it may be on a queue or holds a
lock that no handler releases, and whose handlers and destructors neither act on a cancellation in
`pthread_exit` nor, in a destructor, call it, leaves no lock behind. -/
theorem exit_releases {L : Task} {S : Key.Tsd D V} (hL : Started L p thread)
    (hs : (machine u p thread).Reach (LeavesCleanly u p) (start L S) s) :
  LeftCleanly u p s
  := by
  have hinv : Locks u p thread s := by
    apply hs.invariant (Locks.init hL)
    intro s a s' _ hs hG hstep
    exact hs.step hG hstep
  exact hinv.leftCleanly

theorem started_enabledThread :
  Started enabledThread 0 1
  := by
  constructor <;> decide

/-- The thread has a value for a key with a destructor, which `pthread_exit` calls. -/
def destroys {T : Type} (t : T) : List (Label T (Loc Unit Unit)) :=
  calls t (.lock (.key (.create (some ()) true))) 2 ++
    calls t (.setspecific 0 (some ()) true true) 1 ++ calls t (.exit (.value 7)) 9

/-- The destructor calls `pthread_testcancel`, and the thread is halted. -/
theorem exit_releases_destroys :
  ∃ s : Sys (Fin 2) Unit Unit,
    (machine 0 0 1).Reach (LeavesCleanly 0 0) (start enabledThread noData) s ∧
      ¬ Alive 0 s.shared.task ∧ LeftCleanly 0 0 s
  := by
  obtain ⟨s, hs, hp⟩ := Machine.exists_reach_of_run (M := machine (0 : Fin 2) 0 1)
    (G := LeavesCleanly 0 0) (s := start enabledThread noData)
    (destroys 0 ++ calls 0 (.lock .testcancel) 2 ++ calls 0 (.leave 0) 9)
    (fun s => ¬ Alive 0 s.shared.task) (by decide +kernel)
  simp only [decide_eq_true_eq] at hp
  exact ⟨s, hs, hp, exit_releases started_enabledThread hs⟩

/-- Another thread cancels the thread before the destructor calls `pthread_testcancel`:
`pthread_exit` is entered again, and the thread is halted with `__pthread_key_lock` held. -/
theorem key_lock_held :
  ∃ s : Sys (Fin 2) Unit Unit,
    (machine 0 0 1).Reach (fun _ _ => True) (start enabledThread noData) s ∧
      Started enabledThread 0 1 ∧
      exitCalls 0 s.log = [⟨.canceled, .cancellation⟩, ⟨.value 7, .program⟩] ∧
      ¬ Alive 0 s.shared.task ∧ s.shared.held .key = 1 ∧ ¬ LeftCleanly 0 0 s
  := by
  obtain ⟨s, hs, hp⟩ := Machine.exists_reach_of_run (M := machine (0 : Fin 2) 0 1)
    (G := fun _ _ => True) (s := start enabledThread noData)
    (destroys 0 ++ cancels 1 ++ calls 0 (.lock .testcancel) 15)
    (fun s => exitCalls 0 s.log = [⟨.canceled, .cancellation⟩, ⟨.value 7, .program⟩] ∧
      ¬ Alive 0 s.shared.task ∧ s.shared.held .key = 1) (by decide +kernel)
  simp only [decide_eq_true_eq] at hp
  obtain ⟨hcalls, hhalted, hheld⟩ := hp
  refine ⟨s, hs, started_enabledThread, hcalls, hhalted, hheld, fun hclean => ?_⟩
  have hfree := hclean.free hhalted .key
  omega

end Runs

end LibPthread.Thread.Exit
