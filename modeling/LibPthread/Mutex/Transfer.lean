import LibPthread.Mutex.Ownership
import Mathlib.Data.Fintype.Option
import Mathlib.Logic.Equiv.Basic

/-!
# The transfer of a mutex to another thread

`__pthread_mutex_transfer_np`, and the system of threads that lock, unlock and transfer one mutex.
In the history of a run a transfer makes the caller and the target change places in all that was
before: then the other thread is the one that has locked the mutex so far. Read in this way, the
steps of the system are those of the system without transfers, and the ownership invariant of the
latter says who holds the mutex.
-/

open Concurrency

namespace LibPthread

namespace Mutex

variable {T Q : Type} [DecidableEq T]

/-- `__pthread_mutex_transfer_np`, called by `self`, where `__pthread_getid (tid)` is `thread`. -/
def transfer {Loc : Type} (b : Build) (self : T) (thread : Option T) (s : World (Mutex T) T Q) :
    Outcome (World (Mutex T) T Q) Loc Ret :=
  b.assert (s.obj.owner = some self)
    (match thread with
    | none => .ret s (.error .ESRCH)
    | some thread =>
      if thread = self then .ret s .zero
      else
        let mx := s.obj
        if mx.attr = some .errorcheck ∧ mx.owner ≠ some self then .ret s (.error .EPERM)
        else
          let mx := if mx.attr = some .errorcheck then { mx with owner := some thread } else mx
          let mx :=
            if ¬ b.ndebug ∧ (b.alwaysTrackMutexOwner ∨ ¬ mx.isNormal) then
              { mx with owner := some thread }
            else mx
          .ret ⟨mx, s.waits⟩ .zero)

/-- The builds and types of a mutex for which the holder can transfer it to `thread`: `owner` is
maintained when it is tested, and it is rewritten when it is maintained. -/
def Transferable (b : Build) (self thread : T) (mx : Mutex T) : Prop :=
  ¬ (mx.isNormal = true ∧ b.ndebug = false ∧ b.alwaysTrackMutexOwner = false) ∧
    ¬ (mx.attr = some .recursive ∧ b.ndebug = true ∧ thread ≠ self)

namespace Transfer

/-! ### The system -/

/-- The control points of a thread using the mutex. -/
inductive Loc (T : Type) where
  | op (l : Mutex.Loc T)
  /-- In `__pthread_mutex_transfer_np`. -/
  | transfer (thread : Option T)
  deriving DecidableEq

/-- The control points at which a call starts. -/
def Loc.entry : Loc T → Bool
  | .op l => l.entry
  | .transfer _ => true

/-- The control point of the system without transfers. -/
def Loc.op? : Loc T → Option (Mutex.Loc T)
  | .op l => some l
  | .transfer _ => none

/-- The functions of one mutex. -/
def machine (b : Build) : Machine T (World (Mutex T) T Unit) (Loc T) Ret where
  entry := Loc.entry
  step self
    | .op l, timeout, s => (Mutex.step b () self l timeout s).lift id .op .ret
    | .transfer thread, _, s => transfer b self thread s

/-- A state of the system. -/
abbrev Sys (T : Type) :=
  State T (World (Mutex T) T Unit) (Loc T) Ret

/-- The log of a run. -/
abbrev Log (T : Type) :=
  List (Event T (Loc T) Ret)

/-- The number of acquisitions of `t` that are not yet undone, as `depth` counts them. A transfer
exchanges those of the caller and of the target. -/
def acquisitions (t : T) : Log T → Nat
  | [] => 0
  | .goto u (.op l) (.op _) :: log =>
    if u = t ∧ l = .unlock .start then acquisitions t log - 1 else acquisitions t log
  | .ret u (.op l) r :: log =>
    if u = t ∧ r = .zero then
      match l with
      | .lock _ => acquisitions t log + 1
      | .trylock => acquisitions t log + 1
      | .unlock .start => acquisitions t log - 1
      | .unlock (.wakeup _) => acquisitions t log
    else acquisitions t log
  | .ret u (.transfer (some v)) .zero :: log => acquisitions (Equiv.swap u v t) log
  | _ :: log => acquisitions t log

/-- The number of acquisitions of `t`, as the mutex counts it. -/
def count (s : Sys T) (t : T) : Nat :=
  tally s.shared.obj.attr (acquisitions t s.log)

/-! ### Histories without transfers -/

/-- The control point with the threads renamed. -/
def rename (σ : Equiv.Perm T) : Mutex.Loc T → Mutex.Loc T
  | .lock l => .lock l
  | .trylock => .trylock
  | .unlock .start => .unlock .start
  | .unlock (.wakeup u) => .unlock (.wakeup (σ u))

/-- The event with the threads renamed. -/
def renameEvent (σ : Equiv.Perm T) : Event T (Mutex.Loc T) Ret → Event T (Mutex.Loc T) Ret
  | .call t l => .call (σ t) (rename σ l)
  | .goto t l l' => .goto (σ t) (rename σ l) (rename σ l')
  | .ret t l r => .ret (σ t) (rename σ l) r

/-- The log without transfers: each of them exchanges the two threads in all that was before. -/
def viewLog : Log T → Mutex.Log T
  | [] => []
  | .call t (.op l) :: log => .call t l :: viewLog log
  | .goto t (.op l) (.op l') :: log => .goto t l l' :: viewLog log
  | .ret t (.op l) r :: log => .ret t l r :: viewLog log
  | .ret u (.transfer (some v)) .zero :: log =>
    (viewLog log).map (renameEvent (Equiv.swap u v))
  | _ :: log => viewLog log

/-- The state of the system without transfers. -/
@[simps]
def view (s : Sys T) : Mutex.Sys T where
  shared := s.shared
  loc t := (s.loc t).bind Loc.op?
  log := viewLog s.log

section Rename

variable (σ : Equiv.Perm T) (t : T) (log : Mutex.Log T)

omit [DecidableEq T] in
@[simp]
theorem rename_eq_start_iff {l : Mutex.Loc T} :
  rename σ l = .unlock .start ↔ l = .unlock .start
  := by
  rcases l with _ | _ | (_ | _)
  all_goals simp [rename]

omit [DecidableEq T] in
@[simp]
theorem rename_eq_wakeup_iff {l : Mutex.Loc T} :
  rename σ l = .unlock (.wakeup (σ t)) ↔ l = .unlock (.wakeup t)
  := by
  rcases l with _ | _ | (_ | _)
  all_goals simp [rename]

theorem depth_rename :
  depth (σ t) (log.map (renameEvent σ)) = depth t log
  := by
  induction log with
  | nil => rfl
  | cons e log ih =>
      rcases e with ⟨u, l⟩ | ⟨u, l, l'⟩ | ⟨u, l, r⟩
      · exact ih
      · simp [renameEvent, depth, ih]
      · rcases l with _ | _ | (_ | _)
        all_goals simp [renameEvent, rename, depth, ih]

theorem handed_rename :
  handed (σ t) (log.map (renameEvent σ)) = handed t log
  := by
  induction log with
  | nil => rfl
  | cons e log ih =>
      rcases e with ⟨u, l⟩ | ⟨u, l, l'⟩ | ⟨u, l, r⟩
      · exact ih
      · simp [renameEvent, handed, ih]
      · simp [renameEvent, handed, ih]

end Rename

/-- The acquisitions are those of the log without transfers. -/
theorem depth_viewLog (t : T) (log : Log T) :
  depth t (viewLog log) = acquisitions t log
  := by
  induction log generalizing t with
  | nil => rfl
  | cons e log ih =>
      rcases e with ⟨u, l | x⟩ | ⟨u, l | x, l' | x'⟩ | ⟨u, l | (_ | v), r⟩
      · simp [viewLog, depth, acquisitions, ih]
      · simp [viewLog, acquisitions, ih]
      · simp [viewLog, depth, acquisitions, ih]
      · simp [viewLog, acquisitions, ih]
      · simp [viewLog, acquisitions, ih]
      · simp [viewLog, acquisitions, ih]
      · rcases l with _ | _ | (_ | _)
        all_goals simp [viewLog, depth, acquisitions, ih]
      · simp [viewLog, acquisitions, ih]
      · cases r with
        | zero =>
            have h := depth_rename (Equiv.swap u v) (Equiv.swap u v t) (viewLog log)
            rw [Equiv.swap_apply_self] at h
            simp only [viewLog, acquisitions]
            rw [h, ih]
        | _ => simp [viewLog, acquisitions, ih]

section View

variable {s : Sys T} {t : T} {x : World (Mutex T) T Unit} {l l' : Mutex.Loc T} {r : Ret}

theorem view_loc_update (s : Sys T) (t : T) (o : Option (Loc T)) :
  (fun u => (Function.update s.loc t o u).bind Loc.op?)
    = Function.update (view s).loc t (o.bind Loc.op?)
  := by
  funext u
  by_cases hu : u = t
  · subst hu
    simp
  · simp [hu]

theorem view_call :
  view (s.call t (.op l)) = (view s).call t l
  := by
  simp only [view, State.call, view_loc_update, viewLog]
  rfl

theorem view_goto :
  view (s.goto t (.op l) x (.op l')) = (view s).goto t l x l'
  := by
  simp only [view, State.goto, view_loc_update, viewLog]
  rfl

theorem view_ret :
  view (s.ret t (.op l) x r) = (view s).ret t l x r
  := by
  simp only [view, State.ret, view_loc_update, viewLog]
  rfl

/-- The call of a transfer leaves the system without transfers as it is. -/
theorem view_call_transfer {thread : Option T} (ht : s.loc t = none) :
  view (s.call t (.transfer thread)) = view s
  := by
  have hloc : Function.update (view s).loc t none = (view s).loc := by
    rw [Function.update_eq_self_iff]
    simp [ht]
  simp only [view, State.call, view_loc_update, viewLog]
  exact congrArg (fun loc => (⟨s.shared, loc, viewLog s.log⟩ : Mutex.Sys T)) hloc

theorem view_ret_transfer_loc {thread : Option T} (ht : s.loc t = some (.transfer thread)) :
  (view (s.ret t (.transfer thread) x r)).loc = (view s).loc
  := by
  simp only [view, State.ret, view_loc_update]
  rw [Function.update_eq_self_iff]
  simp [ht, Loc.op?]

end View

/-! ### The steps -/

variable {b : Build} {s s' : Sys T} {a : Label T (Loc T)} {self t : T}

theorem transfer_ne_goto {thread : Option T} {x x' : World (Mutex T) T Q}
    {L : Type} {l' : L} :
  (transfer b self thread x : Outcome (World (Mutex T) T Q) L Ret) ≠ .goto x' l'
  := by
  simp only [transfer, Build.assert]
  grind

theorem transfer_waits {thread : Option T} {x x' : World (Mutex T) T Q} {L : Type} {r : Ret}
    (h : (transfer b self thread x : Outcome (World (Mutex T) T Q) L Ret) = .ret x' r) :
  x'.waits = x.waits
  := by
  simp only [transfer, Build.assert] at h
  grind

/-- The step of the system without transfers. -/
def opLabel : Label T (Loc T) → Option (Label T (Mutex.Loc T))
  | .call t (.op l) => some (.call t l)
  | .call _ (.transfer _) => none
  | .act t timeout => some (.act t timeout)

/-- A step of the system is one of the system without transfers, or the call or the end of a
transfer. -/
theorem step_cases (h : (machine b).Step s a s') :
  (∃ a₀, opLabel a = some a₀ ∧ (Mutex.machine b).Step (view s) a₀ (view s'))
    ∨ view s' = view s
    ∨ ∃ t c thread x r, a = .act t c ∧ s.loc t = some (.transfer thread)
      ∧ (machine b).step t (.transfer thread) c s.shared = .ret x r
      ∧ s' = s.ret t (.transfer thread) x r
  := by
  cases h with
  | @call t l hidle hentry =>
      cases l with
      | op l =>
          refine Or.inl ⟨.call t l, rfl, ?_⟩
          rw [view_call]
          exact .call (by simp [hidle]) hentry
      | transfer thread => exact Or.inr (Or.inl (view_call_transfer hidle))
  | @goto t c l l' x hl hstep =>
      cases l with
      | op l =>
          simp only [machine, Outcome.lift_eq_goto_iff, id_eq] at hstep
          rcases hstep with ⟨x₁, l₁, hstep, rfl, rfl⟩ | ⟨_, _, _, hstep⟩
          · refine Or.inl ⟨.act t c, rfl, ?_⟩
            rw [view_goto]
            exact .goto (by simp [hl, Loc.op?]) hstep
          · cases hstep
      | transfer thread => exact absurd hstep transfer_ne_goto
  | @ret t c l x r hl hstep =>
      cases l with
      | op l =>
          simp only [machine, Outcome.lift_eq_ret_iff, id_eq] at hstep
          obtain ⟨x₁, r₁, hstep, hr⟩ := hstep
          obtain ⟨rfl, rfl⟩ := hr
          refine Or.inl ⟨.act t c, rfl, ?_⟩
          rw [view_ret]
          exact .ret (by simp [hl, Loc.op?]) hstep
      | transfer thread => exact Or.inr (Or.inr ⟨t, c, thread, x, r, rfl, hl, hstep, rfl⟩)

/-- Steps that keep the ownership: time-outs are valid, a normal mutex is unlocked, and a mutex is
transferred, only by a thread that holds it, and only a transferable one is transferred. -/
def Lawful (b : Build) (s : Sys T) : Label T (Loc T) → Prop
  | .call _ (.op (.lock (.start abstime))) => badTime abstime = false
  | .call _ _ => True
  | .act t c => Mutex.Lawful (view s) (.act t c) ∧ ∀ thread, s.loc t = some (.transfer thread) →
    count s t ≠ 0 ∧ ∀ u ∈ thread, Transferable b t u s.shared.obj

instance (b : Build) (self thread : T) (mx : Mutex T) : Decidable (Transferable b self thread mx) :=
  inferInstanceAs (Decidable (_ ∧ _))

instance (s : Mutex.Sys T) (a : Label T (Mutex.Loc T)) : Decidable (Mutex.Lawful s a) :=
  match a with
  | .call _ _ => inferInstanceAs (Decidable True)
  | .act _ _ => inferInstanceAs (Decidable (_ → _))

instance [Fintype T] (s : Sys T) (a : Label T (Loc T)) : Decidable (Lawful b s a) :=
  match a with
  | .call _ (.op (.lock (.start _))) => inferInstanceAs (Decidable (_ = _))
  | .call _ (.op (.lock (.wait _))) => inferInstanceAs (Decidable True)
  | .call _ (.op (.lock (.finish _))) => inferInstanceAs (Decidable True)
  | .call _ (.op .trylock) => inferInstanceAs (Decidable True)
  | .call _ (.op (.unlock _)) => inferInstanceAs (Decidable True)
  | .call _ (.transfer _) => inferInstanceAs (Decidable True)
  | .act _ _ => inferInstanceAs (Decidable (_ ∧ _))

theorem Lawful.view {a₀ : Label T (Mutex.Loc T)} (h : Lawful b s a) (ha : opLabel a = some a₀) :
  Mutex.Lawful (Transfer.view s) a₀
  := by
  cases a with
  | call t l =>
      cases l with
      | op l =>
          obtain rfl := Option.some.inj ha
          trivial
      | transfer thread => cases ha
  | act t c =>
      obtain rfl := Option.some.inj ha
      exact h.1

/-! ### The invariant -/

theorem roles_view (s : Sys T) :
  roles (fun _ => Mutex.Loc.role ()) (view s)
    = roles (fun _ l => (Loc.op? l).elim (Role.idle : Role T Unit) (Mutex.Loc.role ())) s
  := by
  funext t
  simp only [roles, view_loc]
  rcases s.loc t with _ | (l | thread)
  all_goals rfl

/-- The steps of the system are acts of the wakeup protocol. -/
theorem conforms (b : Build) :
  Conforms (machine (T := T) b) (fun _ => False)
    (fun _ l => (Loc.op? l).elim (Role.idle : Role T Unit) (Mutex.Loc.role ())) (fun _ => True)
  := by
  have hbase := Mutex.conforms (T := T) b
  constructor
  · intro t l he _
    cases l with
    | op l => exact hbase.entry t l he trivial
    | transfer thread => rfl
  · intro t l c s s' l' _ hport h
    cases l with
    | op l =>
        simp only [machine, Outcome.lift_eq_goto_iff, id_eq] at h
        rcases h with ⟨x₁, l₁, h, rfl, rfl⟩ | ⟨_, _, _, h⟩
        · exact hbase.goto t l c s x₁ l₁ trivial hport h
        · cases h
    | transfer thread => exact absurd h transfer_ne_goto
  · intro t l c s s' r _ hport h
    cases l with
    | op l =>
        simp only [machine, Outcome.lift_eq_ret_iff, id_eq] at h
        obtain ⟨x₁, r₁, h, hr⟩ := h
        obtain ⟨rfl, rfl⟩ := hr
        exact hbase.ret t l c s _ _ trivial hport h
    | transfer thread =>
        rw [transfer_waits h]
        exact Act.skip

theorem sound_of_reach [Fintype T] {attr : Option MutexType} {G : Sys T → Label T (Loc T) → Prop}
    (hs : (machine b).Reach G (State.idle ⟨Mutex.init attr, Waits.empty⟩) s) :
  Sound (fun _ => False) (roles (fun _ => Mutex.Loc.role ()) (view s)) s.shared.waits
  := by
  rw [roles_view]
  exact ((conforms b).sound (fun _ _ _ _ => trivial) hs).2

section Passed

variable {h : T} {x : World (Mutex T) T Unit}

/-- After a transfer the two threads have changed places in the history. -/
theorem depth_of_transfer (s : Sys T) (h t u : T) (x : World (Mutex T) T Unit) :
  depth u (view (s.ret h (.transfer (some t)) x .zero)).log
    = depth (Equiv.swap h t u) (view s).log
  := by
  rw [view_log, view_log, depth_viewLog, depth_viewLog]
  rfl

theorem handed_of_transfer (s : Sys T) (h t u : T) (x : World (Mutex T) T Unit) :
  handed u (view (s.ret h (.transfer (some t)) x .zero)).log
    = handed (Equiv.swap h t u) (view s).log
  := by
  have := handed_rename (Equiv.swap h t) (Equiv.swap h t u) (view s).log
  rwa [Equiv.swap_apply_self] at this

/-- The holder of the mutex passes it to another thread. -/
theorem holder_of_transfer (hh : Holder b (view s) h)
    (hnot : handed h (view s).log = false) (hattr : x.obj.attr = s.shared.obj.attr)
    (hlocks : x.obj.locks = s.shared.obj.locks)
    (howner : s.shared.obj.tracked b = true → x.obj.owner = some t) :
  Holder b (view (s.ret h (.transfer (some t)) x .zero)) t
  := by
  have hpassed : Equiv.swap h t t = h := Equiv.swap_apply_right h t
  constructor
  · intro u hu
    rw [depth_of_transfer, handed_of_transfer]
    have hne : Equiv.swap h t u ≠ h := by
      intro heq
      apply hu
      rw [← Equiv.swap_apply_self h t u, heq, Equiv.swap_apply_left]
    simpa [hattr] using hh.others _ hne
  · rw [handed_of_transfer, hpassed, hnot]
    simp
  · intro _
    rw [depth_of_transfer, hpassed]
    simpa [hattr, hlocks] using hh.kept hnot
  · intro htracked
    left
    apply howner
    simpa [tracked_congr hattr] using htracked

/-- A transfer leaves the threads in their places. -/
theorem placed_of_transfer (hloc : s.loc h = some (.transfer (some t)))
    (hwaits : x.waits = s.shared.waits)
    (hnot : ∀ u, u = h ∨ u = t → handed u (view s).log = false) {u : T}
    (hu : Placed (view s) u) :
  Placed (view (s.ret h (.transfer (some t)) x .zero)) u
  := by
  have hhanded : handed u (view (s.ret h (.transfer (some t)) x .zero)).log
      = handed u (view s).log := by
    rw [handed_of_transfer]
    by_cases huh : u = h
    · rw [huh, Equiv.swap_apply_left, hnot h (Or.inl rfl), hnot t (Or.inr rfl)]
    · by_cases hut : u = t
      · rw [hut, Equiv.swap_apply_right, hnot h (Or.inl rfl), hnot t (Or.inr rfl)]
      · rw [Equiv.swap_apply_of_ne_of_ne huh hut]
  have hshared : (view (s.ret h (.transfer (some t)) x .zero)).shared.waits
      = (view s).shared.waits := hwaits
  unfold Placed at hu ⊢
  rw [view_ret_transfer_loc hloc, hhanded, hshared]
  exact hu

end Passed

end Transfer

end Mutex

end LibPthread
