import LibPthread.Barrier.Functions

/-!
# The rounds of a barrier

The calls are numbered in the order in which they arrive, that is, enter their section, and
call `k` belongs to the round `k / count`. Calls return only after their round is complete,
the last arrival of a round wakes up the other callers of the round and returns
`PTHREAD_BARRIER_SERIAL_THREAD`, the others return `0`. This holds for every barrier but
those for one thread, which keep their lock after the first call.
-/

open Concurrency

namespace LibPthread

namespace Barrier

variable {T : Type} [DecidableEq T]

/-! ### The history of a run -/

/-- The log of a run. -/
abbrev Log (T : Type) :=
  List (Event T (Loc T) Ret)

/-- The threads whose calls have arrived, the latest first. -/
def arrivals : Log T → List T
  | [] => []
  | .call _ _ :: log => arrivals log
  | .goto t l _ :: log => if l = .start then t :: arrivals log else arrivals log
  | .ret t l _ :: log => if l = .start then t :: arrivals log else arrivals log

/-- The number of the latest call of `t` that has arrived. -/
def number (t : T) : Log T → Nat
  | [] => 0
  | .call _ _ :: log => number t log
  | .goto u l _ :: log =>
    if u = t ∧ l = .start then (arrivals log).length else number t log
  | .ret u l _ :: log =>
    if u = t ∧ l = .start then (arrivals log).length else number t log

/-- The threads to which the latest call of `t` that has arrived has sent a wakeup, the
latest first. -/
def sent (t : T) : Log T → List T
  | [] => []
  | .call _ _ :: log => sent t log
  | .goto u l _ :: log =>
    if u = t then
      match l with
      | .start => []
      | .wakeup v _ => v :: sent t log
      | _ => sent t log
    else sent t log
  | .ret u l _ :: log => if u = t ∧ l = .start then [] else sent t log

/-- The callers of the round of call `k` that arrived before it, the latest first. -/
def peers (count k : Nat) (log : Log T) : List T :=
  ((arrivals log).drop ((arrivals log).length - k)).take (k % count)

/-- The round of call `k` is complete. -/
def Complete (count k : Nat) (log : Log T) : Prop :=
  (k / count + 1) * count ≤ (arrivals log).length

/-- What call `k` returns. -/
def result (count k : Nat) : Ret :=
  if (k + 1) % count = 0 then .serialThread else .zero

/-! ### The effects of the steps -/

/-- What the steps of the system do at a barrier for several threads, one constructor for
each kind of step. -/
inductive Effect (b : Build) (s : Sys T) : Label T (Loc T) → Sys T → Prop where
  | call {t : T} (idle : s.loc t = none) : Effect b s (.call t .start) (s.call t .start)
  | detach {t : T} {c : Bool} (at_l : s.loc t = some .start)
    (last : decPending s.shared.obj.pending = 0) :
    Effect b s (.act t c) (s.goto t .start
      ⟨⟨false, s.shared.obj.count, s.shared.obj.count⟩, s.shared.waits.detach ()⟩
      (.iterate (s.shared.waits.queue ())))
  | enqueue {t : T} {c : Bool} (at_l : s.loc t = some .start)
    (early : decPending s.shared.obj.pending ≠ 0) :
    Effect b s (.act t c) (s.goto t .start
      ⟨⟨false, decPending s.shared.obj.pending, s.shared.obj.count⟩,
        s.shared.waits.enqueue () t⟩ .block)
  | visit {t u : T} {c : Bool} {us : List T} (at_l : s.loc t = some (.iterate (u :: us))) :
    Effect b s (.act t c) (s.goto t (.iterate (u :: us))
      ⟨s.shared.obj, s.shared.waits.unlink u⟩ (.wakeup u us))
  | wakeup {t u : T} {c : Bool} {us : List T} (at_l : s.loc t = some (.wakeup u us)) :
    Effect b s (.act t c) (s.goto t (.wakeup u us)
      ⟨s.shared.obj, s.shared.waits.send u⟩ (.iterate us))
  | finish {t : T} {c : Bool} (at_l : s.loc t = some (.iterate [])) :
    Effect b s (.act t c) (s.ret t (.iterate []) s.shared .serialThread)
  | receive {t : T} {c : Bool} (at_l : s.loc t = some .block)
    (message : 0 < s.shared.waits.port t) :
    Effect b s (.act t c) (s.ret t .block ⟨s.shared.obj, s.shared.waits.receive t⟩ .zero)

variable {b : Build} {s s' : Sys T} {a : Label T (Loc T)} {count : Nat}

/-- Every step of the system is one of the effects. -/
theorem effect_of_step [Fintype T]
    (hsound : Sound (fun _ => True) (roles (fun _ => Loc.role ()) s) s.shared.waits)
    (hcount : 1 < s.shared.obj.count) (h : (machine b).Step s a s') :
  Effect b s a s'
  := by
  have hport : ∀ t l, s.loc t = some l →
      ∀ u ∈ (l.role ()).owes, s.shared.waits.port u = 0 := by
    intro t l hl u hu
    apply hsound.port_of_owes (t := t)
    simp [roles, hl, hu]
  cases h with
  | @call t l hidle hentry =>
      cases l with
      | start => apply Effect.call hidle
      | _ => cases hentry
  | goto hl hstep =>
      rcases waitStep_eq_goto (hport _ _ hl) hstep with ⟨rfl, h⟩ | ⟨u, us, rfl, rfl, rfl⟩ |
        ⟨u, us, rfl, rfl, rfl⟩
      · obtain ⟨-, ⟨hlast, -, rfl, rfl⟩ | ⟨hearly, rfl, rfl⟩⟩ := waitStart_eq_goto h
        · apply Effect.detach hl hlast
        · apply Effect.enqueue hl hearly
      · apply Effect.visit hl
      · apply Effect.wakeup hl
  | ret hl hstep =>
      rcases waitStep_eq_ret (hport _ _ hl) hstep with ⟨rfl, h⟩ | ⟨rfl, rfl, rfl⟩ |
        ⟨rfl, hsome, rfl, rfl⟩
      · have := (waitStart_eq_ret h).2.2.1
        omega
      · apply Effect.finish hl
      · apply Effect.receive hl hsome

/-! ### Arrivals and rounds -/

/-- The effects of a step on the numbers of the calls: they count one more arrival if the
step is one. -/
theorem Effect.arrivals_eq (h : Effect b s a s') :
  arrivals s'.log = arrivals s.log ∨
    (s.loc a.thread = some .start ∧ arrivals s'.log = a.thread :: arrivals s.log ∧
      number a.thread s'.log = (arrivals s.log).length ∧ sent a.thread s'.log = [])
  := by
  cases h with
  | detach hl => simp [arrivals, number, sent, hl]
  | enqueue hl => simp [arrivals, number, sent, hl]
  | _ => simp [arrivals]

theorem Effect.other {t : T} (h : Effect b s a s') (ht : t ≠ a.thread) :
  s'.loc t = s.loc t ∧ number t s'.log = number t s.log ∧ sent t s'.log = sent t s.log
  := by
  have hne := ht.symm
  cases h with
  | _ => simp_all [number, sent]

theorem number_lt {t : T} {log : Log T} {m : Nat} (h : t ∈ (arrivals log).take m) :
  number t log < (arrivals log).length ∧ (arrivals log).length ≤ number t log + m
  := by
  induction log generalizing m with
  | nil => simp [arrivals] at h
  | cons e log ih =>
      -- the latest arrival of `t` is at most as far back as any other
      have hstep : ∀ (u : T) (l : Loc T),
          t ∈ (if l = Loc.start then u :: arrivals log else arrivals log).take m →
          (if u = t ∧ l = Loc.start then (arrivals log).length else number t log) <
              (if l = Loc.start then u :: arrivals log else arrivals log).length ∧
            (if l = Loc.start then u :: arrivals log else arrivals log).length ≤
              (if u = t ∧ l = Loc.start then (arrivals log).length else number t log) + m := by
        intro u l h
        by_cases hl : l = .start
        · cases m with
          | zero => simp at h
          | succ m =>
              by_cases hu : u = t
              · simp [hl, hu]
              · have := @ih m (by simpa [hl, Ne.symm hu] using h)
                simp [hl, hu]
                omega
        · simp only [hl, and_false, if_false] at h ⊢
          apply ih h
      cases e with
      | call u l => apply ih h
      | goto u l l' => apply hstep u l h
      | ret u l r => apply hstep u l h

theorem peers_cons {log log' : Log T} {t : T} {k : Nat} (hk : k ≤ (arrivals log).length)
    (h : arrivals log' = t :: arrivals log) :
  peers count k log' = peers count k log
  := by
  have hsub : (arrivals log).length + 1 - k = ((arrivals log).length - k) + 1 := by
    omega
  simp [peers, h, hsub]

theorem peers_self (log : Log T) :
  peers count (arrivals log).length log = (arrivals log).take ((arrivals log).length % count)
  := by
  simp [peers]

/-- The next call completes its round. -/
theorem succ_mod_eq_zero {n : Nat} (h : n % count + 1 = count) :
  (n + 1) % count = 0 ∧ (n / count + 1) * count = n + 1
  := by
  have hdiv := Nat.div_add_mod n count
  have hmul : (n / count + 1) * count = n + 1 := by
    rw [Nat.add_mul, Nat.mul_comm]
    omega
  constructor
  · rw [← hmul, Nat.mul_mod_left]
  · apply hmul

/-- The next call does not complete its round. -/
theorem succ_mod_eq_succ (count n : Nat) (h : n % count + 1 < count) :
  (n + 1) % count = n % count + 1
  := by
  rw [Nat.add_mod, Nat.mod_eq_of_lt (show 1 < count by omega), Nat.mod_eq_of_lt h]

/-- A call that arrived in the present round has its number. -/
theorem div_eq_of_round {n k : Nat} (hcount : 0 < count) (hle : n ≤ k + n % count) (hlt : k ≤ n) :
  k / count = n / count
  := by
  have hdiv := Nat.div_add_mod n count
  have hmod := Nat.mod_lt n hcount
  apply Nat.div_eq_of_lt_le
  · rw [Nat.mul_comm]
    omega
  · rw [Nat.add_mul, Nat.mul_comm]
    omega

theorem Complete.of_le {log log' : Log T} {k : Nat} (h : Complete count k log)
    (hle : (arrivals log).length ≤ (arrivals log').length) :
  Complete count k log'
  := le_trans h hle

/-! ### The invariant -/

/-- What the place of a thread in the code says about its latest call. -/
def Placed (count : Nat) (s : Sys T) (t : T) : Prop :=
  match s.loc t with
  | none => True
  | some .start => True
  | some .block => (number t s.log + 1) % count ≠ 0 ∧ sent t s.log = [] ∧
    (t ∈ s.shared.waits.queue () ∨ Complete count (number t s.log) s.log)
  | some (.iterate next) => (number t s.log + 1) % count = 0 ∧
    number t s.log < (arrivals s.log).length ∧ Complete count (number t s.log) s.log ∧
    (sent t s.log).reverse ++ next = peers count (number t s.log) s.log ∧
    (peers count (number t s.log) s.log).Nodup
  | some (.wakeup u next) => (number t s.log + 1) % count = 0 ∧
    number t s.log < (arrivals s.log).length ∧ Complete count (number t s.log) s.log ∧
    (sent t s.log).reverse ++ u :: next = peers count (number t s.log) s.log ∧
    (peers count (number t s.log) s.log).Nodup

/-- The invariant of a barrier for `count` threads: the callers of the present round are
queued, in the order of their arrivals, and the rounds of the calls that are no longer
queued are complete. -/
structure Invariant (count : Nat) (s : Sys T) : Prop where
  lock : s.shared.obj.lock = false
  fixed : s.shared.obj.count = count
  pending : s.shared.obj.pending = count - (arrivals s.log).length % count
  queue : s.shared.waits.queue () = (arrivals s.log).take ((arrivals s.log).length % count)
  placed : ∀ t, Placed count s t

/-- Whether the next arrival is the last one of its round. -/
theorem Invariant.last_iff (hs : Invariant count s) (hcount : 1 < count) (hlt : count < 2 ^ 32) :
  (decPending s.shared.obj.pending = 0 ↔ (arrivals s.log).length % count + 1 = count) ∧
    decPending s.shared.obj.pending = count - (arrivals s.log).length % count - 1
  := by
  have hmod := Nat.mod_lt (arrivals s.log).length (show 0 < count by omega)
  rw [hs.pending, decPending_of_pos (by omega) (by omega)]
  omega

theorem Effect.fields (h : Effect b s a s') (hs : Invariant count s) (hcount : 1 < count)
    (hlt : count < 2 ^ 32) :
  s'.shared.obj.lock = false ∧ s'.shared.obj.count = count ∧
    s'.shared.obj.pending = count - (arrivals s'.log).length % count ∧
    s'.shared.waits.queue () = (arrivals s'.log).take ((arrivals s'.log).length % count)
  := by
  obtain ⟨hlast, hpred⟩ := hs.last_iff hcount hlt
  have hmod := Nat.mod_lt (arrivals s.log).length (show 0 < count by omega)
  have hqueue := hs.queue
  cases h with
  | detach hl hzero =>
      have hsucc := (succ_mod_eq_zero (hlast.mp hzero)).1
      simp [arrivals, hs.fixed, hsucc]
  | enqueue hl hearly =>
      have hsucc := succ_mod_eq_succ count (arrivals s.log).length (by
        rw [ne_eq, hlast] at hearly
        omega)
      simp only [State.goto_shared, State.goto_log, arrivals, hs.fixed, hpred, hsucc, if_true,
        List.length_cons, Waits.enqueue_queue, Function.update_self, List.take_succ_cons, hqueue]
      simp
      omega
  | _ => simpa [arrivals] using ⟨hs.lock, hs.fixed, hs.pending, hs.queue⟩


/-- A queued caller leaves the queue only when its round becomes complete. -/
theorem Effect.queued (h : Effect b s a s') (hs : Invariant count s) (hcount : 1 < count)
    (hlt : count < 2 ^ 32) {t : T} (ht : t ∈ s.shared.waits.queue ()) :
  t ∈ s'.shared.waits.queue () ∨ Complete count (number t s.log) s'.log
  := by
  cases h with
  | detach hl hzero =>
      right
      have hlast := (hs.last_iff hcount hlt).1.mp hzero
      obtain ⟨hnumber, hround⟩ := number_lt (hs.queue ▸ ht)
      have hdiv := div_eq_of_round (by omega) hround (Nat.le_of_lt hnumber)
      have hfull := (succ_mod_eq_zero hlast).2
      simp [Complete, arrivals, hdiv, hfull]
  | enqueue hl hearly =>
      left
      simp [ht]
  | _ =>
      left
      apply ht

/-- Every step keeps what the place of a thread in the code says about its call. -/
theorem Effect.placed (h : Effect b s a s') (hnodup : (s.shared.waits.queue ()).Nodup)
    (hs : Invariant count s) (hcount : 1 < count) (hlt : count < 2 ^ 32) (t : T) :
  Placed count s' t
  := by
  have hp := hs.placed t
  by_cases ht : t = a.thread
  · subst ht
    cases h with
    | call hidle => simp [Placed]
    | @detach t c hl hzero =>
        obtain ⟨hsucc, hfull⟩ := succ_mod_eq_zero ((hs.last_iff hcount hlt).1.mp hzero)
        have hpeers : peers count (arrivals s.log).length (s.goto t .start
            ⟨⟨false, s.shared.obj.count, s.shared.obj.count⟩, s.shared.waits.detach ()⟩
            (.iterate (s.shared.waits.queue ()))).log = s.shared.waits.queue () := by
          rw [hs.queue, ← peers_self]
          apply peers_cons (t := t) (by omega)
          simp [arrivals]
        simp only [State.goto_log] at hpeers
        simp [Placed, arrivals, number, sent, hsucc, Complete, hfull, hpeers, hnodup]
    | enqueue hl hearly =>
        obtain ⟨hlast, hpred⟩ := hs.last_iff hcount hlt
        have hmod := Nat.mod_lt (arrivals s.log).length (show 0 < count by omega)
        have hsucc := succ_mod_eq_succ count (arrivals s.log).length (by
          rw [ne_eq, hlast] at hearly
          omega)
        simp [Placed, number, sent, hsucc]
    | visit hl =>
        simp only [Placed, Label.thread, hl] at hp
        simpa [Placed, arrivals, number, sent, Complete, peers] using hp
    | wakeup hl =>
        simp only [Placed, Label.thread, hl] at hp
        simpa [Placed, arrivals, number, sent, Complete, peers] using hp
    | finish hl => simp [Placed]
    | receive hl => simp [Placed]
  · obtain ⟨hloc, hnumber, hsent⟩ := h.other ht
    have hle : (arrivals s.log).length ≤ (arrivals s'.log).length := by
      rcases h.arrivals_eq with heq | ⟨-, heq, -⟩
      · rw [heq]
      · simp [heq]
    have hpeers : number t s.log < (arrivals s.log).length →
        peers count (number t s.log) s'.log = peers count (number t s.log) s.log := by
      intro hk
      rcases h.arrivals_eq with heq | ⟨-, heq, -⟩
      · simp [peers, heq]
      · apply peers_cons (Nat.le_of_lt hk) heq
    cases hl : s.loc t with
    | none => simp [Placed, hloc, hl]
    | some l =>
        cases l with
        | start => simp [Placed, hloc, hl]
        | block =>
            simp only [Placed, hl] at hp
            simp only [Placed, hloc, hl, hnumber, hsent]
            use hp.1, hp.2.1
            rcases hp.2.2 with hq | hdone
            · apply h.queued hs hcount hlt hq
            · right
              apply hdone.of_le hle
        | iterate next =>
            simp only [Placed, hl] at hp
            obtain ⟨hlast, hk, hdone, hwalk, hdistinct⟩ := hp
            simp only [Placed, hloc, hl, hnumber, hsent, hpeers hk]
            use hlast, (by omega), hdone.of_le hle
        | wakeup u next =>
            simp only [Placed, hl] at hp
            obtain ⟨hlast, hk, hdone, hwalk, hdistinct⟩ := hp
            simp only [Placed, hloc, hl, hnumber, hsent, hpeers hk]
            use hlast, (by omega), hdone.of_le hle

section Reach

variable [Fintype T]

theorem sound_of_reach {bar : Barrier} {G : Sys T → Label T (Loc T) → Prop}
    (hs : (machine b).Reach G (State.idle ⟨bar, Waits.empty⟩) s) :
  Sound (fun _ => True) (roles (fun _ => Loc.role ()) s) s.shared.waits
  := ((conforms b).sound (fun _ _ _ _ => trivial) hs).2

/-- The invariant holds in every state reached from a barrier for several threads. -/
theorem invariant_of_reach {bar : Barrier} {G : Sys T → Label T (Loc T) → Prop}
    (hinit : init count = .ok bar) (hcount : 1 < count) (hlt : count < 2 ^ 32)
    (hs : (machine b).Reach G (State.idle ⟨bar, Waits.empty⟩) s) :
  Invariant count s
  := by
  have hbar : bar = ⟨false, count, count⟩ := by
    simp only [init] at hinit
    grind
  apply hs.invariant
  · subst hbar
    constructor
    all_goals simp [arrivals, Waits.empty, Placed]
  · intro s a s' hreach hinv _ hstep
    have heffect := effect_of_step (sound_of_reach hreach) (by rw [hinv.fixed]; omega) hstep
    obtain ⟨hlock, hfixed, hpending, hqueue⟩ := heffect.fields hinv hcount hlt
    constructor
    · apply hlock
    · apply hfixed
    · apply hpending
    · apply hqueue
    · apply heffect.placed ((sound_of_reach hreach).nodup ()) hinv hcount hlt

/-- A caller whose port has a message is not queued any more. -/
theorem Invariant.complete_of_message (hs : Invariant count s)
    (hsound : Sound (fun _ => True) (roles (fun _ => Loc.role ()) s) s.shared.waits) {t : T}
    (hl : s.loc t = some .block) (hport : 0 < s.shared.waits.port t) :
  Complete count (number t s.log) s.log
  := by
  have hp := hs.placed t
  simp only [Placed, hl] at hp
  rcases hp.2.2 with hq | hdone
  · have hgone := hsound.gone_of_message hport
    simp [hsound.linked () t hq] at hgone
  · apply hdone


/-! ### Calls whose round is complete -/

/-- Thread `t` is inside call `k`, which has arrived, and the round of the call is
complete. -/
def Released (count : Nat) (t : T) (k : Nat) (s : Sys T) : Prop :=
  (∃ l, s.loc t = some l ∧ l ≠ .start) ∧ number t s.log = k ∧ Complete count k s.log

omit [Fintype T] in
/-- A released call stays so until it returns its result. -/
theorem Effect.released (h : Effect b s a s') (hs : Invariant count s) {t : T} {k : Nat}
    (hr : Released count t k s) :
  (Released count t k s' ∧ Machine.returned t s'.log = Machine.returned t s.log) ∨
    Machine.returned t s'.log = result count k :: Machine.returned t s.log
  := by
  obtain ⟨⟨l, hl, hne⟩, hnumber, hdone⟩ := hr
  have hp := hs.placed t
  by_cases ht : t = a.thread
  · subst ht
    cases h with
    | call hidle => simp_all
    | detach hat => simp_all
    | enqueue hat => simp_all
    | visit hat =>
        left
        simpa [Released, number, Complete, arrivals, Machine.returned] using ⟨hnumber, hdone⟩
    | wakeup hat =>
        left
        simpa [Released, number, Complete, arrivals, Machine.returned] using ⟨hnumber, hdone⟩
    | finish hat =>
        right
        simp only [Placed, Label.thread, hat] at hp
        simp_all [Machine.returned, result]
    | receive hat =>
        right
        simp only [Placed, Label.thread, hat] at hp
        simp_all [Machine.returned, result]
  · left
    obtain ⟨hloc, hsame, -⟩ := h.other ht
    constructor
    · use ⟨l, hloc ▸ hl, hne⟩, hsame ▸ hnumber
      apply hdone.of_le
      rcases h.arrivals_eq with heq | ⟨-, heq, -⟩
      · rw [heq]
      · simp [heq]
    · have hne := Ne.symm ht
      cases h with
      | _ => simp_all [Machine.returned]

omit [DecidableEq T] [Fintype T] in
/-- The number of steps that a thread which wakes up the others has still to take. -/
def remaining : Option (Loc T) → Nat
  | some (.iterate next) => 2 * next.length + 1
  | some (.wakeup _ next) => 2 * next.length + 2
  | _ => 0

/-- The steps that the threads which wake up others have still to take. -/
def distance (s : Sys T) : Nat :=
  ∑ t, remaining (s.loc t)

/-- A thread that wakes up others can take a step towards the end of its loop. -/
theorem exists_walk_step
    (hsound : Sound (fun _ => True) (roles (fun _ => Loc.role ()) s) s.shared.waits) {v : T}
    (hv : remaining (s.loc v) ≠ 0) :
  ∃ s', (machine b).Step s (.act v false) s' ∧ distance s' < distance s
  := by
  have hdistance : ∀ s' : Sys T, (∀ u, u ≠ v → s'.loc u = s.loc u) →
      remaining (s'.loc v) < remaining (s.loc v) → distance s' < distance s := by
    intro s' hother hless
    have := sum_change (f := fun t => remaining (s.loc t)) (g := fun t => remaining (s'.loc t))
      (t := v) (fun u hu => by rw [hother u hu])
    simp only [distance]
    omega
  cases hl : s.loc v with
  | none => simp [hl, remaining] at hv
  | some l =>
      rcases l with _ | (_ | ⟨u, us⟩) | ⟨u, us⟩ | _
      case start => simp [hl, remaining] at hv
      case block => simp [hl, remaining] at hv
      case iterate.nil =>
        use s.ret v (.iterate []) s.shared .serialThread, Machine.Step.ret hl rfl
        apply hdistance
        · intro u hu
          simp [hu]
        · simp [hl, remaining]
      case iterate.cons =>
        use s.goto v (.iterate (u :: us)) ⟨s.shared.obj, s.shared.waits.unlink u⟩ (.wakeup u us),
          Machine.Step.goto hl rfl
        apply hdistance
        · intro u hu
          simp [hu]
        · simp [hl, remaining]
          omega
      case wakeup =>
        have hport : s.shared.waits.port u = 0 := by
          apply hsound.port_of_owes (t := v)
          simp [roles, hl, Loc.role]
        use s.goto v (.wakeup u us) ⟨s.shared.obj, s.shared.waits.send u⟩ (.iterate us)
        constructor
        · apply Machine.Step.goto hl
          simp [machine, waitStep, Build.wakeup_of hport]
        · apply hdistance
          · intro u hu
            simp [hu]
          · simp [hl, remaining]

omit [Fintype T] in
/-- A caller whose round is complete is not queued. -/
theorem Invariant.not_queued (hs : Invariant count s) (hcount : 1 < count) {t : T}
    (hdone : Complete count (number t s.log) s.log) :
  t ∉ s.shared.waits.queue ()
  := by
  intro hq
  obtain ⟨hnumber, hround⟩ := number_lt (hs.queue ▸ hq)
  have hdiv := div_eq_of_round (by omega) hround (Nat.le_of_lt hnumber)
  have hmod := Nat.mod_lt (arrivals s.log).length (show 0 < count by omega)
  have := Nat.div_add_mod (arrivals s.log).length count
  rw [Complete, hdiv, Nat.add_mul, Nat.mul_comm] at hdone
  omega

/-- A released call, or the thread that will wake it up, can take a step towards its
return. -/
theorem exists_progress
    (hsound : Sound (fun _ => True) (roles (fun _ => Loc.role ()) s) s.shared.waits)
    (hs : Invariant count s) (hcount : 1 < count) {t : T} {k : Nat}
    (hr : Released count t k s) :
  ∃ a s', (machine b).Step s a s' ∧
    (Machine.returned t s'.log = Machine.returned t s.log → distance s' < distance s)
  := by
  obtain ⟨⟨l, hl, hne⟩, hnumber, hdone⟩ := hr
  cases l with
  | start => apply absurd rfl hne
  | iterate next =>
      obtain ⟨s', hstep, hless⟩ := exists_walk_step (b := b) hsound (v := t)
        (by simp [hl, remaining])
      use .act t false, s', hstep, fun _ => hless
  | wakeup u next =>
      obtain ⟨s', hstep, hless⟩ := exists_walk_step (b := b) hsound (v := t)
        (by simp [hl, remaining])
      use .act t false, s', hstep, fun _ => hless
  | block =>
      by_cases hport : s.shared.waits.port t = 0
      · -- its message is still owed: the thread that owes it can go on
        have hrole : roles (fun _ => Loc.role ()) s t = ⟨.parked (), [], []⟩ := by
          simp [roles, hl, Loc.role]
        obtain ⟨v, hv⟩ := hsound.exists_pending (t := t) (q := ()) (by simp [hrole])
          (hs.not_queued hcount (hnumber ▸ hdone)) hport (by simp [hrole])
        obtain ⟨s', hstep, hless⟩ := exists_walk_step (b := b) hsound (v := v) (by
          cases hlv : s.loc v with
          | none => simp [roles, hlv, Role.idle] at hv
          | some l => cases l <;> simp_all [roles, Loc.role, Role.idle, remaining])
        use .act v false, s', hstep, fun _ => hless
      · use .act t false, s.ret t .block ⟨s.shared.obj, s.shared.waits.receive t⟩ .zero
        constructor
        · apply Machine.Step.ret hl
          simp [machine, waitStep, hport]
        · simp [Machine.returned]

/-- A released call will return its result. -/
theorem willReturn_of_released {bar : Barrier} (hinit : init count = .ok bar)
    (hcount : 1 < count) (hlt : count < 2 ^ 32)
    (hs : (machine b).Reach (fun _ _ => True) (State.idle ⟨bar, Waits.empty⟩) s) {t : T} {k : Nat}
    (hr : Released count t k s) :
  (machine b).WillReturn (fun _ _ => True) s t (result count k)
  := by
  apply Machine.WillReturn.of_rank distance (P := fun s =>
    (machine b).Reach (fun _ _ => True) (State.idle ⟨bar, Waits.empty⟩) s ∧
      Released count t k s)
  · use hs
  · rintro s a s' ⟨hreach, hr⟩ hG hstep
    have hinv := invariant_of_reach hinit hcount hlt hreach
    have heffect := effect_of_step (sound_of_reach hreach) (by rw [hinv.fixed]; omega) hstep
    rcases heffect.released hinv hr with ⟨hr', hsame⟩ | hret
    · left
      use ⟨hreach.step hG hstep, hr'⟩
    · right
      apply hret
  · rintro s ⟨hreach, hr⟩
    have hinv := invariant_of_reach hinit hcount hlt hreach
    obtain ⟨a, s', hstep, hless⟩ := exists_progress (b := b) (sound_of_reach hreach) hinv hcount hr
    use a, s', trivial, hstep, hless


/-! ### The rounds -/

omit [Fintype T] in
/-- There are `count - 1` callers before the last one of a round. -/
theorem length_peers {log : Log T} {k : Nat} (hcount : 0 < count)
    (hk : k < (arrivals log).length) (hlast : (k + 1) % count = 0) :
  (peers count k log).length = count - 1
  := by
  have hmod := Nat.mod_lt k hcount
  have hle := Nat.mod_le k count
  have hfull : k % count + 1 = count := by
    by_contra hne
    have := succ_mod_eq_succ count k (by omega)
    omega
  simp only [peers, List.length_take, List.length_drop]
  omega

/-- What a barrier for `count` threads is for, in the state `s`. -/
structure RoundsKept (b : Build) (count : Nat) (s : Sys T) : Prop where
  /-- Every call has released the lock before it blocked or returned, and the next round can
  start: as many calls are awaited as are missing to complete the present round. -/
  ready : s.shared.obj.lock = false ∧
    s.shared.obj.pending = count - (arrivals s.log).length % count
  /-- A call returns only after its round is complete, the last arrival of a round
  `PTHREAD_BARRIER_SERIAL_THREAD` and the others `0`. -/
  returns : ∀ t c l x r, s.loc t = some l → (machine b).step t l c s.shared = .ret x r →
    Complete count (number t s.log) s.log ∧ r = result count (number t s.log)
  /-- The last arrival of a round has woken up each of the other `count - 1` callers of its
  round once, and the others nobody. -/
  wakes : ∀ t c l x r, s.loc t = some l → (machine b).step t l c s.shared = .ret x r →
    (r = .serialThread → (sent t s.log).reverse = peers count (number t s.log) s.log ∧
      (sent t s.log).Nodup ∧ (sent t s.log).length = count - 1) ∧
    (r = .zero → sent t s.log = [])
  /-- All calls of a complete round will return. -/
  live : ∀ t l, s.loc t = some l → l ≠ .start → Complete count (number t s.log) s.log →
    (machine b).WillReturn (fun _ _ => True) s t (result count (number t s.log))
  safe : ¬ (machine b).Faults s

theorem Invariant.returns (hs : Invariant count s) (hcount : 1 < count)
    (hsound : Sound (fun _ => True) (roles (fun _ => Loc.role ()) s) s.shared.waits) {t : T}
    {c : Bool}
    {l : Loc T} {x : World Barrier T Unit} {r : Ret} (hl : s.loc t = some l)
    (hstep : (machine b).step t l c s.shared = .ret x r) :
  (Complete count (number t s.log) s.log ∧ r = result count (number t s.log)) ∧
    (r = .serialThread → (sent t s.log).reverse = peers count (number t s.log) s.log ∧
      (sent t s.log).Nodup ∧ (sent t s.log).length = count - 1) ∧
    (r = .zero → sent t s.log = [])
  := by
  have hport : ∀ u ∈ (l.role ()).owes, s.shared.waits.port u = 0 := by
    intro u hu
    apply hsound.port_of_owes (t := t)
    simp [roles, hl, hu]
  have hp := hs.placed t
  rcases waitStep_eq_ret hport hstep with ⟨rfl, h⟩ | ⟨rfl, -, rfl⟩ | ⟨rfl, hsome, -, rfl⟩
  · have := (waitStart_eq_ret h).2.2.1
    have := hs.fixed
    omega
  · simp only [Placed, hl, List.append_nil] at hp
    obtain ⟨hlast, hk, hdone, hwalk, hdistinct⟩ := hp
    constructor
    · use hdone
      simp [result, hlast]
    · simp only [reduceCtorEq, false_implies, and_true]
      intro _
      use hwalk
      rw [← hwalk, List.nodup_reverse] at hdistinct
      use hdistinct
      rw [← List.length_reverse, hwalk, length_peers (by omega) hk hlast]
  · have hdone := hs.complete_of_message hsound hl hsome
    simp only [Placed, hl] at hp
    constructor
    · use hdone
      simp [result, hp.1]
    · simp [hp.2.1]

/-- No assertion of the functions fails. -/
theorem ne_fault (hsound : Sound (fun _ => True) (roles (fun _ => Loc.role ()) s) s.shared.waits) :
  ¬ (machine b).Faults s
  := by
  rintro ⟨t, l, c, hl, h⟩
  rcases l with _ | (_ | ⟨u, us⟩) | ⟨u, us⟩ | _
  · apply waitStart_ne_fault _ h
    apply (hsound.outside t _).1
    simp [roles, hl, Loc.role, Role.idle]
  · cases h
  · cases h
  · have hport : s.shared.waits.port u = 0 := by
      apply hsound.port_of_owes (t := t)
      simp [roles, hl, Loc.role]
    simp [machine, waitStep, Build.wakeup_of hport] at h
  · simp only [machine, waitStep] at h
    grind

theorem roundsKept_of_reach {bar : Barrier} (hinit : init count = .ok bar) (hcount : 1 < count)
    (hlt : count < 2 ^ 32)
    (hs : (machine b).Reach (fun _ _ => True) (State.idle ⟨bar, Waits.empty⟩) s) :
  RoundsKept b count s
  := by
  have hinv := invariant_of_reach hinit hcount hlt hs
  have hsound := sound_of_reach hs
  constructor
  · use hinv.lock, hinv.pending
  · intro t c l x r hl hstep
    apply (hinv.returns hcount hsound hl hstep).1
  · intro t c l x r hl hstep
    apply (hinv.returns hcount hsound hl hstep).2
  · intro t l hl hne hdone
    apply willReturn_of_released hinit hcount hlt hs
    use ⟨l, hl, hne⟩
  · apply ne_fault hsound

omit [Fintype T] in
/-- A call at a barrier for one thread returns with the lock held. -/
theorem lock_of_one {bar : Barrier} (hinit : init 1 = .ok bar) (t : T) :
  ∃ s : Sys T, (machine b).Reach (fun _ _ => True) (State.idle ⟨bar, Waits.empty⟩) s ∧
    s.shared.obj.lock = true ∧ (∀ u, s.loc u = none)
  := by
  obtain rfl : bar = ⟨false, 1, 1⟩ := by
    simp only [init] at hinit
    grind
  have hzero : decPending 1 = 0 := decPending_of_pos (by omega) (by omega)
  have hcall := Machine.Step.call (M := machine b) (s := State.idle ⟨⟨false, 1, 1⟩, Waits.empty⟩)
    (t := t) (l := .start) rfl rfl
  have hret := Machine.Step.ret (M := machine b) (c := false) (x := ⟨⟨true, 1, 1⟩, Waits.empty⟩)
    (s := (State.idle ⟨⟨false, 1, 1⟩, Waits.empty⟩).call t .start) (t := t) (l := .start)
    (r := .serialThread) (by simp)
    (by simp [machine, waitStep, waitStart, hzero])
  refine ⟨_, (Machine.Reach.refl.step trivial hcall).step trivial hret, rfl, ?_⟩
  intro u
  simp [Function.update_apply]

/-- Barriers, for every count that `pthread_barrier_init` accepts, any number of threads and
any interleaving: the rounds are kept in every reachable state if and only if the barrier is
for more than one thread. -/
theorem rounds_kept_iff [Nonempty T] {bar : Barrier} (hinit : init count = .ok bar)
    (hlt : count < 2 ^ 32) :
  (∀ s : Sys T, (machine b).Reach (fun _ _ => True) (State.idle ⟨bar, Waits.empty⟩) s →
    RoundsKept b count s) ↔ count ≠ 1
  := by
  constructor
  · rintro hkept rfl
    obtain ⟨s, hs, hlock, -⟩ := lock_of_one (b := b) hinit (Classical.arbitrary T)
    have := (hkept s hs).ready.1
    simp [hlock] at this
  · intro hne s hs
    have hpos : count ≠ 0 := by
      rintro rfl
      cases hinit
    apply roundsKept_of_reach hinit (by omega) hlt hs

end Reach

/-- Thread `1` arrives last, wakes up thread `0` and is still in its loop when thread `0`
arrives for the next round. -/
def reentering {T : Type} (t u : T) : List (Label T (Loc T)) :=
  [.call t .start, .act t false, .call u .start, .act u false, .act u false, .act u false,
   .act t false, .call t .start, .act t false]

theorem rounds_kept_reentering :
  ∃ s : Sys (Fin 2), (machine Build.debug).Reach (fun _ _ => True)
      (State.idle ⟨⟨false, 2, 2⟩, Waits.empty⟩) s ∧
    s.loc 0 = some .block ∧ s.loc 1 = some (.iterate []) ∧ arrivals s.log = [0, 1, 0] ∧
    RoundsKept Build.debug 2 s
  := by
  obtain ⟨s, hs, hp⟩ := Machine.exists_reach_of_run (M := machine Build.debug)
    (G := fun _ _ => True) (s := State.idle ⟨⟨false, 2, 2⟩, Waits.empty⟩) (reentering (0 : Fin 2) 1)
    (fun s => s.loc 0 = some .block ∧ s.loc 1 = some (.iterate []) ∧
      arrivals s.log = [0, 1, 0]) (by decide +kernel)
  simp only [decide_eq_true_eq] at hp
  use s, hs, hp.1, hp.2.1, hp.2.2
  have hiff := rounds_kept_iff (T := Fin 2) (b := Build.debug)
    (show init 2 = .ok ⟨false, 2, 2⟩ from rfl)
    (by decide)
  apply hiff.mpr (by decide) s hs

/-- After one call at a barrier for one thread its lock is held and no thread is inside a
call. -/
theorem lock_kept_single :
  ∃ s : Sys (Fin 2), (machine Build.debug).Reach (fun _ _ => True)
      (State.idle ⟨⟨false, 1, 1⟩, Waits.empty⟩) s ∧
    init 1 = .ok ⟨false, 1, 1⟩ ∧ s.shared.obj.lock = true ∧ (∀ u, s.loc u = none) ∧
    ¬ RoundsKept Build.debug 1 s
  := by
  obtain ⟨s, hs, hlock, hidle⟩ := lock_of_one (b := Build.debug)
    (show init 1 = .ok ⟨false, 1, 1⟩ from rfl) (0 : Fin 2)
  use s, hs, rfl, hlock, hidle
  intro hkept
  have := hkept.ready.1
  simp [hlock] at this

end Barrier

end LibPthread
