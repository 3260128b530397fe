import LibPthread.Concurrency.System

/-!
# Sections under a spin lock

The steps of a machine are sections that a thread executes under a spin lock, or leave alone what
the lock protects. In memory a section is code that reads and writes one cell at a time, and
other threads run between any two accesses. The lock is a word of memory as well, and a thread
that does not get it spins. The code implements the machine: every run of single accesses looks
like a run of the machine in which each section is executed at once, at its last access.
-/

namespace Concurrency

/-! ### Code -/

/-- Code that reads and writes one cell of memory at a time, where the cell `c` holds a value in
`V c`. -/
inductive Code {C : Type} (V : C → Type) (α : Type) where
  | done (a : α)
  | fault
  | read (c : C) (next : V c → Code V α)
  | write (c : C) (x : V c) (next : Code V α)

namespace Code

variable {C α β : Type} {V : C → Type}

/-- Continues with the value of the code. -/
def bind : Code V α → (α → Code V β) → Code V β
  | .done a, k => k a
  | .fault, _ => .fault
  | .read c next, k => .read c fun x => (next x).bind k
  | .write c x next, k => .write c x (next.bind k)

variable [DecidableEq C]

/-- The value of the code and the memory after it, if it is executed without interruption and
does not fail. -/
@[simp]
def run : Code V α → (∀ c, V c) → Option (α × ∀ c, V c)
  | .done a, m => some (a, m)
  | .fault, _ => none
  | .read c next, m => (next (m c)).run m
  | .write c x next, m => next.run (Function.update m c x)

@[simp]
theorem run_bind (code : Code V α) (k : α → Code V β) (m : ∀ c, V c) :
  (code.bind k).run m = (code.run m).bind fun r => (k r.1).run r.2
  := by
  induction code generalizing m with
  | done a => rfl
  | fault => rfl
  | read c next ih => apply ih
  | write c x next ih => apply ih

end Code

/-! ### Programs -/

/-- How a thread leaves a section: it goes on at another control point, the call returns, or it
returns without releasing the lock. -/
inductive Exit (Loc Ret : Type) where
  | goto (l : Loc)
  | ret (r : Ret)
  | keep (r : Ret)

/-- The functions of an object whose memory is protected by a spin lock, next to a state of type
`P` that is not. At the control points for which `code` is defined the thread executes a section
under the lock, at the others a step that concerns the rest of the state. -/
structure Program (T : Type) {C : Type} (V : C → Type) (P Loc Ret : Type) where
  entry : Loc → Bool
  code : T → Loc → Option (Code V (Exit Loc Ret))
  outside : T → Loc → Bool → P → Outcome P Loc Ret

/-- Where a thread is in the execution of a program: before a control point, spinning for the
lock in the `i`-th round, or inside a section with the code that is left of it. -/
inductive Point {C : Type} (V : C → Type) (Loc Ret : Type) where
  | before (l : Loc)
  | spin (l : Loc) (code : Code V (Exit Loc Ret)) (i : Nat)
  | inside (l : Loc) (code : Code V (Exit Loc Ret))

namespace Point

variable {C Loc Ret : Type} {V : C → Type}

/-- The control point of the machine at which the thread is. -/
def loc : Point V Loc Ret → Loc
  | .before l => l
  | .spin l _ _ => l
  | .inside l _ => l

@[simp]
theorem loc_before (l : Loc) :
  (before l : Point V Loc Ret).loc = l
  := rfl

@[simp]
theorem loc_spin (l : Loc) (code : Code V (Exit Loc Ret)) (i : Nat) :
  (spin l code i).loc = l
  := rfl

@[simp]
theorem loc_inside (l : Loc) (code : Code V (Exit Loc Ret)) :
  (inside l code).loc = l
  := rfl

end Point

/-- The memory of an object: its lock, what the lock protects, and the rest. -/
structure Shared {C : Type} (V : C → Type) (P : Type) where
  lock : Int
  mem : ∀ c, V c
  rest : P

/-- The second step does what the first one does, if it does anything, with states related by
`R`. -/
def Outcome.Within {P σ Loc Ret : Type} (R : P → σ → Prop) :
    Outcome P Loc Ret → Outcome σ Loc Ret → Prop
  | .spin, _ => True
  | .fault, o => o = .fault
  | .goto p l, o => ∃ x, o = .goto x l ∧ R p x
  | .ret p r, o => ∃ x, o = .ret x r ∧ R p x

namespace Program

variable {T C P Loc Ret : Type} {V : C → Type}

/-- The exchange of the lock word with `1`, which acquires the lock if it was `0`. -/
def trylock (s : Shared V P) (acquired failed : Point V Loc Ret) :
    Outcome (Shared V P) (Point V Loc Ret) Ret :=
  .goto { s with lock := 1 } (if s.lock = 0 then acquired else failed)

variable [DecidableEq C]

/-- The execution of a program access by access. A thread that has tried to acquire the lock in
vain tries again `count` times, then yields the processor and starts over. -/
def accesses (prog : Program T V P Loc Ret) (count : Int) :
    Machine T (Shared V P) (Point V Loc Ret) Ret where
  entry
    | .before l => prog.entry l
    | .spin _ _ _ => false
    | .inside _ _ => false
  step t point c s :=
    match point with
    | .before l =>
      match prog.code t l with
      | none => (prog.outside t l c s.rest).lift (fun p => { s with rest := p }) .before .ret
      | some code => trylock s (.inside l code) (.spin l code 0)
    | .spin l code i =>
      if i < count then trylock s (.inside l code) (.spin l code (i + 1))
      else .goto s (.spin l code 0)
    | .inside _ (.done (.goto l')) => .goto { s with lock := 0 } (.before l')
    | .inside _ (.done (.ret r)) => .ret { s with lock := 0 } r
    | .inside _ (.done (.keep r)) => .ret s r
    | .inside _ .fault => .fault
    | .inside l (.read c next) => .goto s (.inside l (next (s.mem c)))
    | .inside l (.write c x next) =>
      .goto { s with mem := Function.update s.mem c x } (.inside l next)

variable [DecidableEq T]

/-- The state of an execution. -/
abbrev Exec (T : Type) {C : Type} (V : C → Type) (P Loc Ret : Type) :=
  State T (Shared V P) (Point V Loc Ret) Ret

/-- What the steps of an execution do, one constructor for each kind of step. -/
inductive Effect (prog : Program T V P Loc Ret) (f : Exec T V P Loc Ret) :
    Label T (Point V Loc Ret) → Exec T V P Loc Ret → Prop where
  | call {t : T} {l : Loc} (idle : f.loc t = none) (entry : prog.entry l = true) :
    Effect prog f (.call t (.before l)) (f.call t (.before l))
  | outside {t : T} {c : Bool} {l l' : Loc} {p : P} (at_l : f.loc t = some (.before l))
    (free : prog.code t l = none) (step : prog.outside t l c f.shared.rest = .goto p l') :
    Effect prog f (.act t c)
      (f.goto t (.before l) { f.shared with rest := p } (.before l'))
  | back {t : T} {c : Bool} {l : Loc} {p : P} {r : Ret} (at_l : f.loc t = some (.before l))
    (free : prog.code t l = none) (step : prog.outside t l c f.shared.rest = .ret p r) :
    Effect prog f (.act t c) (f.ret t (.before l) { f.shared with rest := p } r)
  | acquire {t : T} {c : Bool} {point : Point V Loc Ret} {l : Loc} {code : Code V (Exit Loc Ret)}
    (at_point : f.loc t = some point)
    (waits : (point = .before l ∧ prog.code t l = some code) ∨
      ∃ i, point = .spin l code i) (free : f.shared.lock = 0) :
    Effect prog f (.act t c) (f.goto t point { f.shared with lock := 1 } (.inside l code))
  | spin {t : T} {c : Bool} {point : Point V Loc Ret} {l : Loc} {code : Code V (Exit Loc Ret)}
    {i : Nat} {lock : Int} (at_point : f.loc t = some point)
    (waits : (point = .before l ∧ prog.code t l = some code) ∨
      ∃ i, point = .spin l code i) (same : lock = 0 ↔ f.shared.lock = 0) :
    Effect prog f (.act t c) (f.goto t point { f.shared with lock := lock } (.spin l code i))
  | access {t : T} {c : Bool} {l : Loc} {code code' : Code V (Exit Loc Ret)} {mem : ∀ c, V c}
    (at_l : f.loc t = some (.inside l code)) (more : ∀ e, code ≠ .done e)
    (run : code'.run mem = code.run f.shared.mem) :
    Effect prog f (.act t c)
      (f.goto t (.inside l code) { f.shared with mem := mem } (.inside l code'))
  | leave {t : T} {c : Bool} {l l' : Loc}
    (at_l : f.loc t = some (.inside l (.done (.goto l')))) :
    Effect prog f (.act t c)
      (f.goto t (.inside l (.done (.goto l'))) { f.shared with lock := 0 } (.before l'))
  | ret {t : T} {c : Bool} {l : Loc} {r : Ret} (at_l : f.loc t = some (.inside l (.done (.ret r)))) :
    Effect prog f (.act t c) (f.ret t (.inside l (.done (.ret r))) { f.shared with lock := 0 } r)
  | keep {t : T} {c : Bool} {l : Loc} {r : Ret}
    (at_l : f.loc t = some (.inside l (.done (.keep r)))) :
    Effect prog f (.act t c) (f.ret t (.inside l (.done (.keep r))) f.shared r)

variable {prog : Program T V P Loc Ret} {count : Int} {f f' : Exec T V P Loc Ret}
    {a : Label T (Point V Loc Ret)}

/-- A thread that tries to acquire the lock gets it or spins. -/
theorem effect_of_trylock {t : T} {c : Bool} {point point' : Point V Loc Ret} {l : Loc}
    {code : Code V (Exit Loc Ret)} {i : Nat} {x : Shared V P} (hat : f.loc t = some point)
    (hwaits : (point = .before l ∧ prog.code t l = some code) ∨
      ∃ i, point = .spin l code i)
    (h : (trylock f.shared (.inside l code) (.spin l code i) : Outcome _ _ Ret) = .goto x point') :
  prog.Effect f (.act t c) (f.goto t point x point')
  := by
  simp only [trylock, Outcome.goto.injEq] at h
  obtain ⟨rfl, rfl⟩ := h
  split
  · rename_i hfree
    apply Effect.acquire hat hwaits hfree
  · rename_i hheld
    apply Effect.spin hat hwaits
    simp [hheld]

theorem effect_of_goto {t : T} {c : Bool} {point point' : Point V Loc Ret} {x : Shared V P}
    (hat : f.loc t = some point)
    (h : (prog.accesses count).step t point c f.shared = .goto x point') :
  prog.Effect f (.act t c) (f.goto t point x point')
  := by
  cases point with
  | before l =>
      simp only [accesses] at h
      split at h
      · rename_i hcode
        rw [Outcome.lift_eq_goto_iff] at h
        rcases h with ⟨p, l', hout, rfl, rfl⟩ | ⟨p, r, -, h⟩
        · apply Effect.outside hat hcode hout
        · cases h
      · rename_i code hcode
        apply effect_of_trylock hat (Or.inl ⟨rfl, hcode⟩) h
  | spin l code i =>
      simp only [accesses] at h
      split at h
      · apply effect_of_trylock hat (Or.inr ⟨i, rfl⟩) h
      · obtain ⟨rfl, rfl⟩ := h
        apply Effect.spin hat (Or.inr ⟨i, rfl⟩) Iff.rfl
  | inside l code =>
      rcases code with (l' | r | r) | _ | ⟨c', next⟩ | ⟨c', y, next⟩
      · simp only [accesses, Outcome.goto.injEq] at h
        obtain ⟨rfl, rfl⟩ := h
        apply Effect.leave hat
      · cases h
      · cases h
      · cases h
      · obtain ⟨rfl, rfl⟩ := h
        apply Effect.access hat
        · simp
        · rfl
      · obtain ⟨rfl, rfl⟩ := h
        apply Effect.access hat
        · simp
        · rfl

theorem effect_of_ret {t : T} {c : Bool} {point : Point V Loc Ret} {x : Shared V P} {r : Ret}
    (hat : f.loc t = some point)
    (h : (prog.accesses count).step t point c f.shared = .ret x r) :
  prog.Effect f (.act t c) (f.ret t point x r)
  := by
  cases point with
  | before l =>
      simp only [accesses] at h
      split at h
      · rename_i hcode
        rw [Outcome.lift_eq_ret_iff] at h
        obtain ⟨p, r', hout, h'⟩ := h
        obtain ⟨rfl, rfl⟩ := h'
        apply Effect.back hat hcode hout
      · cases h
  | spin l code i =>
      simp only [accesses] at h
      split at h
      · cases h
      · cases h
  | inside l code =>
      rcases code with (l' | r' | r') | _ | ⟨c', next⟩ | ⟨c', y, next⟩
      · cases h
      · obtain ⟨rfl, rfl⟩ := h
        apply Effect.ret hat
      · obtain ⟨rfl, rfl⟩ := h
        apply Effect.keep hat
      · cases h
      · cases h
      · cases h

/-- Every step of an execution is one of the effects. -/
theorem effect_of_step (h : (prog.accesses count).Step f a f') :
  prog.Effect f a f'
  := by
  cases h with
  | @call t point hidle hentry =>
      cases point with
      | before l => apply Effect.call hidle hentry
      | spin l code i => cases hentry
      | inside l code => cases hentry
  | goto hat hstep => apply effect_of_goto hat hstep
  | ret hat hstep => apply effect_of_ret hat hstep

/-! ### Sections exclude each other -/

/-- The thread at the point has the lock. -/
def owns : Point V Loc Ret → Bool
  | .before _ => false
  | .spin _ _ _ => false
  | .inside _ _ => true

/-- At most one thread has the lock, and spinning threads will execute their section. -/
structure Exclusive (prog : Program T V P Loc Ret) (f : Exec T V P Loc Ret) : Prop where
  spins : ∀ t l code i, f.loc t = some (.spin l code i) → prog.code t l = some code
  locked : ∀ t point, f.loc t = some point → owns point = true → f.shared.lock ≠ 0
  one : ∀ t u point point', f.loc t = some point → f.loc u = some point' →
    owns point = true → owns point' = true → t = u

omit [DecidableEq C] in
/-- A step of a thread that does not have the lock after it keeps the exclusion if it does not
release the lock of another. -/
theorem Exclusive.change {t : T} {o : Option (Point V Loc Ret)} {x : Shared V P}
    (h : prog.Exclusive f) (hloc : f'.loc = Function.update f.loc t o) (hx : f'.shared = x)
    (hspins : ∀ l code i, o = some (.spin l code i) → prog.code t l = some code)
    (howns : ∀ point, o = some point → owns point = true → x.lock ≠ 0 ∧
      ∀ u point', u ≠ t → f.loc u = some point' → owns point' = false)
    (hlock : ∀ u point', u ≠ t → f.loc u = some point' → owns point' = true → x.lock ≠ 0) :
  prog.Exclusive f'
  := by
  constructor
  · intro u l code i hu
    rw [hloc] at hu
    by_cases hut : u = t
    · subst hut
      rw [Function.update_self] at hu
      apply hspins l code i hu
    · rw [Function.update_of_ne hut] at hu
      apply h.spins u l code i hu
  · intro u point hu hown
    rw [hloc] at hu
    rw [hx]
    by_cases hut : u = t
    · subst hut
      rw [Function.update_self] at hu
      apply (howns point hu hown).1
    · rw [Function.update_of_ne hut] at hu
      apply hlock u point hut hu hown
  · intro u w point point' hu hw hown hown'
    rw [hloc] at hu hw
    by_cases hut : u = t
    · by_cases hwt : w = t
      · rw [hut, hwt]
      · subst hut
        rw [Function.update_self] at hu
        rw [Function.update_of_ne hwt] at hw
        simp [(howns point hu hown).2 w point' hwt hw] at hown'
    · rw [Function.update_of_ne hut] at hu
      by_cases hwt : w = t
      · subst hwt
        rw [Function.update_self] at hw
        simp [(howns point' hw hown').2 u point hut hu] at hown
      · rw [Function.update_of_ne hwt] at hw
        apply h.one u w point point' hu hw hown hown'

omit [DecidableEq C] [DecidableEq T] in
/-- When a thread has the lock, no other has. -/
theorem Exclusive.others {t u : T} {point point' : Point V Loc Ret} (h : prog.Exclusive f)
    (ht : f.loc t = some point) (hown : owns point = true) (hu : u ≠ t)
    (hloc : f.loc u = some point') :
  owns point' = false
  := by
  by_contra hown'
  apply hu (h.one u t point' point hloc ht (by simpa using hown') hown)

omit [DecidableEq C] [DecidableEq T] in
/-- When the lock is free, no thread has it. -/
theorem Exclusive.free {u : T} {point : Point V Loc Ret} (h : prog.Exclusive f)
    (hfree : f.shared.lock = 0) (hloc : f.loc u = some point) :
  owns point = false
  := by
  by_contra hown
  apply h.locked u point hloc (by simpa using hown) hfree

theorem Effect.exclusive (h : prog.Effect f a f') (hf : prog.Exclusive f) :
  prog.Exclusive f'
  := by
  cases h with
  | @call t l hidle hentry =>
      apply hf.change (o := some (.before l)) (t := t) rfl rfl
      · simp
      · simp [owns]
      · intro u point _ hu
        apply hf.locked u point hu
  | @outside t c l l' p hl hcode hstep =>
      apply hf.change (o := some (.before l')) (t := t) rfl rfl
      · simp
      · simp [owns]
      · intro u point _ hu
        apply hf.locked u point hu
  | @back t c l p r hl hcode hstep =>
      apply hf.change (o := none) (t := t) rfl rfl
      · simp
      · simp
      · intro u point _ hu
        apply hf.locked u point hu
  | @acquire t c point l code hat hwaits hfree =>
      apply hf.change (o := some (.inside l code)) (t := t) rfl rfl
      · simp
      · simp only [Option.some.injEq, forall_eq']
        intro _
        use by simp
        intro u point' _ hloc
        apply hf.free hfree hloc
      · simp
  | @spin t c point l code i lock hat hwaits hsame =>
      apply hf.change (o := some (.spin l code i)) (t := t) rfl rfl
      · rintro l' code' i' h
        obtain ⟨rfl, rfl, rfl⟩ : l = l' ∧ code = code' ∧ i = i' := by simpa using h
        rcases hwaits with ⟨rfl, hcode⟩ | ⟨j, rfl⟩
        · apply hcode
        · apply hf.spins t l code j hat
      · simp [owns]
      · intro u point' _ hu hown
        have hne := hf.locked u point' hu hown
        simpa [hsame] using hne
  | @access t c l code code' mem hl hmore hrun =>
      apply hf.change (o := some (.inside l code')) (t := t) rfl rfl
      · simp
      · simp only [Option.some.injEq, forall_eq']
        intro _
        use hf.locked t _ hl rfl
        intro u point hu hloc
        apply hf.others hl rfl hu hloc
      · intro u point _ hu
        apply hf.locked u point hu
  | @leave t c l l' hl =>
      apply hf.change (o := some (.before l')) (t := t) rfl rfl
      · simp
      · simp [owns]
      · intro u point hu hloc hown
        simp [hf.others hl rfl hu hloc] at hown
  | @ret t c l r hl =>
      apply hf.change (o := none) (t := t) rfl rfl
      · simp
      · simp
      · intro u point hu hloc hown
        simp [hf.others hl rfl hu hloc] at hown
  | @keep t c l r hl =>
      apply hf.change (o := none) (t := t) rfl rfl
      · simp
      · simp
      · intro u point _ hu
        apply hf.locked u point hu

/-- Sections exclude each other in every execution. -/
theorem exclusive_of_reach {G : Exec T V P Loc Ret → Label T (Point V Loc Ret) → Prop}
    {x : Shared V P} (hf : (prog.accesses count).Reach G (State.idle x) f) :
  prog.Exclusive f
  := by
  apply hf.invariant
  · constructor
    all_goals simp
  · intro f a f' _ hexcl _ hstep
    apply (effect_of_step hstep).exclusive hexcl

/-! ### Programs that implement a machine -/

omit [DecidableEq C] [DecidableEq T] in
/-- The log of the machine that an execution follows: a section is one step, taken when the
section is left. -/
def committed : List (Event T (Point V Loc Ret) Ret) → List (Event T Loc Ret)
  | [] => []
  | .call t point :: log => .call t point.loc :: committed log
  | .goto t point (.before l') :: log => .goto t point.loc l' :: committed log
  | .goto _ _ (.spin _ _ _) :: log => committed log
  | .goto _ _ (.inside _ _) :: log => committed log
  | .ret t point r :: log => .ret t point.loc r :: committed log

/-- The step of the machine that belongs to a step of an execution, if any. -/
def commits (prog : Program T V P Loc Ret) (f : Exec T V P Loc Ret) :
    Label T (Point V Loc Ret) → Option (Label T Loc)
  | .call t point => some (.call t point.loc)
  | .act t c =>
    match f.loc t with
    | some (.before l) => if (prog.code t l).isNone then some (.act t c) else none
    | some (.inside _ (.done _)) => some (.act t c)
    | _ => none

variable {σ : Type}

/-- The machine does in one step what a section does that is executed at once, for a relation
`Rel` of the lock, the memory it protects and the rest of the state to the states of the
machine. -/
def Agrees (Rel : Bool → (∀ c, V c) → P → σ → Prop) (p : P) :
    Option (Exit Loc Ret × ∀ c, V c) → Outcome σ Loc Ret → Prop
  | none, o => o = .fault
  | some (.goto l', m'), o => ∃ x, o = .goto x l' ∧ Rel false m' p x
  | some (.ret r, m'), o => ∃ x, o = .ret x r ∧ Rel false m' p x
  | some (.keep r, m'), o => ∃ x, o = .ret x r ∧ Rel true m' p x

/-- The steps of the machine do what the program does, in the states in which `I` holds. -/
structure Implements (prog : Program T V P Loc Ret) (M : Machine T σ Loc Ret)
    (I : State T σ Loc Ret → Prop) (Rel : Bool → (∀ c, V c) → P → σ → Prop) : Prop where
  entry : ∀ l, M.entry l = prog.entry l
  /-- A section that is executed at once is a step of the machine. -/
  code : ∀ s t l code m p c, I s → s.loc t = some l → prog.code t l = some code →
    Rel false m p s.shared → Agrees Rel p (code.run m) (M.step t l c s.shared)
  /-- A step outside the sections is one of the machine. -/
  outside : ∀ s t l c lock m p, I s → s.loc t = some l → prog.code t l = none →
    Rel lock m p s.shared → (prog.outside t l c p).Within (Rel lock m) (M.step t l c s.shared)

/-- The execution is where the machine is. The sections that have begun have not taken effect in
the machine: its state belongs to the memory `m` before them. -/
structure Tracks (prog : Program T V P Loc Ret) (Rel : Bool → (∀ c, V c) → P → σ → Prop)
    (f : Exec T V P Loc Ret) (s : State T σ Loc Ret) (lock : Bool) (m : ∀ c, V c) : Prop where
  loc : ∀ t, s.loc t = (f.loc t).map Point.loc
  log : s.log = committed f.log
  rel : Rel lock m f.shared.rest s.shared
  inside : ∀ t l code, f.loc t = some (.inside l code) → ∃ code₀, prog.code t l = some code₀ ∧
    code.run f.shared.mem = code₀.run m ∧ lock = false
  idle : (∀ t l code, f.loc t ≠ some (.inside l code)) →
    m = f.shared.mem ∧ lock = decide (f.shared.lock ≠ 0)

variable {M : Machine T σ Loc Ret} {I : State T σ Loc Ret → Prop}
    {Rel : Bool → (∀ c, V c) → P → σ → Prop} {s s' : State T σ Loc Ret} {lock : Bool}
    {m : ∀ c, V c}

theorem Tracks.loc_update {t : T} {o : Option (Point V Loc Ret)} (h : prog.Tracks Rel f s lock m)
    (hf : f'.loc = Function.update f.loc t o)
    (hs : s'.loc = Function.update s.loc t (o.map Point.loc)) (u : T) :
  s'.loc u = (f'.loc u).map Point.loc
  := by
  rw [hf, hs]
  by_cases hu : u = t
  · subst hu
    simp
  · simp [hu, h.loc]

/-- A step within the same control point is none of the machine. -/
theorem Tracks.loc_silent {t : T} {point q : Point V Loc Ret}
    (h : prog.Tracks Rel f s lock m) (hat : f.loc t = some point) (hpoint : q.loc = point.loc)
    (hf : f'.loc = Function.update f.loc t (some q)) (u : T) :
  s.loc u = (f'.loc u).map Point.loc
  := by
  apply h.loc_update hf
  rw [Option.map_some, hpoint, eq_comm, Function.update_eq_self_iff, h.loc, hat, Option.map_some]

/-- The sections of the other threads, when a step of one thread leaves the memory alone. -/
theorem Tracks.inside_other {t : T} {o : Option (Point V Loc Ret)}
    (h : prog.Tracks Rel f s lock m) (hf : f'.loc = Function.update f.loc t o)
    (hmem : f'.shared.mem = f.shared.mem) (ho : ∀ l code, o ≠ some (.inside l code)) :
  ∀ u l code, f'.loc u = some (.inside l code) → ∃ code₀, prog.code u l = some code₀ ∧
    code.run f'.shared.mem = code₀.run m ∧ lock = false
  := by
  intro u l code hu
  rw [hf] at hu
  by_cases hut : u = t
  · subst hut
    rw [Function.update_self] at hu
    apply absurd hu (ho l code)
  · rw [Function.update_of_ne hut] at hu
    rw [hmem]
    apply h.inside u l code hu

omit [DecidableEq C] in
/-- No thread is inside a section after a step if none was before it. -/
theorem none_inside {t : T} {o : Option (Point V Loc Ret)}
    (hf : f'.loc = Function.update f.loc t o) (hat : ∀ l code, f.loc t ≠ some (.inside l code))
    (hnone : ∀ u l code, f'.loc u ≠ some (.inside l code)) :
  ∀ u l code, f.loc u ≠ some (.inside l code)
  := by
  intro u l code hu
  by_cases hut : u = t
  · subst hut
    apply hat l code hu
  · apply hnone u l code
    rw [hf, Function.update_of_ne hut, hu]

omit [DecidableEq C] in
/-- No thread is inside a section after the thread inside one has left it. -/
theorem Exclusive.none_inside {t : T} {o : Option (Point V Loc Ret)} {point : Point V Loc Ret}
    (h : prog.Exclusive f) (hf : f'.loc = Function.update f.loc t o)
    (hat : f.loc t = some point) (hown : owns point = true)
    (ho : ∀ l code, o ≠ some (.inside l code)) :
  ∀ u l code, f'.loc u ≠ some (.inside l code)
  := by
  intro u l code hu
  rw [hf] at hu
  by_cases hut : u = t
  · subst hut
    rw [Function.update_self] at hu
    apply ho l code hu
  · rw [Function.update_of_ne hut] at hu
    have hnot := h.others hat hown hut hu
    cases hnot

/-- A thread enters a section. -/
theorem Tracks.enter {t : T} {point : Point V Loc Ret} {code : Code V (Exit Loc Ret)}
    {n : Int} (h : prog.Tracks Rel f s lock m) (hat : f.loc t = some point)
    (hcode : prog.code t point.loc = some code)
    (hnone : ∀ u l code, f.loc u ≠ some (.inside l code)) (hfree : f.shared.lock = 0) :
  prog.Tracks Rel (f.goto t point { f.shared with lock := n } (.inside point.loc code)) s lock m
  := by
  obtain ⟨hm, hlk⟩ := h.idle hnone
  constructor
  · apply h.loc_silent hat (q := .inside point.loc code) rfl rfl
  · apply h.log
  · apply h.rel
  · intro u l code' hu
    by_cases hut : u = t
    · subst hut
      obtain ⟨rfl, rfl⟩ : point.loc = l ∧ code = code' := by simpa using hu
      use code, hcode
      rw [hm, hlk]
      use rfl
      simpa using hfree
    · simp only [State.goto_loc, Function.update_of_ne hut] at hu
      apply absurd hu (hnone u l code')
  · intro hno
    apply absurd _ (hno t point.loc code)
    simp

/-- A step of a thread that is in no section before and after it. -/
theorem Tracks.around {t : T} {o : Option (Point V Loc Ret)} (h : prog.Tracks Rel f s lock m)
    (hat : ∀ l code, f.loc t ≠ some (.inside l code))
    (hf : f'.loc = Function.update f.loc t o) (ho : ∀ l code, o ≠ some (.inside l code))
    (hmem : f'.shared.mem = f.shared.mem) (hfree : f'.shared.lock = 0 ↔ f.shared.lock = 0)
    (hs : ∀ u, s'.loc u = (f'.loc u).map Point.loc) (hlog : s'.log = committed f'.log)
    (hrel : Rel lock m f'.shared.rest s'.shared) :
  prog.Tracks Rel f' s' lock m
  := by
  constructor
  · apply hs
  · apply hlog
  · apply hrel
  · apply h.inside_other hf hmem ho
  · intro hnone
    rw [hmem]
    simpa [hfree] using h.idle (none_inside hf hat hnone)

omit [DecidableEq T] in
/-- The code that is left of a section takes effect when the thread leaves it. -/
theorem Tracks.leave {t : T} {l : Loc} {e : Exit Loc Ret} (h : prog.Tracks Rel f s lock m)
    (hat : f.loc t = some (.inside l (.done e))) :
  s.loc t = some l ∧ ∃ code, prog.code t l = some code ∧ Rel false m f.shared.rest s.shared ∧
    code.run m = some (e, f.shared.mem)
  := by
  obtain ⟨code, hcode, hrun, rfl⟩ := h.inside t l (.done e) hat
  constructor
  · rw [h.loc, hat]
    rfl
  · use code, hcode, h.rel, hrun.symm

/-- The state after a section belongs to the memory after it. -/
theorem Tracks.left {t : T} {l : Loc} {e : Exit Loc Ret} {o : Option (Point V Loc Ret)}
    {lock' : Bool} (h : prog.Tracks Rel f s lock m) (hexcl : prog.Exclusive f)
    (hat : f.loc t = some (.inside l (.done e))) (hf : f'.loc = Function.update f.loc t o)
    (ho : ∀ l code, o ≠ some (.inside l code))
    (hs : s'.loc = Function.update s.loc t (o.map Point.loc)) (hlog : s'.log = committed f'.log)
    (hrel : Rel lock' f'.shared.mem f'.shared.rest s'.shared)
    (hlock : lock' = decide (f'.shared.lock ≠ 0)) :
  prog.Tracks Rel f' s' lock' f'.shared.mem
  := by
  have hnone := hexcl.none_inside hf hat rfl ho
  constructor
  · apply h.loc_update hf hs
  · apply hlog
  · apply hrel
  · intro u l code hu
    apply absurd hu (hnone u l code)
  · intro _
    use rfl

/-! ### The steps of an execution -/

/-- A call of an execution is one of the machine. -/
theorem Tracks.call {t : T} {l : Loc} (himp : prog.Implements M I Rel)
    (ht : prog.Tracks Rel f s lock m) (hidle : f.loc t = none) (hentry : prog.entry l = true) :
  M.Step s (.call t l) (s.call t l) ∧
    prog.Tracks Rel (f.call t (.before l)) (s.call t l) lock m
  := by
  constructor
  · apply Machine.Step.call
    · simp [ht.loc, hidle]
    · rw [himp.entry, hentry]
  · apply ht.around (t := t) (o := some (.before l)) (by simp [hidle]) rfl (by simp)
    · rfl
    · rfl
    · apply ht.loc_update rfl rfl
    · simp [committed, ht.log]
    · apply ht.rel

/-- A step outside the sections is one of the machine, if the thread goes on. -/
theorem Tracks.outside {t : T} {c : Bool} {l l' : Loc} {p : P} (himp : prog.Implements M I Rel)
    (ht : prog.Tracks Rel f s lock m) (hI : I s) (hl : f.loc t = some (.before l))
    (hcode : prog.code t l = none) (hstep : prog.outside t l c f.shared.rest = .goto p l') :
  ∃ s', M.Step s (.act t c) s' ∧
    prog.Tracks Rel (f.goto t (.before l) { f.shared with rest := p } (.before l')) s' lock m
  := by
  have hloc : s.loc t = some l := by simp [ht.loc, hl]
  have hout := himp.outside s t l c lock m f.shared.rest hI hloc hcode ht.rel
  rw [hstep] at hout
  obtain ⟨x, hx, hrel⟩ := hout
  use s.goto t l x l', Machine.Step.goto hloc hx
  apply ht.around (t := t) (o := some (.before l')) (by simp [hl]) rfl (by simp)
  · rfl
  · rfl
  · apply ht.loc_update rfl rfl
  · simp [committed, ht.log]
  · apply hrel

/-- A step outside the sections is one of the machine, if the call returns. -/
theorem Tracks.back {t : T} {c : Bool} {l : Loc} {p : P} {r : Ret}
    (himp : prog.Implements M I Rel) (ht : prog.Tracks Rel f s lock m) (hI : I s)
    (hl : f.loc t = some (.before l)) (hcode : prog.code t l = none)
    (hstep : prog.outside t l c f.shared.rest = .ret p r) :
  ∃ s', M.Step s (.act t c) s' ∧
    prog.Tracks Rel (f.ret t (.before l) { f.shared with rest := p } r) s' lock m
  := by
  have hloc : s.loc t = some l := by simp [ht.loc, hl]
  have hout := himp.outside s t l c lock m f.shared.rest hI hloc hcode ht.rel
  rw [hstep] at hout
  obtain ⟨x, hx, hrel⟩ := hout
  use s.ret t l x r, Machine.Step.ret hloc hx
  apply ht.around (t := t) (o := none) (by simp [hl]) rfl (by simp)
  · rfl
  · rfl
  · apply ht.loc_update rfl rfl
  · simp [committed, ht.log]
  · apply hrel

omit [DecidableEq C] [DecidableEq T] in
/-- A thread that waits for the lock is before the section or spins. -/
theorem waits_loc {t : T} {point : Point V Loc Ret} {l : Loc} {code : Code V (Exit Loc Ret)}
    (hf : prog.Exclusive f) (hat : f.loc t = some point)
    (hwaits : (point = .before l ∧ prog.code t l = some code) ∨ ∃ i, point = .spin l code i) :
  l = point.loc ∧ prog.code t point.loc = some code ∧ owns point = false ∧
    ∀ c, prog.commits f (.act t c) = none
  := by
  rcases hwaits with ⟨rfl, hcode⟩ | ⟨i, rfl⟩
  · use rfl, hcode, rfl
    simp [commits, hat, hcode]
  · use rfl, hf.spins t l code i hat, rfl
    simp [commits, hat]

/-- A round of spinning is no step of the machine. -/
theorem Tracks.spin {t : T} {point : Point V Loc Ret} {l : Loc} {code : Code V (Exit Loc Ret)}
    {i : Nat} {n : Int} (ht : prog.Tracks Rel f s lock m) (hat : f.loc t = some point)
    (hpoint : l = point.loc) (howns : owns point = false) (hsame : n = 0 ↔ f.shared.lock = 0) :
  prog.Tracks Rel (f.goto t point { f.shared with lock := n } (.spin l code i)) s lock m
  := by
  have hout : ∀ l code, f.loc t ≠ some (.inside l code) := by
    intro l code h
    obtain rfl := Option.some.inj (hat.symm.trans h)
    cases howns
  apply ht.around (t := t) (o := some (.spin l code i)) hout rfl (by simp)
  · rfl
  · apply hsame
  · apply ht.loc_silent hat (q := .spin l code i) hpoint rfl
  · simp [committed, ht.log]
  · apply ht.rel

/-- An access to the memory is no step of the machine. -/
theorem Tracks.access {t : T} {l : Loc} {code code' : Code V (Exit Loc Ret)} {mem : ∀ c, V c}
    (ht : prog.Tracks Rel f s lock m) (hf : prog.Exclusive f)
    (hl : f.loc t = some (.inside l code)) (hrun : code'.run mem = code.run f.shared.mem) :
  prog.Tracks Rel (f.goto t (.inside l code) { f.shared with mem := mem } (.inside l code')) s
    lock m
  := by
  obtain ⟨code₀, hcode, hrun₀, hlock⟩ := ht.inside t l code hl
  constructor
  · apply ht.loc_silent hl (q := .inside l code') rfl rfl
  · simp [committed, ht.log]
  · apply ht.rel
  · intro u l' code'' hu
    by_cases hut : u = t
    · subst hut
      obtain ⟨rfl, rfl⟩ : l = l' ∧ code' = code'' := by simpa using hu
      use code₀, hcode
      rw [← hrun₀]
      use hrun
    · simp only [State.goto_loc, Function.update_of_ne hut] at hu
      cases hf.others hl rfl hut hu
  · intro hnone
    apply absurd _ (hnone t l code')
    simp

omit [DecidableEq T] in
/-- The machine does the whole section when the thread leaves it. -/
theorem Tracks.done {t : T} {c : Bool} {l : Loc} {e : Exit Loc Ret}
    (himp : prog.Implements M I Rel) (ht : prog.Tracks Rel f s lock m) (hI : I s)
    (hl : f.loc t = some (.inside l (.done e))) :
  s.loc t = some l ∧
    Agrees Rel f.shared.rest (some (e, f.shared.mem)) (M.step t l c s.shared)
  := by
  obtain ⟨hloc, code, hcode, hrel, hrun⟩ := ht.leave hl
  use hloc
  rw [← hrun]
  apply himp.code s t l code m f.shared.rest c hI hloc hcode hrel

/-- Every step of an execution is one of the machine, or none. -/
theorem Effect.tracks (himp : prog.Implements M I Rel) (h : prog.Effect f a f')
    (hf : prog.Exclusive f) (ht : prog.Tracks Rel f s lock m) (hI : I s) :
  (prog.commits f a = none ∧ ∃ lock' m', prog.Tracks Rel f' s lock' m') ∨
    ∃ a' s' lock' m', prog.commits f a = some a' ∧ M.Step s a' s' ∧
      prog.Tracks Rel f' s' lock' m'
  := by
  cases h with
  | @call t l hidle hentry =>
      right
      use .call t l, s.call t l, lock, m, rfl
      apply ht.call himp hidle hentry
  | @outside t c l l' p hl hcode hstep =>
      right
      obtain ⟨s', hs', ht'⟩ := ht.outside himp hI hl hcode hstep
      use .act t c, s', lock, m, (by simp [commits, hl, hcode]), hs'
  | @back t c l p r hl hcode hstep =>
      right
      obtain ⟨s', hs', ht'⟩ := ht.back himp hI hl hcode hstep
      use .act t c, s', lock, m, (by simp [commits, hl, hcode]), hs'
  | @acquire t c point l code hat hwaits hfree =>
      left
      obtain ⟨rfl, hcode, -, hsilent⟩ := waits_loc hf hat hwaits
      use hsilent c, lock, m
      apply ht.enter hat hcode _ hfree
      intro u l code hu
      cases hf.free hfree hu
  | @spin t c point l code i n hat hwaits hsame =>
      left
      obtain ⟨hpoint, -, howns, hsilent⟩ := waits_loc hf hat hwaits
      use hsilent c, lock, m
      apply ht.spin hat hpoint howns hsame
  | @access t c l code code' mem hl hmore hrun =>
      left
      constructor
      · cases code with
        | done e => apply absurd rfl (hmore e)
        | _ => simp [commits, hl]
      · use lock, m
        apply ht.access hf hl hrun
  | @leave t c l l' hl =>
      right
      obtain ⟨hloc, x, hx, hrel⟩ := ht.done (c := c) himp hI hl
      use .act t c, s.goto t l x l', false, f.shared.mem
      use (by simp [commits, hl]), Machine.Step.goto hloc hx
      apply ht.left hf hl (o := some (.before l')) rfl (by simp) rfl
      · simp [committed, ht.log]
      · apply hrel
      · simp
  | @ret t c l r hl =>
      right
      obtain ⟨hloc, x, hx, hrel⟩ := ht.done (c := c) himp hI hl
      use .act t c, s.ret t l x r, false, f.shared.mem
      use (by simp [commits, hl]), Machine.Step.ret hloc hx
      apply ht.left hf hl (o := none) rfl (by simp) rfl
      · simp [committed, ht.log]
      · apply hrel
      · simp
  | @keep t c l r hl =>
      right
      obtain ⟨hloc, x, hx, hrel⟩ := ht.done (c := c) himp hI hl
      use .act t c, s.ret t l x r, true, f.shared.mem
      use (by simp [commits, hl]), Machine.Step.ret hloc hx
      have hlocked := hf.locked t _ hl rfl
      apply ht.left hf hl (o := none) rfl (by simp) rfl
      · simp [committed, ht.log]
      · apply hrel
      · simpa using hlocked

omit [DecidableEq T] in
/-- A thread that fails in an execution fails in the machine. -/
theorem Tracks.fault (himp : prog.Implements M I Rel) (ht : prog.Tracks Rel f s lock m) (hI : I s)
    {t : T} {c : Bool} {point : Point V Loc Ret} (hat : f.loc t = some point)
    (hfault : (prog.accesses count).step t point c f.shared = .fault) :
  s.loc t = some point.loc ∧ M.step t point.loc c s.shared = .fault
  := by
  have hloc : s.loc t = some point.loc := by simp [ht.loc, hat]
  use hloc
  cases point with
  | before l =>
      simp only [accesses] at hfault
      split at hfault
      · rename_i hcode
        have hout := himp.outside s t l c lock m f.shared.rest hI hloc hcode ht.rel
        rw [Outcome.lift_eq_fault_iff] at hfault
        rcases hfault with hfault | ⟨_, _, _, hfault⟩
        · rw [hfault] at hout
          apply hout
        · cases hfault
      · cases hfault
  | spin l code i =>
      simp only [accesses] at hfault
      split at hfault
      · cases hfault
      · cases hfault
  | inside l code =>
      rcases code with (l' | r | r) | _ | ⟨c', next⟩ | ⟨c', y, next⟩
      · cases hfault
      · cases hfault
      · cases hfault
      · obtain ⟨code₀, hcode, hrun, rfl⟩ := ht.inside t l .fault hat
        have hdone := himp.code s t l code₀ m f.shared.rest c hI hloc hcode ht.rel
        rw [← hrun] at hdone
        apply hdone
      · cases hfault
      · cases hfault

/-- The rule for programs: an execution of a program that implements a machine follows a run of
the machine, whose log is the committed one. The guard `H` of the execution sees to it that the
steps that take effect meet the guard `G` of the machine. -/
theorem Implements.tracks {G : State T σ Loc Ret → Label T Loc → Prop}
    {H : Exec T V P Loc Ret → Label T (Point V Loc Ret) → Prop} {x : Shared V P} {y : σ}
    (himp : prog.Implements M I Rel) (hI : ∀ s, M.Reach G (State.idle y) s → I s)
    (hH : ∀ f s lock m a a', H f a → prog.Tracks Rel f s lock m → prog.commits f a = some a' →
      G s a') (hrel : Rel (decide (x.lock ≠ 0)) x.mem x.rest y)
    (hf : (prog.accesses count).Reach H (State.idle x) f) :
  ∃ s lock m, M.Reach G (State.idle y) s ∧ prog.Tracks Rel f s lock m
  := by
  apply hf.invariant (I := fun f => ∃ s lock m, M.Reach G (State.idle y) s ∧
    prog.Tracks Rel f s lock m)
  · use State.idle y, decide (x.lock ≠ 0), x.mem, Machine.Reach.refl
    constructor
    · simp
    · rfl
    · apply hrel
    · simp
    · intro _
      constructor
      · rfl
      · rfl
  · rintro f a f' hreach ⟨s, lock, m, hs, ht⟩ hG hstep
    have heffect := effect_of_step hstep
    rcases heffect.tracks himp (exclusive_of_reach hreach) ht (hI s hs) with
      ⟨-, lock', m', ht'⟩ | ⟨a', s', lock', m', hcommit, hstep', ht'⟩
    · use s, lock', m', hs
    · use s', lock', m'
      use hs.step (hH f s lock m a a' hG ht hcommit) hstep'

end Program

end Concurrency
