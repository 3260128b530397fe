import LibPthread.Thread.Creation

/-!
# Structures in service

What the steps of the concurrent creations and deallocations do to the lookup table. A structure
that a creation has initialized is in nobody else's hands until it is published, and a structure
in service is in the table.
-/

open Concurrency

namespace LibPthread.Thread.Table

variable {T : Type}

/-- The structure that a step passes to `initialize_pthread`. -/
def initializes (s : Sys T) : Label T Loc → Option Nat
  | .call _ _ => none
  | .act t fails =>
    match s.loc t with
    | some (.recycle p _) => some p
    | some (.malloc _ _) => if fails then none else some s.shared.heap
    | _ => none

variable {s : Sys T} {t : T} {l : Loc} {c : Bool} {L : Task} {i p r : Nat}

/-- The structure that a creation has initialized, and not yet published. -/
def creating : Loc → Option Nat
  | .slot p _ => some p
  | .grow p _ _ => some p
  | .install p _ _ => some p
  | .prepare p _ => some p
  | .publish p => some p
  | _ => none

/-- A thread has the structure that it creates in its hands. -/
theorem own_of_creating {l : Loc} (hp : creating l = some p) :
  l.own.object = some p
  := by
  cases l <;> first | exact hp | cases hp

/-- A store in the entry of a structure leaves the entries of other structures. -/
theorem entry_set {known : Nat → Prop} (h : Registered s.shared known) {e : Slot} {tb : Table}
    (hp : known p) (hset : s.shared.table.set (s.shared.structs p).thread e = some tb)
    (hr : s.shared.table.threads[i]? = some (.entry r)) (hne : r ≠ p) :
  tb.threads[i]? = some (.entry r)
  := by
  rw [Table.set] at hset
  split at hset
  · obtain rfl := Option.some.inj hset
    rw [List.getElem?_set_ne]
    · exact hr
    · intro hi
      obtain ⟨hid, hknown⟩ := h.entry i r hr
      apply hne
      apply h.distinct r p hknown hp
      omega
  · cases hset

theorem serves_publish {L L' : Task} (h : L.publish p = some L') :
  L'.table.Serves p
  := by
  obtain ⟨tb, htb, rfl⟩ := Option.map_eq_some_iff.mp h
  refine ⟨(L.structs p).thread - 1, ?_⟩
  rw [Table.set] at htb
  split at htb
  · obtain rfl := Option.some.inj htb
    exact List.getElem?_set_self (by omega)
  · cases htb

/-- A stage other than the withdrawal leaves the table. -/
theorem run_table {L L' : Task} {st : Stage} (h : st.run L p = some L') (hst : st ≠ .setid) :
  L'.table = L.table
  := by
  cases st with
  | setid => exact absurd rfl hst
  | stackDealloc =>
      obtain rfl := Option.some.inj h
      rw [Task.stackDealloc]
      split <;> rfl
  | broadcast =>
      obtain rfl := Option.some.inj h
      split <;> rfl
  | assertStack =>
      simp only [Stage.run] at h
      split at h <;> cases h
      rfl
  | assertState =>
      simp only [Stage.run] at h
      split at h <;> cases h
      rfl
  | enqueue =>
      simp only [Stage.run] at h
      split at h <;> cases h
      rfl
  | _ =>
      obtain rfl := Option.some.inj h
      rfl

/-- The task after a step. -/
def after : Outcome Task Loc Ret → Option Task
  | .goto L _ => some L
  | .ret L _ => some L
  | _ => none

/-- What a step does to the table: nothing; a structure is published; a slot is taken, possibly in
an enlarged table; a structure is withdrawn. -/
theorem table_cases {L L' : Task} (h : after (step l c L) = some L') :
  L'.table = L.table ∨
    (∃ p, l = .publish p ∧ L.publish p = some L') ∨
    (∃ p, L.table.num < L.table.max ∧ L.takeSlot p = some L') ∨
    (∃ p, L.growTable p = some L') ∨
    ∃ p rest, l = .stages p (.setid :: rest) ∧ L.unpublish p = some L'
  := by
  cases l with
  | scan junk setup =>
      left
      simp only [Table.step, Task.takeFree] at h
      split at h
      · rename_i hL
        obtain rfl := Option.some.inj h
        split at hL
        · cases hL
        · cases hL
          rfl
      · cases h
        rfl
  | recycle p setup =>
      left
      obtain rfl := Option.some.inj h
      simp
  | malloc junk setup =>
      left
      simp only [Table.step] at h
      split at h
      · cases h
        rfl
      · cases h
        simp
  | slot p setup =>
      simp only [Table.step] at h
      split at h
      · rename_i hroom
        split at h
        · cases h
        · rename_i L₁ hL₁
          cases h
          exact .inr (.inr (.inl ⟨p, hroom, hL₁⟩))
      · cases h
        exact .inl rfl
  | grow p max_threads setup =>
      left
      simp only [Table.step] at h
      split at h <;> cases h <;> rfl
  | install p max_threads setup =>
      simp only [Table.step] at h
      split at h
      · cases h
        exact .inl rfl
      · split at h
        · cases h
        · rename_i L₁ hL₁
          cases h
          exact .inr (.inr (.inr (.inl ⟨p, hL₁⟩)))
  | prepare p setup =>
      left
      obtain rfl := Option.some.inj h
      rfl
  | publish p =>
      simp only [Table.step] at h
      split at h
      · cases h
      · rename_i L₁ hL₁
        have hL' : L₁ = L' := by
          split at h <;> exact Option.some.inj h
        exact .inr (.inl ⟨p, rfl, hL' ▸ hL₁⟩)
  | stages p rest =>
      cases rest with
      | nil =>
          cases h
          exact .inl rfl
      | cons st rest =>
          simp only [Table.step] at h
          split at h
          · cases h
          · rename_i L₁ hL₁
            cases h
            by_cases hst : st = .setid
            · rw [hst] at hL₁
              exact .inr (.inr (.inr (.inr ⟨p, rest, by rw [hst], hL₁⟩)))
            · exact .inl (run_table hL₁ hst)

/-- A step keeps a structure in the table unless it withdraws it. -/
theorem serves_step (h : Inv s) (hl : s.loc t = some l) {L : Task}
    (hstep : after (step l c s.shared) = some L) (hr : s.shared.table.Serves r)
    (hkeep : ∀ rest, l ≠ .stages r (.setid :: rest)) :
  L.table.Serves r
  := by
  obtain ⟨i, hi⟩ := hr
  have hwf := h.registered.wf
  have hknown : ∀ {p}, l.own = .held p → (custody s).Known p :=
    fun hp => .inr (.inr ⟨t, (custody_own hl).trans hp⟩)
  rcases table_cases hstep with htable | ⟨p, rfl, hL⟩ | ⟨p, hroom, hL⟩ | ⟨p, hL⟩ |
    ⟨p, rest, rfl, hL⟩
  · rw [htable]
    exact ⟨i, hi⟩
  · by_cases hrp : r = p
    · rw [hrp]
      exact serves_publish hL
    · obtain ⟨tb, htb, rfl⟩ := Option.map_eq_some_iff.mp hL
      exact ⟨i, entry_set h.registered (hknown rfl) htb hi hrp⟩
  · rw [takeSlot_eq hwf hroom] at hL
    obtain rfl := Option.some.inj hL
    exact ⟨i, (entry_take hwf hroom i r).mpr hi⟩
  · obtain ⟨hwf', hroom, -⟩ := hwf.enlarge
    rw [Task.growTable, takeSlot_eq hwf' hroom] at hL
    obtain rfl := Option.some.inj hL
    exact ⟨i, (entry_take hwf' hroom i r).mpr ((entry_enlarge hwf i r).mpr hi)⟩
  · have hown : (Loc.stages p (.setid :: rest)).own = .held p := by
      rcases suffix_cases (h.rest t p _ hl) with heq | heq | heq | heq | heq | heq | heq
      all_goals first | cases heq; rfl | cases heq
    obtain ⟨tb, htb, rfl⟩ := Option.map_eq_some_iff.mp hL
    refine ⟨i, entry_set h.registered (hknown hown) htb hi ?_⟩
    rintro rfl
    exact hkeep rest rfl

/-- Some creation has initialized the structure, and not yet published it. -/
def Pending (s : Sys T) (p : Nat) : Prop :=
  ∃ t l, s.loc t = some l ∧ creating l = some p

theorem Pending.not_live (h : Inv s) (hp : Pending s p) :
  ¬ live p s.log = true
  := by
  obtain ⟨t, l, hl, hcreating⟩ := hp
  have hplaced := h.custody.placed t
  rw [custody_own hl] at hplaced
  exact hplaced.not_live (own_of_creating hcreating)

/-- A structure that is passed to `initialize_pthread` is in nobody else's hands. -/
theorem fresh_of_initializes (h : Inv s) {a : Label T Loc}
    (hp : initializes s a = some p) :
  ¬ live p s.log = true ∧ ¬ Pending s p
  := by
  cases a with
  | call t l => cases hp
  | act t c =>
      simp only [initializes] at hp
      split at hp
      · rename_i q setup hl
        obtain rfl := Option.some.inj hp
        have hheld : (custody s).own t = .held q := custody_own hl
        refine ⟨(h.custody.held hheld).2, ?_⟩
        rintro ⟨u, l, hu, hcreating⟩
        have hobject : ((custody s).own u).object = some q := by
          rw [custody_own hu]
          exact own_of_creating hcreating
        obtain rfl := h.custody.unique u t q hobject (by rw [hheld]; rfl)
        rw [hl] at hu
        cases hu
        cases hcreating
      · split at hp
        · cases hp
        · obtain rfl := Option.some.inj hp
          constructor
          · intro hlive
            exact absurd (h.heap _ (.inl (.inr (.inl hlive)))) (lt_irrefl _)
          · rintro ⟨u, l, hu, hcreating⟩
            have hobject : ((custody s).own u).object = some s.shared.heap := by
              rw [custody_own hu]
              exact own_of_creating hcreating
            exact absurd (h.heap _ (.inr ⟨u, hobject⟩)) (lt_irrefl _)
      · cases hp

/-- Where a structure that a thread creates comes from. -/
theorem creating_goto {l' : Loc} {L' : Task} (hl : s.loc t = some l)
    (hstep : step l c s.shared = .goto L' l') (hp : creating l' = some p) :
  creating l = some p ∨ initializes s (.act t c) = some p
  := by
  simp only [initializes, hl]
  cases l with
  | scan junk setup =>
      simp only [Table.step] at hstep
      split at hstep <;> cases hstep <;> cases hp
  | recycle q setup =>
      cases hstep
      exact .inr hp
  | malloc junk setup =>
      simp only [Table.step] at hstep
      split at hstep
      · cases hstep
      · rename_i hc
        cases hstep
        right
        simpa [hc, creating] using hp
  | slot q setup =>
      simp only [Table.step] at hstep
      split at hstep
      · split at hstep
        · cases hstep
        · cases hstep
          exact .inl hp
      · cases hstep
        exact .inl hp
  | grow q max_threads setup =>
      simp only [Table.step] at hstep
      split at hstep <;> cases hstep
      exact .inl hp
  | install q max_threads setup =>
      simp only [Table.step] at hstep
      split at hstep
      · cases hstep
        exact .inl hp
      · split at hstep <;> cases hstep
        exact .inl hp
  | prepare q setup =>
      cases hstep
      cases c with
      | true => cases hp
      | false => exact .inl hp
  | publish q =>
      simp only [Table.step] at hstep
      split at hstep
      · cases hstep
      · split at hstep <;> cases hstep
        cases hp
  | stages q rest =>
      cases rest with
      | nil => cases hstep
      | cons st rest =>
          simp only [Table.step] at hstep
          split at hstep <;> cases hstep
          cases hp

variable [DecidableEq T] {s' : Sys T} {a : Label T Loc}

theorem pending_step (hstep : (machine T).Step s a s') (hp : Pending s' p) :
  Pending s p ∨ initializes s a = some p
  := by
  obtain ⟨u, l, hl, hcreating⟩ := hp
  cases hstep with
  | @call t l₀ hidle hentry =>
      left
      by_cases hu : u = t
      · subst hu
        obtain rfl : l₀ = l := by simpa using hl
        cases l₀ with
        | scan junk setup => cases hcreating
        | stages q rest => cases hcreating
        | _ => cases hentry
      · exact ⟨u, l, by simpa [hu] using hl, hcreating⟩
  | @goto t c l₀ l' x hl₀ hst =>
      by_cases hu : u = t
      · subst hu
        obtain rfl : l' = l := by simpa using hl
        rcases creating_goto hl₀ hst hcreating with hold | hnew
        · exact .inl ⟨u, l₀, hl₀, hold⟩
        · exact .inr hnew
      · exact .inl ⟨u, l, by simpa [hu] using hl, hcreating⟩
  | @ret t c l₀ x r hl₀ hst =>
      left
      by_cases hu : u = t
      · subst hu
        simp at hl
      · exact ⟨u, l, by simpa [hu] using hl, hcreating⟩

omit [DecidableEq T] in
theorem live_call {log : List (Event T Loc Ret)}
    (hp : live p (.call t l :: log) = true) :
  live p log = true
  := by
  cases l with
  | stages q rest =>
      simp only [Table.live, Bool.and_eq_true] at hp
      exact hp.2
  | _ => exact hp

omit [DecidableEq T] in
theorem live_ret {log : List (Event T Loc Ret)} {r : Ret}
    (hp : live p (.ret t l r :: log) = true) :
  live p log = true ∨ l = .publish p
  := by
  cases l with
  | publish q =>
      simp only [Table.live, Bool.or_eq_true, decide_eq_true_eq] at hp
      rcases hp with rfl | hp
      · exact .inr rfl
      · exact .inl hp
  | _ => exact .inl hp

/-- A structure comes into service when its creation publishes it. -/
theorem live_step (hstep : (machine T).Step s a s') (hp : live p s'.log = true) :
  live p s.log = true ∨ Pending s p
  := by
  cases hstep with
  | @call t l hidle hentry => exact .inl (live_call hp)
  | @goto t c l l' x hl hst => exact .inl hp
  | @ret t c l x r hl hst =>
      rcases live_ret hp with hold | rfl
      · exact .inl hold
      · exact .inr ⟨t, _, hl, rfl⟩

/-- The structures in service stay in the table. -/
theorem serves_of_live (h : Inv s) (hstep : (machine T).Step s a s')
    (hserves : ∀ p, live p s.log = true → s.shared.table.Serves p)
    (hp : live p s'.log = true) :
  s'.shared.table.Serves p
  := by
  have hkeep : ∀ {t l} {c : Bool} {L : Task}, s.loc t = some l →
      after (step l c s.shared) = some L → live p s.log = true →
      L.table.Serves p := by
    intro t l c L hl hst hlive
    apply serves_step h hl hst (hserves p hlive)
    rintro rest rfl
    have hplaced := h.custody.placed t
    rw [custody_own hl] at hplaced
    exact hplaced.not_live (h.object_of_started hl rfl) hlive
  cases hstep with
  | @call t l hidle hentry => exact hserves p (live_call hp)
  | @goto t c l l' x hl hst =>
      have hst : step l c s.shared = .goto x l' := hst
      exact hkeep hl (by rw [hst]; rfl) hp
  | @ret t c l x r hl hst =>
      have hst : step l c s.shared = .ret x r := hst
      rcases live_ret hp with hold | rfl
      · exact hkeep hl (by rw [hst]; rfl) hold
      · simp only [Table.step] at hst
        split at hst
        · cases hst
        · rename_i L hL
          split at hst <;> cases hst
          exact serves_publish hL

end LibPthread.Thread.Table
