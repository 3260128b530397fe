import LibPthread.Thread.Ownership

/-!
# Stacks supplied with attributes

A structure with the flag `stack` runs a thread on the address of its attribute, and the
structure owns that memory from then on; a new structure gets an allocated stack, whatever the
attribute says. The stacks are in order in the histories that do not come to give up the memory
of a caller, to run a thread on it that did not ask for it, or to ignore an address.
-/

open Concurrency

namespace LibPthread.Thread

/-- The thread runs where its attribute says: on the memory of its creator, or on an allocated
stack. -/
def Creation.RunsOn (d : Creation) (L : Task) : Prop :=
  match d.setup.stackaddr with
  | some u =>
    (L.structs d.p).stackaddr = .user u ∧ (L.structs d.p).stacksize = d.setup.stacksize
  | none => ∃ k, (L.structs d.p).stackaddr = .allocated k

/-- Every thread runs where its attribute says; a stack that was allocated is kept by exactly one
structure, which is free or runs a thread, or it was deallocated exactly once; and no memory of
a caller was deallocated. -/
structure StacksInOrder (H : History) : Prop where
  runs : ∀ p, H.task.table.Serves p →
    ∃ d, H.created.find? (fun d => d.p = p) = some d ∧ d.RunsOn H.task
  once : ∀ k < H.task.kernel.vmStacks.count,
    (H.task.kernel.vmStacks.released.count k = 0 ∧
      ∃! r, H.task.Listed r ∧ H.task.ownership.owned r = some (.allocated k)) ∨
    (H.task.kernel.vmStacks.released.count k = 1 ∧
      ∀ r, H.task.ownership.owned r ≠ some (.allocated k))
  users : H.task.kernel.userDeallocs = []

/-- A creation that does not get stacks out of order. It does not terminate its caller while the
structure owns a stack. A structure that owns a stack owns an allocated one, and is given an
address only if the creation succeeds; a structure without a stack is given an address only if
the creation fails. -/
def SafeCreation (L : Task) (self : Nat) (attr : Option Attr) (a : Answers) : Prop :=
  (∀ r ∈ L.freeThreads.head?, (L.structs r).kernelThread = self → (L.structs r).stack = false) ∧
    ((∀ r ∈ L.freeThreads.head?, (L.structs r).kernelThread ≠ self) → ∀ x ∈ L.handed a,
      (∀ point ∈ L.failurePoint attr a, ¬ HaltsCaller L self x.2 point) ∧
        if x.2.stack then
          x.2.stackaddr.serial ≠ none ∧
            ((L.setup attr).stackaddr ≠ none → L.failurePoint attr a = none)
        else (L.setup attr).stackaddr ≠ none → L.failurePoint attr a ≠ none)

/-- A thread that is reclaimed runs on an allocated stack. -/
def SafeReclaim (L : Task) : Slot → Prop
  | .entry p => (L.structs p).state = .exited → (L.structs p).stackaddr.serial ≠ none
  | _ => True

/-- A call that does not get stacks out of order. -/
def StackSafe (H : History) (op : Op) : Prop :=
  (∀ x ∈ op.creation, SafeCreation H.task x.1 x.2.1 x.2.2) ∧
    ∀ thread ∈ op.target, ∀ e ∈ H.task.table.get thread, SafeReclaim H.task e

instance (L : Task) (self : Nat) (c : Pthread) (point : Point) :
    Decidable (HaltsCaller L self c point) :=
  inferInstanceAs (Decidable (_ ∧ _))

instance (L : Task) (self : Nat) (attr : Option Attr) (a : Answers) :
    Decidable (SafeCreation L self attr a) :=
  inferInstanceAs (Decidable (_ ∧ _))

instance (L : Task) (e : Slot) : Decidable (SafeReclaim L e) :=
  match e with
  | .entry _ => inferInstanceAs (Decidable (_ → _))
  | .unwritten => .isTrue trivial
  | .null => .isTrue trivial

instance (H : History) (op : Op) : Decidable (StackSafe H op) :=
  inferInstanceAs (Decidable (_ ∧ _))

/-! ### The invariant -/

/-- The invariant of safe histories: allocated stacks are owned by listed structures. -/
structure StackInv (H : History) : Prop where
  balanced : H.task.ownership.Balanced
  users : H.task.ownership.userDeallocs = []
  listed : ∀ r k, H.task.ownership.owned r = some (.allocated k) → H.task.Listed r
  runs : ∀ p, H.task.table.Serves p →
    ∃ d, H.created.find? (fun d => d.p = p) = some d ∧ d.RunsOn H.task

section Preserved

variable {L : Task} {self p : Nat} {attr : Option Attr} {a : Answers} {c : Pthread}
  {H H' : History} {op : Op}

/-- What a safe creation says of the structure that is handed out. -/
theorem SafeCreation.of_occupies {L' : Task} (h : SafeCreation L self attr a) (hL : Inv L)
    (hoccupies : Occupies L self attr a p c L') :
  (∀ point ∈ L.failurePoint attr a, ¬ HaltsCaller L self c point) ∧
    (∀ b ∈ L.ownership.owned p, b.serial ≠ none ∧
      ((L.setup attr).stackaddr ≠ none → L.failurePoint attr a = none)) ∧
    (L.ownership.owned p = none → (L.setup attr).stackaddr ≠ none →
      L.failurePoint attr a ≠ none)
  := by
  obtain ⟨hhalts, hstack⟩ := h.2 hoccupies.other (p, c) hoccupies.handed
  have howned := hL.owned_handed hoccupies.handed
  refine ⟨hhalts, ?_, ?_⟩
  · intro b hb
    rw [howned] at hb
    split at hb
    · rename_i hc
      rw [if_pos hc] at hstack
      obtain rfl := Option.mem_some_iff.mp hb
      exact hstack
    · cases hb
  · intro hnone
    rw [howned] at hnone
    split at hnone
    · cases hnone
    · rename_i hc
      rw [if_neg hc] at hstack
      exact hstack

/-- The threads that go on running run where they did. -/
theorem StackInv.runs_of (h : StackInv H) (hcreated : H'.created = H.created)
    (hserves : ∀ r, H'.task.table.Serves r → H.task.table.Serves r ∧
      (H'.task.structs r).stackaddr = (H.task.structs r).stackaddr ∧
      (H'.task.structs r).stacksize = (H.task.structs r).stacksize) {r : Nat}
    (hr : H'.task.table.Serves r) :
  ∃ d, H'.created.find? (fun d => d.p = r) = some d ∧ d.RunsOn H'.task
  := by
  obtain ⟨hr', hstackaddr, hstacksize⟩ := hserves r hr
  obtain ⟨d, hd, hruns⟩ := h.runs r hr'
  have hp : d.p = r := by simpa using List.find?_some hd
  refine ⟨d, by rw [hcreated]; exact hd, ?_⟩
  rw [Creation.RunsOn, hp, hstackaddr, hstacksize, ← hp]
  exact hruns

/-- The structures other than that of the creation. -/
theorem Occupies.serves_of {L' : Task} (h : Occupies L self attr a p c L')
    (hp : ¬ L'.table.Serves p) {r : Nat} (hr : L'.table.Serves r) :
  L.table.Serves r ∧ (L'.structs r).stackaddr = (L.structs r).stackaddr ∧
    (L'.structs r).stacksize = (L.structs r).stacksize
  := by
  have hne : r ≠ p := by
    rintro rfl
    exact hp hr
  rw [h.structs r hne]
  exact ⟨(h.serves r hne).mp hr, rfl, rfl⟩

/-- A safe creation that fails has found an allocated stack. -/
theorem SafeCreation.serial_of_found {L' : Task} (h : SafeCreation L self attr a) (hL : Inv L)
    (hoccupies : Occupies L self attr a p c L') (hfails : L.failurePoint attr a ≠ none)
    {b : Stackaddr} (hb : b ∈ (L.ownership.find p (L.setup attr).stackaddr).owned p) :
  b.serial ≠ none
  := by
  obtain ⟨-, howned, -⟩ := h.of_occupies hL hoccupies
  rw [Ownership.find_owned_self, Option.mem_some_iff] at hb
  cases hp : L.ownership.owned p with
  | none =>
      rw [hp] at hb
      subst hb
      simp [Stackaddr.serial]
  | some b' =>
      have haddr : (L.setup attr).stackaddr = none := by
        by_contra haddr
        exact hfails ((howned b' hp).2 haddr)
      rw [hp, haddr] at hb
      subst hb
      exact (howned _ hp).1

/-- A thread that a safe creation starts runs where its attribute says. -/
theorem SafeCreation.runsOn {L' : Task} (h : SafeCreation L self attr a) (hL : Inv L)
    (hoccupies : Occupies L self attr a p c L') (hsucceeds : L.failurePoint attr a = none)
    (hfound : (L.ownership.find p (L.setup attr).stackaddr).owned p =
      some (L'.structs p).stackaddr)
    (hstacksize : (L.setup attr).stackaddr ≠ none →
      (L'.structs p).stacksize = (L.setup attr).stacksize) (b : Stackaddr) :
  Creation.RunsOn ⟨p, L.setup attr, b⟩ L'
  := by
  obtain ⟨-, howned, hnone⟩ := h.of_occupies hL hoccupies
  rw [Ownership.find_owned_self, Option.some_inj] at hfound
  rw [Creation.RunsOn]
  cases haddr : (L.setup attr).stackaddr with
  | none =>
      cases hp : L.ownership.owned p with
      | none =>
          rw [hp] at hfound
          exact ⟨_, hfound.symm⟩
      | some b =>
          rw [hp, haddr] at hfound
          obtain ⟨k, hk⟩ := Option.ne_none_iff_exists'.mp (howned b hp).1
          use k
          simp only at hfound
          rw [← hfound, Stackaddr.serial_eq_some.mp hk]
  | some u =>
      have haddr' : (L.setup attr).stackaddr ≠ none := by simp [haddr]
      cases hp : L.ownership.owned p with
      | none => exact absurd hsucceeds (hnone hp haddr')
      | some b =>
          rw [hp, haddr] at hfound
          exact ⟨hfound.symm, hstacksize haddr'⟩

/-- A thread that is not started leaves its stack to a structure that is recycled. -/
theorem StackInv.discards (h : StackInv H) (hinv : Inv H.task)
    (hsafe : SafeCreation H.task self attr a)
    (hoccupies : Occupies H.task self attr a p c H'.task)
    (hfails : H.task.failurePoint attr a ≠ none)
    (hownership : H'.task.ownership =
      (H.task.ownership.find p (H.task.setup attr).stackaddr).drop p)
    (hcreated : H'.created = H.created) (hwithdrawn : ¬ H'.task.table.Serves p) :
  StackInv H'
  := by
  obtain ⟨-, howned, -⟩ := hsafe.of_occupies hinv hoccupies
  have hfound := fun b => hsafe.serial_of_found hinv hoccupies hfails (b := b)
  constructor
  · rw [hownership]
    apply (h.balanced.find p _).drop
  · rw [hownership, Ownership.drop_userDeallocs hfound, Ownership.find_userDeallocs _]
    · apply h.users
    · right
      exact fun b hb => (howned b hb).1
  · intro r k hr
    rw [hownership, Ownership.drop_owned] at hr
    have hne : r ≠ p := by
      rintro rfl
      simp at hr
    rw [Function.update_of_ne hne, Ownership.find_owned_of_ne hne] at hr
    rw [hoccupies.listed r hne]
    apply h.listed r k hr
  · intro r hr
    refine h.runs_of hcreated ?_ hr
    intro r hr
    apply hoccupies.serves_of hwithdrawn hr

/-- A thread that is started runs where its attribute says. -/
theorem StackInv.starts (h : StackInv H) (hinv : Inv H.task)
    (hsafe : SafeCreation H.task self attr a)
    (hoccupies : Occupies H.task self attr a p c H'.task)
    (hownership : H'.task.ownership = H.task.ownership.find p (H.task.setup attr).stackaddr)
    (hcreated : H'.created =
      ⟨p, H.task.setup attr, (H'.task.structs p).stackaddr⟩ :: H.created)
    (hpublished : H'.task.table.Serves p)
    (hruns : Creation.RunsOn ⟨p, H.task.setup attr, (H'.task.structs p).stackaddr⟩ H'.task) :
  StackInv H'
  := by
  obtain ⟨-, howned, -⟩ := hsafe.of_occupies hinv hoccupies
  constructor
  · rw [hownership]
    apply h.balanced.find
  · rw [hownership, Ownership.find_userDeallocs _]
    · apply h.users
    · right
      exact fun b hb => (howned b hb).1
  · intro r k hr
    rw [hownership] at hr
    by_cases hne : r = p
    · rw [hne]
      right
      apply hpublished
    · rw [Ownership.find_owned_of_ne hne] at hr
      rw [hoccupies.listed r hne]
      apply h.listed r k hr
  · intro r hr
    by_cases hne : r = p
    · refine ⟨⟨p, H.task.setup attr, (H'.task.structs p).stackaddr⟩, ?_, hruns⟩
      rw [hcreated, hne]
      simp
    · obtain ⟨d, hd, hruns⟩ := h.runs r ((hoccupies.serves r hne).mp hr)
      have hp : d.p = r := by simpa using List.find?_some hd
      refine ⟨d, ?_, ?_⟩
      · rw [hcreated, List.find?_cons_of_neg (by simpa using Ne.symm hne)]
        exact hd
      · rw [Creation.RunsOn, hp, hoccupies.structs r hne, ← hp]
        exact hruns

/-- The stack of a thread that is reclaimed is deallocated, if it was allocated. -/
theorem StackInv.reclaims (h : StackInv H)
    (hserial : (H.task.structs p).stackaddr.serial ≠ none)
    (howned : H.task.ownership.owned p = some (H.task.structs p).stackaddr)
    (hownership : H'.task.ownership = H.task.ownership.drop p)
    (hcreated : H'.created = H.created)
    (hlisted : ∀ r, H'.task.Listed r ↔ H.task.Listed r)
    (hserves : ∀ r, H'.task.table.Serves r ↔ H.task.table.Serves r ∧ r ≠ p)
    (hstructs : ∀ r, r ≠ p → H'.task.structs r = H.task.structs r) :
  StackInv H'
  := by
  constructor
  · rw [hownership]
    apply h.balanced.drop
  · rw [hownership, Ownership.drop_userDeallocs]
    · apply h.users
    · intro b hb
      rw [howned, Option.mem_some_iff] at hb
      rw [← hb]
      apply hserial
  · intro r k hr
    rw [hownership, Ownership.drop_owned] at hr
    have hne : r ≠ p := by
      rintro rfl
      simp at hr
    rw [Function.update_of_ne hne] at hr
    rw [hlisted]
    apply h.listed r k hr
  · intro r hr
    refine h.runs_of hcreated ?_ hr
    intro r hr
    obtain ⟨hr, hne⟩ := (hserves r).mp hr
    rw [hstructs r hne]
    exact ⟨hr, rfl, rfl⟩

/-- A safe call keeps the stacks in order. -/
theorem StackInv.step (h : StackInv H) (hinv : Inv H.task) (hsafe : StackSafe H op)
    (hcases : StackCases H op H') :
  StackInv H'
  := by
  cases hcases with
  | keeps ownership pages created listed serves =>
      constructor
      · rw [ownership]
        apply h.balanced
      · rw [ownership]
        apply h.users
      · intro r k hr
        rw [ownership] at hr
        rw [listed r _ hr]
        apply h.listed r k hr
      · intro r hr
        apply h.runs_of created serves hr
  | loses self attr a p creation head own ownership pages created listed serves structs =>
      have hclear := (hsafe.1 _ creation).1 p head own
      constructor
      · rw [ownership]
        apply h.balanced
      · rw [ownership]
        apply h.users
      · intro r k hr
        rw [ownership] at hr
        refine (listed r).mpr ⟨h.listed r k hr, ?_⟩
        rintro rfl
        simp [Task.ownership, hclear] at hr
      · intro r hr
        refine h.runs_of created ?_ hr
        intro r hr
        rw [structs]
        exact ⟨serves r hr, rfl, rfl⟩
  | discards self attr a p c creation occupies fails ownership created withdrawn =>
      apply h.discards hinv (hsafe.1 _ creation) occupies fails ownership created withdrawn
  | strands self attr a p c creation occupies fails ownership created unlisted =>
      obtain ⟨hhalts, -⟩ := (hsafe.1 _ creation).of_occupies hinv occupies
      obtain ⟨point, hpoint, hhalt⟩ := fails
      exact absurd hhalt (hhalts point hpoint)
  | starts self attr a p c creation occupies succeeds ownership created published found
      stacksize guardsize =>
      apply h.starts hinv (hsafe.1 _ creation) occupies ownership created published
      exact (hsafe.1 _ creation).runsOn hinv occupies succeeds found stacksize _
  | reclaims thread p target get state owned ownership pages created listed serves structs =>
      apply h.reclaims (hsafe.2 thread target _ get state) owned ownership created listed serves
        structs

end Preserved

/-! ### The theorem -/

section Order

variable {H : History} {stacksize guardsize pageSize : Nat} {memory : Nat → Pthread}

theorem StackInv.boot (stacksize guardsize pageSize : Nat) (memory : Nat → Pthread) :
  StackInv (.boot stacksize guardsize pageSize memory)
  := by
  have hnone : (History.boot stacksize guardsize pageSize memory).task.ownership.owned =
      fun _ => none := by
    funext r
    simp [History.boot, Task.boot, Task.ownership]
  constructor
  · rw [Ownership.Balanced, hnone]
    apply Ledger.kept_start
  · rfl
  · intro r k hr
    rw [hnone] at hr
    cases hr
  · rintro r ⟨i, hi⟩
    simp [History.boot, Task.boot] at hi

/-- The stacks are in order when every allocated stack that is owned has a listed owner. -/
theorem StackInv.inOrder (h : StackInv H) :
  StacksInOrder H
  := by
  have hname : ∀ r k, (H.task.ownership.owned r).bind Stackaddr.serial = some k ↔
      H.task.ownership.owned r = some (.allocated k) := by
    intro r k
    rw [Option.bind_eq_some_iff]
    simp [Stackaddr.serial_eq_some]
  constructor
  · apply h.runs
  · intro k hk
    rcases Ledger.Kept.once h.balanced k hk with ⟨hcount, hkeeper⟩ | ⟨hcount, hnone⟩
    · left
      obtain ⟨r, hr, hunique⟩ := hkeeper
      rw [hname] at hr
      refine ⟨hcount, r, ⟨h.listed r k hr, hr⟩, ?_⟩
      rintro r' ⟨-, hr'⟩
      apply hunique
      apply (hname r' k).mpr hr'
    · right
      refine ⟨hcount, ?_⟩
      intro r hr
      exact hnone r ((hname r k).mpr hr)
  · apply h.users

/-- In every history of safe calls the stacks are in order. -/
theorem stacks_in_order
    (hreach : History.Reach StackSafe (.boot stacksize guardsize pageSize memory) H) :
  StacksInOrder H
  := by
  apply StackInv.inOrder
  refine (hreach.invariant (Inv.boot _ _ _ _) (StackInv.boot _ _ _ _) ?_).2
  intro H op H' hinv hstacks hsafe hcases
  exact hstacks.step hinv hsafe (hcases.stackCases hinv)

/-- A detached thread has exited; its structure is recycled for a thread with an address, which
runs on it. -/
def userStackRun : List Op :=
  [.initRoutine allGranted, .create 0 none allGranted,
    .create 0 (some { plainAttr with detached := true }) allGranted, .exit 2 (.value 0),
    .create 0 (some { plainAttr with stackaddr := some 65536 }) allGranted]

theorem stacks_in_order_user :
  ∃ H, History.Reach StackSafe (.boot 16384 4096 4096 fun _ => zeroed) H ∧
    (H.task.structs 2).stackaddr = .user 65536 ∧ StacksInOrder H
  := by
  obtain ⟨H, hH, hp⟩ := History.exists_reach_of_run (G := StackSafe)
    (H := .boot 16384 4096 4096 fun _ => zeroed) userStackRun
    (fun H => (H.task.structs 2).stackaddr = .user 65536)
    (by decide +kernel)
  exact ⟨H, hH, of_decide_eq_true hp, stacks_in_order hH⟩

/-- A new structure is given an address: the thread runs on an allocated stack. A recycled
structure is given an address, and the block for thread-local storage is refused: the memory of
the caller is deallocated. -/
theorem stackaddr_ignored :
  (∃ H d, History.Reach History.Any (.boot 16384 4096 4096 fun _ => zeroed) H ∧
    H.created.head? = some d ∧ d.setup.stackaddr = some 65536 ∧
    H.task.table.get 2 = some (.entry d.p) ∧
    (H.task.structs d.p).stackaddr = .allocated 1 ∧ ¬ StacksInOrder H) ∧
  ∃ H, History.Reach History.Any (.boot 16384 4096 4096 fun _ => zeroed) H ∧
    H.task.kernel.userDeallocs = [65536]
  := by
  constructor
  · obtain ⟨H, hH, hp⟩ := History.exists_reach_of_run (G := History.Any)
      (H := .boot 16384 4096 4096 fun _ => zeroed)
      [.initRoutine allGranted,
        .create 0 (some { plainAttr with stackaddr := some 65536 }) allGranted]
      (fun H => H.created.head? = some ⟨1, { plainAttr with stackaddr := some 65536 },
          .allocated 1⟩ ∧ H.task.table.get 2 = some (.entry 1) ∧
        (H.task.structs 1).stackaddr = .allocated 1)
      (by decide +kernel)
    obtain ⟨hhead, hget, hstackaddr⟩ := of_decide_eq_true hp
    refine ⟨H, _, hH, hhead, rfl, hget, hstackaddr, ?_⟩
    intro horder
    obtain ⟨d, hd, hruns⟩ := horder.runs 1 (serves_of_get hget)
    obtain ⟨rest, hcreated⟩ := List.head?_eq_some_iff.mp hhead
    rw [hcreated, List.find?_cons_of_pos (by simp), Option.some_inj] at hd
    subst hd
    have huser : (H.task.structs 1).stackaddr = .user 65536 := hruns.1
    rw [hstackaddr] at huser
    cases huser
  · obtain ⟨H, hH, hp⟩ := History.exists_reach_of_run (G := History.Any)
      (H := .boot 16384 4096 4096 fun _ => zeroed)
      [.initRoutine allGranted, .create 0 none allGranted,
        .create 0 (some { plainAttr with detached := true }) allGranted, .exit 2 (.value 0),
        .create 0 (some { plainAttr with stackaddr := some 65536 })
          { allGranted with allocateTls := false }]
      (fun H => H.task.kernel.userDeallocs = [65536])
      (by decide +kernel)
    exact ⟨H, hH, of_decide_eq_true hp⟩

end Order

end LibPthread.Thread
