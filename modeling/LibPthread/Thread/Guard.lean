import LibPthread.Thread.Ownership

/-!
# Guards

`stack_setup` takes all rights from the pages of the guard, and nobody gives them back: the
inaccessible pages of a stack are those of the guards of all threads that were started on it.
-/

open Concurrency

namespace LibPthread.Thread

/-- The size of the guard that the attribute asks for. -/
def Attr.guard (setup : Attr) : Nat :=
  min setup.guardsize setup.stacksize

/-- The inaccessible pages of the stack of the thread are those of its guard. -/
def GuardMatches (L : Task) (d : Creation) : Prop :=
  ∃ k, (L.structs d.p).stackaddr = .allocated k ∧ ∀ page,
    L.kernel.inaccessible k page = true ↔ page * L.kernel.pageSize < d.setup.guard

/-- If the structure that will be handed out owns a stack, the guard covers the guards of all
threads that were started on this stack. -/
def GuardCovers (H : History) (attr : Option Attr) (a : Answers) : Prop :=
  ∀ x ∈ H.task.handed a, x.2.stack = true → ∀ d ∈ H.created, d.stackaddr = x.2.stackaddr →
    ∀ page, page * H.task.kernel.pageSize < d.setup.guard →
      page * H.task.kernel.pageSize < (H.task.setup attr).guard

/-- The attributes of the threads that are created do not supply stacks. -/
def NullStacks (_ : History) (op : Op) : Prop :=
  ∀ x ∈ op.creation, ∀ attr ∈ x.2.1, attr.stackaddr = none

instance (H : History) (op : Op) : Decidable (NullStacks H op) :=
  inferInstanceAs (Decidable (∀ x ∈ op.creation, ∀ attr ∈ x.2.1, attr.stackaddr = none))

/-- The invariant of the histories without supplied stacks: all owned stacks were allocated, and
their inaccessible pages are those of the guards of the threads that were started on them. -/
structure GuardInv (H : History) : Prop where
  balanced : H.task.ownership.Balanced
  allocated : ∀ r b, H.task.ownership.owned r = some b → b.serial ≠ none
  beyond : ∀ k, H.task.ownership.vmStacks.count ≤ k → ∀ page,
    H.task.kernel.inaccessible k page = false
  used : ∀ d ∈ H.created, ∀ k, d.stackaddr = .allocated k →
    k < H.task.ownership.vmStacks.count
  guarded : ∀ r k, H.task.Listed r → H.task.ownership.owned r = some (.allocated k) →
    ∀ page, H.task.kernel.inaccessible k page = true ↔
      ∃ d ∈ H.created, d.stackaddr = .allocated k ∧
        page * H.task.kernel.pageSize < d.setup.guard

section Guard

variable {L L' : Task} {self p : Nat} {attr : Option Attr} {a : Answers} {c : Pthread}
  {H H' : History} {op : Op}

theorem setup_stackaddr (hnull : ∀ b ∈ attr, b.stackaddr = none) (L : Task) :
  (L.setup attr).stackaddr = none
  := by
  cases attr with
  | none => rfl
  | some b => exact hnull b rfl

/-- A structure with a stack is recycled. -/
theorem listed_of_owned (hL : Inv L) (hhanded : L.handed a = some (p, c)) {b : Stackaddr}
    (hb : L.ownership.owned p = some b) :
  L.Listed p
  := by
  rw [hL.owned_handed hhanded] at hb
  rw [Task.handed] at hhanded
  split at hhanded
  · rename_i p' rest hfree
    rw [Option.some_inj] at hhanded
    obtain ⟨rfl, rfl⟩ := Prod.mk.inj hhanded
    left
    rw [hfree]
    apply List.mem_cons_self
  · split at hhanded
    · cases hhanded
    · split at hhanded
      · rw [Option.some_inj] at hhanded
        obtain ⟨rfl, rfl⟩ := Prod.mk.inj hhanded
        cases hb
      · cases hhanded

/-- Without an address, a stack that was allocated is found. -/
theorem GuardInv.found (h : GuardInv H) (p : Nat) :
  ∃ k, (H.task.ownership.find p none).owned p = some (.allocated k)
  := by
  rw [Ownership.find_owned_self]
  cases hp : H.task.ownership.owned p with
  | none => exact ⟨_, rfl⟩
  | some b =>
      obtain ⟨k, hk⟩ := Option.ne_none_iff_exists'.mp (h.allocated p b hp)
      use k
      simp only
      rw [Stackaddr.serial_eq_some.mp hk]

theorem find_count_le (O : Ownership) (p : Nat) :
  O.vmStacks.count ≤ (O.find p none).vmStacks.count
  := by
  rw [Ownership.find]
  split
  · apply Nat.le_succ
  · apply le_refl

theorem drop_count (O : Ownership) (p : Nat) :
  (O.drop p).vmStacks.count = O.vmStacks.count
  := by
  rw [Ownership.drop]
  split
  · rfl
  · rename_i b _
    cases b with
    | user u => rfl
    | allocated k => apply Ledger.release_count

/-- Pages of other stacks than the one that is found keep their rights. -/
theorem Occupies.pages_of_ne
    (hoccupies : Occupies H.task self attr a p c H'.task)
    (haddr : (H.task.setup attr).stackaddr = none) {k : Nat}
    (hk : (H.task.ownership.find p none).owned p ≠ some (.allocated k)) (page : Nat) :
  H'.task.kernel.inaccessible k page = H.task.kernel.inaccessible k page
  := by
  obtain ⟨b, guardsize, hb, hpages⟩ := hoccupies.pages
  rw [haddr] at hb
  have hne : b ≠ .allocated k := by
    rintro rfl
    exact hk hb
  rw [hpages, Kernel.protect_inaccessible]
  simp [hne]

/-- The stacks that were not handed out are untouched. -/
theorem GuardInv.beyond_of (h : GuardInv H)
    (hoccupies : Occupies H.task self attr a p c H'.task)
    (haddr : (H.task.setup attr).stackaddr = none) {k : Nat}
    (hk : (H.task.ownership.find p none).vmStacks.count ≤ k) (page : Nat) :
  H'.task.kernel.inaccessible k page = false
  := by
  rw [hoccupies.pages_of_ne haddr]
  · exact h.beyond k ((find_count_le _ _).trans hk) page
  · intro hfound
    have hlt := (h.balanced.find p none).lt hfound
    omega

/-- The other structures keep their stacks and the rights to the pages. -/
theorem GuardInv.guarded_of (h : GuardInv H)
    (hoccupies : Occupies H.task self attr a p c H'.task)
    (haddr : (H.task.setup attr).stackaddr = none) {r k : Nat} (hne : r ≠ p)
    (hlisted : H'.task.Listed r) (howned : H.task.ownership.owned r = some (.allocated k))
    (page : Nat) :
  H'.task.kernel.inaccessible k page = true ↔
    ∃ d ∈ H.created, d.stackaddr = .allocated k ∧
      page * H'.task.kernel.pageSize < d.setup.guard
  := by
  have hk : (H.task.ownership.find p none).owned p ≠ some (.allocated k) := by
    intro hfound
    have hr : (H.task.ownership.find p none).owned r = some (.allocated k) := by
      rw [Ownership.find_owned_of_ne hne, howned]
    exact hne ((h.balanced.find p none).unique hr hfound)
  rw [hoccupies.pages_of_ne haddr hk, hoccupies.pageSize]
  exact h.guarded r k ((hoccupies.listed r hne).mp hlisted) howned page

/-- The pages of the stack of a thread that was started. -/
theorem GuardInv.pages_starts (h : GuardInv H) (hinv : Inv H.task)
    (hoccupies : Occupies H.task self attr a p c H'.task)
    (hfound : (H.task.ownership.find p none).owned p = some (H'.task.structs p).stackaddr)
    (hguardsize : H'.task.kernel.inaccessible =
      (H.task.kernel.protect (H'.task.structs p).stackaddr
        (H.task.setup attr).guard).inaccessible) :
  ∃ k, (H'.task.structs p).stackaddr = .allocated k ∧ ∀ page,
    H'.task.kernel.inaccessible k page = true ↔
      (∃ d ∈ H.created, d.stackaddr = .allocated k ∧
        page * H.task.kernel.pageSize < d.setup.guard) ∨
      page * H.task.kernel.pageSize < (H.task.setup attr).guard
  := by
  obtain ⟨k, hk⟩ := h.found p
  have hstackaddr : (H'.task.structs p).stackaddr = .allocated k :=
    Option.some.inj (hfound.symm.trans hk)
  refine ⟨k, hstackaddr, ?_⟩
  intro page
  have hpage : H'.task.kernel.inaccessible k page = true ↔
      H.task.kernel.inaccessible k page = true ∨
        page * H.task.kernel.pageSize < (H.task.setup attr).guard := by
    rw [hguardsize, Kernel.protect_inaccessible, hstackaddr]
    simp
  rw [hpage]
  rw [Ownership.find_owned_self, Option.some_inj] at hk
  cases hp : H.task.ownership.owned p with
  | none =>
      -- the stack is new
      rw [hp] at hk
      obtain rfl := Stackaddr.allocated.inj hk
      rw [h.beyond _ (le_refl _) page]
      constructor
      · rintro (hfalse | hnew)
        · cases hfalse
        · exact .inr hnew
      · rintro (⟨d, hd, hstack, -⟩ | hnew)
        · exact absurd (h.used d hd _ hstack) (lt_irrefl _)
        · exact .inr hnew
  | some b =>
      rw [hp] at hk
      simp only at hk
      rw [h.guarded p k (listed_of_owned hinv hoccupies.handed hp) (by rw [hp, hk]) page]

/-- The creation finds a stack of `__pthread_stack_alloc`. -/
theorem GuardInv.allocated_find (h : GuardInv H) {r : Nat} {b : Stackaddr}
    (hr : (H.task.ownership.find p none).owned r = some b) :
  b.serial ≠ none
  := by
  by_cases hrp : r = p
  · obtain ⟨k, hk⟩ := h.found p
    rw [hrp, hk] at hr
    obtain rfl := Option.some.inj hr
    simp [Stackaddr.serial]
  · rw [Ownership.find_owned_of_ne hrp] at hr
    apply h.allocated r b hr

/-- Structures are no longer listed, or lose their stacks. -/
theorem GuardInv.fewer (h : GuardInv H) (hbalanced : H'.task.ownership.Balanced)
    (hcount : H'.task.ownership.vmStacks.count = H.task.ownership.vmStacks.count)
    (howned : ∀ r b, H'.task.ownership.owned r = some b → H.task.ownership.owned r = some b)
    (hpages : H'.task.kernel.pageSize = H.task.kernel.pageSize ∧
      H'.task.kernel.inaccessible = H.task.kernel.inaccessible)
    (hcreated : H'.created = H.created)
    (hlisted : ∀ r b, H.task.ownership.owned r = some b → H'.task.Listed r → H.task.Listed r) :
  GuardInv H'
  := by
  constructor
  · exact hbalanced
  · intro r b hr
    apply h.allocated r b (howned r b hr)
  · rw [hcount, hpages.2]
    apply h.beyond
  · rw [hcount, hcreated]
    apply h.used
  · intro r k hr howns
    rw [hcreated, hpages.1, hpages.2]
    apply h.guarded r k (hlisted r _ (howned r _ howns) hr) (howned r _ howns)

/-- The thread is not started, and its structure is recycled without a stack. -/
theorem GuardInv.discards (h : GuardInv H)
    (hoccupies : Occupies H.task self attr a p c H'.task)
    (haddr : (H.task.setup attr).stackaddr = none)
    (hownership : H'.task.ownership = (H.task.ownership.find p none).drop p)
    (hcreated : H'.created = H.created) :
  GuardInv H'
  := by
  have hne : ∀ r b, H'.task.ownership.owned r = some b →
      r ≠ p ∧ H.task.ownership.owned r = some b := by
    intro r b hr
    rw [hownership, Ownership.drop_owned] at hr
    have hrp : r ≠ p := by
      rintro rfl
      simp at hr
    rw [Function.update_of_ne hrp, Ownership.find_owned_of_ne hrp] at hr
    exact ⟨hrp, hr⟩
  constructor
  · rw [hownership]
    apply (h.balanced.find p none).drop
  · intro r b hr
    apply h.allocated r b (hne r b hr).2
  · intro k hk
    rw [hownership, drop_count] at hk
    apply h.beyond_of hoccupies haddr hk
  · intro d hd k hk
    rw [hcreated] at hd
    rw [hownership, drop_count]
    exact (h.used d hd k hk).trans_le (find_count_le _ _)
  · intro r k hlisted hr
    obtain ⟨hrp, hr⟩ := hne r _ hr
    rw [hcreated]
    apply h.guarded_of hoccupies haddr hrp hlisted hr

/-- The thread is not started, and its structure is not recycled. -/
theorem GuardInv.strands (h : GuardInv H)
    (hoccupies : Occupies H.task self attr a p c H'.task)
    (haddr : (H.task.setup attr).stackaddr = none)
    (hownership : H'.task.ownership = H.task.ownership.find p none)
    (hcreated : H'.created = H.created) (hunlisted : ¬ H'.task.Listed p) :
  GuardInv H'
  := by
  constructor
  · rw [hownership]
    apply h.balanced.find p none
  · intro r b hr
    rw [hownership] at hr
    apply h.allocated_find hr
  · intro k hk
    rw [hownership] at hk
    apply h.beyond_of hoccupies haddr hk
  · intro d hd k hk
    rw [hcreated] at hd
    rw [hownership]
    exact (h.used d hd k hk).trans_le (find_count_le _ _)
  · intro r k hlisted hr
    have hrp : r ≠ p := by
      rintro rfl
      exact hunlisted hlisted
    rw [hownership, Ownership.find_owned_of_ne hrp] at hr
    rw [hcreated]
    apply h.guarded_of hoccupies haddr hrp hlisted hr

/-- The thread is started with a guard on a stack that was allocated. -/
theorem GuardInv.starts (h : GuardInv H) (hinv : Inv H.task)
    (hoccupies : Occupies H.task self attr a p c H'.task)
    (haddr : (H.task.setup attr).stackaddr = none)
    (hownership : H'.task.ownership = H.task.ownership.find p none)
    (hcreated : H'.created =
      ⟨p, H.task.setup attr, (H'.task.structs p).stackaddr⟩ :: H.created)
    (hfound : (H.task.ownership.find p none).owned p = some (H'.task.structs p).stackaddr)
    (hguardsize : H'.task.kernel.inaccessible =
      (H.task.kernel.protect (H'.task.structs p).stackaddr
        (H.task.setup attr).guard).inaccessible) :
  GuardInv H'
  := by
  obtain ⟨k', hstackaddr, hpages⟩ := h.pages_starts hinv hoccupies hfound hguardsize
  rw [hstackaddr] at hfound hcreated
  constructor
  · rw [hownership]
    apply h.balanced.find p none
  · intro r b hr
    rw [hownership] at hr
    apply h.allocated_find hr
  · intro k hk
    rw [hownership] at hk
    apply h.beyond_of hoccupies haddr hk
  · intro d hd k hk
    rw [hownership]
    rw [hcreated, List.mem_cons] at hd
    rcases hd with rfl | hd
    · obtain rfl := Stackaddr.allocated.inj hk
      exact (h.balanced.find p none).lt hfound
    · exact (h.used d hd k hk).trans_le (find_count_le _ _)
  · intro r k hlisted hr
    rw [hownership] at hr
    by_cases hrp : r = p
    · rw [hrp, hfound] at hr
      obtain rfl := Stackaddr.allocated.inj (Option.some.inj hr)
      intro page
      rw [hpages page, hcreated, hoccupies.pageSize]
      simp [or_comm]
    · intro page
      have hne : k' ≠ k := by
        rintro rfl
        exact hrp ((h.balanced.find p none).unique hr hfound)
      rw [Ownership.find_owned_of_ne hrp] at hr
      rw [h.guarded_of hoccupies haddr hrp hlisted hr page, hcreated]
      simp [hne]

theorem GuardInv.step (h : GuardInv H) (hinv : Inv H.task) (hnull : NullStacks H op)
    (hcases : StackCases H op H') :
  GuardInv H'
  := by
  cases hcases with
  | keeps ownership pages created listed serves =>
      refine h.fewer ?_ ?_ ?_ pages created fun r b hr => (listed r b hr).mp
      · rw [ownership]
        apply h.balanced
      · rw [ownership]
      · rw [ownership]
        exact fun r b hr => hr
  | loses self attr a p creation head own ownership pages created listed serves structs =>
      refine h.fewer ?_ ?_ ?_ pages created fun r b _ hr => ((listed r).mp hr).1
      · rw [ownership]
        apply h.balanced
      · rw [ownership]
      · rw [ownership]
        exact fun r b hr => hr
  | discards self attr a p c creation occupies fails ownership created withdrawn =>
      have haddr := setup_stackaddr (hnull _ creation) H.task
      rw [haddr] at ownership
      apply h.discards occupies haddr ownership created
  | strands self attr a p c creation occupies fails ownership created unlisted =>
      have haddr := setup_stackaddr (hnull _ creation) H.task
      rw [haddr] at ownership
      apply h.strands occupies haddr ownership created unlisted
  | starts self attr a p c creation occupies succeeds ownership created published found
      stacksize guardsize =>
      have haddr := setup_stackaddr (hnull _ creation) H.task
      rw [haddr] at ownership found
      apply h.starts hinv occupies haddr ownership created found (guardsize haddr)
  | reclaims thread p target get state owned ownership pages created listed serves structs =>
      refine h.fewer ?_ ?_ ?_ pages created fun r b _ => (listed r).mp
      · rw [ownership]
        apply h.balanced.drop
      · rw [ownership, drop_count]
      · intro r b hr
        rw [ownership, Ownership.drop_owned] at hr
        have hrp : r ≠ p := by
          rintro rfl
          simp at hr
        rw [Function.update_of_ne hrp] at hr
        exact hr

theorem GuardInv.boot (stacksize guardsize pageSize : Nat) (memory : Nat → Pthread) :
  GuardInv (.boot stacksize guardsize pageSize memory)
  := by
  have hnone : (History.boot stacksize guardsize pageSize memory).task.ownership.owned =
      fun _ => none := by
    funext r
    simp [History.boot, Task.boot, Task.ownership]
  constructor
  · rw [Ownership.Balanced, hnone]
    apply Ledger.kept_start
  · intro r b hr
    rw [hnone] at hr
    cases hr
  · exact fun _ _ _ => rfl
  · intro d hd
    cases hd
  · intro r k _ hr
    rw [hnone] at hr
    cases hr

/-- The threads on whose guards it depends what a new thread finds. -/
theorem guardCovers_iff (hinv : Inv H.task) (hhanded : H.task.handed a = some (p, c)) {k : Nat}
    (hk : (H.task.ownership.find p none).owned p = some (.allocated k))
    (hused : ∀ d ∈ H.created, ∀ k, d.stackaddr = .allocated k →
      k < H.task.ownership.vmStacks.count) :
  GuardCovers H attr a ↔ ∀ d ∈ H.created, d.stackaddr = .allocated k →
    ∀ page, page * H.task.kernel.pageSize < d.setup.guard →
      page * H.task.kernel.pageSize < (H.task.setup attr).guard
  := by
  have howned := hinv.owned_handed hhanded
  rw [Ownership.find_owned_self, howned, Option.some_inj] at hk
  constructor
  · intro h d hd hstack
    cases hc : c.stack with
    | true =>
        simp only [hc, if_true] at hk
        exact h (p, c) hhanded hc d hd (hstack.trans hk.symm)
    | false =>
        simp only [hc, Bool.false_eq_true, if_false] at hk
        obtain rfl := Stackaddr.allocated.inj hk
        exact absurd (hused d hd _ hstack) (lt_irrefl _)
  · rintro h ⟨p', c'⟩ hx hc d hd hstack
    rw [hhanded, Option.mem_some_iff] at hx
    obtain ⟨rfl, rfl⟩ := Prod.mk.inj hx
    rw [if_pos hc] at hk
    exact h d hd (hstack.trans hk)

/-- After any history without supplied stacks, the guard of a thread that is created is as its
attribute says exactly if it covers the guards of the threads that had the stack before. -/
theorem guard_matches_iff {stacksize guardsize pageSize : Nat} {memory : Nat → Pthread}
    {d : Creation}
    (hreach : History.Reach NullStacks (.boot stacksize guardsize pageSize memory) H)
    (hcreation : op.creation = some (self, attr, a)) (hnull : NullStacks H op)
    (hstep : H.step op = some H') (hcreated : H'.created = d :: H.created) :
  GuardMatches H'.task d ↔ GuardCovers H attr a
  := by
  obtain ⟨hinv, h⟩ := hreach.invariant (Inv.boot _ _ _ _) (GuardInv.boot _ _ _ _)
    fun H op H' hinv hguard hnull hcases => hguard.step hinv hnull (hcases.stackCases hinv)
  have hcons : H'.created ≠ H.created := by
    rw [hcreated]
    simp
  cases (hinv.step_cases hstep).stackCases hinv with
  | starts self attr' a' p c creation occupies succeeds ownership created published found
      stacksize guardsize =>
      rw [hcreation, Option.some_inj] at creation
      obtain ⟨rfl, hrest⟩ := Prod.mk.inj creation
      obtain ⟨rfl, rfl⟩ := Prod.mk.inj hrest
      have haddr := setup_stackaddr (hnull _ hcreation) H.task
      rw [haddr] at found
      obtain ⟨k, hstackaddr, hpages⟩ :=
        h.pages_starts hinv occupies found (guardsize haddr)
      rw [hstackaddr] at found
      obtain rfl := (List.cons.inj (hcreated.symm.trans created)).1
      rw [guardCovers_iff hinv occupies.handed found h.used, GuardMatches]
      simp only [hstackaddr, occupies.pageSize, Stackaddr.allocated.injEq, exists_eq_left']
      constructor
      · intro hmatches e he hstack page hpage
        rw [← hmatches page, hpages page]
        left
        exact ⟨e, he, hstack, hpage⟩
      · intro hcovers page
        rw [hpages page]
        constructor
        · rintro (⟨e, he, hstack, hpage⟩ | hpage)
          · exact hcovers e he hstack page hpage
          · exact hpage
        · exact .inr
  | keeps ownership pages created listed serves => exact absurd created hcons
  | loses self attr a p creation head own ownership pages created listed serves structs =>
      exact absurd created hcons
  | discards self attr a p c creation occupies fails ownership created withdrawn =>
      exact absurd created hcons
  | strands self attr a p c creation occupies fails ownership created unlisted =>
      exact absurd created hcons
  | reclaims thread p target get state owned ownership pages created listed serves structs =>
      exact absurd created hcons

/-- An attribute of detached threads. -/
def detachedAttr (guardsize : Nat) : Attr :=
  ⟨true, none, 16384, guardsize⟩

/-- A detached thread has exited. -/
def guardRun (guardsize : Nat) : List Op :=
  [.initRoutine allGranted, .create 0 none allGranted,
    .create 0 (some (detachedAttr guardsize)) allGranted, .exit 2 (.value 0)]

/-- The next thread has its stack, and asks for a guard of the same size. -/
theorem guard_matches_same :
  ∃ H H' d, History.Reach NullStacks (.boot 16384 4096 4096 fun _ => zeroed) H ∧
    H.step (.create 0 none allGranted) = some H' ∧ H'.created = d :: H.created ∧
    d.stackaddr = .allocated 2 ∧ GuardMatches H'.task d
  := by
  obtain ⟨H, hH, hp⟩ := History.exists_reach_of_run (G := NullStacks)
    (H := .boot 16384 4096 4096 fun _ => zeroed) (guardRun 4096)
    (fun H => (decide (∀ x ∈ H.task.handed allGranted, x.2.stackaddr = .allocated 2) &&
      decide (H.task.setup none = plainAttr ∧ ∀ d ∈ H.created, d.setup.guard = 4096)) &&
      match H.step (.create 0 none allGranted) with
      | some H' => decide (H'.created.head? = some ⟨2, plainAttr, .allocated 2⟩ ∧
          H'.created.tail = H.created)
      | none => false)
    (by decide +kernel)
  simp only [Bool.and_eq_true, decide_eq_true_eq] at hp
  obtain ⟨⟨-, hsetup, hguards⟩, hstep⟩ := hp
  split at hstep
  · rename_i H' hH'
    obtain ⟨hhead, htail⟩ := of_decide_eq_true hstep
    obtain ⟨rest, hcons⟩ := List.head?_eq_some_iff.mp hhead
    have hcreated : H'.created = ⟨2, plainAttr, .allocated 2⟩ :: H.created := by
      rw [← htail, hcons]
      rfl
    refine ⟨H, H', _, hH, hH', hcreated, rfl, ?_⟩
    refine (guard_matches_iff hH (by rfl) ?_ hH' hcreated).mpr ?_
    · simp [NullStacks, Op.creation]
    · intro x hx hstack d hd hstackaddr page hpage
      rw [hguards d hd] at hpage
      rw [hsetup]
      exact hpage
  · cases hstep

/-- The guard of the thread that had the stack before was larger: a page that is not part of the
guard is inaccessible. -/
theorem guard_mismatch_smaller :
  ∃ H H' d, History.Reach NullStacks (.boot 16384 4096 4096 fun _ => zeroed) H ∧
    H.step (.create 0 none allGranted) = some H' ∧ H'.created = d :: H.created ∧
    d.setup.guard = 4096 ∧ H'.task.kernel.pageSize = 4096 ∧
    (H'.task.structs d.p).stackaddr = .allocated 2 ∧
    H'.task.kernel.inaccessible 2 1 = true ∧ ¬ GuardMatches H'.task d
  := by
  obtain ⟨H, hH, hp⟩ := History.exists_reach_of_run (G := NullStacks)
    (H := .boot 16384 4096 4096 fun _ => zeroed) (guardRun 8192)
    (fun H => match H.step (.create 0 none allGranted) with
      | some H' => decide (H'.created.head? = some ⟨2, plainAttr, .allocated 2⟩ ∧
          H'.created.tail = H.created ∧ H'.task.kernel.pageSize = 4096 ∧
          (H'.task.structs 2).stackaddr = .allocated 2 ∧
          H'.task.kernel.inaccessible 2 1 = true)
      | none => false)
    (by decide +kernel)
  split at hp
  · rename_i H' hH'
    obtain ⟨hhead, htail, hpageSize, hstackaddr, hpage⟩ := of_decide_eq_true hp
    obtain ⟨rest, hcons⟩ := List.head?_eq_some_iff.mp hhead
    have hcreated : H'.created = ⟨2, plainAttr, .allocated 2⟩ :: H.created := by
      rw [← htail, hcons]
      rfl
    refine ⟨H, H', _, hH, hH', hcreated, rfl, hpageSize, hstackaddr, hpage, ?_⟩
    rintro ⟨k, hk, hmatches⟩
    obtain rfl := Stackaddr.allocated.inj (hstackaddr.symm.trans hk)
    have hlt := (hmatches 1).mp hpage
    rw [hpageSize] at hlt
    exact absurd hlt (by decide)
  · cases hp

end Guard

end LibPthread.Thread
