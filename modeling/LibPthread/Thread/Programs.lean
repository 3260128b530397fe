import LibPthread.Thread.Attributes
import LibPthread.Thread.Ownership

/-!
# Programs with attribute objects

A program fills in attribute objects, creates threads with them, and makes attribute objects of
its threads. A call of `pthread_attr_setstack` first sets the size, and if the address is refused
it sets the old size again, which is asserted to succeed. It does so because no program can come
by an attribute object with another size than the default one, whatever creations fail.
-/

open Concurrency

namespace LibPthread.Thread

/-! ### What the structures of threads hold -/

/-- If the structure owns a stack, it has the default size, the guard is not larger, and on the
Hurd a stack that was supplied lies at a multiple of the size. -/
structure Pthread.Fits (y : Port) (size : Nat) (q : Pthread) : Prop where
  stacksize : q.stack = true → q.stacksize = size
  guardsize : q.stack = true → q.guardsize ≤ size
  aligned : y = .hurd → q.stack = true → ∀ u, q.stackaddr = .user u → size ∣ u

theorem Pthread.fits_of_clear {y : Port} {size : Nat} {q : Pthread} (h : q.stack = false) :
  q.Fits y size
  := by
  constructor <;> simp [h]

/-- A change that keeps the fields of the stack. -/
theorem Pthread.Fits.congr {y : Port} {size : Nat} {q q' : Pthread} (h : q.Fits y size)
    (hstack : q'.stack = q.stack) (hstackaddr : q'.stackaddr = q.stackaddr)
    (hstacksize : q'.stacksize = q.stacksize) (hguardsize : q'.guardsize = q.guardsize) :
  q'.Fits y size
  := by
  constructor
  · rw [hstack, hstacksize]
    apply h.stacksize
  · rw [hstack, hguardsize]
    apply h.guardsize
  · rw [hstack, hstackaddr]
    apply h.aligned

/-- All structures fit, and those of the threads in the table own a stack. -/
structure Sized (y : Port) (size : Nat) (L : Task) : Prop where
  default : L.defaultStacksize = size
  fits : ∀ r < L.heap, (L.structs r).Fits y size
  serving : ∀ r, L.table.Serves r → (L.structs r).stack = true

section Sized

variable {y : Port} {size : Nat} {L L' B : Task} {self p : Nat} {attr : Option Attr} {a : Answers}
  {c q : Pthread} {K : Kernel}

theorem Handed.fits (hB : Handed L a p c B q K) (h : Sized y size L) (hL : Inv L) :
  q.Fits y size
  := by
  have hc : c.Fits y size := by
    have hhanded := hB.handed
    rw [Task.handed] at hhanded
    split at hhanded
    · rename_i p' rest hfree
      obtain ⟨rfl, rfl⟩ := Prod.mk.inj (Option.some.inj hhanded)
      apply h.fits _ (hL.free p' (by simp [hfree])).1
    · split at hhanded
      · cases hhanded
      · split at hhanded
        · obtain ⟨-, rfl⟩ := Prod.mk.inj (Option.some.inj hhanded)
          apply Pthread.fits_of_clear rfl
        · cases hhanded
  obtain ⟨stateCond, rfl⟩ := hB.contents
  exact hc.congr rfl rfl rfl rfl

/-- The structure of a thread that can be started fits, if its attribute asks for a stack of the
default size. -/
theorem withTls_fits (hq : q.Fits y size) (hsetup : (L.setup attr).Valid y size) :
  (L.withTls self attr q K).1.Fits y size
  := by
  obtain ⟨-, hstackaddr, hstacksize, hguardsize, -⟩ := withTls_frame L self attr q K
  have hguard : (q.prepared (L.setup attr)).guardsize ≤ size := by
    have := hsetup.stacksize
    simp only [Pthread.prepared]
    split
    · omega
    · split <;> omega
  by_cases hstack : q.stack = true
  · cases haddr : (L.setup attr).stackaddr with
    | none =>
        have hfound : (L.withStack attr q K).1 = q.prepared (L.setup attr) := by
          simp [Task.withStack, takeStack, Pthread.prepared, hstack, haddr]
        rw [hfound] at hstackaddr hstacksize
        constructor
        · rw [hstacksize]
          intro _
          apply hq.stacksize hstack
        · rw [hguardsize]
          exact fun _ => hguard
        · rw [hstackaddr]
          intro hy _
          apply hq.aligned hy hstack
    | some u =>
        have hfound : (L.withStack attr q K).1.stackaddr = .user u ∧
            (L.withStack attr q K).1.stacksize = (L.setup attr).stacksize := by
          simp [Task.withStack, takeStack, Pthread.prepared, hstack, haddr]
        constructor
        · rw [hstacksize, hfound.2]
          exact fun _ => hsetup.stacksize
        · rw [hguardsize]
          exact fun _ => hguard
        · rw [hstackaddr, hfound.1]
          rintro hy _ _ ⟨⟩
          apply hsetup.aligned hy u haddr
  · have hfound : (L.withStack attr q K).1.stackaddr = .allocated K.vmStacks.count ∧
        (L.withStack attr q K).1.stacksize = (L.setup attr).stacksize := by
      simp [Task.withStack, takeStack, Pthread.prepared, hstack]
    constructor
    · rw [hstacksize, hfound.2]
      exact fun _ => hsetup.stacksize
    · rw [hguardsize]
      exact fun _ => hguard
    · rw [hstackaddr, hfound.1]
      rintro _ _ _ ⟨⟩

/-- Only the structure `p` changes, and it is withdrawn from the table or put into it. -/
theorem Sized.change (h : Sized y size L) (hdefault : L'.defaultStacksize = L.defaultStacksize)
    (hheap : ∀ r, r ≠ p → r < L'.heap → r < L.heap)
    (hstructs : ∀ r, r ≠ p → L'.structs r = L.structs r) (hfits : (L'.structs p).Fits y size)
    (hserves : ∀ r, L'.table.Serves r →
      (r ≠ p ∧ L.table.Serves r) ∨ (r = p ∧ (L'.structs p).stack = true)) :
  Sized y size L'
  := by
  constructor
  · rw [hdefault]
    apply h.default
  · intro r hr
    by_cases hrp : r = p
    · rw [hrp]
      apply hfits
    · rw [hstructs r hrp]
      apply h.fits r (hheap r hrp hr)
  · intro r hr
    rcases hserves r hr with ⟨hrp, hr⟩ | ⟨rfl, hstack⟩
    · rw [hstructs r hrp]
      apply h.serving r hr
    · apply hstack

theorem Handed.serves_iff (hB : Handed L a p c B q K) (r : Nat) :
  B.table.Serves r ↔ L.table.Serves r
  := exists_congr fun i => hB.entry i r

/-- The structure that was handed out changes, and it is put into the table if it owns a stack. -/
theorem Handed.sized (hB : Handed L a p c B q K) (h : Sized y size L)
    (hdefault : L'.defaultStacksize = L.defaultStacksize) (hheap : L'.heap = B.heap)
    (hstructs : ∀ r, r ≠ p → L'.structs r = B.structs r) (hfits : (L'.structs p).Fits y size)
    (hserves : ∀ r, L'.table.Serves r →
      B.table.Serves r ∨ (r = p ∧ (L'.structs p).stack = true)) :
  Sized y size L'
  := by
  apply h.change hdefault _ _ hfits
  · intro r hr
    rcases hserves r hr with hr | hr
    · left
      constructor
      · rintro rfl
        apply hB.held.absent hr
      · apply (hB.serves_iff r).mp hr
    · right
      apply hr
  · intro r hr hlt
    rw [hheap] at hlt
    apply (hB.heap r hr).mp hlt
  · intro r hr
    rw [hstructs r hr, hB.structs]

theorem Handed.sized_freed (hB : Handed L a p c B q K) (h : Sized y size L) {q' : Pthread}
    {K' : Kernel} (hstack : q'.stack = false) :
  Sized y size (B.freed p q' K')
  := by
  apply hB.sized h
  · apply hB.defaultStacksize
  · rfl
  · intro r hr
    apply Task.put_structs_of_ne _ _ _ _ hr
  · apply Pthread.fits_of_clear
    simpa [Task.freed, Pthread.terminated] using hstack
  · intro r hr
    left
    apply hr

/-- A creation whose attribute asks for a stack of the default size. -/
theorem Sized.creation (h : Sized y size L) (hL : Inv L) (hsetup : (L.setup attr).Valid y size)
    {point : Option Point} {x : Exec (Option Errno × Option Nat)}
    (hends : Ends L self attr a point x) (hx : x.task? = some L') :
  Sized y size L'
  := by
  cases hends with
  | halted point p rest free own =>
      obtain rfl := Option.some.inj hx
      exact ⟨h.default, h.fits, h.serving⟩
  | alloc free refused heap memory grows same clear =>
      obtain rfl := Option.some.inj hx
      constructor
      · apply h.default
      · intro r hr
        by_cases hlt : r < L.heap
        · simp only [same r hlt]
          apply h.fits r hlt
        · apply Pthread.fits_of_clear (clear r hr (Nat.le_of_not_lt hlt))
      · intro r hr
        simp only [same r (hL.serving r hr).1]
        apply h.serving r hr
  | stackAlloc handed clear e =>
      obtain rfl := Option.some.inj hx
      apply handed.sized_freed h
      exact handed.fields.1.trans clear
  | portAllocate handed =>
      obtain rfl := Option.some.inj hx
      apply handed.sized_freed h rfl
  | insertRight handed port =>
      obtain rfl := Option.some.inj hx
      apply handed.sized_freed h rfl
  | threadCreate handed port =>
      obtain rfl := Option.some.inj hx
      apply handed.sized_freed h rfl
  | cleanup handed from_point other =>
      obtain rfl := Option.some.inj hx
      apply handed.sized_freed h rfl
  | @haltedCleanup p c B q K handed point x err thread from_point own =>
      obtain rfl := Option.some.inj hx
      have hfits : (L.withTls self attr q K).1.Fits y size :=
        withTls_fits (handed.fits h hL) hsetup
      apply handed.sized h
      · apply handed.defaultStacksize
      · rfl
      · intro r hr
        apply Task.put_structs_of_ne _ _ _ _ hr
      · rw [Task.put_structs_self]
        cases from_point <;> exact hfits.congr (by rfl) (by rfl) (by rfl) (by rfl)
      · intro r hr
        left
        apply hr
  | @started p c B q K handed t published =>
      obtain rfl := Option.some.inj hx
      apply handed.sized h
      · apply handed.defaultStacksize
      · rfl
      · intro r hr
        apply Task.put_structs_of_ne { B with table := t, total := B.total + 1 } _ _ _ hr
      · rw [Task.put_structs_self]
        apply withTls_fits (handed.fits h hL) hsetup
      · intro r hr
        rw [Task.put_structs_self]
        rcases (handed.held.serves_publish published r).mp hr with rfl | hr
        · right
          use rfl, (withTls_frame L self attr q K).1
        · left
          apply hr
  | _ => cases hx

/-- A published thread changes, but not the fields of its stack. -/
theorem Sized.put (h : Sized y size L) {p : Nat} (hp : L.table.Serves p) (hL : Inv L) {B : Task}
    (hdefault : B.defaultStacksize = L.defaultStacksize) (hheap : B.heap = L.heap)
    (hstructs : B.structs = L.structs) (htable : ∀ r, B.table.Serves r → L.table.Serves r)
    {q : Pthread} (K : Kernel) (hstack : q.stack = (L.structs p).stack)
    (hstackaddr : q.stackaddr = (L.structs p).stackaddr)
    (hstacksize : q.stacksize = (L.structs p).stacksize)
    (hguardsize : q.guardsize = (L.structs p).guardsize) :
  Sized y size (B.put p q K)
  := by
  refine h.change (p := p) hdefault ?_ ?_ ?_ ?_
  · intro r _ hr
    rw [Task.put_heap, hheap] at hr
    apply hr
  · intro r hr
    rw [Task.put_structs_of_ne _ _ _ _ hr, hstructs]
  · rw [Task.put_structs_self]
    exact (h.fits p (hL.serving p hp).1).congr hstack hstackaddr hstacksize hguardsize
  · intro r hr
    by_cases hrp : r = p
    · right
      rw [Task.put_structs_self, hstack]
      exact ⟨hrp, h.serving p hp⟩
    · left
      exact ⟨hrp, htable r hr⟩

theorem Sized.call (h : Sized y size L) (hL : Inv L) {target : Option Nat}
    (heffect : CallEffect L target L') :
  Sized y size L'
  := by
  cases heffect with
  | nothing => apply h
  | exits p status serves state =>
      exact h.put (B := { L with total := L.total - 1 }) serves hL rfl rfl rfl (fun _ hr => hr) _
        rfl rfl rfl rfl
  | detaches p serves state =>
      exact h.put serves hL rfl rfl rfl (fun _ hr => hr) _ rfl rfl rfl rfl
  | leaves p t serves state withdrawn =>
      rw [Task.freed]
      refine h.put serves hL (by rfl) (by rfl) (by rfl) ?_ _ (by rfl) (by rfl) (by rfl) (by rfl)
      intro r hr
      exact ((serves_withdrawn hL serves withdrawn r).mp hr).1
  | reclaims p t serves asked state stack withdrawn =>
      refine h.change (p := p) (by rfl) ?_ ?_ ?_ ?_
      · exact fun _ _ hr => hr
      · intro r hr
        apply Task.put_structs_of_ne _ _ _ _ hr
      · apply Pthread.fits_of_clear
        simp [Task.freed, Pthread.terminated]
      · intro r hr
        left
        obtain ⟨hr, hne⟩ := (serves_withdrawn hL serves withdrawn r).mp hr
        exact ⟨hne, hr⟩

/-- A call whose attribute, if there is one, asks for a stack of the default size. -/
theorem Sized.step {H H' : History} {op : Op} (h : Sized y size H.task) (hL : Inv H.task)
    (hsetup : ∀ x ∈ op.creation, (H.task.setup x.2.1).Valid y size)
    (hstep : H.step op = some H') :
  Sized y size H'.task
  := by
  cases hL.step_cases hstep with
  | started self attr a creation alive L p total call ends task created =>
      have hL' := h.creation hL (hsetup _ creation) ends rfl
      rw [task]
      exact ⟨hL'.default, hL'.fits, hL'.serving⟩
  | ended self attr a creation alive x call ends task other created =>
      apply h.creation hL (hsetup _ creation) ends task
  | called creation effect created => apply h.call hL effect

end Sized

/-! ### Programs -/

/-- The threads of a program, and its attribute objects; `none` is memory that was not
initialized. -/
structure Program where
  history : History
  attrs : Nat → Option PthreadAttr

/-- The calls; `object` is the address of an attribute object. -/
inductive ProgramCall where
  | attrInit (object : Nat)
  | set (object : Nat) (x : PthreadAttr.Setter)
  | getattr (object thread : Nat)
  /-- `pthread_create`, with `NULL` or an attribute object. -/
  | create (self : Nat) (object : Option Nat) (a : Answers)
  | initRoutine (a : Answers)
  | exit (p : Nat) (status : Status)
  | join (thread : Nat)
  | detach (thread : Nat)

namespace Program

/-- The library before the first thread is created, and memory without attribute objects. -/
def boot (stacksize guardsize pageSize : Nat) (memory : Nat → Pthread) : Program where
  history := .boot stacksize guardsize pageSize memory
  attrs _ := none

/-- The default size of a stack. -/
def size (P : Program) : Nat :=
  P.history.task.defaultStacksize

/-- Stores an attribute object. -/
@[simps]
def store (P : Program) (object : Nat) (attr : PthreadAttr) : Program :=
  { P with attrs := Function.update P.attrs object (some attr) }

/-- A call that creates a thread or acts on one. -/
def call (P : Program) (op : Op) : Option Program :=
  (P.history.step op).map fun H => { P with history := H }

/-- A call. There is no result if it uses an object that was not initialized, if an assertion
fails, or if the call has none between the calls. -/
def step (b : Build) (y : Port) (base : Nat → Nat) (P : Program) : ProgramCall → Option Program
  | .attrInit object => some (P.store object P.history.task.defaultPthreadAttr)
  | .set object x => do
    let attr ← P.attrs object
    let (attr, _) ← attr.set b y P.size x
    return P.store object attr
  | .getattr object thread =>
    match P.history.task.getattr base thread with
    | none => none
    | some (.error _) => some P
    | some (.ok attr) => some (P.store object attr)
  | .create self none a => P.call (.create self none a)
  | .create self (some object) a => do
    let attr ← P.attrs object
    P.call (.create self (some attr.toAttr) a)
  | .initRoutine a => P.call (.initRoutine a)
  | .exit p status => P.call (.exit p status)
  | .join thread => P.call (.join thread)
  | .detach thread => P.call (.detach thread)

/-- The calls in order. -/
def run (b : Build) (y : Port) (base : Nat → Nat) : Program → List ProgramCall → Option Program
  | P, [] => some P
  | P, c :: cs => (P.step b y base c).bind fun P => run b y base P cs

/-- The calls lead from `P` to `P'`. -/
def Reach (b : Build) (y : Port) (base : Nat → Nat) : Program → Program → Prop :=
  Relation.ReflTransGen fun P P' => ∃ c, P.step b y base c = some P'

/-- The invariant of a program: its attribute objects and its threads ask for stacks of the default
size. -/
structure Inv (y : Port) (size : Nat) (P : Program) : Prop where
  threads : Thread.Inv P.history.task
  sized : Sized y size P.history.task
  objects : ∀ object attr, P.attrs object = some attr → attr.Valid y size

variable {b : Build} {y : Port} {size : Nat} {base : Nat → Nat} {P P' : Program}

theorem Inv.store (h : P.Inv y size) {attr : PthreadAttr} (hattr : attr.Valid y size)
    (object : Nat) :
  (P.store object attr).Inv y size
  := by
  constructor
  · apply h.threads
  · apply h.sized
  · intro object' attr' ho
    rw [store_attrs, Function.update_apply] at ho
    split at ho
    · obtain rfl := Option.some.inj ho
      apply hattr
    · apply h.objects object' attr' ho

theorem Inv.call (h : P.Inv y size) {op : Op}
    (hsetup : ∀ x ∈ op.creation, ∀ attr ∈ x.2.1, attr.Valid y size)
    (hcall : P.call op = some P') :
  P'.Inv y size
  := by
  obtain ⟨H, hstep, rfl⟩ := Option.map_eq_some_iff.mp hcall
  constructor
  · apply (h.threads.step_cases hstep).inv h.threads
  · apply h.sized.step h.threads _ hstep
    intro x hx
    cases hattr : x.2.1 with
    | none => exact ⟨h.sized.default, by simp [Task.setup, Task.defaultAttr]⟩
    | some attr => apply hsetup x hx attr hattr
  · apply h.objects

/-- The attribute object of a thread is valid. -/
theorem Inv.getattr (h : P.Inv y size) (hbase : y = .hurd → ∀ k, size ∣ base k) {thread : Nat}
    {attr : PthreadAttr} (hget : P.history.task.getattr base thread = some (.ok attr)) :
  attr.Valid y size
  := by
  rw [Task.getattr] at hget
  split at hget
  · rename_i p hp
    obtain rfl := Except.ok.inj (Option.some.inj hget)
    have hserves := serves_of_get hp
    have hfits := h.sized.fits p (h.threads.serving p hserves).1
    have hstack := h.sized.serving p hserves
    refine ⟨⟨hfits.stacksize hstack, ?_⟩, rfl, rfl, rfl⟩
    intro hy u hu
    simp only [Option.mem_def] at hu
    split at hu
    · rename_i u' hu'
      obtain rfl := Option.some.inj hu
      apply hfits.aligned hy hstack _ hu'
    · rw [ofAddress] at hu
      split at hu
      · cases hu
      · obtain rfl := Option.some.inj hu
        apply hbase hy
  · cases hget
  · cases hget

theorem Inv.step (h : P.Inv y size) (hsize : ∃ k, size = 2 ^ k)
    (hbase : y = .hurd → ∀ k, size ∣ base k) {c : ProgramCall}
    (hstep : P.step b y base c = some P') :
  P'.Inv y size
  := by
  cases c with
  | attrInit object =>
      obtain rfl := Option.some.inj hstep
      apply h.store
      exact ⟨⟨h.sized.default, by simp [Task.defaultAttr]⟩, rfl, rfl, rfl⟩
  | set object x =>
      simp only [Program.step, Option.bind_eq_bind, Option.bind_eq_some_iff, Option.pure_def,
        Option.some_inj] at hstep
      obtain ⟨attr, hattr, ⟨attr', r⟩, hset, rfl⟩ := hstep
      obtain ⟨attr'', r', hset', hvalid⟩ := (h.objects object attr hattr).set (b := b) hsize x
      rw [Program.size, h.sized.default, hset'] at hset
      obtain ⟨rfl, -⟩ := Prod.mk.inj (Option.some.inj hset)
      apply h.store hvalid
  | getattr object thread =>
      simp only [Program.step] at hstep
      split at hstep
      · cases hstep
      · obtain rfl := Option.some.inj hstep
        apply h
      · rename_i attr hget
        obtain rfl := Option.some.inj hstep
        apply h.store (h.getattr hbase hget)
  | create self object a =>
      cases object with
      | none =>
          apply h.call _ hstep
          rintro x ⟨⟩ attr ⟨⟩
      | some object =>
          simp only [Program.step, Option.bind_eq_bind, Option.bind_eq_some_iff] at hstep
          obtain ⟨attr, hattr, hcall⟩ := hstep
          apply h.call _ hcall
          rintro x ⟨⟩ attr' ⟨⟩
          apply (h.objects object attr hattr).toValid
  | initRoutine a =>
      apply h.call _ hstep
      rintro x ⟨⟩ attr ⟨⟩
  | exit p status =>
      apply h.call _ hstep
      rintro x ⟨⟩
  | join thread =>
      apply h.call _ hstep
      rintro x ⟨⟩
  | detach thread =>
      apply h.call _ hstep
      rintro x ⟨⟩

theorem Inv.boot {stacksize guardsize pageSize : Nat} {memory : Nat → Pthread} :
  (Program.boot stacksize guardsize pageSize memory).Inv y stacksize
  := by
  constructor
  · apply Thread.Inv.boot
  · constructor
    · rfl
    · intro r hr
      simp [Program.boot, History.boot, Task.boot] at hr
    · rintro r ⟨i, hi⟩
      simp [Program.boot, History.boot, Task.boot] at hi
  · intro object attr hattr
    cases hattr

theorem Inv.of_reach {guardsize pageSize : Nat} {memory : Nat → Pthread}
    (hsize : ∃ k, size = 2 ^ k) (hbase : y = .hurd → ∀ k, size ∣ base k)
    (hreach : Program.Reach b y base (.boot size guardsize pageSize memory) P) :
  P.Inv y size
  := by
  induction hreach with
  | refl => apply Inv.boot
  | tail _ hlast ih =>
      obtain ⟨c, hstep⟩ := hlast
      apply ih.step hsize hbase hstep

/-- In every run of a program, a call of `pthread_attr_setstack` on any of its attribute objects,
also on those made of running threads, returns: it sets the size and the address, or it refuses
one of them and leaves the object as it was. The threads run on stacks of the default size, at
addresses that the functions accept, and no guard is larger than its stack. -/
theorem setstack_all_or_nothing {guardsize pageSize : Nat} {memory : Nat → Pthread}
    (hsize : ∃ k, size = 2 ^ k) (hbase : y = .hurd → ∀ k, size ∣ base k)
    (hreach : Program.Reach b y base (.boot size guardsize pageSize memory) P) :
  (∀ object attr, P.attrs object = some attr → ∀ stackaddr stacksize,
      ∃ attr' r, attr.setstack b y P.size stackaddr stacksize = some (attr', r) ∧
        (r = none ↔ stacksize = size ∧ (y = .hurd → size ∣ stackaddr)) ∧
        (r = none → attr'.stackaddr = ofAddress stackaddr ∧ attr'.stacksize = stacksize) ∧
        (r ≠ none → attr' = attr)) ∧
    ∀ p, P.history.task.table.Serves p →
      (P.history.task.structs p).stacksize = size ∧
      (P.history.task.structs p).guardsize ≤ size ∧
      (y = .hurd → ∀ u, (P.history.task.structs p).stackaddr = .user u → size ∣ u)
  := by
  have h := Inv.of_reach hsize hbase hreach
  constructor
  · intro object attr hattr stackaddr stacksize
    rw [Program.size, h.sized.default]
    apply (h.objects object attr hattr).setstack hsize
  · intro p hp
    have hfits := h.sized.fits p (h.threads.serving p hp).1
    have hstack := h.sized.serving p hp
    exact ⟨hfits.stacksize hstack, hfits.guardsize hstack, fun hy => hfits.aligned hy hstack⟩

theorem reach_of_run (cs : List ProgramCall) {P P' : Program} (h : run b y base P cs = some P') :
  Program.Reach b y base P P'
  := by
  induction cs generalizing P with
  | nil =>
      obtain rfl := Option.some.inj h
      apply Relation.ReflTransGen.refl
  | cons c cs ih =>
      obtain ⟨P₁, hstep, hrest⟩ := Option.bind_eq_some_iff.mp h
      apply Relation.ReflTransGen.head _ (ih hrest)
      use c

/-- A thread is created with an attribute object, and another object is made of this thread. -/
def describe : List ProgramCall :=
  [.initRoutine allGranted, .attrInit 0, .set 0 (.guardsize 4096), .set 0 (.detachstate 1),
    .create 0 (some 0) allGranted, .getattr 1 2]

/-- An address that is not aligned is refused. -/
theorem setstack_all_or_nothing_describe :
  ∃ P, Program.Reach .debug .hurd (fun k => 65536 * (k + 1)) (.boot 65536 1 4096 fun _ => zeroed) P ∧
    ∃ attr attr' r, P.attrs 1 = some attr ∧ attr.stackaddr = some 131072 ∧
      attr.setstack .debug .hurd P.size 65537 65536 = some (attr', r) ∧ r ≠ none ∧ attr' = attr
  := by
  have hrun : ((run .debug .hurd (fun k => 65536 * (k + 1)) (.boot 65536 1 4096 fun _ => zeroed)
      describe).map fun P =>
        decide ((P.attrs 1).map (fun attr => attr.stackaddr) = some (some 131072))) = some true := by
    decide +kernel
  obtain ⟨P, hP, htest⟩ := Option.map_eq_some_iff.mp hrun
  obtain ⟨attr, hattr, haddr⟩ := Option.map_eq_some_iff.mp (of_decide_eq_true htest)
  have hreach := reach_of_run describe hP
  obtain ⟨attr', r, hset, hr, -, hkeeps⟩ := (setstack_all_or_nothing ⟨16, rfl⟩
    (fun _ k => ⟨k + 1, rfl⟩) hreach).1 1 attr hattr 65537 65536
  have hrefused : r ≠ none := by
    rw [ne_eq, hr]
    decide
  exact ⟨P, hreach, attr, attr', r, hattr, haddr, hset, hrefused, hkeeps hrefused⟩

end Program

end LibPthread.Thread
