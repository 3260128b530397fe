import LibPthread.Queue.Functions

/-!
# What the queues in memory represent

Memory represents the queues of `Waits` when each of them is a chain from its head to a null
pointer in which every thread points back, by `prevp`, to the cell that points to it. The
queue functions on memory are then the operations of `Waits`, on which the rest of the library
is built.

The cells of a chain, with the head of the queue as the first one, are a doubly linked list in
the sense of `Linked`.
-/

open Concurrency

namespace LibPthread.Queue

variable {T Q : Type}

/-- The cells from `c` on lead through the threads `l` to a null pointer, and every thread
points back to the cell that points to it. -/
def Chain (m : Memory T Q) : Cell T Q → List T → Prop
  | c, [] => m.load c = none
  | c, t :: l => m.load c = some t ∧ m.prevp t = some c ∧ Chain m (.next t) l

/-- The pointers from `start` on lead through the threads `l` to a null pointer. -/
def Trail (m : Memory T Q) : Option T → List T → Prop
  | start, [] => start = none
  | start, t :: l => start = some t ∧ Trail m (m.next t) l

/-- The queues of `w` are in memory. -/
structure Represents (m : Memory T Q) (w : Waits T Q) : Prop where
  chain : ∀ q, Chain m (.head q) (w.queue q)
  nodup : ∀ q, (w.queue q).Nodup
  queued : ∀ t q, w.prevp t = some q ↔ t ∈ w.queue q
  prevp : ∀ t, m.prevp t = none ↔ w.prevp t = none

/-! ### Chains as doubly linked lists of cells -/

namespace Chain

variable {m m' : Memory T Q} {c : Cell T Q} {l l₁ l₂ : List T} {t : T}

/-- The cell that `c` leads to. -/
def follow (m : Memory T Q) (c : Cell T Q) : Option (Cell T Q) :=
  (m.load c).map .next

/-- The cell that leads to the cell of a thread, as the thread knows it. -/
def back (m : Memory T Q) : Cell T Q → Option (Cell T Q)
  | .head _ => none
  | .next t => m.prevp t

theorem iff_linked_rest :
  Chain m c l ↔ Linked (follow m) (back m) (some c) (follow m c) (l.map .next)
  := by
  induction l generalizing c with
  | nil => simp [Chain, Linked, follow]
  | cons t l ih => simp [Chain, Linked, ih, follow, back]

/-- A queue is a doubly linked list whose first node is its head. -/
theorem iff_linked {q : Q} :
  Chain m (.head q) l ↔
    Linked (follow m) (back m) none (some (.head q)) (.head q :: l.map .next)
  := by
  rw [iff_linked_rest]
  simp [Linked, back]

/-- A chain depends on the cells of its own threads. -/
theorem congr (h : Chain m c l) (hc : m'.load c = m.load c)
    (hnext : ∀ t ∈ l, m'.next t = m.next t) (hprevp : ∀ t ∈ l, m'.prevp t = m.prevp t) :
  Chain m' c l
  := by
  induction l generalizing c with
  | nil =>
      rw [Chain, hc]
      exact h
  | cons t l ih =>
      obtain ⟨ht, hback, hrest⟩ := h
      have hmem : t ∈ t :: l := List.mem_cons_self
      refine ⟨by rw [hc, ht], by rw [hprevp t hmem, hback], ?_⟩
      apply ih hrest (hnext t hmem)
      · intro u hu
        apply hnext u (List.mem_cons_of_mem _ hu)
      · intro u hu
        apply hprevp u (List.mem_cons_of_mem _ hu)

theorem trail (h : Chain m c l) :
  Trail m (m.load c) l
  := by
  induction l generalizing c with
  | nil => exact h
  | cons t l ih => exact ⟨h.1, ih h.2.2⟩

theorem load_eq (h : Chain m c l) :
  m.load c = l.head?
  := by
  cases l with
  | nil => exact h
  | cons t l => exact h.1

end Chain

theorem Trail.congr {m m' : Memory T Q} {start : Option T} {l : List T} (h : Trail m start l)
    (hnext : ∀ t ∈ l, m'.next t = m.next t) :
  Trail m' start l
  := by
  induction l generalizing start with
  | nil => exact h
  | cons t l ih =>
      obtain ⟨hstart, hrest⟩ := h
      refine ⟨hstart, ?_⟩
      rw [hnext t List.mem_cons_self]
      apply ih hrest
      intro u hu
      apply hnext u (List.mem_cons_of_mem _ hu)

variable [DecidableEq T] [DecidableEq Q]

/-- The first thread of a chain may be led to by another cell. -/
theorem Chain.reattach {m m' : Memory T Q} {c c' : Cell T Q} {l : List T} (h : Chain m c l)
    (hnodup : l.Nodup) (hc : m'.load c' = m.load c) (hnext : ∀ t ∈ l, m'.next t = m.next t)
    (hprevp : ∀ t ∈ l, m'.prevp t = if l.head? = some t then some c' else m.prevp t) :
  Chain m' c' l
  := by
  rw [iff_linked_rest] at h ⊢
  have hfollow : follow m' c' = follow m c := by
    rw [follow, hc, follow]
  rw [hfollow]
  have hcells : (l.map (Cell.next (Q := Q))).Nodup := by
    apply hnodup.map
    intro t u htu
    apply Cell.next.inj htu
  apply h.reattach hcells
  · rintro x hx
    obtain ⟨t, ht, rfl⟩ := List.mem_map.mp hx
    simp only [follow, Memory.load, hnext t ht]
  · rintro x hx
    obtain ⟨t, ht, rfl⟩ := List.mem_map.mp hx
    simp [back, hprevp t ht, List.head?_map]

/-- A thread in a chain knows its neighbours, which close the gap when they are told of each
other. -/
theorem Chain.unlink {m : Memory T Q} {q : Q} {t : T} {l₁ l₂ : List T}
    (h : Chain m (.head q) (l₁ ++ t :: l₂)) (hnodup : (l₁ ++ t :: l₂).Nodup) :
  ∃ c, m.prevp t = some c ∧ m.next t = l₂.head? ∧ (c = .head q ∨ ∃ u ∈ l₁, c = .next u) ∧
    ∀ m' : Memory T Q, (∀ c', m'.load c' = if c' = c then m.next t else m.load c') →
      (∀ u, u ≠ t → m'.prevp u = if l₂.head? = some u then some c else m.prevp u) →
      Chain m' (.head q) (l₁ ++ l₂)
  := by
  have hinj : Function.Injective (Cell.next (T := T) (Q := Q)) := by
    intro t u htu
    apply Cell.next.inj htu
  have hlinked := iff_linked.mp h
  rw [List.map_append, List.map_cons, ← List.cons_append] at hlinked
  obtain ⟨hprev, hnext⟩ := hlinked.neighbours
  have hnext : m.next t = l₂.head? := by
    apply Option.map_injective hinj
    simpa [follow, Memory.load, List.head?_map] using hnext
  obtain ⟨c, hc⟩ : ∃ c, (Cell.head q :: l₁.map Cell.next).getLast? = some c := by
    simp [List.getLast?_cons]
  have hback : m.prevp t = some c := by
    simpa [back, hc] using hprev
  refine ⟨c, hback, hnext, ?_, ?_⟩
  · simpa [eq_comm] using List.mem_of_getLast? hc
  · intro m' hload hprevp
    rw [iff_linked, List.map_append, ← List.cons_append]
    have hcells : (Cell.head q :: l₁.map Cell.next ++ Cell.next t :: l₂.map Cell.next).Nodup := by
      simpa using hnodup.map hinj
    suffices hrest : Linked (follow m') (back m') none
        (if Cell.head q :: l₁.map Cell.next = [] then follow m (.next t) else some (.head q))
        (Cell.head q :: l₁.map Cell.next ++ l₂.map Cell.next) by
      simpa using hrest
    apply hlinked.unlink hcells
    · intro x hx
      simp only [follow, hload, hc, Option.some_inj, eq_comm (a := c)]
      split <;> rfl
    · intro x hx
      cases x with
      | head q => simp [back]
      | next u =>
          have hu : u ≠ t := by
            rintro rfl
            simp at hx hnodup
            grind
          simp [back, hprevp u hu, hback, List.head?_map]

/-! ### What the functions write -/

variable {m m' : Memory T Q} {w : Waits T Q} {q : Q} {t : T}

/-- The enqueue of a thread that is on no queue. -/
theorem enqueue_eq (q : Q) (ht : m.prevp t = none) :
  ∃ m', enqueue m q t = some m' ∧
    (∀ c, m'.load c =
      if c = .head q then some t else if c = .next t then m.load (.head q) else m.load c) ∧
    ∀ u, m'.prevp u =
      if m.load (.head q) = some u then some (.next t)
      else if u = t then some (.head q) else m.prevp u
  := by
  rw [enqueue, if_neg (not_not.mpr ht)]
  refine ⟨_, rfl, ?_, ?_⟩
  · intro c
    cases hhead : m.load (.head q) with
    | none => simp [hhead]
    | some first => simp [hhead]
  · intro u
    cases hhead : m.load (.head q) with
    | none => simp [hhead, Function.update_apply]
    | some first => simp [hhead, Function.update_apply, eq_comm]

/-- The dequeue of a thread that is linked. -/
theorem dequeue_eq {c : Cell T Q} (ht : m.prevp t = some c) :
  ∃ m', dequeue m t = some m' ∧
    (∀ c', m'.load c' = if c' = c then m.next t else m.load c') ∧
    ∀ u, m'.prevp u =
      if u = t then none else if m.next t = some u then some c else m.prevp u
  := by
  rw [dequeue, ht]
  refine ⟨_, rfl, ?_, ?_⟩
  · intro c'
    cases hnext : m.next t with
    | none => simp [hnext]
    | some next => simp [hnext]
  · intro u
    cases hnext : m.next t with
    | none => simp [Function.update_apply]
    | some next => simp [Function.update_apply, eq_comm]

/-! ### The operations -/

/-- Memory in the middle of an iteration that has still to visit `rest`. The queues for which
`intact` holds are in memory; the threads of `rest` are linked in memory and on no queue of
`w`. -/
structure Walking (intact : Q → Prop) (m : Memory T Q) (w : Waits T Q) (rest : List T) :
    Prop where
  chain : ∀ q, intact q → Chain m (.head q) (w.queue q)
  nodup : ∀ q, (w.queue q).Nodup
  queued : ∀ t q, w.prevp t = some q ↔ t ∈ w.queue q
  prevp : ∀ t, m.prevp t = none ↔ w.prevp t = none ∧ t ∉ rest
  unlinked : ∀ t ∈ rest, w.prevp t = none
  distinct : rest.Nodup

omit [DecidableEq T] [DecidableEq Q] in
theorem represents_iff_walking :
  Represents m w ↔ Walking (fun _ => True) m w []
  := by
  constructor
  · intro h
    exact ⟨fun q _ => h.chain q, h.nodup, h.queued, by simpa using h.prevp, by simp, by simp⟩
  · intro h
    exact ⟨fun q => h.chain q trivial, h.nodup, h.queued, by simpa using h.prevp⟩

variable {intact : Q → Prop} {rest : List T}

omit [DecidableEq T] [DecidableEq Q] in
/-- A thread is on one queue at most. -/
theorem Walking.queue_eq (h : Walking intact m w rest) {q q' : Q} (ht : t ∈ w.queue q)
    (ht' : t ∈ w.queue q') :
  q' = q
  := by
  have h₁ := (h.queued t q).mpr ht
  have h₂ := (h.queued t q').mpr ht'
  rw [h₁] at h₂
  exact (Option.some.inj h₂).symm

/-- The queue to which a thread is added: the thread that was first points back to the new one. -/
theorem Chain.push (h : Chain m (.head q) (w.queue q)) (hnodup : (w.queue q).Nodup)
    (hnew : t ∉ w.queue q)
    (hload : ∀ c, m'.load c =
      if c = .head q then some t else if c = .next t then m.load (.head q) else m.load c)
    (hprevp : ∀ u, m'.prevp u =
      if m.load (.head q) = some u then some (.next t)
      else if u = t then some (.head q) else m.prevp u) :
  Chain m' (.head q) (t :: w.queue q)
  := by
  have hhead := h.load_eq
  have hne : ∀ u ∈ w.queue q, u ≠ t := by
    rintro u hu rfl
    exact hnew hu
  have hback : m'.prevp t = some (.head q) := by
    rw [hprevp, hhead, if_neg, if_pos rfl]
    intro hfirst
    exact hnew (List.mem_of_mem_head? hfirst)
  have hrest : Chain m' (.next t) (w.queue q) := by
    apply h.reattach hnodup
    · simp [hload]
    · intro u hu
      simpa [hne u hu, Memory.load] using hload (.next u)
    · intro u hu
      rw [hprevp, hhead, if_neg (hne u hu)]
  simpa [Chain, hload, hback] using hrest

theorem nodup_enqueue (hnodup : ∀ q, (w.queue q).Nodup) (hnew : ∀ q, t ∉ w.queue q) (q' : Q) :
  ((w.enqueue q t).queue q').Nodup
  := by
  by_cases heq : q' = q
  · subst heq
    simp [hnew q', hnodup q']
  · simpa [heq] using hnodup q'

theorem queued_enqueue (hqueued : ∀ u q, w.prevp u = some q ↔ u ∈ w.queue q)
    (hnew : ∀ q, t ∉ w.queue q) (u : T) (q' : Q) :
  (w.enqueue q t).prevp u = some q' ↔ u ∈ (w.enqueue q t).queue q'
  := by
  have := hqueued u q'
  by_cases hu : u = t
  · subst hu
    by_cases heq : q' = q
    · simp [heq]
    · simp [heq, hnew q', Ne.symm heq]
  · by_cases heq : q' = q
    · subst heq
      simpa [hu] using this
    · simpa [hu, heq] using this

/-- `__pthread_enqueue` adds its thread in front of its queue. -/
theorem Walking.enqueue (h : Walking intact m w rest) (hq : intact q) (ht : w.prevp t = none)
    (hrest : t ∉ rest) :
  ∃ m', Queue.enqueue m q t = some m' ∧ Walking intact m' (w.enqueue q t) rest ∧
    ∀ u, u ≠ t → m'.next u = m.next u
  := by
  obtain ⟨m', henqueue, hload, hprevp⟩ := enqueue_eq q ((h.prevp t).mpr ⟨ht, hrest⟩)
  have hnew : ∀ q', t ∉ w.queue q' := by
    intro q' hmem
    rw [(h.queued t q').mpr hmem] at ht
    cases ht
  have hnext : ∀ u, u ≠ t → m'.next u = m.next u := by
    intro u hu
    simpa [hu, Memory.load] using hload (.next u)
  have hhead := (h.chain q hq).load_eq
  refine ⟨m', henqueue, ⟨?_, nodup_enqueue h.nodup hnew, queued_enqueue h.queued hnew, ?_, ?_,
    h.distinct⟩, hnext⟩
  · intro q' hq'
    rw [Waits.enqueue_queue]
    by_cases heq : q' = q
    · subst heq
      rw [Function.update_self]
      exact (h.chain q' hq').push (h.nodup q') (hnew q') hload hprevp
    · -- the cells of another queue are not written
      have hne : ∀ u ∈ w.queue q', u ≠ t := by
        rintro u hu rfl
        exact hnew q' hu
      rw [Function.update_of_ne heq]
      apply (h.chain q' hq').congr
      · simp [hload, heq]
      · intro u hu
        apply hnext u (hne u hu)
      · intro u hu
        rw [hprevp, hhead, if_neg, if_neg (hne u hu)]
        intro hfirst
        exact heq (h.queue_eq (List.mem_of_mem_head? hfirst) hu)
  · intro u
    have hu := h.prevp u
    rw [hprevp, hhead]
    by_cases heq : u = t
    · subst heq
      split <;> simp
    · have hfirst : (w.queue q).head? = some u → w.prevp u ≠ none := by
        intro hmem
        simp [(h.queued u q).mpr (List.mem_of_mem_head? hmem)]
      simp only [heq, if_false, Waits.enqueue_prevp, Function.update_of_ne heq]
      split
      · rename_i hmem
        simp [hfirst hmem]
      · exact hu
  · intro u hu
    have hne : u ≠ t := by
      rintro rfl
      exact hrest hu
    simpa [hne] using h.unlinked u hu

/-- The cells of a queue that the dequeue of a thread from another queue does not write. -/
theorem Chain.other {l₁ l₂ l : List T} {q' : Q} {c : Cell T Q} (h : Chain m (.head q') l)
    (hother : ∀ u ∈ l, u ∉ l₁ ++ t :: l₂) (hhead : c ≠ .head q')
    (hcell : c = .head q ∨ ∃ u ∈ l₁, c = .next u)
    (hload : ∀ c', m'.load c' = if c' = c then m.next t else m.load c')
    (hprevp : ∀ u, m'.prevp u =
      if u = t then none else if l₂.head? = some u then some c else m.prevp u) :
  Chain m' (.head q') l
  := by
  apply h.congr
  · rw [hload, if_neg hhead.symm]
  · intro u hu
    have hne : Cell.next u ≠ c := by
      rintro rfl
      have := hother u hu
      grind
    simpa [Memory.load, hne] using hload (.next u)
  · intro u hu
    have := hother u hu
    rw [hprevp, if_neg, if_neg]
    · grind [List.mem_of_mem_head?]
    · grind

/-- `__pthread_dequeue` removes its thread, wherever it stands on its queue. -/
theorem Represents.dequeue (h : Represents m w) {l₁ l₂ : List T}
    (hq : w.queue q = l₁ ++ t :: l₂) :
  ∃ m', Queue.dequeue m t = some m' ∧ Represents m' (w.dequeue t) ∧
    (w.dequeue t).queue = Function.update w.queue q (l₁ ++ l₂)
  := by
  have hone : ∀ u q', u ∈ w.queue q → u ∈ w.queue q' → q' = q := by
    intro u q'
    apply (represents_iff_walking.mp h).queue_eq
  have hlink : w.prevp t = some q := (h.queued t q).mpr (by simp [hq])
  have hchain := h.chain q
  have hnodup := h.nodup q
  rw [hq] at hchain hnodup hone
  obtain ⟨ht₁, ht₂⟩ : t ∉ l₁ ∧ t ∉ l₂ := by
    simp only [List.nodup_append, List.nodup_cons] at hnodup
    grind
  have hqueue : (w.dequeue t).queue = Function.update w.queue q (l₁ ++ l₂) := by
    funext q'
    rw [Waits.dequeue_queue hlink, Function.update_apply, hq, List.erase_append_right _ ht₁,
      List.erase_cons_head]
  obtain ⟨c, hback, hnext, hcell, hunlink⟩ := hchain.unlink hnodup
  obtain ⟨m', hdequeue, hload, hprevp⟩ := dequeue_eq hback
  rw [hnext] at hprevp
  refine ⟨m', hdequeue, ⟨?_, ?_, ?_, ?_⟩, hqueue⟩
  · intro q'
    rw [hqueue]
    by_cases heq : q' = q
    · subst heq
      rw [Function.update_self]
      apply hunlink m' hload
      intro u hu
      rw [hprevp, if_neg hu]
    · rw [Function.update_of_ne heq]
      apply (h.chain q').other _ _ hcell hload hprevp
      · intro u hu hmem
        exact heq (hone u q' hmem hu)
      · rintro rfl
        grind
  · intro q'
    rw [hqueue]
    by_cases heq : q' = q
    · subst heq
      rw [Function.update_self]
      grind
    · rw [Function.update_of_ne heq]
      apply h.nodup q'
  · intro u q'
    have hu := h.queued u q'
    rw [hqueue, Waits.dequeue_prevp, Function.update_apply]
    by_cases heq : q' = q
    · subst heq
      grind
    · grind
  · intro u
    have hu := h.prevp u
    have hfirst : l₂.head? = some u → w.prevp u = some q := by
      intro hmem
      rw [h.queued, hq]
      simp [List.mem_of_mem_head? hmem]
    rw [hprevp, Waits.dequeue_prevp]
    grind

/-! ### The iterations -/

/-- The threads `l` are put, one after the other, on the queues that `body` says. -/
def requeue (body : T → Option Q) (w : Waits T Q) : List T → Waits T Q
  | [] => w
  | t :: l =>
    match body t with
    | none => requeue body w l
    | some q => requeue body (w.enqueue q t) l

variable {body : T → Option Q} {start : Option T}

theorem requeue_queue (l : List T) (q : Q) :
  (requeue body w l).queue q = (l.filter (body · = some q)).reverse ++ w.queue q
  := by
  induction l generalizing w with
  | nil => rfl
  | cons t l ih =>
      cases hbody : body t with
      | none => simp [requeue, hbody, ih]
      | some q' =>
          by_cases hq : q' = q
          · subst hq
            simp [requeue, hbody, ih]
          · simp [requeue, hbody, ih, hq, Ne.symm hq]

omit [DecidableEq T] [DecidableEq Q] in
/-- `__pthread_queue_iterate` visits the threads of a queue in order. -/
theorem queueIterate_eq {fuel : Nat} {l : List T} (h : Trail m start l)
    (hfuel : l.length < fuel) :
  queueIterate m fuel start = some l
  := by
  induction l generalizing start fuel with
  | nil =>
      obtain rfl : start = none := h
      obtain ⟨fuel, rfl⟩ := Nat.exists_eq_add_one_of_ne_zero (Nat.ne_of_gt hfuel)
      rfl
  | cons t l ih =>
      obtain ⟨rfl, hrest⟩ := h
      obtain ⟨fuel, rfl⟩ := Nat.exists_eq_add_one_of_ne_zero (Nat.ne_zero_of_lt hfuel)
      rw [List.length_cons, Nat.add_lt_add_iff_right] at hfuel
      rw [queueIterate, ih hrest hfuel]
      rfl

/-- More rounds than an iteration needs change nothing. -/
theorem dequeuingIterate_mono {fuel fuel' : Nat} {r : Memory T Q × List T} (hle : fuel ≤ fuel')
    (h : dequeuingIterate body fuel m start = some r) :
  dequeuingIterate body fuel' m start = some r
  := by
  induction fuel generalizing fuel' m start r with
  | zero => cases h
  | succ fuel ih =>
      obtain ⟨fuel', rfl⟩ := Nat.exists_eq_add_one_of_ne_zero (Nat.ne_zero_of_lt hle)
      cases start with
      | none => exact h
      | some t =>
          simp only [dequeuingIterate] at h ⊢
          split at h
          · cases h
          · obtain ⟨r', hr', rfl⟩ := Option.map_eq_some_iff.mp h
            rw [ih (Nat.le_of_succ_le_succ hle) hr']
            rfl

omit [DecidableEq Q] in
/-- The visit of a thread takes it out of those still to be visited. -/
theorem Walking.visit (h : Walking intact m w (t :: rest)) :
  Walking intact (m.setPrevp t none) w rest
  := by
  have ht := h.unlinked t List.mem_cons_self
  obtain ⟨hnot, hdistinct⟩ := List.nodup_cons.mp h.distinct
  refine ⟨?_, h.nodup, h.queued, ?_, ?_, hdistinct⟩
  · intro q hq
    apply (h.chain q hq).congr
    · simp
    · intro u _
      rfl
    · intro u hu
      have hne : u ≠ t := by
        rintro rfl
        rw [(h.queued u q).mpr hu] at ht
        cases ht
      simp [hne]
  · intro u
    have hu := h.prevp u
    by_cases heq : u = t
    · subst heq
      simp [ht, hnot]
    · simpa [heq] using hu
  · intro u hu
    apply h.unlinked u (List.mem_cons_of_mem _ hu)

/-- `__pthread_dequeuing_iterate` ends; it visits the threads of the list it is started on, each
once and in order, and clears their `prevp`. -/
theorem Walking.iterate (h : Walking intact m w rest) (htrail : Trail m start rest)
    (body : T → Option Q) (hbody : ∀ t q, body t = some q → intact q) :
  ∃ m', Walking intact m' (requeue body w rest) [] ∧
    ∀ fuel, rest.length < fuel → dequeuingIterate body fuel m start = some (m', rest)
  := by
  induction rest generalizing m w start with
  | nil =>
      obtain rfl : start = none := htrail
      refine ⟨m, h, ?_⟩
      intro fuel hfuel
      obtain ⟨fuel, rfl⟩ := Nat.exists_eq_add_one_of_ne_zero (Nat.ne_of_gt hfuel)
      rfl
  | cons t rest ih =>
      obtain ⟨rfl, hrest⟩ := htrail
      have hvisit := h.visit
      have hnot := (List.nodup_cons.mp h.distinct).1
      have hrest : Trail (m.setPrevp t none) (m.next t) rest := hrest.congr fun _ _ => rfl
      -- the body of the loop
      obtain ⟨m₁, w₁, hbody₁, hrequeue, hwalk₁, hrest₁⟩ :
          ∃ m₁ w₁, loopBody body (m.setPrevp t none) t = some m₁ ∧
            requeue body w (t :: rest) = requeue body w₁ rest ∧ Walking intact m₁ w₁ rest ∧
            Trail m₁ (m.next t) rest := by
        cases hq : body t with
        | none => exact ⟨_, w, by rw [loopBody, hq], by rw [requeue, hq], hvisit, hrest⟩
        | some q =>
            obtain ⟨m₁, henqueue, hwalk, hnext⟩ :=
              hvisit.enqueue (hbody t q hq) (h.unlinked t List.mem_cons_self) hnot
            refine ⟨m₁, _, by simp [loopBody, hq, henqueue], by rw [requeue, hq], hwalk, ?_⟩
            apply hrest.congr
            intro u hu
            apply hnext
            rintro rfl
            exact hnot hu
      obtain ⟨m', hwalk', hiterate⟩ := ih hwalk₁ hrest₁
      rw [hrequeue]
      refine ⟨m', hwalk', ?_⟩
      intro fuel hfuel
      obtain ⟨fuel, rfl⟩ := Nat.exists_eq_add_one_of_ne_zero (Nat.ne_zero_of_lt hfuel)
      simp only [dequeuingIterate, hbody₁]
      rw [hiterate fuel (Nat.lt_of_succ_lt_succ hfuel)]
      rfl

/-! ### Sequences of uses -/

/-- What a use of a queue does to the queues, with the threads that are visited. -/
def Op.apply (w : Waits T Q) : Op T Q → Waits T Q × List T
  | .enqueue head thread => (w.enqueue head thread, [])
  | .dequeue thread => (w.dequeue thread, [])
  | .release queue body => (requeue body (w.dequeueAll queue) (w.queue queue), w.queue queue)
  | .detach queue body => (requeue body (w.dequeueAll queue) (w.queue queue), w.queue queue)

/-- The queues after the uses `ops`, the latest first. -/
def contents (ops : List (Op T Q)) : Waits T Q :=
  ops.foldr (fun op w => (op.apply w).1) Waits.empty

/-- When the head of a queue is about to be reset, its threads are still linked in memory. -/
theorem Represents.detach (h : Represents m w) (q : Q) :
  Walking (· ≠ q) m (w.dequeueAll q) (w.queue q) ∧ Trail m (m.load (.head q)) (w.queue q)
  := by
  have hone : ∀ u q', u ∈ w.queue q → u ∈ w.queue q' → q' = q := by
    intro u q'
    apply (represents_iff_walking.mp h).queue_eq
  refine ⟨⟨?_, ?_, ?_, ?_, ?_, h.nodup q⟩, (h.chain q).trail⟩
  · intro q' hq'
    rw [Waits.dequeueAll_queue, Function.update_of_ne hq']
    apply h.chain q'
  · intro q'
    rw [Waits.dequeueAll_queue, Function.update_apply]
    split
    · exact List.nodup_nil
    · apply h.nodup q'
  · intro t q'
    have := h.queued t q'
    rw [Waits.dequeueAll_queue, Waits.dequeueAll_prevp, Function.update_apply]
    grind
  · intro t
    have := h.prevp t
    have := h.queued t q
    rw [Waits.dequeueAll_prevp]
    grind
  · intro t ht
    simp [ht]

/-- Setting the head of an empty queue to null leaves the other queues in memory. -/
theorem Walking.reset (h : Walking (· ≠ q) m w rest) (hq : w.queue q = []) :
  Walking (fun _ => True) (m.store (.head q) none) w rest
  := by
  refine ⟨?_, h.nodup, h.queued, by simpa using h.prevp, h.unlinked, h.distinct⟩
  intro q' _
  by_cases heq : q' = q
  · subst heq
    simp [hq, Chain]
  · apply (h.chain q' heq).congr
    · simp [heq]
    · intro u _
      rfl
    · intro u _
      simp

/-- The functions on memory are the operations on the queues: an allowed use does not fail, it
ends, and it visits the threads it should. -/
theorem Represents.exec (h : Represents m w) (op : Op T Q) (hop : op.Allowed m) :
  ∃ m', Represents m' (op.apply w).1 ∧
    ∀ fuel, (op.apply w).2.length < fuel → Queue.exec fuel m op = some (m', (op.apply w).2)
  := by
  cases op with
  | enqueue head thread =>
      obtain ⟨m', henqueue, hwalk, -⟩ := (represents_iff_walking.mp h).enqueue (q := head) trivial
        ((h.prevp thread).mp hop) (by simp)
      refine ⟨m', represents_iff_walking.mpr hwalk, ?_⟩
      intro fuel _
      simp [Queue.exec, henqueue, Op.apply]
  | dequeue thread =>
      obtain ⟨q, hq⟩ := Option.ne_none_iff_exists'.mp fun hp => hop ((h.prevp thread).mpr hp)
      obtain ⟨l₁, l₂, hsplit⟩ := List.append_of_mem ((h.queued thread q).mp hq)
      obtain ⟨m', hdequeue, hrep, -⟩ := h.dequeue hsplit
      refine ⟨m', hrep, ?_⟩
      intro fuel _
      simp [Queue.exec, hdequeue, Op.apply]
  | release queue body =>
      obtain ⟨hwalk, htrail⟩ := h.detach queue
      obtain ⟨m', hwalk', hiterate⟩ := hwalk.iterate htrail body (by
        rintro t q hbody rfl
        exact hop t hbody)
      have hempty : (requeue body (w.dequeueAll queue) (w.queue queue)).queue queue = [] := by
        rw [requeue_queue]
        simpa using fun t _ => hop t
      refine ⟨_, represents_iff_walking.mpr (hwalk'.reset hempty), ?_⟩
      intro fuel hfuel
      rw [Queue.exec, hiterate fuel hfuel]
      rfl
  | detach queue body =>
      obtain ⟨hwalk, htrail⟩ := h.detach queue
      have hreset := hwalk.reset (by simp)
      obtain ⟨m', hwalk', hiterate⟩ := hreset.iterate (htrail.congr fun _ _ => rfl) body
        (by simp)
      exact ⟨m', represents_iff_walking.mpr hwalk', hiterate⟩

/-- Uses of a queue do not depend on the number of rounds they are given. -/
theorem exec_mono {fuel fuel' : Nat} {op : Op T Q} {r : Memory T Q × List T}
    (hle : fuel ≤ fuel') (h : exec fuel m op = some r) :
  exec fuel' m op = some r
  := by
  cases op with
  | enqueue head thread => exact h
  | dequeue thread => exact h
  | release queue body =>
      obtain ⟨r', hr', rfl⟩ := Option.map_eq_some_iff.mp h
      rw [exec, dequeuingIterate_mono hle hr']
      rfl
  | detach queue body => exact dequeuingIterate_mono hle h

/-- After any sequence of uses memory represents the queues. -/
theorem represents_of_run {next : T → Option T} {ops : List (Op T Q)}
    (h : Run (Memory.init next) ops m) :
  Represents m (contents ops)
  := by
  induction h with
  | start => exact ⟨fun _ => rfl, fun _ => List.nodup_nil, by simp [contents, Waits.empty],
      by simp [contents, Waits.empty]⟩
  | @step m m' ops visited op fuel _ hop hexec ih =>
      obtain ⟨m₁, hrep, hall⟩ := ih.exec op hop
      have h₁ := hall (fuel + (op.apply (contents ops)).2.length + 1) (by omega)
      rw [exec_mono (by omega) hexec] at h₁
      cases h₁
      exact hrep

/-- The representation of the wait queues. After any sequence of uses, every queue is a chain
from its head to a null pointer in which the `prevp` of each thread points to the cell that
points to it, no thread is on two queues or twice on one, and `prevp` is set exactly for the
queued threads. An enqueue adds its thread at the front; a dequeue removes its thread, wherever
it stands on whichever queue; an iteration followed by the reset of the head visits each thread
once and clears its `prevp`, even if the thread is put on another queue right after its visit.
All other queues keep their threads in order. -/
theorem queues_of_run {next : T → Option T} {ops : List (Op T Q)} {m : Memory T Q}
    (h : Run (Memory.init next) ops m) :
  ∃ l : Q → List T, (∀ q, Chain m (.head q) (l q)) ∧ (∀ q, (l q).Nodup)
    ∧ (∀ t q q', t ∈ l q → t ∈ l q' → q = q') ∧ (∀ t, m.prevp t ≠ none ↔ ∃ q, t ∈ l q)
    ∧ (∀ q t, m.prevp t = none → ∃ m', enqueue m q t = some m'
      ∧ Chain m' (.head q) (t :: l q) ∧ ∀ q', q' ≠ q → Chain m' (.head q') (l q'))
    ∧ (∀ q t l₁ l₂, l q = l₁ ++ t :: l₂ → ∃ m', dequeue m t = some m' ∧ m'.prevp t = none
      ∧ Chain m' (.head q) (l₁ ++ l₂) ∧ ∀ q', q' ≠ q → Chain m' (.head q') (l q'))
    ∧ ∀ q body, (∀ t, body t ≠ some q) → ∃ m',
      (∀ fuel, (l q).length < fuel → exec fuel m (.release q body) = some (m', l q))
      ∧ (∀ t ∈ l q, body t = none → m'.prevp t = none) ∧ Chain m' (.head q) []
      ∧ ∀ q', q' ≠ q → Chain m' (.head q') (((l q).filter (body · = some q')).reverse ++ l q')
  := by
  have hrep := represents_of_run h
  have hone : ∀ t q q', t ∈ (contents ops).queue q → t ∈ (contents ops).queue q' → q = q' := by
    intro t q q' hq hq'
    apply (represents_iff_walking.mp hrep).queue_eq hq' hq
  refine ⟨(contents ops).queue, hrep.chain, hrep.nodup, hone, ?_, ?_, ?_, ?_⟩
  · intro t
    rw [ne_eq, hrep.prevp, ← ne_eq, Option.ne_none_iff_exists']
    simp only [hrep.queued]
  · intro q t ht
    obtain ⟨m', hrep', hexec⟩ := hrep.exec (.enqueue q t) ht
    have hexec := hexec 1 (by simp [Op.apply])
    obtain ⟨m₁, henqueue, hpair⟩ := Option.map_eq_some_iff.mp hexec
    obtain rfl : m₁ = m' := congrArg Prod.fst hpair
    refine ⟨m₁, henqueue, by simpa [Op.apply] using hrep'.chain q, ?_⟩
    intro q' hq'
    simpa [Op.apply, hq'] using hrep'.chain q'
  · intro q t l₁ l₂ hsplit
    obtain ⟨m', hdequeue, hrep', hqueue⟩ := hrep.dequeue hsplit
    have hchain := hrep'.chain
    rw [hqueue] at hchain
    refine ⟨m', hdequeue, by simp [hrep'.prevp], by simpa using hchain q, ?_⟩
    intro q' hq'
    simpa [hq'] using hchain q'
  · intro q body hbody
    obtain ⟨m', hrep', hexec⟩ := hrep.exec (.release q body) hbody
    have hchain := hrep'.chain
    simp only [Op.apply, requeue_queue] at hchain
    refine ⟨m', hexec, ?_, ?_, ?_⟩
    · intro t ht hnone
      rw [hrep'.prevp, Option.eq_none_iff_forall_not_mem]
      intro q' hq'
      have hmem := (hrep'.queued t q').mp hq'
      simp only [Op.apply, requeue_queue, List.mem_append, List.mem_reverse, List.mem_filter,
        hnone, reduceCtorEq, decide_false, Bool.false_eq_true, and_false, false_or] at hmem
      rw [Waits.dequeueAll_queue, Function.update_apply] at hmem
      split at hmem
      · cases hmem
      · rename_i hne
        exact hne (hone t q' q hmem ht)
    · simpa [hbody] using hchain q
    · intro q' hq'
      simpa [hq'] using hchain q'

/-- Threads `0` and `1` wait on one queue and thread `2` on another; thread `1` is dequeued. -/
theorem queues_of_run_dequeue :
  ∃ m : Memory Nat Bool,
    Run (Memory.init fun _ => none)
      [.dequeue 1, .enqueue true 2, .enqueue false 1, .enqueue false 0] m
    ∧ ∃ l : Bool → List Nat, (∀ q, Chain m (.head q) (l q)) ∧ (∃ q, 0 ∈ l q) ∧ ¬ ∃ q, 1 ∈ l q
  := by
  have hstart : Run (T := Nat) (Q := Bool) (Memory.init fun _ => none) [] _ := .start
  have hrun := hstart.step (.enqueue false 0) 1 rfl rfl
  have hrun := hrun.step (.enqueue false 1) 1 rfl rfl
  have hrun := hrun.step (.enqueue true 2) 1 rfl rfl
  have hrun := hrun.step (.dequeue 1) 1 (Option.some_ne_none (Cell.head false)) rfl
  obtain ⟨l, hchain, -, -, hprevp, -⟩ := queues_of_run hrun
  refine ⟨_, hrun, l, hchain, ?_, ?_⟩
  · rw [← hprevp]
    exact Option.some_ne_none (Cell.head false)
  · rw [← hprevp, not_not]
    rfl

end LibPthread.Queue
