import Mathlib.Data.List.Nodup
import Mathlib.Logic.Function.Basic

/-!
# Custody of recycled objects

Objects that are recycled are, at any moment, on a list of free objects, in the hands of one
thread, or in service. A thread that has obtained an object from a memory allocator holds it
as `fresh` until the object is adopted; a thread that puts an object on the free list may
still be about to write to it, and is then `leaving` it.

`Sound` says that no object is in two places, and the lemmas below say that the moves of
one thread keep it so. `Known` are the adopted objects: the moves other than the adoption
itself do not change which objects these are.
-/

namespace Concurrency

/-- What a thread has in its hands. -/
inductive Own (P : Type) where
  | nothing
  | fresh (p : P)
  | held (p : P)
  | leaving (p : P)
  deriving DecidableEq

namespace Own

variable {P : Type}

/-- The object in the hands of the thread. -/
def object : Own P → Option P
  | .nothing => none
  | .fresh p => some p
  | .held p => some p
  | .leaving p => some p

/-- Where the object in the hands of the thread must be, given the free list and the objects
in service. -/
def Placed (free : List P) (live : P → Prop) : Own P → Prop
  | .nothing => True
  | .fresh p => p ∉ free ∧ ¬ live p
  | .held p => p ∉ free ∧ ¬ live p
  | .leaving p => p ∈ free ∧ ¬ live p

variable {o : Own P} {p : P} {free free' : List P} {live live' : P → Prop}

theorem Placed.not_live (h : o.Placed free live) (ho : o.object = some p) :
  ¬ live p
  := by
  cases o with
  | nothing => cases ho
  | fresh q =>
      cases ho
      apply h.2
  | held q =>
      cases ho
      apply h.2
  | leaving q =>
      cases ho
      apply h.2

/-- The place of an object depends only on whether it is free and in service. -/
theorem Placed.congr (h : o.Placed free live)
    (hfree : ∀ p, o.object = some p → (p ∈ free' ↔ p ∈ free))
    (hlive : ∀ p, o.object = some p → (live' p ↔ live p)) :
  o.Placed free' live'
  := by
  cases o with
  | nothing => trivial
  | fresh p => simpa [Placed, hfree p rfl, hlive p rfl] using h
  | held p => simpa [Placed, hfree p rfl, hlive p rfl] using h
  | leaving p => simpa [Placed, hfree p rfl, hlive p rfl] using h

end Own

/-- The hands of the threads, the free list, and the objects in service. -/
structure Custody (T P : Type) where
  own : T → Own P
  free : List P
  live : P → Prop

namespace Custody

variable {T P : Type}

/-- No object is in two places; an object that is being left is on the free list. -/
structure Sound (c : Custody T P) : Prop where
  nodup : c.free.Nodup
  unique : ∀ t u p, (c.own t).object = some p → (c.own u).object = some p → t = u
  placed : ∀ t, (c.own t).Placed c.free c.live
  live : ∀ p, c.live p → p ∉ c.free

/-- The adopted objects. -/
def Known (c : Custody T P) (p : P) : Prop :=
  p ∈ c.free ∨ c.live p ∨ ∃ t, c.own t = .held p

section Sound

variable {c : Custody T P} {t : T} {p : P}

theorem Sound.held (h : c.Sound) (ht : c.own t = .held p) :
  p ∉ c.free ∧ ¬ c.live p
  := by
  have := h.placed t
  rw [ht] at this
  apply this

theorem Sound.fresh (h : c.Sound) (ht : c.own t = .fresh p) :
  p ∉ c.free ∧ ¬ c.live p
  := by
  have := h.placed t
  rw [ht] at this
  apply this

theorem Sound.not_known (h : c.Sound) (ht : c.own t = .fresh p) :
  ¬ c.Known p
  := by
  rintro (hfree | hlive | ⟨u, hu⟩)
  · apply (h.fresh ht).1 hfree
  · apply (h.fresh ht).2 hlive
  · obtain rfl := h.unique t u p (by rw [ht]; rfl) (by rw [hu]; rfl)
    rw [ht] at hu
    cases hu

/-- An adopted object is either on the free list, or in service or in the hands of a
thread. -/
theorem Sound.free_iff (h : c.Sound) (hp : c.Known p) :
  p ∈ c.free ↔ ¬ (c.live p ∨ ∃ t, c.own t = .held p)
  := by
  constructor
  · rintro hfree (hlive | ⟨t, ht⟩)
    · apply h.live p hlive hfree
    · apply (h.held ht).1 hfree
  · intro hnot
    rcases hp with hfree | huse
    · apply hfree
    · apply absurd huse hnot

/-- The other threads have other objects in their hands. -/
theorem Sound.other (h : c.Sound) (ht : (c.own t).object = some p) :
  ∀ u, u ≠ t → (c.own u).object ≠ some p
  := by
  intro u hu ho
  apply hu
  apply h.unique u t p ho ht

end Sound

/-! ### The moves of one thread -/

section Moves

variable [DecidableEq T] {c : Custody T P} {t : T} {p : P}

/-- Thread `t` now has `o` in its hands: what the other threads have must stay where it is. -/
theorem Sound.update {o : Own P} {free : List P} {live : P → Prop} (h : c.Sound)
    (hnodup : free.Nodup) (ho : o.Placed free live) (hlive : ∀ p, live p → p ∉ free)
    (hother : ∀ u p, u ≠ t → (c.own u).object = some p →
      o.object ≠ some p ∧ (p ∈ free ↔ p ∈ c.free) ∧ (live p ↔ c.live p)) :
  Sound ⟨Function.update c.own t o, free, live⟩
  := by
  constructor
  · apply hnodup
  · intro u v q hu hv
    simp only at hu hv
    rcases eq_or_ne u t with rfl | hut
    · rcases eq_or_ne v u with rfl | hvu
      · rfl
      · rw [Function.update_self] at hu
        rw [Function.update_of_ne hvu] at hv
        apply absurd hu (hother v q hvu hv).1
    · rw [Function.update_of_ne hut] at hu
      rcases eq_or_ne v t with rfl | hvt
      · rw [Function.update_self] at hv
        apply absurd hv (hother u q hut hu).1
      · rw [Function.update_of_ne hvt] at hv
        apply h.unique u v q hu hv
  · intro u
    simp only
    rcases eq_or_ne u t with rfl | hut
    · rw [Function.update_self]
      apply ho
    · rw [Function.update_of_ne hut]
      apply (h.placed u).congr
      · intro q hq
        apply (hother u q hut hq).2.1
      · intro q hq
        apply (hother u q hut hq).2.2
  · apply hlive

/-- The adopted objects stay the same if the free list, the objects in service and the hands
of the acting thread hold the same ones together. -/
theorem known_update {o : Own P} {free : List P} {live : P → Prop}
    (h : ∀ q, (q ∈ free ∨ live q ∨ o = .held q) ↔
      (q ∈ c.free ∨ c.live q ∨ c.own t = .held q)) :
  Known ⟨Function.update c.own t o, free, live⟩ p ↔ c.Known p
  := by
  have hold : c.Known p ↔
      (p ∈ c.free ∨ c.live p ∨ c.own t = .held p) ∨ ∃ u, u ≠ t ∧ c.own u = .held p := by
    rw [Known]
    grind
  have hnew : Known ⟨Function.update c.own t o, free, live⟩ p ↔
      (p ∈ free ∨ live p ∨ o = .held p) ∨ ∃ u, u ≠ t ∧ c.own u = .held p := by
    simp only [Known, Function.update_apply]
    grind
  rw [hold, hnew, h p]

/-- The adoption adds one object. -/
theorem known_adopt {q : P} (ht : c.own t = .fresh p) :
  Known ⟨Function.update c.own t (.held p), c.free, c.live⟩ q ↔ q = p ∨ c.Known q
  := by
  simp only [Known, Function.update_apply]
  grind

/-- Thread `t` has obtained the object `p`, which was nowhere before. -/
theorem Sound.obtain (h : c.Sound) (hknown : ¬ c.Known p)
    (hown : ∀ u, (c.own u).object ≠ some p) :
  Sound ⟨Function.update c.own t (.fresh p), c.free, c.live⟩
  := by
  apply h.update h.nodup _ h.live
  · intro u q _ hq
    refine ⟨?_, Iff.rfl, Iff.rfl⟩
    rintro ⟨⟩
    apply hown u hq
  · constructor
    · intro hfree
      apply hknown (.inl hfree)
    · intro hlive
      apply hknown (.inr (.inl hlive))

/-- Thread `t` puts away what it has in its hands. -/
theorem Sound.drop (h : c.Sound) :
  Sound ⟨Function.update c.own t .nothing, c.free, c.live⟩
  := by
  apply h.update h.nodup _ h.live
  · intro u q _ _
    refine ⟨?_, Iff.rfl, Iff.rfl⟩
    rintro ⟨⟩
  · trivial

/-- Thread `t` adopts the object it has obtained. -/
theorem Sound.adopt (h : c.Sound) (ht : c.own t = .fresh p) :
  Sound ⟨Function.update c.own t (.held p), c.free, c.live⟩
  := by
  apply h.update h.nodup _ h.live
  · intro u q hu hq
    refine ⟨?_, Iff.rfl, Iff.rfl⟩
    rintro ⟨⟩
    apply h.other (by rw [ht]; rfl) u hu hq
  · apply h.fresh ht

/-- Thread `t` takes from the free list an object that no thread is leaving. -/
theorem Sound.take [DecidableEq P] (h : c.Sound) (hp : p ∈ c.free)
    (hleft : ∀ u, c.own u ≠ .leaving p) :
  Sound ⟨Function.update c.own t (.held p), c.free.erase p, c.live⟩
  := by
  have hown : ∀ u, (c.own u).object ≠ some p := by
    intro u ho
    have hplaced := h.placed u
    cases hu : c.own u with
    | nothing => simp [hu, Own.object] at ho
    | fresh q =>
        obtain rfl : q = p := by simpa [hu, Own.object] using ho
        apply (h.fresh hu).1 hp
    | held q =>
        obtain rfl : q = p := by simpa [hu, Own.object] using ho
        apply (h.held hu).1 hp
    | leaving q =>
        obtain rfl : q = p := by simpa [hu, Own.object] using ho
        apply hleft u hu
  apply h.update (h.nodup.erase p)
  · constructor
    · apply h.nodup.not_mem_erase
    · intro hlive
      apply h.live p hlive hp
  · intro q hq hmem
    apply h.live q hq (List.mem_of_mem_erase hmem)
  · intro u q _ hq
    have hne : q ≠ p := by
      rintro rfl
      apply hown u hq
    refine ⟨?_, List.mem_erase_of_ne hne, Iff.rfl⟩
    rintro ⟨⟩
    apply hown u hq

/-- Thread `t` puts the object it holds in service. -/
theorem Sound.serve (h : c.Sound) (ht : c.own t = .held p) :
  Sound ⟨Function.update c.own t .nothing, c.free, fun q => q = p ∨ c.live q⟩
  := by
  apply h.update h.nodup
  · trivial
  · rintro q (rfl | hq)
    · apply (h.held ht).1
    · apply h.live q hq
  · intro u q hu hq
    refine ⟨?_, Iff.rfl, ?_⟩
    · rintro ⟨⟩
    · have hne : q ≠ p := by
        rintro rfl
        apply h.other (by rw [ht]; rfl) u hu hq
      simp [hne]

/-- Thread `t` takes an object out of service. -/
theorem Sound.claim (h : c.Sound) (hp : c.live p) :
  Sound ⟨Function.update c.own t (.held p), c.free, fun q => q ≠ p ∧ c.live q⟩
  := by
  have hown : ∀ u, (c.own u).object ≠ some p := by
    intro u hu
    apply (h.placed u).not_live hu hp
  apply h.update h.nodup
  · constructor
    · apply h.live p hp
    · rintro ⟨hne, -⟩
      apply hne rfl
  · rintro q ⟨-, hq⟩
    apply h.live q hq
  · intro u q _ hq
    have hne : q ≠ p := by
      rintro rfl
      apply hown u hq
    refine ⟨?_, Iff.rfl, ?_⟩
    · rintro ⟨⟩
      apply hne rfl
    · simp [hne]

/-- Thread `t` puts the object it holds on the free list. -/
theorem Sound.enqueue (h : c.Sound) (ht : c.own t = .held p) :
  Sound ⟨Function.update c.own t (.leaving p), p :: c.free, c.live⟩
  := by
  apply h.update (List.Nodup.cons (h.held ht).1 h.nodup)
  · constructor
    · apply List.mem_cons_self
    · apply (h.held ht).2
  · intro q hq hmem
    rcases List.mem_cons.mp hmem with rfl | hmem
    · apply (h.held ht).2 hq
    · apply h.live q hq hmem
  · intro u q hu hq
    have hne : q ≠ p := by
      rintro rfl
      apply h.other (by rw [ht]; rfl) u hu hq
    refine ⟨?_, ?_, Iff.rfl⟩
    · rintro ⟨⟩
      apply hne rfl
    · simp [hne]

end Moves

end Custody

end Concurrency
