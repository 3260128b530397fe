import Mathlib.Data.List.Count
import Mathlib.Logic.Relation
import LibPthread.Key.Functions

/-!
# The allocator of keys

The table counts its invalid elements, and the search hint is at most the number of elements. A
search that starts again at the beginning finds one of the more than four invalid elements, so
`pthread_key_create` jumps at most once.
-/

namespace LibPthread.Key

variable {D : Type}

/-- A table between the calls. -/
structure Consistent (T : KeyTable D) : Prop where
  index_le : T.index ≤ T.count
  count_le : T.count ≤ T.size
  length : T.destructors.length = T.size
  written : ∀ i, i < T.count → T.destructors[i]? ≠ some .unwritten
  invalid : T.invalidCount = (T.destructors.take T.count).countP Entry.isInvalid

/-- The table `T'` is `T` with the given destructor for the key, or without the key. -/
def Changes (T T' : KeyTable D) (key : Int) (d : Option (Option D)) : Prop :=
  T'.destructor key = d ∧ ∀ key', key' ≠ key → T'.destructor key' = T.destructor key'

/-- What `pthread_key_create` does: it returns after at most one jump to `do_search`, with a key
that was not live and that has the destructor now, or with `ENOMEM`, and all keys as before. -/
def CreatesKey (T : KeyTable D) (d : Option D) (realloc : Bool) : Prop :=
  ∃ T' r, T.keyCreate d realloc 1 = some (T', r) ∧
    match r with
    | .ok key => ¬ T.Live key ∧ Changes T T' key (some d)
    | .error e => e = .ENOMEM ∧ ∀ key, T'.destructor key = T.destructor key

/-- What `pthread_key_delete` does: it succeeds exactly on live keys, which are live no more. -/
def DeletesKey (T : KeyTable D) (key : Int) : Prop :=
  ((T.keyDelete key).2 = none ↔ T.Live key) ∧
    ((T.keyDelete key).2 ≠ none → (T.keyDelete key).2 = some .EINVAL ∧ (T.keyDelete key).1 = T) ∧
    (T.Live key → Changes T (T.keyDelete key).1 key none)

/-- The calls. -/
inductive Call (D : Type) where
  | create (d : Option D) (realloc : Bool)
  | delete (key : Int)

/-- The table after a call, however many jumps it takes. -/
def Step (T : KeyTable D) : Call D → KeyTable D → Prop
  | .create d realloc, T' => ∃ jumps r, T.keyCreate d realloc jumps = some (T', r)
  | .delete key, T' => T' = (T.keyDelete key).1

/-- A table after any sequence of calls. -/
def Reachable (T : KeyTable D) : Prop :=
  Relation.ReflTransGen (fun T T' => ∃ call, Step T call T') .init T

/-! ### The search -/

section Search

variable {l : List (Entry D)} {n i j : Nat}

/-- The search stops at an invalid element or at the end. -/
theorem search_eq_some (h : KeyTable.search l n i = some j) :
  i ≤ j ∧ (j = i + n ∨ (j < i + n ∧ l[j]? = some .invalid)) ∧
    ∀ m, i ≤ m → m < j → l[m]? ≠ some .invalid
  := by
  induction n generalizing i with
  | zero =>
      obtain rfl := Option.some.inj h
      refine ⟨le_refl _, .inl rfl, ?_⟩
      intro m hlo hhi
      omega
  | succ n ih =>
      rw [KeyTable.search] at h
      split at h
      · cases h
      · rename_i hi
        obtain rfl := Option.some.inj h
        refine ⟨le_refl _, .inr ⟨by omega, hi⟩, ?_⟩
        intro m hlo hhi
        omega
      · rename_i e hne hi
        obtain ⟨hle, hend, hskip⟩ := ih h
        refine ⟨by omega, ?_, ?_⟩
        · rcases hend with hend | hend
          · exact .inl (by omega)
          · exact .inr ⟨by omega, hend.2⟩
        · intro m hlo hhi
          rcases Nat.eq_or_lt_of_le hlo with rfl | hlt
          · rw [hi, ne_eq, Option.some_inj]
            apply hne
          · exact hskip m hlt hhi

/-- The search reads only elements of the array. -/
theorem exists_search (h : i + n ≤ l.length) :
  ∃ j, KeyTable.search l n i = some j
  := by
  induction n generalizing i with
  | zero => exact ⟨i, rfl⟩
  | succ n ih =>
      have hi : l[i]? = some l[i] := List.getElem?_eq_getElem (by omega)
      rw [KeyTable.search, hi]
      cases l[i] with
      | invalid => exact ⟨i, rfl⟩
      | unwritten => exact ih (by omega)
      | live d => exact ih (by omega)

end Search

section Create

variable {T T' : KeyTable D} {d : Option D} {realloc : Bool}

/-- The table with a new key in the place of an invalid element. -/
def KeyTable.reuse (T : KeyTable D) (d : Option D) (i : Nat) : KeyTable D :=
  { T with
    destructors := T.destructors.set i (.live d)
    invalidCount := T.invalidCount - 1
    index := i + 1 }

/-- The table with a new key at the end. -/
def KeyTable.push (T : KeyTable D) (d : Option D) : KeyTable D :=
  { T with
    destructors := T.destructors.set T.count (.live d)
    count := T.count + 1
    index := T.count + 1 }

theorem resize_length (h : T.destructors.length = T.size) :
  T.resize.destructors.length = T.resize.size ∧ T.size < T.resize.size
  := by
  simp only [KeyTable.resize, List.length_append, List.length_replicate, h]
  split
  · omega
  · omega

/-- An invalid element is counted. -/
theorem Consistent.invalid_pos (h : Consistent T) {i : Nat} (hi : i < T.count)
    (hinvalid : T.destructors[i]? = some .invalid) :
  0 < T.invalidCount
  := by
  rw [h.invalid, List.countP_pos_iff]
  refine ⟨.invalid, ?_, rfl⟩
  rw [List.mem_iff_getElem?]
  use i
  rw [List.getElem?_take_of_lt hi, hinvalid]

/-- What an attempt does. -/
theorem Consistent.doSearch_cases (h : Consistent T) (d : Option D) (realloc : Bool) :
  (∃ i, T.index ≤ i ∧ i < T.count ∧ T.destructors[i]? = some .invalid ∧
      T.doSearch d realloc = .ret (T.reuse d i) (.ok i)) ∨
    (∀ i, T.index ≤ i → i < T.count → T.destructors[i]? ≠ some .invalid) ∧
      ((T.size = T.count ∧ 4 < T.invalidCount ∧
          T.doSearch d realloc = .again { T with index := 0 }) ∨
        (T.size = T.count ∧ T.doSearch d realloc =
          .ret { T with index := T.count } (.error .ENOMEM)) ∨
        (T.size = T.count ∧ T.doSearch d realloc = .ret (T.resize.push d) (.ok T.count)) ∨
        (T.size ≠ T.count ∧ T.doSearch d realloc = .ret (T.push d) (.ok T.count)))
  := by
  have hindex := h.index_le
  have hcount := h.count_le
  have hlength := h.length
  obtain ⟨i, hi⟩ := exists_search (l := T.destructors) (i := T.index)
    (n := T.count - T.index) (by omega)
  obtain ⟨hle, hend, hskip⟩ := search_eq_some hi
  have hend' : T.index + (T.count - T.index) = T.count := by omega
  rw [hend'] at hend
  rw [KeyTable.doSearch, hi]
  rcases hend with rfl | ⟨hlt, hinvalid⟩
  · right
    use hskip
    simp only [lt_irrefl, if_false, if_true]
    rw [KeyTable.append]
    by_cases hfull : T.size = T.count
    · simp only [if_pos hfull]
      by_cases hworth : T.invalidCount > 4 ∧ T.invalidCount > T.size / 8
      · left
        exact ⟨hfull, hworth.1, if_pos hworth⟩
      · right
        rw [if_neg hworth]
        cases realloc with
        | false =>
            left
            exact ⟨hfull, rfl⟩
        | true =>
            right; left
            refine ⟨hfull, ?_⟩
            obtain ⟨hlen, hlt⟩ := resize_length hlength
            have hroom : T.count < T.resize.destructors.length := by omega
            exact if_pos hroom
    · right; right; right
      refine ⟨hfull, ?_⟩
      simp only [if_neg hfull]
      have hroom : T.count < T.destructors.length := by omega
      exact if_pos hroom
  · left
    refine ⟨i, hle, hlt, hinvalid, ?_⟩
    have hroom : i < T.destructors.length := by omega
    simp only [if_pos hlt, if_pos (h.invalid_pos hlt hinvalid)]
    exact if_pos hroom

/-! ### The calls keep the table consistent -/

/-- The count of the elements that are counted, when one of them is changed. -/
theorem countP_take_set (l : List (Entry D)) {n i : Nat} (hi : i < n) (hlen : i < l.length)
    (e : Entry D) :
  ((l.set i e).take n).countP Entry.isInvalid + (if l[i].isInvalid then 1 else 0) =
    (l.take n).countP Entry.isInvalid + if e.isInvalid then 1 else 0
  := by
  have htake : i < (l.take n).length := by
    rw [List.length_take]
    omega
  have hset := List.countP_set (p := Entry.isInvalid) (l := l.take n) (i := i) (a := e) htake
  rw [List.getElem_take] at hset
  have hcounted : (if l[i].isInvalid then 1 else 0) ≤ (l.take n).countP Entry.isInvalid := by
    split
    · rename_i hinvalid
      rw [Nat.one_le_iff_ne_zero, ← Nat.pos_iff_ne_zero, List.countP_pos_iff]
      refine ⟨l[i], ?_, hinvalid⟩
      rw [List.mem_take_iff_getElem]
      exact ⟨i, by omega, rfl⟩
    · exact Nat.zero_le _
  rw [List.take_set, hset]
  omega

theorem written_set {l : List (Entry D)} {n i : Nat} {e : Entry D} (he : e ≠ .unwritten)
    (h : ∀ j, j < n → l[j]? ≠ some .unwritten) (j : Nat) (hj : j < n ∨ j = i) :
  (l.set i e)[j]? ≠ some .unwritten
  := by
  rw [List.getElem?_set]
  split
  · split
    · simpa using he
    · simp
  · rename_i hij
    exact h j (hj.resolve_right (Ne.symm hij))

/-- Consistency does not depend on the hint. -/
theorem Consistent.hint (h : Consistent T) {i : Nat} (hi : i ≤ T.count) :
  Consistent { T with index := i }
  := ⟨hi, h.count_le, h.length, h.written, h.invalid⟩

theorem Consistent.resize (h : Consistent T) :
  Consistent T.resize
  := by
  obtain ⟨hlen, hlt⟩ := resize_length h.length
  have hcount : T.count ≤ T.destructors.length := by
    rw [h.length]
    exact h.count_le
  constructor
  · exact h.index_le
  · exact h.count_le.trans hlt.le
  · exact hlen
  · intro i hi
    have hi' : i < T.destructors.length := lt_of_lt_of_le hi hcount
    have hkept : T.resize.destructors[i]? = T.destructors[i]? :=
      List.getElem?_append_left hi'
    rw [hkept]
    exact h.written i hi
  · have htake : T.resize.destructors.take T.resize.count = T.destructors.take T.count :=
      List.take_append_of_le_length hcount
    rw [htake]
    exact h.invalid

theorem Consistent.reuse (h : Consistent T) {i : Nat} (hi : i < T.count)
    (hinvalid : T.destructors[i]? = some .invalid) :
  Consistent (T.reuse d i)
  := by
  have hlen : i < T.destructors.length := by
    rw [h.length]
    exact hi.trans_le h.count_le
  constructor
  · exact hi
  · exact h.count_le
  · rw [KeyTable.reuse, List.length_set, h.length]
  · exact fun j hj => written_set (by simp) h.written j (.inl hj)
  · have hcount := countP_take_set T.destructors hi hlen (.live d)
    rw [List.getElem?_eq_getElem hlen, Option.some_inj] at hinvalid
    rw [hinvalid, ← h.invalid] at hcount
    simp only [Entry.isInvalid, if_true, Bool.false_eq_true, if_false] at hcount
    simp only [KeyTable.reuse]
    omega

theorem Consistent.push (h : Consistent T) (hroom : T.count < T.size) :
  Consistent (T.push d)
  := by
  have hlen : T.count < T.destructors.length := by
    rw [h.length]
    exact hroom
  constructor
  · exact le_refl _
  · exact hroom
  · rw [KeyTable.push, List.length_set, h.length]
  · intro j hj
    exact written_set (by simp) h.written j (Nat.lt_succ_iff_lt_or_eq.mp hj)
  · have htake : (T.push d).destructors.take (T.push d).count =
        T.destructors.take T.count ++ [.live d] := by
      simp only [KeyTable.push]
      rw [List.take_set, List.take_add_one, List.getElem?_eq_getElem hlen]
      rw [List.set_append_right _ _ (by simp)]
      simp [List.length_take, hlen.le]
    rw [htake, List.countP_append]
    exact h.invalid

theorem Consistent.keyDelete (h : Consistent T) (key : Int) :
  Consistent (T.keyDelete key).1
  := by
  rw [KeyTable.keyDelete]
  split
  · exact h
  · rename_i d hd
    cases key with
    | negSucc n => cases hd
    | ofNat i =>
        rw [KeyTable.destructor] at hd
        split at hd
        · rename_i hi
          split at hd
          · rename_i d' hentry
            have hlen : i < T.destructors.length := by
              rw [h.length]
              exact hi.trans_le h.count_le
            constructor
            · exact h.index_le
            · exact h.count_le
            · rw [List.length_set, h.length]
            · exact fun j hj => written_set (by simp) h.written j (.inl hj)
            · have hcount := countP_take_set T.destructors hi hlen .invalid
              rw [List.getElem?_eq_getElem hlen, Option.some_inj] at hentry
              rw [hentry, ← h.invalid] at hcount
              simp only [Entry.isInvalid, if_true, Bool.false_eq_true, if_false] at hcount
              simp only [Int.ofNat_eq_natCast, Int.toNat_natCast]
              omega
          · cases hd
        · cases hd

/-! ### What the calls do to the keys -/

/-- A change of one element changes one key. -/
theorem changes_of_entry {i : Nat} {e : Option (Option D)}
    (hcount : ∀ j, j ≠ i → (j < T'.count ↔ j < T.count))
    (hentry : ∀ j, j ≠ i → j < T.count → T'.destructors[j]? = T.destructors[j]?)
    (hi : T'.destructor i = e) :
  Changes T T' i e
  := by
  refine ⟨hi, ?_⟩
  intro key hkey
  cases key with
  | negSucc n => rfl
  | ofNat j =>
      have hj : j ≠ i := by
        rintro rfl
        exact hkey rfl
      rw [KeyTable.destructor, KeyTable.destructor]
      by_cases hlt : j < T.count
      · rw [if_pos hlt, if_pos ((hcount j hj).mpr hlt), hentry j hj hlt]
      · rw [if_neg hlt, if_neg (mt (hcount j hj).mp hlt)]

theorem changes_reuse (h : Consistent T) {i : Nat} (hi : i < T.count) :
  Changes T (T.reuse d i) i (some d)
  := by
  have hlen : i < T.destructors.length := by
    rw [h.length]
    exact hi.trans_le h.count_le
  apply changes_of_entry
  · exact fun _ _ => Iff.rfl
  · intro j hj _
    exact List.getElem?_set_ne (Ne.symm hj)
  · simp [KeyTable.destructor, KeyTable.reuse, hi, hlen]

theorem changes_push (hroom : T.count < T.destructors.length) :
  Changes T (T.push d) T.count (some d)
  := by
  apply changes_of_entry
  · intro j hj
    simp only [KeyTable.push]
    omega
  · intro j hj _
    exact List.getElem?_set_ne (Ne.symm hj)
  · simp [KeyTable.destructor, KeyTable.push, hroom]

/-- A larger array holds the same keys. -/
theorem Consistent.destructor_resize (h : Consistent T) (key : Int) :
  T.resize.destructor key = T.destructor key
  := by
  cases key with
  | negSucc n => rfl
  | ofNat i =>
      have hcount : T.count ≤ T.destructors.length := by
        rw [h.length]
        exact h.count_le
      rw [KeyTable.destructor, KeyTable.destructor]
      by_cases hi : i < T.count
      · have hkept : T.resize.destructors[i]? = T.destructors[i]? :=
          List.getElem?_append_left (lt_of_lt_of_le hi hcount)
        rw [if_pos hi, if_pos (by exact hi), hkept]
      · rw [if_neg hi, if_neg (by exact hi)]

theorem destructor_hint (i : Nat) (key : Int) :
  ({ T with index := i } : KeyTable D).destructor key = T.destructor key
  := by
  cases key <;> rfl

theorem not_live_of_invalid {i : Nat} (h : T.destructors[i]? = some .invalid) :
  ¬ T.Live i
  := by
  simp [KeyTable.Live, KeyTable.destructor, h]

theorem not_live_count (T : KeyTable D) :
  ¬ T.Live T.count
  := by
  simp [KeyTable.Live, KeyTable.destructor]

/-- An attempt that returns does what `pthread_key_create` is to do. -/
def Attempt.Creates (T : KeyTable D) (d : Option D) : KeyTable.Attempt D → Prop
  | .ret T' (.ok key) => Consistent T' ∧ ¬ T.Live key ∧ Changes T T' key (some d)
  | .ret T' (.error e) =>
    Consistent T' ∧ e = .ENOMEM ∧ ∀ key, T'.destructor key = T.destructor key
  | _ => False

/-- An attempt returns, or it jumps because there are invalid elements. -/
theorem Consistent.attempt (h : Consistent T) (d : Option D) (realloc : Bool) :
  Attempt.Creates T d (T.doSearch d realloc) ∨
    (T.doSearch d realloc = .again { T with index := 0 } ∧ 4 < T.invalidCount ∧ T.index ≠ 0)
  := by
  rcases h.doSearch_cases d realloc with ⟨i, hle, hi, hinvalid, heq⟩ |
    ⟨hnone, ⟨hfull, hcount, heq⟩ | ⟨hfull, heq⟩ | ⟨hfull, heq⟩ | ⟨hroom, heq⟩⟩
  · left
    rw [heq]
    exact ⟨h.reuse hi hinvalid, not_live_of_invalid hinvalid, changes_reuse h hi⟩
  · right
    refine ⟨heq, hcount, ?_⟩
    intro hzero
    have hpos : 0 < T.invalidCount := by omega
    rw [h.invalid, List.countP_pos_iff] at hpos
    obtain ⟨e, he, hinvalid⟩ := hpos
    obtain ⟨i, hi, rfl⟩ := List.mem_take_iff_getElem.mp he
    apply hnone i (by omega) (by omega)
    rw [List.getElem?_eq_getElem (by omega)]
    cases hentry : T.destructors[i] with
    | invalid => rfl
    | unwritten => rw [hentry] at hinvalid; cases hinvalid
    | live d => rw [hentry] at hinvalid; cases hinvalid
  · left
    rw [heq]
    exact ⟨h.hint (le_refl _), rfl, destructor_hint _⟩
  · left
    rw [heq]
    obtain ⟨hlen, hlt⟩ := resize_length h.length
    have hroom : T.resize.count < T.resize.size := lt_of_le_of_lt h.count_le hlt
    refine ⟨h.resize.push hroom, not_live_count T, ?_⟩
    obtain ⟨hkey, hother⟩ := changes_push (T := T.resize) (d := d) (by rw [hlen]; exact hroom)
    refine ⟨hkey, ?_⟩
    intro key hne
    rw [hother key hne, h.destructor_resize]
  · left
    rw [heq]
    have hroom' : T.count < T.size := lt_of_le_of_ne h.count_le (Ne.symm hroom)
    refine ⟨h.push hroom', not_live_count T, changes_push ?_⟩
    rw [h.length]
    exact hroom'

/-- `pthread_key_create` returns after at most one jump. -/
theorem Consistent.creates (h : Consistent T) (d : Option D) (realloc : Bool) :
  ∃ T' r, Attempt.Creates T d (.ret T' r) ∧
    (∀ jumps, T.keyCreate d realloc (jumps + 1) = some (T', r)) ∧
    ∀ x, T.keyCreate d realloc 0 = some x → x = (T', r)
  := by
  rcases h.attempt d realloc with hret | ⟨hagain, -, -⟩
  · cases hsearch : T.doSearch d realloc with
    | ret T' r =>
        rw [hsearch] at hret
        refine ⟨T', r, hret, ?_, ?_⟩
        · intro jumps
          rw [KeyTable.keyCreate, hsearch]
          rfl
        · intro x hx
          rw [KeyTable.keyCreate, hsearch] at hx
          exact (Option.some.inj hx).symm
    | again T' =>
        rw [hsearch] at hret
        cases hret
    | fault =>
        rw [hsearch] at hret
        cases hret
  · -- the search starts again at the beginning, and finds an element
    have h' : Consistent { T with index := 0 } := h.hint (Nat.zero_le _)
    obtain hret := (h'.attempt d realloc).resolve_right fun hand => hand.2.2 rfl
    cases hsearch : ({ T with index := 0 } : KeyTable D).doSearch d realloc with
    | ret T' r =>
        rw [hsearch] at hret
        refine ⟨T', r, ?_, ?_, ?_⟩
        · cases r with
          | ok key =>
              obtain ⟨hcons, hlive, hkey, hother⟩ := hret
              rw [KeyTable.Live, destructor_hint] at hlive
              refine ⟨hcons, hlive, hkey, ?_⟩
              intro key' hne
              rw [hother key' hne, destructor_hint]
          | error e =>
              obtain ⟨hcons, he, hsame⟩ := hret
              refine ⟨hcons, he, ?_⟩
              intro key
              rw [hsame key, destructor_hint]
        · intro jumps
          rw [KeyTable.keyCreate, hagain]
          cases jumps with
          | zero =>
              simp only [KeyTable.keyCreate, hsearch]
              rfl
          | succ jumps =>
              simp only [KeyTable.keyCreate, hsearch]
              rfl
        · intro x hx
          rw [KeyTable.keyCreate, hagain] at hx
          cases hx
    | again T' =>
        rw [hsearch] at hret
        cases hret
    | fault =>
        rw [hsearch] at hret
        cases hret

/-- A live key is a natural number. -/
theorem Live.natCast {T : KeyTable D} {key : Int} (h : T.Live key) :
  ((key.toNat : Nat) : Int) = key
  := by
  cases key with
  | ofNat n => rfl
  | negSucc n => cases h

theorem destructor_of_live {T : KeyTable D} {key : Int} (h : T.Live key) :
  ∃ d, T.destructor key.toNat = some d
  := by
  rw [Live.natCast h]
  exact Option.isSome_iff_exists.mp h

theorem deletesKey (T : KeyTable D) (key : Int) :
  DeletesKey T key
  := by
  rw [DeletesKey, KeyTable.Live, KeyTable.keyDelete]
  cases hd : T.destructor key with
  | none => simp
  | some d =>
      refine ⟨by simp, by simp, fun _ => ?_⟩
      cases key with
      | negSucc n => cases hd
      | ofNat i =>
          apply changes_of_entry
          · exact fun _ _ => Iff.rfl
          · intro j hj _
            exact List.getElem?_set_ne (Ne.symm hj)
          · simp only [KeyTable.destructor, Int.ofNat_eq_natCast, Int.toNat_natCast,
              List.getElem?_set_self']
            cases T.destructors[i]? <;> simp

end Create

/-! ### The theorem -/

section Reachable

variable {T : KeyTable D}

theorem Consistent.init :
  Consistent (.init : KeyTable D)
  := by
  constructor
  · exact le_refl _
  · exact le_refl _
  · rfl
  · intro i hi
    cases hi
  · rfl

theorem Consistent.step {T' : KeyTable D} (h : Consistent T) {call : Call D}
    (hstep : Step T call T') :
  Consistent T'
  := by
  cases call with
  | delete key =>
      obtain rfl : T' = (T.keyDelete key).1 := hstep
      exact h.keyDelete key
  | create d realloc =>
      obtain ⟨jumps, r, hcreate⟩ := hstep
      obtain ⟨T₁, r₁, hcreates, hsucc, hzero⟩ := h.creates d realloc
      have heq : (T', r) = (T₁, r₁) := by
        cases jumps with
        | zero => exact hzero _ hcreate
        | succ jumps =>
            rw [hsucc jumps] at hcreate
            exact (Option.some.inj hcreate).symm
      obtain ⟨rfl, rfl⟩ := Prod.mk.inj heq
      cases r with
      | ok key => exact hcreates.1
      | error e => exact hcreates.1

theorem Reachable.consistent (h : Reachable T) :
  Consistent T
  := by
  induction h with
  | refl => exact Consistent.init
  | tail _ hlast ih =>
      obtain ⟨call, hstep⟩ := hlast
      exact ih.step hstep

/-- After any sequence of calls, the table is consistent, and the next call does what it is
to do. -/
theorem key_allocator (h : Reachable T) :
  Consistent T ∧ (∀ d realloc, CreatesKey T d realloc) ∧ ∀ key, DeletesKey T key
  := by
  refine ⟨h.consistent, ?_, deletesKey T⟩
  intro d realloc
  obtain ⟨T', r, hcreates, hsucc, -⟩ := h.consistent.creates d realloc
  refine ⟨T', r, hsucc 0, ?_⟩
  cases r with
  | ok key => exact hcreates.2
  | error e => exact hcreates.2

/-- A key was created, and it was deleted again. -/
theorem key_allocator_deleted :
  ∃ T : KeyTable Nat, Reachable T ∧ T.count = 1 ∧ T.invalidCount = 1 ∧
    Consistent T ∧ (∀ d realloc, CreatesKey T d realloc) ∧ ∀ key, DeletesKey T key
  := by
  have hreach : Reachable (((KeyTable.init : KeyTable Nat).resize.push (some 7)).keyDelete 0).1 :=
    .tail (.tail .refl ⟨.create (some 7) true, 0, .ok 0, rfl⟩) ⟨.delete 0, rfl⟩
  exact ⟨_, hreach, rfl, rfl, key_allocator hreach⟩

end Reachable

end LibPthread.Key
