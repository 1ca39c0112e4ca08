import Mathlib

/-!
# A ledger of items that are given away

A free list says of each of `n` items whether it is free, and a counter how many are not. The
ledger is exact when the items that are not free are those given away, each once.
-/
namespace Defrizer.OwnershipLedger

variable {n : ℕ}

def setAll (b : Bool) (items : List ℕ) (free : Vector Bool n) : Vector Bool n :=
  items.foldl (fun v i => v.setIfInBounds i b) free

structure Exact (given : List ℕ) (free : Vector Bool n) (count : ℤ) : Prop where
  nodup : given.Nodup
  mem : ∀ i, i ∈ given ↔ free[i]? = some false
  count : count = given.length

theorem getElem?_setAll (b : Bool) (items : List ℕ) (free : Vector Bool n) (i : ℕ) :
    (setAll b items free)[i]? = if i ∈ items ∧ i < n then some b else free[i]? := by
  induction items generalizing free with
  | nil => simp [setAll]
  | cons j items ih =>
    refine (ih (free.setIfInBounds j b)).trans ?_
    by_cases hij : j = i
    · subst hij
      by_cases hlt : j < n <;> simp [hlt]
    · simp only [Vector.getElem?_setIfInBounds_ne hij, List.mem_cons, Ne.symm hij, false_or]

theorem free_or_given {given : List ℕ} {free : Vector Bool n} {count : ℤ}
    (h : Exact given free count) {i : ℕ} (hi : i < n) : free[i]? = some true ↔ i ∉ given := by
  rw [h.mem]
  cases hb : free[i] <;> simp [hi, hb]

theorem Exact.lt {given : List ℕ} {free : Vector Bool n} {count : ℤ} (h : Exact given free count)
    {i : ℕ} (hi : i ∈ given) : i < n := by
  by_contra hlt
  have := (h.mem i).mp hi
  simp [hlt] at this

theorem exact_new : Exact [] (Vector.replicate n true) 0 where
  nodup := List.nodup_nil
  mem i := by by_cases hi : i < n <;> simp [hi]
  count := rfl

theorem Exact.perm {given given' : List ℕ} {free : Vector Bool n} {count : ℤ}
    (h : Exact given free count) (hp : given'.Perm given) : Exact given' free count where
  nodup := hp.nodup_iff.mpr h.nodup
  mem i := hp.mem_iff.trans (h.mem i)
  count := by rw [hp.length_eq]; exact h.count

theorem Exact.give {given items : List ℕ} {free : Vector Bool n} {count : ℤ}
    (h : Exact given free count) (hnodup : items.Nodup)
    (hfree : ∀ i ∈ items, free[i]? = some true) :
    Exact (given ++ items) (setAll false items free) (count + items.length) where
  nodup := by
    refine List.nodup_append.mpr ⟨h.nodup, hnodup, fun i hi j hj hij => ?_⟩
    have hgiven := (h.mem i).mp hi
    rw [hij, hfree j hj] at hgiven
    simp at hgiven
  mem i := by
    rw [List.mem_append, h.mem, getElem?_setAll]
    by_cases hi : i ∈ items
    · have hlt : i < n := by
        by_contra hlt
        have := hfree i hi
        simp [hlt] at this
      simp [hi, hlt]
    · simp [hi]
  count := by rw [List.length_append, h.count]; push_cast; rfl

theorem Exact.giveBack {given items : List ℕ} {free : Vector Bool n} {count : ℤ}
    (h : Exact (given ++ items) free count) :
    Exact given (setAll true items free) (count + -items.length) where
  nodup := (List.nodup_append.mp h.nodup).1
  mem i := by
    have hmem := h.mem i
    rw [List.mem_append] at hmem
    rw [getElem?_setAll]
    by_cases hi : i ∈ items
    · have hlt : i < n := h.lt (List.mem_append_right _ hi)
      have hnot : i ∉ given :=
        fun hg => (List.nodup_append.mp h.nodup).2.2 i hg i hi rfl
      simp [hi, hlt, hnot]
    · simpa [hi] using hmem
  count := by
    have := h.count
    rw [List.length_append] at this
    push_cast at this
    omega

theorem count_eq_filter_range (b : Bool) (l : List Bool) :
    ((List.range l.length).filter fun i => l[i]? = some b).length = l.count b := by
  induction l with
  | nil => rfl
  | cons c l ih =>
    rw [List.length_cons, List.range_succ_eq_map, List.filter_cons, List.filter_map,
      List.count_cons]
    simp only [List.getElem?_cons_zero, Option.some.injEq, Function.comp_def,
      List.getElem?_cons_succ]
    cases b <;> cases c <;> simp [ih]

/-- The counter is the number of items that are not free. -/
theorem Exact.count_false {given : List ℕ} {free : Vector Bool n} {count : ℤ}
    (h : Exact given free count) : count = free.toList.count false := by
  have hlen : free.toList.length = n := by simp
  have hget : ∀ i : ℕ, free.toList[i]? = free[i]? := fun i => by simp
  have hperm : given.Perm ((List.range n).filter fun i => free.toList[i]? = some false) := by
    apply (List.perm_ext_iff_of_nodup h.nodup (List.nodup_range.filter _)).mpr
    intro i
    rw [List.mem_filter, List.mem_range, decide_eq_true_iff, hget, ← h.mem]
    exact ⟨fun hi => ⟨h.lt hi, hi⟩, fun hi => hi.2⟩
  rw [h.count, hperm.length_eq, ← count_eq_filter_range, hlen]

end Defrizer.OwnershipLedger
