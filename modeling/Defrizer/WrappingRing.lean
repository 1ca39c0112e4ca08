import Mathlib

/-!
# Rings with wrapping counters

A ring of `n` entries between a producer and a consumer, each of which counts its entries in
a 32-bit counter that wraps around. When `n` is a power of two the outstanding entries form
a bounded queue, whatever the counters are.
-/
namespace Defrizer.WrappingRing

structure Ring (α : Type) (n : ℕ) where
  producer : UInt32
  consumer : UInt32
  descs : Vector α n

/-- The sizes for which a counter modulo `2 ^ 32` determines a slot. -/
def IsRingSize (n : ℕ) : Prop := ∃ k < 32, n = 2 ^ k

variable {α : Type} {n : ℕ}

def slot (n : ℕ) (c : UInt32) : ℕ := c.toNat % n

def Ring.outstanding (r : Ring α n) : ℕ := (r.producer - r.consumer).toNat

def Ring.read (r : Ring α n) (i : ℕ) : Option α := r.descs[i]?

def Ring.write (r : Ring α n) (i : ℕ) (x : α) : Option (Ring α n) :=
  if i < n then some { r with descs := r.descs.setIfInBounds i x } else none

def Ring.push (r : Ring α n) (x : α) : Ring α n :=
  ⟨r.producer + 1, r.consumer, r.descs.setIfInBounds (slot n r.producer) x⟩

def Ring.pop (r : Ring α n) : Ring α n := { r with consumer := r.consumer + 1 }

/-- A step of the party at the producer end. -/
def Ring.give (r : Ring α n) (x : α) : Option (Ring α n) :=
  if r.outstanding < n then some (r.push x) else none

/-- A step of the party at the consumer end. -/
def Ring.take (r : Ring α n) : Option (α × Ring α n) :=
  if r.outstanding = 0 then none else (r.read (slot n r.consumer)).map fun x => (x, r.pop)

def Ring.pushAll (r : Ring α n) (xs : List α) : Ring α n := xs.foldl Ring.push r

def Ring.popAll (r : Ring α n) (m : ℕ) : Ring α n :=
  { r with consumer := r.consumer + UInt32.ofNat m }

/-- The `m` entries from the counter `c` on. -/
def entries (descs : Vector α n) (c : UInt32) : ℕ → List α
  | 0 => []
  | m + 1 => descs[slot n c]?.toList ++ entries descs (c + 1) m

def Ring.queue (r : Ring α n) : List α := entries r.descs r.consumer r.outstanding

section Counters

theorem IsRingSize.pos (hn : IsRingSize n) : 0 < n := by
  obtain ⟨k, _, rfl⟩ := hn
  exact Nat.two_pow_pos k

theorem IsRingSize.dvd (hn : IsRingSize n) : n ∣ 2 ^ 32 := by
  obtain ⟨k, hk, rfl⟩ := hn
  exact Nat.pow_dvd_pow 2 hk.le

theorem IsRingSize.lt (hn : IsRingSize n) : n < 2 ^ 32 := by
  obtain ⟨k, hk, rfl⟩ := hn
  exact Nat.pow_lt_pow_right (by omega) hk

theorem slot_lt (hn : IsRingSize n) (c : UInt32) : slot n c < n := Nat.mod_lt _ hn.pos

theorem toNat_ofInt {m : ℕ} (h : m < 2 ^ 32) : (UInt32.ofInt (m : ℤ)).toNat = m := by
  have hmod : ((m : ℤ) % 2 ^ 32).toNat = m := by omega
  rw [UInt32.ofInt, hmod, UInt32.toNat_ofNat', Nat.mod_eq_of_lt h]

theorem and_mask (hn : IsRingSize n) (c : UInt32) :
    (c &&& UInt32.ofInt ((n : ℤ) - 1)).toNat = slot n c := by
  have hpos := hn.pos
  have hlt := hn.lt
  have hmask : (UInt32.ofInt ((n : ℤ) - 1)).toNat = n - 1 := by
    rw [← Nat.cast_one, ← Nat.cast_sub hpos, toNat_ofInt (by omega)]
  obtain ⟨k, _, rfl⟩ := hn
  rw [UInt32.toNat_and, hmask, slot, Nat.and_two_pow_sub_one_eq_mod]

/-- Two counters less than the size apart share a slot only when they are equal. -/
theorem slot_inj (hn : IsRingSize n) {a b : UInt32} (hlt : (a - b).toNat < n)
    (h : slot n a = slot n b) : a = b := by
  have hsum : a.toNat = (b.toNat + (a - b).toNat) % 2 ^ 32 := by
    have := a.toNat_lt
    have := b.toNat_lt
    rw [UInt32.toNat_sub]
    omega
  have hmod : (b.toNat + (a - b).toNat) % n = b.toNat % n := by
    rw [slot, slot, hsum, Nat.mod_mod_of_dvd _ hn.dvd] at h
    exact h
  have hzero : (a - b).toNat = 0 := by
    have hself : (b.toNat + (a - b).toNat) % n = (b.toNat + 0) % n := by rw [hmod, add_zero]
    have := Nat.ModEq.add_left_cancel' b.toNat hself
    rwa [Nat.ModEq, Nat.zero_mod, Nat.mod_eq_of_lt hlt] at this
  apply UInt32.toNat_inj.mp
  have := b.toNat_lt
  rw [hsum, hzero]
  omega

theorem sub_toNat_succ_left {a b : UInt32} (h : (a - b).toNat < 2 ^ 32 - 1) :
    (a + 1 - b).toNat = (a - b).toNat + 1 := by
  have := a.toNat_lt
  have := b.toNat_lt
  rw [UInt32.toNat_sub] at h
  rw [UInt32.toNat_sub, UInt32.toNat_add, UInt32.toNat_sub, UInt32.toNat_one]
  omega

theorem sub_toNat_succ_right {a b : UInt32} (h : (a - b).toNat ≠ 0) :
    (a - (b + 1)).toNat = (a - b).toNat - 1 := by
  have := a.toNat_lt
  have := b.toNat_lt
  rw [UInt32.toNat_sub] at h
  rw [UInt32.toNat_sub, UInt32.toNat_add, UInt32.toNat_sub, UInt32.toNat_one]
  omega

end Counters

section Queue

theorem entries_length (hn : IsRingSize n) (descs : Vector α n) (c : UInt32) (m : ℕ) :
    (entries descs c m).length = m := by
  induction m generalizing c with
  | zero => rfl
  | succ m ih => simp [entries, ih, slot_lt hn]

theorem queue_length (hn : IsRingSize n) (r : Ring α n) : r.queue.length = r.outstanding :=
  entries_length hn r.descs r.consumer r.outstanding

theorem outstanding_self (c : UInt32) (descs : Vector α n) :
    (⟨c, c, descs⟩ : Ring α n).outstanding = 0 := by
  simp [Ring.outstanding]

theorem queue_eq_nil {r : Ring α n} (h : r.outstanding = 0) : r.queue = [] := by
  rw [Ring.queue, h, entries]

theorem add_ofNat_succ (c : UInt32) (m : ℕ) :
    c + UInt32.ofNat (m + 1) = c + 1 + UInt32.ofNat m := by
  rw [UInt32.ofNat_add, UInt32.add_comm (UInt32.ofNat m), ← UInt32.add_assoc]
  rfl

theorem entries_add (descs : Vector α n) (c : UInt32) (m k : ℕ) :
    entries descs c (m + k) = entries descs c m ++ entries descs (c + UInt32.ofNat m) k := by
  induction m generalizing c with
  | zero => simp [entries]
  | succ m ih =>
    rw [Nat.add_right_comm, entries, ih, entries, List.append_assoc, add_ofNat_succ]

theorem entries_take (hn : IsRingSize n) (descs : Vector α n) (c : UInt32) {m k : ℕ}
    (h : m ≤ k) : entries descs c m = (entries descs c k).take m := by
  obtain ⟨j, rfl⟩ := Nat.exists_eq_add_of_le h
  rw [entries_add, List.take_left' (entries_length hn descs c m)]

theorem entries_set (hn : IsRingSize n) (descs : Vector α n) {p c : UInt32} {m : ℕ} (x : α)
    (hm : m ≤ (p - c).toNat) (hlt : (p - c).toNat < n) :
    entries (descs.setIfInBounds (slot n p) x) c m = entries descs c m := by
  induction m generalizing c with
  | zero => rfl
  | succ m ih =>
    have hne : slot n p ≠ slot n c := by
      intro h
      rw [slot_inj hn hlt h, UInt32.sub_self] at hm
      simp at hm
    have hnext := sub_toNat_succ_right (a := p) (b := c) (by omega)
    rw [entries, entries, ih (by omega) (by omega), Vector.getElem?_setIfInBounds_ne hne]

theorem outstanding_push (hn : IsRingSize n) {r : Ring α n} (x : α) (h : r.outstanding < n) :
    (r.push x).outstanding = r.outstanding + 1 :=
  sub_toNat_succ_left (a := r.producer) (b := r.consumer)
    (by have := hn.lt; unfold Ring.outstanding at h; omega)

theorem outstanding_pop {r : Ring α n} (h : r.outstanding ≠ 0) :
    r.pop.outstanding = r.outstanding - 1 :=
  sub_toNat_succ_right h

theorem queue_push (hn : IsRingSize n) {r : Ring α n} (x : α) (h : r.outstanding < n) :
    (r.push x).queue = r.queue ++ [x] := by
  have hslot : r.consumer + UInt32.ofNat r.outstanding = r.producer := by
    rw [Ring.outstanding, UInt32.ofNat_toNat, UInt32.add_comm, UInt32.sub_add_cancel]
  have hread : (r.push x).descs[slot n r.producer]? = some x := by
    simp [Ring.push, slot_lt hn]
  rw [Ring.queue, outstanding_push hn x h, entries_add]
  change entries (r.push x).descs r.consumer _ ++ entries (r.push x).descs (r.consumer + _) 1 = _
  rw [hslot, entries, hread]
  exact congrArg (· ++ [x]) (entries_set hn r.descs x le_rfl h)

theorem give_eq_some {r r' : Ring α n} {x : α} (h : r.give x = some r') :
    r.outstanding < n ∧ r' = r.push x := by
  unfold Ring.give at h
  split_ifs at h with hlt
  exact ⟨hlt, (Option.some.inj h).symm⟩

theorem take_eq_some {r r' : Ring α n} {x : α} (h : r.take = some (x, r')) :
    r.outstanding ≠ 0 ∧ r.read (slot n r.consumer) = some x ∧ r' = r.pop := by
  unfold Ring.take at h
  split_ifs at h with h0
  obtain ⟨y, hy, heq⟩ := Option.map_eq_some_iff.mp h
  cases heq
  exact ⟨h0, hy, rfl⟩

theorem queue_take {r r' : Ring α n} {x : α} (h : r.take = some (x, r')) :
    r.queue = x :: r'.queue := by
  obtain ⟨h0, hx, rfl⟩ := take_eq_some h
  obtain ⟨m, hm⟩ := Nat.exists_eq_succ_of_ne_zero h0
  have hpop : r.pop.outstanding = m := by rw [outstanding_pop h0, hm]; rfl
  rw [Ring.queue, Ring.queue, hpop, hm, entries]
  change (r.read (slot n r.consumer)).toList ++ _ = _
  rw [hx]
  rfl

theorem take_of_read {r : Ring α n} {x : α} (h : r.outstanding ≠ 0)
    (hx : r.read (slot n r.consumer) = some x) : r.take = some (x, r.pop) := by
  rw [Ring.take, if_neg h, hx, Option.map_some]

lemma exists_take (hn : IsRingSize n) {r : Ring α n} (h : r.outstanding ≠ 0) :
    ∃ x, r.take = some (x, r.pop) := by
  have hlt := slot_lt hn r.consumer
  exact ⟨r.descs[slot n r.consumer], take_of_read h (by simp [Ring.read, hlt])⟩

theorem give_of_lt {r : Ring α n} (h : r.outstanding < n) (x : α) :
    r.give x = some (r.push x) := if_pos h

theorem queue_pushAll (hn : IsRingSize n) {r : Ring α n} (xs : List α)
    (h : r.outstanding + xs.length ≤ n) :
    (r.pushAll xs).queue = r.queue ++ xs ∧
      (r.pushAll xs).outstanding = r.outstanding + xs.length := by
  induction xs generalizing r with
  | nil => simp [Ring.pushAll]
  | cons x xs ih =>
    rw [List.length_cons] at h
    have hx := outstanding_push hn (r := r) x (by omega)
    obtain ⟨hq, ho⟩ := ih (r := r.push x) (by omega)
    rw [queue_push hn x (by omega), List.append_assoc] at hq
    exact ⟨hq, by rw [List.length_cons]; exact ho.trans (by omega)⟩

theorem entries_popAll {r : Ring α n} {m : ℕ} (h : m ≤ r.outstanding) :
    r.queue = entries r.descs r.consumer m ++ (r.popAll m).queue ∧
      (r.popAll m).outstanding = r.outstanding - m := by
  induction m generalizing r with
  | zero => simp [Ring.popAll, entries]
  | succ m ih =>
    have hpop : r.pop.outstanding = r.outstanding - 1 := outstanding_pop (by omega)
    have hall : r.popAll (m + 1) = r.pop.popAll m := by
      rw [Ring.popAll, Ring.popAll, Ring.pop, add_ofNat_succ]
    obtain ⟨k, hk⟩ : ∃ k, r.outstanding = k + 1 := ⟨r.outstanding - 1, by omega⟩
    have hk' : r.pop.outstanding = k := by omega
    obtain ⟨hq, ho⟩ := ih (r := r.pop) (by omega)
    rw [hall, ho, hpop]
    refine ⟨?_, by omega⟩
    rw [Ring.queue, hk, entries, entries, List.append_assoc]
    refine congrArg (r.descs[slot n r.consumer]?.toList ++ ·) ?_
    rw [Ring.queue, hk'] at hq
    exact hq

theorem queue_popAll (hn : IsRingSize n) {r : Ring α n} {m : ℕ} (h : m ≤ r.outstanding) :
    (r.popAll m).queue = r.queue.drop m ∧ (r.popAll m).outstanding = r.outstanding - m := by
  obtain ⟨hq, ho⟩ := entries_popAll h
  refine ⟨?_, ho⟩
  rw [hq, List.drop_left' (entries_length hn r.descs r.consumer m)]

theorem popAll_zero (r : Ring α n) : r.popAll 0 = r := by
  simp [Ring.popAll]

end Queue

end Defrizer.WrappingRing
