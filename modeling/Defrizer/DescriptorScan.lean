import Defrizer.SocketBatches

/-!
# The descriptors of GetDescs

`GetDescs` returns descriptors of the first free frames of one part of the UMEM: the first
`FillRingNumDescs` frames for receiving and the others for sending.
-/
namespace Defrizer.XdpSocket

variable {o : SocketOptions}

lemma frameDesc_addr (ho : Accepted o) {i : ℕ} (hi : i < o.NumFrames.toNat) :
    (frameDesc o i).Addr.toNat = i * o.FrameSize.toNat := by
  have hsize := ho.frameSize
  have humem := ho.umem
  have hmul := umem_eq ho
  have hlt : i * o.FrameSize.toNat < 2 ^ 63 := by
    have hle : i * o.FrameSize.toNat ≤ o.NumFrames.toNat * o.FrameSize.toNat :=
      Nat.mul_le_mul_right _ hi.le
    omega
  have hi64 : i % 2 ^ 64 = i := by
    have hle : i ≤ i * o.FrameSize.toNat := Nat.le_mul_of_pos_right i (by omega)
    omega
  rw [frameDesc, UInt64.toNat_mul, UInt64.toNat_ofNat', frameSize_toNat ho, hi64,
    Nat.mod_eq_of_lt (by omega)]

theorem frameIndex_frameDesc (ho : Accepted o) {i : ℕ} (hi : i < o.NumFrames.toNat) :
    frameIndex o (frameDesc o i).Addr = i := by
  have hsize := ho.frameSize
  rw [frameIndex_eq ho, frameDesc_addr ho hi, Nat.mul_div_cancel _ (by omega)]

def freeAmong {m : ℕ} (freeList : Vector Bool m) (is : List ℕ) : List ℕ :=
  is.filter fun i => freeList[i]? = some true

theorem scanFree_eq {m : ℕ} (freeList : Vector Bool m) (n : ℤ) (is : List ℕ) (j : ℤ)
    (his : ∀ i ∈ is, i < m) : scanFree o freeList n is j =
      some (((freeAmong freeList is).take (n - j).toNat).map (frameDesc o)) := by
  induction is generalizing j with
  | nil => simp [scanFree, freeAmong]
  | cons i is ih =>
    have hi := his i List.mem_cons_self
    have ih' := fun j => ih j fun i hi => his i (List.mem_cons_of_mem _ hi)
    by_cases hj : j < n
    · obtain ⟨k, hk⟩ : ∃ k : ℕ, (n - j).toNat = k + 1 := ⟨(n - j).toNat - 1, by omega⟩
      have hk' : (n - (j + 1)).toNat = k := by omega
      rw [scanFree, if_pos hj, ih', ih', hk, hk']
      cases hfree : freeList[i] <;> simp [freeAmong, hi, hfree]
    · have hz : (n - j).toNat = 0 := by omega
      rw [scanFree, if_neg hj, hz]
      rfl

/-- Whatever the range of a scan is, it returns descriptors of free frames in it. -/
lemma scanFree_mem {m : ℕ} {freeList : Vector Bool m} {n : ℤ} {is : List ℕ} {j : ℤ}
    {descs : List Desc} (h : scanFree o freeList n is j = some descs) :
    ∀ d ∈ descs, ∃ i ∈ is, freeList[i]? = some true ∧ d = frameDesc o i := by
  induction is generalizing j descs with
  | nil => cases h; simp
  | cons i is ih =>
    intro d hd
    by_cases hj : j < n
    · rw [scanFree, if_pos hj] at h
      obtain ⟨free, hfree, hrest⟩ := Option.bind_eq_some_iff.mp h
      cases free with
      | true =>
        obtain ⟨ds, hds, heq⟩ := Option.bind_eq_some_iff.mp hrest
        cases heq
        rcases List.mem_cons.mp hd with rfl | hd
        · exact ⟨i, List.mem_cons_self, hfree, rfl⟩
        · obtain ⟨i', hi', hfree', hd'⟩ := ih hds d hd
          exact ⟨i', List.mem_cons_of_mem _ hi', hfree', hd'⟩
      | false =>
        obtain ⟨i', hi', hfree', hd'⟩ := ih hrest d hd
        exact ⟨i', List.mem_cons_of_mem _ hi', hfree', hd'⟩
    · rw [scanFree, if_neg hj] at h
      cases h
      simp at hd

lemma scanFree_lt {m : ℕ} {freeList : Vector Bool m} {n : ℤ} {is : List ℕ} {j : ℤ}
    {descs : List Desc} (h : scanFree o freeList n is j = some descs)
    (hall : j + is.length ≤ n) : ∀ i ∈ is, i < m := by
  induction is generalizing j descs with
  | nil => simp
  | cons i is ih =>
    rw [List.length_cons, Nat.cast_succ] at hall
    rw [scanFree, if_pos (by omega)] at h
    obtain ⟨free, hfree, hrest⟩ := Option.bind_eq_some_iff.mp h
    have hi : i < m := by
      by_contra hi
      simp [hi] at hfree
    refine List.forall_mem_cons.mpr ⟨hi, ?_⟩
    cases free with
    | true =>
      obtain ⟨ds, hds, _⟩ := Option.bind_eq_some_iff.mp hrest
      exact ih hds (by omega)
    | false => exact ih hrest (by omega)

theorem frames_map_frameDesc (ho : Accepted o) {is : List ℕ}
    (his : ∀ i ∈ is, i < o.NumFrames.toNat) : frames o (is.map (frameDesc o)) = is := by
  rw [frames, List.map_map]
  conv_rhs => rw [← List.map_id is]
  exact List.map_congr_left fun i hi => frameIndex_frameDesc ho (his i hi)

/-- The frames `GetDescs` may return. -/
def scanned (o : SocketOptions) (rx : Bool) : List ℕ :=
  if rx then List.range' 0 o.FillRingNumDescs.toNat
  else List.range' o.FillRingNumDescs.toNat (o.NumFrames.toNat - o.FillRingNumDescs.toNat)

def Socket.freeList (s : Socket o) (rx : Bool) : Vector Bool o.NumFrames.toNat :=
  if rx then s.freeRXDescs else s.freeTXDescs

def descsLimit (o : SocketOptions) (n : ℤ) (rx : Bool) : ℕ :=
  if rx then (min n o.FillRingNumDescs).toNat
  else (min (min n o.FillRingNumDescs) o.CompletionRingNumDescs).toNat

lemma getDescs_mem {n : ℤ} {rx : Bool} {s : Socket o} {descs : List Desc}
    (h : getDescs o n rx s = some descs) :
    ∀ d ∈ descs, ∃ i ∈ scanned o rx, (s.freeList rx)[i]? = some true ∧ d = frameDesc o i := by
  cases rx <;> exact scanFree_mem h

theorem scanned_lt (hfit : o.FillRingNumDescs ≤ o.NumFrames) (rx : Bool) :
    ∀ i ∈ scanned o rx, i < o.NumFrames.toNat := by
  intro i hi
  cases rx
  · simp only [scanned, Bool.false_eq_true, if_false, List.mem_range'_1] at hi
    omega
  · simp only [scanned, if_true, List.mem_range'_1] at hi
    omega

theorem scanned_nodup (rx : Bool) : (scanned o rx).Nodup := by
  cases rx <;> exact List.nodup_range'

/-- `GetDescs` returns descriptors of the first free frames of its part of the UMEM. -/
theorem getDescs_eq (hfit : o.FillRingNumDescs ≤ o.NumFrames) (n : ℤ) (rx : Bool)
    (s : Socket o) : getDescs o n rx s =
      some (((freeAmong (s.freeList rx) (scanned o rx)).take (descsLimit o n rx)).map
        (frameDesc o)) := by
  have hlt := scanned_lt hfit rx
  have hmin : (if n > o.FillRingNumDescs then o.FillRingNumDescs else n) =
      min n o.FillRingNumDescs := by split_ifs <;> omega
  cases rx
  · have hmin' : (if min n o.FillRingNumDescs > o.CompletionRingNumDescs then
        o.CompletionRingNumDescs else min n o.FillRingNumDescs) =
        min (min n o.FillRingNumDescs) o.CompletionRingNumDescs := by split_ifs <;> omega
    simp only [getDescs, hmin, hmin', Bool.false_eq_true, if_false]
    rw [scanFree_eq _ _ _ _ (by simpa [scanned] using hlt), sub_zero]
    rfl
  · simp only [getDescs, hmin, if_true]
    rw [scanFree_eq _ _ _ _ (by simpa [scanned] using hlt), sub_zero]
    rfl

/-- The descriptors `GetDescs` returns are of different free frames of the UMEM. -/
theorem getDescs_spec (ho : Accepted o) (hfit : o.FillRingNumDescs ≤ o.NumFrames) {n : ℤ}
    {rx : Bool} {s : Socket o} {descs : List Desc} (h : getDescs o n rx s = some descs) :
    frames o descs = (freeAmong (s.freeList rx) (scanned o rx)).take (descsLimit o n rx) ∧
      (∀ d ∈ descs, onFrame o d.Addr = true) ∧ (frames o descs).Nodup ∧
      ∀ i ∈ frames o descs, (s.freeList rx)[i]? = some true := by
  rw [getDescs_eq hfit, Option.some.injEq] at h
  have hmem : ∀ i ∈ (freeAmong (s.freeList rx) (scanned o rx)).take (descsLimit o n rx),
      i ∈ scanned o rx ∧ (s.freeList rx)[i]? = some true := by
    intro i hi
    simpa [freeAmong, List.mem_filter] using List.mem_of_mem_take hi
  have hlt := scanned_lt hfit rx
  have hframes := frames_map_frameDesc ho fun i hi => hlt i (hmem i hi).1
  rw [h] at hframes
  refine ⟨hframes, ?_, ?_, ?_⟩
  · rw [← h]
    intro d hd
    obtain ⟨i, hi, rfl⟩ := List.mem_map.mp hd
    rw [onFrame, frameIndex_frameDesc ho (hlt i (hmem i hi).1)]
    exact decide_eq_true (hlt i (hmem i hi).1)
  · rw [hframes]
    exact ((scanned_nodup rx).filter _).sublist (List.take_sublist _ _)
  · rw [hframes]
    exact fun i hi => (hmem i hi).2

end Defrizer.XdpSocket
