import Defrizer.DescriptorScan
import Defrizer.ReachableSockets

/-!
# The bytes of the descriptors of GetDescs

A scan returns the lowest free frames of its part of the UMEM. The two parts are the two halves
when the Fill ring has half as many slots as there are frames.
-/
namespace Defrizer.XdpSocket
open InterleavedProgram

variable {o : SocketOptions}

section Frames

def Desc.bytes (d : Desc) : Finset ℕ := Finset.Ico d.Addr.toNat (d.Addr.toNat + d.Len.toNat)

lemma frameDesc_len (ho : Accepted o) (i : ℕ) :
    (frameDesc o i).Len.toNat = o.FrameSize.toNat % 2 ^ 32 := by
  have hsize := ho.frameSize
  have hmod : (o.FrameSize % 2 ^ 32).toNat = o.FrameSize.toNat % 2 ^ 32 := by omega
  rw [frameDesc, UInt32.ofInt, hmod, UInt32.toNat_ofNat', Nat.mod_mod]

lemma frameDesc_end (ho : Accepted o) {i : ℕ} (hi : i < o.NumFrames.toNat) :
    (frameDesc o i).Addr.toNat + (frameDesc o i).Len.toNat ≤ (i + 1) * o.FrameSize.toNat := by
  have hle : o.FrameSize.toNat % 2 ^ 32 ≤ o.FrameSize.toNat := Nat.mod_le _ _
  rw [frameDesc_addr ho hi, frameDesc_len ho, add_mul, one_mul]
  omega

lemma frameDesc_inside (ho : Accepted o) {i : ℕ} (hi : i < o.NumFrames.toNat) :
    (frameDesc o i).Addr.toNat + (frameDesc o i).Len.toNat ≤
      o.NumFrames.toNat * o.FrameSize.toNat :=
  (frameDesc_end ho hi).trans (Nat.mul_le_mul_right _ hi)

lemma bytes_disjoint (ho : Accepted o) {i j : ℕ} (hi : i < o.NumFrames.toNat)
    (hj : j < o.NumFrames.toNat) (hne : i ≠ j) :
    Disjoint (frameDesc o i).bytes (frameDesc o j).bytes := by
  have hapart : ∀ {i j : ℕ}, i < o.NumFrames.toNat → j < o.NumFrames.toNat → i < j →
      Disjoint (frameDesc o i).bytes (frameDesc o j).bytes := by
    intro i j hi hj hlt
    have hend := frameDesc_end ho hi
    have hbegin : (i + 1) * o.FrameSize.toNat ≤ j * o.FrameSize.toNat :=
      Nat.mul_le_mul_right _ hlt
    rw [← frameDesc_addr ho hj] at hbegin
    rw [Finset.disjoint_left]
    intro x hx hx'
    simp only [Desc.bytes, Finset.mem_Ico] at hx hx'
    omega
  rcases Nat.lt_or_gt_of_ne hne with hlt | hlt
  · exact hapart hi hj hlt
  · exact (hapart hj hi hlt).symm

lemma getFrame_frameDesc (ho : Accepted o) {i : ℕ} (hi : i < o.NumFrames.toNat)
    (umem : Vector UInt8 (o.NumFrames.toNat * o.FrameSize.toNat)) :
    ∃ bytes, getFrame umem (frameDesc o i) = some bytes ∧
      bytes.length = (frameDesc o i).Len.toNat := by
  have hinside := frameDesc_inside ho hi
  have humem := ho.umem
  rw [umem_eq ho] at humem
  have hhigh : ((frameDesc o i).Addr + (frameDesc o i).Len.toUInt64).toNat =
      (frameDesc o i).Addr.toNat + (frameDesc o i).Len.toNat := by
    rw [UInt64.toNat_add, UInt32.toNat_toUInt64, Nat.mod_eq_of_lt (by omega)]
  have hbounds : (frameDesc o i).Addr ≤ (frameDesc o i).Addr + (frameDesc o i).Len.toUInt64 := by
    rw [UInt64.le_iff_toNat_le, hhigh]
    omega
  refine ⟨_, if_pos ⟨hbounds, hhigh.trans_le hinside⟩, ?_⟩
  rw [hhigh, List.length_drop, List.length_take, Vector.length_toList]
  omega

end Frames

section Scan

def part (o : SocketOptions) (rx : Bool) : Finset ℕ :=
  if rx then Finset.Ico 0 o.FillRingNumDescs.toNat
  else Finset.Ico o.FillRingNumDescs.toNat o.NumFrames.toNat

/-- The most descriptors that a mode of `GetDescs` returns. -/
def descsCap (o : SocketOptions) (rx : Bool) : ℤ :=
  if rx then o.FillRingNumDescs else min o.FillRingNumDescs o.CompletionRingNumDescs

def freeIn {m : ℕ} (freeList : Vector Bool m) (part : Finset ℕ) : Finset ℕ :=
  part.filter fun i => freeList[i]? = some true

/-- The lowest members of a set, in increasing order. -/
structure LowestOf (members : Finset ℕ) (is : List ℕ) : Prop where
  increasing : is.Pairwise (· < ·)
  mem : ∀ i ∈ is, i ∈ members
  lowest : ∀ i ∈ members, i ∉ is → ∀ j ∈ is, j < i

lemma lowestOf_take {xs : List ℕ} (h : xs.Pairwise (· < ·)) (k : ℕ) :
    LowestOf xs.toFinset (xs.take k) := by
  have hsplit := h
  rw [← List.take_append_drop k xs, List.pairwise_append] at hsplit
  refine ⟨hsplit.1, fun i hi => List.mem_toFinset.mpr (List.mem_of_mem_take hi), ?_⟩
  intro i hi hnot j hj
  rw [List.mem_toFinset, ← List.take_append_drop k xs, List.mem_append] at hi
  exact hsplit.2.2 j hj i (hi.resolve_left hnot)

lemma scanned_increasing (o : SocketOptions) (rx : Bool) : (scanned o rx).Pairwise (· < ·) := by
  cases rx <;> exact List.pairwise_lt_range'

lemma freeAmong_increasing {m : ℕ} (freeList : Vector Bool m) (rx : Bool) :
    (freeAmong freeList (scanned o rx)).Pairwise (· < ·) :=
  (scanned_increasing o rx).filter _

lemma freeAmong_toFinset (hfit : o.FillRingNumDescs ≤ o.NumFrames) {m : ℕ}
    (freeList : Vector Bool m) (rx : Bool) :
    (freeAmong freeList (scanned o rx)).toFinset = freeIn freeList (part o rx) := by
  ext i
  cases rx
  · simp [freeAmong, freeIn, scanned, part, List.mem_range'_1]
    omega
  · simp [freeAmong, freeIn, scanned, part, List.mem_range'_1]

lemma freeAmong_length (hfit : o.FillRingNumDescs ≤ o.NumFrames) {m : ℕ}
    (freeList : Vector Bool m) (rx : Bool) :
    (freeAmong freeList (scanned o rx)).length = (freeIn freeList (part o rx)).card := by
  have hnodup : (freeAmong freeList (scanned o rx)).Nodup := (scanned_nodup rx).filter _
  rw [← freeAmong_toFinset hfit, List.toFinset_card_of_nodup hnodup]

lemma descsLimit_eq (ho : Accepted o) (n : ℤ) (rx : Bool) :
    (descsLimit o n rx : ℤ) = min (max n 0) (descsCap o rx) := by
  have hfill := ho.fill.size.2
  have hcompletion := ho.completion.size.2
  cases rx
  · simp only [descsLimit, descsCap, Bool.false_eq_true, if_false]
    omega
  · simp only [descsLimit, descsCap, if_true]
    omega

lemma part_lt (hfit : o.FillRingNumDescs ≤ o.NumFrames) {rx : Bool} {i : ℕ}
    (hi : i ∈ part o rx) : i < o.NumFrames.toNat := by
  cases rx
  · simp only [part, Bool.false_eq_true, if_false, Finset.mem_Ico] at hi
    omega
  · simp only [part, if_true, Finset.mem_Ico] at hi
    omega

lemma parts_disjoint (o : SocketOptions) : Disjoint (part o true) (part o false) := by
  rw [Finset.disjoint_left]
  intro i hi hi'
  simp only [part, if_true, Bool.false_eq_true, if_false, Finset.mem_Ico] at hi hi'
  omega

/-- The descriptor is of the whole frame `i`, which `GetFrame` returns. -/
structure FullFrame (umem : Vector UInt8 (o.NumFrames.toNat * o.FrameSize.toNat)) (i : ℕ)
    (d : Desc) : Prop where
  addr : (d.Addr.toNat : ℤ) = i * o.FrameSize
  len : (d.Len.toNat : ℤ) = o.FrameSize
  options : d.Options = 0
  getFrame : ∃ bytes, getFrame umem d = some bytes ∧ (bytes.length : ℤ) = o.FrameSize

lemma fullFrame_frameDesc (ho : Accepted o) (hsize : o.FrameSize < 2 ^ 32) {i : ℕ}
    (hi : i < o.NumFrames.toNat) (umem : Vector UInt8 (o.NumFrames.toNat * o.FrameSize.toNat)) :
    FullFrame umem i (frameDesc o i) := by
  have hpos := ho.frameSize
  have hF : (o.FrameSize.toNat : ℤ) = o.FrameSize := Int.toNat_of_nonneg hpos.le
  have hlen : ((frameDesc o i).Len.toNat : ℤ) = o.FrameSize := by
    rw [frameDesc_len ho, Nat.mod_eq_of_lt (by omega), hF]
  obtain ⟨bytes, hbytes, hlength⟩ := getFrame_frameDesc ho hi umem
  refine ⟨?_, hlen, rfl, bytes, hbytes, ?_⟩
  · rw [frameDesc_addr ho hi, Nat.cast_mul, hF]
  · rw [hlength, hlen]

/-- `GetDescs` returns descriptors of the lowest free frames of its part, as many as it may,
which lie apart; the two parts are disjoint, and the socket is as before. -/
theorem getDescs_exact (ho : Accepted o) (hfit : o.FillRingNumDescs ≤ o.NumFrames)
    (hsize : o.FrameSize < 2 ^ 32) (s : Socket o) (n : ℤ) (rx : Bool)
    (umem : Vector UInt8 (o.NumFrames.toNat * o.FrameSize.toNat)) :
    ∃ is : List ℕ, (fetch (getDescs o n rx)).run s = some (is.map (frameDesc o), s) ∧
      LowestOf (freeIn (s.freeList rx) (part o rx)) is ∧
      (is.length : ℤ) =
        min (min (max n 0) (descsCap o rx)) (freeIn (s.freeList rx) (part o rx)).card ∧
      (∀ i ∈ is, FullFrame umem i (frameDesc o i)) ∧
      (is.map (frameDesc o)).Pairwise (fun d d' => Disjoint d.bytes d'.bytes) ∧
      Disjoint (part o true) (part o false) := by
  have hincreasing := freeAmong_increasing (o := o) (s.freeList rx) rx
  have hlowest := lowestOf_take hincreasing (descsLimit o n rx)
  rw [freeAmong_toFinset hfit] at hlowest
  have hlt : ∀ i ∈ (freeAmong (s.freeList rx) (scanned o rx)).take (descsLimit o n rx),
      i < o.NumFrames.toNat := by
    intro i hi
    have hmem := hlowest.mem i hi
    exact part_lt hfit (Finset.mem_filter.mp hmem).1
  refine ⟨_, ?_, hlowest, ?_, ?_, ?_, parts_disjoint o⟩
  · rw [run_fetch, getDescs_eq hfit, Option.map_some]
  · rw [List.length_take, freeAmong_length hfit, Nat.cast_min, descsLimit_eq ho]
  · exact fun i hi => fullFrame_frameDesc ho hsize (hlt i hi) umem
  · rw [List.pairwise_map]
    refine hlowest.increasing.imp_of_mem fun hi hj hij => ?_
    exact bytes_disjoint ho (hlt _ hi) (hlt _ hj) hij.ne

lemma freeAmong_new (hfit : o.FillRingNumDescs ≤ o.NumFrames) (rx : Bool) :
    freeAmong ((newSocket o).freeList rx) (scanned o rx) = scanned o rx := by
  refine List.filter_eq_self.mpr fun i hi => ?_
  have hlt := scanned_lt hfit rx i hi
  cases rx <;> simp [Socket.freeList, newSocket, hlt]

theorem getDescs_exact_new : ∃ is : List ℕ,
    (fetch (getDescs defaultSocketOptions 2 true)).run (newSocket defaultSocketOptions) =
      some (is.map (frameDesc defaultSocketOptions), newSocket defaultSocketOptions) ∧
    (is.length : ℤ) = 2 := by
  have ho := defaultSocketOptions_fourRings.toAccepted
  obtain ⟨is, hrun, _, hlength, _⟩ := getDescs_exact ho (by decide) (by decide) (newSocket _) 2
    true (Vector.replicate _ 0)
  refine ⟨is, hrun, ?_⟩
  rw [hlength, ← freeAmong_length (by decide), freeAmong_new (by decide)]
  decide

end Scan

section Halves

/-- A descriptor lies in the half of the UMEM that belongs to its mode. -/
def InHalf (o : SocketOptions) (rx : Bool) (d : Desc) : Prop :=
  if rx then 2 * ((d.Addr.toNat : ℤ) + d.Len.toNat) ≤ o.NumFrames * o.FrameSize
  else o.NumFrames * o.FrameSize ≤ 2 * d.Addr.toNat

/-- `GetDescs` does not panic, and what it returns lies in the UMEM and in the right half. -/
def SafeDescs (n : ℤ) (rx : Bool) (s : Socket o) : Prop :=
  ∃ descs, getDescs o n rx s = some descs ∧ ∀ d ∈ descs,
    (d.Addr.toNat : ℤ) + d.Len.toNat ≤ o.NumFrames * o.FrameSize ∧ InHalf o rx d

/-- The frames below the size of the Fill ring lie in the first half, the others in the second.
The length of a descriptor is the frame size modulo `2 ^ 32`. -/
def FitsHalves (o : SocketOptions) : Prop :=
  o.NumFrames ≤ 2 * o.FillRingNumDescs ∧
    2 * ((o.FillRingNumDescs - 1) * o.FrameSize + o.FrameSize % 2 ^ 32) ≤
      o.NumFrames * o.FrameSize

lemma frameDesc_addr_int (ho : Accepted o) {i : ℕ} (hi : i < o.NumFrames.toNat) :
    ((frameDesc o i).Addr.toNat : ℤ) = i * o.FrameSize := by
  rw [frameDesc_addr ho hi, Nat.cast_mul, Int.toNat_of_nonneg ho.frameSize.le]

lemma frameDesc_len_int (ho : Accepted o) (i : ℕ) :
    ((frameDesc o i).Len.toNat : ℤ) = o.FrameSize % 2 ^ 32 := by
  have hsize := ho.frameSize
  rw [frameDesc_len ho]
  omega

/-- Only `FillRingNumDescs ≤ NumFrames` keeps the scan for receiving inside the free list. -/
lemma fill_le_of_getDescs (ho : Accepted o) {s : Socket o} {descs : List Desc}
    (h : getDescs o o.FillRingNumDescs true s = some descs) :
    o.FillRingNumDescs ≤ o.NumFrames := by
  have hpos := ho.fill.size.1.pos
  have hfill := ho.fill.size.2
  simp only [getDescs, gt_iff_lt, lt_self_iff_false, if_false, if_true] at h
  have hlt := scanFree_lt h (by rw [List.length_range']; omega) (o.FillRingNumDescs.toNat - 1)
    (List.mem_range'_1.mpr (by omega))
  omega

lemma mem_getDescs_new (hfit : o.FillRingNumDescs ≤ o.NumFrames) {n : ℤ} {rx : Bool} {i : ℕ}
    (hi : i ∈ (scanned o rx).take (descsLimit o n rx)) {descs : List Desc}
    (h : getDescs o n rx (newSocket o) = some descs) : frameDesc o i ∈ descs := by
  rw [getDescs_eq hfit, freeAmong_new hfit, Option.some.injEq] at h
  rw [← h]
  exact List.mem_map_of_mem hi

lemma fitsHalves_of_new (ho : Accepted o)
    (h : ∀ n rx, SafeDescs n rx (newSocket o)) : FitsHalves o := by
  have hpos := ho.fill.size.1.pos
  have hfill := ho.fill.size.2
  have hcpos := ho.completion.size.1.pos
  have hcompletion := ho.completion.size.2
  have hsize := ho.frameSize
  obtain ⟨descs, hdescs, hsafe⟩ := h o.FillRingNumDescs true
  have hfit := fill_le_of_getDescs ho hdescs
  constructor
  · by_contra hhalf
    obtain ⟨descs', hdescs', hsafe'⟩ := h 1 false
    have hlimit : descsLimit o 1 false = 1 := by
      simp only [descsLimit, Bool.false_eq_true, if_false]
      omega
    have hmem : o.FillRingNumDescs.toNat ∈ (scanned o false).take (descsLimit o 1 false) := by
      obtain ⟨m, hm⟩ : ∃ m, o.NumFrames.toNat - o.FillRingNumDescs.toNat = m + 1 :=
        ⟨o.NumFrames.toNat - o.FillRingNumDescs.toNat - 1, by omega⟩
      rw [hlimit, scanned, if_neg Bool.false_ne_true, hm, List.range'_succ]
      exact List.mem_cons_self
    have hfirst := (hsafe' _ (mem_getDescs_new hfit hmem hdescs')).2
    simp only [InHalf, Bool.false_eq_true, if_false] at hfirst
    rw [frameDesc_addr_int ho (by omega), ← hfill] at hfirst
    have hle : o.NumFrames * o.FrameSize ≤ (2 * o.FillRingNumDescs) * o.FrameSize := by linarith
    exact hhalf (le_of_mul_le_mul_right hle hsize)
  · have hmem : o.FillRingNumDescs.toNat - 1 ∈
        (scanned o true).take (descsLimit o o.FillRingNumDescs true) := by
      have hlimit : descsLimit o o.FillRingNumDescs true = o.FillRingNumDescs.toNat := by
        simp only [descsLimit, if_true, min_self]
      rw [hlimit, scanned, if_pos rfl, List.take_of_length_le (by rw [List.length_range']),
        List.mem_range'_1]
      omega
    have hlast := (hsafe _ (mem_getDescs_new hfit hmem hdescs)).2
    simp only [InHalf, if_true] at hlast
    rw [frameDesc_addr_int ho (by omega), frameDesc_len_int ho] at hlast
    have hcast : ((o.FillRingNumDescs.toNat - 1 : ℕ) : ℤ) = o.FillRingNumDescs - 1 := by omega
    rwa [hcast] at hlast

lemma fitsHalves_fit (ho : Accepted o) (h : FitsHalves o) : o.FillRingNumDescs ≤ o.NumFrames := by
  obtain ⟨_, hrx⟩ := h
  have hsize := ho.frameSize
  have hframes := ho.numFrames
  have hmod : 0 ≤ o.FrameSize % 2 ^ 32 := by omega
  have hle : 2 * (o.FillRingNumDescs - 1) * o.FrameSize ≤ o.NumFrames * o.FrameSize := by
    linarith
  have := le_of_mul_le_mul_right hle hsize
  omega

lemma inHalf_frameDesc (ho : Accepted o) (h : FitsHalves o) {rx : Bool} {i : ℕ}
    (hi : i ∈ scanned o rx) : InHalf o rx (frameDesc o i) := by
  have hlt := scanned_lt (fitsHalves_fit ho h) rx i hi
  have hsize := ho.frameSize
  have hfill := ho.fill.size.2
  cases rx
  · simp only [scanned, Bool.false_eq_true, if_false, List.mem_range'_1] at hi
    simp only [InHalf, Bool.false_eq_true, if_false, frameDesc_addr_int ho hlt]
    have hle : o.NumFrames * o.FrameSize ≤ (2 * i) * o.FrameSize :=
      mul_le_mul_of_nonneg_right (by have := h.1; omega) hsize.le
    linarith
  · simp only [scanned, if_true, List.mem_range'_1] at hi
    simp only [InHalf, if_true, frameDesc_addr_int ho hlt, frameDesc_len_int ho]
    have hle : (i : ℤ) * o.FrameSize ≤ (o.FillRingNumDescs - 1) * o.FrameSize :=
      mul_le_mul_of_nonneg_right (by omega) hsize.le
    have hrx := h.2
    linarith

lemma safeDescs_of_fitsHalves (ho : Accepted o) (h : FitsHalves o) (n : ℤ) (rx : Bool)
    (s : Socket o) : SafeDescs n rx s := by
  have hfit := fitsHalves_fit ho h
  refine ⟨_, getDescs_eq hfit n rx s, fun d hd => ?_⟩
  obtain ⟨i, hi, rfl⟩ := List.mem_map.mp hd
  have hscanned : i ∈ scanned o rx := (List.mem_filter.mp (List.mem_of_mem_take hi)).1
  have hinside := frameDesc_inside ho (scanned_lt hfit rx i hscanned)
  refine ⟨?_, inHalf_frameDesc ho h hscanned⟩
  rw [umem_eq ho]
  exact_mod_cast hinside

/-- For frames shorter than `2 ^ 32` bytes the Fill ring has half as many slots as there are
frames. -/
lemma fitsHalves_iff (ho : Accepted o) (hsize : o.FrameSize < 2 ^ 32) :
    FitsHalves o ↔ o.NumFrames = 2 * o.FillRingNumDescs := by
  have hpos := ho.frameSize
  have hmod : o.FrameSize % 2 ^ 32 = o.FrameSize := by omega
  have hmul : 2 * ((o.FillRingNumDescs - 1) * o.FrameSize + o.FrameSize) =
      (2 * o.FillRingNumDescs) * o.FrameSize := by ring
  rw [FitsHalves, hmod, hmul]
  constructor
  · intro h
    exact le_antisymm h.1 (le_of_mul_le_mul_right h.2 hpos)
  · intro h
    rw [h]
    exact ⟨le_rfl, le_rfl⟩

def withFill (size : ℤ) : SocketOptions := { defaultSocketOptions with FillRingNumDescs := size }

lemma withFill_accepted {size : ℤ} (h : IsRingNum size) : Accepted (withFill size) :=
  { defaultSocketOptions_fourRings.toAccepted with fill := h }

end Halves

end Defrizer.XdpSocket
