import Defrizer.XdpSocket

/-!
# The kernel at the other end of the rings

One kernel step moves one entry at the kernel's end of one ring. The kernel never passes the
other party's counter, never has more entries outstanding than the ring has slots, and only
returns addresses that lie in the UMEM.
-/
namespace Defrizer.XdpSocket
open InterleavedProgram WrappingRing RingPort

/-- The ring sizes the kernel accepts. -/
def IsRingNum (x : ℤ) : Prop := ∃ k < 32, x = 2 ^ k

theorem IsRingNum.size {x : ℤ} (h : IsRingNum x) : IsRingSize x.toNat ∧ x = (x.toNat : ℤ) := by
  obtain ⟨k, hk, rfl⟩ := h
  have hnat : ((2 : ℤ) ^ k).toNat = 2 ^ k := by
    rw [← Int.toNat_natCast (2 ^ k), Nat.cast_pow, Nat.cast_ofNat]
  exact ⟨⟨k, hk, hnat⟩, by rw [hnat, Nat.cast_pow, Nat.cast_ofNat]⟩

/-- This holds of all options with which `NewSocket` succeeds: the UMEM is a mapping of its length
in bytes, the kernel takes the sizes of the rings, and the Rx and the Tx ring are not both missing.
It holds of others as well, since the kernel does not take every size of a frame either. -/
structure Accepted (o : SocketOptions) : Prop where
  numFrames : 0 < o.NumFrames
  frameSize : 0 < o.FrameSize
  umem : o.NumFrames * o.FrameSize < 2 ^ 63
  fill : IsRingNum o.FillRingNumDescs
  completion : IsRingNum o.CompletionRingNumDescs
  rx : 0 < o.RxRingNumDescs → IsRingNum o.RxRingNumDescs
  tx : 0 < o.TxRingNumDescs → IsRingNum o.TxRingNumDescs
  oneSide : 0 < o.RxRingNumDescs ∨ 0 < o.TxRingNumDescs

structure FourRings (o : SocketOptions) : Prop extends Accepted o where
  rxPos : 0 < o.RxRingNumDescs
  txPos : 0 < o.TxRingNumDescs

theorem defaultSocketOptions_fourRings : FourRings defaultSocketOptions where
  numFrames := by decide
  frameSize := by decide
  umem := by decide
  fill := ⟨6, by decide, rfl⟩
  completion := ⟨6, by decide, rfl⟩
  rx _ := ⟨6, by decide, rfl⟩
  tx _ := ⟨6, by decide, rfl⟩
  oneSide := Or.inl (by decide)
  rxPos := by decide
  txPos := by decide

/-- Two frames, one of each part of the UMEM, and rings of one slot. -/
def oneSlot : SocketOptions := ⟨2, 2048, 1, 1, 1, 1⟩

theorem oneSlot_fourRings : FourRings oneSlot where
  numFrames := by decide
  frameSize := by decide
  umem := by decide
  fill := ⟨0, by decide, rfl⟩
  completion := ⟨0, by decide, rfl⟩
  rx _ := ⟨0, by decide, rfl⟩
  tx _ := ⟨0, by decide, rfl⟩
  oneSide := Or.inl (by decide)
  rxPos := by decide
  txPos := by decide

section Frames
variable {o : SocketOptions}

theorem frameSize_toNat (h : Accepted o) : (UInt64.ofInt o.FrameSize).toNat = o.FrameSize.toNat := by
  have hsize := h.frameSize
  have hframes := h.numFrames
  have hle : o.FrameSize ≤ o.NumFrames * o.FrameSize := by nlinarith
  have humem := h.umem
  have hmod : (o.FrameSize % 2 ^ 64).toNat = o.FrameSize.toNat := by omega
  rw [UInt64.ofInt, hmod, UInt64.toNat_ofNat']
  omega

theorem frameIndex_eq (h : Accepted o) (addr : UInt64) :
    frameIndex o addr = addr.toNat / o.FrameSize.toNat := by
  rw [frameIndex, UInt64.toNat_div, frameSize_toNat h]

lemma umem_eq (ho : Accepted o) :
    o.NumFrames * o.FrameSize = ((o.NumFrames.toNat * o.FrameSize.toNat : ℕ) : ℤ) := by
  rw [Nat.cast_mul, Int.toNat_of_nonneg ho.numFrames.le, Int.toNat_of_nonneg ho.frameSize.le]

/-- The addresses with an entry in the free lists are those that lie in the UMEM. -/
theorem onFrame_iff (h : Accepted o) (addr : UInt64) :
    onFrame o addr = true ↔ (addr.toNat : ℤ) < o.NumFrames * o.FrameSize := by
  have hpos : 0 < o.FrameSize.toNat := by have := h.frameSize; omega
  rw [onFrame, decide_eq_true_iff, frameIndex_eq h, Nat.div_lt_iff_lt_mul hpos, umem_eq h,
    Nat.cast_lt]

end Frames

inductive KernelEvent
  | takeFill (addr : UInt64)
  | pushRx (d : Desc)
  | takeTx (d : Desc)
  | pushCompletion (addr : UInt64)
  deriving DecidableEq, Repr

inductive KernelStep (o : SocketOptions) : Socket o → KernelEvent → Socket o → Prop
  | takeFill {s addr r} (h : s.fillRing.take = some (addr, r)) :
      KernelStep o s (.takeFill addr) { s with fillRing := r }
  | pushRx {s d ring r} (hring : s.rxRing = some ring) (h : ring.give d = some r)
      (umem : onFrame o d.Addr = true) : KernelStep o s (.pushRx d) { s with rxRing := some r }
  | takeTx {s d ring r} (hring : s.txRing = some ring) (h : ring.take = some (d, r)) :
      KernelStep o s (.takeTx d) { s with txRing := some r }
  | pushCompletion {s addr r} (h : s.completionRing.give addr = some r)
      (umem : onFrame o addr = true) :
      KernelStep o s (.pushCompletion addr) { s with completionRing := r }

section Ports
variable {o : SocketOptions}

theorem meets_fill : Meets (KernelStep o) (fillPort o) Takes := by
  intro s l s' r h hr
  cases hr
  cases h with
  | takeFill h => exact ⟨some _, _, h, rfl, fun r₂ r₂' hT => .takeFill hT⟩
  | pushRx hring h umem =>
    exact ⟨none, _, rfl, rfl, fun r₂ r₂' hT => hT ▸ .pushRx (s := { s with fillRing := r₂ }) hring h umem⟩
  | takeTx hring h =>
    exact ⟨none, _, rfl, rfl, fun r₂ r₂' hT => hT ▸ .takeTx (s := { s with fillRing := r₂ }) hring h⟩
  | pushCompletion h umem =>
    exact ⟨none, _, rfl, rfl,
      fun r₂ r₂' hT => hT ▸ .pushCompletion (s := { s with fillRing := r₂ }) h umem⟩

theorem meets_tx : Meets (KernelStep o) (txPort o) Takes := by
  intro s l s' r h hr
  cases h with
  | takeFill h =>
    exact ⟨none, r, rfl, hr, fun r₂ r₂' hT => hT ▸ .takeFill (s := { s with txRing := some r₂ }) h⟩
  | pushRx hring h umem =>
    exact ⟨none, r, rfl, hr,
      fun r₂ r₂' hT => hT ▸ .pushRx (s := { s with txRing := some r₂ }) hring h umem⟩
  | takeTx hring h =>
    cases hring.symm.trans hr
    exact ⟨some _, _, h, rfl,
      fun r₂ r₂' hT => .takeTx (s := { s with txRing := some r₂ }) rfl hT⟩
  | pushCompletion h umem =>
    exact ⟨none, r, rfl, hr,
      fun r₂ r₂' hT => hT ▸ .pushCompletion (s := { s with txRing := some r₂ }) h umem⟩

theorem meets_rx : Meets (KernelStep o) (rxPort o) (Gives fun d => onFrame o d.Addr) := by
  intro s l s' r h hr
  cases h with
  | takeFill h =>
    exact ⟨none, r, rfl, hr, fun r₂ r₂' hT => hT ▸ .takeFill (s := { s with rxRing := some r₂ }) h⟩
  | pushRx hring h umem =>
    cases hring.symm.trans hr
    exact ⟨some _, _, ⟨h, umem⟩, rfl,
      fun r₂ r₂' hT => .pushRx (s := { s with rxRing := some r₂ }) rfl hT.1 hT.2⟩
  | takeTx hring h =>
    exact ⟨none, r, rfl, hr,
      fun r₂ r₂' hT => hT ▸ .takeTx (s := { s with rxRing := some r₂ }) hring h⟩
  | pushCompletion h umem =>
    exact ⟨none, r, rfl, hr,
      fun r₂ r₂' hT => hT ▸ .pushCompletion (s := { s with rxRing := some r₂ }) h umem⟩

theorem meets_completion : Meets (KernelStep o) (completionPort o) (Gives (onFrame o)) := by
  intro s l s' r h hr
  cases hr
  cases h with
  | takeFill h =>
    exact ⟨none, _, rfl, rfl,
      fun r₂ r₂' hT => hT ▸ .takeFill (s := { s with completionRing := r₂ }) h⟩
  | pushRx hring h umem =>
    exact ⟨none, _, rfl, rfl,
      fun r₂ r₂' hT => hT ▸ .pushRx (s := { s with completionRing := r₂ }) hring h umem⟩
  | takeTx hring h =>
    exact ⟨none, _, rfl, rfl,
      fun r₂ r₂' hT => hT ▸ .takeTx (s := { s with completionRing := r₂ }) hring h⟩
  | pushCompletion h umem =>
    exact ⟨some _, _, ⟨h, umem⟩, rfl, fun r₂ r₂' hT => .pushCompletion hT.1 hT.2⟩

end Ports

end Defrizer.XdpSocket
