import Defrizer.CursorSafety

/-!
# What the header has beyond the programs

The two programs let `parse_ethhdr` skip VLAN tags without a look at them and never parse UDP.
`parse_ethhdr_vlan` collects the identifiers for those who want them, and `parse_udphdr` is the
one parser that fails with the cursor moved.
-/
namespace Defrizer.HeaderCursor
open ByteFields FrameGrammar

/-- The tag control information of the tag that the EtherType at `q` announces. -/
def vlanTci (frame : List UInt8) (q : ℕ) : ℕ := wordAt frame (q + 2)

/-- The identifiers of `k` tags from the EtherType at `q` on stand from index `s` on; the other
entries are as before. -/
structure Collects (frame : List UInt8) (q s k : ℕ) (before after : List UInt16) : Prop where
  length : after.length = before.length
  collected : ∀ i < k, (after[s + i]?).map UInt16.toNat = some (vlanTci frame (q + 4 * i) % 4096)
  kept : ∀ i, i < s ∨ s + k ≤ i → after[i]? = before[i]?

section Collecting
variable {frame : List UInt8} {q s k : ℕ} {before after : List UInt16} {id : UInt16}

lemma Collects.none (before : List UInt16) : Collects frame q s 0 before before where
  length := rfl
  collected i hi := absurd hi (Nat.not_lt_zero i)
  kept _ _ := rfl

lemma Collects.cons (h : Collects frame (q + 4) (s + 1) k (before.set s id) after)
    (hid : id.toNat = vlanTci frame q % 4096) (hs : s < before.length) :
    Collects frame q s (k + 1) before after where
  length := by rw [h.length, List.length_set]
  collected i hi := by
    cases i with
    | zero =>
      rw [Nat.add_zero, h.kept s (Or.inl (Nat.lt_succ_self s)), List.getElem?_set_self hs]
      exact congrArg some hid
    | succ i =>
      have hnext := h.collected i (by omega)
      rwa [show s + 1 + i = s + (i + 1) by omega,
        show q + 4 + 4 * i = q + 4 * (i + 1) by omega] at hnext
  kept i hi := by
    rw [h.kept i (by omega), List.getElem?_set_ne (by omega)]

lemma vlanVid_toNat (w : UInt16) : (w &&& vlanVidMask).toNat = w.toNat % 4096 := by
  rw [UInt16.toNat_and]
  exact Nat.and_two_pow_sub_one_eq_mod w.toNat 12

end Collecting

/-- The loop stops at the same place whether or not the tags are collected. -/
lemma vlanLoop_collects (e : ByteOrder) {frame : List UInt8} {n : ℕ} (hn : n ≤ vlanMaxDepth)
    (q : ℕ) (w : UInt16) (vlans : CollectVlans) (hw : (bpfNtohs e w).toNat = wordAt frame q)
    (hq : q + 2 ≤ frame.length) (hsize : vlans.id.length = vlanMaxDepth) :
    ∃ k w' vlans', vlanLoop e frame n (q + 2) w none = some (q + 2 + 4 * k, w', none) ∧
      vlanLoop e frame n (q + 2) w (some vlans) = some (q + 2 + 4 * k, w', some vlans') ∧
      SkippedTags frame n q k ∧
      Collects frame q (vlanMaxDepth - n) k vlans.id vlans'.id := by
  induction n generalizing q w vlans with
  | zero => exact ⟨0, w, vlans, rfl, rfl, .none hq (Or.inl rfl), .none _⟩
  | succ n ih =>
    have hvlan := protoIsVlan_iff e w
    rw [hw] at hvlan
    by_cases hannounced : AnnouncesTag (wordAt frame q)
    · by_cases hcut : q + 2 + sizeofVlanHdr > frame.length
      · refine ⟨0, w, vlans, ?_, ?_, .none hq (Or.inr (Or.inr hcut)), .none _⟩
        · rw [vlanLoop, hvlan.mpr hannounced, if_neg (by decide), if_pos hcut, Nat.mul_zero,
            Nat.add_zero]
        · rw [vlanLoop, hvlan.mpr hannounced, if_neg (by decide), if_pos hcut, Nat.mul_zero,
            Nat.add_zero]
      · have hinside := hcut
        simp only [sizeofVlanHdr, gt_iff_lt, not_lt] at hinside
        obtain ⟨w₁, hload, hval⟩ := load16_eq_some e frame (p := q + 4) (by omega)
        obtain ⟨tci, htci, htcival⟩ := load16_eq_some e frame (p := q + 2) (by omega)
        let id := bpfNtohs e tci &&& vlanVidMask
        let vlans₁ : CollectVlans := ⟨vlans.id.set (vlanMaxDepth - (n + 1)) id⟩
        have hid : id.toNat = vlanTci frame q % 4096 := by
          rw [vlanVid_toNat, vlanTci, ← htcival]
          rfl
        have hsize₁ : vlans₁.id.length = vlanMaxDepth := by rw [List.length_set, hsize]
        obtain ⟨k, w', vlans', hloop, hcollect, hskipped, hcollects⟩ :=
          ih (by omega) (q + 4) w₁ vlans₁ hval (by omega) hsize₁
        have hindex : vlanMaxDepth - n = vlanMaxDepth - (n + 1) + 1 := by omega
        rw [hindex] at hcollects
        have hpos : q + 4 + 2 + 4 * k = q + 2 + 4 * (k + 1) := by omega
        rw [hpos] at hloop hcollect
        refine ⟨k + 1, w', vlans', ?_, ?_, hskipped.cons hannounced,
          hcollects.cons hid (by rw [hsize]; omega)⟩
        · rw [vlanLoop, hvlan.mpr hannounced, if_neg (by decide), if_neg hcut, hload]
          exact hloop
        · rw [vlanLoop, hvlan.mpr hannounced, if_neg (by decide), if_neg hcut, hload]
          simp only [collectVlan, htci, Option.bind_eq_bind, Option.bind_some, Option.pure_def]
          exact hcollect
    · have hnot : protoIsVlan e w = false := by
        rw [Bool.eq_false_iff]
        exact mt hvlan.mp hannounced
      refine ⟨0, w, vlans, ?_, ?_, .none hq (Or.inr (Or.inl hannounced)), .none _⟩
      · rw [vlanLoop, hnot, if_pos (by decide), Nat.mul_zero, Nat.add_zero]
      · rw [vlanLoop, hnot, if_pos (by decide), Nat.mul_zero, Nat.add_zero]

/-- Collecting changes nothing of what is parsed. The identifiers collected are the low twelve
bits of the skipped tags, in their order and from the first entry on. -/
theorem vlans_collected (e : ByteOrder) (frame : List UInt8) (nh : HdrCursor)
    (ethhdr : Option ℕ) {vlans : CollectVlans} (size : vlans.id.length = vlanMaxDepth) :
    ∃ r vlans', parseEthhdr e frame nh ethhdr = some r ∧
      parseEthhdrVlan e frame nh ethhdr (some vlans) = some (r, some vlans') ∧
      (r.ret = -1 → vlans' = vlans) ∧
      (0 ≤ r.ret → ∃ k, SkippedTags frame vlanMaxDepth (nh.pos + 12) k ∧
        r.nh.pos = nh.pos + 14 + 4 * k ∧
        Collects frame (nh.pos + 12) 0 k vlans.id vlans'.id) := by
  by_cases hshort : nh.pos + sizeofEthhdr > frame.length
  · refine ⟨⟨-1, nh, ethhdr⟩, vlans, ?_, ?_, fun _ => rfl, fun h => ?_⟩
    · simp only [parseEthhdr, parseEthhdrVlan, if_pos hshort, Option.map_some]
    · simp only [parseEthhdrVlan, if_pos hshort]
    · have hret : (0 : ℤ) ≤ -1 := h
      omega
  · have hinside := hshort
    simp only [sizeofEthhdr, gt_iff_lt, not_lt] at hinside
    obtain ⟨w, hload, hval⟩ := load16_eq_some e frame (p := nh.pos + 12) (by omega)
    obtain ⟨k, w', vlans', hloop, hcollect, hskipped, hcollects⟩ :=
      vlanLoop_collects e le_rfl (nh.pos + 12) w vlans hval (by omega) size
    have hstart : nh.pos + 12 + 2 = nh.pos + sizeofEthhdr := rfl
    rw [hstart] at hloop hcollect
    refine ⟨⟨w'.toNat, ⟨nh.pos + sizeofEthhdr + 4 * k⟩, some nh.pos⟩, vlans', ?_, ?_, fun h => ?_,
      fun _ => ⟨k, hskipped, rfl, ?_⟩⟩
    · simp only [parseEthhdr, parseEthhdrVlan, if_neg hshort, hload, hloop,
        Option.bind_eq_bind, Option.bind_some, Option.pure_def, Option.map_some]
    · simp only [parseEthhdrVlan, if_neg hshort, hload, hcollect, Option.bind_eq_bind,
        Option.bind_some, Option.pure_def]
    · have hret : (w'.toNat : ℤ) = -1 := h
      omega
    · rwa [Nat.sub_self] at hcollects

/-- A frame with the tags 5 and 7, of which the second has a priority as well. -/
def taggedFrame : List UInt8 :=
  [0, 0, 0, 0, 0, 0, 0, 0, 0, 0, 0, 0, 0x88, 0xA8, 0, 5, 0x81, 0, 0x20, 7, 0x08, 0]

theorem vlans_collected_two :
    ∃ r vlans' k, parseEthhdrVlan .little taggedFrame ⟨0⟩ none (some ⟨[0, 0]⟩) =
      some (r, some vlans') ∧ vlans'.id = [5, 7] ∧ Collects taggedFrame 12 0 k [0, 0] vlans'.id := by
  obtain ⟨r, vlans', _, hparse, _, hcollects⟩ := vlans_collected .little taggedFrame ⟨0⟩ none
    (show (⟨[0, 0]⟩ : CollectVlans).id.length = vlanMaxDepth from rfl)
  have hrun : parseEthhdrVlan .little taggedFrame ⟨0⟩ none (some ⟨[0, 0]⟩) =
      some (⟨8, ⟨22⟩, some 0⟩, some ⟨[5, 7]⟩) := by decide
  have hboth := hrun.symm.trans hparse
  cases hboth
  obtain ⟨k, _, _, hk⟩ := hcollects (by decide)
  exact ⟨_, _, k, hrun, rfl, hk⟩

def sizeofUdphdr : ℕ := 8

/-- `parse_udphdr`. The length of the header is a `size_t`, so the subtraction is one of 64 bits,
and its result is cut down to an `int`. -/
def parseUdphdr (e : ByteOrder) (frame : List UInt8) (nh : HdrCursor) (udphdr : Option ℕ) :
    Option Parsed := do
  let h := nh.pos
  if h + sizeofUdphdr > frame.length then return ⟨-1, nh, udphdr⟩
  let nh : HdrCursor := ⟨h + sizeofUdphdr⟩
  let hlen := (bpfNtohs e (← load16 e frame (h + 4))).toNat
  let len : ℤ := Int.bmod (((hlen : ℤ) - sizeofUdphdr) % 2 ^ 64) (2 ^ 32)
  if len < 0 then return ⟨-1, nh, some h⟩
  return ⟨len, nh, some h⟩

/-- The header moves the cursor even where its length field is too small to count it. -/
theorem parseUdphdr_spec (e : ByteOrder) (frame : List UInt8) (nh : HdrCursor)
    (udphdr : Option ℕ) : parseUdphdr e frame nh udphdr =
      some (if frame.length < nh.pos + 8 then ⟨-1, nh, udphdr⟩
        else if wordAt frame (nh.pos + 4) < 8 then ⟨-1, ⟨nh.pos + 8⟩, some nh.pos⟩
        else ⟨wordAt frame (nh.pos + 4) - 8, ⟨nh.pos + 8⟩, some nh.pos⟩) := by
  by_cases hshort : frame.length < nh.pos + 8
  · have hcut : nh.pos + sizeofUdphdr > frame.length := hshort
    simp only [parseUdphdr, if_pos hcut, if_pos hshort, Option.pure_def]
  · have hcut : ¬ nh.pos + 8 > frame.length := hshort
    obtain ⟨w, hload, hval⟩ := load16_eq_some e frame (p := nh.pos + 4) (by omega)
    have hlen : (bpfNtohs e w).toNat = wordAt frame (nh.pos + 4) := hval
    have hlt := (bpfNtohs e w).toNat_lt
    rw [hlen] at hlt
    have hint : Int.bmod (((wordAt frame (nh.pos + 4) : ℕ) - (8 : ℤ)) % 2 ^ 64) (2 ^ 32) =
        (wordAt frame (nh.pos + 4) : ℤ) - 8 := by
      rw [Int.bmod_def]
      omega
    simp only [parseUdphdr, sizeofUdphdr, if_neg hcut, hload, hlen, Option.pure_def,
      Option.bind_eq_bind, Option.bind_some, Nat.cast_ofNat, hint]
    by_cases hsmall : wordAt frame (nh.pos + 4) < 8
    · rw [if_pos (by omega), if_pos hsmall]
    · rw [if_neg (by omega), if_neg hsmall]

end Defrizer.HeaderCursor
