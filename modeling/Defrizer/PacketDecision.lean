import Defrizer.FilterClassification

/-!
# Deciding a frame by its bytes

What a filter for TCP to port 7777 decides, read off the bytes of the frame at positions, with
no cursors and no pointers. Where the two header lengths are within their bytes is a parameter:
it is the one thing a compiler may get wrong.
-/
namespace Defrizer.PacketDecision
open ByteFields FrameGrammar HeaderCursor KernelMaps FilterPrograms

/-- `ihl` from byte 0 of an IPv4 header, and `doff` from byte 12 of a TCP header. -/
structure Layout where
  ihl : ℕ → ℕ
  doff : ℕ → ℕ

def networkLayout : Layout := ⟨(· % 16), (· / 16)⟩

inductive Decision
  | aborted
  | passed
  | reported
  deriving DecidableEq, Repr

/-- The position behind at most `n` VLAN tags, and the EtherType there; `i` and `p` are those
before the tags. -/
def skipTags (frame : List UInt8) : ℕ → ℕ → ℕ → ℕ × ℕ
  | 0, i, p => (i, p)
  | n + 1, i, p =>
    if AnnouncesTag p ∧ i + 4 ≤ frame.length then skipTags frame n (i + 4) (wordAt frame (i + 2))
    else (i, p)

def decideTransport (layout : Layout) (frame : List UInt8) (i : ℕ) : Decision :=
  let size := 4 * layout.doff (byteAt frame (i + 12))
  if frame.length < i + 20 ∨ size < 20 ∨ frame.length < i + size then .aborted
  else if wordAt frame (i + 2) = 7777 then .reported
  else .passed

def decideNetwork (layout : Layout) (frame : List UInt8) (i p : ℕ) : Decision :=
  if p = etherTypeIpv4 then
    let size := 4 * layout.ihl (byteAt frame i)
    if frame.length < i + 20 ∨ size < 20 ∨ frame.length < i + size then .passed
    else if byteAt frame (i + 9) = protocolTcp then decideTransport layout frame (i + size)
    else .passed
  else if p = etherTypeIpv6 then
    if frame.length < i + 40 then .passed
    else if byteAt frame (i + 6) = protocolTcp then decideTransport layout frame (i + 40)
    else .passed
  else .passed

def decideFrame (layout : Layout) (frame : List UInt8) : Decision :=
  if frame.length < 14 then .aborted
  else
    let link := skipTags frame 2 14 (wordAt frame 12)
    decideNetwork layout frame link.1 link.2

/-- A frame whose record has no room is aborted like one that does not parse. -/
def Decision.outcome (record : List UInt8) (rb : RingBuffer) : Decision → XdpAction × RingBuffer
  | .aborted => (.aborted, rb)
  | .passed => (.pass, rb)
  | .reported => if rb.HasRoom record then (.pass, rb.append record) else (.aborted, rb)

section Parsers

variable {frame : List UInt8}

lemma vlanLoop_skipTags (e : ByteOrder) (frame : List UInt8) (n i : ℕ) (w : UInt16) :
    ∃ w', vlanLoop e frame n i w none =
        some ((skipTags frame n i (bpfNtohs e w).toNat).1, w', none) ∧
      (bpfNtohs e w').toNat = (skipTags frame n i (bpfNtohs e w).toNat).2 := by
  induction n generalizing i w with
  | zero => exact ⟨w, rfl, rfl⟩
  | succ n ih =>
    rw [vlanLoop, skipTags]
    by_cases htag : AnnouncesTag (bpfNtohs e w).toNat
    · have hproto := (protoIsVlan_iff e w).mpr htag
      rw [hproto, if_neg (by decide)]
      by_cases hroom : i + 4 ≤ frame.length
      · obtain ⟨w₁, hload, hval⟩ := load16_eq_some e frame (p := i + 2) (by omega)
        have hval : (bpfNtohs e w₁).toNat = wordAt frame (i + 2) := hval
        have hlen : ¬ (i + sizeofVlanHdr > frame.length) := by rw [sizeofVlanHdr]; omega
        obtain ⟨w', hloop, hend⟩ := ih (i + 4) w₁
        rw [if_neg hlen, if_pos ⟨htag, hroom⟩, hload, ← hval]
        exact ⟨w', hloop, hend⟩
      · have hlen : i + sizeofVlanHdr > frame.length := by rw [sizeofVlanHdr]; omega
        rw [if_pos hlen, if_neg (fun h => hroom h.2)]
        exact ⟨w, rfl, rfl⟩
    · have hproto : protoIsVlan e w = false :=
        Bool.eq_false_iff.mpr fun h => htag ((protoIsVlan_iff e w).mp h)
      rw [hproto, if_pos (by decide), if_neg (fun h => htag h.1)]
      exact ⟨w, rfl, rfl⟩

lemma parseTcphdr_eq (i : ℕ) : parseTcphdr frame ⟨i⟩ none =
    some (
      let size := 4 * networkLayout.doff (byteAt frame (i + 12))
      if frame.length < i + 20 ∨ size < 20 ∨ frame.length < i + size then ⟨-1, ⟨i⟩, none⟩
      else ⟨size, ⟨i + size⟩, some i⟩) := by
  by_cases hshort : frame.length < i + 20
  · have hlen : i + sizeofTcphdr > frame.length := hshort
    simp only [parseTcphdr, if_pos hlen, hshort, true_or, if_true, Option.pure_def]
  · obtain ⟨b, hb, hval⟩ := load8_eq_some (p := i + 12) (not_lt.mp hshort |>.trans' (by omega))
    simp only [parseTcphdr, sizeofTcphdr, gt_iff_lt, hshort, if_false, hb, Option.bind_eq_bind,
      Option.bind_some, false_or, hval, networkLayout, Option.pure_def, Nat.mul_comm _ 4]
    split_ifs with h₁ h₂ h₃ h₄ <;> first | rfl | omega

lemma parseIphdr_eq (i : ℕ) : parseIphdr frame ⟨i⟩ none =
    some (
      let size := 4 * networkLayout.ihl (byteAt frame i)
      if frame.length < i + 20 ∨ size < 20 ∨ frame.length < i + size then ⟨-1, ⟨i⟩, none⟩
      else ⟨byteAt frame (i + 9), ⟨i + size⟩, some i⟩) := by
  by_cases hshort : frame.length < i + 20
  · have hlen : i + sizeofIphdr > frame.length := hshort
    simp only [parseIphdr, if_pos hlen, hshort, true_or, if_true, Option.pure_def]
  · obtain ⟨b, hb, hval⟩ := load8_eq_some (p := i) (not_lt.mp hshort |>.trans' (by omega))
    obtain ⟨c, hc, hproto⟩ := load8_eq_some (p := i + 9) (not_lt.mp hshort |>.trans' (by omega))
    simp only [parseIphdr, sizeofIphdr, gt_iff_lt, hshort, if_false, hb, hc, Option.bind_eq_bind,
      Option.bind_some, false_or, hval, hproto, networkLayout, Option.pure_def, Nat.mul_comm _ 4]
    split_ifs with h₁ h₂ h₃ h₄ <;> first | rfl | omega

lemma parseIp6hdr_eq (i : ℕ) : parseIp6hdr frame ⟨i⟩ none =
    some (if frame.length < i + 40 then ⟨-1, ⟨i⟩, none⟩
      else ⟨byteAt frame (i + 6), ⟨i + 40⟩, some i⟩) := by
  by_cases hshort : frame.length < i + 40
  · have hlen : i + sizeofIpv6hdr > frame.length := hshort
    simp only [parseIp6hdr, if_pos hlen, if_pos hshort, Option.pure_def]
  · obtain ⟨c, hc, hproto⟩ := load8_eq_some (p := i + 6) (not_lt.mp hshort |>.trans' (by omega))
    simp only [parseIp6hdr, sizeofIpv6hdr, gt_iff_lt, hshort, if_false, hc, Option.bind_eq_bind,
      Option.bind_some, hproto, Option.pure_def]

/-- Where the parsers leave a program when a frame is decided so. -/
inductive Leads (frame : List UInt8) : Decision → ChainResult → Prop
  | aborted : Leads frame .aborted (.out .aborted)
  | passed : Leads frame .passed (.out .pass)
  | tcp (i : ℕ) (fits : i + 20 ≤ frame.length) :
      Leads frame (if wordAt frame (i + 2) = 7777 then .reported else .passed) (.tcp (some i))

lemma parseTransport_leads (hdr : Option ℕ) (i : ℕ) :
    ∃ r, parseTransport frame ⟨ipprotoTcp, ⟨i⟩, hdr⟩ = some r ∧
      Leads frame (decideTransport networkLayout frame i) r := by
  rw [parseTransport, if_neg (not_not.mpr rfl), parseTcphdr_eq, decideTransport]
  by_cases hbroken : frame.length < i + 20 ∨
      4 * networkLayout.doff (byteAt frame (i + 12)) < 20 ∨
      frame.length < i + 4 * networkLayout.doff (byteAt frame (i + 12))
  · simp only [if_pos hbroken, Option.bind_eq_bind, Option.bind_some]
    exact ⟨_, rfl, .aborted⟩
  · have hnonneg : ¬ ((4 * networkLayout.doff (byteAt frame (i + 12)) : ℕ) : ℤ) < 0 := by omega
    simp only [if_neg hbroken, Option.bind_eq_bind, Option.bind_some, if_neg hnonneg]
    exact ⟨_, rfl, .tcp i (by omega)⟩

/-- A network header leads on when its protocol is TCP, and out of the program otherwise. -/
lemma parseTransport_network {proto i : ℕ} (hdr : Option ℕ) :
    ∃ r, parseTransport frame ⟨proto, ⟨i⟩, hdr⟩ = some r ∧
      Leads frame (if proto = protocolTcp then decideTransport networkLayout frame i else .passed)
        r := by
  by_cases htcp : proto = protocolTcp
  · subst htcp
    rw [if_pos rfl]
    exact parseTransport_leads hdr i
  · have hret : (⟨proto, ⟨i⟩, hdr⟩ : Parsed).ret ≠ ipprotoTcp := by
      rw [protocolTcp] at htcp
      change (proto : ℤ) ≠ 6
      omega
    rw [if_neg htcp, parseTransport_other hret]
    exact ⟨_, rfl, .passed⟩

lemma parseIphdr_leads (i : ℕ) :
    ∃ r, (parseIphdr frame ⟨i⟩ none).bind (parseTransport frame) = some r ∧
      Leads frame (decideNetwork networkLayout frame i etherTypeIpv4) r := by
  simp only [parseIphdr_eq, decideNetwork, if_true, Option.bind_some]
  by_cases hbroken : frame.length < i + 20 ∨ 4 * networkLayout.ihl (byteAt frame i) < 20 ∨
      frame.length < i + 4 * networkLayout.ihl (byteAt frame i)
  · rw [if_pos hbroken, if_pos hbroken, parseTransport_failed]
    exact ⟨_, rfl, .passed⟩
  · rw [if_neg hbroken, if_neg hbroken]
    exact parseTransport_network (some i)

lemma parseIp6hdr_leads (i : ℕ) :
    ∃ r, (parseIp6hdr frame ⟨i⟩ none).bind (parseTransport frame) = some r ∧
      Leads frame (decideNetwork networkLayout frame i etherTypeIpv6) r := by
  have hne : etherTypeIpv6 ≠ etherTypeIpv4 := by decide
  rw [parseIp6hdr_eq, decideNetwork, if_neg hne, if_pos rfl, Option.bind_some]
  by_cases hshort : frame.length < i + 40
  · rw [if_pos hshort, if_pos hshort, parseTransport_failed]
    exact ⟨_, rfl, .passed⟩
  · rw [if_neg hshort, if_neg hshort]
    exact parseTransport_network (some i)

lemma parseEthhdr_eq (e : ByteOrder) (hlen : 14 ≤ frame.length) :
    ∃ w : UInt16, parseEthhdr e frame ⟨0⟩ (some 0) =
        some ⟨w.toNat, ⟨(skipTags frame 2 14 (wordAt frame 12)).1⟩, some 0⟩ ∧
      (bpfNtohs e w).toNat = (skipTags frame 2 14 (wordAt frame 12)).2 := by
  obtain ⟨w, hload, hval⟩ := load16_eq_some e frame (p := 12) (by omega)
  have hval : (bpfNtohs e w).toNat = wordAt frame 12 := hval
  obtain ⟨w', hloop, hend⟩ := vlanLoop_skipTags e frame 2 14 w
  rw [hval] at hloop hend
  refine ⟨w', ?_, hend⟩
  have hroom : ¬ 14 > frame.length := not_lt.mpr hlen
  simp only [parseEthhdr, parseEthhdrVlan, sizeofEthhdr, Nat.zero_add, hroom, if_false, hload,
    vlanMaxDepth, hloop, Option.bind_eq_bind, Option.bind_some, Option.pure_def, Option.map_some]

theorem parseHeaders_leads (e : ByteOrder) (frame : List UInt8) :
    ∃ r, parseHeaders e frame = some r ∧ Leads frame (decideFrame networkLayout frame) r := by
  rw [decideFrame]
  by_cases hshort : frame.length < 14
  · rw [parseHeaders_short e hshort, if_pos hshort]
    exact ⟨_, rfl, .aborted⟩
  obtain ⟨w, hparse, hend⟩ := parseEthhdr_eq e (not_lt.mp hshort)
  rw [parseHeaders_dispatch e hparse, hend, if_neg hshort]
  generalize skipTags frame 2 14 (wordAt frame 12) = link
  obtain ⟨i, p⟩ := link
  by_cases h₄ : p = etherTypeIpv4
  · subst h₄
    rw [if_pos rfl]
    exact parseIphdr_leads i
  by_cases h₆ : p = etherTypeIpv6
  · subst h₆
    rw [if_neg h₄, if_pos rfl]
    exact parseIp6hdr_leads i
  · simp only [if_neg h₄, if_neg h₆, decideNetwork]
    exact ⟨_, rfl, .passed⟩

/-- The program as written decides by the bytes of the frame, on either byte order. -/
theorem perfEventTest_decides (e : ByteOrder) (rb : RingBuffer) (frame : List UInt8) :
    ∃ o, perfEventTest e rb frame = some o ∧
      (o.action, o.events) = (decideFrame networkLayout frame).outcome helloRecord rb := by
  obtain ⟨r, hparse, hleads⟩ := parseHeaders_leads e frame
  simp only [perfEventTest, hparse, Option.bind_eq_bind, Option.bind_some]
  generalize decideFrame networkLayout frame = d at hleads ⊢
  cases hleads with
  | aborted => exact ⟨_, rfl, rfl⟩
  | passed => exact ⟨_, rfl, rfl⟩
  | tcp i fits =>
    obtain ⟨source, hsource, _⟩ := load16_eq_some e frame (p := i) (by omega)
    obtain ⟨dest, hdest, hval⟩ := load16_eq_some e frame (p := i + 2) (by omega)
    obtain ⟨seq, hseq⟩ := load32_eq_some e frame (p := i + 4) (by omega)
    have hport : bpfNtohs e dest = forwardedPort ↔ wordAt frame (i + 2) = 7777 := by
      rw [← hval, ← UInt16.toNat_inj]
      rfl
    simp only [hsource, tcpDest, hdest, hseq, Option.bind_eq_bind, Option.bind_some,
      Option.pure_def, hport]
    by_cases h : wordAt frame (i + 2) = 7777
    · rw [if_pos h, if_pos h, bpfRingbufOutput]
      by_cases hroom : rb.HasRoom helloRecord
      · rw [if_pos hroom, if_neg (not_not.mpr rfl)]
        exact ⟨_, rfl, by rw [Decision.outcome, if_pos hroom]⟩
      · rw [if_neg hroom, if_pos (show (-11 : ℤ) ≠ 0 by decide)]
        exact ⟨_, rfl, by rw [Decision.outcome, if_neg hroom]⟩
    · rw [if_neg h, if_neg h]
      exact ⟨_, rfl, rfl⟩

end Parsers

end Defrizer.PacketDecision
