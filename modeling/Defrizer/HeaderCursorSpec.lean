import Defrizer.HeaderCursor
import Defrizer.FrameGrammar

/-!
# What each parser accepts

Each parser of the header cursor succeeds exactly on the prefixes that the frame grammar
calls a header, moves the cursor behind that header, and otherwise changes nothing.
-/
namespace Defrizer.HeaderCursor
open ByteFields FrameGrammar

theorem load8_append (pre bytes : List UInt8) {i : ℕ} (h : i < bytes.length) :
    ∃ b, load8 (pre ++ bytes) (pre.length + i) = some b ∧ b.toNat = byteAt bytes i := by
  rw [← byteAt_append_right pre bytes i]
  exact load8_eq_some (by rw [List.length_append]; omega)

theorem load16_append (e : ByteOrder) (pre bytes : List UInt8) {i : ℕ}
    (h : i + 1 < bytes.length) :
    ∃ w, load16 e (pre ++ bytes) (pre.length + i) = some w ∧
      (bpfNtohs e w).toNat = wordAt bytes i := by
  rw [← wordAt_append_right pre bytes i]
  exact load16_eq_some e _ (by rw [List.length_append]; omega)

theorem toNat_eq_bpfHtons_iff (e : ByteOrder) (w c : UInt16) :
    (w.toNat : ℤ) = (bpfHtons e c).toNat ↔ (bpfNtohs e w).toNat = c.toNat := by
  rw [Nat.cast_inj, UInt16.toNat_inj, UInt16.toNat_inj]
  exact eq_netOrder16_iff e w c

theorem protoIsVlan_iff (e : ByteOrder) (w : UInt16) :
    protoIsVlan e w = true ↔ AnnouncesTag (bpfNtohs e w).toNat := by
  have h (c : UInt16) : w = bpfHtons e c ↔ (bpfNtohs e w).toNat = c.toNat := by
    rw [UInt16.toNat_inj]
    exact eq_netOrder16_iff e w c
  simp only [protoIsVlan, Bool.or_eq_true, beq_iff_eq, h]
  rfl

theorem vlanLoop_tag (e : ByteOrder) (n : ℕ) (pre rest : List UInt8) {tag : List UInt8}
    {w : UInt16} (hw : AnnouncesTag (bpfNtohs e w).toNat) (ht : tag.length = 4) :
    ∃ w', (bpfNtohs e w').toNat = wordAt tag 2 ∧
      vlanLoop e (pre ++ (tag ++ rest)) (n + 1) pre.length w none =
        vlanLoop e (pre ++ (tag ++ rest)) n (pre.length + 4) w' none := by
  obtain ⟨w', hload, hval⟩ := load16_append e pre (tag ++ rest) (i := 2)
    (by rw [List.length_append]; omega)
  rw [wordAt_append_left rest (by omega)] at hval
  refine ⟨w', hval, ?_⟩
  have hv := (protoIsVlan_iff e w).mpr hw
  have hlen : ¬ (pre.length + sizeofVlanHdr > (pre ++ (tag ++ rest)).length) := by
    simp only [List.length_append, sizeofVlanHdr]
    omega
  rw [vlanLoop, hv, if_neg (by decide), if_neg hlen, hload]
  rfl

/-- The loop stops at once on an EtherType that announces no tag, or on a cut-off tag. -/
theorem vlanLoop_stop (e : ByteOrder) {n : ℕ} {pre rest : List UInt8} {w : UInt16}
    (h : n = 0 ∨ ¬ AnnouncesTag (bpfNtohs e w).toNat ∨ rest.length < 4) :
    vlanLoop e (pre ++ rest) n pre.length w none = some (pre.length, w, none) := by
  cases n with
  | zero => rfl
  | succ n =>
    rw [vlanLoop]
    by_cases hv : protoIsVlan e w = true
    · have hlen : pre.length + sizeofVlanHdr > (pre ++ rest).length := by
        have ha := (protoIsVlan_iff e w).mp hv
        have hr : rest.length < 4 := (h.resolve_left (Nat.succ_ne_zero n)).resolve_left (· ha)
        simp only [List.length_append, sizeofVlanHdr]
        omega
      rw [hv, if_neg (by decide), if_pos hlen]
    · rw [Bool.not_eq_true] at hv
      rw [hv, if_pos (by decide)]

/-- The loop follows every chain of tags that ends on an EtherType announcing no tag. -/
theorem vlanLoop_of_chain (e : ByteOrder) {n p q : ℕ} {tags : List UInt8}
    (h : TagChain n p tags q) (hq : ¬ AnnouncesTag q) :
    ∀ (pre rest : List UInt8) (w : UInt16), (bpfNtohs e w).toNat = p →
      ∃ w', (bpfNtohs e w').toNat = q ∧
        vlanLoop e (pre ++ (tags ++ rest)) n pre.length w none =
          some (pre.length + tags.length, w', none) := by
  induction h with
  | nil n p =>
    intro pre rest w hw
    exact ⟨w, hw, vlanLoop_stop e (Or.inr (Or.inl (hw ▸ hq)))⟩
  | @tag n p q tag tags announced size next ih =>
    intro pre rest w hw
    obtain ⟨w₁, hw₁, hstep⟩ := vlanLoop_tag e n pre (tags ++ rest)
      (hw ▸ announced) size
    obtain ⟨w', hw', hloop⟩ := ih hq (pre ++ tag) rest w₁ hw₁
    refine ⟨w', hw', ?_⟩
    rw [List.append_assoc tag, hstep]
    simp only [List.append_assoc, List.length_append, size, ← Nat.add_assoc] at hloop ⊢
    exact hloop

/-- Whatever the frame, the loop skips some chain of tags and stops for one of its three
reasons. -/
theorem vlanLoop_total (e : ByteOrder) (n : ℕ) :
    ∀ (pre bytes : List UInt8) (w : UInt16),
      ∃ tags rest w', bytes = tags ++ rest ∧
        TagChain n (bpfNtohs e w).toNat tags (bpfNtohs e w').toNat ∧
        vlanLoop e (pre ++ bytes) n pre.length w none =
          some (pre.length + tags.length, w', none) := by
  induction n with
  | zero => intro pre bytes w; exact ⟨[], bytes, w, rfl, TagChain.nil _ _, rfl⟩
  | succ n ih =>
    intro pre bytes w
    by_cases hstop : ¬ AnnouncesTag (bpfNtohs e w).toNat ∨ bytes.length < 4
    · exact ⟨[], bytes, w, rfl, TagChain.nil _ _, vlanLoop_stop e (Or.inr hstop)⟩
    · rw [not_or, not_not, not_lt] at hstop
      obtain ⟨hw, hlen⟩ := hstop
      have hsize : (bytes.take 4).length = 4 := by rw [List.length_take]; omega
      obtain ⟨w₁, hw₁, hstep⟩ := vlanLoop_tag e n pre (bytes.drop 4)
        hw hsize
      obtain ⟨tags, rest, w', hb, hchain, hloop⟩ := ih (pre ++ bytes.take 4) (bytes.drop 4) w₁
      refine ⟨bytes.take 4 ++ tags, rest, w', ?_, TagChain.tag hw hsize (hw₁ ▸ hchain), ?_⟩
      · rw [List.append_assoc, ← hb, List.take_append_drop]
      · rw [List.take_append_drop] at hstep
        rw [hstep]
        simp only [List.append_assoc, List.take_append_drop, List.length_append, hsize,
          ← Nat.add_assoc] at hloop ⊢
        exact hloop

theorem parseEthhdr_short (e : ByteOrder) {frame : List UInt8} (hdr : Option ℕ)
    (h : frame.length < 14) : parseEthhdr e frame ⟨0⟩ hdr = some ⟨-1, ⟨0⟩, hdr⟩ := by
  have hlen : (0 : ℕ) + sizeofEthhdr > frame.length := by simp only [sizeofEthhdr]; omega
  simp only [parseEthhdr, parseEthhdrVlan, if_pos hlen, Option.map_some]

theorem parseEthhdr_loop (e : ByteOrder) {eth : List UInt8} (body : List UInt8) (hdr : Option ℕ)
    (h : eth.length = 14) :
    ∃ w, (bpfNtohs e w).toNat = etherType eth ∧
      parseEthhdr e (eth ++ body) ⟨0⟩ hdr =
        (vlanLoop e (eth ++ body) vlanMaxDepth eth.length w none).map
          fun r => ⟨r.2.1.toNat, ⟨r.1⟩, some 0⟩ := by
  obtain ⟨w, hload, hval⟩ := load16_append e [] (eth ++ body) (i := 12)
    (by rw [List.length_append]; omega)
  rw [wordAt_append_left body (by omega)] at hval
  refine ⟨w, hval, ?_⟩
  have hlen : ¬ ((0 : ℕ) + sizeofEthhdr > (eth ++ body).length) := by
    simp only [List.length_append, sizeofEthhdr]
    omega
  simp only [List.nil_append, List.length_nil] at hload
  simp only [parseEthhdr, parseEthhdrVlan, if_neg hlen, hload, Option.pure_def,
    Option.bind_eq_bind, Option.bind_some]
  rw [h, Nat.zero_add, sizeofEthhdr]
  cases vlanLoop e (eth ++ body) vlanMaxDepth 14 w none <;> rfl

theorem parseEthhdr_of_link (e : ByteOrder) {frame eth tags payload : List UInt8} {p : ℕ}
    (hdr : Option ℕ) (h : LinkLayer frame eth tags payload p) (hp : ¬ AnnouncesTag p) :
    ∃ w : UInt16, (bpfNtohs e w).toNat = p ∧
      parseEthhdr e frame ⟨0⟩ hdr = some ⟨w.toNat, ⟨(eth ++ tags).length⟩, some 0⟩ := by
  obtain ⟨w, hw, hparse⟩ := parseEthhdr_loop e (tags ++ payload) hdr h.ethSize
  obtain ⟨w', hw', hloop⟩ := vlanLoop_of_chain e h.chain hp eth payload w hw
  refine ⟨w', hw', ?_⟩
  rw [h.split, hparse, vlanMaxDepth, hloop, List.length_append]
  rfl

/-- The parser gives every frame of fourteen bytes or more a link layer of the grammar. -/
theorem parseEthhdr_total (e : ByteOrder) {frame : List UInt8} (hdr : Option ℕ)
    (h : 14 ≤ frame.length) :
    ∃ eth tags payload w, LinkLayer frame eth tags payload (bpfNtohs e w).toNat ∧
      parseEthhdr e frame ⟨0⟩ hdr = some ⟨w.toNat, ⟨(eth ++ tags).length⟩, some 0⟩ := by
  have hsize : (frame.take 14).length = 14 := by rw [List.length_take]; omega
  obtain ⟨w, hw, hparse⟩ := parseEthhdr_loop e (frame.drop 14) hdr hsize
  obtain ⟨tags, payload, w', hb, hchain, hloop⟩ :=
    vlanLoop_total e vlanMaxDepth (frame.take 14) (frame.drop 14) w
  refine ⟨frame.take 14, tags, payload, w', ⟨?_, hsize, hw ▸ hchain⟩, ?_⟩
  · rw [← hb, List.take_append_drop]
  · rw [hloop, List.take_append_drop] at hparse
    rw [hparse, List.length_append]
    rfl

theorem parseIphdr_of_header (pre rest : List UInt8) {ip : List UInt8} (hdr : Option ℕ) (h : Ipv4Header ip) :
    parseIphdr (pre ++ (ip ++ rest)) ⟨pre.length⟩ hdr =
      some ⟨protocol ip, ⟨(pre ++ ip).length⟩, some pre.length⟩ := by
  obtain ⟨h5, hl⟩ := h
  obtain ⟨b, hb, hbv⟩ := load8_append pre (ip ++ rest) (i := 0)
    (by rw [List.length_append]; omega)
  obtain ⟨c, hc, hcv⟩ := load8_append pre (ip ++ rest) (i := 9)
    (by rw [List.length_append]; omega)
  rw [byteAt_append_left rest (by omega)] at hbv hcv
  rw [Nat.add_zero] at hb
  have hihl : b.toNat % 16 * 4 = ip.length := by rw [hbv, hl, ihl]; ring
  have h₁ : ¬ (pre.length + sizeofIphdr > (pre ++ (ip ++ rest)).length) := by
    simp only [List.length_append, sizeofIphdr]; omega
  have h₂ : ¬ (ip.length < sizeofIphdr) := by simp only [sizeofIphdr]; omega
  have h₃ : ¬ (pre.length + ip.length > (pre ++ (ip ++ rest)).length) := by
    simp only [List.length_append]; omega
  rw [List.length_append]
  simp only [parseIphdr, if_neg h₁, hb, hc, hihl, if_neg h₂, if_neg h₃, Option.pure_def,
    Option.bind_eq_bind, Option.bind_some, hcv, protocol]

theorem parseIphdr_of_not (pre : List UInt8) {bytes : List UInt8} (hdr : Option ℕ)
    (h : ¬ ∃ ip rest, bytes = ip ++ rest ∧ Ipv4Header ip) :
    parseIphdr (pre ++ bytes) ⟨pre.length⟩ hdr = some ⟨-1, ⟨pre.length⟩, hdr⟩ := by
  by_cases h₁ : pre.length + sizeofIphdr > (pre ++ bytes).length
  · simp only [parseIphdr, if_pos h₁, Option.pure_def]
  have hlen : 20 ≤ bytes.length := by
    simp only [List.length_append, sizeofIphdr] at h₁; omega
  obtain ⟨b, hb, hbv⟩ := load8_append pre bytes (i := 0) (by omega)
  rw [Nat.add_zero] at hb
  simp only [parseIphdr, if_neg h₁, hb, Option.pure_def, Option.bind_eq_bind, Option.bind_some]
  by_cases h₂ : b.toNat % 16 * 4 < sizeofIphdr
  · rw [if_pos h₂]
  rw [if_neg h₂]
  by_cases h₃ : pre.length + b.toNat % 16 * 4 > (pre ++ bytes).length
  · rw [if_pos h₃]
  -- both length checks pass, so the prefix is a header after all
  refine absurd ⟨bytes.take (b.toNat % 16 * 4), bytes.drop (b.toNat % 16 * 4),
    (List.take_append_drop _ _).symm, ?_⟩ h
  simp only [List.length_append, sizeofIphdr] at h₂ h₃
  have hsize : (bytes.take (b.toNat % 16 * 4)).length = b.toNat % 16 * 4 := by
    rw [List.length_take]; omega
  have hihl : ihl (bytes.take (b.toNat % 16 * 4)) = b.toNat % 16 := by
    rw [ihl, ← byteAt_append_left (bytes.drop (b.toNat % 16 * 4)) (by omega),
      List.take_append_drop, hbv]
  refine ⟨by rw [hihl]; omega, by rw [hihl, hsize]; omega⟩

theorem parseIp6hdr_of_header (pre rest : List UInt8) {ip : List UInt8} (hdr : Option ℕ) (h : Ipv6Header ip) :
    parseIp6hdr (pre ++ (ip ++ rest)) ⟨pre.length⟩ hdr =
      some ⟨nextHeader ip, ⟨(pre ++ ip).length⟩, some pre.length⟩ := by
  have hl : ip.length = 40 := h
  obtain ⟨b, hb, hbv⟩ := load8_append pre (ip ++ rest) (i := 6)
    (by rw [List.length_append]; omega)
  rw [byteAt_append_left rest (by omega)] at hbv
  have h₁ : ¬ (pre.length + sizeofIpv6hdr > (pre ++ (ip ++ rest)).length) := by
    simp only [List.length_append, sizeofIpv6hdr]; omega
  rw [List.length_append, hl, ← sizeofIpv6hdr]
  simp only [parseIp6hdr, if_neg h₁, hb, Option.pure_def, Option.bind_eq_bind, Option.bind_some,
    hbv, nextHeader]

theorem parseIp6hdr_of_short (pre : List UInt8) {bytes : List UInt8} (hdr : Option ℕ)
    (h : bytes.length < 40) :
    parseIp6hdr (pre ++ bytes) ⟨pre.length⟩ hdr = some ⟨-1, ⟨pre.length⟩, hdr⟩ := by
  have h₁ : pre.length + sizeofIpv6hdr > (pre ++ bytes).length := by
    simp only [List.length_append, sizeofIpv6hdr]; omega
  simp only [parseIp6hdr, if_pos h₁, Option.pure_def]

theorem parseTcphdr_of_header (pre rest : List UInt8) {tcp : List UInt8} (hdr : Option ℕ) (h : TcpHeader tcp) :
    parseTcphdr (pre ++ (tcp ++ rest)) ⟨pre.length⟩ hdr =
      some ⟨tcp.length, ⟨(pre ++ tcp).length⟩, some pre.length⟩ := by
  obtain ⟨h5, hl⟩ := h
  obtain ⟨b, hb, hbv⟩ := load8_append pre (tcp ++ rest) (i := 12)
    (by rw [List.length_append]; omega)
  rw [byteAt_append_left rest (by omega)] at hbv
  have hdoff : b.toNat / 16 * 4 = tcp.length := by rw [hbv, hl, doff]; ring
  have h₁ : ¬ (pre.length + sizeofTcphdr > (pre ++ (tcp ++ rest)).length) := by
    simp only [List.length_append, sizeofTcphdr]; omega
  have h₂ : ¬ (tcp.length < sizeofTcphdr) := by simp only [sizeofTcphdr]; omega
  have h₃ : ¬ (pre.length + tcp.length > (pre ++ (tcp ++ rest)).length) := by
    simp only [List.length_append]; omega
  rw [List.length_append]
  simp only [parseTcphdr, if_neg h₁, hb, hdoff, if_neg h₂, if_neg h₃, Option.pure_def,
    Option.bind_eq_bind, Option.bind_some]

theorem parseTcphdr_of_not (pre : List UInt8) {bytes : List UInt8} (hdr : Option ℕ)
    (h : ¬ StartsWithTcp bytes) :
    parseTcphdr (pre ++ bytes) ⟨pre.length⟩ hdr = some ⟨-1, ⟨pre.length⟩, hdr⟩ := by
  by_cases h₁ : pre.length + sizeofTcphdr > (pre ++ bytes).length
  · simp only [parseTcphdr, if_pos h₁, Option.pure_def]
  have hlen : 20 ≤ bytes.length := by
    simp only [List.length_append, sizeofTcphdr] at h₁; omega
  obtain ⟨b, hb, hbv⟩ := load8_append pre bytes (i := 12) (by omega)
  simp only [parseTcphdr, if_neg h₁, hb, Option.pure_def, Option.bind_eq_bind, Option.bind_some]
  by_cases h₂ : b.toNat / 16 * 4 < sizeofTcphdr
  · rw [if_pos h₂]
  rw [if_neg h₂]
  by_cases h₃ : pre.length + b.toNat / 16 * 4 > (pre ++ bytes).length
  · rw [if_pos h₃]
  refine absurd ⟨bytes.take (b.toNat / 16 * 4), bytes.drop (b.toNat / 16 * 4),
    (List.take_append_drop _ _).symm, ?_⟩ h
  simp only [List.length_append, sizeofTcphdr] at h₂ h₃
  have hsize : (bytes.take (b.toNat / 16 * 4)).length = b.toNat / 16 * 4 := by
    rw [List.length_take]; omega
  have hdoff : doff (bytes.take (b.toNat / 16 * 4)) = b.toNat / 16 := by
    rw [doff, ← byteAt_append_left (bytes.drop (b.toNat / 16 * 4)) (by omega),
      List.take_append_drop, hbv]
  refine ⟨by rw [hdoff]; omega, by rw [hdoff, hsize]; omega⟩

end Defrizer.HeaderCursor
