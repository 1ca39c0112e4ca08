import Defrizer.FilterSoundness

/-!
# The cursor stays in the frame

What a call of a parser leaves behind, wherever the cursor stands: it reads inside the frame
only, and moves the cursor by the length of the header it has parsed or not at all. The chains
of calls of the two programs begin at the start of the frame.
-/
namespace Defrizer.HeaderCursor
open ByteFields FrameGrammar FilterPrograms KernelMaps

lemma load8_isSome_iff (bytes : List UInt8) (p : ℕ) :
    (load8 bytes p).isSome ↔ p < bytes.length := by
  simp [load8]

lemma byteAt_drop (bytes : List UInt8) (p i : ℕ) :
    byteAt (bytes.drop p) i = byteAt bytes (p + i) := by
  simp only [byteAt, List.getElem?_drop]

/-- `k` of at most `n` tags are skipped from the EtherType at `q` on: each is announced by the
EtherType before it and complete, and the next one, if there may be one, is not. -/
structure SkippedTags (frame : List UInt8) (n q k : ℕ) : Prop where
  depth : k ≤ n
  announced : ∀ i < k, AnnouncesTag (wordAt frame (q + 4 * i))
  inside : q + 2 + 4 * k ≤ frame.length
  stop : k = n ∨ ¬ AnnouncesTag (wordAt frame (q + 4 * k)) ∨ frame.length < q + 2 + 4 * (k + 1)

section Tags
variable {frame : List UInt8} {n q k k' : ℕ}

lemma SkippedTags.unique (h : SkippedTags frame n q k) (h' : SkippedTags frame n q k') :
    k = k' := by
  have hle : ∀ {k k'}, SkippedTags frame n q k → SkippedTags frame n q k' → k' ≤ k := by
    intro k k' h h'
    by_contra hlt
    have hdepth := h'.depth
    have hinside := h'.inside
    rcases h.stop with hstop | hstop | hstop
    · omega
    · exact hstop (h'.announced k (by omega))
    · omega
  exact le_antisymm (hle h' h) (hle h h')

lemma SkippedTags.none (hinside : q + 2 ≤ frame.length)
    (hstop : n = 0 ∨ ¬ AnnouncesTag (wordAt frame q) ∨ frame.length < q + 6) :
    SkippedTags frame n q 0 where
  depth := Nat.zero_le n
  announced i hi := absurd hi (Nat.not_lt_zero i)
  inside := hinside
  stop := hstop.imp Eq.symm id

lemma SkippedTags.cons (h : SkippedTags frame n (q + 4) k)
    (hannounced : AnnouncesTag (wordAt frame q)) : SkippedTags frame (n + 1) q (k + 1) where
  depth := Nat.succ_le_succ h.depth
  announced i hi := by
    cases i with
    | zero => exact hannounced
    | succ i =>
      have hnext := h.announced i (by omega)
      rwa [show q + 4 + 4 * i = q + 4 * (i + 1) by omega] at hnext
  inside := by have := h.inside; omega
  stop := by
    have hstop := h.stop
    rw [show q + 4 + 4 * k = q + 4 * (k + 1) by omega] at hstop
    rcases hstop with hstop | hstop | hstop
    · exact Or.inl (by omega)
    · exact Or.inr (Or.inl hstop)
    · exact Or.inr (Or.inr (by omega))

end Tags

lemma collectVlan_eq_some (e : ByteOrder) {frame : List UInt8} {vlh : ℕ} (i : ℕ)
    (vlans : Option CollectVlans) (h : vlh + 1 < frame.length) :
    ∃ vlans', collectVlan e frame vlh i vlans = some vlans' := by
  cases vlans with
  | none => exact ⟨none, rfl⟩
  | some vlans =>
    obtain ⟨tci, htci, _⟩ := load16_eq_some e frame h
    exact ⟨_, by simp only [collectVlan, htci]; rfl⟩

/-- The loop skips tags from the EtherType at `q` on, whether or not they are collected. -/
lemma vlanLoop_skips (e : ByteOrder) {frame : List UInt8} (n q : ℕ) (w : UInt16)
    (vlans : Option CollectVlans) (hw : (bpfNtohs e w).toNat = wordAt frame q)
    (hq : q + 2 ≤ frame.length) :
    ∃ k w' vlans', vlanLoop e frame n (q + 2) w vlans = some (q + 2 + 4 * k, w', vlans') ∧
      SkippedTags frame n q k := by
  induction n generalizing q w vlans with
  | zero => exact ⟨0, w, vlans, rfl, .none hq (Or.inl rfl)⟩
  | succ n ih =>
    have hvlan := protoIsVlan_iff e w
    rw [hw] at hvlan
    rw [vlanLoop]
    by_cases hannounced : AnnouncesTag (wordAt frame q)
    · rw [hvlan.mpr hannounced, if_neg (by decide)]
      by_cases hcut : q + 2 + sizeofVlanHdr > frame.length
      · rw [if_pos hcut]
        exact ⟨0, w, vlans, rfl, .none hq (Or.inr (Or.inr hcut))⟩
      · simp only [sizeofVlanHdr, gt_iff_lt, not_lt] at hcut
        obtain ⟨w', hload, hval⟩ := load16_eq_some e frame (p := q + 4) (by omega)
        obtain ⟨vlans', hcollect⟩ := collectVlan_eq_some e (vlanMaxDepth - (n + 1)) vlans
          (show q + 2 + 1 < frame.length by omega)
        obtain ⟨k, w'', vlans'', hloop, hskipped⟩ := ih (q + 4) w' vlans' hval (by omega)
        refine ⟨k + 1, w'', vlans'', ?_, hskipped.cons hannounced⟩
        rw [if_neg (by simp only [sizeofVlanHdr]; omega), hload, hcollect]
        simp only [Option.bind_eq_bind, Option.bind_some]
        rw [show q + 2 + sizeofVlanHdr = q + 4 + 2 from rfl, hloop]
        congr 2
        omega
    · have hnot : protoIsVlan e w = false := by
        rw [Bool.eq_false_iff]
        exact mt hvlan.mp hannounced
      rw [hnot, if_pos (by decide)]
      exact ⟨0, w, vlans, rfl, .none hq (Or.inr (Or.inl hannounced))⟩

/-- The parsers the programs call. They pass no `vlans`. -/
inductive Parser
  | ethhdr (vlans : Option CollectVlans)
  | iphdr
  | ip6hdr
  | tcphdr
  deriving DecidableEq, Repr

def Parser.parse (e : ByteOrder) (frame : List UInt8) (nh : HdrCursor) (hdr : Option ℕ) :
    Parser → Option Parsed
  | .ethhdr vlans => (parseEthhdrVlan e frame nh hdr vlans).map Prod.fst
  | .iphdr => parseIphdr frame nh hdr
  | .ip6hdr => parseIp6hdr frame nh hdr
  | .tcphdr => parseTcphdr frame nh hdr

/-- The size of the structure the header pointer points to. -/
def Parser.sizeof : Parser → ℕ
  | .ethhdr _ => sizeofEthhdr
  | .iphdr => sizeofIphdr
  | .ip6hdr => sizeofIpv6hdr
  | .tcphdr => sizeofTcphdr

/-- The header at `p` is `n` bytes long. -/
def Parser.HeaderSize (frame : List UInt8) (p n : ℕ) : Parser → Prop
  | .ethhdr _ => ∃ k, SkippedTags frame vlanMaxDepth (p + 12) k ∧ n = 14 + 4 * k
  | .iphdr => n = 4 * ihl (frame.drop p)
  | .ip6hdr => n = 40
  | .tcphdr => n = 4 * doff (frame.drop p)

/-- What a parser called at `nh` with the header pointer `hdr` leaves behind. -/
structure Parser.Leaves (parser : Parser) (frame : List UInt8) (nh : HdrCursor)
    (hdr : Option ℕ) (r : Parsed) : Prop where
  ret : r.ret = -1 ∨ 0 ≤ r.ret
  moved : 0 ≤ r.ret → ∃ n, parser.HeaderSize frame nh.pos n ∧ parser.sizeof ≤ n ∧
    r.nh.pos = nh.pos + n ∧ r.nh.pos ≤ frame.length ∧ r.hdr = some nh.pos
  kept : r.ret = -1 → r.nh = nh ∧ r.hdr = hdr

section Parsers
variable {e : ByteOrder} {frame : List UInt8} {nh : HdrCursor} {hdr : Option ℕ}
  {parser : Parser}

lemma Parser.headerSize_unique {p n n' : ℕ} (h : parser.HeaderSize frame p n)
    (h' : parser.HeaderSize frame p n') : n = n' := by
  cases parser with
  | ethhdr vlans =>
    obtain ⟨k, hk, rfl⟩ := h
    obtain ⟨k', hk', rfl⟩ := h'
    rw [hk.unique hk']
  | iphdr => exact h.trans h'.symm
  | ip6hdr => exact h.trans h'.symm
  | tcphdr => exact h.trans h'.symm

lemma leaves_failed : parser.Leaves frame nh hdr ⟨-1, nh, hdr⟩ where
  ret := Or.inl rfl
  moved h := by
    have hret : (0 : ℤ) ≤ -1 := h
    omega
  kept _ := ⟨rfl, rfl⟩

lemma leaves_moved {ret n : ℕ} (hsize : parser.HeaderSize frame nh.pos n)
    (hle : parser.sizeof ≤ n) (hinside : nh.pos + n ≤ frame.length) :
    parser.Leaves frame nh hdr ⟨ret, ⟨nh.pos + n⟩, some nh.pos⟩ where
  ret := Or.inr (Int.natCast_nonneg ret)
  moved _ := ⟨n, hsize, hle, rfl, hinside, rfl⟩
  kept h := by
    have hret : (ret : ℤ) = -1 := h
    omega

/-- The two checks of a parser whose header states its own length. -/
lemma leaves_checked {ret n : ℕ} (hsize : parser.HeaderSize frame nh.pos n) :
    ∃ r, (if n < parser.sizeof then some (⟨-1, nh, hdr⟩ : Parsed)
      else if frame.length < nh.pos + n then some ⟨-1, nh, hdr⟩
      else some ⟨ret, ⟨nh.pos + n⟩, some nh.pos⟩) = some r ∧ parser.Leaves frame nh hdr r := by
  split_ifs with hsmall hcut
  · exact ⟨_, rfl, leaves_failed⟩
  · exact ⟨_, rfl, leaves_failed⟩
  · exact ⟨_, rfl, leaves_moved hsize (not_lt.mp hsmall) (not_lt.mp hcut)⟩

lemma parseEthhdrVlan_leaves (e : ByteOrder) (frame : List UInt8) (nh : HdrCursor)
    (hdr : Option ℕ) (vlans : Option CollectVlans) :
    ∃ r vlans', parseEthhdrVlan e frame nh hdr vlans = some (r, vlans') ∧
      (Parser.ethhdr vlans).Leaves frame nh hdr r := by
  unfold parseEthhdrVlan
  by_cases hshort : nh.pos + sizeofEthhdr > frame.length
  · simp only [if_pos hshort]
    exact ⟨_, _, rfl, leaves_failed⟩
  · simp only [if_neg hshort]
    simp only [sizeofEthhdr, gt_iff_lt, not_lt] at hshort
    obtain ⟨w, hload, hval⟩ := load16_eq_some e frame (p := nh.pos + 12) (by omega)
    obtain ⟨k, w', vlans', hloop, hskipped⟩ :=
      vlanLoop_skips e vlanMaxDepth (nh.pos + 12) w vlans hval (by omega)
    rw [hload, sizeofEthhdr]
    simp only [Option.bind_eq_bind, Option.bind_some]
    rw [show nh.pos + 14 = nh.pos + 12 + 2 from rfl, hloop]
    have hinside := hskipped.inside
    have hpos : nh.pos + 12 + 2 + 4 * k = nh.pos + (14 + 4 * k) := by omega
    refine ⟨_, _, rfl, ?_⟩
    rw [hpos]
    exact leaves_moved ⟨k, hskipped, rfl⟩ (by simp only [Parser.sizeof, sizeofEthhdr]; omega)
      (by omega)

lemma parseIphdr_leaves (frame : List UInt8) (nh : HdrCursor) (hdr : Option ℕ) :
    ∃ r, parseIphdr frame nh hdr = some r ∧ Parser.iphdr.Leaves frame nh hdr r := by
  unfold parseIphdr
  by_cases hshort : nh.pos + sizeofIphdr > frame.length
  · simp only [if_pos hshort]
    exact ⟨_, rfl, leaves_failed⟩
  · simp only [sizeofIphdr, gt_iff_lt, not_lt] at hshort
    obtain ⟨b, hb, hbv⟩ := load8_eq_some (show nh.pos < frame.length by omega)
    obtain ⟨c, hc, _⟩ := load8_eq_some (show nh.pos + 9 < frame.length by omega)
    have hsize : Parser.iphdr.HeaderSize frame nh.pos (b.toNat % 16 * 4) := by
      change b.toNat % 16 * 4 = 4 * ihl (frame.drop nh.pos)
      rw [ihl, byteAt_drop, hbv, Nat.add_zero, Nat.mul_comm]
    simp only [sizeofIphdr, if_neg (not_lt.mpr hshort), hb, hc, Option.pure_def,
      Option.bind_eq_bind, Option.bind_some, gt_iff_lt]
    exact leaves_checked hsize

lemma parseIp6hdr_leaves (frame : List UInt8) (nh : HdrCursor) (hdr : Option ℕ) :
    ∃ r, parseIp6hdr frame nh hdr = some r ∧ Parser.ip6hdr.Leaves frame nh hdr r := by
  unfold parseIp6hdr
  by_cases hshort : nh.pos + sizeofIpv6hdr > frame.length
  · simp only [if_pos hshort]
    exact ⟨_, rfl, leaves_failed⟩
  · simp only [sizeofIpv6hdr, gt_iff_lt, not_lt] at hshort
    obtain ⟨b, hb, _⟩ := load8_eq_some (show nh.pos + 6 < frame.length by omega)
    have hsize : Parser.ip6hdr.HeaderSize frame nh.pos 40 := rfl
    simp only [sizeofIpv6hdr, if_neg (not_lt.mpr hshort), hb, Option.pure_def,
      Option.bind_eq_bind, Option.bind_some, gt_iff_lt]
    exact ⟨_, rfl, leaves_moved hsize le_rfl hshort⟩

lemma parseTcphdr_leaves (frame : List UInt8) (nh : HdrCursor) (hdr : Option ℕ) :
    ∃ r, parseTcphdr frame nh hdr = some r ∧ Parser.tcphdr.Leaves frame nh hdr r := by
  unfold parseTcphdr
  by_cases hshort : nh.pos + sizeofTcphdr > frame.length
  · simp only [if_pos hshort]
    exact ⟨_, rfl, leaves_failed⟩
  · simp only [sizeofTcphdr, gt_iff_lt, not_lt] at hshort
    obtain ⟨b, hb, hbv⟩ := load8_eq_some (show nh.pos + 12 < frame.length by omega)
    have hsize : Parser.tcphdr.HeaderSize frame nh.pos (b.toNat / 16 * 4) := by
      change b.toNat / 16 * 4 = 4 * doff (frame.drop nh.pos)
      rw [doff, byteAt_drop, hbv, Nat.mul_comm]
    simp only [sizeofTcphdr, if_neg (not_lt.mpr hshort), hb, Option.pure_def,
      Option.bind_eq_bind, Option.bind_some, gt_iff_lt]
    exact leaves_checked hsize

/-- Wherever the cursor stands, a parser reads inside the frame and moves the cursor by the
length of its header or not at all. -/
theorem parse_leaves (e : ByteOrder) (frame : List UInt8) (nh : HdrCursor) (hdr : Option ℕ)
    (parser : Parser) :
    ∃ r, parser.parse e frame nh hdr = some r ∧ parser.Leaves frame nh hdr r := by
  cases parser with
  | ethhdr vlans =>
    obtain ⟨r, vlans', hparse, hleaves⟩ := parseEthhdrVlan_leaves e frame nh hdr vlans
    exact ⟨r, by simp only [Parser.parse, hparse, Option.map_some], hleaves⟩
  | iphdr => exact parseIphdr_leaves frame nh hdr
  | ip6hdr => exact parseIp6hdr_leaves frame nh hdr
  | tcphdr => exact parseTcphdr_leaves frame nh hdr

lemma leaves_of_run {r : Parsed} (run : parser.parse e frame nh hdr = some r) :
    parser.Leaves frame nh hdr r := by
  obtain ⟨r', hr', hleaves⟩ := parse_leaves e frame nh hdr parser
  cases run.symm.trans hr'
  exact hleaves

end Parsers

section Chains
variable {e : ByteOrder} {frame : List UInt8}

/-- The calls of the programs: a parser is called where the one before it has left the cursor,
and only if that one succeeded. (The programs also look at what it returned.) -/
inductive CallChain (e : ByteOrder) (frame : List UInt8) : Parser → HdrCursor → Prop
  | ethhdr (vlans : Option CollectVlans) : CallChain e frame (.ethhdr vlans) ⟨0⟩
  | network {vlans parser nh hdr r} (chain : CallChain e frame (.ethhdr vlans) nh)
      (run : (Parser.ethhdr vlans).parse e frame nh hdr = some r) (ok : 0 ≤ r.ret)
      (next : parser = .iphdr ∨ parser = .ip6hdr) : CallChain e frame parser r.nh
  | tcphdr {parser nh hdr r} (chain : CallChain e frame parser nh)
      (network : parser = .iphdr ∨ parser = .ip6hdr)
      (run : parser.parse e frame nh hdr = some r) (ok : 0 ≤ r.ret) :
      CallChain e frame .tcphdr r.nh

lemma pos_le_of_run {parser : Parser} {nh : HdrCursor} {hdr : Option ℕ} {r : Parsed}
    (run : parser.parse e frame nh hdr = some r) (ok : 0 ≤ r.ret) : r.nh.pos ≤ frame.length := by
  obtain ⟨n, _, _, _, hinside, _⟩ := (leaves_of_run run).moved ok
  exact hinside

lemma CallChain.pos_le {parser : Parser} {nh : HdrCursor} (h : CallChain e frame parser nh) :
    nh.pos ≤ frame.length := by
  cases h with
  | ethhdr vlans => exact Nat.zero_le _
  | network chain run ok next => exact pos_le_of_run run ok
  | tcphdr chain network run ok => exact pos_le_of_run run ok

/-- The structure behind the header pointer lies in the frame. -/
def Readable (frame : List UInt8) (size : ℕ) (hdr : Option ℕ) : Prop :=
  ∃ h, hdr = some h ∧ ∀ i < size, (load8 frame (h + i)).isSome

lemma Parser.Leaves.readable {parser : Parser} {nh : HdrCursor} {hdr : Option ℕ} {r : Parsed}
    (h : parser.Leaves frame nh hdr r) (ok : 0 ≤ r.ret) :
    Readable frame parser.sizeof r.hdr := by
  obtain ⟨n, _, hle, hpos, hinside, hhdr⟩ := h.moved ok
  refine ⟨nh.pos, hhdr, fun i hi => ?_⟩
  rw [load8_isSome_iff]
  omega

/-- The header pointer is the one that a call of `parseTcphdr` in a chain has set. -/
def FromChain (e : ByteOrder) (frame : List UInt8) (tcphdr : Option ℕ) : Prop :=
  ∃ nh r, CallChain e frame .tcphdr nh ∧ parseTcphdr frame nh none = some r ∧ 0 ≤ r.ret ∧
    r.hdr = tcphdr

lemma Readable.length_le {size : ℕ} {hdr : Option ℕ} (h : Readable frame size hdr)
    (hpos : 0 < size) : ∃ p, hdr = some p ∧ p + size ≤ frame.length := by
  obtain ⟨p, hp, hload⟩ := h
  have hlast := (load8_isSome_iff frame (p + (size - 1))).mp (hload (size - 1) (by omega))
  exact ⟨p, hp, by omega⟩

/-- The programs may read the TCP header they go on with. -/
lemma FromChain.inside {tcphdr : Option ℕ} (h : FromChain e frame tcphdr) :
    ∃ p, tcphdr = some p ∧ p + 20 ≤ frame.length := by
  obtain ⟨nh, r, _, hrun, ok, rfl⟩ := h
  have hleaves : Parser.tcphdr.Leaves frame nh none r := leaves_of_run (e := e) hrun
  exact (hleaves.readable ok).length_le (by decide)

lemma parseTransport_chain {ip : Parsed}
    (hchain : 0 ≤ ip.ret → CallChain e frame .tcphdr ip.nh) :
    ∃ result, parseTransport frame ip = some result ∧
      ∀ tcphdr, result = .tcp tcphdr → FromChain e frame tcphdr := by
  unfold parseTransport
  by_cases htcp : ip.ret = ipprotoTcp
  · have hnext := hchain (by rw [htcp]; decide)
    obtain ⟨r, hr, hleaves⟩ := parseTcphdr_leaves frame ip.nh none
    rw [if_neg (not_not.mpr htcp), hr]
    simp only [Option.bind_eq_bind, Option.bind_some]
    split_ifs with hneg
    · exact ⟨_, rfl, fun _ h => by cases h⟩
    · refine ⟨_, rfl, fun tcphdr h => ?_⟩
      cases h
      exact ⟨ip.nh, r, hnext, hr, not_lt.mp hneg, rfl⟩
  · exact ⟨_, by rw [if_pos htcp]; rfl, fun _ h => by cases h⟩

/-- The lines the programs share read inside the frame only, and the header pointer they go on
with comes from a chain. -/
lemma parseHeaders_chain (e : ByteOrder) (frame : List UInt8) :
    ∃ result, parseHeaders e frame = some result ∧
      ∀ tcphdr, result = .tcp tcphdr → FromChain e frame tcphdr := by
  obtain ⟨eth, heth, _⟩ := parse_leaves e frame ⟨0⟩ (some 0) (.ethhdr none)
  have hparse : parseEthhdr e frame ⟨0⟩ (some 0) = some eth := heth
  rw [parseHeaders, hparse]
  simp only [Option.bind_eq_bind, Option.bind_some]
  split_ifs with hneg hip hip6
  · exact ⟨_, rfl, fun _ h => by cases h⟩
  · obtain ⟨ip, hrun, _⟩ := parse_leaves e frame eth.nh none .iphdr
    have hiphdr : parseIphdr frame eth.nh none = some ip := hrun
    rw [hiphdr, Option.bind_some]
    have hcall := (CallChain.ethhdr none).network heth (not_lt.mp hneg) (Or.inl rfl)
    exact parseTransport_chain fun ok => hcall.tcphdr (Or.inl rfl) hrun ok
  · obtain ⟨ip, hrun, _⟩ := parse_leaves e frame eth.nh none .ip6hdr
    have hip6hdr : parseIp6hdr frame eth.nh none = some ip := hrun
    rw [hip6hdr, Option.bind_some]
    have hcall := (CallChain.ethhdr none).network heth (not_lt.mp hneg) (Or.inr rfl)
    exact parseTransport_chain fun ok => hcall.tcphdr (Or.inr rfl) hrun ok
  · exact ⟨_, rfl, fun _ h => by cases h⟩

lemma xdpSockProg_reads (q : UInt32 → Option UInt32) (index : UInt32) :
    (xdpSockProg e q frame index).isSome := by
  cases hq : q index with
  | none => simp only [xdpSockProg, hq, Option.isSome_some]
  | some v =>
    obtain ⟨result, hresult, hchain⟩ := parseHeaders_chain e frame
    simp only [xdpSockProg, hq, hresult, Option.bind_eq_bind, Option.bind_some]
    cases result with
    | out action => rfl
    | tcp tcphdr =>
      obtain ⟨p, rfl, hle⟩ := (hchain _ rfl).inside
      obtain ⟨dest, hdest, _⟩ := load16_eq_some e frame (p := p + 2) (by omega)
      simp only [tcpDest, Option.bind_eq_bind, Option.bind_some, hdest, Option.pure_def]
      split_ifs <;> rfl

lemma perfEventTest_reads (rb : RingBuffer) : (perfEventTest e rb frame).isSome := by
  obtain ⟨result, hresult, hchain⟩ := parseHeaders_chain e frame
  simp only [perfEventTest, hresult, Option.bind_eq_bind, Option.bind_some]
  cases result with
  | out action => rfl
  | tcp tcphdr =>
    obtain ⟨p, rfl, hle⟩ := (hchain _ rfl).inside
    obtain ⟨source, hsource, _⟩ := load16_eq_some e frame (p := p) (by omega)
    obtain ⟨dest, hdest, _⟩ := load16_eq_some e frame (p := p + 2) (by omega)
    obtain ⟨seq, hseq⟩ := load32_eq_some e frame (p := p + 4) (by omega)
    simp only [tcpDest, Option.bind_eq_bind, Option.bind_some, hsource, hdest, hseq,
      Option.pure_def]
    split_ifs <;> rfl

/-- In every chain of calls the cursor is inside the frame. Each call reads inside the frame
only; it moves the cursor by the length of its header and sets the header pointer, which the
caller can read through, or it leaves both as they were. The programs read through no other
pointers. -/
theorem cursor_inside (e : ByteOrder) (frame : List UInt8) :
    (∀ parser nh, CallChain e frame parser nh → nh.pos ≤ frame.length ∧
      ∀ hdr, ∃ r, parser.parse e frame nh hdr = some r ∧ parser.Leaves frame nh hdr r ∧
        (0 ≤ r.ret → Readable frame parser.sizeof r.hdr)) ∧
    (∀ parser p n n', Parser.HeaderSize frame p n parser → Parser.HeaderSize frame p n' parser →
      n = n') ∧
    (∀ tcphdr, parseHeaders e frame = some (.tcp tcphdr) → FromChain e frame tcphdr) ∧
    ∀ q index rb, (xdpSockProg e q frame index).isSome ∧ (perfEventTest e rb frame).isSome := by
  refine ⟨fun parser nh hchain => ⟨hchain.pos_le, fun hdr => ?_⟩,
    fun parser p n n' => Parser.headerSize_unique, fun tcphdr h => ?_,
    fun q index rb => ⟨xdpSockProg_reads q index, perfEventTest_reads rb⟩⟩
  · obtain ⟨r, hr, hleaves⟩ := parse_leaves e frame nh hdr parser
    exact ⟨r, hr, hleaves, hleaves.readable⟩
  · obtain ⟨result, hresult, hfrom⟩ := parseHeaders_chain e frame
    rw [h, Option.some.injEq] at hresult
    exact hfrom tcphdr hresult.symm

end Chains

end Defrizer.HeaderCursor
