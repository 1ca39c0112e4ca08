import Defrizer.FilterClassification

/-!
# Which bytes trigger and which packets are dropped

The parsers look at the header lengths, the protocol and the port, and compare lengths with
the end of the frame only. What follows for IPv4: a later fragment, or bytes behind the end
of the packet, can pass for a TCP header, and a valid fragment can be aborted.
-/
namespace Defrizer.FilterPrograms
open ByteFields HeaderCursor KernelMaps FrameGrammar

/-- The three outcomes of `perfEventTest`, with the buffer afterwards and whether the event
helper was called. -/
theorem perfEventTest_cases (e : ByteOrder) (rb : RingBuffer) (frame : List UInt8) :
    (Malformed frame ∧ perfEventTest e rb frame = some ⟨.aborted, rb, none, none⟩) ∨
    (CarriesTcpTo 7777 frame ∧ ∃ printk, perfEventTest e rb frame =
      if rb.HasRoom helloRecord then
        some ⟨.pass, rb.append helloRecord, some printk, some 0⟩
      else some ⟨.aborted, rb, some printk, some (-11)⟩) ∨
    (¬ Malformed frame ∧ ¬ CarriesTcpTo 7777 frame ∧
      ∃ printk, perfEventTest e rb frame = some ⟨.pass, rb, printk, none⟩) := by
  rcases parseHeaders_cases e frame with ⟨hm, hp⟩ | ⟨eth, tags, ip, tcp, rest, p, hc, ht, hp⟩ |
    ⟨hlen, hno, hp⟩
  · exact Or.inl ⟨hm, by simp only [perfEventTest, hp]; rfl⟩
  · have hsize : 20 ≤ tcp.length := by have := ht.1; have := ht.2; omega
    obtain ⟨dest, hdest, hiff⟩ := tcpDest_of_header e (eth ++ tags ++ ip) rest ht
    obtain ⟨source, hsource, _⟩ := load16_append e (eth ++ tags ++ ip) (tcp ++ rest)
      (i := 0) (by rw [List.length_append]; omega)
    obtain ⟨seq, hseq⟩ := load32_eq_some e frame
      (p := (eth ++ tags ++ ip).length + 4)
      (by rw [hc.frame_eq]; simp only [List.length_append]; omega)
    rw [← hc.frame_eq] at hdest hsource
    rw [Nat.add_zero] at hsource
    have hto := carriesTcpTo_iff 7777 hc ht
    by_cases hport : destPort tcp = 7777
    · refine Or.inr (Or.inl ⟨hto.mpr hport, (bpfNtohs e source, dest, seq), ?_⟩)
      simp only [perfEventTest, hp, Option.bind_eq_bind, Option.bind_some, hdest, hsource, hseq,
        if_pos (hiff.mpr hport), bpfRingbufOutput]
      split_ifs <;> simp_all
    · refine Or.inr (Or.inr ⟨CarriesTcpTo.not_malformed ⟨_, _, _, _, _, _, hc, ht, rfl⟩,
        fun h => hport (hto.mp h), some (bpfNtohs e source, dest, seq), ?_⟩)
      simp only [perfEventTest, hp, Option.bind_eq_bind, Option.bind_some, hdest, hsource, hseq,
        if_neg (mt hiff.mp hport), Option.pure_def]
  · refine Or.inr (Or.inr ⟨?_, fun h => hno h.carries, none, by simp only [perfEventTest, hp]; rfl⟩)
    rintro (hshort | hbroken)
    · omega
    · exact hno hbroken.carries

def XdpTriggers (e : ByteOrder) (q : UInt32 → Option UInt32) (frame : List UInt8)
    (index : UInt32) : Prop :=
  ∃ key flags, xdpSockProg e q frame index = some (.redirectMap key flags)

def PerfTriggers (e : ByteOrder) (rb : RingBuffer) (frame : List UInt8) : Prop :=
  ∃ o, perfEventTest e rb frame = some o ∧ o.ret.isSome = true

theorem xdpTriggers_iff (e : ByteOrder) (q : UInt32 → Option UInt32) (frame : List UInt8)
    (index : UInt32) :
    XdpTriggers e q frame index ↔ (∃ v, q index = some v ∧ v ≠ 0) ∧ CarriesTcpTo 7777 frame := by
  constructor
  · rintro ⟨key, flags, h⟩
    cases hq : q index with
    | none => simp [xdpSockProg, hq] at h
    | some v =>
      rcases xdpSockProg_cases e frame hq with ⟨_, hp⟩ | ⟨hv, hto, _⟩ | ⟨_, _, hp⟩
      · rw [hp] at h; cases h
      · exact ⟨⟨v, rfl, hv⟩, hto⟩
      · rw [hp] at h; cases h
  · rintro ⟨⟨v, hq, hv⟩, hto⟩
    exact ⟨index, 0, (xdpSockProg_redirects_iff e frame hq).mpr ⟨hv, hto⟩⟩

theorem perfTriggers_iff (e : ByteOrder) (rb : RingBuffer) (frame : List UInt8) :
    PerfTriggers e rb frame ↔ CarriesTcpTo 7777 frame := by
  rcases perfEventTest_cases e rb frame with ⟨hm, hp⟩ | ⟨hto, printk, hp⟩ | ⟨_, hno, printk, hp⟩
  · refine ⟨?_, fun h => absurd hm h.not_malformed⟩
    rintro ⟨o, ho, hr⟩
    rw [hp] at ho
    cases ho
    cases hr
  · refine ⟨fun _ => hto, fun _ => ?_⟩
    split_ifs at hp with hroom
    · exact ⟨_, hp, rfl⟩
    · exact ⟨_, hp, rfl⟩
  · refine ⟨?_, fun h => absurd h hno⟩
    rintro ⟨o, ho, hr⟩
    rw [hp] at ho
    cases ho
    cases hr

/-- The bytes after the IPv4 header `ip` are a TCP header of the packet, for port 7777: no
later fragment, and not past the end of the packet. -/
def RealTcpHeader (ip tcp : List UInt8) : Prop :=
  fragOffset ip = 0 ∧ ip.length + tcp.length ≤ totLen ip ∧ destPort tcp = 7777

def OnlyRealTcpHeaders (frame : List UInt8) : Prop :=
  ∀ eth tags ip tcp rest, CarriesTcp frame eth tags ip (tcp ++ rest) etherTypeIpv4 →
    TcpHeader tcp → RealTcpHeader ip tcp

/-- An IPv4 frame with bytes shaped like a TCP header for port 7777, which is a later fragment
or whose total length ends before those bytes do. -/
def Misleading (frame : List UInt8) : Prop :=
  ∃ eth tags ip tcp rest, CarriesTcp frame eth tags ip (tcp ++ rest) etherTypeIpv4 ∧
    TcpHeader tcp ∧ destPort tcp = 7777 ∧
    (fragOffset ip ≠ 0 ∨ totLen ip < ip.length + tcp.length)

theorem onlyReal_iff_not_misleading {frame : List UInt8} (h : CarriesTcpTo 7777 frame) :
    OnlyRealTcpHeaders frame ↔ ¬ Misleading frame := by
  constructor
  · rintro hreal ⟨eth, tags, ip, tcp, rest, hc, ht, _, hbad⟩
    obtain ⟨hfrag, htot, _⟩ := hreal eth tags ip tcp rest hc ht
    rcases hbad with hbad | hbad
    · exact hbad hfrag
    · omega
  · intro hnot eth tags ip tcp rest hc ht
    have hport := (carriesTcpTo_iff 7777 hc ht).mp h
    refine ⟨?_, ?_, hport⟩
    · by_contra hfrag
      exact hnot ⟨eth, tags, ip, tcp, rest, hc, ht, hport, Or.inl hfrag⟩
    · by_contra htot
      exact hnot ⟨eth, tags, ip, tcp, rest, hc, ht, hport, Or.inr (not_le.mp htot)⟩

theorem Misleading.carries {frame : List UInt8} (h : Misleading frame) :
    CarriesTcpTo 7777 frame := by
  obtain ⟨eth, tags, ip, tcp, rest, hc, ht, hport, _⟩ := h
  exact ⟨eth, tags, ip, tcp, rest, _, hc, ht, hport⟩

/-- A program that triggers exactly on `C` finds only real headers unless the frame misleads. -/
theorem triggers_real_iff {frame : List UInt8} {T C : Prop}
    (h : T ↔ C ∧ CarriesTcpTo 7777 frame) :
    (T → OnlyRealTcpHeaders frame) ↔ ¬ (C ∧ Misleading frame) := by
  constructor
  · rintro hreal ⟨hC, hmis⟩
    have hto := hmis.carries
    exact (onlyReal_iff_not_misleading hto).mp (hreal (h.mpr ⟨hC, hto⟩)) hmis
  · intro hnot ht
    obtain ⟨hC, hto⟩ := h.mp ht
    exact (onlyReal_iff_not_misleading hto).mpr fun hmis => hnot ⟨hC, hmis⟩

/-- Exactly which inputs let the programs take other bytes for a TCP header to port 7777:
the misleading frames, and for `xdp_sock_prog` only on an active queue. -/
theorem triggers_only_real_segments_iff (e : ByteOrder) (q : UInt32 → Option UInt32)
    (rb : RingBuffer) (frame : List UInt8) (index : UInt32) :
    ((XdpTriggers e q frame index ∨ PerfTriggers e rb frame → OnlyRealTcpHeaders frame) ↔
      ¬ Misleading frame) ∧
    ((XdpTriggers e q frame index → OnlyRealTcpHeaders frame) ↔
      ¬ ((∃ v, q index = some v ∧ v ≠ 0) ∧ Misleading frame)) := by
  have hx := xdpTriggers_iff e q frame index
  have hp := perfTriggers_iff e rb frame
  constructor
  · have hor : XdpTriggers e q frame index ∨ PerfTriggers e rb frame ↔
        True ∧ CarriesTcpTo 7777 frame := by
      rw [hx, hp, true_and]
      exact ⟨fun h => h.elim And.right id, Or.inr⟩
    rw [triggers_real_iff hor, true_and]
  · exact triggers_real_iff hx

/-- A later fragment (offset 8) of an IPv4 packet with protocol 6, whose payload has 7777
where a TCP header would have its destination port. -/
def laterFragment : List UInt8 :=
  [0, 0, 0, 0, 0, 0, 0, 0, 0, 0, 0, 0, 0x08, 0x00,
   0x45, 0, 0, 40, 0, 0, 0, 1, 64, 6, 0, 0, 10, 0, 0, 1, 10, 0, 0, 2,
   0, 80, 0x1E, 0x61, 0, 0, 0, 0, 0, 0, 0, 0, 0x50, 0, 0, 0, 0, 0, 0, 0]

theorem laterFragment_misleading : Misleading laterFragment := by
  refine ⟨laterFragment.take 14, [], (laterFragment.drop 14).take 20, laterFragment.drop 34, [],
    ⟨⟨by decide, by decide, TagChain.nil _ _⟩, Or.inl ⟨rfl, ?_, by decide⟩⟩, ?_, by decide,
    Or.inl (by decide)⟩
  · exact ⟨by decide, by decide⟩
  · exact ⟨by decide, by decide⟩

theorem triggers_on_later_fragment :
    ¬ ∀ (e : ByteOrder) (q : UInt32 → Option UInt32) (rb : RingBuffer) (frame : List UInt8)
      (index : UInt32), XdpTriggers e q frame index ∨ PerfTriggers e rb frame →
        OnlyRealTcpHeaders frame := by
  intro h
  have hreal := h .little (fun _ => some 1) ⟨262144, []⟩ laterFragment 0
    (Or.inl ⟨0, 0, by decide⟩)
  exact (onlyReal_iff_not_misleading laterFragment_misleading.carries).mp hreal
    laterFragment_misleading

/-- An Ethernet frame carrying a valid IPv4 packet `pkt`. If the packet is an unfragmented
TCP packet, a complete TCP header lies inside it; a fragment may carry any bytes. -/
structure ValidIpv4 (frame eth tags pkt : List UInt8) : Prop where
  link : LinkLayer frame eth tags pkt etherTypeIpv4
  versionFour : version pkt = 4
  ihlMin : 5 ≤ ihl pkt
  headerFits : 4 * ihl pkt ≤ totLen pkt
  packetFits : totLen pkt ≤ pkt.length
  wholeTcp : protocol pkt = protocolTcp → fragOffset pkt = 0 → moreFragments pkt = 0 →
    StartsWithTcp ((pkt.take (totLen pkt)).drop (4 * ihl pkt))

/-- The packet announces TCP only if a complete TCP header follows its IPv4 header. -/
def TcpShapeIfAnnounced (pkt : List UInt8) : Prop :=
  protocol pkt = protocolTcp → StartsWithTcp (pkt.drop (4 * ihl pkt))

theorem ValidIpv4.header {frame eth tags pkt : List UInt8} (h : ValidIpv4 frame eth tags pkt) :
    Ipv4Header (pkt.take (4 * ihl pkt)) ∧
      protocol (pkt.take (4 * ihl pkt)) = protocol pkt := by
  have h5 := h.ihlMin
  have hsize : (pkt.take (4 * ihl pkt)).length = 4 * ihl pkt := by
    have := h.headerFits
    have := h.packetFits
    rw [List.length_take]
    omega
  have hbyte (i : ℕ) (hi : i < 20) : byteAt (pkt.take (4 * ihl pkt)) i = byteAt pkt i := by
    rw [← byteAt_append_left (pkt.drop (4 * ihl pkt)) (by omega), List.take_append_drop]
  have hihl : ihl (pkt.take (4 * ihl pkt)) = ihl pkt := by
    simp only [ihl] at hbyte ⊢
    rw [hbyte 0 (by omega)]
  exact ⟨⟨by rw [hihl]; exact h5, by rw [hihl, hsize]⟩, hbyte 9 (by omega)⟩

/-- A valid IPv4 frame is malformed for the parsers exactly when it announces TCP without a
complete TCP header after the IPv4 header. -/
theorem ValidIpv4.malformed_iff {frame eth tags pkt : List UInt8}
    (h : ValidIpv4 frame eth tags pkt) : Malformed frame ↔ ¬ TcpShapeIfAnnounced pkt := by
  obtain ⟨hheader, hproto⟩ := h.header
  have hnotag : ¬ AnnouncesTag etherTypeIpv4 := by decide
  constructor
  · rintro (hshort | ⟨eth', tags', ip', segment', p', hc, hnot⟩) htcp
    · have := congrArg List.length h.link.split
      rw [List.length_append, h.link.ethSize] at this
      omega
    · obtain ⟨_, _, hpay, rfl⟩ := h.link.unique hc.link hnotag
        (etherType_ip_not_tag hc.net.etherType)
      rcases hc.net with ⟨_, hip', hp'⟩ | ⟨hp', _, _⟩
      · have he : pkt.take (4 * ihl pkt) ++ pkt.drop (4 * ihl pkt) = ip' ++ segment' := by
          rw [List.take_append_drop, hpay]
        obtain ⟨hip, hseg⟩ := hheader.unique hip' he
        rw [← hseg] at hnot
        exact hnot (htcp (by rw [← hproto, hip, hp']))
      · exact absurd hp' (by decide)
  · intro htcp
    rw [TcpShapeIfAnnounced, Classical.not_imp] at htcp
    obtain ⟨hp, hnot⟩ := htcp
    refine Or.inr ⟨eth, tags, pkt.take (4 * ihl pkt), pkt.drop (4 * ihl pkt), etherTypeIpv4,
      ⟨?_, Or.inl ⟨rfl, hheader, hproto.trans hp⟩⟩, hnot⟩
    rw [List.take_append_drop]
    exact h.link

theorem ValidIpv4.unfragmented {frame eth tags pkt : List UInt8}
    (h : ValidIpv4 frame eth tags pkt) (hoff : fragOffset pkt = 0)
    (hmf : moreFragments pkt = 0) : TcpShapeIfAnnounced pkt := by
  intro hp
  obtain ⟨tcp, rest, hseg, ht⟩ := h.wholeTcp hp hoff hmf
  refine ⟨tcp, rest ++ pkt.drop (totLen pkt), ?_, ht⟩
  have hle : 4 * ihl pkt ≤ (pkt.take (totLen pkt)).length := by
    have := h.headerFits
    have := h.packetFits
    rw [List.length_take]
    omega
  calc pkt.drop (4 * ihl pkt)
      = (pkt.take (totLen pkt) ++ pkt.drop (totLen pkt)).drop (4 * ihl pkt) := by
        rw [List.take_append_drop]
    _ = (pkt.take (totLen pkt)).drop (4 * ihl pkt) ++ pkt.drop (totLen pkt) :=
        List.drop_append_of_le_length hle
    _ = tcp ++ (rest ++ pkt.drop (totLen pkt)) := by rw [hseg, List.append_assoc]

def ActiveHasSocket (q xsks : UInt32 → Option UInt32) : Prop :=
  ∀ k v, q k = some v → v ≠ 0 → (xsks k).isSome = true

/-- The driver sees `XDP_ABORTED` from `xdp_sock_prog`. -/
def XdpDrops (e : ByteOrder) (q xsks : UInt32 → Option UInt32) (frame : List UInt8)
    (index : UInt32) : Prop :=
  ∃ exit, xdpSockProg e q frame index = some exit ∧ exit.verdict xsks = XdpAction.aborted.code

def PerfDrops (e : ByteOrder) (rb : RingBuffer) (frame : List UInt8) : Prop :=
  ∃ o, perfEventTest e rb frame = some o ∧ o.action = .aborted

theorem xdpDrops_iff (e : ByteOrder) {q xsks : UInt32 → Option UInt32} (frame : List UInt8)
    (index : UInt32) (hmaps : ActiveHasSocket q xsks) :
    XdpDrops e q xsks frame index ↔ (q index).isSome = true ∧ Malformed frame := by
  cases hq : q index with
  | none =>
    refine ⟨?_, fun h => absurd h.1 (by decide)⟩
    rintro ⟨exit, hexit, hv⟩
    simp only [xdpSockProg, hq, Option.some.injEq] at hexit
    subst exit
    change XdpAction.pass.code = XdpAction.aborted.code at hv
    exact absurd hv (by decide)
  | some v =>
    rcases xdpSockProg_cases e frame hq with ⟨hm, hp⟩ | ⟨hv, hto, hp⟩ | ⟨hnm, _, hp⟩
    · exact ⟨fun _ => ⟨rfl, hm⟩, fun _ => ⟨_, hp, rfl⟩⟩
    · refine ⟨?_, fun h => absurd h.2 hto.not_malformed⟩
      rintro ⟨exit, hexit, hverdict⟩
      rw [hp, Option.some.injEq] at hexit
      subst exit
      rw [XdpExit.verdict, bpfRedirectMap, if_pos (hmaps index v hq hv)] at hverdict
      exact absurd hverdict (by decide)
    · refine ⟨?_, fun h => absurd h.2 hnm⟩
      rintro ⟨exit, hexit, hverdict⟩
      rw [hp, Option.some.injEq] at hexit
      subst exit
      change XdpAction.pass.code = XdpAction.aborted.code at hverdict
      exact absurd hverdict (by decide)

theorem perfDrops_iff (e : ByteOrder) {rb : RingBuffer} (frame : List UInt8)
    (hroom : rb.HasRoom helloRecord) : PerfDrops e rb frame ↔ Malformed frame := by
  rcases perfEventTest_cases e rb frame with ⟨hm, hp⟩ | ⟨hto, printk, hp⟩ | ⟨hnm, _, printk, hp⟩
  · exact ⟨fun _ => hm, fun _ => ⟨_, hp, rfl⟩⟩
  · refine ⟨?_, fun h => absurd h hto.not_malformed⟩
    rintro ⟨o, ho, ha⟩
    rw [hp, if_pos hroom] at ho
    cases ho
    cases ha
  · refine ⟨?_, fun h => absurd h hnm⟩
    rintro ⟨o, ho, ha⟩
    rw [hp] at ho
    cases ho
    cases ha

/-- Exactly which valid IPv4 packets the programs drop: those that announce TCP without a
complete TCP header after the IPv4 header, all of them fragments. -/
theorem valid_ipv4_passes_iff (e : ByteOrder) (q xsks : UInt32 → Option UInt32) (rb : RingBuffer)
    {frame eth tags pkt : List UInt8} (index : UInt32) (hvalid : ValidIpv4 frame eth tags pkt)
    (hmaps : ActiveHasSocket q xsks) (hroom : rb.HasRoom helloRecord) :
    (¬ XdpDrops e q xsks frame index ↔ q index = none ∨ TcpShapeIfAnnounced pkt) ∧
    (¬ PerfDrops e rb frame ↔ TcpShapeIfAnnounced pkt) ∧
    (fragOffset pkt = 0 ∧ moreFragments pkt = 0 → TcpShapeIfAnnounced pkt) := by
  refine ⟨?_, ?_, fun h => hvalid.unfragmented h.1 h.2⟩
  · rw [xdpDrops_iff e frame index hmaps, hvalid.malformed_iff, not_and, not_not]
    cases q index <;> simp
  · rw [perfDrops_iff e frame hroom, hvalid.malformed_iff, not_not]

def lastFragment : List UInt8 :=
  [0, 0, 0, 0, 0, 0, 0, 0, 0, 0, 0, 0, 0x08, 0x00,
   0x45, 0, 0, 28, 0, 0, 0, 1, 64, 6, 0, 0, 10, 0, 0, 1, 10, 0, 0, 2,
   1, 2, 3, 4, 5, 6, 7, 8]

theorem lastFragment_valid :
    ValidIpv4 lastFragment (lastFragment.take 14) [] (lastFragment.drop 14) where
  link := ⟨by decide, by decide, TagChain.nil _ _⟩
  versionFour := by decide
  ihlMin := by decide
  headerFits := by decide
  packetFits := by decide
  wholeTcp := fun _ hoff => absurd hoff (by decide)

theorem valid_ipv4_passes_iff_lastFragment :
    ¬ PerfDrops .little ⟨262144, []⟩ lastFragment ↔
      TcpShapeIfAnnounced (lastFragment.drop 14) :=
  (valid_ipv4_passes_iff .little (fun _ => some 1) (fun _ => some 3) ⟨262144, []⟩ 0 lastFragment_valid (fun _ _ _ _ => rfl) (by decide)).2.1

theorem valid_ipv4_fragment_dropped :
    ¬ ∀ (e : ByteOrder) (q xsks : UInt32 → Option UInt32) (rb : RingBuffer)
      (frame eth tags pkt : List UInt8) (index : UInt32), ValidIpv4 frame eth tags pkt →
        ActiveHasSocket q xsks → rb.HasRoom helloRecord →
        ¬ XdpDrops e q xsks frame index ∧ ¬ PerfDrops e rb frame := by
  intro h
  have hpass := h .little (fun _ => some 1) (fun _ => some 3) ⟨262144, []⟩ lastFragment _ _ _ 0
    lastFragment_valid (fun _ _ _ _ => rfl) (by decide)
  exact hpass.1 ⟨.action .aborted, by decide, rfl⟩

end Defrizer.FilterPrograms
