import Defrizer.HeaderCursorSpec
import Defrizer.FilterPrograms

/-!
# What the XDP programs decide

The shared chain of parsers is matched with the frame grammar, and both programs are
classified by it: which frames trigger, which are aborted and which pass.
-/
namespace Defrizer.FilterPrograms
open ByteFields HeaderCursor KernelMaps FrameGrammar

/-- The frame is `eth ++ tags ++ ip ++ tcp ++ rest` with TCP announced and a complete TCP
header for `port`. -/
def CarriesTcpTo (port : ℕ) (frame : List UInt8) : Prop :=
  ∃ eth tags ip tcp rest p, CarriesTcp frame eth tags ip (tcp ++ rest) p ∧
    TcpHeader tcp ∧ destPort tcp = port

/-- The frame announces TCP, but no complete TCP header follows the network header. -/
def CarriesBrokenTcp (frame : List UInt8) : Prop :=
  ∃ eth tags ip segment p, CarriesTcp frame eth tags ip segment p ∧ ¬ StartsWithTcp segment

theorem parseTransport_other {frame : List UInt8} {ip : Parsed} (h : ip.ret ≠ ipprotoTcp) :
    parseTransport frame ip = some (.out .pass) := by
  rw [parseTransport, if_pos h]
  rfl

theorem parseTransport_tcp (pre segment : List UInt8) (hdr : Option ℕ) :
    (StartsWithTcp segment →
      parseTransport (pre ++ segment) ⟨ipprotoTcp, ⟨pre.length⟩, hdr⟩ =
        some (.tcp (some pre.length))) ∧
    (¬ StartsWithTcp segment →
      parseTransport (pre ++ segment) ⟨ipprotoTcp, ⟨pre.length⟩, hdr⟩ = some (.out .aborted)) := by
  constructor
  · rintro ⟨tcp, rest, rfl, htcp⟩
    have hlen : ¬ ((tcp.length : ℤ) < 0) := by omega
    rw [parseTransport, if_neg (not_not.mpr rfl), parseTcphdr_of_header pre rest none htcp]
    simp only [Option.bind_eq_bind, Option.bind_some, if_neg hlen, Option.pure_def]
  · intro hnot
    have hneg : (-1 : ℤ) < 0 := by decide
    rw [parseTransport, if_neg (not_not.mpr rfl), parseTcphdr_of_not pre none hnot]
    simp only [Option.bind_eq_bind, Option.bind_some, if_pos hneg, Option.pure_def]

theorem parseHeaders_short (e : ByteOrder) {frame : List UInt8} (h : frame.length < 14) :
    parseHeaders e frame = some (.out .aborted) := by
  have hneg : (-1 : ℤ) < 0 := by decide
  rw [parseHeaders, parseEthhdr_short e _ h]
  simp only [Option.bind_eq_bind, Option.bind_some, if_pos hneg, Option.pure_def]

theorem parseHeaders_dispatch (e : ByteOrder) {frame : List UInt8} {w : UInt16} {pos : ℕ}
    (h : parseEthhdr e frame ⟨0⟩ (some 0) = some ⟨w.toNat, ⟨pos⟩, some 0⟩) :
    parseHeaders e frame =
      if (bpfNtohs e w).toNat = etherTypeIpv4 then
        (parseIphdr frame ⟨pos⟩ none).bind (parseTransport frame)
      else if (bpfNtohs e w).toNat = etherTypeIpv6 then
        (parseIp6hdr frame ⟨pos⟩ none).bind (parseTransport frame)
      else some (.out .pass) := by
  have hneg : ¬ ((w.toNat : ℤ) < 0) := by omega
  rw [parseHeaders, h]
  simp only [Option.bind_eq_bind, Option.bind_some, if_neg hneg, Option.pure_def,
    toNat_eq_bpfHtons_iff]
  rfl

/-- On a frame that carries TCP the chain ends behind the TCP header, or aborts when there
is no complete one. -/
theorem parseHeaders_of_carries (e : ByteOrder) {frame eth tags ip segment : List UInt8} {p : ℕ}
    (h : CarriesTcp frame eth tags ip segment p) :
    (StartsWithTcp segment →
      parseHeaders e frame = some (.tcp (some (eth ++ tags ++ ip).length))) ∧
    (¬ StartsWithTcp segment → parseHeaders e frame = some (.out .aborted)) := by
  obtain ⟨w, hw, hparse⟩ := parseEthhdr_of_link e (some 0) h.link
    (etherType_ip_not_tag h.net.etherType)
  have hframe := h.frame_eq
  have hframe' : frame = (eth ++ tags) ++ (ip ++ segment) := by
    rw [h.link.split]; simp only [List.append_assoc]
  have htransport := parseTransport_tcp (eth ++ tags ++ ip) segment
    (some (eth ++ tags).length)
  rw [← hframe] at htransport
  have hchain : parseHeaders e frame =
      parseTransport frame ⟨ipprotoTcp, ⟨(eth ++ tags ++ ip).length⟩,
        some (eth ++ tags).length⟩ := by
    rw [parseHeaders_dispatch e hparse, hw]
    rcases h.net with ⟨rfl, hip, hproto⟩ | ⟨rfl, hip, hproto⟩
    · have hi := parseIphdr_of_header (eth ++ tags) segment none hip
      rw [← hframe', hproto] at hi
      rw [if_pos rfl, hi]
      rfl
    · have hi := parseIp6hdr_of_header (eth ++ tags) segment none hip
      rw [← hframe', hproto] at hi
      rw [if_neg (by decide), if_pos rfl, hi]
      rfl
  rw [hchain]
  exact htransport

lemma parseTransport_failed (frame : List UInt8) (nh : HdrCursor) (hdr : Option ℕ) :
    parseTransport frame ⟨-1, nh, hdr⟩ = some (.out .pass) := by
  have hfail : (-1 : ℤ) ≠ ipprotoTcp := by decide
  exact parseTransport_other hfail

lemma parseIphdr_not_tcp {frame pre payload : List UInt8} (hframe : frame = pre ++ payload)
    (h : ∀ ip rest, payload = ip ++ rest → Ipv4Header ip → protocol ip ≠ protocolTcp) :
    (parseIphdr frame ⟨pre.length⟩ none).bind (parseTransport frame) = some (.out .pass) := by
  subst hframe
  by_cases hip : ∃ ip rest, payload = ip ++ rest ∧ Ipv4Header ip
  · obtain ⟨ip, rest, rfl, hip⟩ := hip
    have hproto : (protocol ip : ℤ) ≠ ipprotoTcp := by
      have hnot := h ip rest rfl hip
      simp only [ipprotoTcp, protocolTcp] at hnot ⊢
      omega
    rw [parseIphdr_of_header pre rest none hip, Option.bind_some, parseTransport_other hproto]
  · rw [parseIphdr_of_not pre none hip, Option.bind_some, parseTransport_failed]

lemma parseIp6hdr_not_tcp {frame pre payload : List UInt8} (hframe : frame = pre ++ payload)
    (h : ∀ ip rest, payload = ip ++ rest → Ipv6Header ip → nextHeader ip ≠ protocolTcp) :
    (parseIp6hdr frame ⟨pre.length⟩ none).bind (parseTransport frame) = some (.out .pass) := by
  subst hframe
  by_cases hsize : payload.length < 40
  · rw [parseIp6hdr_of_short pre none hsize, Option.bind_some, parseTransport_failed]
  · have hip : Ipv6Header (payload.take 40) := by
      rw [Ipv6Header, List.length_take]; omega
    have hsplit := (List.take_append_drop 40 payload).symm
    have hproto : (nextHeader (payload.take 40) : ℤ) ≠ ipprotoTcp := by
      have hnot := h _ _ hsplit hip
      simp only [ipprotoTcp, protocolTcp] at hnot ⊢
      omega
    have hi := parseIp6hdr_of_header pre (payload.drop 40) none hip
    rw [List.take_append_drop] at hi
    rw [hi, Option.bind_some, parseTransport_other hproto]

theorem parseHeaders_of_not_carries (e : ByteOrder) {frame : List UInt8}
    (hlen : 14 ≤ frame.length)
    (h : ¬ ∃ eth tags ip segment p, CarriesTcp frame eth tags ip segment p) :
    parseHeaders e frame = some (.out .pass) := by
  obtain ⟨eth, tags, payload, w, hlink, hparse⟩ := parseEthhdr_total e (some 0) hlen
  have hframe : frame = (eth ++ tags) ++ payload := by
    rw [hlink.split, List.append_assoc]
  rw [parseHeaders_dispatch e hparse]
  by_cases h4 : (bpfNtohs e w).toNat = etherTypeIpv4
  · rw [if_pos h4]
    refine parseIphdr_not_tcp hframe fun ip rest hsplit hip hproto => ?_
    subst hsplit
    exact h ⟨eth, tags, ip, rest, _, hlink, Or.inl ⟨h4, hip, hproto⟩⟩
  rw [if_neg h4]
  by_cases h6 : (bpfNtohs e w).toNat = etherTypeIpv6
  · rw [if_pos h6]
    refine parseIp6hdr_not_tcp hframe fun ip rest hsplit hip hproto => ?_
    subst hsplit
    exact h ⟨eth, tags, ip, rest, _, hlink, Or.inr ⟨h6, hip, hproto⟩⟩
  · rw [if_neg h6]

/-- The chain of parsers has exactly three outcomes, told apart by the grammar. -/
theorem parseHeaders_cases (e : ByteOrder) (frame : List UInt8) :
    ((frame.length < 14 ∨ CarriesBrokenTcp frame) ∧
      parseHeaders e frame = some (.out .aborted)) ∨
    (∃ eth tags ip tcp rest p, CarriesTcp frame eth tags ip (tcp ++ rest) p ∧ TcpHeader tcp ∧
      parseHeaders e frame = some (.tcp (some (eth ++ tags ++ ip).length))) ∨
    (14 ≤ frame.length ∧ (¬ ∃ eth tags ip segment p, CarriesTcp frame eth tags ip segment p) ∧
      parseHeaders e frame = some (.out .pass)) := by
  by_cases hlen : frame.length < 14
  · exact Or.inl ⟨Or.inl hlen, parseHeaders_short e hlen⟩
  rw [not_lt] at hlen
  by_cases h : ∃ eth tags ip segment p, CarriesTcp frame eth tags ip segment p
  · obtain ⟨eth, tags, ip, segment, p, hc⟩ := h
    obtain ⟨htcp, hbroken⟩ := parseHeaders_of_carries e hc
    by_cases hs : StartsWithTcp segment
    · have hparse := htcp hs
      obtain ⟨tcp, rest, rfl, hheader⟩ := hs
      exact Or.inr (Or.inl ⟨eth, tags, ip, tcp, rest, p, hc, hheader, hparse⟩)
    · exact Or.inl ⟨Or.inr ⟨eth, tags, ip, segment, p, hc, hs⟩, hbroken hs⟩
  · exact Or.inr (Or.inr ⟨hlen, h, parseHeaders_of_not_carries e hlen h⟩)

theorem tcpDest_of_header (e : ByteOrder) (pre rest : List UInt8) {tcp : List UInt8} (h : TcpHeader tcp) :
    ∃ dest, tcpDest e (pre ++ (tcp ++ rest)) (some pre.length) = some dest ∧
      (dest = forwardedPort ↔ destPort tcp = 7777) := by
  have hsize : 20 ≤ tcp.length := by have := h.1; have := h.2; omega
  obtain ⟨w, hw, hval⟩ := load16_append e pre (tcp ++ rest) (i := 2)
    (by rw [List.length_append]; omega)
  rw [wordAt_append_left rest (by omega)] at hval
  refine ⟨bpfNtohs e w, ?_, ?_⟩
  · simp only [tcpDest, Option.bind_eq_bind, Option.bind_some, hw, Option.pure_def]
  · rw [destPort, ← hval, ← UInt16.toNat_inj]
    rfl

/-- A frame carries TCP to a port in only one way, so its port is the one that is seen. -/
theorem carriesTcpTo_iff (port : ℕ) {frame eth tags ip tcp rest : List UInt8} {p : ℕ}
    (h : CarriesTcp frame eth tags ip (tcp ++ rest) p) (ht : TcpHeader tcp) :
    CarriesTcpTo port frame ↔ destPort tcp = port := by
  constructor
  · rintro ⟨eth', tags', ip', tcp', rest', p', h', ht', hport⟩
    obtain ⟨_, _, _, hseg, _⟩ := h.unique h'
    obtain ⟨rfl, _⟩ := ht.unique ht' hseg
    exact hport
  · intro hport
    exact ⟨eth, tags, ip, tcp, rest, p, h, ht, hport⟩

theorem not_broken_of_header {frame eth tags ip tcp rest : List UInt8} {p : ℕ}
    (h : CarriesTcp frame eth tags ip (tcp ++ rest) p) (ht : TcpHeader tcp) :
    ¬ CarriesBrokenTcp frame := by
  rintro ⟨eth', tags', ip', segment', p', h', hnot⟩
  obtain ⟨_, _, _, hseg, _⟩ := h.unique h'
  exact hnot ⟨tcp, rest, hseg.symm, ht⟩

theorem CarriesTcpTo.carries {port : ℕ} {frame : List UInt8} (h : CarriesTcpTo port frame) :
    ∃ eth tags ip segment p, CarriesTcp frame eth tags ip segment p := by
  obtain ⟨eth, tags, ip, tcp, rest, p, hc, _⟩ := h
  exact ⟨eth, tags, ip, tcp ++ rest, p, hc⟩

theorem CarriesBrokenTcp.carries {frame : List UInt8} (h : CarriesBrokenTcp frame) :
    ∃ eth tags ip segment p, CarriesTcp frame eth tags ip segment p := by
  obtain ⟨eth, tags, ip, segment, p, hc, _⟩ := h
  exact ⟨eth, tags, ip, segment, p, hc⟩

/-- The frames on which the chain of parsers fails. -/
def Malformed (frame : List UInt8) : Prop := frame.length < 14 ∨ CarriesBrokenTcp frame

theorem CarriesTcpTo.not_malformed {port : ℕ} {frame : List UInt8}
    (h : CarriesTcpTo port frame) : ¬ Malformed frame := by
  obtain ⟨eth, tags, ip, tcp, rest, p, hc, ht, _⟩ := h
  rintro (hshort | hbroken)
  · have := hc.length_le
    omega
  · exact not_broken_of_header hc ht hbroken

/-- The three outcomes of `xdpSockProg` on a queue that is a key of the configuration map. -/
theorem xdpSockProg_cases (e : ByteOrder) {q : UInt32 → Option UInt32} (frame : List UInt8)
    {index v : UInt32} (hq : q index = some v) :
    (Malformed frame ∧ xdpSockProg e q frame index = some (.action .aborted)) ∨
    (v ≠ 0 ∧ CarriesTcpTo 7777 frame ∧
      xdpSockProg e q frame index = some (.redirectMap index 0)) ∨
    (¬ Malformed frame ∧ ¬ (v ≠ 0 ∧ CarriesTcpTo 7777 frame) ∧
      xdpSockProg e q frame index = some (.action .pass)) := by
  rcases parseHeaders_cases e frame with ⟨hm, hp⟩ | ⟨eth, tags, ip, tcp, rest, p, hc, ht, hp⟩ |
    ⟨hlen, hno, hp⟩
  · exact Or.inl ⟨hm, by simp only [xdpSockProg, hq, hp]; rfl⟩
  · obtain ⟨dest, hdest, hiff⟩ := tcpDest_of_header e (eth ++ tags ++ ip) rest ht
    rw [← hc.frame_eq] at hdest
    have hto := carriesTcpTo_iff 7777 hc ht
    have hnm : ¬ Malformed frame := CarriesTcpTo.not_malformed ⟨_, _, _, _, _, _, hc, ht, rfl⟩
    by_cases hport : destPort tcp = 7777
    · by_cases hv : v = 0
      · refine Or.inr (Or.inr ⟨hnm, fun h => h.1 hv, ?_⟩)
        simp only [xdpSockProg, hq, hp, Option.bind_eq_bind, Option.bind_some, hdest,
          if_pos (hiff.mpr hport), if_neg (not_not.mpr hv), Option.pure_def]
      · refine Or.inr (Or.inl ⟨hv, hto.mpr hport, ?_⟩)
        simp only [xdpSockProg, hq, hp, Option.bind_eq_bind, Option.bind_some, hdest,
          if_pos (hiff.mpr hport), if_pos hv, Option.pure_def]
    · refine Or.inr (Or.inr ⟨hnm, fun h => hport (hto.mp h.2), ?_⟩)
      simp only [xdpSockProg, hq, hp, Option.bind_eq_bind, Option.bind_some, hdest,
        if_neg (mt hiff.mp hport), Option.pure_def]
  · refine Or.inr (Or.inr ⟨?_, fun h => hno h.2.carries, by simp only [xdpSockProg, hq, hp]; rfl⟩)
    rintro (hshort | hbroken)
    · omega
    · exact hno hbroken.carries

theorem xdpSockProg_redirects_iff (e : ByteOrder) {q : UInt32 → Option UInt32}
    (frame : List UInt8) {index v : UInt32} (hq : q index = some v) :
    xdpSockProg e q frame index = some (.redirectMap index 0) ↔
      v ≠ 0 ∧ CarriesTcpTo 7777 frame := by
  rcases xdpSockProg_cases e frame hq with ⟨hm, hp⟩ | ⟨hv, hto, hp⟩ | ⟨_, hno, hp⟩
  · exact ⟨fun h => (by rw [hp] at h; cases h), fun h => absurd hm h.2.not_malformed⟩
  · exact ⟨fun _ => ⟨hv, hto⟩, fun _ => hp⟩
  · exact ⟨fun h => (by rw [hp] at h; cases h), fun h => absurd h hno⟩

theorem xdpSockProg_aborts_iff (e : ByteOrder) {q : UInt32 → Option UInt32}
    (frame : List UInt8) {index v : UInt32} (hq : q index = some v) :
    xdpSockProg e q frame index = some (.action .aborted) ↔ Malformed frame := by
  rcases xdpSockProg_cases e frame hq with ⟨hm, hp⟩ | ⟨_, hto, hp⟩ | ⟨hnm, _, hp⟩
  · exact ⟨fun _ => hm, fun _ => hp⟩
  · exact ⟨fun h => (by rw [hp] at h; cases h), fun h => absurd h hto.not_malformed⟩
  · exact ⟨fun h => (by rw [hp] at h; cases h), fun h => absurd h hnm⟩

theorem xdpSockProg_passes_iff (e : ByteOrder) {q : UInt32 → Option UInt32}
    (frame : List UInt8) {index v : UInt32} (hq : q index = some v) :
    xdpSockProg e q frame index = some (.action .pass) ↔
      ¬ Malformed frame ∧ ¬ (v ≠ 0 ∧ CarriesTcpTo 7777 frame) := by
  rcases xdpSockProg_cases e frame hq with ⟨hm, hp⟩ | ⟨hv, hto, hp⟩ | ⟨hnm, hno, hp⟩
  · exact ⟨fun h => (by rw [hp] at h; cases h), fun h => absurd hm h.1⟩
  · exact ⟨fun h => (by rw [hp] at h; cases h), fun h => absurd ⟨hv, hto⟩ h.2⟩
  · exact ⟨fun _ => ⟨hnm, hno⟩, fun _ => hp⟩

/-- `xdp_sock_prog` classifies every frame by its header grammar: a queue that is no key
passes; otherwise the frame is redirected, aborted or passed exactly as the grammar says. -/
theorem xdpSockProg_classifies (e : ByteOrder) (qidconf : ArrayMap maxSocks)
    (frame : List UInt8) (index : UInt32) :
    match KernelMap.lookup qidconf index with
    | none => xdpSockProg e (KernelMap.lookup qidconf) frame index = some (.action .pass)
    | some v =>
      (xdpSockProg e (KernelMap.lookup qidconf) frame index = some (.redirectMap index 0) ↔
        v ≠ 0 ∧ CarriesTcpTo 7777 frame) ∧
      (xdpSockProg e (KernelMap.lookup qidconf) frame index = some (.action .aborted) ↔
        frame.length < 14 ∨ CarriesBrokenTcp frame) ∧
      (xdpSockProg e (KernelMap.lookup qidconf) frame index = some (.action .pass) ↔
        ¬ (frame.length < 14 ∨ CarriesBrokenTcp frame) ∧
          ¬ (v ≠ 0 ∧ CarriesTcpTo 7777 frame)) := by
  cases hq : KernelMap.lookup qidconf index with
  | none => simp only [xdpSockProg, hq]
  | some v =>
    exact ⟨xdpSockProg_redirects_iff e frame hq, xdpSockProg_aborts_iff e frame hq,
      xdpSockProg_passes_iff e frame hq⟩

end Defrizer.FilterPrograms
