import Defrizer.ClientAcknowledgments
import Defrizer.FilterSoundness

/-!
# The client and the filters

What the two XDP programs make of the client. All its segments go to one port, and the one it
is run with is not the one the programs wait for.
-/
namespace Defrizer.RawClient
open ByteFields FrameGrammar FilterPrograms

/-- Whatever the answers are, every segment the client passes on has `P`. -/
def Client.Sends {α : Type} (P : Segment → Prop) : Client α → Prop
  | .ret _ => True
  | .raise _ => True
  | .sr1 seg next => P seg ∧ ∀ a, (next a).Sends P
  | .send seg next => P seg ∧ next.Sends P

section Sends
variable {α β : Type} {P : Segment → Prop}

lemma sends_bind {c : Client α} {f : α → Client β} (hc : c.Sends P) (hf : ∀ a, (f a).Sends P) :
    (c >>= f).Sends P := by
  change (c.bind f).Sends P
  induction c with
  | ret a => exact hf a
  | raise err => trivial
  | sr1 seg next ih => exact ⟨hc.1, fun a => ih a (hc.2 a)⟩
  | send seg next ih => exact ⟨hc.1, ih hc.2⟩

lemma sends_sr1 {seg : Segment} (h : P seg) : (sr1 seg).Sends P := ⟨h, fun _ => trivial⟩

lemma sends_send {seg : Segment} (h : P seg) : (send seg).Sends P := ⟨h, trivial⟩

lemma sends_raw (seg : Segment) : (raw seg).Sends P := by
  unfold raw
  split_ifs
  · trivial
  · trivial

lemma sends_tcpLayer (a : Answer) : (tcpLayer a).Sends P := by
  cases a with
  | none => trivial
  | other => trivial
  | tcp p => trivial

lemma sends_run {c : Client α} (h : c.Sends P) (answers : List Answer) :
    ∀ seg ∈ (c.run answers).1, P seg := by
  induction c generalizing answers with
  | ret a => simp [Client.run]
  | raise err => simp [Client.run]
  | send seg next ih =>
    rw [Client.run]
    split_ifs
    · exact List.forall_mem_cons.mpr ⟨h.1, ih h.2 answers⟩
    · exact List.forall_mem_singleton.mpr h.1
  | sr1 seg next ih =>
    cases answers with
    | nil =>
      rw [Client.run]
      split_ifs
      · exact List.forall_mem_singleton.mpr h.1
      · exact List.forall_mem_singleton.mpr h.1
    | cons a answers =>
      rw [Client.run]
      split_ifs
      · exact List.forall_mem_cons.mpr ⟨h.1, ih a (h.2 a) answers⟩
      · exact List.forall_mem_singleton.mpr h.1

end Sends

section Addresses
variable (destinationIp : String) (destinationPort sourcePort : ℤ) (payload : String)

/-- The segment goes to the server's address. -/
def ToServer (seg : Segment) : Prop := seg.dst = destinationIp ∧ seg.dport = destinationPort

lemma sendTcpSyn_sends : (sendTcpSyn destinationIp destinationPort sourcePort payload).Sends
    (ToServer destinationIp destinationPort) := by
  refine sends_bind (sends_raw _) fun _ => ?_
  refine sends_bind (sends_sr1 ⟨rfl, rfl⟩) fun synAckResponse => ?_
  exact sends_bind (sends_tcpLayer synAckResponse) fun _ => trivial

lemma sendHttpGetRequest_sends (acknowledgmentNumber sequenceNumber : ℤ) :
    (sendHttpGetRequest destinationIp destinationPort sourcePort acknowledgmentNumber
      sequenceNumber payload).Sends (ToServer destinationIp destinationPort) := by
  refine sends_bind (sends_sr1 ⟨rfl, rfl⟩) fun responsePacket => ?_
  refine sends_bind (sends_tcpLayer responsePacket) fun _ => ?_
  refine sends_bind (sends_sr1 ⟨rfl, rfl⟩) fun finackPacket => ?_
  refine sends_bind (sends_tcpLayer finackPacket) fun _ => ?_
  exact sends_send ⟨rfl, rfl⟩

lemma connection_sends : (connection destinationIp destinationPort sourcePort payload).Sends
    (ToServer destinationIp destinationPort) :=
  sends_bind (sendTcpSyn_sends destinationIp destinationPort sourcePort payload) fun _ =>
    sendHttpGetRequest_sends destinationIp destinationPort sourcePort payload _ _

end Addresses

/-- The frame carries the segment: it has a complete TCP header with its port. -/
def Carries (frame : List UInt8) (seg : Segment) : Prop :=
  ∃ eth tags ip tcp rest p, CarriesTcp frame eth tags ip (tcp ++ rest) p ∧ TcpHeader tcp ∧
    (destPort tcp : ℤ) = seg.dport

lemma Carries.carriesTcpTo_iff {frame : List UInt8} {seg : Segment} (h : Carries frame seg)
    (port : ℕ) : CarriesTcpTo port frame ↔ seg.dport = port := by
  obtain ⟨eth, tags, ip, tcp, rest, p, hcarries, hheader, hport⟩ := h
  rw [FilterPrograms.carriesTcpTo_iff port hcarries hheader, ← hport, Nat.cast_inj]

lemma Carries.not_malformed {frame : List UInt8} {seg : Segment} (h : Carries frame seg) :
    ¬ Malformed frame := by
  obtain ⟨eth, tags, ip, tcp, rest, p, hcarries, hheader, _⟩ := h
  exact CarriesTcpTo.not_malformed ⟨eth, tags, ip, tcp, rest, p, hcarries, hheader, rfl⟩

/-- Whatever the client is answered, the programs notice none of its segments: a frame that
carries one is passed by both of them, on every queue, and leaves no event. -/
theorem client_unnoticed {answers : List Answer} {seg : Segment} {frame : List UInt8}
    (sent : seg ∈ (main.run answers).1) (carried : Carries frame seg) (e : ByteOrder)
    (qidconfMap : UInt32 → Option UInt32) (rxQueueIndex : UInt32) (events : KernelMaps.RingBuffer) :
    xdpSockProg e qidconfMap frame rxQueueIndex = some (.action .pass) ∧
      ∃ printk, perfEventTest e events frame = some ⟨.pass, events, printk, none⟩ := by
  have hport : seg.dport = 8080 := by
    rw [main_eq] at sent
    exact (sends_run (connection_sends "88.200.23.156" 8080 110 "env") answers seg sent).2
  have hno : ¬ CarriesTcpTo 7777 frame := by
    rw [carried.carriesTcpTo_iff, hport]
    norm_num
  have hnm := carried.not_malformed
  constructor
  · cases hqueue : qidconfMap rxQueueIndex with
    | none => simp [xdpSockProg, hqueue]
    | some v =>
      rcases xdpSockProg_cases e frame hqueue with ⟨hm, _⟩ | ⟨_, hto, _⟩ | ⟨_, _, hpass⟩
      · exact absurd hm hnm
      · exact absurd hto hno
      · exact hpass
  · rcases perfEventTest_cases e events frame with ⟨hm, _⟩ | ⟨hto, _⟩ | ⟨_, _, hpass⟩
    · exact absurd hm hnm
    · exact absurd hto hno
    · exact hpass

/-- The first segment of the client in a frame, without its option. -/
def clientFrame : List UInt8 :=
  [0, 0, 0, 0, 0, 0, 0, 0, 0, 0, 0, 0, 0x08, 0x00,
   0x45, 0, 0, 40, 0, 1, 0, 0, 64, 6, 0, 0, 10, 0, 0, 1, 88, 200, 23, 156,
   0, 110, 0x1F, 0x90, 0, 0, 0, 0, 0, 0, 0, 0, 0x50, 2, 0x20, 0, 0, 0, 0, 0]

theorem client_unnoticed_syn :
    xdpSockProg .little (fun _ => some 1) clientFrame 0 = some (.action .pass) := by
  have hsent : synSegment "88.200.23.156" 8080 110 "env" ∈ (main.run []).1 := by
    rw [main_eq, connection_eq _ _ _ _ (by norm_num) (by norm_num), run_sr1]
    exact List.mem_cons_self
  have hcarried : Carries clientFrame (synSegment "88.200.23.156" 8080 110 "env") := by
    refine ⟨clientFrame.take 14, [], (clientFrame.drop 14).take 20, clientFrame.drop 34, [], _,
      ⟨⟨by decide, by decide, TagChain.nil _ _⟩, Or.inl ⟨rfl, ?_, by decide⟩⟩, ?_, by decide⟩
    · exact ⟨by decide, by decide⟩
    · exact ⟨by decide, by decide⟩
  exact (client_unnoticed hsent hcarried .little (fun _ => some 1) 0 ⟨256 * 1024, []⟩).1

end Defrizer.RawClient
