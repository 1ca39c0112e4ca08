import Defrizer.RawClient

/-!
# What the client acknowledges

A packet takes up one sequence number for each byte of its payload and for each of its flags SYN
and FIN, and the number that acknowledges it comes after these, modulo `2 ^ 32`. The client
acknowledges one number whatever it received, and does not reduce the sum.
-/
namespace Defrizer.RawClient

/-- How many sequence numbers a packet takes up. -/
def TcpPacket.seqLength (p : TcpPacket) : ℕ :=
  p.payload.length + (if .S ∈ p.flags then 1 else 0) + (if .F ∈ p.flags then 1 else 0)

/-- The segment acknowledges exactly the packet, and continues where the packet expects it. -/
structure Acknowledges (p : TcpPacket) (seg : Segment) : Prop where
  ack : seg.ack = ((p.seq.toNat + p.seqLength) % 2 ^ 32 : ℕ)
  fits : seg.ack < 2 ^ 32
  seq : seg.seq = p.ack.toNat

/-- The packet takes up one sequence number, which is not the last one before they start again
at 0. -/
structure TcpPacket.TakesOne (p : TcpPacket) : Prop where
  length : p.seqLength % 2 ^ 32 = 1
  last : p.seq.toNat + 1 < 2 ^ 32

/-- The first packets with a TCP layer among the answers, at most `n`. -/
def received : ℕ → List Answer → List TcpPacket
  | n + 1, .tcp p :: answers => p :: received n answers
  | _, _ => []

/-- The segments reply to the answers in their order. -/
def RepliesTo (answers : List Answer) (segs : List Segment) : Prop :=
  ∀ (i : ℕ) (p : TcpPacket) (seg : Segment), answers[i]? = some (.tcp p) →
    segs[i]? = some seg → Acknowledges p seg

section Replies
variable {p : TcpPacket} {seg : Segment} {answers : List Answer} {segs : List Segment}

lemma repliesTo_nil : RepliesTo answers [] := by
  intro i p seg _ hseg
  simp at hseg

lemma repliesTo_cons : RepliesTo (.tcp p :: answers) (seg :: segs) ↔
    Acknowledges p seg ∧ RepliesTo answers segs := by
  constructor
  · intro h
    exact ⟨h 0 p seg rfl rfl, fun i q seg' hq hseg => h (i + 1) q seg' hq hseg⟩
  · rintro ⟨hfirst, hrest⟩ i q seg' hq hseg
    cases i with
    | zero =>
      cases hq
      cases hseg
      exact hfirst
    | succ i => exact hrest i q seg' hq hseg

/-- What the client replies with: one number is acknowledged. -/
structure Replies (p : TcpPacket) (seg : Segment) : Prop where
  ack : seg.ack = p.seq.toNat + 1
  seq : seg.seq = p.ack.toNat

lemma Replies.acknowledges_iff (h : Replies p seg) : Acknowledges p seg ↔ p.TakesOne := by
  have hseq := p.seq.toNat_lt
  constructor
  · intro hacks
    have hack := hacks.ack
    have hfits := hacks.fits
    rw [h.ack] at hack hfits
    exact ⟨by omega, by omega⟩
  · intro hone
    have hlength := hone.length
    have hlast := hone.last
    refine ⟨?_, ?_, h.seq⟩
    · rw [h.ack]
      omega
    · rw [h.ack]
      omega

/-- Only ports that fit keep a reply from being built, apart from the acknowledgment. -/
lemma Replies.builds_iff (h : Replies p seg) (hdport : 0 ≤ seg.dport ∧ seg.dport < 2 ^ 16)
    (hsport : 0 ≤ seg.sport ∧ seg.sport < 2 ^ 16) :
    seg.Builds ↔ p.seq.toNat + 1 < 2 ^ 32 := by
  have hack := p.ack.toNat_lt
  simp only [Segment.Builds, hdport, hsport, h.ack, h.seq, and_self, true_and]
  omega

end Replies

lemma run_sr1 (seg : Segment) (next : Answer → Client Unit) (answers : List Answer) :
    ((sr1 seg >>= next).run answers).1 = seg :: if seg.Builds then
      match answers with
      | [] => []
      | a :: answers => ((next a).run answers).1
    else [] := by
  change ((Client.sr1 seg next).run answers).1 = _
  cases answers with
  | nil =>
    rw [Client.run]
    split_ifs <;> rfl
  | cons a answers =>
    rw [Client.run]
    split_ifs <;> rfl

lemma run_tcpLayer {a : Answer} (ha : ∀ p, a ≠ .tcp p) (next : TcpPacket → Client Unit)
    (answers : List Answer) : ((tcpLayer a >>= next).run answers).1 = [] := by
  cases a with
  | none => rfl
  | other => rfl
  | tcp p => exact absurd rfl (ha p)

lemma received_of_ne {a : Answer} (ha : ∀ p, a ≠ .tcp p) (n : ℕ) (answers : List Answer) :
    received n (a :: answers) = [] := by
  cases n with
  | zero => rfl
  | succ n =>
    cases a with
    | none => rfl
    | other => rfl
    | tcp p => exact absurd rfl (ha p)

/-- The client goes on after `p` with replies that are right exactly if `p` and the next packets
it receives, at most `n`, take up one sequence number. -/
def Continues (n : ℕ) (p : TcpPacket) (c : Client Unit) : Prop :=
  ∀ answers, RepliesTo (.tcp p :: answers) (c.run answers).1 ↔
    ∀ q ∈ p :: received n answers, q.TakesOne

section Continues
variable {n : ℕ} {p : TcpPacket} {seg : Segment}

lemma continues_send (h : Replies p seg) : Continues 0 p (send seg) := by
  intro answers
  have hrun : ((send seg).run answers).1 = [seg] := by
    rw [send, Client.run]
    split_ifs <;> rfl
  rw [hrun, repliesTo_cons, h.acknowledges_iff]
  simp [received, repliesTo_nil]

/-- A reply that builds is followed by those to the packets received from then on. -/
lemma repliesTo_sr1 {next : TcpPacket → Client Unit} (hbuilds : seg.Builds)
    (hnext : ∀ q, Continues n q (next q)) (answers : List Answer) :
    ∃ segs, ((sr1 seg >>= fun a => tcpLayer a >>= next).run answers).1 = seg :: segs ∧
      (RepliesTo answers segs ↔ ∀ q ∈ received (n + 1) answers, q.TakesOne) := by
  rw [run_sr1, if_pos hbuilds]
  refine ⟨_, rfl, ?_⟩
  cases answers with
  | nil => simp [received, repliesTo_nil]
  | cons a answers =>
    by_cases ha : ∃ q, a = .tcp q
    · obtain ⟨q, rfl⟩ := ha
      exact hnext q answers
    · rw [not_exists] at ha
      simp [run_tcpLayer ha, received_of_ne ha, repliesTo_nil]

lemma continues_sr1 {next : TcpPacket → Client Unit} (h : Replies p seg)
    (hdport : 0 ≤ seg.dport ∧ seg.dport < 2 ^ 16) (hsport : 0 ≤ seg.sport ∧ seg.sport < 2 ^ 16)
    (hnext : ∀ q, Continues n q (next q)) :
    Continues (n + 1) p (sr1 seg >>= fun a => tcpLayer a >>= next) := by
  intro answers
  have hbuilds := h.builds_iff hdport hsport
  rw [List.forall_mem_cons]
  by_cases hlast : p.seq.toNat + 1 < 2 ^ 32
  · obtain ⟨segs, hrun, hiff⟩ := repliesTo_sr1 (hbuilds.mpr hlast) hnext answers
    rw [hrun, repliesTo_cons, h.acknowledges_iff, hiff]
  · rw [run_sr1, if_neg (mt hbuilds.mp hlast), repliesTo_cons, h.acknowledges_iff]
    have hnot : ¬ p.TakesOne := fun hone => hlast hone.last
    simp [hnot]

end Continues

/-- Every segment after the first replies to the answer before it. -/
def AcknowledgesAll (answers : List Answer) (segs : List Segment) : Prop :=
  ∀ (i : ℕ) (p : TcpPacket) (seg : Segment), answers[i]? = some (.tcp p) →
    segs[i + 1]? = some seg → Acknowledges p seg

section Connection
variable (destinationIp : String) (destinationPort sourcePort : ℤ) (payload : String)

def synSegment : Segment :=
  { tcpSegment destinationIp destinationPort sourcePort {.S} 0 0 with options := [(253, payload)] }

/-- The two halves of a connection. -/
def connection : Client Unit :=
  sendTcpSyn destinationIp destinationPort sourcePort payload >>= fun r =>
    sendHttpGetRequest destinationIp destinationPort sourcePort r.1 r.2 payload

variable (hdport : 0 ≤ destinationPort ∧ destinationPort < 2 ^ 16)
  (hsport : 0 ≤ sourcePort ∧ sourcePort < 2 ^ 16)
include hdport hsport

lemma synSegment_builds : (synSegment destinationIp destinationPort sourcePort payload).Builds := by
  exact ⟨hdport, hsport, by simp [synSegment, tcpSegment]⟩

lemma connection_eq : connection destinationIp destinationPort sourcePort payload =
    sr1 (synSegment destinationIp destinationPort sourcePort payload) >>= fun a =>
      tcpLayer a >>= fun p => sendHttpGetRequest destinationIp destinationPort sourcePort
        (p.seq.toNat + 1) p.ack.toNat payload := by
  have hraw : raw (synSegment destinationIp destinationPort sourcePort payload) = .ret () :=
    if_pos (synSegment_builds destinationIp destinationPort sourcePort payload hdport hsport)
  have hsyn : sendTcpSyn destinationIp destinationPort sourcePort payload =
      raw (synSegment destinationIp destinationPort sourcePort payload) >>= fun _ =>
        sr1 (synSegment destinationIp destinationPort sourcePort payload) >>= fun a =>
          tcpLayer a >>= fun p => .ret ((p.seq.toNat : ℤ) + 1, (p.ack.toNat : ℤ)) := rfl
  rw [connection, hsyn, hraw]
  change Client.sr1 _ _ = Client.sr1 _ _
  congr 1
  funext a
  cases a <;> rfl

lemma sendHttpGetRequest_continues (p : TcpPacket) :
    Continues 2 p (sendHttpGetRequest destinationIp destinationPort sourcePort
      (p.seq.toNat + 1) p.ack.toNat payload) := by
  refine continues_sr1 ⟨rfl, rfl⟩ hdport hsport fun q => ?_
  refine continues_sr1 ⟨rfl, rfl⟩ hdport hsport fun q' => ?_
  exact continues_send ⟨rfl, rfl⟩

lemma connection_acknowledges_iff (answers : List Answer) :
    AcknowledgesAll answers
      ((connection destinationIp destinationPort sourcePort payload).run answers).1 ↔
      ∀ p ∈ received 3 answers, p.TakesOne := by
  have hbuilds := synSegment_builds destinationIp destinationPort sourcePort payload hdport hsport
  obtain ⟨segs, hrun, hiff⟩ := repliesTo_sr1 hbuilds
    (sendHttpGetRequest_continues destinationIp destinationPort sourcePort payload hdport hsport)
    answers
  rw [connection_eq destinationIp destinationPort sourcePort payload hdport hsport, hrun]
  exact hiff

end Connection

lemma main_eq : main = connection "88.200.23.156" 8080 110 "env" := rfl

/-- The client acknowledges exactly what it received if and only if each of the packets it
receives takes up one sequence number and that is not the last one. -/
theorem client_acknowledges_iff (answers : List Answer) :
    AcknowledgesAll answers (main.run answers).1 ↔ ∀ p ∈ received 3 answers, p.TakesOne := by
  rw [main_eq]
  exact connection_acknowledges_iff "88.200.23.156" 8080 110 "env" (by norm_num) (by norm_num)
    answers

def synAck (seq : UInt32) : TcpPacket := ⟨seq, 1, {.S, .A}, []⟩

/-- An answer of 100 bytes to the request, which is 78 bytes long. -/
def httpAnswer : TcpPacket := ⟨1001, 79, {.P, .A}, List.replicate 100 0⟩

/-- Of an answer of 100 bytes one byte is acknowledged, and after a SYN with the last sequence
number the acknowledgment does not fit. -/
theorem client_acknowledges_wrong :
    ¬ AcknowledgesAll [.tcp (synAck 1000), .tcp httpAnswer]
        (main.run [.tcp (synAck 1000), .tcp httpAnswer]).1 ∧
      ¬ AcknowledgesAll [.tcp (synAck 4294967295)]
        (main.run [.tcp (synAck 4294967295)]).1 := by
  have hiff := connection_acknowledges_iff "88.200.23.156" 8080 110 "env" (by norm_num)
    (by norm_num)
  rw [main_eq]
  constructor
  · intro h
    have hone := (hiff _).mp h httpAnswer (by simp [received])
    exact absurd hone.length (by simp [TcpPacket.seqLength, httpAnswer])
  · intro h
    have hone := (hiff _).mp h (synAck 4294967295) (by simp [received])
    exact absurd hone.last (by simp [synAck])

end Defrizer.RawClient
