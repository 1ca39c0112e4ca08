import Mathlib

/-!
# The raw-socket client

Translation of `client/main.py`, which opens a TCP connection, sends a request and closes the
connection again, with packets it builds itself. A client is a tree: it passes packets to
`sr1` or `send` and goes on with the answer of `sr1`. What it prints is left out.
-/
namespace Defrizer.RawClient

/-- The TCP flags by the letters the client names them by. -/
inductive TcpFlag
  | F
  | S
  | R
  | P
  | A
  | U
  | E
  | C
  | N
  deriving DecidableEq, Repr

/-- The TCP layer of a packet that was received. -/
structure TcpPacket where
  seq : UInt32
  ack : UInt32
  flags : Finset TcpFlag
  payload : List UInt8

/-- What `sr1` returns: `None`, a packet without a TCP layer, or a packet with one. -/
inductive Answer
  | none
  | other
  | tcp (p : TcpPacket)

/-- `IP(dst) / TCP(..) / payload` with the fields the client sets. Its numbers are not bounded
before the packet is built. -/
structure Segment where
  dst : String
  dport : ℤ
  sport : ℤ
  flags : Finset TcpFlag
  seq : ℤ
  ack : ℤ
  options : List (ℕ × String)
  payload : String

/-- The numbers fit the fields of the TCP header. -/
def Segment.Builds (seg : Segment) : Prop :=
  (0 ≤ seg.dport ∧ seg.dport < 2 ^ 16) ∧ (0 ≤ seg.sport ∧ seg.sport < 2 ^ 16) ∧
    (0 ≤ seg.seq ∧ seg.seq < 2 ^ 32) ∧ (0 ≤ seg.ack ∧ seg.ack < 2 ^ 32)

instance (seg : Segment) : Decidable seg.Builds := inferInstanceAs (Decidable (_ ∧ _ ∧ _ ∧ _))

inductive PyError
  | typeError
  | indexError
  | structError
  deriving DecidableEq, Repr

inductive Client (α : Type) : Type
  | ret (a : α)
  | raise (err : PyError)
  | sr1 (seg : Segment) (next : Answer → Client α)
  | send (seg : Segment) (next : Client α)

def Client.bind {α β : Type} : Client α → (α → Client β) → Client β
  | .ret a, f => f a
  | .raise err, _ => .raise err
  | .sr1 seg next, f => .sr1 seg fun a => (next a).bind f
  | .send seg next, f => .send seg (next.bind f)

instance : Monad Client where
  pure := .ret
  bind := .bind

inductive Outcome (α : Type)
  | returned (a : α)
  | raised (err : PyError)
  | waits

/-- The packets a client passes to `sr1` and `send`, and how it ends. A packet that does not
build raises an error; after the last answer `sr1` waits. -/
def Client.run {α : Type} : Client α → List Answer → List Segment × Outcome α
  | .ret a, _ => ([], .returned a)
  | .raise err, _ => ([], .raised err)
  | .send seg next, answers =>
    if seg.Builds then
      let (segs, outcome) := next.run answers
      (seg :: segs, outcome)
    else ([seg], .raised .structError)
  | .sr1 seg next, answers =>
    if seg.Builds then
      match answers with
      | [] => ([seg], .waits)
      | a :: answers =>
        let (segs, outcome) := (next a).run answers
        (seg :: segs, outcome)
    else ([seg], .raised .structError)

def sr1 (seg : Segment) : Client Answer := .sr1 seg .ret

def send (seg : Segment) : Client Unit := .send seg (.ret ())

/-- `raw` builds the packet without sending it. -/
def raw (seg : Segment) : Client Unit := if seg.Builds then .ret () else .raise .structError

/-- `packet[TCP]`. -/
def tcpLayer : Answer → Client TcpPacket
  | .none => .raise .typeError
  | .other => .raise .indexError
  | .tcp p => .ret p

/-- `TCP(dport=.., sport=.., flags=.., seq=.., ack=..)` on top of `IP(dst=..)`. -/
def tcpSegment (destinationIp : String) (destinationPort sourcePort : ℤ) (flags : Finset TcpFlag)
    (seq ack : ℤ) : Segment where
  dst := destinationIp
  dport := destinationPort
  sport := sourcePort
  flags := flags
  seq := seq
  ack := ack
  options := []
  payload := ""

def sendTcpSyn (destinationIp : String) (destinationPort sourcePort : ℤ) (payload : String) :
    Client (ℤ × ℤ) := do
  let synPacket : Segment :=
    { tcpSegment destinationIp destinationPort sourcePort {.S} 0 0 with
      options := [(253, payload)] }
  raw synPacket
  let synAckResponse ← sr1 synPacket
  let tcp ← tcpLayer synAckResponse
  let acknowledgmentNumber : ℤ := tcp.seq.toNat + 1
  let sequenceNumber : ℤ := tcp.ack.toNat
  return (acknowledgmentNumber, sequenceNumber)

def httpGetRequest (destinationIp : String) (destinationPort : ℤ) (payload : String) : String :=
  "GET /function/" ++ payload ++ "?namespace=openfaas-fn HTTP/1.1\r\nHost: " ++ destinationIp ++
    ":" ++ toString destinationPort ++ "\r\n\r\n"

def sendHttpGetRequest (destinationIp : String) (destinationPort sourcePort : ℤ)
    (acknowledgmentNumber sequenceNumber : ℤ) (payload : String) : Client Unit := do
  let httpPacket : Segment :=
    { tcpSegment destinationIp destinationPort sourcePort {.A} sequenceNumber
        acknowledgmentNumber with
      payload := httpGetRequest destinationIp destinationPort payload }
  let responsePacket ← sr1 httpPacket
  let tcp ← tcpLayer responsePacket
  let acknowledgmentNumber : ℤ := tcp.seq.toNat + 1
  let sequenceNumber : ℤ := tcp.ack.toNat
  let finPacket := tcpSegment destinationIp destinationPort sourcePort {.F, .A} sequenceNumber
    acknowledgmentNumber
  let finackPacket ← sr1 finPacket
  let tcp ← tcpLayer finackPacket
  let acknowledgmentNumber : ℤ := tcp.seq.toNat + 1
  let sequenceNumber : ℤ := tcp.ack.toNat
  let lastAck := tcpSegment destinationIp destinationPort sourcePort {.A} sequenceNumber
    acknowledgmentNumber
  send lastAck

def main : Client Unit := do
  let destinationIp := "88.200.23.156"
  let destinationPort := 8080
  let sourcePort := 110
  let payload := "env"
  let (acknowledgmentNumber, sequenceNumber) ←
    sendTcpSyn destinationIp destinationPort sourcePort payload
  sendHttpGetRequest destinationIp destinationPort sourcePort acknowledgmentNumber sequenceNumber
    payload

end Defrizer.RawClient
