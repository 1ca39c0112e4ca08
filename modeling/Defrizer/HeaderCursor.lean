import Defrizer.ByteFields

/-!
# The header cursor and its parsers

Translation of `tcp_syn_kern.h`, which both XDP programs include. Pointers are offsets
from `data`, and `data_end` is the length of the frame. A dereference is a checked load,
so `none` stands for a read outside the frame or through an unset pointer.
-/
namespace Defrizer.HeaderCursor
open ByteFields

def sizeofEthhdr : ℕ := 14
def sizeofVlanHdr : ℕ := 4
def sizeofIphdr : ℕ := 20
def sizeofIpv6hdr : ℕ := 40
def sizeofTcphdr : ℕ := 20

def ethPIp : UInt16 := 0x0800
def ethPIpv6 : UInt16 := 0x86DD
def ethP8021Q : UInt16 := 0x8100
def ethP8021AD : UInt16 := 0x88A8

def vlanMaxDepth : ℕ := 2
def vlanVidMask : UInt16 := 0x0fff

def bpfHtons (e : ByteOrder) (x : UInt16) : UInt16 := netOrder16 e x
def bpfNtohs (e : ByteOrder) (x : UInt16) : UInt16 := netOrder16 e x

/-- Header cursor to keep track of current parsing position. -/
structure HdrCursor where
  pos : ℕ
  deriving DecidableEq, Repr

/-- What a parser leaves behind: its return value, the cursor, and the caller's header
pointer, which is `none` while it is unset. -/
structure Parsed where
  ret : ℤ
  nh : HdrCursor
  hdr : Option ℕ
  deriving DecidableEq, Repr

/-- Struct for collecting VLANs after parsing via `parseEthhdrVlan`. -/
structure CollectVlans where
  id : List UInt16
  deriving DecidableEq, Repr

def protoIsVlan (e : ByteOrder) (hProto : UInt16) : Bool :=
  hProto == bpfHtons e ethP8021Q || hProto == bpfHtons e ethP8021AD

/-- The VLAN identifier stored by iteration `i`, when the caller collects them. -/
def collectVlan (e : ByteOrder) (frame : List UInt8) (vlh i : ℕ) :
    Option CollectVlans → Option (Option CollectVlans)
  | none => some none
  | some vlans => do
      let tci ← load16 e frame vlh
      return some { vlans with id := vlans.id.set i (bpfNtohs e tci &&& vlanVidMask) }

/-- The unrolled loop of `parseEthhdrVlan` with `n` iterations left: the position after
the last tag it skipped, the EtherType there in network order, and the collected ids. -/
def vlanLoop (e : ByteOrder) (frame : List UInt8) :
    ℕ → ℕ → UInt16 → Option CollectVlans → Option (ℕ × UInt16 × Option CollectVlans)
  | 0, vlh, hProto, vlans => some (vlh, hProto, vlans)
  | n + 1, vlh, hProto, vlans =>
      if !protoIsVlan e hProto then some (vlh, hProto, vlans)
      else if vlh + sizeofVlanHdr > frame.length then some (vlh, hProto, vlans)
      else do
        let encapsulated ← load16 e frame (vlh + 2)
        let vlans ← collectVlan e frame vlh (vlanMaxDepth - (n + 1)) vlans
        vlanLoop e frame n (vlh + sizeofVlanHdr) encapsulated vlans

def parseEthhdrVlan (e : ByteOrder) (frame : List UInt8) (nh : HdrCursor) (ethhdr : Option ℕ)
    (vlans : Option CollectVlans) : Option (Parsed × Option CollectVlans) :=
  let eth := nh.pos
  let hdrsize := sizeofEthhdr
  if nh.pos + hdrsize > frame.length then some (⟨-1, nh, ethhdr⟩, vlans)
  else do
    let hProto ← load16 e frame (eth + 12)
    let (vlh, hProto, vlans) ← vlanLoop e frame vlanMaxDepth (nh.pos + hdrsize) hProto vlans
    -- the EtherType is returned in network byte order
    return (⟨hProto.toNat, ⟨vlh⟩, some eth⟩, vlans)

def parseEthhdr (e : ByteOrder) (frame : List UInt8) (nh : HdrCursor) (ethhdr : Option ℕ) :
    Option Parsed :=
  (parseEthhdrVlan e frame nh ethhdr none).map Prod.fst

def parseIphdr (frame : List UInt8) (nh : HdrCursor) (iphdr : Option ℕ) : Option Parsed := do
  let iph := nh.pos
  if iph + sizeofIphdr > frame.length then return ⟨-1, nh, iphdr⟩
  -- `ihl` is the low nibble of the first byte on both byte orders
  let hdrsize := (← load8 frame iph).toNat % 16 * 4
  if hdrsize < sizeofIphdr then return ⟨-1, nh, iphdr⟩
  if nh.pos + hdrsize > frame.length then return ⟨-1, nh, iphdr⟩
  let protocol ← load8 frame (iph + 9)
  return ⟨protocol.toNat, ⟨nh.pos + hdrsize⟩, some iph⟩

def parseIp6hdr (frame : List UInt8) (nh : HdrCursor) (ip6hdr : Option ℕ) : Option Parsed := do
  let ip6h := nh.pos
  if ip6h + sizeofIpv6hdr > frame.length then return ⟨-1, nh, ip6hdr⟩
  let nexthdr ← load8 frame (ip6h + 6)
  return ⟨nexthdr.toNat, ⟨ip6h + sizeofIpv6hdr⟩, some ip6h⟩

def parseTcphdr (frame : List UInt8) (nh : HdrCursor) (tcphdr : Option ℕ) : Option Parsed := do
  let h := nh.pos
  if h + sizeofTcphdr > frame.length then return ⟨-1, nh, tcphdr⟩
  -- `doff` is the high nibble of byte 12 on both byte orders
  let len := (← load8 frame (h + 12)).toNat / 16 * 4
  if len < sizeofTcphdr then return ⟨-1, nh, tcphdr⟩
  if nh.pos + len > frame.length then return ⟨-1, nh, tcphdr⟩
  return ⟨len, ⟨nh.pos + len⟩, some h⟩

end Defrizer.HeaderCursor
