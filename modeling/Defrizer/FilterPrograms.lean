import Defrizer.HeaderCursor
import Defrizer.KernelMaps

/-!
# The XDP programs

Translation of the two `tcp_syn_kern.c` files: `xdp_sock_prog` of `dumpframes`, which
redirects frames to an AF_XDP socket, and `perf_event_test` of `perf_event`, which emits an
event. Both run the same chain of parsers before they look at the destination port.
-/
namespace Defrizer.FilterPrograms
open ByteFields HeaderCursor KernelMaps

inductive XdpAction
  | aborted
  | drop
  | pass
  | tx
  | redirect
  deriving DecidableEq, Repr

def XdpAction.code : XdpAction → UInt32
  | .aborted => 0
  | .drop => 1
  | .pass => 2
  | .tx => 3
  | .redirect => 4

/-- `bpf_redirect_map` on an XSK map: an empty slot yields the lower two bits of `flags`. -/
def bpfRedirectMap (xsksMap : UInt32 → Option UInt32) (key : UInt32) (flags : UInt64) : UInt32 :=
  if (xsksMap key).isSome then XdpAction.redirect.code else UInt32.ofNat (flags.toNat % 4)

def ipprotoTcp : ℤ := 6
def maxSocks : ℕ := 64

/-- Where the chain of parsers leaves the program: at `out` with an action, or behind the
TCP header, with the header pointer. -/
inductive ChainResult
  | out (action : XdpAction)
  | tcp (tcphdr : Option ℕ)
  deriving DecidableEq, Repr

/-- The part of `parseHeaders` after the network header. -/
def parseTransport (frame : List UInt8) (ip : Parsed) : Option ChainResult := do
  if ip.ret ≠ ipprotoTcp then return .out .pass
  let tcp ← parseTcphdr frame ip.nh none
  if tcp.ret < 0 then return .out .aborted
  return .tcp tcp.hdr

/-- The lines both programs share, from `parse_ethhdr` to `parse_tcphdr`. -/
def parseHeaders (e : ByteOrder) (frame : List UInt8) : Option ChainResult := do
  let eth ← parseEthhdr e frame ⟨0⟩ (some 0)
  if eth.ret < 0 then return .out .aborted
  if eth.ret = (bpfHtons e ethPIp).toNat then
    parseTransport frame (← parseIphdr frame eth.nh none)
  else if eth.ret = (bpfHtons e ethPIpv6).toNat then
    parseTransport frame (← parseIp6hdr frame eth.nh none)
  else return .out .pass

def tcpDest (e : ByteOrder) (frame : List UInt8) (tcphdr : Option ℕ) : Option UInt16 := do
  return bpfNtohs e (← load16 e frame ((← tcphdr) + 2))

def forwardedPort : UInt16 := 7777

/-- How a run of `xdpSockProg` ends: with an action of its own, or in the call
`bpf_redirect_map(&xsks_map, key, flags)`. -/
inductive XdpExit
  | action (a : XdpAction)
  | redirectMap (key : UInt32) (flags : UInt64)
  deriving DecidableEq, Repr

def xdpSockProg (e : ByteOrder) (qidconfMap : UInt32 → Option UInt32) (frame : List UInt8)
    (rxQueueIndex : UInt32) : Option XdpExit :=
  let index := rxQueueIndex
  match qidconfMap index with
  | none => some (.action .pass)
  | some qidconf => do
    match ← parseHeaders e frame with
    | .out a => return .action a
    | .tcp tcphdr =>
      let dest ← tcpDest e frame tcphdr
      if dest = forwardedPort then
        if qidconf ≠ 0 then return .redirectMap index 0
      return .action .pass

def XdpExit.verdict (xsksMap : UInt32 → Option UInt32) : XdpExit → UInt32
  | .action a => a.code
  | .redirectMap key flags => bpfRedirectMap xsksMap key flags

/-- The event record: `"hello!"` with its terminating zero. -/
def helloRecord : List UInt8 := [104, 101, 108, 108, 111, 33, 0]

/-- What a run of `perfEventTest` does: its action, the event buffer afterwards, the ports
and sequence number it prints, and what `bpf_ringbuf_output` returned if it was called. -/
structure PerfOutcome where
  action : XdpAction
  events : RingBuffer
  printk : Option (UInt16 × UInt16 × UInt32)
  ret : Option ℤ
  deriving DecidableEq, Repr

def perfEventTest (e : ByteOrder) (events : RingBuffer) (frame : List UInt8) :
    Option PerfOutcome := do
  match ← parseHeaders e frame with
  | .out a => return ⟨a, events, none, none⟩
  | .tcp tcphdr =>
    let h ← tcphdr
    let source ← load16 e frame h
    let dest ← tcpDest e frame tcphdr
    let seq ← load32 e frame (h + 4)
    let printk := some (bpfNtohs e source, dest, seq)
    if dest = forwardedPort then
      let (ret, events) := bpfRingbufOutput events helloRecord
      if ret ≠ 0 then return ⟨.aborted, events, printk, some ret⟩
      return ⟨.pass, events, printk, some ret⟩
    return ⟨.pass, events, printk, none⟩

end Defrizer.FilterPrograms
