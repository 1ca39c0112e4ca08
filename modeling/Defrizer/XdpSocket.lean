import Defrizer.RingPortRun
import Defrizer.KernelMaps

/-!
# The XDP socket

The operations of `xdp.go` on the four rings, the two free lists and the two counters. The
options of a socket never change after `NewSocket`; they are the parameter of its type. The
Rx and the Tx ring do not exist when their size is not positive.
-/
namespace Defrizer.XdpSocket
open InterleavedProgram WrappingRing RingPort KernelMaps

structure Desc where
  Addr : UInt64
  Len : UInt32
  Options : UInt32
  deriving DecidableEq, Repr, Inhabited

structure SocketOptions where
  NumFrames : ℤ
  FrameSize : ℤ
  FillRingNumDescs : ℤ
  CompletionRingNumDescs : ℤ
  RxRingNumDescs : ℤ
  TxRingNumDescs : ℤ
  deriving DecidableEq, Repr

def defaultSocketOptions : SocketOptions where
  NumFrames := 128
  FrameSize := 2048
  FillRingNumDescs := 64
  CompletionRingNumDescs := 64
  RxRingNumDescs := 64
  TxRingNumDescs := 64

structure Socket (o : SocketOptions) where
  fillRing : Ring UInt64 o.FillRingNumDescs.toNat
  completionRing : Ring UInt64 o.CompletionRingNumDescs.toNat
  rxRing : Option (Ring Desc o.RxRingNumDescs.toNat)
  txRing : Option (Ring Desc o.TxRingNumDescs.toNat)
  freeRXDescs : Vector Bool o.NumFrames.toNat
  freeTXDescs : Vector Bool o.NumFrames.toNat
  numFilled : ℤ
  numTransmitted : ℤ

variable (o : SocketOptions)

/-- The state in which `NewSocket` leaves a socket. -/
def newSocket : Socket o where
  fillRing := ⟨0, 0, Vector.replicate _ 0⟩
  completionRing := ⟨0, 0, Vector.replicate _ 0⟩
  rxRing := if o.RxRingNumDescs > 0 then some ⟨0, 0, Vector.replicate _ default⟩ else none
  txRing := if o.TxRingNumDescs > 0 then some ⟨0, 0, Vector.replicate _ default⟩ else none
  freeRXDescs := Vector.replicate _ true
  freeTXDescs := Vector.replicate _ true
  numFilled := 0
  numTransmitted := 0

def fillPort : Port (Socket o) UInt64 o.FillRingNumDescs.toNat where
  get s := some s.fillRing
  set r s := { s with fillRing := r }
  get_set _ _ := rfl
  set_set _ _ _ := rfl
  set_get h := by cases h; rfl

def completionPort : Port (Socket o) UInt64 o.CompletionRingNumDescs.toNat where
  get s := some s.completionRing
  set r s := { s with completionRing := r }
  get_set _ _ := rfl
  set_set _ _ _ := rfl
  set_get h := by cases h; rfl

def rxPort : Port (Socket o) Desc o.RxRingNumDescs.toNat where
  get s := s.rxRing
  set r s := { s with rxRing := some r }
  get_set _ _ := rfl
  set_set _ _ _ := rfl
  set_get h := by rw [← h]

def txPort : Port (Socket o) Desc o.TxRingNumDescs.toNat where
  get s := s.txRing
  set r s := { s with txRing := some r }
  get_set _ _ := rfl
  set_set _ _ _ := rfl
  set_get h := by rw [← h]

def frameIndex (addr : UInt64) : ℕ := (addr / UInt64.ofInt o.FrameSize).toNat

/-- The frame of the address is one of the UMEM, so that the free lists have an entry for it. -/
def onFrame (addr : UInt64) : Bool := frameIndex o addr < o.NumFrames.toNat

variable {o}

def Socket.setFreeRX (b : Bool) (addr : UInt64) (s : Socket o) : Socket o :=
  { s with freeRXDescs := s.freeRXDescs.setIfInBounds (frameIndex o addr) b }

def Socket.setFreeTX (b : Bool) (addr : UInt64) (s : Socket o) : Socket o :=
  { s with freeTXDescs := s.freeTXDescs.setIfInBounds (frameIndex o addr) b }

def Socket.addFilled (k : ℤ) (s : Socket o) : Socket o := { s with numFilled := s.numFilled + k }

def Socket.addTransmitted (k : ℤ) (s : Socket o) : Socket o :=
  { s with numTransmitted := s.numTransmitted + k }

variable (o)

def numFreeFillSlots : Prog (Socket o) ℤ := numFreeSlots (fillPort o) o.FillRingNumDescs

def numFreeTxSlots : Prog (Socket o) ℤ := numFreeSlots (txPort o) o.TxRingNumDescs

def numReceived : Prog (Socket o) ℤ := numAvailable (rxPort o) o.RxRingNumDescs

def numCompleted : Prog (Socket o) ℤ := numAvailable (completionPort o) o.CompletionRingNumDescs

/-- `Fill`: begins with `NumFreeFillSlots`. -/
def fill (descs : List Desc) : Prog (Socket o) ℤ :=
  submit (fillPort o) o.FillRingNumDescs Desc.Addr (fun d => onFrame o d.Addr)
    (fun d => Socket.setFreeRX false d.Addr) Socket.addFilled descs

def receive (num : ℤ) : Prog (Socket o) (List Desc) := do
  let numAvailable ← numReceived o
  let num := if num > numAvailable then numAvailable else num
  collect (rxPort o) o.RxRingNumDescs (fun d => onFrame o d.Addr)
    (fun d => Socket.setFreeRX true d.Addr) (fun descs => Socket.addFilled (-descs.length)) num

/-- The loop around `sendto`: the calls return the errors of the list and then succeed. An
error that the loop does not know is a panic. -/
def sendto {σ : Type} : List Errno → Prog σ Unit
  | [] => .ret ()
  | .EINTR :: errs => sendto errs
  | .EAGAIN :: _ => .ret ()
  | .EBUSY :: _ => .ret ()
  | _ :: _ => fetch fun _ => none

lemma sendto_cases (errs : List Errno) : (∀ σ : Type, (sendto errs : Prog σ Unit) = .ret ()) ∨
    ∀ σ : Type, (sendto errs : Prog σ Unit) = fetch fun _ => none := by
  induction errs with
  | nil => exact Or.inl fun _ => rfl
  | cons e errs ih =>
    cases e with
    | EINTR => exact ih
    | EAGAIN => exact Or.inl fun _ => rfl
    | EBUSY => exact Or.inl fun _ => rfl
    | _ => exact Or.inr fun _ => rfl

/-- `Transmit` up to the loop; begins with `NumFreeTxSlots`. -/
def submitTx (descs : List Desc) : Prog (Socket o) ℤ :=
  submit (txPort o) o.TxRingNumDescs id (fun d => onFrame o d.Addr)
    (fun d => Socket.setFreeTX false d.Addr) Socket.addTransmitted descs

def transmit (descs : List Desc) (errs : List Errno) : Prog (Socket o) ℤ := do
  let numSubmitted ← submitTx o descs
  sendto errs
  return numSubmitted

def complete (n : ℤ) : Prog (Socket o) Unit := do
  let _ ← collect (completionPort o) o.CompletionRingNumDescs (onFrame o) (Socket.setFreeTX true)
    (fun _ => Socket.addTransmitted (-n)) n
  return ()

def pollIn : UInt16 := 1
def pollOut : UInt16 := 4

/-- The events `Poll` waits for. -/
def pollEvents (numFilled numTransmitted : ℤ) : UInt16 :=
  (if numFilled > 0 then pollIn else 0) ||| (if numTransmitted > 0 then pollOut else 0)

lemma pollEvents_eq_zero_iff (numFilled numTransmitted : ℤ) :
    pollEvents numFilled numTransmitted = 0 ↔ numFilled ≤ 0 ∧ numTransmitted ≤ 0 := by
  rw [← not_lt, ← not_lt]
  by_cases hfilled : 0 < numFilled <;> by_cases htransmitted : 0 < numTransmitted <;>
    simp [pollEvents, hfilled, htransmitted, pollIn, pollOut]

/-- The loop around `poll`: the calls return the errors of the list and then succeed. -/
def pollLoop : List Errno → Option Errno
  | [] => none
  | .EINTR :: errs => pollLoop errs
  | e :: _ => some e

/-- The end of `Poll`, which has seen `received` entries on the Rx ring. -/
def pollComplete (received : ℤ) : Prog (Socket o) (ℤ × ℤ × Option Errno) := do
  let completed ← numCompleted o
  if completed > 0 then do
    complete o completed
    return (received, completed, none)
  else return (received, completed, none)

def poll (errs : List Errno) : Prog (Socket o) (ℤ × ℤ × Option Errno) := do
  let events ← fetch fun s => some (pollEvents s.numFilled s.numTransmitted)
  if events = 0 then return (0, 0, none)
  else match pollLoop errs with
    | some e => return (0, 0, some e)
    | none => do
      let received ← numReceived o
      pollComplete o received

/-- The counters of `Stats`; what the kernel adds to them is not part of the model. -/
structure Stats where
  Filled : UInt64
  Received : UInt64
  Transmitted : UInt64
  Completed : UInt64
  deriving DecidableEq, Repr

/-- `Stats`, with the result of its `getsockopt`. Only two of the four rings are checked. -/
def stats (errno : Option Errno) : Prog (Socket o) (Stats × Option Errno) := do
  let filled ← consumer (fillPort o)
  let received ← consumer (rxPort o)
  let transmitted ← fetch fun s => some (s.txRing.elim 0 Ring.consumer)
  let completed ← consumer (completionPort o)
  return (⟨filled.toUInt64, received.toUInt64, transmitted.toUInt64, completed.toUInt64⟩, errno)

def frameDesc (i : ℕ) : Desc :=
  ⟨UInt64.ofNat i * UInt64.ofInt o.FrameSize, UInt32.ofInt o.FrameSize, 0⟩

/-- The loop of `GetDescs` over the frames that are left, with `j` descriptors found. -/
def scanFree {m : ℕ} (freeList : Vector Bool m) (n : ℤ) : List ℕ → ℤ → Option (List Desc)
  | [], _ => some []
  | i :: is, j =>
    if j < n then do
      let free ← freeList[i]?
      if free then return frameDesc o i :: (← scanFree freeList n is (j + 1))
      else scanFree freeList n is j
    else some []

/-- `GetDescs`; the capacities of the two scratch slices are the sizes of the Fill and of the
Completion ring. -/
def getDescs (n : ℤ) (rx : Bool) (s : Socket o) : Option (List Desc) :=
  let n := if n > o.FillRingNumDescs then o.FillRingNumDescs else n
  if rx then scanFree o s.freeRXDescs n (List.range' 0 o.FillRingNumDescs.toNat) 0
  else
    let n := if n > o.CompletionRingNumDescs then o.CompletionRingNumDescs else n
    scanFree o s.freeTXDescs n
      (List.range' o.FillRingNumDescs.toNat (o.NumFrames.toNat - o.FillRingNumDescs.toNat)) 0

/-- `GetFrame` on the bytes of the UMEM. -/
def getFrame {m : ℕ} (umem : Vector UInt8 m) (d : Desc) : Option (List UInt8) :=
  let low := d.Addr
  let high := d.Addr + d.Len.toUInt64
  if low ≤ high ∧ high.toNat ≤ m then some ((umem.toList.take high.toNat).drop low.toNat) else none

abbrev Umem := Vector UInt8 (o.NumFrames.toNat * o.FrameSize.toNat)

/-- The bytes of the descriptor lie in the UMEM. -/
def Desc.InUmem (d : Desc) : Prop :=
  d.Addr ≤ d.Addr + d.Len.toUInt64 ∧
    (d.Addr + d.Len.toUInt64).toNat ≤ o.NumFrames.toNat * o.FrameSize.toNat

variable {o}

/-- `GetFrame` panics exactly on a descriptor that leaves the UMEM. -/
lemma getFrame_eq_none_iff (umem : Umem o) (d : Desc) : getFrame umem d = none ↔ ¬ d.InUmem o := by
  unfold getFrame Desc.InUmem
  simp

end Defrizer.XdpSocket
