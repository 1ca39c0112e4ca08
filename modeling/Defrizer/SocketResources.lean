import Defrizer.XdpSocket

/-!
# What a socket takes from the kernel

`NewSocket` and `Close` with the system calls they make and the descriptors and mappings these
open and close. The handle of a socket has its descriptor and its UMEM; of the mappings of the
rings it has only pointers into them, so `Close` has nothing to unmap them with.
-/
namespace Defrizer.SocketResources
open KernelMaps XdpSocket

@[ext] structure Ledger where
  descriptors : ℕ
  mappings : ℕ
  deriving DecidableEq, Repr

/-- The system calls of `NewSocket` and of `Close`; each is made at most once. -/
inductive Syscall
  | socket
  | mmapUmem
  | setUmemReg
  | setFillRing
  | setCompletionRing
  | setRxRing
  | setTxRing
  | getOffsets
  | mmapFillRing
  | mmapCompletionRing
  | mmapRxRing
  | mmapTxRing
  | bind
  | close
  | munmap
  deriving DecidableEq, Repr

def Syscall.effect (l : Ledger) : Syscall → Ledger
  | .socket => { l with descriptors := l.descriptors + 1 }
  | .mmapUmem | .mmapFillRing | .mmapCompletionRing | .mmapRxRing | .mmapTxRing =>
    { l with mappings := l.mappings + 1 }
  | .close => { l with descriptors := l.descriptors - 1 }
  | .munmap => { l with mappings := l.mappings - 1 }
  | _ => l

/-- Which calls fail, and how. A call that fails has no effect. -/
abbrev Faults := Syscall → Option Errno

def noFaults : Faults := fun _ => none

structure SocketError where
  context : String
  cause : Option Errno
  deriving DecidableEq, Repr

/-- The `Socket` of the source: its descriptor, whether it has a UMEM, and all the rest. -/
structure Handle (o : SocketOptions) where
  fd : ℤ
  umem : Bool
  socket : Socket o

variable {o : SocketOptions}

/-- `Close`; the slices of the rings, which it clears as well, are not used any more. -/
def Handle.close (xsk : Handle o) (fails : Faults) (l : Ledger) :
    Option SocketError × Handle o × Ledger :=
  let (err₁, l) :=
    if xsk.fd ≠ -1 then
      match fails .close with
      | some e => (some ⟨"failed to close XDP socket: ", some e⟩, l)
      | none => (none, Syscall.close.effect l)
    else (none, l)
  let (err₂, l) :=
    if xsk.umem then
      match fails .munmap with
      | some e => (some ⟨"failed to unmap the UMEM: ", some e⟩, l)
      | none => (none, Syscall.munmap.effect l)
    else (none, l)
  (err₁.orElse fun _ => err₂, { xsk with fd := -1, umem := false }, l)

/-- What `NewSocket` returns, and the ledger then; nothing if it panics. -/
abbrev Opened (o : SocketOptions) := Option (Except SocketError (Handle o) × Ledger)

/-- A call of `NewSocket`: on an error the socket is closed and the error is returned. -/
def orClose (fails : Faults) (xsk : Handle o) (c : Syscall) (context : String)
    (rest : Ledger → Opened o) (l : Ledger) : Opened o :=
  match fails c with
  | some e => some (.error ⟨context, some e⟩, (xsk.close fails l).2.2)
  | none => rest (c.effect l)

def makeSlices (xsk : Handle o) (l : Ledger) : Opened o :=
  if o.NumFrames < 0 ∨ o.CompletionRingNumDescs < 0 ∨ o.FillRingNumDescs < 0 then none
  else some (.ok xsk, l)

/-- The end of `NewSocket`, which maps the rings and binds the socket. -/
def mapRings (fails : Faults) (xsk : Handle o) : Ledger → Opened o :=
  orClose fails xsk .getOffsets "unix.Syscall6 getsockopt XDP_MMAP_OFFSETS failed: " <|
  orClose fails xsk .mmapFillRing "syscall.Mmap XDP_UMEM_PGOFF_FILL_RING failed: " <|
  orClose fails xsk .mmapCompletionRing "syscall.Mmap XDP_UMEM_PGOFF_COMPLETION_RING failed: " <|
  (if o.RxRingNumDescs > 0 then
    orClose fails xsk .mmapRxRing "syscall.Mmap XDP_PGOFF_RX_RING failed: " else id) <|
  (if o.TxRingNumDescs > 0 then
    orClose fails xsk .mmapTxRing "syscall.Mmap XDP_PGOFF_TX_RING failed: " else id) <|
  orClose fails xsk .bind "syscall.Bind SockaddrXDP failed: " <|
  makeSlices xsk

/-- `NewSocket` once there is a UMEM: it is registered and the sizes of the rings are set. -/
def setRings (fails : Faults) (xsk : Handle o) : Ledger → Opened o :=
  let rxRing := o.RxRingNumDescs > 0
  let txRing := o.TxRingNumDescs > 0
  orClose fails xsk .setUmemReg "unix.SetsockoptUint64 XDP_UMEM_REG failed: " <|
  orClose fails xsk .setFillRing "unix.SetsockoptUint64 XDP_UMEM_FILL_RING failed: " <|
  orClose fails xsk .setCompletionRing "unix.SetsockoptUint64 XDP_UMEM_COMPLETION_RING failed: " <|
  (if rxRing then
    orClose fails xsk .setRxRing "unix.SetsockoptUint64 XDP_RX_RING failed: " else id) <|
  (if txRing then
    orClose fails xsk .setTxRing "unix.SetsockoptUint64 XDP_TX_RING failed: " else id) <|
  if ¬ (rxRing ∨ txRing) then fun l =>
    some (.error ⟨"RxRingNumDescs and TxRingNumDescs cannot both be set to zero", none⟩, l)
  else mapRings fails xsk

/-- `NewSocket`, for which the kernel chooses the descriptor `fd`. -/
def newSocket (o : SocketOptions) (fd : ℕ) (fails : Faults) (l : Ledger) : Opened o :=
  match fails .socket with
  | some e => some (.error ⟨"syscall.Socket failed: ", some e⟩, l)
  | none =>
    let xsk : Handle o := ⟨fd, false, XdpSocket.newSocket o⟩
    orClose fails xsk .mmapUmem "syscall.Mmap failed: " (setRings fails { xsk with umem := true })
      (Syscall.socket.effect l)

/-- After an error the ledger is as before. After a success it is once the socket is closed,
whatever its rings hold by then. -/
def Balanced (before : Ledger) : Except SocketError (Handle o) × Ledger → Prop
  | (.error _, l) => l = before
  | (.ok xsk, l) => ∀ s : Socket o, (Handle.close { xsk with socket := s } noFaults l).2.2 = before

/-- What is returned from `l` on is balanced exactly if `P`. -/
def Decides (before : Ledger) (k : Ledger → Opened o) (l : Ledger) (P : Prop) : Prop :=
  ∀ r, k l = some r → (Balanced before r ↔ P)

section Calls
variable {fails : Faults} {xsk : Handle o} {c : Syscall} {context : String}
  {rest : Ledger → Opened o} {before l : Ledger}

lemma orClose_decides {P : Prop} (hrest : Decides before rest (c.effect l) P) :
    Decides before (orClose fails xsk c context rest) l
      ((fails c).isSome ∧ (xsk.close fails l).2.2 = before ∨ fails c = none ∧ P) := by
  intro r h
  unfold orClose at h
  cases hc : fails c with
  | none =>
    rw [hc] at h
    simpa using hrest r h
  | some e =>
    rw [hc] at h
    cases h
    simp [Balanced]

lemma close_mappings (xsk : Handle o) (fails : Faults) (l : Ledger) :
    l.mappings ≤ (xsk.close fails l).2.2.mappings + 1 := by
  unfold Handle.close
  cases fails .close <;> cases fails .munmap <;> simp only [Syscall.effect] <;> split_ifs <;>
    simp only [] <;> omega

/-- Once two mappings more than before are live, no return is balanced. -/
def Leaks (before : Ledger) (k : Ledger → Opened o) : Prop :=
  ∀ l : Ledger, before.mappings + 2 ≤ l.mappings → Decides before k l False

lemma orClose_leaks (hrest : Leaks before rest) (hc : ∀ l, l.mappings ≤ (c.effect l).mappings) :
    Leaks before (orClose fails xsk c context rest) := by
  intro l hl r h
  have hclose := close_mappings xsk fails l
  have hne : (xsk.close fails l).2.2 ≠ before := by
    intro heq
    rw [heq] at hclose
    omega
  have hdecides := orClose_decides (hrest _ (hl.trans (hc l))) r h
  simpa [hne] using hdecides

lemma makeSlices_leaks (xsk : Handle o) : Leaks before (makeSlices xsk) := by
  intro l hl r h
  unfold makeSlices at h
  split_ifs at h
  cases h
  rw [iff_false]
  intro hbalanced
  have hclose := close_mappings { xsk with socket := XdpSocket.newSocket o } noFaults l
  rw [hbalanced (XdpSocket.newSocket o)] at hclose
  omega

def FailsIn (fails : Faults) (cs : List Syscall) : Prop := ∃ c ∈ cs, (fails c).isSome

lemma failsIn_cons (fails : Faults) (c : Syscall) (cs : List Syscall) :
    FailsIn fails (c :: cs) ↔ (fails c).isSome ∨ FailsIn fails cs := by
  simp [FailsIn]

lemma orClose_early {cs : List Syscall} {Clean : Prop} (heffect : c.effect l = l)
    (hclose : (xsk.close fails l).2.2 = before ↔ Clean)
    (hrest : Decides before rest l (FailsIn fails cs ∧ Clean)) :
    Decides before (orClose fails xsk c context rest) l (FailsIn fails (c :: cs) ∧ Clean) := by
  intro r h
  have hdecides := orClose_decides (P := FailsIn fails cs ∧ Clean)
    (by rw [heffect]; exact hrest) r h
  rw [hdecides, failsIn_cons, hclose]
  cases fails c <;> simp

lemma orClose_last {Clean : Prop} (hl : before.mappings + 2 ≤ (c.effect l).mappings)
    (hclose : (xsk.close fails l).2.2 = before ↔ Clean) (hrest : Leaks before rest) :
    Decides before (orClose fails xsk c context rest) l (FailsIn fails [c] ∧ Clean) := by
  intro r h
  have hdecides := orClose_decides (hrest _ hl) r h
  rw [hdecides, failsIn_cons, hclose]
  simp [FailsIn]

lemma mapRings_decides {Clean : Prop} (hclose : (xsk.close fails l).2.2 = before ↔ Clean)
    (hl : l.mappings = before.mappings + 1) :
    Decides before (mapRings fails xsk) l
      (FailsIn fails [.getOffsets, .mmapFillRing] ∧ Clean) := by
  have hmap : before.mappings + 2 ≤ (Syscall.mmapFillRing.effect l).mappings := by
    simp [Syscall.effect, hl]
  refine orClose_early rfl hclose (orClose_last hmap hclose ?_)
  have hbind : Leaks before (orClose fails xsk .bind "syscall.Bind SockaddrXDP failed: "
      (makeSlices xsk)) := orClose_leaks (makeSlices_leaks xsk) fun _ => le_rfl
  apply orClose_leaks _ fun l => Nat.le_succ _
  split_ifs
  · exact orClose_leaks (orClose_leaks hbind fun l => Nat.le_succ _) fun l => Nat.le_succ _
  · exact orClose_leaks hbind fun l => Nat.le_succ _
  · exact orClose_leaks hbind fun l => Nat.le_succ _
  · exact hbind

end Calls

def earlyCalls (o : SocketOptions) : List Syscall :=
  [.setUmemReg, .setFillRing, .setCompletionRing] ++
    (if o.RxRingNumDescs > 0 then [Syscall.setRxRing] else []) ++
    (if o.TxRingNumDescs > 0 then [Syscall.setTxRing] else []) ++
    (if o.RxRingNumDescs > 0 ∨ o.TxRingNumDescs > 0 then [Syscall.getOffsets, .mmapFillRing] else [])

/-- `NewSocket` fails at a call, before it has mapped a ring, and its cleanup succeeds. -/
def FailsCleanly (o : SocketOptions) (fails : Faults) : Prop :=
  (fails .socket).isSome ∨ fails .close = none ∧
    ((fails .mmapUmem).isSome ∨ FailsIn fails (earlyCalls o) ∧ fails .munmap = none)

section Handles
variable (fd : ℕ) (s : Socket o) (fails : Faults) (before : Ledger)

lemma close_opened :
    (Handle.close ⟨fd, false, s⟩ fails (Syscall.socket.effect before)).2.2 = before ↔
      fails .close = none := by
  have hfd : (fd : ℤ) ≠ -1 := by omega
  unfold Handle.close
  cases fails .close <;> simp [hfd, Syscall.effect, Ledger.ext_iff]

lemma close_mapped :
    (Handle.close ⟨fd, true, s⟩ fails
      (Syscall.mmapUmem.effect (Syscall.socket.effect before))).2.2 = before ↔
      fails .close = none ∧ fails .munmap = none := by
  have hfd : (fd : ℤ) ≠ -1 := by omega
  unfold Handle.close
  cases fails .close <;> cases fails .munmap <;> simp [hfd, Syscall.effect, Ledger.ext_iff]

lemma setRings_decides :
    Decides before (setRings fails ⟨fd, true, s⟩)
      (Syscall.mmapUmem.effect (Syscall.socket.effect before))
      (FailsIn fails (earlyCalls o) ∧ fails .close = none ∧ fails .munmap = none) := by
  have hclose := close_mapped fd s fails before
  have hrings := mapRings_decides hclose rfl
  have hneither : Decides before (fun l : Ledger => some ((.error
      ⟨"RxRingNumDescs and TxRingNumDescs cannot both be set to zero", none⟩ :
        Except SocketError (Handle o)), l))
      (Syscall.mmapUmem.effect (Syscall.socket.effect before))
      (FailsIn fails [] ∧ fails .close = none ∧ fails .munmap = none) := by
    intro r h
    cases h
    simp [Balanced, FailsIn, Syscall.effect, Ledger.ext_iff]
  unfold setRings earlyCalls
  refine orClose_early rfl hclose (orClose_early rfl hclose (orClose_early rfl hclose ?_))
  by_cases hrx : o.RxRingNumDescs > 0 <;> by_cases htx : o.TxRingNumDescs > 0
  · simp only [hrx, htx, if_true, or_self, not_true, if_false]
    exact orClose_early rfl hclose (orClose_early rfl hclose hrings)
  · simp only [hrx, htx, if_true, or_false, not_true, if_false]
    exact orClose_early rfl hclose hrings
  · simp only [hrx, htx, if_true, or_true, not_true, if_false]
    exact orClose_early rfl hclose hrings
  · simp only [hrx, htx, or_self, not_false_eq_true, if_true, if_false]
    exact hneither

end Handles

/-- `NewSocket` is balanced exactly if it fails cleanly; a socket that it returns is not. -/
theorem newSocket_balanced_iff {fd : ℕ} {fails : Faults} {l : Ledger}
    {r : Except SocketError (Handle o) × Ledger} (h : newSocket o fd fails l = some r) :
    Balanced l r ↔ FailsCleanly o fails := by
  unfold newSocket at h
  cases hsocket : fails .socket with
  | some e =>
    rw [hsocket] at h
    cases h
    simp [Balanced, FailsCleanly, hsocket]
  | none =>
    rw [hsocket] at h
    have hrings := setRings_decides fd (XdpSocket.newSocket o) fails l
    rw [orClose_decides hrings r h, close_opened, FailsCleanly, hsocket]
    cases fails .mmapUmem <;> simp [and_left_comm]

def failsAt (c : Syscall) : Faults := fun c' => if c' = c then some .EINVAL else none

theorem newSocket_balanced_iff_registration :
    (∃ r, newSocket defaultSocketOptions 3 (failsAt .setUmemReg) ⟨3, 0⟩ = some r ∧
      Balanced ⟨3, 0⟩ r) ∧
    ∃ r, newSocket defaultSocketOptions 3 (failsAt .bind) ⟨3, 0⟩ = some r ∧
      ¬ Balanced ⟨3, 0⟩ r := by
  obtain ⟨r, hr⟩ : ∃ r, newSocket defaultSocketOptions 3 (failsAt .setUmemReg) ⟨3, 0⟩ = some r :=
    ⟨_, rfl⟩
  obtain ⟨r', hr'⟩ : ∃ r, newSocket defaultSocketOptions 3 (failsAt .bind) ⟨3, 0⟩ = some r :=
    ⟨_, rfl⟩
  refine ⟨⟨r, hr, (newSocket_balanced_iff hr).mpr ?_⟩, r', hr', fun hbalanced => ?_⟩
  · exact .inr ⟨rfl, .inr ⟨⟨.setUmemReg, by decide, rfl⟩, rfl⟩⟩
  · have hfails := (newSocket_balanced_iff hr').mp hbalanced
    revert hfails
    unfold FailsCleanly FailsIn
    decide

/-- With the default options and no failure at all the four rings stay mapped after `Close`. -/
theorem newSocket_leaks_rings :
    ∃ xsk : Handle defaultSocketOptions,
      newSocket defaultSocketOptions 3 noFaults ⟨3, 0⟩ = some (.ok xsk, ⟨4, 5⟩) ∧
        (xsk.close noFaults ⟨4, 5⟩).2.2 = ⟨3, 4⟩ ∧ ¬ Balanced ⟨3, 0⟩ (.ok xsk, ⟨4, 5⟩) := by
  refine ⟨⟨3, true, XdpSocket.newSocket _⟩, rfl, rfl, fun hbalanced => ?_⟩
  have hclosed := hbalanced (XdpSocket.newSocket _)
  exact absurd hclosed (by decide)

end Defrizer.SocketResources
