import Defrizer.SocketQueues
import Defrizer.DescriptorScan
import Defrizer.GhostOutline

/-!
# Who owns a frame

The frames of the receiving side are those on the Fill ring, those the kernel holds for
receiving and those on the Rx ring; the frames of the sending side likewise. The two free
lists and the two counters are ledgers of the two sides.
-/
namespace Defrizer.XdpSocket
open InterleavedProgram WrappingRing RingPort OwnershipLedger KernelMaps

/-- The addresses the kernel has taken from the Fill and the Tx ring and not returned yet. -/
structure Holdings where
  rx : List UInt64
  tx : List UInt64

def Holdings.none : Holdings := ⟨[], []⟩

/-- The kernel returns a frame it has taken for receiving at some address of that frame, and
an address it has taken for sending as it is. -/
inductive HoldStep (o : SocketOptions) : Holdings → KernelEvent → Holdings → Prop
  | takeFill {k addr} : HoldStep o k (.takeFill addr) { k with rx := k.rx ++ [addr] }
  | pushRx {k d addr} (held : addr ∈ k.rx) (frame : frameIndex o d.Addr = frameIndex o addr) :
      HoldStep o k (.pushRx d) { k with rx := k.rx.erase addr }
  | takeTx {k d} : HoldStep o k (.takeTx d) { k with tx := k.tx ++ [d.Addr] }
  | pushCompletion {k addr} (held : addr ∈ k.tx) :
      HoldStep o k (.pushCompletion addr) { k with tx := k.tx.erase addr }

variable {o : SocketOptions}

def rxFrames (o : SocketOptions) (q : Queues) (k : Holdings) : List ℕ :=
  q.fill.map (frameIndex o) ++ k.rx.map (frameIndex o) ++ frames o q.rx

def txFrames (o : SocketOptions) (q : Queues) (k : Holdings) : List ℕ :=
  frames o q.tx ++ k.tx.map (frameIndex o) ++ q.completion.map (frameIndex o)

def rxSide (s : Socket o) (k : Holdings) : List ℕ := rxFrames o s.queues k

def txSide (s : Socket o) (k : Holdings) : List ℕ := txFrames o s.queues k

/-- Both free lists and both counters are exact. -/
structure Ledgers (s : Socket o) (k : Holdings) : Prop where
  valid : s.Valid
  rx : Exact (rxSide s k) s.freeRXDescs s.numFilled
  tx : Exact (txSide s k) s.freeTXDescs s.numTransmitted

section Kernel

theorem map_erase_perm {α : Type} [DecidableEq α] (f : α → ℕ) {l : List α} {a : α} (h : a ∈ l) :
    (l.map f).Perm (f a :: (l.erase a).map f) :=
  (List.perm_cons_erase h).map f

theorem frames_queueStep {q q' : Queues} {k k' : Holdings} {l : KernelEvent}
    (h : QueueStep o q l q') (hk : HoldStep o k l k') :
    (rxFrames o q' k').Perm (rxFrames o q k) ∧ (txFrames o q' k').Perm (txFrames o q k) := by
  cases h with
  | takeFill h =>
    cases hk
    refine ⟨?_, .refl _⟩
    simp only [rxFrames, h, List.map_append, List.map_cons, List.map_nil]
    grind
  | pushRx room =>
    cases hk with
    | pushRx held frame =>
      refine ⟨?_, .refl _⟩
      have herase := map_erase_perm (frameIndex o) held
      rw [← frame] at herase
      simp only [rxFrames, frames, List.map_append, List.map_cons, List.map_nil]
      grind
  | takeTx h =>
    cases hk
    refine ⟨.refl _, ?_⟩
    simp only [txFrames, frames, h, List.map_append, List.map_cons, List.map_nil]
    grind
  | pushCompletion room =>
    cases hk with
    | pushCompletion held =>
      refine ⟨.refl _, ?_⟩
      have herase := map_erase_perm (frameIndex o) held
      simp only [txFrames, List.map_append, List.map_cons, List.map_nil]
      grind

/-- The books of the sending side are exact. -/
structure TxLedger (s : Socket o) (k : Holdings) : Prop where
  valid : s.Valid
  tx : Exact (txSide s k) s.freeTXDescs s.numTransmitted

lemma Ledgers.toTxLedger {s : Socket o} {k : Holdings} (h : Ledgers s k) : TxLedger s k :=
  ⟨h.valid, h.tx⟩

lemma keeps_txLedger (ho : Accepted o) : Keeps (KernelStep o) (HoldStep o) TxLedger := by
  intro s k l s' k' h hR hH
  obtain ⟨_, htx⟩ := frames_queueStep (queueStep_of_kernelStep ho h.valid hR) hH
  obtain ⟨_, hfreeTX, _, htransmitted⟩ := kernelStep_books hR
  refine ⟨stable_valid ho s l s' h.valid hR, ?_⟩
  rw [hfreeTX, htransmitted]
  exact h.tx.perm htx

theorem keeps_ledgers (ho : Accepted o) : Keeps (KernelStep o) (HoldStep o) Ledgers := by
  intro s k l s' k' h hR hH
  obtain ⟨hrx, _⟩ := frames_queueStep (queueStep_of_kernelStep ho h.valid hR) hH
  obtain ⟨hfreeRX, _, hfilled, _⟩ := kernelStep_books hR
  have htx := keeps_txLedger ho s k l s' k' h.toTxLedger hR hH
  refine ⟨htx.valid, ?_, htx.tx⟩
  rw [hfreeRX, hfilled]
  exact h.rx.perm hrx

end Kernel

section Calls

theorem newSocket_queues (o : SocketOptions) :
    (newSocket o).queues = ⟨[], [], [], [], 0, 0⟩ := by
  have hempty : ∀ {α : Type} {n : ℕ} (descs : Vector α n), (⟨0, 0, descs⟩ : Ring α n).queue = [] :=
    fun descs => queue_eq_nil (outstanding_self 0 descs)
  simp only [Socket.queues, newSocket, hempty]
  congr 1
  · split_ifs <;> simp [hempty]
  · split_ifs <;> simp [hempty]

theorem newSocket_ledgers : Ledgers (newSocket o) Holdings.none where
  valid := newSocket_valid
  rx := by
    rw [rxSide, newSocket_queues]
    exact exact_new
  tx := by
    rw [txSide, newSocket_queues]
    exact exact_new

theorem rxSide_filled (ho : Accepted o) {s : Socket o} {xs : List Desc}
    (h : s.fillRing.outstanding + xs.length ≤ o.FillRingNumDescs.toNat) (k : Holdings) :
    (rxSide (s.filled xs) k).Perm (rxSide s k ++ frames o xs) := by
  have hq := (queue_pushAll ho.fill.size.1 (xs.map Desc.Addr) (by rwa [List.length_map])).1
  simp only [rxSide, rxFrames, Socket.queues, Socket.filled, hq, List.map_append, List.map_map]
  simp only [frames, Function.comp_def]
  grind

theorem txSide_transmitted (ho : Accepted o) (hpos : 0 < o.TxRingNumDescs) {s : Socket o}
    {r : Ring Desc o.TxRingNumDescs.toNat} (hr : s.txRing = some r) {xs : List Desc}
    (h : r.outstanding + xs.length ≤ o.TxRingNumDescs.toNat) (k : Holdings) :
    (txSide (s.transmitted r xs) k).Perm (txSide s k ++ frames o xs) := by
  have hq := (queue_pushAll (ho.tx hpos).size.1 xs h).1
  simp only [txSide, txFrames, Socket.queues, Socket.transmitted, hr, Option.elim_some, hq, frames,
    List.map_append]
  grind

theorem rxSide_received (ho : Accepted o) (hpos : 0 < o.RxRingNumDescs) {s : Socket o}
    {r : Ring Desc o.RxRingNumDescs.toNat} (hr : s.rxRing = some r) {j : ℕ}
    (h : j ≤ r.outstanding) (k : Holdings) :
    (rxSide s k).Perm (rxSide (s.received r j) k ++ frames o (r.queue.take j)) := by
  have hq := (queue_popAll (ho.rx hpos).size.1 h).1
  have hsplit : frames o r.queue = frames o (r.queue.take j) ++ frames o (r.queue.drop j) := by
    rw [frames, frames, frames, ← List.map_append, List.take_append_drop]
  simp only [rxSide, rxFrames, Socket.queues, Socket.received, hr, Option.elim_some, hq, hsplit]
  grind

lemma txSide_completedBy (ho : Accepted o) {s : Socket o} {j : ℕ}
    (h : j ≤ s.completionRing.outstanding) (k : Holdings) :
    (txSide s k).Perm
      (txSide (s.completedBy j) k ++ (s.completionRing.queue.take j).map (frameIndex o)) := by
  have hq := (queue_popAll ho.completion.size.1 h).1
  have hsplit : s.completionRing.queue.map (frameIndex o) =
      (s.completionRing.queue.take j).map (frameIndex o) ++
        (s.completionRing.queue.drop j).map (frameIndex o) := by
    rw [← List.map_append, List.take_append_drop]
  simp only [txSide, txFrames, Socket.queues, Socket.completedBy, hq, hsplit]
  grind

theorem txSide_completed (ho : Accepted o) {s : Socket o} (k : Holdings) :
    (txSide s k).Perm
      (txSide s.completed k ++ s.completionRing.queue.map (frameIndex o)) := by
  have hside := txSide_completedBy ho (s := s) le_rfl k
  rwa [completedBy_outstanding ho,
    List.take_of_length_le (queue_length ho.completion.size.1 _).le] at hside

theorem Ledgers.filled (ho : Accepted o) {s : Socket o} {k : Holdings} (h : Ledgers s k)
    {xs : List Desc} (hroom : s.fillRing.outstanding + xs.length ≤ o.FillRingNumDescs.toNat)
    (hnodup : (frames o xs).Nodup) (hfree : ∀ i ∈ frames o xs, s.freeRXDescs[i]? = some true) :
    Ledgers (s.filled xs) k where
  valid := filled_valid ho h.valid hroom
  rx := by
    have hgive := h.rx.give hnodup hfree
    rw [frames, List.length_map] at hgive
    exact hgive.perm (rxSide_filled ho hroom k)
  tx := h.tx

theorem Ledgers.transmitted (ho : Accepted o) (hpos : 0 < o.TxRingNumDescs) {s : Socket o}
    {k : Holdings} (h : Ledgers s k) {r : Ring Desc o.TxRingNumDescs.toNat}
    (hr : s.txRing = some r) {xs : List Desc}
    (hroom : r.outstanding + xs.length ≤ o.TxRingNumDescs.toNat) (hnodup : (frames o xs).Nodup)
    (hfree : ∀ i ∈ frames o xs, s.freeTXDescs[i]? = some true) :
    Ledgers (s.transmitted r xs) k where
  valid := transmitted_valid ho hpos h.valid hroom
  rx := h.rx
  tx := by
    have hgive := h.tx.give hnodup hfree
    rw [frames, List.length_map] at hgive
    exact hgive.perm (txSide_transmitted ho hpos hr hroom k)

theorem Ledgers.received (ho : Accepted o) (hpos : 0 < o.RxRingNumDescs) {s : Socket o}
    {k : Holdings} (h : Ledgers s k) {r : Ring Desc o.RxRingNumDescs.toNat}
    (hr : s.rxRing = some r) {j : ℕ} (hj : j ≤ r.outstanding) : Ledgers (s.received r j) k where
  valid := received_valid ho hpos hr h.valid hj
  rx := by
    have hback := (h.rx.perm (rxSide_received ho hpos hr hj k).symm).giveBack
    rw [frames, List.length_map] at hback
    exact hback
  tx := h.tx

lemma TxLedger.completedBy (ho : Accepted o) {s : Socket o} {k : Holdings} (h : TxLedger s k)
    {j : ℕ} (hj : j ≤ s.completionRing.outstanding) : TxLedger (s.completedBy j) k where
  valid := completedBy_valid ho h.valid hj
  tx := by
    have hback := (h.tx.perm (txSide_completedBy ho hj k).symm).giveBack
    rw [List.length_map, List.length_take, queue_length ho.completion.size.1,
      min_eq_left hj] at hback
    exact hback

theorem Ledgers.completed (ho : Accepted o) {s : Socket o} {k : Holdings} (h : Ledgers s k) :
    Ledgers s.completed k := by
  have htx := h.toTxLedger.completedBy ho le_rfl
  rw [completedBy_outstanding ho] at htx
  exact ⟨htx.valid, h.rx, htx.tx⟩

end Calls

end Defrizer.XdpSocket
