import Defrizer.SocketKernel
import Defrizer.OwnershipLedger

/-!
# The calls of a socket take effect at once

Every call, or part of a call, that touches one ring is atomic under interference by the
kernel, and run alone it has the effect stated here.
-/
namespace Defrizer.XdpSocket
open InterleavedProgram WrappingRing RingPort OwnershipLedger

variable {o : SocketOptions}

section Private
variable {s s' : Socket o} {l : KernelEvent}

/-- Changes of the user's books, which are no concern of the kernel. -/
def Socket.mapBooks (rx tx : Vector Bool o.NumFrames.toNat → Vector Bool o.NumFrames.toNat)
    (filled transmitted : ℤ → ℤ) (s : Socket o) : Socket o :=
  { s with
    freeRXDescs := rx s.freeRXDescs
    freeTXDescs := tx s.freeTXDescs
    numFilled := filled s.numFilled
    numTransmitted := transmitted s.numTransmitted }

lemma KernelStep.mapBooks
    (rx tx : Vector Bool o.NumFrames.toNat → Vector Bool o.NumFrames.toNat)
    (filled transmitted : ℤ → ℤ) (h : KernelStep o s l s') :
    KernelStep o (s.mapBooks rx tx filled transmitted) l (s'.mapBooks rx tx filled transmitted) := by
  cases h with
  | takeFill h => exact .takeFill h
  | pushRx hring h umem => exact .pushRx hring h umem
  | takeTx hring h => exact .takeTx hring h
  | pushCompletion h umem => exact .pushCompletion h umem

theorem KernelStep.setFreeRX (b : Bool) (addr : UInt64) (h : KernelStep o s l s') :
    KernelStep o (s.setFreeRX b addr) l (s'.setFreeRX b addr) :=
  h.mapBooks (fun free => free.setIfInBounds (frameIndex o addr) b) id id id

theorem KernelStep.setFreeTX (b : Bool) (addr : UInt64) (h : KernelStep o s l s') :
    KernelStep o (s.setFreeTX b addr) l (s'.setFreeTX b addr) :=
  h.mapBooks id (fun free => free.setIfInBounds (frameIndex o addr) b) id id

theorem KernelStep.addFilled (k : ℤ) (h : KernelStep o s l s') :
    KernelStep o (s.addFilled k) l (s'.addFilled k) :=
  h.mapBooks id id (· + k) id

theorem KernelStep.addTransmitted (k : ℤ) (h : KernelStep o s l s') :
    KernelStep o (s.addTransmitted k) l (s'.addTransmitted k) :=
  h.mapBooks id id id (· + k)

end Private

theorem private_fill (b : Bool) (addr : UInt64) :
    Private (KernelStep o) (fillPort o) (Socket.setFreeRX b addr) :=
  ⟨⟨fun _ => rfl, fun _ _ => rfl⟩, fun _ _ _ h => h.setFreeRX b addr⟩

theorem private_fill_count (k : ℤ) : Private (KernelStep o) (fillPort o) (Socket.addFilled k) :=
  ⟨⟨fun _ => rfl, fun _ _ => rfl⟩, fun _ _ _ h => h.addFilled k⟩

theorem private_rx (b : Bool) (addr : UInt64) :
    Private (KernelStep o) (rxPort o) (Socket.setFreeRX b addr) :=
  ⟨⟨fun _ => rfl, fun _ _ => rfl⟩, fun _ _ _ h => h.setFreeRX b addr⟩

theorem private_rx_count (k : ℤ) : Private (KernelStep o) (rxPort o) (Socket.addFilled k) :=
  ⟨⟨fun _ => rfl, fun _ _ => rfl⟩, fun _ _ _ h => h.addFilled k⟩

theorem private_tx (b : Bool) (addr : UInt64) :
    Private (KernelStep o) (txPort o) (Socket.setFreeTX b addr) :=
  ⟨⟨fun _ => rfl, fun _ _ => rfl⟩, fun _ _ _ h => h.setFreeTX b addr⟩

theorem private_tx_count (k : ℤ) : Private (KernelStep o) (txPort o) (Socket.addTransmitted k) :=
  ⟨⟨fun _ => rfl, fun _ _ => rfl⟩, fun _ _ _ h => h.addTransmitted k⟩

theorem private_completion (b : Bool) (addr : UInt64) :
    Private (KernelStep o) (completionPort o) (Socket.setFreeTX b addr) :=
  ⟨⟨fun _ => rfl, fun _ _ => rfl⟩, fun _ _ _ h => h.setFreeTX b addr⟩

theorem private_completion_count (k : ℤ) :
    Private (KernelStep o) (completionPort o) (Socket.addTransmitted k) :=
  ⟨⟨fun _ => rfl, fun _ _ => rfl⟩, fun _ _ _ h => h.addTransmitted k⟩

/-- What holds of the rings of a socket in use, whatever their counters are. -/
structure Socket.Valid (s : Socket o) : Prop where
  fill : OnRing (fillPort o) (fun r => r.outstanding ≤ o.FillRingNumDescs.toNat) s
  completion : OnRing (completionPort o) (Collectable (onFrame o) 0) s
  rx : 0 < o.RxRingNumDescs → OnRing (rxPort o) (Collectable (fun d => onFrame o d.Addr) 0) s
  tx : 0 < o.TxRingNumDescs →
    OnRing (txPort o) (fun r => r.outstanding ≤ o.TxRingNumDescs.toNat) s
  noRx : ¬ 0 < o.RxRingNumDescs → s.rxRing = none
  noTx : ¬ 0 < o.TxRingNumDescs → s.txRing = none

theorem collectable_empty {α : Type} {n : ℕ} (ok : α → Bool) (c : UInt32) (descs : Vector α n) :
    Collectable ok 0 (⟨c, c, descs⟩ : Ring α n) := by
  have h := outstanding_self c descs
  exact ⟨h ▸ Nat.zero_le n, Nat.zero_le _, by simp [queue_eq_nil h]⟩

theorem newSocket_valid : (newSocket o).Valid where
  fill := ⟨_, rfl, (collectable_empty (fun _ => true) 0 _).1⟩
  completion := ⟨_, rfl, collectable_empty _ 0 _⟩
  rx h := ⟨_, if_pos h, collectable_empty _ 0 _⟩
  tx h := ⟨_, if_pos h, (collectable_empty (fun _ => true) 0 _).1⟩
  noRx h := if_neg h
  noTx h := if_neg h

theorem stable_valid (ho : Accepted o) : Stable (KernelStep o) Socket.Valid := by
  intro s l s' hs h
  refine ⟨stable_onRing meets_fill takes_bounded s l s' hs.fill h,
    stable_onRing meets_completion (Collectable.gives ho.completion.size.1) s l s' hs.completion h,
    fun hpos => stable_onRing meets_rx (Collectable.gives (ho.rx hpos).size.1) s l s' (hs.rx hpos) h,
    fun hpos => stable_onRing meets_tx takes_bounded s l s' (hs.tx hpos) h, ?_, ?_⟩
  · intro hpos
    have hnone := hs.noRx hpos
    cases h with
    | pushRx hring => rw [hnone] at hring; cases hring
    | _ => exact hnone
  · intro hpos
    have hnone := hs.noTx hpos
    cases h with
    | takeTx hring => rw [hnone] at hring; cases hring
    | _ => exact hnone

theorem kernelStep_books {s s' : Socket o} {l : KernelEvent} (h : KernelStep o s l s') :
    s'.freeRXDescs = s.freeRXDescs ∧ s'.freeTXDescs = s.freeTXDescs ∧
      s'.numFilled = s.numFilled ∧ s'.numTransmitted = s.numTransmitted := by
  cases h <;> exact ⟨rfl, rfl, rfl, rfl⟩

section Atomicity

lemma pollEvents_first (ho : Accepted o) : RunsFirst (KernelStep o) Socket.Valid
    (fetch fun s : Socket o => some (pollEvents s.numFilled s.numTransmitted))
    fun _ _ => True := by
  refine runsFirst_fetch (stable_valid ho) ?_ fun s _ => ⟨_, rfl, trivial⟩
  intro s l s' _ h
  obtain ⟨_, _, hfilled, htransmitted⟩ := kernelStep_books h
  rw [hfilled, htransmitted]

theorem pollEvents_atomically (ho : Accepted o) :
    RunsAtomically (KernelStep o) Socket.Valid
      (fetch fun s : Socket o => some (pollEvents s.numFilled s.numTransmitted)) :=
  (pollEvents_first ho).atomically

theorem numFreeFillSlots_atomically :
    RunsAtomically (KernelStep o) Socket.Valid (numFreeFillSlots o) := by
  apply RunsAtomically.weaken _ fun _ hs => hs.fill
  rw [numFreeFillSlots, ← bind_ret (numFreeSlots _ _)]
  exact numFreeSlots_atomically (Q := fun _ _ => True) meets_fill
    fun _ _ => runsFirst_ret fun _ _ => trivial

theorem fill_atomically (ho : Accepted o) {descs : List Desc}
    (hd : ∀ d ∈ descs, onFrame o d.Addr = true) :
    RunsAtomically (KernelStep o) Socket.Valid (fill o descs) := by
  apply RunsAtomically.weaken _ fun _ hs => hs.fill
  exact submit_atomically ho.fill.size.1 ho.fill.size.2 meets_fill
    (fun d _ => private_fill false d.Addr) private_fill_count hd

theorem submitTx_atomically (ho : Accepted o) (hpos : 0 < o.TxRingNumDescs) {descs : List Desc}
    (hd : ∀ d ∈ descs, onFrame o d.Addr = true) :
    RunsAtomically (KernelStep o) Socket.Valid (submitTx o descs) := by
  apply RunsAtomically.weaken _ fun _ hs => hs.tx hpos
  exact submit_atomically (ho.tx hpos).size.1 (ho.tx hpos).size.2 meets_tx
    (fun d _ => private_tx false d.Addr) private_tx_count hd

theorem numReceived_atomically (ho : Accepted o) (hpos : 0 < o.RxRingNumDescs) :
    RunsAtomically (KernelStep o) Socket.Valid (numReceived o) := by
  apply RunsAtomically.weaken _ fun _ hs => hs.rx hpos
  rw [numReceived, ← bind_ret (numAvailable _ _)]
  exact numAvailable_atomically (Q := fun _ _ => True) (ho.rx hpos).size.1 (ho.rx hpos).size.2
    meets_rx fun _ => runsFirst_ret fun _ _ => trivial

theorem receive_atomically (ho : Accepted o) (hpos : 0 < o.RxRingNumDescs) (num : ℤ) :
    RunsAtomically (KernelStep o) Socket.Valid (receive o num) := by
  have hsize := (ho.rx hpos).size
  apply RunsAtomically.weaken _ fun _ hs => hs.rx hpos
  apply numAvailable_atomically (Q := fun _ _ => True) hsize.1 hsize.2 meets_rx
  intro m
  refine (runsFirst_collect hsize.1 hsize.2 meets_rx (fun d _ => private_rx true d.Addr)
    (fun descs => private_rx_count _) _).weaken ?_
  rintro s ⟨r, hr, hle, hm, hall⟩
  refine ⟨r, hr, hle, le_trans ?_ hm, hall⟩
  split_ifs <;> omega

theorem pollComplete_atomically (ho : Accepted o) (received : ℤ) :
    RunsAtomically (KernelStep o) Socket.Valid (pollComplete o received) := by
  have hsize := ho.completion.size
  apply RunsAtomically.weaken _ fun _ hs => hs.completion
  apply numAvailable_atomically (Q := fun _ _ => True) hsize.1 hsize.2 meets_completion
  intro m
  split_ifs
  · have hcollect := runsFirst_collect hsize.1 hsize.2 meets_completion
      (fun addr _ => private_completion true addr) (fun _ => private_completion_count (-m)) m
    simp only [complete, bind_def, pure_def, bind_assoc, ret_bind]
    exact runsFirst_bind hcollect fun _ => runsFirst_ret fun _ _ => trivial
  · exact runsFirst_ret fun _ _ => trivial

end Atomicity

section Effects

theorem markAll_setFreeRX {α : Type} (b : Bool) (addr : α → UInt64) (xs : List α) (s : Socket o) :
    markAll (fun x => Socket.setFreeRX b (addr x)) xs s =
      { s with freeRXDescs := setAll b (xs.map fun x => frameIndex o (addr x)) s.freeRXDescs } := by
  induction xs generalizing s with
  | nil => rfl
  | cons x xs ih => exact ih (s.setFreeRX b (addr x))

theorem markAll_setFreeTX {α : Type} (b : Bool) (addr : α → UInt64) (xs : List α) (s : Socket o) :
    markAll (fun x => Socket.setFreeTX b (addr x)) xs s =
      { s with freeTXDescs := setAll b (xs.map fun x => frameIndex o (addr x)) s.freeTXDescs } := by
  induction xs generalizing s with
  | nil => rfl
  | cons x xs ih => exact ih (s.setFreeTX b (addr x))

def frames (o : SocketOptions) (xs : List Desc) : List ℕ := xs.map fun d => frameIndex o d.Addr

/-- The socket after `xs` were put on the Fill ring. -/
def Socket.filled (s : Socket o) (xs : List Desc) : Socket o :=
  { s with
    fillRing := s.fillRing.pushAll (xs.map Desc.Addr)
    freeRXDescs := setAll false (frames o xs) s.freeRXDescs
    numFilled := s.numFilled + xs.length }

def Socket.transmitted (s : Socket o) (r : Ring Desc o.TxRingNumDescs.toNat) (xs : List Desc) :
    Socket o :=
  { s with
    txRing := some (r.pushAll xs)
    freeTXDescs := setAll false (frames o xs) s.freeTXDescs
    numTransmitted := s.numTransmitted + xs.length }

def Socket.received (s : Socket o) (r : Ring Desc o.RxRingNumDescs.toNat) (k : ℕ) : Socket o :=
  { s with
    rxRing := some (r.popAll k)
    freeRXDescs := setAll true (frames o (r.queue.take k)) s.freeRXDescs
    numFilled := s.numFilled + -(r.queue.take k).length }

def Socket.completed (s : Socket o) : Socket o :=
  { s with
    completionRing := s.completionRing.popAll s.completionRing.outstanding
    freeTXDescs := setAll true (s.completionRing.queue.map (frameIndex o)) s.freeTXDescs
    numTransmitted := s.numTransmitted + -s.completionRing.outstanding }

def Socket.completedBy (s : Socket o) (k : ℕ) : Socket o :=
  { s with
    completionRing := s.completionRing.popAll k
    freeTXDescs := setAll true ((s.completionRing.queue.take k).map (frameIndex o)) s.freeTXDescs
    numTransmitted := s.numTransmitted + -k }

lemma completedBy_outstanding (ho : Accepted o) (s : Socket o) :
    s.completedBy s.completionRing.outstanding = s.completed := by
  have htake : s.completionRing.queue.take s.completionRing.outstanding =
      s.completionRing.queue := by
    rw [List.take_of_length_le (queue_length ho.completion.size.1 _).le]
  rw [Socket.completedBy, Socket.completed, htake]

theorem numFreeFillSlots_run (ho : Accepted o) {s : Socket o} (hs : s.Valid) :
    (numFreeFillSlots o).run s =
      some (((o.FillRingNumDescs.toNat - s.fillRing.outstanding : ℕ) : ℤ), s) := by
  obtain ⟨r, hr, hle⟩ := hs.fill
  cases hr
  exact numFreeSlots_run ho.fill.size.1 ho.fill.size.2 rfl hle

theorem fill_run (ho : Accepted o) {s : Socket o} (hs : s.Valid) {descs : List Desc}
    (hd : ∀ d ∈ descs, onFrame o d.Addr = true) :
    (fill o descs).run s =
      some (((descs.take (o.FillRingNumDescs.toNat - s.fillRing.outstanding)).length : ℤ),
        s.filled (descs.take (o.FillRingNumDescs.toNat - s.fillRing.outstanding))) := by
  obtain ⟨r, hr, hle⟩ := hs.fill
  cases hr
  rw [fill, submit_run ho.fill.size.1 ho.fill.size.2 hd
    (fun d _ => (private_fill false d.Addr).toAside) rfl hle, markAll_setFreeRX]
  rfl

def Socket.fillRoom (s : Socket o) : ℕ := o.FillRingNumDescs.toNat - s.fillRing.outstanding

def Socket.txRoom (s : Socket o) : ℕ :=
  s.txRing.elim 0 fun r => o.TxRingNumDescs.toNat - r.outstanding

theorem length_take_free {α : Type} (xs : List α) (k n : ℕ) (h : k ≤ n) :
    k + (xs.take (n - k)).length ≤ n := by
  rw [List.length_take]
  omega

theorem fill_batch (ho : Accepted o) {s s' : Socket o} {a : ℤ} (hs : s.Valid) {descs : List Desc}
    (hd : ∀ d ∈ descs, onFrame o d.Addr = true) (hrun : (fill o descs).run s = some (a, s')) :
    a = (descs.take s.fillRoom).length ∧ s' = s.filled (descs.take s.fillRoom) ∧
      s.fillRing.outstanding + (descs.take s.fillRoom).length ≤ o.FillRingNumDescs.toNat := by
  rw [fill_run ho hs hd] at hrun
  cases hrun
  obtain ⟨r, hr, hle⟩ := hs.fill
  cases hr
  exact ⟨rfl, rfl, length_take_free _ _ _ hle⟩

theorem fill_run_all (ho : Accepted o) {s : Socket o} (hs : s.Valid) {descs : List Desc}
    (hd : ∀ d ∈ descs, onFrame o d.Addr = true)
    (hroom : s.fillRing.outstanding + descs.length ≤ o.FillRingNumDescs.toNat) :
    (fill o descs).run s = some ((descs.length : ℤ), s.filled descs) := by
  rw [fill_run ho hs hd, List.take_of_length_le (by omega)]

theorem submitTx_run (ho : Accepted o) (hpos : 0 < o.TxRingNumDescs) {s : Socket o}
    {r : Ring Desc o.TxRingNumDescs.toNat} (hr : s.txRing = some r) (hs : s.Valid)
    {descs : List Desc} (hd : ∀ d ∈ descs, onFrame o d.Addr = true) :
    (submitTx o descs).run s =
      some (((descs.take (o.TxRingNumDescs.toNat - r.outstanding)).length : ℤ),
        s.transmitted r (descs.take (o.TxRingNumDescs.toNat - r.outstanding))) := by
  obtain ⟨r', hr', hle⟩ := hs.tx hpos
  cases hr'.symm.trans hr
  rw [submitTx, submit_run (ho.tx hpos).size.1 (ho.tx hpos).size.2 hd
    (fun d _ => (private_tx false d.Addr).toAside) hr hle, markAll_setFreeTX, List.map_id]
  rfl

/-- What the submission of `Transmit` has done when it returns; there is a Tx ring then. -/
theorem submitTx_batch (ho : Accepted o) {s s' : Socket o} {a : ℤ} (hs : s.Valid)
    {descs : List Desc} (hd : ∀ d ∈ descs, onFrame o d.Addr = true)
    (hrun : (submitTx o descs).run s = some (a, s')) :
    ∃ r, 0 < o.TxRingNumDescs ∧ s.txRing = some r ∧ a = (descs.take s.txRoom).length ∧
      s' = s.transmitted r (descs.take s.txRoom) ∧
      r.outstanding + (descs.take s.txRoom).length ≤ o.TxRingNumDescs.toNat := by
  have hpos : 0 < o.TxRingNumDescs := by
    by_contra hpos
    simp [submitTx, submit, numFreeSlots, producer, txPort, hs.noTx hpos] at hrun
  obtain ⟨r, hr, hle⟩ := hs.tx hpos
  have hr' : s.txRing = some r := hr
  have hroom : s.txRoom = o.TxRingNumDescs.toNat - r.outstanding := by
    rw [Socket.txRoom, hr', Option.elim_some]
  rw [submitTx_run ho hpos hr' hs hd, ← hroom] at hrun
  cases hrun
  exact ⟨r, hpos, hr', rfl, rfl, hroom ▸ length_take_free _ _ _ hle⟩

theorem numReceived_run (ho : Accepted o) (hpos : 0 < o.RxRingNumDescs) {s : Socket o}
    {r : Ring Desc o.RxRingNumDescs.toNat} (hr : s.rxRing = some r) (hs : s.Valid) :
    (numReceived o).run s = some ((r.outstanding : ℤ), s) := by
  obtain ⟨r', hr', hle, _⟩ := hs.rx hpos
  cases hr'.symm.trans hr
  exact numAvailable_run (ho.rx hpos).size.1 (ho.rx hpos).size.2 hr hle

theorem receive_run (ho : Accepted o) (hpos : 0 < o.RxRingNumDescs) {s : Socket o}
    {r : Ring Desc o.RxRingNumDescs.toNat} (hr : s.rxRing = some r) (hs : s.Valid) (num : ℤ) :
    (receive o num).run s =
      some (r.queue.take (min num r.outstanding).toNat,
        s.received r (min num r.outstanding).toNat) := by
  obtain ⟨r', hr', hle, _, hall⟩ := hs.rx hpos
  cases hr'.symm.trans hr
  have hmin : (if num > r.outstanding then (r.outstanding : ℤ) else num) =
      min num r.outstanding := by
    split_ifs <;> omega
  have hk : (min num (r.outstanding : ℤ)).toNat ≤ r.outstanding := by omega
  simp only [receive, bind_def, run_bind, numReceived_run ho hpos hr hs, Option.bind_some, hmin]
  rw [collect_run (ho.rx hpos).size.1 (ho.rx hpos).size.2 hall
    (fun d _ => (private_rx true d.Addr).toAside) hr hk, markAll_setFreeRX]
  rfl

theorem numReceived_pos {s s' : Socket o} {a : ℤ} (hs : s.Valid)
    (hrun : (numReceived o).run s = some (a, s')) : 0 < o.RxRingNumDescs := by
  by_contra hpos
  simp [numReceived, numAvailable, producer, rxPort, hs.noRx hpos] at hrun

theorem receive_returns (ho : Accepted o) {m : ℤ} {s s' : Socket o} (hs : s.Valid)
    {descs : List Desc} (hrun : (receive o m).run s = some (descs, s')) :
    ∃ r j, 0 < o.RxRingNumDescs ∧ s.rxRing = some r ∧ j ≤ r.outstanding ∧
      descs = r.queue.take j ∧ s' = s.received r j ∧ ∀ d ∈ descs, onFrame o d.Addr = true := by
  have hpos : 0 < o.RxRingNumDescs := by
    simp only [receive, bind_def, run_bind, Option.bind_eq_some_iff] at hrun
    obtain ⟨⟨n, s₁⟩, hreceived, _⟩ := hrun
    exact numReceived_pos hs hreceived
  obtain ⟨r, hr, hle, _, hall⟩ := hs.rx hpos
  have hr' : s.rxRing = some r := hr
  rw [receive_run ho hpos hr' hs] at hrun
  cases hrun
  exact ⟨r, _, hpos, hr', by omega, rfl, rfl, fun d hd => hall d (List.mem_of_mem_take hd)⟩

lemma numCompleted_run (ho : Accepted o) {s : Socket o}
    (hs : OnRing (completionPort o) (Collectable (onFrame o) 0) s) :
    (numCompleted o).run s = some ((s.completionRing.outstanding : ℤ), s) := by
  obtain ⟨r, hr, hle, _⟩ := hs
  cases hr
  exact numAvailable_run ho.completion.size.1 ho.completion.size.2 rfl hle

lemma complete_run (ho : Accepted o) {s : Socket o}
    (hs : OnRing (completionPort o) (Collectable (onFrame o) 0) s) {k : ℕ}
    (hk : k ≤ s.completionRing.outstanding) :
    (complete o k).run s = some ((), s.completedBy k) := by
  obtain ⟨r, hr, hle, _, hall⟩ := hs
  cases hr
  have hmark : markAll (Socket.setFreeTX true) (s.completionRing.queue.take k) s = _ :=
    markAll_setFreeTX true (fun addr => addr) (s.completionRing.queue.take k) s
  have hk' : (k : ℤ).toNat ≤ s.completionRing.outstanding := by omega
  simp only [complete, bind_def, pure_def, run_bind]
  rw [collect_run ho.completion.size.1 ho.completion.size.2 hall
    (fun addr _ => (private_completion true addr).toAside) rfl hk', Int.toNat_natCast, hmark]
  rfl

theorem pollComplete_run (ho : Accepted o) {s : Socket o} (hs : s.Valid) (received : ℤ) :
    (pollComplete o received).run s =
      some ((received, (s.completionRing.outstanding : ℤ), none), s.completed) := by
  rw [← completedBy_outstanding ho]
  simp only [pollComplete, bind_def, run_bind, numCompleted_run ho hs.completion, Option.bind_some]
  by_cases h0 : s.completionRing.outstanding = 0
  · simp [h0, Socket.completedBy, popAll_zero, setAll]
  · rw [if_pos (by omega)]
    simp only [pure_def, run_bind, complete_run ho hs.completion le_rfl]
    rfl

theorem filled_valid (ho : Accepted o) {s : Socket o} (hs : s.Valid) {xs : List Desc}
    (h : s.fillRing.outstanding + xs.length ≤ o.FillRingNumDescs.toNat) : (s.filled xs).Valid := by
  refine ⟨⟨_, rfl, ?_⟩, hs.completion, hs.rx, hs.tx, hs.noRx, hs.noTx⟩
  have hpush := queue_pushAll ho.fill.size.1 (r := s.fillRing) (xs.map Desc.Addr)
    (by rwa [List.length_map])
  rw [List.length_map] at hpush
  exact hpush.2.trans_le h

theorem transmitted_valid (ho : Accepted o) (hpos : 0 < o.TxRingNumDescs) {s : Socket o}
    {r : Ring Desc o.TxRingNumDescs.toNat} (hs : s.Valid) {xs : List Desc}
    (h : r.outstanding + xs.length ≤ o.TxRingNumDescs.toNat) : (s.transmitted r xs).Valid := by
  refine ⟨hs.fill, hs.completion, hs.rx, fun _ => ⟨_, rfl, ?_⟩, hs.noRx, fun hno => absurd hpos hno⟩
  exact (queue_pushAll (ho.tx hpos).size.1 xs h).2.trans_le h

theorem received_valid (ho : Accepted o) (hpos : 0 < o.RxRingNumDescs) {s : Socket o}
    {r : Ring Desc o.RxRingNumDescs.toNat} (hr : s.rxRing = some r) (hs : s.Valid) {k : ℕ}
    (h : k ≤ r.outstanding) : (s.received r k).Valid := by
  refine ⟨hs.fill, hs.completion, fun _ => ⟨_, rfl, ?_⟩, hs.tx, fun hno => absurd hpos hno, hs.noTx⟩
  obtain ⟨r', hr', hle, _, hall⟩ := hs.rx hpos
  cases hr'.symm.trans hr
  obtain ⟨hq, hout⟩ := queue_popAll (ho.rx hpos).size.1 h
  exact ⟨by omega, Nat.zero_le _, fun d hd => hall d (List.mem_of_mem_drop (hq ▸ hd))⟩

lemma completedBy_valid (ho : Accepted o) {s : Socket o} (hs : s.Valid) {k : ℕ}
    (hk : k ≤ s.completionRing.outstanding) : (s.completedBy k).Valid := by
  refine ⟨hs.fill, ⟨_, rfl, ?_⟩, hs.rx, hs.tx, hs.noRx, hs.noTx⟩
  obtain ⟨r, hr, hle, _, hall⟩ := hs.completion
  cases hr
  obtain ⟨hq, hout⟩ := queue_popAll ho.completion.size.1 hk
  refine ⟨?_, Nat.zero_le _, fun addr hd => hall addr (List.mem_of_mem_drop (hq ▸ hd))⟩
  simp only [Socket.completedBy]
  omega

theorem completed_valid (ho : Accepted o) {s : Socket o} (hs : s.Valid) : s.completed.Valid :=
  completedBy_outstanding ho s ▸ completedBy_valid ho hs le_rfl

end Effects

end Defrizer.XdpSocket
