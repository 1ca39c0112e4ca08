import Defrizer.FrameDelivery
import Defrizer.RingPortCounters

/-!
# The packets that are submitted

A user of a socket who writes packets to frames that `GetDescs` has given it and hands them to
`Transmit`, with the bytes of the UMEM. The kernel reads a packet at some moment between taking
its descriptor and returning its frame, and until then nobody writes to that frame. Whether it
then sends the packet is not part of the model.
-/
namespace Defrizer.XdpSocket
open InterleavedProgram WrappingRing RingPort OwnershipLedger KernelMaps

/-- The kernel's side of the Tx ring: the frames it holds, the memory, the descriptors it holds
with the packets they had when it took them, and all packets it has taken so far. -/
structure Outgoing (o : SocketOptions) where
  holdings : Holdings
  umem : Umem o
  flying : List (Desc × List UInt8)
  taken : List (List UInt8)

variable {o : SocketOptions}

/-- With a descriptor the kernel takes the packet that is there at that moment, and nothing with
one that is outside the UMEM. It may write to the frames it holds for receiving at any moment. -/
inductive TxStep (o : SocketOptions) : Outgoing o → KernelEvent → Outgoing o → Prop
  | take {g k' umem' d} (hold : HoldStep o g.holdings (.takeTx d) k')
      (writes : Writes g.holdings g.umem umem') :
      TxStep o g (.takeTx d) ⟨k', umem', g.flying ++ [(d, (getFrame umem' d).getD [])],
        g.taken ++ (getFrame umem' d).toList⟩
  | complete {g k' umem' addr} (hold : HoldStep o g.holdings (.pushCompletion addr) k')
      (writes : Writes g.holdings g.umem umem') :
      TxStep o g (.pushCompletion addr)
        ⟨k', umem', g.flying.eraseP fun f => f.1.Addr == addr, g.taken⟩
  | takeFill {g k' umem' addr} (hold : HoldStep o g.holdings (.takeFill addr) k')
      (writes : Writes g.holdings g.umem umem') :
      TxStep o g (.takeFill addr) { g with holdings := k', umem := umem' }
  | pushRx {g k' umem' d} (hold : HoldStep o g.holdings (.pushRx d) k')
      (writes : Writes g.holdings g.umem umem') :
      TxStep o g (.pushRx d) { g with holdings := k', umem := umem' }

/-- The runs of such a user, with the packets that were submitted so far and the frames in hand:
those that `GetDescs` has given and `Transmit` has not put on the ring since. -/
inductive Sends (o : SocketOptions) :
    List (List UInt8) → List ℕ → Socket o → Outgoing o → Prop
  | start (umem : Umem o) : Sends o [] [] (newSocket o) ⟨Holdings.none, umem, [], []⟩
  | kernel {xs hand s s' g g' l} (h : Sends o xs hand s g) (step : KernelStep o s l s')
      (send : TxStep o g l g') : Sends o xs hand s' g'
  | write {xs hand s g umem'} (h : Sends o xs hand s g) (writes : Writes g.holdings g.umem umem') :
      Sends o xs hand s { g with umem := umem' }
  | getDescs {xs hand s g n descs} (h : Sends o xs hand s g)
      (found : getDescs o n false s = some descs) : Sends o xs (hand ++ frames o descs) s g
  | prepare {xs hand s g umem'} (h : Sends o xs hand s g)
      (writes : ∀ j, j / o.FrameSize.toNat ∉ hand → umem'[j]? = g.umem[j]?) :
      Sends o xs hand s { g with umem := umem' }
  | transmit {xs hand s s' g g' ls descs packets n} (errs : List Errno) (h : Sends o xs hand s g)
      (own : ∀ i ∈ frames o descs, i ∈ hand) (once : (frames o descs).Nodup)
      (stores : List.Forall₂ (Stores g.umem) descs packets)
      (run : Exec (KernelStep o) (transmit o descs errs) s ls (some n) s')
      (send : Steps (TxStep o) g ls g') :
      Sends o (xs ++ packets.take n.toNat)
        (hand.filter fun i => i ∉ frames o (descs.take n.toNat)) s' g'
  | fill {xs hand s s' g g' ls r} (n : ℤ) (h : Sends o xs hand s g)
      (run : Exec (KernelStep o) (fillFree o n) s ls r s') (send : Steps (TxStep o) g ls g') :
      Sends o xs hand s' g'
  | receive {xs hand s s' g g' ls r} (n : ℤ) (h : Sends o xs hand s g)
      (run : Exec (KernelStep o) (receive o n) s ls r s') (send : Steps (TxStep o) g ls g') :
      Sends o xs hand s' g'
  | poll {xs hand s s' g g' ls r} (errs : List Errno) (h : Sends o xs hand s g)
      (run : Exec (KernelStep o) (poll o errs) s ls r s') (send : Steps (TxStep o) g ls g') :
      Sends o xs hand s' g'

/-- The packets that were submitted are those taken and those on the Tx ring, in this order. The
kernel holds the frames of the packets it has taken and not completed, and these and the frames on
the Tx ring still have their packets; the user has other frames in hand. -/
structure Outbound (xs : List (List UInt8)) (hand : List ℕ) (s : Socket o) (g : Outgoing o) :
    Prop where
  ledgers : Ledgers s g.holdings
  rxPart : ∀ i ∈ rxSide s g.holdings, i < o.FillRingNumDescs.toNat
  txPart : ∀ i ∈ txSide s g.holdings, o.FillRingNumDescs.toNat ≤ i
  inHand : ∀ i ∈ hand, o.FillRingNumDescs.toNat ≤ i ∧ i < o.NumFrames.toNat ∧
    i ∉ txSide s g.holdings
  waiting : ∃ packets, List.Forall₂ (Stores g.umem) s.queues.tx packets ∧ xs = g.taken ++ packets
  flying : ∀ f ∈ g.flying, Stores g.umem f.1 f.2
  held : g.flying.map (fun f => f.1.Addr) = g.holdings.tx

section Invariant
variable {xs : List (List UInt8)} {hand : List ℕ} {s s' : Socket o} {g g' : Outgoing o}

lemma queueStep_tx {q q' : Queues} {l : KernelEvent} (h : QueueStep o q l q') :
    q.tx = (match l with | .takeTx d => [d] | _ => []) ++ q'.tx := by
  cases h with
  | takeTx h => exact h
  | _ => rfl

/-- What is written elsewhere than to the frames of the sending side changes no packet. -/
lemma Outbound.unwritten (ho : Accepted o) (h : Outbound xs hand s g) {umem' : Umem o}
    (same : ∀ j, j / o.FrameSize.toNat ∈ txSide s g.holdings → umem'[j]? = g.umem[j]?) :
    Outbound xs hand s { g with umem := umem' } := by
  obtain ⟨packets, hstores, hxs⟩ := h.waiting
  refine { h with waiting := ⟨packets, ?_, hxs⟩, flying := fun f hf => ?_ }
  · refine stores_congr ho hstores fun j hj => same j ?_
    exact List.mem_append_left _ (List.mem_append_left _ hj)
  · refine (h.flying f hf).congr ho fun j hj => same j ?_
    have haddr : f.1.Addr ∈ g.holdings.tx := h.held ▸ List.mem_map_of_mem hf
    rw [hj]
    exact List.mem_append_left _ (List.mem_append_right _ (List.mem_map_of_mem haddr))

/-- The frames the kernel holds for receiving are of the other part. -/
lemma Outbound.apart (h : Outbound xs hand s g) {i : ℕ}
    (hi : o.FillRingNumDescs.toNat ≤ i) : i ∉ g.holdings.rx.map (frameIndex o) := by
  intro hheld
  have hlt := h.rxPart i (List.mem_append_left _ (List.mem_append_right _ hheld))
  omega

lemma Outbound.write (ho : Accepted o) (h : Outbound xs hand s g) {umem' : Umem o}
    (writes : Writes g.holdings g.umem umem') : Outbound xs hand s { g with umem := umem' } :=
  h.unwritten ho fun j hj => writes j (h.apart (h.txPart _ hj))

lemma TxStep.hold {l : KernelEvent} (h : TxStep o g l g') :
    HoldStep o g.holdings l g'.holdings := by
  cases h with
  | take hold => exact hold
  | complete hold => exact hold
  | takeFill hold => exact hold
  | pushRx hold => exact hold

lemma TxStep.writes {l : KernelEvent} (h : TxStep o g l g') :
    Writes g.holdings g.umem g'.umem := by
  cases h with
  | take _ writes => exact writes
  | complete _ writes => exact writes
  | takeFill _ writes => exact writes
  | pushRx _ writes => exact writes

lemma keeps_outbound (ho : Accepted o) :
    Keeps (KernelStep o) (TxStep o) (Outbound (o := o) xs hand) := by
  intro s g l s' g' h step send
  have hqueue := queueStep_of_kernelStep ho h.ledgers.valid step
  obtain ⟨hrx, htx⟩ := frames_queueStep hqueue send.hold
  have hledgers := keeps_ledgers ho s g.holdings l s' g'.holdings h.ledgers step send.hold
  have hwritten := h.write ho send.writes
  have hrxPart : ∀ i ∈ rxSide s' g'.holdings, i < o.FillRingNumDescs.toNat :=
    fun i hi => h.rxPart i (hrx.subset hi)
  have htxPart : ∀ i ∈ txSide s' g'.holdings, o.FillRingNumDescs.toNat ≤ i :=
    fun i hi => h.txPart i (htx.subset hi)
  have hinHand : ∀ i ∈ hand, o.FillRingNumDescs.toNat ≤ i ∧ i < o.NumFrames.toNat ∧
      i ∉ txSide s' g'.holdings := by
    intro i hi
    obtain ⟨hpart, hlt, hfree⟩ := h.inHand i hi
    exact ⟨hpart, hlt, fun hside => hfree (htx.subset hside)⟩
  obtain ⟨packets, hstores, hxs⟩ := hwritten.waiting
  have hflying := hwritten.flying
  cases send with
  | @take k' umem' d hold writes =>
    have htail : s.queues.tx = d :: s'.queues.tx := queueStep_tx hqueue
    rw [htail] at hstores
    cases hstores with
    | @cons _ packet _ packets hfirst hrest =>
      have hread : getFrame umem' d = some packet := hfirst.2
      refine ⟨hledgers, hrxPart, htxPart, hinHand, ⟨packets, hrest, ?_⟩, ?_, ?_⟩
      · simp [hxs, hread]
      · intro f hf
        rcases List.mem_append.mp hf with hf | hf
        · exact hflying f hf
        · rw [List.mem_singleton.mp hf, hread]
          exact hfirst
      · cases hold
        simp [h.held]
  | @complete k' umem' addr hold writes =>
    have hsame : s.queues.tx = s'.queues.tx := queueStep_tx hqueue
    refine ⟨hledgers, hrxPart, htxPart, hinHand, ⟨packets, hsame ▸ hstores, hxs⟩,
      fun f hf => hflying f (List.mem_of_mem_eraseP hf), ?_⟩
    cases hold
    simp only [← h.held]
    rw [List.erase_eq_eraseP', List.eraseP_map]
    rfl
  | takeFill hold writes =>
    have hsame : s.queues.tx = s'.queues.tx := queueStep_tx hqueue
    refine ⟨hledgers, hrxPart, htxPart, hinHand, ⟨packets, hsame ▸ hstores, hxs⟩, hflying, ?_⟩
    cases hold
    exact h.held
  | pushRx hold writes =>
    have hsame : s.queues.tx = s'.queues.tx := queueStep_tx hqueue
    refine ⟨hledgers, hrxPart, htxPart, hinHand, ⟨packets, hsame ▸ hstores, hxs⟩, hflying, ?_⟩
    cases hold
    exact h.held

end Invariant

section Calls
variable {xs : List (List UInt8)} {hand : List ℕ} {s s' : Socket o} {g : Outgoing o}

/-- A call that leaves the sending side alone. -/
lemma Outbound.of_rx (h : Outbound xs hand s g) (ledgers : Ledgers s' g.holdings)
    (rxPart : ∀ i ∈ rxSide s' g.holdings, i < o.FillRingNumDescs.toNat)
    (tx : s'.queues.tx = s.queues.tx) (completion : s'.queues.completion = s.queues.completion) :
    Outbound xs hand s' g := by
  have hside : txSide s' g.holdings = txSide s g.holdings := by
    rw [txSide, txSide, txFrames, txFrames, tx, completion]
  exact ⟨ledgers, rxPart, hside ▸ h.txPart, hside ▸ h.inHand, tx ▸ h.waiting, h.flying, h.held⟩

lemma fill_outbound (ho : Accepted o) (hfit : o.FillRingNumDescs ≤ o.NumFrames) (n : ℤ) :
    Ensures (KernelStep o) (TxStep o) (Outbound xs hand) (fillFree o n)
      fun _ => Outbound xs hand := by
  refine ensures_atomically (fillFree_atomically ho hfit n) (fun _ _ h => h.ledgers.valid)
    (keeps_outbound ho) (fun _ => keeps_outbound ho) ?_
  intro s g a s' h hrun
  have hledgers := fillFree_ledgers ho hfit h.ledgers hrun
  obtain ⟨batch, rfl, hframes, hroom⟩ := fillFree_batch ho hfit h.ledgers.valid hrun
  refine h.of_rx hledgers (fun i hi => ?_) rfl rfl
  rcases List.mem_append.mp ((rxSide_filled ho hroom g.holdings).subset hi) with hi | hi
  · exact h.rxPart i hi
  · rw [hframes] at hi
    have hscanned := List.mem_of_mem_filter (List.mem_of_mem_take hi)
    simp only [scanned, if_true, List.mem_range'_1] at hscanned
    omega

lemma receive_outbound (ho : FourRings o) (n : ℤ) :
    Ensures (KernelStep o) (TxStep o) (Outbound xs hand) (receive o n)
      fun _ => Outbound xs hand := by
  refine ensures_atomically (receive_atomically ho.toAccepted ho.rxPos n)
    (fun _ _ h => h.ledgers.valid) (keeps_outbound ho.toAccepted)
    (fun _ => keeps_outbound ho.toAccepted) ?_
  intro s g descs s' h hrun
  have hledgers := receive_ledgers ho.toAccepted h.ledgers hrun
  obtain ⟨r, j, hpos, hr, hj, _, rfl, _⟩ := receive_returns ho.toAccepted h.ledgers.valid hrun
  refine h.of_rx hledgers (fun i hi => h.rxPart i ?_) rfl rfl
  exact (rxSide_received ho.toAccepted hpos hr hj g.holdings).symm.subset
    (List.mem_append_left _ hi)

lemma poll_outbound (ho : FourRings o) (errs : List Errno) :
    Ensures (KernelStep o) (TxStep o) (Outbound xs hand) (poll o errs)
      fun _ => Outbound xs hand := by
  refine ensures_poll ho errs (keeps_outbound ho.toAccepted) (fun _ _ h => h.ledgers.valid) ?_
  intro s g h
  have hside := txSide_completed ho.toAccepted (s := s) g.holdings
  have hsub : ∀ i ∈ txSide s.completed g.holdings, i ∈ txSide s g.holdings :=
    fun i hi => hside.symm.subset (List.mem_append_left _ hi)
  refine ⟨h.ledgers.completed ho.toAccepted, h.rxPart, fun i hi => h.txPart i (hsub i hi),
    fun i hi => ?_, h.waiting, h.flying, h.held⟩
  obtain ⟨hpart, hlt, hfree⟩ := h.inHand i hi
  exact ⟨hpart, hlt, fun hmem => hfree (hsub i hmem)⟩

lemma Outbound.given (ho : Accepted o) (hfit : o.FillRingNumDescs ≤ o.NumFrames)
    (h : Outbound xs hand s g) {n : ℤ} {descs : List Desc}
    (found : getDescs o n false s = some descs) :
    Outbound xs (hand ++ frames o descs) s g := by
  obtain ⟨hframes, _, _, hfree⟩ := getDescs_spec ho hfit found
  refine { h with inHand := fun i hi => ?_ }
  rcases List.mem_append.mp hi with hi | hi
  · exact h.inHand i hi
  · have hscanned : i ∈ scanned o false := by
      rw [hframes] at hi
      exact List.mem_of_mem_filter (List.mem_of_mem_take hi)
    have hlt := scanned_lt hfit false i hscanned
    simp only [scanned, Bool.false_eq_true, if_false, List.mem_range'_1] at hscanned
    exact ⟨hscanned.1, hlt, (free_or_given h.ledgers.tx hlt).mp (hfree i hi)⟩

end Calls

section Transmit
variable {xs : List (List UInt8)} {hand : List ℕ} {s s' : Socket o} {g g' : Outgoing o}
  {descs : List Desc} {packets : List (List UInt8)}

/-- The user has written the packets to frames in hand. -/
def Prepared (descs : List Desc) (packets : List (List UInt8)) (xs : List (List UInt8))
    (hand : List ℕ) (s : Socket o) (g : Outgoing o) : Prop :=
  Outbound xs hand s g ∧ List.Forall₂ (Stores g.umem) descs packets

lemma keeps_prepared (ho : Accepted o) (own : ∀ i ∈ frames o descs, i ∈ hand) :
    Keeps (KernelStep o) (TxStep o) (Prepared (o := o) descs packets xs hand) := by
  intro s g l s' g' h step send
  refine ⟨keeps_outbound ho s g l s' g' h.1 step send, stores_congr ho h.2 fun j hj => ?_⟩
  exact send.writes j (h.1.apart (h.1.inHand _ (own _ hj)).1)

/-- What is put on the ring is a beginning of what was handed over. -/
lemma Prepared.transmitted (ho : FourRings o) (h : Prepared descs packets xs hand s g)
    (own : ∀ i ∈ frames o descs, i ∈ hand) (once : (frames o descs).Nodup)
    {r : Ring Desc o.TxRingNumDescs.toNat} (hr : s.txRing = some r) (m : ℕ)
    (hroom : r.outstanding + (descs.take m).length ≤ o.TxRingNumDescs.toNat) :
    Outbound (xs ++ packets.take m) (hand.filter fun i => i ∉ frames o (descs.take m))
      (s.transmitted r (descs.take m)) g := by
  obtain ⟨h, hstores⟩ := h
  have hside := txSide_transmitted ho.toAccepted ho.txPos hr hroom g.holdings
  have hbatch : ∀ i ∈ frames o (descs.take m), i ∈ hand := fun i hi =>
    own i (frames_take descs m ▸ hi |> List.mem_of_mem_take)
  have hledgers : Ledgers (s.transmitted r (descs.take m)) g.holdings := by
    refine h.ledgers.transmitted ho.toAccepted ho.txPos hr hroom ?_ fun i hi => ?_
    · rw [frames_take]
      exact once.sublist (List.take_sublist _ _)
    · obtain ⟨_, hlt, hfree⟩ := h.inHand i (hbatch i hi)
      exact (free_or_given h.ledgers.tx hlt).mpr hfree
  refine ⟨hledgers, h.rxPart, fun i hi => ?_, fun i hi => ?_, ?_, h.flying, h.held⟩
  · rcases List.mem_append.mp (hside.subset hi) with hi | hi
    · exact h.txPart i hi
    · exact (h.inHand i (hbatch i hi)).1
  · simp only [List.mem_filter, decide_eq_true_eq] at hi
    obtain ⟨hpart, hlt, hfree⟩ := h.inHand i hi.1
    refine ⟨hpart, hlt, fun hmem => ?_⟩
    rcases List.mem_append.mp (hside.subset hmem) with hmem | hmem
    · exact hfree hmem
    · exact hi.2 hmem
  · obtain ⟨waiting, hwaiting, hxs⟩ := h.waiting
    refine ⟨waiting ++ packets.take m, ?_, by rw [hxs, List.append_assoc]⟩
    have hq := (queue_pushAll (ho.tx ho.txPos).size.1 (descs.take m) hroom).1
    have htx : (s.transmitted r (descs.take m)).queues.tx = s.queues.tx ++ descs.take m := by
      simp only [Socket.queues, Socket.transmitted, hr, Option.elim_some, hq]
    rw [htx]
    exact List.rel_append hwaiting (List.forall₂_take m hstores)

lemma transmit_outbound (ho : FourRings o) (own : ∀ i ∈ frames o descs, i ∈ hand)
    (once : (frames o descs).Nodup) (hon : ∀ d ∈ descs, onFrame o d.Addr = true)
    (errs : List Errno) :
    Maintains (KernelStep o) (TxStep o) (Prepared descs packets xs hand) (transmit o descs errs)
      fun n => Outbound (xs ++ packets.take n.toNat)
        (hand.filter fun i => i ∉ frames o (descs.take n.toNat)) := by
  have hsubmit : Ensures (KernelStep o) (TxStep o) (Prepared descs packets xs hand)
      (submitTx o descs) fun n => Outbound (xs ++ packets.take n.toNat)
        (hand.filter fun i => i ∉ frames o (descs.take n.toNat)) := by
    refine ensures_atomically (submitTx_atomically ho.toAccepted ho.txPos hon)
      (fun _ _ h => h.1.ledgers.valid) (keeps_prepared ho.toAccepted own)
      (fun _ => keeps_outbound ho.toAccepted) ?_
    intro s g n s' h hrun
    obtain ⟨r, _, hr, hn, rfl, hroom⟩ := submitTx_batch ho.toAccepted h.1.ledgers.valid hon hrun
    have hsame : descs.take s.txRoom = descs.take n.toNat := by
      rw [hn, Int.toNat_natCast, List.length_take, List.take_eq_take_iff]
      omega
    rw [hsame] at hroom ⊢
    exact h.transmitted ho own once hr n.toNat hroom
  refine maintains_bind hsubmit.maintains fun n => ?_
  rcases sendto_cases errs with hret | hpanic
  · simp only [hret, bind_def, pure_def, ret_bind]
    exact maintains_ret (keeps_outbound ho.toAccepted) fun _ _ h => h
  · simp only [hpanic, bind_def, pure_def]
    exact maintains_bind (maintains_fetch (keeps_outbound ho.toAccepted)) fun _ =>
      maintains_ret (keeps_outbound ho.toAccepted) fun _ _ h => h

theorem sends_outbound (ho : FourRings o) (hfit : o.FillRingNumDescs ≤ o.NumFrames)
    (h : Sends o xs hand s g) : Outbound xs hand s g := by
  induction h with
  | start umem =>
    have hrx : rxSide (newSocket o) Holdings.none = [] := by
      rw [rxSide, newSocket_queues]
      rfl
    have htx : txSide (newSocket o) Holdings.none = [] := by
      rw [txSide, newSocket_queues]
      rfl
    refine ⟨newSocket_ledgers, by simp [hrx], by simp [htx], by simp, ⟨[], ?_, rfl⟩, by simp, rfl⟩
    rw [newSocket_queues]
    exact .nil
  | kernel _ step send ih => exact keeps_outbound ho.toAccepted _ _ _ _ _ ih step send
  | write _ writes ih => exact ih.write ho.toAccepted writes
  | getDescs _ found ih => exact ih.given ho.toAccepted hfit found
  | prepare _ writes ih =>
    exact ih.unwritten ho.toAccepted fun j hj => writes j fun hmem => (ih.inHand _ hmem).2.2 hj
  | @transmit xs hand s s' g g' ls descs packets n errs _ own once stores run send ih =>
    have hon : ∀ d ∈ descs, onFrame o d.Addr = true := fun d hd =>
      decide_eq_true (ih.inHand _ (own _ (List.mem_map_of_mem hd))).2.1
    exact transmit_outbound ho own once hon errs _ _ _ _ _ _ ⟨ih, stores⟩ run send
  | fill n _ run send ih =>
    exact (fill_outbound ho.toAccepted hfit n _ _ _ _ _ _ ih run send).choose_spec.2
  | receive n _ run send ih =>
    exact (receive_outbound ho n _ _ _ _ _ _ ih run send).choose_spec.2
  | poll errs _ run send ih =>
    exact (poll_outbound ho errs _ _ _ _ _ _ ih run send).choose_spec.2

end Transmit

section FirstPacket
open FilterPrograms

def txDesc : Desc := ⟨2048, 54, 0⟩

end FirstPacket

end Defrizer.XdpSocket
