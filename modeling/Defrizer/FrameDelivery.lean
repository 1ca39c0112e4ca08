import Defrizer.ReceiveLoop
import Defrizer.DescriptorRanges
import Defrizer.EventFeed

/-!
# The packets that are examined

The receive loop with the bytes of the UMEM: what the kernel writes to the frames it holds, what
it delivers, and what `main` of `dumpframes.go` then reads with `GetFrame`. Frames that are not
held are not written to, so a packet stays as it was delivered until it is read.
-/
namespace Defrizer.XdpSocket
open InterleavedProgram WrappingRing RingPort OwnershipLedger KernelMaps

/-- The kernel's side of the packets: the frames it holds, the memory, and all packets it has
delivered so far. -/
structure Delivery (o : SocketOptions) where
  holdings : Holdings
  umem : Umem o
  delivered : List (List UInt8)

variable {o : SocketOptions}

/-- Only frames that are held for receiving are written to. -/
def Writes (k : Holdings) (umem umem' : Umem o) : Prop :=
  ∀ i, i / o.FrameSize.toNat ∉ k.rx.map (frameIndex o) → umem'[i]? = umem[i]?

/-- The bytes of the descriptor are in the frame it begins in. -/
def Desc.Whole (o : SocketOptions) (d : Desc) : Prop :=
  d.Addr.toNat % o.FrameSize.toNat + d.Len.toNat ≤ o.FrameSize.toNat

/-- The kernel delivers a packet to a frame it holds. The packets that come to the socket are
those with `admits`. -/
inductive DeliverStep (o : SocketOptions) (admits : List UInt8 → Prop) :
    Delivery o → KernelEvent → Delivery o → Prop
  | deliver {g k' umem' d packet} (hold : HoldStep o g.holdings (.pushRx d) k')
      (writes : Writes g.holdings g.umem umem') (whole : d.Whole o)
      (written : getFrame umem' d = some packet) (admitted : admits packet) :
      DeliverStep o admits g (.pushRx d) ⟨k', umem', g.delivered ++ [packet]⟩
  | other {g k' umem' l} (hold : HoldStep o g.holdings l k')
      (writes : Writes g.holdings g.umem umem') (silent : ∀ d, l ≠ .pushRx d) :
      DeliverStep o admits g l ⟨k', umem', g.delivered⟩

/-- `Reaches` with the memory and with the packets that were examined. -/
inductive Delivers (o : SocketOptions) (admits : List UInt8 → Prop) :
    Point → Socket o → Delivery o → List (List UInt8) → Prop
  | start (umem : Umem o) : Delivers o admits .top (newSocket o) ⟨Holdings.none, umem, []⟩ []
  | kernel {p s s' g g' l xs} (h : Delivers o admits p s g xs) (step : KernelStep o s l s')
      (deliver : DeliverStep o admits g l g') : Delivers o admits p s' g' xs
  | write {p s g umem' xs} (h : Delivers o admits p s g xs)
      (writes : Writes g.holdings g.umem umem') : Delivers o admits p s { g with umem := umem' } xs
  | refill {s s' g g' ls r xs} (h : Delivers o admits .top s g xs)
      (run : Exec (KernelStep o) (refill o) s ls r s')
      (deliver : Steps (DeliverStep o admits) g ls g') :
      Delivers o admits (afterRefill r) s' g' xs
  | poll {s s' g g' ls r xs} (errs : List Errno) (h : Delivers o admits .poll s g xs)
      (run : Exec (KernelStep o) (poll o errs) s ls r s')
      (deliver : Steps (DeliverStep o admits) g ls g') :
      Delivers o admits (afterPoll r) s' g' xs
  | receive {numRx s s' g g' ls r xs} (h : Delivers o admits (.receiving numRx) s g xs)
      (run : Exec (KernelStep o) (receive o numRx) s ls r s')
      (deliver : Steps (DeliverStep o admits) g ls g') :
      Delivers o admits (afterReceive numRx r) s' g' xs
  | examine {numRx rxDescs i s g d pktData xs}
      (h : Delivers o admits (.received numRx rxDescs i) s g xs) (next : rxDescs[i]? = some d)
      (read : getFrame g.umem d = some pktData) :
      Delivers o admits (.received numRx rxDescs (i + 1)) s g (xs ++ [pktData])
  | outside {numRx rxDescs i s g d xs} (h : Delivers o admits (.received numRx rxDescs i) s g xs)
      (next : rxDescs[i]? = some d) (read : getFrame g.umem d = none) :
      Delivers o admits (.outside d) s g xs
  | again {numRx rxDescs s g xs}
      (h : Delivers o admits (.received numRx rxDescs rxDescs.length) s g xs) :
      Delivers o admits .top s g xs

section Memory

lemma Desc.Whole.frame (ho : Accepted o) {d : Desc} (whole : d.Whole o) {j : ℕ}
    (hj : j < d.Len.toNat) : (d.Addr.toNat + j) / o.FrameSize.toNat = frameIndex o d.Addr := by
  have hpos : 0 < o.FrameSize.toNat := by have := ho.frameSize; omega
  have hmod := Nat.mod_add_div d.Addr.toNat o.FrameSize.toNat
  have hwhole : d.Addr.toNat % o.FrameSize.toNat + d.Len.toNat ≤ o.FrameSize.toNat := whole
  have hlt : d.Addr.toNat % o.FrameSize.toNat + j < o.FrameSize.toNat := by omega
  rw [frameIndex_eq ho]
  conv_lhs => rw [← hmod, Nat.add_right_comm, Nat.add_mul_div_left _ _ hpos,
    Nat.div_eq_of_lt hlt, Nat.zero_add]

/-- What is in the frame of a descriptor decides what `GetFrame` reads. -/
lemma getFrame_congr (ho : Accepted o) {umem umem' : Umem o} {d : Desc} (whole : d.Whole o)
    (same : ∀ i, i / o.FrameSize.toNat = frameIndex o d.Addr → umem'[i]? = umem[i]?) :
    getFrame umem' d = getFrame umem d := by
  rw [getFrame, getFrame]
  refine if_congr Iff.rfl ?_ rfl
  congr 1
  apply List.ext_getElem?
  intro j
  have hhigh : (d.Addr + d.Len.toUInt64).toNat ≤ d.Addr.toNat + d.Len.toNat := by
    rw [UInt64.toNat_add, UInt32.toNat_toUInt64]
    exact Nat.mod_le _ _
  rw [List.getElem?_drop, List.getElem?_drop, List.getElem?_take, List.getElem?_take]
  by_cases hj : d.Addr.toNat + j < (d.Addr + d.Len.toUInt64).toNat
  · have hsame := same _ (whole.frame ho (show j < d.Len.toNat by omega))
    rw [if_pos hj, if_pos hj, Vector.getElem?_toList, Vector.getElem?_toList, hsame]
  · rw [if_neg hj, if_neg hj]

/-- The packet is in the frame of the descriptor. -/
def Stores (umem : Umem o) (d : Desc) (packet : List UInt8) : Prop :=
  d.Whole o ∧ getFrame umem d = some packet

lemma Stores.congr (ho : Accepted o) {umem umem' : Umem o} {d : Desc} {packet : List UInt8}
    (h : Stores umem d packet)
    (same : ∀ i, i / o.FrameSize.toNat = frameIndex o d.Addr → umem'[i]? = umem[i]?) :
    Stores umem' d packet :=
  ⟨h.1, (getFrame_congr ho h.1 same).trans h.2⟩

lemma stores_congr (ho : Accepted o) {umem umem' : Umem o} {ds : List Desc}
    {packets : List (List UInt8)} (h : List.Forall₂ (Stores umem) ds packets)
    (same : ∀ i, i / o.FrameSize.toNat ∈ frames o ds → umem'[i]? = umem[i]?) :
    List.Forall₂ (Stores umem') ds packets := by
  induction h with
  | nil => exact .nil
  | cons hfirst _ ih =>
    refine .cons (hfirst.congr ho fun i hi => same i ?_) (ih fun i hi => same i ?_)
    · rw [hi]
      exact List.mem_cons_self ..
    · exact List.mem_cons_of_mem _ hi

/-- The memory with the packet from byte `low` on. -/
def putPacket (umem : Umem o) (low : ℕ) (packet : List UInt8) : Umem o :=
  Vector.ofFn fun i => if low ≤ i.val then packet[i.val - low]?.getD umem[i] else umem[i]

lemma putPacket_outside (umem : Umem o) {low : ℕ} {packet : List UInt8} {i : ℕ}
    (h : low ≤ i → low + packet.length ≤ i) : (putPacket umem low packet)[i]? = umem[i]? := by
  rw [putPacket, Vector.getElem?_ofFn]
  by_cases hi : i < o.NumFrames.toNat * o.FrameSize.toNat
  · rw [dif_pos hi, Vector.getElem?_eq_getElem hi]
    by_cases hlow : low ≤ i
    · have hnone : packet[i - low]? = none := List.getElem?_eq_none (by have := h hlow; omega)
      simp [hlow, hnone]
    · simp [hlow]
  · rw [dif_neg hi, Vector.getElem?_eq_none (not_lt.mp hi)]

lemma putPacket_elsewhere (ho : Accepted o) (umem : Umem o) {d : Desc} {packet : List UInt8}
    (whole : d.Whole o) (hlen : packet.length = d.Len.toNat) {i : ℕ}
    (h : i / o.FrameSize.toNat ≠ frameIndex o d.Addr) :
    (putPacket umem d.Addr.toNat packet)[i]? = umem[i]? := by
  refine putPacket_outside umem fun hlow => ?_
  by_contra hlt
  have hframe := whole.frame ho (show i - d.Addr.toNat < d.Len.toNat by omega)
  rw [Nat.add_sub_cancel' hlow] at hframe
  exact h hframe

lemma putPacket_inside (umem : Umem o) {low : ℕ} {packet : List UInt8} {j : ℕ}
    (hj : j < packet.length) (h : low + j < o.NumFrames.toNat * o.FrameSize.toNat) :
    (putPacket umem low packet)[low + j]? = packet[j]? := by
  rw [putPacket, Vector.getElem?_ofFn, dif_pos h, List.getElem?_eq_getElem hj]
  simp [hj]

lemma getFrame_putPacket (umem : Umem o) {d : Desc} {packet : List UInt8} (inside : d.InUmem o)
    (hlen : packet.length = d.Len.toNat) :
    getFrame (putPacket umem d.Addr.toNat packet) d = some packet := by
  obtain ⟨hle, hhigh⟩ := inside
  have hsum : (d.Addr + d.Len.toUInt64).toNat = d.Addr.toNat + d.Len.toNat := by
    rw [UInt64.le_iff_toNat_le, UInt64.toNat_add, UInt32.toNat_toUInt64] at hle
    rw [UInt64.toNat_add, UInt32.toNat_toUInt64]
    have haddr := d.Addr.toNat_lt
    have hlen := d.Len.toNat_lt
    omega
  rw [getFrame, if_pos ⟨hle, hhigh⟩, hsum]
  congr 1
  apply List.ext_getElem?
  intro j
  rw [List.getElem?_drop, List.getElem?_take, Vector.getElem?_toList]
  by_cases hj : j < packet.length
  · rw [if_pos (by omega), putPacket_inside umem hj (by omega)]
  · rw [if_neg (by omega), List.getElem?_eq_none (not_lt.mp hj)]

end Memory

section Invariant

/-- The packets that were delivered are those examined, those in hand and those on the Rx ring,
in this order; and nobody writes to the frames of the last two. -/
structure Waiting (xs : List (List UInt8)) (inHand : List Desc) (s : Socket o) (g : Delivery o) :
    Prop where
  valid : s.Valid
  apart : (rxSide s g.holdings ++ frames o inHand).Nodup
  waiting : ∃ packets, List.Forall₂ (Stores g.umem) (inHand ++ s.queues.rx) packets ∧
    g.delivered = xs ++ packets

variable {admits : List UInt8 → Prop} {xs : List (List UInt8)} {inHand : List Desc}
  {s s' : Socket o} {g g' : Delivery o}

/-- The frames in hand and on the Rx ring are not held by the kernel. -/
lemma Waiting.free (h : Waiting xs inHand s g) :
    ∀ i ∈ frames o (inHand ++ s.queues.rx), i ∉ g.holdings.rx.map (frameIndex o) := by
  intro i hi hheld
  have happart := h.apart
  simp only [rxSide, rxFrames] at happart
  rw [frames, List.map_append, List.mem_append] at hi
  rw [List.nodup_append] at happart
  obtain ⟨hside, _, hhand⟩ := happart
  rcases hi with hi | hi
  · exact hhand i (List.mem_append_left _ (List.mem_append_right _ hheld)) i hi rfl
  · exact (List.nodup_append.mp hside).2.2 i (List.mem_append_right _ hheld) i hi rfl

lemma Waiting.write (ho : Accepted o) (h : Waiting xs inHand s g) {umem' : Umem o}
    (writes : Writes g.holdings g.umem umem') :
    Waiting xs inHand s { g with umem := umem' } := by
  obtain ⟨packets, hstores, hdelivered⟩ := h.waiting
  exact ⟨h.valid, h.apart, packets,
    stores_congr ho hstores fun i hi => writes i (h.free _ hi), hdelivered⟩

lemma DeliverStep.hold {l : KernelEvent} (h : DeliverStep o admits g l g') : HoldStep o g.holdings l g'.holdings := by
  cases h with
  | deliver hold => exact hold
  | other hold => exact hold

theorem keeps_waiting (ho : Accepted o) :
    Keeps (KernelStep o) (DeliverStep o admits) (Waiting (o := o) xs inHand) := by
  intro s g l s' g' h step deliver
  have hqueue := queueStep_of_kernelStep ho h.valid step
  have hperm := (frames_queueStep hqueue deliver.hold).1
  have hvalid := stable_valid ho s l s' h.valid step
  have happart := ((hperm.append_right _).nodup_iff).mpr h.apart
  cases deliver with
  | @deliver k' umem' d packet hold writes whole written admitted =>
    obtain ⟨packets, hstores, hdelivered⟩ := (h.write ho writes).waiting
    refine ⟨hvalid, happart, packets ++ [packet], ?_, ?_⟩
    · have hrx : s'.queues.rx = s.queues.rx ++ [d] := by
        generalize s.queues = q at hqueue
        generalize s'.queues = q' at hqueue
        cases hqueue
        rfl
      rw [hrx, ← List.append_assoc]
      exact List.rel_append hstores (.cons ⟨whole, written⟩ .nil)
    · simp only at hdelivered ⊢
      rw [hdelivered, List.append_assoc]
  | @other k' umem' l hold writes silent =>
    obtain ⟨packets, hstores, hdelivered⟩ := (h.write ho writes).waiting
    refine ⟨hvalid, happart, packets, ?_, hdelivered⟩
    have hrx : s'.queues.rx = s.queues.rx := by
      generalize s.queues = q at hqueue
      generalize s'.queues = q' at hqueue
      cases hqueue with
      | pushRx => exact absurd rfl (silent _)
      | _ => rfl
    rw [hrx]
    exact hstores

end Invariant

section Calls

variable {admits : List UInt8 → Prop} {xs : List (List UInt8)}

/-- Between the calls nothing is in hand, and the books are exact. -/
def Balanced (xs : List (List UInt8)) (s : Socket o) (g : Delivery o) : Prop :=
  Ledgers s g.holdings ∧ Waiting xs [] s g

lemma keeps_balanced (ho : Accepted o) :
    Keeps (KernelStep o) (DeliverStep o admits) (Balanced (o := o) xs) :=
  fun s g l s' g' h step deliver =>
    ⟨keeps_ledgers ho s g.holdings l s' g'.holdings h.1 step deliver.hold,
      keeps_waiting ho s g l s' g' h.2 step deliver⟩

lemma Balanced.of_ledgers {s s' : Socket o} {g : Delivery o} (h : Balanced xs s g)
    (ledgers : Ledgers s' g.holdings) (rx : s'.queues.rx = s.queues.rx) : Balanced xs s' g := by
  refine ⟨ledgers, ledgers.valid, ?_, rx ▸ h.2.waiting⟩
  rw [frames, List.map_nil, List.append_nil]
  exact ledgers.rx.nodup

/-- A call that keeps the books and leaves the Rx ring alone. -/
lemma ensures_balanced (ho : Accepted o) {α : Type} {p : Prog (Socket o) α}
    (hp : RunsAtomically (KernelStep o) Socket.Valid p)
    (h : ∀ s k a s', Ledgers s k → p.run s = some (a, s') →
      Ledgers s' k ∧ s'.queues.rx = s.queues.rx) :
    Ensures (KernelStep o) (DeliverStep o admits) (Balanced xs) p fun _ => Balanced xs := by
  refine ensures_atomically hp (fun _ _ h => h.1.valid) (keeps_balanced ho)
    (fun _ => keeps_balanced ho) ?_
  intro s g a s' hs hrun
  obtain ⟨hledgers, hrx⟩ := h s g.holdings a s' hs.1 hrun
  exact hs.of_ledgers hledgers hrx

lemma refill_balanced (ho : Accepted o) (hfit : o.FillRingNumDescs ≤ o.NumFrames) :
    Ensures (KernelStep o) (DeliverStep o admits) (Balanced xs) (refill o) fun _ => Balanced xs := by
  refine ensures_bind (ensures_balanced ho numFreeFillSlots_atomically ?_) fun n => ?_
  · intro s k n s' h hrun
    rw [numFreeFillSlots_run ho h.valid] at hrun
    cases hrun
    exact ⟨h, rfl⟩
  have hret : Ensures (KernelStep o) (DeliverStep o admits) (Balanced xs) (.ret ())
      fun _ => Balanced xs := ensures_ret (keeps_balanced ho) fun _ _ h => h
  split_ifs with hn
  · refine ensures_bind (ensures_balanced ho (fillFree_atomically ho hfit n) ?_) fun _ => hret
    intro s k a s' h hrun
    have hledgers := fillFree_ledgers ho hfit h hrun
    obtain ⟨descs, rfl, _, _⟩ := fillFree_batch ho hfit h.valid hrun
    exact ⟨hledgers, rfl⟩
  · exact hret

/-- `Poll` keeps what its completions keep. -/
lemma ensures_poll (ho : FourRings o) (errs : List Errno) {κ : Type}
    {H : κ → KernelEvent → κ → Prop} {I : Socket o → κ → Prop} (hI : Keeps (KernelStep o) H I)
    (hvalid : ∀ s k, I s k → s.Valid) (hcompleted : ∀ s k, I s k → I s.completed k) :
    Ensures (KernelStep o) H I (poll o errs) fun _ => I := by
  have hret : ∀ a : ℤ × ℤ × Option Errno, Ensures (KernelStep o) H I (.ret a) fun _ => I :=
    fun a => ensures_ret hI fun _ _ h => h
  refine ensures_bind (ensures_atomically (pollEvents_atomically ho.toAccepted) hvalid hI
    (fun _ => hI) ?_) fun events => ?_
  · intro s k a s' h hrun
    rw [run_fetch] at hrun
    cases hrun
    exact h
  split_ifs
  · exact hret _
  cases pollLoop errs with
  | some e => exact hret _
  | none =>
    refine ensures_bind (ensures_atomically (numReceived_atomically ho.toAccepted ho.rxPos) hvalid
      hI (fun _ => hI) ?_) fun received => ?_
    · intro s k a s' h hrun
      obtain ⟨r, hr, _⟩ := (hvalid s k h).rx ho.rxPos
      rw [numReceived_run ho.toAccepted ho.rxPos hr (hvalid s k h)] at hrun
      cases hrun
      exact h
    · refine ensures_atomically (pollComplete_atomically ho.toAccepted received) hvalid hI
        (fun _ => hI) ?_
      intro s k a s' h hrun
      rw [pollComplete_run ho.toAccepted (hvalid s k h)] at hrun
      cases hrun
      exact hcompleted s k h

lemma poll_balanced (ho : FourRings o) (errs : List Errno) :
    Ensures (KernelStep o) (DeliverStep o admits) (Balanced xs) (poll o errs)
      fun _ => Balanced xs :=
  ensures_poll ho errs (keeps_balanced ho.toAccepted) (fun _ _ h => h.1.valid)
    fun _ _ h => h.of_ledgers (h.1.completed ho.toAccepted) rfl

/-- What a `Receive` takes from the Rx ring is in hand then, in the order of the ring. -/
lemma receive_waiting (ho : FourRings o) (numRx : ℤ) :
    Ensures (KernelStep o) (DeliverStep o admits) (Balanced xs) (receive o numRx)
      fun rxDescs => Waiting xs rxDescs := by
  refine ensures_atomically (receive_atomically ho.toAccepted ho.rxPos numRx)
    (fun _ _ h => h.1.valid) (keeps_balanced ho.toAccepted)
    (fun rxDescs => keeps_waiting ho.toAccepted) ?_
  intro s g rxDescs s' h hrun
  obtain ⟨r, hr, _⟩ := h.1.valid.rx ho.rxPos
  have hr' : s.rxRing = some r := hr
  have hledgers := receive_ledgers ho.toAccepted h.1 hrun
  have hn := (ho.rx ho.rxPos).size.1
  rw [receive_run ho.toAccepted ho.rxPos hr' h.1.valid] at hrun
  cases hrun
  have hle : (min numRx (r.outstanding : ℤ)).toNat ≤ r.outstanding := by omega
  refine ⟨hledgers.valid, ?_, ?_⟩
  · have hside := rxSide_received ho.toAccepted ho.rxPos hr' hle g.holdings
    exact hside.nodup_iff.mp h.1.rx.nodup
  · obtain ⟨packets, hstores, hdelivered⟩ := h.2.waiting
    refine ⟨packets, ?_, hdelivered⟩
    have hsplit : r.queue.take (min numRx (r.outstanding : ℤ)).toNat ++
        (s.received r (min numRx (r.outstanding : ℤ)).toNat).queues.rx = s.queues.rx := by
      simp only [Socket.queues, Socket.received, hr', Option.elim_some,
        (queue_popAll hn hle).1, List.take_append_drop]
    rw [hsplit]
    exact hstores

end Calls

section Loop

variable {admits : List UInt8 → Prop} {p : Point} {s s' : Socket o} {g g' : Delivery o}
  {xs : List (List UInt8)}

/-- The descriptors that were received and not examined yet. -/
def inHandAt : Point → List Desc
  | .received _ rxDescs i => rxDescs.drop i
  | _ => []

lemma Waiting.examined {d : Desc} {rest : List Desc} (h : Waiting xs (d :: rest) s g) :
    ∃ packet, getFrame g.umem d = some packet ∧ Waiting (xs ++ [packet]) rest s g := by
  obtain ⟨packets, hstores, hdelivered⟩ := h.waiting
  rw [List.cons_append] at hstores
  cases hstores with
  | @cons _ packet _ packets hfirst hrest =>
    refine ⟨packet, hfirst.2, h.valid, ?_, packets, hrest, ?_⟩
    · have hsub : (frames o rest).Sublist (frames o (d :: rest)) :=
        (List.sublist_cons_self d rest).map _
      exact h.apart.sublist (hsub.append_left _)
    · rw [hdelivered, List.append_assoc]
      rfl

lemma newSocket_waiting (umem : Umem o) :
    Waiting [] [] (newSocket o) ⟨Holdings.none, umem, []⟩ where
  valid := newSocket_valid
  apart := by
    rw [frames, List.map_nil, List.append_nil]
    exact newSocket_ledgers.rx.nodup
  waiting := ⟨[], by rw [newSocket_queues]; exact .nil, rfl⟩

lemma DeliverStep.admitted {l : KernelEvent} (h : DeliverStep o admits g l g')
    (hg : ∀ packet ∈ g.delivered, admits packet) : ∀ packet ∈ g'.delivered, admits packet := by
  cases h with
  | deliver _ _ _ _ admitted =>
    intro packet hmem
    rcases List.mem_append.mp hmem with hmem | hmem
    · exact hg packet hmem
    · exact List.mem_singleton.mp hmem ▸ admitted
  | other => exact hg

lemma admitted_steps {ls : List KernelEvent} (h : Steps (DeliverStep o admits) g ls g')
    (hg : ∀ packet ∈ g.delivered, admits packet) : ∀ packet ∈ g'.delivered, admits packet := by
  induction h with
  | nil => exact hg
  | cons step _ ih => exact ih (step.admitted hg)

/-- What holds wherever the loop is. -/
structure Examining (p : Point) (s : Socket o) (g : Delivery o) (xs : List (List UInt8))
    (admits : List UInt8 → Prop) : Prop where
  reached : Reaches (newSocket o) p s g.holdings
  waiting : Waiting xs (inHandAt p) s g
  admitted : ∀ packet ∈ g.delivered, admits packet
  inside : ∀ d, p ≠ .outside d

theorem delivers_examining (ho : FourRings o) (hfit : o.FillRingNumDescs ≤ o.NumFrames)
    (h : Delivers o admits p s g xs) : Examining p s g xs admits := by
  have hold : ∀ (g : Delivery o) l (g' : Delivery o), DeliverStep o admits g l g' →
      HoldStep o g.holdings l g'.holdings := fun _ _ _ => DeliverStep.hold
  have hinvariant := @reaches_invariant o ho hfit
  induction h with
  | start umem =>
    exact ⟨.start, newSocket_waiting umem, fun _ h => absurd h List.not_mem_nil, by simp⟩
  | kernel _ step deliver ih =>
    exact ⟨.kernel ih.reached step deliver.hold,
      keeps_waiting ho.toAccepted _ _ _ _ _ ih.waiting step deliver, deliver.admitted ih.admitted,
      ih.inside⟩
  | write _ writes ih =>
    exact ⟨ih.reached, ih.waiting.write ho.toAccepted writes, ih.admitted, ih.inside⟩
  | refill _ run deliver ih =>
    have hledgers := (hinvariant newSocket_receiving ih.reached).ledgers
    obtain ⟨_, rfl, _, hwaiting⟩ :=
      refill_balanced ho.toAccepted hfit _ _ _ _ _ _ ⟨hledgers, ih.waiting⟩ run deliver
    exact ⟨.refill ih.reached run (deliver.map hold), hwaiting, admitted_steps deliver ih.admitted,
      by simp [afterRefill]⟩
  | poll errs _ run deliver ih =>
    have hledgers := (hinvariant newSocket_receiving ih.reached).ledgers
    obtain ⟨⟨numRx, numCompleted, err⟩, rfl, _, hwaiting⟩ :=
      poll_balanced ho errs _ _ _ _ _ _ ⟨hledgers, ih.waiting⟩ run deliver
    have hreached := ih.reached.poll errs run (deliver.map hold)
    have hadmitted := admitted_steps deliver ih.admitted
    cases err with
    | some e => exact ⟨hreached, hwaiting, hadmitted, by simp [afterPoll]⟩
    | none =>
      simp only [afterPoll] at hreached ⊢
      split_ifs at hreached ⊢ with hpos
      · exact ⟨hreached, hwaiting, hadmitted, by simp⟩
      · exact ⟨hreached, hwaiting, hadmitted, by simp⟩
  | receive _ run deliver ih =>
    have hledgers := (hinvariant newSocket_receiving ih.reached).1.1.ledgers
    obtain ⟨rxDescs, rfl, hwaiting⟩ :=
      receive_waiting ho _ _ _ _ _ _ _ ⟨hledgers, ih.waiting⟩ run deliver
    exact ⟨.receive ih.reached run (deliver.map hold), hwaiting,
      admitted_steps deliver ih.admitted, by simp [afterReceive]⟩
  | @examine numRx rxDescs i s g d pktData xs _ next read ih =>
    have hwaiting := ih.waiting
    rw [inHandAt, List.drop_eq_getElem?_toList_append, next] at hwaiting
    obtain ⟨packet, hread, hrest⟩ := hwaiting.examined
    rw [read] at hread
    cases hread
    exact ⟨.getFrame g.umem ih.reached next read, hrest, ih.admitted, by simp⟩
  | @outside numRx rxDescs i s g d xs _ next read ih =>
    have hwaiting := ih.waiting
    rw [inHandAt, List.drop_eq_getElem?_toList_append, next] at hwaiting
    obtain ⟨packet, hread, _⟩ := hwaiting.examined
    rw [read] at hread
    cases hread
  | again _ ih =>
    refine ⟨.again ih.reached, ?_, ih.admitted, by simp⟩
    have hwaiting := ih.waiting
    rw [inHandAt, List.drop_length] at hwaiting
    exact hwaiting

/-- Wherever the loop is, it has not panicked, and what it has examined are the packets delivered
to the socket, byte for byte, from the first one on and in their order. At the top of the loop
the packets it has not examined are those on the Rx ring. -/
theorem examined_delivered (ho : FourRings o) (hfit : o.FillRingNumDescs ≤ o.NumFrames)
    (h : Delivers o admits p s g xs) :
    p ≠ .panicked ∧ (∀ d, p ≠ .outside d) ∧ xs <+: g.delivered ∧ (∀ packet ∈ xs, admits packet) ∧
      (p = .top → g.delivered.length = xs.length + s.queues.rx.length) := by
  obtain ⟨hreached, hwaiting, hadmitted, hinside⟩ := delivers_examining ho hfit h
  obtain ⟨packets, hstores, hdelivered⟩ := hwaiting.waiting
  have hbeginning : xs <+: g.delivered := ⟨packets, hdelivered.symm⟩
  refine ⟨?_, hinside, hbeginning, fun packet hmem => hadmitted packet (hbeginning.subset hmem), ?_⟩
  · rintro rfl
    exact reaches_invariant ho hfit newSocket_receiving hreached
  rintro rfl
  have hlen : packets.length = s.queues.rx.length := hstores.length_eq.symm
  rw [hdelivered, List.length_append, hlen]

end Loop

section Filter
open ByteFields FilterPrograms

/-- The packets `xdp_sock_prog` redirects, whatever the maps hold at that time. -/
def Redirected (e : ByteOrder) (packet : List UInt8) : Prop :=
  ∃ qidconf index, XdpTriggers e qidconf packet index

/-- With `xdp_sock_prog` in front of the socket, `dumpframes` examines a beginning of the packets
that the kernel delivers, and in each of them the program has found TCP to port 7777. -/
theorem dumpframes_examines (e : ByteOrder) (ho : FourRings o)
    (hfit : o.FillRingNumDescs ≤ o.NumFrames) {p : Point} {s : Socket o} {g : Delivery o}
    {xs : List (List UInt8)} (h : Delivers o (Redirected e) p s g xs) :
    p ≠ .panicked ∧ (∀ d, p ≠ .outside d) ∧ xs <+: g.delivered ∧
      (∀ packet ∈ xs, CarriesTcpTo 7777 packet) ∧
      (p = .top → g.delivered.length = xs.length + s.queues.rx.length) := by
  obtain ⟨hpanic, hinside, hbeginning, hredirected, hcount⟩ := examined_delivered ho hfit h
  refine ⟨hpanic, hinside, hbeginning, fun packet hmem => ?_, hcount⟩
  obtain ⟨qidconf, index, htriggers⟩ := hredirected packet hmem
  exact ((xdpTriggers_iff e qidconf packet index).mp htriggers).2

end Filter

section FirstPacket
open ByteFields FilterPrograms

/-- The kernel can write any packet of that length to a frame it holds. -/
lemma DeliverStep.put (ho : Accepted o) {admits : List UInt8 → Prop} {g : Delivery o}
    {k' : Holdings} {d : Desc} {packet : List UInt8}
    (hold : HoldStep o g.holdings (.pushRx d) k') (whole : d.Whole o) (inside : d.InUmem o)
    (hlen : packet.length = d.Len.toNat) (admitted : admits packet) :
    DeliverStep o admits g (.pushRx d)
      ⟨k', putPacket g.umem d.Addr.toNat packet, g.delivered ++ [packet]⟩ := by
  refine .deliver hold (fun i hi => putPacket_elsewhere ho _ whole hlen fun hframe => hi ?_) whole
    (getFrame_putPacket g.umem inside hlen) admitted
  cases hold with
  | pushRx held frame =>
    rw [hframe, frame]
    exact List.mem_map_of_mem held

theorem dumpframes_examines_syn : ∃ (numRx : ℤ) (s : Socket oneSlot) (g : Delivery oneSlot),
    Delivers oneSlot (Redirected .little) (.received numRx [firstDesc] 1) s g [synFrame] ∧
      g.delivered = [synFrame] ∧ CarriesTcpTo 7777 synFrame := by
  have ho := oneSlot_fourRings
  let umem : Umem oneSlot := Vector.replicate _ 0
  have hredirected : Redirected .little synFrame :=
    ⟨fun _ => some 1, 0, (xdpTriggers_iff _ _ _ _).mpr ⟨⟨1, rfl, by decide⟩, synFrame_carries⟩⟩
  have htakes : DeliverStep oneSlot (Redirected .little) ⟨Holdings.none, umem, []⟩ (.takeFill 0)
      ⟨⟨[0], []⟩, umem, []⟩ :=
    .other .takeFill (fun _ _ => rfl) (fun _ => by rintro ⟨⟩)
  have hpushes : HoldStep oneSlot ⟨[0], []⟩ (.pushRx firstDesc) ⟨[], []⟩ :=
    HoldStep.pushRx (k := ⟨[0], []⟩) (List.mem_singleton_self 0) rfl
  have hwhole : firstDesc.Whole oneSlot := by unfold Desc.Whole; decide
  have hinside : firstDesc.InUmem oneSlot := by unfold Desc.InUmem; decide
  have hdelivers : DeliverStep oneSlot (Redirected .little) ⟨⟨[0], []⟩, umem, []⟩ (.pushRx firstDesc)
      ⟨⟨[], []⟩, putPacket umem firstDesc.Addr.toNat synFrame, [synFrame]⟩ :=
    .put ho.toAccepted hpushes hwhole hinside rfl hredirected
  obtain ⟨s, s', s'', hrefill, hpoll, hreceive, _⟩ := oneSlot_round
  have hrun : Delivers oneSlot (Redirected .little) (.received 1 [firstDesc] 1) s''
      ⟨⟨[], []⟩, putPacket umem firstDesc.Addr.toNat synFrame, [synFrame]⟩ [synFrame] :=
    .examine (.receive (.poll [] (.refill (.start umem) (.of_run hrefill) (.nil _)) hpoll
      (.cons htakes (.cons hdelivers (.nil _)))) (.of_run hreceive) (.nil _)) rfl
      (getFrame_putPacket umem hinside rfl)
  obtain ⟨_, _, _, hcarries, _⟩ := dumpframes_examines .little ho (by decide) hrun
  exact ⟨1, s'', _, hrun, rfl, hcarries synFrame (List.mem_singleton_self _)⟩

end FirstPacket

end Defrizer.XdpSocket
