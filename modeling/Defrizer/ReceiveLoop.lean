import Defrizer.SplitDiscipline
import Defrizer.ReachableSockets

/-!
# The receive loop

The loop of `main` in `dumpframes.go`: refill the Fill ring, poll, receive what was counted and
read it. At every poll all frames of the receiving part are outstanding, so the kernel never runs
out of buffers and the poll waits.
-/
namespace Defrizer.XdpSocket
open InterleavedProgram WrappingRing RingPort OwnershipLedger KernelMaps

def refill (o : SocketOptions) : Prog (Socket o) Unit := do
  let n ← numFreeFillSlots o
  if n > 0 then do
    let _ ← fillFree o n
    return ()
  else return ()

/-- Where the loop is. After `Receive` it reads one descriptor after the other, and next the one
at `i`; at `outside d` its `GetFrame(d)` has panicked. -/
inductive Point
  | top
  | poll
  | receiving (numRx : ℤ)
  | received (numRx : ℤ) (rxDescs : List Desc) (i : ℕ)
  | outside (d : Desc)
  | returned (err : Errno)
  | panicked

def afterRefill : Option Unit → Point
  | some () => .poll
  | none => .panicked

def afterPoll : Option (ℤ × ℤ × Option Errno) → Point
  | some (_, _, some err) => .returned err
  | some (numRx, _, none) => if numRx > 0 then .receiving numRx else .top
  | none => .panicked

def afterReceive (numRx : ℤ) : Option (List Desc) → Point
  | some rxDescs => .received numRx rxDescs 0
  | none => .panicked

variable {o : SocketOptions}

/-- The states of the loop on a socket that was `s₀`, after any number of iterations and with any
steps of the kernel in between and within the calls. -/
inductive Reaches (s₀ : Socket o) : Point → Socket o → Holdings → Prop
  | start : Reaches s₀ .top s₀ Holdings.none
  | kernel {p s s' k k' l} (h : Reaches s₀ p s k) (step : KernelStep o s l s')
      (hold : HoldStep o k l k') : Reaches s₀ p s' k'
  | refill {s s' k k' ls r} (h : Reaches s₀ .top s k)
      (run : Exec (KernelStep o) (refill o) s ls r s') (hold : Steps (HoldStep o) k ls k') :
      Reaches s₀ (afterRefill r) s' k'
  | poll {s s' k k' ls r} (errs : List Errno) (h : Reaches s₀ .poll s k)
      (run : Exec (KernelStep o) (poll o errs) s ls r s') (hold : Steps (HoldStep o) k ls k') :
      Reaches s₀ (afterPoll r) s' k'
  | receive {numRx s s' k k' ls r} (h : Reaches s₀ (.receiving numRx) s k)
      (run : Exec (KernelStep o) (receive o numRx) s ls r s') (hold : Steps (HoldStep o) k ls k') :
      Reaches s₀ (afterReceive numRx r) s' k'
  | getFrame {numRx rxDescs i d pktData s k} (umem : Umem o)
      (h : Reaches s₀ (.received numRx rxDescs i) s k) (next : rxDescs[i]? = some d)
      (read : XdpSocket.getFrame umem d = some pktData) :
      Reaches s₀ (.received numRx rxDescs (i + 1)) s k
  | outside {numRx rxDescs i d s k} (umem : Umem o)
      (h : Reaches s₀ (.received numRx rxDescs i) s k) (next : rxDescs[i]? = some d)
      (read : XdpSocket.getFrame umem d = none) : Reaches s₀ (.outside d) s k
  | again {numRx rxDescs s k} (h : Reaches s₀ (.received numRx rxDescs rxDescs.length) s k) :
      Reaches s₀ .top s k

/-- The loop only uses the receiving side and its part of the UMEM. -/
structure Receiving (s : Socket o) (k : Holdings) : Prop where
  ledgers : Ledgers s k
  part : ∀ i ∈ rxSide s k, i < o.FillRingNumDescs.toNat
  idle : txSide s k = []

structure Supplied (s : Socket o) (k : Holdings) : Prop extends Receiving s k where
  all : (rxSide s k).Perm (List.range o.FillRingNumDescs.toNat)

theorem keeps_receiving (ho : Accepted o) : Keeps (KernelStep o) (HoldStep o) Receiving := by
  intro s k l s' k' h hR hH
  obtain ⟨hrx, htx⟩ := frames_queueStep (queueStep_of_kernelStep ho h.ledgers.valid hR) hH
  refine ⟨keeps_ledgers ho s k l s' k' h.ledgers hR hH, fun i hi => h.part i (hrx.subset hi), ?_⟩
  exact (htx.trans (.of_eq h.idle)).eq_nil

theorem keeps_supplied (ho : Accepted o) : Keeps (KernelStep o) (HoldStep o) Supplied := by
  intro s k l s' k' h hR hH
  obtain ⟨hrx, _⟩ := frames_queueStep (queueStep_of_kernelStep ho h.ledgers.valid hR) hH
  exact ⟨keeps_receiving ho s k l s' k' h.toReceiving hR hH, hrx.trans h.all⟩

/-- The frames that are not outstanding are the free ones. -/
theorem Receiving.free_perm {s : Socket o} {k : Holdings} (h : Receiving s k)
    (hfit : o.FillRingNumDescs ≤ o.NumFrames) :
    (rxSide s k ++ freeAmong s.freeRXDescs (scanned o true)).Perm
      (List.range o.FillRingNumDescs.toNat) := by
  have hmem : ∀ i, i ∈ freeAmong s.freeRXDescs (scanned o true) ↔
      i < o.FillRingNumDescs.toNat ∧ i ∉ rxSide s k := by
    intro i
    simp only [freeAmong, scanned, if_true, List.mem_filter, List.mem_range'_1,
      decide_eq_true_iff]
    constructor
    · rintro ⟨hi, hfree⟩
      exact ⟨by omega, (free_or_given h.ledgers.rx (by omega)).mp hfree⟩
    · rintro ⟨hi, hnot⟩
      exact ⟨by omega, (free_or_given h.ledgers.rx (by omega)).mpr hnot⟩
  have hnodup : (rxSide s k ++ freeAmong s.freeRXDescs (scanned o true)).Nodup := by
    refine List.nodup_append.mpr ⟨h.ledgers.rx.nodup, (scanned_nodup true).filter _, ?_⟩
    intro i hi j hj hij
    exact ((hmem j).mp hj).2 (hij ▸ hi)
  apply (List.perm_ext_iff_of_nodup hnodup List.nodup_range).mpr
  intro i
  rw [List.mem_append, hmem, List.mem_range]
  constructor
  · rintro (hi | hi)
    · exact h.part i hi
    · exact hi.1
  · intro hi
    by_cases hin : i ∈ rxSide s k
    · exact Or.inl hin
    · exact Or.inr ⟨hi, hin⟩

theorem outstanding_le_rxSide (ho : Accepted o) (s : Socket o) (k : Holdings) :
    s.fillRing.outstanding ≤ (rxSide s k).length := by
  rw [← queue_length ho.fill.size.1]
  simp only [rxSide, rxFrames, Socket.queues, List.length_append, List.length_map]
  omega

theorem Receiving.supplied {s : Socket o} {k : Holdings} (h : Receiving s k)
    (hfit : o.FillRingNumDescs ≤ o.NumFrames)
    (hfull : o.FillRingNumDescs.toNat ≤ (rxSide s k).length) : Supplied s k := by
  have hperm := h.free_perm hfit
  have hlen := hperm.length_eq
  rw [List.length_append, List.length_range] at hlen
  have hnil : freeAmong s.freeRXDescs (scanned o true) = [] := by
    apply List.eq_nil_of_length_eq_zero
    omega
  rw [hnil, List.append_nil] at hperm
  exact ⟨h, hperm⟩

/-- Refilling gives out all free frames: there are never more of them than free slots. -/
theorem fillFree_supplied (ho : Accepted o) (hfit : o.FillRingNumDescs ≤ o.NumFrames) {n : ℤ}
    {s s' : Socket o} {k : Holdings} {a : ℤ} (h : Receiving s k)
    (hn : (o.FillRingNumDescs.toNat : ℤ) - (rxSide s k).length ≤ n)
    (hrun : (fillFree o n).run s = some (a, s')) : Supplied s' k := by
  have hperm := h.free_perm hfit
  have hcount := hperm.length_eq
  rw [List.length_append, List.length_range] at hcount
  have hout := outstanding_le_rxSide ho s k
  obtain ⟨descs, hdescs⟩ : ∃ descs, getDescs o n true s = some descs :=
    ⟨_, getDescs_eq hfit n true s⟩
  obtain ⟨hframes, hon, hnodup, hfree⟩ := getDescs_spec ho hfit hdescs
  have hlimit : (freeAmong s.freeRXDescs (scanned o true)).length ≤ descsLimit o n true := by
    simp only [descsLimit, if_true]
    omega
  have hall : frames o descs = freeAmong s.freeRXDescs (scanned o true) := by
    rw [hframes]
    exact List.take_of_length_le hlimit
  have hlen : descs.length = (freeAmong s.freeRXDescs (scanned o true)).length := by
    rw [← hall, frames, List.length_map]
  have hroom : s.fillRing.outstanding + descs.length ≤ o.FillRingNumDescs.toNat := by omega
  rw [fillFree_run hdescs, fill_run_all ho h.ledgers.valid hon hroom] at hrun
  cases hrun
  have hside := (rxSide_filled ho hroom k).trans (hall ▸ hperm)
  refine ⟨⟨h.ledgers.filled ho hroom hnodup hfree, fun i hi => ?_, h.idle⟩, hside⟩
  exact List.mem_range.mp (hside.subset hi)

theorem refill_run {n a : ℤ} {s s' : Socket o} (hn : 0 < n)
    (hslots : (numFreeFillSlots o).run s = some (n, s))
    (hfill : (fillFree o n).run s = some (a, s')) : (refill o).run s = some ((), s') := by
  simp [refill, hslots, hn, hfill]

theorem refill_ensures (ho : Accepted o) (hfit : o.FillRingNumDescs ≤ o.NumFrames) :
    Ensures (KernelStep o) (HoldStep o) Receiving (refill o) fun _ => Supplied := by
  have keepsCounted : ∀ n : ℤ, Keeps (KernelStep o) (HoldStep o) fun s k =>
      Receiving s k ∧ (o.FillRingNumDescs.toNat : ℤ) - (rxSide s k).length ≤ n := by
    intro n s k l s' k' h hR hH
    obtain ⟨hrx, _⟩ := frames_queueStep (queueStep_of_kernelStep ho h.1.ledgers.valid hR) hH
    refine ⟨keeps_receiving ho s k l s' k' h.1 hR hH, ?_⟩
    have hlen : (rxSide s' k').length = (rxSide s k).length := hrx.length_eq
    rw [hlen]
    exact h.2
  refine ensures_bind (ensures_atomically numFreeFillSlots_atomically (fun _ _ h => h.ledgers.valid)
    (keeps_receiving ho) keepsCounted ?_) fun n => ?_
  · intro s k n s' h hrun
    rw [numFreeFillSlots_run ho h.ledgers.valid] at hrun
    cases hrun
    have hout := outstanding_le_rxSide ho s k
    exact ⟨h, by omega⟩
  split_ifs with hn
  · refine ensures_bind (Q := fun _ => Supplied) ?_ fun _ =>
      ensures_ret (keeps_supplied ho) fun _ _ h => h
    exact ensures_atomically (fillFree_atomically ho hfit n) (fun _ _ h => h.1.ledgers.valid)
      (keepsCounted n) (fun _ => keeps_supplied ho)
      fun _ _ _ _ h hrun => fillFree_supplied ho hfit h.1 h.2 hrun
  · exact ensures_ret (keeps_supplied ho) fun s k h => h.1.supplied hfit (by have := h.2; omega)

def Arrived (numRx : ℤ) (s : Socket o) (k : Holdings) : Prop :=
  Supplied s k ∧ numRx ≤ s.queues.rx.length

theorem keeps_arrived (ho : Accepted o) (numRx : ℤ) :
    Keeps (KernelStep o) (HoldStep o) (Arrived (o := o) numRx) := by
  intro s k l s' k' h hR hH
  refine ⟨keeps_supplied ho s k l s' k' h.1 hR hH, h.2.trans ?_⟩
  have hq := queueStep_of_kernelStep ho h.1.ledgers.valid hR
  generalize s.queues = q at hq
  generalize s'.queues = q' at hq
  cases hq <;> simp

theorem Arrived.completed (ho : Accepted o) {numRx : ℤ} {s : Socket o} {k : Holdings}
    (h : Arrived numRx s k) : Arrived numRx s.completed k := by
  have hperm := txSide_completed ho (s := s) k
  rw [h.1.idle] at hperm
  have hnil := hperm.symm.eq_nil
  exact ⟨⟨⟨h.1.ledgers.completed ho, h.1.part, (List.append_eq_nil_iff.mp hnil).1⟩, h.1.all⟩, h.2⟩

lemma numReceived_counts (ho : FourRings o) {s s' : Socket o} {a : ℤ} (hs : s.Valid)
    (hrun : (numReceived o).run s = some (a, s')) : s' = s ∧ a = s.queues.rx.length := by
  obtain ⟨r, hr, _⟩ := hs.rx ho.rxPos
  have hr' : s.rxRing = some r := hr
  rw [numReceived_run ho.toAccepted ho.rxPos hr' hs] at hrun
  cases hrun
  simp only [Socket.queues, hr', Option.elim_some, queue_length (ho.rx ho.rxPos).size.1, and_self]

theorem poll_arrived (ho : FourRings o) (errs : List Errno) :
    Ensures (KernelStep o) (HoldStep o) Supplied (poll o errs) fun a => Arrived a.1 := by
  have keeps := keeps_supplied ho.toAccepted
  have hzero : ∀ a : ℤ × ℤ × Option Errno, a.1 = 0 →
      Ensures (KernelStep o) (HoldStep o) Supplied (.ret a) fun a => Arrived a.1 := by
    intro a ha
    exact ensures_ret (keeps_arrived ho.toAccepted a.1) fun s k h => ⟨h, by omega⟩
  refine ensures_bind (Q := fun _ => Supplied) (ensures_atomically
    (pollEvents_atomically ho.toAccepted) (fun _ _ h => h.ledgers.valid) keeps (fun _ => keeps) ?_) ?_
  · intro s k a s' h hrun
    rw [run_fetch] at hrun
    cases hrun
    exact h
  intro events
  split_ifs
  · exact hzero _ rfl
  cases pollLoop errs with
  | some e => exact hzero _ rfl
  | none =>
    refine ensures_bind (Q := fun n => Arrived n) (ensures_atomically
      (numReceived_atomically ho.toAccepted ho.rxPos) (fun _ _ h => h.ledgers.valid) keeps
      (keeps_arrived ho.toAccepted) ?_) fun received => ?_
    · intro s k n s' h hrun
      obtain ⟨rfl, rfl⟩ := numReceived_counts ho h.ledgers.valid hrun
      exact ⟨h, le_rfl⟩
    · apply ensures_atomically (pollComplete_atomically ho.toAccepted received)
        (fun _ _ h => h.1.ledgers.valid) (keeps_arrived ho.toAccepted received)
        fun a => keeps_arrived ho.toAccepted a.1
      intro s k a s' h hrun
      rw [pollComplete_run ho.toAccepted h.1.ledgers.valid] at hrun
      cases hrun
      exact h.completed ho.toAccepted

/-- What the loop has in hand after a `Receive`: `numRx` descriptors, whose frames are the
only ones of the receiving part that are not outstanding. -/
def InHand (numRx : ℤ) (rxDescs : List Desc) (s : Socket o) (k : Holdings) : Prop :=
  Receiving s k ∧ (rxDescs.length : ℤ) = numRx ∧
    (rxSide s k ++ frames o rxDescs).Perm (List.range o.FillRingNumDescs.toNat)

theorem keeps_inHand (ho : Accepted o) (numRx : ℤ) (rxDescs : List Desc) :
    Keeps (KernelStep o) (HoldStep o) (InHand (o := o) numRx rxDescs) := by
  intro s k l s' k' h hR hH
  obtain ⟨hrx, _⟩ := frames_queueStep (queueStep_of_kernelStep ho h.1.ledgers.valid hR) hH
  exact ⟨keeps_receiving ho s k l s' k' h.1 hR hH, h.2.1, (hrx.append_right _).trans h.2.2⟩

theorem receive_inHand (ho : FourRings o) {numRx : ℤ} (hpos : 0 < numRx) :
    Ensures (KernelStep o) (HoldStep o) (Arrived numRx) (receive o numRx) (InHand numRx) := by
  apply ensures_atomically (receive_atomically ho.toAccepted ho.rxPos numRx)
    (fun _ _ h => h.1.ledgers.valid) (keeps_arrived ho.toAccepted numRx)
    (keeps_inHand ho.toAccepted numRx)
  intro s k rxDescs s' h hrun
  have hn := (ho.rx ho.rxPos).size.1
  obtain ⟨r, hr, _⟩ := h.1.ledgers.valid.rx ho.rxPos
  have hr' : s.rxRing = some r := hr
  have hlen := h.2
  simp only [Socket.queues, hr', Option.elim_some, queue_length hn] at hlen
  rw [receive_run ho.toAccepted ho.rxPos hr' h.1.ledgers.valid] at hrun
  cases hrun
  have hmin : (min numRx (r.outstanding : ℤ)).toNat = numRx.toNat := by omega
  have hle : numRx.toNat ≤ r.outstanding := by omega
  rw [hmin]
  have hside := rxSide_received ho.toAccepted ho.rxPos hr' hle k
  have hsplit := hside.symm.trans h.1.all
  refine ⟨⟨h.1.ledgers.received ho.toAccepted ho.rxPos hr' hle, fun i hi => ?_, h.1.idle⟩, ?_,
    hsplit⟩
  · exact List.mem_range.mp (hsplit.subset (List.mem_append_left _ hi))
  · rw [List.length_take, queue_length hn]
    omega

/-- The invariant of the loop at each of its points. -/
def LoopInvariant (o : SocketOptions) : Point → Socket o → Holdings → Prop
  | .top, s, k => Receiving s k
  | .poll, s, k => Supplied s k
  | .receiving numRx, s, k => Arrived numRx s k ∧ 0 < numRx
  | .received numRx rxDescs _, s, k => InHand numRx rxDescs s k
  | .outside d, _, _ => ¬ d.InUmem o
  | .returned _, _, _ => True
  | .panicked, _, _ => False

lemma newSocket_receiving : Receiving (newSocket o) Holdings.none where
  ledgers := newSocket_ledgers
  part := by
    rw [rxSide, newSocket_queues]
    simp [rxFrames, frames, Holdings.none]
  idle := by
    rw [txSide, newSocket_queues]
    rfl

theorem reaches_invariant (ho : FourRings o) (hfit : o.FillRingNumDescs ≤ o.NumFrames) {p : Point}
    {s₀ s : Socket o} {k : Holdings} (h₀ : Receiving s₀ Holdings.none) (h : Reaches s₀ p s k) :
    LoopInvariant o p s k := by
  induction h with
  | start => exact h₀
  | @kernel p s s' k k' l _ step hold ih =>
    cases p with
    | top => exact keeps_receiving ho.toAccepted _ _ _ _ _ ih step hold
    | poll => exact keeps_supplied ho.toAccepted _ _ _ _ _ ih step hold
    | receiving n => exact ⟨keeps_arrived ho.toAccepted n _ _ _ _ _ ih.1 step hold, ih.2⟩
    | received n ds i => exact keeps_inHand ho.toAccepted n ds _ _ _ _ _ ih step hold
    | outside d => exact ih
    | returned err => trivial
    | panicked => exact ih
  | refill _ run hold ih =>
    obtain ⟨_, rfl, hs⟩ := refill_ensures ho.toAccepted hfit _ _ _ _ _ _ ih run hold
    exact hs
  | poll errs _ run hold ih =>
    obtain ⟨⟨numRx, numCompleted, err⟩, rfl, hs⟩ := poll_arrived ho errs _ _ _ _ _ _ ih run hold
    cases err with
    | some e => trivial
    | none =>
      simp only [afterPoll]
      split_ifs with hpos
      · exact ⟨hs, hpos⟩
      · exact hs.1.toReceiving
  | receive _ run hold ih =>
    obtain ⟨rxDescs, rfl, hs⟩ := receive_inHand ho ih.2 _ _ _ _ _ _ ih.1 run hold
    exact hs
  | getFrame _ _ _ _ ih => exact ih
  | outside _ _ _ read => exact (getFrame_eq_none_iff _ _).mp read
  | again _ ih => exact ih.1

/-- How a `Poll` ends that does wait: with the error of the wait, or with what it then counts on
the Rx ring and, later, on the Completion ring, which it empties. -/
def Waits (errs : List Errno) (s : Socket o) (ls : List KernelEvent)
    (r : Option (ℤ × ℤ × Option Errno)) (s' : Socket o) : Prop :=
  match pollLoop errs with
  | some e => r = some (0, 0, some e) ∧ Steps (KernelStep o) s ls s'
  | none => ∃ ls₁ s₁ ls₂ s₂ ls₃, ls = ls₁ ++ ls₂ ++ ls₃ ∧ Steps (KernelStep o) s ls₁ s₁ ∧
      Steps (KernelStep o) s₁ ls₂ s₂ ∧ Steps (KernelStep o) s₂.completed ls₃ s' ∧
      r = some ((s₁.queues.rx.length : ℤ), (s₂.queues.completion.length : ℤ), none)

/-- `Poll` waits when it has something to wait for. -/
lemma poll_waits (ho : FourRings o) {errs : List Errno} {s s' : Socket o} {ls : List KernelEvent}
    {r : Option (ℤ × ℤ × Option Errno)} (hs : s.Valid)
    (hevents : pollEvents s.numFilled s.numTransmitted ≠ 0)
    (h : Exec (KernelStep o) (poll o errs) s ls r s') : Waits errs s ls r s' := by
  have hstable := stable_valid ho.toAccepted
  obtain ⟨ls₁, s₁, ls₂, events, rfl, hbefore, ⟨hs₁, hsame⟩, hread, hrest⟩ :=
    Exec.fetch_inv (stable_awaits ho.toAccepted _) (fun _ _ => rfl) ⟨hs, rfl⟩ h
  cases hread
  rw [hsame, if_neg hevents] at hrest
  unfold Waits
  cases hloop : pollLoop errs with
  | some e =>
    rw [hloop] at hrest
    obtain ⟨rfl, hafter⟩ := hrest.ret_inv
    exact ⟨rfl, hbefore.append hafter⟩
  | none =>
    rw [hloop] at hrest
    have hcounts := numReceived_atomically ho.toAccepted ho.rxPos
    rcases hrest.bind_inv with ⟨la, received, s₂, lb, rfl, hreceived, hcomplete⟩ | ⟨_, hfailed⟩
    · obtain ⟨lc, s₃, a, _, ld, rfl, ha, hto, hrun, hfrom⟩ := hcounts _ _ _ _ hs₁ hreceived
      cases ha
      have hs₃ := hstable.steps hto hs₁
      obtain ⟨rfl, rfl⟩ := numReceived_counts ho hs₃ hrun
      obtain ⟨le, s₄, b, _, lf, rfl, rfl, hto', hrun', hfrom'⟩ :=
        pollComplete_atomically ho.toAccepted _ _ _ _ _ (hstable.steps hfrom hs₃) hcomplete
      have hs₄ := hstable.steps (hfrom.append hto') hs₃
      rw [pollComplete_run ho.toAccepted hs₄] at hrun'
      cases hrun'
      refine ⟨ls₁ ++ lc, _, ld ++ le, s₄, lf, by simp only [List.append_assoc],
        hbefore.append hto, hfrom.append hto', hfrom', ?_⟩
      rw [show s₄.queues.completion = s₄.completionRing.queue from rfl,
        queue_length ho.completion.size.1]
    · obtain ⟨_, _, _, _, _, _, hnone, _⟩ := hcounts _ _ _ _ hs₁ hfailed
      cases hnone

/-- The loop panics at most in a `GetFrame` of a descriptor that leaves the UMEM. Whenever it
reaches `Poll`, each frame of the receiving part is outstanding exactly once and `NumFilled` is
their number, so that `Poll` waits for received frames; and after `Receive(numRx)` it holds
`numRx` descriptors, whose frames are exactly the free ones of that part. -/
theorem receive_loop_supplied (ho : FourRings o) (hfit : o.FillRingNumDescs ≤ o.NumFrames)
    {p : Point} {s : Socket o} {k : Holdings} (h : Reaches (newSocket o) p s k) :
    p ≠ .panicked ∧ (∀ d, p = .outside d → ¬ d.InUmem o) ∧
    (p = .poll →
      (∀ i, i < o.FillRingNumDescs.toNat → (rxSide s k).count i = 1) ∧
      s.numFilled = o.FillRingNumDescs ∧ 0 < s.numFilled ∧
      pollEvents s.numFilled s.numTransmitted = pollIn ∧
      ∀ errs ls r s', Exec (KernelStep o) (poll o errs) s ls r s' → Waits errs s ls r s') ∧
    ∀ numRx rxDescs i, p = .received numRx rxDescs i →
      (rxDescs.length : ℤ) = numRx ∧
      ∀ i, i < o.FillRingNumDescs.toNat →
        (s.freeRXDescs[i]? = some true ↔ i ∈ frames o rxDescs) := by
  have hinv := reaches_invariant ho hfit newSocket_receiving h
  refine ⟨?_, ?_, ?_, ?_⟩
  · rintro rfl
    exact hinv
  · rintro d rfl
    exact hinv
  · rintro rfl
    have hfilled : s.numFilled = o.FillRingNumDescs := by
      rw [hinv.ledgers.rx.count, hinv.all.length_eq, List.length_range, ← ho.fill.size.2]
    have hpos : 0 < s.numFilled := by
      have := ho.fill.size.1.pos
      omega
    have htransmitted : s.numTransmitted = 0 := by
      rw [hinv.ledgers.tx.count, hinv.idle]
      rfl
    have hevents : pollEvents s.numFilled s.numTransmitted = pollIn := by
      simp [pollEvents, hpos, htransmitted]
    refine ⟨fun i hi => ?_, hfilled, hpos, hevents, fun _ _ _ _ =>
      poll_waits ho hinv.ledgers.valid (by rw [hevents]; decide)⟩
    rw [hinv.all.count_eq]
    exact List.count_eq_one_of_mem List.nodup_range (List.mem_range.mpr hi)
  · rintro numRx rxDescs i rfl
    obtain ⟨hreceiving, hlen, hperm⟩ := hinv
    refine ⟨hlen, fun i hi => ?_⟩
    have hnodup := hperm.nodup_iff.mpr List.nodup_range
    rw [free_or_given hreceiving.ledgers.rx (by omega)]
    constructor
    · intro hnot
      have hmem := hperm.symm.subset (List.mem_range.mpr hi)
      exact (List.mem_append.mp hmem).resolve_left hnot
    · intro hmem hin
      exact (List.nodup_append.mp hnodup).2.2 i hin i hmem rfl

section Round

def firstDesc : Desc := ⟨256, 54, 0⟩

def firstEvents : List KernelEvent := [.takeFill 0, .pushRx firstDesc]

/-- A frame that arrives during the first `Poll`. -/
lemma oneSlot_round : ∃ s s' s'' : Socket oneSlot,
    (refill oneSlot).run (newSocket oneSlot) = some ((), s) ∧
      Exec (KernelStep oneSlot) (poll oneSlot []) s firstEvents (some (1, 0, none)) s' ∧
      (receive oneSlot 1).run s' = some ([firstDesc], s'') ∧ s''.freeRXDescs = #v[true, true] :=
  ⟨_, _, _, rfl, .act rfl (.env (.takeFill rfl) (.env (.pushRx rfl rfl rfl) (.of_run rfl))), rfl,
    rfl⟩

theorem receive_loop_supplied_first : ∃ s s' s'' : Socket oneSlot,
    Reaches (newSocket oneSlot) .poll s Holdings.none ∧
      (rxSide s Holdings.none).count 0 = 1 ∧ s.numFilled = 1 ∧
      Waits [] s firstEvents (some (1, 0, none)) s' ∧
      Reaches (newSocket oneSlot) (.received 1 [firstDesc] 1) s'' Holdings.none ∧
      0 ∈ frames oneSlot [firstDesc] := by
  obtain ⟨s, s', s'', hrefill, hpoll, hreceive, hfree⟩ := oneSlot_round
  have hhold : Steps (HoldStep oneSlot) Holdings.none firstEvents Holdings.none :=
    .cons .takeFill (.cons (.pushRx (List.mem_singleton_self 0) rfl) (.nil _))
  have hfit : oneSlot.FillRingNumDescs ≤ oneSlot.NumFrames := by decide
  have hreached : Reaches (newSocket oneSlot) .poll s Holdings.none :=
    .refill .start (.of_run hrefill) (.nil _)
  obtain ⟨_, _, hsupplied, _⟩ := receive_loop_supplied oneSlot_fourRings hfit hreached
  obtain ⟨honce, hcount, _, _, hwaits⟩ := hsupplied rfl
  have hread : Reaches (newSocket oneSlot) (.received 1 [firstDesc] 1) s'' Holdings.none :=
    .getFrame (Vector.replicate _ 0)
      (.receive (.poll [] hreached hpoll hhold) (.of_run hreceive) (.nil _)) rfl rfl
  obtain ⟨_, _, _, hreceived⟩ := receive_loop_supplied oneSlot_fourRings hfit hread
  have hmem := (hreceived _ _ _ rfl).2 0 (by decide)
  exact ⟨s, s', s'', hreached, honce 0 (by decide), hcount, hwaits _ _ _ _ hpoll, hread,
    hmem.mp (by rw [hfree]; rfl)⟩

end Round

end Defrizer.XdpSocket
