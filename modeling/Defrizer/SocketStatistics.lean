import Defrizer.SocketQueues
import Defrizer.RingPortCounters

/-!
# The statistics of a socket

The four totals of a run, and the counters `Stats` reports for them. `Stats` widens the 32-bit
consumer counters of the rings, so it reports a total modulo `2 ^ 32`. The runs are those in which
`Complete` is not asked for more entries than `NumCompleted` counts.
-/
namespace Defrizer.XdpSocket
open InterleavedProgram WrappingRing RingPort KernelMaps

/-- What a run has consumed so far, and the Completion entries the kernel has produced in it. -/
structure Totals where
  filled : ℕ
  received : ℕ
  transmitted : ℕ
  completed : ℕ
  produced : ℕ

def Totals.zero : Totals := ⟨0, 0, 0, 0, 0⟩

def Totals.kernel (t : Totals) : KernelEvent → Totals
  | .takeFill _ => { t with filled := t.filled + 1 }
  | .takeTx _ => { t with transmitted := t.transmitted + 1 }
  | .pushRx _ => t
  | .pushCompletion _ => { t with produced := t.produced + 1 }

def Totals.receive (t : Totals) (m : ℕ) : Totals := { t with received := t.received + m }

def Totals.complete (t : Totals) (m : ℕ) : Totals := { t with completed := t.completed + m }

/-- What a call that returned has consumed. -/
def Totals.outcome (t : Totals) : Outcome → Totals
  | .submitted _ => t
  | .received descs => t.receive descs.length
  | .polled _ numCompleted _ => t.complete numCompleted.toNat

variable {o : SocketOptions}

/-- The runs from a new socket with the totals so far. The calls are interleaved with kernel
steps, and `Complete` asks for no more entries than there are when it is called. -/
inductive Counted : Totals → Socket o → Prop
  | new : Counted Totals.zero (newSocket o)
  | kernel {t s s' l} (h : Counted t s) (step : KernelStep o s l s') : Counted (t.kernel l) s'
  | call {t s s' c ls a} (h : Counted t s)
      (run : Exec (KernelStep o) (Call.prog o c) s ls (some a) s') :
      Counted ((ls.foldl Totals.kernel t).outcome a) s'
  | complete {t s s' n ls} (h : Counted t s) (there : n ≤ (s.completionRing.outstanding : ℤ))
      (run : Exec (KernelStep o) (XdpSocket.complete o n) s ls (some ()) s') :
      Counted ((ls.foldl Totals.kernel t).complete n.toNat) s'

/-- The consumer counters are the totals modulo `2 ^ 32`, and the Completion entries that were
produced are those consumed and those on the ring. -/
structure Socket.Counts (s : Socket o) (t : Totals) : Prop where
  filled : s.fillRing.consumer = UInt32.ofNat t.filled
  received : OnRing (rxPort o) (fun r => r.consumer = UInt32.ofNat t.received) s
  transmitted : OnRing (txPort o) (fun r => r.consumer = UInt32.ofNat t.transmitted) s
  completed : s.completionRing.consumer = UInt32.ofNat t.completed
  produced : t.completed + s.completionRing.outstanding = t.produced

def Totals.Follows (t : Totals) (l : KernelEvent) (t' : Totals) : Prop := t' = t.kernel l

lemma newSocket_counts (ho : FourRings o) : (newSocket o).Counts Totals.zero where
  filled := rfl
  received := ⟨_, if_pos ho.rxPos, rfl⟩
  transmitted := ⟨_, if_pos ho.txPos, rfl⟩
  completed := rfl
  produced := (Nat.zero_add _).trans (outstanding_self 0 _)

lemma follows_foldl (ls : List KernelEvent) (t : Totals) :
    Steps Totals.Follows t ls (ls.foldl Totals.kernel t) := by
  induction ls generalizing t with
  | nil => exact .nil t
  | cons l ls ih => exact .cons rfl (ih (t.kernel l))

lemma keeps_counts (ho : Accepted o) : Keeps (KernelStep o) Totals.Follows Socket.Counts := by
  intro s t l s' t' hs step hstep
  subst hstep
  cases step with
  | takeFill h =>
    obtain ⟨_, _, rfl⟩ := take_eq_some h
    refine { hs with filled := ?_ }
    simp only [Ring.pop, Totals.kernel, hs.filled, UInt32.ofNat_add]
    rfl
  | pushRx hring h umem =>
    obtain ⟨_, rfl⟩ := give_eq_some h
    obtain ⟨r, hr, hc⟩ := hs.received
    cases hring.symm.trans hr
    exact { hs with received := ⟨_, rfl, hc⟩ }
  | takeTx hring h =>
    obtain ⟨_, _, rfl⟩ := take_eq_some h
    obtain ⟨r, hr, hc⟩ := hs.transmitted
    cases hring.symm.trans hr
    refine { hs with transmitted := ⟨_, rfl, ?_⟩ }
    simp only [Ring.pop, Totals.kernel, hc, UInt32.ofNat_add]
    rfl
  | pushCompletion h umem =>
    obtain ⟨hroom, rfl⟩ := give_eq_some h
    refine { hs with completed := hs.completed, produced := ?_ }
    rw [outstanding_push ho.completion.size.1 _ hroom, ← Nat.add_assoc]
    exact congrArg Nat.succ hs.produced

lemma keeps_counts_map (ho : Accepted o) {f : Totals → Totals}
    (hf : ∀ t l, f (t.kernel l) = (f t).kernel l) :
    Keeps (KernelStep o) Totals.Follows fun s t => Socket.Counts s (f t) := by
  intro s t l s' t' hs step hstep
  subst hstep
  rw [hf]
  exact keeps_counts ho s (f t) l s' _ hs step rfl

lemma Totals.receive_kernel (t : Totals) (m : ℕ) (l : KernelEvent) :
    (t.kernel l).receive m = (t.receive m).kernel l := by
  cases l <;> rfl

lemma Totals.complete_kernel (t : Totals) (m : ℕ) (l : KernelEvent) :
    (t.kernel l).complete m = (t.complete m).kernel l := by
  cases l <;> rfl

lemma Totals.outcome_kernel (t : Totals) (a : Outcome) (l : KernelEvent) :
    (t.kernel l).outcome a = (t.outcome a).kernel l := by
  cases a with
  | submitted n => rfl
  | received descs => exact t.receive_kernel descs.length l
  | polled r c err => exact t.complete_kernel c.toNat l

lemma keeps_receive (ho : Accepted o) (m : ℕ) :
    Keeps (KernelStep o) Totals.Follows fun s t => Socket.Counts s (t.receive m) :=
  keeps_counts_map ho fun t l => t.receive_kernel m l

lemma keeps_complete (ho : Accepted o) (m : ℕ) :
    Keeps (KernelStep o) Totals.Follows fun s t => Socket.Counts s (t.complete m) :=
  keeps_counts_map ho fun t l => t.complete_kernel m l

lemma keeps_outcome (ho : Accepted o) (a : Outcome) :
    Keeps (KernelStep o) Totals.Follows fun s t => Socket.Counts s (t.outcome a) :=
  keeps_counts_map ho fun t l => t.outcome_kernel a l

section Calls

section Books
variable {s : Socket o} {t : Totals}

lemma Socket.Counts.setFreeRX (hs : s.Counts t) (b : Bool) (addr : UInt64) :
    (s.setFreeRX b addr).Counts t :=
  { hs with }

lemma Socket.Counts.setFreeTX (hs : s.Counts t) (b : Bool) (addr : UInt64) :
    (s.setFreeTX b addr).Counts t :=
  { hs with }

lemma Socket.Counts.addFilled (hs : s.Counts t) (k : ℤ) : (s.addFilled k).Counts t :=
  { hs with }

lemma Socket.Counts.addTransmitted (hs : s.Counts t) (k : ℤ) : (s.addTransmitted k).Counts t :=
  { hs with }

end Books

lemma fill_counts (ho : Accepted o) (descs : List Desc) :
    Maintains (KernelStep o) Totals.Follows Socket.Counts (fill o descs) fun _ => Socket.Counts := by
  have hprod : IgnoresProducer (fillPort o) Socket.Counts := by
    intro s t r r' hs hr hc
    cases hr
    exact { hs with filled := hc.trans hs.filled }
  exact submit_maintains (keeps_counts ho) hprod (fun d _ _ hs => hs.setFreeRX false d.Addr)
    (fun k _ _ hs => hs.addFilled k) descs

lemma submitTx_counts (ho : Accepted o) (descs : List Desc) :
    Maintains (KernelStep o) Totals.Follows Socket.Counts (submitTx o descs)
      fun _ => Socket.Counts := by
  have hprod : IgnoresProducer (txPort o) Socket.Counts := by
    intro s t r r' hs hr hc
    obtain ⟨r₁, hr₁, hc₁⟩ := hs.transmitted
    cases hr₁.symm.trans hr
    exact { hs with transmitted := ⟨r', rfl, hc.trans hc₁⟩ }
  exact submit_maintains (keeps_counts ho) hprod (fun d _ _ hs => hs.setFreeTX false d.Addr)
    (fun k _ _ hs => hs.addTransmitted k) descs

lemma receive_counts (ho : Accepted o) (num : ℤ) :
    Maintains (KernelStep o) Totals.Follows Socket.Counts (receive o num)
      fun descs s t => s.Counts (t.receive descs.length) := by
  refine maintains_bind (numAvailable_maintains (keeps_counts ho)) fun m => ?_
  have hkeeps := keeps_receive ho (if num > m then m else num).toNat
  refine Maintains.weaken (collect_maintains (keeps_counts ho) (ownsConsumer_of_gives meets_rx)
    (fun d => (private_rx true d.Addr).toAside) (fun d _ _ hs => hs.setFreeRX true d.Addr)
    hkeeps hkeeps (fun _ _ _ _ hs => hs.addFilled _) ?_) fun descs s t hs => ?_
  · intro s t r hs hr
    obtain ⟨r₁, hr₁, hc₁⟩ := hs.received
    cases hr₁.symm.trans hr
    refine { hs with received := ⟨_, rfl, ?_⟩ }
    simp only [Ring.popAll, hc₁, Totals.receive, UInt32.ofNat_add]
  · rw [hs.1]
    exact hs.2

/-- `Complete` counts what it consumes if there is as much. -/
lemma complete_counts (ho : Accepted o) (n : ℤ) :
    Maintains (KernelStep o) Totals.Follows (Holds (completionPort o) Socket.Counts n)
      (complete o n) fun _ s t => s.Counts (t.complete n.toNat) := by
  have hkeeps := keeps_holds (keeps_counts ho)
    (grows_of_gives ho.completion.size.1 meets_completion) n
  refine maintains_bind (Maintains.weaken (collect_maintains hkeeps
    (ownsConsumer_of_gives meets_completion) (fun addr => (private_completion true addr).toAside)
    (fun addr _ _ hs => ⟨hs.1.setFreeTX true addr, hs.2⟩) (keeps_complete ho _)
    (keeps_complete ho _) (fun _ _ _ _ hs => hs.addTransmitted _) ?_)
    fun _ _ _ hs => hs.2) fun _ => maintains_ret (keeps_complete ho _) fun _ _ hs => hs
  intro s t r hs hr
  obtain ⟨hs, _, hr', hle⟩ := hs
  cases hr
  cases hr'
  refine { hs with completed := ?_, produced := ?_ }
  · simp only [completionPort, Ring.popAll, hs.completed, Totals.complete, UInt32.ofNat_add]
  · have hpop := (entries_popAll (r := s.completionRing) (m := n.toNat) (by omega)).2
    have hproduced := hs.produced
    simp only [completionPort, Totals.complete, hpop]
    omega

lemma sendto_counts (ho : Accepted o) (errs : List Errno) :
    Maintains (KernelStep o) Totals.Follows Socket.Counts (sendto errs) fun _ => Socket.Counts := by
  rcases sendto_cases errs with hret | hpanic
  · rw [hret]
    exact maintains_ret (keeps_counts ho) fun _ _ hs => hs
  · rw [hpanic]
    exact maintains_fetch (keeps_counts ho)

lemma pollComplete_counts (ho : Accepted o) (received : ℤ) :
    Maintains (KernelStep o) Totals.Follows Socket.Counts (pollComplete o received)
      fun a s t => s.Counts (t.complete a.2.1.toNat) := by
  refine maintains_bind (numAvailable_holds (keeps_counts ho)
    (grows_of_gives ho.completion.size.1 meets_completion)) fun completed => ?_
  split_ifs with hpos
  · exact maintains_bind (complete_counts ho completed) fun _ =>
      maintains_ret (keeps_complete ho _) fun _ _ hs => hs
  · have hzero : completed.toNat = 0 := by omega
    refine maintains_ret (keeps_complete ho completed.toNat) fun s t hs => ?_
    simpa only [hzero, Totals.complete, add_zero] using hs.1

lemma poll_counts (ho : Accepted o) (errs : List Errno) :
    Maintains (KernelStep o) Totals.Follows Socket.Counts (poll o errs)
      fun a s t => s.Counts (t.complete a.2.1.toNat) := by
  refine maintains_bind (maintains_fetch (keeps_counts ho)) fun events => ?_
  split_ifs
  · exact maintains_ret (keeps_complete ho _) fun _ _ hs => hs
  · cases pollLoop errs with
    | some e => exact maintains_ret (keeps_complete ho _) fun _ _ hs => hs
    | none =>
      exact maintains_bind (numAvailable_maintains (keeps_counts ho)) fun received =>
        pollComplete_counts ho received

lemma call_counts (ho : Accepted o) (c : Call) :
    Maintains (KernelStep o) Totals.Follows Socket.Counts (c.prog o)
      fun a s t => s.Counts (t.outcome a) := by
  have hret : ∀ a : Outcome, Maintains (KernelStep o) Totals.Follows
      (fun s t => Socket.Counts s (t.outcome a)) (.ret a) fun a s t => s.Counts (t.outcome a) :=
    fun a => maintains_ret (keeps_outcome ho a) fun _ _ hs => hs
  cases c with
  | fill descs => exact maintains_bind (fill_counts ho descs) fun n => hret (.submitted n)
  | transmit descs errs =>
    refine maintains_bind (Q := fun _ => Socket.Counts) ?_ fun n => hret (.submitted n)
    exact maintains_bind (submitTx_counts ho descs) fun _ =>
      maintains_bind (sendto_counts ho errs) fun _ =>
        maintains_ret (keeps_counts ho) fun _ _ hs => hs
  | receive num => exact maintains_bind (receive_counts ho num) fun ds => hret (.received ds)
  | poll errs => exact maintains_bind (poll_counts ho errs) fun r => hret (.polled r.1 r.2.1 r.2.2)

end Calls

theorem Counted.counts (ho : FourRings o) {t : Totals} {s : Socket o} (h : Counted t s) :
    s.Counts t := by
  induction h with
  | new => exact newSocket_counts ho
  | kernel _ step hs => exact keeps_counts ho.toAccepted _ _ _ _ _ hs step rfl
  | call _ run hs => exact call_counts ho.toAccepted _ _ _ _ _ _ _ hs run (follows_foldl _ _)
  | complete _ there run hs =>
    exact complete_counts ho.toAccepted _ _ _ _ _ _ _ ⟨hs, _, rfl, there⟩ run (follows_foldl _ _)

section Report
variable {s : Socket o} {t : Totals}

structure Stats.Exact (st : Stats) (t : Totals) : Prop where
  filled : st.Filled.toNat = t.filled
  received : st.Received.toNat = t.received
  transmitted : st.Transmitted.toNat = t.transmitted
  completed : st.Completed.toNat = t.completed

def Totals.report (t : Totals) : Stats where
  Filled := (UInt32.ofNat t.filled).toUInt64
  Received := (UInt32.ofNat t.received).toUInt64
  Transmitted := (UInt32.ofNat t.transmitted).toUInt64
  Completed := (UInt32.ofNat t.completed).toUInt64

lemma stats_run (hs : s.Counts t) (errno : Option Errno) :
    (stats o errno).run s = some ((t.report, errno), s) := by
  obtain ⟨rx, hrx, hreceived⟩ := hs.received
  obtain ⟨tx, htx, htransmitted⟩ := hs.transmitted
  have htx' : s.txRing = some tx := htx
  have hfill : (consumer (fillPort o)).run s = some (s.fillRing.consumer, s) := consumer_run rfl
  have hcompletion : (consumer (completionPort o)).run s =
      some (s.completionRing.consumer, s) := consumer_run rfl
  simp only [stats, bind_def, pure_def, run_bind, hfill, consumer_run hrx, hcompletion, run_fetch,
    htx', Option.elim_some, Option.map_some, Option.bind_some, run_ret, Totals.report, hs.filled,
    hreceived, htransmitted, hs.completed]

lemma toUInt64_ofNat_eq_iff (m : ℕ) : (UInt32.ofNat m).toUInt64.toNat = m ↔ m < 2 ^ 32 := by
  rw [UInt32.toNat_toUInt64, UInt32.toNat_ofNat']
  omega

structure Totals.Unwrapped (t : Totals) : Prop where
  filled : t.filled < 2 ^ 32
  received : t.received < 2 ^ 32
  transmitted : t.transmitted < 2 ^ 32
  completed : t.completed < 2 ^ 32

lemma report_exact_iff (t : Totals) : t.report.Exact t ↔ t.Unwrapped := by
  have hiff := toUInt64_ofNat_eq_iff
  constructor
  · intro h
    exact ⟨(hiff _).mp h.filled, (hiff _).mp h.received, (hiff _).mp h.transmitted,
      (hiff _).mp h.completed⟩
  · intro h
    exact ⟨(hiff _).mpr h.filled, (hiff _).mpr h.received, (hiff _).mpr h.transmitted,
      (hiff _).mpr h.completed⟩

/-- After every run `Stats` reports the totals modulo `2 ^ 32`, which are the totals exactly as
long as none of them has reached `2 ^ 32`; and all Completion entries that were consumed had been
produced. -/
theorem stats_exact_iff (ho : FourRings o) (h : Counted t s) (errno : Option Errno) :
    t.completed + s.completionRing.outstanding = t.produced ∧
      ∃ st, (stats o errno).run s = some ((st, errno), s) ∧ (st.Exact t ↔ t.Unwrapped) :=
  ⟨(h.counts ho).produced, t.report, stats_run (h.counts ho) errno, report_exact_iff t⟩

lemma Counted.call_alone {s' : Socket o} {c : Call} {a : Outcome} (h : Counted t s)
    (hrun : (c.prog o).run s = some (a, s')) : Counted (t.outcome a) s' :=
  h.call (.of_run hrun)

theorem stats_exact_iff_first : ∃ (s : Socket oneSlot) (st : Stats),
    (stats oneSlot none).run s = some ((st, none), s) ∧ st.Exact ⟨1, 1, 1, 1, 1⟩ := by
  obtain ⟨s₁, s₂, s₃, s, hfill, hreceive, htransmit, hthere, hcomplete⟩ :
      ∃ s₁ s₂ s₃ s : Socket oneSlot,
        Exec (KernelStep oneSlot) (Call.prog oneSlot (.fill [⟨0, 2048, 0⟩])) (newSocket oneSlot) []
          (some (.submitted 1)) s₁ ∧
        Exec (KernelStep oneSlot) (Call.prog oneSlot (.receive 1)) s₁
          [.takeFill 0, .pushRx ⟨0, 54, 0⟩] (some (.received [⟨0, 54, 0⟩])) s₂ ∧
        Exec (KernelStep oneSlot) (Call.prog oneSlot (.transmit [⟨2048, 54, 0⟩] [])) s₂
          [.takeTx ⟨2048, 54, 0⟩, .pushCompletion 2048] (some (.submitted 1)) s₃ ∧
        1 ≤ (s₃.completionRing.outstanding : ℤ) ∧
        Exec (KernelStep oneSlot) (complete oneSlot 1) s₃ [] (some ()) s :=
    ⟨_, _, _, _, .of_run rfl, .env (.takeFill rfl) (.env (.pushRx rfl rfl rfl) (.of_run rfl)),
      (Exec.of_run rfl).append (.cons (.takeTx rfl rfl) (.cons (.pushCompletion rfl rfl) (.nil _))),
      by decide, .of_run rfl⟩
  have hcounted : Counted ⟨1, 1, 1, 1, 1⟩ s :=
    (((Counted.new.call hfill).call hreceive).call htransmit).complete hthere hcomplete
  obtain ⟨_, st, hrun, hiff⟩ := stats_exact_iff oneSlot_fourRings hcounted none
  exact ⟨s, st, hrun, hiff.mpr (by constructor <;> decide)⟩

end Report

section Cycle
variable {s : Socket o} {t : Totals}

structure Socket.Idle (s : Socket o) : Prop where
  valid : s.Valid
  fill : s.fillRing.outstanding = 0
  rx : OnRing (rxPort o) (fun r => r.outstanding = 0) s

/-- A frame is put on the Fill ring, and the kernel takes it. -/
lemma counted_taken (ho : FourRings o) (hframe : onFrame o 0 = true) (h : Counted t s)
    (hs : s.Idle) : ∃ s' : Socket o, s'.Idle ∧ Counted { t with filled := t.filled + 1 } s' := by
  let d : Desc := ⟨0, 64, 0⟩
  have hd : ∀ d' ∈ [d], onFrame o d'.Addr = true := by simpa [d] using hframe
  have hfillSize := ho.fill.size.1
  have hroom : s.fillRing.outstanding + [d].length ≤ o.FillRingNumDescs.toNat := by
    rw [hs.fill]
    exact hfillSize.pos
  have hfill : (Call.prog o (.fill [d])).run s = some (.submitted 1, s.filled [d]) := by
    simp only [Call.prog, run_bind, fill_run_all ho.toAccepted hs.valid hd hroom]
    rfl
  have hfilled := h.call_alone hfill
  have hfilledValid := filled_valid ho.toAccepted hs.valid hroom
  have hone : (s.filled [d]).fillRing.outstanding = 1 := by
    have hpush := (queue_pushAll hfillSize ([d].map Desc.Addr) (by simpa using hroom)).2
    rw [hs.fill] at hpush
    exact hpush
  obtain ⟨addr, htake⟩ := exists_take hfillSize (r := (s.filled [d]).fillRing) (by omega)
  have hnone := outstanding_pop (r := (s.filled [d]).fillRing) (by omega)
  refine ⟨_, ⟨stable_valid ho.toAccepted _ _ _ hfilledValid (.takeFill htake), ?_, hs.rx⟩,
    hfilled.kernel (.takeFill htake)⟩
  exact hnone.trans (by omega)

/-- The kernel puts a frame on the Rx ring, and it is received. -/
lemma counted_arrived (ho : FourRings o) (hframe : onFrame o 0 = true) (h : Counted t s)
    (hs : s.Idle) :
    ∃ s' : Socket o, s'.Idle ∧ Counted { t with received := t.received + 1 } s' := by
  let d : Desc := ⟨0, 64, 0⟩
  have hrxSize := (ho.rx ho.rxPos).size.1
  obtain ⟨rx, hrx, hrxEmpty⟩ := hs.rx
  have hgive := give_of_lt (r := rx) (by rw [hrxEmpty]; exact hrxSize.pos) d
  have hpushed := h.kernel (.pushRx hrx hgive hframe)
  have hpushedValid := stable_valid ho.toAccepted _ _ _ hs.valid (.pushRx hrx hgive hframe)
  have hout : (rx.push d).outstanding = 1 := by
    rw [outstanding_push hrxSize d (by rw [hrxEmpty]; exact hrxSize.pos), hrxEmpty]
  have hlen := queue_length hrxSize (rx.push d)
  rw [hout] at hlen
  have htakeOne : ((rx.push d).queue.take 1).length = 1 := by rw [List.length_take, hlen]; rfl
  have hreceive := receive_run ho.toAccepted ho.rxPos rfl hpushedValid 1
  simp only [hout, Nat.cast_one, min_self, Int.toNat_one] at hreceive
  have hreceived := hpushed.call_alone (c := .receive 1) (by
    simp only [Call.prog, run_bind, hreceive]
    rfl)
  refine ⟨_, ⟨received_valid ho.toAccepted ho.rxPos rfl hpushedValid (k := 1) (by omega),
    hs.fill, ⟨_, rfl, ?_⟩⟩, ?_⟩
  · have hpop := (queue_popAll hrxSize (r := rx.push d) (m := 1) (by omega)).2
    exact hpop.trans (by omega)
  · simpa only [Totals.outcome, Totals.receive, Totals.kernel, htakeOne] using hreceived

/-- A frame goes through the Fill ring to the kernel and comes back on the Rx ring. -/
lemma counted_cycle (ho : FourRings o) (hframe : onFrame o 0 = true) (h : Counted t s)
    (hs : s.Idle) : ∃ s' : Socket o, s'.Idle ∧
      Counted ⟨t.filled + 1, t.received + 1, t.transmitted, t.completed, t.produced⟩ s' := by
  obtain ⟨s₁, hs₁, hfilled⟩ := counted_taken ho hframe h hs
  exact counted_arrived ho hframe hfilled hs₁

lemma newSocket_idle (ho : FourRings o) : (newSocket o).Idle where
  valid := newSocket_valid
  fill := outstanding_self 0 _
  rx := ⟨_, if_pos ho.rxPos, outstanding_self 0 _⟩

lemma counted_cycles (ho : FourRings o) (hframe : onFrame o 0 = true) (m : ℕ) :
    ∃ s : Socket o, s.Idle ∧ Counted ⟨m, m, 0, 0, 0⟩ s := by
  induction m with
  | zero => exact ⟨newSocket o, newSocket_idle ho, .new⟩
  | succ m ih =>
    obtain ⟨s, hs, hcounted⟩ := ih
    exact counted_cycle ho hframe hcounted hs

/-- The frames are received one after the other until `2 ^ 32` have been: `Stats` starts again
at 0. -/
theorem stats_not_exact : ¬ ∀ (t : Totals) (s : Socket defaultSocketOptions), Counted t s →
    ∃ st, (stats _ none).run s = some ((st, none), s) ∧ st.Exact t := by
  intro hall
  have ho := defaultSocketOptions_fourRings
  obtain ⟨s, _, hcounted⟩ := counted_cycles ho (by decide) (2 ^ 32)
  obtain ⟨st, hrun, hexact⟩ := hall _ s hcounted
  rw [stats_run (hcounted.counts ho)] at hrun
  cases hrun
  have hlt := ((report_exact_iff _).mp hexact).filled
  exact absurd hlt (by simp)

end Cycle

end Defrizer.XdpSocket
