import Defrizer.SocketBatches
import Defrizer.ProgramRefinement

/-!
# The rings are bounded queues

The abstract socket: four bounded first-in first-out queues and the two counters, on which
every call acts at once. The calls of the socket refine it under any interleaving with the
kernel and from any values of the ring counters.
-/
namespace Defrizer.XdpSocket
open InterleavedProgram WrappingRing RingPort KernelMaps

structure Queues where
  fill : List UInt64
  completion : List UInt64
  rx : List Desc
  tx : List Desc
  numFilled : ℤ
  numTransmitted : ℤ

variable (o : SocketOptions)

/-- One step of the kernel on the queues. -/
inductive QueueStep : Queues → KernelEvent → Queues → Prop
  | takeFill {q addr rest} (h : q.fill = addr :: rest) :
      QueueStep q (.takeFill addr) { q with fill := rest }
  | pushRx {q d} (room : q.rx.length < o.RxRingNumDescs.toNat) :
      QueueStep q (.pushRx d) { q with rx := q.rx ++ [d] }
  | takeTx {q d rest} (h : q.tx = d :: rest) : QueueStep q (.takeTx d) { q with tx := rest }
  | pushCompletion {q addr} (room : q.completion.length < o.CompletionRingNumDescs.toNat) :
      QueueStep q (.pushCompletion addr) { q with completion := q.completion ++ [addr] }

def Queues.fillCall (descs : List Desc) : Prog Queues ℤ := atomic fun q =>
  let batch := descs.take (min descs.length (o.FillRingNumDescs.toNat - q.fill.length))
  some (batch.length, { q with
    fill := q.fill ++ batch.map Desc.Addr
    numFilled := q.numFilled + batch.length })

def Queues.transmitCall (descs : List Desc) (errs : List Errno) : Prog Queues ℤ := do
  let numSubmitted ← atomic fun q =>
    let batch := descs.take (min descs.length (o.TxRingNumDescs.toNat - q.tx.length))
    some ((batch.length : ℤ), { q with
      tx := q.tx ++ batch
      numTransmitted := q.numTransmitted + batch.length })
  sendto errs
  return numSubmitted

def Queues.receiveCall (num : ℤ) : Prog Queues (List Desc) := atomic fun q =>
  let k := (min (max num 0) q.rx.length).toNat
  some (q.rx.take k, { q with rx := q.rx.drop k, numFilled := q.numFilled - k })

/-- With nothing filled and nothing transmitted there is nothing to wait for. Otherwise the Rx
queue is counted, and later the Completion queue is emptied and counted. -/
def Queues.pollCall (errs : List Errno) : Prog Queues (ℤ × ℤ × Option Errno) := do
  let idle ← fetch fun q => some (decide (q.numFilled ≤ 0 ∧ q.numTransmitted ≤ 0))
  if idle then return (0, 0, none)
  else match pollLoop errs with
    | some e => return (0, 0, some e)
    | none => do
      let received ← atomic fun q => some ((q.rx.length : ℤ), q)
      atomic fun q => some ((received, (q.completion.length : ℤ), none), { q with
        completion := []
        numTransmitted := q.numTransmitted - q.completion.length })

/-- A call of the user, with what the system calls in it return. -/
inductive Call
  | fill (descs : List Desc)
  | transmit (descs : List Desc) (errs : List Errno)
  | receive (num : ℤ)
  | poll (errs : List Errno)

inductive Outcome
  | submitted (n : ℤ)
  | received (descs : List Desc)
  | polled (numReceived numCompleted : ℤ) (err : Option Errno)
  deriving DecidableEq, Repr

def Call.prog : Call → Prog (Socket o) Outcome
  | .fill descs => (XdpSocket.fill o descs).bind fun n => .ret (.submitted n)
  | .transmit descs errs => (XdpSocket.transmit o descs errs).bind fun n => .ret (.submitted n)
  | .receive num => (XdpSocket.receive o num).bind fun ds => .ret (.received ds)
  | .poll errs => (XdpSocket.poll o errs).bind fun r => .ret (.polled r.1 r.2.1 r.2.2)

def Call.spec : Call → Prog Queues Outcome
  | .fill descs => (Queues.fillCall o descs).bind fun n => .ret (.submitted n)
  | .transmit descs errs => (Queues.transmitCall o descs errs).bind fun n => .ret (.submitted n)
  | .receive num => (Queues.receiveCall num).bind fun ds => .ret (.received ds)
  | .poll errs => (Queues.pollCall errs).bind fun r => .ret (.polled r.1 r.2.1 r.2.2)

def Call.InUmem : Call → Prop
  | .fill descs => ∀ d ∈ descs, (d.Addr.toNat : ℤ) < o.NumFrames * o.FrameSize
  | .transmit descs _ => ∀ d ∈ descs, (d.Addr.toNat : ℤ) < o.NumFrames * o.FrameSize
  | .receive _ => True
  | .poll _ => True

structure Queues.Bounded (q : Queues) : Prop where
  fill : q.fill.length ≤ o.FillRingNumDescs.toNat
  completion : q.completion.length ≤ o.CompletionRingNumDescs.toNat
  rx : q.rx.length ≤ o.RxRingNumDescs.toNat
  tx : q.tx.length ≤ o.TxRingNumDescs.toNat

variable {o}

/-- The queues of a socket; a ring that does not exist has none. -/
def Socket.queues (s : Socket o) : Queues where
  fill := s.fillRing.queue
  completion := s.completionRing.queue
  rx := s.rxRing.elim [] Ring.queue
  tx := s.txRing.elim [] Ring.queue
  numFilled := s.numFilled
  numTransmitted := s.numTransmitted

theorem Socket.Valid.bounded (ho : Accepted o) {s : Socket o} (hs : s.Valid) :
    s.queues.Bounded o where
  fill := by
    obtain ⟨r, hr, hle⟩ := hs.fill
    cases hr
    exact (queue_length ho.fill.size.1 _).trans_le hle
  completion := by
    obtain ⟨r, hr, hle, _⟩ := hs.completion
    cases hr
    exact (queue_length ho.completion.size.1 _).trans_le hle
  rx := by
    by_cases hpos : 0 < o.RxRingNumDescs
    · obtain ⟨r, hr, hle, _⟩ := hs.rx hpos
      have hr' : s.rxRing = some r := hr
      simp only [Socket.queues, hr', Option.elim_some]
      exact (queue_length (ho.rx hpos).size.1 r).trans_le hle
    · simp [Socket.queues, hs.noRx hpos]
  tx := by
    by_cases hpos : 0 < o.TxRingNumDescs
    · obtain ⟨r, hr, hle⟩ := hs.tx hpos
      have hr' : s.txRing = some r := hr
      simp only [Socket.queues, hr', Option.elim_some]
      exact (queue_length (ho.tx hpos).size.1 r).trans_le hle
    · simp [Socket.queues, hs.noTx hpos]

theorem queueStep_of_kernelStep (ho : Accepted o) {s s' : Socket o} {l : KernelEvent}
    (hs : s.Valid) (h : KernelStep o s l s') : QueueStep o s.queues l s'.queues := by
  cases h with
  | takeFill h => exact .takeFill (queue_take h)
  | @pushRx d ring r hring hgive umem =>
    have hpos : 0 < o.RxRingNumDescs := by
      by_contra hpos
      rw [hs.noRx hpos] at hring
      cases hring
    have hn := (ho.rx hpos).size.1
    obtain ⟨hlt, rfl⟩ := give_eq_some hgive
    have hq := queue_push hn d hlt
    have hlen : s.queues.rx.length < o.RxRingNumDescs.toNat := by
      simp only [Socket.queues, hring, Option.elim_some, queue_length hn]
      exact hlt
    have hstep := QueueStep.pushRx (d := d) hlen
    simpa only [Socket.queues, hring, Option.elim_some, hq] using hstep
  | @takeTx d ring r hring htake =>
    have hq : s.queues.tx = d :: r.queue := by
      simp only [Socket.queues, hring, Option.elim_some, queue_take htake]
    exact .takeTx hq
  | @pushCompletion addr r hgive umem =>
    have hn := ho.completion.size.1
    obtain ⟨hlt, rfl⟩ := give_eq_some hgive
    have hq := queue_push hn addr hlt
    have hlen : s.queues.completion.length < o.CompletionRingNumDescs.toNat := by
      simp only [Socket.queues, queue_length hn]
      exact hlt
    have hstep : QueueStep o s.queues (.pushCompletion addr) _ := .pushCompletion hlen
    simpa only [Socket.queues, hq] using hstep

theorem simulates_queues (ho : Accepted o) :
    Simulates (KernelStep o) (QueueStep o) Socket.queues Socket.Valid where
  step _ _ _ hs h := queueStep_of_kernelStep ho hs h
  stable := stable_valid ho

section Calls

theorem take_min_length {α : Type} (xs : List α) (n : ℕ) :
    xs.take (min xs.length n) = xs.take n := by
  rw [List.take_eq_take_iff]
  omega

theorem fill_refines (ho : Accepted o) {descs : List Desc}
    (hd : ∀ d ∈ descs, onFrame o d.Addr = true) :
    Refines (KernelStep o) (QueueStep o) Socket.queues Socket.Valid (fill o descs)
      (Queues.fillCall o descs) := by
  apply refines_atomic (simulates_queues ho) (fill_atomically ho hd)
  intro s a s' hs hrun
  obtain ⟨rfl, rfl, hroom⟩ := fill_batch ho hs hd hrun
  have hn := ho.fill.size.1
  have hpush := queue_pushAll hn (r := s.fillRing) ((descs.take s.fillRoom).map Desc.Addr)
    (by rwa [List.length_map])
  refine ⟨?_, filled_valid ho hs hroom⟩
  simp only [Socket.queues, Socket.filled, queue_length hn, take_min_length, hpush.1]
  rfl

theorem submitTx_refines (ho : Accepted o) (hpos : 0 < o.TxRingNumDescs) {descs : List Desc}
    (hd : ∀ d ∈ descs, onFrame o d.Addr = true) :
    Refines (KernelStep o) (QueueStep o) Socket.queues Socket.Valid (submitTx o descs)
      (atomic fun q =>
        let batch := descs.take (min descs.length (o.TxRingNumDescs.toNat - q.tx.length))
        some ((batch.length : ℤ), { q with
          tx := q.tx ++ batch
          numTransmitted := q.numTransmitted + batch.length })) := by
  apply refines_atomic (simulates_queues ho) (submitTx_atomically ho hpos hd)
  intro s a s' hs hrun
  obtain ⟨r, _, hr, rfl, rfl, hroom⟩ := submitTx_batch ho hs hd hrun
  have hn := (ho.tx hpos).size.1
  refine ⟨?_, transmitted_valid ho hpos hs hroom⟩
  simp only [Socket.queues, Socket.transmitted, Socket.txRoom, hr, Option.elim_some,
    queue_length hn, take_min_length] at hroom ⊢
  rw [(queue_pushAll hn _ hroom).1]

theorem receive_refines (ho : Accepted o) (hpos : 0 < o.RxRingNumDescs) (num : ℤ) :
    Refines (KernelStep o) (QueueStep o) Socket.queues Socket.Valid (receive o num)
      (Queues.receiveCall num) := by
  apply refines_atomic (simulates_queues ho) (receive_atomically ho hpos num)
  intro s a s' hs hrun
  obtain ⟨r, hr, hle, _, hall⟩ := hs.rx hpos
  have hr' : s.rxRing = some r := hr
  rw [receive_run ho hpos hr' hs] at hrun
  cases hrun
  have hn := (ho.rx hpos).size.1
  have hk : (min num (r.outstanding : ℤ)).toNat ≤ r.outstanding := by omega
  have hmax : (min (max num 0) (r.outstanding : ℤ)).toNat = (min num r.outstanding).toNat := by
    omega
  have hlen : (r.queue.take (min num r.outstanding).toNat).length =
      (min num (r.outstanding : ℤ)).toNat := by
    rw [List.length_take, queue_length hn]
    omega
  refine ⟨?_, received_valid ho hpos hr' hs hk⟩
  simp only [Socket.queues, Socket.received, hr', Option.elim_some, queue_length hn, hmax, hlen,
    (queue_popAll hn hk).1, sub_eq_add_neg]

theorem numReceived_refines (ho : Accepted o) (hpos : 0 < o.RxRingNumDescs) :
    Refines (KernelStep o) (QueueStep o) Socket.queues Socket.Valid (numReceived o)
      (atomic fun q => some ((q.rx.length : ℤ), q)) := by
  apply refines_atomic (simulates_queues ho) (numReceived_atomically ho hpos)
  intro s a s' hs hrun
  obtain ⟨r, hr, _⟩ := hs.rx hpos
  have hr' : s.rxRing = some r := hr
  rw [numReceived_run ho hpos hr' hs] at hrun
  cases hrun
  refine ⟨?_, hs⟩
  simp only [Socket.queues, hr', Option.elim_some, queue_length (ho.rx hpos).size.1]

theorem pollComplete_refines (ho : Accepted o) (received : ℤ) :
    Refines (KernelStep o) (QueueStep o) Socket.queues Socket.Valid (pollComplete o received)
      (atomic fun q => some ((received, (q.completion.length : ℤ), none), { q with
        completion := []
        numTransmitted := q.numTransmitted - q.completion.length })) := by
  apply refines_atomic (simulates_queues ho) (pollComplete_atomically ho received)
  intro s a s' hs hrun
  rw [pollComplete_run ho hs] at hrun
  cases hrun
  have hn := ho.completion.size.1
  obtain ⟨hq, _⟩ := queue_popAll hn (r := s.completionRing) le_rfl
  have hnil : s.completionRing.queue.drop s.completionRing.outstanding = [] := by
    rw [List.drop_eq_nil_iff, queue_length hn]
  refine ⟨?_, completed_valid ho hs⟩
  simp only [Socket.queues, Socket.completed, hq, hnil, queue_length hn, sub_eq_add_neg]

theorem sendto_refines (ho : Accepted o) (errs : List Errno) :
    Refines (KernelStep o) (QueueStep o) Socket.queues Socket.Valid (sendto errs)
      (sendto errs) := by
  rcases sendto_cases errs with hret | hpanic
  · rw [hret, hret]
    exact refines_ret (simulates_queues ho) ()
  · rw [hpanic, hpanic]
    exact refines_fail (simulates_queues ho)

lemma idle_refines (ho : Accepted o) :
    Refines (KernelStep o) (QueueStep o) Socket.queues Socket.Valid
      ((fetch fun s => some (pollEvents s.numFilled s.numTransmitted)).bind fun events =>
        .ret (decide (events = 0)))
      (fetch fun q => some (decide (q.numFilled ≤ 0 ∧ q.numTransmitted ≤ 0))) := by
  have hret : ∀ events : UInt16, RunsFirst (KernelStep o) (fun _ => True)
      (.ret (decide (events = 0))) fun _ _ => True := fun _ => runsFirst_ret fun _ _ => trivial
  apply refines_atomic (simulates_queues ho) (runsFirst_bind (pollEvents_first ho) hret).atomically
  intro s a s' hs hrun
  simp only [run_bind, run_fetch, Option.map_some, Option.bind_some, run_ret] at hrun
  cases hrun
  refine ⟨?_, hs⟩
  simp only [Option.map_some, pollEvents_eq_zero_iff]
  rfl

theorem poll_refines (ho : FourRings o) (errs : List Errno) :
    Refines (KernelStep o) (QueueStep o) Socket.queues Socket.Valid (poll o errs)
      (Queues.pollCall errs) := by
  have sim := simulates_queues ho.toAccepted
  refine refines_bind_map (idle_refines ho.toAccepted) fun events => ?_
  simp only [decide_eq_true_eq]
  split_ifs
  · exact refines_ret sim _
  · cases pollLoop errs with
    | some e => exact refines_ret sim _
    | none =>
      exact refines_bind (numReceived_refines ho.toAccepted ho.rxPos) fun received =>
        pollComplete_refines ho.toAccepted received

theorem call_refines (ho : FourRings o) {c : Call} (hc : c.InUmem o) :
    Refines (KernelStep o) (QueueStep o) Socket.queues Socket.Valid (c.prog o) (c.spec o) := by
  have sim := simulates_queues ho.toAccepted
  have hon : ∀ d : Desc, (d.Addr.toNat : ℤ) < o.NumFrames * o.FrameSize →
      onFrame o d.Addr = true := fun d h => (onFrame_iff ho.toAccepted d.Addr).mpr h
  cases c with
  | fill descs =>
    exact refines_bind (fill_refines ho.toAccepted fun d hd => hon d (hc d hd)) fun _ =>
      refines_ret sim _
  | transmit descs errs =>
    have hsubmit := submitTx_refines ho.toAccepted ho.txPos fun d hd => hon d (hc d hd)
    have htransmit := refines_bind hsubmit fun n =>
      refines_bind (sendto_refines ho.toAccepted errs) fun _ => refines_ret sim n
    exact refines_bind htransmit fun _ => refines_ret sim _
  | receive num =>
    exact refines_bind (receive_refines ho.toAccepted ho.rxPos num) fun _ => refines_ret sim _
  | poll errs => exact refines_bind (poll_refines ho errs) fun _ => refines_ret sim _

/-- From any valid state, whatever its counters are, every execution of a sequence of calls
interleaved with kernel steps is an execution of the same calls on four bounded queues, with
the same kernel steps and the same results. -/
theorem rings_refine_queues (ho : FourRings o) {calls : List Call}
    (hcalls : ∀ c ∈ calls, c.InUmem o) {s s' : Socket o} (hs : s.Valid) {ls : List KernelEvent}
    {r : Option (List Outcome)} (h : Exec (KernelStep o) (runAll (Call.prog o) calls) s ls r s') :
    Exec (QueueStep o) (runAll (Call.spec o) calls) s.queues ls r s'.queues ∧
      s'.Valid ∧ s'.queues.Bounded o := by
  have hrefines := refines_runAll (simulates_queues ho.toAccepted)
    fun c hc => call_refines ho (hcalls c hc)
  obtain ⟨hspec, hs'⟩ := hrefines s ls r s' hs h
  exact ⟨hspec, hs', hs'.bounded ho.toAccepted⟩

/-- All rings are empty and their counters at the end of their range. -/
def wrappedSocket : Socket oneSlot :=
  { newSocket oneSlot with
    fillRing := ⟨4294967295, 4294967295, Vector.replicate _ 0⟩
    completionRing := ⟨4294967295, 4294967295, Vector.replicate _ 0⟩
    rxRing := some ⟨4294967295, 4294967295, Vector.replicate _ default⟩
    txRing := some ⟨4294967295, 4294967295, Vector.replicate _ default⟩ }

theorem wrappedSocket_valid : wrappedSocket.Valid where
  fill := ⟨_, rfl, (collectable_empty (fun _ => true) _ _).1⟩
  completion := ⟨_, rfl, collectable_empty _ _ _⟩
  rx _ := ⟨_, rfl, collectable_empty _ _ _⟩
  tx _ := ⟨_, rfl, (collectable_empty (fun _ => true) _ _).1⟩
  noRx h := absurd oneSlot_fourRings.rxPos h
  noTx h := absurd oneSlot_fourRings.txPos h

theorem rings_refine_queues_wrapped :
    ∃ s' : Socket oneSlot,
      Exec (QueueStep oneSlot)
        (runAll (Call.spec oneSlot)
          [.fill [⟨0, 2048, 0⟩], .receive 1, .transmit [⟨2048, 2048, 0⟩] [], .poll []])
        wrappedSocket.queues
        [.takeFill 0, .pushRx ⟨0, 54, 0⟩, .takeTx ⟨2048, 2048, 0⟩, .pushCompletion 2048]
        (some [.submitted 1, .received [⟨0, 54, 0⟩], .submitted 1, .polled 0 1 none]) s'.queues ∧
      s'.Valid ∧ s'.queues.Bounded oneSlot := by
  have humem : ∀ c ∈ [Call.fill [⟨0, 2048, 0⟩], .receive 1, .transmit [⟨2048, 2048, 0⟩] [],
      .poll []], c.InUmem oneSlot := by
    simp [Call.InUmem, oneSlot]
  exact ⟨_, rings_refine_queues oneSlot_fourRings humem wrappedSocket_valid
    (.runAll_cons (.of_run rfl)
      (.env (.takeFill rfl) (.env (.pushRx rfl rfl rfl)
        (.runAll_cons (.of_run rfl) (.runAll_cons (.of_run rfl)
          (.env (.takeTx rfl rfl) (.env (.pushCompletion rfl rfl)
            (.runAll_cons (.of_run rfl) (.ret _ _)))))))))⟩

end Calls

end Defrizer.XdpSocket
