import Defrizer.FrameOwnership

/-!
# The split discipline

A user who fills only descriptors of the receiving part of the UMEM and transmits only those
of the sending part. Under any interleaving with the kernel the free lists and the counters
then say exactly which frames are outstanding.
-/
namespace Defrizer.XdpSocket
open InterleavedProgram WrappingRing RingPort OwnershipLedger KernelMaps

inductive SplitCall
  | fill (n : ℤ)
  | transmit (n : ℤ) (errs : List Errno)
  | receive (m : ℤ)
  | poll (errs : List Errno)

def fillFree (o : SocketOptions) (n : ℤ) : Prog (Socket o) ℤ := do
  let descs ← fetch (getDescs o n true)
  fill o descs

/-- `Transmit(GetDescs(n, false))` up to the loop around `sendto`. -/
def submitFree (o : SocketOptions) (n : ℤ) : Prog (Socket o) ℤ := do
  let descs ← fetch (getDescs o n false)
  submitTx o descs

def transmitFree (o : SocketOptions) (n : ℤ) (errs : List Errno) : Prog (Socket o) ℤ := do
  let descs ← fetch (getDescs o n false)
  transmit o descs errs

def SplitCall.prog (o : SocketOptions) : SplitCall → Prog (Socket o) Outcome
  | .fill n => (fillFree o n).bind fun n => .ret (.submitted n)
  | .transmit n errs => (transmitFree o n errs).bind fun n => .ret (.submitted n)
  | .receive m => (XdpSocket.receive o m).bind fun descs => .ret (.received descs)
  | .poll errs => (XdpSocket.poll o errs).bind fun r => .ret (.polled r.1 r.2.1 r.2.2)

def SplitCall.Sends : SplitCall → Prop
  | .transmit _ errs => ∀ e ∈ errs, e ∈ [Errno.EINTR, .EAGAIN, .EBUSY]
  | _ => True

variable {o : SocketOptions}

theorem sendto_ret {σ : Type} {errs : List Errno}
    (h : ∀ e ∈ errs, e ∈ [Errno.EINTR, .EAGAIN, .EBUSY]) : (sendto errs : Prog σ Unit) = .ret () := by
  induction errs with
  | nil => rfl
  | cons e errs ih =>
    have he := h e List.mem_cons_self
    have ih' := ih fun e he => h e (List.mem_cons_of_mem _ he)
    cases e with
    | EINTR => exact ih'
    | EAGAIN => rfl
    | EBUSY => rfl
    | _ => simp at he

theorem transmitFree_eq (n : ℤ) (errs : List Errno) : transmitFree o n errs =
    (submitFree o n).bind fun n => (sendto errs).bind fun _ => .ret n := by
  simp only [transmitFree, submitFree, transmit, bind_def, pure_def, bind_assoc]

section Atomicity

theorem getDescs_own (hfit : o.FillRingNumDescs ≤ o.NumFrames) (n : ℤ) (rx : Bool)
    {s s' : Socket o} {l : KernelEvent} (h : KernelStep o s l s') :
    getDescs o n rx s' = getDescs o n rx s := by
  obtain ⟨hrx, htx, _, _⟩ := kernelStep_books h
  rw [getDescs_eq hfit, getDescs_eq hfit, Socket.freeList, Socket.freeList, hrx, htx]

/-- A call that submits what `GetDescs` returns takes effect at once when the submission of
descriptors of the UMEM does. -/
theorem getDescs_atomically (ho : Accepted o) (hfit : o.FillRingNumDescs ≤ o.NumFrames) (n : ℤ)
    (rx : Bool) {α : Type} {p : List Desc → Prog (Socket o) α}
    (h : ∀ descs, (∀ d ∈ descs, onFrame o d.Addr = true) →
      RunsAtomically (KernelStep o) Socket.Valid (p descs)) :
    RunsAtomically (KernelStep o) Socket.Valid ((fetch (getDescs o n rx)).bind p) := by
  apply runsAtomically_fetch_own (stable_valid ho)
  · exact fun s l s' _ hstep => getDescs_own hfit n rx hstep
  · intro s _
    rw [getDescs_eq hfit]
    rfl
  intro descs
  apply RunsAtomically.of_fact (F := ∀ d ∈ descs, onFrame o d.Addr = true)
  · exact fun s hs => (getDescs_spec ho hfit hs.2).2.1
  · exact fun hon => (h descs hon).weaken fun _ hs => hs.1

theorem fillFree_atomically (ho : Accepted o) (hfit : o.FillRingNumDescs ≤ o.NumFrames) (n : ℤ) :
    RunsAtomically (KernelStep o) Socket.Valid (fillFree o n) :=
  getDescs_atomically ho hfit n true fun _ => fill_atomically ho

theorem submitFree_atomically (ho : FourRings o) (hfit : o.FillRingNumDescs ≤ o.NumFrames)
    (n : ℤ) : RunsAtomically (KernelStep o) Socket.Valid (submitFree o n) :=
  getDescs_atomically ho.toAccepted hfit n false fun _ => submitTx_atomically ho.toAccepted ho.txPos

end Atomicity

section Ledgers

/-- The frames of a batch that `GetDescs` has found and that a ring has room for. -/
def givenFrames (s : Socket o) (n : ℤ) (rx : Bool) (room : ℕ) : List ℕ :=
  (freeAmong (s.freeList rx) (scanned o rx)).take (min room (descsLimit o n rx))

theorem givenFrames_lt (hfit : o.FillRingNumDescs ≤ o.NumFrames) {s : Socket o} {n : ℤ}
    {rx : Bool} {room : ℕ} : ∀ i ∈ givenFrames s n rx room, i < o.NumFrames.toNat :=
  fun i hi => scanned_lt hfit rx i (List.mem_of_mem_filter (List.mem_of_mem_take hi))

theorem givenFrames_nodup (s : Socket o) (n : ℤ) (rx : Bool) (room : ℕ) :
    (givenFrames s n rx room).Nodup :=
  ((scanned_nodup rx).filter _).sublist (List.take_sublist _ _)

theorem givenFrames_free {s : Socket o} {n : ℤ} {rx : Bool} {room : ℕ} :
    ∀ i ∈ givenFrames s n rx room, (s.freeList rx)[i]? = some true := by
  intro i hi
  have hfilter := List.mem_of_mem_take hi
  simp only [freeAmong, List.mem_filter, decide_eq_true_iff] at hfilter
  exact hfilter.2

theorem frames_take (xs : List Desc) (m : ℕ) : frames o (xs.take m) = (frames o xs).take m :=
  List.map_take

theorem fillFree_run {n : ℤ} {s : Socket o} {descs : List Desc}
    (h : getDescs o n true s = some descs) : (fillFree o n).run s = (fill o descs).run s := by
  simp [fillFree, h]

theorem submitFree_run {n : ℤ} {s : Socket o} {descs : List Desc}
    (h : getDescs o n false s = some descs) :
    (submitFree o n).run s = (submitTx o descs).run s := by
  simp [submitFree, h]

theorem fillFree_batch (ho : Accepted o) (hfit : o.FillRingNumDescs ≤ o.NumFrames) {n : ℤ}
    {s s' : Socket o} {a : ℤ} (hs : s.Valid) (hrun : (fillFree o n).run s = some (a, s')) :
    ∃ xs, s' = s.filled xs ∧ frames o xs = givenFrames s n true s.fillRoom ∧
      s.fillRing.outstanding + xs.length ≤ o.FillRingNumDescs.toNat := by
  have hdescs := getDescs_eq hfit n true s
  obtain ⟨hframes, hon, _, _⟩ := getDescs_spec ho hfit hdescs
  rw [fillFree_run hdescs] at hrun
  obtain ⟨_, rfl, hroom⟩ := fill_batch ho hs hon hrun
  refine ⟨_, rfl, ?_, hroom⟩
  rw [frames_take, hframes, List.take_take]
  rfl

theorem submitFree_batch (ho : Accepted o) (hfit : o.FillRingNumDescs ≤ o.NumFrames) {n : ℤ}
    {s s' : Socket o} {a : ℤ} (hs : s.Valid) (hrun : (submitFree o n).run s = some (a, s')) :
    ∃ r xs, 0 < o.TxRingNumDescs ∧ s.txRing = some r ∧ s' = s.transmitted r xs ∧
      frames o xs = givenFrames s n false s.txRoom ∧
      r.outstanding + xs.length ≤ o.TxRingNumDescs.toNat := by
  have hdescs := getDescs_eq hfit n false s
  obtain ⟨hframes, hon, _, _⟩ := getDescs_spec ho hfit hdescs
  rw [submitFree_run hdescs] at hrun
  obtain ⟨r, hpos, hr, _, rfl, hroom⟩ := submitTx_batch ho hs hon hrun
  refine ⟨r, _, hpos, hr, rfl, ?_, hroom⟩
  rw [frames_take, hframes, List.take_take]
  rfl

theorem fillFree_ledgers (ho : Accepted o) (hfit : o.FillRingNumDescs ≤ o.NumFrames) {n : ℤ}
    {s s' : Socket o} {k : Holdings} {a : ℤ} (h : Ledgers s k)
    (hrun : (fillFree o n).run s = some (a, s')) : Ledgers s' k := by
  obtain ⟨xs, rfl, hframes, hroom⟩ := fillFree_batch ho hfit h.valid hrun
  apply h.filled ho hroom
  · rw [hframes]
    exact givenFrames_nodup s n true _
  · rw [hframes]
    exact givenFrames_free

theorem submitFree_ledgers (ho : Accepted o) (hfit : o.FillRingNumDescs ≤ o.NumFrames) {n : ℤ}
    {s s' : Socket o} {k : Holdings} {a : ℤ} (h : Ledgers s k)
    (hrun : (submitFree o n).run s = some (a, s')) : Ledgers s' k := by
  obtain ⟨r, xs, hpos, hr, rfl, hframes, hroom⟩ := submitFree_batch ho hfit h.valid hrun
  apply h.transmitted ho hpos hr hroom
  · rw [hframes]
    exact givenFrames_nodup s n false _
  · rw [hframes]
    exact givenFrames_free

theorem receive_ledgers (ho : Accepted o) {m : ℤ} {s s' : Socket o} {k : Holdings}
    {descs : List Desc} (h : Ledgers s k) (hrun : (receive o m).run s = some (descs, s')) :
    Ledgers s' k := by
  obtain ⟨r, j, hpos, hr, hj, _, rfl, _⟩ := receive_returns ho h.valid hrun
  exact h.received ho hpos hr hj

theorem pollComplete_ledgers (ho : Accepted o) {received : ℤ} {s s' : Socket o} {k : Holdings}
    {a : ℤ × ℤ × Option Errno} (h : Ledgers s k)
    (hrun : (pollComplete o received).run s = some (a, s')) : Ledgers s' k := by
  rw [pollComplete_run ho h.valid] at hrun
  cases hrun
  exact h.completed ho

end Ledgers

section Outline

theorem ensures_ledgers (ho : Accepted o) {α : Type} {p : Prog (Socket o) α}
    (hp : RunsAtomically (KernelStep o) Socket.Valid p)
    (h : ∀ s k a s', Ledgers s k → p.run s = some (a, s') → Ledgers s' k) :
    Ensures (KernelStep o) (HoldStep o) Ledgers p fun _ => Ledgers :=
  ensures_atomically hp (fun _ _ h => h.valid) (keeps_ledgers ho) (fun _ => keeps_ledgers ho) h

theorem poll_ensures (ho : FourRings o) (errs : List Errno) :
    Ensures (KernelStep o) (HoldStep o) Ledgers (poll o errs) fun _ => Ledgers := by
  have hret : ∀ a : ℤ × ℤ × Option Errno,
      Ensures (KernelStep o) (HoldStep o) Ledgers (.ret a) fun _ => Ledgers :=
    fun a => ensures_ret (keeps_ledgers ho.toAccepted) fun _ _ h => h
  refine ensures_bind (ensures_ledgers ho.toAccepted (pollEvents_atomically ho.toAccepted) ?_) ?_
  · intro s k a s' h hrun
    rw [run_fetch] at hrun
    cases hrun
    exact h
  intro events
  split_ifs
  · exact hret _
  · cases pollLoop errs with
    | some e => exact hret _
    | none =>
      refine ensures_bind (ensures_ledgers ho.toAccepted
        (numReceived_atomically ho.toAccepted ho.rxPos) ?_) fun received => ?_
      · intro s k a s' h hrun
        obtain ⟨r, hr, _⟩ := h.valid.rx ho.rxPos
        rw [numReceived_run ho.toAccepted ho.rxPos hr h.valid] at hrun
        cases hrun
        exact h
      · exact ensures_ledgers ho.toAccepted (pollComplete_atomically ho.toAccepted received)
          fun _ _ _ _ => pollComplete_ledgers ho.toAccepted

theorem splitCall_ensures (ho : FourRings o) (hfit : o.FillRingNumDescs ≤ o.NumFrames)
    {c : SplitCall} (hc : c.Sends) :
    Ensures (KernelStep o) (HoldStep o) Ledgers (c.prog o) fun _ => Ledgers := by
  have hret : ∀ {α : Type} (a : α),
      Ensures (KernelStep o) (HoldStep o) Ledgers (.ret a) fun _ => Ledgers :=
    fun a => ensures_ret (keeps_ledgers ho.toAccepted) fun _ _ h => h
  cases c with
  | fill n =>
    refine ensures_bind (ensures_ledgers ho.toAccepted (fillFree_atomically ho.toAccepted hfit n)
      fun _ _ _ _ => fillFree_ledgers ho.toAccepted hfit) fun _ => hret _
  | transmit n errs =>
    simp only [SplitCall.prog, transmitFree_eq, sendto_ret hc, ret_bind, bind_ret]
    exact ensures_bind (ensures_ledgers ho.toAccepted (submitFree_atomically ho hfit n)
      fun _ _ _ _ => submitFree_ledgers ho.toAccepted hfit) fun _ => hret _
  | receive m =>
    exact ensures_bind (ensures_ledgers ho.toAccepted
      (receive_atomically ho.toAccepted ho.rxPos m)
      fun _ _ _ _ => receive_ledgers ho.toAccepted) fun _ => hret _
  | poll errs => exact ensures_bind (poll_ensures ho errs) fun _ => hret _

end Outline

/-- A free list is false exactly at the outstanding frames, each of which is at one place,
and each counter is the number of outstanding frames of its side. -/
structure FreeListsExact (s : Socket o) (k : Holdings) : Prop where
  rx : ∀ i, s.freeRXDescs[i]? = some false ↔ (rxSide s k).count i = 1
  rxOnce : ∀ i, (rxSide s k).count i ≤ 1
  tx : ∀ i, s.freeTXDescs[i]? = some false ↔ (txSide s k).count i = 1
  txOnce : ∀ i, (txSide s k).count i ≤ 1
  filled : s.numFilled = (rxSide s k).length ∧ s.numFilled = s.freeRXDescs.toList.count false
  transmitted : s.numTransmitted = (txSide s k).length ∧
    s.numTransmitted = s.freeTXDescs.toList.count false

theorem mem_iff_count_eq_one {given : List ℕ} (h : given.Nodup) (i : ℕ) :
    i ∈ given ↔ given.count i = 1 := by
  have hle := List.nodup_iff_count_le_one.mp h i
  rw [← List.one_le_count_iff]
  omega

theorem Ledgers.freeListsExact {s : Socket o} {k : Holdings} (h : Ledgers s k) :
    FreeListsExact s k where
  rx i := (h.rx.mem i).symm.trans (mem_iff_count_eq_one h.rx.nodup i)
  rxOnce := List.nodup_iff_count_le_one.mp h.rx.nodup
  tx i := (h.tx.mem i).symm.trans (mem_iff_count_eq_one h.tx.nodup i)
  txOnce := List.nodup_iff_count_le_one.mp h.tx.nodup
  filled := ⟨h.rx.count, h.rx.count_false⟩
  transmitted := ⟨h.tx.count, h.tx.count_false⟩

/-- Every run of the split discipline from a new socket returns, and leaves the free lists and
the counters exact. -/
theorem split_discipline_exact (ho : FourRings o) (hfit : o.FillRingNumDescs ≤ o.NumFrames)
    {calls : List SplitCall} (hcalls : ∀ c ∈ calls, c.Sends) {ls : List KernelEvent}
    {r : Option (List Outcome)} {s : Socket o} {k : Holdings}
    (h : Exec (KernelStep o) (runAll (SplitCall.prog o) calls) (newSocket o) ls r s)
    (hk : Steps (HoldStep o) Holdings.none ls k) : r ≠ none ∧ FreeListsExact s k := by
  have hall := ensures_runAll (keeps_ledgers ho.toAccepted)
    fun c hc => splitCall_ensures ho hfit (hcalls c hc)
  obtain ⟨a, rfl, hledgers⟩ := hall _ _ _ _ _ _ newSocket_ledgers h hk
  exact ⟨by simp, hledgers.freeListsExact⟩

/-- A frame is received and another one sent, and the first one is filled again. -/
def roundCalls : List SplitCall := [.fill 1, .receive 1, .transmit 1 [], .poll [], .fill 1]

def roundEvents : List KernelEvent :=
  [.takeFill 0, .pushRx ⟨64, 54, 0⟩, .takeTx ⟨2048, 2048, 0⟩, .pushCompletion 2048, .takeFill 0]

theorem split_discipline_exact_taken :
    ∃ s : Socket oneSlot,
      Exec (KernelStep oneSlot) (runAll (SplitCall.prog oneSlot) roundCalls) (newSocket oneSlot)
        roundEvents (some [.submitted 1, .received [⟨64, 54, 0⟩], .submitted 1, .polled 0 1 none,
          .submitted 1]) s ∧
      FreeListsExact s ⟨[0], []⟩ := by
  have hsends : ∀ c ∈ roundCalls, c.Sends := by simp [roundCalls, SplitCall.Sends]
  have hhold : Steps (HoldStep oneSlot) Holdings.none roundEvents ⟨[0], []⟩ :=
    .cons .takeFill (.cons (.pushRx (List.mem_singleton_self 0) rfl)
      (.cons .takeTx (.cons (.pushCompletion (List.mem_singleton_self 2048))
        (.cons .takeFill (.nil _)))))
  obtain ⟨s, hexec⟩ : ∃ s : Socket oneSlot,
      Exec (KernelStep oneSlot) (runAll (SplitCall.prog oneSlot) roundCalls) (newSocket oneSlot)
        roundEvents _ s :=
    ⟨_, .runAll_cons (.of_run rfl)
      (.env (.takeFill rfl) (.env (.pushRx rfl rfl rfl)
        (.runAll_cons (.of_run rfl) (.runAll_cons (.of_run rfl)
          (.env (.takeTx rfl rfl) (.env (.pushCompletion rfl rfl)
            (.runAll_cons (.of_run rfl) (.runAll_cons (.of_run rfl)
              (.env (.takeFill rfl) (.ret _ _))))))))))⟩
  exact ⟨s, hexec, (split_discipline_exact oneSlot_fourRings (by decide) hsends hexec hhold).2⟩

end Defrizer.XdpSocket
