import Defrizer.SocketQueues
import Defrizer.GhostOutline

/-!
# Sockets in use

The states of a socket from `NewSocket` on, under any calls that return, whatever descriptors
they submit, and any steps of the kernel. `Poll` and `Stats` look at the Rx ring of every
socket, so a socket without one cannot be inspected, nor polled once it has sent something.
-/
namespace Defrizer.XdpSocket
open InterleavedProgram WrappingRing RingPort KernelMaps

variable {o : SocketOptions}

inductive Reachable : Socket o → Prop
  | new : Reachable (newSocket o)
  | kernel {s s' l} (h : Reachable s) (step : KernelStep o s l s') : Reachable s'
  | call {c s s' ls a} (h : Reachable s)
      (run : Exec (KernelStep o) (Call.prog o c) s ls (some a) s') : Reachable s'

section Returned
variable {s s' : Socket o} {ls : List KernelEvent}

lemma submitTx_pos {descs : List Desc} {a : ℤ} (ho : Accepted o) (hs : s.Valid)
    (h : Exec (KernelStep o) (submitTx o descs) s ls (some a) s') : 0 < o.TxRingNumDescs := by
  by_contra hpos
  obtain ⟨_, k, _, _, _, hslots, _⟩ := h.bind_returned
  obtain ⟨_, prod, _, _, _, hprod, _⟩ := hslots.bind_returned
  obtain ⟨ls₁, s₁, _, _, _, hbefore, hread, _⟩ := hprod.atomic_returned
  have hnone := ((stable_valid ho).steps hbefore hs).noTx hpos
  simp [txPort, hnone] at hread

lemma numReceived_rxPos {a : ℤ} (ho : Accepted o) (hs : s.Valid)
    (h : Exec (KernelStep o) (numReceived o) s ls (some a) s') : 0 < o.RxRingNumDescs := by
  by_contra hpos
  obtain ⟨_, prod, _, _, _, hprod, _⟩ := h.bind_returned
  obtain ⟨ls₁, s₁, _, _, _, hbefore, hread, _⟩ := hprod.atomic_returned
  have hnone := ((stable_valid ho).steps hbefore hs).noRx hpos
  simp [rxPort, hnone] at hread

lemma RunsAtomically.valid (ho : Accepted o) {α : Type} {p : Prog (Socket o) α} {r : Option α}
    (hp : RunsAtomically (KernelStep o) Socket.Valid p)
    (heffect : ∀ s a s', s.Valid → p.run s = some (a, s') → s'.Valid) (hs : s.Valid)
    (h : Exec (KernelStep o) p s ls r s') : s'.Valid := by
  obtain ⟨ls₁, s₁, a, s₂, ls₂, _, _, hbefore, hrun, hafter⟩ := hp s ls r s' hs h
  have hs₁ := (stable_valid ho).steps hbefore hs
  exact (stable_valid ho).steps hafter (heffect s₁ a s₂ hs₁ hrun)

lemma fill_returned (ho : Accepted o) {descs : List Desc} {a : ℤ} (hs : s.Valid)
    (h : Exec (KernelStep o) (fill o descs) s ls (some a) s') : s'.Valid := by
  obtain ⟨descs', _, hon, h'⟩ := submit_returned h
  refine RunsAtomically.valid ho (fill_atomically ho hon) (fun s a s' hs hrun => ?_) hs h'
  obtain ⟨_, rfl, hroom⟩ := fill_batch ho hs hon hrun
  exact filled_valid ho hs hroom

lemma submitTx_returned (ho : Accepted o) {descs : List Desc} {a : ℤ} (hs : s.Valid)
    (h : Exec (KernelStep o) (submitTx o descs) s ls (some a) s') : s'.Valid := by
  have hpos := submitTx_pos ho hs h
  obtain ⟨descs', _, hon, h'⟩ := submit_returned h
  refine RunsAtomically.valid ho (submitTx_atomically ho hpos hon) (fun s a s' hs hrun => ?_) hs h'
  obtain ⟨r, _, hr, _, rfl, hroom⟩ := submitTx_batch ho hs hon hrun
  exact transmitted_valid ho hpos hs hroom

lemma receive_returned (ho : Accepted o) {num : ℤ} {descs : List Desc} (hs : s.Valid)
    (h : Exec (KernelStep o) (receive o num) s ls (some descs) s') : s'.Valid := by
  obtain ⟨_, _, _, _, _, hcount, _⟩ := h.bind_returned
  have hpos := numReceived_rxPos ho hs hcount
  refine RunsAtomically.valid ho (receive_atomically ho hpos num) (fun s a s' hs hrun => ?_) hs h
  obtain ⟨r, j, _, hr, hj, _, rfl, _⟩ := receive_returns ho hs hrun
  exact received_valid ho hpos hr hs hj

lemma sendto_returned (ho : Accepted o) {errs : List Errno} {a : Unit} (hs : s.Valid)
    (h : Exec (KernelStep o) (sendto errs) s ls (some a) s') : s'.Valid := by
  rcases sendto_cases errs with hret | hpanic
  · rw [hret] at h
    exact (stable_valid ho).steps h.ret_inv.2 hs
  · rw [hpanic] at h
    obtain ⟨_, _, _, _, _, _, hf, _⟩ := h.atomic_returned
    simp at hf

lemma numReceived_unchanged (ho : Accepted o) (hpos : 0 < o.RxRingNumDescs) {a : ℤ}
    (hs : s.Valid) (hrun : (numReceived o).run s = some (a, s')) : s' = s := by
  obtain ⟨r, hr, _⟩ := hs.rx hpos
  rw [numReceived_run ho hpos hr hs] at hrun
  cases hrun
  rfl

lemma pollComplete_valid (ho : Accepted o) {received : ℤ} {a : ℤ × ℤ × Option Errno}
    (hs : s.Valid) (hrun : (pollComplete o received).run s = some (a, s')) : s'.Valid := by
  rw [pollComplete_run ho hs] at hrun
  cases hrun
  exact completed_valid ho hs

lemma poll_returned (ho : Accepted o) {errs : List Errno} {a : ℤ × ℤ × Option Errno}
    (hs : s.Valid) (h : Exec (KernelStep o) (poll o errs) s ls (some a) s') : s'.Valid := by
  have hstable := stable_valid ho
  obtain ⟨_, events, s₁, _, _, hevents, h⟩ := h.bind_returned
  have hs₁ := RunsAtomically.valid ho (pollEvents_atomically ho) (fun s a s' hs hrun => by
    rw [run_fetch] at hrun
    cases hrun
    exact hs) hs hevents
  split_ifs at h
  · exact hstable.steps h.ret_inv.2 hs₁
  cases hloop : pollLoop errs with
  | some e =>
    rw [hloop] at h
    exact hstable.steps h.ret_inv.2 hs₁
  | none =>
    rw [hloop] at h
    obtain ⟨_, received, s₂, _, _, hreceived, hcomplete⟩ := h.bind_returned
    have hpos := numReceived_rxPos ho hs₁ hreceived
    have hs₂ := RunsAtomically.valid ho (numReceived_atomically ho hpos)
      (fun s a s' hs hrun => numReceived_unchanged ho hpos hs hrun ▸ hs) hs₁ hreceived
    exact RunsAtomically.valid ho (pollComplete_atomically ho received)
      (fun s a s' hs hrun => pollComplete_valid ho hs hrun) hs₂ hcomplete

end Returned

/-- A reachable socket is valid, whatever was submitted to it. -/
theorem Reachable.valid (ho : Accepted o) {s : Socket o} (h : Reachable s) : s.Valid := by
  induction h with
  | new => exact newSocket_valid
  | kernel _ step hs => exact stable_valid ho _ _ _ hs step
  | @call c s s' ls a _ run hs =>
    have hstable := stable_valid ho
    cases c with
    | fill descs =>
      obtain ⟨_, n, s₁, _, _, hfill, hret⟩ := run.bind_returned
      exact hstable.steps hret.ret_inv.2 (fill_returned ho hs hfill)
    | transmit descs errs =>
      obtain ⟨_, n, s₁, _, _, htransmit, hret⟩ := run.bind_returned
      obtain ⟨_, m, s₂, _, _, hsubmit, hrest⟩ := htransmit.bind_returned
      obtain ⟨_, u, s₃, _, _, hsend, hret'⟩ := hrest.bind_returned
      have hs₃ := sendto_returned ho (submitTx_returned ho hs hsubmit) hsend
      exact hstable.steps hret.ret_inv.2 (hstable.steps hret'.ret_inv.2 hs₃)
    | receive num =>
      obtain ⟨_, descs, s₁, _, _, hreceive, hret⟩ := run.bind_returned
      exact hstable.steps hret.ret_inv.2 (receive_returned ho hs hreceive)
    | poll errs =>
      obtain ⟨_, r, s₁, _, _, hpoll, hret⟩ := run.bind_returned
      exact hstable.steps hret.ret_inv.2 (poll_returned ho hs hpoll)

def Completes {α : Type} (p : Prog (Socket o) α) (s : Socket o) : Prop :=
  ∀ ls r s', Exec (KernelStep o) p s ls r s' → r ≠ none

section Inspection
variable {s : Socket o}

lemma consumer_ensures (ho : Accepted o) {α : Type} {n : ℕ} {port : Port (Socket o) α n}
    (hring : ∀ s : Socket o, s.Valid → ∃ r, port.get s = some r) :
    Ensures (KernelStep o) NoGhost (fun s _ => s.Valid) (consumer port) fun _ s _ => s.Valid := by
  have hkeeps := keeps_noGhost (stable_valid ho)
  apply ensures_atomic hkeeps fun _ => hkeeps
  intro s _ hs
  obtain ⟨r, hr⟩ := hring s hs
  exact ⟨r.consumer, s, by simp [hr], hs⟩

lemma stats_ensures (ho : Accepted o) (hpos : 0 < o.RxRingNumDescs) (errno : Option Errno) :
    Ensures (KernelStep o) NoGhost (fun s _ => s.Valid) (stats o errno) fun _ s _ => s.Valid := by
  have hkeeps := keeps_noGhost (stable_valid ho)
  refine ensures_bind (consumer_ensures ho fun s _ => ⟨s.fillRing, rfl⟩) fun filled => ?_
  refine ensures_bind (consumer_ensures ho fun s hs => ?_) fun received => ?_
  · obtain ⟨r, hr, _⟩ := hs.rx hpos
    exact ⟨r, hr⟩
  refine ensures_bind (ensures_atomic hkeeps (fun _ => hkeeps) fun s _ hs => ⟨_, s, rfl, hs⟩)
    fun transmitted => ?_
  refine ensures_bind (consumer_ensures ho fun s _ => ⟨s.completionRing, rfl⟩) fun completed => ?_
  exact ensures_ret hkeeps fun _ _ hs => hs

lemma stats_completes_iff (ho : Accepted o) (hs : s.Valid) (errno : Option Errno) :
    Completes (stats o errno) s ↔ 0 < o.RxRingNumDescs := by
  constructor
  · intro h
    by_contra hpos
    have hrun : (stats o errno).run s = none := by
      simp [stats, consumer, fillPort, rxPort, hs.noRx hpos]
    obtain ⟨s', hexec⟩ := Exec.of_run_none (R := KernelStep o) hrun
    exact h _ _ _ hexec rfl
  · intro hpos ls r s' hexec
    obtain ⟨a, rfl, _⟩ := (stats_ensures ho hpos errno).returns hs hexec
    simp

def Socket.Awaits (events : UInt16) (s : Socket o) : Prop :=
  s.Valid ∧ pollEvents s.numFilled s.numTransmitted = events

lemma stable_awaits (ho : Accepted o) (events : UInt16) :
    Stable (KernelStep o) (Socket.Awaits events) := by
  intro s l s' hs step
  obtain ⟨_, _, hfilled, htransmitted⟩ := kernelStep_books step
  exact ⟨stable_valid ho s l s' hs.1 step, by rw [hfilled, htransmitted, hs.2]⟩

lemma numReceived_ensures (ho : Accepted o) (hpos : 0 < o.RxRingNumDescs) :
    Ensures (KernelStep o) NoGhost (fun s _ => s.Valid) (numReceived o) fun _ s _ => s.Valid := by
  have hkeeps := keeps_noGhost (stable_valid ho)
  exact ensures_atomically (numReceived_atomically ho hpos) (fun _ _ hs => hs) hkeeps
    (fun _ => hkeeps) fun s _ a s' hs hrun => numReceived_unchanged ho hpos hs hrun ▸ hs

lemma pollComplete_ensures (ho : Accepted o) (received : ℤ) :
    Ensures (KernelStep o) NoGhost (fun s _ => s.Valid) (pollComplete o received)
      fun _ s _ => s.Valid := by
  have hkeeps := keeps_noGhost (stable_valid ho)
  exact ensures_atomically (pollComplete_atomically ho received) (fun _ _ hs => hs) hkeeps
    (fun _ => hkeeps) fun s _ a s' hs hrun => pollComplete_valid ho hs hrun

/-- `Poll` reads the Rx ring unless it has nothing to wait for or its wait fails. -/
lemma poll_ensures_valid (ho : Accepted o) {events : UInt16} {errs : List Errno}
    (hcase : 0 < o.RxRingNumDescs ∨ events = 0 ∨ (pollLoop errs).isSome) :
    Ensures (KernelStep o) NoGhost (fun s _ => s.Awaits events) (poll o errs)
      fun _ s _ => s.Valid := by
  have hstable := stable_valid ho
  refine ensures_bind (Q := fun e s _ => e = events ∧ s.Valid) ?_ fun e => ?_
  · refine ensures_atomic (keeps_noGhost (stable_awaits ho events)) (fun e => ?_)
      fun s _ hs => ⟨_, s, rfl, hs.2, hs.1⟩
    exact keeps_noGhost fun s l s' hs step => ⟨hs.1, hstable s l s' hs.2 step⟩
  · refine ensures_of_fact fun he => ?_
    subst he
    split_ifs with h0
    · exact ensures_ret (keeps_noGhost hstable) fun _ _ hs => hs
    cases hloop : pollLoop errs with
    | some err => exact ensures_ret (keeps_noGhost hstable) fun _ _ hs => hs
    | none =>
      have hpos : 0 < o.RxRingNumDescs := by simpa [h0, hloop] using hcase
      exact ensures_bind (numReceived_ensures ho hpos) fun received => pollComplete_ensures ho received

lemma poll_completes_iff (ho : Accepted o) (hs : s.Valid) (errs : List Errno) :
    Completes (poll o errs) s ↔ 0 < o.RxRingNumDescs ∨
      pollEvents s.numFilled s.numTransmitted = 0 ∨ (pollLoop errs).isSome := by
  constructor
  · intro h
    by_contra hcase
    obtain ⟨hpos, hevents, hloop⟩ : ¬ 0 < o.RxRingNumDescs ∧
        pollEvents s.numFilled s.numTransmitted ≠ 0 ∧ pollLoop errs = none := by simpa using hcase
    have hreceived : (numReceived o).run s = none := by
      simp [numReceived, numAvailable, producer, rxPort, hs.noRx hpos]
    have hrun : (poll o errs).run s = none := by
      simp [poll, hevents, hloop, hreceived]
    obtain ⟨s', hexec⟩ := Exec.of_run_none (R := KernelStep o) hrun
    exact h _ _ _ hexec rfl
  · intro hcase ls r s' hexec
    obtain ⟨a, rfl, _⟩ := (poll_ensures_valid ho hcase).returns ⟨hs, rfl⟩ hexec
    simp

/-- On every reachable socket `Stats` completes exactly if there is an Rx ring, and `Poll`
exactly if there is one, or there is nothing to wait for, or the wait fails. -/
theorem inspection_completes_iff (ho : Accepted o) (hs : Reachable s) (errno : Option Errno)
    (errs : List Errno) :
    (Completes (stats o errno) s ↔ 0 < o.RxRingNumDescs) ∧
      (Completes (poll o errs) s ↔ 0 < o.RxRingNumDescs ∨
        pollEvents s.numFilled s.numTransmitted = 0 ∨ (pollLoop errs).isSome) :=
  ⟨stats_completes_iff ho (hs.valid ho) errno, poll_completes_iff ho (hs.valid ho) errs⟩

def transmitOnly : SocketOptions := { defaultSocketOptions with RxRingNumDescs := 0 }

lemma transmitOnly_accepted : Accepted transmitOnly :=
  { defaultSocketOptions_fourRings.toAccepted with
    rx := fun h => absurd h (lt_irrefl 0)
    oneSide := Or.inr defaultSocketOptions_fourRings.txPos }

theorem inspection_completes_iff_new :
    Completes (stats _ none) (newSocket defaultSocketOptions) ∧
      Completes (poll _ []) (newSocket defaultSocketOptions) ∧
      ¬ Completes (stats _ none) (newSocket transmitOnly) := by
  have hdefault := inspection_completes_iff defaultSocketOptions_fourRings.toAccepted .new none []
  have htransmit := inspection_completes_iff transmitOnly_accepted .new none []
  exact ⟨hdefault.1.mpr (by decide), hdefault.2.mpr (Or.inl (by decide)),
    fun h => absurd (htransmit.1.mp h) (by decide)⟩

lemma Reachable.transmitted (ho : Accepted o) (hpos : 0 < o.TxRingNumDescs) (hs : Reachable s)
    {r : Ring Desc o.TxRingNumDescs.toNat} (hr : s.txRing = some r) {xs : List Desc}
    (hxs : ∀ d ∈ xs, onFrame o d.Addr = true)
    (hroom : xs.length ≤ o.TxRingNumDescs.toNat - r.outstanding) :
    Reachable (s.transmitted r xs) := by
  have hsubmit := submitTx_run ho hpos hr (hs.valid ho) hxs
  rw [List.take_of_length_le hroom] at hsubmit
  have hrun : (Call.prog o (.transmit xs [])).run s =
      some (.submitted xs.length, s.transmitted r xs) := by
    simp only [Call.prog, transmit, bind_def, pure_def, run_bind, hsubmit, Option.bind_some]
    rfl
  exact hs.call (.of_run hrun)

/-- Without an Rx ring `Stats` panics on a new socket, and `Poll` after a `Transmit`. -/
theorem transmitOnly_not_inspectable :
    ¬ (∀ s : Socket transmitOnly, Reachable s → Completes (stats _ none) s) ∧
      ¬ (∀ s : Socket transmitOnly, Reachable s → Completes (poll _ []) s) := by
  have ho := transmitOnly_accepted
  constructor
  · intro hall
    have hpos := (stats_completes_iff ho newSocket_valid none).mp (hall _ .new)
    exact absurd hpos (by decide)
  · intro hall
    let ring : Ring Desc transmitOnly.TxRingNumDescs.toNat := ⟨0, 0, Vector.replicate _ default⟩
    have hsent : Reachable ((newSocket transmitOnly).transmitted ring [⟨0, 64, 0⟩]) :=
      Reachable.new.transmitted ho (by decide) rfl (by decide) (by decide)
    rcases (poll_completes_iff ho (hsent.valid ho) []).mp (hall _ hsent) with h | h | h
    · exact absurd h (by decide)
    · exact absurd h (by decide)
    · exact absurd h (by decide)

end Inspection

end Defrizer.XdpSocket
