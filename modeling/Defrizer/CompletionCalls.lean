import Defrizer.FrameOwnership
import Defrizer.ReachableSockets
import Defrizer.RingPortCounters

/-!
# Calls of Complete

`Complete` takes the number of entries to consume from its caller. Within what the kernel has
produced it consumes that many; `Receive`, its counterpart, trims the number first.
-/
namespace Defrizer.XdpSocket
open InterleavedProgram WrappingRing RingPort OwnershipLedger KernelMaps

variable {o : SocketOptions}

/-- As many entries as asked for and there are. -/
def Socket.completable (s : Socket o) (n : ℤ) : ℕ :=
  (min (max n 0) s.completionRing.outstanding).toNat

/-- `Complete(n)` has consumed up to `n` entries and nothing else when it returns. -/
def CompletesUpTo (n : ℤ) (s : Socket o) : Prop :=
  ∀ ls r s', Exec (KernelStep o) (complete o n) s ls r s' →
    r = some () ∧ Steps (KernelStep o) (s.completedBy (s.completable n)) ls s'

/-- The kernel has produced that many entries. -/
def InRange (n : ℤ) (s : Socket o) : Prop := 0 ≤ n ∧ n ≤ s.completionRing.outstanding

lemma complete_transmitted (n c : ℤ) :
    Maintains (KernelStep o) NoGhost (fun s _ => s.numTransmitted = c) (complete o n)
      fun _ s _ => s.numTransmitted = c + -n := by
  have hkeeps : ∀ c : ℤ, Keeps (KernelStep o) NoGhost fun s _ => s.numTransmitted = c := by
    intro c s _ l s' _ hs step _
    obtain ⟨_, _, _, htransmitted⟩ := kernelStep_books step
    rw [htransmitted, hs]
  refine maintains_bind (Maintains.weaken (collect_maintains (K := fun s _ => s.numTransmitted = c + -n)
    (hkeeps c) (ownsConsumer_of_gives meets_completion)
    (fun addr => (private_completion true addr).toAside) (fun _ _ _ hs => hs) (hkeeps c) (hkeeps _)
    (fun _ s _ _ hs => ?_) fun _ _ _ hs _ => hs) fun _ _ _ hs => hs.2)
    fun _ => maintains_ret (hkeeps _) fun _ _ hs => hs
  rw [Socket.addTransmitted, hs]

lemma complete_inRange (ho : Accepted o) {s : Socket o}
    (hs : OnRing (completionPort o) (Collectable (onFrame o) 0) s) {n : ℤ} (hn : InRange n s) :
    CompletesUpTo n s := by
  intro ls r s' hexec
  obtain ⟨h0, hle⟩ := hn
  have hk : n.toNat ≤ s.completionRing.outstanding := by omega
  have hcompletable : s.completable n = n.toNat := by
    unfold Socket.completable
    omega
  have hcollectable : OnRing (completionPort o) (Collectable (onFrame o) n.toNat) s := by
    obtain ⟨r, hr, hbound, _, hall⟩ := hs
    cases hr
    exact ⟨_, rfl, hbound, hk, hall⟩
  have hret : RunsFirst (KernelStep o) (fun _ => True) (.ret ()) fun _ _ => True :=
    runsFirst_ret fun _ _ => trivial
  have hfirst := runsFirst_bind (runsFirst_collect ho.completion.size.1 ho.completion.size.2
    meets_completion (fun addr _ => private_completion true addr)
    (fun _ => private_completion_count (-n)) n) fun _ => hret
  obtain ⟨a, s₁, rfl, hrun, _, hsteps⟩ := hfirst s ls r s' hcollectable hexec
  have halone := complete_run ho hs hk
  rw [Int.toNat_of_nonneg h0] at halone
  cases hrun.symm.trans halone
  rw [hcompletable]
  exact ⟨rfl, hsteps⟩

/-- Below 0 and beyond what the kernel has produced the counter is wrong at least. -/
lemma completesUpTo_iff (ho : Accepted o) {s : Socket o}
    (hs : OnRing (completionPort o) (Collectable (onFrame o) 0) s) (n : ℤ) :
    CompletesUpTo n s ↔ InRange n s := by
  refine ⟨fun h => ?_, complete_inRange ho hs⟩
  cases hrun : (complete o n).run s with
  | none =>
    obtain ⟨s', hexec⟩ := Exec.of_run_none (R := KernelStep o) hrun
    cases (h _ _ _ hexec).1
  | some p =>
    obtain ⟨_, s'⟩ := p
    have hexec := Exec.of_run (R := KernelStep o) hrun
    have hcount := complete_transmitted n s.numTransmitted s () [] () s' () rfl hexec (.nil ())
    obtain ⟨_, hsteps⟩ := h _ _ _ hexec
    cases hsteps
    simp only [Socket.completedBy, Socket.completable] at hcount
    unfold InRange
    omega

/-- Calls of `Complete` from a state on, interleaved with kernel steps, and the states before
each of them. -/
inductive Completions (s₀ : Socket o) (k₀ : Holdings) :
    List (Socket o × ℤ) → Socket o → Holdings → Prop
  | start : Completions s₀ k₀ [] s₀ k₀
  | kernel {past s k l s' k'} (h : Completions s₀ k₀ past s k) (step : KernelStep o s l s')
      (hold : HoldStep o k l k') : Completions s₀ k₀ past s' k'
  | complete {past s k n ls s' k'} (h : Completions s₀ k₀ past s k)
      (run : Exec (KernelStep o) (XdpSocket.complete o n) s ls (some ()) s')
      (hold : Steps (HoldStep o) k ls k') : Completions s₀ k₀ (past ++ [(s, n)]) s' k'

lemma Completions.txLedger (ho : Accepted o) {s₀ s : Socket o} {k₀ k : Holdings}
    {past : List (Socket o × ℤ)} (h : Completions s₀ k₀ past s k) (h₀ : TxLedger s₀ k₀)
    (hrange : ∀ c ∈ past, InRange c.2 c.1) : TxLedger s k := by
  induction h with
  | start => exact h₀
  | kernel _ step hold ih => exact keeps_txLedger ho _ _ _ _ _ (ih hrange) step hold
  | @complete past s k n ls s' k' _ run hold ih =>
    have hledger := ih fun c hc => hrange c (List.mem_append_left _ hc)
    have hn : InRange n s := hrange (s, n) (by simp)
    obtain ⟨_, hsteps⟩ := complete_inRange ho hledger.valid.completion hn ls _ s' run
    have hle : s.completable n ≤ s.completionRing.outstanding := by
      unfold Socket.completable
      omega
    exact (keeps_txLedger ho).steps (hledger.completedBy ho hle) hsteps hold

/-- The frames on the Tx ring and those the kernel holds for sending. -/
def inFlight (s : Socket o) (k : Holdings) : List ℕ :=
  frames o s.queues.tx ++ k.tx.map (frameIndex o)

lemma TxLedger.getDescs_notMem (ho : Accepted o) {s : Socket o} {k : Holdings} (h : TxLedger s k)
    {m : ℤ} {descs : List Desc} (hget : getDescs o m false s = some descs) :
    ∀ d ∈ descs, frameIndex o d.Addr ∉ inFlight s k := by
  intro d hd hmem
  obtain ⟨i, _, hfree, rfl⟩ := getDescs_mem hget d hd
  have hfree' : s.freeTXDescs[i]? = some true := hfree
  have hlt : i < o.NumFrames.toNat := by
    by_contra hlt
    simp [hlt] at hfree'
  rw [frameIndex_frameDesc ho hlt] at hmem
  have hnot := (free_or_given h.tx hlt).mp hfree'
  exact hnot (List.mem_append_left _ hmem)

/-- `Complete(n)` consumes the first `min (max n 0) NumCompleted()` entries exactly when `n` is
neither negative nor more than that, and as long as all calls are like this `GetDescs` reports
no frame in flight as free. -/
theorem complete_exact (ho : Accepted o) :
    (∀ s : Socket o, OnRing (completionPort o) (Collectable (onFrame o) 0) s →
      (numCompleted o).run s = some ((s.completionRing.outstanding : ℤ), s) ∧
        ∀ n, CompletesUpTo n s ↔ InRange n s) ∧
    ∀ (s₀ s : Socket o) (k₀ k : Holdings) (past : List (Socket o × ℤ)), TxLedger s₀ k₀ →
      Completions s₀ k₀ past s k → (∀ c ∈ past, InRange c.2 c.1) →
      ∀ m descs, getDescs o m false s = some descs →
        ∀ d ∈ descs, frameIndex o d.Addr ∉ inFlight s k := by
  constructor
  · intro s hs
    exact ⟨numCompleted_run ho hs, completesUpTo_iff ho hs⟩
  · intro s₀ s k₀ k past h₀ hrun hrange m descs hget
    exact (hrun.txLedger ho h₀ hrange).getDescs_notMem ho hget

section Pair

def twoSlots : SocketOptions := ⟨4, 2048, 1, 2, 1, 2⟩

lemma twoSlots_accepted : Accepted twoSlots where
  numFrames := by decide
  frameSize := by decide
  umem := by decide
  fill := ⟨0, by decide, rfl⟩
  completion := ⟨1, by decide, rfl⟩
  rx _ := ⟨0, by decide, rfl⟩
  tx _ := ⟨1, by decide, rfl⟩
  oneSide := Or.inl (by decide)

/-- Frames 1 and 2 are on the Tx ring. -/
def pairSent : Socket twoSlots :=
  (newSocket twoSlots).transmitted ⟨0, 0, Vector.replicate _ default⟩
    [frameDesc twoSlots 1, frameDesc twoSlots 2]

/-- The kernel has taken both. -/
def pairTaken : Socket twoSlots :=
  { pairSent with txRing := some ⟨2, 2, #v[frameDesc twoSlots 1, frameDesc twoSlots 2]⟩ }

/-- Frame 1 is sent, and frame 2 still with the kernel. -/
def pairProduced : Socket twoSlots :=
  { pairTaken with completionRing := ⟨1, 0, #v[2048, 0]⟩ }

def pairCompleted : Socket twoSlots := pairProduced.completedBy 1

lemma pairTaken_txLedger : TxLedger pairTaken ⟨[], [2048, 4096]⟩ := by
  have hsent : Ledgers pairSent Holdings.none :=
    newSocket_ledgers.transmitted twoSlots_accepted (by decide) rfl (by decide) (by decide)
      (by decide)
  have htaken : Steps (KernelStep twoSlots) pairSent
      [.takeTx (frameDesc twoSlots 1), .takeTx (frameDesc twoSlots 2)] pairTaken :=
    .cons (.takeTx rfl rfl) (.cons (.takeTx rfl rfl) (.nil _))
  exact (keeps_txLedger twoSlots_accepted).steps hsent.toTxLedger htaken
    (.cons .takeTx (.cons .takeTx (.nil _)))

/-- One of two frames sent is completed, and the other one is in flight. -/
theorem complete_exact_pair :
    CompletesUpTo 1 pairProduced ∧ ¬ CompletesUpTo 2 pairProduced ∧
      inFlight pairCompleted ⟨[], [4096]⟩ = [2] ∧
      ∀ m descs, getDescs _ m false pairCompleted = some descs →
        ∀ d ∈ descs, frameIndex twoSlots d.Addr ∉ inFlight pairCompleted ⟨[], [4096]⟩ := by
  have hexact := complete_exact twoSlots_accepted
  have hstep : KernelStep twoSlots pairTaken (.pushCompletion 2048) pairProduced :=
    .pushCompletion rfl (by decide)
  have hhold : HoldStep twoSlots ⟨[], [2048, 4096]⟩ (.pushCompletion 2048) ⟨[], [4096]⟩ :=
    .pushCompletion (by decide)
  have hvalid := stable_valid twoSlots_accepted _ _ _ pairTaken_txLedger.valid hstep
  obtain ⟨_, hiff⟩ := hexact.1 pairProduced hvalid.completion
  have hone : InRange 1 pairProduced := by unfold InRange; decide
  have hrun : Completions pairTaken ⟨[], [2048, 4096]⟩ [(pairProduced, 1)] pairCompleted
      ⟨[], [4096]⟩ :=
    (Completions.start.kernel hstep hhold).complete (n := 1) (.of_run rfl) (.nil _)
  exact ⟨(hiff 1).mpr hone, fun h => absurd ((hiff 2).mp h).2 (by decide), by decide,
    hexact.2 _ _ _ _ _ pairTaken_txLedger hrun (by simpa using hone)⟩

end Pair

section Overrun

def oneDesc : Ring Desc 1 := ⟨1, 0, Vector.replicate _ (frameDesc oneSlot 1)⟩

/-- Frame 1 is on the Tx ring. -/
def sentOnce : Socket oneSlot :=
  { newSocket oneSlot with
    txRing := some oneDesc
    freeTXDescs := (Vector.replicate _ true).set 1 false
    numTransmitted := 1 }

def sentTaken : Socket oneSlot := { sentOnce with txRing := some oneDesc.pop }

def sentCompleted : Socket oneSlot :=
  { sentTaken with completionRing := ⟨1, 0, Vector.replicate _ 2048⟩ }

def sentPolled : Socket oneSlot :=
  { newSocket oneSlot with
    completionRing := ⟨1, 1, Vector.replicate _ 2048⟩
    txRing := some oneDesc.pop }

def sentAgain : Socket oneSlot :=
  { sentPolled with
    txRing := some ⟨2, 1, Vector.replicate _ (frameDesc oneSlot 1)⟩
    freeTXDescs := (Vector.replicate _ true).set 1 false
    numTransmitted := 1 }

def sentOverrun : Socket oneSlot :=
  { sentPolled with
    completionRing := ⟨1, 2, Vector.replicate _ 2048⟩
    txRing := sentAgain.txRing }

lemma sentAgain_reachable : Reachable sentAgain := by
  have hsent : Reachable sentOnce :=
    Reachable.new.call (c := .transmit [frameDesc oneSlot 1] []) (.of_run rfl)
  have htaken : Reachable sentTaken := hsent.kernel (.takeTx rfl rfl)
  have hstep : KernelStep oneSlot sentTaken (.pushCompletion 2048) sentCompleted :=
    .pushCompletion rfl (by decide)
  have hcompleted := htaken.kernel hstep
  have hpolled : Reachable sentPolled := hcompleted.call (c := .poll []) (.of_run rfl)
  exact hpolled.call (c := .transmit [frameDesc oneSlot 1] []) (.of_run rfl)

lemma sentAgain_txLedger : TxLedger sentAgain Holdings.none where
  valid := sentAgain_reachable.valid oneSlot_fourRings.toAccepted
  tx := by
    have hside : txSide sentAgain Holdings.none = [1] := by decide
    have hgive : Exact ([] ++ [1]) (setAll false [1] (Vector.replicate 2 true))
        (0 + ([1] : List ℕ).length) := exact_new.give (by simp) (by decide)
    rw [hside]
    exact hgive

/-- `Complete(1)` with nothing produced passes the producer, and frees the frame in flight. -/
theorem complete_frees_in_flight :
    ¬ (∀ s : Socket oneSlot, Reachable s → ∀ n, CompletesUpTo n s) ∧
      ¬ ∀ (s₀ s : Socket oneSlot) (k₀ k : Holdings) (past : List (Socket oneSlot × ℤ)),
        TxLedger s₀ k₀ → Completions s₀ k₀ past s k → ∀ m descs,
          getDescs oneSlot m false s = some descs →
            ∀ d ∈ descs, frameIndex oneSlot d.Addr ∉ inFlight s k := by
  constructor
  · intro hall
    have hvalid := sentAgain_reachable.valid oneSlot_fourRings.toAccepted
    have hrange := (completesUpTo_iff oneSlot_fourRings.toAccepted hvalid.completion 1).mp
      (hall _ sentAgain_reachable 1)
    exact absurd hrange.2 (by decide)
  · intro hall
    have hrun : Completions sentAgain Holdings.none _ sentOverrun Holdings.none :=
      Completions.start.complete (n := 1) (.of_run rfl) (.nil _)
    have hfree : getDescs _ 1 false sentOverrun = some [frameDesc oneSlot 1] := by decide
    exact hall _ _ _ _ _ sentAgain_txLedger hrun 1 _ hfree _ (List.mem_singleton_self _)
      (by decide)

end Overrun

end Defrizer.XdpSocket
