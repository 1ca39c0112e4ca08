import Defrizer.SplitDiscipline

/-!
# The documented use

The package documents that `Fill` and `Transmit` take descriptors of `GetDescs` and of
`Receive`. `Receive` marks a frame free for receiving and a `Transmit` of it leaves that mark,
so `GetDescs` can return a frame that is on the Tx ring. A run gives no frame to the kernel
twice exactly when no call does so with a frame that one of the two free lists has as used.
Calls and kernel steps alternate here: each call takes effect at one moment.
-/
namespace Defrizer.XdpSocket
open InterleavedProgram WrappingRing RingPort OwnershipLedger KernelMaps

/-- `held` is what the last `Receive` returned and the user has not submitted since. -/
structure World (o : SocketOptions) where
  socket : Socket o
  kernel : Holdings
  held : List Desc

def newWorld (o : SocketOptions) : World o := ⟨newSocket o, Holdings.none, []⟩

inductive Event
  | kernel (l : KernelEvent)
  | fillFree (n : ℤ)
  | fillHeld (batch : List Desc)
  | transmitFree (n : ℤ) (errs : List Errno)
  | transmitHeld (batch : List Desc) (errs : List Errno)
  | receive (m : ℤ)
  | poll (errs : List Errno)

variable {o : SocketOptions}

/-- One event. What a ring had no room for stays with the user. -/
inductive World.Step : World o → Event → World o → Prop
  | kernel {w l s k} (step : KernelStep o w.socket l s) (hold : HoldStep o w.kernel l k) :
      Step w (.kernel l) ⟨s, k, w.held⟩
  | fillFree {w n a s} (run : (XdpSocket.fillFree o n).run w.socket = some (a, s)) :
      Step w (.fillFree n) ⟨s, w.kernel, w.held⟩
  | fillHeld {w batch rest a s} (obtained : w.held.Perm (batch ++ rest))
      (run : (fill o batch).run w.socket = some (a, s)) :
      Step w (.fillHeld batch) ⟨s, w.kernel, batch.drop a.toNat ++ rest⟩
  | transmitFree {w n errs a s}
      (run : (XdpSocket.transmitFree o n errs).run w.socket = some (a, s)) :
      Step w (.transmitFree n errs) ⟨s, w.kernel, w.held⟩
  | transmitHeld {w batch rest errs a s} (obtained : w.held.Perm (batch ++ rest))
      (run : (transmit o batch errs).run w.socket = some (a, s)) :
      Step w (.transmitHeld batch errs) ⟨s, w.kernel, batch.drop a.toNat ++ rest⟩
  | receive {w m descs s} (run : (XdpSocket.receive o m).run w.socket = some (descs, s)) :
      Step w (.receive m) ⟨s, w.kernel, descs⟩
  | poll {w errs a s} (run : (XdpSocket.poll o errs).run w.socket = some (a, s)) :
      Step w (.poll errs) ⟨s, w.kernel, w.held⟩

inductive World.Run : List (World o × Event) → World o → Prop
  | start : Run [] (newWorld o)
  | step {past w e w'} (h : Run past w) (next : w.Step e w') : Run (past ++ [(w, e)]) w'

/-- Each frame is at one place at most: on one of the rings or with the kernel. -/
def World.Exclusive (w : World o) : Prop :=
  ∀ i, (rxSide w.socket w.kernel ++ txSide w.socket w.kernel).count i ≤ 1

def World.submits (w : World o) : Event → List ℕ
  | .fillFree n => givenFrames w.socket n true w.socket.fillRoom
  | .fillHeld batch => (frames o batch).take w.socket.fillRoom
  | .transmitFree n _ => givenFrames w.socket n false w.socket.txRoom
  | .transmitHeld batch _ => (frames o batch).take w.socket.txRoom
  | _ => []

def BothFree (s : Socket o) (is : List ℕ) : Prop :=
  ∀ i ∈ is, s.freeRXDescs[i]? = some true ∧ s.freeTXDescs[i]? = some true

def World.Careful (w : World o) (e : Event) : Prop := BothFree w.socket (w.submits e)

/-- What a run of careful events keeps. -/
structure World.Sound (w : World o) : Prop where
  ledgers : Ledgers w.socket w.kernel
  exclusive : (rxSide w.socket w.kernel ++ txSide w.socket w.kernel).Nodup
  heldOnce : (frames o w.held).Nodup
  heldUmem : ∀ d ∈ w.held, onFrame o d.Addr = true

theorem exclusive_iff (w : World o) :
    w.Exclusive ↔ (rxSide w.socket w.kernel ++ txSide w.socket w.kernel).Nodup :=
  List.nodup_iff_count_le_one.symm

theorem newWorld_sound : (newWorld o).Sound where
  ledgers := newSocket_ledgers
  exclusive := by
    simp only [newWorld, rxSide, txSide, newSocket_queues]
    exact List.nodup_nil
  heldOnce := List.nodup_nil
  heldUmem := by simp [newWorld]

section Submission
variable {w : World o}

/-- Frames given away on top of those outstanding are at one place each exactly when both
free lists have them as free. -/
theorem World.Sound.give_iff (h : w.Sound) {items : List ℕ} (hnodup : items.Nodup)
    (hlt : ∀ i ∈ items, i < o.NumFrames.toNat) :
    (rxSide w.socket w.kernel ++ txSide w.socket w.kernel ++ items).Nodup ↔
      BothFree w.socket items := by
  have hfree : ∀ i ∈ items, (w.socket.freeRXDescs[i]? = some true ∧
      w.socket.freeTXDescs[i]? = some true) ↔
      i ∉ rxSide w.socket w.kernel ++ txSide w.socket w.kernel := by
    intro i hi
    rw [free_or_given h.ledgers.rx (hlt i hi), free_or_given h.ledgers.tx (hlt i hi),
      List.mem_append, not_or]
  constructor
  · intro hall i hi
    apply (hfree i hi).mpr
    intro hgiven
    exact (List.nodup_append.mp hall).2.2 i hgiven i hi rfl
  · intro hboth
    refine List.nodup_append.mpr ⟨h.exclusive, hnodup, fun i hi j hj hij => ?_⟩
    exact (hfree j hj).mp (hboth j hj) (hij ▸ hi)

theorem World.Sound.submitted (h : w.Sound) {s : Socket o} {items : List ℕ} {held : List Desc}
    (hperm : (rxSide s w.kernel ++ txSide s w.kernel).Perm
      (rxSide w.socket w.kernel ++ txSide w.socket w.kernel ++ items))
    (hledgers : BothFree w.socket items → Ledgers s w.kernel) (hnodup : items.Nodup)
    (hlt : ∀ i ∈ items, i < o.NumFrames.toNat) (hheld : (frames o held).Nodup)
    (humem : ∀ d ∈ held, onFrame o d.Addr = true) :
    ((⟨s, w.kernel, held⟩ : World o).Exclusive ↔ BothFree w.socket items) ∧
      (BothFree w.socket items → (⟨s, w.kernel, held⟩ : World o).Sound) := by
  have hiff := hperm.nodup_iff.trans (h.give_iff hnodup hlt)
  exact ⟨(exclusive_iff _).trans hiff,
    fun hboth => ⟨hledgers hboth, hiff.mpr hboth, hheld, humem⟩⟩

theorem World.Sound.filled (h : w.Sound) (ho : Accepted o) {xs held : List Desc}
    (hroom : w.socket.fillRing.outstanding + xs.length ≤ o.FillRingNumDescs.toNat)
    (hnodup : (frames o xs).Nodup) (hlt : ∀ i ∈ frames o xs, i < o.NumFrames.toNat)
    (hheld : (frames o held).Nodup) (humem : ∀ d ∈ held, onFrame o d.Addr = true) :
    ((⟨w.socket.filled xs, w.kernel, held⟩ : World o).Exclusive ↔
      BothFree w.socket (frames o xs)) ∧
    (BothFree w.socket (frames o xs) →
      (⟨w.socket.filled xs, w.kernel, held⟩ : World o).Sound) := by
  have hperm : (rxSide (w.socket.filled xs) w.kernel ++ txSide w.socket w.kernel).Perm
      (rxSide w.socket w.kernel ++ txSide w.socket w.kernel ++ frames o xs) := by
    have hside := rxSide_filled ho hroom w.kernel
    grind
  apply h.submitted hperm _ hnodup hlt hheld humem
  exact fun hboth => h.ledgers.filled ho hroom hnodup fun i hi => (hboth i hi).1

theorem World.Sound.transmitted (h : w.Sound) (ho : Accepted o) (hpos : 0 < o.TxRingNumDescs)
    {r : Ring Desc o.TxRingNumDescs.toNat} (hr : w.socket.txRing = some r)
    {xs held : List Desc} (hroom : r.outstanding + xs.length ≤ o.TxRingNumDescs.toNat)
    (hnodup : (frames o xs).Nodup) (hlt : ∀ i ∈ frames o xs, i < o.NumFrames.toNat)
    (hheld : (frames o held).Nodup) (humem : ∀ d ∈ held, onFrame o d.Addr = true) :
    ((⟨w.socket.transmitted r xs, w.kernel, held⟩ : World o).Exclusive ↔
      BothFree w.socket (frames o xs)) ∧
    (BothFree w.socket (frames o xs) →
      (⟨w.socket.transmitted r xs, w.kernel, held⟩ : World o).Sound) := by
  have hperm : (rxSide w.socket w.kernel ++ txSide (w.socket.transmitted r xs) w.kernel).Perm
      (rxSide w.socket w.kernel ++ txSide w.socket w.kernel ++ frames o xs) := by
    have hside := txSide_transmitted ho hpos hr hroom w.kernel
    grind
  apply h.submitted hperm _ hnodup hlt hheld humem
  exact fun hboth => h.ledgers.transmitted ho hpos hr hroom hnodup fun i hi => (hboth i hi).2

end Submission

section Returns

theorem sendto_run {σ : Type} {errs : List Errno} {s : σ} {r : Unit × σ}
    (h : (sendto errs : Prog σ Unit).run s = some r) : r.2 = s := by
  rcases sendto_cases errs with hret | hpanic
  · rw [hret, run_ret] at h
    cases h
    rfl
  · simp [hpanic] at h

theorem run_then_sendto {σ : Type} {errs : List Errno} {p : Prog σ ℤ} {s s' : σ} {a : ℤ}
    (h : (p.bind fun n => (sendto errs).bind fun _ => .ret n).run s = some (a, s')) :
    p.run s = some (a, s') := by
  simp only [run_bind, Option.bind_eq_some_iff, run_ret, Option.some.injEq, Prod.mk.injEq] at h
  obtain ⟨⟨n, s₁⟩, hp, r, hsendto, rfl, rfl⟩ := h
  rw [sendto_run hsendto]
  exact hp

theorem poll_returns (ho : Accepted o) {errs : List Errno} {s s' : Socket o} (hs : s.Valid)
    {a : ℤ × ℤ × Option Errno} (hrun : (poll o errs).run s = some (a, s')) :
    s' = s ∨ s' = s.completed := by
  simp only [poll, bind_def, run_bind, run_fetch, Option.map_some, Option.bind_some] at hrun
  split_ifs at hrun
  · cases hrun
    exact Or.inl rfl
  · cases hpoll : pollLoop errs with
    | some e =>
      rw [hpoll] at hrun
      cases hrun
      exact Or.inl rfl
    | none =>
      rw [hpoll] at hrun
      simp only [run_bind, Option.bind_eq_some_iff] at hrun
      obtain ⟨⟨n, s₁⟩, hreceived, hcomplete⟩ := hrun
      have hpos := numReceived_pos hs hreceived
      obtain ⟨r, hr, _⟩ := hs.rx hpos
      rw [numReceived_run ho hpos hr hs] at hreceived
      cases hreceived
      rw [pollComplete_run ho hs] at hcomplete
      cases hcomplete
      exact Or.inr rfl

end Returns

section Steps
variable {w w' : World o}

theorem held_rest {held batch rest : List Desc} (hnodup : (frames o held).Nodup)
    (humem : ∀ d ∈ held, onFrame o d.Addr = true) (hperm : held.Perm (batch ++ rest)) (m : ℕ) :
    (frames o batch).Nodup ∧ (∀ d ∈ batch, onFrame o d.Addr = true) ∧
      (frames o (batch.drop m ++ rest)).Nodup ∧
      ∀ d ∈ batch.drop m ++ rest, onFrame o d.Addr = true := by
  have hall : (frames o (batch ++ rest)).Nodup := (hperm.map _).nodup_iff.mp hnodup
  have hmem : ∀ d ∈ batch ++ rest, onFrame o d.Addr = true :=
    fun d hd => humem d (hperm.symm.subset hd)
  have hbatch : batch.Sublist (batch ++ rest) := List.sublist_append_left batch rest
  have hrest : (batch.drop m ++ rest).Sublist (batch ++ rest) :=
    (List.drop_sublist m batch).append_right rest
  exact ⟨hall.sublist (hbatch.map _), fun d hd => hmem d (hbatch.subset hd),
    hall.sublist (hrest.map _), fun d hd => hmem d (hrest.subset hd)⟩

theorem frames_take_lt {batch : List Desc} (h : ∀ d ∈ batch, onFrame o d.Addr = true) (m : ℕ) :
    ∀ i ∈ frames o (batch.take m), i < o.NumFrames.toNat := by
  intro i hi
  obtain ⟨d, hd, rfl⟩ := List.mem_map.mp hi
  exact of_decide_eq_true (h d (List.mem_of_mem_take hd))

theorem given_batch (hfit : o.FillRingNumDescs ≤ o.NumFrames) {s : Socket o} {n : ℤ} {rx : Bool}
    {room : ℕ} {xs : List Desc} (hframes : frames o xs = givenFrames s n rx room) :
    (frames o xs).Nodup ∧ ∀ i ∈ frames o xs, i < o.NumFrames.toNat := by
  rw [hframes]
  exact ⟨givenFrames_nodup s n rx room, givenFrames_lt hfit⟩

theorem held_batch {batch : List Desc} (hnodup : (frames o batch).Nodup)
    (hon : ∀ d ∈ batch, onFrame o d.Addr = true) (m : ℕ) :
    (frames o (batch.take m)).Nodup ∧ ∀ i ∈ frames o (batch.take m), i < o.NumFrames.toNat :=
  ⟨hnodup.sublist ((List.take_sublist _ _).map _), frames_take_lt hon m⟩

theorem World.Sound.quiet {e : Event} (h' : w'.Sound) (he : w.submits e = []) :
    (w'.Exclusive ↔ w.Careful e) ∧ (w.Careful e → w'.Sound) := by
  have hcareful : w.Careful e := by simp [World.Careful, BothFree, he]
  exact ⟨iff_of_true ((exclusive_iff w').mpr h'.exclusive) hcareful, fun _ => h'⟩

/-- From a sound state an event leaves every frame at one place at most exactly when it is
careful, and then the state is sound again. -/
theorem World.Sound.step (h : w.Sound) (ho : Accepted o)
    (hfit : o.FillRingNumDescs ≤ o.NumFrames) {e : Event} (hstep : w.Step e w') :
    (w'.Exclusive ↔ w.Careful e) ∧ (w.Careful e → w'.Sound) := by
  have hvalid := h.ledgers.valid
  cases hstep with
  | @kernel l s k step hold =>
    obtain ⟨hrx, htx⟩ := frames_queueStep (queueStep_of_kernelStep ho hvalid step) hold
    have hsound : (⟨s, k, w.held⟩ : World o).Sound :=
      ⟨keeps_ledgers ho _ _ _ _ _ h.ledgers step hold,
        (hrx.append htx).nodup_iff.mpr h.exclusive, h.heldOnce, h.heldUmem⟩
    exact hsound.quiet rfl
  | @fillFree n a s run =>
    obtain ⟨xs, rfl, hframes, hroom⟩ := fillFree_batch ho hfit hvalid run
    obtain ⟨hnodup, hlt⟩ := given_batch hfit hframes
    have hfilled := h.filled ho hroom hnodup hlt h.heldOnce h.heldUmem
    rwa [hframes] at hfilled
  | @fillHeld batch rest a s obtained run =>
    obtain ⟨hbatch, hon, hheld, humem⟩ := held_rest h.heldOnce h.heldUmem obtained a.toNat
    obtain ⟨_, rfl, hroom⟩ := fill_batch ho hvalid hon run
    obtain ⟨hnodup, hlt⟩ := held_batch hbatch hon w.socket.fillRoom
    have hfilled := h.filled ho hroom hnodup hlt hheld humem
    rwa [frames_take] at hfilled
  | @transmitFree n errs a s run =>
    rw [transmitFree_eq] at run
    obtain ⟨r, xs, hpos, hr, rfl, hframes, hroom⟩ :=
      submitFree_batch ho hfit hvalid (run_then_sendto run)
    obtain ⟨hnodup, hlt⟩ := given_batch hfit hframes
    have htransmitted := h.transmitted ho hpos hr hroom hnodup hlt h.heldOnce h.heldUmem
    rwa [hframes] at htransmitted
  | @transmitHeld batch rest errs a s obtained run =>
    obtain ⟨hbatch, hon, hheld, humem⟩ := held_rest h.heldOnce h.heldUmem obtained a.toNat
    obtain ⟨r, hpos, hr, _, rfl, hroom⟩ := submitTx_batch ho hvalid hon (run_then_sendto run)
    obtain ⟨hnodup, hlt⟩ := held_batch hbatch hon w.socket.txRoom
    have htransmitted := h.transmitted ho hpos hr hroom hnodup hlt hheld humem
    rwa [frames_take] at htransmitted
  | @receive m descs s run =>
    obtain ⟨r, j, hpos, hr, hj, rfl, rfl, hon⟩ := receive_returns ho hvalid run
    have hside := rxSide_received ho hpos hr hj w.kernel
    have hrx := List.nodup_append.mp (hside.nodup_iff.mp h.ledgers.rx.nodup)
    have hall : (rxSide (w.socket.received r j) w.kernel ++ txSide w.socket w.kernel).Nodup := by
      have hsplit := (hside.append_right (txSide w.socket w.kernel)).nodup_iff.mp h.exclusive
      exact hsplit.sublist ((List.sublist_append_left _ _).append_right _)
    have hsound : (⟨w.socket.received r j, w.kernel, r.queue.take j⟩ : World o).Sound :=
      ⟨h.ledgers.received ho hpos hr hj, hall, hrx.2.1, hon⟩
    exact hsound.quiet rfl
  | @poll errs a s run =>
    rcases poll_returns ho hvalid run with rfl | rfl
    · exact h.quiet rfl
    · have hside := txSide_completed ho (s := w.socket) w.kernel
      have hall : (rxSide w.socket w.kernel ++ txSide w.socket.completed w.kernel).Nodup := by
        have hsplit := (hside.append_left (rxSide w.socket w.kernel)).nodup_iff.mp h.exclusive
        exact hsplit.sublist ((List.sublist_append_left _ _).append_left _)
      have hsound : (⟨w.socket.completed, w.kernel, w.held⟩ : World o).Sound :=
        ⟨h.ledgers.completed ho, hall, h.heldOnce, h.heldUmem⟩
      exact hsound.quiet rfl

theorem World.Run.sound (ho : Accepted o) (hfit : o.FillRingNumDescs ≤ o.NumFrames)
    {past : List (World o × Event)} (h : World.Run past w)
    (hcareful : ∀ v ∈ past, v.1.Careful v.2) : w.Sound := by
  induction h with
  | start => exact newWorld_sound
  | @step past w e w' _ next ih =>
    have hbefore := ih fun v hv => hcareful v (List.mem_append_left _ hv)
    exact (hbefore.step ho hfit next).2 (hcareful (w, e) (List.mem_append_right _ (by simp)))

end Steps

/-- In every run of the documented use, no frame is ever at two places exactly when every
event of the run is careful. -/
theorem exclusive_iff_careful (ho : Accepted o) (hfit : o.FillRingNumDescs ≤ o.NumFrames)
    {past : List (World o × Event)} {w : World o} (h : World.Run past w) :
    ((∀ v ∈ past, v.1.Exclusive) ∧ w.Exclusive) ↔ ∀ v ∈ past, v.1.Careful v.2 := by
  induction h with
  | start =>
    have hnew := (exclusive_iff _).mpr (newWorld_sound (o := o)).exclusive
    simp [hnew]
  | @step past w e w' hrun next ih =>
    simp only [List.forall_mem_append, List.forall_mem_singleton]
    constructor
    · rintro ⟨⟨hpast, hw⟩, hw'⟩
      have hcareful := ih.mp ⟨hpast, hw⟩
      exact ⟨hcareful, (((hrun.sound ho hfit hcareful).step ho hfit next).1).mp hw'⟩
    · rintro ⟨hcareful, he⟩
      exact ⟨ih.mpr hcareful, (((hrun.sound ho hfit hcareful).step ho hfit next).1).mpr he⟩

/-- A frame is filled, received, sent back and completed. -/
def sentBack : List Event :=
  [.fillFree 1, .kernel (.takeFill 0), .kernel (.pushRx ⟨64, 54, 0⟩), .receive 1,
    .transmitHeld [⟨64, 54, 0⟩] [], .kernel (.takeTx ⟨64, 54, 0⟩), .kernel (.pushCompletion 64),
    .poll []]

theorem exclusive_iff_careful_sentBack :
    ∃ (past : List (World oneSlot × Event)) (w : World oneSlot), World.Run past w ∧
      past.map Prod.snd = sentBack ∧ (∀ v ∈ past, v.1.Exclusive) ∧ w.Exclusive := by
  have hrun : ∃ (past : List (World oneSlot × Event)) (w : World oneSlot), World.Run past w ∧
      past.map Prod.snd = sentBack ∧ ∀ v ∈ past, v.1.Careful v.2 := by
    refine ⟨_, _, .step (.step (.step (.step (.step (.step (.step (.step .start
      (.fillFree rfl))
      (.kernel (.takeFill rfl) .takeFill))
      (.kernel (.pushRx rfl rfl rfl) (.pushRx (List.mem_singleton_self 0) rfl)))
      (.receive rfl))
      (.transmitHeld (.refl _) rfl))
      (.kernel (.takeTx rfl rfl) .takeTx))
      (.kernel (.pushCompletion rfl rfl) (.pushCompletion (List.mem_singleton_self 64))))
      (.poll rfl), rfl, ?_⟩
    simp only [World.Careful, BothFree]
    decide
  obtain ⟨past, w, hrun, hevents, hcareful⟩ := hrun
  have hiff := exclusive_iff_careful oneSlot_fourRings.toAccepted (by decide) hrun
  exact ⟨past, w, hrun, hevents, hiff.mpr hcareful⟩

section Echo

def echoDesc : Desc := ⟨256, 64, 0⟩

def echoFilled : Socket defaultSocketOptions :=
  (newSocket _).filled [frameDesc defaultSocketOptions 0]

def emptyRing {n : ℕ} : Ring Desc n := ⟨0, 0, Vector.replicate _ default⟩

def echoTaken : Socket defaultSocketOptions :=
  { echoFilled with fillRing := echoFilled.fillRing.pop }

def echoArrived : Socket defaultSocketOptions :=
  { echoTaken with rxRing := some (emptyRing.push echoDesc) }

def echoReceived : Socket defaultSocketOptions := echoArrived.received (emptyRing.push echoDesc) 1

def echoTransmitted : Socket defaultSocketOptions := echoReceived.transmitted emptyRing [echoDesc]

theorem fillFree_first {s : Socket defaultSocketOptions} (hs : s.Valid)
    (hdescs : getDescs _ 1 true s = some [frameDesc defaultSocketOptions 0])
    (hroom : s.fillRing.outstanding + 1 ≤ 64) :
    (fillFree _ 1).run s = some (1, s.filled [frameDesc defaultSocketOptions 0]) :=
  (fillFree_run hdescs).trans
    (fill_run_all defaultSocketOptions_fourRings.toAccepted hs (by decide) hroom)

/-- The packet of the first frame is sent back as the package's example does, and its frame is
filled again while the kernel has yet to send it. -/
theorem documented_use_not_exclusive : ¬ ∀ (past : List (World defaultSocketOptions × Event))
    (w : World defaultSocketOptions), World.Run past w → w.Exclusive := by
  intro hclaim
  have ho := defaultSocketOptions_fourRings
  have hfilled : echoFilled.Valid := filled_valid ho.toAccepted newSocket_valid (by decide)
  have htake : KernelStep _ echoFilled (.takeFill 0) echoTaken :=
    .takeFill (take_of_read (by decide) (by decide))
  have htaken := stable_valid ho.toAccepted _ _ _ hfilled htake
  have hpush : KernelStep _ echoTaken (.pushRx echoDesc) echoArrived :=
    .pushRx rfl (give_of_lt (by decide) echoDesc) (by decide)
  have harrived := stable_valid ho.toAccepted _ _ _ htaken hpush
  have hreceive : (receive _ 1).run echoArrived = some ([echoDesc], echoReceived) := by
    have hring : echoArrived.rxRing = some (emptyRing.push echoDesc) := rfl
    have hone : (emptyRing.push echoDesc :
        Ring Desc defaultSocketOptions.RxRingNumDescs.toNat).outstanding = 1 := by decide
    have hqueue : (emptyRing.push echoDesc :
        Ring Desc defaultSocketOptions.RxRingNumDescs.toNat).queue.take 1 = [echoDesc] := by decide
    rw [receive_run ho.toAccepted ho.rxPos hring harrived, hone, Nat.cast_one, min_self,
      Int.toNat_one, hqueue]
    rfl
  have hreceived : echoReceived.Valid :=
    received_valid ho.toAccepted ho.rxPos rfl harrived (by decide)
  have hsubmit := submitTx_run ho.toAccepted ho.txPos (s := echoReceived) (r := emptyRing) rfl
    hreceived (show ∀ d ∈ [echoDesc], onFrame _ d.Addr = true by decide)
  have htransmitted : echoTransmitted.Valid :=
    transmitted_valid ho.toAccepted ho.txPos hreceived (by decide)
  have htransmit : (transmit _ [echoDesc] []).run echoReceived = some (1, echoTransmitted) := by
    simp only [transmit, bind_def, run_bind, hsubmit, Option.bind_some]
    rfl
  have hrunReceived : World.Run _ ⟨echoReceived, ⟨[], []⟩, [echoDesc]⟩ :=
    .step (.step (.step (.step .start
      (.fillFree (fillFree_first newSocket_valid (by decide) (by decide))))
      (.kernel htake .takeFill))
      (.kernel hpush (.pushRx (List.mem_singleton_self 0) (by decide))))
      (.receive hreceive)
  have hrunTransmitted :
      World.Run _ ⟨echoTransmitted, ⟨[], []⟩, [echoDesc].drop (1 : ℤ).toNat ++ []⟩ :=
    .step hrunReceived (.transmitHeld (.refl [echoDesc]) htransmit)
  have hrun : World.Run _ ⟨echoTransmitted.filled [frameDesc _ 0], ⟨[], []⟩, _⟩ :=
    .step hrunTransmitted
      (.fillFree (fillFree_first htransmitted (by decide +kernel) (by decide)))
  exact absurd (hclaim _ _ hrun 0) (by decide)

end Echo

end Defrizer.XdpSocket
