import Defrizer.MainFunctions
import Defrizer.ReceiveLoop
import Defrizer.SocketResources

/-!
# What dumpframes leaves behind

The `main` function of `dumpframes`, with its socket. All else it takes is given back in deferred
calls; the socket it never closes.
-/
namespace Defrizer.MainFunctions
open InterleavedProgram KernelMaps ProgramRegistration ProgramResources
open SocketResources (Ledger Syscall SocketError Handle Opened Faults FailsCleanly Decides orClose)
open XdpSocket (SocketOptions defaultSocketOptions)

/-- How far the loop of `main` gets with a socket. -/
structure LoopRun {o : SocketOptions} (s₀ : XdpSocket.Socket o) where
  point : XdpSocket.Point
  socket : XdpSocket.Socket o
  holdings : XdpSocket.Holdings
  reached : XdpSocket.Reaches s₀ point socket holdings

/-- How `main` ends at a point of its loop, if it does. -/
def loopExit : XdpSocket.Point → Option Exit
  | .returned err => some (.returned "error: " (some err))
  | .outside _ => some (.panicked none)
  | .panicked => some (.panicked none)
  | _ => none

/-- How the calls of the `main` of `dumpframes` go that come after `Attach`. -/
structure Receiver where
  fd : ℕ
  socket : Faults
  putSocket : Option Errno
  putQueue : Option Errno
  loop : ∀ s₀ : XdpSocket.Socket defaultSocketOptions, LoopRun s₀
  deleteQueue : Option Errno
  deleteSocket : Option Errno

abbrev SocketMaps := Maps (ArrayMap 64) (XskMap 64)

def unregistering (queueID : ℤ) (a : Receiver) (maps : SocketMaps) : Option SocketMaps :=
  ((unregister queueID a.deleteQueue a.deleteSocket).run maps).map Prod.snd

/-- The loop, which goes on for ever unless it comes to one of its ends. -/
def receiving (a : Receiver) (s₀ : XdpSocket.Socket defaultSocketOptions) : Body SocketMaps :=
  fun maps => (loopExit (a.loop s₀).point).map fun exit => (exit, maps)

/-- From `NewSocket` on. The socket is closed nowhere. -/
def listen (queueID : ℤ) (a : Receiver) : Body Ledger := fun ledger =>
  match SocketResources.newSocket defaultSocketOptions a.fd a.socket ledger with
  -- never with these options
  | none => some (.panicked none, ledger)
  | some (.error e, ledger) =>
    some (.returned ("error: failed to create an XDP socket: " ++ e.context) e.cause, ledger)
  | some (.ok xsk, ledger) =>
    ((register queueID xsk.fd a.putSocket a.putQueue).run (newMaps 64)).bind fun
      | (some e, _) =>
        some (.returned ("error: failed to register socket in BPF map: " ++ e.context)
          (some e.cause), ledger)
      | (none, maps) => (deferring (unregistering queueID a) (receiving a xsk.socket) maps).map
          fun (exit, _) => (exit, ledger)

/-- `main` of `dumpframes`. -/
def main (linkName : String) (queueID : ℤ) (c : Calls TcpsynObjects) (a : Receiver) :
    Body (World Ledger) :=
  onInterface XdpProgram c linkName (listen queueID a)

section NewSocket
variable {o : SocketOptions} {fails : Faults} {xsk : Handle o} {c : Syscall} {context : String}
  {rest : Ledger → Opened o}

/-- The code returns, and a success is a new socket and has mapped at least `n` things more. -/
def Finishes (n : ℕ) (k : Ledger → Opened o) : Prop :=
  ∀ l, ∃ r l', k l = some (r, l') ∧ ∀ xsk, r = .ok xsk →
    xsk.socket = XdpSocket.newSocket o ∧ l.mappings + n ≤ l'.mappings

lemma orClose_finishes {n m : ℕ} (hrest : Finishes n rest)
    (hc : ∀ l, l.mappings + m ≤ (c.effect l).mappings) :
    Finishes (m + n) (orClose fails xsk c context rest) := by
  intro l
  unfold orClose
  cases fails c with
  | some e => exact ⟨_, _, rfl, by simp⟩
  | none =>
    obtain ⟨r, l', hrun, hok⟩ := hrest (c.effect l)
    refine ⟨r, l', hrun, fun xsk h => ?_⟩
    have hmapped := hc l
    obtain ⟨hsocket, hmore⟩ := hok xsk h
    exact ⟨hsocket, by omega⟩

lemma orClose_finishes_rest {n : ℕ} (hrest : Finishes n rest)
    (hc : ∀ l, l.mappings ≤ (c.effect l).mappings) :
    Finishes n (orClose fails xsk c context rest) := by
  simpa using orClose_finishes (m := 0) hrest hc

lemma ifRing_finishes {n : ℕ} {ring : Prop} [Decidable ring] (hrest : Finishes n rest)
    (hc : ∀ l, l.mappings ≤ (c.effect l).mappings) :
    Finishes n ((if ring then orClose fails xsk c context else id) rest) := by
  split_ifs
  · exact orClose_finishes_rest hrest hc
  · exact hrest

/-- The Fill and the Completion ring are always mapped. -/
lemma mapRings_finishes (h : 0 ≤ o.NumFrames ∧ 0 ≤ o.CompletionRingNumDescs ∧
    0 ≤ o.FillRingNumDescs) (hnew : xsk.socket = XdpSocket.newSocket o) :
    Finishes 2 (SocketResources.mapRings fails xsk) := by
  have hslices : Finishes 0 (SocketResources.makeSlices xsk) := by
    intro l
    refine ⟨.ok xsk, l, if_neg (by omega), fun xsk' h => ?_⟩
    cases h
    exact ⟨hnew, le_rfl⟩
  refine orClose_finishes_rest (orClose_finishes (n := 1) (m := 1)
    (orClose_finishes (n := 0) (m := 1) ?_ ?_) ?_) ?_
  · refine ifRing_finishes (ifRing_finishes ?_ fun l => Nat.le_succ _) fun l => Nat.le_succ _
    exact orClose_finishes_rest hslices fun _ => le_rfl
  · exact fun _ => le_rfl
  · exact fun _ => le_rfl
  · exact fun _ => le_rfl

lemma setRings_finishes (h : 0 ≤ o.NumFrames ∧ 0 ≤ o.CompletionRingNumDescs ∧
    0 ≤ o.FillRingNumDescs) (hnew : xsk.socket = XdpSocket.newSocket o) :
    Finishes 2 (SocketResources.setRings fails xsk) := by
  unfold SocketResources.setRings
  refine orClose_finishes_rest (orClose_finishes_rest (orClose_finishes_rest ?_ fun _ => le_rfl)
    fun _ => le_rfl) fun _ => le_rfl
  refine ifRing_finishes (ifRing_finishes ?_ fun _ => le_rfl) fun _ => le_rfl
  by_cases hring : o.RxRingNumDescs > 0 ∨ o.TxRingNumDescs > 0
  · rw [if_neg (not_not.mpr hring)]
    exact mapRings_finishes h hnew
  · rw [if_pos hring]
    exact fun l => ⟨_, _, rfl, by simp⟩

lemma balanced_iff_eq {before l : Ledger} {r : Except SocketError (Handle o)}
    (hmapped : ∀ xsk, r = .ok xsk → before.mappings + 2 ≤ l.mappings) :
    SocketResources.Balanced before (r, l) ↔ l = before := by
  cases r with
  | error e => exact Iff.rfl
  | ok xsk =>
    have hl := hmapped xsk rfl
    constructor
    · intro hbalanced
      have hclose := SocketResources.close_mappings { xsk with socket := XdpSocket.newSocket o }
        SocketResources.noFaults l
      rw [hbalanced (XdpSocket.newSocket o)] at hclose
      omega
    · rintro rfl
      omega

/-- `NewSocket` returns an error or a new socket, and the ledger is then as before exactly if it
failed cleanly. -/
lemma newSocket_ledger (fails : Faults) (fd : ℕ) (l : Ledger) (h : 0 ≤ o.NumFrames ∧
    0 ≤ o.CompletionRingNumDescs ∧ 0 ≤ o.FillRingNumDescs) :
    ∃ r l', SocketResources.newSocket o fd fails l = some (r, l') ∧
      (∀ xsk, r = .ok xsk → xsk.socket = XdpSocket.newSocket o) ∧
      (l' = l ↔ FailsCleanly o fails) := by
  unfold SocketResources.newSocket
  cases hsocket : fails .socket with
  | some e => exact ⟨_, _, rfl, by simp, by simp [FailsCleanly, hsocket]⟩
  | none =>
    have hrings := SocketResources.setRings_decides fd (XdpSocket.newSocket o) fails l
    have hfinishes : Finishes 2 (orClose fails ⟨fd, false, XdpSocket.newSocket o⟩ .mmapUmem
        "syscall.Mmap failed: " (SocketResources.setRings fails ⟨fd, true, XdpSocket.newSocket o⟩)) :=
      orClose_finishes_rest (setRings_finishes h rfl) fun _ => Nat.le_succ _
    obtain ⟨r, l', hrun, hok⟩ := hfinishes (Syscall.socket.effect l)
    refine ⟨r, l', hrun, fun xsk hxsk => (hok xsk hxsk).1, ?_⟩
    have heq : SocketResources.Balanced l (r, l') ↔ l' = l :=
      balanced_iff_eq fun xsk hxsk => (hok xsk hxsk).2
    rw [← heq, SocketResources.orClose_decides hrings _ hrun, SocketResources.close_opened,
      FailsCleanly, hsocket]
    cases fails .mmapUmem <;> simp [and_left_comm]

end NewSocket

lemma register_returns (queueID fd : ℤ) (fault₁ fault₂ : Option Errno) (maps : SocketMaps) :
    ∃ r, (register queueID fd fault₁ fault₂).run maps = some r := by
  have hcall : ∀ (fault : Option Errno) (op : SocketMaps → Except Errno SocketMaps) (m : SocketMaps),
      ∃ r m', (mapCall fault op).run m = some (r, m') := by
    intro fault op m
    simp only [mapCall, run_atomic]
    exact ⟨_, _, rfl⟩
  obtain ⟨r, m, hput⟩ := hcall fault₁ (putSocket (UInt32.ofInt queueID) (UInt32.ofInt fd)) maps
  simp only [register, run_bind, hput, Option.bind_some]
  cases r with
  | error e => exact ⟨_, rfl⟩
  | ok u =>
    obtain ⟨r', m', hput'⟩ := hcall fault₂ (putQueue (UInt32.ofInt queueID) 1) m
    simp only [ProgramRegistration.orReturn, run_bind, hput', Option.bind_some]
    cases r' with
    | error e => exact ⟨_, rfl⟩
    | ok u => exact ⟨_, rfl⟩

/-- `listen` returns an error, or it ends with its loop. The socket stays open: what it took is
given back only when `NewSocket` does. -/
lemma listen_restored (queueID : ℤ) (a : Receiver) (ledger : Ledger) :
    ∃ ledger', (ledger' = ledger ↔ FailsCleanly defaultSocketOptions a.socket) ∧
      ((∃ exit, exit.Regular ∧ listen queueID a ledger = some (exit, ledger')) ∨
        listen queueID a ledger = (loopExit (a.loop (XdpSocket.newSocket _)).point).map
          fun exit => (exit, ledger')) := by
  have hsizes : 0 ≤ defaultSocketOptions.NumFrames ∧
      0 ≤ defaultSocketOptions.CompletionRingNumDescs ∧
      0 ≤ defaultSocketOptions.FillRingNumDescs := by decide
  obtain ⟨r, ledger', hsocket, hnew, hledger⟩ := newSocket_ledger a.socket a.fd ledger hsizes
  refine ⟨ledger', hledger, ?_⟩
  cases r with
  | error e =>
    refine .inl ⟨.returned ("error: failed to create an XDP socket: " ++ e.context) e.cause,
      ⟨_, _, rfl⟩, ?_⟩
    simp [listen, hsocket]
  | ok xsk =>
    obtain ⟨⟨err, maps⟩, hregister⟩ := register_returns queueID xsk.fd a.putSocket a.putQueue
      (newMaps 64)
    cases err with
    | some e =>
      refine .inl ⟨.returned ("error: failed to register socket in BPF map: " ++ e.context)
        (some e.cause), ⟨_, _, rfl⟩, ?_⟩
      simp [listen, hsocket, hregister]
    | none =>
      have hunregister : unregistering queueID a maps = some maps := by
        simp [unregistering, unregister_run]
      refine .inr ?_
      rw [← hnew xsk rfl]
      cases hexit : loopExit (a.loop xsk.socket).point <;>
        simp [listen, hsocket, hregister, deferring, receiving, hexit, hunregister]

/-- The loop on a new socket ends with an error of `Poll`, or in a `GetFrame` that panics. -/
lemma loopExit_regular {exit : Exit} (run : LoopRun (XdpSocket.newSocket defaultSocketOptions))
    (h : loopExit run.point = some exit) :
    exit.Regular ∨ ∃ d, run.point = .outside d ∧ ¬ d.InUmem defaultSocketOptions := by
  have hinvariant := XdpSocket.reaches_invariant XdpSocket.defaultSocketOptions_fourRings
    (by decide) XdpSocket.newSocket_receiving run.reached
  cases hpoint : run.point with
  | returned err =>
    rw [hpoint] at h
    cases h
    exact .inl ⟨_, _, rfl⟩
  | outside d =>
    rw [hpoint] at hinvariant
    exact .inr ⟨d, rfl, hinvariant⟩
  | panicked =>
    rw [hpoint] at hinvariant
    exact hinvariant.elim
  | _ => simp [hpoint, loopExit] at h

/-- `main` ends when its loop does, and panics only in a `GetFrame` of a descriptor that leaves the
UMEM. However it ends, it has given back all that it took exactly if it found no interface or
created no program, or if it could close everything, left its interface as it was, and could not
create its socket. -/
theorem main_restored_iff (linkName : String) (queueID : ℤ) (c : Calls TcpsynObjects)
    (a : Receiver) (w : World Ledger)
    (lawful : LawfulLoader TcpsynObjects.objects c.loadAndAssign)
    (older : ∀ i p, w.links i = some p → p < w.objects.next) :
    ((loopExit (a.loop (XdpSocket.newSocket _)).point).isSome →
      (main linkName queueID c a w).isSome) ∧
    ∀ exit w', main linkName queueID c a w = some (exit, w') →
      (exit.Regular ∨ ∃ d, (a.loop (XdpSocket.newSocket _)).point = .outside d ∧
        ¬ d.InUmem defaultSocketOptions) ∧
      (Restored w w' ↔ GivenBack XdpProgram c linkName w
        (FailsCleanly defaultSocketOptions a.socket)) := by
  obtain ⟨ledger, hledger, hlisten⟩ := listen_restored queueID a w.own
  have hown : ∀ exit own, listen queueID a w.own = some (exit, own) →
      own = ledger ∧ (exit.Regular ∨ loopExit (a.loop (XdpSocket.newSocket _)).point = some exit) := by
    intro exit own hrun
    rcases hlisten with ⟨exit', hregular, hreturned⟩ | hloop
    · rw [hreturned] at hrun
      cases hrun
      exact ⟨rfl, .inl hregular⟩
    · rw [hloop] at hrun
      obtain ⟨exit', hexit, heq⟩ := Option.map_eq_some_iff.mp hrun
      cases heq
      exact ⟨rfl, .inr hexit⟩
  have hmain := onInterface_restored (P := XdpProgram) c linkName lawful older
    fun exit own hrun => (hown exit own hrun).1 ▸ hledger
  refine ⟨fun hloop => hmain.ends ?_, fun exit w' hrun => ⟨?_, hmain.restored hrun⟩⟩
  · rcases hlisten with ⟨exit, _, hreturned⟩ | hloop'
    · rw [hreturned]
      rfl
    · rwa [hloop', Option.isSome_map]
  · rcases hmain.exits hrun with hregular | ⟨own, hrun'⟩
    · exact .inl hregular
    · exact (hown exit own hrun').2.elim .inl fun hexit => loopExit_regular _ hexit

section FirstPoll

/-- The wait of the first `Poll` fails. -/
def firstPollFails (s₀ : XdpSocket.Socket defaultSocketOptions) : LoopRun s₀ :=
  match hrefill : (XdpSocket.refill _).run s₀ with
  | none => ⟨.top, s₀, .none, .start⟩
  | some ((), s) => match hpoll : (XdpSocket.poll _ [.EINVAL]).run s with
    | none => ⟨.poll, s, .none, .refill .start (.of_run hrefill) (.nil _)⟩
    | some (r, s') => ⟨XdpSocket.afterPoll (some r), s', .none,
        .poll [.EINVAL] (.refill .start (.of_run hrefill) (.nil _)) (.of_run hpoll) (.nil _)⟩

lemma firstPollFails_point :
    (firstPollFails (XdpSocket.newSocket _)).point = .returned .EINVAL := by
  have ho := XdpSocket.defaultSocketOptions_fourRings
  have hfit : defaultSocketOptions.FillRingNumDescs ≤ defaultSocketOptions.NumFrames := by decide
  have hdescs := XdpSocket.getDescs_eq hfit 64 true (XdpSocket.newSocket defaultSocketOptions)
  have hon := (XdpSocket.getDescs_spec ho.toAccepted hfit hdescs).2.1
  have hfill := XdpSocket.fill_run ho.toAccepted XdpSocket.newSocket_valid hon
  have hslots : (XdpSocket.numFreeFillSlots defaultSocketOptions).run (XdpSocket.newSocket _) =
      some (64, XdpSocket.newSocket _) :=
    XdpSocket.numFreeFillSlots_run ho.toAccepted XdpSocket.newSocket_valid
  have hrefill := XdpSocket.refill_run (by decide) hslots
    ((XdpSocket.fillFree_run hdescs).trans hfill)
  have hpoint := XdpSocket.Reaches.refill .start (.of_run hrefill) (.nil _)
  have hsupplied := XdpSocket.reaches_invariant ho hfit XdpSocket.newSocket_receiving hpoint
  generalize XdpSocket.Socket.filled _ _ = s at hpoint hsupplied hrefill
  have hfilled : s.numFilled = 64 := by
    rw [hsupplied.ledgers.rx.count, hsupplied.all.length_eq]
    decide
  have htransmitted : s.numTransmitted = 0 := by
    rw [hsupplied.ledgers.tx.count, hsupplied.idle]
    rfl
  have hevents : XdpSocket.pollEvents 64 0 ≠ 0 := by decide
  have hpoll : (XdpSocket.poll defaultSocketOptions [.EINVAL]).run s =
      some ((0, 0, some .EINVAL), s) := by
    simp [XdpSocket.poll, hfilled, htransmitted, hevents, XdpSocket.pollLoop]
  unfold firstPollFails
  split
  · rename_i hnone
    rw [hrefill] at hnone
    cases hnone
  · rename_i s' hrun
    rw [hrefill] at hrun
    cases hrun
    split
    · rename_i hnone
      rw [hpoll] at hnone
      cases hnone
    · rename_i hrun
      rw [hpoll] at hrun
      cases hrun
      rfl

def receiver (fails : Faults) : Receiver := ⟨3, fails, none, none, firstPollFails, none, none⟩

/-- What `LoadAndAssign` does with the object file of `dumpframes`. -/
def assignTcpsyn : Loader TcpsynObjects := fun k =>
  let (qidconfMap, k) := k.create
  let (xsksMap, k) := k.create
  let (xdpSockProg, k) := k.create
  (.ok ⟨xdpSockProg, qidconfMap, xsksMap⟩, k)

lemma assignTcpsyn_lawful : LawfulLoader TcpsynObjects.objects assignTcpsyn := by
  refine .of_created fun k => ⟨_, _, rfl, fun x => ?_, ?_, ?_⟩
  · simp [TcpsynObjects.objects]
    tauto
  · simp [TcpsynObjects.objects]
    omega
  · simp [TcpsynObjects.objects]
    omega

/-- The socket is left behind when all goes well, and nothing is when it cannot be created. -/
theorem main_restored_iff_lo : ∃ w w' exit exit',
    main "lo" 0 (smoothCalls assignTcpsyn) (receiver SocketResources.noFaults)
      (idleWorld ⟨3, 0⟩) = some (exit, w) ∧ ¬ Restored (idleWorld ⟨3, 0⟩) w ∧
    main "lo" 0 (smoothCalls assignTcpsyn) (receiver (SocketResources.failsAt .socket))
      (idleWorld ⟨3, 0⟩) = some (exit', w') ∧ Restored (idleWorld ⟨3, 0⟩) w' := by
  have hloop : ∀ fails,
      (loopExit ((receiver fails).loop (XdpSocket.newSocket _)).point).isSome := by
    intro fails
    rw [show ((receiver fails).loop (XdpSocket.newSocket _)).point = _ from firstPollFails_point]
    rfl
  have holder : ∀ i p, (idleWorld (⟨3, 0⟩ : Ledger)).links i = some p →
      p < (idleWorld (⟨3, 0⟩ : Ledger)).objects.next := by simp [idleWorld]
  obtain ⟨hends, hrestored⟩ := main_restored_iff "lo" 0 (smoothCalls assignTcpsyn)
    (receiver SocketResources.noFaults) _ assignTcpsyn_lawful holder
  obtain ⟨hends', hrestored'⟩ := main_restored_iff "lo" 0 (smoothCalls assignTcpsyn)
    (receiver (SocketResources.failsAt .socket)) _ assignTcpsyn_lawful holder
  obtain ⟨⟨exit, w⟩, hrun⟩ := Option.isSome_iff_exists.mp (hends (hloop _))
  obtain ⟨⟨exit', w'⟩, hrun'⟩ := Option.isSome_iff_exists.mp (hends' (hloop _))
  refine ⟨w, w', exit, exit', hrun, fun h => ?_, hrun', (hrestored' _ _ hrun').2.mpr ?_⟩
  · rcases (hrestored _ _ hrun).2.mp h with hnone | hload | hback
    · revert hnone
      decide
    · cases hload
    · have hundone := ((hback _ rfl).2.1 rfl ⟨rfl, rfl, rfl⟩).2
      simp [receiver, FailsCleanly, SocketResources.FailsIn, SocketResources.noFaults] at hundone
  · refine .inr (.inr fun assigned _ => ⟨fun _ _ => rfl, fun _ _ => ⟨⟨rfl, rfl⟩, .inl rfl⟩, ?_⟩)
    exact fun h => absurd rfl h

end FirstPoll

end Defrizer.MainFunctions
