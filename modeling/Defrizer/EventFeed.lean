import Defrizer.FilterSoundness

/-!
# The event feed

`perf_event_test` against `xdp_sock_prog`, and against the reader of its ring buffer. The two
programs trigger on the same frames. A full buffer turns the event program from an observer
into a filter: the frame whose record has no room is aborted.
-/
namespace Defrizer.FilterPrograms
open ByteFields HeaderCursor KernelMaps FrameGrammar

def newEvents : RingBuffer := ⟨256 * 1024, []⟩

def synFrame : List UInt8 :=
  [0, 0, 0, 0, 0, 0, 0, 0, 0, 0, 0, 0, 0x08, 0x00,
   0x45, 0, 0, 40, 0, 0, 0, 0, 64, 6, 0, 0, 10, 0, 0, 1, 10, 0, 0, 2,
   0, 80, 0x1E, 0x61, 0, 0, 0, 0, 0, 0, 0, 0, 0x50, 2, 0, 0, 0, 0, 0, 0]

lemma synFrame_carries : CarriesTcpTo 7777 synFrame := by
  refine ⟨synFrame.take 14, [], (synFrame.drop 14).take 20, synFrame.drop 34, [], _,
    ⟨⟨by decide, by decide, TagChain.nil _ _⟩, Or.inl ⟨rfl, ?_, by decide⟩⟩, ?_, by decide⟩
  · exact ⟨by decide, by decide⟩
  · exact ⟨by decide, by decide⟩

/-- On an active queue with a socket the event program appends a record exactly when
`xdp_sock_prog` redirects the frame, and passes it then; otherwise the actions agree and the
buffer stays as it is. -/
theorem programs_agree (e : ByteOrder) (qidconf : ArrayMap maxSocks) (xsks : XskMap maxSocks)
    (rb : RingBuffer) (frame : List UInt8) {index v : UInt32}
    (active : KernelMap.lookup qidconf index = some v) (nonzero : v ≠ 0)
    (socket : (KernelMap.lookup xsks index).isSome) (room : rb.HasRoom helloRecord) :
    ∃ exit o, xdpSockProg e (KernelMap.lookup qidconf) frame index = some exit ∧
      perfEventTest e rb frame = some o ∧
      (o.events = rb.append helloRecord ↔
        exit.verdict (KernelMap.lookup xsks) = XdpAction.redirect.code) ∧
      (exit.verdict (KernelMap.lookup xsks) = XdpAction.redirect.code → o.action = .pass) ∧
      (exit.verdict (KernelMap.lookup xsks) ≠ XdpAction.redirect.code →
        o.action.code = exit.verdict (KernelMap.lookup xsks) ∧ o.events = rb) := by
  have hne := (rb.append_ne helloRecord).symm
  rcases xdpSockProg_cases e frame active with ⟨hm, hx⟩ | ⟨_, hto, hx⟩ | ⟨hnm, hno, hx⟩
  · rcases perfEventTest_cases e rb frame with ⟨_, hp⟩ | ⟨hto, _⟩ | ⟨hnm, _⟩
    · refine ⟨_, _, hx, hp, ?_⟩
      simp [XdpExit.verdict, XdpAction.code, hne]
    · exact absurd hm hto.not_malformed
    · exact absurd hm hnm
  · rcases perfEventTest_cases e rb frame with ⟨hm, _⟩ | ⟨_, printk, hp⟩ | ⟨_, hno, _⟩
    · exact absurd hm hto.not_malformed
    · rw [if_pos room] at hp
      refine ⟨_, _, hx, hp, ?_⟩
      simp [XdpExit.verdict, bpfRedirectMap, socket, RingBuffer.append]
    · exact absurd hto hno
  · rcases perfEventTest_cases e rb frame with ⟨hm, _⟩ | ⟨hto, _⟩ | ⟨_, _, printk, hp⟩
    · exact absurd hm hnm
    · exact absurd ⟨nonzero, hto⟩ hno
    · refine ⟨_, _, hx, hp, ?_⟩
      simp [XdpExit.verdict, XdpAction.code, hne]

theorem programs_agree_syn : ∃ o, perfEventTest .little newEvents synFrame = some o ∧
    o.action = .pass ∧ o.events.records = [helloRecord] := by
  have hactive : KernelMap.lookup (⟨Vector.replicate 64 1⟩ : ArrayMap maxSocks) 0 = some 1 := by
    decide
  have hsocket : (KernelMap.lookup (⟨Vector.replicate 64 (some 3)⟩ : XskMap maxSocks) 0).isSome := by
    decide
  obtain ⟨exit, o, hexit, ho, hiff, hpass, _⟩ := programs_agree .little ⟨Vector.replicate 64 1⟩
    ⟨Vector.replicate 64 (some 3)⟩ newEvents synFrame hactive (by decide) hsocket (by decide)
  have hredirects := (xdpSockProg_redirects_iff .little synFrame hactive).mpr
    ⟨by decide, synFrame_carries⟩
  rw [hredirects] at hexit
  cases hexit
  have hverdict : (XdpExit.redirectMap 0 0).verdict
      (KernelMap.lookup (⟨Vector.replicate 64 (some 3)⟩ : XskMap maxSocks)) =
      XdpAction.redirect.code := by
    simp [XdpExit.verdict, bpfRedirectMap, hsocket]
  refine ⟨o, ho, hpass hverdict, ?_⟩
  rw [hiff.mpr hverdict]
  rfl

section Feed

/-- A frame arrives, or the reader of the events takes a step. -/
inductive FeedStep
  | frame (bytes : List UInt8)
  | read
  deriving DecidableEq

def FeedStep.frame? : FeedStep → Option (List UInt8)
  | .frame bytes => some bytes
  | .read => none

def frames (steps : List FeedStep) : List (List UInt8) := steps.filterMap FeedStep.frame?

def runFeed (e : ByteOrder) : RingBuffer → List FeedStep → Option (List XdpAction × RingBuffer)
  | rb, [] => some ([], rb)
  | rb, .read :: steps => runFeed e rb.read steps
  | rb, .frame bytes :: steps => do
    let o ← perfEventTest e rb bytes
    let (actions, rb') ← runFeed e o.events steps
    return (o.action :: actions, rb')

/-- Whenever a frame triggers, the buffer has room for its record. -/
def RoomThroughout (e : ByteOrder) : RingBuffer → List FeedStep → Prop
  | _, [] => True
  | rb, .read :: steps => RoomThroughout e rb.read steps
  | rb, .frame bytes :: steps =>
    (CarriesTcpTo 7777 bytes → rb.HasRoom helloRecord) ∧
      ∀ o, perfEventTest e rb bytes = some o → RoomThroughout e o.events steps

def PassesParsed (frames : List (List UInt8)) (actions : List XdpAction) : Prop :=
  List.Forall₂ (fun bytes a => ¬ Malformed bytes → a = .pass) frames actions

variable {e : ByteOrder}

/-- The action on a frame while there is room. -/
noncomputable def actionWithRoom (bytes : List UInt8) : XdpAction :=
  open Classical in if Malformed bytes then .aborted else .pass

lemma perfEventTest_action (e : ByteOrder) (rb : RingBuffer) (bytes : List UInt8) :
    ∃ o, perfEventTest e rb bytes = some o ∧
      ((CarriesTcpTo 7777 bytes → rb.HasRoom helloRecord) → o.action = actionWithRoom bytes) ∧
      ((¬ Malformed bytes → o.action = .pass) →
        CarriesTcpTo 7777 bytes → rb.HasRoom helloRecord) := by
  rcases perfEventTest_cases e rb bytes with ⟨hm, hp⟩ | ⟨hto, printk, hp⟩ | ⟨hnm, hno, printk, hp⟩
  · exact ⟨_, hp, fun _ => by simp [actionWithRoom, hm], fun _ hto => absurd hm hto.not_malformed⟩
  · have hnm := hto.not_malformed
    by_cases hroom : rb.HasRoom helloRecord
    · rw [if_pos hroom] at hp
      exact ⟨_, hp, fun _ => by simp [actionWithRoom, hnm], fun _ _ => hroom⟩
    · rw [if_neg hroom] at hp
      exact ⟨_, hp, fun h => absurd (h hto) hroom, fun h => by simp [hnm] at h⟩
  · exact ⟨_, hp, fun _ => by simp [actionWithRoom, hnm], fun _ hto => absurd hto hno⟩

/-- Every run has a result. With room throughout, the actions depend on the frames alone; and
if all frames that parse are passed, there was room throughout. -/
lemma runFeed_spec (rb : RingBuffer) (steps : List FeedStep) :
    ∃ actions rb', runFeed e rb steps = some (actions, rb') ∧
      (RoomThroughout e rb steps → actions = (frames steps).map actionWithRoom) ∧
      (PassesParsed (frames steps) actions → RoomThroughout e rb steps) := by
  induction steps generalizing rb with
  | nil => exact ⟨[], rb, rfl, fun _ => rfl, fun _ => trivial⟩
  | cons step steps ih =>
    cases step with
    | read => exact ih rb.read
    | frame bytes =>
      obtain ⟨o, ho, hroom, hpass⟩ := perfEventTest_action e rb bytes
      obtain ⟨actions, rb', hrun, hactions, hthrough⟩ := ih o.events
      refine ⟨o.action :: actions, rb', by simp [runFeed, ho, hrun], ?_, ?_⟩
      · intro h
        simp [frames, FeedStep.frame?, hroom h.1, hactions (h.2 o ho)]
      · intro h
        have hcons : PassesParsed (bytes :: frames steps) (o.action :: actions) := h
        obtain ⟨hfirst, hrest⟩ := List.forall₂_cons.mp hcons
        refine ⟨hpass hfirst, fun o' ho' => ?_⟩
        rw [ho] at ho'
        cases ho'
        exact hthrough hrest

lemma passesParsed_map (fs : List (List UInt8)) : PassesParsed fs (fs.map actionWithRoom) := by
  induction fs with
  | nil => exact .nil
  | cons f fs ih => exact .cons (fun h => by simp [actionWithRoom, h]) ih

/-- Two runs over the same frames, with the reads anywhere, agree on every action and pass all
frames that parse exactly when both have room whenever a frame triggers. -/
theorem observes_iff_room (e : ByteOrder) (rb : RingBuffer) {steps₁ steps₂ : List FeedStep}
    (same : frames steps₁ = frames steps₂) :
    ∃ actions₁ actions₂ rb₁ rb₂, runFeed e rb steps₁ = some (actions₁, rb₁) ∧
      runFeed e rb steps₂ = some (actions₂, rb₂) ∧
      ((actions₁ = actions₂ ∧ PassesParsed (frames steps₁) actions₁ ∧
          PassesParsed (frames steps₂) actions₂) ↔
        RoomThroughout e rb steps₁ ∧ RoomThroughout e rb steps₂) := by
  obtain ⟨actions₁, rb₁, hrun₁, hroom₁, hpass₁⟩ := runFeed_spec (e := e) rb steps₁
  obtain ⟨actions₂, rb₂, hrun₂, hroom₂, hpass₂⟩ := runFeed_spec (e := e) rb steps₂
  refine ⟨actions₁, actions₂, rb₁, rb₂, hrun₁, hrun₂, ?_⟩
  constructor
  · intro h
    exact ⟨hpass₁ h.2.1, hpass₂ h.2.2⟩
  · intro h
    rw [hroom₁ h.1, hroom₂ h.2, same]
    exact ⟨rfl, passesParsed_map _, passesParsed_map _⟩

theorem observes_iff_room_syn :
    (runFeed .little newEvents [.frame synFrame]).map Prod.fst =
      (runFeed .little newEvents [.read, .frame synFrame]).map Prod.fst := by
  obtain ⟨actions₁, actions₂, rb₁, rb₂, hrun₁, hrun₂, hiff⟩ :=
    observes_iff_room .little newEvents (show frames [.frame synFrame] =
      frames [.read, .frame synFrame] from rfl)
  have hroom : newEvents.HasRoom helloRecord := by decide
  have hsame := (hiff.mpr ⟨⟨fun _ => hroom, fun _ _ => trivial⟩,
    fun _ => hroom, fun _ _ => trivial⟩).1
  rw [hrun₁, hrun₂, hsame]
  rfl

def unread (k : ℕ) : RingBuffer := { newEvents with records := List.replicate k helloRecord }

lemma unread_hasRoom (k : ℕ) : (unread k).HasRoom helloRecord ↔ k < 16383 := by
  have hsize : recordSize helloRecord = 16 := by decide
  simp only [RingBuffer.HasRoom, RingBuffer.used, unread, newEvents, List.map_replicate,
    List.sum_replicate, hsize, smul_eq_mul]
  omega

lemma unread_append (k : ℕ) : (unread k).append helloRecord = unread (k + 1) := by
  simp [RingBuffer.append, unread, List.replicate_succ']

lemma unread_read (k : ℕ) : (unread (k + 1)).read = unread k := by
  simp [RingBuffer.read, unread, List.replicate_succ]

lemma perfEventTest_syn (e : ByteOrder) (k : ℕ) :
    ∃ o, perfEventTest e (unread k) synFrame = some o ∧
      o.action = (if k < 16383 then .pass else .aborted) ∧
      o.events = if k < 16383 then unread (k + 1) else unread k := by
  rcases perfEventTest_cases e (unread k) synFrame with ⟨hm, _⟩ | ⟨_, printk, hp⟩ | ⟨_, hno, _⟩
  · exact absurd hm synFrame_carries.not_malformed
  · by_cases hk : k < 16383
    · rw [if_pos ((unread_hasRoom k).mpr hk)] at hp
      exact ⟨_, hp, by simp [hk], by rw [if_pos hk, ← unread_append]⟩
    · rw [if_neg (mt (unread_hasRoom k).mp hk)] at hp
      exact ⟨_, hp, by simp [hk], by rw [if_neg hk]⟩
  · exact absurd synFrame_carries hno

lemma runFeed_append (e : ByteOrder) (rb : RingBuffer) (steps steps' : List FeedStep) :
    runFeed e rb (steps ++ steps') = (runFeed e rb steps).bind fun r =>
      (runFeed e r.2 steps').map fun r' => (r.1 ++ r'.1, r'.2) := by
  induction steps generalizing rb with
  | nil => simp [runFeed]
  | cons step steps ih =>
    cases step with
    | read => exact ih rb.read
    | frame bytes =>
      simp only [List.cons_append, runFeed, ih, Option.bind_eq_bind, Option.bind_assoc]
      congr 1
      funext o
      cases runFeed e o.events steps with
      | none => rfl
      | some r => cases h : runFeed e r.2 steps' <;> simp [h]

lemma runFeed_unread (e : ByteOrder) (n k : ℕ) (h : k + n ≤ 16383) :
    runFeed e (unread k) (List.replicate n (.frame synFrame)) =
      some (List.replicate n .pass, unread (k + n)) := by
  induction n generalizing k with
  | zero => rfl
  | succ n ih =>
    obtain ⟨o, ho, haction, hevents⟩ := perfEventTest_syn e k
    have hk : k < 16383 := by omega
    rw [if_pos hk] at haction hevents
    have hrest := ih (k + 1) (by omega)
    rw [Nat.add_right_comm] at hrest
    simp [List.replicate_succ, runFeed, ho, haction, hevents, hrest, ← Nat.add_assoc]

lemma runFeed_syn (e : ByteOrder) (k : ℕ) : (runFeed e (unread k) [.frame synFrame]).map Prod.fst =
    some [if k < 16383 then .pass else .aborted] := by
  obtain ⟨o, ho, haction, _⟩ := perfEventTest_syn e k
  simp [runFeed, ho, haction]

/-- 16384 SYN frames on a new buffer: the last is aborted when no event is read, and passed
when one is read before it. -/
theorem full_buffer_aborts : ¬ ∀ (e : ByteOrder) (steps₁ steps₂ : List FeedStep),
    frames steps₁ = frames steps₂ →
      (runFeed e newEvents steps₁).map Prod.fst = (runFeed e newEvents steps₂).map Prod.fst := by
  intro hclaim
  obtain ⟨n, hn⟩ : ∃ n, n = 16382 := ⟨_, rfl⟩
  have hfull := runFeed_unread .little (n + 1) 0 (by omega)
  have hsame := hclaim .little
    (List.replicate (n + 1) (FeedStep.frame synFrame) ++ [FeedStep.frame synFrame])
    (List.replicate (n + 1) (FeedStep.frame synFrame) ++ [FeedStep.read, FeedStep.frame synFrame])
    (by simp [frames, List.filterMap_cons, FeedStep.frame?])
  have hnew : newEvents = unread 0 := rfl
  have hunread := runFeed_syn .little (n + 1)
  have hread := runFeed_syn .little n
  rw [if_neg (by omega), Option.map_eq_some_iff] at hunread
  rw [if_pos (by omega), Option.map_eq_some_iff] at hread
  obtain ⟨⟨actions₁, rb₁⟩, hrun₁, rfl⟩ := hunread
  obtain ⟨⟨actions₂, rb₂⟩, hrun₂, rfl⟩ := hread
  have hrun₂' : runFeed .little (unread (n + 1)) [.read, .frame synFrame] =
      some ([.pass], rb₂) := by
    rw [runFeed, unread_read]
    exact hrun₂
  rw [hnew, runFeed_append, runFeed_append, hfull] at hsame
  simp [hrun₁, hrun₂'] at hsame

end Feed

end Defrizer.FilterPrograms
