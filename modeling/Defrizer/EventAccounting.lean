import Defrizer.BoundedBacklog
import Defrizer.ShippedBuilds

/-!
# What becomes of the events

The records of `perf_event_test` from the ring buffer to the `main` that prints them: none is
lost or printed twice, and which frames are refused for want of room can be told from the order
of frames and reads.
-/
namespace Defrizer.FilterPrograms
open ByteFields HeaderCursor KernelMaps FrameGrammar BoundedBacklog

/-- What `main` prints; a `Read` waits while there is no event. -/
def samples (e : ByteOrder) : RingBuffer → List FeedStep → Option (List (List UInt8))
  | _, [] => some []
  | rb, .read :: steps => do
    let printed ← samples e rb.read steps
    return rb.records.head?.toList ++ printed
  | rb, .frame bytes :: steps => do
    let o ← perfEventTest e rb bytes
    samples e o.events steps

/-- An event is reported with a frame to the port that is passed. -/
noncomputable def reports (bytes : List UInt8) (a : XdpAction) : ℕ :=
  open Classical in if CarriesTcpTo 7777 bytes ∧ a = .pass then 1 else 0

noncomputable def reported (frames : List (List UInt8)) (actions : List XdpAction) : ℕ :=
  (List.zipWith reports frames actions).sum

@[simp] lemma frames_read (steps : List FeedStep) : frames (.read :: steps) = frames steps := rfl

@[simp] lemma frames_frame (bytes : List UInt8) (steps : List FeedStep) :
    frames (.frame bytes :: steps) = bytes :: frames steps := rfl

/-- With `k` unread events a frame to the port adds one and passes, or is aborted if there is no
room. Other frames leave the events alone. -/
lemma perfEventTest_unread (e : ByteOrder) (k : ℕ) (bytes : List UInt8) :
    ∃ o, perfEventTest e (unread k) bytes = some o ∧
      (CarriesTcpTo 7777 bytes ∧ k < 16383 ∧ o.action = .pass ∧ o.events = unread (k + 1) ∨
        CarriesTcpTo 7777 bytes ∧ 16383 ≤ k ∧ o.action = .aborted ∧ o.events = unread k ∨
        ¬ CarriesTcpTo 7777 bytes ∧ o.events = unread k) := by
  rcases perfEventTest_cases e (unread k) bytes with ⟨hm, hp⟩ | ⟨hto, printk, hp⟩ | ⟨_, hno, printk, hp⟩
  · exact ⟨_, hp, .inr (.inr ⟨fun hto => hto.not_malformed hm, rfl⟩)⟩
  · by_cases hk : k < 16383
    · rw [if_pos ((unread_hasRoom k).mpr hk)] at hp
      exact ⟨_, hp, .inl ⟨hto, hk, rfl, unread_append k⟩⟩
    · rw [if_neg (mt (unread_hasRoom k).mp hk)] at hp
      exact ⟨_, hp, .inr (.inl ⟨hto, not_lt.mp hk, rfl, rfl⟩)⟩
  · exact ⟨_, hp, .inr (.inr ⟨hno, rfl⟩)⟩

lemma accounted_from (e : ByteOrder) {k : ℕ} (hk : k ≤ 16383) (steps : List FeedStep) :
    ∃ actions printed n, runFeed e (unread k) steps = some (actions, unread n) ∧
      samples e (unread k) steps = some printed ∧ n ≤ 16383 ∧
      printed ++ (unread n).records =
        List.replicate (k + reported (frames steps) actions) helloRecord := by
  induction steps generalizing k with
  | nil => exact ⟨[], [], k, rfl, rfl, hk, rfl⟩
  | cons step steps ih =>
    cases step with
    | read =>
      cases k with
      | zero =>
        obtain ⟨actions, printed, n, hrun, hprinted, hn, haccount⟩ := ih hk
        refine ⟨actions, printed, n, hrun, ?_, hn, haccount⟩
        have hsamples : samples e (unread 0).read steps = some printed := hprinted
        have hhead : (unread 0).records.head? = none := rfl
        simp [samples, hsamples, hhead]
      | succ k =>
        obtain ⟨actions, printed, n, hrun, hprinted, hn, haccount⟩ := ih (Nat.le_of_succ_le hk)
        refine ⟨actions, helloRecord :: printed, n, ?_, ?_, hn, ?_⟩
        · rw [runFeed, unread_read, hrun]
        · have hhead : (unread (k + 1)).records.head? = some helloRecord := rfl
          simp [samples, unread_read, hprinted, hhead]
        · rw [List.cons_append, haccount, frames_read, Nat.add_right_comm, List.replicate_succ]
    | frame bytes =>
      obtain ⟨o, ho, hcases⟩ := perfEventTest_unread e k bytes
      have hnext : ∃ k', k' ≤ 16383 ∧ o.events = unread k' ∧
          k' = k + reports bytes o.action := by
        rcases hcases with ⟨hto, hlt, haction, hevents⟩ | ⟨_, _, haction, hevents⟩ | ⟨hno, hevents⟩
        · exact ⟨k + 1, hlt, hevents, by simp [reports, hto, haction]⟩
        · exact ⟨k, hk, hevents, by simp [reports, haction]⟩
        · exact ⟨k, hk, hevents, by simp [reports, hno]⟩
      obtain ⟨k', hk', hevents, hcount⟩ := hnext
      obtain ⟨actions, printed, n, hrun, hprinted, hn, haccount⟩ := ih hk'
      refine ⟨o.action :: actions, printed, n, ?_, ?_, hn, ?_⟩
      · simp [runFeed, ho, hevents, hrun]
      · simp [samples, ho, hevents, hprinted]
      · rw [haccount, hcount, frames_frame, reported, reported, List.zipWith_cons_cons,
          List.sum_cons, Nat.add_assoc]

/-- In every feed the events printed and the events still unread are together one for each frame
to the port that was passed, and at most 16383 are unread. -/
theorem feed_accounted (e : ByteOrder) (steps : List FeedStep) :
    ∃ actions printed n, runFeed e newEvents steps = some (actions, unread n) ∧
      samples e newEvents steps = some printed ∧ n ≤ 16383 ∧
      printed ++ (unread n).records =
        List.replicate (reported (frames steps) actions) helloRecord := by
  obtain ⟨actions, printed, n, hrun, hprinted, hn, haccount⟩ :=
    accounted_from e (Nat.zero_le 16383) steps
  rw [Nat.zero_add] at haccount
  exact ⟨actions, printed, n, hrun, hprinted, hn, haccount⟩

/-- The buffer as a store, with the frames to the port for arrivals and the reads for services. -/
noncomputable def turn : FeedStep → Turn
  | .read => .service
  | .frame bytes => open Classical in if CarriesTcpTo 7777 bytes then .arrival else .neither

noncomputable def triggers (steps : List FeedStep) : ℕ :=
  open Classical in (frames steps).countP fun bytes => CarriesTcpTo 7777 bytes

lemma roomThroughout_iff_fits (e : ByteOrder) (k : ℕ) (steps : List FeedStep) :
    RoomThroughout e (unread k) steps ↔ Fits turn 16383 k steps := by
  induction steps generalizing k with
  | nil => exact Iff.rfl
  | cons step steps ih =>
    cases step with
    | read =>
      have hread : (unread k).read = unread (k - 1) := by
        cases k with
        | zero => rfl
        | succ k => exact unread_read k
      rw [RoomThroughout, hread, ih, Fits, turn]
    | frame bytes =>
      obtain ⟨o, ho, hcases⟩ := perfEventTest_unread e k bytes
      have hrest : (∀ o', perfEventTest e (unread k) bytes = some o' →
          RoomThroughout e o'.events steps) ↔ RoomThroughout e o.events steps := by
        simp [ho]
      rw [RoomThroughout, hrest, unread_hasRoom, Fits, turn]
      rcases hcases with ⟨hto, hlt, _, hevents⟩ | ⟨hto, hge, _, _⟩ | ⟨hno, hevents⟩
      · simp [hto, hlt, hevents, ih]
      · simp [hto, not_lt.mpr hge]
      · simp [hno, hevents, ih]

lemma arrivals_turn (steps : List FeedStep) : arrivals turn steps = triggers steps := by
  induction steps with
  | nil => rfl
  | cons step steps ih =>
    cases step with
    | read => simpa [arrivals, triggers, turn] using ih
    | frame bytes =>
      by_cases hto : CarriesTcpTo 7777 bytes
      · simpa [arrivals, triggers, turn, hto] using ih
      · simpa [arrivals, triggers, turn, hto] using ih

lemma services_turn (steps : List FeedStep) : services turn steps = ShippedObject.reads steps := by
  rw [services, ShippedObject.reads, List.count]
  congr 1
  funext step
  cases step with
  | read => rfl
  | frame bytes =>
    by_cases hto : CarriesTcpTo 7777 bytes <;> simp [turn, hto]

/-- No frame is refused for want of room exactly if no stretch of the feed has more than 16383
frames to the port beyond its reads. -/
theorem feed_loses_nothing_iff (e : ByteOrder) (steps : List FeedStep) :
    ∃ actions events, runFeed e newEvents steps = some (actions, events) ∧
      (PassesParsed (frames steps) actions ↔
        ∀ stretch, stretch <:+: steps → triggers stretch ≤ ShippedObject.reads stretch + 16383) := by
  obtain ⟨actions, events, hrun, hroom, hpasses⟩ := runFeed_spec (e := e) newEvents steps
  refine ⟨actions, events, hrun, ?_⟩
  have hfits : RoomThroughout e newEvents steps ↔ WindowsWithin turn 16383 steps :=
    (roomThroughout_iff_fits e 0 steps).trans fits_zero_iff
  simp only [← arrivals_turn, ← services_turn]
  constructor
  · exact fun h => hfits.mp (hpasses h)
  · intro h
    rw [hroom (hfits.mpr h)]
    exact passesParsed_map _

end Defrizer.FilterPrograms
