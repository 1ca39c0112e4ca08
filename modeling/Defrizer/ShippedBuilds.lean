import Defrizer.ShippedObject
import Defrizer.EventFeed

/-!
# What the shipped objects do to a feed

The little-endian object against the program as written, and the big-endian one on the frames
that occur. The first differs in nothing but the content of its records. The second takes the
version of an IPv4 header for its length, so it reports nothing.
-/
namespace Defrizer.ShippedObject
open ByteFields FrameGrammar HeaderCursor KernelMaps FilterPrograms PacketDecision

/-- `runFeed`, with the object in place of the source. -/
def runObjectFeed (e : ByteOrder) : RingBuffer → List FeedStep → Option (List UInt64 × RingBuffer)
  | rb, [] => some ([], rb)
  | rb, .read :: steps => runObjectFeed e rb.read steps
  | rb, .frame bytes :: steps => do
    let (ret, rb') ← runObject e rb bytes
    let (rets, rb'') ← runObjectFeed e rb' steps
    return (ret :: rets, rb'')

section LittleEndian

/-- A record of the source, and the one that the object leaves in its place. -/
def Replaces (source object : List UInt8) : Prop :=
  object = source ∨ source = helloRecord ∧ object = shortRecord

/-- The buffers of the two programs. -/
structure Tracks (source object : RingBuffer) : Prop where
  maxEntries : object.maxEntries = source.maxEntries
  records : List.Forall₂ Replaces source.records object.records

lemma Replaces.recordSize_eq {source object : List UInt8} (h : Replaces source object) :
    recordSize object = recordSize source := by
  rcases h with rfl | ⟨rfl, rfl⟩
  · rfl
  · decide

lemma map_recordSize {rs rs' : List (List UInt8)} (h : List.Forall₂ Replaces rs rs') :
    rs'.map recordSize = rs.map recordSize := by
  induction h with
  | nil => rfl
  | cons hfirst _ ih => rw [List.map_cons, List.map_cons, hfirst.recordSize_eq, ih]

variable {rb rb' : RingBuffer}

/-- The shorter record is rounded up to the same size, so the object has room when the source
has. -/
lemma Tracks.hasRoom (h : Tracks rb rb') : rb'.HasRoom shortRecord ↔ rb.HasRoom helloRecord := by
  have hsame : recordSize shortRecord = recordSize helloRecord := by decide
  rw [RingBuffer.HasRoom, RingBuffer.HasRoom, RingBuffer.used, RingBuffer.used,
    map_recordSize h.records, hsame, h.maxEntries]

lemma Tracks.append (h : Tracks rb rb') :
    Tracks (rb.append helloRecord) (rb'.append shortRecord) where
  maxEntries := h.maxEntries
  records := List.rel_append h.records (.cons (Or.inr ⟨rfl, rfl⟩) .nil)

lemma Tracks.read (h : Tracks rb rb') : Tracks rb.read rb'.read where
  maxEntries := h.maxEntries
  records := by
    rw [RingBuffer.read, RingBuffer.read, ← List.drop_one, ← List.drop_one]
    exact List.forall₂_drop 1 h.records

lemma tracks_outcome (h : Tracks rb rb') (d : Decision) :
    (returned rb' d).1 = (d.outcome helloRecord rb).1.code.toUInt64 ∧
      Tracks (d.outcome helloRecord rb).2 (returned rb' d).2 := by
  cases d with
  | aborted => exact ⟨rfl, h⟩
  | passed => exact ⟨rfl, h⟩
  | reported =>
    by_cases hroom : rb.HasRoom helloRecord
    · have hroom' := h.hasRoom.mpr hroom
      refine ⟨?_, ?_⟩
      · simp only [returned, Decision.outcome, if_pos hroom, if_pos hroom']
      · simp only [returned, Decision.outcome, if_pos hroom, if_pos hroom']
        exact h.append
    · have hroom' := mt h.hasRoom.mp hroom
      refine ⟨?_, ?_⟩
      · simp only [returned, Decision.outcome, if_neg hroom, if_neg hroom']
      · simp only [returned, Decision.outcome, if_neg hroom, if_neg hroom']
        exact h

lemma tracks_feed (e : ByteOrder) (h : Tracks rb rb') (steps : List FeedStep) :
    ∃ actions events events', runFeed e rb steps = some (actions, events) ∧
      runObjectFeed .little rb' steps =
        some (actions.map fun a => a.code.toUInt64, events') ∧
      Tracks events events' := by
  induction steps generalizing rb rb' with
  | nil => exact ⟨[], rb, rb', rfl, rfl, h⟩
  | cons step steps ih =>
    cases step with
    | read => exact ih h.read
    | frame bytes =>
      obtain ⟨o, ho, hdecided⟩ := perfEventTest_decides e rb bytes
      have hobject : runObject .little rb' bytes =
          some (returned rb' (decideFrame networkLayout bytes)) :=
        runObject_of_exits exits_object
      obtain ⟨hret, htracks⟩ := tracks_outcome h (decideFrame networkLayout bytes)
      rw [← hdecided] at hret htracks
      generalize returned rb' (decideFrame networkLayout bytes) = left at hobject hret htracks
      obtain ⟨ret, rb₁⟩ := left
      obtain ⟨actions, events, events', hfeed, hfeed', hend⟩ := ih htracks
      refine ⟨o.action :: actions, events, events', ?_, ?_, hend⟩
      · simp only [runFeed, ho, hfeed, Option.bind_eq_bind, Option.bind_some, Option.pure_def]
      · simp only [runObjectFeed, hobject, hfeed', Option.bind_eq_bind, Option.bind_some,
          Option.pure_def, List.map_cons, ← hret]

/-- In every feed, whenever the events are read, the little-endian object returns on each frame
what the source returns, and a record of its own stands wherever the source leaves one. -/
theorem little_object_agrees (e : ByteOrder) (rb : RingBuffer) (steps : List FeedStep) :
    ∃ actions events events', runFeed e rb steps = some (actions, events) ∧
      runObjectFeed .little rb steps =
        some (actions.map fun a => a.code.toUInt64, events') ∧
      Tracks events events' :=
  tracks_feed e ⟨rfl, List.forall₂_same.mpr fun _ _ => Or.inl rfl⟩ steps

end LittleEndian

section BigEndian

variable {frame eth tags payload : List UInt8} {p : ℕ}

lemma skipTags_of_link (h : LinkLayer frame eth tags payload p) (hp : ¬ AnnouncesTag p) :
    skipTags frame 2 14 (wordAt frame 12) = ((eth ++ tags).length, p) := by
  have hlen : 14 ≤ frame.length := by
    rw [h.split, List.length_append, h.ethSize]
    omega
  obtain ⟨w, hw, hparse⟩ := parseEthhdr_of_link .big (some 0) h hp
  obtain ⟨w', hparse', hw'⟩ := parseEthhdr_eq .big hlen
  rw [hparse] at hparse'
  simp only [Option.some.injEq, Parsed.mk.injEq, Nat.cast_inj, UInt16.toNat_inj,
    HdrCursor.mk.injEq, and_true] at hparse'
  obtain ⟨rfl, hpos⟩ := hparse'
  exact Prod.ext hpos.symm (hw'.symm.trans hw)

lemma skipTags_link (h : 14 ≤ frame.length) : ∃ eth tags payload,
    LinkLayer frame eth tags payload (skipTags frame 2 14 (wordAt frame 12)).2 ∧
      (skipTags frame 2 14 (wordAt frame 12)).1 = (eth ++ tags).length := by
  obtain ⟨eth, tags, payload, w, hlink, hparse⟩ := parseEthhdr_total .big (some 0) h
  obtain ⟨w', hparse', hw'⟩ := parseEthhdr_eq .big h
  rw [hparse] at hparse'
  simp only [Option.some.injEq, Parsed.mk.injEq, Nat.cast_inj, UInt16.toNat_inj,
    HdrCursor.mk.injEq, and_true] at hparse'
  obtain ⟨rfl, hpos⟩ := hparse'
  exact ⟨eth, tags, payload, hw' ▸ hlink, hpos.symm⟩

/-- What frames look like: IPv4 headers are of version 4, and the four bits behind the TCP data
offset, of which one has a use, are a small number. -/
structure Ordinary (frame : List UInt8) : Prop where
  versionFour : ∀ eth tags payload, LinkLayer frame eth tags payload etherTypeIpv4 →
    payload ≠ [] → version payload = 4
  reserved : ∀ eth tags ip segment, CarriesTcp frame eth tags ip segment etherTypeIpv6 →
    byteAt segment 12 % 16 < 5

def CarriesTcp6 (frame : List UInt8) : Prop :=
  ∃ eth tags ip segment, CarriesTcp frame eth tags ip segment etherTypeIpv6

lemma frame_byteAt (h : LinkLayer frame eth tags payload p) (i : ℕ) :
    byteAt frame ((eth ++ tags).length + i) = byteAt payload i := by
  rw [h.split, ← List.append_assoc, byteAt_append_right]

/-- The length of a TCP header is looked for in the reserved bits, and found too short. -/
lemma decideFrame_tcp6 {ip segment : List UInt8}
    (h : CarriesTcp frame eth tags ip segment etherTypeIpv6)
    (hreserved : byteAt segment 12 % 16 < 5) : decideFrame (layout .big) frame = .aborted := by
  obtain ⟨hip, hproto⟩ : Ipv6Header ip ∧ nextHeader ip = protocolTcp := by
    rcases h.net with ⟨hp, _⟩ | ⟨_, hip, hproto⟩
    · exact absurd hp (by decide)
    · exact ⟨hip, hproto⟩
  have hip : ip.length = 40 := hip
  have hne : etherTypeIpv6 ≠ etherTypeIpv4 := by decide
  have hlen : frame.length = (eth ++ tags).length + 40 + segment.length := by
    rw [h.frame_eq]
    simp only [List.length_append, hip]
  have hfirst : byteAt frame ((eth ++ tags).length + 6) = protocolTcp := by
    rw [frame_byteAt h.link, byteAt_append_left segment (by omega)]
    exact hproto
  have hoffset : byteAt frame ((eth ++ tags).length + 40 + 12) = byteAt segment 12 := by
    rw [Nat.add_assoc, frame_byteAt h.link, ← hip, byteAt_append_right]
  have hshort : ¬ frame.length < 14 := not_lt.mpr h.length_le
  rw [decideFrame, if_neg hshort, skipTags_of_link h.link (etherType_ip_not_tag h.net.etherType)]
  simp only [decideNetwork, if_neg hne, if_true]
  rw [if_neg (by omega), if_pos hfirst, decideTransport, hoffset]
  have hsize : 4 * (layout .big).doff (byteAt segment 12) < 20 := by
    change 4 * (byteAt segment 12 % 16) < 20
    omega
  simp only [hsize, true_or, or_true, if_true]

/-- The length of an IPv4 header is looked for in its version, and found too short. -/
lemma decideFrame_other (hlen : 14 ≤ frame.length) (ordinary : Ordinary frame)
    (hno : ¬ CarriesTcp6 frame) : decideFrame (layout .big) frame = .passed := by
  obtain ⟨eth, tags, payload, hlink, hpos⟩ := skipTags_link hlen
  have hsize : frame.length = (eth ++ tags).length + payload.length := by
    conv_lhs => rw [hlink.split, ← List.append_assoc, List.length_append]
  rw [decideFrame, if_neg (not_lt.mpr hlen)]
  generalize skipTags frame 2 14 (wordAt frame 12) = link at hlink hpos ⊢
  obtain ⟨i, p⟩ := link
  have hpos : i = (eth ++ tags).length := hpos
  have hlink : LinkLayer frame eth tags payload p := hlink
  subst hpos
  simp only [decideNetwork]
  by_cases h₄ : p = etherTypeIpv4
  · subst h₄
    rw [if_pos rfl]
    by_cases hshort : frame.length < (eth ++ tags).length + 20
    · rw [if_pos (Or.inl hshort)]
    · have hversion : byteAt payload 0 / 16 = 4 := ordinary.versionFour eth tags payload hlink (by
        rintro rfl
        rw [List.length_nil] at hsize
        omega)
      have hfirst : byteAt frame (eth ++ tags).length = byteAt payload 0 :=
        frame_byteAt hlink 0
      have hihl : 4 * (layout .big).ihl (byteAt frame (eth ++ tags).length) < 20 := by
        rw [hfirst]
        change 4 * (byteAt payload 0 / 16) < 20
        omega
      rw [if_pos (Or.inr (Or.inl hihl))]
  rw [if_neg h₄]
  by_cases h₆ : p = etherTypeIpv6
  · subst h₆
    rw [if_pos rfl]
    by_cases hshort : frame.length < (eth ++ tags).length + 40
    · rw [if_pos hshort]
    · have hproto : byteAt frame ((eth ++ tags).length + 6) ≠ protocolTcp := by
        intro hproto
        refine hno ⟨eth, tags, payload.take 40, payload.drop 40, ?_, Or.inr ⟨rfl, ?_, ?_⟩⟩
        · rw [List.take_append_drop]
          exact hlink
        · rw [Ipv6Header, List.length_take]
          omega
        · rw [frame_byteAt hlink, ← List.take_append_drop 40 payload,
            byteAt_append_left _ (by rw [List.length_take]; omega)] at hproto
          exact hproto
      rw [if_neg hshort, if_neg hproto]
  · rw [if_neg h₆]

/-- What the big-endian object returns on an ordinary frame. -/
noncomputable def bigAction (bytes : List UInt8) : XdpAction :=
  open Classical in if bytes.length < 14 ∨ CarriesTcp6 bytes then .aborted else .pass

lemma runObject_big (rb : RingBuffer) (ordinary : Ordinary frame) :
    runObject .big rb frame = some ((bigAction frame).code.toUInt64, rb) := by
  rw [runObject_of_exits exits_object, bigAction]
  by_cases hshort : frame.length < 14
  · rw [decideFrame, if_pos hshort, if_pos (Or.inl hshort)]
    rfl
  by_cases htcp : CarriesTcp6 frame
  · rw [if_pos (Or.inr htcp)]
    obtain ⟨eth, tags, ip, segment, h⟩ := htcp
    rw [decideFrame_tcp6 h (ordinary.reserved eth tags ip segment h)]
    rfl
  · rw [if_neg (fun h => h.elim hshort htcp),
      decideFrame_other (not_lt.mp hshort) ordinary htcp]
    rfl

def reads (steps : List FeedStep) : ℕ := steps.count .read

/-- In every feed of ordinary frames the big-endian object reports none. It aborts all TCP over
IPv6, to whatever port, and the events that are read are those that were there before. -/
theorem big_object_reports_nothing (rb : RingBuffer) {steps : List FeedStep}
    (ordinary : ∀ bytes ∈ frames steps, Ordinary bytes) :
    runObjectFeed .big rb steps = some ((frames steps).map fun bytes =>
      (bigAction bytes).code.toUInt64, { rb with records := rb.records.drop (reads steps) }) := by
  induction steps generalizing rb with
  | nil => rfl
  | cons step steps ih =>
    cases step with
    | read =>
      rw [runObjectFeed, ih rb.read ordinary]
      simp only [RingBuffer.read, frames, List.filterMap_cons, FeedStep.frame?, reads,
        List.count_cons_self, List.drop_tail]
    | frame bytes =>
      have hcons : frames (.frame bytes :: steps) = bytes :: frames steps := rfl
      rw [hcons] at ordinary ⊢
      have hreads : reads (.frame bytes :: steps) = reads steps :=
        List.count_cons_of_ne (fun h => by cases h)
      have hfirst := runObject_big rb (ordinary bytes (List.mem_cons_self ..))
      have hrest := ih rb fun b hb => ordinary b (List.mem_cons_of_mem _ hb)
      rw [runObjectFeed, hfirst, hreads]
      simp only [hrest, Option.bind_eq_bind, Option.bind_some, Option.pure_def, List.map_cons]

lemma synFrame_link : LinkLayer synFrame (synFrame.take 14) [] (synFrame.drop 14) etherTypeIpv4 :=
  ⟨by decide, by decide, TagChain.nil _ _⟩

lemma synFrame_not_tcp6 : ¬ CarriesTcp6 synFrame := by
  rintro ⟨eth, tags, ip, segment, h⟩
  obtain ⟨_, _, _, hp⟩ := synFrame_link.unique h.link (by decide) (by decide)
  exact absurd hp (by decide)

lemma synFrame_ordinary : Ordinary synFrame where
  versionFour eth tags payload h _ := by
    obtain ⟨_, _, rfl, _⟩ := synFrame_link.unique h (by decide) (by decide)
    decide
  reserved eth tags ip segment h := absurd ⟨eth, tags, ip, segment, h⟩ synFrame_not_tcp6

theorem big_object_reports_nothing_syn :
    runObjectFeed .big newEvents [.frame synFrame] = some ([2], newEvents) := by
  have hordinary : ∀ bytes ∈ frames [.frame synFrame], Ordinary bytes :=
    fun bytes h => List.mem_singleton.mp h ▸ synFrame_ordinary
  have hfeed := big_object_reports_nothing newEvents hordinary
  have haction : bigAction synFrame = .pass :=
    if_neg fun h => h.elim (by decide) synFrame_not_tcp6
  rw [hfeed]
  simp only [frames, FeedStep.frame?, List.filterMap_cons, List.filterMap_nil, List.map_cons,
    List.map_nil, haction]
  rfl

end BigEndian

end Defrizer.ShippedObject
