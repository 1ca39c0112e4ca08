import Defrizer.CursorSafety

/-!
# The two builds

Both programs are compiled for either byte order. The builds hold an EtherType as different
numbers and compare it with differently swapped constants; a port they bring to host order
first. So the big-endian build is simulated by the other one, and only the sequence number that
`perf_event_test` prints, which it never swaps, differs.
-/
namespace Defrizer.FilterPrograms
open ByteFields HeaderCursor KernelMaps

variable (e : ByteOrder) (frame : List UInt8)

lemma bpfNtohs_bpfHtons (w : UInt16) : bpfNtohs e (bpfHtons e w) = w := netOrder16_involutive e w

lemma bpfHtons_inj (w c : UInt16) : bpfHtons e w = bpfHtons e c ↔ w = c :=
  (netOrder16_involutive e).injective.eq_iff

lemma load16_build (p : ℕ) : load16 e frame p = (load16 .big frame p).map (bpfHtons e) :=
  load16_eq_map e frame p

lemma protoIsVlan_build (w : UInt16) : protoIsVlan e (bpfHtons e w) = protoIsVlan .big w := by
  rw [Bool.eq_iff_iff, protoIsVlan_iff, protoIsVlan_iff, bpfNtohs_bpfHtons]
  rfl

lemma collectVlan_build (vlh i : ℕ) (vlans : Option CollectVlans) :
    collectVlan e frame vlh i vlans = collectVlan .big frame vlh i vlans := by
  cases vlans with
  | none => rfl
  | some vlans =>
    rw [collectVlan, collectVlan, load16_build]
    cases load16 .big frame vlh with
    | none => rfl
    | some tci =>
      simp only [Option.map_some, Option.bind_eq_bind, Option.bind_some, bpfNtohs_bpfHtons]
      rfl

/-- The loop goes the same way in both builds, with the EtherTypes swapped. -/
lemma vlanLoop_build (n vlh : ℕ) (w : UInt16) (vlans : Option CollectVlans) :
    vlanLoop e frame n vlh (bpfHtons e w) vlans =
      (vlanLoop .big frame n vlh w vlans).map fun r => (r.1, bpfHtons e r.2.1, r.2.2) := by
  induction n generalizing vlh w vlans with
  | zero => rfl
  | succ n ih =>
    rw [vlanLoop, vlanLoop, protoIsVlan_build, load16_build, collectVlan_build]
    split_ifs
    · rfl
    · rfl
    · cases load16 .big frame (vlh + 2) with
      | none => rfl
      | some encapsulated =>
        cases collectVlan .big frame vlh (vlanMaxDepth - (n + 1)) vlans with
        | none => rfl
        | some vlans' => exact ih (vlh + sizeofVlanHdr) encapsulated vlans'

/-- What the Ethernet parser leaves behind in the big-endian build and in the other. -/
inductive SameEthhdr (e : ByteOrder) : Parsed → Parsed → Prop
  | failed (nh : HdrCursor) (hdr : Option ℕ) : SameEthhdr e ⟨-1, nh, hdr⟩ ⟨-1, nh, hdr⟩
  | etherType (w : UInt16) (nh : HdrCursor) (hdr : Option ℕ) :
      SameEthhdr e ⟨w.toNat, nh, hdr⟩ ⟨(bpfHtons e w).toNat, nh, hdr⟩

lemma parseEthhdrVlan_build (nh : HdrCursor) (hdr : Option ℕ) (vlans : Option CollectVlans) :
    ∃ r r' vlans', parseEthhdrVlan .big frame nh hdr vlans = some (r, vlans') ∧
      parseEthhdrVlan e frame nh hdr vlans = some (r', vlans') ∧ SameEthhdr e r r' := by
  obtain ⟨r, vlans', hbig, _⟩ := parseEthhdrVlan_leaves .big frame nh hdr vlans
  simp only [parseEthhdrVlan] at hbig ⊢
  by_cases hshort : nh.pos + sizeofEthhdr > frame.length
  · simp only [if_pos hshort]
    exact ⟨_, _, _, rfl, rfl, .failed nh hdr⟩
  · simp only [if_neg hshort] at hbig ⊢
    obtain ⟨w, hload, hloop⟩ := Option.bind_eq_some_iff.mp hbig
    obtain ⟨⟨pos, w', vlans''⟩, hloop, heq⟩ := Option.bind_eq_some_iff.mp hloop
    have hother := vlanLoop_build e frame vlanMaxDepth (nh.pos + sizeofEthhdr) w vlans
    rw [hloop, Option.map_some] at hother
    rw [load16_build e, hload]
    simp only [Option.map_some, Option.bind_eq_bind, Option.bind_some, hloop, hother]
    exact ⟨_, _, _, rfl, rfl, .etherType w' ⟨pos⟩ (some nh.pos)⟩

/-- The builds agree on where the parsers leave the program. -/
lemma parseHeaders_build : parseHeaders e frame = parseHeaders .big frame := by
  obtain ⟨r, r', vlans', hbig, hother, hsame⟩ := parseEthhdrVlan_build e frame ⟨0⟩ (some 0) none
  have hbig' : parseEthhdr .big frame ⟨0⟩ (some 0) = some r := by
    rw [parseEthhdr, hbig, Option.map_some]
  have hother' : parseEthhdr e frame ⟨0⟩ (some 0) = some r' := by
    rw [parseEthhdr, hother, Option.map_some]
  rw [parseHeaders, parseHeaders, hbig', hother']
  cases hsame with
  | failed nh hdr => rfl
  | etherType w nh hdr =>
    have hnonneg : ∀ x : UInt16, ¬ (x.toNat : ℤ) < 0 := fun x => by omega
    have hetherType : ∀ c : UInt16, ((bpfHtons e w).toNat : ℤ) = (bpfHtons e c).toNat ↔
        (w.toNat : ℤ) = (bpfHtons .big c).toNat := by
      intro c
      rw [Nat.cast_inj, Nat.cast_inj, UInt16.toNat_inj, UInt16.toNat_inj, bpfHtons_inj]
      rfl
    simp only [Option.bind_eq_bind, Option.bind_some, if_neg (hnonneg _), hetherType]

lemma tcpDest_build (tcphdr : Option ℕ) : tcpDest e frame tcphdr = tcpDest .big frame tcphdr := by
  cases tcphdr with
  | none => rfl
  | some h =>
    simp only [tcpDest, Option.bind_eq_bind, Option.bind_some, load16_build e]
    cases load16 .big frame (h + 2) with
    | none => rfl
    | some dest => simp only [Option.map_some, Option.bind_some, bpfNtohs_bpfHtons]; rfl

theorem xdpSockProg_build (q : UInt32 → Option UInt32) (index : UInt32) :
    xdpSockProg e q frame index = xdpSockProg .big q frame index := by
  simp only [xdpSockProg, parseHeaders_build e, tcpDest_build e]

/-- The builds differ in nothing but the byte order of the printed sequence number. -/
theorem perfEventTest_build (rb : RingBuffer) :
    perfEventTest e rb frame = (perfEventTest .big rb frame).map fun o =>
      { o with printk := o.printk.map fun (source, dest, seq) =>
        (source, dest, netOrder32 e seq) } := by
  simp only [perfEventTest, parseHeaders_build e, tcpDest_build e]
  cases parseHeaders .big frame with
  | none => rfl
  | some result =>
    cases result with
    | out action => rfl
    | tcp tcphdr =>
      cases tcphdr with
      | none => rfl
      | some h =>
        simp only [Option.bind_eq_bind, Option.bind_some, load16_build e, load32_eq_map e]
        cases load16 .big frame h with
        | none => rfl
        | some source =>
          cases tcpDest .big frame (some h) with
          | none => rfl
          | some dest =>
            cases load32 .big frame (h + 4) with
            | none => rfl
            | some seq =>
              simp only [Option.map_some, Option.bind_some, bpfNtohs_bpfHtons]
              split_ifs <;> rfl

/-- For every frame, queue index and content of the maps both builds of `xdp_sock_prog` end in
the same way, and both builds of `perf_event_test` with the same action and the same event. -/
theorem builds_agree (q : UInt32 → Option UInt32) (rb : RingBuffer) (index : UInt32) :
    (∃ exit, xdpSockProg .little q frame index = some exit ∧
      xdpSockProg .big q frame index = some exit) ∧
    ∃ o o', perfEventTest .little rb frame = some o ∧ perfEventTest .big rb frame = some o' ∧
      o.action = o'.action ∧ o.ret = o'.ret ∧ o.events = o'.events := by
  obtain ⟨exit, hexit⟩ := Option.isSome_iff_exists.mp (xdpSockProg_reads (e := .big) q index)
  obtain ⟨o, ho⟩ := Option.isSome_iff_exists.mp (perfEventTest_reads (e := .big) rb)
  have hxdp := xdpSockProg_build .little frame q index
  have hperf := perfEventTest_build .little frame rb
  rw [ho, Option.map_some] at hperf
  exact ⟨⟨exit, hxdp.trans hexit, hexit⟩, _, o, hperf, ho, rfl, rfl, rfl⟩

end Defrizer.FilterPrograms
