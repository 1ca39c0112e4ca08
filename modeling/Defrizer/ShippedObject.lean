import Defrizer.PacketDecision
import Defrizer.PacketMachine

/-!
# The shipped object files

`tcpsyn_bpfel.o` and `tcpsyn_bpfeb.o` are what the Go program embeds and loads: the compiled
`perf_event_test` for either byte order. They are older than `tcp_syn_kern.c`. Their programs
are followed block by block here, from the bytes of the section `xdp_event`.
-/
namespace Defrizer.ShippedObject
open ByteFields FrameGrammar HeaderCursor KernelMaps FilterPrograms PacketMachine PacketDecision

/-- The section `xdp_event`, slot by slot, the first byte of a slot first. The second half of
slot 84 and slot 85 wait for the address of the map `events`. -/
def text (e : ByteOrder) : List ℕ :=
  e.pick
    [0xb700000000000000, 0x6112040000000000, 0x6114000000000000, 0xbf41000000000000,
     0x070100000e000000, 0x2d212d0000000000, 0x71430d0000000000, 0x6703000008000000,
     0x71450c0000000000, 0x4f53000000000000, 0x1503010088a80000, 0x5503130081000000,
     0xbf45000000000000, 0x0705000012000000, 0x2d25100000000000, 0x7141100000000000,
     0x7143110000000000, 0x6703000008000000, 0x4f13000000000000, 0x1503020088a80000,
     0xbf51000000000000, 0x5503090081000000, 0xbf40000000000000, 0x0700000016000000,
     0xbf51000000000000, 0x2d20050000000000, 0x7141140000000000, 0x7143150000000000,
     0x6703000008000000, 0x4f13000000000000, 0xbf01000000000000, 0x57030000ffff0000,
     0x1503130086dd0000, 0xb700000002000000, 0x5503100008000000, 0xbf13000000000000,
     0x0703000014000000, 0xb700000002000000, 0x2d230c0000000000, 0x7114000000000000,
     0x6704000002000000, 0x570400003c000000, 0xb703000014000000, 0xb700000002000000,
     0x2d43060000000000, 0xbf13000000000000, 0x0f43000000000000, 0xb704000009000000,
     0xb700000002000000, 0x2d23010000000000, 0x0500060000000000, 0x9500000000000000,
     0xb704000006000000, 0xbf13000000000000, 0x0703000028000000, 0xb700000002000000,
     0x2d23faff00000000, 0x0f41000000000000, 0x7111000000000000, 0xb700000002000000,
     0x5501f6ff06000000, 0xbf31000000000000, 0x0701000014000000, 0xb700000000000000,
     0x2d21f2ff00000000, 0x69310c0000000000, 0x7701000002000000, 0x570100003c000000,
     0xb704000014000000, 0xb700000000000000, 0x2d14ecff00000000, 0xbf34000000000000,
     0x0f14000000000000, 0xb700000000000000, 0x2d24e8ff00000000, 0x6931020000000000,
     0xb700000002000000, 0x5501e5ff1e610000, 0xb701000002000000, 0x731afcff00000000,
     0xb701000001010102, 0x631af8ff00000000, 0xbfa2000000000000, 0x07020000f8ffffff,
     0x1801000000000000, 0x0000000000000000, 0xb703000005000000, 0xb704000000000000,
     0x8500000082000000, 0xbf01000000000000, 0x6701000020000000, 0x7701000020000000,
     0xb700000001000000, 0x1501010000000000, 0xb700000000000000, 0x6700000001000000,
     0x0500d2ff00000000]
    [0xb700000000000000, 0x6121000400000000, 0x6141000000000000, 0xbf14000000000000,
     0x071000000000000e, 0x2d12002d00000000, 0x7134000c00000000, 0x6730000000000008,
     0x7154000d00000000, 0x4f35000000000000, 0x15300001000088a8, 0x5530001300008100,
     0xbf54000000000000, 0x0750000000000012, 0x2d52001000000000, 0x7114001100000000,
     0x7134001000000000, 0x6730000000000008, 0x4f31000000000000, 0x15300002000088a8,
     0xbf15000000000000, 0x5530000900008100, 0xbf04000000000000, 0x0700000000000016,
     0xbf15000000000000, 0x2d02000500000000, 0x7114001500000000, 0x7134001400000000,
     0x6730000000000008, 0x4f31000000000000, 0xbf10000000000000, 0x573000000000ffff,
     0x15300013000086dd, 0xb700000000000002, 0x5530001000000800, 0xbf31000000000000,
     0x0730000000000014, 0xb700000000000002, 0x2d32000c00000000, 0x7141000000000000,
     0x7740000000000002, 0x574000000000003c, 0xb730000000000014, 0xb700000000000002,
     0x2d34000600000000, 0xbf31000000000000, 0x0f34000000000000, 0xb740000000000009,
     0xb700000000000002, 0x2d32000100000000, 0x0500000600000000, 0x9500000000000000,
     0xb740000000000006, 0xbf31000000000000, 0x0730000000000028, 0xb700000000000002,
     0x2d32fffa00000000, 0x0f14000000000000, 0x7111000000000000, 0xb700000000000002,
     0x5510fff600000006, 0xbf13000000000000, 0x0710000000000014, 0xb700000000000000,
     0x2d12fff200000000, 0x6913000c00000000, 0x7710000000000006, 0x571000000000003c,
     0xb740000000000014, 0xb700000000000000, 0x2d41ffec00000000, 0xbf43000000000000,
     0x0f41000000000000, 0xb700000000000000, 0x2d42ffe800000000, 0x6913000200000000,
     0xb700000000000002, 0x5510ffe500001e61, 0xb710000000000002, 0x73a1fffc00000000,
     0xb710000001010102, 0x63a1fff800000000, 0xbf2a000000000000, 0x07200000fffffff8,
     0x1810000000000000, 0x0000000000000000, 0xb730000000000005, 0xb740000000000000,
     0x8500000000000082, 0xbf10000000000000, 0x6710000000000020, 0x7710000000000020,
     0xb700000000000001, 0x1510000100000000, 0xb700000000000000, 0x6700000000000001,
     0x0500ffd200000000]

/-- What the section decodes to. The compiler of the big-endian object shifted `ihl` and `doff`
the other way. -/
def code (e : ByteOrder) : List (Option Insn) :=
  [some (.alu .mov 0 (.imm 0)),
   some (.load .word 2 1 4),
   some (.load .word 4 1 0),
   some (.alu .mov 1 (.reg 4)),
   some (.alu .add 1 (.imm 14)),
   some (.branch .gt 1 (.reg 2) 45),
   some (.load .byte 3 4 (e.pick 13 12 : ℕ)),
   some (.alu .lsh 3 (.imm 8)),
   some (.load .byte 5 4 (e.pick 12 13 : ℕ)),
   some (.alu .or 3 (.reg 5)),
   some (.branch .eq 3 (.imm (e.pick 43144 34984)) 1),
   some (.branch .ne 3 (.imm (e.pick 129 33024)) 19),
   some (.alu .mov 5 (.reg 4)),
   some (.alu .add 5 (.imm 18)),
   some (.branch .gt 5 (.reg 2) 16),
   some (.load .byte 1 4 (e.pick 16 17 : ℕ)),
   some (.load .byte 3 4 (e.pick 17 16 : ℕ)),
   some (.alu .lsh 3 (.imm 8)),
   some (.alu .or 3 (.reg 1)),
   some (.branch .eq 3 (.imm (e.pick 43144 34984)) 2),
   some (.alu .mov 1 (.reg 5)),
   some (.branch .ne 3 (.imm (e.pick 129 33024)) 9),
   some (.alu .mov 0 (.reg 4)),
   some (.alu .add 0 (.imm 22)),
   some (.alu .mov 1 (.reg 5)),
   some (.branch .gt 0 (.reg 2) 5),
   some (.load .byte 1 4 (e.pick 20 21 : ℕ)),
   some (.load .byte 3 4 (e.pick 21 20 : ℕ)),
   some (.alu .lsh 3 (.imm 8)),
   some (.alu .or 3 (.reg 1)),
   some (.alu .mov 1 (.reg 0)),
   some (.alu .and 3 (.imm 65535)),
   some (.branch .eq 3 (.imm (e.pick 56710 34525)) 19),
   some (.alu .mov 0 (.imm 2)),
   some (.branch .ne 3 (.imm (e.pick 8 2048)) 16),
   some (.alu .mov 3 (.reg 1)),
   some (.alu .add 3 (.imm 20)),
   some (.alu .mov 0 (.imm 2)),
   some (.branch .gt 3 (.reg 2) 12),
   some (.load .byte 4 1 0),
   some (.alu (e.pick .lsh .rsh) 4 (.imm 2)),
   some (.alu .and 4 (.imm 60)),
   some (.alu .mov 3 (.imm 20)),
   some (.alu .mov 0 (.imm 2)),
   some (.branch .gt 3 (.reg 4) 6),
   some (.alu .mov 3 (.reg 1)),
   some (.alu .add 3 (.reg 4)),
   some (.alu .mov 4 (.imm 9)),
   some (.alu .mov 0 (.imm 2)),
   some (.branch .gt 3 (.reg 2) 1),
   some (.jump 6),
   some .exit,
   some (.alu .mov 4 (.imm 6)),
   some (.alu .mov 3 (.reg 1)),
   some (.alu .add 3 (.imm 40)),
   some (.alu .mov 0 (.imm 2)),
   some (.branch .gt 3 (.reg 2) (-6)),
   some (.alu .add 1 (.reg 4)),
   some (.load .byte 1 1 0),
   some (.alu .mov 0 (.imm 2)),
   some (.branch .ne 1 (.imm 6) (-10)),
   some (.alu .mov 1 (.reg 3)),
   some (.alu .add 1 (.imm 20)),
   some (.alu .mov 0 (.imm 0)),
   some (.branch .gt 1 (.reg 2) (-14)),
   some (.load .half 1 3 12),
   some (.alu .rsh 1 (.imm (e.pick 2 6))),
   some (.alu .and 1 (.imm 60)),
   some (.alu .mov 4 (.imm 20)),
   some (.alu .mov 0 (.imm 0)),
   some (.branch .gt 4 (.reg 1) (-20)),
   some (.alu .mov 4 (.reg 3)),
   some (.alu .add 4 (.reg 1)),
   some (.alu .mov 0 (.imm 0)),
   some (.branch .gt 4 (.reg 2) (-24)),
   some (.load .half 1 3 2),
   some (.alu .mov 0 (.imm 2)),
   some (.branch .ne 1 (.imm (e.pick 24862 7777)) (-27)),
   some (.alu .mov 1 (.imm 2)),
   some (.store .byte 10 (-4) 1),
   some (.alu .mov 1 (.imm (e.pick 33620225 16843010))),
   some (.store .word 10 (-8) 1),
   some (.alu .mov 2 (.reg 10)),
   some (.alu .add 2 (.imm (-8))),
   some (.loadMap 1),
   none,
   some (.alu .mov 3 (.imm 5)),
   some (.alu .mov 4 (.imm 0)),
   some (.call 130),
   some (.alu .mov 1 (.reg 0)),
   some (.alu .lsh 1 (.imm 32)),
   some (.alu .rsh 1 (.imm 32)),
   some (.alu .mov 0 (.imm 1)),
   some (.branch .eq 1 (.imm 0) 1),
   some (.alu .mov 0 (.imm 0)),
   some (.alu .lsh 0 (.imm 1)),
   some (.jump (-46))]

theorem text_decodes (e : ByteOrder) : decodeSlots e false (text e) = some (code e) := by
  cases e <;> decide +kernel

/-- The layout of a build: the big-endian one has the lengths in the other halves of the bytes. -/
def layout (e : ByteOrder) : Layout := e.pick networkLayout ⟨(· / 16), (· % 16)⟩

/-- What the objects report, instead of the `helloRecord` of the source. -/
def shortRecord : List UInt8 := [1, 1, 1, 2, 2]

/-- The helper 130, `bpf_ringbuf_output`, on the map `events`. -/
def ringbufOutput (helper : ℤ) (regs : Regs) (stack : Stack) (rb : RingBuffer) :
    Option (UInt64 × RingBuffer) :=
  match helper, regs.r1, regs.r2, regs.r3, regs.r4 with
  | 130, some .map, some (.stack o), some (.scalar size), some (.scalar flags) =>
    if flags = 0 then do
      let data ← stack.read o size.toNat
      let (ret, rb) := bpfRingbufOutput rb data
      return (UInt64.ofInt ret, rb)
    else none
  | _, _, _, _, _ => none

def environment (e : ByteOrder) (frame : List UInt8) : Environment RingBuffer where
  order := e
  packet := frame
  helper := ringbufOutput

/-- A run of the object on a frame: what it returns, and the events afterwards. -/
def runObject (e : ByteOrder) (rb : RingBuffer) (frame : List UInt8) :
    Option (UInt64 × RingBuffer) := do
  run (environment e frame) (← decodeSlots e false (text e)) 97 (Machine.initial rb)

/-- What a program returns for a decision. -/
def returned (rb : RingBuffer) (d : Decision) : UInt64 × RingBuffer :=
  ((d.outcome shortRecord rb).1.code.toUInt64, (d.outcome shortRecord rb).2)

section Blocks

variable (e : ByteOrder) (frame : List UInt8)

def Decides (n : ℕ) (m : Machine RingBuffer) (d : Decision) : Prop :=
  Exits (environment e frame) (code e) n m (returned m.world d)

abbrev entry (pc : ℕ) (r0 r1 r2 r3 r4 r5 : Option Value) (stack : Stack) (rb : RingBuffer) :
    Machine RingBuffer :=
  ⟨pc, ⟨r0, r1, r2, r3, r4, r5, some (.stack 0)⟩, stack, rb⟩

variable {e frame} {r0 r1 r2 r3 r4 r5 : Option Value} {stack : Stack} {rb : RingBuffer}

lemma environment_helper {regs : Regs} {ret : ℤ} {rb' : RingBuffer} (hmap : regs.r1 = some .map)
    (hdata : regs.r2 = some (.stack (-8))) (hsize : regs.r3 = some (.scalar 5))
    (hflags : regs.r4 = some (.scalar 0)) (hread : stack.read (-8) 5 = some shortRecord)
    (houtput : bpfRingbufOutput rb shortRecord = (ret, rb')) :
    (environment e frame).helper 130 regs stack rb = some (UInt64.ofInt ret, rb') := by
  have hfive : (5 : UInt64).toNat = 5 := by decide
  simp only [environment, ringbufOutput, hmap, hdata, hsize, hflags, if_true, hfive, hread,
    houtput, Option.bind_eq_bind, Option.bind_some, Option.pure_def]

/-- The record is put together on the stack, from the last byte down. -/
lemma decides_report : Decides e frame 19 (entry 78 r0 r1 r2 r3 r4 r5 stack rb) .reported := by
  refine exits_advance 9 rfl ?_
  by_cases hroom : rb.HasRoom shortRecord
  · simp only [returned, Decision.outcome, if_pos hroom]
    refine exits_call rfl
      (environment_helper rfl rfl rfl rfl (by cases e <;> rfl) (if_pos hroom)) ?_
    refine exits_advance 4 rfl ?_
    refine exits_branch rfl rfl (fun _ => ?_) (fun h => (h (by decide)).elim)
    refine exits_advance 2 rfl ?_
    exact exits_exit rfl rfl
  · simp only [returned, Decision.outcome, if_neg hroom]
    refine exits_call rfl
      (environment_helper rfl rfl rfl rfl (by cases e <;> rfl) (if_neg hroom)) ?_
    refine exits_advance 4 rfl ?_
    refine exits_branch rfl rfl (fun h => absurd h (by decide)) (fun _ => ?_)
    refine exits_advance 3 rfl ?_
    exact exits_exit rfl rfl

lemma decides_abort {n : ℕ} :
    Decides e frame (n + 1) (entry 51 (some (.scalar 0)) r1 r2 r3 r4 r5 stack rb) .aborted :=
  exits_exit rfl rfl

lemma decides_pass {n : ℕ} :
    Decides e frame (n + 1) (entry 51 (some (.scalar 2)) r1 r2 r3 r4 r5 stack rb) .passed :=
  exits_exit rfl rfl

lemma and_sixty (x : ℕ) : x &&& 60 = 4 * (x / 4 % 16) := by
  have hsmall : ∀ y < 64, y &&& 60 = 4 * (y / 4 % 16) := by decide
  have hlow : x &&& 60 = (x % 64) &&& 60 := by
    rw [← Nat.and_two_pow_sub_one_eq_mod x 6, Nat.and_assoc]
    rfl
  rw [hlow, hsmall _ (Nat.mod_lt _ (by decide))]
  omega

lemma byteAt_lt (bytes : List UInt8) (i : ℕ) : byteAt bytes i < 256 :=
  (bytes[i]?.getD 0).toNat_lt

/-- A 16-bit load leaves the value of the two bytes in the order of the machine. -/
lemma load16_toNat {i : ℕ} {w : UInt16} (h : load16 e frame i = some w) :
    w.toNat = e.pick (byteAt frame i + 256 * byteAt frame (i + 1))
      (256 * byteAt frame i + byteAt frame (i + 1)) := by
  obtain ⟨a, ha, hrest⟩ := Option.bind_eq_some_iff.mp h
  obtain ⟨b, hb, hw⟩ := Option.bind_eq_some_iff.mp hrest
  have hbyte {j : ℕ} {c : UInt8} (hc : load8 frame j = some c) : byteAt frame j = c.toNat := by
    rw [load8] at hc
    rw [byteAt, hc, Option.getD_some]
  have hal := a.toNat_lt
  have hbl := b.toNat_lt
  rw [hbyte ha, hbyte hb]
  cases e with
  | little =>
    cases hw
    rw [UInt16.toNat_ofNat', ByteOrder.pick]
    omega
  | big =>
    cases hw
    rw [UInt16.toNat_ofNat', ByteOrder.pick]
    omega

/-- The length of the TCP header, as the objects take it out of two bytes. -/
lemma doff_toNat {i : ℕ} {w : UInt16} (h : load16 e frame i = some w) :
    ((w.toUInt64 >>> UInt64.ofInt (e.pick 2 6)) &&& UInt64.ofInt 60).toNat =
      4 * (layout e).doff (byteAt frame i) := by
  have hval := load16_toNat h
  have hfirst := byteAt_lt frame i
  have hsecond := byteAt_lt frame (i + 1)
  have hmask : (UInt64.ofInt 60).toNat = 60 := by decide
  rw [UInt64.toNat_and, hmask, and_sixty, UInt64.toNat_shiftRight, UInt16.toNat_toUInt64, hval]
  cases e with
  | little =>
    have hshift : (UInt64.ofInt (ByteOrder.little.pick 2 6)).toNat % 64 = 2 := by decide
    rw [hshift, Nat.shiftRight_eq_div_pow]
    simp only [ByteOrder.pick, layout, networkLayout]
    omega
  | big =>
    have hshift : (UInt64.ofInt (ByteOrder.big.pick 2 6)).toNat % 64 = 6 := by decide
    rw [hshift, Nat.shiftRight_eq_div_pow]
    simp only [ByteOrder.pick, layout]
    omega

lemma ihl_toNat {i : ℕ} {b : UInt8} (h : load8 frame i = some b) :
    ((e.pick (b.toUInt64 <<< UInt64.ofInt 2) (b.toUInt64 >>> UInt64.ofInt 2)) &&&
      UInt64.ofInt 60).toNat = 4 * (layout e).ihl (byteAt frame i) := by
  have hbyte := b.toNat_lt
  have hval : byteAt frame i = b.toNat := by
    rw [load8] at h
    rw [byteAt, h, Option.getD_some]
  have hmask : (UInt64.ofInt 60).toNat = 60 := by decide
  have hshift : (UInt64.ofInt 2).toNat % 64 = 2 := by decide
  rw [UInt64.toNat_and, hmask, and_sixty, hval]
  cases e with
  | little =>
    simp only [ByteOrder.pick, layout, networkLayout]
    rw [UInt64.toNat_shiftLeft, hshift, Nat.shiftLeft_eq, UInt8.toNat_toUInt64]
    omega
  | big =>
    simp only [ByteOrder.pick, layout]
    rw [UInt64.toNat_shiftRight, hshift, Nat.shiftRight_eq_div_pow, UInt8.toNat_toUInt64]
    omega

lemma port_iff {i : ℕ} {w : UInt16} (h : load16 e frame i = some w) :
    w.toUInt64 = UInt64.ofInt (e.pick 24862 7777) ↔ wordAt frame i = 7777 := by
  have hval := load16_toNat h
  have hfirst := byteAt_lt frame i
  have hsecond := byteAt_lt frame (i + 1)
  rw [← UInt64.toNat_inj, UInt16.toNat_toUInt64, hval, wordAt]
  cases e with
  | little =>
    have hport : (UInt64.ofInt (ByteOrder.little.pick 24862 7777)).toNat = 24862 := by decide
    rw [hport, ByteOrder.pick]
    omega
  | big =>
    have hport : (UInt64.ofInt (ByteOrder.big.pick 24862 7777)).toNat = 7777 := by decide
    rw [hport, ByteOrder.pick]
lemma decides_transport (i : ℕ) : Decides e frame 36
    (entry 61 r0 r1 (some .packetEnd) (some (.packet i)) r4 r5 stack rb)
    (decideTransport (layout e) frame i) := by
  rw [decideTransport]
  refine exits_advance 3 rfl ?_
  refine exits_branch rfl rfl (fun h => ?_) (fun hlen => ?_)
  · have h : frame.length < i + 20 := h
    simp only [h, true_or, if_true]
    exact decides_abort
  have hlen : ¬ frame.length < i + 20 := hlen
  obtain ⟨w, hw, _⟩ := load16_eq_some e frame (p := i + 12) (by omega)
  refine exits_loadHalf rfl rfl hw rfl ?_
  have hsize := doff_toNat hw
  generalize hx : (w.toUInt64 >>> UInt64.ofInt (e.pick 2 6)) &&& UInt64.ofInt 60 = x at hsize
  generalize 4 * (layout e).doff (byteAt frame (i + 12)) = size at hsize ⊢
  subst hsize
  refine exits_advance 4 (show _ = some (entry 70 (some (.scalar 0)) (some (.scalar x))
    (some .packetEnd) (some (.packet i)) (some (.scalar 20)) r5 stack rb) by subst hx; rfl) ?_
  refine exits_branch rfl rfl (fun h => ?_) (fun hmin => ?_)
  · have h : x < 20 := h
    have h : x.toNat < 20 := UInt64.lt_iff_toNat_lt.mp h
    simp only [h, true_or, or_true, if_true]
    exact decides_abort
  have hmin : ¬ x < 20 := hmin
  have hmin : ¬ x.toNat < 20 := fun h => hmin (UInt64.lt_iff_toNat_lt.mpr h)
  have hsmall : x.toNat < 2 ^ 16 := by
    rw [← hx, UInt64.toNat_and]
    exact Nat.lt_of_le_of_lt Nat.and_le_right (by decide)
  refine exits_advance 1 rfl ?_
  refine exits_addPacket rfl rfl rfl hsmall rfl ?_
  refine exits_advance 1 rfl ?_
  refine exits_branch rfl rfl (fun h => ?_) (fun hfit => ?_)
  · have h : frame.length < i + x.toNat := h
    simp only [h, or_true, if_true]
    exact decides_abort
  have hfit : ¬ frame.length < i + x.toNat := hfit
  simp only [hlen, hmin, hfit, or_self, if_false]
  obtain ⟨port, hport, _⟩ := load16_eq_some e frame (p := i + 2) (by omega)
  refine exits_loadHalf rfl rfl hport rfl ?_
  refine exits_advance 1 rfl ?_
  refine exits_branch rfl rfl (fun h => ?_) (fun h => ?_)
  · rw [if_neg (mt (port_iff hport).mpr h)]
    exact decides_pass
  · rw [if_pos ((port_iff hport).mp (not_not.mp h))]
    exact decides_report

lemma protocol_ne_iff {i : ℕ} {b : UInt8} (h : load8 frame i = some b) :
    b.toUInt64 ≠ UInt64.ofInt 6 ↔ byteAt frame i ≠ protocolTcp := by
  have hsix : (UInt64.ofInt 6).toNat = 6 := by decide
  rw [load8] at h
  rw [not_iff_not, ← UInt64.toNat_inj, UInt8.toNat_toUInt64, hsix, byteAt, h, Option.getD_some,
    protocolTcp]

/-- The protocol of the network header at `i` is `k` bytes into it, the next header at `j`. -/
lemma decides_protocol (i j k : ℕ) {x : UInt64} (hk : x.toNat = k) (hsmall : k < 40)
    (hfit : i + k < frame.length) :
    Decides e frame 40
      (entry 57 r0 (some (.packet i)) (some .packetEnd) (some (.packet j)) (some (.scalar x)) r5
        stack rb)
      (if byteAt frame (i + k) = protocolTcp then decideTransport (layout e) frame j
        else .passed) := by
  obtain ⟨b, hb, _⟩ := load8_eq_some hfit
  subst hk
  refine exits_addPacket rfl rfl rfl (by omega) rfl ?_
  refine exits_loadByte rfl rfl hb rfl ?_
  refine exits_advance 1 rfl ?_
  refine exits_branch rfl rfl (fun h => ?_) (fun h => ?_)
  · rw [if_neg ((protocol_ne_iff hb).mp h)]
    exact decides_pass
  · rw [if_pos (not_not.mp (mt (protocol_ne_iff hb).mpr h))]
    exact decides_transport j

lemma decides_ipv6 (i : ℕ) : Decides e frame 45
    (entry 52 r0 (some (.packet i)) (some .packetEnd) r3 r4 r5 stack rb)
    (decideNetwork (layout e) frame i etherTypeIpv6) := by
  have hne : etherTypeIpv6 ≠ etherTypeIpv4 := by decide
  rw [decideNetwork, if_neg hne, if_pos rfl]
  refine exits_advance 4 rfl ?_
  refine exits_branch rfl rfl (fun h => ?_) (fun hlen => ?_)
  · have h : frame.length < i + 40 := h
    rw [if_pos h]
    exact decides_pass
  · have hlen : ¬ frame.length < i + 40 := hlen
    rw [if_neg hlen]
    exact decides_protocol i (i + 40) 6 (by decide) (by decide) (by omega)

lemma decides_ipv4 (i : ℕ) : Decides e frame 56
    (entry 35 r0 (some (.packet i)) (some .packetEnd) r3 r4 r5 stack rb)
    (decideNetwork (layout e) frame i etherTypeIpv4) := by
  simp only [decideNetwork, if_true]
  refine exits_advance 3 rfl ?_
  refine exits_branch rfl rfl (fun h => ?_) (fun hlen => ?_)
  · have h : frame.length < i + 20 := h
    rw [if_pos (Or.inl h)]
    exact decides_pass
  have hlen : ¬ frame.length < i + 20 := hlen
  have hfirst : i < frame.length := by omega
  obtain ⟨b, hb, _⟩ := load8_eq_some hfirst
  refine exits_loadByte rfl rfl hb rfl ?_
  have hsize := ihl_toNat (e := e) hb
  generalize hx : (e.pick (b.toUInt64 <<< UInt64.ofInt 2) (b.toUInt64 >>> UInt64.ofInt 2)) &&&
    UInt64.ofInt 60 = x at hsize
  generalize 4 * (layout e).ihl (byteAt frame i) = size at hsize ⊢
  subst hsize
  have hsmall : x.toNat < 2 ^ 16 := by
    rw [← hx, UInt64.toNat_and]
    exact Nat.lt_of_le_of_lt Nat.and_le_right (by decide)
  refine exits_advance 4 (show _ = some (entry 44 (some (.scalar 2)) (some (.packet i))
    (some .packetEnd) (some (.scalar 20)) (some (.scalar x)) r5 stack rb) by
      subst hx; cases e <;> rfl) ?_
  refine exits_branch rfl rfl (fun h => ?_) (fun hmin => ?_)
  · have h : x < 20 := h
    have h : x.toNat < 20 := UInt64.lt_iff_toNat_lt.mp h
    rw [if_pos (Or.inr (Or.inl h))]
    exact decides_pass
  have hmin : ¬ x < 20 := hmin
  have hmin : ¬ x.toNat < 20 := fun h => hmin (UInt64.lt_iff_toNat_lt.mpr h)
  refine exits_advance 1 rfl ?_
  refine exits_addPacket rfl rfl rfl hsmall rfl ?_
  refine exits_advance 2 rfl ?_
  refine exits_branch rfl rfl (fun h => ?_) (fun hfit => ?_)
  · have h : frame.length < i + x.toNat := h
    rw [if_pos (Or.inr (Or.inr h))]
    exact decides_pass
  have hfit : ¬ frame.length < i + x.toNat := hfit
  rw [if_neg (by simp only [hlen, hmin, hfit, or_self, not_false_iff])]
  refine exits_advance 1 rfl ?_
  exact decides_protocol i (i + x.toNat) 9 (by decide) (by decide) (by omega)

/-- The two bytes of a field as the objects join them, the one of higher value first. -/
def joined (high low : UInt8) : UInt64 := (high.toUInt64 <<< UInt64.ofInt 8) ||| low.toUInt64

/-- A 16-bit number as the machine holds it, from its value in the order of the network. -/
def hostOrder (e : ByteOrder) (p : ℕ) : ℕ := e.pick (p % 256 * 256 + p / 256) p

lemma joined_toNat (high low : UInt8) : (joined high low).toNat = 256 * high.toNat + low.toNat := by
  have hshift : (UInt64.ofInt 8).toNat % 64 = 8 := by decide
  have hhigh := high.toNat_lt
  have hlow := low.toNat_lt
  rw [joined, UInt64.toNat_or, UInt64.toNat_shiftLeft, hshift, UInt8.toNat_toUInt64,
    UInt8.toNat_toUInt64, Nat.mod_eq_of_lt (by rw [Nat.shiftLeft_eq]; omega),
    ← Nat.shiftLeft_add_eq_or_of_lt hlow, Nat.shiftLeft_eq]
  ring

/-- Whichever byte a build takes first, it gets the field in its own order. -/
lemma load_joined (e : ByteOrder) (frame : List UInt8) {i : ℕ} (h : i + 1 < frame.length) : ∃ high low,
    load8 frame (e.pick (i + 1) i) = some high ∧ load8 frame (e.pick i (i + 1)) = some low ∧
      (joined high low).toNat = hostOrder e (wordAt frame i) := by
  obtain ⟨a, ha, hav⟩ := load8_eq_some (Nat.lt_of_succ_lt h)
  obtain ⟨b, hb, hbv⟩ := load8_eq_some h
  have hal := a.toNat_lt
  have hbl := b.toNat_lt
  cases e with
  | little =>
    refine ⟨b, a, hb, ha, ?_⟩
    rw [joined_toNat, hostOrder, ByteOrder.pick, wordAt, ← hav, ← hbv]
    omega
  | big =>
    refine ⟨a, b, ha, hb, ?_⟩
    rw [joined_toNat, hostOrder, ByteOrder.pick, wordAt, ← hav, ← hbv]

lemma wordAt_lt (bytes : List UInt8) (i : ℕ) : wordAt bytes i < 65536 := by
  have hfirst := byteAt_lt bytes i
  have hsecond := byteAt_lt bytes (i + 1)
  rw [wordAt]
  omega

lemma hostOrder_lt (e : ByteOrder) {p : ℕ} (hp : p < 65536) : hostOrder e p < 65536 := by
  cases e with
  | little => rw [hostOrder, ByteOrder.pick]; omega
  | big => exact hp

/-- The builds compare with constants in their own order. -/
lemma etherType_iff {x k : UInt64} {p c : ℕ} (hx : x.toNat = hostOrder e p) (hp : p < 65536)
    (hc : c < 65536) (hk : k.toNat = hostOrder e c) : x = k ↔ p = c := by
  rw [← UInt64.toNat_inj, hx, hk]
  cases e with
  | little => rw [hostOrder, hostOrder, ByteOrder.pick, ByteOrder.pick]; omega
  | big => rfl

lemma decides_network {i p : ℕ} {x : UInt64} (hx : x.toNat = hostOrder e p) (hp : p < 65536) :
    Decides e frame 60
      (entry 31 r0 (some (.packet i)) (some .packetEnd) (some (.scalar x)) r4 r5 stack rb)
      (decideNetwork (layout e) frame i p) := by
  have hmask : x &&& UInt64.ofInt 65535 = x := by
    have hlow := hostOrder_lt e hp
    have hones : (UInt64.ofInt 65535).toNat = 2 ^ 16 - 1 := by decide
    rw [← UInt64.toNat_inj, UInt64.toNat_and, hones, Nat.and_two_pow_sub_one_eq_mod]
    omega
  refine exits_advance 1 (show _ = some (entry 32 r0 (some (.packet i)) (some .packetEnd)
    (some (.scalar (x &&& UInt64.ofInt 65535))) r4 r5 stack rb) from rfl) ?_
  rw [hmask]
  refine exits_branch rfl rfl (fun h => ?_) (fun h₆ => ?_)
  · have hsix : p = etherTypeIpv6 :=
      (etherType_iff hx hp (by decide) (by cases e <;> decide)).mp h
    subst hsix
    exact (decides_ipv6 i).mono (by decide)
  have h₆ : p ≠ etherTypeIpv6 := fun h =>
    h₆ ((etherType_iff hx hp (by decide) (by cases e <;> decide)).mpr h)
  refine exits_advance 1 rfl ?_
  refine exits_branch rfl rfl (fun h => ?_) (fun h => ?_)
  · have h₄ : p ≠ etherTypeIpv4 := fun h₄ =>
      h ((etherType_iff hx hp (by decide) (by cases e <;> decide)).mpr h₄)
    rw [decideNetwork, if_neg h₄, if_neg h₆]
    exact decides_pass
  · have h₄ : p = etherTypeIpv4 :=
      (etherType_iff hx hp (by decide) (by cases e <;> decide)).mp (not_not.mp h)
    subst h₄
    exact decides_ipv4 i

/-- The decision from the network header on, behind the tags. -/
def decideLink (layout : Layout) (frame : List UInt8) (link : ℕ × ℕ) : Decision :=
  decideNetwork layout frame link.1 link.2

/-- The loop of the source is unrolled. A round begins on an EtherType that announces a tag. -/
lemma decides_secondRound {p : ℕ} {x : UInt64} (hx : x.toNat = hostOrder e p)
    (htag : AnnouncesTag p) (hp : p < 65536) :
    Decides e frame 69
      (entry 22 r0 r1 (some .packetEnd) (some (.scalar x)) (some (.packet 0)) (some (.packet 18))
        stack rb)
      (decideLink (layout e) frame (skipTags frame 1 18 p)) := by
  rw [skipTags]
  refine exits_advance 3 rfl ?_
  refine exits_branch rfl rfl (fun h => ?_) (fun h => ?_)
  · have h : frame.length < 22 := h
    rw [if_neg (fun hroom => absurd hroom.2 (not_le.mpr h))]
    exact (decides_network hx hp).mono (by decide)
  have h : ¬ frame.length < 22 := h
  rw [if_pos ⟨htag, not_lt.mp h⟩, skipTags]
  obtain ⟨high, low, hhigh, hlow, hval⟩ := load_joined e frame (i := 20) (by omega)
  refine exits_loadByte rfl rfl ((congrArg _ (Nat.zero_add _)).trans hlow) rfl ?_
  refine exits_loadByte rfl rfl ((congrArg _ (Nat.zero_add _)).trans hhigh) rfl ?_
  refine exits_advance 3 (show _ = some (entry 31 (some (.packet 22)) (some (.packet 22))
    (some .packetEnd) (some (.scalar (joined high low))) (some (.packet 0)) (some (.packet 18))
    stack rb) from rfl) ?_
  exact decides_network hval (wordAt_lt frame 20)

lemma decides_firstRound {p : ℕ} {x : UInt64} (hx : x.toNat = hostOrder e p)
    (htag : AnnouncesTag p) (hp : p < 65536) :
    Decides e frame 79
      (entry 12 r0 (some (.packet 14)) (some .packetEnd) (some (.scalar x)) (some (.packet 0)) r5
        stack rb)
      (decideLink (layout e) frame (skipTags frame 2 14 p)) := by
  rw [skipTags]
  refine exits_advance 2 rfl ?_
  refine exits_branch rfl rfl (fun h => ?_) (fun h => ?_)
  · have h : frame.length < 18 := h
    rw [if_neg (fun hroom => absurd hroom.2 (not_le.mpr h))]
    exact (decides_network hx hp).mono (by decide)
  have h : ¬ frame.length < 18 := h
  rw [if_pos ⟨htag, not_lt.mp h⟩]
  have hp₁ := wordAt_lt frame 16
  obtain ⟨high, low, hhigh, hlow, hval⟩ := load_joined e frame (i := 16) (by omega)
  refine exits_loadByte rfl rfl ((congrArg _ (Nat.zero_add _)).trans hlow) rfl ?_
  refine exits_loadByte rfl rfl ((congrArg _ (Nat.zero_add _)).trans hhigh) rfl ?_
  refine exits_advance 2 (show _ = some (entry 19 r0 (some (.scalar low.toUInt64))
    (some .packetEnd) (some (.scalar (joined high low))) (some (.packet 0)) (some (.packet 18))
    stack rb) from rfl) ?_
  refine exits_branch rfl rfl (fun h => ?_) (fun hprovider => ?_)
  · have htag₁ : wordAt frame 16 = 0x88A8 :=
      (etherType_iff hval hp₁ (by decide) (by cases e <;> decide)).mp h
    exact (decides_secondRound hval (Or.inr htag₁) hp₁).mono (by decide)
  have hprovider : wordAt frame 16 ≠ 0x88A8 := fun h =>
    hprovider ((etherType_iff hval hp₁ (by decide) (by cases e <;> decide)).mpr h)
  refine exits_advance 1 rfl ?_
  refine exits_branch rfl rfl (fun h => ?_) (fun h => ?_)
  · have hcustomer : wordAt frame 16 ≠ 0x8100 := fun hcustomer =>
      h ((etherType_iff hval hp₁ (by decide) (by cases e <;> decide)).mpr hcustomer)
    rw [skipTags, if_neg (fun htag => htag.1.elim hcustomer hprovider)]
    exact (decides_network hval hp₁).mono (by decide)
  · have hcustomer : wordAt frame 16 = 0x8100 :=
      (etherType_iff hval hp₁ (by decide) (by cases e <;> decide)).mp (not_not.mp h)
    exact decides_secondRound hval (Or.inl hcustomer) hp₁

lemma decides_frame : Decides e frame 91 (Machine.initial rb) (decideFrame (layout e) frame) := by
  rw [decideFrame]
  refine exits_advance 5 rfl ?_
  refine exits_branch rfl rfl (fun h => ?_) (fun h => ?_)
  · have h : frame.length < 14 := h
    rw [if_pos h]
    exact decides_abort
  have h : ¬ frame.length < 14 := h
  rw [if_neg h]
  have hp := wordAt_lt frame 12
  obtain ⟨high, low, hhigh, hlow, hval⟩ := load_joined e frame (i := 12) (by omega)
  refine exits_loadByte rfl rfl ((congrArg _ (Nat.zero_add _)).trans hhigh) rfl ?_
  refine exits_advance 1 rfl ?_
  refine exits_loadByte rfl rfl ((congrArg _ (Nat.zero_add _)).trans hlow) rfl ?_
  refine exits_advance 1 (show _ = some (entry 10 (some (.scalar 0)) (some (.packet 14))
    (some .packetEnd) (some (.scalar (joined high low))) (some (.packet 0))
    (some (.scalar low.toUInt64)) (fun _ => none) rb) from rfl) ?_
  refine exits_branch rfl rfl (fun h => ?_) (fun hprovider => ?_)
  · have htag : wordAt frame 12 = 0x88A8 :=
      (etherType_iff hval hp (by decide) (by cases e <;> decide)).mp h
    exact (decides_firstRound hval (Or.inr htag) hp).mono (by decide)
  have hprovider : wordAt frame 12 ≠ 0x88A8 := fun h =>
    hprovider ((etherType_iff hval hp (by decide) (by cases e <;> decide)).mpr h)
  refine exits_branch rfl rfl (fun h => ?_) (fun h => ?_)
  · have hcustomer : wordAt frame 12 ≠ 0x8100 := fun hcustomer =>
      h ((etherType_iff hval hp (by decide) (by cases e <;> decide)).mpr hcustomer)
    rw [skipTags, if_neg (fun htag => htag.1.elim hcustomer hprovider)]
    exact (decides_network hval hp).mono (by decide)
  · have hcustomer : wordAt frame 12 = 0x8100 :=
      (etherType_iff hval hp (by decide) (by cases e <;> decide)).mp (not_not.mp h)
    exact decides_firstRound hval (Or.inl hcustomer) hp

lemma exits_object : Exits (environment e frame) (code e) 97 (Machine.initial rb)
    (returned rb (decideFrame (layout e) frame)) := decides_frame.mono (by decide)

end Blocks

lemma runObject_of_exits {e : ByteOrder} {rb : RingBuffer} {frame : List UInt8}
    {r : UInt64 × RingBuffer}
    (h : Exits (environment e frame) (code e) 97 (Machine.initial rb) r) :
    runObject e rb frame = some r := by
  rw [runObject, text_decodes, Option.bind_eq_bind, Option.bind_some, h.run_eq]

/-- On every frame either object exits, having read nothing outside the frame, and has decided
it by the layout of its build. -/
theorem runObject_decides (e : ByteOrder) (rb : RingBuffer) (frame : List UInt8) :
    runObject e rb frame = some (returned rb (decideFrame (layout e) frame)) :=
  runObject_of_exits exits_object

end Defrizer.ShippedObject
