import Defrizer.ByteFields

/-!
# A machine for packet programs

The eBPF instructions that compiled packet programs consist of, as the object file encodes them
and decoded, and a machine that runs them on a packet. Pointers are symbolic, as they are for
the verifier: a position in the packet or on the stack. What reads or writes outside of these,
or reads what was never written, has no value.
-/
namespace Defrizer.PacketMachine
open ByteFields

inductive Operand
  | reg (r : ℕ)
  | imm (c : ℤ)
  deriving DecidableEq, Repr

inductive AluOp
  | mov
  | add
  | or
  | and
  | lsh
  | rsh
  deriving DecidableEq, Repr

inductive Width
  | byte
  | half
  | word
  deriving DecidableEq, Repr

inductive Test
  | eq
  | ne
  | gt
  deriving DecidableEq, Repr

/-- An instruction; jumps count slots from the next one on. -/
inductive Insn
  | alu (op : AluOp) (dst : ℕ) (src : Operand)
  | load (w : Width) (dst src : ℕ) (off : ℤ)
  | store (w : Width) (dst : ℕ) (off : ℤ) (src : ℕ)
  | loadMap (dst : ℕ)
  | jump (off : ℤ)
  | branch (t : Test) (dst : ℕ) (src : Operand) (off : ℤ)
  | call (helper : ℤ)
  | exit
  deriving DecidableEq, Repr

section Decoding

/-- Byte `i` of a slot, whose eight bytes are read as one number. -/
def slotByte (w i : ℕ) : ℕ := w / 256 ^ (7 - i) % 256

def signed (bits x : ℕ) : ℤ := if x < 2 ^ (bits - 1) then x else (x : ℤ) - 2 ^ bits

/-- Bytes in the order of the target, as a number. -/
def number (e : ByteOrder) (bytes : List ℕ) : ℕ :=
  match e with
  | .little => bytes.foldr (fun b x => b + 256 * x) 0
  | .big => bytes.foldl (fun x b => 256 * x + b) 0

/-- A slot of `struct bpf_insn`: the code, the two registers, the offset and the constant. A wide
load is one of the address of a map, which the loader fills in. -/
def decode (e : ByteOrder) (w : ℕ) : Option Insn :=
  let low := slotByte w 1 % 16
  let high := slotByte w 1 / 16
  let (dst, src) := match e with
    | .little => (low, high)
    | .big => (high, low)
  let off := signed 16 (number e [slotByte w 2, slotByte w 3])
  let imm := signed 32 (number e [slotByte w 4, slotByte w 5, slotByte w 6, slotByte w 7])
  match slotByte w 0 with
  | 0x05 => some (.jump off)
  | 0x07 => some (.alu .add dst (.imm imm))
  | 0x0f => some (.alu .add dst (.reg src))
  | 0x15 => some (.branch .eq dst (.imm imm) off)
  | 0x18 => some (.loadMap dst)
  | 0x2d => some (.branch .gt dst (.reg src) off)
  | 0x4f => some (.alu .or dst (.reg src))
  | 0x55 => some (.branch .ne dst (.imm imm) off)
  | 0x57 => some (.alu .and dst (.imm imm))
  | 0x61 => some (.load .word dst src off)
  | 0x63 => some (.store .word dst off src)
  | 0x67 => some (.alu .lsh dst (.imm imm))
  | 0x69 => some (.load .half dst src off)
  | 0x71 => some (.load .byte dst src off)
  | 0x73 => some (.store .byte dst off src)
  | 0x77 => some (.alu .rsh dst (.imm imm))
  | 0x85 => some (.call imm)
  | 0x95 => some .exit
  | 0xb7 => some (.alu .mov dst (.imm imm))
  | 0xbf => some (.alu .mov dst (.reg src))
  | _ => none

def Insn.isWide : Insn → Bool
  | .loadMap _ => true
  | _ => false

/-- The slots of a section. After a wide load comes its second slot, which is no instruction. -/
def decodeSlots (e : ByteOrder) : Bool → List ℕ → Option (List (Option Insn))
  | false, [] => some []
  | true, [] => none
  | true, w :: ws => if w = 0 then (decodeSlots e false ws).map (none :: ·) else none
  | false, w :: ws => do
    let i ← decode e w
    return some i :: (← decodeSlots e i.isWide ws)

end Decoding

inductive Value
  | scalar (x : UInt64)
  | context
  | packet (i : ℕ)
  | packetEnd
  | stack (o : ℤ)
  | map
  deriving DecidableEq, Repr

structure Regs where
  r0 : Option Value
  r1 : Option Value
  r2 : Option Value
  r3 : Option Value
  r4 : Option Value
  r5 : Option Value
  r10 : Option Value

def Regs.get (regs : Regs) : ℕ → Option Value
  | 0 => regs.r0
  | 1 => regs.r1
  | 2 => regs.r2
  | 3 => regs.r3
  | 4 => regs.r4
  | 5 => regs.r5
  | 10 => regs.r10
  | _ => none

/-- The frame pointer cannot be written. -/
def Regs.set (regs : Regs) (v : Value) : ℕ → Option Regs
  | 0 => some { regs with r0 := some v }
  | 1 => some { regs with r1 := some v }
  | 2 => some { regs with r2 := some v }
  | 3 => some { regs with r3 := some v }
  | 4 => some { regs with r4 := some v }
  | 5 => some { regs with r5 := some v }
  | _ => none

abbrev Stack := ℤ → Option UInt8

structure Machine (ε : Type) where
  pc : ℕ
  regs : Regs
  stack : Stack
  world : ε

/-- What a program runs on: a packet, and helpers that act on a world of their own. -/
structure Environment (ε : Type) where
  order : ByteOrder
  packet : List UInt8
  helper : ℤ → Regs → Stack → ε → Option (UInt64 × ε)

variable {ε : Type}

/-- On entry the context is in `r1` and the frame pointer in `r10`. -/
def Machine.initial (world : ε) : Machine ε where
  pc := 0
  regs := ⟨none, some .context, none, none, none, none, some (.stack 0)⟩
  stack _ := none
  world := world

def Regs.operand (regs : Regs) : Operand → Option Value
  | .reg r => regs.get r
  | .imm c => some (.scalar (UInt64.ofInt c))

/-- The verifier admits no steps of `2 ^ 16` or more in a packet. -/
def AluOp.eval : AluOp → Option Value → Value → Option Value
  | .mov, _, v => some v
  | .add, some (.scalar x), .scalar y => some (.scalar (x + y))
  | .add, some (.packet i), .scalar y =>
    if y.toNat < 2 ^ 16 then some (.packet (i + y.toNat)) else none
  | .add, some (.stack o), .scalar y => some (.stack (o + y.toInt64.toInt))
  | .or, some (.scalar x), .scalar y => some (.scalar (x ||| y))
  | .and, some (.scalar x), .scalar y => some (.scalar (x &&& y))
  | .lsh, some (.scalar x), .scalar y => some (.scalar (x <<< y))
  | .rsh, some (.scalar x), .scalar y => some (.scalar (x >>> y))
  | _, _, _ => none

/-- Two numbers are compared without signs, and a position with the end of the packet. -/
def Test.eval (length : ℕ) : Test → Value → Value → Option Bool
  | .eq, .scalar x, .scalar y => some (decide (x = y))
  | .ne, .scalar x, .scalar y => some (decide (x ≠ y))
  | .gt, .scalar x, .scalar y => some (decide (y < x))
  | .gt, .packet i, .packetEnd => some (decide (length < i))
  | _, _, _ => none

/-- The context begins with the words `data` and `data_end`. -/
def Environment.load (env : Environment ε) : Width → Value → ℤ → Option Value
  | .word, .context, 0 => some (.packet 0)
  | .word, .context, 4 => some .packetEnd
  | .byte, .packet i, .ofNat k => (load8 env.packet (i + k)).map fun b => .scalar b.toUInt64
  | .half, .packet i, .ofNat k =>
    (load16 env.order env.packet (i + k)).map fun w => .scalar w.toUInt64
  | _, _, _ => none

/-- The bytes of a number in memory, the first of `n` first. -/
def bytesOf (e : ByteOrder) (n : ℕ) (x : UInt64) : List UInt8 :=
  let bytes := (List.range n).map fun i => (x >>> UInt64.ofNat (8 * i)).toUInt8
  match e with
  | .little => bytes
  | .big => bytes.reverse

def Width.size : Width → ℕ
  | .byte => 1
  | .half => 2
  | .word => 4

/-- The stack has 512 bytes below the frame pointer. -/
def Stack.store (stack : Stack) (e : ByteOrder) (w : Width) (a : ℤ) (x : UInt64) : Option Stack :=
  if -512 ≤ a ∧ a + w.size ≤ 0 then
    some fun b => if a ≤ b ∧ b < a + w.size then (bytesOf e w.size x)[(b - a).toNat]? else stack b
  else none

/-- `n` bytes of the stack, all of which were written. -/
def Stack.read (stack : Stack) (a : ℤ) (n : ℕ) : Option (List UInt8) :=
  (List.range n).mapM fun i => stack (a + i)

def target (pc : ℕ) (off : ℤ) : ℕ := (pc + 1 + off).toNat

/-- A call returns in `r0` and overwrites the argument registers. -/
def Regs.returned (regs : Regs) (ret : UInt64) : Regs :=
  ⟨some (.scalar ret), none, none, none, none, none, regs.r10⟩

def Machine.test (env : Environment ε) (m : Machine ε) (t : Test) (dst : ℕ) (src : Operand) :
    Option Bool := do
  t.eval env.packet.length (← m.regs.get dst) (← m.regs.operand src)

/-- One instruction other than the exit. -/
def Machine.step (env : Environment ε) (m : Machine ε) : Insn → Option (Machine ε)
  | .alu op dst src => do
    let v ← op.eval (m.regs.get dst) (← m.regs.operand src)
    return { m with pc := m.pc + 1, regs := ← m.regs.set v dst }
  | .load w dst src off => do
    let v ← env.load w (← m.regs.get src) off
    return { m with pc := m.pc + 1, regs := ← m.regs.set v dst }
  | .store w dst off src => do
    match ← m.regs.get dst, ← m.regs.get src with
    | .stack o, .scalar x =>
      return { m with pc := m.pc + 1, stack := ← m.stack.store env.order w (o + off) x }
    | _, _ => none
  | .loadMap dst => do
    return { m with pc := m.pc + 2, regs := ← m.regs.set .map dst }
  | .jump off => some { m with pc := target m.pc off }
  | .branch t dst src off => do
    return { m with pc := if ← m.test env t dst src then target m.pc off else m.pc + 1 }
  | .call helper => do
    let (ret, world) ← env.helper helper m.regs m.stack m.world
    return { m with pc := m.pc + 1, regs := m.regs.returned ret, world := world }
  | .exit => none

/-- Run at most `fuel` instructions; the result is what is in `r0` at the exit. -/
def run (env : Environment ε) (code : List (Option Insn)) : ℕ → Machine ε → Option (UInt64 × ε)
  | 0, _ => none
  | fuel + 1, m => do
    let i ← (code[m.pc]?).join
    if i = .exit then
      match ← m.regs.r0 with
      | .scalar x => return (x, m.world)
      | _ => none
    else run env code fuel (← m.step env i)

/-- Straight on for `k` instructions. -/
def advance (env : Environment ε) (code : List (Option Insn)) : ℕ → Machine ε → Option (Machine ε)
  | 0, m => some m
  | k + 1, m => do advance env code k (← m.step env (← (code[m.pc]?).join))

/-- The machine exits with the result after at most `n` instructions. -/
def Exits (env : Environment ε) (code : List (Option Insn)) (n : ℕ) (m : Machine ε)
    (result : UInt64 × ε) : Prop :=
  ∃ k ≤ n, run env code k m = some result

section Rules

variable {env : Environment ε} {code : List (Option Insn)} {n : ℕ} {m m' : Machine ε}
  {result : UInt64 × ε}

theorem Exits.mono {n' : ℕ} (h : Exits env code n m result) (hn : n ≤ n') :
    Exits env code n' m result := by
  obtain ⟨k, hk, hrun⟩ := h
  exact ⟨k, hk.trans hn, hrun⟩

theorem run_succ {k : ℕ} (h : run env code k m = some result) :
    run env code (k + 1) m = some result := by
  induction k generalizing m with
  | zero => cases h
  | succ k ih =>
    rw [run] at h ⊢
    cases hi : (code[m.pc]?).join with
    | none => simp only [hi, Option.bind_eq_bind, Option.bind_none] at h; cases h
    | some i =>
      simp only [hi, Option.bind_eq_bind, Option.bind_some] at h ⊢
      by_cases hexit : i = .exit
      · rw [if_pos hexit] at h ⊢
        exact h
      · rw [if_neg hexit] at h ⊢
        obtain ⟨m', hstep, hrest⟩ := Option.bind_eq_some_iff.mp h
        rw [hstep, Option.bind_some]
        exact ih hrest

/-- More fuel than the instructions need makes no difference. -/
theorem Exits.run_eq (h : Exits env code n m result) : run env code n m = some result := by
  obtain ⟨k, hk, hrun⟩ := h
  induction n, hk using Nat.le_induction with
  | base => exact hrun
  | succ n _ ih => exact run_succ ih

theorem exits_exit {x : UInt64} (fetched : (code[m.pc]?).join = some .exit)
    (returned : m.regs.r0 = some (.scalar x)) : Exits env code (n + 1) m (x, m.world) :=
  ⟨1, by omega, by
    simp only [run, fetched, returned, Option.bind_eq_bind, Option.bind_some, if_true,
      Option.pure_def]⟩

theorem exits_step {i : Insn} (fetched : (code[m.pc]?).join = some i)
    (stepped : m.step env i = some m') (h : Exits env code n m' result) :
    Exits env code (n + 1) m result := by
  obtain ⟨k, hk, hrun⟩ := h
  have hne : i ≠ .exit := by
    rintro rfl
    cases stepped
  exact ⟨k + 1, by omega, by
    simp only [run, fetched, Option.bind_eq_bind, Option.bind_some, if_neg hne, stepped, hrun]⟩

theorem exits_advance (k : ℕ) (advanced : advance env code k m = some m')
    (h : Exits env code n m' result) : Exits env code (n + k) m result := by
  induction k generalizing m with
  | zero =>
    cases advanced
    exact h
  | succ k ih =>
    obtain ⟨i, hi, hrest⟩ := Option.bind_eq_some_iff.mp advanced
    obtain ⟨m₁, hstep, hadvance⟩ := Option.bind_eq_some_iff.mp hrest
    exact exits_step hi hstep (ih hadvance)

theorem exits_branch {t : Test} {dst : ℕ} {src : Operand} {off : ℤ} {P : Prop} [Decidable P]
    (fetched : (code[m.pc]?).join = some (.branch t dst src off))
    (tested : m.test env t dst src = some (decide P))
    (taken : P → Exits env code n { m with pc := target m.pc off } result)
    (passed : ¬ P → Exits env code n { m with pc := m.pc + 1 } result) :
    Exits env code (n + 1) m result := by
  have hstep : m.step env (.branch t dst src off) =
      some { m with pc := if decide P then target m.pc off else m.pc + 1 } := by
    simp only [Machine.step, tested, Option.bind_eq_bind, Option.bind_some, Option.pure_def]
  refine exits_step fetched hstep ?_
  by_cases hP : P
  · rw [decide_eq_true hP, if_pos rfl]
    exact taken hP
  · rw [decide_eq_false hP, if_neg Bool.false_ne_true]
    exact passed hP

theorem exits_loadByte {dst src i k : ℕ} {b : UInt8} {regs : Regs}
    (fetched : (code[m.pc]?).join = some (.load .byte dst src (.ofNat k)))
    (base : m.regs.get src = some (.packet i)) (loaded : load8 env.packet (i + k) = some b)
    (written : m.regs.set (.scalar b.toUInt64) dst = some regs)
    (h : Exits env code n { m with pc := m.pc + 1, regs := regs } result) :
    Exits env code (n + 1) m result := by
  refine exits_step fetched ?_ h
  simp only [Machine.step, base, Environment.load, loaded, Option.map_some, written,
    Option.bind_eq_bind, Option.bind_some, Option.pure_def]

theorem exits_loadHalf {dst src i k : ℕ} {w : UInt16} {regs : Regs}
    (fetched : (code[m.pc]?).join = some (.load .half dst src (.ofNat k)))
    (base : m.regs.get src = some (.packet i))
    (loaded : load16 env.order env.packet (i + k) = some w)
    (written : m.regs.set (.scalar w.toUInt64) dst = some regs)
    (h : Exits env code n { m with pc := m.pc + 1, regs := regs } result) :
    Exits env code (n + 1) m result := by
  refine exits_step fetched ?_ h
  simp only [Machine.step, base, Environment.load, loaded, Option.map_some, written,
    Option.bind_eq_bind, Option.bind_some, Option.pure_def]

theorem exits_addPacket {dst src i : ℕ} {x : UInt64} {regs : Regs}
    (fetched : (code[m.pc]?).join = some (.alu .add dst (.reg src)))
    (base : m.regs.get dst = some (.packet i)) (offset : m.regs.get src = some (.scalar x))
    (small : x.toNat < 2 ^ 16) (written : m.regs.set (.packet (i + x.toNat)) dst = some regs)
    (h : Exits env code n { m with pc := m.pc + 1, regs := regs } result) :
    Exits env code (n + 1) m result := by
  refine exits_step fetched ?_ h
  simp only [Machine.step, Regs.operand, base, offset, AluOp.eval, if_pos small, written,
    Option.bind_eq_bind, Option.bind_some, Option.pure_def]

theorem exits_call {helper : ℤ} {ret : UInt64} {world : ε}
    (fetched : (code[m.pc]?).join = some (.call helper))
    (called : env.helper helper m.regs m.stack m.world = some (ret, world))
    (h : Exits env code n
      { m with pc := m.pc + 1, regs := m.regs.returned ret, world := world } result) :
    Exits env code (n + 1) m result := by
  refine exits_step fetched ?_ h
  simp only [Machine.step, called, Option.bind_eq_bind, Option.bind_some, Option.pure_def]

end Rules

end Defrizer.PacketMachine
