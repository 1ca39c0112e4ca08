import Defrizer.BytecodeMachine
import Defrizer.FilterPrograms

/-!
# The built-in program of `NewProgram`

The hand-assembled instructions, with the two map file descriptors as parameters, and their
result for every queue index and every content of the maps.
-/
namespace Defrizer.BuiltinProgram
open BytecodeMachine FilterPrograms

/-- The instructions in `NewProgram`; the descriptors are those of the two maps it creates. -/
def newProgram (qidconfFd xsksFd : ℤ) : List Instruction :=
  [{ OpCode := 97, Dst := 1, Src := 1, Offset := 16 },
   { OpCode := 99, Dst := 10, Src := 1, Offset := -4 },
   { OpCode := 191, Dst := 2, Src := 10 },
   { OpCode := 7, Dst := 2, Src := 0, Offset := 0, Constant := -4 },
   { OpCode := 24, Dst := 1, Src := 1, Offset := 0, Constant := qidconfFd },
   { OpCode := 133, Dst := 0, Src := 0, Constant := 1 },
   { OpCode := 191, Dst := 1, Src := 0 },
   { OpCode := 180, Dst := 0, Src := 0 },
   { OpCode := 21, Dst := 1, Src := 0, Offset := 8 },
   { OpCode := 180, Dst := 0, Src := 0, Constant := 2 },
   { OpCode := 97, Dst := 1, Src := 1 },
   { OpCode := 21, Dst := 1, Offset := 5 },
   { OpCode := 24, Dst := 1, Src := 1, Constant := xsksFd },
   { OpCode := 97, Dst := 2, Src := 10, Offset := -4 },
   { OpCode := 180, Dst := 3 },
   { OpCode := 133, Constant := 51 },
   { OpCode := 149 }]

/-- What the program sees: the queue index at offset 16 of `struct xdp_md` and the two maps
behind their descriptors. -/
def environment (qidconfFd xsksFd : ℤ) (qidconfMap xsksMap : UInt32 → Option UInt32)
    (rxQueueIndex : UInt32) : Environment where
  contextWord o := if o = 16 then some rxQueueIndex else none
  lookup fd key := if fd = qidconfFd then qidconfMap key else none
  redirect c := if c.map = xsksFd then bpfRedirectMap xsksMap c.key c.flags else 0

/-- The program's slots: seventeen instructions, two of them wide. -/
def builtinFuel : ℕ := 19

def builtinProg (qidconfFd xsksFd : ℤ) (qidconfMap xsksMap : UInt32 → Option UInt32)
    (rxQueueIndex : UInt32) : Option Exit :=
  run (environment qidconfFd xsksFd qidconfMap xsksMap rxQueueIndex)
    (layout (newProgram qidconfFd xsksFd)) builtinFuel Machine.initial

theorem word_not_zero {v : UInt32} (h : v ≠ 0) :
    (Value.scalar v.toUInt64).isConstant 0 = some false := by
  have hne : v.toUInt64 ≠ 0 := by
    intro hz
    apply h
    rw [← UInt32.toUInt32_toUInt64 v, hz]
    rfl
  change some (v.toUInt64 == 0) = some false
  simp [hne]

/-- The result of the built-in program: an absent entry aborts, a zero entry passes, and any
other entry redirects to the socket slot of the queue. -/
theorem builtinProg_eq (qidconfFd xsksFd : ℤ) (qidconfMap xsksMap : UInt32 → Option UInt32)
    (index : UInt32) :
    builtinProg qidconfFd xsksFd qidconfMap xsksMap index = some (match qidconfMap index with
      | none => ⟨0, []⟩
      | some v => if v = 0 then ⟨2, []⟩
        else ⟨(bpfRedirectMap xsksMap index 0).toUInt64, [⟨xsksFd, index, 0⟩]⟩) := by
  have hword := UInt32.toUInt32_toUInt64 index
  have hlookup : (environment qidconfFd xsksFd qidconfMap xsksMap index).lookup qidconfFd index =
      qidconfMap index := if_pos rfl
  have hredirect : (environment qidconfFd xsksFd qidconfMap xsksMap index).redirect
      ⟨xsksFd, index, 0⟩ = bpfRedirectMap xsksMap index 0 := if_pos rfl
  have hspill : some (Value.scalar index.toUInt64.toUInt32.toUInt64) =
      some (Value.scalar index.toUInt64) := by rw [hword]
  unfold builtinProg builtinFuel
  -- the index is spilled to the stack and looked up
  rw [run_step rfl rfl rfl, run_step rfl rfl rfl, run_step rfl rfl rfl, run_step rfl rfl rfl,
    run_step rfl rfl rfl,
    run_step rfl rfl (step_lookup rfl rfl rfl rfl (congrArg some hword) hlookup),
    run_step rfl rfl rfl, run_step rfl rfl rfl]
  cases qidconfMap index with
  | none => rfl
  | some v =>
    change _ = some (if v = 0 then (⟨2, []⟩ : Exit) else _)
    rw [run_step rfl rfl rfl, run_step rfl rfl rfl, run_step rfl rfl rfl]
    by_cases hv : v = 0
    · subst hv
      rfl
    · rw [if_neg hv]
      refine (run_step rfl rfl (step_jumpEqual rfl rfl (word_not_zero hv))).trans ?_
      rw [run_step rfl rfl rfl, run_step rfl rfl rfl, run_step rfl rfl rfl]
      refine (run_step rfl rfl (step_redirect rfl rfl rfl hspill rfl hword hredirect)).trans ?_
      rfl

theorem builtinProg_fuel {qidconfFd xsksFd : ℤ} {qidconfMap xsksMap : UInt32 → Option UInt32}
    {index : UInt32} {fuel : ℕ} {out : Exit}
    (h : run (environment qidconfFd xsksFd qidconfMap xsksMap index)
      (layout (newProgram qidconfFd xsksFd)) fuel Machine.initial = some out) :
    builtinProg qidconfFd xsksFd qidconfMap xsksMap index = some out := by
  have heq := builtinProg_eq qidconfFd xsksFd qidconfMap xsksMap index
  rw [heq, run_unique h heq]

/-- For every queue index and every content of the maps the instructions compute the default
program: each machine on the way is safe, so jumps land on whole instructions and only what was
written is read, and the exit has the action of the entry of the index. -/
theorem builtinProg_translates (qidconfFd xsksFd : ℤ)
    (qidconfMap xsksMap : UInt32 → Option UInt32) (index : UInt32) :
    (∀ m, Reaches (environment qidconfFd xsksFd qidconfMap xsksMap index)
        (layout (newProgram qidconfFd xsksFd)) Machine.initial m →
      ∃ i, m.Safe (environment qidconfFd xsksFd qidconfMap xsksMap index)
        (layout (newProgram qidconfFd xsksFd)) i) ∧
    ∃ exit, builtinProg qidconfFd xsksFd qidconfMap xsksMap index = some exit ∧
      (qidconfMap index = none → exit = ⟨0, []⟩) ∧
      (qidconfMap index = some 0 → exit = ⟨2, []⟩) ∧
      ∀ v, v ≠ 0 → qidconfMap index = some v →
        exit = ⟨(bpfRedirectMap xsksMap index 0).toUInt64, [⟨xsksFd, index, 0⟩]⟩ := by
  have heq := builtinProg_eq qidconfFd xsksFd qidconfMap xsksMap index
  constructor
  · intro m hm
    obtain ⟨fuel, hrun⟩ := run_reaches heq hm
    exact run_safe hrun
  · refine ⟨_, heq, fun h => by rw [h], fun h => by rw [h]; rfl, fun v hv h => ?_⟩
    rw [h]
    simp [hv]

end Defrizer.BuiltinProgram
