import Defrizer.InterleavedProgram
import Defrizer.KernelMaps

/-!
# Registering sockets

`Register` and `Unregister` of `program.go` as programs over the two maps, one atomic action
for each map operation. An operation can be made to fail: it then leaves its map unchanged.
-/
namespace Defrizer.ProgramRegistration
open InterleavedProgram KernelMaps KernelMap

structure Maps (Q S : Type) where
  Queues : Q
  Sockets : S

/-- An error with the text it is wrapped in; the text is empty where the source returns the
error of the map as it is. -/
structure GoError where
  context : String
  cause : Errno
  deriving DecidableEq, Repr

variable {Q S : Type} [KernelMap Q] [KernelMap S]

def mapCall (fault : Option Errno) (op : Maps Q S → Except Errno (Maps Q S)) :
    Prog (Maps Q S) (Except Errno Unit) :=
  atomic fun m => some <| match fault with
    | some e => (.error e, m)
    | none => match op m with
      | .ok m' => (.ok (), m')
      | .error e => (.error e, m)

/-- Goes on after a success and returns the wrapped error otherwise. -/
def orReturn (context : String) (rest : Prog (Maps Q S) (Option GoError)) :
    Except Errno Unit → Prog (Maps Q S) (Option GoError)
  | .ok () => rest
  | .error e => .ret (some ⟨context, e⟩)

theorem map_eq_ok {α β : Type} {x : Except Errno α} {f : α → β} {b : β}
    (h : x.map f = .ok b) : ∃ a, x = .ok a ∧ f a = b := by
  cases x with
  | error e => cases h
  | ok a => exact ⟨a, rfl, Except.ok.inj h⟩

def putSocket (k v : UInt32) (m : Maps Q S) : Except Errno (Maps Q S) :=
  (update m.Sockets k v).map fun s => { m with Sockets := s }

def putQueue (k v : UInt32) (m : Maps Q S) : Except Errno (Maps Q S) :=
  (update m.Queues k v).map fun q => { m with Queues := q }

def deleteQueue (k : UInt32) (m : Maps Q S) : Except Errno (Maps Q S) :=
  (delete m.Queues k).map fun q => { m with Queues := q }

def deleteSocket (k : UInt32) (m : Maps Q S) : Except Errno (Maps Q S) :=
  (delete m.Sockets k).map fun s => { m with Sockets := s }

def register (queueID fd : ℤ) (fault₁ fault₂ : Option Errno) :
    Prog (Maps Q S) (Option GoError) :=
  (mapCall fault₁ (putSocket (UInt32.ofInt queueID) (UInt32.ofInt fd))).bind <|
    orReturn "failed to update xsksMap: " <|
  (mapCall fault₂ (putQueue (UInt32.ofInt queueID) 1)).bind <|
    orReturn "failed to update qidconfMap: " <| .ret none

def unregister (queueID : ℤ) (fault₁ fault₂ : Option Errno) : Prog (Maps Q S) (Option GoError) :=
  (mapCall fault₁ (deleteQueue (UInt32.ofInt queueID))).bind <| orReturn "" <|
  (mapCall fault₂ (deleteSocket (UInt32.ofInt queueID))).bind <| orReturn "" <| .ret none

/-- A call with what happens to its two map operations. -/
inductive Call
  | register (queueID fd : ℤ) (fault₁ fault₂ : Option Errno)
  | unregister (queueID : ℤ) (fault₁ fault₂ : Option Errno)

def Call.prog : Call → Prog (Maps Q S) (Option GoError)
  | .register q fd fault₁ fault₂ => ProgramRegistration.register q fd fault₁ fault₂
  | .unregister q fault₁ fault₂ => ProgramRegistration.unregister q fault₁ fault₂

def history : List Call → Prog (Maps Q S) Unit
  | [] => .ret ()
  | c :: cs => c.prog.bind fun _ => history cs

def Maps.Empty (m : Maps Q S) : Prop :=
  (∀ k, lookup m.Queues k ∈ [none, some 0]) ∧ ∀ k, lookup m.Sockets k = none

/-- The maps as `NewProgram` and `tcp_syn_kern.c` create them. -/
def newMaps (n : ℕ) : Maps (ArrayMap n) (XskMap n) := ⟨ArrayMap.new n, XskMap.new n⟩

theorem newMaps_empty (n : ℕ) : (newMaps n).Empty := by
  refine ⟨fun k => ?_, XskMap.lookup_new⟩
  simp only [newMaps, ArrayMap.lookup_new]
  split_ifs <;> simp

/-- What the calls rely on: an update takes effect at its key, a deleted key reads as absent
or zero, and no operation touches another key. -/
class LawfulMap (M : Type) [KernelMap M] : Prop where
  lookup_update : ∀ {m m' : M} {k v : UInt32}, update m k v = .ok m' →
    ∀ j, lookup m' j = if j = k then some v else lookup m j
  lookup_delete : ∀ {m m' : M} {k : UInt32}, delete m k = .ok m' → lookup m' k ∈ [none, some 0]
  lookup_delete_other : ∀ {m m' : M} {k : UInt32}, delete m k = .ok m' →
    ∀ j, j ≠ k → lookup m' j = lookup m j

instance (n : ℕ) : LawfulMap (ArrayMap n) where
  lookup_update h := (ArrayMap.update_eq_ok h).2
  lookup_delete h := by cases h
  lookup_delete_other h := by cases h

instance (n : ℕ) : LawfulMap (XskMap n) where
  lookup_update h := (XskMap.update_eq_ok h).2
  lookup_delete h := by simp [(XskMap.delete_eq_ok h).2]
  lookup_delete_other h j hj := by simp [(XskMap.delete_eq_ok h).2, hj]

end Defrizer.ProgramRegistration
