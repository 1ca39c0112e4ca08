import Defrizer.RegisteredQueues

/-!
# Attaching the program

`Attach` of `program.go`, which removes the program an interface has before it attaches its own,
and what is left of each operation of a `Program` that returns an error. No operation undoes
anything: its first update stays where a later call fails.
-/
namespace Defrizer.ProgramRegistration
open InterleavedProgram KernelMaps KernelMap

abbrev Links (P : Type) := ℤ → Option P

variable {P : Type}

/-- `netlink.LinkByIndex`, of which only the attached program is of interest. -/
def linkByIndex (Ifindex : ℤ) (fault : Option Errno) : Prog (Links P) (Except Errno (Option P)) :=
  fetch fun links => some <| match fault with
    | some e => .error e
    | none => .ok (links Ifindex)

/-- `netlink.LinkSetXdpFd` and `LinkSetXdpFdWithFlags`; no program stands for the descriptor -1. -/
def linkSetXdpFd (Ifindex : ℤ) (program : Option P) (fault : Option Errno) :
    Prog (Links P) (Except Errno Unit) :=
  atomic fun links => some <| match fault with
    | some e => (.error e, links)
    | none => (.ok (), Function.update links Ifindex program)

def isXdpAttached (link : Option P) : Bool := link.isSome

/-- Goes on with the result of a netlink call and returns the wrapped error otherwise. -/
def onLink {α : Type} (context : String) (rest : α → Prog (Links P) (Option GoError)) :
    Except Errno α → Prog (Links P) (Option GoError)
  | .ok a => rest a
  | .error e => .ret (some ⟨context, e⟩)

/-- The loop that waits until the program is gone. Each query of the list fails or still reports
the program; the next one reports what is attached. -/
def waitRemoved (Ifindex : ℤ) : List (Option Errno) → Prog (Links P) (Option GoError)
  | some e :: _ => .ret (some ⟨"", e⟩)
  | none :: queries => waitRemoved Ifindex queries
  | [] => fetch fun links => if isXdpAttached (links Ifindex) then none else some none

/-- What happens to the netlink calls of an `Attach`, in their order. -/
structure LinkFaults where
  findOld : Option Errno
  remove : Option Errno
  queries : List (Option Errno)
  findNew : Option Errno
  attach : Option Errno

def removeProgram (Ifindex : ℤ) (faults : LinkFaults) : Prog (Links P) (Option GoError) :=
  (linkByIndex Ifindex faults.findOld).bind <| onLink "" fun link =>
    if ¬ isXdpAttached link then .ret none
    else (linkSetXdpFd Ifindex none faults.remove).bind <|
      onLink "netlink.LinkSetXdpFd(link, -1) failed: " fun _ => waitRemoved Ifindex faults.queries

def attachProgram (Ifindex : ℤ) (program : P) (faults : LinkFaults) :
    Prog (Links P) (Option GoError) :=
  (linkByIndex Ifindex faults.findNew).bind <| onLink "" fun _ =>
    (linkSetXdpFd Ifindex (some program) faults.attach).bind <| onLink "" fun _ => .ret none

def attach (Ifindex : ℤ) (program : P) (faults : LinkFaults) : Prog (Links P) (Option GoError) := do
  let err ← removeProgram Ifindex faults
  if err.isSome then return err else attachProgram Ifindex program faults

structure State (P Q S : Type) where
  links : Links P
  maps : Maps Q S

/-- An operation with what happens to the calls in it. -/
inductive Operation (P : Type)
  | attach (Ifindex : ℤ) (program : P) (faults : LinkFaults)
  | register (queueID fd : ℤ) (fault₁ fault₂ : Option Errno)
  | unregister (queueID : ℤ) (fault₁ fault₂ : Option Errno)

variable {Q S : Type} [KernelMap Q] [KernelMap S]

inductive Operation.Returns (s : State P Q S) : Operation P → Option GoError → State P Q S → Prop
  | attach {i p faults err links}
      (run : (ProgramRegistration.attach i p faults).run s.links = some (err, links)) :
      Returns s (.attach i p faults) err { s with links }
  | register {q fd fault₁ fault₂ err maps}
      (run : (ProgramRegistration.register q fd fault₁ fault₂).run s.maps = some (err, maps)) :
      Returns s (.register q fd fault₁ fault₂) err { s with maps }
  | unregister {q fault₁ fault₂ err maps}
      (run : (ProgramRegistration.unregister q fault₁ fault₂).run s.maps = some (err, maps)) :
      Returns s (.unregister q fault₁ fault₂) err { s with maps }

/-- The state after the first update of the operation. -/
inductive Operation.FirstUpdate (s : State P Q S) : Operation P → State P Q S → Prop
  | attach {i p faults} :
      FirstUpdate s (.attach i p faults) { s with links := Function.update s.links i none }
  | register {q fd fault₁ fault₂ sockets}
      (put : update s.maps.Sockets (UInt32.ofInt q) (UInt32.ofInt fd) = .ok sockets) :
      FirstUpdate s (.register q fd fault₁ fault₂)
        { s with maps := { s.maps with Sockets := sockets } }
  | unregister {q fault₁ fault₂ queues}
      (deleted : delete s.maps.Queues (UInt32.ofInt q) = .ok queues) :
      FirstUpdate s (.unregister q fault₁ fault₂)
        { s with maps := { s.maps with Queues := queues } }

section Links
variable {links links' : Links P} {i : ℤ} {err : Option GoError}

lemma linkByIndex_run {fault : Option Errno} {context : String}
    {rest : Option P → Prog (Links P) (Option GoError)}
    (h : ((linkByIndex i fault).bind (onLink context rest)).run links = some (err, links')) :
    (∃ e, err = some ⟨context, e⟩ ∧ links' = links) ∨
      (rest (links i)).run links = some (err, links') := by
  cases fault with
  | some e =>
    simp only [linkByIndex, run_bind, run_fetch, Option.map_some, Option.bind_some, onLink,
      run_ret, Option.some.injEq, Prod.mk.injEq] at h
    exact Or.inl ⟨e, h.1.symm, h.2.symm⟩
  | none => exact Or.inr (by simpa [linkByIndex, onLink] using h)

lemma linkSetXdpFd_run {program : Option P} {fault : Option Errno} {context : String}
    {rest : Unit → Prog (Links P) (Option GoError)}
    (h : ((linkSetXdpFd i program fault).bind (onLink context rest)).run links =
      some (err, links')) :
    (∃ e, err = some ⟨context, e⟩ ∧ links' = links) ∨
      (rest ()).run (Function.update links i program) = some (err, links') := by
  cases fault with
  | some e =>
    simp only [linkSetXdpFd, run_bind, run_atomic, Option.bind_some, onLink, run_ret,
      Option.some.injEq, Prod.mk.injEq] at h
    exact Or.inl ⟨e, h.1.symm, h.2.symm⟩
  | none => exact Or.inr (by simpa [linkSetXdpFd, onLink] using h)

lemma waitRemoved_run {queries : List (Option Errno)}
    (h : (waitRemoved i queries).run links = some (err, links')) : links' = links := by
  induction queries with
  | nil =>
    rw [waitRemoved, run_fetch] at h
    obtain ⟨_, _, heq⟩ := Option.map_eq_some_iff.mp h
    cases heq
    rfl
  | cons query queries ih =>
    cases query with
    | some e =>
      cases h
      rfl
    | none => exact ih h

lemma removeProgram_run {faults : LinkFaults}
    (h : (removeProgram i faults).run links = some (err, links')) :
    links' = links ∨ links' = Function.update links i none := by
  rcases linkByIndex_run h with ⟨e, _, rfl⟩ | h
  · exact Or.inl rfl
  split_ifs at h
  · rcases linkSetXdpFd_run h with ⟨e, _, rfl⟩ | h
    · exact Or.inl rfl
    · exact Or.inr (waitRemoved_run h)
  · cases h
    exact Or.inl rfl

lemma attachProgram_run {program : P} {faults : LinkFaults}
    (h : (attachProgram i program faults).run links = some (err, links')) :
    (err ≠ none ∧ links' = links) ∨
      err = none ∧ links' = Function.update links i (some program) := by
  rcases linkByIndex_run h with ⟨e, rfl, rfl⟩ | h
  · exact Or.inl ⟨by simp, rfl⟩
  rcases linkSetXdpFd_run h with ⟨e, rfl, rfl⟩ | h
  · exact Or.inl ⟨by simp, rfl⟩
  · cases h
    exact Or.inr ⟨rfl, rfl⟩

lemma attach_fails {program : P} {faults : LinkFaults} {e : GoError}
    (h : (attach i program faults).run links = some (some e, links')) :
    links' = links ∨ links' = Function.update links i none := by
  simp only [attach, bind_def, run_bind] at h
  obtain ⟨⟨err, links₁⟩, hremove, hrest⟩ := Option.bind_eq_some_iff.mp h
  have hlinks := removeProgram_run hremove
  cases err with
  | some e' =>
    cases hrest
    exact hlinks
  | none =>
    rcases attachProgram_run hrest with ⟨_, rfl⟩ | ⟨hnone, _⟩
    · exact hlinks
    · cases hnone

end Links

/-- An operation that returns an error has left the state as it was, or has done its first
update and nothing else. -/
theorem failed_operation {s s' : State P Q S} {op : Operation P} {e : GoError}
    (h : op.Returns s (some e) s') : s' = s ∨ op.FirstUpdate s s' := by
  cases h with
  | attach run =>
    rcases attach_fails run with rfl | rfl
    · exact Or.inl rfl
    · exact Or.inr .attach
  | register run =>
    rcases register_run run with ⟨_, _, rfl⟩ | ⟨sockets, hput, hrest⟩
    · exact Or.inl rfl
    rcases hrest with ⟨_, _, rfl⟩ | ⟨_, _, hnone, _⟩
    · exact Or.inr (.register hput)
    · cases hnone
  | unregister run =>
    rcases mapCall_orReturn_run run with ⟨_, _, rfl⟩ | ⟨m₁, hdelete, hrest⟩
    · exact Or.inl rfl
    obtain ⟨queues, hq, rfl⟩ := map_eq_ok hdelete
    rcases mapCall_orReturn_run hrest with ⟨_, _, rfl⟩ | ⟨_, _, hret⟩
    · exact Or.inr (.unregister hq)
    · cases hret

def attachedOne : State ℕ (ArrayMap 1) (XskMap 1) := ⟨fun _ => some 1, newMaps 1⟩

def attachTwo : Operation ℕ := .attach 0 2 ⟨none, none, [], none, some .EBUSY⟩

lemma attachTwo_returns : attachTwo.Returns attachedOne (some ⟨"", .EBUSY⟩)
    { attachedOne with links := Function.update attachedOne.links 0 none } := by
  apply Operation.Returns.attach
  rfl

theorem failed_operation_attach :
    { attachedOne with links := Function.update attachedOne.links 0 none } = attachedOne ∨
      attachTwo.FirstUpdate attachedOne
        { attachedOne with links := Function.update attachedOne.links 0 none } :=
  failed_operation attachTwo_returns

def registerHalf : Operation ℕ := .register 0 3 none (some .EPERM)

lemma registerHalf_returns :
    registerHalf.Returns attachedOne (some ⟨"failed to update qidconfMap: ", .EPERM⟩)
      { attachedOne with maps := ⟨ArrayMap.new 1, ⟨#v[some 3]⟩⟩ } := by
  apply Operation.Returns.register
  rfl

/-- The interface is left without a program, and the queue with a socket it did not have. -/
theorem operations_not_atomic :
    (¬ ∀ (s s' : State ℕ (ArrayMap 1) (XskMap 1)) (e : GoError),
      attachTwo.Returns s (some e) s' → s' = s) ∧
    ¬ ∀ (s s' : State ℕ (ArrayMap 1) (XskMap 1)) (e : GoError),
      registerHalf.Returns s (some e) s' → s' = s := by
  constructor
  · intro hall
    have hlinks := congrArg (fun s => s.links 0) (hall _ _ _ attachTwo_returns)
    simp [attachedOne] at hlinks
  · intro hall
    have hsockets := congrArg (fun s => s.maps.Sockets) (hall _ _ _ registerHalf_returns)
    exact absurd hsockets (by decide)

end Defrizer.ProgramRegistration
