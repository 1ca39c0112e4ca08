import Defrizer.ProgramResources
import Defrizer.SharedInterface

/-!
# The main functions

What the `main` functions of `dumpframes` and of `perf_event` leave behind. Both find their
interface, create a program and attach it in the same way, and both give back what they took in
deferred calls, which run on every return and on a panic and whose errors are dropped.
-/
namespace Defrizer.MainFunctions
open InterleavedProgram KernelMaps ProgramRegistration ProgramResources

inductive Exit
  | returned (message : String) (cause : Option Errno)
  | panicked (cause : Option Errno)
  deriving DecidableEq, Repr

/-- Code that changes a `τ`; nothing if it never returns. -/
abbrev Body (τ : Type) := τ → Option (Exit × τ)

/-- `body` after `defer call()`. -/
def deferring {τ : Type} (call : τ → Option τ) (body : Body τ) : Body τ := fun s =>
  (body s).bind fun (exit, s) => (call s).map fun s => (exit, s)

structure Interface where
  Name : String
  Index : ℤ

/-- The index of the first interface of that name, and -1 if there is none. -/
def findInterface (linkName : String) : List Interface → ℤ
  | [] => -1
  | iface :: interfaces =>
    if iface.Name = linkName then iface.Index else findInterface linkName interfaces

/-- What the `main` functions use of their `Program` type, with the objects it is made of. -/
class KernelProgram (P : Type) (T : outParam Type) where
  objects : T → List ℕ
  new : Option Errno → Loader T → Kernel → Except ProgramError P × Kernel
  code : P → Option ℕ
  close : CloseFaults → P → Kernel → Kernel

instance : KernelProgram XdpProgram TcpsynObjects where
  objects := TcpsynObjects.objects
  new := newTCPSynProgram
  code p := p.Program
  close fails p k := (p.close fails k).2.2

instance : KernelProgram EventProgram EventObjects where
  objects := EventObjects.objects
  new := EventProgram.newTCPSynProgram
  code p := p.Program
  close fails p k := (p.close fails k).2.2

/-- How the calls go that both `main` functions make. -/
structure Calls (T : Type) where
  interfaces : Except Errno (List Interface)
  load : Option Errno
  loadAndAssign : Loader T
  attach : LinkFaults
  detach : LinkFaults
  close : CloseFaults

/-- The programs on the interfaces, the eBPF objects, and what else `main` takes. -/
structure World (σ : Type) where
  links : Links ℕ
  objects : Kernel
  own : σ

section Frame
variable {σ P T : Type} [KernelProgram P T]

def withOwn (listen : Body σ) : Body (World σ) := fun w =>
  (listen w.own).map fun (exit, own) => (exit, { w with own })

def detaching (Ifindex : ℤ) (faults : LinkFaults) (w : World σ) : Option (World σ) :=
  ((detach Ifindex faults).run w.links).map fun (_, links) => { w with links }

def closing (program : P) (fails : CloseFaults) (w : World σ) : Option (World σ) :=
  some { w with objects := KernelProgram.close fails program w.objects }

/-- From `Attach` on. `NewTCPSynProgram` returns no program without code, whose `FD` panics. -/
def attaching (c : Calls T) (Ifindex : ℤ) (program : P) (listen : Body σ) : Body (World σ) :=
  fun w => match KernelProgram.code program with
    | none => some (.panicked none, w)
    | some code => ((attach Ifindex code c.attach).run w.links).bind fun
      | (some e, links) =>
        some (.returned ("error: failed to attach xdp program to interface: " ++ e.context)
          (some e.cause), { w with links })
      | (none, links) => deferring (detaching Ifindex c.detach) (withOwn listen) { w with links }

/-- What the `main` functions have in common; they differ in `listen`. -/
def onInterface (P : Type) [KernelProgram P T] (c : Calls T) (linkName : String)
    (listen : Body σ) : Body (World σ) := fun w =>
  match c.interfaces with
  | .error e => some (.returned
      "error: failed to fetch the list of network interfaces on the system: " (some e), w)
  | .ok interfaces =>
    let Ifindex := findInterface linkName interfaces
    if Ifindex = -1 then
      some (.returned "error: couldn't find a suitable network interface to attach to" none, w)
    else match (KernelProgram.new c.load c.loadAndAssign w.objects :
        Except ProgramError P × Kernel) with
      | (.error e, objects) =>
        some (.returned ("error: failed to create xdp program: " ++ e.text) e.cause,
          { w with objects })
      | (.ok program, objects) =>
        deferring (closing program c.close) (attaching c Ifindex program listen)
          { w with objects }

end Frame

/-- `removeProgram` gets so far that it removes a program, if there is one. -/
def Removes (faults : LinkFaults) : Prop := faults.findOld = none ∧ faults.remove = none

/-- `Attach` succeeds on an interface without a program. -/
def Attaches (faults : LinkFaults) : Prop :=
  faults.findOld = none ∧ faults.findNew = none ∧ faults.attach = none

section Links
variable {i : ℤ} {links : Links ℕ}

lemma waitRemoved_returns (queries : List (Option Errno)) (h : links i = none) :
    ∃ err, (waitRemoved i queries).run links = some (err, links) := by
  induction queries with
  | nil => exact ⟨none, by simp [waitRemoved, isXdpAttached, h]⟩
  | cons query queries ih =>
    cases query with
    | some e => exact ⟨some ⟨"", e⟩, rfl⟩
    | none => exact ih

lemma removeProgram_empty (faults : LinkFaults) (h : links i = none) :
    (removeProgram i faults).run links =
      some (faults.findOld.map fun e => ⟨"", e⟩, links) := by
  cases hfind : faults.findOld <;> simp [removeProgram, linkByIndex, onLink, isXdpAttached, hfind, h]

/-- Without interference `removeProgram` returns, and has removed the program unless one of its
first two calls failed. -/
lemma removeProgram_attached (faults : LinkFaults) (h : links i ≠ none) :
    ∃ err links', (removeProgram i faults).run links = some (err, links') ∧
      (Removes faults ∧ links' = Function.update links i none ∨
        ¬ Removes faults ∧ err ≠ none ∧ links' = links) := by
  obtain ⟨p, hp⟩ := Option.ne_none_iff_exists'.mp h
  cases hfind : faults.findOld with
  | some e =>
    refine ⟨some ⟨"", e⟩, links, ?_, Or.inr ⟨by simp [Removes, hfind], by simp, rfl⟩⟩
    simp [removeProgram, linkByIndex, onLink, hfind]
  | none =>
    cases hremove : faults.remove with
    | some e =>
      refine ⟨some ⟨"netlink.LinkSetXdpFd(link, -1) failed: ", e⟩, links, ?_,
        Or.inr ⟨by simp [Removes, hremove], by simp, rfl⟩⟩
      simp [removeProgram, linkByIndex, linkSetXdpFd, onLink, isXdpAttached, hfind, hremove, hp]
    | none =>
      obtain ⟨err, hwait⟩ := waitRemoved_returns faults.queries (Function.update_self i none links)
      refine ⟨err, _, ?_, Or.inl ⟨⟨hfind, hremove⟩, rfl⟩⟩
      simpa [removeProgram, linkByIndex, linkSetXdpFd, onLink, isXdpAttached, hfind, hremove, hp]
        using hwait

lemma attachProgram_returns (i : ℤ) (code : ℕ) (faults : LinkFaults) (links : Links ℕ) :
    ∃ err links', (attachProgram i code faults).run links = some (err, links') ∧
      (err = none ∧ links' = Function.update links i (some code) ∨ err ≠ none ∧ links' = links) ∧
      (err = none ↔ faults.findNew = none ∧ faults.attach = none) := by
  cases hfind : faults.findNew with
  | some e =>
    refine ⟨some ⟨"", e⟩, links, ?_, Or.inr ⟨by simp, rfl⟩, by simp⟩
    simp [attachProgram, linkByIndex, onLink, hfind]
  | none =>
    cases hattach : faults.attach with
    | some e =>
      refine ⟨some ⟨"", e⟩, links, ?_, Or.inr ⟨by simp, rfl⟩, by simp⟩
      simp [attachProgram, linkByIndex, linkSetXdpFd, onLink, hfind, hattach]
    | none =>
      refine ⟨none, _, ?_, Or.inl ⟨rfl, rfl⟩, by simp⟩
      simp [attachProgram, linkByIndex, linkSetXdpFd, onLink, hfind, hattach]

/-- `Attach` on an interface without a program. -/
lemma attach_empty (code : ℕ) (faults : LinkFaults) (h : links i = none) :
    ∃ err links', (attach i code faults).run links = some (err, links') ∧
      (Attaches faults ∧ err = none ∧ links' = Function.update links i (some code) ∨
        ¬ Attaches faults ∧ err ≠ none ∧ links' = links) := by
  obtain ⟨err, links', hrun, hlinks, hnone⟩ := attachProgram_returns i code faults links
  cases hfind : faults.findOld with
  | some e =>
    refine ⟨some ⟨"", e⟩, links, ?_, Or.inr ⟨by simp [Attaches, hfind], by simp, rfl⟩⟩
    simp [attach, removeProgram_empty faults h, hfind]
  | none =>
    refine ⟨err, links', ?_, ?_⟩
    · simpa [attach, removeProgram_empty faults h, hfind] using hrun
    rcases hlinks with ⟨herr, hlinks⟩ | ⟨herr, hlinks⟩
    · exact Or.inl ⟨⟨hfind, hnone.mp herr⟩, herr, hlinks⟩
    · exact Or.inr ⟨fun hattaches => herr (hnone.mpr hattaches.2), herr, hlinks⟩

/-- `Attach` on an interface with a program, which it either leaves alone or takes away. -/
lemma attach_attached (code : ℕ) (faults : LinkFaults) (h : links i ≠ none) :
    ∃ err links', (attach i code faults).run links = some (err, links') ∧
      (err = none ∧ Removes faults ∧ links' i = some code ∨
        err ≠ none ∧ Removes faults ∧ links' i = none ∨
        err ≠ none ∧ ¬ Removes faults ∧ links' = links) := by
  obtain ⟨err₁, links₁, hremove, hlinks₁⟩ := removeProgram_attached faults h
  cases err₁ with
  | some e =>
    refine ⟨some e, links₁, by simp [attach, hremove], Or.inr ?_⟩
    rcases hlinks₁ with ⟨hremoves, rfl⟩ | ⟨hleft, hne, hlinks⟩
    · exact Or.inl ⟨by simp, hremoves, by simp⟩
    · exact Or.inr ⟨hne, hleft, hlinks⟩
  | none =>
    rcases hlinks₁ with ⟨hremoves, rfl⟩ | ⟨_, hne, _⟩
    · obtain ⟨err, links', hrun, hlinks', _⟩ := attachProgram_returns i code faults
        (Function.update links i none)
      refine ⟨err, links', by simpa [attach, hremove] using hrun, ?_⟩
      rcases hlinks' with ⟨herr, rfl⟩ | ⟨herr, rfl⟩
      · exact Or.inl ⟨herr, hremoves, by simp⟩
      · exact Or.inr (Or.inl ⟨herr, hremoves, by simp⟩)
    · exact absurd rfl hne

end Links

/-- `main` has ended by itself. -/
def Exit.Regular (exit : Exit) : Prop := ∃ message cause, exit = .returned message cause

/-- No interface has changed, no object is new or gone, and nothing else is taken. -/
def Restored {σ : Type} (before w : World σ) : Prop :=
  w.links = before.links ∧ w.objects.live = before.objects.live ∧ w.own = before.own

section Undoing
variable {σ P T : Type} [KernelProgram P T] {c : Calls T} {i : ℤ} {listen : Body σ} {w : World σ}

/-- What `Attach` and then `Detach` make of an interface, if what is in between succeeds in
`Undo`: an empty one is empty again unless `Detach` fails, and a program it had is taken away. -/
def Undone (c : Calls T) (links : Links ℕ) (i : ℤ) (Undo : Prop) : Prop :=
  (links i = none → Attaches c.attach → Removes c.detach ∧ Undo) ∧
    (links i ≠ none → ¬ Removes c.attach)

/-- `Detach` runs on an interface with a program, and on all that `listen` leaves. -/
lemma attached_detached (c : Calls T) (w : World σ) (listen : Body σ) {links : Links ℕ}
    (hlinks : links i ≠ none) :
    ∃ links', deferring (detaching i c.detach) (withOwn listen) { w with links } =
        (listen w.own).map (fun (exit, own) => (exit, ⟨links', w.objects, own⟩)) ∧
      (Removes c.detach ∧ links' = Function.update links i none ∨
        ¬ Removes c.detach ∧ links' = links) := by
  obtain ⟨err, links', hremove, hlinks'⟩ := removeProgram_attached c.detach hlinks
  refine ⟨links', ?_, hlinks'.imp id fun h => ⟨h.1, h.2.2⟩⟩
  cases hlisten : listen w.own with
  | none => simp [deferring, withOwn, hlisten]
  | some r => simp [deferring, withOwn, hlisten, detaching, detach, hremove]

/-- `main` returns an error of `Attach`, or it runs `listen` and then detaches. -/
lemma attaching_undone (c : Calls T) (w : World σ) (listen : Body σ) {program : P} {code : ℕ}
    (hcode : KernelProgram.code program = some code) (hnew : w.links i ≠ some code) :
    ∃ links', ((∃ exit, exit.Regular ∧
        attaching c i program listen w = some (exit, { w with links := links' })) ∧
        ∀ Undo, (links' = w.links ↔ Undone c w.links i Undo)) ∨
      (attaching c i program listen w =
          (listen w.own).map (fun (exit, own) => (exit, ⟨links', w.objects, own⟩)) ∧
        ∀ Undo, (links' = w.links ∧ Undo ↔ Undone c w.links i Undo)) := by
  have hreturned : ∀ e links, (attach i code c.attach).run w.links = some (some e, links) →
      ∃ exit, exit.Regular ∧ attaching c i program listen w = some (exit, { w with links }) := by
    intro e links hrun
    refine ⟨.returned ("error: failed to attach xdp program to interface: " ++ e.context)
      (some e.cause), ⟨_, _, rfl⟩, ?_⟩
    simp [attaching, hcode, hrun]
  have hdeferred : ∀ links, (attach i code c.attach).run w.links = some (none, links) →
      attaching c i program listen w =
        deferring (detaching i c.detach) (withOwn listen) { w with links } := by
    intro links hrun
    simp [attaching, hcode, hrun]
  by_cases hempty : w.links i = none
  · obtain ⟨err, links, hrun, hlinks⟩ := attach_empty code c.attach hempty
    rcases hlinks with ⟨hattaches, rfl, rfl⟩ | ⟨hfails, herr, rfl⟩
    · have hattached : Function.update w.links i (some code) i ≠ none := by simp
      obtain ⟨links', hbody, hlinks'⟩ := attached_detached c w listen hattached
      refine ⟨links', Or.inr ⟨(hdeferred _ hrun).trans hbody, fun Undo => ?_⟩⟩
      rcases hlinks' with ⟨hremoves, rfl⟩ | ⟨hstays, rfl⟩
      · have hback : Function.update (Function.update w.links i (some code)) i none = w.links := by
          rw [Function.update_idem, ← hempty, Function.update_eq_self]
        simp [Undone, hempty, hattaches, hremoves, hback]
      · have hne : Function.update w.links i (some code) ≠ w.links := by
          intro h
          have hi := congrFun h i
          simp [hempty] at hi
        simp [Undone, hempty, hattaches, hstays, hne]
    · obtain ⟨e, rfl⟩ := Option.ne_none_iff_exists'.mp herr
      refine ⟨_, Or.inl ⟨hreturned e _ hrun, fun Undo => ?_⟩⟩
      simp [Undone, hempty, hfails]
  · obtain ⟨err, links, hrun, hlinks⟩ := attach_attached code c.attach hempty
    rcases hlinks with ⟨rfl, hremoves, hown⟩ | ⟨herr, hremoves, hnone⟩ | ⟨herr, hleft, rfl⟩
    · have hattached : links i ≠ none := by simp [hown]
      obtain ⟨links', hbody, hlinks'⟩ := attached_detached c w listen hattached
      refine ⟨links', Or.inr ⟨(hdeferred _ hrun).trans hbody, fun Undo => ?_⟩⟩
      have hne : links' ≠ w.links := by
        intro h
        have hi := congrFun h i
        rcases hlinks' with ⟨_, rfl⟩ | ⟨_, rfl⟩
        · rw [Function.update_self] at hi
          exact hempty hi.symm
        · exact hnew (hi.symm.trans hown)
      simp [Undone, hempty, hremoves, hne]
    · obtain ⟨e, rfl⟩ := Option.ne_none_iff_exists'.mp herr
      refine ⟨_, Or.inl ⟨hreturned e _ hrun, fun Undo => ?_⟩⟩
      have hne : links ≠ w.links := by
        rintro rfl
        exact hempty hnone
      simp [Undone, hempty, hremoves, hne]
    · obtain ⟨e, rfl⟩ := Option.ne_none_iff_exists'.mp herr
      refine ⟨_, Or.inl ⟨hreturned e _ hrun, fun Undo => ?_⟩⟩
      simp only [Undone, hempty, hleft]
      simp

def Calls.Ifindex (c : Calls T) (linkName : String) : ℤ :=
  match c.interfaces with
  | .error _ => -1
  | .ok interfaces => findInterface linkName interfaces

/-- `NewTCPSynProgram` fails when the library does. Else its program consists of what was loaded,
and `Close` closes that. -/
class LawfulProgram (P T : Type) [KernelProgram P T] : Prop where
  new_load : ∀ (e : Errno) (loadAndAssign : Loader T) (k : Kernel), ∃ err,
    (KernelProgram.new (some e) loadAndAssign k : Except ProgramError P × Kernel) = (.error err, k)
  new_error : ∀ {loadAndAssign : Loader T} {k k' : Kernel} {e : Errno},
    loadAndAssign k = (.error e, k') → ∃ err,
      (KernelProgram.new none loadAndAssign k : Except ProgramError P × Kernel) = (.error err, k')
  new_ok : ∀ {loadAndAssign : Loader T} {k k' : Kernel} {assigned : T},
    LawfulLoader (KernelProgram.objects P) loadAndAssign →
      loadAndAssign k = (.ok assigned, k') → ∃ (program : P) (code : ℕ),
        KernelProgram.new none loadAndAssign k = (.ok program, k') ∧
        KernelProgram.code program = some code ∧ code ∈ KernelProgram.objects P assigned ∧
        ∀ fails, (KernelProgram.close fails program k').live = k.live ↔
          ∀ x ∈ KernelProgram.objects P assigned, fails x = none

/-- When everything is given back: no interface was found, no program was created, or it could be
closed and the rest was undone. -/
def GivenBack (P : Type) [KernelProgram P T] (c : Calls T) (linkName : String) (w : World σ)
    (Undo : Prop) : Prop :=
  c.Ifindex linkName = -1 ∨ c.load.isSome ∨
    ∀ assigned, (c.loadAndAssign w.objects).1 = .ok assigned →
      (∀ x ∈ KernelProgram.objects P assigned, c.close x = none) ∧
        Undone c w.links (c.Ifindex linkName) Undo

/-- Code with `listen` in it ends when that does. However it ends, it has returned by itself or
with `listen`, and it has given everything back exactly if `Back`. -/
structure EndsWith (listen : Body σ) (w : World σ) (Back : Prop)
    (r : Option (Exit × World σ)) : Prop where
  ends : (listen w.own).isSome → r.isSome
  exits : ∀ {exit w'}, r = some (exit, w') → exit.Regular ∨ ∃ own, listen w.own = some (exit, own)
  restored : ∀ {exit w'}, r = some (exit, w') → (Restored w w' ↔ Back)

lemma EndsWith.returned {Back : Prop} {exit : Exit} {w' : World σ} (hregular : exit.Regular)
    (hback : Restored w w' ↔ Back) : EndsWith listen w Back (some (exit, w')) where
  ends _ := rfl
  exits h := by
    cases h
    exact .inl hregular
  restored h := by
    cases h
    exact hback

lemma EndsWith.listened {Back : Prop} (leave : σ → World σ)
    (hback : ∀ exit own, listen w.own = some (exit, own) → (Restored w (leave own) ↔ Back)) :
    EndsWith listen w Back ((listen w.own).map fun (exit, own) => (exit, leave own)) where
  ends h := by rwa [Option.isSome_map]
  exits h := by
    obtain ⟨⟨exit, own⟩, hown, heq⟩ := Option.map_eq_some_iff.mp h
    cases heq
    exact .inr ⟨own, hown⟩
  restored h := by
    obtain ⟨⟨exit, own⟩, hown, heq⟩ := Option.map_eq_some_iff.mp h
    cases heq
    exact hback _ _ hown

lemma onInterface_restored [LawfulProgram P T] (c : Calls T) (linkName : String) {Undo : Prop}
    (lawful : LawfulLoader (KernelProgram.objects P) c.loadAndAssign)
    (older : ∀ i p, w.links i = some p → p < w.objects.next)
    (hlisten : ∀ exit own, listen w.own = some (exit, own) → (own = w.own ↔ Undo)) :
    EndsWith listen w (GivenBack P c linkName w Undo) (onInterface P c linkName listen w) := by
  unfold onInterface
  cases hinterfaces : c.interfaces with
  | error e =>
    refine .returned ⟨_, _, rfl⟩ ?_
    simp [Restored, GivenBack, Calls.Ifindex, hinterfaces]
  | ok interfaces =>
    have hIfindex : c.Ifindex linkName = findInterface linkName interfaces := by
      simp [Calls.Ifindex, hinterfaces]
    by_cases hfound : findInterface linkName interfaces = -1
    · simp only [hfound, if_true]
      refine .returned ⟨_, _, rfl⟩ ?_
      simp [Restored, GivenBack, hIfindex, hfound]
    simp only [hfound, if_false]
    cases hload : c.load with
    | some e =>
      obtain ⟨err, hnew⟩ := LawfulProgram.new_load (P := P) e c.loadAndAssign w.objects
      rw [hnew]
      refine .returned ⟨_, _, rfl⟩ ?_
      simp [Restored, GivenBack, hload]
    | none =>
      obtain ⟨r, objects, hassign⟩ : ∃ r objects, c.loadAndAssign w.objects = (r, objects) :=
        ⟨_, _, rfl⟩
      cases r with
      | error e =>
        obtain ⟨err, hnew⟩ := LawfulProgram.new_error (P := P) hassign
        rw [hnew]
        refine .returned ⟨_, _, rfl⟩ ?_
        simp [Restored, GivenBack, hassign, lawful.error hassign]
      | ok assigned =>
        obtain ⟨program, code, hnew, hcode, hmem, hclose⟩ := LawfulProgram.new_ok lawful hassign
        rw [hnew]
        have hother : w.links (findInterface linkName interfaces) ≠ some code :=
          fun h => absurd (lawful.new hassign code hmem) (not_le.mpr (older _ _ h))
        have hback : GivenBack P c linkName w Undo ↔
            (∀ x ∈ KernelProgram.objects P assigned, c.close x = none) ∧
              Undone c w.links (findInterface linkName interfaces) Undo := by
          simp [GivenBack, hIfindex, hfound, hload, hassign]
        obtain ⟨links', ⟨⟨exit, hregular, hrun⟩, hundone⟩ | ⟨hrun, hundone⟩⟩ :=
          attaching_undone c { w with objects } listen hcode hother
        · simp only [deferring, hrun, closing, Option.bind_some, Option.map_some]
          refine .returned hregular ?_
          simp only [Restored, and_true]
          rw [hclose, hback, ← hundone, and_comm]
        · have hmain : deferring (closing program c.close)
              (attaching c (findInterface linkName interfaces) program listen) { w with objects } =
              (listen w.own).map fun (exit, own) =>
                (exit, ⟨links', KernelProgram.close c.close program objects, own⟩) := by
            cases hown : listen w.own <;> simp [deferring, closing, hrun, hown]
          change EndsWith listen w _ (deferring (closing program c.close) _ _)
          rw [hmain]
          refine .listened (fun own => ⟨links', _, own⟩) fun exit own hown => ?_
          simp only [Restored]
          rw [hclose, hlisten exit own hown, hback, ← hundone, and_left_comm]

end Undoing

instance : LawfulProgram XdpProgram TcpsynObjects where
  new_load e loadAndAssign k := ⟨_, rfl⟩
  new_error {_ _ _ e} hassign :=
    ⟨⟨"", some e⟩, by simp [KernelProgram.new, newTCPSynProgram, hassign]⟩
  new_ok {loadAndAssign k k' assigned} lawful hassign :=
    ⟨⟨some assigned.XdpSockProg, some assigned.QidconfMap, some assigned.XsksMap⟩,
      assigned.XdpSockProg, by simp [KernelProgram.new, newTCPSynProgram, hassign], rfl,
      List.mem_cons_self, newTCPSynProgram_closed lawful hassign⟩

instance : LawfulProgram EventProgram EventObjects where
  new_load e loadAndAssign k := ⟨_, rfl⟩
  new_error {_ _ _ e} hassign :=
    ⟨⟨"", some e⟩, by simp [KernelProgram.new, EventProgram.newTCPSynProgram, hassign]⟩
  new_ok {loadAndAssign k k' assigned} lawful hassign :=
    ⟨⟨some assigned.PerfEventTest, some assigned.Events⟩, assigned.PerfEventTest,
      by simp [KernelProgram.new, EventProgram.newTCPSynProgram, hassign], rfl,
      List.mem_cons_self, EventProgram.newTCPSynProgram_closed lawful hassign⟩

section PerfEvent

/-- How the calls of the `main` of `perf_event` go that the other one does not make. `reads` are
the results of `Read`, each an error or a record that is printed; once they are used up `Read`
waits for ever. -/
structure Reader where
  removeMemlock : Option Errno
  newReader : Option Errno
  reads : List (Option Errno)
  close : Option Errno

/-- The loop of `main`, which ends at the first error. -/
def readLoop : List (Option Errno) → Body ℕ
  | [], _ => none
  | some err :: _, readers => some (.panicked (some err), readers)
  | none :: reads, readers => readLoop reads readers

/-- From `NewReader` on, over the number of open readers. -/
def reading (a : Reader) : Body ℕ := fun readers => match a.newReader with
  | some e => some (.panicked (some e), readers)
  | none => deferring (fun readers => some (if a.close.isSome then readers else readers - 1))
      (readLoop a.reads) (readers + 1)

/-- `main` of `perf_event`. `log.Fatal` ends the process, with nothing deferred yet. -/
def eventMain (linkName : String) (c : Calls EventObjects) (a : Reader) (w : World ℕ) :
    Option ((Errno ⊕ Exit) × World ℕ) :=
  match a.removeMemlock with
  | some e => some (.inl e, w)
  | none => (onInterface EventProgram c linkName (reading a) w).map fun (exit, w) => (.inr exit, w)

lemma readLoop_ends (reads : List (Option Errno)) (readers : ℕ) :
    ((readLoop reads readers).isSome ↔ ∃ err, some err ∈ reads) ∧
      ∀ exit readers', readLoop reads readers = some (exit, readers') → readers' = readers := by
  induction reads with
  | nil => simp [readLoop]
  | cons read reads ih =>
    cases read with
    | some err => simp [readLoop]
    | none => simpa [readLoop] using ih

lemma reading_restored (a : Reader) (readers : ℕ) :
    ((reading a readers).isSome ↔ a.newReader.isSome ∨ ∃ err, some err ∈ a.reads) ∧
      ∀ exit readers', reading a readers = some (exit, readers') →
        (readers' = readers ↔ a.newReader.isSome ∨ a.close = none) := by
  unfold reading
  cases a.newReader with
  | some e => simp
  | none =>
    obtain ⟨hends, hsame⟩ := readLoop_ends a.reads (readers + 1)
    cases hloop : readLoop a.reads (readers + 1) with
    | none =>
      rw [hloop] at hends
      simpa [deferring, hloop] using hends
    | some r =>
      obtain ⟨exit, readers'⟩ := r
      rw [hloop] at hends
      have hreaders : readers' = readers + 1 := hsame _ _ hloop
      subst hreaders
      refine ⟨by simpa [deferring, hloop] using hends, fun exit' readers'' h => ?_⟩
      simp only [deferring, hloop, Option.bind_some, Option.map_some, Option.some.injEq,
        Prod.mk.injEq] at h
      obtain ⟨-, rfl⟩ := h
      cases a.close <;> simp

/-- The `main` of `perf_event` ends if a read fails. However it ends, it has given everything back
under the conditions of the other one, only that it closes what it reads from. -/
theorem eventMain_restored_iff (linkName : String) (c : Calls EventObjects) (a : Reader)
    (w : World ℕ) (lawful : LawfulLoader EventObjects.objects c.loadAndAssign)
    (older : ∀ i p, w.links i = some p → p < w.objects.next) :
    ((∃ err, some err ∈ a.reads) → (eventMain linkName c a w).isSome) ∧
    ∀ exit w', eventMain linkName c a w = some (exit, w') →
      (Restored w w' ↔ a.removeMemlock.isSome ∨
        GivenBack EventProgram c linkName w (a.newReader.isSome ∨ a.close = none)) := by
  unfold eventMain
  cases a.removeMemlock with
  | some e => simp [Restored]
  | none =>
    obtain ⟨hends, hreaders⟩ := reading_restored a w.own
    have hmain := onInterface_restored (P := EventProgram) c linkName lawful older hreaders
    refine ⟨fun hread => ?_, fun exit w' h => ?_⟩
    · simpa using hmain.ends (hends.mpr (.inr hread))
    · obtain ⟨⟨exit', w''⟩, hrun, heq⟩ := Option.map_eq_some_iff.mp h
      cases heq
      simpa using hmain.restored hrun

/-- The loopback interface without a program, and no kernel objects yet. -/
def idleWorld {σ : Type} (own : σ) : World σ := ⟨fun _ => none, noObjects, own⟩

def smoothCalls {T : Type} (loadAndAssign : Loader T) : Calls T :=
  ⟨.ok [⟨"lo", 1⟩], none, loadAndAssign, noLinkFaults, noLinkFaults, fun _ => none⟩

/-- What `LoadAndAssign` does with the object file of `perf_event`. -/
def assignEvents : Loader EventObjects := fun k =>
  let (events, k) := k.create
  let (perfEventTest, k) := k.create
  (.ok ⟨perfEventTest, events⟩, k)

lemma assignEvents_lawful : LawfulLoader EventObjects.objects assignEvents := by
  refine .of_created fun k => ⟨_, _, rfl, fun x => ?_, ?_, ?_⟩
  · simp [EventObjects.objects]
    tauto
  · simp [EventObjects.objects]
  · simp [EventObjects.objects]

/-- Here two records are printed, and nothing is left behind. -/
theorem eventMain_restored_iff_lo : ∃ w exit,
    eventMain "lo" (smoothCalls assignEvents) ⟨none, none, [none, none, some .EINVAL], none⟩
      (idleWorld 0) = some (exit, w) ∧ Restored (idleWorld 0) w := by
  obtain ⟨hends, hrestored⟩ := eventMain_restored_iff "lo" (smoothCalls assignEvents)
    ⟨none, none, [none, none, some .EINVAL], none⟩ (idleWorld 0) assignEvents_lawful
    (by simp [idleWorld])
  obtain ⟨⟨exit, w⟩, hrun⟩ := Option.isSome_iff_exists.mp (hends ⟨.EINVAL, by simp⟩)
  refine ⟨w, exit, hrun, (hrestored exit w hrun).mpr (.inr (.inr (.inr fun assigned _ => ?_)))⟩
  exact ⟨fun _ _ => rfl, fun _ _ => ⟨⟨rfl, rfl⟩, .inr rfl⟩, fun h => absurd rfl h⟩

end PerfEvent

end Defrizer.MainFunctions
