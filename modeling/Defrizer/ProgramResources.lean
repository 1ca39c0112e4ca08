import Defrizer.KernelMaps

/-!
# The objects a program takes from the kernel

`NewProgram`, `LoadProgram` and `NewTCPSynProgram`, which create eBPF maps and programs, and
`Close`. What a function that returns an error has created before is closed by no call: its
descriptors are left to the finalizers of the library, which no function here can rely on. How the
library loads a collection is a parameter.
-/
namespace Defrizer.ProgramResources
open KernelMaps

/-- The objects that were created and that no call has closed, and the number the next one
gets. -/
structure Kernel where
  live : Finset ℕ
  next : ℕ
  fresh : ∀ x ∈ live, x < next

def Kernel.create (k : Kernel) : ℕ × Kernel :=
  (k.next, ⟨insert k.next k.live, k.next + 1, fun x hx => by
    rcases Finset.mem_insert.mp hx with rfl | hx
    · exact Nat.lt_succ_self _
    · exact Nat.lt_succ_of_lt (k.fresh x hx)⟩)

def Kernel.close (k : Kernel) (x : ℕ) : Kernel :=
  ⟨k.live.erase x, k.next, fun y hy => k.fresh y (Finset.mem_of_mem_erase hy)⟩

@[simp] lemma Kernel.close_live (k : Kernel) (x : ℕ) : (k.close x).live = k.live.erase x := rfl

@[simp] lemma Kernel.create_live (k : Kernel) : k.create.2.live = insert k.next k.live := rfl

@[simp] lemma Kernel.create_next (k : Kernel) : k.create.2.next = k.next + 1 := rfl

lemma Kernel.next_notMem (k : Kernel) : k.next ∉ k.live :=
  fun h => (k.fresh _ h).false

structure ProgramError where
  text : String
  cause : Option Errno
  deriving DecidableEq, Repr

/-- Which objects cannot be closed, and why. -/
abbrev CloseFaults := ℕ → Option Errno

/-- Closes the fields that are not `nil`, and goes on after an error. -/
def closeFields (fails : CloseFaults) :
    List (String × Option ℕ) → Kernel → List ProgramError × Kernel
  | [], k => ([], k)
  | (_, none) :: fields, k => closeFields fails fields k
  | (context, some x) :: fields, k => match fails x with
    | some e =>
      let (allErrors, k) := closeFields fails fields k
      (⟨context, some e⟩ :: allErrors, k)
    | none => closeFields fails fields (k.close x)

/-- The `Program` of `dumpframes`. -/
structure XdpProgram where
  Program : Option ℕ
  Queues : Option ℕ
  Sockets : Option ℕ
  deriving DecidableEq

def XdpProgram.fields (p : XdpProgram) : List (String × Option ℕ) :=
  [("failed to close xsksMap: ", p.Sockets), ("failed to close qidconfMap: ", p.Queues),
    ("failed to close XDP program: ", p.Program)]

def XdpProgram.close (p : XdpProgram) (fails : CloseFaults) (k : Kernel) :
    Option ProgramError × XdpProgram × Kernel :=
  let (allErrors, k) := closeFields fails p.fields k
  (allErrors.head?, ⟨none, none, none⟩, k)

/-- The `Program` of `perf_event`, whose `Close` still speaks of the map it has no more. -/
structure EventProgram where
  Program : Option ℕ
  Events : Option ℕ
  deriving DecidableEq

def EventProgram.fields (p : EventProgram) : List (String × Option ℕ) :=
  [("failed to close xsksMap: ", p.Events), ("failed to close XDP program: ", p.Program)]

def EventProgram.close (p : EventProgram) (fails : CloseFaults) (k : Kernel) :
    Option ProgramError × EventProgram × Kernel :=
  let (allErrors, k) := closeFields fails p.fields k
  (allErrors.head?, ⟨none, none⟩, k)

/-- `_TcpsynClose` of the generated code, which stops at the first error. -/
def tcpsynClose (fails : CloseFaults) : List ℕ → Kernel → Option Errno × Kernel
  | [], k => (none, k)
  | closer :: closers, k => match fails closer with
    | some e => (some e, k)
    | none => tcpsynClose fails closers (k.close closer)

section Closing
variable {fails : CloseFaults} {k : Kernel}

def objects (fields : List (String × Option ℕ)) : List ℕ := fields.filterMap Prod.snd

/-- After `Close` exactly those of the objects are live that failed to close. -/
lemma closeFields_live (fields : List (String × Option ℕ)) (k : Kernel) (x : ℕ) :
    x ∈ (closeFields fails fields k).2.live ↔
      x ∈ k.live ∧ (x ∈ objects fields → fails x ≠ none) := by
  induction fields generalizing k with
  | nil => simp [closeFields, objects]
  | cons field fields ih =>
    obtain ⟨context, y⟩ := field
    cases y with
    | none =>
      rw [closeFields, ih]
      simp [objects]
    | some y =>
      have hobjects : objects ((context, some y) :: fields) = y :: objects fields := rfl
      rw [closeFields, hobjects]
      cases hy : fails y with
      | some e =>
        simp only [ih, List.mem_cons]
        constructor
        · rintro ⟨hlive, h⟩
          refine ⟨hlive, ?_⟩
          rintro (rfl | hx)
          · simp [hy]
          · exact h hx
        · rintro ⟨hlive, h⟩
          exact ⟨hlive, fun hx => h (Or.inr hx)⟩
      | none =>
        simp only [ih, Kernel.close_live, Finset.mem_erase, List.mem_cons]
        constructor
        · rintro ⟨⟨hne, hlive⟩, h⟩
          exact ⟨hlive, fun hx => h (hx.resolve_left hne)⟩
        · rintro ⟨hlive, h⟩
          refine ⟨⟨?_, hlive⟩, fun hx => h (Or.inr hx)⟩
          rintro rfl
          exact h (Or.inl rfl) hy

/-- The generated code leaves all objects live that come after the first failure as well. -/
lemma tcpsynClose_live (closers : List ℕ) (k : Kernel) (x : ℕ) :
    x ∈ (tcpsynClose fails closers k).2.live ↔
      x ∈ k.live ∧ x ∉ closers.takeWhile fun y => (fails y).isNone := by
  induction closers generalizing k with
  | nil => simp [tcpsynClose]
  | cons y closers ih =>
    rw [tcpsynClose]
    cases hy : fails y with
    | some e => simp [hy]
    | none =>
      simp only [ih, Kernel.close_live, Finset.mem_erase, List.takeWhile_cons, hy,
        Option.isNone_none, if_true, List.mem_cons, not_or]
      tauto

lemma XdpProgram.close_live (p : XdpProgram) :
    (p.close fails k).2.2.live = (closeFields fails p.fields k).2.live := rfl

lemma EventProgram.close_live (p : EventProgram) :
    (p.close fails k).2.2.live = (closeFields fails p.fields k).2.live := rfl

/-- `Close` tries every object, whatever happens to the others, and forgets them all: what it
could not close stays, and closing again changes nothing. -/
theorem XdpProgram.close_spec (p : XdpProgram) (fails : CloseFaults) (k : Kernel) :
    (∀ x, x ∈ (p.close fails k).2.2.live ↔
      x ∈ k.live ∧ (x ∈ objects p.fields → fails x ≠ none)) ∧
    ∀ fails', (p.close fails k).2.1.close fails' (p.close fails k).2.2 =
      (none, (p.close fails k).2) :=
  ⟨fun x => closeFields_live p.fields k x, fun _ => rfl⟩

/-- `Close` leaves no object that the generated code would have closed. -/
theorem XdpProgram.close_subset (fails : CloseFaults) (k : Kernel) (program queues sockets : ℕ) :
    (XdpProgram.close ⟨some program, some queues, some sockets⟩ fails k).2.2.live ⊆
      (tcpsynClose fails [program, queues, sockets] k).2.live := by
  intro x hx
  obtain ⟨hlive, hfails⟩ := ((XdpProgram.close_spec _ fails k).1 x).mp hx
  refine (tcpsynClose_live _ k x).mpr ⟨hlive, fun hclosed => ?_⟩
  have hobject : x ∈ objects (XdpProgram.fields ⟨some program, some queues, some sockets⟩) := by
    have hmem := List.takeWhile_subset _ hclosed
    simp only [List.mem_cons, List.not_mem_nil, or_false] at hmem
    simp only [objects, XdpProgram.fields, List.filterMap_cons, List.filterMap_nil, List.mem_cons,
      List.not_mem_nil, or_false]
    tauto
  have hnone := List.mem_takeWhile_imp hclosed
  exact hfails hobject (Option.isNone_iff_eq_none.mp hnone)

theorem EventProgram.close_spec (p : EventProgram) (fails : CloseFaults) (k : Kernel) :
    (∀ x, x ∈ (p.close fails k).2.2.live ↔
      x ∈ k.live ∧ (x ∈ objects p.fields → fails x ≠ none)) ∧
    ∀ fails', (p.close fails k).2.1.close fails' (p.close fails k).2.2 =
      (none, (p.close fails k).2) :=
  ⟨fun x => closeFields_live p.fields k x, fun _ => rfl⟩

end Closing

/-- After an error the same objects are live as before. After a success they are once the
program is closed. -/
def Balanced (fails : CloseFaults) (before : Kernel) :
    Except ProgramError XdpProgram × Kernel → Prop
  | (.error _, k) => k.live = before.live
  | (.ok p, k) => (p.close fails k).2.2.live = before.live

section Creating

/-- A call that creates an object; an error is returned with its text. -/
def orReturn (fault : Option Errno) (context : String)
    (rest : ℕ → Kernel → Except ProgramError XdpProgram × Kernel) (k : Kernel) :
    Except ProgramError XdpProgram × Kernel :=
  match fault with
  | some e => (.error ⟨context, some e⟩, k)
  | none => rest k.create.1 k.create.2

def newProgram (qidconf xsks program : Option Errno) (k : Kernel) :
    Except ProgramError XdpProgram × Kernel :=
  orReturn qidconf "ebpf.NewMap qidconf_map failed (try increasing RLIMIT_MEMLOCK): "
    (fun qidconfMap => orReturn xsks
      "ebpf.NewMap xsks_map failed (try increasing RLIMIT_MEMLOCK): " fun xsksMap =>
        orReturn program "error: ebpf.NewProgram failed: " fun program k =>
          (.ok ⟨some program, some qidconfMap, some xsksMap⟩, k)) k

/-- A function of the library that creates objects. -/
abbrev Loader (α : Type) := Kernel → Except Errno α × Kernel

/-- The `tcpsynObjects` of `dumpframes`. -/
structure TcpsynObjects where
  XdpSockProg : ℕ
  QidconfMap : ℕ
  XsksMap : ℕ
  deriving DecidableEq

def TcpsynObjects.objects (program : TcpsynObjects) : List ℕ :=
  [program.XdpSockProg, program.QidconfMap, program.XsksMap]

def newTCPSynProgram (load : Option Errno) (loadAndAssign : Loader TcpsynObjects) (k : Kernel) :
    Except ProgramError XdpProgram × Kernel :=
  match load with
  | some e => (.error ⟨"can't load tcpsyn: ", some e⟩, k)
  | none => match loadAndAssign k with
    | (.error e, k) => (.error ⟨"", some e⟩, k)
    | (.ok program, k) =>
      (.ok ⟨some program.XdpSockProg, some program.QidconfMap, some program.XsksMap⟩, k)

/-- The `tcpsynObjects` of `perf_event`. -/
structure EventObjects where
  PerfEventTest : ℕ
  Events : ℕ
  deriving DecidableEq

def EventObjects.objects (program : EventObjects) : List ℕ :=
  [program.PerfEventTest, program.Events]

/-- `NewTCPSynProgram` of `perf_event`. -/
def EventProgram.newTCPSynProgram (load : Option Errno) (loadAndAssign : Loader EventObjects)
    (k : Kernel) : Except ProgramError EventProgram × Kernel :=
  match load with
  | some e => (.error ⟨"can't load tcpsyn: ", some e⟩, k)
  | none => match loadAndAssign k with
    | (.error e, k) => (.error ⟨"", some e⟩, k)
    | (.ok program, k) => (.ok ⟨some program.PerfEventTest, some program.Events⟩, k)

/-- An `ebpf.Collection`; a Go map has no key twice. -/
structure Collection where
  Programs : List (String × ℕ)
  Maps : List (String × ℕ)
  programs : (Programs.map Prod.fst).Nodup
  maps : (Maps.map Prod.fst).Nodup

def Collection.objects (col : Collection) : List ℕ :=
  col.Maps.map Prod.snd ++ col.Programs.map Prod.snd

def loadProgram (loadCollection : String → Loader Collection)
    (fname funcname qidmapname xskmapname : String) (k : Kernel) :
    Except ProgramError XdpProgram × Kernel :=
  match loadCollection fname k with
  | (.error e, k) => (.error ⟨"", some e⟩, k)
  | (.ok col, k) => match col.Programs.lookup funcname with
    | none => (.error ⟨fname ++ " doesn't contain a function named " ++ funcname, none⟩, k)
    | some program => match col.Maps.lookup qidmapname with
      | none => (.error ⟨fname ++ " doesn't contain a queue map named " ++ qidmapname, none⟩, k)
      | some queues => match col.Maps.lookup xskmapname with
        | none => (.error ⟨fname ++ " doesn't contain a socket map named " ++ xskmapname, none⟩, k)
        | some sockets => (.ok ⟨some program, some queues, some sockets⟩, k)

/-- What the library promises of a function that loads: an error leaves nothing behind, and a
success has created the objects of its result, each of them new. -/
structure LawfulLoader {α : Type} (objects : α → List ℕ) (load : Loader α) : Prop where
  error : ∀ {k k' e}, load k = (.error e, k') → k'.live = k.live
  live : ∀ {k k' a}, load k = (.ok a, k') → ∀ x, x ∈ k'.live ↔ x ∈ k.live ∨ x ∈ objects a
  new : ∀ {k k' a}, load k = (.ok a, k') → ∀ x ∈ objects a, k.next ≤ x
  distinct : ∀ {k k' a}, load k = (.ok a, k') → (objects a).Nodup

end Creating

section Accounts
variable {fails : CloseFaults} {k : Kernel}

/-- After `Close` as many objects are live as before exactly if all the new ones were objects of
the program and could be closed. -/
lemma closed_iff {before : Kernel} (fields : List (String × Option ℕ)) (new : List ℕ)
    (live : ∀ x, x ∈ k.live ↔ x ∈ before.live ∨ x ∈ new) (fresh : ∀ x ∈ new, x ∉ before.live)
    (own : ∀ x ∈ objects fields, x ∈ new) :
    (closeFields fails fields k).2.live = before.live ↔
      ∀ x ∈ new, x ∈ objects fields ∧ fails x = none := by
  have hclose : ∀ x, x ∈ (closeFields fails fields k).2.live ↔
      x ∈ k.live ∧ (x ∈ objects fields → fails x ≠ none) := closeFields_live fields k
  constructor
  · intro h x hx
    have hgone := (hclose x).not.mp (by rw [h]; exact fresh x hx)
    rw [live x] at hgone
    by_contra hnot
    exact hgone ⟨Or.inr hx, fun hobject hfails => hnot ⟨hobject, hfails⟩⟩
  · intro h
    ext x
    rw [hclose x, live x]
    constructor
    · rintro ⟨hbefore | hnew, hfails⟩
      · exact hbefore
      · exact absurd (h x hnew).2 (hfails (h x hnew).1)
    · intro hbefore
      exact ⟨Or.inl hbefore, fun hobject => absurd hbefore (fresh x (own x hobject))⟩

lemma Kernel.notMem_of_le {x : ℕ} (h : k.next ≤ x) : x ∉ k.live :=
  fun hx => absurd (k.fresh x hx) (not_lt.mpr h)

lemma three_balanced_iff {p : XdpProgram}
    (own : ∀ x, x ∈ objects p.fields ↔ x = k.next ∨ x = k.next + 1 ∨ x = k.next + 2) :
    (p.close fails k.create.2.create.2.create.2).2.2.live = k.live ↔
      fails k.next = none ∧ fails (k.next + 1) = none ∧ fails (k.next + 2) = none := by
  refine (closed_iff p.fields [k.next, k.next + 1, k.next + 2] ?_ ?_ ?_).trans ?_
  · intro x
    simp only [Kernel.create_live, Kernel.create_next, Finset.mem_insert, List.mem_cons,
      List.not_mem_nil, or_false]
    tauto
  · intro x hx
    apply Kernel.notMem_of_le
    simp only [List.mem_cons, List.not_mem_nil, or_false] at hx
    omega
  · intro x hx
    simpa using (own x).mp hx
  · simp [own]

/-- `NewProgram` is balanced if already the first map cannot be created, or if nothing fails. -/
theorem newProgram_balanced_iff (fails : CloseFaults) (qidconf xsks program : Option Errno)
    (k : Kernel) : Balanced fails k (newProgram qidconf xsks program k) ↔
      qidconf.isSome ∨ xsks = none ∧ program = none ∧
        fails k.next = none ∧ fails (k.next + 1) = none ∧ fails (k.next + 2) = none := by
  cases qidconf with
  | some e => simp [newProgram, orReturn, Balanced]
  | none =>
    cases xsks with
    | some e =>
      have hleft : insert k.next k.live ≠ k.live :=
        fun h => k.next_notMem (Finset.insert_eq_self.mp h)
      simpa [newProgram, orReturn, Balanced] using hleft
    | none =>
      cases program with
      | some e =>
        have hleft : insert (k.next + 1) (insert k.next k.live) ≠ k.live := by
          intro h
          have hmem : k.next ∈ insert (k.next + 1) (insert k.next k.live) := by simp
          rw [h] at hmem
          exact k.next_notMem hmem
        simpa [newProgram, orReturn, Balanced] using hleft
      | none =>
        simp only [Option.isSome_none, Bool.false_eq_true, false_or, true_and]
        apply three_balanced_iff
        intro x
        change x ∈ [k.next + 1, k.next, k.next + 2] ↔ _
        simp only [List.mem_cons, List.not_mem_nil, or_false]
        tauto

lemma LawfulLoader.notMem {α : Type} {objects : α → List ℕ} {load : Loader α} {k' : Kernel} {a : α}
    (h : LawfulLoader objects load) (hload : load k = (.ok a, k')) : ∀ x ∈ objects a, x ∉ k.live :=
  fun x hx => Kernel.notMem_of_le (h.new hload x hx)

/-- A loader that always succeeds. -/
lemma LawfulLoader.of_created {α : Type} {objects : α → List ℕ} {load : Loader α}
    (h : ∀ k, ∃ a k', load k = (.ok a, k') ∧
      (∀ x, x ∈ k'.live ↔ x ∈ k.live ∨ x ∈ objects a) ∧
      (∀ x ∈ objects a, k.next ≤ x) ∧ (objects a).Nodup) : LawfulLoader objects load := by
  constructor <;> intro k k' r hload <;> obtain ⟨a, k₁, heq, hlive, hnew, hdistinct⟩ := h k <;>
    rw [heq] at hload <;> cases hload
  · exact hlive
  · exact hnew
  · exact hdistinct

/-- All that was loaded is given back if the program has all of it and can close it. -/
lemma LawfulLoader.closed_iff {α : Type} {new : α → List ℕ} {load : Loader α} {k' : Kernel} {a : α}
    (h : LawfulLoader new load) (hload : load k = (.ok a, k')) (fields : List (String × Option ℕ))
    (own : ∀ x ∈ objects fields, x ∈ new a) :
    (closeFields fails fields k').2.live = k.live ↔
      ∀ x ∈ new a, x ∈ objects fields ∧ fails x = none :=
  ProgramResources.closed_iff fields (new a) (h.live hload) (h.notMem hload) own

section Assigned
variable {load : Option Errno}

lemma newTCPSynProgram_closed {loadAndAssign : Loader TcpsynObjects} {k' : Kernel}
    {program : TcpsynObjects} (h : LawfulLoader TcpsynObjects.objects loadAndAssign)
    (hload : loadAndAssign k = (.ok program, k')) (fails : CloseFaults) :
    (XdpProgram.close ⟨some program.XdpSockProg, some program.QidconfMap, some program.XsksMap⟩
      fails k').2.2.live = k.live ↔ ∀ x ∈ program.objects, fails x = none := by
  have hobjects : objects (XdpProgram.fields ⟨some program.XdpSockProg, some program.QidconfMap,
      some program.XsksMap⟩) = program.objects.reverse := rfl
  rw [XdpProgram.close_live]
  refine (h.closed_iff hload _ fun x hx => ?_).trans (forall₂_congr fun x hx => ?_)
  · simpa [hobjects] using hx
  · simp [hobjects, hx]

lemma EventProgram.newTCPSynProgram_closed {loadAndAssign : Loader EventObjects} {k' : Kernel}
    {program : EventObjects} (h : LawfulLoader EventObjects.objects loadAndAssign)
    (hload : loadAndAssign k = (.ok program, k')) (fails : CloseFaults) :
    (EventProgram.close ⟨some program.PerfEventTest, some program.Events⟩ fails k').2.2.live =
      k.live ↔ ∀ x ∈ program.objects, fails x = none := by
  have hobjects : objects (EventProgram.fields ⟨some program.PerfEventTest, some program.Events⟩) =
      program.objects.reverse := rfl
  rw [EventProgram.close_live]
  refine (h.closed_iff hload _ fun x hx => ?_).trans (forall₂_congr fun x hx => ?_)
  · simpa [hobjects] using hx
  · simp [hobjects, hx]

/-- The program that is loaded all at once leaves nothing behind when it fails. -/
theorem newTCPSynProgram_balanced_iff (fails : CloseFaults) {loadAndAssign : Loader TcpsynObjects}
    (k : Kernel) (h : LawfulLoader TcpsynObjects.objects loadAndAssign) :
    Balanced fails k (newTCPSynProgram load loadAndAssign k) ↔
      load.isSome ∨ ∀ program, (loadAndAssign k).1 = .ok program →
        ∀ x ∈ program.objects, fails x = none := by
  cases load with
  | some e => simp [newTCPSynProgram, Balanced]
  | none =>
    obtain ⟨r, k', hload⟩ : ∃ r k', loadAndAssign k = (r, k') := ⟨_, _, rfl⟩
    cases r with
    | error e => simp [newTCPSynProgram, Balanced, hload, h.error hload]
    | ok program => simp [newTCPSynProgram, Balanced, hload, newTCPSynProgram_closed h hload]

end Assigned

section Names
variable {l : List (String × ℕ)}

lemma mem_of_lookup {name : String} {x : ℕ} (h : l.lookup name = some x) : (name, x) ∈ l := by
  obtain ⟨l₁, l₂, rfl, _⟩ := List.lookup_eq_some_iff.mp h
  simp

lemma notMem_of_lookup {name : String} (h : l.lookup name = none) : name ∉ l.map Prod.fst := by
  intro hmem
  obtain ⟨c, hc, rfl⟩ := List.mem_map.mp hmem
  have hne := List.lookup_eq_none_iff.mp h c hc
  simp at hne

/-- All objects are among those looked up exactly if all names are. -/
lemma covered_iff (keys : (l.map Prod.fst).Nodup) (distinct : (l.map Prod.snd).Nodup)
    {name name' : String} {x x' : ℕ} (hx : l.lookup name = some x)
    (hx' : l.lookup name' = some x') :
    (∀ y ∈ l.map Prod.snd, y = x ∨ y = x') ↔
      ∀ n, n ∈ l.map Prod.fst ↔ n = name ∨ n = name' := by
  have hsame : ∀ c ∈ l, ∀ c' ∈ l, c.1 = c'.1 ↔ c.2 = c'.2 := by
    intro c hc c' hc'
    constructor
    · intro heq
      rw [List.inj_on_of_nodup_map keys hc hc' heq]
    · intro heq
      rw [List.inj_on_of_nodup_map distinct hc hc' heq]
  have hnames : (∀ y ∈ l.map Prod.snd, y = x ∨ y = x') ↔
      ∀ n ∈ l.map Prod.fst, n = name ∨ n = name' := by
    rw [List.forall_mem_map, List.forall_mem_map]
    refine forall₂_congr fun c hc => ?_
    rw [← hsame c hc _ (mem_of_lookup hx), ← hsame c hc _ (mem_of_lookup hx')]
  rw [hnames]
  constructor
  · rintro h n
    refine ⟨h n, ?_⟩
    rintro (rfl | rfl)
    · exact List.mem_map_of_mem (mem_of_lookup hx)
    · exact List.mem_map_of_mem (mem_of_lookup hx')
  · exact fun h n hn => (h n).mp hn

end Names

/-- The collection consists of the program and the maps with these names. -/
def Collection.Consists (col : Collection) (funcname qidmapname xskmapname : String) : Prop :=
  (∀ n, n ∈ col.Programs.map Prod.fst ↔ n = funcname) ∧
    ∀ n, n ∈ col.Maps.map Prod.fst ↔ n = qidmapname ∨ n = xskmapname

section Loaded
variable {load : Loader Collection} {col : Collection} {k' : Kernel}

lemma LawfulLoader.nothing_iff (h : LawfulLoader Collection.objects load)
    (hload : load k = (.ok col, k')) : k'.live = k.live ↔ col.objects = [] := by
  constructor
  · intro hlive
    refine List.eq_nil_iff_forall_not_mem.mpr fun x hx => h.notMem hload x hx ?_
    rw [← hlive]
    exact (h.live hload x).mpr (Or.inr hx)
  · intro hnil
    ext x
    simp [h.live hload, hnil]

/-- A success is balanced exactly if the collection consists of what was looked up. -/
lemma LawfulLoader.collection_closed (h : LawfulLoader Collection.objects load)
    (hload : load k = (.ok col, k')) {funcname qidmapname xskmapname : String}
    {program queues sockets : ℕ} (hprogram : col.Programs.lookup funcname = some program)
    (hqueues : col.Maps.lookup qidmapname = some queues)
    (hsockets : col.Maps.lookup xskmapname = some sockets) :
    (XdpProgram.close ⟨some program, some queues, some sockets⟩ fails k').2.2.live = k.live ↔
      col.Consists funcname qidmapname xskmapname ∧ ∀ x ∈ col.objects, fails x = none := by
  obtain ⟨hmaps, hprograms, hdisjoint⟩ := List.nodup_append.mp (h.distinct hload)
  have hp : program ∈ col.Programs.map Prod.snd := List.mem_map_of_mem (mem_of_lookup hprogram)
  have hq : queues ∈ col.Maps.map Prod.snd := List.mem_map_of_mem (mem_of_lookup hqueues)
  have hs : sockets ∈ col.Maps.map Prod.snd := List.mem_map_of_mem (mem_of_lookup hsockets)
  have hcovered := covered_iff col.programs hprograms hprogram hprogram
  have hcovered' := covered_iff col.maps hmaps hqueues hsockets
  simp only [or_self] at hcovered
  have hobjects : objects (XdpProgram.fields ⟨some program, some queues, some sockets⟩) =
      [sockets, queues, program] := rfl
  rw [XdpProgram.close_live]
  refine (h.closed_iff hload _ ?_).trans ?_
  · rw [hobjects]
    intro x hx
    simp only [List.mem_cons, List.not_mem_nil, or_false] at hx
    rcases hx with rfl | rfl | rfl
    · exact List.mem_append_left _ hs
    · exact List.mem_append_left _ hq
    · exact List.mem_append_right _ hp
  rw [hobjects, forall₂_and, Collection.Consists, ← hcovered, ← hcovered']
  refine and_congr_left' ?_
  simp only [Collection.objects, List.mem_append, List.mem_cons, List.not_mem_nil, or_false]
  constructor
  · intro hown
    refine ⟨fun y hy => ?_, fun y hy => ?_⟩
    · rcases hown y (Or.inr hy) with rfl | rfl | rfl
      · exact absurd rfl (hdisjoint _ hs _ hy)
      · exact absurd rfl (hdisjoint _ hq _ hy)
      · rfl
    · rcases hown y (Or.inl hy) with rfl | rfl | rfl
      · exact Or.inr rfl
      · exact Or.inl rfl
      · exact absurd rfl (hdisjoint _ hy _ hp)
  · rintro ⟨hown, hown'⟩ y (hy | hy)
    · exact (hown' y hy).elim (fun hy => Or.inr (Or.inl hy)) Or.inl
    · exact Or.inr (Or.inr (hown y hy))

end Loaded

/-- `LoadProgram` is balanced if loading fails or there is nothing to load. Else the collection
must consist of what it was asked for and nothing more, and all of it must be closed. -/
theorem loadProgram_balanced_iff (fails : CloseFaults) (loadCollection : String → Loader Collection)
    (fname funcname qidmapname xskmapname : String) (k : Kernel)
    (h : LawfulLoader Collection.objects (loadCollection fname)) :
    Balanced fails k (loadProgram loadCollection fname funcname qidmapname xskmapname k) ↔
      ∀ col, (loadCollection fname k).1 = .ok col → col.objects = [] ∨
        col.Consists funcname qidmapname xskmapname ∧ ∀ x ∈ col.objects, fails x = none := by
  obtain ⟨r, k', hload⟩ : ∃ r k', loadCollection fname k = (r, k') := ⟨_, _, rfl⟩
  simp only [loadProgram, hload]
  cases r with
  | error e => simp [Balanced, h.error hload]
  | ok col =>
    simp only [Except.ok.injEq, forall_eq']
    cases hprogram : col.Programs.lookup funcname with
    | none =>
      have hmissing := notMem_of_lookup hprogram
      simp only [Balanced, h.nothing_iff hload]
      exact (or_iff_left fun hall => hmissing ((hall.1.1 funcname).mpr rfl)).symm
    | some program =>
      cases hqueues : col.Maps.lookup qidmapname with
      | none =>
        have hmissing := notMem_of_lookup hqueues
        simp only [Balanced, h.nothing_iff hload]
        exact (or_iff_left fun hall => hmissing ((hall.1.2 qidmapname).mpr (Or.inl rfl))).symm
      | some queues =>
        cases hsockets : col.Maps.lookup xskmapname with
        | none =>
          have hmissing := notMem_of_lookup hsockets
          simp only [Balanced, h.nothing_iff hload]
          exact (or_iff_left fun hall => hmissing ((hall.1.2 xskmapname).mpr (Or.inr rfl))).symm
        | some sockets =>
          have hsome : col.objects ≠ [] := List.ne_nil_of_mem
            (List.mem_append_right _ (List.mem_map_of_mem (mem_of_lookup hprogram)))
          simp only [Balanced]
          rw [h.collection_closed hload hprogram hqueues hsockets]
          exact (or_iff_right hsome).symm

end Accounts

section ObjectFile

def noObjects : Kernel := ⟨∅, 0, by simp⟩

/-- The object file of `dumpframes`, and no other. -/
def objectFile (fname : String) : Loader Collection := fun k =>
  if fname = "tcpsyn_bpfel.o" then
    let (qidconfMap, k) := k.create
    let (xsksMap, k) := k.create
    let (xdpSockProg, k) := k.create
    (.ok ⟨[("xdp_sock_prog", xdpSockProg)], [("qidconf_map", qidconfMap), ("xsks_map", xsksMap)],
      by simp, by simp⟩, k)
  else (.error .ENOENT, k)

lemma objectFile_lawful (fname : String) :
    LawfulLoader Collection.objects (objectFile fname) := by
  by_cases hname : fname = "tcpsyn_bpfel.o"
  · refine .of_created fun k => ⟨_, _, if_pos hname, fun x => ?_, ?_, ?_⟩
    · simp [Collection.objects]
      tauto
    · simp [Collection.objects]
      omega
    · simp [Collection.objects]
      omega
  · have hload : ∀ k, objectFile fname k = (.error .ENOENT, k) := fun k => if_neg hname
    constructor <;> intro k k' r h <;> rw [hload] at h <;> cases h
    rfl

/-- Asked for the same map twice, it gets a map that it does not close. -/
theorem loadProgram_balanced_iff_tcpsyn :
    Balanced (fun _ => none) noObjects
      (loadProgram objectFile "tcpsyn_bpfel.o" "xdp_sock_prog" "qidconf_map" "xsks_map"
        noObjects) ∧
    ¬ Balanced (fun _ => none) noObjects
      (loadProgram objectFile "tcpsyn_bpfel.o" "xdp_sock_prog" "xsks_map" "xsks_map"
        noObjects) := by
  rw [loadProgram_balanced_iff _ _ _ _ _ _ _ (objectFile_lawful _),
    loadProgram_balanced_iff _ _ _ _ _ _ _ (objectFile_lawful _)]
  constructor
  · intro col hcol
    cases hcol
    refine .inr ⟨⟨fun n => ?_, fun n => ?_⟩, fun _ _ => rfl⟩ <;> simp
  · intro h
    rcases h _ rfl with hnone | ⟨hconsists, _⟩
    · simp [Collection.objects] at hnone
    · have hmap := (hconsists.2 "qidconf_map").mp (by simp)
      revert hmap
      decide

end ObjectFile

end Defrizer.ProgramResources
