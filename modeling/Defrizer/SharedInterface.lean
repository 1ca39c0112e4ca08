import Defrizer.ProgramPool
import Defrizer.ProgramAttachment

/-!
# Processes that share an interface

`Attach` and `Detach` work on whatever program an interface has, and another process can do the
same at any moment. Here any number of processes attach their programs and detach again, and
their netlink calls fall in any order.
-/
namespace Defrizer.ProgramRegistration
open InterleavedProgram KernelMaps

variable {P ι : Type}

def detach (Ifindex : ℤ) (faults : LinkFaults) : Prog (Links P) (Option GoError) :=
  removeProgram Ifindex faults

/-- How a process ends: without a program attached, or with the result of `Detach`. -/
inductive Outcome
  | failed (e : GoError)
  | detached (err : Option GoError)
  deriving DecidableEq, Repr

/-- What the `main` functions do with the interface. -/
def session (Ifindex : ℤ) (program : P) (attaching detaching : LinkFaults) :
    Prog (Links P) Outcome :=
  (attach Ifindex program attaching).bind fun
    | some e => .ret (.failed e)
    | none => (detach Ifindex detaching).bind fun err => .ret (.detached err)

/-- A process has its program on an interface from `Attach` on, and owes its removal until
`Detach` has seen the interface without a program. -/
inductive Phase
  | fresh
  | cleared
  | owing
  | gone
  deriving DecidableEq, Repr

/-- The phases that `removeProgram` leads from and to. -/
inductive Phase.Removing : Phase → Phase → Prop
  | attach : Removing .fresh .cleared
  | detach : Removing .owing .gone

inductive Move (i : ℤ) (p : P) : Phase → Links P → Phase → Links P → Prop
  | stay {x : Phase} {links : Links P} : Move i p x links x links
  | found {x x' : Phase} {links : Links P} (removing : x.Removing x') (empty : links i = none) :
      Move i p x links x' links
  | remove {x x' : Phase} {links : Links P} (removing : x.Removing x') :
      Move i p x links x' (Function.update links i none)
  | attach {links : Links P} :
      Move i p .cleared links .owing (Function.update links i (some p))

/-- Only the loop at the end of `removeProgram` waits, while there is a program. -/
def Waits (i : ℤ) (x : Phase) (links : Links P) : Prop :=
  x ∈ [Phase.cleared, .gone] ∧ links i ≠ none

def manners (i : ℤ) (p : P) : Manners Phase (Links P) := ⟨Move i p, Waits i⟩

/-- An error leaves the process where it was, or past the removal. -/
def Removed (x x' : Phase) (err : Option GoError) : Prop := x.Removing x' ∨ x' = x ∧ err ≠ none

def Ended : Phase → Outcome → Prop
  | x, .failed _ => x = .fresh ∨ x = .cleared
  | x, .detached err => x = .gone ∨ x = .owing ∧ err ≠ none

section Text
variable {i : ℤ} {p : P} {faults : LinkFaults} {x x' : Phase}

lemma linkByIndex_follows (fault : Option Errno)
    (found : ∀ links : Links P, links i = none → Move i p x links x' links) :
    Follows (manners i p) (fun y r => y = x ∧ r ≠ .ok none ∨ y = x' ∧ r = .ok none)
      (linkByIndex i fault) x := by
  refine follows_atomic (by simp) fun links r links' h => ?_
  cases fault with
  | some e =>
    cases h
    exact ⟨x, .stay, .inl ⟨rfl, by simp⟩⟩
  | none =>
    cases h
    by_cases hempty : links i = none
    · exact ⟨x', found links hempty, .inr ⟨rfl, by rw [hempty]⟩⟩
    · exact ⟨x, .stay, .inl ⟨rfl, by simpa using hempty⟩⟩

lemma linkSetXdpFd_follows {program : Option P} (fault : Option Errno)
    (done : ∀ links : Links P, Move i p x links x' (Function.update links i program)) :
    Follows (manners i p) (fun y r => y = x ∧ r ≠ .ok () ∨ y = x' ∧ r = .ok ())
      (linkSetXdpFd i program fault) x := by
  refine follows_atomic (by simp) fun links r links' h => ?_
  cases fault with
  | some e =>
    cases h
    exact ⟨x, .stay, .inl ⟨rfl, by simp⟩⟩
  | none =>
    cases h
    exact ⟨x', done links, .inr ⟨rfl, rfl⟩⟩

lemma waitRemoved_follows (waits : x' ∈ [Phase.cleared, .gone]) (queries : List (Option Errno)) :
    Follows (manners i p) (fun y _ => y = x') (waitRemoved i queries) x' := by
  induction queries with
  | nil =>
    refine ⟨fun links hlinks => ⟨waits, ?_⟩, fun links err links' h => ?_⟩
    · intro hempty
      simp [isXdpAttached, hempty] at hlinks
    · obtain ⟨_, _, heq⟩ := Option.map_eq_some_iff.mp h
      cases heq
      exact ⟨x', .stay, rfl⟩
  | cons query queries ih =>
    cases query with
    | some e => exact follows_ret rfl
    | none => exact ih

lemma Phase.Removing.waits (removing : x.Removing x') : x' ∈ [Phase.cleared, .gone] := by
  cases removing <;> decide

lemma removeProgram_follows (removing : x.Removing x') :
    Follows (manners i p) (Removed x) (removeProgram i faults) x := by
  refine follows_bind (linkByIndex_follows _ fun _ => .found removing) fun y r hr => ?_
  rcases r with e | link
  · rcases hr with ⟨rfl, _⟩ | ⟨_, hr⟩
    · exact follows_ret (.inr ⟨rfl, by simp⟩)
    · cases hr
  rcases hr with ⟨rfl, hr⟩ | ⟨rfl, hr⟩
  · have hattached : isXdpAttached link := by
      cases link with
      | none => exact absurd rfl hr
      | some q => rfl
    simp only [onLink, hattached, not_true, if_false]
    refine follows_bind (linkSetXdpFd_follows _ fun _ => .remove removing) fun z r hr => ?_
    rcases r with e | u
    · rcases hr with ⟨rfl, _⟩ | ⟨_, hr⟩
      · exact follows_ret (.inr ⟨rfl, by simp⟩)
      · cases hr
    · rcases hr with ⟨_, hr⟩ | ⟨rfl, _⟩
      · exact absurd rfl hr
      · exact (waitRemoved_follows removing.waits _).mono fun z _ hz => .inl (hz ▸ removing)
  · cases hr
    exact follows_ret (.inl removing)

/-- `Attach` leaves its process owing exactly if it returns no error. -/
def Attached : Phase → Option GoError → Prop
  | x, some _ => x = .fresh ∨ x = .cleared
  | x, none => x = .owing

lemma attachProgram_follows :
    Follows (manners i p) Attached (attachProgram i p faults) .cleared := by
  have hfind : Follows (manners i p) (fun y r => y = .cleared ∧ r ≠ .ok none ∨
      y = .cleared ∧ r = .ok none) (linkByIndex i faults.findNew) .cleared :=
    linkByIndex_follows _ fun _ _ => .stay
  refine follows_bind hfind fun y r hr => ?_
  have hy : y = .cleared := by
    rcases hr with ⟨rfl, _⟩ | ⟨rfl, _⟩ <;> rfl
  subst hy
  rcases r with e | link
  · exact follows_ret (.inr rfl)
  refine follows_bind (linkSetXdpFd_follows _ fun _ => .attach) fun z r hr => ?_
  rcases r with e | u
  · rcases hr with ⟨rfl, _⟩ | ⟨_, hr⟩
    · exact follows_ret (.inr rfl)
    · cases hr
  · rcases hr with ⟨_, hr⟩ | ⟨rfl, _⟩
    · exact absurd rfl hr
    · exact follows_ret rfl

lemma attach_follows : Follows (manners i p) Attached (attach i p faults) .fresh := by
  refine follows_bind (removeProgram_follows .attach) fun x err hx => ?_
  cases err with
  | some e =>
    refine follows_ret ?_
    rcases hx with hx | ⟨rfl, _⟩
    · cases hx
      exact .inr rfl
    · exact .inl rfl
  | none =>
    rcases hx with hx | ⟨_, hne⟩
    · cases hx
      exact attachProgram_follows
    · exact absurd rfl hne

lemma session_follows {attaching detaching : LinkFaults} :
    Follows (manners i p) Ended (session i p attaching detaching) .fresh := by
  refine follows_bind attach_follows fun x err hx => ?_
  cases err with
  | some e => exact follows_ret hx
  | none =>
    cases hx
    refine follows_bind (removeProgram_follows .detach) fun x err hx => follows_ret ?_
    rcases hx with hx | hx
    · cases hx
      exact .inl rfl
    · exact .inr hx

end Text

section Processes
variable [DecidableEq ι] {Ifindex : ι → ℤ} {program : ι → P} {attaching detaching : ι → LinkFaults}
  {links : Links P} {c : Pool ι (Links P) Outcome}

/-- Whatever program the interface has, a process still owes its removal, or it is the one from
before and no process has found the interface without a program. -/
def Accounted (Ifindex : ι → ℤ) (program : ι → P) (before : Links P) (i : ℤ) (x : ι → Phase)
    (links : Links P) : Prop :=
  links i = none ∨ (∃ t, Ifindex t = i ∧ x t = .owing ∧ links i = some (program t)) ∨
    links i = before i ∧ ∀ t, Ifindex t = i → x t = .fresh

lemma accounted_elsewhere {before links links' : Links P} {x : ι → Phase} {t : ι} {x' : Phase}
    {i : ℤ} (h : Accounted Ifindex program before i x links) (ht : Ifindex t ≠ i)
    (hlinks : links' i = links i) :
    Accounted Ifindex program before i (Function.update x t x') links' := by
  have hx : ∀ u, Ifindex u = i → Function.update x t x' u = x u := by
    rintro u rfl
    exact Function.update_of_ne (fun hut => ht (by rw [hut])) _ _
  unfold Accounted
  rw [hlinks]
  rcases h with hnone | ⟨u, hu, howing, hprogram⟩ | ⟨hbefore, hfresh⟩
  · exact .inl hnone
  · exact .inr (.inl ⟨u, hu, by rw [hx u hu, howing], hprogram⟩)
  · exact .inr (.inr ⟨hbefore, fun u hu => by rw [hx u hu, hfresh u hu]⟩)

lemma accounted_moves (before : Links P) :
    KeptByMoves (fun t => manners (Ifindex t) (program t))
      (fun x links => ∀ i, Accounted Ifindex program before i x links) := by
  intro x links t x' links' h hmove i
  generalize hxt : x t = y at hmove
  cases hmove with
  | stay =>
    rw [← hxt, Function.update_eq_self]
    exact h i
  | found removing empty =>
    by_cases hi : Ifindex t = i
    · exact .inl (hi ▸ empty)
    · exact accounted_elsewhere (h i) hi rfl
  | remove removing =>
    by_cases hi : Ifindex t = i
    · exact .inl (by simp [hi])
    · exact accounted_elsewhere (h i) hi (Function.update_of_ne (Ne.symm hi) _ _)
  | attach =>
    by_cases hi : Ifindex t = i
    · exact .inr (.inl ⟨t, hi, by simp, by simp [hi]⟩)
    · exact accounted_elsewhere (h i) hi (Function.update_of_ne (Ne.symm hi) _ _)

lemma sessions_phased
    (run : Pool.Reaches
      ⟨links, fun t => session (Ifindex t) (program t) (attaching t) (detaching t)⟩ c) :
    ∃ x, Phased (fun t => manners (Ifindex t) (program t)) (fun _ => Ended)
      (fun x links' => ∀ i, Accounted Ifindex program links i x links') x c :=
  Phased.reaches (accounted_moves links)
    ⟨fun _ => session_follows, fun _ => Or.inr (.inr ⟨rfl, fun _ _ => rfl⟩)⟩ run

/-- In every interleaving, once all processes have returned and no `Detach` failed, an interface
has no program, or it has the one from before because no process could attach its own. -/
theorem sessions_leave_nothing {outcome : ι → Outcome}
    (run : Pool.Reaches
      ⟨links, fun t => session (Ifindex t) (program t) (attaching t) (detaching t)⟩ c)
    (returned : ∀ t, c.programs t = .ret (outcome t))
    (clean : ∀ t e, outcome t ≠ .detached (some e)) (i : ℤ) :
    c.shared i = none ∨
      c.shared i = links i ∧ ∀ t, Ifindex t = i → ∃ e, outcome t = .failed e := by
  obtain ⟨x, hx⟩ := sessions_phased run
  have hends : ∀ t, Ended (x t) (outcome t) := fun t => hx.returned (returned t)
  rcases hx.holds i with hnone | ⟨t, rfl, howing, _⟩ | ⟨hbefore, hfresh⟩
  · exact .inl hnone
  · have ht := hends t
    rw [howing] at ht
    cases hout : outcome t with
    | failed e => simp [hout, Ended] at ht
    | detached err =>
      cases err with
      | none => simp [hout, Ended] at ht
      | some e => exact absurd hout (clean t e)
  · refine .inr ⟨hbefore, fun t ht => ?_⟩
    have hend := hends t
    rw [hfresh t ht] at hend
    cases hout : outcome t with
    | failed e => exact ⟨e, rfl⟩
    | detached err => simp [hout, Ended] at hend

end Processes

def noLinkFaults : LinkFaults := ⟨none, none, [], none, none⟩

/-- Two processes on one interface, each with its own program. -/
def twoSessions : Pool Bool (Links Bool) Outcome :=
  ⟨fun _ => none, fun t => session 1 t noLinkFaults noLinkFaults⟩

/-- The second attaches while the first is about to detach, which then waits for both programs
to be gone. -/
def overlapping : List Bool :=
  [false, false, false, true, false, true, true, true, false, true]

theorem sessions_leave_nothing_two :
    ∃ c, twoSessions.schedule (overlapping ++ [true, true, true, false]) = some c ∧
      c.shared 1 = none := by
  obtain ⟨c, hc⟩ : ∃ c, twoSessions.schedule (overlapping ++ [true, true, true, false]) = some c :=
    ⟨_, rfl⟩
  have hend : ∀ t, (twoSessions.schedule (overlapping ++ [true, true, true, false])).map
      (fun c => c.programs t) = some (.ret (.detached none)) := by
    rintro (_ | _) <;> rfl
  have hreturned : ∀ t, c.programs t = .ret (.detached none) := by
    intro t
    have ht := hend t
    rw [hc] at ht
    exact Option.some.inj ht
  refine ⟨c, hc, ?_⟩
  rcases sessions_leave_nothing (Pool.schedule_reaches hc) hreturned (by simp) 1 with
    hnone | ⟨_, hfailed⟩
  · exact hnone
  · obtain ⟨e, he⟩ := hfailed true rfl
    cases he

section Processes
variable [DecidableEq ι] {Ifindex : ι → ℤ} {program : ι → P} {attaching detaching : ι → LinkFaults}
  {links : Links P} {c : Pool ι (Links P) Outcome}

/-- The loops that wait for a program to go do not block each other: until all processes have
returned one of them can go on, unless a `Detach` failed. -/
theorem sessions_go_on
    (run : Pool.Reaches
      ⟨links, fun t => session (Ifindex t) (program t) (attaching t) (detaching t)⟩ c)
    (clean : ∀ t e, c.programs t ≠ .ret (.detached (some e)))
    {t : ι} (running : ∀ o, c.programs t ≠ .ret o) : ∃ c', c.Step c' := by
  obtain ⟨x, hx⟩ := sessions_phased run
  by_cases hwaits : Waits (Ifindex t) (x t) c.shared
  · obtain ⟨hphase, hattached⟩ := hwaits
    rcases hx.holds (Ifindex t) with hnone | ⟨u, hu, howing, _⟩ | ⟨_, hfresh⟩
    · exact absurd hnone hattached
    · -- The process that owes the removal can go on.
      apply hx.goes_on (t := u)
      · intro o hret
        have hend := hx.returned hret
        rw [howing] at hend
        cases o with
        | failed e => simp [Ended] at hend
        | detached err =>
          cases err with
          | none => simp [Ended] at hend
          | some e => exact clean u e hret
      · simp [manners, Waits, howing]
    · simp [hfresh t rfl] at hphase
  · exact hx.goes_on running hwaits

theorem sessions_go_on_two :
    ∃ c, twoSessions.schedule overlapping = some c ∧ c.schedule [false] = none ∧
      ∃ c', c.Step c' := by
  obtain ⟨c, hc⟩ : ∃ c, twoSessions.schedule overlapping = some c := ⟨_, rfl⟩
  have hrunning : ∀ t o, c.programs t ≠ .ret o := by
    intro t o ht
    have hend : (twoSessions.schedule overlapping).map (fun c => c.programs t) =
        some (.ret o) := by
      rw [hc, Option.map_some, ht]
    rcases t with _ | _ <;> cases hend
  have hwaits : (twoSessions.schedule overlapping).bind (fun c => c.schedule [false]) = none := rfl
  rw [hc] at hwaits
  exact ⟨c, hc, hwaits,
    sessions_go_on (t := false) (Pool.schedule_reaches hc) (fun t e => hrunning t _) (hrunning false)⟩

end Processes

end Defrizer.ProgramRegistration
