import Defrizer.RegisteredQueues

/-!
# Which socket receives a queue

What both programs do after any sequence of calls, from the calls alone. A call counts for the
queue configuration and for the sockets separately: a `Register` that fails in its second
update has put its socket all the same, and `Unregister` counts for neither.
-/
namespace Defrizer.ProgramRegistration
open InterleavedProgram KernelMaps KernelMap FilterPrograms BuiltinProgram ByteFields

/-- The socket a call puts in the slot of the index: its first update has to succeed. -/
def Call.puts (index : UInt32) : Call → Option UInt32
  | .register queueID fd none _ =>
    if UInt32.ofInt queueID = index then some (UInt32.ofInt fd) else none
  | _ => none

/-- The call marks the queue active: both updates have to succeed. -/
def Call.activates (index : UInt32) : Call → Bool
  | .register queueID _ none none => UInt32.ofInt queueID == index
  | _ => false

variable {n : ℕ}

section Outcomes
variable {queueID : ℤ} (fd : ℤ) (fault₂ : Option Errno) (m : Maps (ArrayMap n) (XskMap n))

lemma register_run_outside (h : ¬ (UInt32.ofInt queueID).toNat < n) :
    (register queueID fd none fault₂).run m =
      some (some ⟨"failed to update xsksMap: ", .E2BIG⟩, m) := by
  have hput : putSocket (UInt32.ofInt queueID) (UInt32.ofInt fd) m = .error .E2BIG := by
    rw [putSocket, XskMap.update_def, dif_neg h]
    rfl
  simp only [register, mapCall, run_bind, run_atomic, hput, Option.bind_some, orReturn, run_ret]

lemma register_run_inside (h : (UInt32.ofInt queueID).toNat < n) :
    ∃ s q, update m.Sockets (UInt32.ofInt queueID) (UInt32.ofInt fd) = .ok s ∧
      update m.Queues (UInt32.ofInt queueID) 1 = .ok q ∧
      (register queueID fd none fault₂).run m = some (match fault₂ with
        | some e => (some ⟨"failed to update qidconfMap: ", e⟩, { m with Sockets := s })
        | none => (none, ⟨q, s⟩)) := by
  obtain ⟨s, hs⟩ : ∃ s, update m.Sockets (UInt32.ofInt queueID) (UInt32.ofInt fd) = .ok s :=
    ⟨_, by rw [XskMap.update_def, dif_pos h]⟩
  obtain ⟨q, hq⟩ : ∃ q, update m.Queues (UInt32.ofInt queueID) 1 = .ok q :=
    ⟨_, by rw [ArrayMap.update_def, dif_pos h]⟩
  refine ⟨s, q, hs, hq, ?_⟩
  cases fault₂ <;>
    simp only [register, mapCall, putSocket, putQueue, run_bind, run_atomic, hs, hq, Except.map,
      Option.bind_some, orReturn, run_ret]

end Outcomes

/-- Every call returns, and this is what it does to the two entries of a queue. -/
lemma call_run (c : Call) (m : Maps (ArrayMap n) (XskMap n)) : ∃ err m',
    c.prog.run m = some (err, m') ∧ ∀ index : UInt32, index.toNat < n →
      lookup m'.Sockets index = (c.puts index).or (lookup m.Sockets index) ∧
      lookup m'.Queues index = if c.activates index then some 1 else lookup m.Queues index := by
  cases c with
  | unregister queueID fault₁ fault₂ =>
    exact ⟨_, m, unregister_run queueID fault₁ fault₂ m, fun _ _ => ⟨rfl, rfl⟩⟩
  | register queueID fd fault₁ fault₂ =>
    cases fault₁ with
    | some e => exact ⟨_, m, rfl, fun _ _ => ⟨rfl, rfl⟩⟩
    | none =>
      by_cases h : (UInt32.ofInt queueID).toNat < n
      · obtain ⟨s, q, hs, hq, hrun⟩ := register_run_inside fd fault₂ m h
        have hputs : ∀ index, lookup s index =
            ((Call.register queueID fd none fault₂).puts index).or (lookup m.Sockets index) := by
          intro index
          simp only [(XskMap.update_eq_ok hs).2, Call.puts, eq_comm (a := index)]
          split_ifs <;> rfl
        cases fault₂ with
        | some e => exact ⟨_, _, hrun, fun index _ => ⟨hputs index, rfl⟩⟩
        | none =>
          refine ⟨_, _, hrun, fun index _ => ⟨hputs index, ?_⟩⟩
          simp only [(ArrayMap.update_eq_ok hq).2, Call.activates, beq_iff_eq, eq_comm (a := index)]
      · refine ⟨_, m, register_run_outside fd fault₂ m h, fun index hn => ?_⟩
        have hne : UInt32.ofInt queueID ≠ index := fun heq => h (heq ▸ hn)
        cases fault₂ <;> simp [Call.puts, Call.activates, hne]

/-- The socket of the latest call that put one. -/
def latestSocket (index : UInt32) (calls : List Call) : Option UInt32 :=
  calls.findSomeRev? (Call.puts index)

def activated (index : UInt32) (calls : List Call) : Bool := calls.any (Call.activates index)

lemma history_run (calls : List Call) (m : Maps (ArrayMap n) (XskMap n)) : ∃ m',
    (history calls).run m = some ((), m') ∧ ∀ index : UInt32, index.toNat < n →
      lookup m'.Sockets index = (latestSocket index calls).or (lookup m.Sockets index) ∧
      lookup m'.Queues index = if activated index calls then some 1 else lookup m.Queues index := by
  induction calls generalizing m with
  | nil => exact ⟨m, rfl, fun index _ => ⟨rfl, rfl⟩⟩
  | cons c cs ih =>
    obtain ⟨err, m₁, hc, hcall⟩ := call_run c m
    obtain ⟨m', hcs, hcalls⟩ := ih m₁
    refine ⟨m', by rw [history, run_bind, hc]; exact hcs, fun index hn => ?_⟩
    obtain ⟨hs₁, hq₁⟩ := hcall index hn
    obtain ⟨hs, hq⟩ := hcalls index hn
    constructor
    · rw [hs, hs₁, latestSocket, latestSocket, List.findSomeRev?]
      cases cs.findSomeRev? (Call.puts index) <;> cases c.puts index <;> rfl
    · rw [hq, hq₁, activated, activated, List.any_cons]
      cases cs.any (Call.activates index) <;> cases c.activates index <;> rfl

/-- The queue is an entry of the maps, some call activated it, and the latest socket that was
put for it is the given one. -/
def Serves (n : ℕ) (calls : List Call) (index fd : UInt32) : Prop :=
  index.toNat < n ∧ activated index calls ∧ latestSocket index calls = some fd

/-- Every slot holds the socket of the latest call, and exactly the activated queues are active. -/
structure Registered (calls : List Call) (m : Maps (ArrayMap n) (XskMap n)) : Prop where
  outside : ∀ index : UInt32, ¬ index.toNat < n → lookup m.Queues index = none
  sockets : ∀ index : UInt32, index.toNat < n → lookup m.Sockets index = latestSocket index calls
  queues : ∀ index : UInt32, index.toNat < n →
    lookup m.Queues index = some (if activated index calls then 1 else 0)

lemma history_registered (n : ℕ) (calls : List Call) : ∃ m : Maps (ArrayMap n) (XskMap n),
    (history calls).run (newMaps n) = some ((), m) ∧ Registered calls m := by
  obtain ⟨m, hrun, hlookups⟩ := history_run calls (newMaps n)
  refine ⟨m, hrun, ⟨fun index hn => ?_, fun index hn => ?_, fun index hn => ?_⟩⟩
  · rw [ArrayMap.lookup_def, Vector.getElem?_eq_none (Nat.le_of_not_lt hn)]
  · rw [(hlookups index hn).1, newMaps, XskMap.lookup_new, Option.or_none]
  · rw [(hlookups index hn).2, newMaps, ArrayMap.lookup_new, if_pos hn]
    split_ifs <;> rfl

lemma Registered.serves_iff {calls : List Call} {m : Maps (ArrayMap n) (XskMap n)}
    (h : Registered calls m) (index fd : UInt32) : Serves n calls index fd ↔
      (∃ v, lookup m.Queues index = some v ∧ v ≠ 0) ∧ lookup m.Sockets index = some fd := by
  by_cases hn : index.toNat < n
  · simp [Serves, hn, h.queues index hn, h.sockets index hn]
  · simp [Serves, hn, h.outside index hn]

/-- The socket a run of `xdpSockProg` gives its frame to. -/
def redirectedTo (xsksMap : UInt32 → Option UInt32) : XdpExit → Option UInt32
  | .action _ => none
  | .redirectMap key _ => xsksMap key

lemma xdpSockProg_redirectedTo_iff (e : ByteOrder) (frame : List UInt8)
    (q xsks : UInt32 → Option UInt32) (index fd : UInt32) :
    (∃ exit, xdpSockProg e q frame index = some exit ∧ redirectedTo xsks exit = some fd) ↔
      ((∃ v, q index = some v ∧ v ≠ 0) ∧ xsks index = some fd) ∧ CarriesTcpTo 7777 frame := by
  constructor
  · rintro ⟨exit, hexit, hsocket⟩
    cases exit with
    | action a => cases hsocket
    | redirectMap key flags =>
      obtain ⟨rfl, v, hv, hne, hto⟩ := xdpSockProg_redirectMap hexit
      exact ⟨⟨⟨v, hv, hne⟩, hsocket⟩, hto⟩
  · rintro ⟨⟨⟨v, hv, hne⟩, hsocket⟩, hto⟩
    exact ⟨_, (xdpSockProg_redirects_iff e frame hv).mpr ⟨hne, hto⟩, hsocket⟩

lemma builtinProg_redirects_iff (qidconfFd xsksFd : ℤ) (q xsks : UInt32 → Option UInt32)
    (index fd : UInt32) :
    (∃ exit, builtinProg qidconfFd xsksFd q xsks index = some exit ∧
      ∃ c ∈ exit.calls, c.map = xsksFd ∧ xsks c.key = some fd) ↔
      (∃ v, q index = some v ∧ v ≠ 0) ∧ xsks index = some fd := by
  constructor
  · rintro ⟨exit, hexit, c, hc, _, hsocket⟩
    obtain ⟨rfl, v, hv, hne⟩ := builtinProg_calls hexit c hc
    exact ⟨⟨v, hv, hne⟩, hsocket⟩
  · rintro ⟨⟨v, hv, hne⟩, hsocket⟩
    refine ⟨_, builtinProg_eq .., ?_⟩
    rw [hv]
    simp only [if_neg hne]
    exact ⟨_, List.mem_singleton_self _, rfl, hsocket⟩

-- A `Register` that returned an error has taken over the queue of the one before.
example : latestSocket 0 [.register 0 3 none none, .register 0 5 none (some .EPERM),
    .unregister 0 none none] = some 5 := rfl

end Defrizer.ProgramRegistration
