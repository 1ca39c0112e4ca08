import Defrizer.ActiveQueues
import Defrizer.EventFeed

/-!
# What the programs do to a queue after Register and Unregister

With the array map and the XSK map the program is created with: an array map never deletes,
so `Unregister` returns its error before it reaches the socket.
-/
namespace Defrizer.ProgramRegistration
open InterleavedProgram KernelMaps KernelMap FilterPrograms BuiltinProgram ByteFields

section Calls
variable {Q S : Type}

theorem mapCall_run {fault : Option Errno} {op : Maps Q S → Except Errno (Maps Q S)}
    {m m' : Maps Q S} {r : Except Errno Unit} (h : (mapCall fault op).run m = some (r, m')) :
    (∃ e, r = .error e ∧ m' = m) ∨ (r = .ok () ∧ op m = .ok m') := by
  rw [mapCall, run_atomic, Option.some.injEq] at h
  cases fault with
  | some e =>
    cases h
    exact Or.inl ⟨e, rfl, rfl⟩
  | none =>
    cases hop : op m with
    | error e =>
      simp only [hop, Prod.mk.injEq] at h
      exact Or.inl ⟨e, h.1.symm, h.2.symm⟩
    | ok m₁ =>
      simp only [hop, Prod.mk.injEq] at h
      exact Or.inr ⟨h.1.symm, congrArg Except.ok h.2⟩

/-- A call fails in its first operation, which then has no effect, or goes on after it. -/
theorem mapCall_orReturn_run {fault : Option Errno} {context : String}
    {op : Maps Q S → Except Errno (Maps Q S)} {rest : Prog (Maps Q S) (Option GoError)}
    {m m' : Maps Q S} {err : Option GoError}
    (h : ((mapCall fault op).bind (orReturn context rest)).run m = some (err, m')) :
    (∃ e, err = some ⟨context, e⟩ ∧ m' = m) ∨ ∃ m₁, op m = .ok m₁ ∧ rest.run m₁ = some (err, m') := by
  rw [run_bind] at h
  obtain ⟨⟨r, m₁⟩, hr, hrest⟩ := Option.bind_eq_some_iff.mp h
  rcases mapCall_run hr with ⟨e, rfl, rfl⟩ | ⟨rfl, hop⟩
  · cases hrest
    exact Or.inl ⟨e, rfl, rfl⟩
  · exact Or.inr ⟨m₁, hop, hrest⟩

theorem register_run [KernelMap Q] [KernelMap S] {queueID fd : ℤ} {fault₁ fault₂ : Option Errno} {m m' : Maps Q S}
    {err : Option GoError} (h : (register queueID fd fault₁ fault₂).run m = some (err, m')) :
    (∃ e, err = some ⟨"failed to update xsksMap: ", e⟩ ∧ m' = m) ∨
    ∃ s, update m.Sockets (UInt32.ofInt queueID) (UInt32.ofInt fd) = .ok s ∧
      ((∃ e, err = some ⟨"failed to update qidconfMap: ", e⟩ ∧ m' = { m with Sockets := s }) ∨
      ∃ q, update m.Queues (UInt32.ofInt queueID) 1 = .ok q ∧ err = none ∧ m' = ⟨q, s⟩) := by
  rcases mapCall_orReturn_run h with h₁ | ⟨m₁, hput, hrest⟩
  · exact Or.inl h₁
  obtain ⟨s, hs, rfl⟩ := map_eq_ok hput
  refine Or.inr ⟨s, hs, ?_⟩
  rcases mapCall_orReturn_run hrest with h₂ | ⟨m₂, hput', hret⟩
  · exact Or.inl h₂
  obtain ⟨q, hq, rfl⟩ := map_eq_ok hput'
  cases hret
  exact Or.inr ⟨q, hq, rfl, rfl⟩

end Calls

variable {n : ℕ}

theorem unregister_run (queueID : ℤ) (fault₁ fault₂ : Option Errno)
    (m : Maps (ArrayMap n) (XskMap n)) :
    (unregister queueID fault₁ fault₂).run m =
      some (some ⟨"", fault₁.getD .EINVAL⟩, m) := by
  cases fault₁ <;> rfl

def Call.Spares (index : UInt32) : Call → Prop
  | .register queueID _ _ _ => UInt32.ofInt queueID ≠ index
  | .unregister _ _ _ => True

theorem spares_run {index : UInt32} {c : Call} (h : c.Spares index)
    {m m' : Maps (ArrayMap n) (XskMap n)} {err : Option GoError}
    (hrun : c.prog.run m = some (err, m')) : lookup m'.Queues index = lookup m.Queues index := by
  cases c with
  | register queueID fd fault₁ fault₂ =>
    rcases register_run hrun with ⟨e, _, rfl⟩ | ⟨s, _, ⟨e, _, rfl⟩ | ⟨q, hq, _, rfl⟩⟩
    · rfl
    · rfl
    · rw [(ArrayMap.update_eq_ok hq).2, if_neg (Ne.symm h)]
  | unregister queueID fault₁ fault₂ =>
    change (unregister queueID fault₁ fault₂).run m = _ at hrun
    rw [unregister_run] at hrun
    cases hrun
    rfl

theorem history_spares {index : UInt32} {calls : List Call} (h : ∀ c ∈ calls, c.Spares index)
    {m m' : Maps (ArrayMap n) (XskMap n)} (hrun : (history calls).run m = some ((), m')) :
    lookup m'.Queues index = lookup m.Queues index := by
  induction calls generalizing m with
  | nil =>
    cases hrun
    rfl
  | cons c cs ih =>
    rw [history, run_bind] at hrun
    obtain ⟨⟨err, m₁⟩, hc, hcs⟩ := Option.bind_eq_some_iff.mp hrun
    rw [ih (fun c hc => h c (List.mem_cons_of_mem _ hc)) hcs, spares_run (h c List.mem_cons_self) hc]

/-- Register calls only, and none of them for the index. -/
def NeverRegistered (index : UInt32) (calls : List Call) : Prop :=
  ∀ c ∈ calls, ∃ queueID fd fault₁ fault₂,
    c = .register queueID fd fault₁ fault₂ ∧ UInt32.ofInt queueID ≠ index

theorem NeverRegistered.spares {index : UInt32} {calls : List Call}
    (h : NeverRegistered index calls) : ∀ c ∈ calls, c.Spares index := by
  intro c hc
  obtain ⟨q, fd, f₁, f₂, rfl, hne⟩ := h c hc
  exact hne

theorem neverRegistered_lookup {index : UInt32} {calls : List Call}
    (h : NeverRegistered index calls) {m : Maps (ArrayMap n) (XskMap n)}
    (hrun : (history calls).run (newMaps n) = some ((), m)) :
    lookup m.Queues index = if index.toNat < n then some 0 else none := by
  rw [history_spares h.spares hrun]
  exact ArrayMap.lookup_new index

/-- Traffic of a queue that was never registered is never redirected. The built-in program
passes it when the queue is a key and aborts it otherwise; `xdp_sock_prog` passes it when the
queue is no key or the headers of the frame parse. -/
theorem never_registered_verdicts {index : UInt32} {calls : List Call}
    (h : NeverRegistered index calls) {m : Maps (ArrayMap n) (XskMap n)}
    (hrun : (history calls).run (newMaps n) = some ((), m)) :
    (∀ qidconfFd xsksFd,
      builtinProg qidconfFd xsksFd (lookup m.Queues) (lookup m.Sockets) index =
        some ⟨if index.toNat < n then 2 else 0, []⟩) ∧
    ∀ e frame,
      (¬ (index.toNat < n ∧ Malformed frame) →
        xdpSockProg e (lookup m.Queues) frame index = some (.action .pass)) ∧
      ∀ key flags,
        xdpSockProg e (lookup m.Queues) frame index ≠ some (.redirectMap key flags) := by
  have hlookup := neverRegistered_lookup h hrun
  by_cases hk : index.toNat < n
  · rw [if_pos hk] at hlookup
    refine ⟨fun qidconfFd xsksFd => ?_, fun e frame => ⟨fun hm => ?_, fun key flags hto => ?_⟩⟩
    · simp only [builtinProg_eq, hlookup, if_pos, hk]
    · rw [xdpSockProg_passes_iff e frame hlookup]
      exact ⟨fun hf => hm ⟨hk, hf⟩, fun hv => hv.1 rfl⟩
    · rcases xdpSockProg_cases e frame hlookup with ⟨_, hp⟩ | ⟨hv, _⟩ | ⟨_, _, hp⟩
      · rw [hp] at hto
        cases hto
      · exact hv rfl
      · rw [hp] at hto
        cases hto
  · rw [if_neg hk] at hlookup
    refine ⟨fun qidconfFd xsksFd => ?_, fun e frame => ⟨fun _ => ?_, fun key flags => ?_⟩⟩
    · simp only [builtinProg_eq, hlookup, if_neg hk]
    · simp only [xdpSockProg, hlookup]
    · simp [xdpSockProg, hlookup]

theorem never_registered_verdicts_second :
    builtinProg 4 5 (lookup (⟨#v[1, 0]⟩ : ArrayMap 2)) (lookup (⟨#v[some 3, none]⟩ : XskMap 2)) 1 =
        some ⟨2, []⟩ ∧
      xdpSockProg .little (lookup (⟨#v[1, 0]⟩ : ArrayMap 2)) synFrame 1 = some (.action .pass) := by
  have hne : NeverRegistered 1 [.register 0 3 none none] := by
    intro c hc
    rw [List.mem_singleton.mp hc]
    exact ⟨0, 3, none, none, rfl, by decide⟩
  have hrun : (history [.register 0 3 none none]).run (newMaps 2) =
      some ((), ⟨⟨#v[1, 0]⟩, ⟨#v[some 3, none]⟩⟩) := rfl
  obtain ⟨hbuiltin, hsock⟩ := never_registered_verdicts hne hrun
  exact ⟨hbuiltin 4 5, (hsock .little synFrame).1 fun h => synFrame_carries.not_malformed h.2⟩

/-- Neither program passes all traffic of the queues that were never registered: a queue
outside the maps is aborted by the built-in program, a valid frame by `xdp_sock_prog`. -/
theorem never_registered_aborted :
    (∃ n index calls m, NeverRegistered index calls ∧
      (history calls).run (newMaps n) = some ((), m) ∧
      builtinProg 4 5 (lookup m.Queues) (lookup m.Sockets) index = some ⟨0, []⟩) ∧
    ∃ n index calls m, NeverRegistered index calls ∧
      (history calls).run (newMaps n) = some ((), m) ∧
      xdpSockProg .little (lookup m.Queues) lastFragment index = some (.action .aborted) :=
  ⟨⟨1, 1, [], newMaps 1, by simp [NeverRegistered], rfl, by rw [builtinProg_eq]; rfl⟩,
    1, 0, [], newMaps 1, by simp [NeverRegistered], rfl, by decide⟩

/-- What the documentation promises of an `Unregister` of the queue that returned `err` and
took the maps from `m` to `m'`. -/
structure Unregistered (queueID : ℤ) (err : Option GoError)
    (m m' : Maps (ArrayMap n) (XskMap n)) : Prop where
  succeeds : err = none
  noSocket : lookup m'.Sockets (UInt32.ofInt queueID) = none
  notRedirected : ∀ later m'', (∀ c ∈ later, c.Spares (UInt32.ofInt queueID)) →
    (history later).run m' = some ((), m'') →
    (∀ e frame key flags, xdpSockProg e (lookup m''.Queues) frame (UInt32.ofInt queueID) ≠
      some (.redirectMap key flags)) ∧
    ∀ qidconfFd xsksFd exit,
      builtinProg qidconfFd xsksFd (lookup m''.Queues) (lookup m''.Sockets)
        (UInt32.ofInt queueID) = some exit → exit.calls = []
  others : ∀ j, j ≠ UInt32.ofInt queueID →
    lookup m'.Queues j = lookup m.Queues j ∧ lookup m'.Sockets j = lookup m.Sockets j

theorem register_lookup {queueID fd : ℤ} {fault₁ fault₂ : Option Errno}
    {m m' : Maps (ArrayMap n) (XskMap n)}
    (h : (register queueID fd fault₁ fault₂).run m = some (none, m')) :
    lookup m'.Queues (UInt32.ofInt queueID) = some 1 ∧
      lookup m'.Sockets (UInt32.ofInt queueID) = some (UInt32.ofInt fd) := by
  rcases register_run h with ⟨e, he, _⟩ | ⟨s, hs, ⟨e, he, _⟩ | ⟨q, hq, _, rfl⟩⟩
  · cases he
  · cases he
  · rw [(ArrayMap.update_eq_ok hq).2, (XskMap.update_eq_ok hs).2, if_pos rfl, if_pos rfl]
    exact ⟨rfl, rfl⟩

/-- `Unregister` never undoes a `Register`, whatever calls led to the maps `m`: it returns an
error and leaves both maps as they are, so the socket stays and both programs go on
redirecting to it. -/
theorem unregister_never_undoes {queueID fd : ℤ}
    {fault₁ fault₂ fault₃ fault₄ : Option Errno} {m m₁ m₂ : Maps (ArrayMap n) (XskMap n)}
    {err : Option GoError}
    (hregister : (register queueID fd fault₁ fault₂).run m = some (none, m₁))
    (hunregister : (unregister queueID fault₃ fault₄).run m₁ = some (err, m₂)) :
    ¬ Unregistered queueID err m₁ m₂ ∧ err ≠ none ∧ m₂ = m₁ ∧
      lookup m₂.Sockets (UInt32.ofInt queueID) = some (UInt32.ofInt fd) ∧
      (∀ e frame, CarriesTcpTo 7777 frame →
        xdpSockProg e (lookup m₂.Queues) frame (UInt32.ofInt queueID) =
          some (.redirectMap (UInt32.ofInt queueID) 0)) ∧
      ∀ qidconfFd xsksFd,
        builtinProg qidconfFd xsksFd (lookup m₂.Queues) (lookup m₂.Sockets)
          (UInt32.ofInt queueID) = some ⟨4, [⟨xsksFd, UInt32.ofInt queueID, 0⟩]⟩ := by
  obtain ⟨hq, hs⟩ := register_lookup hregister
  rw [unregister_run] at hunregister
  cases hunregister
  refine ⟨fun h => Option.some_ne_none _ h.succeeds, Option.some_ne_none _, rfl, hs, ?_, ?_⟩
  · intro e frame hto
    exact (xdpSockProg_redirects_iff e frame hq).mpr ⟨by decide, hto⟩
  · intro qidconfFd xsksFd
    simp only [builtinProg_eq, hq]
    rw [if_neg (by decide), bpfRedirectMap, hs]
    rfl

theorem unregister_never_undoes_first :
    ¬ Unregistered 0 (some ⟨"", .EINVAL⟩) (⟨⟨#v[1]⟩, ⟨#v[some 3]⟩⟩ : Maps (ArrayMap 1) (XskMap 1))
      ⟨⟨#v[1]⟩, ⟨#v[some 3]⟩⟩ :=
  have hregister : (register 0 3 none none).run (newMaps 1) =
      some (none, ⟨⟨#v[1]⟩, ⟨#v[some 3]⟩⟩) := rfl
  have hunregister := unregister_run 0 none none ⟨⟨#v[1]⟩, ⟨#v[some 3]⟩⟩
  (unregister_never_undoes hregister hunregister).1

theorem unregister_leaves_socket :
    ¬ ∀ n calls queueID fd m m₁ m₂ err,
      (history calls).run (newMaps n) = some ((), m) →
      (register queueID fd none none).run m = some (none, m₁) →
      (unregister queueID none none).run m₁ = some (err, m₂) →
      Unregistered queueID err m₁ m₂ := by
  intro h
  have hundone := h 1 [] 0 3 (newMaps 1) ⟨⟨#v[1]⟩, ⟨#v[some 3]⟩⟩ ⟨⟨#v[1]⟩, ⟨#v[some 3]⟩⟩
    (some ⟨"", .EINVAL⟩) rfl rfl rfl
  exact Option.some_ne_none _ hundone.succeeds

end Defrizer.ProgramRegistration
