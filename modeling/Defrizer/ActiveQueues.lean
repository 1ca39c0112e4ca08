import Defrizer.ProgramRegistration
import Defrizer.FilterSoundness
import Defrizer.BuiltinProgram

/-!
# Active queues have sockets

The order of the map operations in `Register` and `Unregister` keeps every active queue
served at every moment, whatever fails; so neither program redirects to an empty slot.
-/
namespace Defrizer.ProgramRegistration
open InterleavedProgram KernelMaps KernelMap FilterPrograms BuiltinProgram ByteFields

section Served
variable {Q S : Type} [KernelMap Q] [KernelMap S]

def Maps.Served (m : Maps Q S) : Prop := ActiveHasSocket (lookup m.Queues) (lookup m.Sockets)

/-- Neither program calls `bpf_redirect_map` on an empty slot. -/
def Maps.RedirectsToSockets (m : Maps Q S) : Prop :=
  (∀ e frame index key flags,
    xdpSockProg e (lookup m.Queues) frame index = some (.redirectMap key flags) →
      (lookup m.Sockets key).isSome) ∧
  ∀ qidconfFd xsksFd index exit,
    builtinProg qidconfFd xsksFd (lookup m.Queues) (lookup m.Sockets) index = some exit →
      ∀ c ∈ exit.calls, (lookup m.Sockets c.key).isSome

theorem Maps.Empty.served {m : Maps Q S} (h : m.Empty) : m.Served := by
  intro k v hk hv
  have hz := h.1 k
  simp only [hk, List.mem_cons, reduceCtorEq, Option.some.injEq, List.not_mem_nil] at hz
  simp [hv] at hz

theorem xdpSockProg_redirectMap {e : ByteOrder} {q : UInt32 → Option UInt32} {frame : List UInt8}
    {index key : UInt32} {flags : UInt64}
    (h : xdpSockProg e q frame index = some (.redirectMap key flags)) :
    key = index ∧ ∃ v, q index = some v ∧ v ≠ 0 ∧ CarriesTcpTo 7777 frame := by
  cases hq : q index with
  | none => simp [xdpSockProg, hq] at h
  | some v =>
    rcases xdpSockProg_cases e frame hq with ⟨_, hp⟩ | ⟨hv, hto, hp⟩ | ⟨_, _, hp⟩
    · simp [hp] at h
    · simp only [hp, Option.some.injEq, XdpExit.redirectMap.injEq] at h
      exact ⟨h.1.symm, v, rfl, hv, hto⟩
    · simp [hp] at h

theorem builtinProg_calls {qidconfFd xsksFd : ℤ} {q xsks : UInt32 → Option UInt32}
    {index : UInt32} {exit : BytecodeMachine.Exit}
    (h : builtinProg qidconfFd xsksFd q xsks index = some exit) :
    ∀ c ∈ exit.calls, c.key = index ∧ ∃ v, q index = some v ∧ v ≠ 0 := by
  rw [builtinProg_eq, Option.some.injEq] at h
  cases hq : q index with
  | none => simp [← h, hq]
  | some v => by_cases hv : v = 0 <;> simp [← h, hq, hv]

theorem Maps.Served.redirects {m : Maps Q S} (h : m.Served) : m.RedirectsToSockets := by
  constructor
  · intro e frame index key flags hexit
    obtain ⟨rfl, v, hq, hv, _⟩ := xdpSockProg_redirectMap hexit
    exact h _ v hq hv
  · intro qidconfFd xsksFd index exit hexit c hc
    obtain ⟨rfl, v, hq, hv⟩ := builtinProg_calls hexit c hc
    exact h _ v hq hv

theorem outline_mapCall {P P' : Maps Q S → Prop} {fault : Option Errno} {context : String}
    {op : Maps Q S → Except Errno (Maps Q S)} {rest : Prog (Maps Q S) (Option GoError)}
    (served : ∀ m, P m → m.Served) (served' : ∀ m, P' m → m.Served)
    (step : ∀ m m', P m → op m = .ok m' → P' m')
    (hrest : Outline Observe Maps.Served P' rest fun _ => Maps.Served) :
    Outline Observe Maps.Served P ((mapCall fault op).bind (orReturn context rest))
      fun _ => Maps.Served := by
  apply outline_bind (Q := fun r m => m.Served ∧ (r = .ok () → P' m))
  · apply outline_atomic (allows_observe served) fun r => allows_observe fun _ h => h.1
    intro m r m' hm hr
    cases fault with
    | some e =>
      cases hr
      exact ⟨served m hm, by simp⟩
    | none =>
      cases hop : op m with
      | error e =>
        simp only [hop, Option.some.injEq, Prod.mk.injEq] at hr
        obtain ⟨rfl, rfl⟩ := hr
        exact ⟨served m hm, by simp⟩
      | ok m₁ =>
        simp only [hop, Option.some.injEq, Prod.mk.injEq] at hr
        obtain ⟨rfl, rfl⟩ := hr
        have hm₁ := step m m₁ hm hop
        exact ⟨served' m₁ hm₁, fun _ => hm₁⟩
  · intro r
    cases r with
    | error e => exact outline_ret (allows_observe fun _ h => h.1) fun _ h => h.1
    | ok _ => exact fun m ms r m' hm he => hrest m ms r m' (hm.2 rfl) he

theorem putSocket_served [LawfulMap S] {k v : UInt32} {m m' : Maps Q S} (hm : m.Served)
    (h : putSocket k v m = .ok m') : m'.Served ∧ (lookup m'.Sockets k).isSome := by
  obtain ⟨s, hs, rfl⟩ := map_eq_ok h
  have hlookup := LawfulMap.lookup_update hs
  refine ⟨fun j w hq hw => ?_, by simp [hlookup]⟩
  rw [hlookup]
  split_ifs with hj
  · rfl
  · exact hm j w hq hw

theorem putQueue_served [LawfulMap Q] {k v : UInt32} {m m' : Maps Q S}
    (hm : m.Served ∧ (lookup m.Sockets k).isSome) (h : putQueue k v m = .ok m') : m'.Served := by
  obtain ⟨q, hq, rfl⟩ := map_eq_ok h
  intro j w hj hw
  rw [LawfulMap.lookup_update hq] at hj
  split_ifs at hj with hjk
  · exact hjk ▸ hm.2
  · exact hm.1 j w hj hw

theorem deleteQueue_served [LawfulMap Q] {k : UInt32} {m m' : Maps Q S} (hm : m.Served)
    (h : deleteQueue k m = .ok m') : m'.Served ∧ lookup m'.Queues k ∈ [none, some 0] := by
  obtain ⟨q, hq, rfl⟩ := map_eq_ok h
  have hk := LawfulMap.lookup_delete hq
  refine ⟨fun j w hj hw => ?_, hk⟩
  by_cases hjk : j = k
  · rw [hjk] at hj
    simp [hj, hw] at hk
  · rw [LawfulMap.lookup_delete_other hq j hjk] at hj
    exact hm j w hj hw

theorem deleteSocket_served [LawfulMap S] {k : UInt32} {m m' : Maps Q S}
    (hm : m.Served ∧ lookup m.Queues k ∈ [none, some 0]) (h : deleteSocket k m = .ok m') :
    m'.Served := by
  obtain ⟨s, hs, rfl⟩ := map_eq_ok h
  intro j w hj hw
  by_cases hjk : j = k
  · have hk := hm.2
    rw [← hjk, hj] at hk
    simp [hw] at hk
  · rw [LawfulMap.lookup_delete_other hs j hjk]
    exact hm.1 j w hj hw

variable [LawfulMap Q] [LawfulMap S]

theorem register_served (queueID fd : ℤ) (fault₁ fault₂ : Option Errno) :
    Outline Observe Maps.Served Maps.Served
      (register queueID fd fault₁ fault₂ : Prog (Maps Q S) _) fun _ => Maps.Served := by
  apply outline_mapCall (fun _ h => h) (fun _ h => h.1) (fun _ _ => putSocket_served)
  apply outline_mapCall (fun _ h => h.1) (fun _ h => h) (fun _ _ => putQueue_served)
  exact outline_ret (allows_observe fun _ h => h) fun _ h => h

theorem unregister_served (queueID : ℤ) (fault₁ fault₂ : Option Errno) :
    Outline Observe Maps.Served Maps.Served
      (unregister queueID fault₁ fault₂ : Prog (Maps Q S) _) fun _ => Maps.Served := by
  apply outline_mapCall (fun _ h => h) (fun _ h => h.1) (fun _ _ => deleteQueue_served)
  apply outline_mapCall (fun _ h => h.1) (fun _ h => h) (fun _ _ => deleteSocket_served)
  exact outline_ret (allows_observe fun _ h => h) fun _ h => h

theorem history_served (calls : List Call) :
    Outline Observe Maps.Served Maps.Served (history calls : Prog (Maps Q S) _)
      fun _ => Maps.Served := by
  induction calls with
  | nil => exact outline_ret (allows_observe fun _ h => h) fun _ h => h
  | cons c cs ih =>
    refine outline_bind (Q := fun _ => Maps.Served) ?_ fun _ => ih
    cases c with
    | register q fd fault₁ fault₂ => exact register_served q fd fault₁ fault₂
    | unregister q fault₁ fault₂ => exact unregister_served q fault₁ fault₂

/-- A queue marked active always has its socket, at every moment of every sequence of calls
with any failures, and so neither program ever redirects to an empty slot. -/
theorem active_queue_has_socket {calls : List Call} {m₀ m : Maps Q S} {r : Option Unit}
    {moments : List (Maps Q S)} (empty : m₀.Empty)
    (run : Exec Observe (history calls) m₀ moments r m) :
    ∀ s ∈ moments, ActiveHasSocket (lookup s.Queues) (lookup s.Sockets) ∧
      s.RedirectsToSockets := by
  intro s hs
  have h := (history_served calls m₀ moments r m empty.served run).1 s hs
  exact ⟨h, h.redirects⟩

end Served

theorem active_queue_has_socket_register :
    ActiveHasSocket (lookup (⟨#v[1]⟩ : ArrayMap 1)) (lookup (⟨#v[some 3]⟩ : XskMap 1)) ∧
      Maps.RedirectsToSockets (⟨⟨#v[1]⟩, ⟨#v[some 3]⟩⟩ : Maps (ArrayMap 1) (XskMap 1)) :=
  active_queue_has_socket (newMaps_empty 1)
    (show Exec Observe (history [.register 0 3 none none]) _
      [newMaps 1, ⟨ArrayMap.new 1, ⟨#v[some 3]⟩⟩, ⟨⟨#v[1]⟩, ⟨#v[some 3]⟩⟩] _ _ from
      .env ⟨rfl, rfl⟩ (.act rfl (.env ⟨rfl, rfl⟩ (.act rfl (.env ⟨rfl, rfl⟩ (.ret _ _))))))
    ⟨⟨#v[1]⟩, ⟨#v[some 3]⟩⟩ (by simp)

end Defrizer.ProgramRegistration
