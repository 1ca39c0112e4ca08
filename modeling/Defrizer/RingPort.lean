import Defrizer.InterleavedProgram
import Defrizer.WrappingRing

/-!
# One end of a ring

A ring inside a larger state, used at one end by a program and at the other end by the
environment. `submit` is the producer's batch and `collect` the consumer's; each takes
effect at the moment at which it reads the counter of the other party.
-/
namespace Defrizer.RingPort
open InterleavedProgram WrappingRing

/-- Access to a ring that may not exist. -/
structure Port (σ α : Type) (n : ℕ) where
  get : σ → Option (Ring α n)
  set : Ring α n → σ → σ
  get_set : ∀ r s, get (set r s) = some r
  set_set : ∀ r r' s, set r (set r' s) = set r s
  set_get : ∀ {r s}, get s = some r → set r s = s

variable {σ α β γ ℓ : Type} {n : ℕ}

section Programs
variable (port : Port σ α n)

/-- An atomic action on the ring and, for a value with `ok`, on the rest of the state. -/
def touch (f : Ring α n → Option (β × Ring α n)) (ok : β → Bool) (mark : β → σ → σ) : Prog σ β :=
  atomic fun s => do
    let r ← port.get s
    let (b, r') ← f r
    if ok b then some (b, mark b (port.set r' s)) else none

def producer : Prog σ UInt32 := fetch fun s => (port.get s).map Ring.producer

def consumer : Prog σ UInt32 := fetch fun s => (port.get s).map Ring.consumer

/-- The free slots between two readings of the counters, clamped to the size. -/
def freeSlots (size : ℤ) (prod cons : UInt32) : ℤ :=
  let max := UInt32.ofInt size
  let n := max - (prod - cons)
  let n := if n > max then max else n
  n.toNat

/-- The available entries between two readings of the counters, clamped to the size. -/
def available (size : ℤ) (prod cons : UInt32) : ℤ :=
  let max := UInt32.ofInt size
  let n := prod - cons
  let n := if n > max then max else n
  n.toNat

def numFreeSlots (size : ℤ) : Prog σ ℤ := do
  let prod ← producer port
  let cons ← consumer port
  return freeSlots size prod cons

def numAvailable (size : ℤ) : Prog σ ℤ := do
  let prod ← producer port
  let cons ← consumer port
  return available size prod cons

/-- Writes the entry at the counter `prod` and marks it. -/
def writeEntry (size : ℤ) (x : α) (ok : Bool) (mark : σ → σ) (prod : UInt32) : Prog σ Unit :=
  touch port (fun r => (r.write (prod &&& UInt32.ofInt (size - 1)).toNat x).map fun r' => ((), r'))
    (fun _ => ok) fun _ => mark

def readEntry (size : ℤ) (ok : α → Bool) (mark : α → σ → σ) (cons : UInt32) : Prog σ α :=
  touch port (fun r => (r.read (cons &&& UInt32.ofInt (size - 1)).toNat).map fun x => (x, r))
    ok mark

/-- The loop of a submission, from the counter `prod` on. -/
def writeEntries (size : ℤ) (entry : γ → α) (ok : γ → Bool) (mark : γ → σ → σ) :
    List γ → UInt32 → Prog σ UInt32
  | [], prod => .ret prod
  | d :: ds, prod => do
    writeEntry port size (entry d) (ok d) (mark d) prod
    writeEntries size entry ok mark ds (prod + 1)

def readEntries (size : ℤ) (ok : α → Bool) (mark : α → σ → σ) :
    ℕ → UInt32 → Prog σ (List α × UInt32)
  | 0, cons => .ret ([], cons)
  | m + 1, cons => do
    let x ← readEntry port size ok mark cons
    let (xs, cons') ← readEntries size ok mark m (cons + 1)
    return (x :: xs, cons')

def publishProducer (prod : UInt32) : Prog σ Unit :=
  touch port (fun r => some ((), { r with producer := prod })) (fun _ => true) fun _ s => s

def publishConsumer (cons : UInt32) : Prog σ Unit :=
  touch port (fun r => some ((), { r with consumer := cons })) (fun _ => true) fun _ s => s

def trim (k : ℤ) (ds : List γ) : List γ := if k < ds.length then ds.take k.toNat else ds

def submit (size : ℤ) (entry : γ → α) (ok : γ → Bool) (mark : γ → σ → σ) (count : ℤ → σ → σ)
    (ds : List γ) : Prog σ ℤ := do
  let numFreeSlots ← numFreeSlots port size
  let ds := trim numFreeSlots ds
  let prod ← producer port
  let prod ← writeEntries port size entry ok mark ds prod
  publishProducer port prod
  store (count ds.length)
  return ds.length

def collect (size : ℤ) (ok : α → Bool) (mark : α → σ → σ) (count : List α → σ → σ) (num : ℤ) :
    Prog σ (List α) := do
  let cons ← consumer port
  let (xs, cons) ← readEntries port size ok mark num.toNat cons
  publishConsumer port cons
  store (count xs)
  return xs

end Programs

/-- What the other party does to the ring: nothing, or a step at the consumer end. -/
def Takes : Option α → Ring α n → Ring α n → Prop
  | none, r, r' => r' = r
  | some x, r, r' => r.take = some (x, r')

/-- What the other party does to the ring: nothing, or a step at the producer end with an
entry that is acceptable. -/
def Gives (ok : α → Bool) : Option α → Ring α n → Ring α n → Prop
  | none, r, r' => r' = r
  | some x, r, r' => r.give x = some r' ∧ ok x

/-- The environment meets the ring only in steps of `T`, whatever else the ring holds. -/
def Meets (R : σ → ℓ → σ → Prop) (port : Port σ α n)
    (T : Option α → Ring α n → Ring α n → Prop) : Prop :=
  ∀ s l s' r, R s l s' → port.get s = some r →
    ∃ x r', T x r r' ∧ port.get s' = some r' ∧
      ∀ r₂ r₂', T x r₂ r₂' → R (port.set r₂ s) l (port.set r₂' s')

/-- A change beside the ring. -/
structure Aside (port : Port σ α n) (v : σ → σ) : Prop where
  get : ∀ s, port.get (v s) = port.get s
  set : ∀ r s, v (port.set r s) = port.set r (v s)

/-- A change beside the ring that the environment does not notice either. -/
structure Private (R : σ → ℓ → σ → Prop) (port : Port σ α n) (v : σ → σ) : Prop
    extends Aside port v where
  step : ∀ s l s', R s l s' → R (v s) l (v s')

def OnRing (port : Port σ α n) (p : Ring α n → Prop) (s : σ) : Prop :=
  ∃ r, port.get s = some r ∧ p r

section Rules
variable {port : Port σ α n} {R : σ → ℓ → σ → Prop} {T : Option α → Ring α n → Ring α n → Prop}
  {p : Ring α n → Prop}

theorem Private.id : Private R port (fun s => s) := 
  ⟨⟨fun _ => rfl, fun _ _ => rfl⟩, fun _ _ _ h => h⟩

theorem stable_onRing (meets : Meets R port T) (stable : ∀ x r r', p r → T x r r' → p r') :
    Stable R (OnRing port p) := by
  rintro s l s' ⟨r, hr, hp⟩ hR
  obtain ⟨x, r', hT, hr', _⟩ := meets s l s' r hR hr
  exact ⟨r', hr', stable x r r' hp hT⟩

/-- An action on the ring runs first when the ring alone says so. -/
theorem runsFirst_touch (meets : Meets R port T) {f : Ring α n → Option (β × Ring α n)}
    {ok : β → Bool} {mark : β → σ → σ} {q : β → Ring α n → Prop}
    (stable : ∀ x r r', p r → T x r r' → p r')
    (defined : ∀ r, p r → ∃ b r', f r = some (b, r') ∧ ok b = true ∧ q b r')
    (commutes : ∀ x r r' b r₂', p r → T x r r' → f r' = some (b, r₂') →
      ∃ r₂, f r = some (b, r₂) ∧ T x r₂ r₂')
    (priv : ∀ b, ok b = true → Private R port (mark b)) :
    RunsFirst R (OnRing port p) (touch port f ok mark) fun b => OnRing port (q b) := by
  apply runsFirst_atomic (stable_onRing meets stable)
  · rintro s ⟨r, hr, hp⟩
    obtain ⟨b, r', hf, hok, hq⟩ := defined r hp
    refine ⟨b, mark b (port.set r' s), by simp [hr, hf, hok], r', ?_, hq⟩
    rw [(priv b hok).get, port.get_set]
  · rintro s l s₁ b s₂ ⟨r, hr, hp⟩ hR hf
    obtain ⟨x, r', hT, hr', hback⟩ := meets s l s₁ r hR hr
    simp only [hr', Option.bind_eq_bind, Option.bind_some] at hf
    obtain ⟨⟨c, r₂'⟩, hf', hif⟩ := Option.bind_eq_some_iff.mp hf
    simp only [Option.ite_none_right_eq_some, Option.some.injEq, Prod.mk.injEq] at hif
    obtain ⟨hok, rfl, rfl⟩ := hif
    obtain ⟨r₂, hf₂, hT₂⟩ := commutes x r r' c r₂' hp hT hf'
    exact ⟨mark c (port.set r₂ s), by simp [hr, hf₂, hok], (priv c hok).step _ _ _ (hback _ _ hT₂)⟩

theorem runsFirst_read (meets : Meets R port T) {g : Ring α n → β} {q : β → Ring α n → Prop}
    (stable : ∀ x r r', p r → T x r r' → p r') (own : ∀ x r r', T x r r' → g r' = g r)
    (read : ∀ r, p r → q (g r) r) :
    RunsFirst R (OnRing port p) (fetch fun s => (port.get s).map g) fun b => OnRing port (q b) := by
  apply runsFirst_fetch (stable_onRing meets stable)
  · rintro s l s' ⟨r, hr, _⟩ hR
    obtain ⟨x, r', hT, hr', _⟩ := meets s l s' r hR hr
    rw [hr, hr', Option.map_some, Option.map_some, own x r r' hT]
  · rintro s ⟨r, hr, hp⟩
    exact ⟨g r, by rw [hr, Option.map_some], r, hr, read r hp⟩

theorem runsFirst_store (meets : Meets R port T) {v : σ → σ}
    (stable : ∀ x r r', p r → T x r r' → p r') (priv : Private R port v) :
    RunsFirst R (OnRing port p) (store v) fun _ => OnRing port p := by
  apply runsFirst_atomic (stable_onRing meets stable)
  · rintro s ⟨r, hr, hp⟩
    exact ⟨(), v s, rfl, r, by rw [priv.get, hr], hp⟩
  · rintro s l s₁ a s₂ _ hR hf
    cases hf
    exact ⟨v s, rfl, priv.step s l s₁ hR⟩

end Rules

end Defrizer.RingPort
