import Mathlib

/-!
# Programs of atomic actions under interference

A program is a tree of atomic actions on a shared state, any of which can fail. `run` executes
it alone; `Exec` lets a labelled environment take steps before every action and before the
end. The rules below reduce the second to the first: if, from some moment on, every action
can be moved in front of the environment steps before it, the program takes effect at once.
-/
namespace Defrizer.InterleavedProgram

inductive Prog (σ α : Type) : Type 1
  | ret (a : α)
  | act {β : Type} (f : σ → Option (β × σ)) (k : β → Prog σ α)

variable {σ α γ ℓ : Type}

def Prog.bind : Prog σ α → (α → Prog σ γ) → Prog σ γ
  | .ret a, g => g a
  | .act f k, g => .act f fun b => (k b).bind g

instance : Monad (Prog σ) where
  pure := Prog.ret
  bind := Prog.bind

/-- A single atomic action. -/
def atomic (f : σ → Option (α × σ)) : Prog σ α := .act f .ret

/-- An atomic read of the state, which fails where there is nothing to read. -/
def fetch (g : σ → Option α) : Prog σ α := atomic fun s => (g s).map fun a => (a, s)

/-- An atomic update that cannot fail. -/
def store (u : σ → σ) : Prog σ Unit := atomic fun s => some ((), u s)

def runAll {ι : Type} (prog : ι → Prog σ α) : List ι → Prog σ (List α)
  | [] => .ret []
  | i :: is => (prog i).bind fun a => (runAll prog is).bind fun as => .ret (a :: as)

/-- The program executed without interference; `none` when an action fails. -/
def Prog.run : Prog σ α → σ → Option (α × σ)
  | .ret a, s => some (a, s)
  | .act f k, s => (f s).bind fun r => (k r.1).run r.2

@[simp] theorem pure_def (a : α) : (pure a : Prog σ α) = .ret a := rfl

@[simp] theorem bind_def (p : Prog σ α) (g : α → Prog σ γ) : p >>= g = p.bind g := rfl

@[simp] theorem run_ret (a : α) (s : σ) : (Prog.ret a : Prog σ α).run s = some (a, s) := rfl

@[simp] theorem run_atomic (f : σ → Option (α × σ)) (s : σ) : (atomic f).run s = f s := by
  cases h : f s <;> simp [atomic, Prog.run, h]

@[simp] theorem run_fetch (g : σ → Option α) (s : σ) :
    (fetch g).run s = (g s).map fun a => (a, s) := by
  rw [fetch, run_atomic]

@[simp] theorem run_store (u : σ → σ) (s : σ) : (store u).run s = some ((), u s) := rfl

@[simp] theorem run_bind (p : Prog σ α) (g : α → Prog σ γ) (s : σ) :
    (p.bind g).run s = (p.run s).bind fun r => (g r.1).run r.2 := by
  induction p generalizing s with
  | ret a => rfl
  | act f k ih =>
    simp only [Prog.bind, Prog.run, Option.bind_assoc]
    congr 1
    funext r
    exact ih r.1 r.2

theorem bind_assoc {δ : Type} (p : Prog σ α) (g : α → Prog σ γ) (h : γ → Prog σ δ) :
    (p.bind g).bind h = p.bind fun a => (g a).bind h := by
  induction p with
  | ret a => rfl
  | act f k ih => simp only [Prog.bind, ih]

theorem bind_ret (p : Prog σ α) : p.bind .ret = p := by
  induction p with
  | ret a => rfl
  | act f k ih => simp only [Prog.bind, ih]

@[simp] theorem ret_bind (a : α) (g : α → Prog σ γ) : (Prog.ret a).bind g = g a := rfl

/-- A sequence of environment steps with their labels. -/
inductive Steps (R : σ → ℓ → σ → Prop) : σ → List ℓ → σ → Prop
  | nil (s : σ) : Steps R s [] s
  | cons {s s₁ s' : σ} {l : ℓ} {ls : List ℓ} (step : R s l s₁) (rest : Steps R s₁ ls s') :
      Steps R s (l :: ls) s'

/-- Execution with environment steps in between; the result is `none` when an action fails. -/
inductive Exec (R : σ → ℓ → σ → Prop) : Prog σ α → σ → List ℓ → Option α → σ → Prop
  | ret (a : α) (s : σ) : Exec R (.ret a) s [] (some a) s
  | env {p : Prog σ α} {s s₁ s' : σ} {l : ℓ} {ls : List ℓ} {r : Option α}
      (step : R s l s₁) (rest : Exec R p s₁ ls r s') : Exec R p s (l :: ls) r s'
  | act {β : Type} {f : σ → Option (β × σ)} {k : β → Prog σ α} {s s₁ s' : σ} {b : β}
      {ls : List ℓ} {r : Option α} (done : f s = some (b, s₁))
      (rest : Exec R (k b) s₁ ls r s') : Exec R (.act f k) s ls r s'
  | fail {β : Type} {f : σ → Option (β × σ)} {k : β → Prog σ α} {s : σ} (stuck : f s = none) :
      Exec R (.act f k) s [] none s

variable {R : σ → ℓ → σ → Prop}

theorem Steps.append {s s₁ s' : σ} {ls ls' : List ℓ} (h : Steps R s ls s₁)
    (h' : Steps R s₁ ls' s') : Steps R s (ls ++ ls') s' := by
  induction h with
  | nil => exact h'
  | cons step _ ih => exact .cons step (ih h')

theorem Exec.after {p : Prog σ α} {s s₁ s' : σ} {ls ls' : List ℓ} {r : Option α}
    (h : Steps R s ls s₁) (h' : Exec R p s₁ ls' r s') : Exec R p s (ls ++ ls') r s' := by
  induction h with
  | nil => exact h'
  | cons step _ ih => exact .env step (ih h')

theorem Exec.append {p : Prog σ α} {s s₁ s' : σ} {ls ls' : List ℓ} {a : α}
    (h : Exec R p s ls (some a) s₁) (h' : Steps R s₁ ls' s') :
    Exec R p s (ls ++ ls') (some a) s' := by
  generalize hb : some a = b at h
  induction h with
  | ret c s =>
    induction h' with
    | nil => exact .ret c _
    | cons step _ ih => exact .env step ih
  | env step _ ih => exact .env step (ih h' hb)
  | act done _ ih => exact .act done (ih h' hb)
  | fail => cases hb

theorem Exec.of_run {p : Prog σ α} {s s' : σ} {a : α} (h : p.run s = some (a, s')) :
    Exec R p s [] (some a) s' := by
  induction p generalizing s with
  | ret b =>
    simp only [run_ret, Option.some.injEq, Prod.mk.injEq] at h
    obtain ⟨rfl, rfl⟩ := h
    exact .ret b s
  | act f k ih =>
    obtain ⟨⟨b, s₁⟩, hf, hk⟩ := Option.bind_eq_some_iff.mp h
    exact .act hf (ih b hk)

theorem Exec.ret_inv {a : α} {s s' : σ} {ls : List ℓ} {r : Option α}
    (h : Exec R (.ret a) s ls r s') : r = some a ∧ Steps R s ls s' := by
  generalize hp : (Prog.ret a : Prog σ α) = p at h
  induction h with
  | ret b s => cases hp; exact ⟨rfl, .nil s⟩
  | env step _ ih => exact ⟨(ih hp).1, .cons step (ih hp).2⟩
  | act => cases hp
  | fail => cases hp

/-- An execution performs its first action after some environment steps, or fails there. -/
theorem Exec.act_inv {β : Type} {f : σ → Option (β × σ)} {k : β → Prog σ α} {s s' : σ}
    {ls : List ℓ} {r : Option α} (h : Exec R (.act f k) s ls r s') :
    ∃ ls₁ s₁ ls₂, ls = ls₁ ++ ls₂ ∧ Steps R s ls₁ s₁ ∧
      ((f s₁ = none ∧ r = none ∧ ls₂ = [] ∧ s' = s₁) ∨
        ∃ b s₂, f s₁ = some (b, s₂) ∧ Exec R (k b) s₂ ls₂ r s') := by
  generalize hp : Prog.act f k = p at h
  induction h with
  | ret => cases hp
  | env step _ ih =>
    obtain ⟨ls₁, s₁, ls₂, rfl, hsteps, hcase⟩ := ih hp
    exact ⟨_ :: ls₁, s₁, ls₂, rfl, .cons step hsteps, hcase⟩
  | @act β' f' k' s s₁ s' b ls r done rest _ =>
    cases hp
    exact ⟨[], s, ls, rfl, .nil s, Or.inr ⟨b, s₁, done, rest⟩⟩
  | fail stuck =>
    cases hp
    exact ⟨[], _, [], rfl, .nil _, Or.inl ⟨stuck, rfl, rfl, rfl⟩⟩

/-- An execution of a sequence is an execution of its first part followed by one of the
second, or fails in the first part. -/
theorem Exec.bind_inv {p : Prog σ α} {g : α → Prog σ γ} {s s' : σ} {ls : List ℓ} {r : Option γ}
    (h : Exec R (p.bind g) s ls r s') :
    (∃ ls₁ a s₁ ls₂, ls = ls₁ ++ ls₂ ∧ Exec R p s ls₁ (some a) s₁ ∧ Exec R (g a) s₁ ls₂ r s') ∨
      (r = none ∧ Exec R p s ls none s') := by
  induction p generalizing s ls with
  | ret a => exact Or.inl ⟨[], a, s, ls, rfl, .ret a s, h⟩
  | act f k ih =>
    obtain ⟨ls₁, s₁, ls₂, rfl, hsteps, hcase⟩ := Exec.act_inv h
    rcases hcase with ⟨hf, rfl, rfl, rfl⟩ | ⟨b, s₂, hf, hrest⟩
    · exact Or.inr ⟨rfl, .after hsteps (.fail hf)⟩
    · rcases ih b hrest with ⟨la, a, s₃, lb, rfl, he, hg⟩ | ⟨rfl, he⟩
      · exact Or.inl ⟨ls₁ ++ la, a, s₃, lb, (List.append_assoc _ _ _).symm,
          .after hsteps (.act hf he), hg⟩
      · exact Or.inr ⟨rfl, .after hsteps (.act hf he)⟩

lemma Exec.bind_returned {p : Prog σ α} {g : α → Prog σ γ} {s s' : σ} {ls : List ℓ} {c : γ}
    (h : Exec R (p.bind g) s ls (some c) s') :
    ∃ ls₁ a s₁ ls₂, ls = ls₁ ++ ls₂ ∧ Exec R p s ls₁ (some a) s₁ ∧
      Exec R (g a) s₁ ls₂ (some c) s' := by
  rcases h.bind_inv with hsplit | ⟨hnone, _⟩
  · exact hsplit
  · cases hnone

lemma Exec.atomic_returned {f : σ → Option (α × σ)} {s s' : σ} {ls : List ℓ} {a : α}
    (h : Exec R (InterleavedProgram.atomic f) s ls (some a) s') :
    ∃ ls₁ s₁ s₂ ls₂, ls = ls₁ ++ ls₂ ∧ Steps R s ls₁ s₁ ∧ f s₁ = some (a, s₂) ∧
      Steps R s₂ ls₂ s' := by
  obtain ⟨ls₁, s₁, ls₂, rfl, hbefore, hcase⟩ := h.act_inv
  rcases hcase with ⟨_, hnone, _⟩ | ⟨b, s₂, hf, hrest⟩
  · cases hnone
  · obtain ⟨hb, hafter⟩ := hrest.ret_inv
    cases hb
    exact ⟨ls₁, s₁, s₂, ls₂, rfl, hbefore, hf, hafter⟩

lemma Exec.of_run_none {p : Prog σ α} {s : σ} (h : p.run s = none) :
    ∃ s', Exec R p s [] none s' := by
  induction p generalizing s with
  | ret b => simp at h
  | act f k ih =>
    cases hf : f s with
    | none => exact ⟨s, .fail hf⟩
    | some r =>
      rw [Prog.run, hf, Option.bind_some] at h
      obtain ⟨s', hs'⟩ := ih r.1 h
      exact ⟨s', .act hf hs'⟩

/-- The environment keeps `P`. -/
def Stable (R : σ → ℓ → σ → Prop) (P : σ → Prop) : Prop := ∀ s l s', P s → R s l s' → P s'

theorem Stable.steps {P : σ → Prop} (hP : Stable R P) {s s' : σ} {ls : List ℓ}
    (h : Steps R s ls s') (hs : P s) : P s' := by
  induction h with
  | nil => exact hs
  | cons step _ ih => exact ih (hP _ _ _ hs step)

/-- From a state with `P` the program never fails and can be run before all the environment
steps that fall between its actions, with the same result and the same final state. -/
def RunsFirst (R : σ → ℓ → σ → Prop) (P : σ → Prop) (p : Prog σ α) (Q : α → σ → Prop) : Prop :=
  ∀ s ls r s', P s → Exec R p s ls r s' →
    ∃ a s₁, r = some a ∧ p.run s = some (a, s₁) ∧ Q a s₁ ∧ Steps R s₁ ls s'

/-- From a state with `P` the program never fails and takes effect at once, at some moment
between its beginning and its end. -/
def RunsAtomically (R : σ → ℓ → σ → Prop) (P : σ → Prop) (p : Prog σ α) : Prop :=
  ∀ s ls r s', P s → Exec R p s ls r s' →
    ∃ ls₁ s₁ a s₂ ls₂, ls = ls₁ ++ ls₂ ∧ r = some a ∧ Steps R s ls₁ s₁ ∧
      p.run s₁ = some (a, s₂) ∧ Steps R s₂ ls₂ s'

theorem runsFirst_ret {P : σ → Prop} {Q : α → σ → Prop} {a : α} (h : ∀ s, P s → Q a s) :
    RunsFirst R P (.ret a) Q := by
  intro s ls r s' hs he
  obtain ⟨rfl, hsteps⟩ := he.ret_inv
  exact ⟨a, s, rfl, rfl, h s hs, hsteps⟩

/-- An action that commutes with one environment step commutes with all of them. -/
theorem runsFirst_atomic {P : σ → Prop} {Q : α → σ → Prop} {f : σ → Option (α × σ)}
    (stable : Stable R P) (defined : ∀ s, P s → ∃ a s', f s = some (a, s') ∧ Q a s')
    (commutes : ∀ s l s₁ a s₂, P s → R s l s₁ → f s₁ = some (a, s₂) →
      ∃ s₃, f s = some (a, s₃) ∧ R s₃ l s₂) :
    RunsFirst R P (atomic f) Q := by
  have early : ∀ s ls s₁, Steps R s ls s₁ → P s → ∀ a s₂, f s₁ = some (a, s₂) →
      ∃ s₃, f s = some (a, s₃) ∧ Steps R s₃ ls s₂ := by
    intro s ls s₁ h
    induction h with
    | nil s => exact fun _ a s₂ hf => ⟨s₂, hf, .nil s₂⟩
    | cons step _ ih =>
      intro hs a s₂ hf
      obtain ⟨s₃, hf₃, hsteps⟩ := ih (stable _ _ _ hs step) a s₂ hf
      obtain ⟨s₄, hf₄, hstep⟩ := commutes _ _ _ _ _ hs step hf₃
      exact ⟨s₄, hf₄, .cons hstep hsteps⟩
  intro s ls r s' hs he
  obtain ⟨ls₁, s₁, ls₂, rfl, hsteps, hcase⟩ := he.act_inv
  obtain ⟨a, s₂, hf, _⟩ := defined s₁ (stable.steps hsteps hs)
  rcases hcase with ⟨hnone, _⟩ | ⟨b, s₂', hf', hrest⟩
  · rw [hf] at hnone
    cases hnone
  · obtain ⟨rfl, hafter⟩ := hrest.ret_inv
    obtain ⟨s₃, hf₃, hsteps₃⟩ := early s ls₁ s₁ hsteps hs b s₂' hf'
    obtain ⟨c, s₄, hf₄, hQ⟩ := defined s hs
    rw [hf₃] at hf₄
    cases hf₄
    exact ⟨b, s₃, rfl, by rw [run_atomic, hf₃], hQ, hsteps₃.append hafter⟩

theorem runsFirst_bind {P : σ → Prop} {Q : α → σ → Prop} {Q' : γ → σ → Prop} {p : Prog σ α}
    {g : α → Prog σ γ} (hp : RunsFirst R P p Q) (hg : ∀ a, RunsFirst R (Q a) (g a) Q') :
    RunsFirst R P (p.bind g) Q' := by
  intro s ls r s' hs he
  rcases he.bind_inv with ⟨ls₁, a, s₁, ls₂, rfl, hep, heg⟩ | ⟨_, hep⟩
  · obtain ⟨a', s₂, ha, hrun, hQ, hsteps⟩ := hp s ls₁ _ s₁ hs hep
    cases ha
    obtain ⟨c, s₃, rfl, hrun', hQ', hsteps'⟩ := hg a s₂ _ r s' hQ (heg.after hsteps)
    exact ⟨c, s₃, rfl, by rw [run_bind, hrun]; exact hrun', hQ', hsteps'⟩
  · obtain ⟨a, _, ha, _⟩ := hp s ls none s' hs hep
    cases ha

theorem RunsFirst.weaken {P P' : σ → Prop} {Q : α → σ → Prop} {p : Prog σ α}
    (h : RunsFirst R P p Q) (hP : ∀ s, P' s → P s) : RunsFirst R P' p Q :=
  fun s ls r s' hs he => h s ls r s' (hP s hs) he

theorem RunsFirst.of_fact {P : σ → Prop} {Q : α → σ → Prop} {p : Prog σ α} {F : Prop}
    (fact : ∀ s, P s → F) (h : F → RunsFirst R P p Q) : RunsFirst R P p Q :=
  fun s ls r s' hs he => h (fact s hs) s ls r s' hs he

theorem RunsAtomically.weaken {P P' : σ → Prop} {p : Prog σ α} (h : RunsAtomically R P p)
    (hP : ∀ s, P' s → P s) : RunsAtomically R P' p :=
  fun s ls r s' hs he => h s ls r s' (hP s hs) he

theorem RunsAtomically.of_fact {P : σ → Prop} {p : Prog σ α} {F : Prop} (fact : ∀ s, P s → F)
    (h : F → RunsAtomically R P p) : RunsAtomically R P p :=
  fun s ls r s' hs he => h (fact s hs) s ls r s' hs he

theorem RunsFirst.atomically {P : σ → Prop} {Q : α → σ → Prop} {p : Prog σ α}
    (h : RunsFirst R P p Q) : RunsAtomically R P p := by
  intro s ls r s' hs he
  obtain ⟨a, s₁, rfl, hrun, _, hsteps⟩ := h s ls r s' hs he
  exact ⟨[], s, a, s₁, ls, rfl, rfl, .nil s, hrun, hsteps⟩

theorem runsFirst_fetch {P : σ → Prop} {Q : α → σ → Prop} {g : σ → Option α}
    (stable : Stable R P) (own : ∀ s l s', P s → R s l s' → g s' = g s)
    (read : ∀ s, P s → ∃ a, g s = some a ∧ Q a s) : RunsFirst R P (fetch g) Q := by
  apply runsFirst_atomic stable
  · intro s hs
    obtain ⟨a, ha, hQ⟩ := read s hs
    exact ⟨a, s, by rw [ha, Option.map_some], hQ⟩
  · intro s l s₁ a s₂ hs hR hf
    obtain ⟨b, hb, heq⟩ := Option.map_eq_some_iff.mp hf
    cases heq
    exact ⟨s, by rw [← own s l s₁ hs hR, hb, Option.map_some], hR⟩

theorem Exec.fetch_inv {β : Type} {P : σ → Prop} {g : σ → Option β} {k : β → Prog σ α}
    (stable : Stable R P) (defined : ∀ s, P s → (g s).isSome) {s s' : σ} {ls : List ℓ}
    {r : Option α} (hs : P s) (h : Exec R ((fetch g).bind k) s ls r s') :
    ∃ ls₁ s₁ ls₂ b, ls = ls₁ ++ ls₂ ∧ Steps R s ls₁ s₁ ∧ P s₁ ∧ g s₁ = some b ∧
      Exec R (k b) s₁ ls₂ r s' := by
  obtain ⟨ls₁, s₁, ls₂, rfl, hsteps, hcase⟩ := Exec.act_inv h
  have hs₁ : P s₁ := stable.steps hsteps hs
  rcases hcase with ⟨hnone, _⟩ | ⟨b, s₂, hf, hrest⟩
  · have := defined s₁ hs₁
    simp [Option.map_eq_none_iff.mp hnone] at this
  · obtain ⟨c, hc, heq⟩ := Option.map_eq_some_iff.mp hf
    cases heq
    exact ⟨ls₁, s₁, ls₂, b, rfl, hsteps, hs₁, hc, hrest⟩

/-- A read of anything the environment may change, if the rest runs first: the program takes
effect at the read. -/
theorem runsAtomically_fetch {β : Type} {P : σ → Prop} {Q : α → σ → Prop} {C : β → σ → Prop}
    {g : σ → Option β} {k : β → Prog σ α} (stable : Stable R P)
    (read : ∀ s, P s → ∃ b, g s = some b ∧ C b s) (rest : ∀ b, RunsFirst R (C b) (k b) Q) :
    RunsAtomically R P ((fetch g).bind k) := by
  intro s ls r s' hs he
  have hdefined : ∀ s, P s → (g s).isSome := by
    intro s hs
    obtain ⟨b, hb, _⟩ := read s hs
    rw [hb]
    rfl
  obtain ⟨ls₁, s₁, ls₂, b, rfl, hsteps, hs₁, hb, hrest⟩ := he.fetch_inv stable hdefined hs
  obtain ⟨c, hc, hC⟩ := read s₁ hs₁
  rw [hb, Option.some.injEq] at hc
  subst hc
  obtain ⟨a, s₃, rfl, hrun, _, hafter⟩ := rest b s₁ ls₂ r s' hC hrest
  exact ⟨ls₁, s₁, a, s₃, ls₂, rfl, rfl, hsteps, by simpa [hb] using hrun, hafter⟩

/-- A read of something the environment leaves alone does not matter for the moment at which
the rest takes effect. -/
theorem runsAtomically_fetch_own {β : Type} {P : σ → Prop} {g : σ → Option β}
    {k : β → Prog σ α} (stable : Stable R P) (own : ∀ s l s', P s → R s l s' → g s' = g s)
    (defined : ∀ s, P s → (g s).isSome)
    (rest : ∀ b, RunsAtomically R (fun s => P s ∧ g s = some b) (k b)) :
    RunsAtomically R P ((fetch g).bind k) := by
  intro s ls r s' hs he
  obtain ⟨ls₁, s₁, ls₂, b, rfl, hsteps, hs₁, hb, hrest⟩ := he.fetch_inv stable defined hs
  obtain ⟨la, s₂, a, s₃, lb, rfl, rfl, hmid, hrun, hafter⟩ := rest b s₁ ls₂ r s' ⟨hs₁, hb⟩ hrest
  have hstable : Stable R fun s => P s ∧ g s = some b :=
    fun t l t' ht hR => ⟨stable t l t' ht.1 hR, (own t l t' ht.1 hR).trans ht.2⟩
  have hg : g s₂ = some b := (hstable.steps hmid ⟨hs₁, hb⟩).2
  exact ⟨ls₁ ++ la, s₂, a, s₃, lb, (List.append_assoc _ _ _).symm, rfl, hsteps.append hmid,
    by simpa [hg] using hrun, hafter⟩

/-- From a state with `P` the environment shows only labels with `O` and keeps `P`. -/
def Allows (R : σ → ℓ → σ → Prop) (O : ℓ → Prop) (P : σ → Prop) : Prop :=
  ∀ s l s', P s → R s l s' → O l ∧ P s'

/-- A proof outline: from a state with `P` all labels on the way have `O`, and what the
program returns satisfies `Q`. -/
def Outline (R : σ → ℓ → σ → Prop) (O : ℓ → Prop) (P : σ → Prop) (p : Prog σ α)
    (Q : α → σ → Prop) : Prop :=
  ∀ s ls r s', P s → Exec R p s ls r s' → (∀ l ∈ ls, O l) ∧ ∀ a, r = some a → Q a s'

variable {O : ℓ → Prop}

theorem Allows.steps {P : σ → Prop} (hP : Allows R O P) {s s' : σ} {ls : List ℓ}
    (h : Steps R s ls s') (hs : P s) : (∀ l ∈ ls, O l) ∧ P s' := by
  induction h with
  | nil => exact ⟨by simp, hs⟩
  | cons step _ ih =>
    obtain ⟨hl, hs₁⟩ := hP _ _ _ hs step
    obtain ⟨hls, hs'⟩ := ih hs₁
    exact ⟨List.forall_mem_cons.mpr ⟨hl, hls⟩, hs'⟩

theorem outline_ret {P : σ → Prop} {Q : α → σ → Prop} {a : α} (hP : Allows R O P)
    (h : ∀ s, P s → Q a s) : Outline R O P (.ret a) Q := by
  intro s ls r s' hs he
  obtain ⟨rfl, hsteps⟩ := he.ret_inv
  obtain ⟨hls, hs'⟩ := hP.steps hsteps hs
  refine ⟨hls, fun b hb => ?_⟩
  cases hb
  exact h s' hs'

theorem outline_atomic {P : σ → Prop} {Q : α → σ → Prop} {f : σ → Option (α × σ)}
    (hP : Allows R O P) (hQ : ∀ a, Allows R O (Q a))
    (h : ∀ s a s', P s → f s = some (a, s') → Q a s') : Outline R O P (atomic f) Q := by
  intro s ls r s' hs he
  obtain ⟨ls₁, s₁, ls₂, rfl, hsteps, hcase⟩ := he.act_inv
  obtain ⟨hls, hs₁⟩ := hP.steps hsteps hs
  rcases hcase with ⟨_, rfl, rfl, rfl⟩ | ⟨b, s₂, hf, hrest⟩
  · simpa using hls
  · obtain ⟨rfl, hafter⟩ := hrest.ret_inv
    obtain ⟨hls₂, hs'⟩ := (hQ b).steps hafter (h s₁ b s₂ hs₁ hf)
    refine ⟨fun l hl => (List.mem_append.mp hl).elim (hls l) (hls₂ l), fun a ha => ?_⟩
    cases ha
    exact hs'

theorem outline_bind {P : σ → Prop} {Q : α → σ → Prop} {Q' : γ → σ → Prop} {p : Prog σ α}
    {g : α → Prog σ γ} (hp : Outline R O P p Q) (hg : ∀ a, Outline R O (Q a) (g a) Q') :
    Outline R O P (p.bind g) Q' := by
  intro s ls r s' hs he
  rcases he.bind_inv with ⟨ls₁, a, s₁, ls₂, rfl, hep, heg⟩ | ⟨rfl, hep⟩
  · obtain ⟨hls, hQ⟩ := hp s ls₁ _ s₁ hs hep
    obtain ⟨hls₂, hQ'⟩ := hg a s₁ ls₂ r s' (hQ a rfl) heg
    exact ⟨fun l hl => (List.mem_append.mp hl).elim (hls l) (hls₂ l), hQ'⟩
  · exact ⟨(hp s ls none s' hs hep).1, by simp⟩

/-- The environment that looks at the state and changes nothing: its labels are the states
at the moments it looks. -/
def Observe : σ → σ → σ → Prop := fun s l s' => l = s ∧ s' = s

theorem allows_observe {P O : σ → Prop} (h : ∀ s, P s → O s) : Allows Observe O P := by
  rintro s l s' hs ⟨rfl, rfl⟩
  exact ⟨h _ hs, hs⟩

end Defrizer.InterleavedProgram
