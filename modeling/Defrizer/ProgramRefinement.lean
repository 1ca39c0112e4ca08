import Defrizer.InterleavedProgram

/-!
# Refinement of interleaved programs

A program refines another one when each of its interleaved executions is, under an
abstraction of the state, an interleaved execution of the other one with the same labels and
the same result.
-/
namespace Defrizer.InterleavedProgram

variable {σ τ α γ ℓ : Type} {R : σ → ℓ → σ → Prop} {R' : τ → ℓ → τ → Prop} {abs : σ → τ}
  {W : σ → Prop}

theorem Exec.bind {p : Prog σ α} {g : α → Prog σ γ} {s s₁ s' : σ} {ls ls' : List ℓ} {a : α}
    {r : Option γ} (h : Exec R p s ls (some a) s₁) (h' : Exec R (g a) s₁ ls' r s') :
    Exec R (p.bind g) s (ls ++ ls') r s' := by
  generalize hb : some a = b at h
  induction h with
  | ret c s => cases hb; exact h'
  | env step _ ih => exact .env step (ih h' hb)
  | act done _ ih => exact .act done (ih h' hb)
  | fail => cases hb

lemma Exec.runAll_cons {ι : Type} {prog : ι → Prog σ α} {i : ι} {is : List ι} {s s₁ s' : σ}
    {ls ls' : List ℓ} {a : α} {as : List α} (h : Exec R (prog i) s ls (some a) s₁)
    (h' : Exec R (runAll prog is) s₁ ls' (some as) s') :
    Exec R (runAll prog (i :: is)) s (ls ++ ls') (some (a :: as)) s' := by
  have hrest := h'.bind (g := fun as => .ret (a :: as)) (.ret (a :: as) s')
  rw [List.append_nil] at hrest
  exact h.bind hrest

theorem Exec.bind_fail {p : Prog σ α} (g : α → Prog σ γ) {s s' : σ} {ls : List ℓ}
    (h : Exec R p s ls none s') : Exec R (p.bind g) s ls none s' := by
  generalize hb : (none : Option α) = b at h
  induction h with
  | ret => cases hb
  | env step _ ih => exact .env step (ih hb)
  | act done _ ih => exact .act done (ih hb)
  | fail stuck => exact .fail stuck

theorem Exec.atomic {f : σ → Option (α × σ)} {s s₁ s₂ s' : σ} {ls₁ ls₂ : List ℓ} {a : α}
    (before : Steps R s ls₁ s₁) (h : f s₁ = some (a, s₂)) (after : Steps R s₂ ls₂ s') :
    Exec R (atomic f) s (ls₁ ++ ls₂) (some a) s' :=
  .after before (.act h ((Exec.ret a s₂).append after))

/-- The environment steps are matched by those of the abstract environment, as long as `W`
holds, and they keep `W`. -/
structure Simulates (R : σ → ℓ → σ → Prop) (R' : τ → ℓ → τ → Prop) (abs : σ → τ)
    (W : σ → Prop) : Prop where
  step : ∀ s l s', W s → R s l s' → R' (abs s) l (abs s')
  stable : Stable R W

theorem Simulates.steps (sim : Simulates R R' abs W) {s s' : σ} {ls : List ℓ} (hs : W s)
    (h : Steps R s ls s') : Steps R' (abs s) ls (abs s') ∧ W s' := by
  induction h with
  | nil s => exact ⟨.nil _, hs⟩
  | cons step _ ih =>
    obtain ⟨hsteps, hs'⟩ := ih (sim.stable _ _ _ hs step)
    exact ⟨.cons (sim.step _ _ _ hs step) hsteps, hs'⟩

def Refines (R : σ → ℓ → σ → Prop) (R' : τ → ℓ → τ → Prop) (abs : σ → τ) (W : σ → Prop)
    (p : Prog σ α) (q : Prog τ α) : Prop :=
  ∀ s ls r s', W s → Exec R p s ls r s' → Exec R' q (abs s) ls r (abs s') ∧ W s'

theorem refines_ret (sim : Simulates R R' abs W) (a : α) :
    Refines R R' abs W (.ret a) (.ret a) := by
  intro s ls r s' hs h
  obtain ⟨rfl, hsteps⟩ := h.ret_inv
  obtain ⟨hsteps', hs'⟩ := sim.steps hs hsteps
  exact ⟨(Exec.ret a (abs s)).append hsteps', hs'⟩

theorem refines_bind {p : Prog σ α} {q : Prog τ α} {g : α → Prog σ γ} {k : α → Prog τ γ}
    (hp : Refines R R' abs W p q) (hg : ∀ a, Refines R R' abs W (g a) (k a)) :
    Refines R R' abs W (p.bind g) (q.bind k) := by
  intro s ls r s' hs h
  rcases h.bind_inv with ⟨ls₁, a, s₁, ls₂, rfl, hep, heg⟩ | ⟨rfl, hep⟩
  · obtain ⟨hq, hs₁⟩ := hp s ls₁ _ s₁ hs hep
    obtain ⟨hk, hs'⟩ := hg a s₁ ls₂ r s' hs₁ heg
    exact ⟨hq.bind hk, hs'⟩
  · obtain ⟨hq, hs'⟩ := hp s ls none s' hs hep
    exact ⟨hq.bind_fail k, hs'⟩

/-- The abstract program can go on with less than what the concrete one has read. -/
lemma refines_bind_map {δ : Type} {p : Prog σ α} {q : Prog τ δ} {f : α → δ} {g : α → Prog σ γ}
    {k : δ → Prog τ γ} (hp : Refines R R' abs W (p.bind fun a => .ret (f a)) q)
    (hg : ∀ a, Refines R R' abs W (g a) (k (f a))) :
    Refines R R' abs W (p.bind g) (q.bind k) := by
  intro s ls r s' hs h
  rcases h.bind_inv with ⟨ls₁, a, s₁, ls₂, rfl, hep, heg⟩ | ⟨rfl, hep⟩
  · have hread : Exec R (p.bind fun a => .ret (f a)) s (ls₁ ++ []) (some (f a)) s₁ :=
      hep.bind (.ret _ _)
    rw [List.append_nil] at hread
    obtain ⟨hq, hs₁⟩ := hp s ls₁ _ s₁ hs hread
    obtain ⟨hk, hs'⟩ := hg a s₁ ls₂ r s' hs₁ heg
    exact ⟨hq.bind hk, hs'⟩
  · obtain ⟨hq, hs'⟩ := hp s ls none s' hs (hep.bind_fail _)
    exact ⟨hq.bind_fail k, hs'⟩

/-- A program that takes effect at once refines an atomic action with the same effect. -/
theorem refines_atomic (sim : Simulates R R' abs W) {p : Prog σ α} {f : τ → Option (α × τ)}
    (atomically : RunsAtomically R W p)
    (effect : ∀ s a s', W s → p.run s = some (a, s') → f (abs s) = some (a, abs s') ∧ W s') :
    Refines R R' abs W p (atomic f) := by
  intro s ls r s' hs h
  obtain ⟨ls₁, s₁, a, s₂, ls₂, rfl, rfl, hbefore, hrun, hafter⟩ := atomically s ls r s' hs h
  obtain ⟨hbefore', hs₁⟩ := sim.steps hs hbefore
  obtain ⟨heffect, hs₂⟩ := effect s₁ a s₂ hs₁ hrun
  obtain ⟨hafter', hs'⟩ := sim.steps hs₂ hafter
  exact ⟨.atomic hbefore' heffect hafter', hs'⟩

theorem refines_fail (sim : Simulates R R' abs W) :
    Refines R R' abs W (fetch fun _ => none : Prog σ α) (fetch fun _ => none) := by
  intro s ls r s' hs h
  obtain ⟨ls₁, s₁, ls₂, rfl, hsteps, hcase⟩ := h.act_inv
  rcases hcase with ⟨_, rfl, rfl, rfl⟩ | ⟨b, s₂, hf, _⟩
  · obtain ⟨hsteps', hs'⟩ := sim.steps hs hsteps
    exact ⟨.after hsteps' (.fail rfl), hs'⟩
  · cases hf

theorem refines_runAll (sim : Simulates R R' abs W) {ι : Type} {prog : ι → Prog σ α}
    {spec : ι → Prog τ α} {is : List ι} (h : ∀ i ∈ is, Refines R R' abs W (prog i) (spec i)) :
    Refines R R' abs W (runAll prog is) (runAll spec is) := by
  induction is with
  | nil => exact refines_ret sim []
  | cons i is ih =>
    refine refines_bind (h i List.mem_cons_self) fun a => ?_
    exact refines_bind (ih fun i hi => h i (List.mem_cons_of_mem _ hi)) fun as =>
      refines_ret sim (a :: as)

end Defrizer.InterleavedProgram
