import Defrizer.InterleavedProgram

/-!
# Outlines with a ghost state

The labels of the environment drive a second state, which the program does not see. An
outline here is total: the program never fails.
-/
namespace Defrizer.InterleavedProgram

variable {σ κ α γ ℓ : Type} {R : σ → ℓ → σ → Prop} {H : κ → ℓ → κ → Prop} {I : σ → κ → Prop}

/-- The environment and the ghost state keep `I` together. -/
def Keeps (R : σ → ℓ → σ → Prop) (H : κ → ℓ → κ → Prop) (I : σ → κ → Prop) : Prop :=
  ∀ s k l s' k', I s k → R s l s' → H k l k' → I s' k'

/-- From states with `I` the program returns, and what it returns satisfies `Q`. -/
def Ensures (R : σ → ℓ → σ → Prop) (H : κ → ℓ → κ → Prop) (I : σ → κ → Prop) (p : Prog σ α)
    (Q : α → σ → κ → Prop) : Prop :=
  ∀ s k ls r s' k', I s k → Exec R p s ls r s' → Steps H k ls k' → ∃ a, r = some a ∧ Q a s' k'

theorem Steps.split {k k' : κ} {ls₁ ls₂ : List ℓ} (h : Steps H k (ls₁ ++ ls₂) k') :
    ∃ k₁, Steps H k ls₁ k₁ ∧ Steps H k₁ ls₂ k' := by
  induction ls₁ generalizing k with
  | nil => exact ⟨k, .nil k, h⟩
  | cons l ls ih =>
    cases h with
    | cons step rest =>
      obtain ⟨k₁, h₁, h₂⟩ := ih rest
      exact ⟨k₁, .cons step h₁, h₂⟩

theorem Keeps.steps (hI : Keeps R H I) {s s' : σ} {k k' : κ} {ls : List ℓ} (h : I s k)
    (hs : Steps R s ls s') (hk : Steps H k ls k') : I s' k' := by
  induction hs generalizing k with
  | nil =>
    cases hk
    exact h
  | cons step _ ih =>
    cases hk with
    | cons step' rest' => exact ih (hI _ _ _ _ _ h step step') rest'

theorem ensures_ret {Q : α → σ → κ → Prop} {a : α} (hQ : Keeps R H (Q a))
    (h : ∀ s k, I s k → Q a s k) : Ensures R H I (.ret a) Q := by
  intro s k ls r s' k' hI he hk
  obtain ⟨rfl, hsteps⟩ := he.ret_inv
  exact ⟨a, rfl, hQ.steps (h s k hI) hsteps hk⟩

theorem ensures_bind {p : Prog σ α} {g : α → Prog σ γ} {Q : α → σ → κ → Prop}
    {Q' : γ → σ → κ → Prop} (hp : Ensures R H I p Q) (hg : ∀ a, Ensures R H (Q a) (g a) Q') :
    Ensures R H I (p.bind g) Q' := by
  intro s k ls r s' k' hI he hk
  rcases he.bind_inv with ⟨ls₁, a, s₁, ls₂, rfl, hep, heg⟩ | ⟨rfl, hep⟩
  · obtain ⟨k₁, hk₁, hk₂⟩ := hk.split
    obtain ⟨b, hb, hQ⟩ := hp s k ls₁ _ s₁ k₁ hI hep hk₁
    cases hb
    exact hg a s₁ k₁ ls₂ r s' k' hQ heg hk₂
  · obtain ⟨b, hb, _⟩ := hp s k ls none s' k' hI hep hk
    cases hb

lemma ensures_atomic {f : σ → Option (α × σ)} {Q : α → σ → κ → Prop} (hI : Keeps R H I)
    (hQ : ∀ a, Keeps R H (Q a)) (h : ∀ s k, I s k → ∃ a s', f s = some (a, s') ∧ Q a s' k) :
    Ensures R H I (atomic f) Q := by
  intro s k ls r s' k' hs he hk
  obtain ⟨ls₁, s₁, ls₂, rfl, hbefore, hcase⟩ := he.act_inv
  obtain ⟨k₁, hk₁, hk₂⟩ := hk.split
  obtain ⟨a, s₂, hf, hs₂⟩ := h s₁ k₁ (hI.steps hs hbefore hk₁)
  rcases hcase with ⟨hnone, _⟩ | ⟨b, s₃, hf', hrest⟩
  · simp [hf] at hnone
  · obtain ⟨rfl, hafter⟩ := hrest.ret_inv
    rw [hf] at hf'
    cases hf'
    exact ⟨a, rfl, (hQ a).steps hs₂ hafter hk₂⟩

lemma ensures_of_fact {F : Prop} {p : Prog σ α} {Q : α → σ → κ → Prop}
    (h : F → Ensures R H I p Q) : Ensures R H (fun s k => F ∧ I s k) p Q :=
  fun s k ls r s' k' hs he hk => h hs.1 s k ls r s' k' hs.2 he hk

/-- For a program that takes effect at once, its effect without interference decides. -/
theorem ensures_atomically {W : σ → Prop} {p : Prog σ α} {Q : α → σ → κ → Prop}
    (hp : RunsAtomically R W p) (hW : ∀ s k, I s k → W s) (hI : Keeps R H I)
    (hQ : ∀ a, Keeps R H (Q a)) (h : ∀ s k a s', I s k → p.run s = some (a, s') → Q a s' k) :
    Ensures R H I p Q := by
  intro s k ls r s' k' hs he hk
  obtain ⟨ls₁, s₁, a, s₂, ls₂, rfl, rfl, hbefore, hrun, hafter⟩ := hp s ls r s' (hW s k hs) he
  obtain ⟨k₁, hk₁, hk₂⟩ := hk.split
  exact ⟨a, rfl, (hQ a).steps (h s₁ k₁ a s₂ (hI.steps hs hbefore hk₁) hrun) hafter hk₂⟩

lemma Steps.map {κ' : Type} {H' : κ' → ℓ → κ' → Prop} {f : κ' → κ}
    (hf : ∀ g l g', H' g l g' → H (f g) l (f g')) {g g' : κ'} {ls : List ℓ}
    (h : Steps H' g ls g') : Steps H (f g) ls (f g') := by
  induction h with
  | nil => exact .nil _
  | cons step _ ih => exact .cons (hf _ _ _ step) ih

theorem ensures_runAll {ι : Type} {prog : ι → Prog σ α} {is : List ι} (hI : Keeps R H I)
    (h : ∀ i ∈ is, Ensures R H I (prog i) fun _ => I) :
    Ensures R H I (runAll prog is) fun _ => I := by
  induction is with
  | nil => exact ensures_ret hI fun _ _ h => h
  | cons i is ih =>
    refine ensures_bind (h i List.mem_cons_self) fun a => ?_
    exact ensures_bind (ih fun i hi => h i (List.mem_cons_of_mem _ hi)) fun as =>
      ensures_ret hI fun _ _ h => h

/-- The ghost state that follows any labels and says nothing. -/
def NoGhost : Unit → ℓ → Unit → Prop := fun _ _ _ => True

lemma steps_noGhost (ls : List ℓ) : Steps NoGhost () ls () := by
  induction ls with
  | nil => exact .nil ()
  | cons l ls ih => exact .cons trivial ih

lemma keeps_noGhost {P : σ → Prop} (hP : Stable R P) : Keeps R NoGhost fun s _ => P s :=
  fun s _ l s' _ hs step _ => hP s l s' hs step

lemma Ensures.returns {P : σ → Prop} {p : Prog σ α} {Q : α → σ → Unit → Prop}
    (h : Ensures R NoGhost (fun s _ => P s) p Q) {s s' : σ} {ls : List ℓ} {r : Option α}
    (hs : P s) (he : Exec R p s ls r s') : ∃ a, r = some a ∧ Q a s' () :=
  h s () ls r s' () hs he (steps_noGhost ls)

/-- From states with `I`, what the program returns satisfies `Q` if it returns. -/
def Maintains (R : σ → ℓ → σ → Prop) (H : κ → ℓ → κ → Prop) (I : σ → κ → Prop) (p : Prog σ α)
    (Q : α → σ → κ → Prop) : Prop :=
  ∀ s k ls a s' k', I s k → Exec R p s ls (some a) s' → Steps H k ls k' → Q a s' k'

lemma Maintains.weaken {p : Prog σ α} {Q Q' : α → σ → κ → Prop} (h : Maintains R H I p Q)
    (hQ : ∀ a s k, Q a s k → Q' a s k) : Maintains R H I p Q' :=
  fun s k ls a s' k' hs he hk => hQ a s' k' (h s k ls a s' k' hs he hk)

lemma Ensures.maintains {p : Prog σ α} {Q : α → σ → κ → Prop} (h : Ensures R H I p Q) :
    Maintains R H I p Q := by
  intro s k ls a s' k' hs he hk
  obtain ⟨b, hb, hQ⟩ := h s k ls _ s' k' hs he hk
  cases hb
  exact hQ

lemma maintains_ret {Q : α → σ → κ → Prop} {a : α} (hQ : Keeps R H (Q a))
    (h : ∀ s k, I s k → Q a s k) : Maintains R H I (.ret a) Q := by
  intro s k ls b s' k' hI he hk
  obtain ⟨hb, hsteps⟩ := he.ret_inv
  cases hb
  exact hQ.steps (h s k hI) hsteps hk

lemma maintains_atomic {f : σ → Option (α × σ)} {Q : α → σ → κ → Prop} (hI : Keeps R H I)
    (hQ : ∀ a, Keeps R H (Q a)) (h : ∀ s k a s', I s k → f s = some (a, s') → Q a s' k) :
    Maintains R H I (atomic f) Q := by
  intro s k ls a s' k' hs he hk
  obtain ⟨ls₁, s₁, s₂, ls₂, rfl, hbefore, hf, hafter⟩ := he.atomic_returned
  obtain ⟨k₁, hk₁, hk₂⟩ := hk.split
  exact (hQ a).steps (h s₁ k₁ a s₂ (hI.steps hs hbefore hk₁) hf) hafter hk₂

lemma maintains_bind {p : Prog σ α} {g : α → Prog σ γ} {Q : α → σ → κ → Prop}
    {Q' : γ → σ → κ → Prop} (hp : Maintains R H I p Q) (hg : ∀ a, Maintains R H (Q a) (g a) Q') :
    Maintains R H I (p.bind g) Q' := by
  intro s k ls c s' k' hI he hk
  obtain ⟨ls₁, a, s₁, ls₂, rfl, hep, heg⟩ := he.bind_returned
  obtain ⟨k₁, hk₁, hk₂⟩ := hk.split
  exact hg a s₁ k₁ ls₂ c s' k' (hp s k ls₁ a s₁ k₁ hI hep hk₁) heg hk₂

end Defrizer.InterleavedProgram
