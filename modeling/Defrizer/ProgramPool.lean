import Defrizer.InterleavedProgram

/-!
# Programs that run side by side

Any number of programs over one shared state, which take turns action by action in any order.
A program whose next action cannot be done waits. Each program goes through phases; what it
may do in a phase is checked along its own text only, and an invariant of the phases and the
shared state is kept by every such move.
-/
namespace Defrizer.InterleavedProgram

variable {ι σ α γ φ : Type}

structure Pool (ι σ α : Type) : Type 1 where
  shared : σ
  programs : ι → Prog σ α

section Pools
variable [DecidableEq ι]

/-- The program `t` does its next action. -/
inductive Pool.Step (c : Pool ι σ α) : Pool ι σ α → Prop
  | act {t : ι} {β : Type} {f : σ → Option (β × σ)} {k : β → Prog σ α} {b : β} {s : σ}
      (next : c.programs t = .act f k) (done : f c.shared = some (b, s)) :
      Step c ⟨s, Function.update c.programs t (k b)⟩

abbrev Pool.Reaches : Pool ι σ α → Pool ι σ α → Prop := Relation.ReflTransGen Pool.Step

/-- The programs take the turns of the list; nothing if one of them cannot. -/
def Pool.schedule (c : Pool ι σ α) : List ι → Option (Pool ι σ α)
  | [] => some c
  | t :: ts => match c.programs t with
    | .ret _ => none
    | .act f k => (f c.shared).bind fun r =>
      schedule ⟨r.2, Function.update c.programs t (k r.1)⟩ ts

theorem Pool.schedule_reaches {c c' : Pool ι σ α} {ts : List ι} (h : c.schedule ts = some c') :
    c.Reaches c' := by
  induction ts generalizing c with
  | nil =>
    cases h
    exact .refl
  | cons t ts ih =>
    rw [Pool.schedule] at h
    cases hnext : c.programs t with
    | ret a => simp [hnext] at h
    | act f k =>
      rw [hnext] at h
      obtain ⟨⟨b, s⟩, hdone, hrest⟩ := Option.bind_eq_some_iff.mp h
      exact .head (.act hnext hdone) (ih hrest)

end Pools

/-- What a program may do in each phase: move to another, and wait. -/
structure Manners (φ σ : Type) where
  move : φ → σ → φ → σ → Prop
  waits : φ → σ → Prop

/-- From the phase on every action of the program is a move, it waits only where it may, and it
ends in a phase and with a result that `Q` allows. -/
def Follows (M : Manners φ σ) (Q : φ → α → Prop) : Prog σ α → φ → Prop
  | .ret a, x => Q x a
  | .act f k, x => (∀ s, f s = none → M.waits x s) ∧
    ∀ s b s', f s = some (b, s') → ∃ x', M.move x s x' s' ∧ Follows M Q (k b) x'

section Rules
variable {M : Manners φ σ} {Q : φ → α → Prop} {x : φ}

theorem follows_ret {a : α} (h : Q x a) : Follows M Q (.ret a) x := h

theorem follows_bind {Q' : φ → γ → Prop} {p : Prog σ α} {g : α → Prog σ γ}
    (hp : Follows M Q p x) (hg : ∀ x a, Q x a → Follows M Q' (g a) x) :
    Follows M Q' (p.bind g) x := by
  induction p generalizing x with
  | ret a => exact hg x a hp
  | act f k ih =>
    refine ⟨hp.1, fun s b s' hf => ?_⟩
    obtain ⟨x', hmove, hrest⟩ := hp.2 s b s' hf
    exact ⟨x', hmove, ih b hrest⟩

theorem Follows.mono {Q' : φ → α → Prop} {p : Prog σ α} (hp : Follows M Q p x)
    (h : ∀ x a, Q x a → Q' x a) : Follows M Q' p x := by
  rw [← bind_ret p]
  exact follows_bind hp fun x a hQ => follows_ret (h x a hQ)

/-- An action that never waits. -/
theorem follows_atomic {f : σ → Option (α × σ)} (defined : ∀ s, f s ≠ none)
    (h : ∀ s a s', f s = some (a, s') → ∃ x', M.move x s x' s' ∧ Q x' a) :
    Follows M Q (atomic f) x :=
  ⟨fun s hs => absurd hs (defined s), fun s a s' hf => h s a s' hf⟩

end Rules

section Runs
variable {M : ι → Manners φ σ} {Q : ι → φ → α → Prop}
  {I : (ι → φ) → σ → Prop} {c c' : Pool ι σ α}

/-- The programs are in the phases `x`, and the invariant holds. -/
structure Phased (M : ι → Manners φ σ) (Q : ι → φ → α → Prop) (I : (ι → φ) → σ → Prop)
    (x : ι → φ) (c : Pool ι σ α) : Prop where
  follows : ∀ t, Follows (M t) (Q t) (c.programs t) (x t)
  holds : I x c.shared

/-- A program that has returned did so in a phase that allows its result. -/
theorem Phased.returned {x : ι → φ} (h : Phased M Q I x c) {t : ι} {a : α}
    (hret : c.programs t = .ret a) : Q t (x t) a := by
  have ht := h.follows t
  rwa [hret] at ht

variable [DecidableEq ι]

/-- Every move of every program keeps the invariant. -/
def KeptByMoves (M : ι → Manners φ σ) (I : (ι → φ) → σ → Prop) : Prop :=
  ∀ x s t x' s', I x s → (M t).move (x t) s x' s' → I (Function.update x t x') s'

theorem Phased.step {x : ι → φ} (hI : KeptByMoves M I) (h : Phased M Q I x c)
    (step : c.Step c') : ∃ x', Phased M Q I x' c' := by
  cases step with
  | @act t β f k b s next done =>
    have ht := h.follows t
    rw [next] at ht
    obtain ⟨x', hmove, hrest⟩ := ht.2 c.shared b s done
    refine ⟨Function.update x t x', fun u => ?_, hI x _ t x' s h.holds hmove⟩
    by_cases hu : u = t
    · subst hu
      simpa using hrest
    · simpa [hu] using h.follows u

theorem Phased.reaches {x : ι → φ} (hI : KeptByMoves M I) (h : Phased M Q I x c)
    (run : c.Reaches c') : ∃ x', Phased M Q I x' c' := by
  induction run with
  | refl => exact ⟨x, h⟩
  | tail _ step ih =>
    obtain ⟨x', hx'⟩ := ih
    exact hx'.step hI step

/-- A program that has neither returned nor may wait can go on. -/
theorem Phased.goes_on {x : ι → φ} (h : Phased M Q I x c) {t : ι}
    (running : ∀ a, c.programs t ≠ .ret a) (ready : ¬ (M t).waits (x t) c.shared) :
    ∃ c', c.Step c' := by
  have ht := h.follows t
  cases hnext : c.programs t with
  | ret a => exact absurd hnext (running a)
  | act f k =>
    rw [hnext] at ht
    cases hf : f c.shared with
    | none => exact absurd (ht.1 _ hf) ready
    | some r => exact ⟨_, .act hnext hf⟩

end Runs

end Defrizer.InterleavedProgram
