import Mathlib

/-!
# When a bounded store never overflows

Arrivals and services in a row, where a service of an empty store does nothing. A store of a
given capacity always has room exactly if no stretch of the row has more arrivals than services
by more than the capacity.
-/
namespace Defrizer.BoundedBacklog

inductive Turn
  | arrival
  | service
  | neither
  deriving DecidableEq, Repr

variable {α : Type} (kind : α → Turn)

def arrivals (l : List α) : ℕ := l.countP fun a => kind a = .arrival

def services (l : List α) : ℕ := l.countP fun a => kind a = .service

/-- Every arrival finds room in the store, which holds `b` to begin with. -/
def Fits (capacity : ℕ) : ℕ → List α → Prop
  | _, [] => True
  | b, a :: l => match kind a with
    | .arrival => b < capacity ∧ Fits capacity (b + 1) l
    | .service => Fits capacity (b - 1) l
    | .neither => Fits capacity b l

/-- Every beginning of the row leaves at most the capacity over. -/
def Within (capacity b : ℕ) (l : List α) : Prop :=
  ∀ p, p <+: l → b + arrivals kind p ≤ services kind p + capacity

def WindowsWithin (capacity : ℕ) (l : List α) : Prop :=
  ∀ m, m <:+: l → arrivals kind m ≤ services kind m + capacity

section Counts
variable {kind} {capacity b : ℕ} {a : α} {l : List α}

lemma within_cons : Within kind capacity b (a :: l) ↔ b ≤ capacity ∧
    ∀ p, p <+: l → b + arrivals kind (a :: p) ≤ services kind (a :: p) + capacity := by
  simp only [Within, List.prefix_cons_iff]
  constructor
  · intro h
    have hnil := h [] (Or.inl rfl)
    simp only [arrivals, services, List.countP_nil] at hnil
    exact ⟨by omega, fun p hp => h (a :: p) (Or.inr ⟨p, rfl, hp⟩)⟩
  · rintro ⟨hb, h⟩ p (rfl | ⟨p, rfl, hp⟩)
    · simpa [arrivals, services] using hb
    · exact h p hp

lemma within_windows_cons : (Within kind capacity b (a :: l) ∧ WindowsWithin kind capacity (a :: l)) ↔
    Within kind capacity b (a :: l) ∧ WindowsWithin kind capacity l := by
  constructor
  · rintro ⟨hb, h⟩
    exact ⟨hb, fun m hm => h m (List.infix_cons hm)⟩
  · rintro ⟨hb, h⟩
    refine ⟨hb, fun m hm => ?_⟩
    rcases List.infix_cons_iff.mp hm with hstart | hlater
    · have := hb m hstart
      omega
    · exact h m hlater

lemma WindowsWithin.within (h : WindowsWithin kind capacity l) : Within kind capacity 0 l := by
  intro p hp
  rw [Nat.zero_add]
  exact h p hp.isInfix

end Counts

variable {kind} {capacity : ℕ}

theorem fits_iff {b : ℕ} {l : List α} (hb : b ≤ capacity) :
    Fits kind capacity b l ↔ Within kind capacity b l ∧ WindowsWithin kind capacity l := by
  induction l generalizing b with
  | nil => simpa [Fits, Within, WindowsWithin, arrivals, services] using hb
  | cons a l ih =>
    rw [within_windows_cons, within_cons, Fits]
    cases hkind : kind a with
    | arrival =>
      have hcount : ∀ p, b + arrivals kind (a :: p) = b + 1 + arrivals kind p ∧
          services kind (a :: p) = services kind p := by
        intro p
        simp [arrivals, services, hkind]
        omega
      simp only [hcount]
      constructor
      · rintro ⟨hlt, hfits⟩
        obtain ⟨hwithin, hwindows⟩ := (ih hlt).mp hfits
        exact ⟨⟨hb, hwithin⟩, hwindows⟩
      · rintro ⟨⟨_, hwithin⟩, hwindows⟩
        have hlt := hwithin [] List.nil_prefix
        simp only [arrivals, services, List.countP_nil] at hlt
        exact ⟨by omega, (ih (by omega)).mpr ⟨hwithin, hwindows⟩⟩
    | service =>
      have hcount : ∀ p, arrivals kind (a :: p) = arrivals kind p ∧
          services kind (a :: p) = services kind p + 1 := by
        intro p
        simp [arrivals, services, hkind]
      simp only [hcount, ih (show b - 1 ≤ capacity by omega)]
      constructor
      · rintro ⟨hwithin, hwindows⟩
        refine ⟨⟨hb, fun p hp => ?_⟩, hwindows⟩
        have := hwithin p hp
        omega
      · rintro ⟨⟨_, hwithin⟩, hwindows⟩
        refine ⟨fun p hp => ?_, hwindows⟩
        -- An empty store profits from no service, so the stretch `p` alone decides.
        have hstart := hwithin p hp
        have hstretch := hwindows p hp.isInfix
        omega
    | neither =>
      have hcount : ∀ p, arrivals kind (a :: p) = arrivals kind p ∧
          services kind (a :: p) = services kind p := by
        intro p
        simp [arrivals, services, hkind]
      simp only [hcount, ih hb]
      constructor
      · rintro ⟨hwithin, hwindows⟩
        exact ⟨⟨hb, hwithin⟩, hwindows⟩
      · rintro ⟨⟨_, hwithin⟩, hwindows⟩
        exact ⟨hwithin, hwindows⟩

theorem fits_zero_iff {l : List α} : Fits kind capacity 0 l ↔ WindowsWithin kind capacity l := by
  rw [fits_iff (Nat.zero_le _)]
  constructor
  · exact fun h => h.2
  · exact fun h => ⟨h.within, h⟩

end Defrizer.BoundedBacklog
