import Defrizer.RingPortAtomicity
import Defrizer.GhostOutline

/-!
# Batches and the consumer's counter

A submission leaves the consumer's counter alone, and a collection advances it by the number of
entries it returns, whether or not the entries were there. These rules are about programs that
return, and do not need the ring to be in order. Entries that were counted stay there.
-/
namespace Defrizer.RingPort
open InterleavedProgram WrappingRing

variable {σ α β γ κ ℓ : Type} {n : ℕ} {port : Port σ α n} {size : ℤ}
  {R : σ → ℓ → σ → Prop} {H : κ → ℓ → κ → Prop} {I : σ → κ → Prop}

lemma maintains_fetch {g : σ → Option β} (hI : Keeps R H I) :
    Maintains R H I (fetch g) fun _ => I := by
  apply maintains_atomic hI fun _ => hI
  intro s k b s' hs hg
  obtain ⟨c, _, heq⟩ := Option.map_eq_some_iff.mp hg
  cases heq
  exact hs

lemma maintains_store {u : σ → σ} (hI : Keeps R H I) (hu : ∀ s k, I s k → I (u s) k) :
    Maintains R H I (store u) fun _ => I := by
  apply maintains_atomic hI fun _ => hI
  intro s k b s' hs hu'
  cases hu'
  exact hu s k hs

lemma maintains_touch {f : Ring α n → Option (β × Ring α n)} {ok : β → Bool} {mark : β → σ → σ}
    {Q : β → σ → κ → Prop} (hI : Keeps R H I) (hQ : ∀ b, Keeps R H (Q b))
    (h : ∀ s k r b r', I s k → port.get s = some r → f r = some (b, r') →
      Q b (mark b (port.set r' s)) k) : Maintains R H I (touch port f ok mark) Q := by
  apply maintains_atomic hI hQ
  intro s k b s' hs hrun
  obtain ⟨r, hr, hrest⟩ := Option.bind_eq_some_iff.mp hrun
  obtain ⟨⟨c, r'⟩, hf, hif⟩ := Option.bind_eq_some_iff.mp hrest
  simp only [Option.ite_none_right_eq_some, Option.some.injEq, Prod.mk.injEq] at hif
  obtain ⟨_, rfl, rfl⟩ := hif
  exact h s k r c r' hs hr hf

lemma numFreeSlots_maintains (hI : Keeps R H I) :
    Maintains R H I (numFreeSlots port size) fun _ => I :=
  maintains_bind (maintains_fetch hI) fun _ =>
    maintains_bind (maintains_fetch hI) fun _ => maintains_ret hI fun _ _ hs => hs

lemma numAvailable_maintains (hI : Keeps R H I) :
    Maintains R H I (numAvailable port size) fun _ => I :=
  maintains_bind (maintains_fetch hI) fun _ =>
    maintains_bind (maintains_fetch hI) fun _ => maintains_ret hI fun _ _ hs => hs

/-- `I` says nothing about the producer's counter and the slots. -/
def IgnoresProducer (port : Port σ α n) (I : σ → κ → Prop) : Prop :=
  ∀ s k r r', I s k → port.get s = some r → r'.consumer = r.consumer → I (port.set r' s) k

section Submit
variable {entry : γ → α} {ok : γ → Bool} {mark : γ → σ → σ} {count : ℤ → σ → σ}

lemma writeEntries_maintains (hI : Keeps R H I) (hprod : IgnoresProducer port I)
    (hmark : ∀ d s k, I s k → I (mark d s) k) (ds : List γ) (prod : UInt32) :
    Maintains R H I (writeEntries port size entry ok mark ds prod) fun _ => I := by
  induction ds generalizing prod with
  | nil => exact maintains_ret hI fun _ _ hs => hs
  | cons d ds ih =>
    refine maintains_bind (maintains_touch hI (fun _ => hI) ?_) fun _ => ih (prod + 1)
    intro s k r _ r' hs hr hf
    obtain ⟨r₁, hwrite, heq⟩ := Option.map_eq_some_iff.mp hf
    cases heq
    unfold Ring.write at hwrite
    split_ifs at hwrite
    cases hwrite
    exact hmark d _ k (hprod s k r _ hs hr rfl)

lemma submit_maintains (hI : Keeps R H I) (hprod : IgnoresProducer port I)
    (hmark : ∀ d s k, I s k → I (mark d s) k) (hcount : ∀ m s k, I s k → I (count m s) k)
    (ds : List γ) : Maintains R H I (submit port size entry ok mark count ds) fun _ => I := by
  refine maintains_bind (numFreeSlots_maintains hI) fun _ => ?_
  refine maintains_bind (maintains_fetch hI) fun prod => ?_
  refine maintains_bind (writeEntries_maintains hI hprod hmark _ prod) fun prod' => ?_
  refine maintains_bind (maintains_touch hI (fun _ => hI) ?_) fun _ => ?_
  · intro s k r _ r' hs hr hf
    cases hf
    exact hprod s k r _ hs hr rfl
  · exact maintains_bind (maintains_store hI (hcount _)) fun _ => maintains_ret hI fun _ _ hs => hs

end Submit

section Collect
variable {ok : α → Bool} {mark : α → σ → σ} {count : List α → σ → σ}

def OwnsConsumer (R : σ → ℓ → σ → Prop) (port : Port σ α n) : Prop :=
  ∀ s l s' r, R s l s' → port.get s = some r →
    ∃ r', port.get s' = some r' ∧ r'.consumer = r.consumer

lemma ownsConsumer_of_gives {ok : α → Bool} (h : Meets R port (Gives ok)) :
    OwnsConsumer R port := by
  intro s l s' r step hr
  obtain ⟨x, r', hgives, hr', _⟩ := h s l s' r step hr
  exact ⟨r', hr', gives_consumer hgives⟩

def AtConsumer (port : Port σ α n) (I : σ → κ → Prop) (c : UInt32) (s : σ) (k : κ) : Prop :=
  I s k ∧ ∃ r, port.get s = some r ∧ r.consumer = c

lemma keeps_atConsumer (hI : Keeps R H I) (hown : OwnsConsumer R port) (c : UInt32) :
    Keeps R H (AtConsumer port I c) := by
  intro s k l s' k' hs step hstep
  obtain ⟨hIs, r, hr, hc⟩ := hs
  obtain ⟨r', hr', hc'⟩ := hown s l s' r step hr
  exact ⟨hI s k l s' k' hIs step hstep, r', hr', hc'.trans hc⟩

lemma readEntries_maintains (hI : Keeps R H I) (hown : OwnsConsumer R port)
    (haside : ∀ x, Aside port (mark x)) (hmark : ∀ x s k, I s k → I (mark x s) k)
    {c : UInt32} (m : ℕ) (cons : UInt32) :
    Maintains R H (AtConsumer port I c) (readEntries port size ok mark m cons) fun r s k =>
      (r.1.length = m ∧ r.2 = cons + UInt32.ofNat m) ∧ AtConsumer port I c s k := by
  have hkeeps := keeps_atConsumer hI hown c
  induction m generalizing cons with
  | zero =>
    refine maintains_ret (fun s k l s' k' hs step hstep => ⟨hs.1, hkeeps _ _ _ _ _ hs.2 step hstep⟩)
      fun s k hs => ⟨by simp, hs⟩
  | succ m ih =>
    refine maintains_bind (maintains_touch hkeeps (fun _ => hkeeps) ?_) fun x => ?_
    · intro s k r x r' hs hr hf
      obtain ⟨y, _, heq⟩ := Option.map_eq_some_iff.mp hf
      cases heq
      rw [port.set_get hr]
      obtain ⟨hIs, r₁, hr₁, hc⟩ := hs
      exact ⟨hmark x s k hIs, r₁, by rw [(haside x).get, hr₁], hc⟩
    · refine maintains_bind (ih (cons + 1)) fun r => ?_
      refine maintains_ret
        (fun s k l s' k' hs step hstep => ⟨hs.1, hkeeps _ _ _ _ _ hs.2 step hstep⟩) ?_
      intro s k hs
      obtain ⟨⟨hlen, hcons⟩, hat⟩ := hs
      refine ⟨⟨by rw [List.length_cons, hlen], ?_⟩, hat⟩
      rw [hcons, add_ofNat_succ]

/-- A collection reaches `K` when its last step does from `J`, which holds once the counter is as
many entries ahead as the collection returns. -/
lemma collect_maintains {J K : σ → κ → Prop} (hI : Keeps R H I) (hown : OwnsConsumer R port)
    (haside : ∀ x, Aside port (mark x)) (hmark : ∀ x s k, I s k → I (mark x s) k)
    (hJ : Keeps R H J) (hK : Keeps R H K) {num : ℤ}
    (hcount : ∀ xs s k, xs.length = num.toNat → J s k → K (count xs s) k)
    (hpublish : ∀ s k r, I s k → port.get s = some r → J (port.set (r.popAll num.toNat) s) k) :
    Maintains R H I (collect port size ok mark count num) fun xs s k =>
      xs.length = num.toNat ∧ K s k := by
  have hJ' : ∀ F : Prop, Keeps R H fun s k => F ∧ J s k :=
    fun F s k l s' k' hs step hstep => ⟨hs.1, hJ s k l s' k' hs.2 step hstep⟩
  have hK' : ∀ F : Prop, Keeps R H fun s k => F ∧ K s k :=
    fun F s k l s' k' hs step hstep => ⟨hs.1, hK s k l s' k' hs.2 step hstep⟩
  refine maintains_bind (Q := AtConsumer port I) ?_ fun cons => ?_
  · refine maintains_atomic hI (keeps_atConsumer hI hown) ?_
    intro s k c s' hs hrun
    obtain ⟨c', hc', heq⟩ := Option.map_eq_some_iff.mp hrun
    cases heq
    obtain ⟨r, hr, hcons⟩ := Option.map_eq_some_iff.mp hc'
    exact ⟨hs, r, hr, hcons⟩
  refine maintains_bind (readEntries_maintains hI hown haside hmark num.toNat cons) fun r => ?_
  refine maintains_bind (Q := fun _ s k => r.1.length = num.toNat ∧ J s k) ?_ fun _ => ?_
  · refine maintains_touch (fun s k l s' k' hs step hstep => ⟨hs.1,
      keeps_atConsumer hI hown cons _ _ _ _ _ hs.2 step hstep⟩) (fun _ => hJ' _) ?_
    intro s k r₁ _ r' hs hr₁ hf
    obtain ⟨⟨hlen, hcons⟩, hIs, r₂, hr₂, hc⟩ := hs
    cases hr₂.symm.trans hr₁
    cases hf
    rw [hcons, ← hc]
    exact ⟨hlen, hpublish s k r₁ hIs hr₁⟩
  refine maintains_bind (Q := fun _ s k => r.1.length = num.toNat ∧ K s k) ?_ fun _ =>
    maintains_ret (hK' _) fun _ _ hs => hs
  refine maintains_atomic (hJ' _) (fun _ => hK' _) ?_
  intro s k _ s' hs hstore
  cases hstore
  exact ⟨hs.1, hcount r.1 s k hs.1 hs.2⟩

/-- The environment gives entries at most: what is on the ring stays there. -/
def Grows (R : σ → ℓ → σ → Prop) (port : Port σ α n) : Prop :=
  ∀ s l s' r, R s l s' → port.get s = some r →
    ∃ r', port.get s' = some r' ∧ r'.consumer = r.consumer ∧ r.outstanding ≤ r'.outstanding

lemma grows_of_gives {ok : α → Bool} (hn : IsRingSize n) (h : Meets R port (Gives ok)) :
    Grows R port := by
  intro s l s' r step hr
  obtain ⟨x, r', hgives, hr', _⟩ := h s l s' r step hr
  refine ⟨r', hr', gives_consumer hgives, ?_⟩
  cases x with
  | none => exact (congrArg Ring.outstanding hgives).ge
  | some x =>
    obtain ⟨hlt, rfl⟩ := give_eq_some hgives.1
    rw [outstanding_push hn x hlt]
    exact Nat.le_succ _

lemma keeps_onRing (hI : Keeps R H I) (hgrows : Grows R port) {p : Ring α n → Prop}
    (hp : ∀ r r', p r → r'.consumer = r.consumer → r.outstanding ≤ r'.outstanding → p r') :
    Keeps R H fun s k => I s k ∧ OnRing port p s := by
  intro s k l s' k' hs step hstep
  obtain ⟨hIs, r, hr, hpr⟩ := hs
  obtain ⟨r', hr', hcons, hle⟩ := hgrows s l s' r step hr
  exact ⟨hI s k l s' k' hIs step hstep, r', hr', hp r r' hpr hcons hle⟩

def Holds (port : Port σ α n) (I : σ → κ → Prop) (m : ℤ) (s : σ) (k : κ) : Prop :=
  I s k ∧ OnRing port (fun r => m ≤ r.outstanding) s

lemma keeps_holds (hI : Keeps R H I) (hgrows : Grows R port) (m : ℤ) :
    Keeps R H (Holds port I m) :=
  keeps_onRing hI hgrows fun _ _ h _ hle => h.trans (Int.ofNat_le.mpr hle)

/-- As many entries as were counted are still there. -/
lemma numAvailable_holds (hI : Keeps R H I) (hgrows : Grows R port) :
    Maintains R H I (numAvailable port size) (Holds port I) := by
  have hkeeps := fun prod : UInt32 => keeps_onRing hI hgrows
    (p := fun r : Ring α n => (prod - r.consumer).toNat ≤ r.outstanding)
    fun r r' h hcons hle => by rw [hcons]; exact h.trans hle
  have hkeeps' := fun m : ℕ => keeps_onRing hI hgrows (p := fun r : Ring α n => m ≤ r.outstanding)
    fun r r' h _ hle => h.trans hle
  refine maintains_bind (maintains_atomic hI hkeeps ?_) fun prod => ?_
  · intro s k p s' hs hread
    obtain ⟨_, hc, heq⟩ := Option.map_eq_some_iff.mp hread
    cases heq
    obtain ⟨r, hr, rfl⟩ := Option.map_eq_some_iff.mp hc
    exact ⟨hs, r, hr, le_rfl⟩
  refine maintains_bind (maintains_atomic (hkeeps prod)
    (fun cons => hkeeps' (prod - cons).toNat) ?_) fun cons => ?_
  · intro s k c s' hs hread
    obtain ⟨_, hc, heq⟩ := Option.map_eq_some_iff.mp hread
    cases heq
    obtain ⟨r, hr, rfl⟩ := Option.map_eq_some_iff.mp hc
    obtain ⟨hIs, r', hr', hle⟩ := hs
    cases hr.symm.trans hr'
    exact ⟨hIs, r, hr, hle⟩
  · refine maintains_ret (keeps_holds hI hgrows _) fun s k hs => ?_
    obtain ⟨hIs, r, hr, hle⟩ := hs
    refine ⟨hIs, r, hr, Int.ofNat_le.mpr (le_trans ?_ hle)⟩
    split_ifs with hmax
    · exact (UInt32.lt_iff_toNat_lt.mp hmax).le
    · exact le_rfl

end Collect

end Defrizer.RingPort
