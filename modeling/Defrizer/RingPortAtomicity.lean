import Defrizer.RingPort

/-!
# Batches take effect at once

While one party submits or collects a batch the other party may go on at its end. A batch
runs as if it happened at the moment its counter of the other party was read.
-/
namespace Defrizer.RingPort
open InterleavedProgram WrappingRing

variable {σ α β γ ℓ : Type} {n : ℕ} {port : Port σ α n} {R : σ → ℓ → σ → Prop} {size : ℤ}

section Arithmetic

theorem freeSlots_eq (hn : IsRingSize n) {prod cons : UInt32} (h : (prod - cons).toNat ≤ n) :
    freeSlots n prod cons = ((n - (prod - cons).toNat : ℕ) : ℤ) := by
  have hmax := toNat_ofInt hn.lt
  have hsub : (UInt32.ofInt n - (prod - cons)).toNat = n - (prod - cons).toNat := by
    rw [UInt32.toNat_sub_of_le, hmax]
    rw [UInt32.le_iff_toNat_le, hmax]
    exact h
  have hle : ¬ UInt32.ofInt n - (prod - cons) > UInt32.ofInt n := by
    rw [gt_iff_lt, UInt32.lt_iff_toNat_lt, hsub, hmax]
    omega
  simp only [freeSlots, if_neg hle, hsub]

theorem available_eq (hn : IsRingSize n) {prod cons : UInt32} (h : (prod - cons).toNat ≤ n) :
    available n prod cons = ((prod - cons).toNat : ℤ) := by
  have hle : ¬ prod - cons > UInt32.ofInt n := by
    rw [gt_iff_lt, UInt32.lt_iff_toNat_lt, toNat_ofInt hn.lt]
    omega
  simp only [available, if_neg hle]

theorem trim_eq (k : ℕ) (ds : List γ) : trim k ds = ds.take k := by
  unfold trim
  split_ifs with h
  · rw [Int.toNat_natCast]
  · rw [List.take_of_length_le (by omega)]

end Arithmetic

/-- The entries up to the counter `prod` are written and there is room for `m` more. -/
def Filling (prod : UInt32) (m : ℕ) (r : Ring α n) : Prop :=
  r.outstanding ≤ (prod - r.consumer).toNat ∧ (prod - r.consumer).toNat + m ≤ n

theorem Filling.takes {prod : UInt32} {m : ℕ} (x : Option α) (r r' : Ring α n)
    (h : Filling prod m r) (hT : Takes x r r') : Filling prod m r' := by
  cases x with
  | none => exact hT ▸ h
  | some x =>
    obtain ⟨h0, _, rfl⟩ := take_eq_some hT
    have hout := outstanding_pop h0
    obtain ⟨hle, hroom⟩ := h
    have hpop : (prod - r.pop.consumer).toNat = (prod - r.consumer).toNat - 1 :=
      sub_toNat_succ_right (by omega)
    exact ⟨by omega, by omega⟩

theorem Filling.slot_ne (hn : IsRingSize n) {prod : UInt32} {m : ℕ} {r : Ring α n}
    (h : Filling prod (m + 1) r) (h0 : r.outstanding ≠ 0) : slot n prod ≠ slot n r.consumer := by
  obtain ⟨hle, hroom⟩ := h
  intro heq
  rw [slot_inj hn (by omega) heq, UInt32.sub_self] at hle
  exact h0 (by simpa using hle)

theorem Filling.succ (hn : IsRingSize n) {prod : UInt32} {m : ℕ} {r : Ring α n}
    (h : Filling prod (m + 1) r) : Filling (prod + 1) m r := by
  have := hn.lt
  have hnext := sub_toNat_succ_left (a := prod) (b := r.consumer) (by have := h.2; omega)
  exact ⟨by have := h.1; omega, by have := h.2; omega⟩

theorem write_commutes (hn : IsRingSize n) {prod : UInt32} {m : ℕ} {x : Option α} {y : α}
    {r r' r₂' : Ring α n} (hfill : Filling prod (m + 1) r) (hT : Takes x r r')
    (hw : r'.write (slot n prod) y = some r₂') :
    ∃ r₂, r.write (slot n prod) y = some r₂ ∧ Takes x r₂ r₂' := by
  cases x with
  | none =>
    cases hT
    exact ⟨r₂', hw, rfl⟩
  | some x =>
    obtain ⟨h0, hx, rfl⟩ := take_eq_some hT
    have hne := hfill.slot_ne hn h0
    simp only [Ring.write, if_pos (slot_lt hn prod), Option.some.injEq] at hw ⊢
    subst hw
    refine ⟨_, rfl, take_of_read h0 ?_⟩
    simpa [Ring.read, Vector.getElem?_setIfInBounds_ne hne] using hx

/-- The producer's counter is `prod` and the consumer's was `cons` at some moment. -/
def Submitting (prod cons : UInt32) (r : Ring α n) : Prop :=
  r.producer = prod ∧ r.outstanding ≤ (prod - cons).toNat ∧ (prod - cons).toNat ≤ n

theorem takes_producer {x : Option α} {r r' : Ring α n} (hT : Takes x r r') :
    r'.producer = r.producer := by
  cases x with
  | none => rw [hT]
  | some x =>
    obtain ⟨_, _, rfl⟩ := take_eq_some hT
    rfl

theorem takes_outstanding {x : Option α} {r r' : Ring α n} (hT : Takes x r r') :
    r'.outstanding ≤ r.outstanding := by
  cases x with
  | none => rw [hT]
  | some x =>
    obtain ⟨h0, _, rfl⟩ := take_eq_some hT
    rw [outstanding_pop h0]
    omega

theorem takes_bounded (x : Option α) (r r' : Ring α n) (h : r.outstanding ≤ n)
    (hT : Takes x r r') : r'.outstanding ≤ n :=
  (takes_outstanding hT).trans h

theorem Submitting.takes {prod cons : UInt32} (x : Option α) (r r' : Ring α n)
    (h : Submitting prod cons r) (hT : Takes x r r') : Submitting prod cons r' :=
  ⟨(takes_producer hT).trans h.1, (takes_outstanding hT).trans h.2.1, h.2.2⟩

section Submit
variable {entry : γ → α} {ok : γ → Bool} {mark : γ → σ → σ} {count : ℤ → σ → σ}

theorem runsFirst_writeEntries (hn : IsRingSize n) (meets : Meets R port Takes)
    (priv : ∀ d, ok d = true → Private R port (mark d)) {ds : List γ} (hok : ∀ d ∈ ds, ok d = true)
    (prod : UInt32) :
    RunsFirst R (OnRing port (Filling prod ds.length)) (writeEntries port n entry ok mark ds prod)
      fun prod' => OnRing port (Filling prod' 0) := by
  induction ds generalizing prod with
  | nil => exact runsFirst_ret fun _ h => h
  | cons d ds ih =>
    have hd := hok d List.mem_cons_self
    refine runsFirst_bind (Q := fun _ => OnRing port (Filling (prod + 1) ds.length)) ?_
      fun _ => ih (fun d hd => hok d (List.mem_cons_of_mem _ hd)) (prod + 1)
    rw [writeEntry, and_mask hn]
    apply runsFirst_touch meets Filling.takes
    · intro r hr
      exact ⟨(), { r with descs := r.descs.setIfInBounds (slot n prod) (entry d) },
        by rw [Ring.write, if_pos (slot_lt hn prod), Option.map_some], hd, hr.succ hn⟩
    · intro x r r' b r₂' hfill hT hw
      obtain ⟨r₃, hw', heq⟩ := Option.map_eq_some_iff.mp hw
      cases heq
      obtain ⟨r₂, hr₂, hT₂⟩ := write_commutes hn hfill hT hw'
      exact ⟨r₂, by rw [hr₂, Option.map_some], hT₂⟩
    · exact fun _ _ => priv d hd

theorem runsFirst_publishProducer (meets : Meets R port Takes) (prod : UInt32) :
    RunsFirst R (OnRing port (Filling prod 0)) (publishProducer port prod) fun _ =>
      OnRing port fun r => r.outstanding ≤ n := by
  apply runsFirst_touch meets Filling.takes
  · exact fun r hr => ⟨(), _, rfl, rfl, hr.2⟩
  · intro x r r' b r₂' hfill hT hf
    cases hf
    cases x with
    | none =>
      cases hT
      exact ⟨_, rfl, rfl⟩
    | some x =>
      obtain ⟨h0, hx, rfl⟩ := take_eq_some hT
      have hfull : (prod - r.consumer).toNat ≠ 0 := by have := hfill.1; omega
      exact ⟨_, rfl, take_of_read hfull hx⟩
  · exact fun _ _ => Private.id

theorem runsFirst_submit (hn : IsRingSize n) (meets : Meets R port Takes)
    (priv : ∀ d, ok d = true → Private R port (mark d)) (privCount : ∀ k, Private R port (count k))
    {ds : List γ} (hok : ∀ d ∈ ds, ok d = true) (prod cons : UInt32) :
    RunsFirst R (OnRing port (Submitting prod cons))
      ((producer port).bind fun p =>
        (writeEntries port n entry ok mark (trim (freeSlots n prod cons) ds) p).bind fun p' =>
          (publishProducer port p').bind fun _ =>
            (store (count (trim (freeSlots n prod cons) ds).length)).bind fun _ =>
              .ret ((trim (freeSlots n prod cons) ds).length : ℤ))
      fun _ _ => True := by
  apply RunsFirst.of_fact (F := (prod - cons).toNat ≤ n)
  · rintro s ⟨r, _, h⟩
    exact h.2.2
  intro hle
  rw [freeSlots_eq hn hle, trim_eq]
  have hlen : (ds.take (n - (prod - cons).toNat)).length ≤ n - (prod - cons).toNat :=
    List.length_take_le _ _
  have hok' : ∀ d ∈ ds.take (n - (prod - cons).toNat), ok d = true :=
    fun d hd => hok d (List.mem_of_mem_take hd)
  generalize ds.take (n - (prod - cons).toNat) = batch at hlen hok'
  refine runsFirst_bind (Q := fun p => OnRing port fun r => p = prod ∧ Submitting prod cons r)
    (runsFirst_read meets Submitting.takes (fun _ _ _ => takes_producer) fun r hr => ⟨hr.1, hr⟩) ?_
  intro p
  apply RunsFirst.of_fact (F := p = prod)
  · rintro s ⟨r, _, h⟩
    exact h.1
  rintro rfl
  refine runsFirst_bind ((runsFirst_writeEntries hn meets priv hok' p).weaken ?_) fun p' => ?_
  · rintro s ⟨r, hr, _, hprod, hout, _⟩
    refine ⟨r, hr, ?_, ?_⟩
    · rw [← hprod]
      exact le_rfl
    · rw [← hprod]
      rw [Ring.outstanding, hprod] at hout
      rw [hprod]
      omega
  refine runsFirst_bind (runsFirst_publishProducer meets p') fun _ => ?_
  refine runsFirst_bind (runsFirst_store meets takes_bounded (privCount _)) fun _ => ?_
  exact runsFirst_ret fun _ _ => trivial

/-- What follows a count of the free slots takes effect at the moment the consumer's counter
is read. -/
theorem numFreeSlots_atomically (meets : Meets R port Takes) {k : ℤ → Prog σ β}
    {Q : β → σ → Prop} (rest : ∀ prod cons,
      RunsFirst R (OnRing port (Submitting prod cons)) (k (freeSlots size prod cons)) Q) :
    RunsAtomically R (OnRing port fun r => r.outstanding ≤ n)
      ((numFreeSlots port size).bind k) := by
  simp only [numFreeSlots, bind_def, pure_def, bind_assoc, ret_bind]
  apply runsAtomically_fetch_own (stable_onRing meets takes_bounded)
  · rintro s l s' ⟨r, hr, _⟩ hR
    obtain ⟨x, r', hT, hr', _⟩ := meets s l s' r hR hr
    rw [hr, hr', Option.map_some, Option.map_some, takes_producer hT]
  · rintro s ⟨r, hr, _⟩
    rw [hr]
    rfl
  intro prod
  apply RunsAtomically.weaken (P := OnRing port fun r => r.producer = prod ∧ r.outstanding ≤ n)
  · refine runsAtomically_fetch (C := fun cons => OnRing port (Submitting prod cons))
      (stable_onRing meets fun x r r' h hT =>
        ⟨(takes_producer hT).trans h.1, (takes_outstanding hT).trans h.2⟩) ?_ fun cons => rest prod cons
    rintro s ⟨r, hr, rfl, hle⟩
    exact ⟨r.consumer, by rw [hr, Option.map_some], r, hr, rfl, le_rfl, hle⟩
  · rintro s ⟨⟨r, hr, hle⟩, hprod⟩
    rw [hr, Option.map_some, Option.some.injEq] at hprod
    exact ⟨r, hr, hprod, hle⟩

/-- A batch is submitted at the moment the consumer's counter is read. -/
theorem submit_atomically (hn : IsRingSize n) (hsize : size = n) (meets : Meets R port Takes)
    (priv : ∀ d, ok d = true → Private R port (mark d)) (privCount : ∀ k, Private R port (count k))
    {ds : List γ} (hok : ∀ d ∈ ds, ok d = true) :
    RunsAtomically R (OnRing port fun r => r.outstanding ≤ n)
      (submit port size entry ok mark count ds) := by
  subst hsize
  exact numFreeSlots_atomically meets
    fun prod cons => runsFirst_submit hn meets priv privCount hok prod cons

end Submit

section Collect
variable {ok : α → Bool} {mark : α → σ → σ}

/-- There are `m` entries to collect, and all entries are acceptable. -/
def Collectable (ok : α → Bool) (m : ℕ) (r : Ring α n) : Prop :=
  r.outstanding ≤ n ∧ m ≤ r.outstanding ∧ ∀ x ∈ r.queue, ok x = true

/-- The entries before the counter `cons` are read, and `m` more are there to be read. -/
def Draining (ok : α → Bool) (cons : UInt32) (m : ℕ) (r : Ring α n) : Prop :=
  r.outstanding ≤ n ∧ m ≤ (r.producer - cons).toNat ∧
    (r.producer - cons).toNat ≤ r.outstanding ∧ ∀ x ∈ entries r.descs cons m, ok x = true

theorem gives_consumer {x : Option α} {r r' : Ring α n} (hT : Gives ok x r r') :
    r'.consumer = r.consumer := by
  cases x with
  | none => rw [hT]
  | some x =>
    obtain ⟨_, rfl⟩ := give_eq_some hT.1
    rfl

theorem Collectable.gives (hn : IsRingSize n) {m : ℕ} (x : Option α) (r r' : Ring α n)
    (h : Collectable ok m r) (hT : Gives ok x r r') : Collectable ok m r' := by
  cases x with
  | none => exact hT ▸ h
  | some x =>
    obtain ⟨hlt, rfl⟩ := give_eq_some hT.1
    obtain ⟨_, hm, hall⟩ := h
    have hout := outstanding_push hn x hlt
    refine ⟨by omega, by omega, ?_⟩
    rw [queue_push hn x hlt]
    intro y hy
    rcases List.mem_append.mp hy with hy | hy
    · exact hall y hy
    · rw [List.mem_singleton.mp hy]
      exact hT.2

theorem Draining.gives (hn : IsRingSize n) {cons : UInt32} {m : ℕ} (x : Option α)
    (r r' : Ring α n) (h : Draining ok cons m r) (hT : Gives ok x r r') :
    Draining ok cons m r' := by
  cases x with
  | none => exact hT ▸ h
  | some x =>
    obtain ⟨hlt, rfl⟩ := give_eq_some hT.1
    obtain ⟨_, hm, hout, hall⟩ := h
    have := hn.lt
    have hpush := outstanding_push hn x hlt
    have hprod : ((r.push x).producer - cons).toNat = (r.producer - cons).toNat + 1 :=
      sub_toNat_succ_left (by omega)
    refine ⟨by omega, by omega, by omega, ?_⟩
    rw [Ring.push, entries_set hn r.descs x hm (by omega)]
    exact hall

theorem Draining.head (hn : IsRingSize n) {cons : UInt32} {m : ℕ} {r : Ring α n}
    (h : Draining ok cons (m + 1) r) :
    ∃ x, r.read (slot n cons) = some x ∧ ok x = true ∧ Draining ok (cons + 1) m r := by
  obtain ⟨hle, hm, hout, hall⟩ := h
  have hlt := slot_lt hn cons
  have hread : r.descs[slot n cons]? = some r.descs[slot n cons] := by simp [hlt]
  rw [entries, hread] at hall
  have hnext := sub_toNat_succ_right (a := r.producer) (b := cons) (by omega)
  refine ⟨r.descs[slot n cons], hread, hall _ (by simp), hle, by omega, by omega, ?_⟩
  exact fun x hx => hall x (List.mem_append_right _ hx)

theorem read_gives (hn : IsRingSize n) {cons : UInt32} {m : ℕ} {x : Option α} {r r' : Ring α n}
    (h : Draining ok cons (m + 1) r) (hT : Gives ok x r r') :
    r'.read (slot n cons) = r.read (slot n cons) := by
  cases x with
  | none => rw [hT]
  | some x =>
    obtain ⟨hlt, rfl⟩ := give_eq_some hT.1
    obtain ⟨_, hm, hout, _⟩ := h
    have hne : slot n r.producer ≠ slot n cons := by
      intro heq
      rw [slot_inj hn (by omega) heq, UInt32.sub_self] at hm
      simp at hm
    simp only [Ring.read, Ring.push, Vector.getElem?_setIfInBounds_ne hne]

theorem runsFirst_readEntries (hn : IsRingSize n) (meets : Meets R port (Gives ok))
    (priv : ∀ x, ok x = true → Private R port (mark x)) (m : ℕ) (cons : UInt32) :
    RunsFirst R (OnRing port (Draining ok cons m)) (readEntries port n ok mark m cons)
      fun xs => OnRing port (Draining ok xs.2 0) := by
  induction m generalizing cons with
  | zero => exact runsFirst_ret fun _ h => h
  | succ m ih =>
    refine runsFirst_bind (Q := fun _ => OnRing port (Draining ok (cons + 1) m)) ?_ fun x => ?_
    · rw [readEntry, and_mask hn]
      apply runsFirst_touch meets (Draining.gives hn)
      · intro r hr
        obtain ⟨x, hx, hok, hnext⟩ := hr.head hn
        exact ⟨x, r, by rw [hx, Option.map_some], hok, hnext⟩
      · intro x r r' b r₂' hr hT hf
        rw [read_gives hn hr hT] at hf
        obtain ⟨y, hy, heq⟩ := Option.map_eq_some_iff.mp hf
        cases heq
        exact ⟨r, by rw [hy, Option.map_some], hT⟩
      · exact priv
    · exact runsFirst_bind (ih (cons + 1)) fun xs => runsFirst_ret fun _ h => h

theorem runsFirst_publishConsumer (meets : Meets R port (Gives ok)) (hn : IsRingSize n)
    (cons : UInt32) :
    RunsFirst R (OnRing port (Draining ok cons 0)) (publishConsumer port cons) fun _ =>
      OnRing port fun _ => True := by
  apply runsFirst_touch meets (Draining.gives hn)
  · exact fun r hr => ⟨(), _, rfl, rfl, trivial⟩
  · intro x r r' b r₂' hr hT hf
    cases hf
    cases x with
    | none =>
      cases hT
      exact ⟨_, rfl, rfl⟩
    | some x =>
      obtain ⟨hgive, hok⟩ := hT
      obtain ⟨hlt, rfl⟩ := give_eq_some hgive
      have hroom : Ring.outstanding { r with consumer := cons } < n := by
        obtain ⟨_, _, hout, _⟩ := hr
        exact hout.trans_lt hlt
      exact ⟨_, rfl, give_of_lt hroom x, hok⟩
  · exact fun _ _ => Private.id

theorem runsFirst_collect (hn : IsRingSize n) (hsize : size = n) (meets : Meets R port (Gives ok))
    (priv : ∀ x, ok x = true → Private R port (mark x)) {count : List α → σ → σ}
    (privCount : ∀ xs, Private R port (count xs)) (num : ℤ) :
    RunsFirst R (OnRing port (Collectable ok num.toNat)) (collect port size ok mark count num)
      fun _ _ => True := by
  subst hsize
  refine runsFirst_bind
    (Q := fun cons => OnRing port fun r => Draining ok cons num.toNat r)
    (runsFirst_read meets (Collectable.gives hn) (fun _ _ _ => gives_consumer) ?_) fun cons => ?_
  · rintro r ⟨hle, hm, hall⟩
    refine ⟨hle, hm, le_rfl, fun x hx => hall x ?_⟩
    rw [entries_take hn r.descs r.consumer hm] at hx
    exact List.mem_of_mem_take hx
  refine runsFirst_bind (runsFirst_readEntries hn meets priv num.toNat cons) fun xs => ?_
  refine runsFirst_bind (runsFirst_publishConsumer meets hn xs.2) fun _ => ?_
  refine runsFirst_bind (runsFirst_store meets (fun _ _ _ _ _ => trivial) (privCount xs.1))
    fun _ => ?_
  exact runsFirst_ret fun _ _ => trivial

/-- What follows a count of the available entries, and collects no more than these, takes
effect at the moment the producer's counter is read. -/
theorem numAvailable_atomically (hn : IsRingSize n) (hsize : size = n) (meets : Meets R port (Gives ok))
    {k : ℤ → Prog σ β} {Q : β → σ → Prop}
    (rest : ∀ m : ℕ, RunsFirst R (OnRing port (Collectable ok m)) (k m) Q) :
    RunsAtomically R (OnRing port (Collectable ok 0)) ((numAvailable port size).bind k) := by
  subst hsize
  simp only [numAvailable, bind_def, pure_def, bind_assoc, ret_bind]
  refine runsAtomically_fetch (Q := Q)
    (C := fun prod => OnRing port fun r => Collectable ok (prod - r.consumer).toNat r)
    (stable_onRing meets (Collectable.gives hn)) ?_ fun prod => ?_
  · rintro s ⟨r, hr, hle, _, hall⟩
    exact ⟨r.producer, by rw [hr, Option.map_some], r, hr, hle, le_rfl, hall⟩
  refine runsFirst_bind
    (Q := fun cons => OnRing port fun r => Collectable ok (prod - cons).toNat r)
    (runsFirst_read meets ?_ (fun _ _ _ => gives_consumer) fun r h => h) fun cons => ?_
  · intro x r r' h hT
    rw [gives_consumer hT]
    exact h.gives hn x r r' hT
  apply RunsFirst.of_fact (F := (prod - cons).toNat ≤ n)
  · rintro s ⟨r, _, hle, hm, _⟩
    exact hm.trans hle
  intro hle
  rw [available_eq hn hle]
  exact rest _

end Collect

end Defrizer.RingPort
