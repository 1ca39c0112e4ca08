import Defrizer.ProgramRefinement
import Defrizer.RingPortAtomicity

/-!
# What a batch does

Run alone, `submit` appends the entries that fit and `collect` removes the oldest ones; the
marks are made in the order of the batch.
-/
namespace Defrizer.RingPort
open InterleavedProgram WrappingRing

variable {σ α β γ : Type} {n : ℕ} {port : Port σ α n} {size : ℤ}

def markAll (mark : γ → σ → σ) (ds : List γ) (s : σ) : σ := ds.foldl (fun s d => mark d s) s

theorem Aside.markAll {mark : γ → σ → σ} {ds : List γ} (h : ∀ d ∈ ds, Aside port (mark d)) :
    Aside port (markAll mark ds) := by
  induction ds with
  | nil => exact ⟨fun _ => rfl, fun _ _ => rfl⟩
  | cons d ds ih =>
    have hd := h d List.mem_cons_self
    have hds := ih fun d hd => h d (List.mem_cons_of_mem _ hd)
    refine ⟨fun s => ?_, fun r s => ?_⟩
    · exact (hds.get _).trans (hd.get s)
    · exact (congrArg (RingPort.markAll mark ds) (hd.set r s)).trans (hds.set r _)

theorem touch_run {f : Ring α n → Option (β × Ring α n)} {ok : β → Bool} {mark : β → σ → σ}
    {s : σ} {r r' : Ring α n} {b : β} (hr : port.get s = some r) (hf : f r = some (b, r'))
    (hok : ok b = true) : (touch port f ok mark).run s = some (b, mark b (port.set r' s)) := by
  simp [touch, hr, hf, hok]

theorem producer_run {s : σ} {r : Ring α n} (hr : port.get s = some r) :
    (producer port).run s = some (r.producer, s) := by
  simp [producer, hr]

theorem consumer_run {s : σ} {r : Ring α n} (hr : port.get s = some r) :
    (consumer port).run s = some (r.consumer, s) := by
  simp [consumer, hr]

theorem publishProducer_run {s : σ} {r : Ring α n} (hr : port.get s = some r) (prod : UInt32) :
    (publishProducer port prod).run s = some ((), port.set { r with producer := prod } s) := by
  simp [publishProducer, touch, hr]

theorem publishConsumer_run {s : σ} {r : Ring α n} (hr : port.get s = some r) (cons : UInt32) :
    (publishConsumer port cons).run s = some ((), port.set { r with consumer := cons } s) := by
  simp [publishConsumer, touch, hr]

theorem numFreeSlots_run (hn : IsRingSize n) (hsize : size = n) {s : σ} {r : Ring α n}
    (hr : port.get s = some r) (hle : r.outstanding ≤ n) :
    (numFreeSlots port size).run s = some (((n - r.outstanding : ℕ) : ℤ), s) := by
  subst hsize
  simp only [numFreeSlots, bind_def, pure_def, run_bind, producer_run hr, consumer_run hr,
    Option.bind_some, run_ret, freeSlots_eq hn hle]
  rfl

theorem numAvailable_run (hn : IsRingSize n) (hsize : size = n) {s : σ} {r : Ring α n}
    (hr : port.get s = some r) (hle : r.outstanding ≤ n) :
    (numAvailable port size).run s = some ((r.outstanding : ℤ), s) := by
  subst hsize
  simp only [numAvailable, bind_def, pure_def, run_bind, producer_run hr, consumer_run hr,
    Option.bind_some, run_ret, available_eq hn hle]
  rfl

section Submit
variable {entry : γ → α} {ok : γ → Bool} {mark : γ → σ → σ} {count : ℤ → σ → σ}

/-- Writing a batch is pushing it without publishing the producer's counter. -/
theorem writeEntries_run (hn : IsRingSize n) {ds : List γ} (hok : ∀ d ∈ ds, ok d = true)
    (haside : ∀ d ∈ ds, Aside port (mark d)) (prod : UInt32) {s : σ} {r : Ring α n}
    (hr : port.get s = some r) :
    (writeEntries port n entry ok mark ds prod).run s =
      some ((Ring.pushAll { r with producer := prod } (ds.map entry)).producer,
        port.set { Ring.pushAll { r with producer := prod } (ds.map entry) with
          producer := r.producer } (markAll mark ds s)) := by
  induction ds generalizing prod s r with
  | nil => exact congrArg (fun s => some (prod, s)) (port.set_get hr).symm
  | cons d ds ih =>
    have hd := haside d List.mem_cons_self
    have hds := fun d hd => haside d (List.mem_cons_of_mem _ hd)
    let r₁ : Ring α n := { r with descs := r.descs.setIfInBounds (slot n prod) (entry d) }
    have hwrite : (writeEntry port n (entry d) (ok d) (mark d) prod).run s =
        some ((), mark d (port.set r₁ s)) := by
      refine touch_run hr ?_ (hok d List.mem_cons_self)
      rw [and_mask hn, Ring.write, if_pos (slot_lt hn prod), Option.map_some]
    have hget : port.get (mark d (port.set r₁ s)) = some r₁ := by rw [hd.get, port.get_set]
    simp only [writeEntries, bind_def, run_bind]
    rw [hwrite, Option.bind_some]
    refine (ih (fun d hd => hok d (List.mem_cons_of_mem _ hd)) hds (prod + 1) hget).trans ?_
    rw [hd.set, (Aside.markAll hds).set, port.set_set]
    rfl

/-- `submit` run alone appends the entries that fit, marks and counts them. -/
theorem submit_run (hn : IsRingSize n) (hsize : size = n) {ds : List γ}
    (hok : ∀ d ∈ ds, ok d = true) (haside : ∀ d ∈ ds, Aside port (mark d)) {s : σ}
    {r : Ring α n} (hr : port.get s = some r) (hle : r.outstanding ≤ n) :
    (submit port size entry ok mark count ds).run s =
      some (((ds.take (n - r.outstanding)).length : ℤ),
        count (ds.take (n - r.outstanding)).length
          (port.set (r.pushAll ((ds.take (n - r.outstanding)).map entry))
            (markAll mark (ds.take (n - r.outstanding)) s))) := by
  subst hsize
  simp only [submit, bind_def, pure_def, run_bind, numFreeSlots_run hn rfl hr hle, Option.bind_some,
    trim_eq, producer_run hr]
  have hok' : ∀ d ∈ ds.take (n - r.outstanding), ok d = true :=
    fun d hd => hok d (List.mem_of_mem_take hd)
  have haside' : ∀ d ∈ ds.take (n - r.outstanding), Aside port (mark d) :=
    fun d hd => haside d (List.mem_of_mem_take hd)
  generalize ds.take (n - r.outstanding) = batch at hok' haside'
  rw [writeEntries_run hn hok' haside' r.producer hr]
  simp only [Option.bind_some]
  rw [publishProducer_run (port.get_set _ _), port.set_set]
  rfl

end Submit

section Collect
variable {ok : α → Bool} {mark : α → σ → σ} {count : List α → σ → σ}

theorem readEntries_run (hn : IsRingSize n) {m : ℕ} {cons : UInt32} {s : σ} {r : Ring α n}
    (hok : ∀ x ∈ entries r.descs cons m, ok x = true)
    (haside : ∀ x ∈ entries r.descs cons m, Aside port (mark x)) (hr : port.get s = some r) :
    (readEntries port n ok mark m cons).run s =
      some ((entries r.descs cons m, cons + UInt32.ofNat m),
        markAll mark (entries r.descs cons m) s) := by
  induction m generalizing cons s with
  | zero => simp [readEntries, entries, markAll]
  | succ m ih =>
    have hlt := slot_lt hn cons
    have hread : r.descs[slot n cons]? = some r.descs[slot n cons] := by simp [hlt]
    have hentries : entries r.descs cons (m + 1) =
        r.descs[slot n cons] :: entries r.descs (cons + 1) m := by
      rw [entries, hread]
      rfl
    rw [hentries] at hok haside ⊢
    have hrun : (readEntry port n ok mark cons).run s =
        some (r.descs[slot n cons], mark r.descs[slot n cons] s) := by
      have hf : (r.read (cons &&& UInt32.ofInt ((n : ℤ) - 1)).toNat).map (fun x => (x, r)) =
          some (r.descs[slot n cons], r) := by
        rw [and_mask hn, Ring.read, hread, Option.map_some]
      exact (touch_run hr hf (hok _ List.mem_cons_self)).trans (by rw [port.set_get hr])
    have hx := haside _ List.mem_cons_self
    have hget : port.get (mark r.descs[slot n cons] s) = some r := by rw [hx.get, hr]
    simp only [readEntries, bind_def, pure_def, run_bind]
    rw [hrun, Option.bind_some, ih (fun x hx => hok x (List.mem_cons_of_mem _ hx))
        (fun x hx => haside x (List.mem_cons_of_mem _ hx)) hget, add_ofNat_succ]
    rfl

/-- `collect` run alone removes the oldest entries, marks and counts them. -/
theorem collect_run (hn : IsRingSize n) (hsize : size = n) {num : ℤ} {s : σ} {r : Ring α n}
    (hok : ∀ x ∈ r.queue, ok x = true) (haside : ∀ x ∈ r.queue, Aside port (mark x))
    (hr : port.get s = some r) (hle : num.toNat ≤ r.outstanding) :
    (collect port size ok mark count num).run s =
      some (r.queue.take num.toNat, count (r.queue.take num.toNat)
        (port.set (r.popAll num.toNat) (markAll mark (r.queue.take num.toNat) s))) := by
  subst hsize
  have htake : r.queue.take num.toNat = entries r.descs r.consumer num.toNat :=
    (entries_take hn r.descs r.consumer hle).symm
  have hmem : ∀ x ∈ entries r.descs r.consumer num.toNat, x ∈ r.queue :=
    fun x hx => List.mem_of_mem_take (htake ▸ hx)
  have hget : port.get (markAll mark (entries r.descs r.consumer num.toNat) s) = some r := by
    rw [(Aside.markAll fun x hx => haside x (hmem x hx)).get, hr]
  simp only [collect, bind_def, pure_def, run_bind, consumer_run hr, Option.bind_some]
  rw [readEntries_run hn (fun x hx => hok x (hmem x hx)) (fun x hx => haside x (hmem x hx)) hr,
    Option.bind_some, publishConsumer_run hget, htake]
  rfl

end Collect

section Returned
variable {ℓ : Type} {R : σ → ℓ → σ → Prop} {entry : γ → α} {ok : γ → Bool} {mark : γ → σ → σ}
  {count : ℤ → σ → σ} {s s' : σ} {ls : List ℓ}

lemma trim_trim (k : ℤ) (ds : List γ) : trim k (trim k ds) = trim k ds := by
  unfold trim
  split_ifs <;> simp_all

lemma trim_subset (k : ℤ) (ds : List γ) : trim k ds ⊆ ds := by
  unfold trim
  split_ifs
  · exact List.take_subset _ _
  · exact List.Subset.refl _

lemma writeEntries_ok {ds : List γ} {prod p : UInt32}
    (h : Exec R (writeEntries port size entry ok mark ds prod) s ls (some p) s') :
    ∀ d ∈ ds, ok d = true := by
  induction ds generalizing prod s ls with
  | nil => simp
  | cons d ds ih =>
    obtain ⟨ls₁, _, s₁, ls₂, rfl, hwrite, hrest⟩ := h.bind_returned
    obtain ⟨_, s₂, s₃, _, _, _, hf, _⟩ := hwrite.atomic_returned
    have hok : ok d = true := by
      by_contra hok
      simp [hok] at hf
    exact List.forall_mem_cons.mpr ⟨hok, ih hrest⟩

lemma submit_returned {ds : List γ} {a : ℤ}
    (h : Exec R (submit port size entry ok mark count ds) s ls (some a) s') :
    ∃ ds' ⊆ ds, (∀ d ∈ ds', ok d = true) ∧
      Exec R (submit port size entry ok mark count ds') s ls (some a) s' := by
  obtain ⟨ls₁, k, s₁, ls₂, rfl, hslots, hrest⟩ := h.bind_returned
  refine ⟨trim k ds, trim_subset k ds, ?_, hslots.bind ?_⟩
  · obtain ⟨_, prod, s₂, _, _, _, hafter⟩ := hrest.bind_returned
    obtain ⟨_, p, s₃, _, _, hwrite, _⟩ := hafter.bind_returned
    exact writeEntries_ok hwrite
  · simpa only [trim_trim] using hrest

end Returned

end Defrizer.RingPort
