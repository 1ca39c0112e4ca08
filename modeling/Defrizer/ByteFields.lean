import Mathlib

/-!
# Bytes, 16-bit fields and byte order

A packet is a list of bytes. Loads are checked: a load past the end of the list
has no value, so a program that is defined on every list never reads outside it.
-/
namespace Defrizer.ByteFields

/-- The two targets a byte-order generic source is compiled for. -/
inductive ByteOrder
  | little
  | big
  deriving DecidableEq, Repr

/-- What the builds for the two byte orders have in the same place. -/
def ByteOrder.pick {α : Type} (e : ByteOrder) (little big : α) : α :=
  match e with
  | .little => little
  | .big => big

def load8 (bytes : List UInt8) (p : ℕ) : Option UInt8 := bytes[p]?

/-- A 16-bit load as a machine of the given byte order performs it. -/
def load16 (e : ByteOrder) (bytes : List UInt8) (p : ℕ) : Option UInt16 := do
  let a ← load8 bytes p
  let b ← load8 bytes (p + 1)
  match e with
  | .little => return UInt16.ofNat (a.toNat + 256 * b.toNat)
  | .big => return UInt16.ofNat (256 * a.toNat + b.toNat)

def load32 (e : ByteOrder) (bytes : List UInt8) (p : ℕ) : Option UInt32 := do
  let a ← load16 e bytes p
  let b ← load16 e bytes (p + 2)
  match e with
  | .little => return UInt32.ofNat (a.toNat + 65536 * b.toNat)
  | .big => return UInt32.ofNat (65536 * a.toNat + b.toNat)

def swap16 (x : UInt16) : UInt16 := UInt16.ofNat (x.toNat % 256 * 256 + x.toNat / 256)

/-- Conversion between host order and network order; it is its own inverse. -/
def netOrder16 (e : ByteOrder) (x : UInt16) : UInt16 :=
  match e with
  | .little => swap16 x
  | .big => x

def swap32 (x : UInt32) : UInt32 :=
  UInt32.ofNat (x.toNat % 256 * 16777216 + x.toNat / 256 % 256 * 65536 +
    x.toNat / 65536 % 256 * 256 + x.toNat / 16777216)

def netOrder32 (e : ByteOrder) (x : UInt32) : UInt32 :=
  match e with
  | .little => swap32 x
  | .big => x

def byteAt (bytes : List UInt8) (i : ℕ) : ℕ := (bytes[i]?.getD 0).toNat

/-- The big-endian value of two adjacent bytes. -/
def wordAt (bytes : List UInt8) (i : ℕ) : ℕ := 256 * byteAt bytes i + byteAt bytes (i + 1)

theorem byteAt_append_right (pre bytes : List UInt8) (i : ℕ) :
    byteAt (pre ++ bytes) (pre.length + i) = byteAt bytes i := by
  have h : (pre ++ bytes)[pre.length + i]? = bytes[i]? := by
    rw [List.getElem?_append_right (Nat.le_add_right _ _), Nat.add_sub_cancel_left]
  simp only [byteAt, h]

theorem byteAt_append_left {bytes : List UInt8} {i : ℕ} (post : List UInt8)
    (h : i < bytes.length) : byteAt (bytes ++ post) i = byteAt bytes i := by
  simp [byteAt, List.getElem?_append_left h]

theorem wordAt_append_right (pre bytes : List UInt8) (i : ℕ) :
    wordAt (pre ++ bytes) (pre.length + i) = wordAt bytes i := by
  simp only [wordAt, byteAt_append_right, Nat.add_assoc]

theorem wordAt_append_left {bytes : List UInt8} {i : ℕ} (post : List UInt8)
    (h : i + 1 < bytes.length) : wordAt (bytes ++ post) i = wordAt bytes i := by
  simp only [wordAt, byteAt_append_left post h, byteAt_append_left post (Nat.lt_of_succ_lt h)]

theorem swap16_toNat (x : UInt16) : (swap16 x).toNat = x.toNat % 256 * 256 + x.toNat / 256 := by
  have hx := x.toNat_lt
  simp only [swap16, UInt16.toNat_ofNat']
  omega

theorem netOrder16_involutive (e : ByteOrder) : Function.Involutive (netOrder16 e) := by
  intro x
  cases e with
  | big => rfl
  | little =>
    have hx := x.toNat_lt
    apply UInt16.toNat_inj.mp
    simp only [netOrder16, swap16_toNat]
    omega

theorem eq_netOrder16_iff (e : ByteOrder) (x c : UInt16) :
    x = netOrder16 e c ↔ netOrder16 e x = c := by
  constructor
  · rintro rfl
    exact netOrder16_involutive e c
  · rintro rfl
    exact (netOrder16_involutive e x).symm

theorem load8_eq_some {bytes : List UInt8} {p : ℕ} (h : p < bytes.length) :
    ∃ b, load8 bytes p = some b ∧ b.toNat = byteAt bytes p :=
  ⟨bytes[p], by simp [load8, h], by simp [byteAt, h]⟩

/-- Whatever the byte order, an in-range field read and brought to host order has its
big-endian value. -/
theorem load16_eq_some (e : ByteOrder) (bytes : List UInt8) {p : ℕ} (h : p + 1 < bytes.length) :
    ∃ w, load16 e bytes p = some w ∧ (netOrder16 e w).toNat = wordAt bytes p := by
  obtain ⟨a, ha, hav⟩ := load8_eq_some (Nat.lt_of_succ_lt h)
  obtain ⟨b, hb, hbv⟩ := load8_eq_some h
  have hal := a.toNat_lt
  have hbl := b.toNat_lt
  cases e with
  | little =>
    refine ⟨_, by simp only [load16, ha, hb]; rfl, ?_⟩
    simp only [netOrder16, swap16_toNat, UInt16.toNat_ofNat', wordAt, ← hav, ← hbv]
    omega
  | big =>
    refine ⟨_, by simp only [load16, ha, hb]; rfl, ?_⟩
    simp only [netOrder16, UInt16.toNat_ofNat', wordAt, ← hav, ← hbv]
    omega

theorem load32_eq_some (e : ByteOrder) (bytes : List UInt8) {p : ℕ} (h : p + 3 < bytes.length) :
    ∃ w, load32 e bytes p = some w := by
  obtain ⟨a, ha, _⟩ := load16_eq_some e bytes (p := p) (by omega)
  obtain ⟨b, hb, _⟩ := load16_eq_some e bytes (p := p + 2) (by omega)
  cases e <;> exact ⟨_, by simp only [load32, ha, hb]; rfl⟩

/-- The two byte orders load the same field in opposite orders. -/
theorem load16_eq_map (e : ByteOrder) (bytes : List UInt8) (p : ℕ) :
    load16 e bytes p = (load16 .big bytes p).map (netOrder16 e) := by
  cases e with
  | big => exact Option.map_id.symm ▸ rfl
  | little =>
    cases ha : load8 bytes p with
    | none => simp only [load16, ha]; rfl
    | some a =>
      cases hb : load8 bytes (p + 1) with
      | none => simp only [load16, ha, hb]; rfl
      | some b =>
        have hal := a.toNat_lt
        have hbl := b.toNat_lt
        simp only [load16, ha, hb, Option.bind_eq_bind, Option.bind_some, Option.pure_def,
          Option.map_some, Option.some.injEq, netOrder16]
        have hword : (256 * a.toNat + b.toNat) % 2 ^ 16 = 256 * a.toNat + b.toNat :=
          Nat.mod_eq_of_lt (by omega)
        have hhigh : (256 * a.toNat + b.toNat) / 256 = a.toNat := by omega
        have hlow : (256 * a.toNat + b.toNat) % 256 = b.toNat := by omega
        rw [← UInt16.toNat_inj, swap16_toNat, UInt16.toNat_ofNat', UInt16.toNat_ofNat', hword,
          hhigh, hlow, Nat.mod_eq_of_lt (by omega)]
        omega

theorem load32_eq_map (e : ByteOrder) (bytes : List UInt8) (p : ℕ) :
    load32 e bytes p = (load32 .big bytes p).map (netOrder32 e) := by
  cases e with
  | big => exact Option.map_id.symm ▸ rfl
  | little =>
    have hle := load16_eq_map .little bytes
    cases ha : load16 .big bytes p with
    | none => simp only [load32, hle, ha]; rfl
    | some a =>
      cases hb : load16 .big bytes (p + 2) with
      | none => simp only [load32, hle, ha, hb]; rfl
      | some b =>
        have hal := a.toNat_lt
        have hbl := b.toNat_lt
        simp only [load32, hle, ha, hb, Option.bind_eq_bind, Option.bind_some, Option.pure_def,
          Option.map_some, Option.some.injEq, netOrder32, netOrder16, swap32]
        have hword : (65536 * a.toNat + b.toNat) % 2 ^ 32 = 65536 * a.toNat + b.toNat :=
          Nat.mod_eq_of_lt (by omega)
        have h₀ : (65536 * a.toNat + b.toNat) % 256 = b.toNat % 256 := by omega
        have h₁ : (65536 * a.toNat + b.toNat) / 256 % 256 = b.toNat / 256 := by omega
        have h₂ : (65536 * a.toNat + b.toNat) / 65536 % 256 = a.toNat % 256 := by omega
        have h₃ : (65536 * a.toNat + b.toNat) / 16777216 = a.toNat / 256 := by omega
        rw [← UInt32.toNat_inj, swap16_toNat, swap16_toNat, UInt32.toNat_ofNat',
          UInt32.toNat_ofNat', UInt32.toNat_ofNat', hword, h₀, h₁, h₂, h₃]
        omega

end Defrizer.ByteFields
