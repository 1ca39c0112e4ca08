import Defrizer.HeaderCursor

/-!
# The byte order macros

Translation of `bpf_endian.h`. Each macro has a path for constants, which moves the bytes one by
one, and a path through a builtin of the compiler; a big-endian build leaves its argument alone.
On both paths of both builds a converted number lies in memory with its highest byte first.
-/
namespace Defrizer.EndianMacros
open ByteFields

/-- The `k` lowest bytes of a number, the lowest first. -/
def leBytes : ℕ → ℕ → List ℕ
  | 0, _ => []
  | k + 1, x => x % 256 :: leBytes k (x / 256)

def reverseBytes (k x : ℕ) : ℕ := Nat.ofDigits 256 (leBytes k x).reverse

section Bytes
variable {k x : ℕ}

@[simp] lemma leBytes_length (k x : ℕ) : (leBytes k x).length = k := by
  induction k generalizing x with
  | zero => rfl
  | succ k ih => rw [leBytes, List.length_cons, ih]

lemma leBytes_eq_map (k x : ℕ) : leBytes k x = (List.range k).map fun n => x / 256 ^ n % 256 := by
  induction k generalizing x with
  | zero => rfl
  | succ k ih =>
    rw [leBytes, ih, List.range_succ_eq_map, List.map_cons, List.map_map, pow_zero, Nat.div_one]
    congr 2
    funext n
    rw [Function.comp_apply, Nat.div_div_eq_div_mul, Nat.succ_eq_add_one, pow_succ, mul_comm]

lemma leBytes_lt (k x : ℕ) : ∀ d ∈ leBytes k x, d < 256 := by
  induction k generalizing x with
  | zero => simp [leBytes]
  | succ k ih =>
    rw [leBytes, List.forall_mem_cons]
    exact ⟨Nat.mod_lt _ (by decide), ih _⟩

lemma leBytes_ofDigits {ds : List ℕ} (h : ∀ d ∈ ds, d < 256) :
    leBytes ds.length (Nat.ofDigits 256 ds) = ds := by
  induction ds with
  | nil => rfl
  | cons d ds ih =>
    obtain ⟨hd, hds⟩ := List.forall_mem_cons.mp h
    rw [List.length_cons, leBytes, Nat.ofDigits_cons]
    have hlow : (d + 256 * Nat.ofDigits 256 ds) % 256 = d := by omega
    have hhigh : (d + 256 * Nat.ofDigits 256 ds) / 256 = Nat.ofDigits 256 ds := by omega
    rw [hlow, hhigh, ih hds]

lemma ofDigits_leBytes (h : x < 256 ^ k) : Nat.ofDigits 256 (leBytes k x) = x := by
  induction k generalizing x with
  | zero =>
    have hx : x = 0 := by simpa using h
    subst hx
    rfl
  | succ k ih =>
    rw [pow_succ] at h
    rw [leBytes, Nat.ofDigits_cons, ih (by omega)]
    omega

lemma leBytes_reverseBytes (k x : ℕ) : leBytes k (reverseBytes k x) = (leBytes k x).reverse := by
  have hlt : ∀ d ∈ (leBytes k x).reverse, d < 256 :=
    fun d hd => leBytes_lt k x d (List.mem_reverse.mp hd)
  have hdigits := leBytes_ofDigits hlt
  rwa [List.length_reverse, leBytes_length] at hdigits

lemma reverseBytes_lt (k x : ℕ) : reverseBytes k x < 256 ^ k := by
  have hlt := Nat.ofDigits_lt_base_pow_length (b := 256) (l := (leBytes k x).reverse) (by decide)
    fun d hd => leBytes_lt k x d (List.mem_reverse.mp hd)
  rwa [List.length_reverse, leBytes_length] at hlt

lemma reverseBytes_reverseBytes (h : x < 256 ^ k) : reverseBytes k (reverseBytes k x) = x := by
  rw [reverseBytes, leBytes_reverseBytes, List.reverse_reverse, ofDigits_leBytes h]

/-- The bytes as they lie in memory. -/
def stored (e : ByteOrder) (k x : ℕ) : List ℕ := e.pick (leBytes k x) (leBytes k x).reverse

end Bytes

/-- `___bpf_mvb` for 32 and 64 bits, which C computes with as they are. -/
def bpfMvb {b : ℕ} (x : BitVec b) (n m : ℕ) : BitVec b :=
  x <<< (b - (n + 1) * 8) >>> (b - 8) <<< (m * 8)

/-- `___bpf_mvb` for 16 bits. C computes it with an `int`, where nothing is shifted out, so byte
0 takes byte 1 along. -/
def bpfMvb16 (x : BitVec 16) (n m : ℕ) : BitVec 32 :=
  (x.setWidth 32 <<< (16 - (n + 1) * 8)).sshiftRight (16 - 8) <<< (m * 8)

def bpfSwab16 (x : BitVec 16) : BitVec 16 := (bpfMvb16 x 0 1 ||| bpfMvb16 x 1 0).setWidth 16

def bpfSwab32 (x : BitVec 32) : BitVec 32 :=
  bpfMvb x 0 3 ||| bpfMvb x 1 2 ||| bpfMvb x 2 1 ||| bpfMvb x 3 0

def bpfSwab64 (x : BitVec 64) : BitVec 64 :=
  bpfMvb x 0 7 ||| bpfMvb x 1 6 ||| bpfMvb x 2 5 ||| bpfMvb x 3 4 |||
    bpfMvb x 4 3 ||| bpfMvb x 5 2 ||| bpfMvb x 6 1 ||| bpfMvb x 7 0

/-- `__builtin_bswap16`, `__builtin_bswap32` and `__builtin_bswap64`. -/
def builtinBswap {b : ℕ} (x : BitVec b) : BitVec b := BitVec.ofNat b (reverseBytes (b / 8) x.toNat)

/-- A macro with its path for constants and its other path. -/
def convert {b : ℕ} (e : ByteOrder) (swab : BitVec b → BitVec b) (constant : Bool)
    (x : BitVec b) : BitVec b :=
  e.pick (if constant then swab x else builtinBswap x) x

def bpfHtons (e : ByteOrder) (constant : Bool) (x : BitVec 16) : BitVec 16 :=
  convert e bpfSwab16 constant x

def bpfNtohs (e : ByteOrder) (constant : Bool) (x : BitVec 16) : BitVec 16 :=
  convert e bpfSwab16 constant x

def bpfHtonl (e : ByteOrder) (constant : Bool) (x : BitVec 32) : BitVec 32 :=
  convert e bpfSwab32 constant x

def bpfNtohl (e : ByteOrder) (constant : Bool) (x : BitVec 32) : BitVec 32 :=
  convert e bpfSwab32 constant x

def bpfCpuToBe64 (e : ByteOrder) (constant : Bool) (x : BitVec 64) : BitVec 64 :=
  convert e bpfSwab64 constant x

def bpfBe64ToCpu (e : ByteOrder) (constant : Bool) (x : BitVec 64) : BitVec 64 :=
  convert e bpfSwab64 constant x

section Swabs

lemma pow_byte (m : ℕ) : 256 ^ m = 2 ^ (8 * m) := by
  rw [pow_mul]
  norm_num

lemma or_byte (a m : ℕ) {d : ℕ} (h : d < 256) :
    a * 256 ^ (m + 1) ||| d * 256 ^ m = (a * 256 + d) * 256 ^ m := by
  have hlt : d * 256 ^ m < 2 ^ (8 * (m + 1)) := by
    rw [← pow_byte, pow_succ, mul_comm]
    exact (Nat.mul_lt_mul_left (by positivity)).mpr h
  rw [pow_byte (m + 1), mul_comm a, ← Nat.two_pow_add_eq_or_of_lt hlt, ← pow_byte]
  ring

/-- The first two shifts cut a byte out, the third puts it in its place. -/
lemma bpfMvb_toNat {b : ℕ} (x : BitVec b) {n m : ℕ} (hn : 8 * (n + 1) ≤ b)
    (hm : 8 * (m + 1) ≤ b) : (bpfMvb x n m).toNat = x.toNat / 256 ^ n % 256 * 256 ^ m := by
  have hcut : x.toNat * 2 ^ (b - (n + 1) * 8) % 2 ^ b / 2 ^ (b - 8) =
      x.toNat / 256 ^ n % 256 := by
    have hb : 2 ^ b = 2 ^ (b - 8) * 256 := by
      rw [show b = b - 8 + 8 by omega, pow_add, Nat.add_sub_cancel]
      norm_num
    have hs : 2 ^ (b - 8) = 256 ^ n * 2 ^ (b - (n + 1) * 8) := by
      rw [pow_byte, ← pow_add]
      congr 1
      omega
    rw [hb, Nat.mod_mul_right_div_self, hs, Nat.mul_div_mul_right _ _ (by positivity)]
  have hfits : x.toNat / 256 ^ n % 256 * 256 ^ m < 2 ^ b := by
    calc x.toNat / 256 ^ n % 256 * 256 ^ m < 256 * 256 ^ m :=
          Nat.mul_lt_mul_of_pos_right (Nat.mod_lt _ (by decide)) (by positivity)
      _ = 2 ^ (8 * (m + 1)) := by rw [← pow_byte, pow_succ, mul_comm]
      _ ≤ 2 ^ b := Nat.pow_le_pow_right (by decide) hm
  rw [bpfMvb, BitVec.toNat_shiftLeft, BitVec.toNat_ushiftRight, BitVec.toNat_shiftLeft,
    Nat.shiftLeft_eq, Nat.shiftLeft_eq, Nat.shiftRight_eq_div_pow, hcut, mul_comm m, ← pow_byte,
    Nat.mod_eq_of_lt hfits]

lemma bpfSwab32_toNat (x : BitVec 32) : (bpfSwab32 x).toNat = reverseBytes 4 x.toNat := by
  have hbyte : ∀ n, x.toNat / 256 ^ n % 256 < 256 := fun n => Nat.mod_lt _ (by decide)
  simp only [bpfSwab32, BitVec.toNat_or]
  rw [bpfMvb_toNat x (by decide) (by decide), bpfMvb_toNat x (by decide) (by decide),
    bpfMvb_toNat x (by decide) (by decide), bpfMvb_toNat x (by decide) (by decide),
    or_byte _ 2 (hbyte 1), or_byte _ 1 (hbyte 2), or_byte _ 0 (hbyte 3), reverseBytes,
    leBytes_eq_map]
  simp only [List.range_succ, List.range_zero, List.nil_append, List.cons_append, List.map_cons,
    List.map_nil, List.reverse_cons, List.reverse_nil, Nat.ofDigits_cons, Nat.ofDigits_nil]
  ring

lemma bpfSwab64_toNat (x : BitVec 64) : (bpfSwab64 x).toNat = reverseBytes 8 x.toNat := by
  have hbyte : ∀ n, x.toNat / 256 ^ n % 256 < 256 := fun n => Nat.mod_lt _ (by decide)
  simp only [bpfSwab64, BitVec.toNat_or]
  rw [bpfMvb_toNat x (by decide) (by decide), bpfMvb_toNat x (by decide) (by decide),
    bpfMvb_toNat x (by decide) (by decide), bpfMvb_toNat x (by decide) (by decide),
    bpfMvb_toNat x (by decide) (by decide), bpfMvb_toNat x (by decide) (by decide),
    bpfMvb_toNat x (by decide) (by decide), bpfMvb_toNat x (by decide) (by decide),
    or_byte _ 6 (hbyte 1), or_byte _ 5 (hbyte 2), or_byte _ 4 (hbyte 3), or_byte _ 3 (hbyte 4),
    or_byte _ 2 (hbyte 5), or_byte _ 1 (hbyte 6), or_byte _ 0 (hbyte 7), reverseBytes,
    leBytes_eq_map]
  simp only [List.range_succ, List.range_zero, List.nil_append, List.cons_append, List.map_cons,
    List.map_nil, List.reverse_cons, List.reverse_nil, Nat.ofDigits_cons, Nat.ofDigits_nil]
  ring

lemma bpfMvb16_toNat (x : BitVec 16) {n m : ℕ} (hm : m ≤ 1) :
    (bpfMvb16 x n m).toNat = x.toNat * 2 ^ (16 - (n + 1) * 8) / 256 * 256 ^ m := by
  have hx := x.isLt
  have hshift : 2 ^ (16 - (n + 1) * 8) ≤ 2 ^ 8 := Nat.pow_le_pow_right (by decide) (by omega)
  have hlt : x.toNat * 2 ^ (16 - (n + 1) * 8) < 2 ^ 24 := by
    calc x.toNat * 2 ^ (16 - (n + 1) * 8) ≤ x.toNat * 2 ^ 8 := Nat.mul_le_mul_left _ hshift
      _ < 2 ^ 24 := by omega
  have hleft : (x.setWidth 32 <<< (16 - (n + 1) * 8)).toNat =
      x.toNat * 2 ^ (16 - (n + 1) * 8) := by
    rw [BitVec.toNat_shiftLeft, BitVec.toNat_setWidth, Nat.shiftLeft_eq,
      Nat.mod_eq_of_lt (show x.toNat < 2 ^ 32 by omega), Nat.mod_eq_of_lt (by omega)]
  -- The sign bit of the `int` is never set.
  have hsign : (x.setWidth 32 <<< (16 - (n + 1) * 8)).msb = false := by
    rw [BitVec.msb_eq_false_iff_two_mul_lt, hleft]
    omega
  have hplace : 256 ^ m ≤ 256 := by
    calc 256 ^ m ≤ 256 ^ 1 := Nat.pow_le_pow_right (by decide) hm
      _ = 256 := pow_one 256
  have hfits : x.toNat * 2 ^ (16 - (n + 1) * 8) / 256 * 256 ^ m < 2 ^ 32 := by
    calc x.toNat * 2 ^ (16 - (n + 1) * 8) / 256 * 256 ^ m
          ≤ x.toNat * 2 ^ (16 - (n + 1) * 8) / 256 * 256 := Nat.mul_le_mul_left _ hplace
      _ < 2 ^ 32 := by omega
  rw [bpfMvb16, BitVec.toNat_shiftLeft, BitVec.sshiftRight_eq_of_msb_false hsign,
    BitVec.toNat_ushiftRight, hleft, Nat.shiftLeft_eq, Nat.shiftRight_eq_div_pow, mul_comm m,
    ← pow_byte, Nat.mod_eq_of_lt hfits]

/-- What byte 0 takes along lies above bit 16, and the last conversion cuts it off. -/
lemma bpfSwab16_toNat (x : BitVec 16) : (bpfSwab16 x).toNat = reverseBytes 2 x.toNat := by
  have hx := x.isLt
  have h₀ : (bpfMvb16 x 0 1).toNat = x.toNat * 256 := by
    rw [bpfMvb16_toNat x le_rfl]
    omega
  have h₁ : (bpfMvb16 x 1 0).toNat = x.toNat / 256 := by
    rw [bpfMvb16_toNat x (Nat.zero_le 1)]
    omega
  have hbyte : ∀ n, x.toNat / 256 ^ n % 256 < 256 := fun n => Nat.mod_lt _ (by decide)
  have hlow : x.toNat * 256 % 2 ^ 16 = x.toNat / 256 ^ 0 % 256 * 256 ^ (0 + 1) := by omega
  have hhigh : x.toNat / 256 % 2 ^ 16 = x.toNat / 256 ^ 1 % 256 * 256 ^ 0 := by omega
  rw [bpfSwab16, BitVec.toNat_setWidth, BitVec.toNat_or, h₀, h₁, Nat.or_mod_two_pow, hlow, hhigh,
    or_byte _ 0 (hbyte 1), reverseBytes, leBytes_eq_map]
  simp only [List.range_succ, List.range_zero, List.nil_append, List.cons_append, List.map_cons,
    List.map_nil, List.reverse_cons, List.reverse_nil, Nat.ofDigits_cons, Nat.ofDigits_nil]
  ring

end Swabs

section Macros
variable {b : ℕ} {swab : BitVec b → BitVec b} {k : ℕ}

/-- Both paths of a macro turn the bytes around, and a big-endian build does nothing. -/
lemma convert_toNat (hb : b = 8 * k) (hswab : ∀ x, (swab x).toNat = reverseBytes k x.toNat)
    (e : ByteOrder) (constant : Bool) (x : BitVec b) :
    (convert e swab constant x).toNat = e.pick (reverseBytes k x.toNat) x.toNat := by
  have hbuiltin : (builtinBswap x).toNat = reverseBytes k x.toNat := by
    have hlt := reverseBytes_lt k x.toNat
    have hk : b / 8 = k := by omega
    rw [pow_byte, ← hb] at hlt
    rw [builtinBswap, BitVec.toNat_ofNat, hk, Nat.mod_eq_of_lt hlt]
  cases e with
  | little =>
    cases constant with
    | true => exact hswab x
    | false => exact hbuiltin
  | big => rfl

/-- A converted number lies in memory with its highest byte first, and converting it again, on
whichever path, gives it back. -/
def NetworkOrder (k : ℕ) (out back : ByteOrder → Bool → BitVec b → BitVec b) : Prop :=
  ∀ e constant constant' x, stored e k (out e constant x).toNat = (leBytes k x.toNat).reverse ∧
    back e constant' (out e constant x) = x

lemma convert_networkOrder (hb : b = 8 * k)
    (hswab : ∀ x, (swab x).toNat = reverseBytes k x.toNat) :
    NetworkOrder k (fun e => convert e swab) (fun e => convert e swab) := by
  intro e constant constant' x
  have hx : x.toNat < 256 ^ k := by
    rw [pow_byte, ← hb]
    exact x.isLt
  have hout := convert_toNat hb hswab e constant x
  have hback := convert_toNat hb hswab e constant' (convert e swab constant x)
  rw [hout] at hback
  change stored e k (convert e swab constant x).toNat = _ ∧ convert e swab constant' _ = x
  rw [hout]
  cases e with
  | little =>
    refine ⟨leBytes_reverseBytes k x.toNat, BitVec.eq_of_toNat_eq ?_⟩
    rw [hback]
    exact reverseBytes_reverseBytes hx
  | big => exact ⟨rfl, BitVec.eq_of_toNat_eq hback⟩

/-- The macros of all three widths, in both directions, give network order. -/
theorem macros_networkOrder :
    (NetworkOrder 2 bpfHtons bpfNtohs ∧ NetworkOrder 2 bpfNtohs bpfHtons) ∧
      (NetworkOrder 4 bpfHtonl bpfNtohl ∧ NetworkOrder 4 bpfNtohl bpfHtonl) ∧
      NetworkOrder 8 bpfCpuToBe64 bpfBe64ToCpu ∧ NetworkOrder 8 bpfBe64ToCpu bpfCpuToBe64 := by
  have h16 := convert_networkOrder (k := 2) rfl bpfSwab16_toNat
  have h32 := convert_networkOrder (k := 4) rfl bpfSwab32_toNat
  have h64 := convert_networkOrder (k := 8) rfl bpfSwab64_toNat
  exact ⟨⟨h16, h16⟩, ⟨h32, h32⟩, h64, h64⟩

/-- The parsers of `tcp_syn_kern.h` use the macros in the way they are modelled there. -/
theorem bpfHtons_eq (e : ByteOrder) (constant : Bool) (x : UInt16) :
    HeaderCursor.bpfHtons e x = UInt16.ofBitVec (bpfHtons e constant x.toBitVec) := by
  have hconvert := convert_toNat (k := 2) rfl bpfSwab16_toNat e constant x.toBitVec
  have hx := x.toNat_lt
  rw [← UInt16.toNat_inj]
  change (netOrder16 e x).toNat = (convert e bpfSwab16 constant x.toBitVec).toNat
  rw [hconvert]
  cases e with
  | little =>
    simp only [netOrder16, swap16_toNat, ByteOrder.pick, reverseBytes, leBytes, List.reverse_cons,
      List.reverse_nil, List.nil_append, List.cons_append, Nat.ofDigits_cons, Nat.ofDigits_nil,
      UInt16.toNat_toBitVec]
    omega
  | big => rfl

end Macros

end Defrizer.EndianMacros
