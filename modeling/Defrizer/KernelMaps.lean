import Mathlib

/-!
# Kernel maps and the helpers that read them

The documented behaviour of the three kinds of map the programs are created with: the
array map of the queue configuration, the XSK map of the sockets and the ring buffer of
the events. A failed operation returns an error and has no resulting map.
-/
namespace Defrizer.KernelMaps

inductive Errno
  | EINTR
  | EAGAIN
  | EBUSY
  | EINVAL
  | ENOENT
  | E2BIG
  | ENOMEM
  | EPERM
  deriving DecidableEq, Repr

/-- The map operations the user program and the packet programs perform. -/
class KernelMap (M : Type) where
  lookup : M → UInt32 → Option UInt32
  update : M → UInt32 → UInt32 → Except Errno M
  delete : M → UInt32 → Except Errno M

/-- `BPF_MAP_TYPE_ARRAY`: every key below `maxEntries` is always present. -/
structure ArrayMap (maxEntries : ℕ) where
  values : Vector UInt32 maxEntries
  deriving DecidableEq, Repr

/-- `BPF_MAP_TYPE_XSKMAP`: a slot is empty or holds a socket. That deleting an empty slot is an
error is an assumption about the kernel; nothing that is shown of the programs rests on it, as
the code deletes a socket only after an array map has let it delete an entry. -/
structure XskMap (maxEntries : ℕ) where
  slots : Vector (Option UInt32) maxEntries
  deriving DecidableEq, Repr

def ArrayMap.new (n : ℕ) : ArrayMap n := ⟨Vector.replicate n 0⟩

def XskMap.new (n : ℕ) : XskMap n := ⟨Vector.replicate n none⟩

instance (n : ℕ) : KernelMap (ArrayMap n) where
  lookup m k := m.values[k.toNat]?
  update m k v := if h : k.toNat < n then .ok ⟨m.values.set k.toNat v h⟩ else .error .E2BIG
  delete _ _ := .error .EINVAL

instance (n : ℕ) : KernelMap (XskMap n) where
  lookup m k := (m.slots[k.toNat]?).join
  update m k v :=
    if h : k.toNat < n then .ok ⟨m.slots.set k.toNat (some v) h⟩ else .error .E2BIG
  delete m k :=
    if h : k.toNat < n then
      if m.slots[k.toNat].isSome then .ok ⟨m.slots.set k.toNat none h⟩ else .error .ENOENT
    else .error .EINVAL

open KernelMap

variable {n : ℕ}

theorem ArrayMap.lookup_def (m : ArrayMap n) (k : UInt32) : lookup m k = m.values[k.toNat]? := rfl

theorem ArrayMap.update_def (m : ArrayMap n) (k v : UInt32) : update m k v =
    if h : k.toNat < n then .ok ⟨m.values.set k.toNat v h⟩ else .error .E2BIG := rfl

theorem XskMap.lookup_def (m : XskMap n) (k : UInt32) :
    lookup m k = (m.slots[k.toNat]?).join := rfl

theorem XskMap.update_def (m : XskMap n) (k v : UInt32) : update m k v =
    if h : k.toNat < n then .ok ⟨m.slots.set k.toNat (some v) h⟩ else .error .E2BIG := rfl

theorem XskMap.delete_def (m : XskMap n) (k : UInt32) : delete m k =
    if h : k.toNat < n then
      if m.slots[k.toNat].isSome then .ok ⟨m.slots.set k.toNat none h⟩ else .error .ENOENT
    else .error .EINVAL := rfl

theorem ArrayMap.lookup_new (k : UInt32) :
    lookup (ArrayMap.new n) k = if k.toNat < n then some 0 else none := by
  simp only [ArrayMap.lookup_def, ArrayMap.new, Vector.getElem?_replicate]

theorem XskMap.lookup_new (k : UInt32) : lookup (XskMap.new n) k = none := by
  simp only [XskMap.lookup_def, XskMap.new, Vector.getElem?_replicate]
  split_ifs <;> rfl

theorem ArrayMap.update_eq_ok {m m' : ArrayMap n} {k v : UInt32} (h : update m k v = .ok m') :
    k.toNat < n ∧ ∀ j, lookup m' j = if j = k then some v else lookup m j := by
  rw [ArrayMap.update_def] at h
  split_ifs at h with hk
  cases h
  refine ⟨hk, fun j => ?_⟩
  simp only [ArrayMap.lookup_def, Vector.getElem?_set, UInt32.toNat_inj, eq_comm (a := k)]

theorem XskMap.update_eq_ok {m m' : XskMap n} {k v : UInt32} (h : update m k v = .ok m') :
    k.toNat < n ∧ ∀ j, lookup m' j = if j = k then some v else lookup m j := by
  rw [XskMap.update_def] at h
  split_ifs at h with hk
  cases h
  refine ⟨hk, fun j => ?_⟩
  simp only [XskMap.lookup_def, Vector.getElem?_set, UInt32.toNat_inj, eq_comm (a := k)]
  split_ifs <;> rfl

theorem XskMap.delete_eq_ok {m m' : XskMap n} {k : UInt32} (h : delete m k = .ok m') :
    (lookup m k).isSome ∧ ∀ j, lookup m' j = if j = k then none else lookup m j := by
  rw [XskMap.delete_def] at h
  split_ifs at h with hk hsome
  cases h
  refine ⟨by simpa [XskMap.lookup_def, hk] using hsome, fun j => ?_⟩
  simp only [XskMap.lookup_def, Vector.getElem?_set, UInt32.toNat_inj, eq_comm (a := k)]
  split_ifs <;> rfl

/-- `BPF_MAP_TYPE_RINGBUF`: a bounded queue of records. -/
structure RingBuffer where
  maxEntries : ℕ
  records : List (List UInt8)
  deriving DecidableEq, Repr

/-- A record occupies an eight-byte header and its data, rounded up to eight bytes. -/
def recordSize (data : List UInt8) : ℕ := (data.length + 8 + 7) / 8 * 8

def RingBuffer.used (rb : RingBuffer) : ℕ := (rb.records.map recordSize).sum

/-- One byte of the buffer always stays free. -/
def RingBuffer.HasRoom (rb : RingBuffer) (data : List UInt8) : Prop :=
  rb.used + recordSize data < rb.maxEntries

instance (rb : RingBuffer) (data : List UInt8) : Decidable (rb.HasRoom data) :=
  inferInstanceAs (Decidable (_ < _))

def RingBuffer.append (rb : RingBuffer) (data : List UInt8) : RingBuffer :=
  { rb with records := rb.records ++ [data] }

/-- `bpf_ringbuf_output`: 0 and an appended record, or `-EAGAIN` and no change. -/
def bpfRingbufOutput (rb : RingBuffer) (data : List UInt8) : ℤ × RingBuffer :=
  if rb.HasRoom data then (0, rb.append data) else (-11, rb)

/-- A read takes the oldest record; on an empty buffer it waits. -/
def RingBuffer.read (rb : RingBuffer) : RingBuffer := { rb with records := rb.records.tail }

lemma RingBuffer.append_ne (rb : RingBuffer) (data : List UInt8) : rb.append data ≠ rb := by
  intro h
  have hlen := congrArg (fun b => b.records.length) h
  simp [RingBuffer.append] at hlen

end Defrizer.KernelMaps
