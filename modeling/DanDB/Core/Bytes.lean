import DanDB.Core.Endian

/-!
# Byte arrays

`Bytes n` is `std::array<std::byte, n>`, a byte list whose length is part of
its type.  The laws of stored integers below have side conditions about offsets
only, so `omega` discharges them.
-/

namespace DanDB.Core

open Buffer

/-- An array of exactly `size` bytes. -/
structure Bytes (size : Nat) where
  /-- The bytes, first to last. -/
  bytes : List Byte
  /-- There are `size` of them. -/
  size_eq : bytes.length = size
deriving DecidableEq

namespace Bytes

variable {size : Nat}

@[ext] theorem ext {a b : Bytes size} (h : a.bytes = b.bytes) : a = b := by
  cases a; cases b; cases h; rfl

/-- The array of zeros. -/
def zero : Bytes size := ⟨List.replicate size 0, List.length_replicate⟩

/-- A store into the array. -/
def put (array : Bytes size) (off : Nat) (data : List Byte) : Bytes size :=
  ⟨Buffer.put array.bytes off data, by rw [length_put, array.size_eq]⟩

/-- A load from the array. -/
def slice (array : Bytes size) (off len : Nat) : List Byte := Buffer.slice array.bytes off len

/-- The array with the given bytes, or zeros if their number is wrong. -/
def ofList (bytes : List Byte) : Bytes size :=
  if h : bytes.length = size then ⟨bytes, h⟩ else zero

theorem ofList_of_length {bytes : List Byte} (h : bytes.length = size) :
    ofList bytes = ⟨bytes, h⟩ := dif_pos h

instance : Inhabited (Bytes size) := ⟨zero⟩

variable (array : Bytes size)

@[simp] theorem ofList_bytes : ofList array.bytes = array := ofList_of_length array.size_eq

theorem bytes_put (off : Nat) (data : List Byte) :
    (array.put off data).bytes = Buffer.put array.bytes off data := rfl

/-- What was written is read back, -/
theorem slice_put_same {off : Nat} {data : List Byte} {len : Nat}
    (h : off + data.length ≤ size) (hl : len = data.length) :
    (array.put off data).slice off len = data := by
  rw [slice, bytes_put]
  exact Buffer.slice_put_same (by rw [array.size_eq]; exact h) hl

/-- and nothing before it -/
theorem slice_put_before {off : Nat} {data : List Byte} {off' len : Nat}
    (h : off' + len ≤ off) : (array.put off data).slice off' len = array.slice off' len := by
  rw [slice, bytes_put, Buffer.slice_put_before h, slice]

/-- or behind it has changed. -/
theorem slice_put_after {off : Nat} {data : List Byte} {off' len : Nat}
    (h : off + data.length ≤ off') :
    (array.put off data).slice off' len = array.slice off' len := by
  rw [slice, bytes_put, Buffer.slice_put_after h, slice]

/-! ## Stored integers -/

theorem slice_putLe_same {off n v : Nat} (h : off + n ≤ size) :
    (array.put off (leBytes n v)).slice off n = leBytes n v :=
  array.slice_put_same (by rw [length_leBytes]; exact h) (length_leBytes n v).symm

theorem slice_putLe_before {off n v off' len : Nat} (h : off' + len ≤ off) :
    (array.put off (leBytes n v)).slice off' len = array.slice off' len :=
  array.slice_put_before h

theorem slice_putLe_after {off n v off' len : Nat} (h : off + n ≤ off') :
    (array.put off (leBytes n v)).slice off' len = array.slice off' len :=
  array.slice_put_after (by rw [length_leBytes]; exact h)

/-! ## Whole arrays -/

theorem slice_putBytes_same {off n : Nat} (data : Bytes n) (h : off + n ≤ size) :
    (array.put off data.bytes).slice off n = data.bytes :=
  array.slice_put_same (by rw [data.size_eq]; exact h) data.size_eq.symm

theorem length_slice {off len : Nat} (h : off + len ≤ size) :
    (array.slice off len).length = len :=
  Buffer.length_slice (by rw [array.size_eq]; exact h)

theorem slice_zero {off len : Nat} (h : off + len ≤ size) :
    (zero : Bytes size).slice off len = List.replicate len 0 :=
  slice_replicate size off len 0 h

theorem take_eq_slice (len : Nat) : array.bytes.take len = array.slice 0 len := by
  simp [slice, Buffer.slice]

/-- A 32-bit field. -/
theorem readU32Le_eq {off : Nat} {v : UInt32} (h : off + 4 ≤ size)
    (hv : array.slice off 4 = leBytes 4 v.toNat) : readU32Le array.bytes off = .ok v := by
  rw [readU32Le_ok (by rw [array.size_eq]; exact h), ← slice, hv, ofNat_leValue_leBytes_32]

/-- A 64-bit field. -/
theorem readU64Le_eq {off : Nat} {v : UInt64} (h : off + 8 ≤ size)
    (hv : array.slice off 8 = leBytes 8 v.toNat) : readU64Le array.bytes off = .ok v := by
  rw [readU64Le_ok (by rw [array.size_eq]; exact h), ← slice, hv, ofNat_leValue_leBytes_64]

/-! ## Reading an array back together -/

variable {array} {other : Bytes size}

/-- A number that was read determines its bytes. -/
theorem slice_of_readU32Le {off : Nat} {v : UInt32} (h : off + 4 ≤ size)
    (hread : readU32Le array.bytes off = .ok v) : array.slice off 4 = leBytes 4 v.toNat := by
  have hlen : (array.slice off 4).length = 4 := array.length_slice h
  have hlt := leValue_lt (array.slice off 4)
  have heq := leBytes_leValue (array.slice off 4)
  rw [hlen] at hlt heq
  rw [readU32Le_ok (by rw [array.size_eq]; exact h)] at hread
  cases hread
  rw [UInt32.toNat_ofNat', ← slice, Nat.mod_eq_of_lt (hlt.trans_le (by decide)), heq]

theorem slice_of_readU64Le {off : Nat} {v : UInt64} (h : off + 8 ≤ size)
    (hread : readU64Le array.bytes off = .ok v) : array.slice off 8 = leBytes 8 v.toNat := by
  have hlen : (array.slice off 8).length = 8 := array.length_slice h
  have hlt := leValue_lt (array.slice off 8)
  have heq := leBytes_leValue (array.slice off 8)
  rw [hlen] at hlt heq
  rw [readU64Le_ok (by rw [array.size_eq]; exact h)] at hread
  cases hread
  rw [UInt64.toNat_ofNat', ← slice, Nat.mod_eq_of_lt (hlt.trans_le (by decide)), heq]

/-- Two stretches that agree, one behind the other, agree together. -/
theorem slice_congr_add {off m n : Nat} (h : array.slice off m = other.slice off m)
    (h' : array.slice (off + m) n = other.slice (off + m) n) :
    array.slice off (m + n) = other.slice off (m + n) := by
  have hsplit (bytes : Bytes size) :
      bytes.slice off (m + n) = bytes.slice off m ++ bytes.slice (off + m) n := by
    rw [slice, slice, slice, Buffer.slice, Buffer.slice, Buffer.slice, List.take_add,
      List.drop_drop]
  rw [hsplit, hsplit, h, h']

theorem eq_of_slice (h : array.slice 0 size = other.slice 0 size) : array = other := by
  rw [← take_eq_slice, ← take_eq_slice, List.take_of_length_le array.size_eq.le,
    List.take_of_length_le other.size_eq.le] at h
  exact Bytes.ext h

end Bytes

end DanDB.Core
