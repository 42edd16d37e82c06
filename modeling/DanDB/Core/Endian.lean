import DanDB.Lib.Buffer
import DanDB.Core.Status

/-!
# Bytes and integers

Integers are stored little-endian (`write_u16_le` and its siblings) or, in
index keys, big-endian.  `leBytes` is the byte sequence the write loops
produce and `leValue` the number the read loops accumulate.  They are inverse
to each other on the width of the integer (`leValue_leBytes`,
`leBytes_leValue`), which is all that later modules use.
-/

namespace DanDB.Core

open Buffer

abbrev Byte := UInt8

/-- The `n` low bytes of `v`, least significant first: byte `i` is
`(v >> 8*i) & 0xFF`. -/
def leBytes : Nat → Nat → List Byte
  | 0, _ => []
  | n + 1, v => UInt8.ofNat v :: leBytes n (v / 256)

/-- The number with the given bytes, least significant first. -/
def leValue : List Byte → Nat
  | [] => 0
  | b :: bs => b.toNat + 256 * leValue bs

@[simp] theorem length_leBytes (n v : Nat) : (leBytes n v).length = n := by
  induction n generalizing v with
  | zero => rfl
  | succ n ih => simp [leBytes, ih]

theorem leValue_lt (bs : List Byte) : leValue bs < 256 ^ bs.length := by
  induction bs with
  | nil => simp [leValue]
  | cons b bs ih =>
    have hb := b.toNat_lt
    simp only [leValue, List.length_cons, Nat.pow_succ]
    omega

/-- A number that is too large for its bytes loses the upper ones. -/
theorem leValue_leBytes (n v : Nat) : leValue (leBytes n v) = v % 256 ^ n := by
  induction n generalizing v with
  | zero => simp [leBytes, leValue, Nat.mod_one]
  | succ n ih =>
    simp only [leBytes, leValue, ih, UInt8.toNat_ofNat']
    rw [show 256 ^ (n + 1) = 256 * 256 ^ n from Nat.pow_succ', Nat.mod_mul]

theorem leValue_leBytes_of_lt {n v : Nat} (h : v < 256 ^ n) : leValue (leBytes n v) = v := by
  rw [leValue_leBytes, Nat.mod_eq_of_lt h]

/-- Bytes are determined by their number. -/
theorem leBytes_leValue (bs : List Byte) : leBytes bs.length (leValue bs) = bs := by
  induction bs with
  | nil => rfl
  | cons b bs ih =>
    have hb := b.toNat_lt
    have hdiv : (b.toNat + 256 * leValue bs) / 256 = leValue bs := by omega
    have hmod : UInt8.ofNat (b.toNat + 256 * leValue bs) = b := by
      apply UInt8.toNat.inj
      rw [UInt8.toNat_ofNat']
      omega
    simp only [List.length_cons, leBytes, leValue, hdiv, hmod, ih]

/-! ## Writes -/

/-- The write loop of one width, behind its bounds check. -/
def writeLe (width : Nat) (message : String) (buffer : List Byte) (offset value : Nat) :
    Result (List Byte) :=
  if offset ≥ buffer.length ∨ width > buffer.length - offset then
    .error (.InvalidArgument message)
  else .ok (put buffer offset (leBytes width value))

def writeU16Le (buffer : List Byte) (offset : Nat) (value : UInt16) : Result (List Byte) :=
  writeLe 2 "Cannot write 16-bit integer to buffer: write bounds failure" buffer offset value.toNat

def writeU32Le (buffer : List Byte) (offset : Nat) (value : UInt32) : Result (List Byte) :=
  writeLe 4 "Cannot write 32-bit integer to buffer: write bounds failure" buffer offset value.toNat

def writeU64Le (buffer : List Byte) (offset : Nat) (value : UInt64) : Result (List Byte) :=
  writeLe 8 "Cannot write 64-bit integer to buffer: write bounds failure" buffer offset value.toNat

/-- The `n` low bytes of `v`, most significant first. -/
def beBytes (n v : Nat) : List Byte := (leBytes n v).reverse

/-- The write loop of one width in the other order. -/
def writeBe (width : Nat) (message : String) (buffer : List Byte) (offset value : Nat) :
    Result (List Byte) :=
  if offset ≥ buffer.length ∨ width > buffer.length - offset then
    .error (.InvalidArgument message)
  else .ok (put buffer offset (beBytes width value))

def writeU16Be (buffer : List Byte) (offset : Nat) (value : UInt16) : Result (List Byte) :=
  writeBe 2 "Cannot write 16-bit integer to buffer: write bounds failure" buffer offset value.toNat

def writeU32Be (buffer : List Byte) (offset : Nat) (value : UInt32) : Result (List Byte) :=
  writeBe 4 "Cannot write 32-bit integer to buffer: write bounds failure" buffer offset value.toNat

def writeU64Be (buffer : List Byte) (offset : Nat) (value : UInt64) : Result (List Byte) :=
  writeBe 8 "Cannot write 64-bit integer to buffer: write bounds failure" buffer offset value.toNat

/-- A write inside the buffer succeeds, -/
theorem writeLe_ok {width : Nat} {message : String} {buffer : List Byte} {offset value : Nat}
    (hw : 0 < width) (h : offset + width ≤ buffer.length) :
    writeLe width message buffer offset value =
      .ok (put buffer offset (leBytes width value)) := by
  unfold writeLe
  rw [if_neg (by omega)]

/-! ## Reads -/

/-- The read loop of one width, behind its bounds check. -/
def readLe (width : Nat) (message : String) (buffer : List Byte) (offset : Nat) : Result Nat :=
  if offset ≥ buffer.length ∨ width > buffer.length - offset then
    .error (.InvalidArgument message)
  else .ok (leValue (slice buffer offset width))

def readU16Le (buffer : List Byte) (offset : Nat) : Result UInt16 :=
  (readLe 2 "Cannot read 16-bit integer to buffer: read bounds failure" buffer offset).map
    UInt16.ofNat

def readU32Le (buffer : List Byte) (offset : Nat) : Result UInt32 :=
  (readLe 4 "Cannot read 32-bit integer to buffer: read bounds failure" buffer offset).map
    UInt32.ofNat

def readU64Le (buffer : List Byte) (offset : Nat) : Result UInt64 :=
  (readLe 8 "Cannot read 64-bit integer to buffer: read bounds failure" buffer offset).map
    UInt64.ofNat

/-- and so does a read. -/
theorem readLe_ok {width : Nat} {message : String} {buffer : List Byte} {offset : Nat}
    (hw : 0 < width) (h : offset + width ≤ buffer.length) :
    readLe width message buffer offset = .ok (leValue (slice buffer offset width)) := by
  unfold readLe
  rw [if_neg (by omega)]

theorem readU16Le_ok {buffer : List Byte} {offset : Nat} (h : offset + 2 ≤ buffer.length) :
    readU16Le buffer offset = .ok (UInt16.ofNat (leValue (slice buffer offset 2))) := by
  rw [readU16Le, readLe_ok (by omega) h]
  rfl

theorem readU32Le_ok {buffer : List Byte} {offset : Nat} (h : offset + 4 ≤ buffer.length) :
    readU32Le buffer offset = .ok (UInt32.ofNat (leValue (slice buffer offset 4))) := by
  rw [readU32Le, readLe_ok (by omega) h]
  rfl

theorem readU64Le_ok {buffer : List Byte} {offset : Nat} (h : offset + 8 ≤ buffer.length) :
    readU64Le buffer offset = .ok (UInt64.ofNat (leValue (slice buffer offset 8))) := by
  rw [readU64Le, readLe_ok (by omega) h]
  rfl

/-! ## Reading back what was written -/

@[simp] theorem ofNat_leValue_leBytes_32 (v : UInt32) :
    UInt32.ofNat (leValue (leBytes 4 v.toNat)) = v := by
  rw [leValue_leBytes_of_lt v.toNat_lt, UInt32.ofNat_toNat]

@[simp] theorem ofNat_leValue_leBytes_64 (v : UInt64) :
    UInt64.ofNat (leValue (leBytes 8 v.toNat)) = v := by
  rw [leValue_leBytes_of_lt v.toNat_lt, UInt64.ofNat_toNat]

/-- Whether every byte of a span is zero. -/
def bytesAreZero (bytes : List Byte) : Bool := bytes.all (· == 0)

theorem bytesAreZero_iff (bytes : List Byte) :
    bytesAreZero bytes = true ↔ bytes = List.replicate bytes.length 0 := by
  rw [bytesAreZero, List.all_eq_true, List.eq_replicate_iff]
  simp

/-! ## Checksums -/

/-- One step of the FNV-1a hash. -/
def checksumStep (hash : UInt64) (byte : Byte) : UInt64 :=
  (hash ^^^ byte.toUInt64) * 0x100000001b3

/-- The FNV-1a hash of a span. -/
def checksum (bytes : List Byte) : UInt64 :=
  bytes.foldl checksumStep 0xcbf29ce484222325

end DanDB.Core
