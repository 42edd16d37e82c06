import DanDB.Core.Memcmp
import DanDB.Record.Value

/-!
# Keys

The keys of a tree are compared byte by byte.  A signed integer is stored
big-endian with its sign bit flipped and a string is padded with zeros, so the
order of the keys is the order of the values.
-/

namespace DanDB.Record

open Buffer DanDB.Core

/-- `Row::value` -/
def Row.value (row : Row) (ordinal : UInt64) : Value :=
  row.values.getD ordinal.toNat (.null .int8)

namespace KeyCodec

def encode (value : Value) : Result (List Byte) := do
  failIf (value.isNull = true)
    (.InvalidArgument "Cannot encode key: null keys are not supported")
  match value.type, value.payload with
  | .int8, .integer integer => return [integer.toInt8.toUInt8 ^^^ 0x80]
  | .int16, .integer integer =>
    writeU16Be (List.replicate 2 0) 0 (integer.toInt16.toUInt16 ^^^ 0x8000)
  | .int32, .integer integer =>
    writeU32Be (List.replicate 4 0) 0 (integer.toInt32.toUInt32 ^^^ 0x80000000)
  | .int64, .integer integer =>
    writeU64Be (List.replicate 8 0) 0 (integer.toUInt64 ^^^ 0x8000000000000000)
  | .string capacity, .string bytes => do
    failIf (0 ∈ bytes)
      (.InvalidArgument "Cannot encode key: string value cannot contain a null character")
    return put (List.replicate capacity.val.toNat 0) 0 bytes
  | .boolean, .boolean boolean => return [if boolean then 1 else 0]
  | .float64, _ => .error (.InvalidArgument "Cannot encode key: DOUBLE keys are not supported")
  | _, _ => .error (.InternalError "Cannot encode key: unknown logical type")

/-! ## Integers -/

section Integers

theorem xor_two_pow {k n : Nat} (h : n < 2 ^ k) : n ^^^ 2 ^ k = 2 ^ k + n := by
  refine Nat.eq_of_testBit_eq fun i => ?_
  rw [Nat.testBit_xor, Nat.testBit_two_pow]
  rcases Nat.lt_trichotomy i k with hlt | rfl | hgt
  · rw [Nat.testBit_two_pow_add_gt hlt, decide_eq_false (by omega), Bool.xor_false]
  · rw [Nat.testBit_two_pow_add_eq, decide_eq_true rfl, Bool.xor_true]
  · have hle : 2 ^ (k + 1) ≤ 2 ^ i := Nat.pow_le_pow_right (by omega) hgt
    rw [Nat.pow_succ] at hle
    rw [Nat.testBit_lt_two_pow (by omega), Nat.testBit_lt_two_pow (by omega),
      decide_eq_false (by omega), Bool.xor_false]

/-- Flipping the sign bit of a two's-complement number adds half the range. -/
theorem flip_sign {k n : Nat} {x : Int} (hn : (n : Int) = x % 2 ^ (k + 1)) (hlo : -2 ^ k ≤ x)
    (hhi : x < 2 ^ k) : ((n ^^^ 2 ^ k : Nat) : Int) = x + 2 ^ k := by
  have hpos : (0 : Int) < 2 ^ k := by positivity
  have hcast : ((2 ^ k : Nat) : Int) = 2 ^ k := by push_cast; rfl
  rw [Int.pow_succ] at hn
  by_cases hx : 0 ≤ x
  · rw [Int.emod_eq_of_lt hx (by omega)] at hn
    rw [xor_two_pow (by omega), Nat.cast_add, hcast, hn, Int.add_comm]
  · have hmod : x % (2 ^ k * 2) = x + 2 ^ k * 2 := by
      rw [← Int.add_mul_emod_self_left x (2 ^ k * 2) 1, Int.mul_one]
      exact Int.emod_eq_of_lt (by omega) (by omega)
    obtain ⟨m, rfl⟩ : ∃ m, n = 2 ^ k + m := Nat.exists_eq_add_of_le (by omega)
    rw [← xor_two_pow (by omega), Nat.xor_assoc, Nat.xor_self, Nat.xor_zero]
    push_cast at hn
    omega

/-- The unsigned number with the bits of a truncated integer. -/
theorem toNat_of_bmod {k : Nat} {bits : BitVec k} {x : Int} (h : bits.toInt = x.bmod (2 ^ k)) :
    (bits.toNat : Int) = x % 2 ^ k := by
  have hmod := congrArg (· % ((2 ^ k : Nat) : Int)) (BitVec.toInt_eq_toNat_bmod bits)
  rw [h] at hmod
  simp only [Int.bmod_emod] at hmod
  have hlt : (bits.toNat : Int) < ((2 ^ k : Nat) : Int) := Int.ofNat_lt.mpr bits.isLt
  rw [Int.emod_eq_of_lt (Int.natCast_nonneg _) hlt] at hmod
  push_cast at hmod
  exact hmod.symm

theorem fitsInteger_iff {k : Nat} {integer : Int64} :
    fitsInteger (k + 1) integer = true ↔ -2 ^ k ≤ integer.toInt ∧ integer.toInt < 2 ^ k := by
  rw [fitsInteger, decide_eq_true_iff, Nat.add_sub_cancel]

end Integers

theorem writeBe_replicate {width value : Nat} {message : String} {key : List Byte}
    (h : writeBe width message (List.replicate width 0) 0 value = .ok key) (hpos : 0 < width) :
    key = beBytes width value := by
  rw [writeBe, if_neg (by rw [List.length_replicate]; omega)] at h
  have hput := Except.ok.inj h
  rw [put_replicate (by rw [length_beBytes]), length_beBytes, Nat.sub_self,
    List.replicate_zero, List.append_nil] at hput
  exact hput.symm

/-- The key of an integer is one more digit sequence of the width of the type, and
the numbers are in the order of the integers. -/
theorem encode_integer {value : Value} {integer : Int64} {key : List Byte}
    (hpayload : value.payload = .integer integer) (h : encode value = .ok key) :
    key.length = value.type.fixedSize.toNat ∧
      (beValue key : Int) = integer.toInt + 2 ^ (8 * value.type.fixedSize.toNat - 1) := by
  obtain ⟨type, payload, hfits⟩ := value
  obtain rfl : payload = .integer integer := hpayload
  cases type with
  | int8 =>
    obtain ⟨hlo, hhi⟩ := fitsInteger_iff.mp hfits
    obtain rfl : [integer.toInt8.toUInt8 ^^^ 0x80] = key := Except.ok.inj h
    have hflip := flip_sign (toNat_of_bmod (Int64.toInt_toInt8 integer)) hlo hhi
    refine ⟨rfl, Eq.trans ?_ hflip⟩
    rw [beValue, beValue, List.length_nil, Nat.pow_zero, Nat.mul_one, Nat.add_zero]
    rfl
  | int16 =>
    obtain ⟨hlo, hhi⟩ := fitsInteger_iff.mp hfits
    have hwrite : writeU16Be (List.replicate 2 0) 0 (integer.toInt16.toUInt16 ^^^ 0x8000) =
        .ok key := h
    obtain rfl := writeBe_replicate hwrite (by decide)
    have hflip := flip_sign (toNat_of_bmod (Int64.toInt_toInt16 integer)) hlo hhi
    refine ⟨length_beBytes .., Eq.trans ?_ hflip⟩
    rw [beValue_beBytes (UInt16.toNat_lt _)]
    rfl
  | int32 =>
    obtain ⟨hlo, hhi⟩ := fitsInteger_iff.mp hfits
    have hwrite : writeU32Be (List.replicate 4 0) 0 (integer.toInt32.toUInt32 ^^^ 0x80000000) =
        .ok key := h
    obtain rfl := writeBe_replicate hwrite (by decide)
    have hflip := flip_sign (toNat_of_bmod (Int64.toInt_toInt32 integer)) hlo hhi
    refine ⟨length_beBytes .., Eq.trans ?_ hflip⟩
    rw [beValue_beBytes (UInt32.toNat_lt _)]
    rfl
  | int64 =>
    have hwrite : writeU64Be (List.replicate 8 0) 0 (integer.toUInt64 ^^^ 0x8000000000000000) =
        .ok key := h
    obtain rfl := writeBe_replicate hwrite (by decide)
    have hbits : integer.toBitVec.toInt = integer.toInt.bmod (2 ^ 64) :=
      (BitVec.toInt_bmod_cancel _).symm
    have hflip := flip_sign (toNat_of_bmod hbits) integer.le_toInt integer.toInt_lt
    refine ⟨length_beBytes .., Eq.trans ?_ hflip⟩
    rw [beValue_beBytes (UInt64.toNat_lt _)]
    rfl
  | _ => exact hfits.elim

/-! ## Strings and booleans -/

theorem encode_string {value : Value} {bytes key : List Byte}
    (hpayload : value.payload = .string bytes) (h : encode value = .ok key) :
    ∃ size, value.type.fixedSize.toNat = size ∧ bytes.length ≤ size ∧ 0 ∉ bytes ∧
      key = bytes ++ List.replicate (size - bytes.length) 0 := by
  obtain ⟨type, payload, hfits⟩ := value
  obtain rfl : payload = .string bytes := hpayload
  cases type with
  | string capacity =>
    have hlength : bytes.length ≤ capacity.val.toNat := hfits
    obtain ⟨_, -, hrest⟩ := bind_eq_ok.mp h
    obtain ⟨_, hnull, hkey⟩ := bind_eq_ok.mp hrest
    have hput := Except.ok.inj hkey
    rw [put_replicate hlength] at hput
    exact ⟨_, rfl, hlength, failIf_eq_ok.mp hnull, hput.symm⟩
  | _ => exact hfits.elim

theorem encode_boolean {value : Value} {boolean : Bool} {key : List Byte}
    (hpayload : value.payload = .boolean boolean) (h : encode value = .ok key) :
    value.type = .boolean ∧ key = [if boolean then 1 else 0] := by
  obtain ⟨type, payload, hfits⟩ := value
  obtain rfl : payload = .boolean boolean := hpayload
  cases type with
  | boolean => exact ⟨rfl, (Except.ok.inj h).symm⟩
  | _ => exact hfits.elim

/-- Only values of the keyable types that are not null have keys. -/
theorem encode_payload {value : Value} {key : List Byte} (h : encode value = .ok key) :
    (∃ integer, value.payload = .integer integer) ∨ (∃ bytes, value.payload = .string bytes) ∨
      ∃ boolean, value.payload = .boolean boolean := by
  obtain ⟨type, payload, hfits⟩ := value
  cases payload with
  | null => cases h
  | integer integer => exact .inl ⟨integer, rfl⟩
  | float64 bits =>
    cases type with
    | float64 => cases h
    | _ => exact hfits.elim
  | string bytes => exact .inr (.inl ⟨bytes, rfl⟩)
  | boolean boolean => exact .inr (.inr ⟨boolean, rfl⟩)

theorem length_encode {value : Value} {key : List Byte} (h : encode value = .ok key) :
    key.length = value.type.fixedSize.toNat := by
  obtain ⟨integer, hpayload⟩ | ⟨bytes, hpayload⟩ | ⟨boolean, hpayload⟩ := encode_payload h
  · exact (encode_integer hpayload h).1
  · obtain ⟨size, hsize, hlength, -, rfl⟩ := encode_string hpayload h
    rw [List.length_append, List.length_replicate, hsize]
    omega
  · obtain ⟨htype, rfl⟩ := encode_boolean hpayload h
    rw [htype]
    rfl

end KeyCodec

/-! ## The keys of a row -/

namespace RowHelpers

def indexedKeyBytes (schema : Schema) (row : Row) (ordinal : UInt64) : Result (List Byte) := do
  validateRow schema row
  failIf (ordinal.toNat ≥ schema.columns.length)
    (.InvalidArgument "Cannot encode indexed key bytes: ordinal is out of bounds")
  KeyCodec.encode (row.value ordinal)

def primaryKeyBytes (schema : Schema) (row : Row) : Result (List Byte) :=
  indexedKeyBytes schema row schema.primaryKeyOrdinal

/-- A key of a row is that of a value of the column. -/
theorem indexedKeyBytes_eq_ok {schema : Schema} {row : Row} {ordinal : UInt64} {key : List Byte}
    (h : indexedKeyBytes schema row ordinal = .ok key) :
    ∃ column, schema.columns[ordinal.toNat]? = some column ∧
      (row.value ordinal).type = column.logicalType ∧ KeyCodec.encode (row.value ordinal) = .ok key := by
  obtain ⟨_, hvalid, hrest⟩ := bind_eq_ok.mp h
  obtain ⟨_, hbound, hkey⟩ := bind_eq_ok.mp hrest
  have hlt : ordinal.toNat < schema.columns.length := Nat.lt_of_not_le (failIf_eq_ok.mp hbound)
  have hvalues := forall₂_of_validateRow hvalid
  have hlt' : ordinal.toNat < row.values.length := hvalues.length_eq ▸ hlt
  have hvalue : row.value ordinal = row.values[ordinal.toNat] := by
    rw [Row.value, List.getD_eq_getElem?_getD, List.getElem?_eq_getElem hlt', Option.getD_some]
  refine ⟨_, List.getElem?_eq_getElem hlt, ?_, hkey⟩
  rw [hvalue]
  exact type_of_validateValue (hvalues.get hlt hlt')

end RowHelpers

end DanDB.Record
