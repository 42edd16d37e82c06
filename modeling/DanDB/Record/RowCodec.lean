import DanDB.Record.Value

/-!
# Stored rows

`encode` fills a buffer of `row_size` bytes.  Some of its stores are checked and
some are not; one that is not and falls outside the buffer has no defined
effect, which is the failure `outOfBounds`.  There is no buffer of more than
`maxVectorSize` bytes.
-/

namespace DanDB.Record

open Buffer DanDB.Core

inductive RowCodec.Failure where
  | status (status : Status)
  /-- A store outside the buffer. -/
  | outOfBounds
  /-- A look at a value as something it is not. -/
  | badVariantAccess
  /-- A vector that is longer than `max_size`. -/
  | lengthError
deriving DecidableEq

namespace RowCodec

/-- The `max_size` of a `std::vector<std::byte>`. -/
def maxVectorSize : Nat := 2 ^ 63 - 1

/-- `std::vector<std::byte> bytes(size);` -/
def zeroBytes (size : UInt64) : Except Failure (List Byte) :=
  if size.toNat > maxVectorSize then .error .lengthError
  else .ok (List.replicate size.toNat 0)

/-- A store that is not checked.  One of no bytes does nothing. -/
def store (bytes : List Byte) (offset : Nat) (data : List Byte) : Except Failure (List Byte) :=
  if data ≠ [] ∧ bytes.length < offset + data.length then .error .outOfBounds
  else .ok (put bytes offset data)

/-- A store that is checked. -/
def checked (stored : Result (List Byte)) : Except Failure (List Byte) :=
  stored.mapError .status

/-- The bit of a column in its byte of the null bitmap. -/
def nullBit (i : Nat) : Byte := 1 <<< UInt8.ofNat (i % 8)

/-- One column of the first loop of `encode`. -/
def markNull (i : Nat) (bytes : List Byte) (value : Value) : Except Failure (List Byte) :=
  if value.isNull then store bytes (i / 8) [bytes.getD (i / 8) 0 ||| nullBit i] else .ok bytes

/-- The first loop of `encode`, from column `i` on. -/
def markNulls (i : Nat) (bytes : List Byte) : List Value → Except Failure (List Byte)
  | [] => .ok bytes
  | value :: values => do
    let bytes ← markNull i bytes value
    markNulls (i + 1) bytes values

/-- The stores of the second loop of `encode`, by the type of the column. -/
def storePayload (bytes : List Byte) (offset : Nat) :
    LogicalType → Payload → Except Failure (List Byte)
  | _, .null => .ok bytes
  | .int8, .integer value => store bytes offset [value.toInt8.toUInt8]
  | .int16, .integer value => checked (writeU16Le bytes offset value.toInt16.toUInt16)
  | .int32, .integer value => checked (writeU32Le bytes offset value.toInt32.toUInt32)
  | .int64, .integer value => checked (writeU64Le bytes offset value.toUInt64)
  | .float64, .float64 bits => checked (writeU64Le bytes offset bits)
  | .string _, .string value => store bytes offset value
  | .boolean, .boolean value => store bytes offset [if value then 1 else 0]
  | _, _ => .error .badVariantAccess

/-- One column of the second loop of `encode`. -/
def encodeValue (bytes : List Byte) (column : Column) (value : Value) :
    Except Failure (List Byte) :=
  storePayload bytes column.fixedOffset.toNat column.logicalType value.payload

/-- The second loop of `encode`. -/
def encodeValues (bytes : List Byte) : List Column → List Value → Except Failure (List Byte)
  | column :: columns, value :: values => do
    let bytes ← encodeValue bytes column value
    encodeValues bytes columns values
  | _, _ => .ok bytes

def encode (schema : Schema) (row : Row) : Except Failure (List Byte) := do
  (validateRow schema row).mapError .status
  let bytes ← zeroBytes schema.rowSize
  let bytes ← markNulls 0 bytes row.values
  encodeValues bytes schema.columns row.values

/-! ## Reading -/

/-- A look at a byte that is not checked. -/
def fetch (bytes : List Byte) (i : Nat) : Except Failure Byte :=
  match bytes[i]? with
  | some byte => .ok byte
  | none => .error .outOfBounds

def subspan (bytes : List Byte) (offset count : Nat) : Except Failure (List Byte) :=
  if offset + count ≤ bytes.length then .ok (slice bytes offset count) else .error .outOfBounds

/-- `if(condition) return status;` -/
def rejectIf (condition : Prop) [Decidable condition] (status : Status) : Except Failure Unit :=
  if condition then .error (.status status) else .ok ()

/-- Whether the null bitmap has the bit of a column. -/
def isNullAt (bytes : List Byte) (i : Nat) : Except Failure Bool := do
  let nullBitmapByte ← fetch bytes (i / 8)
  return nullBitmapByte &&& nullBit i ≠ 0

/-- One column of the first loop of `decode`. -/
def checkNull (bytes : List Byte) (i : Nat) (column : Column) : Except Failure Unit := do
  if ← isNullAt bytes i then do
    rejectIf (column.nullable = false)
      (.InvalidArgument "Cannot decode row: row value is null but column is not nullable")
    let payload ← subspan bytes column.fixedOffset.toNat column.logicalType.fixedSize.toNat
    rejectIf (bytesAreZero payload = false)
      (.InvalidArgument "Cannot decode row: null value payload bytes must be zero")
  else return ()

/-- The first loop of `decode`, from column `i` on. -/
def checkNulls (bytes : List Byte) (i : Nat) : List Column → Except Failure Unit
  | [] => .ok ()
  | column :: columns => do
    checkNull bytes i column
    checkNulls bytes (i + 1) columns

/-- The bits of the null bitmap that belong to no column. -/
def checkUnusedBits (schema : Schema) (bytes : List Byte) : Except Failure Unit := do
  let usedBits := schema.columns.length % 8
  if usedBits ≠ 0 then do
    let last ← fetch bytes (schema.nullBitmapSize.toNat - 1)
    rejectIf (last &&& 0xFF <<< UInt8.ofNat usedBits ≠ 0)
      (.InvalidArgument "Cannot decode row: unused null bitmap bits must be zero")
  else return ()

/-- The loop over the characters of a string, of which `remaining` may come. -/
def readString (bytes : List Byte) (offset : Nat) : (remaining : Nat) → Except Failure (List Byte)
  | 0 => .ok []
  | remaining + 1 => do
    let current ← fetch bytes offset
    if current = 0 then return []
    else do
      let rest ← readString bytes (offset + 1) remaining
      return current :: rest

def decodeString (bytes : List Byte) (offset : Nat) (capacity : UInt64) : Except Failure Value := do
  let string ← readString bytes offset capacity.toNat
  if string.length < capacity.toNat then do
    let padding ← subspan bytes (offset + string.length) (capacity.toNat - string.length)
    rejectIf (bytesAreZero padding = false)
      (.InvalidArgument "Cannot decode row: string padding bytes must be zero")
    (Value.string string capacity).mapError .status
  else (Value.string string capacity).mapError .status

/-- The value of a column that is not null. -/
def decodePayload (bytes : List Byte) (offset : Nat) : LogicalType → Except Failure Value
  | .int8 => do
    let rawValue ← fetch bytes offset
    (Value.int8 rawValue.toInt8.toInt64).mapError .status
  | .int16 => do
    let rawValue ← (readU16Le bytes offset).mapError .status
    (Value.int16 rawValue.toInt16.toInt64).mapError .status
  | .int32 => do
    let rawValue ← (readU32Le bytes offset).mapError .status
    (Value.int32 rawValue.toInt32.toInt64).mapError .status
  | .int64 => do
    let rawValue ← (readU64Le bytes offset).mapError .status
    return Value.int64 rawValue.toInt64
  | .float64 => do
    let rawValue ← (readU64Le bytes offset).mapError .status
    return Value.float64 rawValue
  | .string capacity => decodeString bytes offset capacity
  | .boolean => do
    let value ← fetch bytes offset
    rejectIf (value > 1) (.InvalidArgument "Cannot decode row: boolean value must be 0x00 or 0x01")
    return Value.boolean (value = 1)

/-- One column of the second loop of `decode`. -/
def decodeValue (bytes : List Byte) (i : Nat) (column : Column) : Except Failure Value := do
  if ← isNullAt bytes i then return Value.null column.logicalType
  else decodePayload bytes column.fixedOffset.toNat column.logicalType

/-- The second loop of `decode`, from column `i` on. -/
def decodeValues (bytes : List Byte) (i : Nat) : List Column → Except Failure (List Value)
  | [] => .ok []
  | column :: columns => do
    let value ← decodeValue bytes i column
    let values ← decodeValues bytes (i + 1) columns
    return value :: values

def decode (schema : Schema) (bytes : List Byte) : Except Failure Row := do
  rejectIf (schema.rowSize.toNat ≠ bytes.length)
    (.InvalidArgument "Cannot decode row: row byte count does not match schema row size")
  checkNulls bytes 0 schema.columns
  checkUnusedBits schema bytes
  let values ← decodeValues bytes 0 schema.columns
  return ⟨values⟩

/-! ## Stores inside the buffer -/

section Bounds

variable {bytes : List Byte} {offset size : Nat}

theorem store_ok {data : List Byte} (hlength : bytes.length = size)
    (h : data = [] ∨ offset + data.length ≤ size) :
    ∃ bytes', store bytes offset data = .ok bytes' ∧ bytes'.length = size := by
  refine ⟨put bytes offset data, if_neg ?_, (length_put ..).trans hlength⟩
  rintro ⟨hne, hlt⟩
  cases h with
  | inl hnil => exact hne hnil
  | inr hle => omega

theorem checked_ok {width value : Nat} {message : String} (hlength : bytes.length = size)
    (hwidth : 0 < width) (h : offset + width ≤ size) :
    ∃ bytes', checked (writeLe width message bytes offset value) = .ok bytes' ∧
      bytes'.length = size := by
  rw [writeLe_ok hwidth (by rwa [hlength])]
  exact ⟨_, rfl, (length_put ..).trans hlength⟩

theorem markNulls_ok {i : Nat} {values : List Value} (hlength : bytes.length = size)
    (h : (i + values.length + 7) / 8 ≤ size) :
    ∃ bytes', markNulls i bytes values = .ok bytes' ∧ bytes'.length = size := by
  induction values generalizing i bytes with
  | nil => exact ⟨bytes, rfl, hlength⟩
  | cons value values ih =>
    rw [List.length_cons] at h
    have hbound : i / 8 + 1 ≤ size := by omega
    obtain ⟨bytes', hmark, hlength'⟩ : ∃ bytes',
        markNull i bytes value = .ok bytes' ∧ bytes'.length = size := by
      rw [markNull]
      cases value.isNull with
      | true => exact store_ok hlength (.inr hbound)
      | false => exact ⟨bytes, rfl, hlength⟩
    obtain ⟨bytes'', hrest, hlength''⟩ := @ih bytes' (i + 1) hlength' (by omega)
    refine ⟨bytes'', ?_, hlength''⟩
    rw [markNulls, hmark]
    exact hrest

/-- A payload that fits a type is stored within the size of the type. -/
theorem storePayload_ok {type : LogicalType} {payload : Payload} (hlength : bytes.length = size)
    (hfits : payload.Fits type) (h : offset + type.fixedSize.toNat ≤ size) :
    ∃ bytes', storePayload bytes offset type payload = .ok bytes' ∧ bytes'.length = size := by
  cases payload with
  | null => exact ⟨bytes, by cases type <;> rfl, hlength⟩
  | integer value =>
    cases type with
    | int8 => exact store_ok hlength (.inr h)
    | int16 => exact checked_ok hlength (by decide) h
    | int32 => exact checked_ok hlength (by decide) h
    | int64 => exact checked_ok hlength (by decide) h
    | _ => exact hfits.elim
  | float64 bits =>
    cases type with
    | float64 => exact checked_ok hlength (by decide) h
    | _ => exact hfits.elim
  | string value =>
    cases type with
    | string capacity => exact store_ok hlength (.inr ((Nat.add_le_add_left hfits _).trans h))
    | _ => exact hfits.elim
  | boolean value =>
    cases type with
    | boolean => exact store_ok hlength (.inr h)
    | _ => exact hfits.elim

theorem encodeValues_ok {columns : List Column} {values : List Value}
    (hlength : bytes.length = size)
    (hvalid : List.Forall₂ (fun column value => validateValue column value = .ok ()) columns values)
    (h : ∀ column ∈ columns, column.fixedEnd ≤ size) :
    ∃ bytes', encodeValues bytes columns values = .ok bytes' ∧ bytes'.length = size := by
  induction hvalid generalizing bytes with
  | nil => exact ⟨bytes, rfl, hlength⟩
  | @cons column value columns values hvalue _ ih =>
    have hfits : value.payload.Fits column.logicalType := type_of_validateValue hvalue ▸ value.fits
    obtain ⟨bytes', hstore, hlength'⟩ :=
      storePayload_ok hlength hfits (h column (List.mem_cons_self ..))
    obtain ⟨bytes'', hrest, hlength''⟩ :=
      ih hlength' fun column hmem => h column (List.mem_cons_of_mem _ hmem)
    refine ⟨bytes'', ?_, hlength''⟩
    rw [encodeValues, encodeValue, hstore]
    exact hrest

theorem encode_eq {schema : Schema} {row : Row} (hvalid : validateRow schema row = .ok ())
    (hsize : schema.rowSize.toNat ≤ maxVectorSize) : encode schema row =
      (markNulls 0 (List.replicate schema.rowSize.toNat 0) row.values >>= fun bytes =>
        encodeValues bytes schema.columns row.values) := by
  rw [encode, hvalid, zeroBytes, if_neg (Nat.not_lt.mpr hsize)]
  rfl

/-- A row that is too long for a buffer is not encoded. -/
theorem encode_tooLong {schema : Schema} {row : Row} (hvalid : validateRow schema row = .ok ())
    (hsize : maxVectorSize < schema.rowSize.toNat) : encode schema row = .error .lengthError := by
  rw [encode, hvalid, zeroBytes, if_pos hsize]
  rfl

/-- A valid row of a schema whose columns lie behind the null bitmap and within
the row is encoded into exactly `row_size` bytes. -/
theorem encode_ok {schema : Schema} {row : Row} (hvalid : validateRow schema row = .ok ())
    (hsize : schema.rowSize.toNat ≤ maxVectorSize)
    (hbitmap : (schema.columns.length + 7) / 8 ≤ schema.rowSize.toNat)
    (hcolumns : ∀ column ∈ schema.columns, column.fixedEnd ≤ schema.rowSize.toNat) :
    ∃ bytes, encode schema row = .ok bytes ∧ bytes.length = schema.rowSize.toNat := by
  have hvalues := forall₂_of_validateRow hvalid
  have hcount : row.values.length = schema.columns.length := hvalues.length_eq.symm
  obtain ⟨marked, hmark, hlength⟩ := @markNulls_ok (List.replicate schema.rowSize.toNat 0)
    schema.rowSize.toNat 0 row.values List.length_replicate (by rwa [hcount, Nat.zero_add])
  obtain ⟨bytes, hencode, hlength'⟩ := encodeValues_ok hlength hvalues hcolumns
  refine ⟨bytes, ?_, hlength'⟩
  rw [encode_eq hvalid hsize, hmark]
  exact hencode

end Bounds

/-! ## Reads inside the buffer -/

/-- A failure is a status: every step is defined. -/
def Defined {α : Type} (r : Except Failure α) : Prop :=
  ∀ failure, r = .error failure → ∃ status, failure = .status status

section Defined

variable {α β : Type} {bytes : List Byte} {offset size i : Nat}

theorem defined_ok (a : α) : Defined (.ok a) := nofun

theorem defined_status (status : Status) : Defined (.error (.status status) : Except Failure α) :=
  fun _ h => ⟨status, (Except.error.inj h).symm⟩

theorem defined_mapError (r : Result α) : Defined (r.mapError .status) := by
  cases r with
  | error status => exact defined_status status
  | ok a => exact defined_ok a

theorem defined_rejectIf (condition : Prop) [Decidable condition] (status : Status) :
    Defined (rejectIf condition status) := by
  unfold rejectIf
  split
  · exact defined_status status
  · exact defined_ok ()

theorem Defined.bind {r : Except Failure α} {f : α → Except Failure β} (h : Defined r)
    (hf : ∀ a, r = .ok a → Defined (f a)) : Defined (r >>= f) := by
  cases r with
  | error failure =>
    obtain ⟨status, rfl⟩ := h failure rfl
    exact defined_status status
  | ok a => exact hf a rfl

theorem defined_fetch (h : i < bytes.length) : Defined (fetch bytes i) := by
  rw [fetch, List.getElem?_eq_getElem h]
  exact defined_ok _

theorem defined_subspan {count : Nat} (h : offset + count ≤ bytes.length) :
    Defined (subspan bytes offset count) := by
  rw [subspan, if_pos h]
  exact defined_ok _

theorem defined_isNullAt (h : i / 8 < bytes.length) : Defined (isNullAt bytes i) :=
  (defined_fetch h).bind fun _ _ => defined_ok _

theorem defined_checkNulls {columns : List Column} (hbitmap : (i + columns.length + 7) / 8 ≤ bytes.length)
    (h : ∀ column ∈ columns, column.fixedEnd ≤ bytes.length) :
    Defined (checkNulls bytes i columns) := by
  induction columns generalizing i with
  | nil => exact defined_ok ()
  | cons column columns ih =>
    rw [List.length_cons] at hbitmap
    have hcheck : Defined (checkNull bytes i column) := by
      refine (defined_isNullAt (by omega)).bind fun isNull _ => ?_
      cases isNull with
      | false => exact defined_ok ()
      | true =>
        refine (defined_rejectIf _ _).bind fun _ _ => ?_
        exact (defined_subspan (h column (List.mem_cons_self ..))).bind fun _ _ =>
          defined_rejectIf _ _
    exact hcheck.bind fun _ _ => ih (by omega) fun c hc => h c (List.mem_cons_of_mem _ hc)

theorem defined_readString {remaining : Nat} (h : offset + remaining ≤ bytes.length) :
    Defined (readString bytes offset remaining) := by
  induction remaining generalizing offset with
  | zero => exact defined_ok _
  | succ remaining ih =>
    refine (defined_fetch (by omega)).bind fun current _ => ?_
    split
    · exact defined_ok _
    · exact (ih (by omega)).bind fun _ _ => defined_ok _

theorem defined_decodeString {capacity : UInt64} (h : offset + capacity.toNat ≤ bytes.length) :
    Defined (decodeString bytes offset capacity) := by
  refine (defined_readString h).bind fun string _ => ?_
  split
  · refine (defined_subspan (by omega)).bind fun padding _ => ?_
    exact (defined_rejectIf _ _).bind fun _ _ => defined_mapError _
  · exact defined_mapError _

theorem defined_decodePayload {type : LogicalType}
    (h : offset + type.fixedSize.toNat ≤ bytes.length) :
    Defined (decodePayload bytes offset type) := by
  cases type with
  | int8 => exact (defined_fetch h).bind fun _ _ => defined_mapError _
  | int16 | int32 => exact (defined_mapError _).bind fun _ _ => defined_mapError _
  | int64 | float64 => exact (defined_mapError _).bind fun _ _ => defined_ok _
  | string capacity => exact defined_decodeString h
  | boolean =>
    exact (defined_fetch h).bind fun _ _ => (defined_rejectIf _ _).bind fun _ _ => defined_ok _

theorem defined_decodeValues {columns : List Column}
    (hbitmap : (i + columns.length + 7) / 8 ≤ bytes.length)
    (h : ∀ column ∈ columns, column.fixedEnd ≤ bytes.length) :
    Defined (decodeValues bytes i columns) := by
  induction columns generalizing i with
  | nil => exact defined_ok _
  | cons column columns ih =>
    rw [List.length_cons] at hbitmap
    have hvalue : Defined (decodeValue bytes i column) := by
      refine (defined_isNullAt (by omega)).bind fun isNull _ => ?_
      cases isNull with
      | true => exact defined_ok _
      | false => exact defined_decodePayload (h column (List.mem_cons_self ..))
    refine hvalue.bind fun value _ => ?_
    exact (ih (by omega) fun c hc => h c (List.mem_cons_of_mem _ hc)).bind fun _ _ => defined_ok _

/-- A row of a schema whose columns lie behind the null bitmap and within the row is
decoded inside its bytes. -/
theorem defined_decode {schema : Schema}
    (hbitmap : schema.nullBitmapSize.toNat = (schema.columns.length + 7) / 8)
    (hsize : (schema.columns.length + 7) / 8 ≤ schema.rowSize.toNat)
    (hcolumns : ∀ column ∈ schema.columns, column.fixedEnd ≤ schema.rowSize.toNat)
    (bytes : List Byte) : Defined (decode schema bytes) := by
  refine (defined_rejectIf _ _).bind fun _ hlength => ?_
  have hlength : schema.rowSize.toNat = bytes.length := by
    unfold rejectIf at hlength
    split at hlength
    · cases hlength
    · exact not_not.mp ‹_›
  rw [hlength] at hsize hcolumns
  have hcount : (0 + schema.columns.length + 7) / 8 ≤ bytes.length := by rwa [Nat.zero_add]
  refine (defined_checkNulls hcount hcolumns).bind fun _ _ => ?_
  refine Defined.bind ?_ fun _ _ => (defined_decodeValues hcount hcolumns).bind fun _ _ =>
    defined_ok _
  rw [checkUnusedBits]
  split
  · exact (defined_fetch (by omega)).bind fun _ _ => defined_rejectIf _ _
  · exact defined_ok ()

end Defined

end RowCodec

end DanDB.Record
