import DanDB.Core.Endian
import DanDB.Record.Schema

/-!
# Values and rows

A value has a type and a payload that fits it.  A row is a list of values; the
validation of a row against a schema is what `RowCodec::encode` begins with.
-/

namespace DanDB.Record

open DanDB.Core

inductive Payload where
  | null
  | integer (value : Int64)
  /-- A double, as its bits. -/
  | float64 (bits : UInt64)
  | string (value : List Byte)
  | boolean (value : Bool)
deriving DecidableEq

/-- `fits_integer` for the integers of the given width. -/
def fitsInteger (width : Nat) (value : Int64) : Bool :=
  decide (-(2 ^ (width - 1) : Int) ≤ value.toInt ∧ value.toInt < 2 ^ (width - 1))

namespace Payload

/-- The payload is one of a value of the type. -/
def Fits : Payload → LogicalType → Prop
  | null, _ => True
  | integer value, .int8 => fitsInteger 8 value
  | integer value, .int16 => fitsInteger 16 value
  | integer value, .int32 => fitsInteger 32 value
  | integer _, .int64 => True
  | float64 _, .float64 => True
  | string value, .string capacity => value.length ≤ capacity.val.toNat
  | boolean _, .boolean => True
  | _, _ => False

instance (payload : Payload) (type : LogicalType) : Decidable (payload.Fits type) := by
  unfold Fits
  split <;> infer_instance

end Payload

structure Value where
  type : LogicalType
  payload : Payload
  fits : payload.Fits type
deriving DecidableEq

namespace Value

/-- The integer types that not every 64-bit integer fits. -/
def narrow (type : LogicalType) (value : Int64) : Result Value :=
  if h : (Payload.integer value).Fits type then .ok ⟨type, .integer value, h⟩
  else .error (.InvalidArgument s!"{type.displayName} value out of range: {value}")

def int8 (value : Int64) : Result Value := narrow .int8 value

def int16 (value : Int64) : Result Value := narrow .int16 value

def int32 (value : Int64) : Result Value := narrow .int32 value

def int64 (value : Int64) : Value := ⟨.int64, .integer value, trivial⟩

def float64 (bits : UInt64) : Value := ⟨.float64, .float64 bits, trivial⟩

def string (value : List Byte) (capacity : UInt64) : Result Value := do
  let type ← LogicalType.ofCapacity capacity
  if h : (Payload.string value).Fits type then
    return ⟨type, .string value, h⟩
  else .error (.InvalidArgument s!"STRING({capacity}) value length exceeds capacity")

def boolean (value : Bool) : Value := ⟨.boolean, .boolean value, trivial⟩

def null (type : LogicalType) : Value := ⟨type, .null, trivial⟩

def isNull (value : Value) : Bool := value.payload = .null

/-- `std::get`, which throws on any other payload. -/
def asInteger (value : Value) : Option Int64 :=
  match value.payload with
  | .integer integer => some integer
  | _ => none

def asFloat64 (value : Value) : Option UInt64 :=
  match value.payload with
  | .float64 bits => some bits
  | _ => none

def asString (value : Value) : Option (List Byte) :=
  match value.payload with
  | .string bytes => some bytes
  | _ => none

def asBoolean (value : Value) : Option Bool :=
  match value.payload with
  | .boolean boolean => some boolean
  | _ => none

end Value

structure Row where
  values : List Value
deriving DecidableEq

/-- One column of the loop of `validate_row_against_schema`. -/
def validateValue (column : Column) (value : Value) : Result Unit := do
  failIf (column.logicalType.kind ≠ value.type.kind)
    (.InvalidArgument "Cannot validate row: row value type does not match schema column type")
  failIf (value.type.kind = .string ∧ column.logicalType.capacity ≠ value.type.capacity)
    (.InvalidArgument "Cannot validate row: row value type string capacity does not match schema column type string capacity")
  match value.payload with
  | .null =>
    failIf (column.nullable = false)
      (.InvalidArgument "Cannot validate row: row value is null but column is not nullable")
  | .string bytes => do
    failIf (bytes.length > (column.logicalType.capacity.getD 0).toNat)
      (.InvalidArgument "Cannot validate row: row value string length surpasses allowed capacity by column")
    failIf (0 ∈ bytes)
      (.InvalidArgument "Cannot validate row: string value cannot contain a null character")
  | _ => return ()

/-- The loop of `validate_row_against_schema`. -/
def validateValues : List Column → List Value → Result Unit
  | column :: columns, value :: values => do
    validateValue column value
    validateValues columns values
  | _, _ => return ()

/-- `validate_row_against_schema` -/
def validateRow (schema : Schema) (row : Row) : Result Unit := do
  failIf (schema.columns.length ≠ row.values.length)
    (.InvalidArgument "Cannot validate row: row value count does not match schema column count")
  validateValues schema.columns row.values

section Validation

variable {column : Column} {value : Value} {columns : List Column} {values : List Value}

/-- A value that a column takes has the type of the column. -/
theorem type_of_validateValue (h : validateValue column value = .ok ()) :
    value.type = column.logicalType := by
  simp only [validateValue, bind_eq_ok, failIf_eq_ok] at h
  obtain ⟨-, hkind, -, hcapacity, -⟩ := h
  have hkind : column.logicalType.kind = value.type.kind := not_not.mp hkind
  refine LogicalType.eq_of_kind hkind.symm ?_
  cases htype : value.type with
  | string capacity =>
    rw [htype] at hcapacity
    exact (not_not.mp fun hne => hcapacity ⟨rfl, hne⟩).symm
  | _ =>
    rw [htype] at hkind
    cases hcolumn : column.logicalType <;> rw [hcolumn] at hkind <;> first | rfl | cases hkind

/-- The values of a valid row, each beside its column. -/
theorem forall₂_of_validateValues (hlength : columns.length = values.length)
    (h : validateValues columns values = .ok ()) :
    List.Forall₂ (fun column value => validateValue column value = .ok ()) columns values := by
  induction columns generalizing values with
  | nil =>
    cases values with
    | nil => exact .nil
    | cons => cases hlength
  | cons column columns ih =>
    cases values with
    | nil => cases hlength
    | cons value values =>
      obtain ⟨_, hvalue, hrest⟩ := bind_eq_ok.mp h
      exact .cons hvalue (ih (Nat.succ.inj hlength) hrest)

theorem forall₂_of_validateRow {schema : Schema} {row : Row} (h : validateRow schema row = .ok ()) :
    List.Forall₂ (fun column value => validateValue column value = .ok ()) schema.columns
      row.values := by
  obtain ⟨_, hlength, hvalues⟩ := bind_eq_ok.mp h
  exact forall₂_of_validateValues (not_not.mp (failIf_eq_ok.mp hlength)) hvalues

end Validation

end DanDB.Record
