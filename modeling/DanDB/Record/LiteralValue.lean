import DanDB.Record.KeyCodec
import DanDB.Sql.Ast

/-!
# Literals

What a literal of a statement becomes as a value of a column.
-/

namespace DanDB.Record

open DanDB.Core

/-- The bytes that the characters of a text stand for. -/
def textBytes (text : String) : List Byte := text.toList.map fun ch => UInt8.ofNat ch.toNat

namespace LiteralValue

def isNull : LiteralValue → Bool
  | null => true
  | _ => false

def incompatibleLiteral (literalKind : String) (type : LogicalType) : Status :=
  .InvalidArgument s!"{literalKind} literal cannot be converted to {type.displayName}"

/-- `convert_null_to` -/
def convertNullTo (type : LogicalType) (nullable : Bool) : Result Value := do
  failIf (nullable = false)
    (.ConstraintViolation "NULL is not allowed for non-nullable columns")
  return .null type

def convertTo (literal : LiteralValue) (type : LogicalType) (nullable : Bool) : Result Value :=
  match literal with
  | null => convertNullTo type nullable
  | integer value =>
    match type with
    | .int8 => Value.int8 value
    | .int16 => Value.int16 value
    | .int32 => Value.int32 value
    | .int64 => .ok (Value.int64 value)
    | .float64 | .string _ | .boolean => .error (incompatibleLiteral "integer" type)
  | real bits =>
    match type with
    | .float64 => .ok (Value.float64 bits)
    | _ => .error (incompatibleLiteral "real" type)
  | string text =>
    match type with
    | .string capacity => Value.string (textBytes text) capacity.val
    | _ => .error (incompatibleLiteral "string" type)
  | boolean value =>
    match type with
    | .boolean => .ok (Value.boolean value)
    | _ => .error (incompatibleLiteral "boolean" type)

end LiteralValue

end DanDB.Record
