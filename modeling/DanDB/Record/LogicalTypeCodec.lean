import DanDB.Record.LogicalType

/-!
# Stored column types

The catalog stores the kind of a type as a number and the capacity beside it.
-/

namespace DanDB.Record.LogicalTypeCodec

open DanDB.Core

def decodeKind (code : UInt8) : Result LogicalType.Kind :=
  if code = 1 then .ok .int8
  else if code = 2 then .ok .int16
  else if code = 3 then .ok .int32
  else if code = 4 then .ok .int64
  else if code = 5 then .ok .float64
  else if code = 6 then .ok .string
  else if code = 7 then .ok .boolean
  else .error (.InvalidArgument "Cannot decode logical type kind: unknown code")

def decode (kindCode : UInt8) (capacity : Option UInt64) : Result LogicalType := do
  match ← decodeKind kindCode, capacity with
  | .string, none =>
    .error (.InvalidArgument "Cannot decode logical type: string type requires capacity")
  | .string, some capacity => LogicalType.ofCapacity capacity
  | _, some _ =>
    .error (.InvalidArgument "Cannot decode logical type: non-string type cannot have capacity")
  | .int8, none => return .int8
  | .int16, none => return .int16
  | .int32, none => return .int32
  | .int64, none => return .int64
  | .float64, none => return .float64
  | .boolean, none => return .boolean

end DanDB.Record.LogicalTypeCodec
