import DanDB.Core.Status

/-!
# Column types

A type has a fixed size in a row.  `STRING` has a capacity, which is never zero;
the other types have none.
-/

namespace DanDB.Record

open DanDB.Core

/-- The capacity of a string type. -/
abbrev Capacity := { capacity : UInt64 // capacity ≠ 0 }

inductive LogicalType where
  | int8
  | int16
  | int32
  | int64
  | float64
  | string (capacity : Capacity)
  | boolean
deriving DecidableEq

namespace LogicalType

inductive Kind where
  | int8
  | int16
  | int32
  | int64
  | float64
  | string
  | boolean
deriving DecidableEq, Repr

/-- `LogicalType::string` -/
def ofCapacity (capacity : UInt64) : Result LogicalType :=
  if h : capacity = 0 then .error (.InvalidArgument "STRING capacity must be greater than 0")
  else .ok (.string ⟨capacity, h⟩)

def kind : LogicalType → Kind
  | int8 => .int8
  | int16 => .int16
  | int32 => .int32
  | int64 => .int64
  | float64 => .float64
  | string _ => .string
  | boolean => .boolean

def capacity : LogicalType → Option UInt64
  | string capacity => some capacity
  | _ => none

/-- The size of a value of the type in a row. -/
def fixedSize : LogicalType → UInt64
  | int8 => 1
  | int16 => 2
  | int32 => 4
  | int64 => 8
  | float64 => 8
  | string capacity => capacity
  | boolean => 1

def canBeIndexed : LogicalType → Bool
  | float64 => false
  | _ => true

def displayName : LogicalType → String
  | int8 => "INT8"
  | int16 => "INT16"
  | int32 => "INT32"
  | int64 => "INT64"
  | float64 => "DOUBLE"
  | string capacity => s!"STRING({capacity.val})"
  | boolean => "BOOL"

/-- Kind and capacity are all there is to a type. -/
theorem eq_of_kind {a b : LogicalType} (hkind : a.kind = b.kind) (hcapacity : a.capacity = b.capacity) :
    a = b := by
  cases a <;> cases b <;> first | rfl | cases hkind
  rename_i c d
  exact congrArg string (Subtype.ext (Option.some.inj hcapacity))

theorem fixedSize_pos (type : LogicalType) : 0 < type.fixedSize.toNat := by
  cases type with
  | string capacity =>
    obtain ⟨capacity, hne⟩ := capacity
    refine Nat.pos_of_ne_zero fun hzero => hne ?_
    exact UInt64.toNat.inj hzero
  | _ => decide

end LogicalType

end DanDB.Record
