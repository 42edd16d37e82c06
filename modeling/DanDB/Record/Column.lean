import DanDB.Record.LogicalType

/-!
# Columns
-/

namespace DanDB.Record

open DanDB.Core

structure Column where
  name : String
  logicalType : LogicalType
  nullable : Bool
  pk : Bool
  unique : Bool
  /-- The position in the schema. -/
  ordinal : UInt64
  /-- Where the values of the column begin in a row. -/
  fixedOffset : UInt64
deriving DecidableEq

namespace Column

def create (name : String) (logicalType : LogicalType) (nullable pk unique : Bool) :
    Result Column := do
  failIf (name = "") (.InvalidArgument "Column name cannot be empty")
  failIf (pk = true ∧ nullable = true)
    (.InvalidArgument s!"Column '{name}' cannot be both nullable and PRIMARY KEY")
  failIf (unique = true ∧ nullable = true)
    (.InvalidArgument s!"Column '{name}' cannot be both nullable and UNIQUE")
  failIf (pk = true ∧ logicalType.canBeIndexed = false)
    (.InvalidArgument s!"Column '{name}' cannot use {logicalType.displayName} as PRIMARY KEY")
  failIf (unique = true ∧ logicalType.canBeIndexed = false)
    (.InvalidArgument s!"Column '{name}' cannot use {logicalType.displayName} as UNIQUE")
  return ⟨name, logicalType, nullable, pk, unique, 0, 0⟩

def setLayout (column : Column) (ordinal fixedOffset : UInt64) : Column :=
  { column with ordinal := ordinal, fixedOffset := fixedOffset }

/-- Where the values of the column end in a row. -/
def fixedEnd (column : Column) : Nat :=
  column.fixedOffset.toNat + column.logicalType.fixedSize.toNat

theorem create_logicalType {name : String} {logicalType : LogicalType} {nullable pk unique : Bool}
    {column : Column} (h : create name logicalType nullable pk unique = .ok column) :
    column.logicalType = logicalType := by
  simp only [create, bind_eq_ok, failIf_eq_ok, pure_eq_ok, Except.ok.injEq] at h
  obtain ⟨-, -, -, -, -, -, -, -, -, -, rfl⟩ := h
  rfl

end Column

end DanDB.Record
