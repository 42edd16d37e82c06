import DanDB.Record.KeyCodec

/-!
# Building rows

A row from values, and a row with other values in some columns.  Neither leaves the
schema.
-/

namespace DanDB.Record.RowHelpers

open DanDB.Core

def buildRow (schema : Schema) (values : List Value) : Result Row := do
  validateRow schema ⟨values⟩
  return ⟨values⟩

def replaceNonPrimaryKeyValues (schema : Schema) (row : Row) (ordinals : List UInt64)
    (values : List Value) : Result Row := do
  validateRow schema row
  failIf (ordinals.length ≠ values.length)
    (.InvalidArgument "Cannot replace row values: ordinals and values size differ")
  failIf (schema.primaryKeyOrdinal ∈ ordinals)
    (.InvalidArgument "Cannot replace row values: primary key value cannot be replaced")
  failIf (∃ ordinal ∈ ordinals, ordinal.toNat ≥ row.values.length)
    (.InvalidArgument "Cannot replace row values: ordinal is out of bounds")
  let replacedValues := (ordinals.zip values).foldl
    (fun values replacement => values.set replacement.1.toNat replacement.2) row.values
  validateRow schema ⟨replacedValues⟩
  return ⟨replacedValues⟩

end DanDB.Record.RowHelpers
