import DanDB.Record.Column

/-!
# Schemas

A row begins with a bitmap of its null values, one bit for each column, and the
columns follow in their order, each with the fixed size of its type.
-/

namespace DanDB.Record

open DanDB.Core

structure Schema where
  columns : List Column
  primaryKeyOrdinal : UInt64
  rowSize : UInt64
  nullBitmapSize : UInt64
deriving DecidableEq

namespace Schema

/-- The first loop of `create`: the names are all different. -/
def checkNames (seenNames : List String) : List Column → Result Unit
  | [] => .ok ()
  | column :: columns => do
    failIf (column.name ∈ seenNames)
      (.InvalidArgument s!"Duplicate column name '{column.name}'")
    checkNames (column.name :: seenNames) columns

/-- The second loop: the column of the primary key, which is `found` so far. -/
def findPrimaryKey (i : UInt64) (found : Option UInt64) : List Column → Result (Option UInt64)
  | [] => .ok found
  | column :: columns => do
    failIf (column.pk = true ∧ found.isSome = true)
      (.InvalidArgument "Multiple PRIMARY KEY columns are not allowed")
    findPrimaryKey (i + 1) (if column.pk then some i else found) columns

/-- The third loop: every column gets its place in the row. -/
def setLayouts (i rowSize : UInt64) : List Column → List Column × UInt64
  | [] => ([], rowSize)
  | column :: columns =>
    let rest := setLayouts (i + 1) (rowSize + column.logicalType.fixedSize) columns
    (column.setLayout i rowSize :: rest.1, rest.2)

def create (columns : List Column) : Result Schema := do
  failIf (columns = []) (.InvalidArgument "At least one column is required")
  checkNames [] columns
  match ← findPrimaryKey 0 none columns with
  | none => .error (.InvalidArgument "Exactly one PRIMARY KEY column is required")
  | some primaryKeyOrdinal =>
    let nullBitmapSize := (UInt64.ofNat columns.length + 7) / 8
    let layout := setLayouts 0 nullBitmapSize columns
    return ⟨layout.1, primaryKeyOrdinal, layout.2, nullBitmapSize⟩

/-- The column of the primary key; a schema that was created has one. -/
def primaryKeyColumn (schema : Schema) : Option Column :=
  schema.columns[schema.primaryKeyOrdinal.toNat]?

/-! ## Layouts -/

/-- The bytes that some columns need. -/
def sizeSum (columns : List Column) : Nat :=
  (columns.map fun column => column.logicalType.fixedSize.toNat).sum

/-- The bytes that a row of some columns needs, null bitmap included. -/
def exactRowSize (columns : List Column) : Nat := (columns.length + 7) / 8 + sizeSum columns

/-- The columns have their places one after the other. -/
inductive LaidOut : Nat → List Column → Nat → Prop
  | nil (offset : Nat) : LaidOut offset [] offset
  | cons {offset stop : Nat} {column : Column} {columns : List Column}
    (hoffset : column.fixedOffset.toNat = offset) (htail : LaidOut column.fixedEnd columns stop) :
    LaidOut offset (column :: columns) stop

section Layouts

variable {columns : List Column} {offset stop : Nat}

theorem LaidOut.le (h : LaidOut offset columns stop) : offset ≤ stop := by
  induction h with
  | nil => exact Nat.le_refl _
  | cons hoffset _ ih =>
    rw [← hoffset]
    exact (Nat.le_add_right ..).trans ih

/-- Every column lies within the row. -/
theorem LaidOut.bounds (h : LaidOut offset columns stop) :
    ∀ column ∈ columns, offset ≤ column.fixedOffset.toNat ∧ column.fixedEnd ≤ stop := by
  induction h with
  | nil => exact nofun
  | @cons offset stop column columns hoffset htail ih =>
    intro other hmem
    cases hmem with
    | head => exact ⟨hoffset.ge, htail.le⟩
    | tail _ hmem =>
      obtain ⟨hstart, hstop⟩ := ih other hmem
      exact ⟨hoffset.symm.le.trans ((Nat.le_add_right ..).trans hstart), hstop⟩

/-- No two columns overlap. -/
theorem LaidOut.pairwise (h : LaidOut offset columns stop) :
    columns.Pairwise fun a b => a.fixedEnd ≤ b.fixedOffset.toNat := by
  induction h with
  | nil => exact .nil
  | cons _ htail ih => exact .cons (fun b hmem => (htail.bounds b hmem).1) ih

theorem setLayouts_types (i rowSize : UInt64) (columns : List Column) :
    (setLayouts i rowSize columns).1.map Column.logicalType = columns.map Column.logicalType := by
  induction columns generalizing i rowSize with
  | nil => rfl
  | cons column columns ih => simp [setLayouts, ih, Column.setLayout]

theorem sizeSum_congr {columns columns' : List Column}
    (h : columns'.map Column.logicalType = columns.map Column.logicalType) :
    sizeSum columns' = sizeSum columns := by
  have hsum (columns : List Column) : sizeSum columns =
      ((columns.map Column.logicalType).map fun type => type.fixedSize.toNat).sum := by
    rw [List.map_map]
    rfl
  rw [hsum, hsum, h]

/-- Columns that fit in 64 bits get their places one after the other. -/
theorem setLayouts_laidOut {i rowSize : UInt64} (columns : List Column)
    (h : rowSize.toNat + sizeSum columns < 2 ^ 64) :
    LaidOut rowSize.toNat (setLayouts i rowSize columns).1 (setLayouts i rowSize columns).2.toNat ∧
      (setLayouts i rowSize columns).2.toNat = rowSize.toNat + sizeSum columns := by
  induction columns generalizing i rowSize with
  | nil => exact ⟨.nil _, rfl⟩
  | cons column columns ih =>
    have hcons : sizeSum (column :: columns) =
        column.logicalType.fixedSize.toNat + sizeSum columns := rfl
    rw [hcons] at h ⊢
    have hadd : (rowSize + column.logicalType.fixedSize).toNat =
        rowSize.toNat + column.logicalType.fixedSize.toNat := by
      rw [UInt64.toNat_add, Nat.mod_eq_of_lt (by omega)]
    obtain ⟨hlaid, hsum⟩ := @ih (i + 1) (rowSize + column.logicalType.fixedSize) (by omega)
    rw [hadd] at hlaid hsum
    exact ⟨.cons rfl hlaid, by rw [setLayouts, hsum]; omega⟩

theorem length_le_sizeSum (columns : List Column) : columns.length ≤ sizeSum columns := by
  induction columns with
  | nil => exact Nat.le_refl 0
  | cons column columns ih =>
    have hpos := column.logicalType.fixedSize_pos
    have hcons : sizeSum (column :: columns) =
        column.logicalType.fixedSize.toNat + sizeSum columns := rfl
    rw [hcons, List.length_cons]
    omega

end Layouts

/-- What `create` returns. -/
theorem create_eq {columns : List Column} {schema : Schema} (h : create columns = .ok schema) :
    (schema.columns, schema.rowSize) = setLayouts 0 schema.nullBitmapSize columns ∧
      schema.nullBitmapSize = (UInt64.ofNat columns.length + 7) / 8 := by
  simp only [create, bind_eq_ok, failIf_eq_ok] at h
  obtain ⟨-, -, -, -, found, -, hfound⟩ := h
  cases found with
  | none => cases hfound
  | some primaryKeyOrdinal =>
    cases hfound
    exact ⟨rfl, rfl⟩

/-- Columns that fit in 64 bits are laid out behind the null bitmap, one after the
other, and end where the row does. -/
theorem laidOut_of_layouts {schema : Schema} {columns : List Column}
    (hlayout : (schema.columns, schema.rowSize) = setLayouts 0 schema.nullBitmapSize columns)
    (hbitmap : schema.nullBitmapSize = (UInt64.ofNat columns.length + 7) / 8)
    (hfits : exactRowSize columns < 2 ^ 64) :
    schema.columns.map Column.logicalType = columns.map Column.logicalType ∧
      schema.nullBitmapSize.toNat = (schema.columns.length + 7) / 8 ∧
      LaidOut schema.nullBitmapSize.toNat schema.columns schema.rowSize.toNat ∧
      schema.rowSize.toNat = exactRowSize schema.columns := by
  rw [exactRowSize] at hfits
  have hcount := length_le_sizeSum columns
  have hbitmapSize : schema.nullBitmapSize.toNat = (columns.length + 7) / 8 := by
    rw [hbitmap, UInt64.toNat_div, UInt64.toNat_add, UInt64.toNat_ofNat',
      show (7 : UInt64).toNat = 7 from rfl, show (8 : UInt64).toNat = 8 from rfl]
    omega
  obtain ⟨hlaid, hsum⟩ := @setLayouts_laidOut 0 schema.nullBitmapSize columns
    (by rw [hbitmapSize]; exact hfits)
  have htypes := setLayouts_types 0 schema.nullBitmapSize columns
  rw [← hlayout] at hlaid hsum htypes
  simp only at hlaid hsum htypes
  have hlength : schema.columns.length = columns.length := by
    simpa using congrArg List.length htypes
  refine ⟨htypes, by rw [hbitmapSize, hlength], hlaid, ?_⟩
  rw [hsum, hbitmapSize, exactRowSize, hlength, sizeSum_congr htypes]

end Schema

end DanDB.Record
