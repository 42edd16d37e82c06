import DanDB.Record.RowCodec
import DanDB.Sql.Parser

/-!
# CREATE TABLE

What a `CREATE TABLE` statement does before it reaches the catalog: it makes a
schema of the column definitions.
-/

namespace DanDB.Execution

open DanDB.Core Record Sql

/-- `make_create_table_failure` -/
def createTableFailure (status : Status) (tableName : String) : Status :=
  let message := s!"Cannot create table '{tableName}': {status.message}"
  match status.code with
  | .invalidArgument => .InvalidArgument message
  | .alreadyExists => .AlreadyExists message
  | _ => status

/-- One column of the loop of `execute_create_table_statement`. -/
def createColumn (definition : ColumnDefinition) : Result Column :=
  let constraints := definition.constraints
  let nullable := !constraints.primaryKey && !constraints.unique && !constraints.notNull
  Column.create definition.name.text definition.type.logicalType nullable constraints.primaryKey
    (constraints.primaryKey || constraints.unique)

def createColumns : List ColumnDefinition → Result (List Column)
  | [] => .ok []
  | definition :: definitions => do
    let column ← createColumn definition
    let columns ← createColumns definitions
    return column :: columns

/-- The schema of the table that `execute_create_table_statement` creates. -/
def tableSchema (statement : CreateTableStatement) : Result Schema :=
  (createColumns statement.columns >>= Schema.create).mapError fun status =>
    createTableFailure status statement.tableName.text

/-- The bytes that a row of the declared columns needs, null bitmap included. -/
def declaredRowSize (statement : CreateTableStatement) : Nat :=
  (statement.columns.length + 7) / 8 +
    (statement.columns.map fun definition => definition.type.logicalType.fixedSize.toNat).sum

theorem createColumns_types {definitions : List ColumnDefinition} {columns : List Column}
    (h : createColumns definitions = .ok columns) :
    columns.map Column.logicalType =
      definitions.map fun definition => definition.type.logicalType := by
  induction definitions generalizing columns with
  | nil =>
    cases h
    rfl
  | cons definition definitions ih =>
    simp only [createColumns, bind_eq_ok, pure_eq_ok, Except.ok.injEq] at h
    obtain ⟨column, hcolumn, rest, hrest, rfl⟩ := h
    rw [List.map_cons, List.map_cons, ih hrest, Column.create_logicalType hcolumn]

/-- The columns of the schema are the declared ones. -/
theorem tableSchema_eq {statement : CreateTableStatement} {schema : Schema}
    (h : tableSchema statement = .ok schema) : ∃ columns,
      (schema.columns, schema.rowSize) = Schema.setLayouts 0 schema.nullBitmapSize columns ∧
        schema.nullBitmapSize = (UInt64.ofNat columns.length + 7) / 8 ∧
        Schema.exactRowSize columns = declaredRowSize statement := by
  rw [tableSchema] at h
  cases hcreate : createColumns statement.columns >>= Schema.create with
  | error status =>
    rw [hcreate] at h
    cases h
  | ok created =>
    rw [hcreate] at h
    cases h
    obtain ⟨columns, hcolumns, hschema⟩ := bind_eq_ok.mp hcreate
    have htypes := createColumns_types hcolumns
    obtain ⟨hlayout, hbitmap⟩ := Schema.create_eq hschema
    refine ⟨columns, hlayout, hbitmap, ?_⟩
    have hlength : columns.length = statement.columns.length := by
      simpa using congrArg List.length htypes
    have hsum : Schema.sizeSum columns = (statement.columns.map fun definition =>
        definition.type.logicalType.fixedSize.toNat).sum := by
      have hmap := congrArg (List.map fun type : LogicalType => type.fixedSize.toNat) htypes
      rw [List.map_map, List.map_map] at hmap
      exact congrArg List.sum hmap
    rw [Schema.exactRowSize, hlength, hsum, declaredRowSize]

/-- A schema whose rows have the size that their columns need and whose columns
do not overlap, so that a row is encoded within its buffer. -/
structure LayoutSound (schema : Schema) : Prop where
  rowSize : schema.rowSize.toNat = Schema.exactRowSize schema.columns
  disjoint : schema.columns.Pairwise fun a b => a.fixedEnd ≤ b.fixedOffset.toNat
  inside : ∀ column ∈ schema.columns,
    (schema.columns.length + 7) / 8 ≤ column.fixedOffset.toNat ∧
      column.fixedEnd ≤ schema.rowSize.toNat
  encodes : ∀ row, validateRow schema row = .ok () →
    RowCodec.encode schema row ≠ .error .outOfBounds

/-- Sizes that do not wrap give a sound layout. -/
theorem layoutSound_of_fits {schema : Schema} {columns : List Column}
    (hlayout : (schema.columns, schema.rowSize) =
      Schema.setLayouts 0 schema.nullBitmapSize columns)
    (hbitmap : schema.nullBitmapSize = (UInt64.ofNat columns.length + 7) / 8)
    (hfits : Schema.exactRowSize columns < 2 ^ 64) : LayoutSound schema := by
  obtain ⟨-, hbitmapSize, hlaid, hrowSize⟩ := Schema.laidOut_of_layouts hlayout hbitmap hfits
  have hinside := hlaid.bounds
  rw [hbitmapSize] at hinside
  refine ⟨hrowSize, hlaid.pairwise, hinside, fun row hvalid herror => ?_⟩
  by_cases hsize : schema.rowSize.toNat ≤ RowCodec.maxVectorSize
  · obtain ⟨bytes, hencode, -⟩ := RowCodec.encode_ok hvalid hsize
      (by rw [hrowSize]; exact Nat.le_add_right ..) fun column hmem => (hinside column hmem).2
    rw [hencode] at herror
    cases herror
  · rw [RowCodec.encode_tooLong hvalid (Nat.lt_of_not_le hsize)] at herror
    cases herror

/-- The layout of a table is sound exactly when the declared sizes add up to
less than 2^64: nothing checks that they do. -/
theorem layoutSound_iff {statement : CreateTableStatement} {schema : Schema}
    (hschema : tableSchema statement = .ok schema) :
    LayoutSound schema ↔ declaredRowSize statement < 2 ^ 64 := by
  obtain ⟨columns, hlayout, hbitmap, hsize⟩ := tableSchema_eq hschema
  rw [← hsize]
  constructor
  · intro hsound
    have htypes := Schema.setLayouts_types 0 schema.nullBitmapSize columns
    rw [← hlayout] at htypes
    have hlength : schema.columns.length = columns.length := by
      simpa using congrArg List.length htypes
    have hexact := hsound.rowSize
    rw [Schema.exactRowSize, hlength, Schema.sizeSum_congr htypes] at hexact
    rw [Schema.exactRowSize, ← hexact]
    exact schema.rowSize.toNat_lt
  · exact layoutSound_of_fits hlayout hbitmap

/-! ## A capacity that wraps -/

/-- The tokens of `CREATE TABLE t (id INT8 PRIMARY KEY, s STRING(capacity));`. -/
def capacityTokens (capacity : String) : List Token :=
  [(TokenKind.create, "CREATE"), (.table, "TABLE"), (.identifier, "t"), (.leftParen, "("),
    (.identifier, "id"), (.int8, "INT8"), (.primary, "PRIMARY"), (.key, "KEY"), (.comma, ","),
    (.identifier, "s"), (.string, "STRING"), (.leftParen, "("), (.integerLiteral, capacity),
    (.rightParen, ")"), (.rightParen, ")"), (.semicolon, ";"), (.endOfInput, "")].map fun token => ⟨token.1, token.2, ⟨1, 1⟩⟩

def largestCapacity : Capacity := ⟨0xFFFFFFFFFFFFFFFF, by decide⟩

/-- The statement that `capacityTokens` write. -/
def capacityStatement (capacity : Capacity) : CreateTableStatement :=
  ⟨⟨"t", ⟨1, 1⟩⟩,
    [⟨⟨"id", ⟨1, 1⟩⟩, ⟨.int8, ⟨1, 1⟩⟩, ⟨true, false, false⟩, ⟨1, 1⟩⟩,
      ⟨⟨"s", ⟨1, 1⟩⟩, ⟨.string capacity, ⟨1, 1⟩⟩, ⟨false, false, false⟩, ⟨1, 1⟩⟩],
    ⟨1, 1⟩⟩

/-- The schema of its table. -/
def capacitySchema (capacity : Capacity) : Schema :=
  ⟨[⟨"id", .int8, false, true, true, 0, 1⟩, ⟨"s", .string capacity, true, false, false, 1, 2⟩], 0,
    capacity.val + 2, 1⟩

/-- The row `(1, NULL)` of the table with the largest capacity. -/
def wrappedRow : Row := ⟨[⟨.int8, .integer 1, by decide⟩, .null (.string largestCapacity)]⟩

theorem layoutSound_iff_small : tableSchema (capacityStatement ⟨8, by decide⟩) =
      .ok (capacitySchema ⟨8, by decide⟩) ∧ LayoutSound (capacitySchema ⟨8, by decide⟩) := by
  have hschema : tableSchema (capacityStatement ⟨8, by decide⟩) =
      .ok (capacitySchema ⟨8, by decide⟩) := by decide
  exact ⟨hschema, (layoutSound_iff hschema).mpr (by decide)⟩

/-- With the largest capacity a row of the table has a single byte, and the
value of its key is stored behind it. -/
theorem layoutSound_iff_wraps :
    Parser.parse (capacityTokens "18446744073709551615") =
      .ok [.createTable (capacityStatement largestCapacity)] ∧
    tableSchema (capacityStatement largestCapacity) = .ok (capacitySchema largestCapacity) ∧
    (capacitySchema largestCapacity).rowSize = 1 ∧
    validateRow (capacitySchema largestCapacity) wrappedRow = .ok () ∧
    RowCodec.encode (capacitySchema largestCapacity) wrappedRow = .error .outOfBounds ∧
    ¬LayoutSound (capacitySchema largestCapacity) := by
  have hvalid : validateRow (capacitySchema largestCapacity) wrappedRow = .ok () := by decide
  have hencode : RowCodec.encode (capacitySchema largestCapacity) wrappedRow =
      .error .outOfBounds := by decide
  exact ⟨by decide, by decide, by decide, hvalid, hencode, fun hsound =>
    hsound.encodes _ hvalid hencode⟩

end DanDB.Execution
