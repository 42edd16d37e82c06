import DanDB.BTree.Walks
import DanDB.Catalog.SystemTables
import DanDB.Lib.IterationOrder
import DanDB.Record.KeyCodec
import DanDB.Record.LogicalTypeCodec
import DanDB.Record.RowCodec

/-!
# Loading the catalog

The rows of the four system tables become descriptors.  Whatever a row may break is
checked as it is read, except for what needs all columns or indexes of a table,
which is checked at the end.

A step of the program that is not defined has the failure `outOfBounds` or
`badVariantAccess`, and the program has no outcome then.
-/

namespace DanDB

namespace Catalog

structure TableInfo where
  tableDescriptor : TableDescriptor
  columns : List ColumnDescriptor
  indexes : List IndexDescriptor

end Catalog

/-- The catalog as it was committed last. -/
structure Catalog where
  nextTableId : Catalog.TableId
  nextColumnId : Catalog.ColumnId
  nextIndexId : Catalog.IndexId
  tableById : AList fun _ : Catalog.TableId => Catalog.TableInfo
  tableSchemaById : AList fun _ : Catalog.TableId => Record.Schema
  tableIdByName : AList fun _ : String => Catalog.TableId

namespace Catalog

open DanDB.Core Record Storage PageProgram RowCodec

/-- `Catalog::Catalog`: the next ids are behind the largest ones. -/
def ofTables (tableById : AList fun _ : TableId => TableInfo)
    (tableSchemaById : AList fun _ : TableId => Schema)
    (tableIdByName : AList fun _ : String => TableId) : Catalog :=
  let infos := tableById.entries.map fun entry => entry.2
  let maximum (ids : List UInt64) : UInt64 := ids.foldl max 0
  { nextTableId := maximum tableById.keys + 1
    nextColumnId := maximum (infos.flatMap fun info => info.columns.map (·.columnId)) + 1
    nextIndexId := maximum (infos.flatMap fun info => info.indexes.map (·.indexId)) + 1
    tableById, tableSchemaById, tableIdByName }

namespace CatalogLoader

structure LoadState where
  tableById : AList fun _ : TableId => TableInfo
  tableSchemaById : AList fun _ : TableId => Schema
  tableIdByName : AList fun _ : String => TableId
  tableIdByColumnId : AList fun _ : ColumnId => TableId
  columnIdByIndexId : AList fun _ : IndexId => ColumnId

/-- The orders that `load` does not determine: that of a hash table, and that in which
`std::sort` leaves columns of one ordinal. -/
structure Orders where
  tables : IterationOrder (TableId × TableInfo)
  columns : IterationOrder ColumnDescriptor

/-- A string of the characters that the bytes number. -/
def text (bytes : List Byte) : String :=
  String.ofList (bytes.map fun byte => Char.ofNat byte.toNat)

/-- A check of a row. -/
def check (condition : Prop) [Decidable condition] (message : String) : Except Failure Unit :=
  rejectIf condition (.Corruption ("Cannot load catalog: " ++ message))

/-- The status of a function that was called makes the catalog corrupt. -/
def orCorrupt {α : Type} (context : String) (r : Result α) : Except Failure α :=
  r.mapError fun status =>
    .status (.Corruption ("Cannot load catalog: " ++ context ++ ": " ++ status.message))

/-- So does the status of a tree, unless the files failed. -/
def treeFailure (context : String) (status : Status) : Status :=
  if status.code = .ioError then status
  else .Corruption ("Cannot load catalog: " ++ context ++ ": " ++ status.message)

/-! ## Rows -/

/-- The row of an entry, with which the bodies of the four loops begin. -/
def entryRow (name : String) (schema : Schema) (entry : BTreeEntry) : Except Failure Row := do
  let row ← (decode schema entry.value).mapError fun
    | .status status => .status
      (.Corruption s!"Cannot load catalog: cannot decode {name} row: {status.message}")
    | failure => failure
  let primaryKey ← orCorrupt s!"cannot encode {name} row key"
    (RowHelpers.primaryKeyBytes schema row)
  check (entry.key ≠ primaryKey) s!"{name} entry key does not match row primary key"
  return row

/-- An id of a page from a row: a page of the database behind the header. -/
def checkRoot (header : DatabaseHeader) (name : String) (storedRootPageId : Int64) :
    Except Failure Unit :=
  check (storedRootPageId.toUInt64 = invalidPageId ∨ storedRootPageId.toUInt64 = headerPageId ∨
    storedRootPageId.toUInt64 ≥ header.pageCount)
    s!"{name} root page id is outside database page range"

/-- The body of the loop of `load_tables`. -/
def loadTable (header : DatabaseHeader) (state : LoadState) (row : Row) :
    Except Failure LoadState :=
  match row.values.map Value.payload with
  | [.integer storedTableId, .string tableName, .integer storedTableRootPageId] => do
    let tableName := text tableName
    check (storedTableId < 0) "table id cannot be negative"
    check (storedTableRootPageId ≤ 0) "table root page id must be positive"
    let tableId : TableId := storedTableId.toUInt64
    let tableRootPageId : PageId := storedTableRootPageId.toUInt64
    check (tableId = invalidTableId) "table id is invalid"
    checkRoot header "table" storedTableRootPageId
    check (tableId ∈ state.tableById) "duplicate table id"
    check (tableName ∈ state.tableIdByName) "duplicate table name"
    let descriptor ← orCorrupt "invalid table descriptor"
      (TableDescriptor.create tableId tableName tableRootPageId)
    return { state with
      tableById := state.tableById.insert tableId ⟨descriptor, [], []⟩
      tableIdByName := state.tableIdByName.insert tableName tableId }
  | _ => .error .badVariantAccess

/-- The capacity of a column type, if there is one. -/
def loadCapacity : Payload → Except Failure (Option UInt64)
  | .null => return none
  | .integer storedCapacity => do
    check (storedCapacity < 0) "logical type capacity cannot be negative"
    return some storedCapacity.toUInt64
  | _ => .error .badVariantAccess

/-- The body of the loop of `load_columns`. -/
def loadColumn (state : LoadState) (row : Row) : Except Failure LoadState :=
  match row.values.map Value.payload with
  | [.integer storedColumnId, .integer storedTableId, .string columnName, .integer storedTypeKind,
      typeCapacityValue, .integer storedOrdinal, .boolean nullable, .boolean primaryKey,
      .boolean unique] => do
    check (storedColumnId < 0 ∨ storedTableId < 0) "column and table ids cannot be negative"
    check (storedOrdinal < 0) "column ordinal cannot be negative"
    check (storedTypeKind < 0) "logical type kind cannot be negative"
    let columnId : ColumnId := storedColumnId.toUInt64
    let tableId : TableId := storedTableId.toUInt64
    check (columnId = invalidColumnId ∨ tableId = invalidTableId) "column or table id is invalid"
    match state.tableById.lookup tableId with
    | none => .error (.status
      (.Corruption "Cannot load catalog: column references an unknown table"))
    | some info => do
      check (columnId ∈ state.tableIdByColumnId) "duplicate column id"
      let typeCapacity ← loadCapacity typeCapacityValue
      let logicalType ← orCorrupt "invalid logical type"
        (LogicalTypeCodec.decode storedTypeKind.toUInt64.toUInt8 typeCapacity)
      let descriptor ← orCorrupt "invalid column descriptor"
        (ColumnDescriptor.create columnId tableId (text columnName) logicalType
          storedOrdinal.toUInt64 nullable primaryKey unique)
      return { state with
        tableById := state.tableById.insert tableId
          { info with columns := info.columns ++ [descriptor] }
        tableIdByColumnId := state.tableIdByColumnId.insert columnId tableId }
  | _ => .error .badVariantAccess

/-- The body of the loop of `load_index_columns`. -/
def loadIndexColumn (state : LoadState) (row : Row) : Except Failure LoadState :=
  match row.values.map Value.payload with
  | [.integer storedIndexId, .integer storedColumnId, .integer storedOrdinal] => do
    check (storedIndexId < 0 ∨ storedColumnId < 0) "index and column ids cannot be negative"
    check (storedOrdinal ≠ 0) "index column ordinal must be zero"
    let indexId : IndexId := storedIndexId.toUInt64
    let columnId : ColumnId := storedColumnId.toUInt64
    check (indexId = invalidIndexId ∨ columnId = invalidColumnId) "index or column id is invalid"
    check (columnId ∉ state.tableIdByColumnId) "index column references an unknown column"
    check (indexId ∈ state.columnIdByIndexId) "duplicate index column mapping"
    return { state with columnIdByIndexId := state.columnIdByIndexId.insert indexId columnId }
  | _ => .error .badVariantAccess

/-- The body of the loop of `load_indexes`, with the names of the indexes so far. -/
def loadIndex (header : DatabaseHeader) (state : LoadState × List String) (row : Row) :
    Except Failure (LoadState × List String) :=
  let (state, indexNames) := state
  match row.values.map Value.payload with
  | [.integer storedIndexId, .integer storedTableId, .string indexName, .integer storedRootPageId,
      .boolean unique, .boolean primary, .boolean internal] => do
    let indexName := text indexName
    check (indexName ∈ indexNames) "duplicate index name"
    check (storedIndexId < 0 ∨ storedTableId < 0) "index and table ids cannot be negative"
    check (storedRootPageId ≤ 0) "index root page id must be positive"
    let indexId : IndexId := storedIndexId.toUInt64
    let tableId : TableId := storedTableId.toUInt64
    check (indexId = invalidIndexId ∨ tableId = invalidTableId) "index or table id is invalid"
    checkRoot header "index" storedRootPageId
    match state.tableById.lookup tableId, state.columnIdByIndexId.lookup indexId with
    | none, _ => .error (.status
      (.Corruption "Cannot load catalog: index references an unknown table"))
    | some _, none => .error (.status
      (.Corruption "Cannot load catalog: index is missing its indexed-column mapping"))
    | some info, some columnId => do
      check (state.tableIdByColumnId.lookup columnId ≠ some tableId)
        "indexed column belongs to a different table"
      let descriptor ← orCorrupt "invalid index descriptor"
        (IndexDescriptor.create indexId tableId indexName storedRootPageId.toUInt64 unique primary
          internal columnId)
      return ({ state with
        tableById := state.tableById.insert tableId
          { info with indexes := info.indexes ++ [descriptor] }
        columnIdByIndexId := state.columnIdByIndexId.erase indexId }, indexName :: indexNames)
  | _ => .error .badVariantAccess

/-! ## Tables -/

/-- A step that is not defined has no outcome. -/
def defined {α : Type} : Except Failure α → PageProgram α
  | .ok a => return a
  | .error (.status status) => Program.fail status
  | .error _ => .diverge

/-- What `load_tables` and its siblings do with every row of their table. -/
def loadRows {σ : Type} (name : String) (schema : Result Schema) (rootPageId : PageId)
    (loadRow : σ → Row → Except Failure σ) (state : σ) : PageProgram σ := do
  let schema ← .done schema
  Program.failIf (rootPageId = invalidPageId)
    (.Corruption s!"Cannot load catalog: {name} root page id is invalid")
  let keySize := schema.primaryKeyColumn.elim 0 fun column => column.logicalType.fixedSize
  let tree ← (BTree.openExisting rootPageId keySize.toUInt16.toNat
    schema.rowSize.toUInt16.toNat).mapError (treeFailure s!"invalid {name} B+ tree")
  let cursor ← tree.scan.mapError (treeFailure s!"cannot scan {name}")
  BTreeCursor.foldEntries
    (fun cursor => cursor.next.mapError (treeFailure s!"invalid {name} entry"))
    (fun state entry => defined do
      let row ← entryRow name schema entry
      loadRow state row)
    BTreeCursor.drainLimit cursor state

/-- The system tables that have to be there. -/
def expectedSystemTables (header : DatabaseHeader) : List (TableId × String × PageId) :=
  [(dandbTablesId, dandbTablesName, header.systemTablesRootPageId),
    (dandbColumnsId, dandbColumnsName, header.systemColumnsRootPageId),
    (dandbIndexesId, dandbIndexesName, header.systemIndexesRootPageId),
    (dandbIndexColumnsId, dandbIndexColumnsName, header.systemIndexColumnsRootPageId)]

/-- One of them. -/
def checkSystemTable (state : LoadState) (expected : TableId × String × PageId) :
    Except Failure Unit :=
  match state.tableById.lookup expected.1 with
  | none => .error (.status
    (.Corruption "Cannot load catalog: required system table is missing"))
  | some info => do
    check (info.tableDescriptor.name ≠ expected.2.1) "system table name does not match its id"
    check (info.tableDescriptor.rootPageId ≠ expected.2.2)
      "system table root does not match database header"

def loadTables (header : DatabaseHeader) (state : LoadState) : PageProgram LoadState := do
  let state ← loadRows dandbTablesName SystemTables.tablesSchema header.systemTablesRootPageId
    (loadTable header) state
  defined ((expectedSystemTables header).forM (checkSystemTable state))
  return state

def loadColumns (header : DatabaseHeader) (state : LoadState) : PageProgram LoadState :=
  loadRows dandbColumnsName SystemTables.columnsSchema header.systemColumnsRootPageId loadColumn
    state

def loadIndexColumns (header : DatabaseHeader) (state : LoadState) : PageProgram LoadState :=
  loadRows dandbIndexColumnsName SystemTables.indexColumnsSchema
    header.systemIndexColumnsRootPageId loadIndexColumn state

def loadIndexes (header : DatabaseHeader) (state : LoadState) : PageProgram LoadState := do
  let (state, _) ← loadRows dandbIndexesName SystemTables.indexesSchema
    header.systemIndexesRootPageId (loadIndex header) (state, [])
  defined (check (state.columnIdByIndexId.entries ≠ [])
    "index-column mapping references an unknown index")
  return state

/-! ## Schemas -/

/-- The loop over the sorted columns of a table, from one ordinal on. -/
def resolveColumns (ordinal : UInt64) : List ColumnDescriptor → Except Failure (List Column)
  | [] => return []
  | descriptor :: descriptors => do
    check (descriptor.ordinal ≠ ordinal)
      "table column ordinals must be contiguous and start at zero"
    let column ← orCorrupt "invalid schema column" (Column.create descriptor.name
      descriptor.logicalType descriptor.nullable descriptor.primaryKey descriptor.unique)
    let columns ← resolveColumns (ordinal + 1) descriptors
    return column :: columns

/-- The primary index that a system table has to have. -/
def systemPrimaryIndexes : List (TableId × IndexId × String) :=
  [(dandbTablesId, dandbTablesPrimaryIndexId, dandbTablesName),
    (dandbColumnsId, dandbColumnsPrimaryIndexId, dandbColumnsName),
    (dandbIndexesId, dandbIndexesPrimaryIndexId, dandbIndexesName),
    (dandbIndexColumnsId, dandbIndexColumnsPrimaryIndexId, dandbIndexColumnsName)]

/-- The checks of the primary index of a table. -/
def checkPrimaryIndex (tableId : TableId) (info : TableInfo) (schema : Schema) :
    Except Failure Unit :=
  match info.indexes.filter (·.primary) with
  | [primaryIndex] => do
    let primaryKeyColumn := info.columns[schema.primaryKeyOrdinal.toNat]?
    check (primaryKeyColumn.map (·.columnId) ≠ some primaryIndex.indexedColumnId)
      "primary index does not reference the schema primary key"
    check (primaryIndex.rootPageId ≠ info.tableDescriptor.rootPageId)
      "primary index root does not match table root"
    systemPrimaryIndexes.forM fun system =>
      check (tableId = system.1 ∧ primaryIndex.indexId ≠ system.2.1)
        s!"{system.2.2} primary index ID is invalid"
  | _ => .error (.status
    (.Corruption "Cannot load catalog: each table must have exactly one primary index"))

/-- One table of the loop of `resolve_schemas`. -/
def resolveTable (orders : Orders) (state : LoadState) (entry : TableId × TableInfo) :
    Except Failure LoadState := do
  let (tableId, info) := entry
  let columns := (orders.columns.visit info.columns).mergeSort fun left right =>
    decide (left.ordinal ≤ right.ordinal)
  let info := { info with columns }
  let schemaColumns ← resolveColumns 0 columns
  let schema ← orCorrupt "invalid table schema" (Schema.create schemaColumns)
  checkPrimaryIndex tableId info schema
  return { state with
    tableById := state.tableById.insert tableId info
    tableSchemaById := state.tableSchemaById.insert tableId schema }

/-- A loaded column is not that of a canonical schema. -/
def Differs (loaded canonical : Column) : Prop :=
  loaded.name ≠ canonical.name ∨ loaded.logicalType.kind ≠ canonical.logicalType.kind ∨
    loaded.logicalType.capacity ≠ canonical.logicalType.capacity ∨
    loaded.nullable ≠ canonical.nullable ∨ loaded.pk ≠ canonical.pk ∨
    loaded.unique ≠ canonical.unique

instance (loaded canonical : Column) : Decidable (Differs loaded canonical) :=
  inferInstanceAs (Decidable (_ ∨ _))

/-- The loaded schema of a system table is the canonical one. -/
def checkCanonical (state : LoadState) (canonical : TableId × Schema) : Except Failure Unit :=
  match state.tableSchemaById.lookup canonical.1 with
  | none => .error .outOfBounds
  | some loaded => do
    check (loaded.columns.length ≠ canonical.2.columns.length)
      "system table schema column count does not match canonical schema"
    check (∃ pair ∈ loaded.columns.zip canonical.2.columns, Differs pair.1 pair.2)
      "system table schema does not match canonical schema"

def resolveSchemas (orders : Orders) (state : LoadState) : Except Failure LoadState := do
  let state ← (orders.tables.visit (state.tableById.entries.map fun entry =>
    (entry.1, entry.2))).foldlM (resolveTable orders) state
  let tables ← SystemTables.tablesSchema.mapError .status
  let columns ← SystemTables.columnsSchema.mapError .status
  let indexes ← SystemTables.indexesSchema.mapError .status
  let indexColumns ← SystemTables.indexColumnsSchema.mapError .status
  [(dandbTablesId, tables), (dandbColumnsId, columns), (dandbIndexesId, indexes),
    (dandbIndexColumnsId, indexColumns)].forM (checkCanonical state)
  return state

def load (orders : Orders) (header : DatabaseHeader) : PageProgram Catalog := do
  let state ← loadTables header ⟨∅, ∅, ∅, ∅, ∅⟩
  let state ← loadColumns header state
  let state ← loadIndexColumns header state
  let state ← loadIndexes header state
  let state ← defined (resolveSchemas orders state)
  return .ofTables state.tableById state.tableSchemaById state.tableIdByName

end CatalogLoader

end Catalog

end DanDB
