import DanDB.Catalog.Descriptors
import DanDB.Record.Schema

/-!
# System tables

The catalog is stored in four tables of its own.
-/

namespace DanDB.Catalog

open DanDB.Core Record

def dandbTablesName : String := "dandb_tables"
def dandbColumnsName : String := "dandb_columns"
def dandbIndexesName : String := "dandb_indexes"
def dandbIndexColumnsName : String := "dandb_index_columns"

def dandbTablesId : TableId := 1
def dandbColumnsId : TableId := 2
def dandbIndexesId : TableId := 3
def dandbIndexColumnsId : TableId := 4

def dandbTablesPrimaryIndexId : IndexId := 1
def dandbColumnsPrimaryIndexId : IndexId := 2
def dandbIndexesPrimaryIndexId : IndexId := 3
def dandbIndexColumnsPrimaryIndexId : IndexId := 4

def catalogNameCapacity : UInt64 := 256

namespace SystemTables

/-- `append_column` -/
def appendColumn (columns : List Column) (name : String) (logicalType : LogicalType)
    (nullable pk unique : Bool) : Result (List Column) := do
  let column ← Column.create name logicalType nullable pk unique
  return columns ++ [column]

def tablesSchema : Result Schema := do
  let columns ← appendColumn [] "table_id" .int64 false true true
  let nameType ← LogicalType.ofCapacity catalogNameCapacity
  let columns ← appendColumn columns "name" nameType false false true
  let columns ← appendColumn columns "root_page_id" .int64 false false false
  Schema.create columns

def columnsSchema : Result Schema := do
  let columns ← appendColumn [] "column_id" .int64 false true true
  let columns ← appendColumn columns "table_id" .int64 false false false
  let nameType ← LogicalType.ofCapacity catalogNameCapacity
  let columns ← appendColumn columns "name" nameType false false false
  let columns ← appendColumn columns "type_kind" .int8 false false false
  let columns ← appendColumn columns "type_capacity" .int64 true false false
  let columns ← appendColumn columns "ordinal" .int64 false false false
  let columns ← appendColumn columns "nullable" .boolean false false false
  let columns ← appendColumn columns "primary_key" .boolean false false false
  let columns ← appendColumn columns "unique" .boolean false false false
  Schema.create columns

def indexesSchema : Result Schema := do
  let columns ← appendColumn [] "index_id" .int64 false true true
  let columns ← appendColumn columns "table_id" .int64 false false false
  let nameType ← LogicalType.ofCapacity catalogNameCapacity
  let columns ← appendColumn columns "name" nameType false false false
  let columns ← appendColumn columns "root_page_id" .int64 false false false
  let columns ← appendColumn columns "unique" .boolean false false false
  let columns ← appendColumn columns "primary" .boolean false false false
  let columns ← appendColumn columns "internal" .boolean false false false
  Schema.create columns

/-- An index is on one column, so its id is enough for a key. -/
def indexColumnsSchema : Result Schema := do
  let columns ← appendColumn [] "index_id" .int64 false true true
  let columns ← appendColumn columns "column_id" .int64 false false false
  let columns ← appendColumn columns "ordinal" .int64 false false false
  Schema.create columns

/-! ## What the schemas are -/

def nameType : LogicalType := .string ⟨catalogNameCapacity, by decide⟩

def tables : Schema :=
  ⟨[⟨"table_id", .int64, false, true, true, 0, 1⟩, ⟨"name", nameType, false, false, true, 1, 9⟩,
    ⟨"root_page_id", .int64, false, false, false, 2, 265⟩], 0, 273, 1⟩

def columns : Schema :=
  ⟨[⟨"column_id", .int64, false, true, true, 0, 2⟩, ⟨"table_id", .int64, false, false, false, 1, 10⟩,
    ⟨"name", nameType, false, false, false, 2, 18⟩, ⟨"type_kind", .int8, false, false, false, 3, 274⟩,
    ⟨"type_capacity", .int64, true, false, false, 4, 275⟩,
    ⟨"ordinal", .int64, false, false, false, 5, 283⟩,
    ⟨"nullable", .boolean, false, false, false, 6, 291⟩,
    ⟨"primary_key", .boolean, false, false, false, 7, 292⟩,
    ⟨"unique", .boolean, false, false, false, 8, 293⟩], 0, 294, 2⟩

def indexes : Schema :=
  ⟨[⟨"index_id", .int64, false, true, true, 0, 1⟩, ⟨"table_id", .int64, false, false, false, 1, 9⟩,
    ⟨"name", nameType, false, false, false, 2, 17⟩,
    ⟨"root_page_id", .int64, false, false, false, 3, 273⟩,
    ⟨"unique", .boolean, false, false, false, 4, 281⟩,
    ⟨"primary", .boolean, false, false, false, 5, 282⟩,
    ⟨"internal", .boolean, false, false, false, 6, 283⟩], 0, 284, 1⟩

def indexColumns : Schema :=
  ⟨[⟨"index_id", .int64, false, true, true, 0, 1⟩, ⟨"column_id", .int64, false, false, false, 1, 9⟩,
    ⟨"ordinal", .int64, false, false, false, 2, 17⟩], 0, 25, 1⟩

theorem tablesSchema_eq : tablesSchema = .ok tables := by decide

theorem columnsSchema_eq : columnsSchema = .ok columns := by decide

theorem indexesSchema_eq : indexesSchema = .ok indexes := by decide

theorem indexColumnsSchema_eq : indexColumnsSchema = .ok indexColumns := by decide

end SystemTables

end DanDB.Catalog
