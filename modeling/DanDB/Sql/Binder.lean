import DanDB.Catalog.Lookup
import DanDB.Record.LiteralValue

/-!
# Binding

The names of a statement become ids and ordinals.  A statement without names that the
catalog knows stays as it is.
-/

namespace DanDB.Sql

open DanDB.Core Record Catalog

structure BoundColumn where
  columnId : ColumnId
  ordinal : UInt64
deriving DecidableEq

structure BoundPredicate where
  column : BoundColumn
  comparisonOperator : ComparisonOperator
  literal : Option LiteralValue
deriving DecidableEq

structure BoundAssignment where
  column : BoundColumn
  value : LiteralValue
deriving DecidableEq

structure BoundSelectStatement where
  tableId : TableId
  projection : List BoundColumn
  predicate : Option BoundPredicate
deriving DecidableEq

structure BoundInsertStatement where
  tableId : TableId
  values : List LiteralValue
deriving DecidableEq

structure BoundUpdateStatement where
  tableId : TableId
  assignment : BoundAssignment
  predicate : Option BoundPredicate
deriving DecidableEq

structure BoundDeleteStatement where
  tableId : TableId
  predicate : Option BoundPredicate
deriving DecidableEq

structure BoundCreateIndexStatement where
  indexName : String
  tableId : TableId
  indexedColumn : BoundColumn
  unique : Bool
deriving DecidableEq

structure BoundDropTableStatement where
  tableId : TableId
  tableName : String
deriving DecidableEq

inductive BoundStatement where
  | createTable (statement : CreateTableStatement)
  | dropTable (statement : BoundDropTableStatement)
  | createIndex (statement : BoundCreateIndexStatement)
  | dropIndex (statement : DropIndexStatement)
  | insert (statement : BoundInsertStatement)
  | select (statement : BoundSelectStatement)
  | update (statement : BoundUpdateStatement)
  | delete (statement : BoundDeleteStatement)
  | begin
  | commit
  | rollback
  | checkpoint
deriving DecidableEq

namespace Binder

/-- `make_binder_error_message` -/
def errorMessage (location : SourceLocation) (message : String) : String :=
  s!"SQL error at line {location.line}, column {location.column}: {message}"

variable (catalog : Catalog)

def bindTable (tableName : Identifier) : Result TableId :=
  match catalog.findTableByName tableName.text with
  | none => .error (.NotFound
    (errorMessage tableName.location s!"Table '{tableName.text}' does not exist"))
  | some table => .ok table.tableId

def bindColumn (tableId : TableId) (columnName : Identifier) : Result BoundColumn :=
  match catalog.findColumnByName tableId columnName.text with
  | none => .error (.NotFound
    (errorMessage columnName.location s!"Column '{columnName.text}' does not exist"))
  | some column => .ok ⟨column.columnId, column.ordinal⟩

/-- The schema of a table that was bound. -/
def boundSchema (tableId : TableId) : Result Schema :=
  match catalog.schemaForTable tableId with
  | none => .error (.InternalError "Resolved table has no schema")
  | some schema => .ok schema

def bindProjection (tableId : TableId) : SelectProjection → Result (List BoundColumn)
  | .all location => do
    let schema ← boundSchema catalog tableId
    schema.columns.mapM fun column => bindColumn catalog tableId ⟨column.name, location⟩
  | .columns columns _ => columns.mapM (bindColumn catalog tableId)

def bindPredicate (tableId : TableId) (predicate : Predicate) : Result BoundPredicate := do
  let column ← bindColumn catalog tableId predicate.columnName
  return ⟨column, predicate.comparisonOperator, predicate.literal.map LiteralExpression.value⟩

/-- `if(statement.predicate.has_value())` -/
def bindWhere (tableId : TableId) : Option Predicate → Result (Option BoundPredicate)
  | none => return none
  | some predicate => do
    let bound ← bindPredicate catalog tableId predicate
    return some bound

def bindAssignment (tableId : TableId) (assignment : Assignment) : Result BoundAssignment := do
  let column ← bindColumn catalog tableId assignment.columnName
  let schema ← boundSchema catalog tableId
  failIf (column.ordinal = schema.primaryKeyOrdinal) (.InvalidArgument
    (errorMessage assignment.columnName.location
      s!"Cannot update primary key column '{assignment.columnName.text}'"))
  return ⟨column, assignment.value.value⟩

def validateNonSystemTable (tableId : TableId) (tableName : Identifier) (action : String) :
    Result Unit :=
  failIf (tableId ∈ [dandbTablesId, dandbColumnsId, dandbIndexesId, dandbIndexColumnsId])
    (.InvalidArgument
      (errorMessage tableName.location s!"Cannot {action} system table '{tableName.text}'"))

def bindSelectStatement (statement : SelectStatement) : Result BoundSelectStatement := do
  let tableId ← bindTable catalog statement.tableName
  let projection ← bindProjection catalog tableId statement.projection
  let predicate ← bindWhere catalog tableId statement.predicate
  return ⟨tableId, projection, predicate⟩

def bindInsertStatement (statement : InsertStatement) : Result BoundInsertStatement := do
  let tableId ← bindTable catalog statement.tableName
  validateNonSystemTable tableId statement.tableName "write to"
  let values := statement.values.map LiteralExpression.value
  let schema ← boundSchema catalog tableId
  failIf (values.length ≠ schema.columns.length) (.InvalidArgument
    (errorMessage statement.location
      (s!"INSERT has {values.length} values but table '{statement.tableName.text}' has " ++
        s!"{schema.columns.length} columns")))
  return ⟨tableId, values⟩

def bindUpdateStatement (statement : UpdateStatement) : Result BoundUpdateStatement := do
  let tableId ← bindTable catalog statement.tableName
  validateNonSystemTable tableId statement.tableName "write to"
  let assignment ← bindAssignment catalog tableId statement.assignment
  let predicate ← bindWhere catalog tableId statement.predicate
  return ⟨tableId, assignment, predicate⟩

def bindDeleteStatement (statement : DeleteStatement) : Result BoundDeleteStatement := do
  let tableId ← bindTable catalog statement.tableName
  validateNonSystemTable tableId statement.tableName "write to"
  let predicate ← bindWhere catalog tableId statement.predicate
  return ⟨tableId, predicate⟩

def bindCreateIndexStatement (statement : CreateIndexStatement) :
    Result BoundCreateIndexStatement := do
  let tableId ← bindTable catalog statement.tableName
  validateNonSystemTable tableId statement.tableName "create an index on"
  let column ← bindColumn catalog tableId statement.columnName
  return ⟨statement.indexName.text, tableId, column, statement.unique⟩

def bindDropTableStatement (statement : DropTableStatement) : Result BoundDropTableStatement := do
  let tableId ← bindTable catalog statement.tableName
  validateNonSystemTable tableId statement.tableName "drop"
  return ⟨tableId, statement.tableName.text⟩

def bind : Statement → Result BoundStatement
  | .select statement => .select <$> bindSelectStatement catalog statement
  | .insert statement => .insert <$> bindInsertStatement catalog statement
  | .update statement => .update <$> bindUpdateStatement catalog statement
  | .delete statement => .delete <$> bindDeleteStatement catalog statement
  | .createIndex statement => .createIndex <$> bindCreateIndexStatement catalog statement
  | .dropTable statement => .dropTable <$> bindDropTableStatement catalog statement
  | .createTable statement => .ok (.createTable statement)
  | .dropIndex statement => .ok (.dropIndex statement)
  | .begin _ => .ok .begin
  | .commit _ => .ok .commit
  | .rollback _ => .ok .rollback
  | .checkpoint _ => .ok .checkpoint

end Binder

end DanDB.Sql
