import DanDB.Execution.Database
import DanDB.Execution.KeyOrder
import DanDB.Execution.PredicateRanges
import DanDB.Record.RowHelpers
import DanDB.Sql.Binder

/-!
# Statements on tables

SELECT, INSERT, UPDATE and DELETE as programs on the pages: they look at the catalog, open
the trees of the table, find the rows along an access path and change the trees.

A statement that changes something has its own transaction, unless there is one already.

`executeStatement` comes from the statement of the parser to its program.
-/

namespace DanDB.Execution

open Buffer DanDB.Core Storage Sql BTree Record Catalog PageProgram
open RowCodec (Failure)
open CatalogLoader (defined)

/-! ## Failures -/

/-- A pointer that is not null. -/
def required {α : Type} (pointer : Option α) (status : Status) : PageProgram α :=
  match pointer with
  | none => Program.fail status
  | some a => return a

def valueErrorFailure (status : Status) (tableName columnName : String) : Status :=
  let message := s!"Invalid value for column '{columnName}' in table '{tableName}': {status.message}"
  if status.code = .invalidArgument then .InvalidArgument message
  else if status.code = .constraintViolation then .ConstraintViolation message
  else status

def duplicateKeyFailure (message : String) (status : Status) : Status :=
  if status.code ≠ .constraintViolation then status else .ConstraintViolation message

/-! ## Predicates -/

/-- `PredicateState` -/
inductive PredicateState where
  | absent
  | impossible
  | nullTest (predicate : BoundPredicate)
  | comparison (predicate : BoundPredicate) (value : Value)

/-- `Schema::column`, which has no column behind the last. -/
def columnAt (schema : Schema) (ordinal : UInt64) : Except Failure Column :=
  match schema.columns[ordinal.toNat]? with
  | none => .error .outOfBounds
  | some column => .ok column

def comparisonMatches (comparison : Int) : ComparisonOperator → Bool
  | .equal => comparison = 0
  | .notEqual => comparison ≠ 0
  | .less => comparison < 0
  | .lessEqual => comparison ≤ 0
  | .greater => comparison > 0
  | .greaterEqual => comparison ≥ 0
  | .isNull | .isNotNull => false

/-- A literal as a value of a column. -/
def convertLiteral (tableName : String) (column : Column) (literal : LiteralValue) : Result Value :=
  (literal.convertTo column.logicalType column.nullable).mapError
    (valueErrorFailure · tableName column.name)

def resolvePredicateState (schema : Schema) (tableName : String) :
    Option BoundPredicate → Except Failure PredicateState
  | none => .ok .absent
  | some predicate =>
    if predicate.comparisonOperator = .isNull ∨ predicate.comparisonOperator = .isNotNull then
      .ok (.nullTest predicate)
    else match predicate.literal with
      | none => .error (.status
        (.InternalError "Cannot prepare predicate: comparison predicate has no literal"))
      | some literal =>
        if literal.isNull then .ok .impossible
        else do
          let predicateColumn ← columnAt schema predicate.column.ordinal
          let predicateValue ←
            (convertLiteral tableName predicateColumn literal).mapError .status
          return .comparison predicate predicateValue

def rowMatchesPredicate (row : Row) : PredicateState → Except Failure Bool
  | .absent => .ok true
  | .impossible => .ok false
  | .nullTest predicate =>
    let rowValue := row.value predicate.column.ordinal
    .ok (if predicate.comparisonOperator = .isNull then rowValue.isNull else !rowValue.isNull)
  | .comparison predicate value =>
    let rowValue := row.value predicate.column.ordinal
    if rowValue.isNull then .ok false
    else match compareValues rowValue value with
      | none => .error .badVariantAccess
      | some comparison => do
        let comparison ← comparison.mapError .status
        return comparisonMatches comparison predicate.comparisonOperator

/-! ## Access paths -/

inductive AccessPath where
  | fullTableScan
  | primaryKeyRange
  | secondaryIndexRange (indexDescriptor : IndexDescriptor)

def planAccessPath (schema : Schema) (indexDescriptors : List IndexDescriptor) :
    PredicateState → AccessPath
  | .comparison predicate _ =>
    if predicate.column.ordinal = schema.primaryKeyOrdinal then .primaryKeyRange
    else
      match indexDescriptors.find? fun indexDescriptor => !indexDescriptor.primary &&
          indexDescriptor.indexedColumnId = predicate.column.columnId with
      | some indexDescriptor => .secondaryIndexRange indexDescriptor
      | none => .fullTableScan
  | _ => .fullTableScan

section Consume

variable {σ : Type} (processTableRow : σ → List Byte → List Byte → PageProgram σ)

def consumeTableCursors (state : σ) : List BTreeCursor → PageProgram σ
  | [] => return state
  | cursor :: cursors => do
    let state ← BTreeCursor.foldEntries BTreeCursor.next
      (fun state entry => processTableRow state entry.key entry.value)
      BTreeCursor.drainLimit cursor state
    consumeTableCursors state cursors

/-- Of each entry of the index, the row that it leads to. -/
def consumeSecondaryIndexCursors (tableTree : BTree) (state : σ) :
    List BTreeCursor → PageProgram σ :=
  consumeTableCursors (fun state _ primaryKey => do
    let tableRow ← tableTree.find primaryKey
    processTableRow state primaryKey tableRow) state

end Consume

/-! ## Trees -/

/-- The size of the keys of a table. -/
def primaryKeySize (schema : Schema) : UInt64 :=
  schema.primaryKeyColumn.elim 0 fun column => column.logicalType.fixedSize

def openTableTree (catalog : Catalog) (tableDescriptor : TableDescriptor) : PageProgram BTree := do
  let schema ← required (catalog.schemaForTable tableDescriptor.tableId)
    (.InternalError "Cannot open table tree: table schema is missing from catalog")
  BTree.openExisting tableDescriptor.rootPageId (primaryKeySize schema).toUInt16.toNat
    schema.rowSize.toUInt16.toNat

def openIndexTree (catalog : Catalog) (indexDescriptor : IndexDescriptor) : PageProgram BTree := do
  Program.failIf (indexDescriptor.primary = true) (.InvalidArgument
    "Cannot open index tree: primary index must be opened as a table tree")
  let schema ← required (catalog.schemaForTable indexDescriptor.tableId)
    (.InternalError "Cannot open index tree: table schema is missing from catalog")
  let indexedColumn ←
    required (catalog.findColumn indexDescriptor.tableId indexDescriptor.indexedColumnId)
      (.InternalError "Cannot open index tree: indexed column is missing from catalog")
  let indexedKeySize := indexedColumn.logicalType.fixedSize
  let keySize := if indexDescriptor.unique then indexedKeySize
    else indexedKeySize + primaryKeySize schema
  BTree.openExisting indexDescriptor.rootPageId keySize.toUInt16.toNat
    (primaryKeySize schema).toUInt16.toNat

/-- A non-unique index has the primary key behind the key of the column. -/
def entryKey (unique : Bool) (indexKey primaryKey : List Byte) : List Byte :=
  if unique then indexKey else indexKey ++ primaryKey

/-- `AffectedIndex` -/
structure AffectedIndex where
  tree : BTree
  indexedColumnOrdinal : UInt64
  unique : Bool

/-- The indexes that a statement has to change: those on a column that it affects. -/
def openAffectedIndexes (verb : String) (catalog : Catalog) (tableId : TableId)
    (affects : UInt64 → Bool) : List IndexDescriptor → PageProgram (List AffectedIndex)
  | [] => return []
  | indexDescriptor :: indexDescriptors =>
    if indexDescriptor.primary then
      openAffectedIndexes verb catalog tableId affects indexDescriptors
    else do
      let indexedColumn ← required (catalog.findColumn tableId indexDescriptor.indexedColumnId)
        (.InternalError s!"Cannot execute {verb}: indexed column is missing from catalog")
      if affects indexedColumn.ordinal then do
        let tree ← openIndexTree catalog indexDescriptor
        let affectedIndexes ←
          openAffectedIndexes verb catalog tableId affects indexDescriptors
        return ⟨tree, indexedColumn.ordinal, indexDescriptor.unique⟩ :: affectedIndexes
      else openAffectedIndexes verb catalog tableId affects indexDescriptors

/-- The visit of the access path, which is the same for SELECT, UPDATE and DELETE. -/
def visitRows {σ : Type} (verb : String) (catalog : Catalog) (tableTree : BTree)
    (predicateState : PredicateState)
    (processTableRow : σ → List Byte → List Byte → PageProgram σ) (state : σ) :
    AccessPath → PageProgram σ
  | .fullTableScan => do
    let cursor ← tableTree.scan
    consumeTableCursors processTableRow state [cursor]
  | .primaryKeyRange =>
    match predicateState with
    | .comparison predicate value => do
      let key ← .done (KeyCodec.encode value)
      let cursors ← openTableCursors tableTree predicate.comparisonOperator key
      consumeTableCursors processTableRow state cursors
    | _ => Program.fail (.InternalError
      s!"Cannot execute {verb}: primary-key access path has no converted literal value")
  | .secondaryIndexRange indexDescriptor =>
    match predicateState with
    | .comparison predicate value => do
      let indexTree ← openIndexTree catalog indexDescriptor
      let key ← .done (KeyCodec.encode value)
      let cursors ← openSecondaryIndexCursors indexTree predicate.comparisonOperator key
      consumeSecondaryIndexCursors processTableRow tableTree state cursors
    | _ => Program.fail (.InternalError
      s!"Cannot execute {verb}: secondary-index access path has no converted literal value")

/-! ## Transactions -/

/-- `handle_mutation_failure` for a statement that has begun a transaction. -/
def handleMutationFailure {α : Type} (order : IterationOrder PageId) (failure : Status) :
    PageProgram α := do
  let _ ← perform ⟨.rollbackTransaction order, trivial⟩
  Program.fail failure

/-- What a statement changes, in a transaction of its own if there is none. -/
def statementTransaction {α : Type} (ownsTransaction : Bool) (order : IterationOrder PageId)
    (body : PageProgram α) : PageProgram α :=
  if ownsTransaction then do
    let _ ← perform ⟨.beginTransaction, trivial⟩
    match ← body.attempt with
    | .error failure => handleMutationFailure order failure
    | .ok result => do
      let _ ← perform ⟨.commitTransaction order, trivial⟩
      return result
  else body

/-! ## SELECT -/

/-- `process_row_bytes` -/
def processRowBytes (projection : List BoundColumn) (schema : Schema)
    (predicateState : PredicateState) (rows : List Row) (rowBytes : List Byte) :
    Except Failure (List Row) := do
  let row ← RowCodec.decode schema rowBytes
  if ← rowMatchesPredicate row predicateState then
    return rows ++ [⟨projection.map fun column => row.value column.ordinal⟩]
  else return rows

def executeSelectStatement (catalog : Catalog) (statement : BoundSelectStatement) :
    PageProgram (ExecutionResult Row) := do
  let tableDescriptor ← required (catalog.findTable statement.tableId)
    (.InternalError "Cannot execute SELECT: bound table is missing from catalog")
  let schema ← required (catalog.schemaForTable statement.tableId)
    (.InternalError "Cannot execute SELECT: bound table has no schema")
  let columns ← defined (statement.projection.mapM fun column => columnAt schema column.ordinal)
  let columnNames := columns.map Column.name
  let predicateState ←
    defined (resolvePredicateState schema tableDescriptor.name statement.predicate)
  match predicateState with
  | .impossible => return ⟨.ok (), none, some ⟨columnNames, []⟩, none⟩
  | _ => do
    let tableTree ← openTableTree catalog tableDescriptor
    let rows ← visitRows "SELECT" catalog tableTree predicateState
      (fun rows _ rowBytes =>
        defined (processRowBytes statement.projection schema predicateState rows rowBytes)) []
      (planAccessPath schema (catalog.indexesForTable statement.tableId) predicateState)
    return ⟨.ok (), none, some ⟨columnNames, rows⟩, none⟩

/-! ## INSERT -/

/-- The loop over the values. -/
def convertValues (tableName : String) : List Column → List LiteralValue → Result (List Value)
  | column :: columns, literal :: literals => do
    let value ← convertLiteral tableName column literal
    let values ← convertValues tableName columns literals
    return value :: values
  | _, _ => return []

/-- One index of the loop over the indexes. -/
def insertIntoIndex (catalog : Catalog) (tableDescriptor : TableDescriptor) (tableId : TableId)
    (schema : Schema) (row : Row) (primaryKeyBytes : List Byte) (indexDescriptor : IndexDescriptor) :
    PageProgram Unit :=
  if indexDescriptor.primary then return ()
  else do
    let indexedColumn ← required (catalog.findColumn tableId indexDescriptor.indexedColumnId)
      (.InternalError "Cannot execute INSERT: indexed column is missing from catalog")
    let indexTree ← openIndexTree catalog indexDescriptor
    let indexKey ← .done (RowHelpers.indexedKeyBytes schema row indexedColumn.ordinal)
    (indexTree.insert (entryKey indexDescriptor.unique indexKey primaryKeyBytes)
      primaryKeyBytes).mapError (duplicateKeyFailure
        (s!"Cannot insert into table '{tableDescriptor.name}': duplicate value for unique column " ++
          s!"'{indexedColumn.name}'"))

def executeInsertStatement (catalog : Catalog) (ownsTransaction : Bool)
    (order : IterationOrder PageId) (statement : BoundInsertStatement) :
    PageProgram (ExecutionResult Row) := do
  let tableDescriptor ← required (catalog.findTable statement.tableId)
    (.InternalError "Cannot execute INSERT: bound table is missing from catalog")
  let schema ← required (catalog.schemaForTable statement.tableId)
    (.InternalError "Cannot execute INSERT: bound table has no schema")
  Program.failIf (statement.values.length ≠ schema.columns.length)
    (.InvalidArgument "Cannot execute INSERT: value count does not match table schema")
  let values ← .done (convertValues tableDescriptor.name schema.columns statement.values)
  let row ← .done (RowHelpers.buildRow schema values)
  let rowBytes ← defined (RowCodec.encode schema row)
  let primaryKeyBytes ← .done (RowHelpers.primaryKeyBytes schema row)
  let tree ← openTableTree catalog tableDescriptor
  statementTransaction ownsTransaction order do
    (tree.insert primaryKeyBytes rowBytes).mapError (duplicateKeyFailure
      s!"Cannot insert into table '{tableDescriptor.name}': duplicate primary key value")
    Program.forEach
      (insertIntoIndex catalog tableDescriptor statement.tableId schema row primaryKeyBytes)
      (catalog.indexesForTable statement.tableId)
    return ⟨.ok (), none, none, some 1⟩

/-! ## UPDATE -/

/-- `PendingIndexUpdate` -/
structure PendingIndexUpdate where
  tree : BTree
  oldKey : List Byte
  newKey : List Byte

/-- The indexes that have another key for the row then. -/
def pendingIndexUpdates (schema : Schema) (row updatedRow : Row) (primaryKey : List Byte) :
    List AffectedIndex → Result (List PendingIndexUpdate)
  | [] => return []
  | affectedIndex :: affectedIndexes => do
    let oldIndexKey ←
      RowHelpers.indexedKeyBytes schema row affectedIndex.indexedColumnOrdinal
    let newIndexKey ←
      RowHelpers.indexedKeyBytes schema updatedRow affectedIndex.indexedColumnOrdinal
    let oldKey := entryKey affectedIndex.unique oldIndexKey primaryKey
    let newKey := entryKey affectedIndex.unique newIndexKey primaryKey
    let pending ← pendingIndexUpdates schema row updatedRow primaryKey affectedIndexes
    return if oldKey = newKey then pending else ⟨affectedIndex.tree, oldKey, newKey⟩ :: pending

/-- What an UPDATE does with the rows that it finds. -/
structure UpdateContext where
  tableName : String
  schema : Schema
  assignmentColumn : Column
  assignmentOrdinal : UInt64
  assignmentValue : Value
  predicateState : PredicateState
  tableTree : BTree
  affectedIndexes : List AffectedIndex

/-- `process_update_candidate` -/
def processUpdateCandidate (update : UpdateContext) (rowsAffected : Nat)
    (primaryKey rowBytes : List Byte) : PageProgram Nat := do
  let row ← defined (RowCodec.decode update.schema rowBytes)
  if ← defined (rowMatchesPredicate row update.predicateState) then do
    let updatedRow ← .done (RowHelpers.replaceNonPrimaryKeyValues update.schema row
      [update.assignmentOrdinal] [update.assignmentValue])
    let updatedRowBytes ← defined (RowCodec.encode update.schema updatedRow)
    let pending ← .done
      (pendingIndexUpdates update.schema row updatedRow primaryKey update.affectedIndexes)
    Program.forEach (fun (pending : PendingIndexUpdate) => pending.tree.erase pending.oldKey)
      pending
    update.tableTree.updateValue primaryKey updatedRowBytes
    Program.forEach (fun (pending : PendingIndexUpdate) =>
      (pending.tree.insert pending.newKey primaryKey).mapError (duplicateKeyFailure
        (s!"Cannot update table '{update.tableName}': duplicate value for unique column " ++
          s!"'{update.assignmentColumn.name}'"))) pending
    return rowsAffected + 1
  else return rowsAffected

/-- The rows along the access path, which are first collected if an index leads to them. -/
def updateRows (catalog : Catalog) (update : UpdateContext) : AccessPath → PageProgram Nat
  | .secondaryIndexRange indexDescriptor => do
    let pendingUpdates ← visitRows "UPDATE" catalog update.tableTree update.predicateState
      (fun pendingUpdates primaryKey rowBytes => return pendingUpdates ++ [(primaryKey, rowBytes)])
      ([] : List (List Byte × List Byte)) (.secondaryIndexRange indexDescriptor)
    pendingUpdates.foldlM (fun rowsAffected pendingUpdate =>
      processUpdateCandidate update rowsAffected pendingUpdate.1 pendingUpdate.2) 0
  | path => visitRows "UPDATE" catalog update.tableTree update.predicateState
    (processUpdateCandidate update) 0 path

def executeUpdateStatement (catalog : Catalog) (ownsTransaction : Bool)
    (order : IterationOrder PageId) (statement : BoundUpdateStatement) :
    PageProgram (ExecutionResult Row) := do
  let tableDescriptor ← required (catalog.findTable statement.tableId)
    (.InternalError "Cannot execute UPDATE: bound table is missing from catalog")
  let schema ← required (catalog.schemaForTable statement.tableId)
    (.InternalError "Cannot execute UPDATE: bound table has no schema")
  let assignmentOrdinal := statement.assignment.column.ordinal
  let assignmentColumn ← defined (columnAt schema assignmentOrdinal)
  let assignmentValue ← .done
    (convertLiteral tableDescriptor.name assignmentColumn statement.assignment.value)
  let predicateState ←
    defined (resolvePredicateState schema tableDescriptor.name statement.predicate)
  match predicateState with
  | .impossible => return ⟨.ok (), none, none, some 0⟩
  | _ => do
    let tableTree ← openTableTree catalog tableDescriptor
    let indexDescriptors := catalog.indexesForTable statement.tableId
    statementTransaction ownsTransaction order do
      let affectedIndexes ← openAffectedIndexes "UPDATE" catalog statement.tableId
        (fun ordinal => ordinal = assignmentOrdinal) indexDescriptors
      let rowsAffected ← updateRows catalog
        ⟨tableDescriptor.name, schema, assignmentColumn, assignmentOrdinal, assignmentValue,
          predicateState, tableTree, affectedIndexes⟩
        (planAccessPath schema indexDescriptors predicateState)
      return ⟨.ok (), none, none, some rowsAffected⟩

/-! ## DELETE -/

/-- `PendingDeletion` -/
structure PendingDeletion where
  primaryKey : List Byte
  row : Row

/-- `process_delete_candidate` -/
def processDeleteCandidate (schema : Schema) (predicateState : PredicateState)
    (pendingDeletions : List PendingDeletion) (primaryKey rowBytes : List Byte) :
    Except Failure (List PendingDeletion) := do
  let row ← RowCodec.decode schema rowBytes
  if ← rowMatchesPredicate row predicateState then
    return pendingDeletions ++ [⟨primaryKey, row⟩]
  else return pendingDeletions

/-- One index of a row that is deleted. -/
def eraseFromIndex (schema : Schema) (pendingDeletion : PendingDeletion)
    (maintainedIndex : AffectedIndex) : PageProgram Unit := do
  let indexKey ← .done (RowHelpers.indexedKeyBytes schema pendingDeletion.row
    maintainedIndex.indexedColumnOrdinal)
  maintainedIndex.tree.erase (entryKey maintainedIndex.unique indexKey pendingDeletion.primaryKey)

def applyDeletion (schema : Schema) (tableTree : BTree) (affectedIndexes : List AffectedIndex)
    (pendingDeletion : PendingDeletion) : PageProgram Unit := do
  Program.forEach (eraseFromIndex schema pendingDeletion) affectedIndexes
  tableTree.erase pendingDeletion.primaryKey

def executeDeleteStatement (catalog : Catalog) (ownsTransaction : Bool)
    (order : IterationOrder PageId) (statement : BoundDeleteStatement) :
    PageProgram (ExecutionResult Row) := do
  let tableDescriptor ← required (catalog.findTable statement.tableId)
    (.InternalError "Cannot execute DELETE: bound table is missing from catalog")
  let schema ← required (catalog.schemaForTable statement.tableId)
    (.InternalError "Cannot execute DELETE: bound table has no schema")
  let predicateState ←
    defined (resolvePredicateState schema tableDescriptor.name statement.predicate)
  match predicateState with
  | .impossible => return ⟨.ok (), none, none, some 0⟩
  | _ => do
    let tableTree ← openTableTree catalog tableDescriptor
    let indexDescriptors := catalog.indexesForTable statement.tableId
    statementTransaction ownsTransaction order do
      let affectedIndexes ← openAffectedIndexes "DELETE" catalog statement.tableId
        (fun _ => true) indexDescriptors
      let pendingDeletions ← visitRows "DELETE" catalog tableTree predicateState
        (fun pendingDeletions primaryKey rowBytes =>
          defined (processDeleteCandidate schema predicateState pendingDeletions primaryKey rowBytes))
        [] (planAccessPath schema indexDescriptors predicateState)
      Program.forEach (applyDeletion schema tableTree affectedIndexes) pendingDeletions
      return ⟨.ok (), none, none, some pendingDeletions.length⟩

/-! ## BEGIN, COMMIT, ROLLBACK and CHECKPOINT -/

/-- A call to the pager, and what is said if it succeeds. -/
def performStatement (c : PageCall) (successMessage : String) :
    PageProgram (ExecutionResult Row) := do
  perform c
  return ⟨.ok (), some successMessage, none, none⟩

def executeBeginStatement : PageProgram (ExecutionResult Row) :=
  performStatement ⟨.beginTransaction, trivial⟩ "Transaction started"

def executeCommitStatement (order : IterationOrder PageId) : PageProgram (ExecutionResult Row) :=
  performStatement ⟨.commitTransaction order, trivial⟩ "Transaction committed"

def executeRollbackStatement (order : IterationOrder PageId) : PageProgram (ExecutionResult Row) :=
  performStatement ⟨.rollbackTransaction order, trivial⟩ "Transaction rolled back"

def executeCheckpointStatement (order : IterationOrder PageId) :
    PageProgram (ExecutionResult Row) :=
  performStatement ⟨.checkpoint order, trivial⟩ "Checkpoint completed"

/-! ## Any statement -/

/-- `std::holds_alternative<sql::RollbackStatement>(statement)` -/
def isRollbackStatement : Statement → Bool
  | .rollback _ => true
  | _ => false

/-- What `execute_statement` asks of the transaction first. -/
def checkTransaction (state : TransactionState) (statement : Statement) : Result Unit := do
  failIf (state.isUnresolved = true) Database.unresolvedStatus
  failIf (state.isFailed = true ∧ isRollbackStatement statement = false) (.TransactionError
    "Cannot execute statement: transaction is failed; rollback is required")

/-- The statements on rows and those on the transaction; a change of the catalog has no program
here.  Until `in_transaction()` is asked for, a statement has only read. -/
def executeBoundStatement (catalog : Catalog) (order : IterationOrder PageId)
    (inTransaction : Bool) : BoundStatement → Option (PageProgram (ExecutionResult Row))
  | .createTable _ | .createIndex _ | .dropIndex _ | .dropTable _ => none
  | .select statement => some (executeSelectStatement catalog statement)
  | .insert statement => some (executeInsertStatement catalog (!inTransaction) order statement)
  | .update statement => some (executeUpdateStatement catalog (!inTransaction) order statement)
  | .delete statement => some (executeDeleteStatement catalog (!inTransaction) order statement)
  | .begin => some executeBeginStatement
  | .commit => some (executeCommitStatement order)
  | .rollback => some (executeRollbackStatement order)
  | .checkpoint => some (executeCheckpointStatement order)

/-- `execute_statement`, with the catalog that it sees. -/
def executeStatement (catalog : Catalog) (order : IterationOrder PageId) (state : TransactionState)
    (statement : Statement) : Option (PageProgram (ExecutionResult Row)) :=
  match checkTransaction state statement >>= fun _ => Binder.bind catalog statement with
  | .error status => some (Program.fail status)
  | .ok boundStatement =>
    executeBoundStatement catalog order state.inTransaction boundStatement

end DanDB.Execution
