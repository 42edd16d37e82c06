import DanDB.Storage.Crash
import DanDB.Storage.SessionUnresolved

/-!
# Executing a text

A database is a pager and a catalog.  A text goes through the lexer and the
parser, and its statements are executed one after the other until one fails.
The `Engine` is what lies behind: how a text becomes statements, and what a
statement does once it is let through.
-/

namespace DanDB.Execution

open DanDB.Core Platform Storage Wal

structure RowSet (Row : Type) where
  columnNames : List String
  rows : List Row

structure ExecutionResult (Row : Type) where
  status : Result Unit
  successMessage : Option String
  rowSet : Option (RowSet Row)
  rowsAffected : Option Nat

/-- The result of a statement that failed. -/
def ExecutionResult.failed {Row : Type} (status : Status) : ExecutionResult Row :=
  ⟨.error status, none, none, none⟩

structure Database (Catalog : Type) where
  pager : Pager
  catalog : Catalog

/-- The language of a database. -/
structure Engine (Catalog Statement BoundStatement Row : Type) where
  /-- The lexer and the parser. -/
  parse : String → Result (List Statement)
  isRollback : Statement → Bool
  /-- The binder. -/
  bind : Catalog → Statement → Result BoundStatement
  /-- The `execute_..._statement` of the kind of the statement. -/
  run : BoundStatement → Database Catalog → ExecutionResult Row × Database Catalog

namespace Database

variable {Catalog Statement BoundStatement Row : Type}
  (engine : Engine Catalog Statement BoundStatement Row)

/-- `if(pager_->in_transaction()) pager_->mark_transaction_failed();` -/
def failTransaction (db : Database Catalog) : Database Catalog :=
  if db.pager.transactionState.inTransaction then
    { db with pager := (Pager.markTransactionFailed.run db.pager).2 }
  else db

def unresolvedStatus : Status := .TransactionError
  "Cannot execute statement: transaction is unresolved; close and reopen the database to recover"

def executeStatement (statement : Statement) (db : Database Catalog) :
    ExecutionResult Row × Database Catalog :=
  if db.pager.transactionState.isUnresolved then
    (.failed unresolvedStatus, db)
  else if db.pager.transactionState.isFailed && !engine.isRollback statement then
    (.failed (.TransactionError
      "Cannot execute statement: transaction is failed; rollback is required"), db)
  else
    match engine.bind db.catalog statement with
    | .error status => (.failed status, db)
    | .ok boundStatement => engine.run boundStatement db

/-- The loop of `execute`, which stops at the first statement that fails. -/
def executeStatements (db : Database Catalog) :
    List Statement → List (ExecutionResult Row) × Database Catalog
  | [] => ([], db)
  | statement :: statements =>
    let executed := executeStatement engine statement db
    match executed.1.status with
    | .error _ => ([executed.1], executed.2.failTransaction)
    | .ok _ =>
      let rest := executeStatements executed.2 statements
      (executed.1 :: rest.1, rest.2)

def execute (sql : String) (db : Database Catalog) :
    List (ExecutionResult Row) × Database Catalog :=
  if db.pager.transactionState.isUnresolved then
    ([.failed unresolvedStatus], db)
  else
    match engine.parse sql with
    | .error status =>
      ([.failed status], if status.code ≠ .incompleteInput then db.failTransaction else db)
    | .ok statements => executeStatements engine db statements

/-- While the outcome of a transaction is open, no text is executed. -/
theorem execute_unresolved {db : Database Catalog}
    (h : db.pager.transactionState.status = .unresolved) (sql : String) :
    execute engine sql db = ([.failed unresolvedStatus], db) :=
  if_pos (TransactionState.isUnresolved_eq_true.mpr h)

end Database

/-! ## A commit that fails -/

section Unresolved

open Session

variable {Catalog Statement BoundStatement Row : Type}

end Unresolved

end DanDB.Execution
