import DanDB.Execution.Database
import DanDB.Sql.Texts

/-!
# Statements executed

Which statements of a text `Database::execute` comes to, and what it makes of a text
in two parts.
-/

namespace DanDB.Execution

open DanDB.Core Storage Sql

/-- `std::holds_alternative<RollbackStatement>` -/
def isRollback : Statement → Bool
  | .rollback _ => true
  | _ => false

section

variable {Catalog BoundStatement Row : Type}

/-- The engine of a binder and of what it binds statements to. -/
def sqlEngine (bind : Catalog → Statement → Result BoundStatement)
    (run : BoundStatement → Database Catalog → ExecutionResult Row × Database Catalog) :
    Engine Catalog Statement BoundStatement Row :=
  ⟨statementsOf, isRollback, bind, run⟩

/-- A statement that succeeds does the same wherever it stands in a text. -/
def Engine.IgnoresLocations (engine : Engine Catalog Statement BoundStatement Row) : Prop :=
  ∀ statement f db, (Database.executeStatement engine statement db).1.status = .ok () →
    Database.executeStatement engine (statement.relocate f) db =
      Database.executeStatement engine statement db

end

namespace Database

variable {Catalog Statement BoundStatement Row : Type}
  (engine : Engine Catalog Statement BoundStatement Row)

/-- The statements of a text that are executed, each with its result. -/
def executed (sql : String) (db : Database Catalog) : List (Statement × ExecutionResult Row) :=
  if db.pager.transactionState.isUnresolved then []
  else
    match engine.parse sql with
    | .error _ => []
    | .ok statements => statements.zip (executeStatements engine db statements).1

/-- No result is that of a statement that failed. -/
def Succeed (results : List (ExecutionResult Row)) : Prop :=
  ∀ result ∈ results, result.status = .ok ()

variable {engine} {db : Database Catalog} {statements more : List Statement} {sql : String}

/-- The first statement and the others of some that all succeed. -/
theorem succeed_cons {statement : Statement}
    (h : Succeed (executeStatements engine db (statement :: statements)).1) :
    (executeStatement engine statement db).1.status = .ok () ∧
      Succeed (executeStatements engine (executeStatement engine statement db).2 statements).1 ∧
      executeStatements engine db (statement :: statements) =
        ((executeStatement engine statement db).1 ::
            (executeStatements engine (executeStatement engine statement db).2 statements).1,
          (executeStatements engine (executeStatement engine statement db).2 statements).2) := by
  rw [executeStatements] at h ⊢
  dsimp only at h ⊢
  cases hstatus : (executeStatement engine statement db).1.status with
  | error status =>
    rw [hstatus] at h
    have hok := h _ (List.mem_singleton_self _)
    rw [hstatus] at hok
    cases hok
  | ok _ =>
    rw [hstatus] at h
    exact ⟨rfl, fun result hmem => h result (List.mem_cons_of_mem _ hmem), rfl⟩

/-- Statements that all succeed are all executed. -/
theorem length_executeStatements (h : Succeed (executeStatements engine db statements).1) :
    (executeStatements engine db statements).1.length = statements.length := by
  induction statements generalizing db with
  | nil => rfl
  | cons statement statements ih =>
    obtain ⟨-, hrest, heq⟩ := succeed_cons h
    rw [heq, List.length_cons, ih hrest, List.length_cons]

/-- All results are those of statements executed. -/
theorem succeed_of_zip (h : ∀ entry ∈ statements.zip (executeStatements engine db statements).1,
    entry.2.status = .ok ()) : Succeed (executeStatements engine db statements).1 := by
  induction statements generalizing db with
  | nil => exact nofun
  | cons statement statements ih =>
    rw [executeStatements] at h ⊢
    dsimp only at h ⊢
    cases hstatus : (executeStatement engine statement db).1.status with
    | error status =>
      rw [hstatus] at h
      have hok := h (statement, _) (List.mem_cons_self ..)
      rw [hstatus] at hok
      cases hok
    | ok _ =>
      rw [hstatus] at h
      intro result hmem
      cases List.mem_cons.mp hmem with
      | inl heq => exact heq ▸ hstatus
      | inr hmem => exact ih (fun entry hentry => h entry (List.mem_cons_of_mem _ hentry)) _ hmem

/-- More statements are executed behind some that succeed. -/
theorem executeStatements_append (h : Succeed (executeStatements engine db statements).1) :
    executeStatements engine db (statements ++ more) =
      ((executeStatements engine db statements).1 ++
          (executeStatements engine (executeStatements engine db statements).2 more).1,
        (executeStatements engine (executeStatements engine db statements).2 more).2) := by
  induction statements generalizing db with
  | nil => rfl
  | cons statement statements ih =>
    obtain ⟨hok, hrest, heq⟩ := succeed_cons h
    rw [heq, List.cons_append, executeStatements]
    dsimp only
    rw [hok]
    dsimp only
    rw [ih hrest]
    rfl

/-- A text that is not complete is not executed. -/
theorem execute_incomplete (db : Database Catalog) {status : Status} (h : engine.parse sql = .error status)
    (hcode : status.code = .incompleteInput) :
    (execute engine sql db).2 = db ∧ executed engine sql db = [] ∧
      (db.pager.transactionState.isUnresolved = false →
        (execute engine sql db).1 = [.failed status]) := by
  rw [execute, executed, h]
  cases hunresolved : db.pager.transactionState.isUnresolved with
  | true => exact ⟨rfl, rfl, nofun⟩
  | false => exact ⟨if_neg (not_not.mpr hcode), rfl, fun _ => rfl⟩

theorem execute_complete (h : engine.parse sql = .ok statements)
    (hopen : db.pager.transactionState.isUnresolved = false) :
    execute engine sql db = executeStatements engine db statements ∧
      executed engine sql db = statements.zip (executeStatements engine db statements).1 := by
  rw [execute, executed, h, hopen]
  exact ⟨rfl, rfl⟩

end Database

/-- Statements that all succeed do the same in another place. -/
theorem Engine.IgnoresLocations.executeStatements {Catalog BoundStatement Row : Type}
    {engine : Engine Catalog Statement BoundStatement Row} (h : engine.IgnoresLocations)
    (f : SourceLocation → SourceLocation) {statements : List Statement} {db : Database Catalog}
    (hok : Database.Succeed (Database.executeStatements engine db statements).1) :
    Database.executeStatements engine db (statements.map (Statement.relocate f)) =
      Database.executeStatements engine db statements := by
  induction statements generalizing db with
  | nil => rfl
  | cons statement statements ih =>
    obtain ⟨hfirst, hrest, heq⟩ := Database.succeed_cons hok
    rw [heq, List.map_cons, Database.executeStatements, h statement f db hfirst]
    dsimp only
    rw [hfirst]
    dsimp only
    rw [ih hrest]

end DanDB.Execution
