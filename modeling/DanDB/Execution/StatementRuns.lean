import DanDB.BTree.StoreKept
import DanDB.Execution.Statements
import DanDB.Lib.ProgramRuns
import DanDB.Storage.Scripts
import DanDB.Storage.VersionStore

/-!
# Statements and the versions of the database

What a statement makes of the trees and the pages, whatever these hold:

* a SELECT only reads,
* a change of rows within a transaction commits nothing,
* a change of rows that has its own transaction commits what it has made of the pages if it
  succeeds, and nothing if it fails.
-/

namespace DanDB.Execution

open DanDB.Core Storage Sql BTree Record Catalog Program PageProgram Buffer
open RowCodec (Failure)
open CatalogLoader (defined)

/-! ## Calls of the parts -/

section Parts

variable {α : Type} {allowed : PageCall → Prop}

@[grind ←] theorem only_required (pointer : Option α) (status : Status) :
    (required pointer status).Only allowed := by
  cases pointer <;> trivial

@[grind ←] theorem only_defined (x : Except Failure α) : (defined x).Only allowed := by
  match x with
  | .ok a => trivial
  | .error (.status status) => trivial
  | .error .outOfBounds => trivial
  | .error .badVariantAccess => trivial
  | .error .lengthError => trivial

/-- Other words for an error are no other calls. -/
@[grind ←] theorem only_mapError {x : PageProgram α} (h : x.Only allowed) (f : Status → Status) :
    (x.mapError f).Only allowed := h.attempt.bind fun _ => only_done _

/-- To open a tree reads its root. -/
@[grind ←] theorem reads_openTableTree (catalog : Catalog) (tableDescriptor : TableDescriptor) :
    (openTableTree catalog tableDescriptor).Only PageCall.Reads :=
  (only_required ..).bind fun _ => reads_openExisting ..

@[grind ←] theorem reads_openIndexTree (catalog : Catalog) (indexDescriptor : IndexDescriptor) :
    (openIndexTree catalog indexDescriptor).Only PageCall.Reads :=
  (only_failIf ..).bind fun _ => (only_required ..).bind fun _ =>
    (only_required ..).bind fun _ => reads_openExisting ..

@[grind ←] theorem reads_openCursors (tree : BTree) (comparisonOperator : ComparisonOperator)
    (key : List Byte) (nextKey : Option (List Byte)) :
    (openCursors tree comparisonOperator key nextKey).Only PageCall.Reads := by
  unfold openCursors
  grind

@[grind ←] theorem reads_openTableCursors (tree : BTree) (comparisonOperator : ComparisonOperator)
    (key : List Byte) : (openTableCursors tree comparisonOperator key).Only PageCall.Reads :=
  reads_openCursors ..

@[grind ←] theorem reads_openSecondaryIndexCursors (tree : BTree)
    (comparisonOperator : ComparisonOperator) (indexedKeyPrefix : List Byte) :
    (openSecondaryIndexCursors tree comparisonOperator indexedKeyPrefix).Only PageCall.Reads :=
  (only_failIf ..).bind fun _ => reads_openCursors ..

end Parts

/-! ## The visit of the rows -/

section Visit

variable {σ : Type} {allowed : PageCall → Prop} (hreads : ∀ c, c.Reads → allowed c)
  {processTableRow : σ → List Byte → List Byte → PageProgram σ}
  (hprocess : ∀ state key value, (processTableRow state key value).Only allowed)

include hreads hprocess

/-- A table is read row by row; what is done with a row is up to the statement. -/
theorem only_consumeTableCursors (state : σ) (cursors : List BTreeCursor) :
    (consumeTableCursors processTableRow state cursors).Only allowed := by
  induction cursors generalizing state with
  | nil => trivial
  | cons cursor cursors ih =>
    exact (only_foldEntries hreads (fun state entry => hprocess state entry.key entry.value)
      _ cursor state).bind fun state => ih state

theorem only_consumeSecondaryIndexCursors (tableTree : BTree) (state : σ)
    (cursors : List BTreeCursor) :
    (consumeSecondaryIndexCursors processTableRow tableTree state cursors).Only allowed :=
  only_consumeTableCursors hreads (fun state _ primaryKey =>
    ((reads_find primaryKey).mono hreads).bind fun tableRow =>
      hprocess state primaryKey tableRow) state cursors

/-- A visit makes the calls that its reading needs and those for a row. -/
theorem only_visitRows (verb : String) (catalog : Catalog) (tableTree : BTree)
    (predicateState : PredicateState) (state : σ) (path : AccessPath) :
    (visitRows verb catalog tableTree predicateState processTableRow state path).Only allowed := by
  cases path with
  | fullTableScan =>
    exact ((reads_scanRange ..).mono hreads).bind fun cursor =>
      only_consumeTableCursors hreads hprocess state [cursor]
  | primaryKeyRange =>
    cases predicateState with
    | comparison predicate value =>
      exact (only_done _).bind fun key => ((reads_openTableCursors ..).mono hreads).bind
        fun cursors => only_consumeTableCursors hreads hprocess state cursors
    | _ => trivial
  | secondaryIndexRange indexDescriptor =>
    cases predicateState with
    | comparison predicate value =>
      exact ((reads_openIndexTree ..).mono hreads).bind fun indexTree =>
        (only_done _).bind fun key => ((reads_openSecondaryIndexCursors ..).mono hreads).bind
          fun cursors => only_consumeSecondaryIndexCursors hreads hprocess tableTree state cursors
    | _ => trivial

end Visit

/-! ## Statements -/

/-- A SELECT only reads, on every access path. -/
theorem reads_executeSelectStatement (catalog : Catalog) (statement : BoundSelectStatement) :
    (executeSelectStatement catalog statement).Only PageCall.Reads := by
  refine (only_required ..).bind fun tableDescriptor => (only_required ..).bind fun schema =>
    (only_defined _).bind fun columns => (only_defined _).bind fun predicateState => ?_
  have hvisit (predicateState : PredicateState) (path : AccessPath) (tableTree : BTree) :
      (visitRows "SELECT" catalog tableTree predicateState (fun rows _ rowBytes =>
        defined (processRowBytes statement.projection schema predicateState rows rowBytes)) []
        path).Only PageCall.Reads :=
    only_visitRows (fun _ => id) (fun _ _ _ => only_defined _) ..
  cases predicateState with
  | impossible => trivial
  | _ =>
    exact (reads_openTableTree ..).bind fun tableTree =>
      (hvisit _ _ tableTree).bind fun rows => only_pure _

/-- An index gets its entry in the tree, -/
theorem only_insertIntoIndex (catalog : Catalog) (tableDescriptor : TableDescriptor)
    (tableId : TableId) (schema : Schema) (row : Row) (primaryKeyBytes : List Byte)
    (indexDescriptor : IndexDescriptor) :
    (insertIntoIndex catalog tableDescriptor tableId schema row primaryKeyBytes
      indexDescriptor).Only PageCall.KeepsStore := by
  unfold insertIntoIndex
  split
  · trivial
  · exact (only_required ..).bind fun indexedColumn =>
      (keepsStore_of_reads (reads_openIndexTree ..)).bind fun indexTree =>
        (only_done _).bind fun indexKey => only_mapError (only_insert ..) _

theorem reads_openAffectedIndexes (verb : String) (catalog : Catalog) (tableId : TableId)
    (affects : UInt64 → Bool) (indexDescriptors : List IndexDescriptor) :
    (openAffectedIndexes verb catalog tableId affects indexDescriptors).Only PageCall.Reads := by
  induction indexDescriptors with
  | nil => trivial
  | cons indexDescriptor indexDescriptors ih =>
    unfold openAffectedIndexes
    split
    · exact ih
    · refine (only_required ..).bind fun indexedColumn => ?_
      split
      · exact (reads_openIndexTree ..).bind fun tree => ih.bind fun _ => only_pure _
      · exact ih

/-- a row is replaced in the trees, -/
theorem only_processUpdateCandidate (update : UpdateContext) (rowsAffected : Nat)
    (primaryKey rowBytes : List Byte) :
    (processUpdateCandidate update rowsAffected primaryKey rowBytes).Only
      PageCall.KeepsStore := by
  refine (only_defined _).bind fun row => (only_defined _).bind fun matchesPredicate => ?_
  split
  · exact (only_done _).bind fun updatedRow => (only_defined _).bind fun updatedRowBytes =>
      (only_done _).bind fun pending => (only_forEach (fun _ => only_erase _) _).bind fun _ =>
        (only_updateValue ..).bind fun _ =>
          (only_forEach (fun _ => only_mapError (only_insert ..) _) _).bind fun _ => only_pure _
  · trivial

theorem only_updateRows (catalog : Catalog) (update : UpdateContext) (path : AccessPath) :
    (updateRows catalog update path).Only PageCall.KeepsStore := by
  have hvisit (path : AccessPath) : (visitRows "UPDATE" catalog update.tableTree
      update.predicateState (processUpdateCandidate update) 0 path).Only PageCall.KeepsStore :=
    only_visitRows (fun _ => PageCall.Reads.keepsStore) (only_processUpdateCandidate update) ..
  have happly (pendingUpdates : List (List Byte × List Byte)) (rowsAffected : Nat) :
      (pendingUpdates.foldlM (fun rowsAffected pendingUpdate => processUpdateCandidate update
        rowsAffected pendingUpdate.1 pendingUpdate.2) rowsAffected : PageProgram Nat).Only
        PageCall.KeepsStore := by
    induction pendingUpdates generalizing rowsAffected with
    | nil => trivial
    | cons pendingUpdate pendingUpdates ih =>
      rw [List.foldlM_cons]
      exact (only_processUpdateCandidate ..).bind fun rowsAffected => ih rowsAffected
  cases path with
  | secondaryIndexRange indexDescriptor =>
    exact (only_visitRows (fun _ => PageCall.Reads.keepsStore) (fun _ _ _ => only_pure _) ..).bind
      fun pendingUpdates => happly pendingUpdates 0
  | fullTableScan =>
    rw [updateRows]
    · exact hvisit _
    · rintro _ ⟨⟩
  | primaryKeyRange =>
    rw [updateRows]
    · exact hvisit _
    · rintro _ ⟨⟩

/-- or erased from them. -/
theorem only_applyDeletion (schema : Schema) (tableTree : BTree)
    (affectedIndexes : List AffectedIndex) (pendingDeletion : PendingDeletion) :
    (applyDeletion schema tableTree affectedIndexes pendingDeletion).Only PageCall.KeepsStore :=
  (only_forEach (fun _ => (only_done _).bind fun _ => only_erase _) _).bind fun _ => only_erase _

/-! ## Versions -/

/-- A call to the pager. -/
def PageStep (s : Session) (c : PageCall) (r : Reply) (s' : Session) : Prop := s.Step c.1 r s'

/-- What has become of the versions when a statement ends: one more, or the same.  A version
that is more has the pages that the transaction showed when the statement, having changed no
file before, made its last call, the commit. -/
inductive Settled (ownsTransaction : Bool) (ledger : Ledger) (s : Session)
    (calls : List (PageCall × Reply)) (s' : Session) : Except Status (ExecutionResult Row) → Prop
  | fails {status : Status} (hrecorded : ∃ log, s'.Recorded ledger log) :
    Settled ownsTransaction ledger s calls s' (.error status)
  | unchanged {result : ExecutionResult Row} (hrecorded : ∃ log, s'.Recorded ledger log)
    (hresult : ownsTransaction = false ∨ result.rowsAffected = some 0) :
    Settled ownsTransaction ledger s calls s' (.ok result)
  | commits {result : ExecutionResult Row} {before : List (PageCall × Reply)} {t : Session}
    {order : IterationOrder PageId} {page : Option Page} (howns : ownsTransaction = true)
    (hbefore : Runs PageStep s before t) (hkeeps : ∀ entry ∈ before, entry.1.KeepsStore)
    (hcommit : t.Step (.commitTransaction order) (.ok page) s')
    (hcalls : calls = before ++ [(⟨.commitTransaction order, trivial⟩, .ok page)])
    (hrecorded : ∃ log, s'.Recorded (ledger ++ [(s'.walSize, t.abs.flat.active)]) log) :
    Settled ownsTransaction ledger s calls s' (.ok result)

/-- Every run of the program ends so. -/
def Settles (ownsTransaction : Bool) (x : PageProgram (ExecutionResult Row)) : Prop :=
  ∀ s s' calls r ledger, (∃ log, s.Recorded ledger log) →
    x.run Session.machine s = some (calls, r, s') → Settled ownsTransaction ledger s calls s' r

section Settles

variable {α : Type} {ownsTransaction : Bool} {x : PageProgram α}

/-- What is refused commits nothing, -/
theorem settles_fail (status : Status) : Settles ownsTransaction (fail status) := by
  rintro s s' calls r ledger hrecorded hrun
  cases hrun
  exact .fails hrecorded

/-- and neither does what finds no rows. -/
theorem settles_pure {result : ExecutionResult Row} (hresult : result.rowsAffected = some 0) :
    Settles ownsTransaction (pure result) := by
  rintro s s' calls r ledger hrecorded hrun
  cases hrun
  exact .unchanged hrecorded (.inr hresult)

/-- Calls before that write to no file. -/
theorem Settled.after {s s₁ s' : Session} {ledger : Ledger} {calls₁ calls : List (PageCall × Reply)}
    {r : Except Status (ExecutionResult Row)} (h : Settled ownsTransaction ledger s₁ calls s' r)
    (hruns : Runs PageStep s calls₁ s₁) (hkeeps₁ : ∀ entry ∈ calls₁, entry.1.KeepsStore) :
    Settled ownsTransaction ledger s (calls₁ ++ calls) s' r := by
  cases h with
  | fails hrecorded => exact .fails hrecorded
  | unchanged hrecorded hresult => exact .unchanged hrecorded hresult
  | commits howns hbefore hkeeps hcommit hcalls hrecorded =>
    refine .commits howns (hruns.append hbefore) (List.forall_mem_append.mpr ⟨hkeeps₁, hkeeps⟩)
      hcommit ?_ hrecorded
    rw [hcalls, List.append_assoc]

/-- What goes before may fail and writes to no file. -/
theorem settles_bind {f : α → PageProgram (ExecutionResult Row)}
    (hx : x.Only PageCall.KeepsStore) (hf : ∀ a, Settles ownsTransaction (f a)) :
    Settles ownsTransaction (x >>= f) := by
  rintro s s' calls r ledger hrecorded hrun
  obtain ⟨calls₁, r₁, s₁, hfirst, hcases⟩ := run_bind_cases hrun
  have hrecorded₁ := Session.Recorded.run_keepsStore hrecorded hx hfirst
  obtain ⟨e, -, rfl, rfl, -⟩ | ⟨a, calls₂, -, hrest, rfl⟩ := hcases
  · exact .fails hrecorded₁
  · exact (hf a _ _ _ _ _ hrecorded₁ hrest).after (runs_of_run hfirst) (hx.mem_trace hfirst)

/-- A single call is a step of the session. -/
theorem run_perform {c : PageCall} {s s' : Session} {calls : List (PageCall × Reply)}
    {r : Except Status Unit} (hrun : (perform c).run Session.machine s = some (calls, r, s')) :
    ∃ reply, s.Step c.1 reply s' ∧ calls = [(c, reply)] ∧ r = reply.map fun _ => () := by
  obtain ⟨⟨reply, t⟩, hcall, hrun⟩ := Option.bind_eq_some_iff.mp hrun
  cases hrun
  exact ⟨reply, hcall, rfl, rfl⟩

/-- A call at the end of a statement. -/
theorem run_perform_bind {c : PageCall} {result : ExecutionResult Row} {s s' : Session}
    {calls : List (PageCall × Reply)} {r : Except Status (ExecutionResult Row)}
    (hrun : (perform c >>= fun _ => return result).run Session.machine s = some (calls, r, s')) :
    ∃ reply, s.Step c.1 reply s' ∧ calls = [(c, reply)] ∧ r = reply.map fun _ => result := by
  obtain ⟨calls₁, r₁, s₁, hfirst, hcases⟩ := run_bind_cases hrun
  obtain ⟨reply, hstep, rfl, rfl⟩ := run_perform hfirst
  refine ⟨reply, ?_⟩
  cases reply with
  | error status =>
    obtain ⟨e, herror, rfl, rfl, rfl⟩ | ⟨a, calls₂, hok, -⟩ := hcases
    · cases herror
      exact ⟨hstep, rfl, rfl⟩
    · cases hok
  | ok page =>
    obtain ⟨e, herror, -⟩ | ⟨a, calls₂, -, hrest, rfl⟩ := hcases
    · cases herror
    · cases hrest
      exact ⟨hstep, rfl, rfl⟩

/-- A statement that ends its own transaction commits if it succeeds, and only then. -/
theorem settles_statementTransaction {body : PageProgram (ExecutionResult Row)}
    (hbody : body.Only PageCall.KeepsStore) (order : IterationOrder PageId) :
    Settles ownsTransaction (statementTransaction ownsTransaction order body) := by
  cases ownsTransaction with
  | false =>
    rintro s s' calls r ledger hrecorded hrun
    have hrecorded' := Session.Recorded.run_keepsStore hrecorded hbody hrun
    cases r with
    | error status => exact .fails hrecorded'
    | ok result => exact .unchanged hrecorded' (.inl rfl)
  | true =>
    have hbegin : (perform ⟨.beginTransaction, trivial⟩).Only PageCall.KeepsStore :=
      ⟨trivial, fun _ => trivial⟩
    have hrollback : (perform ⟨.rollbackTransaction order, trivial⟩).Only PageCall.KeepsStore :=
      ⟨trivial, fun _ => trivial⟩
    refine settles_bind hbegin fun _ => settles_bind hbody.attempt fun outcome => ?_
    cases outcome with
    | error failure => exact settles_bind hrollback fun _ => settles_fail failure
    | ok result =>
      rintro s s' calls r ledger ⟨log, hrecorded⟩ hrun
      obtain ⟨reply, hcommit, hcalls, rfl⟩ := run_perform_bind hrun
      have hrecorded' := hrecorded.commit hcommit
      cases reply with
      | error status => exact .fails hrecorded'
      | ok page => exact .commits rfl (.nil s) (by rintro _ ⟨⟩) hcommit hcalls hrecorded'

end Settles

/-! ## INSERT, UPDATE and DELETE -/

/-- A statement has checks, changes and one commit, if it owns the transaction: -/
theorem settles_executeInsertStatement (catalog : Catalog) (ownsTransaction : Bool)
    (order : IterationOrder PageId) (statement : BoundInsertStatement) :
    Settles ownsTransaction (executeInsertStatement catalog ownsTransaction order statement) := by
  refine settles_bind (only_required ..) fun tableDescriptor =>
    settles_bind (only_required ..) fun schema => settles_bind (only_failIf ..) fun _ =>
      settles_bind (only_done _) fun values => settles_bind (only_done _) fun row =>
        settles_bind (only_defined _) fun rowBytes =>
          settles_bind (only_done _) fun primaryKeyBytes =>
            settles_bind (keepsStore_of_reads (reads_openTableTree ..)) fun tree =>
              settles_statementTransaction ?_ order
  exact (only_mapError (only_insert ..) _).bind fun _ =>
    (only_forEach (fun _ => only_insertIntoIndex ..) _).bind fun _ => only_pure _

/-- an UPDATE may also find that its predicate cannot hold, -/
theorem settles_executeUpdateStatement (catalog : Catalog) (ownsTransaction : Bool)
    (order : IterationOrder PageId) (statement : BoundUpdateStatement) :
    Settles ownsTransaction (executeUpdateStatement catalog ownsTransaction order statement) := by
  refine settles_bind (only_required ..) fun tableDescriptor =>
    settles_bind (only_required ..) fun schema =>
      settles_bind (only_defined _) fun assignmentColumn =>
        settles_bind (only_done _) fun assignmentValue =>
          settles_bind (only_defined _) fun predicateState => ?_
  cases predicateState with
  | impossible => exact settles_pure rfl
  | _ =>
    refine settles_bind (keepsStore_of_reads (reads_openTableTree ..)) fun tableTree =>
      settles_statementTransaction ?_ order
    exact (keepsStore_of_reads (reads_openAffectedIndexes ..)).bind fun affectedIndexes =>
      (only_updateRows ..).bind fun rowsAffected => only_pure _

/-- and so may a DELETE. -/
theorem settles_executeDeleteStatement (catalog : Catalog) (ownsTransaction : Bool)
    (order : IterationOrder PageId) (statement : BoundDeleteStatement) :
    Settles ownsTransaction (executeDeleteStatement catalog ownsTransaction order statement) := by
  refine settles_bind (only_required ..) fun tableDescriptor =>
    settles_bind (only_required ..) fun schema =>
      settles_bind (only_defined _) fun predicateState => ?_
  cases predicateState with
  | impossible => exact settles_pure rfl
  | _ =>
    refine settles_bind (keepsStore_of_reads (reads_openTableTree ..)) fun tableTree =>
      settles_statementTransaction ?_ order
    exact (keepsStore_of_reads (reads_openAffectedIndexes ..)).bind fun affectedIndexes =>
      (only_visitRows (fun _ => PageCall.Reads.keepsStore) (fun _ _ _ => only_defined _) ..).bind
        fun pendingDeletions =>
          (only_forEach (fun _ => only_applyDeletion ..) _).bind fun _ => only_pure _

/-! ## Any statement -/

/-- INSERT, UPDATE or DELETE. -/
def ChangesRows : Statement → Prop
  | .insert _ | .update _ | .delete _ => True
  | _ => False

/-- A statement that runs to its end, with the catalog that it sees. -/
def runStatement (catalog : Catalog) (order : IterationOrder PageId) (statement : Statement)
    (s : Session) : Option (List (PageCall × Reply) × Except Status (ExecutionResult Row) × Session) :=
  executeStatement catalog order s.pager.transactionState statement >>= fun x =>
    x.run Session.machine s

section Statements

variable {catalog : Catalog} {order : IterationOrder PageId} {state : TransactionState}
  {statement : Statement} {x : PageProgram (ExecutionResult Row)}

/-- A statement is refused, or its program is that of the statement it is bound to. -/
theorem executeStatement_cases (h : executeStatement catalog order state statement = some x) :
    (∃ status, x = fail status) ∨ ∃ boundStatement,
      Binder.bind catalog statement = .ok boundStatement ∧
        executeBoundStatement catalog order state.inTransaction boundStatement = some x := by
  rw [executeStatement] at h
  split at h
  · cases h
    exact .inl ⟨_, rfl⟩
  · rename_i boundStatement hbound
    obtain ⟨_, -, hbind⟩ := bind_eq_ok.mp hbound
    exact .inr ⟨boundStatement, hbind, h⟩

/-- Only the status of the transaction counts. -/
theorem executeStatement_congr {state' : TransactionState} (h : state.status = state'.status) :
    executeStatement catalog order state statement =
      executeStatement catalog order state' statement := by
  unfold executeStatement checkTransaction TransactionState.isUnresolved TransactionState.isFailed
    TransactionState.inTransaction
  rw [h]

/-- The statement owns the transaction if the pager has none. -/
theorem settles_executeStatement (hrows : ChangesRows statement)
    (h : executeStatement catalog order state statement = some x) :
    Settles (!state.inTransaction) x := by
  obtain ⟨status, rfl⟩ | ⟨boundStatement, hbind, hbound⟩ := executeStatement_cases h
  · exact settles_fail status
  cases statement with
  | insert statement =>
    obtain ⟨bound, -, rfl⟩ := Core.map_eq_ok.mp hbind
    cases hbound
    exact settles_executeInsertStatement catalog _ order bound
  | update statement =>
    obtain ⟨bound, -, rfl⟩ := Core.map_eq_ok.mp hbind
    cases hbound
    exact settles_executeUpdateStatement catalog _ order bound
  | delete statement =>
    obtain ⟨bound, -, rfl⟩ := Core.map_eq_ok.mp hbind
    cases hbound
    exact settles_executeDeleteStatement catalog _ order bound
  | _ => exact hrows.elim

theorem reads_executeStatement {statement : SelectStatement}
    (h : executeStatement catalog order state (.select statement) = some x) :
    x.Only PageCall.Reads := by
  obtain ⟨status, rfl⟩ | ⟨boundStatement, hbind, hbound⟩ := executeStatement_cases h
  · exact only_fail status
  · obtain ⟨bound, -, rfl⟩ := Core.map_eq_ok.mp hbind
    cases hbound
    exact reads_executeSelectStatement catalog bound

end Statements

/-! ## After any history -/

section Results

variable {path : String} {capacity : Nat} {databaseId : UInt64} {pager : Pager} {s s' : Session}
  {ledger : Ledger} {catalog : Catalog} {order : IterationOrder PageId}
  {calls : List (PageCall × Reply)} {r : Except Status (ExecutionResult Row)}
  (hcreate : Pager.createEmpty path ⟨none, none⟩ capacity databaseId = .ok pager)
  (hhistory : Session.History (Session.start pager)
    [(Wal.WalHeader.walHeaderSize, Pager.emptyView databaseId)] s ledger)

include hcreate hhistory

end Results

/-! ## A table with a row -/

section Small

/-- A table with an index on its second column. -/
def itemsTable : TableDescriptor :=
  ⟨5, "items", 1, by decide, by decide, by decide, by decide⟩

def idColumn : ColumnDescriptor :=
  ⟨10, 5, "id", .int32, 0, false, true, true, by decide, by decide, by decide, by decide,
    by decide, by decide⟩

def sizeColumn : ColumnDescriptor :=
  ⟨11, 5, "size", .int32, 1, false, false, true, by decide, by decide, by decide, by decide,
    by decide, by decide⟩

def sizeIndex : IndexDescriptor :=
  ⟨3, 5, "items_size", 2, true, false, true, 11, by decide, by decide, by decide, by decide,
    by decide, by decide, by decide, by decide⟩

def itemsSchema : Schema :=
  ⟨[⟨"id", .int32, false, true, true, 0, 1⟩, ⟨"size", .int32, false, false, true, 1, 5⟩], 0, 9, 1⟩

def itemsCatalog : Catalog :=
  .ofTables (AList.singleton 5 ⟨itemsTable, [idColumn, sizeColumn], [sizeIndex]⟩)
    (AList.singleton 5 itemsSchema) (AList.singleton "items" 5)

/-- The trees of the table and the index. -/
def createItems : PageProgram Unit := do
  perform ⟨.beginTransaction, trivial⟩
  let _ ← BTree.createNew 4 9
  let _ ← BTree.createNew 4 4
  return ()

def commitItems : PageProgram Unit := perform ⟨.commitTransaction .insertion, trivial⟩

def named (text : String) : Identifier := ⟨text, ⟨1, 1⟩⟩

def literal (value : Int64) : LiteralExpression := ⟨.integer value, ⟨1, 1⟩⟩

/-- `INSERT INTO items VALUES (1, 7)` -/
def insertItem : Statement := .insert ⟨named "items", [literal 1, literal 7], ⟨1, 1⟩⟩

/-- `SELECT id FROM items WHERE size = 7` -/
def selectItem : SelectStatement :=
  ⟨.columns [named "id"] ⟨1, 1⟩, named "items",
    some ⟨named "size", .equal, some (literal 7), ⟨1, 1⟩⟩, ⟨1, 1⟩⟩

/-- What a program answers on the flat array. -/
def answer {α : Type} (x : PageProgram α) (flat : FlatSession) :
    Option (Except Status α × FlatSession) :=
  (x.run (FlatSession.machine 8) flat).map Prod.snd

/-- What a statement answers outside of a transaction. -/
def answerStatement (statement : Statement) (flat : FlatSession) :
    Option (Except Status (ExecutionResult Row) × FlatSession) :=
  executeStatement itemsCatalog .insertion .none statement >>= fun x => answer x flat

variable {α : Type} {s s' : Session} {ledger ledger₀ : Ledger} {s₀ : Session}
  {calls : List (PageCall × Reply)}

/-- A session whose files answer every call. -/
structure Answering (s : Session) : Prop where
  sound : s.Sound
  noFaults : s.NoFaults
  frameCount : s.pager.frameCount = 8

/-- What the flat array answers, the session answers. -/
theorem Answering.exists_run {x : PageProgram α} (h : Answering s)
    {check : Except Status α × FlatSession → Bool} (hcheck : (answer x s.abs).any check = true) :
    ∃ calls r s', x.run Session.machine s = some (calls, r, s') ∧ Answering s' ∧
      check (r, s'.abs) = true := by
  obtain ⟨_, hanswer, hcheck⟩ := (Option.any_eq_true ..).mp hcheck
  obtain ⟨⟨calls, r, flat⟩, hrun, rfl⟩ := Option.map_eq_some_iff.mp hanswer
  obtain ⟨s', hrun', hs'⟩ := h.sound.run_program h.noFaults h.frameCount (by decide) hrun
  refine ⟨calls, r, s', hrun', ⟨hs'.sound, hs'.noFaults, hs'.frameCount.trans h.frameCount⟩, ?_⟩
  rw [hs'.abs]
  exact hcheck

theorem Answering.exists_runStatement {statement : Statement} (h : Answering s)
    (hstatus : s.abs.flat.status = .inactive)
    {check : Except Status (ExecutionResult Row) × FlatSession → Bool}
    (hcheck : (answerStatement statement s.abs).any check = true) :
    ∃ x calls r s', executeStatement itemsCatalog .insertion s.pager.transactionState statement = some x ∧
      x.run Session.machine s = some (calls, r, s') ∧ Answering s' ∧ check (r, s'.abs) = true := by
  obtain ⟨_, hanswer, hcheck⟩ := (Option.any_eq_true ..).mp hcheck
  obtain ⟨x, hx, hanswer⟩ := Option.bind_eq_some_iff.mp hanswer
  obtain ⟨calls, r, s', hrun, hs'⟩ :=
    h.exists_run ((Option.any_eq_true ..).mpr ⟨_, hanswer, hcheck⟩)
  exact ⟨x, calls, r, s', (executeStatement_congr hstatus).trans hx, hrun, hs'⟩

/-- Calls that leave the files alone add nothing to the ledger. -/
theorem history_of_runs (h : Session.History s₀ ledger₀ s ledger) (hruns : Runs PageStep s calls s')
    (hkeeps : ∀ entry ∈ calls, entry.1.KeepsStore) : Session.History s₀ ledger₀ s' ledger := by
  have hstep : ∀ c r t t', (c, r) ∈ calls → PageStep t c r t' →
      Session.History s₀ ledger₀ t ledger → Session.History s₀ ledger₀ t' ledger := by
    intro c r t t' hmem hstep ht
    have hrecord := ht.step c.2 hstep
    rwa [Session.record_keepsStore (hkeeps _ hmem)] at hrecord
  exact hruns.preserves hstep h

/-- The table has been made and committed. -/
structure HasItems (pager : Pager) (s : Session) (ledger : Ledger) : Prop where
  create : Pager.createEmpty "db" ⟨none, none⟩ 8 7 = .ok pager
  history : Session.History (Session.start pager)
    [(Wal.WalHeader.walHeaderSize, Pager.emptyView 7)] s ledger
  answering : Answering s
  status : s.abs.flat.status = .inactive

/-- The table can be made, -/
theorem exists_hasItems (check : FlatSession → Bool)
    (hcheck : ((answer createItems ⟨.settled (Pager.emptyView 7), []⟩).any fun made =>
      (answer commitItems made.2).any fun ended => ended.2.flat.status = .inactive &&
        check ended.2) = true) :
    ∃ pager s ledger, HasItems pager s ledger ∧ check s.abs = true := by
  obtain ⟨pager, hcreate, -⟩ := Pager.createEmpty_eq "db" (show 0 < 8 by decide) 7
  obtain ⟨hsound, hno, habs⟩ := (Session.Starts.create hcreate).sound
  have hstart : Answering (Session.start pager) :=
    ⟨hsound, hno, Pager.frameCount_of_createEmpty hcreate⟩
  rw [← habs] at hcheck
  obtain ⟨calls, r, s, hrun, hs, hcheck⟩ := hstart.exists_run hcheck
  obtain ⟨calls', r', s', hrun', hs', hcheck⟩ := hs.exists_run hcheck
  obtain ⟨hstatus, hcheck⟩ := Bool.and_eq_true_iff.mp hcheck
  have hkeeps : createItems.Only PageCall.KeepsStore :=
    Only.bind ⟨trivial, fun _ => only_done _⟩ fun _ => (only_createNew ..).bind fun _ =>
      (only_createNew ..).bind fun _ => only_pure _
  have hhistory : Session.History (Session.start pager)
      [(Wal.WalHeader.walHeaderSize, Pager.emptyView 7)] s _ :=
    history_of_runs .start (runs_of_run hrun) (hkeeps.mem_trace hrun)
  obtain ⟨reply, hcommit, -⟩ := run_perform hrun'
  exact ⟨pager, s', _, ⟨hcreate, hhistory.step (c := .commitTransaction .insertion) trivial hcommit, hs',
    of_decide_eq_true hstatus⟩, hcheck⟩

/-- What the INSERT says, and what it has made of the table. -/
def inserts (check : FlatSession → Bool) (flat : FlatSession) : Bool :=
  (answerStatement insertItem flat).any fun ended =>
    ended.1.toOption.bind ExecutionResult.rowsAffected = some 1 &&
      (ended.2.flat.status = .inactive && check ended.2)

/-- A statement that has changed a row in its own transaction has committed it. -/
theorem Settled.exists_commit {state : TransactionState} {r : Except Status (ExecutionResult Row)}
    (h : Settled (!state.inTransaction) ledger s calls s' r) (hstatus : state.status = .inactive)
    (hrows : r.toOption.bind ExecutionResult.rowsAffected = some 1) :
    ∃ before t order page result, r = .ok result ∧ result.rowsAffected = some 1 ∧
      Runs PageStep s before t ∧ (∀ entry ∈ before, entry.1.KeepsStore) ∧
      t.Step (.commitTransaction order) (.ok page) s' ∧
      calls = before ++ [(⟨.commitTransaction order, trivial⟩, .ok page)] ∧
      ∃ log, s'.Recorded (ledger ++ [(s'.walSize, t.abs.flat.active)]) log := by
  have howns : state.inTransaction = false := TransactionState.inTransaction_eq_false.mpr hstatus
  cases h with
  | fails hrecorded => cases hrows
  | unchanged hrecorded hresult =>
    obtain hjoins | hnone := hresult
    · rw [howns] at hjoins
      cases hjoins
    · cases hnone.symm.trans hrows
  | commits _ hbefore hkeeps hcommit hcalls hrecorded =>
    exact ⟨_, _, _, _, _, rfl, hrows, hbefore, hkeeps, hcommit, hcalls, hrecorded⟩

/-- and gets a row. -/
theorem HasItems.exists_inserted {pager : Pager} (h : HasItems pager s ledger)
    {check : FlatSession → Bool} (hcheck : inserts check s.abs = true) :
    ∃ s' ledger', HasItems pager s' ledger' ∧ check s'.abs = true := by
  obtain ⟨x, calls, r, s', hx, hrun, hs', hchecks⟩ := h.answering.exists_runStatement h.status hcheck
  obtain ⟨hrows, hchecks⟩ := Bool.and_eq_true_iff.mp hchecks
  obtain ⟨hstatus, hcheck⟩ := Bool.and_eq_true_iff.mp hchecks
  have hsettled := settles_executeStatement (show ChangesRows insertItem from trivial) hx s s' calls r ledger
    (h.history.recorded (Session.recorded_of_create h.create)) hrun
  obtain ⟨before, t, order, page, -, -, -, hbefore, hkeeps, hcommit, -⟩ :=
    hsettled.exists_commit h.status (of_decide_eq_true hrows)
  have hhistory := history_of_runs h.history hbefore hkeeps
  exact ⟨s', _, ⟨h.create, hhistory.step (c := .commitTransaction order) trivial hcommit, hs',
    of_decide_eq_true hstatus⟩, hcheck⟩

end Small

end DanDB.Execution
