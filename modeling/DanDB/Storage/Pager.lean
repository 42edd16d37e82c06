import DanDB.Buffer.PoolInvariant
import DanDB.Lib.IterationOrder
import DanDB.Storage.DiskManager
import DanDB.Wal.WalManager

/-!
# The pager

The pager joins the buffer pool, the database file and the log.  A page is read
from the pool, from the pages committed to the log since the last checkpoint
(`recoveredPages`), or from the file, in that order.  A transaction keeps the
original of every page it changes, writes all changed pages to the log when it
commits and puts the originals back when it rolls back.

Pointers to a page are pins, so the functions that hand out a handle return the
pin, and a handle that goes out of scope is a call of `release`.
-/

namespace DanDB.Storage

open DanDB.Core Platform Wal BufferPool

inductive TransactionStatus where
  | inactive
  | active
  | failed
  | unresolved
deriving DecidableEq, Repr

structure TransactionState where
  status : TransactionStatus
  transactionId : UInt64
  dirtyPageIds : List PageId
  newPageIds : List PageId
  originalPages : AList fun _ : PageId => Page

namespace TransactionState

/-- The state without a transaction, and what `clear` sets. -/
def none : TransactionState := ⟨.inactive, 0, [], [], ∅⟩

def inTransaction (state : TransactionState) : Bool := state.status != .inactive

def isFailed (state : TransactionState) : Bool := state.status == .failed

def isUnresolved (state : TransactionState) : Bool := state.status == .unresolved

variable {state : TransactionState}

@[simp] theorem inTransaction_eq_false : state.inTransaction = false ↔ state.status = .inactive := by
  simp [inTransaction]

@[simp] theorem isFailed_eq_true : state.isFailed = true ↔ state.status = .failed := by
  simp [isFailed]

@[simp] theorem isUnresolved_eq_true :
    state.isUnresolved = true ↔ state.status = .unresolved := by
  simp [isUnresolved]

end TransactionState

structure Pager where
  diskManager : DiskManager
  walManager : WalManager
  bpm : BufferPoolManager
  dbHeader : DatabaseHeader
  committedHeader : DatabaseHeader
  recoveredPages : AList fun _ : PageId => Page
  transactionState : TransactionState
  nextTransactionId : UInt64
  closed : Bool

namespace Pager

/-! ## Parts of the state -/

def onDisk {α : Type} (x : Proc Status DiskManager α) : Proc Status Pager α :=
  Proc.zoom Pager.diskManager (fun disk pager => { pager with diskManager := disk }) x

def onWal {α : Type} (x : Proc Status WalManager α) : Proc Status Pager α :=
  Proc.zoom Pager.walManager (fun wal pager => { pager with walManager := wal }) x

def onPool {α : Type} (x : Proc Status BufferPoolManager α) : Proc Status Pager α :=
  Proc.zoom Pager.bpm (fun bpm pager => { pager with bpm := bpm }) x

def setTransaction (state : TransactionState) : Proc Status Pager Unit :=
  Proc.modify fun pager => { pager with transactionState := state }

/-- A handle goes out of scope. -/
def release (pin : PagePin) : Proc Status Pager Unit :=
  Proc.modify fun pager => { pager with bpm := pager.bpm.release pin }

/-- An assignment to the page of a handle. -/
def store (pin : PagePin) (data : PageData) : Proc Status Pager Unit :=
  Proc.modify fun pager => { pager with bpm := pager.bpm.store pin data }

/-- The page a handle points to. -/
def page (pager : Pager) (pin : PagePin) : Page := (pager.bpm.frames pin.frameId).page

/-! ## Pages -/

/-- The page as the pool does not have it: from the log or from the file. -/
def readCommitted (pageId : PageId) : Proc Status Pager Page := do
  let pager ← Proc.get
  match pager.recoveredPages.lookup pageId with
  | some page => return page
  | none => onDisk (DiskManager.readPage pageId)

/-- The second half of `get_page`, for a page that is not in the pool. -/
def loadPage (pageId : PageId) : Proc Status Pager PagePin := do
  let page ← readCommitted pageId
  onPool (BufferPoolManager.cachePage page)

def getPage (pageId : PageId) : Proc Status Pager PagePin := do
  let pager ← Proc.get
  Proc.failIf (pager.closed = true) (.InvalidArgument "Cannot get page: pager is closed")
  Proc.failIf (pageId = invalidPageId ∨ pageId = headerPageId)
    (.InvalidArgument "Cannot get page: invalid page id")
  match ← Proc.attempt (onPool (BufferPoolManager.getPage pageId)) with
  | .ok pagePin => return pagePin
  | .error status =>
    if status.code ≠ .notFound then Proc.fail status else loadPage pageId

/-- A copy of a page; `mark_dirty` makes the original it saves the same way. -/
def dirtyPageSnapshot (pageId : PageId) : Proc Status Pager Page := do
  let pager ← Proc.get
  if pageId = headerPageId then
    let image ← Proc.ofExcept pager.dbHeader.encodeInto
    return ⟨pageId, image⟩
  else
    let pagePin ← onPool (BufferPoolManager.getPage pageId)
    let pager ← Proc.get
    release pagePin
    return pager.page pagePin

def markDirty (pageId : PageId) : Proc Status Pager Unit := do
  let pager ← Proc.get
  let state := pager.transactionState
  Proc.failIf (pager.closed = true) (.InvalidArgument "Cannot mark page dirty: pager is closed")
  Proc.failIf (pageId = invalidPageId)
    (.InvalidArgument "Cannot mark page dirty: invalid page id")
  Proc.failIf (state.isFailed = true)
    (.TransactionError "Cannot mark page dirty: transaction is failed")
  Proc.failIf (state.isUnresolved = true)
    (.TransactionError "Cannot mark page dirty: transaction is unresolved")
  Proc.failIf (state.inTransaction = false)
    (.TransactionError "Cannot mark page dirty: no transaction is active")
  if pageId ∈ state.originalPages ∨ pageId ∈ state.newPageIds then
    return ()
  else
    let page ← dirtyPageSnapshot pageId
    setTransaction { state with
      originalPages := state.originalPages.insert pageId page
      dirtyPageIds := state.dirtyPageIds.insert pageId }

/-- `PageHandle::mark_dirty`, which `mutable_page` calls: the handle afterwards. -/
def mutablePage (pin : PagePin) : Proc Status Pager PagePin := do
  let pager ← Proc.get
  markDirty (pager.page pin).id
  return { pin with isDirty := true }

/-- The checks `new_page` and `commit_transaction` share; `verb` is the phrase
in which their messages differ. -/
def requireActive (verb : String) : Proc Status Pager Unit := do
  let pager ← Proc.get
  Proc.failIf (pager.closed = true) (.InvalidArgument s!"Cannot {verb}: pager is closed")
  Proc.failIf (pager.transactionState.inTransaction = false)
    (.TransactionError s!"Cannot {verb}: no transaction is active")
  Proc.failIf (pager.transactionState.isFailed = true)
    (.TransactionError s!"Cannot {verb}: transaction is failed")
  Proc.failIf (pager.transactionState.isUnresolved = true)
    (.TransactionError s!"Cannot {verb}: transaction is unresolved")

/-- Run a procedure while a handle is in scope; on an error the handle is gone. -/
def releaseOnError {α : Type} (pin : PagePin) (x : Proc Status Pager α) :
    Proc Status Pager α := do
  match ← Proc.attempt x with
  | .ok a => return a
  | .error status => do
    release pin
    Proc.fail status

def newPage : Proc Status Pager PagePin := do
  requireActive "allocate new page"
  let pager ← Proc.get
  let pageId := pager.dbHeader.pageCount
  let pagePin ← onPool (BufferPoolManager.cachePage (Page.ofId pageId))
  releaseOnError pagePin (markDirty headerPageId)
  Proc.modify fun pager => { pager with
    dbHeader := { pager.dbHeader with pageCount := pager.dbHeader.pageCount + 1 }
    transactionState := { pager.transactionState with
      newPageIds := pager.transactionState.newPageIds.insert pageId
      dirtyPageIds := pager.transactionState.dirtyPageIds.insert pageId } }
  return { pagePin with isDirty := true }

/-- The header part of `CatalogInitializer::initialize`. -/
def setSystemRoots (tables columns indexes indexColumns : PageId) : Proc Status Pager Unit := do
  markDirty headerPageId
  Proc.modify fun pager => { pager with
    dbHeader := pager.dbHeader.withRoots tables columns indexes indexColumns }

/-! ## Transactions -/

def beginTransaction : Proc Status Pager Unit := do
  let pager ← Proc.get
  Proc.failIf (pager.closed = true) (.InvalidArgument "Cannot begin transaction: pager is closed")
  Proc.failIf (pager.transactionState.inTransaction = true)
    (.TransactionError "Cannot begin transaction: transaction is already active")
  Proc.modify fun pager => { pager with
    transactionState := { pager.transactionState with
      status := .active
      transactionId := pager.nextTransactionId }
    nextTransactionId := pager.nextTransactionId + 1 }

/-- One page of the first loop of `commit_transaction`. -/
def requireUnpinned (dirtyPageId : PageId) : Proc Status Pager Unit :=
  if dirtyPageId = headerPageId then
    pure ()
  else do
    let isUnpinned ← onPool (BufferPoolManager.isUnpinned dirtyPageId)
    Proc.failIf (isUnpinned = false)
      (.TransactionError "Cannot commit transaction: dirty page is still pinned")

/-- `wal_manager_.commit_transaction`, with the status a failure leaves. -/
def writeLog (dirtyPages : List Page) : Proc Status Pager Unit := do
  let pager ← Proc.get
  match ← Proc.attempt (onWal (WalManager.commitTransaction
      pager.transactionState.transactionId dirtyPages)) with
  | .ok _ => return ()
  | .error status => do
    setTransaction { pager.transactionState with status := .unresolved }
    Proc.fail status

/-- One page of the last loop of `commit_transaction`. -/
def publishPage (dirtyPage : Page) : Proc Status Pager Unit :=
  if dirtyPage.id = headerPageId then
    Proc.modify fun pager => { pager with committedHeader := pager.dbHeader }
  else do
    Proc.modify fun pager => { pager with
      recoveredPages := pager.recoveredPages.insert dirtyPage.id dirtyPage }
    onPool (BufferPoolManager.clearDirty dirtyPage.id)

def commitTransaction (order : IterationOrder PageId) : Proc Status Pager Unit := do
  requireActive "commit transaction"
  let pager ← Proc.get
  let dirtyPageIds := order.visit pager.transactionState.dirtyPageIds
  Proc.forEach requireUnpinned dirtyPageIds
  let dirtyPages ← Proc.collect dirtyPageSnapshot dirtyPageIds
  writeLog dirtyPages
  Proc.forEach publishPage dirtyPages
  setTransaction .none

/-- One page of the first loop of `rollback_transaction`. -/
def checkOriginal (entry : PageId × Page) : Proc Status Pager Unit := do
  let pager ← Proc.get
  Proc.failIf (entry.1 ≠ entry.2.id)
    (.InternalError "Cannot rollback transaction: original page id does not match map key")
  Proc.failIf (entry.1 ∈ pager.transactionState.newPageIds)
    (.InternalError "Cannot rollback transaction: page cannot be both original and newly allocated")
  if entry.1 = headerPageId then
    let _ ← Proc.ofExcept (DatabaseHeader.decode entry.2.data)
    return ()
  else
    onPool (BufferPoolManager.canRestorePage entry.2)

/-- One page of the third loop of `rollback_transaction`. -/
def restoreOriginal (entry : PageId × Page) : Proc Status Pager Unit :=
  if entry.1 = headerPageId then do
    let header ← Proc.ofExcept (DatabaseHeader.decode entry.2.data)
    Proc.modify fun pager => { pager with dbHeader := header }
  else
    onPool (BufferPoolManager.restorePage entry.2)

def rollbackTransaction (order : IterationOrder PageId) : Proc Status Pager Unit := do
  let pager ← Proc.get
  Proc.failIf (pager.closed = true)
    (.InvalidArgument "Cannot rollback transaction: pager is closed")
  Proc.failIf (pager.transactionState.inTransaction = false)
    (.TransactionError "Cannot rollback transaction: no transaction is active")
  Proc.failIf (pager.transactionState.isUnresolved = true)
    (.TransactionError "Cannot rollback transaction: transaction is unresolved")
  let originalPages := order.visitEntries pager.transactionState.originalPages
  let newPageIds := order.visit pager.transactionState.newPageIds
  Proc.forEach checkOriginal originalPages
  Proc.forEach (fun pageId => onPool (BufferPoolManager.canDiscardPage pageId)) newPageIds
  Proc.forEach restoreOriginal originalPages
  Proc.forEach (fun pageId => onPool (BufferPoolManager.discardPage pageId)) newPageIds
  setTransaction .none

def markTransactionFailed : Proc Status Pager Unit := do
  let pager ← Proc.get
  Proc.failIf (pager.closed = true)
    (.InvalidArgument "Cannot mark transaction failed: pager is closed")
  Proc.failIf (pager.transactionState.inTransaction = false)
    (.TransactionError "Cannot mark transaction failed: no transaction is active")
  Proc.failIf (pager.transactionState.isUnresolved = true)
    (.TransactionError "Cannot mark transaction failed: transaction is unresolved")
  setTransaction { pager.transactionState with status := .failed }

def checkpoint (order : IterationOrder PageId) : Proc Status Pager Unit := do
  let pager ← Proc.get
  Proc.failIf (pager.transactionState.isUnresolved = true)
    (.TransactionError "Cannot checkpoint: transaction outcome is unresolved")
  onDisk (DiskManager.resizeToPageCount pager.committedHeader.pageCount)
  Proc.forEach (fun entry : PageId × Page => onDisk (DiskManager.writePage entry.2))
    (order.visitEntries pager.recoveredPages)
  onDisk (DiskManager.writeHeader pager.committedHeader)
  onDisk DiskManager.sync
  onWal WalManager.reset
  Proc.modify fun pager => { pager with recoveredPages := ∅ }

/-- `close`: both files are closed whatever the first answers, and the pager is
closed only if neither failed. -/
def close : Proc Status Pager Unit := do
  let pager ← Proc.get
  if pager.closed then
    return ()
  let walCloseStatus ← Proc.attempt (onWal WalManager.close)
  let diskCloseStatus ← Proc.attempt (onDisk DiskManager.close)
  Proc.ofExcept walCloseStatus
  Proc.ofExcept diskCloseStatus
  Proc.modify fun pager => { pager with closed := true }

/-! ## Files -/

/-- The contents of the two files of a database, where they exist. -/
structure Files where
  main : Option (List Byte)
  wal : Option (List Byte)

/-- What is on the disk. -/
def files (pager : Pager) : Files :=
  ⟨some pager.diskManager.fileHandle.bytes, some pager.walManager.fileHandle.bytes⟩

/-- Closing a pager changes no file. -/
theorem close_files (pager : Pager) : (close.run pager).2.files = pager.files := by
  have hclose : close.Yields pager fun _ pager' => pager'.files = pager.files := by
    refine Proc.yields_get_bind ?_
    split
    · exact Proc.yields_pure rfl
    have hwal : (onWal WalManager.close).Yields pager fun _ pager' =>
        pager'.files = pager.files :=
      congrArg (fun bytes => Files.mk _ (some bytes)) pager.walManager.fileHandle.close_yields
    refine hwal.attempt_bind fun walCloseStatus pager' hpager' => ?_
    have hdisk : (onDisk DiskManager.close).Yields pager' fun _ pager'' =>
        pager''.files = pager.files :=
      (congrArg (fun bytes => Files.mk (some bytes) _)
        pager'.diskManager.fileHandle.close_yields).trans hpager'
    refine hdisk.attempt_bind fun diskCloseStatus pager'' hpager'' => ?_
    refine Proc.yields_ofExcept_bind (fun _ _ => hpager'') fun _ _ => ?_
    exact Proc.yields_ofExcept_bind (fun _ _ => hpager'') fun _ _ => Proc.yields_modify hpager''
  exact hclose

/-- `DatabasePath::wal_path` -/
def walPath (path : String) : String := path ++ ".wal"

/-- The constructor. -/
def construct (disk : DiskManager) (wal : WalManager) (bpmCapacity : Nat)
    (header : DatabaseHeader) (recoveredPages : AList fun _ : PageId => Page) : Pager where
  diskManager := disk
  walManager := wal
  bpm := .create bpmCapacity
  dbHeader := header
  committedHeader := header
  recoveredPages := recoveredPages
  transactionState := .none
  nextTransactionId := 1
  closed := false

/-- `create` up to the point where it initializes the catalog.  The database id
is the one `generate_database_id` returns. -/
def createEmpty (path : String) (files : Files) (bpmCapacity : Nat) (databaseId : UInt64) :
    Result Pager := do
  failIf (bpmCapacity = 0)
    (.InvalidArgument "Cannot create database: buffer pool manager capacity cannot be zero")
  let dbHeader := DatabaseHeader.createNew databaseId
  failIf (files.main.isSome = true) (.AlreadyExists s!"Cannot create new file '{path}'")
  let diskManager ← DiskManager.createNew path dbHeader
  let walManager ← WalManager.openOrCreate (walPath path) files.wal databaseId
  return construct diskManager walManager bpmCapacity dbHeader ∅

/-- One page of the loop of `open` over the frames the scan found. -/
def recoverPage (path : String) (bytes : List Byte)
    (recovered : DatabaseHeader × AList fun _ : PageId => Page) (entry : PageId × Nat) :
    Result (DatabaseHeader × AList fun _ : PageId => Page) := do
  let pageFrameBytes ←
    WalScanner.readBytes path bytes entry.2 WalPageFrame.walPageFrameRecordSize
  let walPageFrame ← WalPageFrame.decode (.ofList pageFrameBytes)
  failIf (walPageFrame.pageId ≠ entry.1)
    (.Corruption "Cannot recover WAL page frame: page id does not match scan result")
  if walPageFrame.pageId = headerPageId then
    let header ← DatabaseHeader.decode walPageFrame.pageImage
    return (header, recovered.2)
  else
    return (recovered.1,
      recovered.2.insert walPageFrame.pageId ⟨walPageFrame.pageId, walPageFrame.pageImage⟩)

def «open» (order : IterationOrder PageId) (path : String) (files : Files) (bpmCapacity : Nat) :
    Result Pager := do
  failIf (bpmCapacity = 0)
    (.InvalidArgument "Cannot open database: buffer pool manager capacity cannot be zero")
  match files.main with
  | none => .error (.NotFound s!"Cannot open existing file '{path}'")
  | some mainBytes => do
    let diskManager ← DiskManager.openExisting path mainBytes
    let header ← (DiskManager.readHeader.run diskManager).1
    let walManager ← WalManager.openOrCreate (walPath path) files.wal header.databaseId
    let walBytes := walManager.fileHandle.bytes
    let walScanResult ← WalScanner.scan (walPath path) walBytes header.databaseId
    let recovered ← (order.visitEntries walScanResult.latestCommittedFrameOffsets).foldlM
      (recoverPage (walPath path) walBytes) (header, ∅)
    return construct diskManager walManager bpmCapacity recovered.1 recovered.2

end Pager

end DanDB.Storage
