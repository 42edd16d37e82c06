import DanDB.Platform.FileHandle
import DanDB.Wal.WalCommitRecord
import DanDB.Wal.WalHeader
import DanDB.Wal.WalPageFrame

/-!
# Scanning the log

`scan` reads the log record by record and collects, for each page, the offset
of its last committed frame.  The body of its loop is `step`, which either ends
the loop or moves the offset forward.
-/

namespace DanDB.Wal

open Buffer DanDB.Core Platform Storage

/-- A frame whose transaction has not been committed yet. -/
structure PendingFrame where
  offset : Nat
  pageId : PageId
deriving DecidableEq

structure WalScanResult where
  latestCommittedFrameOffsets : AList fun _ : PageId => Nat
  validWalEndOffset : Nat
  ignoredTrailingBytes : Bool

namespace WalScanner

open WalHeader WalPageFrame WalCommitRecord

/-- The variables of the loop in `scan`. -/
structure ScanState where
  offset : Nat
  pendingFrames : List PendingFrame
  pendingTransactionId : UInt64
  hasPendingTransaction : Bool
  /-- Records after a damaged record are no longer trustworthy until EOF. -/
  isDamagedTail : Bool
  latestCommittedFrameOffsets : AList fun _ : PageId => Nat
  validWalEndOffset : Nat

/-- `read_at` through a handle of its own on the file. -/
def readBytes (path : String) (bytes : List Byte) (offset size : Nat) : Result (List Byte) :=
  ((FileHandle.readAt offset size).run (.openOn path bytes)).1

/-- The assignments after a record that cannot be decoded. -/
def ScanState.damaged (s : ScanState) (recordSize : Nat) : ScanState :=
  { s with
    isDamagedTail := true
    pendingFrames := []
    pendingTransactionId := 0
    hasPendingTransaction := false
    offset := s.offset + recordSize }

/-- The branch of the loop for a page frame. -/
def stepPageFrame (path : String) (bytes : List Byte) (s : ScanState) :
    Result (Option ScanState) := do
  if bytes.length - s.offset < walPageFrameRecordSize then
    return none
  if s.isDamagedTail then
    return some { s with offset := s.offset + walPageFrameRecordSize }
  let pageFrameBytes ← readBytes path bytes s.offset walPageFrameRecordSize
  match WalPageFrame.decode (.ofList pageFrameBytes) with
  | .error _ => return some (s.damaged walPageFrameRecordSize)
  | .ok frame =>
    failIf (s.hasPendingTransaction = true ∧ s.pendingTransactionId ≠ frame.transactionId)
      (.Corruption "Cannot scan WAL file: interleaved transactions are unsupported")
    return some { s with
      pendingTransactionId := frame.transactionId
      hasPendingTransaction := true
      pendingFrames := s.pendingFrames ++ [⟨s.offset, frame.pageId⟩]
      offset := s.offset + walPageFrameRecordSize }

/-- The pending frames become the latest frames of their pages. -/
def commitFrames (offsets : AList fun _ : PageId => Nat) (pending : List PendingFrame) :
    AList fun _ : PageId => Nat :=
  pending.foldl (fun offsets frame => offsets.insert frame.pageId frame.offset) offsets

/-- The branch of the loop for a commit record. -/
def stepCommit (path : String) (bytes : List Byte) (s : ScanState) :
    Result (Option ScanState) := do
  if bytes.length - s.offset < walCommitRecordSize then
    return none
  let commitBytes ← readBytes path bytes s.offset walCommitRecordSize
  let decoded := WalCommitRecord.decode (.ofList commitBytes)
  if s.isDamagedTail then
    failIf (decoded.toBool = true)
      (.Corruption "Cannot scan WAL file: valid commit follows a damaged tail")
    return some { s with offset := s.offset + walCommitRecordSize }
  match decoded with
  | .error _ => return some (s.damaged walCommitRecordSize)
  | .ok walCommit =>
    let next := s.offset + walCommitRecordSize
    if s.hasPendingTransaction = false ∧ walCommit.frameCount = 0 then
      return some { s with offset := next, validWalEndOffset := next }
    failIf (s.hasPendingTransaction = false ∨
        walCommit.transactionId ≠ s.pendingTransactionId ∨
        walCommit.frameCount ≠ UInt64.ofNat s.pendingFrames.length)
      (.Corruption "Cannot scan WAL file: invalid frame count in commit record")
    return some { s with
      latestCommittedFrameOffsets := commitFrames s.latestCommittedFrameOffsets s.pendingFrames
      pendingFrames := []
      hasPendingTransaction := false
      pendingTransactionId := 0
      offset := next
      validWalEndOffset := next }

/-- The body of the loop: `none` is `break`. -/
def step (path : String) (bytes : List Byte) (s : ScanState) : Result (Option ScanState) := do
  if bytes.length - s.offset < 4 then
    return none
  let recordTypeBytes ← readBytes path bytes s.offset 4
  let storedRecordType ← readU32Le recordTypeBytes 0
  if storedRecordType = walPageFrameRecordType then
    stepPageFrame path bytes s
  else if storedRecordType = walCommitRecordType then
    stepCommit path bytes s
  else if bytes.length - s.offset < walCommitRecordSize then
    return none
  else
    .error (.Corruption "Cannot scan WAL file: unsupported record type")

theorem stepPageFrame_advances {path : String} {bytes : List Byte} {s s' : ScanState}
    (h : stepPageFrame path bytes s = .ok (some s')) : s.offset < s'.offset := by
  unfold stepPageFrame at h
  split at h
  · simp at h
  simp only [pure_eq_ok] at h
  split at h
  · cases h; simp [walPageFrameRecordSize]
  obtain ⟨read, -, h⟩ := bind_eq_ok.mp h
  split at h
  · cases h; simp [ScanState.damaged, walPageFrameRecordSize]
  · obtain ⟨-, -, h⟩ := bind_eq_ok.mp h
    cases h; simp [walPageFrameRecordSize]

theorem stepCommit_advances {path : String} {bytes : List Byte} {s s' : ScanState}
    (h : stepCommit path bytes s = .ok (some s')) : s.offset < s'.offset := by
  unfold stepCommit at h
  split at h
  · simp at h
  obtain ⟨read, -, h⟩ := bind_eq_ok.mp h
  simp only [pure_eq_ok] at h
  split at h
  · obtain ⟨-, -, h⟩ := bind_eq_ok.mp h
    cases h; simp [walCommitRecordSize]
  split at h
  · cases h; simp [ScanState.damaged, walCommitRecordSize]
  split at h
  · cases h; simp [walCommitRecordSize]
  obtain ⟨-, -, h⟩ := bind_eq_ok.mp h
  cases h; simp [walCommitRecordSize]

/-- Every pass through the loop moves forward. -/
theorem step_advances {path : String} {bytes : List Byte} {s s' : ScanState}
    (h : step path bytes s = .ok (some s')) : s.offset < s'.offset := by
  unfold step at h
  split at h
  · simp at h
  obtain ⟨typeBytes, -, h⟩ := bind_eq_ok.mp h
  obtain ⟨type, -, h⟩ := bind_eq_ok.mp h
  split at h
  · exact stepPageFrame_advances h
  split at h
  · exact stepCommit_advances h
  split at h <;> simp at h

/-- The loop of `scan`. -/
def loop (path : String) (bytes : List Byte) (s : ScanState) : Result ScanState :=
  if s.offset < bytes.length then
    match hstep : step path bytes s with
    | .error status => .error status
    | .ok none => .ok s
    | .ok (some s') =>
      have := step_advances hstep
      loop path bytes s'
  else .ok s
termination_by bytes.length - s.offset

/-- `scan` on a file with the given contents. -/
def scan (path : String) (bytes : List Byte) (expectedDatabaseId : UInt64) :
    Result WalScanResult := do
  failIf (bytes.length < walHeaderSize)
    (.Corruption "Cannot scan WAL file: file is smaller than the WAL header")
  let walHeaderBytes ← readBytes path bytes 0 walHeaderSize
  let walHeader ← WalHeader.decode (.ofList walHeaderBytes)
  failIf (walHeader.databaseId ≠ expectedDatabaseId)
    (.Corruption "Cannot scan WAL file: database id does not match")
  let s ← loop path bytes ⟨walHeaderSize, [], 0, false, false, ∅, walHeaderSize⟩
  return ⟨s.latestCommittedFrameOffsets, s.validWalEndOffset,
    s.validWalEndOffset ≠ bytes.length⟩

/-! ## One pass at a time -/

section Loop

variable {path : String} {bytes : List Byte} {s : ScanState}

theorem loop_of_step {s' : ScanState} (hlt : s.offset < bytes.length)
    (h : step path bytes s = .ok (some s')) : loop path bytes s = loop path bytes s' := by
  rw [loop, if_pos hlt]
  split
  · rename_i h'
    rw [h] at h'
    cases h'
  · rename_i h'
    rw [h] at h'
    cases h'
  · rename_i h'
    rw [h] at h'
    cases h'
    rfl

theorem loop_of_break (h : step path bytes s = .ok none) : loop path bytes s = .ok s := by
  rw [loop]
  split
  · split <;> rename_i h' <;> rw [h] at h' <;> cases h'
  · rfl

theorem loop_of_le (h : bytes.length ≤ s.offset) : loop path bytes s = .ok s := by
  rw [loop, if_neg (by omega)]

theorem readBytes_eq {offset size : Nat} (hsize : size ≤ FileHandle.maxDword)
    (h : offset + size ≤ bytes.length) :
    readBytes path bytes offset size = .ok (slice bytes offset size) := by
  have hread : (FileHandle.readAt offset size).Yields (.openOn path bytes) _ :=
    FileHandle.readAt_yields rfl hsize h
  obtain ⟨-, -, hr | ⟨hfaults, -⟩⟩ := hread
  · exact hr
  · exact absurd rfl hfaults

end Loop

end WalScanner

end DanDB.Wal
