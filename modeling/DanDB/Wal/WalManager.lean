import DanDB.Wal.WalLog

/-!
# Writing the log

The manager appends to the log at `appendOffset`, which is the end of the file
as long as no write has failed (`Logs`).  A commit that fails leaves the log
with some first bytes of the transaction behind it; a reset that fails leaves
either the old log or the empty one.
-/

namespace DanDB.Wal

open Buffer DanDB.Core Platform Storage WalHeader WalPageFrame WalCommitRecord

structure WalManager where
  fileHandle : FileHandle
  appendOffset : Nat
  databaseId : UInt64
deriving DecidableEq

namespace WalManager

/-- An operation on the file of the log. -/
def onFile {α : Type} (x : Proc Status FileHandle α) : Proc Status WalManager α :=
  Proc.zoom WalManager.fileHandle (fun file wal => { wal with fileHandle := file }) x

/-- Move the end of the log. -/
def setAppendOffset (offset : Nat) : Proc Status WalManager Unit :=
  Proc.modify fun wal => { wal with appendOffset := offset }

/-- Cut off what the scan ignored. -/
def dropIgnoredBytes (scanResult : WalScanResult) : Proc Status FileHandle Unit :=
  if scanResult.ignoredTrailingBytes then do
    FileHandle.resize scanResult.validWalEndOffset
    FileHandle.sync
  else
    pure ()

/-- The part of `open_or_create` that works on the file, up to the offset at
which the log ends. -/
def openFile (path : String) (expectedDatabaseId : UInt64) : Proc Status FileHandle Nat := do
  let fileSize ← FileHandle.size
  if fileSize = 0 then
    FileHandle.writeAt 0 (WalHeader.createNew expectedDatabaseId).encode.bytes
    return walHeaderSize
  else if fileSize < walHeaderSize then
    Proc.fail (.Corruption "Cannot open WAL file: file is smaller than the WAL header")
  else
    let walHeaderBytes ← FileHandle.readAt 0 walHeaderSize
    let walHeader ← Proc.ofExcept (WalHeader.decode (.ofList walHeaderBytes))
    Proc.failIf (walHeader.databaseId ≠ expectedDatabaseId)
      (.Corruption "Cannot open WAL file: database id does not match")
    let file ← Proc.get
    let scanResult ← Proc.ofExcept (WalScanner.scan path file.bytes expectedDatabaseId)
    dropIgnoredBytes scanResult
    return scanResult.validWalEndOffset

/-- `open_or_create` on a file with the given contents; a file that does not
exist yet is created empty. -/
def openOrCreate (path : String) (contents : Option (List Byte)) (expectedDatabaseId : UInt64) :
    Result WalManager :=
  match (openFile path expectedDatabaseId).run (.openOn path (contents.getD [])) with
  | (.ok appendOffset, file) => .ok ⟨file, appendOffset, expectedDatabaseId⟩
  | (.error status, _) => .error status

/-- The write both kinds of record end with. -/
def appendRecord (record : List Byte) (recordSize : Nat) : Proc Status WalManager Unit := do
  let wal ← Proc.get
  onFile (FileHandle.writeAt wal.appendOffset record)
  setAppendOffset (wal.appendOffset + recordSize)

def appendPageFrame (transactionId : UInt64) (page : Page) : Proc Status WalManager Unit := do
  Proc.failIf (page.id.isValid = false)
    (.InvalidArgument "Cannot append WAL page frame: page id is invalid")
  appendRecord (pageFrame transactionId page).encode.bytes walPageFrameRecordSize

def appendCommit (transactionId frameCount : UInt64) : Proc Status WalManager Unit :=
  appendRecord (WalCommitRecord.createNew transactionId frameCount).encode.bytes
    walCommitRecordSize

def sync : Proc Status WalManager Unit := onFile FileHandle.sync

def commitTransaction (transactionId : UInt64) (pages : List Page) :
    Proc Status WalManager Unit := do
  Proc.forEach (appendPageFrame transactionId) pages
  appendCommit transactionId (UInt64.ofNat pages.length)
  sync

/-- The resize of `reset`, with its second look at the file when it fails. -/
def truncate : Proc Status WalManager Unit := fun wal =>
  match (onFile (FileHandle.resize walHeaderSize)).run wal with
  | (.ok (), wal) => (setAppendOffset walHeaderSize).run wal
  | (.error status, wal) =>
    match (onFile FileHandle.size).run wal with
    | (.ok fileSize, wal) =>
      if fileSize = walHeaderSize then
        (.error status, { wal with appendOffset := walHeaderSize })
      else (.error status, wal)
    | (.error _, wal) => (.error status, wal)

def reset : Proc Status WalManager Unit := do
  let wal ← Proc.get
  truncate
  onFile (FileHandle.writeAt 0 (WalHeader.createNew wal.databaseId).encode.bytes)
  sync

def close : Proc Status WalManager Unit := onFile FileHandle.close

/-! ## What the file holds -/

/-- The bytes of a log file. -/
def fileBytes (databaseId : UInt64) (log : List LogTransaction) : List Byte :=
  (WalHeader.createNew databaseId).encode.bytes ++ encodeLog log

/-- The file is open and holds exactly the log, and the manager is at its end. -/
structure Logs (wal : WalManager) (log : List LogTransaction) : Prop where
  isOpen : wal.fileHandle.isOpen = true
  bytes : wal.fileHandle.bytes = fileBytes wal.databaseId log
  appendOffset : wal.appendOffset = wal.fileHandle.bytes.length

/-- The file is open and holds the log and some bytes behind it. -/
structure LogsTorn (wal : WalManager) (log : List LogTransaction) (tail : List Byte) : Prop where
  isOpen : wal.fileHandle.isOpen = true
  bytes : wal.fileHandle.bytes = fileBytes wal.databaseId log ++ tail

/-- Same handle, same database. -/
structure SameManager (wal wal' : WalManager) : Prop where
  handle : FileHandle.SameHandle wal.fileHandle wal'.fileHandle
  databaseId : wal'.databaseId = wal.databaseId

theorem SameManager.refl (wal : WalManager) : SameManager wal wal := ⟨.refl _, rfl⟩

theorem SameManager.trans {a b c : WalManager} (h : SameManager a b) (h' : SameManager b c) :
    SameManager a c :=
  ⟨h.handle.trans h'.handle, h'.databaseId.trans h.databaseId⟩

theorem length_fileBytes (databaseId : UInt64) (log : List LogTransaction) :
    (fileBytes databaseId log).length = walHeaderSize + (encodeLog log).length := by
  rw [fileBytes, List.length_append, Bytes.size_eq]
  rfl

section Operations

variable {wal : WalManager} {log : List LogTransaction}

theorem yields_onFile {α : Type} {x : Proc Status FileHandle α}
    {post : Except Status α → FileHandle → Prop} (h : x.Yields wal.fileHandle post) :
    (onFile x).Yields wal fun r wal' =>
      post r wal'.fileHandle ∧ wal' = { wal with fileHandle := wal'.fileHandle } :=
  ⟨h, rfl⟩

/-- The manager at the end of some contents. -/
structure AtEnd (wal : WalManager) (contents : List Byte) : Prop where
  isOpen : wal.fileHandle.isOpen = true
  bytes : wal.fileHandle.bytes = contents
  appendOffset : wal.appendOffset = contents.length

/-- A record is appended, or some first bytes of it are. -/
theorem appendRecord_yields {contents : List Byte} (h : AtEnd wal contents) {size : Nat}
    (record : Bytes size) (hsize : 0 < size) :
    (appendRecord record.bytes size).Yields wal fun r wal' =>
      SameManager wal wal' ∧
        (r = .ok () ∧ AtEnd wal' (contents ++ record.bytes) ∨
          (∃ e, r = .error e) ∧ wal.fileHandle.faults ≠ [] ∧
            ∃ n, wal'.fileHandle.bytes = contents ++ record.bytes.take n) := by
  have hne : record.bytes ≠ [] := by
    rw [ne_eq, ← List.length_eq_zero_iff, record.size_eq]
    omega
  have hextend (data : List Byte) :
      extend 0 wal.fileHandle.bytes wal.appendOffset data = contents ++ data := by
    rw [h.appendOffset, h.bytes, extend_length]
  refine Proc.yields_get_bind ?_
  refine (yields_onFile (FileHandle.writeAt_yields h.isOpen wal.appendOffset _ hne)).bind
    (fun _ wal' hmid => ?_) (fun e wal' hmid => ?_)
  · obtain ⟨⟨hsame, ⟨-, hbytes⟩ | ⟨⟨_, hr⟩, -⟩⟩, hwal⟩ := hmid
    · rw [hextend] at hbytes
      refine Proc.yields_modify ⟨⟨hsame, by rw [hwal]⟩, .inl ⟨rfl, ?_⟩⟩
      exact ⟨hsame.isOpen.trans h.isOpen, hbytes, by
        rw [h.appendOffset, List.length_append, record.size_eq]⟩
    · cases hr
  · obtain ⟨⟨hsame, ⟨hr, -⟩ | ⟨-, hfaults, hbytes⟩⟩, hwal⟩ := hmid
    · cases hr
    · refine ⟨⟨hsame, by rw [hwal]⟩, .inr ⟨⟨e, rfl⟩, hfaults, ?_⟩⟩
      obtain hbytes | hbytes | ⟨-, n, hbytes⟩ := hbytes
      · exact ⟨0, by rw [hbytes, h.bytes, List.take_zero, List.append_nil]⟩
      · exact ⟨record.bytes.length, by rw [hbytes, hextend, List.take_length]⟩
      · exact ⟨n, by rw [hbytes, hextend]⟩

/-- The frames of some pages are appended, or some first bytes of them are. -/
theorem appendFrames_yields {contents : List Byte} (h : AtEnd wal contents)
    (transactionId : UInt64) {pages : List Page} (hvalid : ∀ page ∈ pages, page.id.isValid = true) :
    (Proc.forEach (appendPageFrame transactionId) pages).Yields wal fun r wal' =>
      SameManager wal wal' ∧
        (r = .ok () ∧
            AtEnd wal' (contents ++ LogTransaction.encodeFrames transactionId pages) ∨
          (∃ e, r = .error e) ∧ wal.fileHandle.faults ≠ [] ∧
            ∃ n, wal'.fileHandle.bytes =
              contents ++ (LogTransaction.encodeFrames transactionId pages).take n) := by
  induction pages generalizing wal contents with
  | nil =>
    exact Proc.yields_pure ⟨.refl wal, .inl ⟨rfl, by
      rwa [LogTransaction.encodeFrames, List.flatMap_nil, List.append_nil]⟩⟩
  | cons page pages ih =>
    have hframes : LogTransaction.encodeFrames transactionId (page :: pages) =
        (pageFrame transactionId page).encode.bytes ++
          LogTransaction.encodeFrames transactionId pages := rfl
    have hhead := hvalid page (List.mem_cons_self ..)
    have hframe : (appendPageFrame transactionId page).Yields wal _ :=
      Proc.yields_failIf_bind (fun h => by simp [hhead] at h) fun _ =>
        appendRecord_yields h (pageFrame transactionId page).encode (by decide)
    rw [Proc.forEach_cons]
    refine hframe.bind (fun _ wal' hmid => ?_) (fun e wal' hmid => ?_)
    · obtain ⟨hsame, ⟨-, hend⟩ | ⟨⟨_, hr⟩, -⟩⟩ := hmid
      · refine (ih hend fun p hp => hvalid p (List.mem_cons_of_mem _ hp)).mono ?_
        rintro r wal'' ⟨hsame', ⟨rfl, hend'⟩ | ⟨he, hfaults, n, hbytes⟩⟩
        · exact ⟨hsame.trans hsame', .inl ⟨rfl, by rwa [hframes, ← List.append_assoc]⟩⟩
        · refine ⟨hsame.trans hsame', .inr ⟨he, fun hnil => hfaults ?_,
            (pageFrame transactionId page).encode.bytes.length + n, ?_⟩⟩
          · exact hsame.handle.faults_nil hnil
          · rw [hbytes, hframes, List.take_length_add_append, List.append_assoc]
      · cases hr
    · obtain ⟨hsame, ⟨hr, -⟩ | ⟨-, hfaults, n, hbytes⟩⟩ := hmid
      · cases hr
      · refine ⟨hsame, .inr ⟨⟨e, rfl⟩, hfaults,
          min n (pageFrame transactionId page).encode.bytes.length, ?_⟩⟩
        rw [hbytes, hframes, List.take_append_of_le_length (min_le_right _ _),
          List.take_eq_take_min]

theorem Logs.atEnd (h : Logs wal log) : AtEnd wal (fileBytes wal.databaseId log) :=
  ⟨h.isOpen, h.bytes, by rw [h.appendOffset, h.bytes]⟩

/-- The log with one more transaction. -/
theorem fileBytes_append (databaseId : UInt64) (log : List LogTransaction) (t : LogTransaction) :
    fileBytes databaseId (log ++ [t]) = fileBytes databaseId log ++ t.encode := by
  rw [fileBytes, encodeLog_append, encodeLog_singleton, fileBytes, List.append_assoc]

/-- A commit appends the transaction.  One that fails has appended some first
bytes of it, possibly all of them. -/
theorem commitTransaction_yields (h : Logs wal log) (transactionId : UInt64) {pages : List Page}
    (hvalid : ∀ page ∈ pages, page.id.isValid = true) :
    (commitTransaction transactionId pages).Yields wal fun r wal' =>
      SameManager wal wal' ∧
        (r = .ok () ∧ Logs wal' (log ++ [⟨transactionId, pages⟩]) ∨
          (∃ e, r = .error e) ∧ wal.fileHandle.faults ≠ [] ∧
            ∃ n, LogsTorn wal' log ((LogTransaction.encode ⟨transactionId, pages⟩).take n)) := by
  set t : LogTransaction := ⟨transactionId, pages⟩ with ht
  have hencode : t.encode = LogTransaction.encodeFrames transactionId pages ++
      t.commitRecord.encode.bytes := rfl
  have htorn {wal' : WalManager} (hsame : SameManager wal wal') {n : Nat}
      (hbytes : wal'.fileHandle.bytes = fileBytes wal.databaseId log ++ t.encode.take n) :
      LogsTorn wal' log (t.encode.take n) :=
    ⟨hsame.handle.isOpen.trans h.isOpen, by rw [hbytes, hsame.databaseId]⟩
  refine (appendFrames_yields h.atEnd transactionId hvalid).bind (fun _ wal' hmid => ?_)
    (fun e wal' hmid => ?_)
  · obtain ⟨hsame, ⟨-, hend⟩ | ⟨⟨_, hr⟩, -⟩⟩ := hmid
    swap
    · cases hr
    refine (appendRecord_yields hend t.commitRecord.encode (by decide)).bind
      (fun _ wal'' hmid => ?_) (fun e wal'' hmid => ?_)
    · obtain ⟨hsame', ⟨-, hend'⟩ | ⟨⟨_, hr⟩, -⟩⟩ := hmid
      swap
      · cases hr
      rw [List.append_assoc, ← hencode] at hend'
      refine (yields_onFile (FileHandle.sync_yields hend'.isOpen)).mono ?_
      rintro r wal₃ ⟨⟨hhandle, hbytes, hr⟩, hwal⟩
      have hsame₃ : SameManager wal wal₃ :=
        (hsame.trans hsame').trans ⟨hhandle, by rw [hwal]⟩
      rw [hend'.bytes] at hbytes
      obtain rfl | ⟨hfaults, he⟩ := hr
      · refine ⟨hsame₃, .inl ⟨rfl, ⟨hsame₃.handle.isOpen.trans h.isOpen, ?_, ?_⟩⟩⟩
        · rw [hbytes, hsame₃.databaseId, fileBytes_append]
        · rw [hbytes, hwal]
          exact hend'.appendOffset
      · refine ⟨hsame₃, .inr ⟨he, fun hnil => hfaults ?_, t.encode.length, htorn hsame₃ ?_⟩⟩
        · exact (hsame.trans hsame').handle.faults_nil hnil
        · rw [hbytes, List.take_length]
    · obtain ⟨hsame', ⟨hr, -⟩ | ⟨he, hfaults, n, hbytes⟩⟩ := hmid
      · cases hr
      refine ⟨hsame.trans hsame', .inr ⟨⟨e, rfl⟩, fun hnil => hfaults ?_,
        (LogTransaction.encodeFrames transactionId pages).length + n,
        htorn (hsame.trans hsame') ?_⟩⟩
      · exact hsame.handle.faults_nil hnil
      · rw [hbytes, hencode, List.take_length_add_append, List.append_assoc]
  · obtain ⟨hsame, ⟨hr, -⟩ | ⟨he, hfaults, n, hbytes⟩⟩ := hmid
    · cases hr
    refine ⟨hsame, .inr ⟨⟨e, rfl⟩, hfaults,
      min n (LogTransaction.encodeFrames transactionId pages).length, htorn hsame ?_⟩⟩
    rw [hbytes, hencode, List.take_append_of_le_length (min_le_right _ _), List.take_eq_take_min]

theorem take_fileBytes (databaseId : UInt64) (log : List LogTransaction) :
    (fileBytes databaseId log).take walHeaderSize =
      (WalHeader.createNew databaseId).encode.bytes :=
  List.take_left' (Bytes.size_eq _)

/-- A reset empties the log.  One that fails has emptied it or not begun. -/
theorem truncate_yields (h : Logs wal log) :
    truncate.Yields wal fun r wal' =>
      SameManager wal wal' ∧
        (r = .ok () ∧ Logs wal' [] ∨
          (∃ e, r = .error e) ∧ wal.fileHandle.faults ≠ [] ∧ (Logs wal' log ∨ Logs wal' [])) := by
  have hlen := length_fileBytes wal.databaseId log
  have hresize : Buffer.resize 0 wal.fileHandle.bytes walHeaderSize =
      fileBytes wal.databaseId [] := by
    rw [h.bytes, resize_of_le 0 (by omega), take_fileBytes, fileBytes, encodeLog,
      List.flatMap_nil, List.append_nil]
  have hempty : (fileBytes wal.databaseId []).length = walHeaderSize := length_fileBytes _ _
  have hspec := FileHandle.resize_yields h.isOpen walHeaderSize
  unfold Proc.Yields at hspec ⊢
  rcases hrun : (FileHandle.resize walHeaderSize).run wal.fileHandle with ⟨_ | _, file⟩
  · rename_i status
    rw [hrun] at hspec
    obtain ⟨hsame, ⟨hr, -⟩ | ⟨-, hfaults | hbig, hbytes⟩⟩ := hspec
    · cases hr
    swap
    · exact absurd hbig (by decide)
    have hopen : file.isOpen = true := hsame.isOpen.trans h.isOpen
    have hsize : (onFile FileHandle.size).run { wal with fileHandle := file } =
        (.ok file.bytes.length, { wal with fileHandle := file }) := by
      obtain ⟨hr, hfile⟩ := FileHandle.size_yields hopen
      rw [onFile, Proc.zoom_run, hr, hfile]
    have hout : truncate.run wal = (.error status,
        if file.bytes.length = walHeaderSize then
          { wal with fileHandle := file, appendOffset := walHeaderSize }
        else { wal with fileHandle := file }) := by
      have honFile : (onFile (FileHandle.resize walHeaderSize)).run wal =
          (.error status, { wal with fileHandle := file }) := by
        rw [onFile, Proc.zoom_run, hrun]
      rw [Proc.run, truncate, honFile]
      simp only
      rw [hsize]
      simp only
      split <;> rfl
    rw [hout]
    refine ⟨?_, .inr ⟨⟨status, rfl⟩, hfaults, ?_⟩⟩
    · split <;> exact ⟨hsame, rfl⟩
    obtain hbytes | ⟨-, hbytes⟩ := hbytes
    · left
      rw [hbytes]
      split
      · rename_i heq
        exact ⟨hopen, hbytes.trans h.bytes, by rw [← heq, ← hbytes]⟩
      · exact ⟨hopen, hbytes.trans h.bytes, h.appendOffset.trans (by rw [hbytes])⟩
    · right
      rw [hresize] at hbytes
      rw [hbytes, if_pos hempty]
      exact ⟨hopen, hbytes, by rw [hbytes, hempty]⟩
  · rw [hrun] at hspec
    obtain ⟨hsame, ⟨-, -, hbytes⟩ | ⟨⟨_, hr⟩, -⟩⟩ := hspec
    swap
    · cases hr
    have hout : truncate.run wal =
        (.ok (), { wal with fileHandle := file, appendOffset := walHeaderSize }) := by
      have honFile : (onFile (FileHandle.resize walHeaderSize)).run wal =
          (.ok (), { wal with fileHandle := file }) := by
        rw [onFile, Proc.zoom_run, hrun]
      rw [Proc.run, truncate, honFile]
      rfl
    rw [hout]
    rw [hresize] at hbytes
    exact ⟨⟨hsame, rfl⟩, .inl ⟨rfl, ⟨hsame.isOpen.trans h.isOpen, hbytes, by
      rw [hbytes, hempty]⟩⟩⟩

/-- Writing first bytes of a buffer over it changes nothing. -/
theorem extend_take_self (bytes : List Byte) (n : Nat) :
    extend 0 bytes 0 (bytes.take n) = bytes := by
  simp only [extend, List.take_zero, Nat.zero_sub, List.replicate_zero, List.nil_append,
    Nat.zero_add, List.length_take]
  rcases Nat.le_total n bytes.length with h | h
  · rw [min_eq_left h, List.take_append_drop]
  · rw [min_eq_right h, List.take_of_length_le h, List.drop_length, List.append_nil]

theorem reset_yields (h : Logs wal log) :
    reset.Yields wal fun r wal' =>
      SameManager wal wal' ∧
        (r = .ok () ∧ Logs wal' [] ∨
          (∃ e, r = .error e) ∧ wal.fileHandle.faults ≠ [] ∧ (Logs wal' log ∨ Logs wal' [])) := by
  have hempty : fileBytes wal.databaseId [] =
      (WalHeader.createNew wal.databaseId).encode.bytes := by
    rw [fileBytes, encodeLog, List.flatMap_nil, List.append_nil]
  have hne : (WalHeader.createNew wal.databaseId).encode.bytes ≠ [] := by
    rw [ne_eq, ← List.length_eq_zero_iff, Bytes.size_eq]
    decide
  refine Proc.yields_get_bind ?_
  refine (truncate_yields h).bind (fun _ wal' hmid => ?_) (fun e wal' hmid => ?_)
  · obtain ⟨hsame, ⟨-, hlogs⟩ | ⟨⟨_, hr⟩, -⟩⟩ := hmid
    swap
    · cases hr
    have hbytes' : wal'.fileHandle.bytes = fileBytes wal.databaseId [] := by
      rw [hlogs.bytes, hsame.databaseId]
    -- the header is written over itself, so nothing changes however far the write gets
    have hwrite (n : Nat) : extend 0 wal'.fileHandle.bytes 0
        ((WalHeader.createNew wal.databaseId).encode.bytes.take n) =
          wal'.fileHandle.bytes := by
      rw [← hempty, ← hbytes', extend_take_self]
    have hlogs' {wal'' : WalManager}
        (hhandle : FileHandle.SameHandle wal'.fileHandle wal''.fileHandle)
        (hwal : wal'' = { wal' with fileHandle := wal''.fileHandle })
        (hbytes : wal''.fileHandle.bytes = wal'.fileHandle.bytes) :
        SameManager wal' wal'' ∧ Logs wal'' [] := by
      refine ⟨⟨hhandle, by rw [hwal]⟩, hhandle.isOpen.trans hlogs.isOpen, ?_, ?_⟩
      · rw [hbytes, hlogs.bytes, hwal]
      · rw [hbytes, hwal]
        exact hlogs.appendOffset
    refine (yields_onFile (FileHandle.writeAt_yields hlogs.isOpen 0 _ hne)).bind
      (fun _ wal'' hmid => ?_) (fun e wal'' hmid => ?_)
    · obtain ⟨⟨hhandle, ⟨-, hbytes⟩ | ⟨⟨_, hr⟩, -⟩⟩, hwal⟩ := hmid
      swap
      · cases hr
      have hfull := hwrite (WalHeader.createNew wal.databaseId).encode.bytes.length
      rw [List.take_length] at hfull
      obtain ⟨hsame', hlogs''⟩ := hlogs' hhandle hwal (hbytes.trans hfull)
      refine (yields_onFile (FileHandle.sync_yields hlogs''.isOpen)).mono ?_
      rintro r wal₃ ⟨⟨hhandle₃, hbytes₃, hr⟩, hwal₃⟩
      have hlogs₃ : Logs wal₃ [] := by
        refine ⟨hhandle₃.isOpen.trans hlogs''.isOpen, ?_, ?_⟩
        · rw [hbytes₃, hlogs''.bytes, hwal₃]
        · rw [hbytes₃, hwal₃]
          exact hlogs''.appendOffset
      have hsame₃ := (hsame.trans hsame').trans ⟨hhandle₃, by rw [hwal₃]⟩
      obtain rfl | ⟨hfaults, he⟩ := hr
      · exact ⟨hsame₃, .inl ⟨rfl, hlogs₃⟩⟩
      · refine ⟨hsame₃, .inr ⟨he, fun hnil => hfaults ?_, .inr hlogs₃⟩⟩
        exact (hsame.trans hsame').handle.faults_nil hnil
    · obtain ⟨⟨hhandle, ⟨hr, -⟩ | ⟨-, hfaults, hbytes⟩⟩, hwal⟩ := hmid
      · cases hr
      have hbytes'' : wal''.fileHandle.bytes = wal'.fileHandle.bytes := by
        obtain hbytes | hbytes | ⟨-, n, hbytes⟩ := hbytes
        · exact hbytes
        · have hfull := hwrite (WalHeader.createNew wal.databaseId).encode.bytes.length
          rw [List.take_length] at hfull
          exact hbytes.trans hfull
        · exact hbytes.trans (hwrite n)
      obtain ⟨hsame', hlogs''⟩ := hlogs' hhandle hwal hbytes''
      refine ⟨hsame.trans hsame', .inr ⟨⟨e, rfl⟩, fun hnil => hfaults ?_, .inr hlogs''⟩⟩
      exact hsame.handle.faults_nil hnil
  · obtain ⟨hsame, ⟨hr, -⟩ | ⟨-, hfaults, hlogs⟩⟩ := hmid
    · cases hr
    · exact ⟨hsame, .inr ⟨⟨e, rfl⟩, hfaults, hlogs⟩⟩

end Operations

/-! ## Opening -/

/-- The outcome of opening a file that holds a log and a torn transaction. -/
structure Opened (path : String) (databaseId : UInt64) (log : List LogTransaction)
    (wal : WalManager) : Prop where
  logs : Logs wal log
  databaseId : wal.databaseId = databaseId
  noFaults : wal.fileHandle.faults = []

theorem openOrCreate_of_yields {path : String} {contents : Option (List Byte)}
    {databaseId : UInt64} {log : List LogTransaction}
    (h : (openFile path databaseId).Yields (.openOn path (contents.getD [])) fun r file =>
      r = .ok (fileBytes databaseId log).length ∧ file.bytes = fileBytes databaseId log ∧
        FileHandle.SameHandle (.openOn path (contents.getD [])) file) :
    ∃ wal, openOrCreate path contents databaseId = .ok wal ∧ Opened path databaseId log wal := by
  unfold Proc.Yields at h
  rcases hrun : (openFile path databaseId).run (.openOn path (contents.getD [])) with ⟨r, file⟩
  rw [hrun] at h
  obtain ⟨rfl, hbytes, hsame⟩ := h
  refine ⟨⟨file, _, databaseId⟩, by rw [openOrCreate, hrun],
    ⟨hsame.isOpen, hbytes, congrArg List.length hbytes.symm⟩, rfl, hsame.faults_nil rfl⟩

/-- A new file becomes an empty log. -/
theorem openOrCreate_new (path : String) (databaseId : UInt64) :
    ∃ wal, openOrCreate path none databaseId = .ok wal ∧ Opened path databaseId [] wal := by
  have hempty : fileBytes databaseId [] = (WalHeader.createNew databaseId).encode.bytes := by
    rw [fileBytes, encodeLog, List.flatMap_nil, List.append_nil]
  have hne : (WalHeader.createNew databaseId).encode.bytes ≠ [] := by
    rw [ne_eq, ← List.length_eq_zero_iff, Bytes.size_eq]
    decide
  refine openOrCreate_of_yields ?_
  refine (FileHandle.size_yields rfl).bind (fun _ file hmid => ?_) (fun e file hmid => ?_)
  swap
  · cases hmid.1
  obtain ⟨hsize, rfl⟩ := hmid
  cases hsize
  rw [if_pos (show (FileHandle.openOn path (none.getD [])).bytes.length = 0 from rfl)]
  refine (FileHandle.writeAt_yields rfl 0 _ hne).bind (fun _ file hmid => ?_)
    (fun e file hmid => ?_)
  · obtain ⟨hsame, ⟨-, hbytes⟩ | ⟨⟨_, hr⟩, -⟩⟩ := hmid
    · refine Proc.yields_pure ⟨?_, ?_, hsame⟩
      · rw [length_fileBytes]
        rfl
      · rw [hbytes, hempty]
        simp [extend, FileHandle.openOn]
    · cases hr
  · obtain ⟨-, ⟨hr, -⟩ | ⟨-, hfaults, -⟩⟩ := hmid
    · cases hr
    · exact absurd rfl hfaults

theorem dropIgnoredBytes_yields {file : FileHandle} {result : WalScanResult}
    {contents tail : List Byte} (hopen : file.isOpen = true) (hfaults : file.faults = [])
    (hbytes : file.bytes = contents ++ tail) (hend : result.validWalEndOffset = contents.length)
    (hignored : result.ignoredTrailingBytes = !tail.isEmpty)
    (hsize : tail ≠ [] → contents.length + tail.length ≤ FileHandle.maxFileSize) :
    (dropIgnoredBytes result).Yields file fun r file' =>
      r = .ok () ∧ file'.bytes = contents ∧ FileHandle.SameHandle file file' := by
  rw [dropIgnoredBytes, hend, hignored]
  cases tail with
  | nil => exact Proc.yields_pure ⟨rfl, by rw [hbytes, List.append_nil], .refl file⟩
  | cons byte rest =>
    rw [if_pos (by rfl)]
    have hfit := hsize (List.cons_ne_nil _ _)
    refine (FileHandle.resize_yields hopen contents.length).bind (fun _ file' hmid => ?_)
      (fun e file' hmid => ?_)
    · obtain ⟨hsame, ⟨-, -, hcut⟩ | ⟨⟨_, hr⟩, -⟩⟩ := hmid
      swap
      · cases hr
      rw [resize_of_le 0 (by rw [hbytes, List.length_append]; omega), hbytes,
        List.take_left] at hcut
      refine (FileHandle.sync_yields (hsame.isOpen.trans hopen)).mono ?_
      rintro r file'' ⟨hsame', hsync, rfl | ⟨hnone, -⟩⟩
      · exact ⟨rfl, hsync.trans hcut, hsame.trans hsame'⟩
      · exact absurd (hsame.faults_nil hfaults) hnone
    · obtain ⟨-, ⟨hr, -⟩ | ⟨-, hnone | hbig, -⟩⟩ := hmid
      · cases hr
      · exact absurd hfaults hnone
      · omega

/-- Opening a log drops the torn transaction behind it. -/
theorem openOrCreate_log (path : String) (databaseId : UInt64) (log : List LogTransaction)
    {tail : List Byte} (htail : Torn tail)
    (hsize : tail ≠ [] →
      (fileBytes databaseId log).length + tail.length ≤ FileHandle.maxFileSize) :
    ∃ wal, openOrCreate path (some (fileBytes databaseId log ++ tail)) databaseId = .ok wal ∧
      Opened path databaseId log wal := by
  set bytes := fileBytes databaseId log ++ tail with hbytes
  have hlen : bytes.length = walHeaderSize + (encodeLog log).length + tail.length := by
    rw [hbytes, List.length_append, length_fileBytes]
  have hpos : 0 < walHeaderSize := by decide
  obtain ⟨result, hscan, hend, hignored, -⟩ := WalScanner.scan_log path databaseId htail hbytes
  have hheader : slice bytes 0 walHeaderSize = (WalHeader.createNew databaseId).encode.bytes := by
    rw [hbytes, slice_append_left (by rw [length_fileBytes]; omega), slice, List.drop_zero,
      take_fileBytes]
  refine openOrCreate_of_yields ?_
  rw [Option.getD_some]
  refine (FileHandle.size_yields rfl).bind (fun _ file hmid => ?_) (fun e file hmid => ?_)
  swap
  · cases hmid.1
  obtain ⟨hsize, rfl⟩ := hmid
  have hbytes' : (FileHandle.openOn path bytes).bytes = bytes := rfl
  cases hsize
  rw [hbytes', if_neg (by omega), if_neg (by omega)]
  refine (FileHandle.readAt_yields rfl (by decide) (by rw [hbytes']; omega)).bind
    (fun read file hmid => ?_) (fun e file hmid => ?_)
  swap
  · obtain ⟨-, -, hr | ⟨hfaults, -⟩⟩ := hmid
    · cases hr
    · exact absurd rfl hfaults
  obtain ⟨hsame, hfile, hr | ⟨hfaults, -⟩⟩ := hmid
  swap
  · exact absurd rfl hfaults
  cases hr
  rw [hbytes', hheader, Bytes.ofList_bytes, WalHeader.decode_encode]
  refine Proc.yields_ofExcept_bind (fun _ h => by cases h) fun header h => ?_
  cases h
  refine Proc.yields_failIf_bind (fun h => absurd rfl h) fun _ => ?_
  refine Proc.yields_get_bind ?_
  rw [hfile, hbytes', hscan]
  refine Proc.yields_ofExcept_bind (fun _ h => by cases h) fun scanResult h => ?_
  cases h
  have hdrop := dropIgnoredBytes_yields hsame.isOpen (hsame.faults_nil rfl)
    (hfile.trans hbytes) (hend.trans (length_fileBytes databaseId log).symm) hignored hsize
  refine hdrop.bind (fun _ file' hmid => ?_) (fun e file' hmid => ?_)
  · obtain ⟨-, hbytes'', hsame'⟩ := hmid
    exact Proc.yields_pure ⟨by rw [hend, length_fileBytes], hbytes'', hsame.trans hsame'⟩
  · cases hmid.1

end WalManager

end DanDB.Wal
