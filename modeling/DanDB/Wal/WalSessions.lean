import DanDB.Lib.Runs
import DanDB.Wal.WalManager
import DanDB.Wal.WalPrefix

/-!
# Sessions on a log

A log is opened, appended to, emptied and closed, and opened again.  Opening
whatever file there is leaves a log (`openOrCreate_logs`), opening that once
more changes nothing, and what a scan finds later is what the first opening
recovered with the transactions since then on top (`openOrCreate_appendable`).
-/

namespace DanDB.Wal

open Buffer DanDB.Core Platform Storage WalHeader WalPageFrame WalCommitRecord

namespace WalScanner

variable {bytes : List Byte}

/-! ## The log in a valid prefix -/

theorem FramesFrom.encodeFrames {transactionId : UInt64} {offset stop : Nat}
    {frames : List PendingFrame} (h : FramesFrom bytes transactionId offset frames stop) :
    ∃ pages : List Page, pages.length = frames.length ∧
      bytes.drop offset = LogTransaction.encodeFrames transactionId pages ++ bytes.drop stop := by
  induction h with
  | nil => exact ⟨[], rfl, rfl⟩
  | @cons _ _ pageId image _ fits decodes _ ih =>
    obtain ⟨pages, hlen, hdrop⟩ := ih
    refine ⟨⟨pageId, image⟩ :: pages, congrArg Nat.succ hlen, ?_⟩
    rw [drop_eq_encode fits (WalPageFrame.encode_of_decode decodes), hdrop, ← List.append_assoc]
    rfl

theorem TransactionsFrom.encodeLog {offset stop : Nat} {ts : List ScannedTransaction}
    (h : TransactionsFrom bytes offset ts stop) :
    ∃ log, bytes.drop offset = Wal.encodeLog log ++ bytes.drop stop := by
  induction h with
  | nil => exact ⟨[], rfl⟩
  | @cons _ middle _ t _ frames commit _ ih =>
    obtain ⟨pages, hlen, hdrop⟩ := frames.encodeFrames
    obtain ⟨log, hrest⟩ := ih
    have hrecord : t.commit =
        LogTransaction.commitRecord ⟨t.commit.transactionId, pages⟩ := by
      rw [LogTransaction.commitRecord, hlen, ← commit.frameCount]
      rfl
    have hencode : LogTransaction.encode ⟨t.commit.transactionId, pages⟩ =
        LogTransaction.encodeFrames t.commit.transactionId pages ++ t.commit.encode.bytes := by
      rw [LogTransaction.encode, ← hrecord]
    have hrecordBytes : bytes.drop middle =
        t.commit.encode.bytes ++ bytes.drop (middle + walCommitRecordSize) :=
      drop_eq_encode commit.fits (WalCommitRecord.encode_of_decode commit.decodes)
    have hlog : Wal.encodeLog (⟨t.commit.transactionId, pages⟩ :: log) =
        LogTransaction.encode ⟨t.commit.transactionId, pages⟩ ++ Wal.encodeLog log := rfl
    refine ⟨⟨t.commit.transactionId, pages⟩ :: log, ?_⟩
    rw [hdrop, hrecordBytes, hrest, hlog, hencode, List.append_assoc, List.append_assoc]

/-- A valid prefix is a log. -/
theorem ValidPrefix.fileBytes {databaseId : UInt64} {ts : List ScannedTransaction} {stop : Nat}
    (h : ValidPrefix bytes databaseId ts stop) :
    ∃ log, bytes = WalManager.fileBytes databaseId log ++ bytes.drop stop := by
  obtain ⟨log, hlog⟩ := h.transactions.encodeLog
  have hfits : 0 + walHeaderSize ≤ bytes.length := by
    rw [Nat.zero_add]
    exact h.fits
  have hheader := drop_eq_encode hfits (WalHeader.encode_of_decode h.header)
  rw [List.drop_zero, Nat.zero_add] at hheader
  refine ⟨log, ?_⟩
  rw [WalManager.fileBytes, List.append_assoc, ← hlog]
  exact hheader

theorem FrameAt.append {offset : Nat} {page : Page} (h : FrameAt bytes offset page)
    (rest : List Byte) : FrameAt (bytes ++ rest) offset page := by
  obtain ⟨transactionId, behind, hdrop⟩ := h
  have hlt := lt_length_of_drop hdrop (by rw [Bytes.size_eq]; decide)
  refine ⟨transactionId, behind ++ rest, ?_⟩
  rw [List.drop_append_of_le_length hlt.le, hdrop, List.append_assoc]

theorem Indexes.append {offsets : AList fun _ : PageId => Nat} {overlay : Overlay}
    (h : Indexes bytes offsets overlay) (rest : List Byte) :
    Indexes (bytes ++ rest) offsets overlay := fun pageId => by
  have hpage := h pageId
  split at hpage
  · exact hpage
  · obtain ⟨data, hdata, hframe⟩ := hpage
    exact ⟨data, hdata, hframe.append rest⟩

/-- The file a scan succeeds on is a log and bytes behind it, and what the scan
finds is what the log says. -/
theorem scan_fileBytes {path : String} {databaseId : UInt64} {result : WalScanResult}
    (h : scan path bytes databaseId = .ok result) :
    ∃ log, bytes.take result.validWalEndOffset = WalManager.fileBytes databaseId log ∧
      result.validWalEndOffset = (WalManager.fileBytes databaseId log).length ∧
      Indexes bytes result.latestCommittedFrameOffsets (replay log) := by
  obtain ⟨ts, hpre, -⟩ := scan_validPrefix h
  have hle := scan_le_length h
  have hcut := scan_take h
  obtain ⟨log, hlog⟩ := hpre.fileBytes
  have hlen := congrArg List.length hlog
  rw [List.length_append, List.length_drop] at hlen
  have hend : result.validWalEndOffset = (WalManager.fileBytes databaseId log).length := by omega
  have htake : bytes.take result.validWalEndOffset = WalManager.fileBytes databaseId log := by
    rw [hlog, List.take_left' hend.symm]
  refine ⟨log, htake, hend, ?_⟩
  obtain ⟨result', hscan, -, -, hindex⟩ :=
    scan_log path databaseId torn_nil (List.append_nil (WalManager.fileBytes databaseId log)).symm
  rw [htake, hscan] at hcut
  cases hcut
  rw [hlog]
  exact hindex.append _

end WalScanner

namespace WalManager

open WalScanner

/-! ## Opening whatever there is -/

/-- The pages a scan of some contents recovers. -/
def recoveredOffsets (path : String) (contents : List Byte) (databaseId : UInt64) :
    AList fun _ : PageId => Nat :=
  match scan path contents databaseId with
  | .ok result => result.latestCommittedFrameOffsets
  | .error _ => ∅

/-- What opening some contents without an error leaves. -/
inductive OpenedFrom (path : String) (contents : List Byte) (databaseId : UInt64) :
    FileHandle → Nat → Prop
  | new {file : FileHandle} (empty : contents = [])
    (bytes : file.bytes = fileBytes databaseId []) :
    OpenedFrom path contents databaseId file walHeaderSize
  | log {file : FileHandle} {result : WalScanResult}
    (scanned : scan path contents databaseId = .ok result)
    (bytes : file.bytes = contents.take result.validWalEndOffset) :
    OpenedFrom path contents databaseId file result.validWalEndOffset

theorem dropIgnoredBytes_bytes {file : FileHandle} {result : WalScanResult}
    (hopen : file.isOpen = true) (hend : result.validWalEndOffset ≤ file.bytes.length)
    (hignored : result.ignoredTrailingBytes = true ↔
      result.validWalEndOffset < file.bytes.length) :
    (dropIgnoredBytes result).Yields file fun r file' =>
      FileHandle.SameHandle file file' ∧
        (r = .ok () → file'.bytes = file.bytes.take result.validWalEndOffset) := by
  unfold dropIgnoredBytes
  by_cases hlt : result.validWalEndOffset < file.bytes.length
  · rw [if_pos (hignored.mpr hlt)]
    refine (FileHandle.resize_yields hopen result.validWalEndOffset).bind (fun _ file' hmid => ?_)
      fun _ _ hmid => ⟨hmid.1, fun hok => by cases hok⟩
    obtain ⟨hsame, ⟨-, -, hcut⟩ | ⟨⟨_, hr⟩, -⟩⟩ := hmid
    swap
    · cases hr
    rw [resize_of_le 0 hend] at hcut
    exact (FileHandle.sync_yields (hsame.isOpen.trans hopen)).mono
      fun _ _ hmid => ⟨hsame.trans hmid.1, fun _ => hmid.2.1.trans hcut⟩
  · rw [if_neg (fun h => hlt (hignored.mp h))]
    exact Proc.yields_pure ⟨.refl file, fun _ => (List.take_of_length_le (by omega)).symm⟩

theorem openFile_yields (path : String) (contents : List Byte) (databaseId : UInt64) :
    (openFile path databaseId).Yields (.openOn path contents) fun r file =>
      FileHandle.SameHandle (.openOn path contents) file ∧
        ∀ offset, r = .ok offset → OpenedFrom path contents databaseId file offset := by
  have hbytes : (FileHandle.openOn path contents).bytes = contents := rfl
  have hnot {α : Type} {e : Status} {p : α → Prop} (a : α)
      (h : (Except.error e : Except Status α) = .ok a) : p a := by cases h
  refine (FileHandle.size_yields rfl).bind (fun size file hmid => ?_) (fun e file hmid => ?_)
  swap
  · cases hmid.1
  obtain ⟨hsize, rfl⟩ := hmid
  cases hsize
  rw [hbytes]
  split
  · rename_i hempty
    have hnil := List.length_eq_zero_iff.mp hempty
    subst hnil
    refine (FileHandle.writeAt_yields rfl 0 _ ?_).bind (fun _ file hmid => ?_)
      fun _ _ hmid => ⟨hmid.1, hnot⟩
    · rw [ne_eq, ← List.length_eq_zero_iff, Bytes.size_eq]
      decide
    · obtain ⟨hsame, ⟨-, hfile⟩ | ⟨⟨_, hr⟩, -⟩⟩ := hmid
      · refine Proc.yields_pure ⟨hsame, fun offset hok => ?_⟩
        cases hok
        refine .new rfl ?_
        rw [hfile, fileBytes, encodeLog, List.flatMap_nil, List.append_nil]
        simp [extend, FileHandle.openOn]
      · cases hr
  split
  · exact Proc.yields_fail ⟨.refl _, hnot⟩
  rename_i hlen
  refine (FileHandle.readAt_yields rfl (by decide) (by rw [hbytes]; omega)).bind
    (fun read file hmid => ?_) fun _ _ hmid => ⟨hmid.1, hnot⟩
  obtain ⟨hsame, hfile, -⟩ := hmid
  rw [hbytes] at hfile
  refine Proc.yields_ofExcept_bind (fun _ _ => ⟨hsame, hnot⟩) fun header _ => ?_
  refine Proc.yields_failIf_bind (fun _ => ⟨hsame, hnot⟩) fun _ => Proc.yields_get_bind ?_
  rw [hfile]
  refine Proc.yields_ofExcept_bind (fun _ _ => ⟨hsame, hnot⟩) fun result hscan => ?_
  refine (dropIgnoredBytes_bytes hsame.isOpen (by rw [hfile]; exact scan_le_length hscan)
    (by rw [hfile]; exact scan_ignored_iff hscan)).bind (fun _ file' hmid => ?_)
    fun _ _ hmid => ⟨hsame.trans hmid.1, hnot⟩
  obtain ⟨hsame', hcut⟩ := hmid
  refine Proc.yields_pure ⟨hsame.trans hsame', fun offset hok => ?_⟩
  cases hok
  exact .log hscan (by rw [hcut rfl, hfile])

/-- A log without transactions. -/
theorem validPrefix_nil (databaseId : UInt64) :
    ValidPrefix (fileBytes databaseId []) databaseId [] (fileBytes databaseId []).length := by
  have hlen : (fileBytes databaseId []).length = walHeaderSize := length_fileBytes databaseId []
  refine ⟨hlen.ge, ?_, by rw [hlen]; exact .nil _⟩
  rw [slice, List.drop_zero, take_fileBytes, Bytes.ofList_bytes, WalHeader.decode_encode]
  rfl

/-- Opening leaves a log with the pages a scan of the old contents recovers. -/
theorem openOrCreate_logs {path : String} {contents : Option (List Byte)} {databaseId : UInt64}
    {wal : WalManager} (h : openOrCreate path contents databaseId = .ok wal) :
    ∃ log, Opened path databaseId log wal ∧
      (∃ result, scan path wal.fileHandle.bytes databaseId = .ok result ∧
        result.latestCommittedFrameOffsets =
          recoveredOffsets path (contents.getD []) databaseId) ∧
      Indexes (contents.getD []) (recoveredOffsets path (contents.getD []) databaseId)
        (replay log) := by
  have hopened := openFile_yields path (contents.getD []) databaseId
  unfold Proc.Yields at hopened
  rw [openOrCreate] at h
  rcases hrun : (openFile path databaseId).run (.openOn path (contents.getD [])) with
    ⟨_ | offset, file⟩
  · rw [hrun] at h
    cases h
  rw [hrun] at h hopened
  obtain ⟨hsame, hfrom⟩ := hopened
  cases h
  cases hfrom offset rfl with
  | new hempty hbytes =>
    have hnone : recoveredOffsets path (contents.getD []) databaseId = ∅ := by
      have hfail : scan path (contents.getD []) databaseId =
          .error (.Corruption "Cannot scan WAL file: file is smaller than the WAL header") := by
        rw [scan, failIf_of (by rw [hempty]; decide), error_bind]
      rw [recoveredOffsets, hfail]
    refine ⟨[], ⟨⟨hsame.isOpen, hbytes, ?_⟩, rfl, hsame.faults_nil rfl⟩,
      ⟨_, hbytes ▸ scan_of_validPrefix (validPrefix_nil databaseId), hnone.symm⟩, ?_⟩
    · rw [hbytes, length_fileBytes]
      rfl
    · rw [hnone]
      exact fun _ => rfl
  | @log result hscan hbytes =>
    obtain ⟨log, htake, hend, hindex⟩ := scan_fileBytes hscan
    have hrecovered : recoveredOffsets path (contents.getD []) databaseId =
        result.latestCommittedFrameOffsets := by
      rw [recoveredOffsets, hscan]
    rw [hrecovered]
    refine ⟨log, ⟨⟨hsame.isOpen, hbytes.trans htake, ?_⟩, rfl, hsame.faults_nil rfl⟩,
      ⟨⟨result.latestCommittedFrameOffsets, result.validWalEndOffset, false⟩,
        hbytes ▸ scan_take hscan, rfl⟩, hindex⟩
    rw [hbytes, htake, hend]

/-! ## Sessions -/

/-- What happens to a log: a transaction is committed, the log is emptied, or it
is closed and opened again. -/
inductive LogCall where
  | commitTransaction (transactionId : UInt64) (pages : List Page)
  | reset
  | reopen

/-- The images of the pages after a call. -/
def LogCall.apply (overlay : Overlay) : LogCall → Overlay
  | .commitTransaction _ pages => overlay.apply pages
  | .reset => fun _ => none
  | .reopen => overlay

/-- A call that succeeds. -/
inductive Step (path : String) : WalManager → LogCall → Unit → WalManager → Prop
  | commitTransaction {wal wal' : WalManager} {transactionId : UInt64} {pages : List Page}
    (h : (commitTransaction transactionId pages).run wal = (.ok (), wal')) :
    Step path wal (.commitTransaction transactionId pages) () wal'
  | reset {wal wal' : WalManager} (h : reset.run wal = (.ok (), wal')) :
    Step path wal .reset () wal'
  | reopen {wal wal' : WalManager}
    (h : openOrCreate path (some (close.run wal).2.fileHandle.bytes) wal.databaseId = .ok wal') :
    Step path wal .reopen () wal'

/-- A commit that succeeds has found every page id valid. -/
theorem valid_of_commitTransaction {wal wal' : WalManager} {transactionId : UInt64}
    {pages : List Page} (h : (commitTransaction transactionId pages).run wal = (.ok (), wal')) :
    ∀ page ∈ pages, page.id.isValid = true := by
  have hframes {wal : WalManager} : (Proc.forEach (appendPageFrame transactionId) pages).Yields
      wal fun r _ => r = .ok () → ∀ page ∈ pages, page.id.isValid = true := by
    clear h
    induction pages generalizing wal with
    | nil => exact Proc.yields_pure fun _ page hmem => by cases hmem
    | cons page pages ih =>
      have hhead : (appendPageFrame transactionId page).Yields wal fun r _ =>
          r = .ok () → page.id.isValid = true := by
        refine Proc.yields_failIf_bind (fun _ hok => by cases hok) fun hvalid => ?_
        exact fun _ => Bool.not_eq_false _ ▸ hvalid
      rw [Proc.forEach_cons]
      refine hhead.bind (fun _ wal' hvalid => (@ih wal').mono fun r _ hrest hok => ?_)
        fun e _ _ hok => by cases hok
      exact List.forall_mem_cons.mpr ⟨hvalid rfl, hrest hok⟩
  have hcommit : (commitTransaction transactionId pages).Yields wal fun r _ =>
      r = .ok () → ∀ page ∈ pages, page.id.isValid = true :=
    hframes.bind (fun _ _ hvalid => (fun _ => hvalid rfl)) fun e _ _ hok => by cases hok
  unfold Proc.Yields at hcommit
  rw [h] at hcommit
  exact hcommit rfl

theorem close_bytes (wal : WalManager) :
    (close.run wal).2.fileHandle.bytes = wal.fileHandle.bytes :=
  wal.fileHandle.close_yields

/-- The manager is at the end of a log that says what the pages are. -/
structure Holds (databaseId : UInt64) (wal : WalManager) (overlay : Overlay) : Prop where
  databaseId : wal.databaseId = databaseId
  logs : ∃ log, Logs wal log ∧ replay log = overlay

theorem Holds.step {path : String} {databaseId : UInt64} {wal wal' : WalManager}
    {overlay : Overlay} {call : LogCall} (h : Holds databaseId wal overlay)
    (hstep : Step path wal call () wal') : Holds databaseId wal' (call.apply overlay) := by
  obtain ⟨rfl, log, hlogs, rfl⟩ := h
  cases hstep with
  | @commitTransaction _ transactionId pages hrun =>
    have hcommit := commitTransaction_yields hlogs transactionId (valid_of_commitTransaction hrun)
    unfold Proc.Yields at hcommit
    rw [hrun] at hcommit
    obtain ⟨hsame, ⟨-, hlogs'⟩ | ⟨⟨_, hr⟩, -⟩⟩ := hcommit
    · exact ⟨hsame.databaseId, _, hlogs', replay_concat log _⟩
    · cases hr
  | reset hrun =>
    have hreset := reset_yields hlogs
    unfold Proc.Yields at hreset
    rw [hrun] at hreset
    obtain ⟨hsame, ⟨-, hlogs'⟩ | ⟨⟨_, hr⟩, -⟩⟩ := hreset
    · exact ⟨hsame.databaseId, [], hlogs', rfl⟩
    · cases hr
  | reopen hopen =>
    obtain ⟨wal'', hopen', hopened⟩ :=
      openOrCreate_log path wal.databaseId log torn_nil (fun hne => absurd rfl hne)
    rw [close_bytes, hlogs.bytes] at hopen
    rw [List.append_nil, hopen] at hopen'
    cases hopen'
    exact ⟨hopened.databaseId, log, hopened.logs, rfl⟩

theorem Holds.runs {path : String} {databaseId : UInt64} {wal wal' : WalManager}
    {trace : List (LogCall × Unit)} {overlay : Overlay} (h : Holds databaseId wal overlay)
    (hruns : Runs (Step path) wal trace wal') :
    Holds databaseId wal' ((trace.map Prod.fst).foldl LogCall.apply overlay) := by
  induction hruns generalizing overlay with
  | nil => exact h
  | cons head _ ih => exact ih (h.step head)

/-- Opening a file is idempotent, and the log it leaves can be appended to: a
second opening changes no byte and recovers the same pages, and whatever is
committed, emptied and opened again later, a scan finds the recovered pages with
the later ones on top. -/
theorem openOrCreate_appendable {path : String} {contents : Option (List Byte)}
    {databaseId : UInt64} {wal : WalManager}
    (h : openOrCreate path contents databaseId = .ok wal) :
    (∃ wal', openOrCreate path (some wal.fileHandle.bytes) databaseId = .ok wal' ∧
      wal'.fileHandle.bytes = wal.fileHandle.bytes ∧ wal'.appendOffset = wal.appendOffset ∧
      recoveredOffsets path wal.fileHandle.bytes databaseId =
        recoveredOffsets path (contents.getD []) databaseId) ∧
    ∃ overlay, Indexes (contents.getD []) (recoveredOffsets path (contents.getD []) databaseId)
        overlay ∧
      ∀ trace wal', Runs (Step path) wal trace wal' →
        ∃ result, scan path wal'.fileHandle.bytes databaseId = .ok result ∧
          result.validWalEndOffset = wal'.appendOffset ∧ result.ignoredTrailingBytes = false ∧
          Indexes wal'.fileHandle.bytes result.latestCommittedFrameOffsets
            ((trace.map Prod.fst).foldl LogCall.apply overlay) := by
  obtain ⟨log, ⟨hlogs, rfl, -⟩, ⟨result, hscan, hsame⟩, hindex⟩ := openOrCreate_logs h
  refine ⟨?_, replay log, hindex, fun trace wal' hruns => ?_⟩
  · obtain ⟨wal', hopen, hopened⟩ :=
      openOrCreate_log path wal.databaseId log torn_nil (fun hne => absurd rfl hne)
    have hbytes : wal'.fileHandle.bytes = wal.fileHandle.bytes := by
      rw [hopened.logs.bytes, hopened.databaseId, hlogs.bytes]
    rw [List.append_nil, ← hlogs.bytes] at hopen
    refine ⟨wal', hopen, hbytes, ?_, ?_⟩
    · rw [hopened.logs.appendOffset, hbytes, hlogs.appendOffset]
    · rw [← hsame, recoveredOffsets, hscan]
  · obtain ⟨hid, log', hlogs', hreplay⟩ :=
      (⟨rfl, log, hlogs, rfl⟩ : Holds wal.databaseId wal (replay log)).runs hruns
    obtain ⟨result', hscan', hend, hignored, hindex'⟩ :=
      scan_log path wal.databaseId torn_nil
        (show wal'.fileHandle.bytes = fileBytes wal.databaseId log' ++ [] by
          rw [List.append_nil, hlogs'.bytes, hid])
    refine ⟨result', hscan', ?_, hignored, hreplay ▸ hindex'⟩
    rw [hend, hlogs'.appendOffset, hlogs'.bytes, length_fileBytes]

/-- A file with one committed page and the first bytes of another transaction, and one more
commit of the same page. -/
theorem openOrCreate_appendable_torn :
    ∃ contents wal wal' page result offset,
      contents = fileBytes 7 [⟨1, [.ofId 1]⟩] ++ (LogTransaction.encode ⟨2, [.ofId 2]⟩).take 10 ∧
      openOrCreate "wal" (some contents) 7 = .ok wal ∧
      (∃ wal', openOrCreate "wal" (some wal.fileHandle.bytes) 7 = .ok wal' ∧
        wal'.fileHandle.bytes = wal.fileHandle.bytes) ∧
      page.id = 1 ∧ page ≠ .ofId 1 ∧ (commitTransaction 2 [page]).run wal = (.ok (), wal') ∧
      scan "wal" wal'.fileHandle.bytes 7 = .ok result ∧ result.ignoredTrailingBytes = false ∧
      result.latestCommittedFrameOffsets.lookup 1 = some offset ∧
      FrameAt wal'.fileHandle.bytes offset page := by
  have hlen : (LogTransaction.encode ⟨2, [.ofId 2]⟩).length = 4168 :=
    LogTransaction.length_encode _
  have hlog : (encodeLog [⟨1, [.ofId 1]⟩]).length = 4168 := by
    rw [encodeLog_singleton]
    exact LogTransaction.length_encode _
  have htorn : Torn ((LogTransaction.encode ⟨2, [.ofId 2]⟩).take 10) :=
    ⟨⟨2, [.ofId 2]⟩, 10, by rw [hlen]; decide, rfl⟩
  obtain ⟨wal, hopen, hopened⟩ := openOrCreate_log "wal" 7 [⟨1, [.ofId 1]⟩] htorn fun _ => by
    rw [length_fileBytes, hlog, List.length_take, hlen]
    decide
  obtain ⟨⟨wal₁, hopen₁, hbytes, -⟩, overlay, -, hlater⟩ := openOrCreate_appendable hopen
  -- the page has other bytes now
  obtain ⟨data, hdata⟩ : ∃ data : PageData, data ≠ .zero :=
    ⟨⟨List.replicate pageSize 5, List.length_replicate⟩, fun heq => by
      have hbytes := congrArg Bytes.bytes heq
      cases hbytes⟩
  have hvalid : ∀ page ∈ [(⟨1, data⟩ : Page)], page.id.isValid = true := by
    intro page hmem
    rw [List.mem_singleton.mp hmem]
    rfl
  have hcommit := commitTransaction_yields hopened.logs 2 hvalid
  unfold Proc.Yields at hcommit
  rcases hrun : (commitTransaction 2 [⟨1, data⟩]).run wal with ⟨r, wal'⟩
  rw [hrun] at hcommit
  obtain ⟨-, ⟨rfl, -⟩ | ⟨-, hfaults, -⟩⟩ := hcommit
  swap
  · exact absurd hopened.noFaults hfaults
  obtain ⟨result, hscan, -, hignored, hindexes⟩ :=
    hlater [(.commitTransaction 2 [⟨1, data⟩], ())] wal' (.cons (.commitTransaction hrun) (.nil wal'))
  have hindex := hindexes 1
  have hpage : overlay.apply [⟨1, data⟩] 1 = some data := by
    rw [Overlay.apply, List.foldl_cons, List.foldl_nil]
    exact Function.update_self ..
  split at hindex
  · cases hpage.symm.trans hindex
  · rename_i offset hoffset
    obtain ⟨data', hdata', hframe⟩ := hindex
    obtain rfl := Option.some.inj (hpage.symm.trans hdata')
    exact ⟨_, wal, wal', ⟨1, data⟩, result, offset, rfl, hopen, ⟨wal₁, hopen₁, hbytes⟩, rfl,
      fun heq => hdata (congrArg Page.data heq), hrun, hscan, hignored, hoffset, hframe⟩

end WalManager

end DanDB.Wal
