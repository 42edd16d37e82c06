import DanDB.Wal.WalScanner

/-!
# What a log says

A log is a sequence of committed transactions, each a list of page images, and
replaying it leaves for every page its last image.  `scan` finds exactly the
transactions that are complete: on a log followed by a strict prefix of one
more transaction it stops at the end of the log (`scan_log`).
-/

namespace DanDB.Wal

open Buffer DanDB.Core Platform Storage

/-- A transaction as the log records it. -/
structure LogTransaction where
  transactionId : UInt64
  pages : List Page
deriving DecidableEq

/-- The frame of one page of a transaction. -/
def pageFrame (transactionId : UInt64) (page : Page) : WalPageFrame :=
  .createNew transactionId page.id page.data

namespace LogTransaction

def commitRecord (t : LogTransaction) : WalCommitRecord :=
  .createNew t.transactionId (UInt64.ofNat t.pages.length)

/-- The frames of some pages, one after the other. -/
def encodeFrames (transactionId : UInt64) (pages : List Page) : List Byte :=
  pages.flatMap fun page => (pageFrame transactionId page).encode.bytes

def encode (t : LogTransaction) : List Byte :=
  encodeFrames t.transactionId t.pages ++ t.commitRecord.encode.bytes

end LogTransaction

def encodeLog (log : List LogTransaction) : List Byte := log.flatMap LogTransaction.encode

/-- The latest image of each page that has one. -/
abbrev Overlay := PageId → Option PageData

/-- Put some pages, the later ones on top. -/
def Overlay.apply (overlay : Overlay) (pages : List Page) : Overlay :=
  pages.foldl (fun overlay page => Function.update overlay page.id (some page.data)) overlay

/-- The pages after all transactions of a log. -/
def Overlay.replay (overlay : Overlay) (log : List LogTransaction) : Overlay :=
  log.foldl (fun overlay t => overlay.apply t.pages) overlay

def replay (log : List LogTransaction) : Overlay := Overlay.replay (fun _ => none) log

theorem replay_concat (log : List LogTransaction) (t : LogTransaction) :
    replay (log ++ [t]) = (replay log).apply t.pages := by
  rw [replay, Overlay.replay, List.foldl_append]
  rfl

theorem Overlay.apply_of_notMem {overlay : Overlay} {pages : List Page} {pageId : PageId}
    (h : pageId ∉ pages.map Page.id) : overlay.apply pages pageId = overlay pageId := by
  induction pages generalizing overlay with
  | nil => rfl
  | cons page pages ih =>
    rw [List.map_cons, List.mem_cons, not_or] at h
    exact (ih h.2).trans (Function.update_of_ne h.1 ..)

theorem Overlay.apply_of_mem {overlay : Overlay} {pages : List Page} {page : Page}
    (hnodup : (pages.map Page.id).Nodup) (h : page ∈ pages) :
    overlay.apply pages page.id = some page.data := by
  induction pages generalizing overlay with
  | nil => cases h
  | cons first pages ih =>
    obtain ⟨hnotin, hrest⟩ := List.nodup_cons.mp (List.map_cons ▸ hnodup)
    obtain rfl | h := List.mem_cons.mp h
    · exact (Overlay.apply_of_notMem hnotin).trans (Function.update_self ..)
    · exact ih hrest h

theorem LogTransaction.length_encode (t : LogTransaction) :
    t.encode.length = WalPageFrame.walPageFrameRecordSize * t.pages.length +
      WalCommitRecord.walCommitRecordSize := by
  have hframes (pages : List Page) : (encodeFrames t.transactionId pages).length =
      WalPageFrame.walPageFrameRecordSize * pages.length := by
    induction pages with
    | nil => rfl
    | cons page pages ih =>
      rw [encodeFrames, List.flatMap_cons, List.length_append, ← encodeFrames, ih, Bytes.size_eq,
        List.length_cons, Nat.mul_succ, Nat.add_comm]
      rfl
  rw [encode, List.length_append, hframes, Bytes.size_eq]
  rfl

/-- Some first bytes of a transaction, not all of them. -/
def Torn (tail : List Byte) : Prop :=
  ∃ t : LogTransaction, ∃ n, n < t.encode.length ∧ tail = t.encode.take n

namespace WalScanner

open WalHeader WalPageFrame WalCommitRecord

variable {path : String} {bytes : List Byte} {s : ScanState}

/-! ## Reading one record -/

theorem slice_of_drop {off n : Nat} {xs rest : List Byte} (h : bytes.drop off = xs ++ rest)
    (hn : n ≤ xs.length) : slice bytes off n = xs.take n := by
  rw [slice, h, List.take_append_of_le_length hn]

theorem length_of_drop {off : Nat} {xs : List Byte} (h : bytes.drop off = xs) :
    bytes.length - off = xs.length := by
  rw [← h, List.length_drop]

/-- The record type in front of the loop's branches. -/
theorem step_of_type {type : UInt32} (hlen : 4 ≤ bytes.length - s.offset)
    (htype : slice bytes s.offset 4 = leBytes 4 type.toNat) :
    step path bytes s =
      if type = walPageFrameRecordType then stepPageFrame path bytes s
      else if type = walCommitRecordType then stepCommit path bytes s
      else if bytes.length - s.offset < walCommitRecordSize then .ok none
      else .error (.Corruption "Cannot scan WAL file: unsupported record type") := by
  have hread : readU32Le (leBytes 4 type.toNat) 0 = .ok type := by
    rw [readU32Le_ok (by rw [length_leBytes]), slice, List.drop_zero,
      List.take_of_length_le (by rw [length_leBytes]), ofNat_leValue_leBytes_32]
  rw [step, if_neg (by omega), readBytes_eq (by decide) (by omega), ok_bind, htype, hread,
    ok_bind]
  rfl

variable (path) in
theorem step_frame {frame : WalPageFrame} {rest : List Byte}
    (hbytes : bytes.drop s.offset = frame.encode.bytes ++ rest)
    (hdamaged : s.isDamagedTail = false)
    (hpending : s.hasPendingTransaction = true →
      s.pendingTransactionId = frame.transactionId) :
    step path bytes s = .ok (some { s with
      pendingTransactionId := frame.transactionId
      hasPendingTransaction := true
      pendingFrames := s.pendingFrames ++ [⟨s.offset, frame.pageId⟩]
      offset := s.offset + walPageFrameRecordSize }) := by
  have hsize := frame.encode.size_eq
  have hlen := length_of_drop hbytes
  rw [List.length_append, hsize] at hlen
  have htype : slice bytes s.offset 4 = leBytes 4 walPageFrameRecordType.toNat := by
    rw [slice_of_drop hbytes (by omega), Bytes.take_eq_slice, frame.slice_encode_type]
  have hall : slice bytes s.offset walPageFrameRecordSize = frame.encode.bytes :=
    (slice_of_drop hbytes hsize.ge).trans (List.take_of_length_le hsize.le)
  rw [step_of_type (by omega) htype, if_pos rfl, stepPageFrame,
    if_neg (by simp only [walPageFrameRecordSize]; omega)]
  simp only [hdamaged, Bool.false_eq_true, if_false, pure_eq_ok]
  rw [readBytes_eq (by decide) (by simp only [walPageFrameRecordSize]; omega), ok_bind, hall,
    Bytes.ofList_bytes, frame.decode_encode]
  simp only
  rw [failIf_of_not (fun h => h.2 (hpending h.1)), ok_bind]

variable (path) in
/-- A commit record that matches the frames before it. -/
theorem step_commit {record : WalCommitRecord} {rest : List Byte}
    (hbytes : bytes.drop s.offset = record.encode.bytes ++ rest)
    (hdamaged : s.isDamagedTail = false)
    (hcount : record.frameCount = UInt64.ofNat s.pendingFrames.length)
    (hpending : s.hasPendingTransaction = true ∧
        s.pendingTransactionId = record.transactionId ∨
      s.hasPendingTransaction = false ∧ s.pendingFrames = [] ∧ s.pendingTransactionId = 0) :
    step path bytes s = .ok (some { s with
      latestCommittedFrameOffsets := commitFrames s.latestCommittedFrameOffsets s.pendingFrames
      pendingFrames := []
      hasPendingTransaction := false
      pendingTransactionId := 0
      offset := s.offset + walCommitRecordSize
      validWalEndOffset := s.offset + walCommitRecordSize }) := by
  have hsize := record.encode.size_eq
  have hlen := length_of_drop hbytes
  rw [List.length_append, hsize] at hlen
  have htype : slice bytes s.offset 4 = leBytes 4 walCommitRecordType.toNat := by
    rw [slice_of_drop hbytes (by omega), Bytes.take_eq_slice, record.slice_encode_type]
  have hall : slice bytes s.offset walCommitRecordSize = record.encode.bytes :=
    (slice_of_drop hbytes hsize.ge).trans (List.take_of_length_le hsize.le)
  rw [step_of_type (by omega) htype, if_neg (by decide), if_pos rfl, stepCommit,
    if_neg (by simp only [walCommitRecordSize]; omega)]
  simp only [hdamaged, Bool.false_eq_true, if_false, pure_eq_ok]
  rw [readBytes_eq (by decide) (by simp only [walCommitRecordSize]; omega), ok_bind, hall,
    Bytes.ofList_bytes, record.decode_encode]
  simp only
  obtain ⟨hhas, htransaction⟩ | ⟨hhas, hnil, hzero⟩ := hpending
  · rw [if_neg (by simp [hhas]), failIf_of_not (by simp [hhas, htransaction, hcount]), ok_bind]
  · rw [if_pos ⟨hhas, by rw [hcount, hnil]; rfl⟩]
    obtain ⟨offset, pending, transactionId, has, damaged, latest, last⟩ := s
    simp only at hhas hnil hzero
    subst hhas hnil hzero
    rfl

/-- Less than a whole record ends the loop. -/
theorem step_torn {n size : Nat} {record : Bytes size} {type : UInt32}
    (hbytes : bytes.drop s.offset = record.bytes.take n) (hn : n < size)
    (htype : record.slice 0 4 = leBytes 4 type.toNat)
    (hkind : type = walPageFrameRecordType ∧ size = walPageFrameRecordSize ∨
      type = walCommitRecordType ∧ size = walCommitRecordSize) :
    step path bytes s = .ok none := by
  have hlen := length_of_drop hbytes
  rw [List.length_take, record.size_eq] at hlen
  by_cases h4 : bytes.length - s.offset < 4
  · rw [step, if_pos h4, pure_eq_ok]
  have htype' : slice bytes s.offset 4 = leBytes 4 type.toNat := by
    rw [slice, hbytes, List.take_take, ← htype, ← Bytes.take_eq_slice, min_eq_left (by omega)]
  rw [step_of_type (by omega) htype']
  obtain ⟨rfl, rfl⟩ | ⟨rfl, rfl⟩ := hkind
  · rw [if_pos rfl, stepPageFrame, if_pos (by omega), pure_eq_ok]
  · rw [if_neg (by decide), if_pos rfl, stepCommit, if_pos (by omega), pure_eq_ok]

/-! ## Reading a transaction -/

/-- The bytes at an offset are the frame of a page. -/
def FrameAt (bytes : List Byte) (offset : Nat) (page : Page) : Prop :=
  ∃ transactionId rest, bytes.drop offset = (pageFrame transactionId page).encode.bytes ++ rest

/-- The offsets lead to the images of an overlay. -/
def Indexes (bytes : List Byte) (offsets : AList fun _ : PageId => Nat) (overlay : Overlay) :
    Prop :=
  ∀ pageId, match offsets.lookup pageId with
    | none => overlay pageId = none
    | some offset => ∃ data, overlay pageId = some data ∧ FrameAt bytes offset ⟨pageId, data⟩

/-- The frames that are pending are those of some pages. -/
def Pending (bytes : List Byte) (pending : List PendingFrame) (pages : List Page) : Prop :=
  List.Forall₂ (fun frame page => frame.pageId = page.id ∧ FrameAt bytes frame.offset page)
    pending pages

theorem Indexes.commitFrames {offsets : AList fun _ : PageId => Nat} {overlay : Overlay}
    {pending : List PendingFrame} {pages : List Page} (h : Indexes bytes offsets overlay)
    (hpending : Pending bytes pending pages) :
    Indexes bytes (commitFrames offsets pending) (overlay.apply pages) := by
  induction hpending generalizing offsets overlay with
  | nil => exact h
  | @cons frame page _ _ hhead _ ih =>
    refine ih (fun pageId => ?_)
    obtain ⟨hid, hframe⟩ := hhead
    beta_reduce
    by_cases heq : pageId = page.id
    · subst heq
      rw [hid, AList.lookup_insert, Function.update_self]
      exact ⟨page.data, rfl, hframe⟩
    · rw [AList.lookup_insert_ne (by rw [hid]; exact heq), Function.update_of_ne heq]
      exact h pageId

/-- The state of the loop between two transactions. -/
structure AtBoundary (s : ScanState) : Prop where
  pending : s.pendingFrames = []
  transactionId : s.pendingTransactionId = 0
  hasPending : s.hasPendingTransaction = false
  notDamaged : s.isDamagedTail = false
  validEnd : s.validWalEndOffset = s.offset

/-- The state of the loop inside a transaction, after some of its pages. -/
structure Inside (bytes : List Byte) (transactionId : UInt64) (pages : List Page)
    (s : ScanState) : Prop where
  pending : Pending bytes s.pendingFrames pages
  notDamaged : s.isDamagedTail = false
  kind : s.hasPendingTransaction = true ∧ s.pendingTransactionId = transactionId ∨
    s.hasPendingTransaction = false ∧ s.pendingFrames = [] ∧ s.pendingTransactionId = 0

theorem AtBoundary.inside (h : AtBoundary s) (transactionId : UInt64) :
    Inside bytes transactionId [] s :=
  ⟨by rw [h.pending]; exact .nil, h.notDamaged,
    .inr ⟨h.hasPending, h.pending, h.transactionId⟩⟩

theorem drop_add {off : Nat} {xs rest : List Byte} (h : bytes.drop off = xs ++ rest) :
    bytes.drop (off + xs.length) = rest := by
  rw [← List.drop_drop, h, List.drop_left]

theorem lt_length_of_drop {off : Nat} {xs rest : List Byte} (h : bytes.drop off = xs ++ rest)
    (hxs : 0 < xs.length) : off < bytes.length := by
  have hlen := length_of_drop h
  rw [List.length_append] at hlen
  omega

variable (path) in
/-- One frame of the transaction. -/
theorem Inside.loop_frame {transactionId : UInt64} {done : List Page} {page : Page}
    {rest : List Byte} (h : Inside bytes transactionId done s)
    (hbytes : bytes.drop s.offset = (pageFrame transactionId page).encode.bytes ++ rest) :
    ∃ s', loop path bytes s = loop path bytes s' ∧ bytes.drop s'.offset = rest ∧
      s'.offset = s.offset + walPageFrameRecordSize ∧
      Inside bytes transactionId (done ++ [page]) s' ∧
      s'.latestCommittedFrameOffsets = s.latestCommittedFrameOffsets ∧
      s'.validWalEndOffset = s.validWalEndOffset := by
  have hsize := (pageFrame transactionId page).encode.size_eq
  have hpending : s.hasPendingTransaction = true →
      s.pendingTransactionId = (pageFrame transactionId page).transactionId := by
    intro hhas
    obtain ⟨_, htransaction⟩ | ⟨hnone, _⟩ := h.kind
    · exact htransaction
    · rw [hhas] at hnone
      cases hnone
  refine ⟨_, loop_of_step (lt_length_of_drop hbytes (by omega))
    (step_frame path hbytes h.notDamaged hpending), ?_, rfl, ⟨?_, h.notDamaged, .inl ⟨rfl, rfl⟩⟩,
    rfl, rfl⟩
  · have hdrop := drop_add hbytes
    rwa [hsize] at hdrop
  · exact List.rel_append h.pending (.cons ⟨rfl, transactionId, rest, hbytes⟩ .nil)

variable (path) in
/-- The frames of some pages of the transaction. -/
theorem Inside.loop_frames {transactionId : UInt64} {done pages : List Page} {rest : List Byte}
    (h : Inside bytes transactionId done s)
    (hbytes : bytes.drop s.offset =
      LogTransaction.encodeFrames transactionId pages ++ rest) :
    ∃ s', loop path bytes s = loop path bytes s' ∧ bytes.drop s'.offset = rest ∧
      s'.offset = s.offset + (LogTransaction.encodeFrames transactionId pages).length ∧
      Inside bytes transactionId (done ++ pages) s' ∧
      s'.latestCommittedFrameOffsets = s.latestCommittedFrameOffsets ∧
      s'.validWalEndOffset = s.validWalEndOffset := by
  induction pages generalizing s done with
  | nil => exact ⟨s, rfl, hbytes, rfl, by rwa [List.append_nil], rfl, rfl⟩
  | cons page pages ih =>
    have hframes : LogTransaction.encodeFrames transactionId (page :: pages) =
        (pageFrame transactionId page).encode.bytes ++
          LogTransaction.encodeFrames transactionId pages := rfl
    rw [hframes, List.append_assoc] at hbytes
    obtain ⟨s₁, hloop₁, hdrop₁, hoff₁, hin₁, hlatest₁, hend₁⟩ := h.loop_frame path hbytes
    obtain ⟨s₂, hloop₂, hdrop₂, hoff₂, hin₂, hlatest₂, hend₂⟩ := ih hin₁ hdrop₁
    refine ⟨s₂, hloop₁.trans hloop₂, hdrop₂, ?_, ?_, hlatest₂.trans hlatest₁,
      hend₂.trans hend₁⟩
    · have hsize := (pageFrame transactionId page).encode.size_eq
      rw [hoff₂, hoff₁, hframes, List.length_append, hsize]
      simp only [walPageFrameRecordSize]
      omega
    · rwa [List.append_assoc] at hin₂

variable (path) in
/-- A whole transaction. -/
theorem AtBoundary.loop_transaction {t : LogTransaction} {rest : List Byte} {overlay : Overlay}
    (h : AtBoundary s) (hindex : Indexes bytes s.latestCommittedFrameOffsets overlay)
    (hbytes : bytes.drop s.offset = t.encode ++ rest) :
    ∃ s', loop path bytes s = loop path bytes s' ∧ bytes.drop s'.offset = rest ∧
      s'.offset = s.offset + t.encode.length ∧ AtBoundary s' ∧
      Indexes bytes s'.latestCommittedFrameOffsets (overlay.apply t.pages) := by
  rw [LogTransaction.encode, List.append_assoc] at hbytes
  obtain ⟨s₁, hloop₁, hdrop₁, hoff₁, hin₁, hlatest₁, -⟩ :=
    (h.inside t.transactionId).loop_frames path hbytes
  rw [List.nil_append] at hin₁
  have hsize := t.commitRecord.encode.size_eq
  have hcount : t.commitRecord.frameCount = UInt64.ofNat s₁.pendingFrames.length := by
    rw [hin₁.pending.length_eq]
    rfl
  refine ⟨_, hloop₁.trans (loop_of_step (lt_length_of_drop hdrop₁ (by omega))
    (step_commit path hdrop₁ hin₁.notDamaged hcount hin₁.kind)), ?_, ?_,
    ⟨rfl, rfl, rfl, hin₁.notDamaged, rfl⟩, ?_⟩
  · have hdrop := drop_add hdrop₁
    rwa [hsize] at hdrop
  · simp only [LogTransaction.encode, List.length_append, hsize, hoff₁, walCommitRecordSize]
    omega
  · rw [hlatest₁]
    exact hindex.commitFrames hin₁.pending

/-! ## Reading a log -/

variable (path) in
/-- A torn transaction is read up to its last whole frame and then dropped. -/
theorem Inside.loop_torn {t : LogTransaction} {done pages : List Page} {n : Nat}
    (h : Inside bytes t.transactionId done s) (hpages : t.pages = done ++ pages)
    (hn : n < (LogTransaction.encodeFrames t.transactionId pages ++
      t.commitRecord.encode.bytes).length)
    (hbytes : bytes.drop s.offset = (LogTransaction.encodeFrames t.transactionId pages ++
      t.commitRecord.encode.bytes).take n) :
    ∃ s', loop path bytes s = .ok s' ∧
      s'.latestCommittedFrameOffsets = s.latestCommittedFrameOffsets ∧
      s'.validWalEndOffset = s.validWalEndOffset := by
  induction pages generalizing s done n with
  | nil =>
    have hsize := t.commitRecord.encode.size_eq
    rw [LogTransaction.encodeFrames, List.flatMap_nil, List.nil_append] at hn hbytes
    exact ⟨s, loop_of_break (step_torn hbytes (by omega) t.commitRecord.slice_encode_type
      (.inr ⟨rfl, rfl⟩)), rfl, rfl⟩
  | cons page pages ih =>
    have hsize := (pageFrame t.transactionId page).encode.size_eq
    have hframes : LogTransaction.encodeFrames t.transactionId (page :: pages) =
        (pageFrame t.transactionId page).encode.bytes ++
          LogTransaction.encodeFrames t.transactionId pages := rfl
    rw [hframes, List.append_assoc] at hn hbytes
    by_cases hlt : n < 4136
    · rw [List.take_append_of_le_length (by omega)] at hbytes
      exact ⟨s, loop_of_break (step_torn hbytes hlt
        (pageFrame t.transactionId page).slice_encode_type (.inl ⟨rfl, rfl⟩)), rfl, rfl⟩
    · rw [List.take_append, List.take_of_length_le (by omega)] at hbytes
      obtain ⟨s₁, hloop₁, hdrop₁, -, hin₁, hlatest₁, hend₁⟩ := h.loop_frame path hbytes
      rw [List.length_append] at hn
      obtain ⟨s₂, hloop₂, hlatest₂, hend₂⟩ :=
        ih hin₁ (by rw [hpages, List.append_assoc]; rfl) (by omega) hdrop₁
      exact ⟨s₂, hloop₁.trans hloop₂, hlatest₂.trans hlatest₁, hend₂.trans hend₁⟩

variable (path) in
/-- A log with a torn transaction behind it. -/
theorem AtBoundary.loop_log {log : List LogTransaction} {tail : List Byte} {overlay : Overlay}
    (h : AtBoundary s) (hindex : Indexes bytes s.latestCommittedFrameOffsets overlay)
    (htail : Torn tail) (hbytes : bytes.drop s.offset = encodeLog log ++ tail) :
    ∃ s', loop path bytes s = .ok s' ∧
      s'.validWalEndOffset = s.offset + (encodeLog log).length ∧
      Indexes bytes s'.latestCommittedFrameOffsets (overlay.replay log) := by
  induction log generalizing s overlay with
  | nil =>
    obtain ⟨t, n, hn, rfl⟩ := htail
    obtain ⟨s', hloop, hlatest, hend⟩ :=
      (h.inside t.transactionId).loop_torn path rfl hn hbytes
    refine ⟨s', hloop, by rw [hend, h.validEnd]; rfl, ?_⟩
    rw [hlatest]
    exact hindex
  | cons t log ih =>
    have hlog : encodeLog (t :: log) = t.encode ++ encodeLog log := rfl
    rw [hlog, List.append_assoc] at hbytes
    obtain ⟨s₁, hloop₁, hdrop₁, hoff₁, hbound₁, hindex₁⟩ :=
      h.loop_transaction path hindex hbytes
    obtain ⟨s₂, hloop₂, hend₂, hindex₂⟩ := ih hbound₁ hindex₁ hdrop₁
    refine ⟨s₂, hloop₁.trans hloop₂, ?_, hindex₂⟩
    rw [hend₂, hoff₁, hlog, List.length_append]
    omega

/-- The scan of a log with a torn transaction behind it finds the log. -/
theorem scan_log (path : String) (databaseId : UInt64) {log : List LogTransaction}
    {tail : List Byte} (htail : Torn tail)
    (hbytes : bytes = (WalHeader.createNew databaseId).encode.bytes ++ encodeLog log ++ tail) :
    ∃ result, scan path bytes databaseId = .ok result ∧
      result.validWalEndOffset = walHeaderSize + (encodeLog log).length ∧
      result.ignoredTrailingBytes = !tail.isEmpty ∧
      Indexes bytes result.latestCommittedFrameOffsets (replay log) := by
  have hsize := (WalHeader.createNew databaseId).encode.size_eq
  have hlen := congrArg List.length hbytes
  rw [List.length_append, List.length_append, hsize] at hlen
  have hheader : slice bytes 0 walHeaderSize = (WalHeader.createNew databaseId).encode.bytes :=
    (slice_of_drop (by rw [List.drop_zero, hbytes, List.append_assoc]) hsize.ge).trans
      (List.take_of_length_le hsize.le)
  have hdrop : bytes.drop walHeaderSize = encodeLog log ++ tail := by
    rw [hbytes, List.append_assoc, walHeaderSize, List.drop_append_of_le_length hsize.ge,
      List.drop_eq_nil_of_le hsize.le, List.nil_append]
  have hstart : AtBoundary ⟨walHeaderSize, [], 0, false, false, ∅, walHeaderSize⟩ :=
    ⟨rfl, rfl, rfl, rfl, rfl⟩
  have hempty : Indexes bytes (∅ : AList fun _ : PageId => Nat) fun _ => none := fun _ => rfl
  obtain ⟨s, hloop, hend, hindex⟩ :=
    hstart.loop_log path hempty htail hdrop
  refine ⟨⟨s.latestCommittedFrameOffsets, s.validWalEndOffset,
    s.validWalEndOffset ≠ bytes.length⟩, ?_, hend, ?_, hindex⟩
  · rw [scan, failIf_of_not (by simp only [walHeaderSize]; omega), ok_bind,
      readBytes_eq (by decide) (by simp only [walHeaderSize]; omega), ok_bind, hheader,
      Bytes.ofList_bytes, WalHeader.decode_encode, ok_bind,
      failIf_of_not (show ¬(WalHeader.createNew databaseId).databaseId ≠ databaseId from
        not_not_intro rfl), ok_bind, hloop, ok_bind]
    rfl
  · rw [hend, hlen]
    cases tail <;> simp [walHeaderSize]

end WalScanner

/-! ## Prefixes of a log -/

theorem torn_nil : Torn [] :=
  ⟨⟨0, []⟩, 0, by
    rw [LogTransaction.encode, List.length_append, Bytes.size_eq]
    omega, by rw [List.take_zero]⟩

theorem encodeLog_append (xs ys : List LogTransaction) :
    encodeLog (xs ++ ys) = encodeLog xs ++ encodeLog ys :=
  List.flatMap_append

theorem encodeLog_singleton (t : LogTransaction) : encodeLog [t] = t.encode :=
  List.flatMap_singleton ..

end DanDB.Wal
