import DanDB.Wal.WalLog

/-!
# The valid prefix of a file

Whatever bytes a file holds, its valid prefix is the header and the complete
transactions behind it: page frames of one transaction and the commit record
that counts them.  `scan` stops with an error or finds exactly this prefix
(`scan_exact`): the loop keeps the transactions it has read (`Scanned`), and it
follows every sequence of transactions there is (`loop_transactionsFrom`).
-/

namespace DanDB.Wal

open Buffer DanDB.Core Platform Storage

/-- A complete transaction of a file: where its frames are, and the record that
commits it. -/
structure ScannedTransaction where
  frames : List PendingFrame
  commit : WalCommitRecord

namespace WalScanner

open WalHeader WalPageFrame WalCommitRecord

/-- Page frames of one transaction, one behind the other from an offset to
another. -/
inductive FramesFrom (bytes : List Byte) (transactionId : UInt64) :
    Nat → List PendingFrame → Nat → Prop
  | nil (offset : Nat) : FramesFrom bytes transactionId offset [] offset
  | cons {offset stop : Nat} {pageId : PageId} {image : PageData} {frames : List PendingFrame}
    (fits : offset + walPageFrameRecordSize ≤ bytes.length)
    (decodes : WalPageFrame.decode (.ofList (slice bytes offset walPageFrameRecordSize)) =
      .ok ⟨transactionId, pageId, image⟩)
    (rest : FramesFrom bytes transactionId (offset + walPageFrameRecordSize) frames stop) :
    FramesFrom bytes transactionId offset (⟨offset, pageId⟩ :: frames) stop

/-- The commit record of a transaction, with the number of its frames as the
`size_t` it is compared with. -/
structure CommitAt (bytes : List Byte) (t : ScannedTransaction) (offset : Nat) : Prop where
  fits : offset + walCommitRecordSize ≤ bytes.length
  decodes : WalCommitRecord.decode (.ofList (slice bytes offset walCommitRecordSize)) =
    .ok t.commit
  frameCount : t.commit.frameCount = UInt64.ofNat t.frames.length

/-- Complete transactions, one behind the other from an offset to another. -/
inductive TransactionsFrom (bytes : List Byte) : Nat → List ScannedTransaction → Nat → Prop
  | nil (offset : Nat) : TransactionsFrom bytes offset [] offset
  | cons {offset middle stop : Nat} {t : ScannedTransaction} {ts : List ScannedTransaction}
    (frames : FramesFrom bytes t.commit.transactionId offset t.frames middle)
    (commit : CommitAt bytes t middle)
    (rest : TransactionsFrom bytes (middle + walCommitRecordSize) ts stop) :
    TransactionsFrom bytes offset (t :: ts) stop

/-- The first `stop` bytes are the header of the database's log and complete
transactions. -/
structure ValidPrefix (bytes : List Byte) (databaseId : UInt64) (ts : List ScannedTransaction)
    (stop : Nat) : Prop where
  fits : walHeaderSize ≤ bytes.length
  header : WalHeader.decode (.ofList (slice bytes 0 walHeaderSize)) = .ok ⟨databaseId⟩
  transactions : TransactionsFrom bytes walHeaderSize ts stop

/-- The frames of some transactions in the order of the file. -/
def allFrames (ts : List ScannedTransaction) : List PendingFrame :=
  ts.flatMap ScannedTransaction.frames

/-- Where the last of some frames of a page is. -/
def lastOffset (frames : List PendingFrame) (pageId : PageId) : Option Nat :=
  (frames.filter fun frame => frame.pageId = pageId).getLast?.map PendingFrame.offset

variable {path : String} {bytes : List Byte} {s : ScanState}

/-! ## Frames and transactions -/

section Chains

variable {transactionId : UInt64} {offset middle stop : Nat} {frames : List PendingFrame}
  {t : ScannedTransaction} {ts : List ScannedTransaction}

theorem FramesFrom.stop_eq (h : FramesFrom bytes transactionId offset frames stop) :
    stop = offset + walPageFrameRecordSize * frames.length := by
  induction h with
  | nil => rfl
  | cons _ _ _ ih =>
    rw [ih, List.length_cons, Nat.mul_succ]
    omega

theorem FramesFrom.le_length (h : FramesFrom bytes transactionId offset frames stop)
    (hoffset : offset ≤ bytes.length) : stop ≤ bytes.length := by
  induction h with
  | nil => exact hoffset
  | cons fits _ _ ih => exact ih fits

/-- One more frame at the end. -/
theorem FramesFrom.concat {pageId : PageId} {image : PageData}
    (h : FramesFrom bytes transactionId offset frames stop)
    (fits : stop + walPageFrameRecordSize ≤ bytes.length)
    (decodes : WalPageFrame.decode (.ofList (slice bytes stop walPageFrameRecordSize)) =
      .ok ⟨transactionId, pageId, image⟩) :
    FramesFrom bytes transactionId offset (frames ++ [⟨stop, pageId⟩])
      (stop + walPageFrameRecordSize) := by
  induction h with
  | nil => exact .cons fits decodes (.nil _)
  | cons fits' decodes' _ ih => exact .cons fits' decodes' (ih fits decodes)

/-- Every frame decodes to a frame of its page. -/
theorem FramesFrom.decodes (h : FramesFrom bytes transactionId offset frames stop)
    {frame : PendingFrame} (hmem : frame ∈ frames) :
    ∃ image, WalPageFrame.decode (.ofList (slice bytes frame.offset walPageFrameRecordSize)) =
      .ok ⟨transactionId, frame.pageId, image⟩ := by
  induction h with
  | nil => cases hmem
  | cons _ decodes _ ih =>
    obtain rfl | hmem := List.mem_cons.mp hmem
    · exact ⟨_, decodes⟩
    · exact ih hmem

theorem TransactionsFrom.le_stop (h : TransactionsFrom bytes offset ts stop) : offset ≤ stop := by
  induction h with
  | nil => exact le_rfl
  | cons frames _ _ ih =>
    have := frames.stop_eq
    omega

theorem TransactionsFrom.le_length (h : TransactionsFrom bytes offset ts stop)
    (hoffset : offset ≤ bytes.length) : stop ≤ bytes.length := by
  induction h with
  | nil => exact hoffset
  | cons _ commit _ ih => exact ih commit.fits

/-- One more transaction at the end. -/
theorem TransactionsFrom.concat (h : TransactionsFrom bytes offset ts stop)
    (frames : FramesFrom bytes t.commit.transactionId stop t.frames middle)
    (commit : CommitAt bytes t middle) :
    TransactionsFrom bytes offset (ts ++ [t]) (middle + walCommitRecordSize) := by
  induction h with
  | nil => exact .cons frames commit (.nil _)
  | cons frames' commit' _ ih => exact .cons frames' commit' (ih frames)

theorem TransactionsFrom.decodes (h : TransactionsFrom bytes offset ts stop)
    {frame : PendingFrame} (hmem : frame ∈ allFrames ts) :
    ∃ decoded, WalPageFrame.decode (.ofList (slice bytes frame.offset walPageFrameRecordSize)) =
      .ok decoded ∧ decoded.pageId = frame.pageId := by
  induction h with
  | nil => cases hmem
  | cons frames _ _ ih =>
    rw [allFrames, List.flatMap_cons, List.mem_append] at hmem
    obtain hmem | hmem := hmem
    · obtain ⟨image, hdecode⟩ := frames.decodes hmem
      exact ⟨_, hdecode, rfl⟩
    · exact ih hmem

/-- A file has room for fewer frames than a `size_t` can count. -/
theorem TransactionsFrom.frameCount (h : TransactionsFrom bytes offset ts stop)
    (hoffset : offset ≤ bytes.length) (hsize : bytes.length ≤ FileHandle.maxFileSize) :
    ∀ t ∈ ts, t.commit.frameCount.toNat = t.frames.length := by
  induction h with
  | nil => simp
  | @cons _ _ _ t _ frames commit _ ih =>
    intro u hmem
    obtain rfl | hmem := List.mem_cons.mp hmem
    · have hlen := frames.stop_eq
      have hend := frames.le_length hoffset
      simp only [FileHandle.maxFileSize, walPageFrameRecordSize] at hsize hlen
      rw [commit.frameCount, UInt64.toNat_ofNat']
      omega
    · exact ih commit.fits u hmem

/-! ### Files that begin alike -/

variable {bytes' : List Byte} {n : Nat}

theorem slice_of_take (h : bytes.take n = bytes'.take n) {off len : Nat} (hle : off + len ≤ n) :
    slice bytes off len = slice bytes' off len := by
  have hcut (xs : List Byte) : slice xs off len = slice (xs.take n) off len := by
    rw [slice, slice, List.drop_take, List.take_take, min_eq_left (by omega)]
  rw [hcut, hcut bytes', h]

theorem le_length_of_take (h : bytes.take n = bytes'.take n) {k : Nat} (hk : k ≤ bytes.length)
    (hn : k ≤ n) : k ≤ bytes'.length := by
  have hlen := congrArg List.length h
  rw [List.length_take, List.length_take] at hlen
  omega

theorem FramesFrom.of_take (h : FramesFrom bytes transactionId offset frames stop)
    (htake : bytes.take n = bytes'.take n) (hstop : stop ≤ n) :
    FramesFrom bytes' transactionId offset frames stop := by
  induction h with
  | nil => exact .nil _
  | cons fits decodes rest ih =>
    have := rest.stop_eq
    rw [slice_of_take htake (by omega)] at decodes
    exact .cons (le_length_of_take htake fits (by omega)) decodes (ih hstop)

theorem TransactionsFrom.of_take (h : TransactionsFrom bytes offset ts stop)
    (htake : bytes.take n = bytes'.take n) (hstop : stop ≤ n) :
    TransactionsFrom bytes' offset ts stop := by
  induction h with
  | nil => exact .nil _
  | cons frames commit rest ih =>
    have := rest.le_stop
    refine .cons (frames.of_take htake (by omega)) ⟨le_length_of_take htake commit.fits (by omega),
      ?_, commit.frameCount⟩ (ih hstop)
    rw [← slice_of_take htake (by omega)]
    exact commit.decodes

theorem ValidPrefix.of_take {databaseId : UInt64} (h : ValidPrefix bytes databaseId ts stop)
    (htake : bytes.take n = bytes'.take n) (hstop : stop ≤ n) :
    ValidPrefix bytes' databaseId ts stop := by
  have hle := h.transactions.le_stop
  refine ⟨le_length_of_take htake h.fits (by omega), ?_, h.transactions.of_take htake hstop⟩
  rw [← slice_of_take htake (by omega)]
  exact h.header

end Chains

/-! ## Following transactions -/

/-- The bytes of a record that decodes, in front of the rest. -/
theorem drop_eq_encode {off size : Nat} {record : Bytes size} (hfits : off + size ≤ bytes.length)
    (h : Bytes.ofList (slice bytes off size) = record) :
    bytes.drop off = record.bytes ++ bytes.drop (off + size) := by
  have hbytes : record.bytes = slice bytes off size := by
    rw [← h, Bytes.ofList_of_length (length_slice hfits)]
  rw [hbytes, slice, ← List.drop_drop, List.take_append_drop]

variable (path) in
/-- The loop reads the frames of a transaction. -/
theorem loop_framesFrom {transactionId : UInt64} {frames : List PendingFrame} {stop : Nat}
    (h : FramesFrom bytes transactionId s.offset frames stop) (hdamaged : s.isDamagedTail = false)
    (hkind : s.hasPendingTransaction = true ∧ s.pendingTransactionId = transactionId ∨
      s.hasPendingTransaction = false ∧ s.pendingFrames = [] ∧ s.pendingTransactionId = 0) :
    ∃ s', loop path bytes s = loop path bytes s' ∧ s'.offset = stop ∧
      s'.pendingFrames = s.pendingFrames ++ frames ∧ s'.isDamagedTail = false ∧
      (s'.hasPendingTransaction = true ∧ s'.pendingTransactionId = transactionId ∨
        s'.hasPendingTransaction = false ∧ s'.pendingFrames = [] ∧ s'.pendingTransactionId = 0) ∧
      s'.latestCommittedFrameOffsets = s.latestCommittedFrameOffsets := by
  generalize hoffset : s.offset = offset at h
  induction h generalizing s with
  | nil => exact ⟨s, rfl, hoffset, (List.append_nil _).symm, hdamaged, hkind, rfl⟩
  | @cons offset stop pageId image frames fits decodes _ ih =>
    subst hoffset
    have hdrop := drop_eq_encode fits (WalPageFrame.encode_of_decode decodes)
    have hpending (hhas : s.hasPendingTransaction = true) :
        s.pendingTransactionId = transactionId := by
      obtain ⟨-, hid⟩ | ⟨hnone, -⟩ := hkind
      · exact hid
      · rw [hhas] at hnone
        cases hnone
    have hstep := step_frame path hdrop hdamaged hpending
    obtain ⟨s', hloop, hstop, hframes, hrest⟩ := ih (s := { s with
      pendingTransactionId := transactionId
      hasPendingTransaction := true
      pendingFrames := s.pendingFrames ++ [⟨s.offset, pageId⟩]
      offset := s.offset + walPageFrameRecordSize }) hdamaged (.inl ⟨rfl, rfl⟩) rfl
    refine ⟨s', (loop_of_step ?_ hstep).trans hloop, hstop, ?_, hrest⟩
    · have hpos : 0 < walPageFrameRecordSize := by decide
      omega
    · rw [hframes, List.append_assoc]
      rfl

theorem commitFrames_append (offsets : AList fun _ : PageId => Nat) (xs ys : List PendingFrame) :
    commitFrames offsets (xs ++ ys) = commitFrames (commitFrames offsets xs) ys :=
  List.foldl_append

variable (path) in
/-- The loop reads complete transactions. -/
theorem loop_transactionsFrom {ts : List ScannedTransaction} {stop : Nat}
    (h : TransactionsFrom bytes s.offset ts stop) (hs : AtBoundary s) :
    ∃ s', loop path bytes s = loop path bytes s' ∧ s'.offset = stop ∧ AtBoundary s' ∧
      s'.latestCommittedFrameOffsets =
        commitFrames s.latestCommittedFrameOffsets (allFrames ts) := by
  generalize hoffset : s.offset = offset at h
  induction h generalizing s with
  | nil => exact ⟨s, rfl, hoffset, hs, rfl⟩
  | @cons offset middle stop t ts frames commit _ ih =>
    subst hoffset
    obtain ⟨s₁, hloop₁, hoffset₁, hframes₁, hdamaged₁, hkind₁, hlatest₁⟩ :=
      loop_framesFrom path frames hs.notDamaged
        (.inr ⟨hs.hasPending, hs.pending, hs.transactionId⟩)
    subst hoffset₁
    rw [hs.pending, List.nil_append] at hframes₁
    have hdrop := drop_eq_encode commit.fits (WalCommitRecord.encode_of_decode commit.decodes)
    have hstep := step_commit path hdrop hdamaged₁
      (by rw [hframes₁, commit.frameCount]) hkind₁
    have hlt : s₁.offset < bytes.length := by
      have hfits := commit.fits
      have hpos : 0 < walCommitRecordSize := by decide
      omega
    obtain ⟨s₂, hloop₂, hstop₂, hs₂, hlatest₂⟩ := ih (s := { s₁ with
      latestCommittedFrameOffsets := commitFrames s₁.latestCommittedFrameOffsets s₁.pendingFrames
      pendingFrames := []
      hasPendingTransaction := false
      pendingTransactionId := 0
      offset := s₁.offset + walCommitRecordSize
      validWalEndOffset := s₁.offset + walCommitRecordSize })
      ⟨rfl, rfl, rfl, hdamaged₁, rfl⟩ rfl
    refine ⟨s₂, (hloop₁.trans (loop_of_step hlt hstep)).trans hloop₂, hstop₂, hs₂, ?_⟩
    rw [hlatest₂]
    show commitFrames (commitFrames s₁.latestCommittedFrameOffsets s₁.pendingFrames) _ = _
    rw [hlatest₁, hframes₁, ← commitFrames_append]
    rfl

/-! ## What one pass does -/

theorem readBytes_ok {offset size : Nat} {read : List Byte} (hsize : size ≤ FileHandle.maxDword)
    (hfits : offset + size ≤ bytes.length)
    (h : readBytes path bytes offset size = .ok read) : read = slice bytes offset size := by
  rw [readBytes_eq hsize hfits] at h
  exact (Except.ok.inj h).symm

/-- What a pass that does not end the loop has done: skipped a record behind a
damaged one, read a frame of the pending transaction, or committed it. -/
inductive Passed (bytes : List Byte) (s : ScanState) : ScanState → Prop
  | damaged {s' : ScanState} (isDamagedTail : s'.isDamagedTail = true)
    (pending : s'.hasPendingTransaction = false → s'.pendingFrames = [])
    (latest : s'.latestCommittedFrameOffsets = s.latestCommittedFrameOffsets)
    (validEnd : s'.validWalEndOffset = s.validWalEndOffset) : Passed bytes s s'
  | frame (frame : WalPageFrame) (notDamaged : s.isDamagedTail = false)
    (fits : s.offset + walPageFrameRecordSize ≤ bytes.length)
    (decodes : WalPageFrame.decode (.ofList (slice bytes s.offset walPageFrameRecordSize)) =
      .ok frame)
    (pending : s.hasPendingTransaction = true → s.pendingTransactionId = frame.transactionId) :
    Passed bytes s { s with
      pendingTransactionId := frame.transactionId
      hasPendingTransaction := true
      pendingFrames := s.pendingFrames ++ [⟨s.offset, frame.pageId⟩]
      offset := s.offset + walPageFrameRecordSize }
  | commit (record : WalCommitRecord) (notDamaged : s.isDamagedTail = false)
    (fits : s.offset + walCommitRecordSize ≤ bytes.length)
    (decodes : WalCommitRecord.decode (.ofList (slice bytes s.offset walCommitRecordSize)) =
      .ok record)
    (frameCount : record.frameCount = UInt64.ofNat s.pendingFrames.length)
    (pending : s.hasPendingTransaction = true → s.pendingTransactionId = record.transactionId)
    {s' : ScanState} (notDamaged' : s'.isDamagedTail = false)
    (pendingFrames : s'.pendingFrames = []) (offset : s'.offset = s.offset + walCommitRecordSize)
    (latest : s'.latestCommittedFrameOffsets =
      commitFrames s.latestCommittedFrameOffsets s.pendingFrames)
    (validEnd : s'.validWalEndOffset = s'.offset)
    (hasPending : s'.hasPendingTransaction = false) : Passed bytes s s'

theorem stepPageFrame_passed {s' : ScanState}
    (hnone : s.hasPendingTransaction = false → s.pendingFrames = [])
    (h : stepPageFrame path bytes s = .ok (some s')) : Passed bytes s s' := by
  unfold stepPageFrame at h
  split at h
  · simp at h
  rename_i hlen
  have hfits : s.offset + walPageFrameRecordSize ≤ bytes.length := by
    have hpos : 0 < walPageFrameRecordSize := by decide
    omega
  simp only [pure_eq_ok] at h
  split at h
  · rename_i hdamaged
    cases h
    exact .damaged hdamaged hnone rfl rfl
  rename_i hdamaged
  obtain ⟨read, hread, h⟩ := bind_eq_ok.mp h
  cases readBytes_ok (by decide) hfits hread
  split at h
  · cases h
    exact .damaged rfl (fun _ => rfl) rfl rfl
  · rename_i frame hdecode
    obtain ⟨_, hid, h⟩ := bind_eq_ok.mp h
    cases h
    rw [failIf_eq_ok, not_and, not_not] at hid
    exact .frame frame (Bool.not_eq_true _ ▸ hdamaged) hfits hdecode hid

theorem stepCommit_passed {s' : ScanState}
    (hnone : s.hasPendingTransaction = false → s.pendingFrames = [])
    (h : stepCommit path bytes s = .ok (some s')) : Passed bytes s s' := by
  unfold stepCommit at h
  split at h
  · simp at h
  rename_i hlen
  have hfits : s.offset + walCommitRecordSize ≤ bytes.length := by
    have hpos : 0 < walCommitRecordSize := by decide
    omega
  obtain ⟨read, hread, h⟩ := bind_eq_ok.mp h
  cases readBytes_ok (by decide) hfits hread
  simp only [pure_eq_ok] at h
  split at h
  · rename_i hdamaged
    obtain ⟨_, -, h⟩ := bind_eq_ok.mp h
    cases h
    exact .damaged hdamaged hnone rfl rfl
  rename_i hdamaged
  have hdamaged' : s.isDamagedTail = false := Bool.not_eq_true _ ▸ hdamaged
  split at h
  · cases h
    exact .damaged rfl (fun _ => rfl) rfl rfl
  rename_i record hdecode
  split at h
  · rename_i hempty
    cases h
    have hframes := hnone hempty.1
    refine .commit record hdamaged' hfits hdecode ?_ ?_ hdamaged' hframes rfl ?_ rfl hempty.1
    · rw [hframes, hempty.2]
      rfl
    · rw [hempty.1]
      exact fun h => absurd h Bool.false_ne_true
    · rw [hframes]
      rfl
  · obtain ⟨_, hvalid, h⟩ := bind_eq_ok.mp h
    cases h
    rw [failIf_eq_ok, not_or, not_or, not_not, not_not] at hvalid
    exact .commit record hdamaged' hfits hdecode hvalid.2.2 (fun _ => hvalid.2.1.symm) hdamaged'
      rfl rfl rfl rfl rfl

theorem step_passed {s' : ScanState}
    (hnone : s.hasPendingTransaction = false → s.pendingFrames = [])
    (h : step path bytes s = .ok (some s')) : Passed bytes s s' := by
  unfold step at h
  split at h
  · simp at h
  obtain ⟨typeBytes, -, h⟩ := bind_eq_ok.mp h
  obtain ⟨type, -, h⟩ := bind_eq_ok.mp h
  split at h
  · exact stepPageFrame_passed hnone h
  split at h
  · exact stepCommit_passed hnone h
  split at h <;> simp at h

/-- What every pass keeps, the loop keeps. -/
theorem loop_preserves (inv : ScanState → Prop)
    (hstep : ∀ s s', inv s → step path bytes s = .ok (some s') → inv s') {s' : ScanState}
    (hs : inv s) (h : loop path bytes s = .ok s') : inv s' := by
  induction s using loop.induct path bytes with
  | case1 s hlt status hfail =>
    rw [loop, if_pos hlt] at h
    split at h <;> simp_all
  | case2 s hlt hbreak =>
    rw [loop_of_break hbreak] at h
    cases h
    exact hs
  | case3 s hlt s₁ hpass _ ih =>
    rw [loop_of_step hlt hpass] at h
    exact ih (hstep s s₁ hs hpass) h
  | case4 s hge =>
    rw [loop_of_le (by omega)] at h
    cases h
    exact hs

/-- The loop has read some complete transactions, and frames of one more unless
it has met a damaged record. -/
structure Scanned (bytes : List Byte) (start : Nat) (ts : List ScannedTransaction)
    (s : ScanState) : Prop where
  transactions : TransactionsFrom bytes start ts s.validWalEndOffset
  latest : s.latestCommittedFrameOffsets = commitFrames ∅ (allFrames ts)
  pending : s.isDamagedTail = false →
    FramesFrom bytes s.pendingTransactionId s.validWalEndOffset s.pendingFrames s.offset
  none : s.hasPendingTransaction = false → s.pendingFrames = []

/-- Frames that are not there belong to every transaction. -/
theorem framesFrom_of_nil {transactionId other : UInt64} {frames : List PendingFrame}
    {offset stop : Nat} (h : FramesFrom bytes transactionId offset frames stop)
    (hnil : frames = []) : FramesFrom bytes other offset frames stop := by
  subst hnil
  cases h
  exact .nil offset

theorem FramesFrom.transactionId {transactionId other : UInt64} {start stop : Nat}
    (h : FramesFrom bytes transactionId start s.pendingFrames stop)
    (hnone : s.hasPendingTransaction = false → s.pendingFrames = [])
    (hsame : s.hasPendingTransaction = true → transactionId = other) :
    FramesFrom bytes other start s.pendingFrames stop := by
  cases hhas : s.hasPendingTransaction
  · exact framesFrom_of_nil h (hnone hhas)
  · exact hsame hhas ▸ h

theorem Scanned.passed {start : Nat} {ts : List ScannedTransaction} {s' : ScanState}
    (h : Scanned bytes start ts s) (hpass : Passed bytes s s') :
    ∃ ts', Scanned bytes start ts' s' := by
  cases hpass with
  | damaged hdamaged hpending hlatest hend =>
    refine ⟨ts, ?_, hlatest.trans h.latest, fun hnot => ?_, hpending⟩
    · rw [hend]
      exact h.transactions
    · rw [hdamaged] at hnot
      cases hnot
  | frame frame hdamaged hfits hdecode hsame =>
    refine ⟨ts, h.transactions, h.latest, fun _ => ?_, fun hnot => by cases hnot⟩
    exact ((h.pending hdamaged).transactionId h.none hsame).concat hfits hdecode
  | commit record hdamaged hfits hdecode hcount hsame hdamaged' hframes hoffset hlatest hend _ =>
    refine ⟨ts ++ [⟨s.pendingFrames, record⟩], ?_, ?_, fun _ => ?_, fun _ => hframes⟩
    · rw [hend, hoffset]
      exact h.transactions.concat ((h.pending hdamaged).transactionId h.none hsame)
        ⟨hfits, hdecode, hcount⟩
    · rw [hlatest, h.latest, ← commitFrames_append, allFrames, allFrames, List.flatMap_append,
        List.flatMap_singleton]
    · rw [hframes, hend]
      exact .nil _

/-- The end of what was read never moves back. -/
theorem loop_le_validEnd {k : Nat} (hoffset : k ≤ s.offset) (hend : k ≤ s.validWalEndOffset)
    (hnone : s.hasPendingTransaction = false → s.pendingFrames = []) {s' : ScanState}
    (h : loop path bytes s = .ok s') : k ≤ s'.validWalEndOffset := by
  refine (loop_preserves (fun s => (k ≤ s.offset ∧ k ≤ s.validWalEndOffset) ∧
    (s.hasPendingTransaction = false → s.pendingFrames = [])) ?_ ⟨⟨hoffset, hend⟩, hnone⟩ h).1.2
  rintro s s' ⟨⟨hoffset, hend⟩, hnone⟩ hstep
  have hadvances := step_advances hstep
  cases step_passed hnone hstep with
  | damaged _ hpending _ hend' => exact ⟨⟨by omega, by omega⟩, hpending⟩
  | frame => exact ⟨⟨Nat.le_add_right_of_le hoffset, hend⟩, fun hnot => by cases hnot⟩
  | commit _ _ _ _ _ _ _ hframes hoffset' _ hend' => exact ⟨⟨by omega, by omega⟩, fun _ => hframes⟩

/-! ## The result of a scan -/

/-- The state before the first record. -/
def initialState : ScanState := ⟨walHeaderSize, [], 0, false, false, ∅, walHeaderSize⟩

theorem initialState_atBoundary : AtBoundary initialState := ⟨rfl, rfl, rfl, rfl, rfl⟩

/-- A scan that succeeds has read a header and run the loop to its end. -/
theorem scan_eq_ok {databaseId : UInt64} {result : WalScanResult} :
    scan path bytes databaseId = .ok result ↔
      walHeaderSize ≤ bytes.length ∧
      WalHeader.decode (.ofList (slice bytes 0 walHeaderSize)) = .ok ⟨databaseId⟩ ∧
      ∃ s, loop path bytes initialState = .ok s ∧
        result = ⟨s.latestCommittedFrameOffsets, s.validWalEndOffset,
          s.validWalEndOffset ≠ bytes.length⟩ := by
  unfold scan
  constructor
  · intro h
    obtain ⟨_, hsize, h⟩ := bind_eq_ok.mp h
    rw [failIf_eq_ok, not_lt] at hsize
    obtain ⟨read, hread, h⟩ := bind_eq_ok.mp h
    cases readBytes_ok (by decide) (by omega) hread
    obtain ⟨⟨stored⟩, hheader, h⟩ := bind_eq_ok.mp h
    obtain ⟨_, hid, h⟩ := bind_eq_ok.mp h
    rw [failIf_eq_ok, not_not] at hid
    obtain ⟨s, hloop, hresult⟩ := bind_eq_ok.mp h
    obtain rfl : stored = databaseId := hid
    exact ⟨hsize, hheader, s, hloop, (Except.ok.inj hresult).symm⟩
  · rintro ⟨hsize, hheader, s, hloop, rfl⟩
    rw [initialState] at hloop
    rw [failIf_of_not (by omega), ok_bind, readBytes_eq (by decide) (by omega), ok_bind, hheader,
      ok_bind, failIf_of_not (not_not_intro rfl), ok_bind, hloop, ok_bind]
    rfl

/-- A scan has read the transactions of a valid prefix. -/
theorem scan_validPrefix {databaseId : UInt64} {result : WalScanResult}
    (h : scan path bytes databaseId = .ok result) :
    ∃ ts, ValidPrefix bytes databaseId ts result.validWalEndOffset ∧
      result.latestCommittedFrameOffsets = commitFrames ∅ (allFrames ts) := by
  obtain ⟨hsize, hheader, s, hloop, rfl⟩ := scan_eq_ok.mp h
  have hstart : Scanned bytes walHeaderSize [] initialState :=
    ⟨.nil _, rfl, fun _ => .nil _, fun _ => rfl⟩
  obtain ⟨ts, hscanned⟩ := loop_preserves (fun s => ∃ ts, Scanned bytes walHeaderSize ts s)
    (fun _ _ ⟨_, hs⟩ hstep => hs.passed (step_passed hs.none hstep)) ⟨[], hstart⟩ hloop
  exact ⟨ts, ⟨hsize, hheader, hscanned.transactions⟩, hscanned.latest⟩

/-- There is no longer valid prefix. -/
theorem scan_longest {databaseId : UInt64} {result : WalScanResult}
    (h : scan path bytes databaseId = .ok result) {ts : List ScannedTransaction} {stop : Nat}
    (hpre : ValidPrefix bytes databaseId ts stop) : stop ≤ result.validWalEndOffset := by
  obtain ⟨-, -, s, hloop, rfl⟩ := scan_eq_ok.mp h
  obtain ⟨s', hsame, hstop, hboundary, -⟩ :=
    loop_transactionsFrom path (s := initialState) hpre.transactions
      initialState_atBoundary
  rw [hsame] at hloop
  exact loop_le_validEnd hstop.ge (hboundary.validEnd.trans hstop).ge
    (fun _ => hboundary.pending) hloop

/-- A file that is a valid prefix to its end. -/
theorem scan_of_validPrefix {databaseId : UInt64} {ts : List ScannedTransaction}
    (h : ValidPrefix bytes databaseId ts bytes.length) :
    scan path bytes databaseId =
      .ok ⟨commitFrames ∅ (allFrames ts), bytes.length, false⟩ := by
  obtain ⟨s, hloop, hstop, hboundary, hlatest⟩ :=
    loop_transactionsFrom path (s := initialState) h.transactions
      initialState_atBoundary
  have hend := hboundary.validEnd.trans hstop
  refine scan_eq_ok.mpr ⟨h.fits, h.header, s, hloop.trans (loop_of_le hstop.ge), ?_⟩
  rw [hlatest, hend, decide_eq_false (not_not_intro rfl)]
  rfl

theorem scan_le_length {databaseId : UInt64} {result : WalScanResult}
    (h : scan path bytes databaseId = .ok result) : result.validWalEndOffset ≤ bytes.length := by
  obtain ⟨ts, hpre, -⟩ := scan_validPrefix h
  exact hpre.transactions.le_length hpre.fits

theorem scan_ignored_iff {databaseId : UInt64} {result : WalScanResult}
    (h : scan path bytes databaseId = .ok result) :
    result.ignoredTrailingBytes = true ↔ result.validWalEndOffset < bytes.length := by
  have hle := scan_le_length h
  obtain ⟨-, -, s, -, rfl⟩ := scan_eq_ok.mp h
  rw [decide_eq_true_eq]
  simp only at hle ⊢
  omega

/-- The prefix alone gives the same pages. -/
theorem scan_take {databaseId : UInt64} {result : WalScanResult}
    (h : scan path bytes databaseId = .ok result) :
    scan path (bytes.take result.validWalEndOffset) databaseId =
      .ok ⟨result.latestCommittedFrameOffsets, result.validWalEndOffset, false⟩ := by
  obtain ⟨ts, hpre, hlatest⟩ := scan_validPrefix h
  have hlen : (bytes.take result.validWalEndOffset).length = result.validWalEndOffset := by
    rw [List.length_take, min_eq_left (scan_le_length h)]
  have hcut : ValidPrefix (bytes.take result.validWalEndOffset) databaseId ts
      (bytes.take result.validWalEndOffset).length := by
    rw [hlen]
    exact hpre.of_take (by rw [List.take_take, min_self]) le_rfl
  rw [scan_of_validPrefix hcut, hlatest, hlen]

theorem lookup_commitFrames (offsets : AList fun _ : PageId => Nat) (frames : List PendingFrame)
    (pageId : PageId) :
    (commitFrames offsets frames).lookup pageId =
      (lastOffset frames pageId).or (offsets.lookup pageId) := by
  induction frames generalizing offsets with
  | nil => rfl
  | cons frame frames ih =>
    rw [show commitFrames offsets (frame :: frames) =
      commitFrames (offsets.insert frame.pageId frame.offset) frames from rfl, ih]
    unfold lastOffset
    by_cases heq : frame.pageId = pageId
    · subst heq
      rw [AList.lookup_insert, List.filter_cons_of_pos (by simp), List.getLast?_cons]
      cases (frames.filter fun other => other.pageId = frame.pageId).getLast? <;> rfl
    · rw [AList.lookup_insert_ne (Ne.symm heq), List.filter_cons_of_neg (by simpa using heq)]

theorem exists_of_lastOffset {frames : List PendingFrame} {pageId : PageId} {offset : Nat}
    (h : lastOffset frames pageId = some offset) : ⟨offset, pageId⟩ ∈ frames := by
  obtain ⟨⟨offset, pageId'⟩, hlast, rfl⟩ := Option.map_eq_some_iff.mp h
  obtain ⟨hmem, hid⟩ := List.mem_filter.mp (List.mem_of_getLast? hlast)
  obtain rfl : pageId' = pageId := of_decide_eq_true hid
  exact hmem

/-! ## Reads stay inside the file -/

/-- A read past the end of the file would be a short read, and that is an I/O
error. -/
def ReadsInside {α : Type} (x : Result α) : Prop := ∀ e, x = .error e → e.code ≠ .ioError

section ReadsInside

variable {α β : Type}

theorem readsInside_ok (a : α) : ReadsInside (.ok a : Result α) := fun _ h => by cases h

theorem ReadsInside.bind {x : Result α} {f : α → Result β} (hx : ReadsInside x)
    (hf : ∀ a, x = .ok a → ReadsInside (f a)) : ReadsInside (x >>= f) := by
  cases x with
  | error e =>
    rintro e' ⟨⟩
    exact hx e rfl
  | ok a => exact hf a rfl

theorem readsInside_failIf (condition : Prop) [Decidable condition] {status : Status}
    (h : status.code ≠ .ioError) : ReadsInside (failIf condition status) := by
  intro e he
  unfold failIf at he
  split at he
  · cases he
    exact h
  · cases he

theorem readsInside_readLe (width : Nat) (message : String) (buffer : List Byte) (offset : Nat)
    (f : Nat → α) : ReadsInside ((readLe width message buffer offset).map f) := by
  intro e he
  unfold readLe at he
  split at he <;> cases he
  exact StatusCode.noConfusion

theorem readsInside_decode (header : Bytes 64) : ReadsInside (WalHeader.decode header) := by
  have hcorrupt (condition : Prop) [Decidable condition] (message : String) :
      ReadsInside (failIf condition (.Corruption message)) :=
    readsInside_failIf condition StatusCode.noConfusion
  refine (hcorrupt _ _).bind fun _ _ => (readsInside_readLe _ _ _ _ _).bind fun _ _ => ?_
  refine (hcorrupt _ _).bind fun _ _ => (readsInside_readLe _ _ _ _ _).bind fun _ _ => ?_
  refine (hcorrupt _ _).bind fun _ _ => (readsInside_readLe _ _ _ _ _).bind fun _ _ => ?_
  refine (hcorrupt _ _).bind fun _ _ => (readsInside_readLe _ _ _ _ _).bind fun _ _ => ?_
  refine (hcorrupt _ _).bind fun _ _ => (readsInside_readLe _ _ _ _ _).bind fun _ _ => ?_
  exact (hcorrupt _ _).bind fun _ _ => readsInside_ok _

theorem readsInside_readBytes {offset size : Nat} (hsize : size ≤ FileHandle.maxDword)
    (hfits : offset + size ≤ bytes.length) : ReadsInside (readBytes path bytes offset size) := by
  rw [readBytes_eq hsize hfits]
  exact readsInside_ok _

theorem readsInside_step : ReadsInside (step path bytes s) := by
  have hframe : ReadsInside (stepPageFrame path bytes s) := by
    unfold stepPageFrame
    split
    · exact readsInside_ok _
    rename_i hlen
    have hpos : 0 < walPageFrameRecordSize := by decide
    split
    · exact readsInside_ok _
    refine (readsInside_readBytes (by decide) (by omega)).bind fun _ _ => ?_
    split
    · exact readsInside_ok _
    · exact (readsInside_failIf _ StatusCode.noConfusion).bind fun _ _ => readsInside_ok _
  have hcommit : ReadsInside (stepCommit path bytes s) := by
    unfold stepCommit
    split
    · exact readsInside_ok _
    rename_i hlen
    have hpos : 0 < walCommitRecordSize := by decide
    refine (readsInside_readBytes (by decide) (by omega)).bind fun _ _ => ?_
    simp only
    split
    · exact (readsInside_failIf _ StatusCode.noConfusion).bind fun _ _ => readsInside_ok _
    split
    · exact readsInside_ok _
    split
    · exact readsInside_ok _
    · exact (readsInside_failIf _ StatusCode.noConfusion).bind fun _ _ => readsInside_ok _
  unfold step
  split
  · exact readsInside_ok _
  refine (readsInside_readBytes (by decide) (by omega)).bind fun _ _ => ?_
  refine (readsInside_readLe _ _ _ _ _).bind fun _ _ => ?_
  split
  · exact hframe
  split
  · exact hcommit
  split
  · exact readsInside_ok _
  · intro e he
    cases he
    exact StatusCode.noConfusion

theorem readsInside_loop : ReadsInside (loop path bytes s) := by
  induction s using loop.induct path bytes with
  | case1 s hlt status hfail =>
    intro e he
    rw [loop, if_pos hlt] at he
    split at he
    · rename_i hfail'
      cases he
      exact readsInside_step _ hfail'
    · cases he
    · rename_i hpass
      rw [hfail] at hpass
      cases hpass
  | case2 s hlt hbreak =>
    rw [loop_of_break hbreak]
    exact readsInside_ok _
  | case3 s hlt s₁ hpass _ ih =>
    rw [loop_of_step hlt hpass]
    exact ih
  | case4 s hge =>
    rw [loop_of_le (by omega)]
    exact readsInside_ok _

theorem readsInside_scan (path : String) (bytes : List Byte) (databaseId : UInt64) :
    ReadsInside (scan path bytes databaseId) := by
  unfold scan
  refine (readsInside_failIf _ StatusCode.noConfusion).bind fun _ hsize => ?_
  rw [failIf_eq_ok, not_lt] at hsize
  refine (readsInside_readBytes (by decide) (by omega)).bind fun _ _ => ?_
  refine (readsInside_decode _).bind fun _ _ => ?_
  refine (readsInside_failIf _ StatusCode.noConfusion).bind fun _ _ => ?_
  exact readsInside_loop.bind fun _ _ => readsInside_ok _

end ReadsInside

/-- A scan never reads past the end of the file, and one that succeeds has found
exactly the longest valid prefix: its end, the last frame of every page in its
transactions, and whether the file goes on behind it.  The bytes behind it play
no part. -/
theorem scan_exact (path : String) (bytes : List Byte) (databaseId : UInt64) :
    (∀ e, scan path bytes databaseId = .error e → e.code ≠ .ioError) ∧
    ∀ result, scan path bytes databaseId = .ok result →
      ∃ ts, ValidPrefix bytes databaseId ts result.validWalEndOffset ∧
        result.validWalEndOffset ≤ bytes.length ∧
        (bytes.length ≤ FileHandle.maxFileSize →
          ∀ t ∈ ts, t.commit.frameCount.toNat = t.frames.length) ∧
        (∀ ts' stop, ValidPrefix bytes databaseId ts' stop → stop ≤ result.validWalEndOffset) ∧
        (∀ pageId, result.latestCommittedFrameOffsets.lookup pageId =
          lastOffset (allFrames ts) pageId) ∧
        (∀ pageId offset, result.latestCommittedFrameOffsets.lookup pageId = some offset →
          ∃ frame, WalPageFrame.decode (.ofList (slice bytes offset walPageFrameRecordSize)) =
            .ok frame ∧ frame.pageId = pageId) ∧
        (result.ignoredTrailingBytes = true ↔ result.validWalEndOffset < bytes.length) ∧
        scan path (bytes.take result.validWalEndOffset) databaseId =
          .ok ⟨result.latestCommittedFrameOffsets, result.validWalEndOffset, false⟩ := by
  refine ⟨readsInside_scan path bytes databaseId, fun result h => ?_⟩
  obtain ⟨ts, hpre, hlatest⟩ := scan_validPrefix h
  have hlookup (pageId : PageId) : result.latestCommittedFrameOffsets.lookup pageId =
      lastOffset (allFrames ts) pageId := by
    rw [hlatest, lookup_commitFrames, AList.lookup_empty, Option.or_none]
  refine ⟨ts, hpre, scan_le_length h, hpre.transactions.frameCount hpre.fits,
    fun _ _ => scan_longest h, hlookup, fun pageId offset hmapped => ?_, scan_ignored_iff h,
    scan_take h⟩
  rw [hlookup] at hmapped
  exact hpre.transactions.decodes (exists_of_lastOffset hmapped)

/-- One committed page and the first bytes of another transaction. -/
theorem scan_exact_torn :
    ∃ bytes result ts, bytes = (WalHeader.createNew 7).encode.bytes ++
        encodeLog [⟨1, [.ofId 1]⟩] ++ (LogTransaction.encode ⟨2, [.ofId 2]⟩).take 10 ∧
      scan "wal" bytes 7 = .ok result ∧ ValidPrefix bytes 7 ts result.validWalEndOffset ∧
      ∀ pageId, result.latestCommittedFrameOffsets.lookup pageId =
        lastOffset (allFrames ts) pageId := by
  have htorn : Torn ((LogTransaction.encode ⟨2, [.ofId 2]⟩).take 10) := by
    refine ⟨⟨2, [.ofId 2]⟩, 10, ?_, rfl⟩
    rw [LogTransaction.length_encode]
    decide
  obtain ⟨bytes, hbytes⟩ : ∃ bytes, bytes = (WalHeader.createNew 7).encode.bytes ++
    encodeLog [⟨1, [.ofId 1]⟩] ++ (LogTransaction.encode ⟨2, [.ofId 2]⟩).take 10 := ⟨_, rfl⟩
  obtain ⟨result, hscan, -⟩ := scan_log "wal" 7 htorn hbytes
  obtain ⟨ts, hpre, -, -, -, hlookup, -⟩ := (scan_exact "wal" bytes 7).2 result hscan
  exact ⟨bytes, result, ts, hbytes, hscan, hpre, hlookup⟩

end WalScanner

end DanDB.Wal
