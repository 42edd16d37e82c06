import DanDB.Storage.Scripts

/-!
# Crashes

A ledger records how long the log was after each commit since the last
checkpoint, and which pages were committed then.  Whatever part of the log a
crash leaves, the files hold the pages of the last entry within it.
-/

namespace DanDB.Storage

open DanDB.Core Platform Wal BufferPool

/-- Sizes of the log, with the pages that were committed when it had them. -/
abbrev Ledger := List (Nat × PageArray)

namespace Ledger

/-- The entries within a size. -/
def within (ledger : Ledger) (size : Nat) : Ledger := ledger.filter fun entry => entry.1 ≤ size

/-- The pages of the last entry. -/
def last (ledger : Ledger) : Option PageArray := ledger.getLast?.map Prod.snd

variable {ledger : Ledger} {size n : Nat} {view : PageArray}

theorem last_concat : last (ledger ++ [(n, view)]) = some view := by
  rw [last, List.getLast?_concat]
  rfl

/-- A log that is left whole has all of its transactions. -/
theorem within_all (h : ∀ entry ∈ ledger, entry.1 ≤ size) : ledger.within size = ledger :=
  List.filter_eq_self.mpr fun entry hmem => decide_eq_true (h entry hmem)

/-- The last transaction is left if its end is, -/
theorem within_concat_le (h : n ≤ size) :
    within (ledger ++ [(n, view)]) size = ledger.within size ++ [(n, view)] := by
  simp [within, List.filter_append, h]

/-- and lost otherwise. -/
theorem within_concat_lt (h : size < n) :
    within (ledger ++ [(n, view)]) size = ledger.within size := by
  simp [within, List.filter_append, Nat.not_le_of_lt h]

end Ledger

/-! ## A log with its ledger -/

/-- The file and the first transactions of the log hold the pages of each entry. -/
inductive Journal (disk : DiskManager) (databaseId : UInt64) : List LogTransaction → Ledger → Prop
  | empty {view : PageArray} (h : Recovers disk [] view)
    (hid : view.header.databaseId = databaseId) :
    Journal disk databaseId [] [(WalHeader.walHeaderSize, view)]
  | commit {log : List LogTransaction} {t : LogTransaction} {ledger : Ledger} {view : PageArray}
    (hjournal : Journal disk databaseId log ledger) (h : Recovers disk (log ++ [t]) view)
    (hid : view.header.databaseId = databaseId) :
    Journal disk databaseId (log ++ [t])
      (ledger ++ [((WalManager.fileBytes databaseId (log ++ [t])).length, view)])

namespace Journal

variable {disk disk' : DiskManager} {databaseId : UInt64} {log : List LogTransaction}
  {ledger : Ledger}

/-- The journal is about the bytes of the database file. -/
theorem of_bytes (h : Journal disk databaseId log ledger)
    (hopen : disk'.fileHandle.isOpen = true)
    (hbytes : disk'.fileHandle.bytes = disk.fileHandle.bytes) :
    Journal disk' databaseId log ledger := by
  induction h with
  | empty h hid => exact .empty (h.of_bytes hopen hbytes) hid
  | commit _ h hid ih => exact .commit ih (h.of_bytes hopen hbytes) hid

/-- The last entry is about the whole log. -/
theorem last (h : Journal disk databaseId log ledger) : ∃ view, Recovers disk log view ∧
    view.header.databaseId = databaseId ∧ ledger.last = some view := by
  cases h with
  | empty h hid => exact ⟨_, h, hid, rfl⟩
  | commit _ h hid => exact ⟨_, h, hid, Ledger.last_concat⟩

/-- No transaction ends behind the end of the log. -/
theorem sizes (h : Journal disk databaseId log ledger) :
    ∀ entry ∈ ledger, entry.1 ≤ (WalManager.fileBytes databaseId log).length := by
  induction h with
  | empty h hid =>
    rintro entry hmem
    rw [List.mem_singleton.mp hmem, WalManager.length_fileBytes]
    exact Nat.le_add_right ..
  | commit _ h hid ih =>
    intro entry hmem
    obtain hmem | hmem := List.mem_append.mp hmem
    · rw [WalManager.fileBytes_append, List.length_append]
      exact (ih entry hmem).trans (Nat.le_add_right ..)
    · rw [List.mem_singleton.mp hmem]

/-- Some first bytes of the log are the transactions of some first entries and a
torn one. -/
theorem cut (h : Journal disk databaseId log ledger) {size : Nat}
    (hsize : WalHeader.walHeaderSize ≤ size) : ∃ log' tail, Torn tail ∧
      (WalManager.fileBytes databaseId log).take size =
        WalManager.fileBytes databaseId log' ++ tail ∧
      Journal disk databaseId log' (ledger.within size) := by
  have hall {log : List LogTransaction} {ledger : Ledger}
      (h : Journal disk databaseId log ledger)
      (hwhole : (WalManager.fileBytes databaseId log).length ≤ size) :
      Journal disk databaseId log (ledger.within size) := by
    rwa [Ledger.within_all fun entry hmem => (h.sizes entry hmem).trans hwhole]
  induction h with
  | @empty view h hid =>
    have hlength : (WalManager.fileBytes databaseId []).length ≤ size := by
      rw [WalManager.length_fileBytes]
      exact hsize
    exact ⟨[], [], torn_nil, by rw [List.take_of_length_le hlength, List.append_nil],
      hall (.empty h hid) hlength⟩
  | @commit log t ledger view hjournal h hid ih =>
    have hbytes := WalManager.fileBytes_append databaseId log t
    by_cases hwhole : (WalManager.fileBytes databaseId (log ++ [t])).length ≤ size
    · exact ⟨log ++ [t], [], torn_nil, by rw [List.take_of_length_le hwhole, List.append_nil],
        hall (.commit hjournal h hid) hwhole⟩
    rw [Ledger.within_concat_lt (Nat.lt_of_not_le hwhole)]
    by_cases hlog : (WalManager.fileBytes databaseId log).length ≤ size
    · obtain ⟨n, hn⟩ : ∃ n, size = (WalManager.fileBytes databaseId log).length + n :=
        ⟨_, (Nat.add_sub_of_le hlog).symm⟩
      rw [hbytes, List.length_append] at hwhole
      refine ⟨log, t.encode.take n, ⟨t, n, by omega, rfl⟩, ?_, hall hjournal hlog⟩
      rw [hbytes, hn, List.take_length_add_append]
    · obtain ⟨log', tail, htail, htake, hrest⟩ := ih
      refine ⟨log', tail, htail, ?_, hrest⟩
      rw [hbytes, List.take_append_of_le_length (by omega), htake]

end Journal

/-! ## Sessions with their ledger -/

namespace Session

variable {s s' : Session} {c : Call} {r : Reply} {ledger : Ledger}

/-- How long the log is. -/
def walSize (s : Session) : Nat := s.pager.walManager.fileHandle.bytes.length

/-- The ledger after a call of `s` that ends in `s'`.  A commit adds the pages its
transaction shows just before it, and a checkpoint keeps the last entry. -/
def record (ledger : Ledger) (s : Session) (c : Call) (r : Reply) (s' : Session) : Ledger :=
  match c, r with
  | .commitTransaction _, .ok _ => ledger ++ [(s'.walSize, s.abs.flat.active)]
  | .checkpoint _, .ok _ => (ledger.last.map fun view => (s'.walSize, view)).toList
  | _, _ => ledger

theorem record_keepsStore (h : c.KeepsStore) : record ledger s c r s' = ledger := by
  cases c with
  | commitTransaction order => exact h.elim
  | checkpoint order => exact h.elim
  | _ => rfl

/-- A commit that fails is not in the ledger. -/
theorem record_error {e : Status} : record ledger s c (.error e) s' = ledger := by
  cases c <;> rfl

/-- What a crash leaves: the database file and some first bytes of the log. -/
def crash (s : Session) (size : Nat) : Pager.Files :=
  ⟨some s.pager.diskManager.fileHandle.bytes,
    some (s.pager.walManager.fileHandle.bytes.take size)⟩

/-- What can become of a session and its ledger, as long as the files answer
every call: a crash can end the session, and the next one opens what is left.
No file is longer than `maxFileSize`. -/
inductive History (s₀ : Session) (ledger₀ : Ledger) : Session → Ledger → Prop
  | start : History s₀ ledger₀ s₀ ledger₀
  | step {s s' : Session} {ledger : Ledger} {c : Call} {r : Reply}
    (h : History s₀ ledger₀ s ledger) (hquiet : c.Quiet) (hstep : s.Step c r s') :
    History s₀ ledger₀ s' (record ledger s c r s')
  | crash {s : Session} {ledger : Ledger} {size : Nat} {order : IterationOrder PageId}
    {path : String} {capacity : Nat} {pager : Pager} (h : History s₀ ledger₀ s ledger)
    (hsize : WalHeader.walHeaderSize ≤ size)
    (hmax : (s.pager.walManager.fileHandle.bytes.take size).length ≤ FileHandle.maxFileSize)
    (hopen : Pager.open order path (s.crash size) capacity = .ok pager) :
    History s₀ ledger₀ (Session.start pager) (ledger.within size)

/-- What the ledger says is in the files. -/
structure Recorded (s : Session) (ledger : Ledger) (log : List LogTransaction) : Prop where
  sound : s.Sound
  noFaults : s.NoFaults
  logs : s.pager.walManager.Logs log
  recovers : Recovers s.pager.diskManager log s.abs.flat.committed
  journal : Journal s.pager.diskManager s.pager.walManager.databaseId log ledger
  last : ledger.last = some s.abs.flat.committed

/-- A pager that was opened is recorded by what it shows. -/
theorem recorded_of_shows {view : PageArray} {log : List LogTransaction} {pager : Pager}
    (h : Pager.Shows view log pager)
    (hjournal : Journal pager.diskManager view.header.databaseId log ledger)
    (hlast : ledger.last = some view) : (start pager).Recorded ledger log := by
  have hcommitted : pager.abs.committed = view := by rw [h.abs]; rfl
  exact ⟨(sound_of_shows h).1, (sound_of_shows h).2, h.logs, hcommitted ▸ h.recovers,
    h.databaseId ▸ hjournal, hlast.trans (congrArg some hcommitted.symm)⟩

theorem walSize_of_logs (hlogs : s.pager.walManager.Logs []) :
    s.walSize = WalHeader.walHeaderSize := by
  rw [walSize, hlogs.bytes, WalManager.length_fileBytes]
  rfl

/-- A session whose log is empty begins a ledger. -/
theorem recorded_of_empty (h : s.Sound) (hno : s.NoFaults) (hlogs : s.pager.walManager.Logs [])
    (hrecovers : Recovers s.pager.diskManager [] s.abs.flat.committed) :
    s.Recorded [(s.walSize, s.abs.flat.committed)] [] := by
  rw [walSize_of_logs hlogs]
  exact ⟨h, hno, hlogs, hrecovers, .empty hrecovers h.databaseId.symm, rfl⟩

/-- A step that leaves the files as they are leaves the ledger as it is. -/
theorem Recorded.of_sameStore {log : List LogTransaction} (h : s.Recorded ledger log)
    (hsound : s'.Sound) (hno : s'.NoFaults) (hsame : Pager.SameStore s.pager s'.pager) :
    s'.Recorded ledger log := by
  have hcommitted : s'.abs.flat.committed = s.abs.flat.committed := by
    show (⟨_, _⟩ : PageArray) = ⟨_, _⟩
    rw [hsame.committedHeader, hsame.committedPage]
  refine ⟨hsound, hno, ?_, ?_, ?_, h.last.trans (congrArg some hcommitted.symm)⟩
  · rw [hsame.wal]
    exact h.logs
  · rw [hcommitted]
    exact h.recovers.of_sameBytes hsame.disk
  · rw [hsame.wal]
    exact h.journal.of_bytes hsound.inv.file.holds.isOpen hsame.disk.bytes

/-- A commit appends the active pages to the ledger, as the log gets them. -/
theorem Recorded.commit {log : List LogTransaction} (h : s.Recorded ledger log)
    {order : IterationOrder PageId} (hstep : s.Step (.commitTransaction order) r s') :
    ∃ log', s'.Recorded (record ledger s (.commitTransaction order) r s') log' := by
  have hcommit := Pager.commitTransaction_yields order h.sound.inv fun _ => h.logs
  have hsound := (h.sound.step hstep).1
  have hno := h.sound.noFaults h.noFaults (by trivial) hstep
  unfold Proc.Yields at hcommit
  rw [Step, call, Session.perform] at hstep
  rcases hrun : (Pager.commitTransaction order).run s.pager with ⟨e | u, pager⟩ <;>
    rw [hrun] at hcommit hstep <;> cases hstep
  · obtain ⟨-, -, -, -, ⟨hsame, -⟩ | ⟨hfaults, -⟩⟩ := hcommit
    swap
    · exact absurd h.noFaults.2 hfaults
    exact ⟨log, h.of_sameStore hsound hno hsame⟩
  · obtain ⟨-, -, hdisk, hwal, -, -, habs, t, ht, hlogs⟩ := hcommit
    have hrecovers : Recovers pager.diskManager (log ++ [t]) pager.abs.committed := by
      rw [habs]
      exact (h.recovers.commit h.sound.inv ht).of_sameBytes hdisk
    -- what the commit has made the committed pages is what the transaction showed
    have hview : s.abs.flat.active = pager.abs.committed := by rw [habs]; rfl
    show ∃ log', Recorded _
      (ledger ++ [(pager.walManager.fileHandle.bytes.length, s.abs.flat.active)]) log'
    rw [hview]
    refine ⟨log ++ [t], hsound, hno, hlogs, hrecovers, ?_, Ledger.last_concat⟩
    have hjournal := h.journal.of_bytes hsound.inv.file.holds.isOpen hdisk.bytes
    rw [← hwal.databaseId] at hjournal
    show Journal pager.diskManager pager.walManager.databaseId (log ++ [t]) _
    rw [hlogs.bytes]
    exact .commit hjournal hrecovers hsound.databaseId.symm

/-- A commit writes a frame for each page of the transaction and a commit record. -/
theorem Sound.walSize_commit (h : s.Sound) {log : List LogTransaction}
    (hlogs : s.pager.walManager.Logs log) {order : IterationOrder PageId} {page : Option Page}
    (hstep : s.Step (.commitTransaction order) (.ok page) s') :
    s'.walSize = s.walSize + (WalPageFrame.walPageFrameRecordSize * s.abs.flat.dirtyPageIds.length +
      WalCommitRecord.walCommitRecordSize) := by
  have hcommit := Pager.commitTransaction_yields order h.inv fun _ => hlogs
  unfold Proc.Yields at hcommit
  rw [Step, call, Session.perform] at hstep
  rcases hrun : (Pager.commitTransaction order).run s.pager with ⟨e | u, pager⟩ <;>
    rw [hrun] at hcommit hstep <;> cases hstep
  obtain ⟨-, -, -, hwal, -, -, -, t, ht, hlogs'⟩ := hcommit
  have hpages : t.pages.length = s.abs.flat.dirtyPageIds.length := by
    rw [← List.length_map Page.id]
    exact ht.pageIds.length_eq
  rw [walSize, walSize, hlogs'.bytes, hlogs.bytes, hwal.databaseId, WalManager.fileBytes_append,
    List.length_append, LogTransaction.length_encode, hpages]

/-- What a checkpoint that does not fail leaves. -/
theorem Sound.checkpoint_ok (h : s.Sound) {order : IterationOrder PageId} {page : Option Page}
    (hstep : s.Step (.checkpoint order) (.ok page) s') :
    s'.pager.walManager.Logs [] ∧
      Recovers s'.pager.diskManager [] s'.abs.flat.committed := by
  by_cases hun : s.pager.transactionState.status = .unresolved
  · obtain ⟨e, hrun, -⟩ := Pager.checkpoint_unresolved order hun
    rw [Step, call, Session.perform, hrun] at hstep
    cases hstep
  obtain ⟨log, hlogs, hrecovers⟩ := h.logged hun
  have hcheckpoint := Pager.checkpoint_yields order h.inv hun hlogs hrecovers h.atomic
  unfold Proc.Yields at hcheckpoint
  rw [Step, call, Session.perform] at hstep
  rcases hrun : (Pager.checkpoint order).run s.pager with ⟨e | u, pager⟩ <;>
    rw [hrun] at hcheckpoint hstep <;> cases hstep
  obtain ⟨-, hdone, -⟩ | ⟨⟨_, hr⟩, -⟩ := hcheckpoint
  · refine ⟨hdone.logs, ?_⟩
    show Recovers pager.diskManager [] pager.abs.committed
    rw [hdone.abs]
    exact hdone.recovers
  · cases hr

/-- A checkpoint changes no page that can be seen, whether or not it ends. -/
theorem Sound.checkpoint_abs (h : s.Sound) {order : IterationOrder PageId}
    (hstep : s.Step (.checkpoint order) r s') : s'.abs = s.abs := by
  obtain ⟨-, hanswer | ⟨_, -, habs, -⟩ | ⟨_, _, hc, -, -, -⟩⟩ := h.step hstep
  · rw [FlatSession.call] at hanswer
    split at hanswer
    · cases hanswer
    rw [FlatSession.perform, FlatPager.checkpoint, Proc.get_bind_run] at hanswer
    by_cases hstatus : s.abs.flat.status = .unresolved
    · rw [Proc.failIf_run_of s.abs.flat hstatus] at hanswer
      exact ((Prod.mk.inj (Option.some.inj hanswer)).2).symm
    · rw [Proc.failIf_run_of_not s.abs.flat hstatus] at hanswer
      exact ((Prod.mk.inj (Option.some.inj hanswer)).2).symm
  · exact habs
  · cases hc

/-- A checkpoint starts a new ledger, as it empties the log. -/
theorem Recorded.checkpoint {log : List LogTransaction} (h : s.Recorded ledger log)
    {order : IterationOrder PageId} (hstep : s.Step (.checkpoint order) r s') :
    ∃ log', s'.Recorded (record ledger s (.checkpoint order) r s') log' := by
  have hsound := (h.sound.step hstep).1
  have hno := h.sound.noFaults h.noFaults (by trivial) hstep
  rcases r with e | page
  swap
  · obtain ⟨hlogs, hrecovers⟩ := h.sound.checkpoint_ok hstep
    rw [record, h.last, ← h.sound.checkpoint_abs hstep]
    exact ⟨[], recorded_of_empty hsound hno hlogs hrecovers⟩
  rw [record_error]
  by_cases hun : s.pager.transactionState.status = .unresolved
  · obtain ⟨e', hrun, -⟩ := Pager.checkpoint_unresolved order hun
    rw [Step, call, Session.perform, hrun] at hstep
    cases hstep
    exact ⟨log, h⟩
  have hcheckpoint := Pager.checkpoint_yields order h.sound.inv hun h.logs h.recovers h.sound.atomic
  rw [Step, call, Session.perform] at hstep
  have hlarge : s.pager.committedHeader.pageCount.toNat * pageSize > FileHandle.maxFileSize := by
    unfold Proc.Yields at hcheckpoint
    rcases hrun : (Pager.checkpoint order).run s.pager with ⟨e' | u, pager⟩ <;>
      rw [hrun] at hcheckpoint hstep <;> cases hstep
    obtain ⟨hr, -⟩ | ⟨-, hdisk | hwal | hlarge, -⟩ := hcheckpoint
    · cases hr
    · exact absurd h.noFaults.1 hdisk
    · exact absurd h.noFaults.2 hwal
    · exact hlarge
  -- the file was too small for the database, so the checkpoint has not begun
  obtain ⟨-, disk, hdisk, hpager⟩ := Pager.checkpoint_tooLarge order h.sound.inv hun hlarge
  refine ⟨log, h.of_sameStore hsound hno ?_⟩
  rw [← (Prod.mk.inj (Option.some.inj hstep)).2, hpager]
  exact .withDisk hdisk

/-- Each call of the program keeps the ledger and the log together, -/
theorem Recorded.step {log : List LogTransaction} (h : s.Recorded ledger log)
    (hquiet : c.Quiet) (hstep : s.Step c r s') :
    ∃ log', s'.Recorded (record ledger s c r s') log' := by
  by_cases hkeeps : c.KeepsStore
  · rw [record_keepsStore hkeeps]
    exact ⟨log, h.of_sameStore (h.sound.step hstep).1 (h.sound.noFaults h.noFaults hquiet hstep)
      (hstep.sameStore h.sound hkeeps)⟩
  cases c with
  | commitTransaction order => exact h.commit hstep
  | checkpoint order => exact h.checkpoint hstep
  | setDiskFaults faults => exact hquiet.elim
  | setWalFaults faults => exact hquiet.elim
  | _ => exact absurd trivial hkeeps

/-- The files after a crash open, and hold the pages of the last entry within
what is left of the log. -/
theorem Recorded.open_crash {log : List LogTransaction} (h : s.Recorded ledger log) {size : Nat}
    (hsize : WalHeader.walHeaderSize ≤ size)
    (hmax : (s.pager.walManager.fileHandle.bytes.take size).length ≤ FileHandle.maxFileSize)
    (order : IterationOrder PageId) (path : String) {capacity : Nat} (hcapacity : 0 < capacity) :
    ∃ pager view, Pager.open order path (s.crash size) capacity = .ok pager ∧
      (ledger.within size).last = some view ∧ pager.abs = .settled view ∧
      ∃ log', (start pager).Recorded (ledger.within size) log' := by
  obtain ⟨log', tail, htail, htake, hjournal⟩ := h.journal.cut hsize
  obtain ⟨view, hrecovers, hid, hlast⟩ := hjournal.last
  rw [← h.logs.bytes] at htake
  rw [← hid] at htake hjournal
  obtain ⟨pager, hopen, hshows, hbytes⟩ := Pager.open_eq hrecovers order path hcapacity htail
    fun _ => by rwa [← List.length_append, ← htake]
  refine ⟨pager, view, ?_, hlast, hshows.abs, log', recorded_of_shows hshows ?_ hlast⟩
  · rw [crash, htake]
    exact hopen
  · exact hjournal.of_bytes hshows.inv.file.holds.isOpen hbytes

/-- and so do all of them. -/
theorem History.recorded {s₀ : Session} {ledger₀ : Ledger} (h : History s₀ ledger₀ s ledger)
    (h₀ : ∃ log, s₀.Recorded ledger₀ log) : ∃ log, s.Recorded ledger log := by
  induction h with
  | start => exact h₀
  | step _ hquiet hstep ih =>
    obtain ⟨log, hrecorded⟩ := ih
    exact hrecorded.step hquiet hstep
  | crash _ hsize hmax hopen ih =>
    obtain ⟨log, hrecorded⟩ := ih
    obtain ⟨pager, _, hopen', -, -, hrecorded'⟩ := hrecorded.open_crash hsize hmax _ _
      (capacity_pos_of_open hopen)
    rw [hopen] at hopen'
    cases hopen'
    exact hrecorded'

/-- Calls that write no file leave the log as long as it is. -/
theorem Sound.runs_walSize {trace : List (Call × Reply)} (h : s.Sound) (hrun : Runs Step s trace s')
    (hkeeps : ∀ entry ∈ trace, entry.1.KeepsStore) : s'.walSize = s.walSize := by
  have hstep : ∀ (c : Call) (r : Reply) (t t' : Session), (c, r) ∈ trace → t.Step c r t' →
      t.Sound ∧ t.walSize = s.walSize → t'.Sound ∧ t'.walSize = s.walSize := by
    rintro c r t t' hmem hstep ⟨hsound, hsize⟩
    refine ⟨(hsound.step hstep).1, ?_⟩
    rw [walSize, (hstep.sameStore hsound (hkeeps _ hmem)).wal]
    exact hsize
  exact (hrun.preserves hstep ⟨h, rfl⟩).2

/-- Calls that write no file leave the ledger as it is. -/
theorem History.runs {s₀ : Session} {ledger₀ : Ledger} {trace : List (Call × Reply)}
    (h : History s₀ ledger₀ s ledger) (hrun : Runs Step s trace s')
    (hkeeps : ∀ entry ∈ trace, entry.1.KeepsStore) : History s₀ ledger₀ s' ledger := by
  have hstep : ∀ c r s s', (c, r) ∈ trace → s.Step c r s' → History s₀ ledger₀ s ledger →
      History s₀ ledger₀ s' ledger := by
    intro c r s s' hmem hstep h
    have hc := hkeeps _ hmem
    have hrecord := h.step hc.quiet hstep
    rwa [record_keepsStore hc] at hrecord
  exact hrun.preserves hstep h

/-- A new database has its first pages committed. -/
theorem recorded_of_create {path : String} {capacity : Nat} {databaseId : UInt64} {pager : Pager}
    (h : Pager.createEmpty path ⟨none, none⟩ capacity databaseId = .ok pager) :
    ∃ log, (start pager).Recorded [(WalHeader.walHeaderSize, Pager.emptyView databaseId)] log := by
  obtain ⟨pager', hcreate, hshows⟩ :=
    Pager.createEmpty_eq path (capacity_pos_of_createEmpty h) databaseId
  rw [hcreate] at h
  cases h
  exact ⟨[], recorded_of_shows hshows (.empty hshows.recovers rfl) rfl⟩

/-- How long the log is after the first commit to a new database. -/
theorem Played.walSize_commit {path : String} {capacity : Nat} {databaseId : UInt64} {pager : Pager}
    {trace : List (Call × Reply)} {flat : FlatSession}
    (hcreate : Pager.createEmpty path ⟨none, none⟩ capacity databaseId = .ok pager)
    (h : (start pager).Played trace flat s) (hkeeps : ∀ entry ∈ trace, entry.1.KeepsStore)
    {order : IterationOrder PageId} {page : Option Page}
    (hstep : s.Step (.commitTransaction order) (.ok page) s') :
    s'.walSize = WalHeader.walHeaderSize + (WalPageFrame.walPageFrameRecordSize *
      flat.flat.dirtyPageIds.length + WalCommitRecord.walCommitRecordSize) := by
  obtain ⟨log, hrecorded⟩ := recorded_of_create hcreate
  obtain ⟨pager', hcreate', hshows⟩ :=
    Pager.createEmpty_eq path (capacity_pos_of_createEmpty hcreate) databaseId
  obtain rfl : pager = pager' := Except.ok.inj (hcreate.symm.trans hcreate')
  obtain ⟨log', hrecorded'⟩ :=
    (History.runs .start h.runs hkeeps).recorded ⟨log, hrecorded⟩
  rw [h.sound.walSize_commit hrecorded'.logs hstep, hrecorded.sound.runs_walSize h.runs hkeeps, h.abs,
    @walSize_of_logs (start pager) hshows.logs]

end Session

end DanDB.Storage
