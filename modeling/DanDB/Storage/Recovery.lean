import DanDB.Storage.PagerCommit

/-!
# Opening a database again

`Recovers disk log view` says that a database file and a log together hold the
pages of `view`: those in the log, on top of those in the file.  Then `open` on
the two files yields a pager that shows exactly this view, whatever torn
transaction stands behind the log.
-/

namespace DanDB.Storage

open Buffer DanDB.Core Platform Wal BufferPool

/-- A page as the file and the log have it. -/
def recoveredPage (disk : DiskManager) (log : List LogTransaction) (pageId : PageId) :
    Option PageData :=
  if pageId = headerPageId then none
  else (replay log pageId).or
    (if pageId.toNat < disk.fileHandle.bytes.length / pageSize then some (disk.page pageId.toNat)
      else none)

/-- The file has a header that `open` accepts. -/
structure StoredHeader (disk : DiskManager) (pages : Nat) (databaseId : UInt64) : Prop where
  intro ::
  stored : ∃ header : DatabaseHeader, header.Valid ∧ disk.page 0 = header.image ∧
    header.databaseId = databaseId ∧ header.pageCount.toNat ≤ pages

/-- The pages of an array are those below its page count, without the header. -/
structure PageArray.WellFormed (view : PageArray) : Prop where
  header : view.header.Valid
  page_iff : ∀ pageId, (∃ data, view.page pageId = some data) ↔
    pageId ≠ headerPageId ∧ pageId.toNat < view.header.pageCount.toNat

/-- The file and the log hold the pages of a view. -/
structure Recovers (disk : DiskManager) (log : List LogTransaction) (view : PageArray) :
    Prop where
  wellFormed : view.WellFormed
  holds : disk.Holds (disk.fileHandle.bytes.length / pageSize)
  stored : StoredHeader disk (disk.fileHandle.bytes.length / pageSize) view.header.databaseId
  pages_le : disk.fileHandle.bytes.length / pageSize ≤ view.header.pageCount.toNat
  header : (replay log headerPageId).getD (disk.page 0) = view.header.image
  page : ∀ pageId, recoveredPage disk log pageId = view.page pageId

/-- What a file holds depends on its contents only. -/
theorem Recovers.of_bytes {disk disk' : DiskManager} {log : List LogTransaction}
    {view : PageArray} (h : Recovers disk log view) (hopen : disk'.fileHandle.isOpen = true)
    (hbytes : disk'.fileHandle.bytes = disk.fileHandle.bytes) : Recovers disk' log view := by
  have hpage (i : Nat) : disk'.page i = disk.page i := by
    rw [DiskManager.page, DiskManager.page, hbytes]
  obtain ⟨header, hvalid, hstored, hid, hcount⟩ := h.stored
  refine ⟨h.wellFormed, ?_, ⟨header, hvalid, (hpage 0).trans hstored, hid, ?_⟩, ?_, ?_,
    fun pageId => ?_⟩
  · rw [hbytes]
    exact ⟨hopen, by rw [hbytes]; exact h.holds.length, h.holds.pos, h.holds.size⟩
  · rwa [hbytes]
  · rw [hbytes]
    exact h.pages_le
  · rw [hpage]
    exact h.header
  · rw [← h.page pageId, recoveredPage, recoveredPage, hbytes, hpage]

theorem Recovers.of_sameBytes {disk disk' : DiskManager} {log : List LogTransaction}
    {view : PageArray} (h : Recovers disk log view) (hsame : DiskManager.SameBytes disk disk') :
    Recovers disk' log view :=
  h.of_bytes (hsame.handle.isOpen.trans h.holds.isOpen) hsame.bytes

/-- The log with the transaction of a pager holds the pages as the transaction
saw them. -/
theorem Recovers.commit {pager : Pager} {live : List PagePin} {log : List LogTransaction}
    (h : Recovers pager.diskManager log pager.abs.committed) (hinv : pager.Inv live)
    {t : LogTransaction} (ht : pager.Records t) :
    Recovers pager.diskManager (log ++ [t]) pager.abs.active := by
  have hnodup : (t.pages.map Page.id).Nodup :=
    ht.pageIds.nodup_iff.mpr hinv.transaction.dirtyNodup
  have hother {pageId : PageId} (hmem : pageId ∉ pager.transactionState.dirtyPageIds) :
      replay (log ++ [t]) pageId = replay log pageId := by
    rw [replay_concat]
    exact Overlay.apply_of_notMem fun hm => hmem (ht.pageIds.mem_iff.mp hm)
  have hsame {page : Page} (hp : page ∈ t.pages) :
      replay (log ++ [t]) page.id = some page.data := by
    rw [replay_concat]
    exact Overlay.apply_of_mem hnodup hp
  obtain ⟨header, hvalid, hpage, hid, hcount⟩ := h.stored
  refine ⟨⟨hinv.transaction.dbHeader, hinv.activePage_isSome⟩, h.holds,
    ⟨header, hvalid, hpage, hid.trans hinv.transaction.databaseId.symm, hcount⟩,
    h.pages_le.trans hinv.transaction.pageCount, ?_, fun pageId => ?_⟩
  · by_cases hmem : headerPageId ∈ pager.transactionState.dirtyPageIds
    · obtain ⟨page, hp, hheader⟩ := List.mem_map.mp (ht.pageIds.mem_iff.mpr hmem)
      rw [← hheader, hsame hp, Option.getD_some]
      exact (ht.current page hp).header hheader
    · have hclean : pager.dbHeader = pager.committedHeader := hinv.transaction.headerClean
        fun hold => hmem ((hinv.transaction.dirty_iff _).mpr (.inr hold))
      rw [hother hmem, show pager.abs.active.header = pager.committedHeader from hclean]
      exact h.header
  · show _ = pager.activePage pageId
    by_cases hne : pageId = headerPageId
    · rw [hne, recoveredPage, if_pos rfl, Pager.activePage, hinv.content_header, Option.none_or,
        Pager.committedPage, if_pos rfl]
    by_cases hmem : pageId ∈ pager.transactionState.dirtyPageIds
    · obtain ⟨page, hp, rfl⟩ := List.mem_map.mp (ht.pageIds.mem_iff.mpr hmem)
      rw [recoveredPage, if_neg hne, hsame hp, (ht.current page hp).page hne]
      rfl
    · rw [recoveredPage, hother hmem, hinv.activePage_of_clean hmem]
      exact h.page pageId

namespace Pager

/-! ## Collecting the pages of the log -/

section Recover

variable {path : String} {bytes : List Byte}

/-- A frame of a page other than the header goes to the overlay. -/
theorem recoverPage_eq {entry : PageId × Nat} {data : PageData}
    (hframe : WalScanner.FrameAt bytes entry.2 ⟨entry.1, data⟩)
    (recovered : DatabaseHeader × AList fun _ : PageId => Page) :
    recoverPage path bytes recovered entry =
      if entry.1 = headerPageId then (DatabaseHeader.decode data).map fun header =>
        (header, recovered.2)
      else .ok (recovered.1, recovered.2.insert entry.1 ⟨entry.1, data⟩) := by
  obtain ⟨pageId, offset⟩ := entry
  obtain ⟨transactionId, rest, hdrop⟩ := hframe
  simp only at hdrop
  have hsize := (pageFrame transactionId ⟨pageId, data⟩).encode.size_eq
  have hlen := WalScanner.length_of_drop hdrop
  rw [List.length_append, hsize] at hlen
  have hslice : slice bytes offset WalPageFrame.walPageFrameRecordSize =
      (pageFrame transactionId ⟨pageId, data⟩).encode.bytes :=
    (WalScanner.slice_of_drop hdrop hsize.ge).trans (List.take_of_length_le hsize.le)
  rw [recoverPage, WalScanner.readBytes_eq (by decide)
    (by simp only [WalPageFrame.walPageFrameRecordSize]; omega), ok_bind, hslice,
    Bytes.ofList_bytes, WalPageFrame.decode_encode, ok_bind]
  have hid : (pageFrame transactionId ⟨pageId, data⟩).pageId = pageId := rfl
  have himage : (pageFrame transactionId ⟨pageId, data⟩).pageImage = data := rfl
  rw [hid, himage, failIf_of_not (not_not_intro rfl), ok_bind]
  by_cases hheader : pageId = headerPageId
  · rw [if_pos hheader, if_pos hheader]
    rcases DatabaseHeader.decode data with _ | header <;> rfl
  · rw [if_neg hheader, if_neg hheader]
    rfl

/-- The loop of `open`: every page of the log ends up in the overlay, and the
header of the log replaces that of the file. -/
theorem recoverPages (path : String) {overlay : Overlay} {header : DatabaseHeader}
    (hheader : ∀ data, overlay headerPageId = some data →
      DatabaseHeader.decode data = .ok header)
    (entries : List (PageId × Nat))
    (hentries : ∀ entry ∈ entries, ∃ data, overlay entry.1 = some data ∧
      WalScanner.FrameAt bytes entry.2 ⟨entry.1, data⟩)
    (start : DatabaseHeader × AList fun _ : PageId => Page) :
    ∃ recovered, entries.foldlM (recoverPage path bytes) start = .ok recovered ∧
      recovered.1 = (if headerPageId ∈ entries.map Prod.fst then header else start.1) ∧
      ∀ pageId, recovered.2.lookup pageId =
        if pageId ∈ entries.map Prod.fst ∧ pageId ≠ headerPageId then
          (overlay pageId).map (Page.mk pageId)
        else start.2.lookup pageId := by
  induction entries generalizing start with
  | nil => exact ⟨start, rfl, by simp, by simp⟩
  | cons entry rest ih =>
    obtain ⟨data, hdata, hframe⟩ := hentries entry (List.mem_cons_self ..)
    have hrest := ih fun e he => hentries e (List.mem_cons_of_mem _ he)
    rw [List.foldlM_cons, recoverPage_eq hframe]
    by_cases hid : entry.1 = headerPageId
    · rw [if_pos hid, hheader data (hid ▸ hdata)]
      obtain ⟨recovered, hfold, hfst, hsnd⟩ := hrest (header, start.2)
      refine ⟨recovered, hfold, ?_, fun pageId => ?_⟩
      · rw [hfst, if_pos (show headerPageId ∈ (entry :: rest).map Prod.fst from
          hid ▸ List.mem_cons_self ..), ite_self]
      · rw [hsnd pageId]
        refine if_congr ⟨fun h => ⟨List.mem_cons_of_mem _ h.1, h.2⟩, fun h => ⟨?_, h.2⟩⟩ rfl rfl
        exact (List.mem_cons.mp h.1).resolve_left (hid ▸ h.2)
    · rw [if_neg hid, ok_bind]
      obtain ⟨recovered, hfold, hfst, hsnd⟩ :=
        hrest (start.1, start.2.insert entry.1 ⟨entry.1, data⟩)
      refine ⟨recovered, hfold, ?_, fun pageId => ?_⟩
      · rw [hfst]
        exact if_congr ⟨List.mem_cons_of_mem _, fun h =>
          (List.mem_cons.mp h).resolve_left (Ne.symm hid)⟩ rfl rfl
      · rw [hsnd pageId]
        by_cases hmem : pageId ∈ rest.map Prod.fst ∧ pageId ≠ headerPageId
        · rw [if_pos hmem, if_pos ⟨List.mem_cons_of_mem _ hmem.1, hmem.2⟩]
        · rw [if_neg hmem]
          by_cases heq : pageId = entry.1
          · subst heq
            rw [if_pos ⟨List.mem_cons_self .., hid⟩, AList.lookup_insert, hdata]
            rfl
          · rw [if_neg fun h => hmem ⟨(List.mem_cons.mp h.1).resolve_left heq, h.2⟩,
              AList.lookup_insert_ne heq]

/-- The pages the scan found, collected. -/
theorem recoverIndexed (path : String) (order : IterationOrder PageId) {log : List LogTransaction}
    {offsets : AList fun _ : PageId => Nat}
    (hindex : WalScanner.Indexes bytes offsets (replay log)) {fileHeader header : DatabaseHeader}
    (hvalid : header.Valid)
    (hheader : (replay log headerPageId).getD fileHeader.image = header.image)
    (hfile : fileHeader.Valid) :
    ∃ recovered, (order.visitEntries offsets).foldlM (recoverPage path bytes) (fileHeader, ∅) =
        .ok recovered ∧ recovered.1 = header ∧
      ∀ pageId, recovered.2.lookup pageId =
        if pageId = headerPageId then none else (replay log pageId).map (Page.mk pageId) := by
  have hdecode : ∀ data, replay log headerPageId = some data →
      DatabaseHeader.decode data = .ok header := fun data hdata => by
    rw [hdata, Option.getD_some] at hheader
    rw [hheader, DatabaseHeader.decode_image hvalid]
  have hkeys (pageId : PageId) :
      pageId ∈ (order.visitEntries offsets).map Prod.fst ↔ replay log pageId ≠ none := by
    rw [order.map_fst_visitEntries, order.mem_visit, ← AList.mem_keys, ← AList.lookup_isSome]
    have hpage := hindex pageId
    rcases hoffset : offsets.lookup pageId with _ | offset
    · rw [hoffset] at hpage
      simp [hpage]
    · rw [hoffset] at hpage
      obtain ⟨data, hdata, -⟩ := hpage
      simp [hdata]
  obtain ⟨recovered, hfold, hfst, hsnd⟩ := recoverPages path hdecode
    (order.visitEntries offsets) (fun entry hentry => by
      have hpage := hindex entry.1
      rw [order.mem_visitEntries.mp hentry] at hpage
      exact hpage) (fileHeader, ∅)
  refine ⟨recovered, hfold, ?_, fun pageId => ?_⟩
  · rw [hfst]
    split
    · rfl
    · rename_i hnot
      rw [hkeys, not_not] at hnot
      rw [hnot, Option.getD_none] at hheader
      have hboth := (DatabaseHeader.decode_image hfile).symm.trans
        ((congrArg DatabaseHeader.decode hheader).trans (DatabaseHeader.decode_image hvalid))
      exact Except.ok.inj hboth
  · rw [hsnd pageId]
    by_cases hid : pageId = headerPageId
    · rw [if_neg fun h => h.2 hid, if_pos hid]
      rfl
    · rw [if_neg hid]
      rcases hdata : replay log pageId with _ | data
      · rw [if_neg fun h => (hkeys pageId).mp h.1 hdata]
        rfl
      · rw [if_pos ⟨(hkeys pageId).mpr (by simp [hdata]), hid⟩]

end Recover

/-! ## The pager that `open` makes -/

section Open

variable {disk : DiskManager} {wal : WalManager} {log : List LogTransaction} {view : PageArray}

/-- A pager over two files that hold a view, and nothing in its pool. -/
theorem construct_inv (wal : WalManager) (h : Recovers disk log view)
    {recovered : AList fun _ : PageId => Page}
    (hrecovered : ∀ pageId, recovered.lookup pageId =
      if pageId = headerPageId then none else (replay log pageId).map (Page.mk pageId))
    (capacity : Nat) :
    (construct disk wal capacity view.header recovered).Inv [] ∧
      (construct disk wal capacity view.header recovered).abs = .settled view := by
  set pager := construct disk wal capacity view.header recovered
  have hpages : pager.filePages = disk.fileHandle.bytes.length / pageSize := rfl
  have hcommitted : pager.committedPage = view.page := by
    funext pageId
    rw [← h.page, Pager.committedPage, recoveredPage]
    by_cases hid : pageId = headerPageId
    · rw [if_pos hid, if_pos hid]
    · rw [if_neg hid, if_neg hid, show pager.recoveredPages.lookup pageId = _ from
        (hrecovered pageId).trans (if_neg hid)]
      rcases replay log pageId with _ | data
      · rfl
      · rfl
  have hfile : pager.FileInv := by
    refine ⟨h.holds, h.pages_le, fun pageId hne hlt => ?_, fun pageId page hlookup => ?_⟩
    · obtain ⟨data, hdata⟩ := (h.wellFormed.page_iff pageId).mpr ⟨hne, hlt⟩
      rw [← h.page, recoveredPage, if_neg hne] at hdata
      rcases hreplay : replay log pageId with _ | image
      · rw [hreplay, Option.none_or] at hdata
        by_contra hnot
        rw [not_or, hpages] at hnot
        rw [if_neg hnot.2] at hdata
        cases hdata
      · refine .inl (AList.lookup_isSome.mp ?_)
        rw [show pager.recoveredPages.lookup pageId = _ from hrecovered pageId, if_neg hne,
          hreplay]
        rfl
    · rw [show pager.recoveredPages.lookup pageId = _ from hrecovered pageId] at hlookup
      by_cases hid : pageId = headerPageId
      · rw [if_pos hid] at hlookup
        cases hlookup
      · rw [if_neg hid] at hlookup
        obtain ⟨data, hdata, rfl⟩ := Option.map_eq_some_iff.mp hlookup
        refine ⟨rfl, hid, ((h.wellFormed.page_iff pageId).mp ⟨data, ?_⟩).2⟩
        rw [← h.page, recoveredPage, if_neg hid, hdata]
        rfl
  obtain ⟨hinv, habs⟩ := Inv.settle pager [] rfl hfile h.wellFormed.header rfl
    (BufferPoolManager.create_inv capacity) (fun _ _ hdata => by cases hdata) (fun _ => rfl)
    (fun _ hpin => by cases hpin)
  refine ⟨hinv, habs.trans ?_⟩
  rw [hcommitted]
  rfl

/-- A pager that was just opened and shows a view. -/
structure Shows (view : PageArray) (log : List LogTransaction) (pager : Pager) : Prop where
  inv : pager.Inv []
  abs : pager.abs = .settled view
  logs : pager.walManager.Logs log
  databaseId : pager.walManager.databaseId = view.header.databaseId
  recovers : Recovers pager.diskManager log view
  diskFaults : pager.diskManager.fileHandle.faults = []
  walFaults : pager.walManager.fileHandle.faults = []

/-- Opening a file and a log that hold a view. -/
theorem open_of_opened (h : Recovers disk log view) (order : IterationOrder PageId)
    (path : String) {capacity : Nat} (hcapacity : 0 < capacity) {contents : Option (List Byte)}
    {wal : WalManager}
    (hwal : WalManager.openOrCreate (walPath path) contents view.header.databaseId = .ok wal)
    (hopened : WalManager.Opened (walPath path) view.header.databaseId log wal) :
    ∃ pager, Pager.open order path ⟨some disk.fileHandle.bytes, contents⟩ capacity = .ok pager ∧
      Shows view log pager ∧ pager.diskManager.fileHandle.bytes = disk.fileHandle.bytes := by
  obtain ⟨header, hvalid, hpage, hid, hcount⟩ := h.stored
  obtain ⟨hlogs, hwalId, hwalFaults⟩ := hopened
  have hholds : DiskManager.Holds ⟨.openOn path disk.fileHandle.bytes⟩
      (disk.fileHandle.bytes.length / pageSize) :=
    ⟨rfl, h.holds.length, h.holds.pos, h.holds.size⟩
  obtain ⟨disk₁, hopen, hsame₁⟩ := DiskManager.openExisting_eq path hholds hvalid hpage hcount
  have hread := DiskManager.readHeader_yields (hsame₁.sameFile.holds hholds) hvalid
    ((hsame₁.page 0).trans hpage)
  have hfaults₁ : disk₁.fileHandle.faults = [] := hsame₁.handle.faults_nil rfl
  have hread' : (DiskManager.readHeader.run disk₁).1 = .ok header := by
    obtain ⟨-, hr | ⟨-, hfaults⟩⟩ := hread
    · exact hr
    · exact absurd hfaults₁ hfaults
  have hwalBytes : wal.fileHandle.bytes =
      (WalHeader.createNew view.header.databaseId).encode.bytes ++ encodeLog log ++ [] := by
    rw [hlogs.bytes, hwalId, List.append_nil]
    rfl
  obtain ⟨result, hscan, -, -, hindex⟩ :=
    WalScanner.scan_log (walPath path) view.header.databaseId torn_nil hwalBytes
  obtain ⟨⟨dbHeader, recovered⟩, hfold, hdb, hrecovered⟩ :=
    recoverIndexed (walPath path) order hindex h.wellFormed.header
      (by rw [← hpage]; exact h.header) hvalid
  simp only at hdb hrecovered
  subst hdb
  have hrecovers : Recovers disk₁ log view := h.of_bytes hsame₁.handle.isOpen hsame₁.bytes
  obtain ⟨hinv, habs⟩ := construct_inv wal hrecovers hrecovered capacity
  refine ⟨construct disk₁ wal capacity view.header recovered, ?_,
    ⟨hinv, habs, hlogs, hwalId, hrecovers, hfaults₁, hwalFaults⟩, hsame₁.bytes⟩
  rw [Pager.open, failIf_of_not (by omega), ok_bind]
  simp only
  rw [hopen, ok_bind, hread', ok_bind, hid, hwal, ok_bind, hscan, ok_bind, hfold, ok_bind]
  rfl

/-- Opening a file and a log that hold a view, with a torn transaction behind
the log. -/
theorem open_eq (h : Recovers disk log view) (order : IterationOrder PageId) (path : String)
    {capacity : Nat} (hcapacity : 0 < capacity) {tail : List Byte} (htail : Torn tail)
    (hsize : tail ≠ [] →
      (WalManager.fileBytes view.header.databaseId log).length + tail.length ≤
        FileHandle.maxFileSize) :
    ∃ pager, Pager.open order path ⟨some disk.fileHandle.bytes,
        some (WalManager.fileBytes view.header.databaseId log ++ tail)⟩ capacity = .ok pager ∧
      Shows view log pager ∧ pager.diskManager.fileHandle.bytes = disk.fileHandle.bytes := by
  obtain ⟨wal, hwal, hopened⟩ :=
    WalManager.openOrCreate_log (walPath path) view.header.databaseId log htail hsize
  exact open_of_opened h order path hcapacity hwal hopened

/-- A new database has no pages but the header. -/
def emptyView (databaseId : UInt64) : PageArray := ⟨.createNew databaseId, fun _ => none⟩

/-- The file of a new database holds the header. -/
theorem recovers_new {disk : DiskManager} {databaseId : UInt64}
    (hholds : disk.Holds 1) (hpage : disk.page 0 = (DatabaseHeader.createNew databaseId).image) :
    Recovers disk [] (emptyView databaseId) := by
  have hvalid : (DatabaseHeader.createNew databaseId).Valid :=
    DatabaseHeader.createNew_valid databaseId
  have hpages : disk.fileHandle.bytes.length / pageSize = 1 := hholds.pages_eq
  have hone : (DatabaseHeader.createNew databaseId).pageCount.toNat = 1 := rfl
  have honly {pageId : PageId} (hlt : pageId.toNat < 1) : pageId = headerPageId :=
    UInt64.toNat.inj (by rw [headerPageId_toNat]; omega)
  refine ⟨⟨hvalid, fun pageId => ⟨nofun, fun ⟨hne, hlt⟩ => absurd (honly hlt) hne⟩⟩,
    hpages ▸ hholds, ⟨_, hvalid, hpage, rfl, ?_⟩, ?_, hpage, fun pageId => ?_⟩
  · rw [hpages, hone]
  · rw [hpages]
    exact hone.ge
  · rw [recoveredPage, hpages]
    split
    · rfl
    · rename_i hne
      rw [if_neg fun hlt => hne (honly hlt)]
      rfl

/-- A new database is one that was opened on a file with a header and an empty
log. -/
theorem createEmpty_eq (path : String) {capacity : Nat} (hcapacity : 0 < capacity)
    (databaseId : UInt64) :
    ∃ pager, createEmpty path ⟨none, none⟩ capacity databaseId = .ok pager ∧
      Shows (emptyView databaseId) [] pager := by
  set header := DatabaseHeader.createNew databaseId with hheader
  have hvalid : header.Valid := DatabaseHeader.createNew_valid databaseId
  obtain ⟨disk, hdisk, hholds, hpage, hfaults⟩ := DiskManager.createNew_eq path hvalid rfl
  obtain ⟨wal, hwal, hlogs, hwalId, hwalFaults⟩ :=
    WalManager.openOrCreate_new (walPath path) databaseId
  have hrecovers : Recovers disk [] (emptyView databaseId) := recovers_new hholds hpage
  have hempty (pageId : PageId) : (∅ : AList fun _ : PageId => Page).lookup pageId =
      if pageId = headerPageId then none
      else (replay [] pageId).map fun data => ⟨pageId, data⟩ := by
    rw [AList.lookup_empty]
    split <;> rfl
  obtain ⟨hinv, habs⟩ := construct_inv wal hrecovers hempty capacity
  refine ⟨construct disk wal capacity header ∅, ?_, hinv, habs, hlogs, hwalId, hrecovers, hfaults,
    hwalFaults⟩
  rw [createEmpty, failIf_of_not (by omega), ok_bind, ← hheader]
  simp only
  rw [failIf_of_not (by decide), ok_bind, hdisk, ok_bind, hwal, ok_bind]
  rfl

end Open

end Pager

end DanDB.Storage
