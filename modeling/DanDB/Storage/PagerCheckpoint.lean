import DanDB.Storage.Recovery

/-!
# Checkpoint

A checkpoint moves the committed pages from the log to the file.  Each of its
steps leaves a file and a log that hold the committed pages: the file only
grows, a page is overwritten with what the log says or with what it already
is, and the log is emptied last.
-/

namespace DanDB.Storage

open DanDB.Core Platform Wal BufferPool

section Steps

variable {disk disk' : DiskManager} {log : List LogTransaction} {view : PageArray}

/-- A page that is not in the log is in the file. -/
theorem Recovers.page_of_not_logged (h : Recovers disk log view) {pageId : PageId}
    (hne : pageId ≠ headerPageId) {data : PageData} (hdata : view.page pageId = some data)
    (hlog : replay log pageId = none) :
    pageId.toNat < disk.fileHandle.bytes.length / pageSize ∧ disk.page pageId.toNat = data := by
  rw [← h.page, recoveredPage, if_neg hne, hlog, Option.none_or] at hdata
  split at hdata
  · exact ⟨‹_›, Option.some.inj hdata⟩
  · cases hdata

/-- The file grows. -/
theorem Recovers.resize (h : Recovers disk log view) {pages' : Nat}
    (hresized : DiskManager.Resized disk disk' (disk.fileHandle.bytes.length / pageSize) pages')
    (hle : pages' ≤ view.header.pageCount.toNat) : Recovers disk' log view := by
  have hpages := hresized.holds.pages_eq
  have hgrow := hresized.le
  obtain ⟨header, hvalid, hpage, hid, hcount⟩ := h.stored
  have hpos := h.holds.pos
  have hzero := hresized.page 0 hpos
  refine ⟨h.wellFormed, by rw [hpages]; exact hresized.holds,
    ⟨header, hvalid, hzero.trans hpage, hid, ?_⟩, by rw [hpages]; exact hle, ?_, fun pageId => ?_⟩
  · rw [hpages]
    omega
  · rw [hzero]
    exact h.header
  · rw [← h.page pageId, recoveredPage, recoveredPage, hpages]
    split
    · rfl
    rename_i hne
    rcases hlog : replay log pageId with _ | data
    · rw [Option.none_or, Option.none_or]
      by_cases hlt : pageId.toNat < disk.fileHandle.bytes.length / pageSize
      · rw [if_pos hlt, if_pos (hlt.trans_le hgrow), hresized.page _ hlt]
      · have hout : ¬pageId.toNat < pages' := fun hlt' => by
          obtain ⟨data, hdata⟩ := (h.wellFormed.page_iff pageId).mpr ⟨hne, hlt'.trans_le hle⟩
          exact hlt (h.page_of_not_logged hne hdata hlog).1
        rw [if_neg hlt, if_neg hout]
    · rfl

/-- A page is overwritten with what it is in the view. -/
theorem Recovers.writePage (h : Recovers disk log view) {pageId : PageId} {data : PageData}
    (hne : pageId ≠ headerPageId) (hdata : view.page pageId = some data)
    (hwritten : DiskManager.BlockWritten disk disk' pageId.toNat data)
    (hatomic : disk.fileHandle.AtomicWrites) : Recovers disk' log view := by
  have hpages : disk'.fileHandle.bytes.length / pageSize =
      disk.fileHandle.bytes.length / pageSize := by rw [hwritten.sameFile.length]
  have hzero : disk'.page 0 = disk.page 0 :=
    hwritten.other 0 (Pager.toNat_ne_zero hne).symm
  obtain ⟨header, hvalid, hpage, hid, hcount⟩ := h.stored
  refine ⟨h.wellFormed, by rw [hpages]; exact hwritten.sameFile.holds h.holds,
    ⟨header, hvalid, hzero.trans hpage, hid, by rwa [hpages]⟩, by rw [hpages]; exact h.pages_le,
    by rw [hzero]; exact h.header, fun p => ?_⟩
  rw [← h.page p, recoveredPage, recoveredPage, hpages]
  by_cases hp : p = pageId
  · subst hp
    rw [if_neg hne, if_neg hne]
    rcases hlog : replay log p with _ | image
    · obtain ⟨hlt, hold⟩ := h.page_of_not_logged hne hdata hlog
      have hnew : disk'.page p.toNat = disk.page p.toNat := by
        obtain hsame | hsame := hwritten.same hatomic
        · exact hsame
        · rw [hsame, hold]
      rw [hnew]
    · rfl
  · rw [hwritten.other p.toNat fun heq => hp (UInt64.toNat.inj heq)]

/-- The header of the view is written to a file that has all pages. -/
theorem Recovers.writeHeader (h : Recovers disk log view)
    (hfull : disk.fileHandle.bytes.length / pageSize = view.header.pageCount.toNat)
    (hwritten : DiskManager.BlockWritten disk disk' 0 view.header.image)
    (hatomic : disk.fileHandle.AtomicWrites) : Recovers disk' log view := by
  have hpages : disk'.fileHandle.bytes.length / pageSize =
      disk.fileHandle.bytes.length / pageSize := by rw [hwritten.sameFile.length]
  obtain ⟨header, hvalid, hpage, hid, hcount⟩ := h.stored
  refine ⟨h.wellFormed, by rw [hpages]; exact hwritten.sameFile.holds h.holds, ?_,
    by rw [hpages]; exact h.pages_le, ?_, fun p => ?_⟩
  · obtain hsame | hsame := hwritten.same hatomic
    · exact ⟨header, hvalid, hsame.trans hpage, hid, by rwa [hpages]⟩
    · exact ⟨view.header, h.wellFormed.header, hsame, rfl, by rw [hpages, hfull]⟩
  · have hheader := h.header
    rcases hlog : replay log headerPageId with _ | image
    · rw [hlog, Option.getD_none] at hheader
      obtain hsame | hsame := hwritten.same hatomic
      · rw [Option.getD_none, hsame, hheader]
      · rw [Option.getD_none, hsame]
    · rw [hlog, Option.getD_some] at hheader
      rw [Option.getD_some, hheader]
  · rw [← h.page p, recoveredPage, recoveredPage, hpages]
    by_cases hp : p = headerPageId
    · rw [if_pos hp, if_pos hp]
    · rw [hwritten.other p.toNat (Pager.toNat_ne_zero hp)]

/-- A file that has all pages needs no log. -/
theorem Recovers.emptyLog (h : Recovers disk log view)
    (hfull : disk.fileHandle.bytes.length / pageSize = view.header.pageCount.toNat)
    (hheader : disk.page 0 = view.header.image)
    (hpage : ∀ pageId data, view.page pageId = some data → disk.page pageId.toNat = data) :
    Recovers disk [] view := by
  refine ⟨h.wellFormed, h.holds, h.stored, h.pages_le, hheader, fun pageId => ?_⟩
  rw [recoveredPage, show replay [] pageId = none from rfl, Option.none_or, hfull]
  by_cases hin : pageId ≠ headerPageId ∧ pageId.toNat < view.header.pageCount.toNat
  · obtain ⟨data, hdata⟩ := (h.wellFormed.page_iff pageId).mpr hin
    rw [if_neg hin.1, if_pos hin.2, hpage pageId data hdata, hdata]
  · have hnone : view.page pageId = none := by
      rcases hdata : view.page pageId with _ | data
      · rfl
      · exact absurd ((h.wellFormed.page_iff pageId).mp ⟨data, hdata⟩) hin
    rw [hnone]
    by_cases hne : pageId = headerPageId
    · rw [if_pos hne]
    · rw [if_neg hne, if_neg fun hlt => hin ⟨hne, hlt⟩]

end Steps

namespace Pager

variable {pager p : Pager} {live : List PagePin} {log : List LogTransaction}

/-- The pager with a larger or rewritten file that has the same committed
pages. -/
theorem Inv.withFile (h : pager.Inv live) {disk : DiskManager} {pages : Nat}
    (hholds : disk.Holds pages) (hge : pager.filePages ≤ pages)
    (hle : pages ≤ pager.committedHeader.pageCount.toNat)
    (hpage : ∀ pageId, (pager.withDisk disk).committedPage pageId = pager.committedPage pageId) :
    (pager.withDisk disk).Inv live ∧ (pager.withDisk disk).abs = pager.abs := by
  have hcommitted : (pager.withDisk disk).committedPage = pager.committedPage := funext hpage
  have hpages : (pager.withDisk disk).filePages = pages := DiskManager.Holds.pages_eq hholds
  refine ⟨⟨h.isOpen, ⟨?_, ?_, fun pageId hne hlt => ?_, h.file.recovered⟩,
    ⟨h.transaction.dbHeader, h.transaction.committedHeader, h.transaction.databaseId,
      h.transaction.pageCount, h.transaction.inactive, h.transaction.dirtyNodup,
      h.transaction.newNodup, h.transaction.dirty_iff, h.transaction.new_iff, ?_,
      h.transaction.headerClean⟩,
    ⟨h.pool.inv, ?_, h.pool.held, h.pool.frameDirty, h.pool.pinDirty⟩⟩, ?_⟩
  · rw [hpages]
    exact hholds
  · rw [hpages]
    exact hle
  · rw [hpages]
    exact (h.file.stored pageId hne hlt).imp_right fun hlt => hlt.trans_le hge
  · rw [hcommitted]
    exact h.transaction.original
  · rw [hcommitted]
    exact h.pool.cached
  · have hactive : (pager.withDisk disk).activePage = pager.activePage := by
      funext pageId
      rw [activePage, hcommitted]
      rfl
    rw [abs, abs, hactive, hcommitted]
    rfl

/-- A checkpoint under way: the file has changed, and file and log still hold
the committed pages. -/
structure Flushing (pager : Pager) (live : List PagePin) (log : List LogTransaction)
    (p : Pager) : Prop where
  same : p = pager.withDisk p.diskManager
  handle : FileHandle.SameHandle pager.diskManager.fileHandle p.diskManager.fileHandle
  inv : p.Inv live
  abs : p.abs = pager.abs
  recovers : Recovers p.diskManager log pager.abs.committed

theorem Flushing.committedHeader (h : Flushing pager live log p) :
    p.committedHeader = pager.committedHeader := by
  rw [h.same]
  rfl

theorem Flushing.recoveredPages (h : Flushing pager live log p) :
    p.recoveredPages = pager.recoveredPages := by
  rw [h.same]
  rfl

/-- A write that keeps the committed pages. -/
theorem Flushing.write (h : Flushing pager live log p) {i : Nat} {data : PageData}
    {disk : DiskManager} (hwritten : DiskManager.BlockWritten p.diskManager disk i data)
    (hi : ∀ pageId, pageId ≠ headerPageId → pageId.toNat = i → pageId ∈ pager.recoveredPages)
    (hrecovers : Recovers disk log pager.abs.committed) :
    Flushing pager live log (p.withDisk disk) := by
  have hholds : disk.Holds p.filePages := hwritten.sameFile.holds h.inv.file.holds
  have hpage (pageId : PageId) :
      (p.withDisk disk).committedPage pageId = p.committedPage pageId := by
    have hfilePages : (p.withDisk disk).filePages = p.filePages := DiskManager.Holds.pages_eq hholds
    unfold committedPage
    split
    · rfl
    rename_i hne
    rw [show (p.withDisk disk).recoveredPages = p.recoveredPages from rfl]
    rcases hlookup : p.recoveredPages.lookup pageId with _ | page
    · have hother : pageId.toNat ≠ i := fun heq => by
        have hmem := hi pageId hne heq
        rw [← h.recoveredPages, ← AList.lookup_isSome, hlookup] at hmem
        cases hmem
      rw [hfilePages, show (p.withDisk disk).diskManager = disk from rfl,
        hwritten.other _ hother]
    · rfl
  obtain ⟨hinv, habs⟩ := h.inv.withFile hholds le_rfl h.inv.file.filePages_le hpage
  refine ⟨?_, h.handle.trans hwritten.sameFile.handle, hinv, habs.trans h.abs, hrecovers⟩
  rw [h.same]
  rfl

/-- What a checkpoint leaves, whether it ends or stops half way: the same pages
in the pager, and file and log that hold the committed ones. -/
structure Checkpointed (pager : Pager) (live : List PagePin) (log log' : List LogTransaction)
    (p : Pager) : Prop where
  inv : p.Inv live
  pins : SamePins live pager p
  abs : p.abs = pager.abs
  logs : p.walManager.Logs log'
  log : log' = log ∨ log' = []
  recovers : Recovers p.diskManager log' pager.abs.committed
  disk : FileHandle.SameHandle pager.diskManager.fileHandle p.diskManager.fileHandle
  wal : WalManager.SameManager pager.walManager p.walManager

theorem Flushing.checkpointed (h : Flushing pager live log p)
    (hlogs : pager.walManager.Logs log) : Checkpointed pager live log log p := by
  have hwal : p.walManager = pager.walManager := by
    rw [h.same]
    rfl
  refine ⟨h.inv, fun pin _ => ?_, h.abs, hwal ▸ hlogs, .inl rfl, h.recovers, h.handle,
    hwal ▸ .refl _⟩
  rw [h.same]
  rfl

section Checkpoint

variable (order : IterationOrder PageId)

/-- The resize at the start of a checkpoint. -/
theorem flushResize_yields (h : pager.Inv live)
    (hrecovers : Recovers pager.diskManager log pager.abs.committed) :
    (onDisk (DiskManager.resizeToPageCount pager.committedHeader.pageCount)).Yields pager
      fun r p => Flushing pager live log p ∧
        (r = .ok () ∧ p.filePages = pager.committedHeader.pageCount.toNat ∨
          (∃ e, r = .error e) ∧ (pager.diskManager.fileHandle.faults ≠ [] ∨
            pager.committedHeader.pageCount.toNat * pageSize > FileHandle.maxFileSize)) := by
  refine Proc.yields_zoom ((DiskManager.resizeToPageCount_yields h.file.holds
    h.file.filePages_le).mono ?_)
  rintro r disk ⟨pages', hresized, hpages', hr⟩
  have hle : pages' ≤ pager.committedHeader.pageCount.toNat := by
    obtain ⟨-, rfl⟩ | rfl := hpages'
    · exact h.file.filePages_le
    · exact le_rfl
  have hfilePages : (pager.withDisk disk).filePages = pages' := hresized.holds.pages_eq
  have hpage (pageId : PageId) :
      (pager.withDisk disk).committedPage pageId = pager.committedPage pageId := by
    unfold committedPage
    split
    · rfl
    rename_i hne
    rw [show (pager.withDisk disk).recoveredPages = pager.recoveredPages from rfl]
    rcases hlookup : pager.recoveredPages.lookup pageId with _ | page
    · simp only
      rw [hfilePages]
      by_cases hlt : pageId.toNat < pager.filePages
      · rw [if_pos hlt, if_pos (hlt.trans_le hresized.le)]
        exact congrArg some (hresized.page _ hlt)
      · rw [if_neg hlt, if_neg fun hlt' => ?_]
        obtain hmem | hlt'' := h.file.stored pageId hne (Nat.lt_of_lt_of_le hlt' hle)
        · rw [← AList.lookup_isSome, hlookup] at hmem
          cases hmem
        · exact hlt hlt''
    · rfl
  obtain ⟨hinv, habs⟩ := h.withFile hresized.holds hresized.le hle hpage
  refine ⟨⟨rfl, hresized.handle, hinv, habs, hrecovers.resize hresized hle⟩, ?_⟩
  obtain ⟨rfl, rfl⟩ | hr := hr
  · exact .inl ⟨rfl, hfilePages⟩
  · exact .inr hr

/-- A database that is too large for a file is left alone. -/
theorem resize_tooLarge (h : pager.Inv live)
    (hlarge : pager.committedHeader.pageCount.toNat * pageSize > FileHandle.maxFileSize) :
    (onDisk (DiskManager.resizeToPageCount pager.committedHeader.pageCount)).Yields pager
      fun r p => (∃ e, r = .error e) ∧
        ∃ disk, DiskManager.SameBytes pager.diskManager disk ∧ p = pager.withDisk disk := by
  refine Proc.yields_zoom ((DiskManager.resizeToPageCount_yields h.file.holds
    h.file.filePages_le).mono ?_)
  rintro r disk ⟨pages', hresized, hpages', hr⟩
  have hne : pages' ≠ pager.committedHeader.pageCount.toNat := by
    rintro rfl
    exact absurd hresized.holds.size (Nat.not_le_of_gt hlarge)
  obtain ⟨hsame, -⟩ | heq := hpages'
  · refine ⟨?_, disk, hsame, rfl⟩
    obtain ⟨-, heq⟩ | ⟨he, -⟩ := hr
    · exact absurd heq hne
    · exact he
  · exact absurd heq hne

/-- Once the overlay is empty, all committed pages are in the file. -/
theorem Inv.fits (h : pager.Inv live) (hempty : pager.recoveredPages = ∅) :
    pager.committedHeader.pageCount.toNat * pageSize ≤ FileHandle.maxFileSize := by
  have hpos := h.file.holds.pos
  have hcount := pager.committedHeader.pageCount.toNat_lt
  refine le_trans (Nat.mul_le_mul_right pageSize (Nat.le_of_not_lt fun hlt => ?_)) h.file.holds.size
  have hid : (UInt64.ofNat pager.filePages).toNat = pager.filePages := by
    rw [UInt64.toNat_ofNat', Nat.mod_eq_of_lt (by omega)]
  have hne : UInt64.ofNat pager.filePages ≠ headerPageId := fun heq => by
    rw [heq, headerPageId_toNat] at hid
    omega
  obtain hmem | hstored := h.file.stored _ hne (by rw [hid]; exact hlt)
  · rw [hempty] at hmem
    exact AList.notMem_empty _ hmem
  · rw [hid] at hstored
    exact lt_irrefl _ hstored

/-- The loop over the pages of the overlay. -/
theorem flushPages_yields (h : Flushing pager live log p) (hpager : pager.Inv live)
    (hfull : p.filePages = pager.committedHeader.pageCount.toNat)
    (hatomic : pager.diskManager.fileHandle.AtomicWrites) :
    (Proc.forEach (fun entry : PageId × Page => onDisk (DiskManager.writePage entry.2))
      (order.visitEntries pager.recoveredPages)).Yields p fun r p' =>
      Flushing pager live log p' ∧ p'.filePages = pager.committedHeader.pageCount.toNat ∧
        (r = .ok () ∧ (∀ pageId page, pager.recoveredPages.lookup pageId = some page →
            p'.diskManager.page pageId.toNat = page.data) ∨
          (∃ e, r = .error e) ∧ pager.diskManager.fileHandle.faults ≠ []) := by
  refine Proc.yields_forEach (fun rest p' => Flushing pager live log p' ∧
    p'.filePages = pager.committedHeader.pageCount.toNat ∧
    (∀ entry ∈ rest, pager.recoveredPages.lookup entry.1 = some entry.2) ∧
    ∀ pageId page, pager.recoveredPages.lookup pageId = some page → (pageId, page) ∉ rest →
      p'.diskManager.page pageId.toNat = page.data) ⟨h, hfull, ?_, ?_⟩ ?_ ?_
  · exact fun entry hentry => order.mem_visitEntries.mp hentry
  · exact fun pageId page hlookup hnot => absurd (order.mem_visitEntries.mpr hlookup) hnot
  · rintro ⟨pageId, page⟩ rest p' ⟨hflushing, hpages, hentries, hdone⟩
    have hlookup := hentries _ (List.mem_cons_self ..)
    obtain ⟨rfl, hne, hlt⟩ := hpager.file.recovered pageId page hlookup
    have hvalid : page.id.isValid = true := by
      simpa [PageId.isValid] using valid_of_lt hlt
    have hview : pager.abs.committed.page page.id = some page.data := by
      show pager.committedPage page.id = some page.data
      rw [committedPage, if_neg hne, hlookup]
    have hatomic' := hflushing.handle.atomicWrites hatomic
    refine Proc.yields_zoom ((DiskManager.writePage_yields hflushing.inv.file.holds hvalid hne
      (by rw [hpages]; exact hlt)).mono ?_)
    rintro r disk ⟨hwritten, hr⟩
    have hflushing' := hflushing.write hwritten (fun q _ hq => by
      rw [UInt64.toNat.inj hq]
      exact AList.lookup_isSome.mp (by rw [hlookup]; rfl))
      (hflushing.recovers.writePage hne hview hwritten hatomic')
    have hpages' : (p'.withDisk disk).filePages = pager.committedHeader.pageCount.toNat := by
      rw [← hpages]
      exact congrArg (· / pageSize) hwritten.sameFile.length
    obtain ⟨rfl, hpage⟩ | ⟨⟨e, rfl⟩, hfaults⟩ := hr
    · refine ⟨hflushing', hpages', fun entry hentry => hentries entry
        (List.mem_cons_of_mem _ hentry), fun q image hq hnot => ?_⟩
      show disk.page q.toNat = image.data
      by_cases heq : q = page.id
      · subst heq
        rw [hlookup] at hq
        cases hq
        exact hpage
      · rw [hwritten.other _ fun h' => heq (UInt64.toNat.inj h')]
        refine hdone q image hq fun hmem => ?_
        obtain h' | hmem := List.mem_cons.mp hmem
        · exact heq (congrArg Prod.fst h')
        · exact hnot hmem
    · refine ⟨hflushing', hpages', .inr ⟨⟨e, rfl⟩, fun hnil => hfaults ?_⟩⟩
      exact hflushing.handle.faults_nil hnil
  · rintro p' ⟨hflushing, hpages, -, hdone⟩
    exact ⟨hflushing, hpages, .inl ⟨rfl, fun pageId page hlookup =>
      hdone pageId page hlookup List.not_mem_nil⟩⟩

/-- The file has every committed page. -/
structure Flushed (pager : Pager) (live : List PagePin) (log : List LogTransaction)
    (p : Pager) : Prop where
  flushing : Flushing pager live log p
  full : p.filePages = pager.committedHeader.pageCount.toNat
  header : p.diskManager.page 0 = pager.committedHeader.image
  pages : ∀ pageId page, pager.recoveredPages.lookup pageId = some page →
    p.diskManager.page pageId.toNat = page.data

theorem Flushed.page (h : Flushed pager live log p) {pageId : PageId} {data : PageData}
    (hdata : pager.abs.committed.page pageId = some data) :
    p.diskManager.page pageId.toNat = data := by
  have hsame : p.committedPage = pager.committedPage :=
    congrArg (fun flat : FlatPager => flat.committed.page) h.flushing.abs
  replace hdata : p.committedPage pageId = some data := by rw [hsame]; exact hdata
  unfold committedPage at hdata
  split at hdata
  · cases hdata
  rcases hlookup : p.recoveredPages.lookup pageId with _ | page
  · rw [hlookup] at hdata
    simp only at hdata
    split at hdata
    · exact Option.some.inj hdata
    · cases hdata
  · rw [hlookup] at hdata
    rw [h.flushing.recoveredPages] at hlookup
    rw [h.pages pageId page hlookup]
    exact Option.some.inj hdata

theorem Flushed.emptyLog (h : Flushed pager live log p) :
    Recovers p.diskManager [] pager.abs.committed :=
  h.flushing.recovers.emptyLog h.full h.header fun _ _ hdata => h.page hdata

/-- The last step of a checkpoint: the overlay is not needed any more. -/
theorem Flushed.clear (h : Flushed pager live log p) (wal : WalManager) :
    ({ p.withWal wal with recoveredPages := ∅ } : Pager).Inv live ∧
      ({ p.withWal wal with recoveredPages := ∅ } : Pager).abs = pager.abs := by
  have hinv := h.flushing.inv
  have hheader := h.flushing.committedHeader
  set p' : Pager := { p.withWal wal with recoveredPages := ∅ }
  have hfilePages : p'.filePages = pager.committedHeader.pageCount.toNat := h.full
  have hsame : p.committedPage = pager.committedPage :=
    congrArg (fun flat : FlatPager => flat.committed.page) h.flushing.abs
  have hcommitted : p'.committedPage = p.committedPage := by
    funext pageId
    by_cases hin : pageId ≠ headerPageId ∧ pageId.toNat < p.committedHeader.pageCount.toNat
    · obtain ⟨data, hdata⟩ := (committedPage_isSome hinv.file pageId).mpr hin
      rw [hdata, committedPage, if_neg hin.1]
      show (if pageId.toNat < p'.filePages then _ else _) = _
      rw [if_pos (by rw [hfilePages, ← hheader]; exact hin.2)]
      rw [hsame] at hdata
      exact congrArg some (h.page hdata)
    · have hnone : p.committedPage pageId = none := by
        rcases hdata : p.committedPage pageId with _ | data
        · rfl
        · exact absurd ((committedPage_isSome hinv.file pageId).mp ⟨data, hdata⟩) hin
      rw [hnone, committedPage]
      split
      · rfl
      · rename_i hne
        show (if pageId.toNat < p'.filePages then _ else _) = _
        rw [if_neg fun hlt => hin ⟨hne, by rw [hheader, ← hfilePages]; exact hlt⟩]
  refine ⟨⟨hinv.isOpen, ⟨hinv.file.holds, hinv.file.filePages_le, fun pageId _ hlt => .inr ?_,
      fun pageId page hlookup => by cases hlookup⟩,
    ⟨hinv.transaction.dbHeader, hinv.transaction.committedHeader, hinv.transaction.databaseId,
      hinv.transaction.pageCount, hinv.transaction.inactive, hinv.transaction.dirtyNodup,
      hinv.transaction.newNodup, hinv.transaction.dirty_iff, hinv.transaction.new_iff, ?_,
      hinv.transaction.headerClean⟩,
    ⟨hinv.pool.inv, ?_, hinv.pool.held, hinv.pool.frameDirty, hinv.pool.pinDirty⟩⟩, ?_⟩
  · rw [hfilePages, ← hheader]
    exact hlt
  · rw [hcommitted]
    exact hinv.transaction.original
  · rw [hcommitted]
    exact hinv.pool.cached
  · rw [← h.flushing.abs]
    have hactive : p'.activePage = p.activePage := by
      funext pageId
      rw [activePage, hcommitted]
      rfl
    rw [abs, abs, hactive, hcommitted]
    rfl

/-- The header is written once the file has all pages. -/
theorem flushHeader_yields (h : Flushing pager live log p) (hpager : pager.Inv live)
    (hfull : p.filePages = pager.committedHeader.pageCount.toNat)
    (hpages : ∀ pageId page, pager.recoveredPages.lookup pageId = some page →
      p.diskManager.page pageId.toNat = page.data)
    (hatomic : pager.diskManager.fileHandle.AtomicWrites) :
    (onDisk (DiskManager.writeHeader pager.committedHeader)).Yields p fun r p' =>
      Flushing pager live log p' ∧ (r = .ok () ∧ Flushed pager live log p' ∨
        (∃ e, r = .error e) ∧ pager.diskManager.fileHandle.faults ≠ []) := by
  have hnotHeader (pageId : PageId) (hne : pageId ≠ headerPageId) (hzero : pageId.toNat = 0) :
      pageId ∈ pager.recoveredPages := absurd hzero (toNat_ne_zero hne)
  refine Proc.yields_zoom ((DiskManager.writeHeader_yields h.inv.file.holds
    hpager.transaction.committedHeader).mono ?_)
  rintro r disk ⟨hwritten, hr⟩
  have hrecovers := h.recovers.writeHeader hfull hwritten (h.handle.atomicWrites hatomic)
  have hflushing := h.write hwritten hnotHeader hrecovers
  obtain ⟨rfl, hpage⟩ | ⟨⟨e, rfl⟩, hfaults⟩ := hr
  · refine ⟨hflushing, .inl ⟨rfl, hflushing, ?_, hpage, fun pageId page hlookup => ?_⟩⟩
    · rw [← hfull]
      exact congrArg (· / pageSize) hwritten.sameFile.length
    · have hne := (hpager.file.recovered pageId page hlookup).2.1
      exact (hwritten.other _ (toNat_ne_zero hne)).trans (hpages pageId page hlookup)
  · exact ⟨hflushing, .inr ⟨⟨e, rfl⟩, fun hnil => hfaults (h.handle.faults_nil hnil)⟩⟩

theorem flushSync_yields (h : Flushed pager live log p) :
    (onDisk DiskManager.sync).Yields p fun r p' =>
      Flushed pager live log p' ∧
        (r = .ok () ∨ (∃ e, r = .error e) ∧ pager.diskManager.fileHandle.faults ≠ []) := by
  refine Proc.yields_zoom ((DiskManager.sync_yields h.flushing.inv.file.holds).mono ?_)
  rintro r disk ⟨hsame, hr⟩
  refine ⟨⟨⟨?_, h.flushing.handle.trans hsame.handle, h.flushing.inv.withDisk hsame,
    (abs_withDisk hsame).trans h.flushing.abs, h.flushing.recovers.of_sameBytes hsame⟩, ?_,
    (hsame.page 0).trans h.header, fun pageId page hlookup =>
      (hsame.page _).trans (h.pages pageId page hlookup)⟩, ?_⟩
  · rw [h.flushing.same]
    rfl
  · rw [← h.full]
    exact congrArg (fun bytes : List Byte => bytes.length / pageSize) hsame.bytes
  · exact hr.imp_right fun ⟨he, hfaults⟩ =>
      ⟨he, fun hnil => hfaults (h.flushing.handle.faults_nil hnil)⟩

/-- The log is emptied once the file has everything. -/
theorem emptyLog_yields (h : Flushed pager live log p) (hlogs : pager.walManager.Logs log) :
    (do
      onWal WalManager.reset
      Proc.modify fun pager => { pager with recoveredPages := ∅ } :
        Proc Status Pager Unit).Yields p fun r p' =>
      (r = .ok () ∧ Checkpointed pager live log [] p' ∧ p'.recoveredPages = ∅) ∨
        (∃ e, r = .error e) ∧ pager.walManager.fileHandle.faults ≠ [] ∧
          ∃ log', Checkpointed pager live log log' p' := by
  have hsame : p.walManager = pager.walManager := by
    rw [h.flushing.same]
    rfl
  have hpins {q : Pager} (hbpm : q.bpm = p.bpm) : SamePins live pager q := fun pin _ => by
    rw [pinId, hbpm, h.flushing.same]
    rfl
  have hreset : (onWal WalManager.reset).Yields p fun r p' =>
      ∃ wal, p' = p.withWal wal ∧ WalManager.SameManager pager.walManager wal ∧
        (r = .ok () ∧ wal.Logs [] ∨ (∃ e, r = .error e) ∧
          pager.walManager.fileHandle.faults ≠ [] ∧ (wal.Logs log ∨ wal.Logs [])) := by
    refine Proc.yields_zoom ?_
    rw [hsame]
    exact (WalManager.reset_yields hlogs).mono fun r wal hr => ⟨wal, rfl, hr⟩
  have hstopped {wal : WalManager} {log' : List LogTransaction}
      (hwal : WalManager.SameManager pager.walManager wal) (hlogs' : wal.Logs log')
      (hlog : log' = log ∨ log' = []) : Checkpointed pager live log log' (p.withWal wal) := by
    refine ⟨h.flushing.inv.withWal wal, hpins rfl, h.flushing.abs, hlogs', hlog, ?_,
      h.flushing.handle, hwal⟩
    obtain rfl | rfl := hlog
    · exact h.flushing.recovers
    · exact h.emptyLog
  refine hreset.bind (fun _ p' hmid => ?_) fun e p' hmid => ?_
  · obtain ⟨wal, rfl, hwal, ⟨-, hlogs'⟩ | ⟨⟨_, hr⟩, -⟩⟩ := hmid
    · obtain ⟨hinv, habs⟩ := h.clear wal
      exact Proc.yields_modify (.inl ⟨rfl, ⟨hinv, hpins rfl, habs, hlogs', .inr rfl, h.emptyLog,
        h.flushing.handle, hwal⟩, rfl⟩)
    · cases hr
  · obtain ⟨wal, rfl, hwal, ⟨hr, -⟩ | ⟨-, hfaults, hlogs'⟩⟩ := hmid
    · cases hr
    refine .inr ⟨⟨e, rfl⟩, hfaults, ?_⟩
    obtain hlogs' | hlogs' := hlogs'
    · exact ⟨log, hstopped hwal hlogs' (.inl rfl)⟩
    · exact ⟨[], hstopped hwal hlogs' (.inr rfl)⟩

/-- The ways a checkpoint can fail: a file reports an error, or no file can be
as large as the database. -/
def CheckpointFails (pager : Pager) : Prop :=
  pager.diskManager.fileHandle.faults ≠ [] ∨ pager.walManager.fileHandle.faults ≠ [] ∨
    pager.committedHeader.pageCount.toNat * pageSize > FileHandle.maxFileSize

/-- A checkpoint of a database that is too large for a file does nothing. -/
theorem checkpoint_tooLarge (h : pager.Inv live)
    (husable : pager.transactionState.status ≠ .unresolved)
    (hlarge : pager.committedHeader.pageCount.toNat * pageSize > FileHandle.maxFileSize) :
    (checkpoint order).Yields pager fun r p => (∃ e, r = .error e) ∧
      ∃ disk, DiskManager.SameBytes pager.diskManager disk ∧ p = pager.withDisk disk := by
  refine Proc.yields_get_bind (Proc.yields_failIf_bind
    (fun hun => absurd (TransactionState.isUnresolved_eq_true.mp hun) husable) fun _ => ?_)
  refine (resize_tooLarge h hlarge).bind (fun _ p hmid => ?_) fun e p hmid => ⟨⟨e, rfl⟩, hmid.2⟩
  obtain ⟨⟨_, hr⟩, -⟩ := hmid
  cases hr

theorem checkpoint_yields (h : pager.Inv live)
    (husable : pager.transactionState.status ≠ .unresolved)
    (hlogs : pager.walManager.Logs log)
    (hrecovers : Recovers pager.diskManager log pager.abs.committed)
    (hatomic : pager.diskManager.fileHandle.AtomicWrites) :
    (checkpoint order).Yields pager fun r p =>
      (r = .ok () ∧ Checkpointed pager live log [] p ∧ p.recoveredPages = ∅) ∨
        (∃ e, r = .error e) ∧ pager.CheckpointFails ∧
          ∃ log', Checkpointed pager live log log' p := by
  refine Proc.yields_get_bind (Proc.yields_failIf_bind
    (fun hun => absurd (TransactionState.isUnresolved_eq_true.mp hun) husable) fun _ => ?_)
  refine (flushResize_yields h hrecovers).bind (fun _ p hmid => ?_) fun e p hmid => ?_
  swap
  · obtain ⟨hflushing, ⟨hr, -⟩ | ⟨-, hwhy⟩⟩ := hmid
    · cases hr
    · exact .inr ⟨⟨e, rfl⟩, hwhy.imp_right .inr, log, hflushing.checkpointed hlogs⟩
  obtain ⟨hflushing, ⟨-, hfull⟩ | ⟨⟨_, hr⟩, -⟩⟩ := hmid
  swap
  · cases hr
  refine (flushPages_yields order hflushing h hfull hatomic).bind (fun _ p hmid => ?_)
    fun e p hmid => ?_
  swap
  · obtain ⟨hflushing, -, ⟨hr, -⟩ | ⟨-, hfaults⟩⟩ := hmid
    · cases hr
    · exact .inr ⟨⟨e, rfl⟩, .inl hfaults, log, hflushing.checkpointed hlogs⟩
  obtain ⟨hflushing, hfull, ⟨-, hpages⟩ | ⟨⟨_, hr⟩, -⟩⟩ := hmid
  swap
  · cases hr
  refine (flushHeader_yields hflushing h hfull hpages hatomic).bind (fun _ p hmid => ?_)
    fun e p hmid => ?_
  swap
  · obtain ⟨hflushing, ⟨hr, -⟩ | ⟨-, hfaults⟩⟩ := hmid
    · cases hr
    · exact .inr ⟨⟨e, rfl⟩, .inl hfaults, log, hflushing.checkpointed hlogs⟩
  obtain ⟨-, ⟨-, hflushed⟩ | ⟨⟨_, hr⟩, -⟩⟩ := hmid
  swap
  · cases hr
  refine (flushSync_yields hflushed).bind (fun _ p hmid => ?_) fun e p hmid => ?_
  swap
  · obtain ⟨hflushed, hr | ⟨-, hfaults⟩⟩ := hmid
    · cases hr
    · exact .inr ⟨⟨e, rfl⟩, .inl hfaults, log, hflushed.flushing.checkpointed hlogs⟩
  refine (emptyLog_yields hmid.1 hlogs).mono fun r p hr => ?_
  exact hr.imp_right fun ⟨he, hfaults, hlog'⟩ => ⟨he, .inr (.inl hfaults), hlog'⟩

/-- An unresolved transaction stops a checkpoint. -/
theorem checkpoint_unresolved (hun : pager.transactionState.status = .unresolved) :
    ∃ e, (checkpoint order).run pager = (.error e, pager) ∧
      FlatPager.checkpoint.run pager.abs = (.error e, pager.abs) := by
  have hstatus : pager.abs.status = .unresolved := hun
  rw [checkpoint, FlatPager.checkpoint, Proc.get_bind_run, Proc.get_bind_run,
    Proc.bind_run_error (Proc.failIf_run_of pager (by simp [hun]) _),
    Proc.failIf_run_of pager.abs hstatus]
  exact ⟨_, rfl, rfl⟩

end Checkpoint

end Pager

end DanDB.Storage
