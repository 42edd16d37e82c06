import DanDB.Storage.PagerInvariant

/-!
# Getting, changing and adding pages

Each operation does to the pager what its namesake does to the flat array of
pages, or fails because the pool is exhausted or a file does, and then the
array is as it was.
-/

namespace DanDB.Storage

open DanDB.Core Platform Wal BufferPool

namespace Pager

/-- The failures the flat array does not have: the pool has no frame for a
page, or a file reports an error. -/
def Fails (pager : Pager) (status : Status) : Prop :=
  status = BufferPoolManager.exhaustedStatus ∧ pager.bpm.Exhausted ∨ pager.diskManager.fileHandle.faults ≠ [] ∨
    pager.walManager.fileHandle.faults ≠ []

/-- The same committed pages in the same places. -/
structure SameStore (pager pager' : Pager) : Prop where
  disk : DiskManager.SameBytes pager.diskManager pager'.diskManager
  wal : pager'.walManager = pager.walManager
  recovered : pager'.recoveredPages = pager.recoveredPages
  committedHeader : pager'.committedHeader = pager.committedHeader

/-- Each pin is on the page it was on. -/
def SamePins (live : List PagePin) (pager pager' : Pager) : Prop :=
  ∀ pin ∈ live, pager'.pinId pin = pager.pinId pin

section Relations

variable {pager pager' pager'' : Pager} {live : List PagePin}

theorem SameStore.refl (pager : Pager) : SameStore pager pager := ⟨.refl _, rfl, rfl, rfl⟩

theorem SameStore.trans (h : SameStore pager pager') (h' : SameStore pager' pager'') :
    SameStore pager pager'' :=
  ⟨h.disk.trans h'.disk, h'.wal.trans h.wal, h'.recovered.trans h.recovered,
    h'.committedHeader.trans h.committedHeader⟩

theorem SameStore.withPool (pager : Pager) (bpm : BufferPoolManager) :
    SameStore pager (pager.withPool bpm) := ⟨.refl _, rfl, rfl, rfl⟩

theorem SameStore.filePages (h : SameStore pager pager') :
    pager'.filePages = pager.filePages := by
  rw [Pager.filePages, h.disk.bytes, Pager.filePages]

theorem SameStore.committedPage (h : SameStore pager pager') :
    pager'.committedPage = pager.committedPage := by
  funext pageId
  unfold Pager.committedPage
  rw [h.recovered, h.filePages, h.disk.page]

theorem SamePins.refl (live : List PagePin) (pager : Pager) : SamePins live pager pager :=
  fun _ _ => rfl

theorem SamePins.trans (h : SamePins live pager pager') (h' : SamePins live pager' pager'') :
    SamePins live pager pager'' :=
  fun pin hpin => (h' pin hpin).trans (h pin hpin)

theorem SamePins.of_effect {bpm : BufferPoolManager} {pinned' : List FrameId}
    {content' : PageId → Option PageData} {dirty' : PageId → Bool}
    (h : BufferPoolManager.Effect pager.bpm bpm (live.map PagePin.frameId) pinned' content' dirty') :
    SamePins live pager (pager.withPool bpm) :=
  fun _ hpin => h.pins _ (List.mem_map_of_mem hpin)

/-- The file and the overlay stay as they are. -/
theorem FileInv.of_sameStore (h : pager.FileInv) (hsame : SameStore pager pager') :
    pager'.FileInv where
  holds := by
    rw [hsame.filePages]
    exact hsame.disk.sameFile.holds h.holds
  filePages_le := by
    rw [hsame.filePages, hsame.committedHeader]
    exact h.filePages_le
  stored pageId hne hlt := by
    rw [hsame.committedHeader] at hlt
    rw [hsame.recovered, hsame.filePages]
    exact h.stored pageId hne hlt
  recovered pageId page hlookup := by
    rw [hsame.recovered] at hlookup
    rw [hsame.committedHeader]
    exact h.recovered pageId page hlookup

/-- The transaction and the header stay as they are too. -/
theorem TransactionInv.of_sameStore (h : pager.TransactionInv) (hsame : SameStore pager pager')
    (hdb : pager'.dbHeader = pager.dbHeader)
    (hstate : pager'.transactionState = pager.transactionState) : pager'.TransactionInv := by
  have hcommitted := hsame.committedHeader
  refine ⟨?_, ?_, ?_, ?_, ?_, ?_, ?_, ?_, ?_, ?_, ?_⟩ <;>
    simp only [hdb, hstate, hcommitted, hsame.committedPage]
  exacts [h.dbHeader, h.committedHeader, h.databaseId, h.pageCount, h.inactive, h.dirtyNodup,
    h.newNodup, h.dirty_iff, h.new_iff, h.original, h.headerClean]

end Relations

section Get

variable {pager : Pager} {live : List PagePin}

/-- The pager after a read of its file. -/
def withDisk (pager : Pager) (disk : DiskManager) : Pager := { pager with diskManager := disk }

theorem SameStore.withDisk {disk : DiskManager}
    (h : DiskManager.SameBytes pager.diskManager disk) :
    SameStore pager (pager.withDisk disk) := ⟨h, rfl, rfl, rfl⟩

theorem Inv.withDisk (h : pager.Inv live) {disk : DiskManager}
    (hdisk : DiskManager.SameBytes pager.diskManager disk) : (pager.withDisk disk).Inv live := by
  have hsame := SameStore.withDisk hdisk
  refine ⟨h.isOpen, h.file.of_sameStore hsame, h.transaction.of_sameStore hsame rfl rfl,
    h.pool.inv, fun pageId data hdata => ?_, h.pool.held, h.pool.frameDirty, h.pool.pinDirty⟩
  rw [hsame.committedPage]
  exact h.pool.cached pageId data hdata

theorem abs_withDisk {disk : DiskManager}
    (hdisk : DiskManager.SameBytes pager.diskManager disk) :
    (pager.withDisk disk).abs = pager.abs := by
  have hcommitted := (SameStore.withDisk hdisk).committedPage
  have hactive : (pager.withDisk disk).activePage = pager.activePage := by
    funext pageId
    rw [activePage, hcommitted]
    rfl
  rw [abs, abs, hactive, hcommitted]
  rfl

/-- A page of the transaction is dirty or pinned, so it is not evicted. -/
theorem Inv.activePage_kept (h : pager.Inv live) {content' : PageId → Option PageData}
    (hkept : BufferPoolManager.Kept pager.bpm (live.map PagePin.frameId) content')
    (pageId : PageId) :
    (content' pageId).or (pager.committedPage pageId) = pager.activePage pageId := by
  obtain rfl | ⟨evicted, rfl, hdirty, hpinned⟩ := hkept
  · rfl
  by_cases heq : pageId = evicted
  swap
  · rw [Function.update_of_ne heq, activePage]
  subst heq
  rw [Function.update_self, activePage]
  rcases hdata : pager.bpm.content pageId with _ | data
  · rfl
  obtain ⟨hne, hmem | hcommitted⟩ := h.pool.cached pageId data hdata
  · obtain hd | ⟨q, hq, -, hid⟩ := h.pool.held pageId hmem hne
    · rw [hdirty] at hd
      cases hd
    · exact absurd hid (hpinned _ (List.mem_map_of_mem hq))
  · rw [hcommitted]
    rfl

/-- A page is put into the pool as it was committed; at most one clean page
goes. -/
theorem Inv.cache (h : pager.Inv live) (page : Page) (pin : PagePin) (hne : page.id ≠ headerPageId)
    (hcommitted : pager.committedPage page.id = some page.data) {bpm : BufferPoolManager}
    (hpin : pin.isDirty = false) (hnone : pager.bpm.pageFrames page.id = none)
    {content' : PageId → Option PageData}
    (heffect : BufferPoolManager.Effect pager.bpm bpm (live.map PagePin.frameId)
      (pin.frameId :: live.map PagePin.frameId)
      (Function.update content' page.id (some page.data)) pager.bpm.dirty)
    (hkept : BufferPoolManager.Kept pager.bpm (live.map PagePin.frameId) content') :
    (pager.withPool bpm).Inv (pin :: live) ∧ (pager.withPool bpm).abs = pager.abs := by
  have hpins := SamePins.of_effect heffect
  refine ⟨h.withPool ⟨heffect.inv, fun pageId data hdata => ?_, fun pageId hmem hne' => ?_,
    fun pageId hd => ?_, fun q hq hd => ?_⟩, abs_withPool fun pageId => ?_⟩
  · rw [show (pager.withPool bpm).bpm.content = _ from heffect.content] at hdata
    by_cases heq : pageId = page.id
    · subst heq
      rw [Function.update_self] at hdata
      cases hdata
      exact ⟨hne, .inr hcommitted⟩
    · rw [Function.update_of_ne heq] at hdata
      exact h.pool.cached pageId data (hkept.content hdata)
  · refine (h.pool.held pageId hmem hne').imp (fun hd => ?_) fun ⟨q, hq, hd, hid⟩ =>
      ⟨q, List.mem_cons_of_mem _ hq, hd, (hpins q hq).trans hid⟩
    rw [show (pager.withPool bpm).bpm.dirty = _ from heffect.dirty]
    exact hd
  · rw [show (pager.withPool bpm).bpm.dirty = _ from heffect.dirty] at hd
    exact h.pool.frameDirty pageId hd
  · obtain rfl | hq := List.mem_cons.mp hq
    · rw [hpin] at hd
      cases hd
    · rw [hpins q hq]
      exact h.pool.pinDirty q hq hd
  · rw [heffect.content]
    by_cases heq : pageId = page.id
    · subst heq
      rw [Function.update_self, activePage, BufferPoolManager.content_eq_none.mpr hnone,
        hcommitted]
      rfl
    · rw [Function.update_of_ne heq]
      exact h.activePage_kept hkept pageId

/-- A further pin on a page of the pool. -/
theorem Inv.pin (h : pager.Inv live) (pin : PagePin) (hpin : pin.isDirty = false)
    {bpm : BufferPoolManager}
    (heffect : BufferPoolManager.Effect pager.bpm bpm (live.map PagePin.frameId)
      (pin.frameId :: live.map PagePin.frameId) pager.bpm.content pager.bpm.dirty) :
    (pager.withPool bpm).Inv (pin :: live) ∧ (pager.withPool bpm).abs = pager.abs := by
  have hpins := SamePins.of_effect heffect
  refine ⟨h.withPool ⟨heffect.inv, fun pageId data hdata => ?_, fun pageId hmem hne' => ?_,
    fun pageId hd => ?_, fun q hq hd => ?_⟩, abs_withPool fun pageId => ?_⟩
  · rw [show (pager.withPool bpm).bpm.content = _ from heffect.content] at hdata
    exact h.pool.cached pageId data hdata
  · refine (h.pool.held pageId hmem hne').imp (fun hd => ?_) fun ⟨q, hq, hd, hid⟩ =>
      ⟨q, List.mem_cons_of_mem _ hq, hd, (hpins q hq).trans hid⟩
    rw [show (pager.withPool bpm).bpm.dirty = _ from heffect.dirty]
    exact hd
  · rw [show (pager.withPool bpm).bpm.dirty = _ from heffect.dirty] at hd
    exact h.pool.frameDirty pageId hd
  · obtain rfl | hq := List.mem_cons.mp hq
    · rw [hpin] at hd
      cases hd
    · rw [hpins q hq]
      exact h.pool.pinDirty q hq hd
  · rw [heffect.content]
    rfl

/-- What every operation keeps that only reads. -/
structure ReadOnly (live : List PagePin) (pager pager' : Pager) : Prop where
  store : SameStore pager pager'
  abs : pager'.abs = pager.abs
  pins : SamePins live pager pager'

theorem ReadOnly.refl (live : List PagePin) (pager : Pager) : ReadOnly live pager pager :=
  ⟨.refl _, rfl, .refl _ _⟩

theorem ReadOnly.trans {pager' pager'' : Pager} (h : ReadOnly live pager pager')
    (h' : ReadOnly live pager' pager'') : ReadOnly live pager pager'' :=
  ⟨h.store.trans h'.store, h'.abs.trans h.abs, h.pins.trans h'.pins⟩

/-- A pin is on a page of the pool. -/
theorem Inv.content_pin (h : pager.Inv live) {pin : PagePin} (hpin : pin ∈ live) :
    pager.bpm.content (pager.pinId pin) = some (pager.page pin).data :=
  BufferPoolManager.content_of_pageFrames
    (h.pool.inv.pageFrames_pageId (List.mem_map_of_mem hpin))

/-- A handle shows the page as the transaction sees it. -/
theorem Inv.activePage_pin (h : pager.Inv live) {pin : PagePin} (hpin : pin ∈ live) :
    pager.activePage (pager.pinId pin) = some (pager.page pin).data := by
  rw [activePage, h.content_pin hpin]
  rfl

theorem Inv.pinId_ne_header (h : pager.Inv live) {pin : PagePin} (hpin : pin ∈ live) :
    pager.pinId pin ≠ headerPageId :=
  (h.pool.cached _ _ (h.content_pin hpin)).1

theorem outside_of_none {pageId : PageId} (hne : pageId ≠ headerPageId)
    (hlookup : pager.recoveredPages.lookup pageId = none) (hge : pager.filePages ≤ pageId.toNat) :
    pager.committedPage pageId = none := by
  rw [committedPage, if_neg hne, hlookup]
  exact if_neg (by omega)

/-- The page as the log or the file has it. -/
theorem readCommitted_yields (h : pager.Inv live) {pageId : PageId}
    (hvalid : pageId ≠ invalidPageId) (hne : pageId ≠ headerPageId) :
    (readCommitted pageId).Yields pager fun r pager' =>
      (∃ disk, DiskManager.SameBytes pager.diskManager disk ∧ pager' = pager.withDisk disk) ∧
        ((∃ data, r = .ok ⟨pageId, data⟩ ∧ pager.committedPage pageId = some data) ∨
          pager.committedPage pageId = none ∧
            r = .error (DiskManager.outsideStatus "read" pageId) ∨
          ∃ e, r = .error e ∧ pager.diskManager.fileHandle.faults ≠ []) := by
  refine Proc.yields_get_bind ?_
  rcases hlookup : pager.recoveredPages.lookup pageId with _ | page
  · refine Proc.yields_zoom ((DiskManager.readPage_yields h.file.holds
      (by simpa [PageId.isValid] using hvalid) hne).mono ?_)
    rintro r disk ⟨hsame, hr⟩
    refine ⟨⟨disk, hsame, rfl⟩, ?_⟩
    obtain ⟨hlt, rfl⟩ | ⟨hge, rfl⟩ | ⟨⟨e, rfl⟩, hfaults⟩ := hr
    · refine .inl ⟨_, rfl, ?_⟩
      rw [committedPage, if_neg hne, hlookup]
      exact if_pos hlt
    · exact .inr (.inl ⟨outside_of_none hne hlookup hge, rfl⟩)
    · exact .inr (.inr ⟨e, rfl, hfaults⟩)
  · obtain ⟨hid, -⟩ := h.file.recovered pageId page hlookup
    refine Proc.yields_pure ⟨⟨pager.diskManager, .refl _, rfl⟩, .inl ⟨page.data, ?_, ?_⟩⟩
    · rw [← hid]
    · rw [committedPage, if_neg hne, hlookup]

/-- A committed page is read without any change, if the file answers. -/
theorem readCommitted_run (h : pager.Inv live) (hno : pager.diskManager.fileHandle.faults = [])
    {pageId : PageId} {data : PageData} (hvalid : pageId ≠ invalidPageId)
    (hpage : pager.committedPage pageId = some data) :
    (readCommitted pageId).run pager = (.ok ⟨pageId, data⟩, pager) := by
  have hne : pageId ≠ headerPageId := fun heq => by
    rw [committedPage, if_pos heq] at hpage
    cases hpage
  have hread := readCommitted_yields h hvalid hne
  unfold Proc.Yields at hread
  obtain ⟨⟨disk, hdisk, hpager⟩, ⟨data', hr, hpage'⟩ | ⟨hnone, -⟩ | ⟨_, -, hfaults⟩⟩ := hread
  · cases hpage.symm.trans hpage'
    refine Prod.ext hr (hpager.trans ?_)
    have hfaults := (hdisk.handle.faults_nil hno).trans hno.symm
    obtain ⟨⟨hpath, hopen, -⟩, hbytes⟩ := hdisk
    obtain ⟨⟨path, bytes, isOpen, faults⟩⟩ := disk
    cases hpath
    cases hopen
    cases hbytes
    cases hfaults
    rfl
  · cases hnone.symm.trans hpage
  · exact absurd hno hfaults

/-- The outcome of `get_page`. -/
def GotPage (pager : Pager) (live : List PagePin) (pageId : PageId) (pager' : Pager) :
    Except Status PagePin → Prop
  | .ok pin => pin.isDirty = false ∧ pager'.Inv (pin :: live) ∧ pager'.pinId pin = pageId
  | .error e => pager'.Inv live ∧
      ((FlatPager.getPage pageId).run pager.abs = (.error e, pager.abs) ∨ pager.Fails e)

theorem flat_getPage_none {flat : FlatPager} {pageId : PageId} (hvalid : pageId ≠ invalidPageId)
    (hne : pageId ≠ headerPageId) (hpage : flat.active.page pageId = none) :
    (FlatPager.getPage pageId).run flat =
      (.error (DiskManager.outsideStatus "read" pageId), flat) := by
  rw [FlatPager.getPage, Proc.get_bind_run,
    Proc.bind_run_ok (Proc.failIf_run_of_not _ (by simp [hvalid, hne]) _), hpage]
  rfl

theorem loadPage_yields (h : pager.Inv live) {pageId : PageId} (hvalid : pageId ≠ invalidPageId)
    (hne : pageId ≠ headerPageId) (hnone : pager.bpm.pageFrames pageId = none) :
    (loadPage pageId).Yields pager fun r pager' =>
      ReadOnly live pager pager' ∧ GotPage pager live pageId pager' r := by
  refine (readCommitted_yields h hvalid hne).bind (fun page pager₁ hmid => ?_)
    (fun e pager₁ hmid => ?_)
  · obtain ⟨⟨disk, hdisk, rfl⟩, ⟨data, hr, hcommitted⟩ | ⟨-, hr⟩ | ⟨e, hr, -⟩⟩ := hmid
    · obtain rfl : page = ⟨pageId, data⟩ := by simpa using hr
      have hread : ReadOnly live pager (pager.withDisk disk) :=
        ⟨.withDisk hdisk, abs_withDisk hdisk, fun _ _ => rfl⟩
      have hinv := h.withDisk hdisk
      rw [← hread.store.committedPage] at hcommitted
      have hcache := BufferPoolManager.cachePage_run hinv.pool.inv ⟨pageId, data⟩
        hvalid hnone
      obtain ⟨f, bpm, hrun, hid, content', heffect, hcontent⟩ | ⟨hfull, hrun⟩ := hcache
      · refine Proc.yields_zoom (Proc.Yields.intro hrun ?_)
        obtain ⟨hinv', habs'⟩ := 
          hinv.cache ⟨pageId, data⟩ ⟨f, false⟩ hne hcommitted rfl hnone heffect hcontent
        have hread' : ReadOnly live (pager.withDisk disk) ((pager.withDisk disk).withPool bpm) :=
          ⟨.withPool _ _, habs', .of_effect heffect⟩
        exact ⟨hread.trans hread', rfl, hinv', hid⟩
      · refine Proc.yields_zoom (Proc.Yields.intro hrun ?_)
        exact ⟨hread, hinv, .inr (.inl ⟨rfl, hfull⟩)⟩
    · cases hr
    · cases hr
  · obtain ⟨⟨disk, hdisk, rfl⟩, hr⟩ := hmid
    refine ⟨⟨.withDisk hdisk, abs_withDisk hdisk, fun _ _ => rfl⟩, h.withDisk hdisk, ?_⟩
    obtain ⟨data, hr, -⟩ | ⟨hcommitted, hr⟩ | ⟨e', hr, hfaults⟩ := hr
    · cases hr
    · cases hr
      refine .inl (flat_getPage_none hvalid hne ?_)
      show pager.activePage pageId = none
      rw [activePage, BufferPoolManager.content_eq_none.mpr hnone, hcommitted]
      rfl
    · cases hr
      exact .inr (.inr (.inl hfaults))

/-- The pins of a frame are the handles on its page. -/
theorem Inv.count_frame (h : pager.Inv live) {pageId : PageId} {f : FrameId}
    (hf : pager.bpm.pageFrames pageId = some f) :
    (live.map PagePin.frameId).count f = (pager.pinned live).count pageId := by
  rw [pinned, List.count, List.count, List.countP_map, List.countP_map]
  refine List.countP_congr fun pin hpin => ?_
  have hframe := h.pool.inv.pageFrames_pageId (List.mem_map_of_mem hpin)
  simp only [Function.comp_apply, beq_iff_eq]
  constructor
  · rintro rfl
    exact (h.pool.inv.mapped _ _ hf).2.2.1
  · rintro rfl
    exact Option.some.inj (hframe.symm.trans hf)

/-- A page that the pool gives a pin on. -/
theorem getPage_run_cached (hopen : pager.closed = false) {pageId : PageId}
    (hvalid : pageId ≠ invalidPageId) (hne : pageId ≠ headerPageId) {pin : PagePin}
    {bpm : BufferPoolManager}
    (hget : (BufferPoolManager.getPage pageId).run pager.bpm = (.ok pin, bpm)) :
    (getPage pageId).run pager = (.ok pin, pager.withPool bpm) := by
  rw [getPage, Proc.get_bind_run,
    Proc.bind_run_ok (Proc.failIf_run_of_not pager (by simp [hopen]) _),
    Proc.bind_run_ok (Proc.failIf_run_of_not pager (not_or.mpr ⟨hvalid, hne⟩) _),
    Proc.attempt_bind_run (onPool_run hget)]
  rfl

/-- A page that the pool does not have. -/
theorem getPage_run_uncached (hopen : pager.closed = false) {pageId : PageId}
    (hvalid : pageId ≠ invalidPageId) (hne : pageId ≠ headerPageId)
    (hnone : pager.bpm.pageFrames pageId = none) :
    (getPage pageId).run pager = (loadPage pageId).run pager := by
  rw [getPage, Proc.get_bind_run,
    Proc.bind_run_ok (Proc.failIf_run_of_not pager (by simp [hopen]) _),
    Proc.bind_run_ok (Proc.failIf_run_of_not pager (not_or.mpr ⟨hvalid, hne⟩) _),
    Proc.attempt_bind_run (onPool_run (BufferPoolManager.getPage_run_none hvalid hnone))]
  rfl

theorem getPage_yields (h : pager.Inv live) (pageId : PageId)
    (hroom : (pager.pinned live).count pageId < maxPins) :
    (getPage pageId).Yields pager fun r pager' =>
      ReadOnly live pager pager' ∧ GotPage pager live pageId pager' r := by
  refine Proc.yields_get_bind (Proc.yields_failIf_bind (by simp [h.isOpen]) fun _ => ?_)
  refine Proc.yields_failIf_bind (fun hid => ⟨.refl _ _, h, .inl ?_⟩) fun hid => ?_
  · rw [FlatPager.getPage, Proc.get_bind_run,
      Proc.bind_run_error (Proc.failIf_run_of _ hid _)]
  obtain ⟨hvalid, hne⟩ := not_or.mp hid
  unfold Proc.Yields
  rcases hf : pager.bpm.pageFrames pageId with _ | f
  · rw [Proc.attempt_bind_run (onPool_run (BufferPoolManager.getPage_run_none hvalid hf))]
    exact loadPage_yields h hvalid hne hf
  · obtain ⟨bpm, hget, heffect, hsame, hid'⟩ := BufferPoolManager.getPage_cached h.pool.inv hf
      (h.count_frame hf ▸ hroom)
    rw [Proc.attempt_bind_run (onPool_run hget)]
    obtain ⟨hinv, habs⟩ := h.pin ⟨f, false⟩ rfl heffect
    refine ⟨⟨.withPool _ _, habs, .of_effect heffect⟩, rfl, hinv, ?_⟩
    exact (congrArg Page.id hsame).trans hid'

end Get

/-! ## Handles that go out of scope -/

section Release

variable {pager : Pager} {live : List PagePin} {pin : PagePin}

theorem Inv.release (h : pager.Inv (pin :: live)) :
    (pager.withPool (pager.bpm.release pin)).Inv live ∧
      ReadOnly live pager (pager.withPool (pager.bpm.release pin)) := by
  have heffect := BufferPoolManager.release_effect h.pool.inv pin
    (List.mem_map_of_mem (List.mem_cons_self ..))
  rw [List.map_cons, List.erase_cons_head, ← List.map_cons] at heffect
  have hpins := SamePins.of_effect heffect
  have hcontent' : (pager.withPool (pager.bpm.release pin)).bpm.content = pager.bpm.content :=
    heffect.content
  have hdirty' : (pager.withPool (pager.bpm.release pin)).bpm.dirty = _ := heffect.dirty
  have hdirty {pageId : PageId} (hd : pager.bpm.dirty pageId = true) :
      (pager.withPool (pager.bpm.release pin)).bpm.dirty pageId = true := by
    rw [hdirty']
    by_cases heq : pageId = pager.bpm.pageId pin.frameId
    · rw [heq, Function.update_self, ← heq, hd, Bool.true_or]
    · rw [Function.update_of_ne heq, hd]
  refine ⟨h.withPool ⟨heffect.inv, fun pageId data hdata => ?_, fun pageId hmem hne => ?_,
    fun pageId hd => ?_, fun q hq hd => ?_⟩, .withPool _ _, abs_withPool fun pageId => ?_,
    fun q hq => hpins q (List.mem_cons_of_mem _ hq)⟩
  · rw [hcontent'] at hdata
    exact h.pool.cached pageId data hdata
  · obtain hd | ⟨q, hq, hd, hid⟩ := h.pool.held pageId hmem hne
    · exact .inl (hdirty hd)
    · obtain rfl | hq := List.mem_cons.mp hq
      · refine .inl ?_
        rw [hdirty', ← hid]
        exact (Function.update_self ..).trans (by rw [hd, Bool.or_true])
      · exact .inr ⟨q, hq, hd, (hpins q (List.mem_cons_of_mem _ hq)).trans hid⟩
  · rw [hdirty'] at hd
    by_cases heq : pageId = pager.bpm.pageId pin.frameId
    · subst heq
      rw [Function.update_self, Bool.or_eq_true] at hd
      obtain hd | hd := hd
      · exact h.pool.frameDirty _ hd
      · exact h.pool.pinDirty pin (List.mem_cons_self ..) hd
    · rw [Function.update_of_ne heq] at hd
      exact h.pool.frameDirty pageId hd
  · rw [hpins q (List.mem_cons_of_mem _ hq)]
    exact h.pool.pinDirty q (List.mem_cons_of_mem _ hq) hd
  · rw [heffect.content]
    rfl

/-- A store through a handle whose page the transaction may change. -/
theorem Inv.store (h : pager.Inv live) (hpin : pin ∈ live)
    (hmem : pager.pinId pin ∈ pager.transactionState.dirtyPageIds) (data : PageData) :
    (pager.withPool (pager.bpm.store pin data)).Inv live ∧
      (pager.withPool (pager.bpm.store pin data)).abs =
        pager.abs.store (pager.pinId pin) data ∧
      SameStore pager (pager.withPool (pager.bpm.store pin data)) ∧
      SamePins live pager (pager.withPool (pager.bpm.store pin data)) := by
  have heffect := BufferPoolManager.store_effect h.pool.inv pin
    (List.mem_map_of_mem hpin) data
  have hpins := SamePins.of_effect heffect
  have hcontent' : (pager.withPool (pager.bpm.store pin data)).bpm.content = _ := heffect.content
  have hdirty' : (pager.withPool (pager.bpm.store pin data)).bpm.dirty = pager.bpm.dirty :=
    heffect.dirty
  refine ⟨h.withPool ⟨heffect.inv, fun pageId data' hdata => ?_, fun pageId hmem hne => ?_,
    fun pageId hd => ?_, fun q hq hd => ?_⟩, ?_, .withPool _ _, hpins⟩
  · rw [hcontent'] at hdata
    by_cases heq : pageId = pager.bpm.pageId pin.frameId
    · subst heq
      exact ⟨h.pinId_ne_header hpin, .inl hmem⟩
    · rw [Function.update_of_ne heq] at hdata
      exact h.pool.cached pageId data' hdata
  · refine (h.pool.held pageId hmem hne).imp (fun hd => ?_) fun ⟨q, hq, hd, hid⟩ =>
      ⟨q, hq, hd, (hpins q hq).trans hid⟩
    rw [hdirty']
    exact hd
  · rw [hdirty'] at hd
    exact h.pool.frameDirty pageId hd
  · rw [hpins q hq]
    exact h.pool.pinDirty q hq hd
  · have hactive : (pager.withPool (pager.bpm.store pin data)).activePage =
        Function.update pager.activePage (pager.pinId pin) (some data) := by
      funext pageId
      unfold activePage
      rw [hcontent']
      by_cases heq : pageId = pager.pinId pin
      · rw [heq, Function.update_self, show pager.bpm.pageId pin.frameId = pager.pinId pin from rfl,
          Function.update_self]
        rfl
      · rw [Function.update_of_ne heq,
          show pager.bpm.pageId pin.frameId = pager.pinId pin from rfl, Function.update_of_ne heq]
        rfl
    rw [abs, hactive]
    rfl

end Release

/-! ## Marking a page dirty -/

section Mark

variable {pager : Pager} {live : List PagePin}

/-- The pager once it has saved the original of a page. -/
def markedDirty (pager : Pager) (pageId : PageId) (page : Page) : Pager :=
  { pager with transactionState := { pager.transactionState with
      originalPages := pager.transactionState.originalPages.insert pageId page
      dirtyPageIds := pager.transactionState.dirtyPageIds.insert pageId } }

theorem TransactionInv.markedDirty (h : pager.TransactionInv)
    (hactive : pager.transactionState.status ≠ .inactive) {pageId : PageId} {page : Page}
    (hnew : pageId ∉ pager.transactionState.newPageIds) (hid : page.id = pageId)
    (hlt : pageId.toNat < pager.committedHeader.pageCount.toNat)
    (hheader : pageId = headerPageId → page.data = pager.committedHeader.image)
    (hpage : pageId ≠ headerPageId → pager.committedPage pageId = some page.data) :
    (pager.markedDirty pageId page).TransactionInv where
  dbHeader := h.dbHeader
  committedHeader := h.committedHeader
  databaseId := h.databaseId
  pageCount := h.pageCount
  inactive hs := absurd hs hactive
  dirtyNodup := h.dirtyNodup.insert
  newNodup := h.newNodup
  dirty_iff p := by
    show p ∈ List.insert _ _ ↔ p ∈ pager.transactionState.newPageIds ∨ p ∈ AList.insert _ _ _
    rw [List.mem_insert_iff, AList.mem_insert, h.dirty_iff p]
    tauto
  new_iff := h.new_iff
  original p q hlookup := by
    by_cases heq : p = pageId
    · subst heq
      rw [show (pager.markedDirty p page).transactionState.originalPages.lookup p = _ from
        AList.lookup_insert _] at hlookup
      cases hlookup
      exact ⟨hid, hlt, hheader, hpage⟩
    · rw [show (pager.markedDirty pageId page).transactionState.originalPages.lookup p = _ from
        AList.lookup_insert_ne heq] at hlookup
      exact h.original p q hlookup
  headerClean hmem := h.headerClean fun hold => hmem ((AList.mem_insert _).mpr (.inr hold))

theorem dirtyPageSnapshot_header (h : pager.dbHeader.Valid) :
    (dirtyPageSnapshot headerPageId).run pager =
      (.ok ⟨headerPageId, pager.dbHeader.image⟩, pager) := by
  rw [dirtyPageSnapshot, Proc.get_bind_run, if_pos rfl, h.encodeInto]
  rfl

/-- A copy of a page of the pool.  The pin made for it is gone again. -/
theorem dirtyPageSnapshot_yields (h : pager.Inv live) {pageId : PageId} {data : PageData}
    (hroom : (pager.pinned live).count pageId < maxPins) (hdata : pager.bpm.content pageId = some data) :
    (dirtyPageSnapshot pageId).Yields pager fun r pager' =>
      r = .ok ⟨pageId, data⟩ ∧ pager'.Inv live ∧ ReadOnly live pager pager' ∧
        ∃ bpm, pager' = pager.withPool bpm ∧ bpm.content = pager.bpm.content ∧
          bpm.dirty = pager.bpm.dirty := by
  have hne := (h.pool.cached pageId data hdata).1
  obtain ⟨f, hf⟩ := pageFrames_of_content hdata
  obtain ⟨bpm₁, hget, hgot, hsame, hid⟩ := BufferPoolManager.getPage_cached h.pool.inv hf
    (h.count_frame hf ▸ hroom)
  obtain ⟨hinv, habs⟩ := h.pin ⟨f, false⟩ rfl hgot
  have hpage : (pager.withPool bpm₁).page ⟨f, false⟩ = ⟨pageId, data⟩ := by
    rw [BufferPoolManager.content_of_pageFrames hf] at hdata
    rw [← hid, ← Option.some.inj hdata]
    exact hsame
  have hreleased := BufferPoolManager.release_effect hinv.pool.inv ⟨f, false⟩
    (List.mem_map_of_mem (List.mem_cons_self ..))
  obtain ⟨hinv', hread'⟩ := hinv.release
  have hrun : (dirtyPageSnapshot pageId).run pager =
      (.ok ⟨pageId, data⟩, pager.withPool (bpm₁.release ⟨f, false⟩)) := by
    rw [dirtyPageSnapshot, Proc.get_bind_run, if_neg hne]
    rw [Proc.bind_run_ok (onPool_run hget), ← hpage]
    rfl
  refine Proc.Yields.intro hrun
    ⟨rfl, hinv', ?_, _, rfl, hreleased.content.trans hgot.content, ?_⟩
  · exact ReadOnly.trans ⟨.withPool _ _, habs, .of_effect hgot⟩ hread'
  · have hdirty := hreleased.dirty
    rw [Bool.or_false, Function.update_eq_self] at hdirty
    exact hdirty.trans hgot.dirty

/-- `mark_dirty` refuses what the flat array refuses. -/
theorem markDirty_refused (hopen : pager.closed = false) (pageId : PageId)
    (h : pager.transactionState.status ≠ .active) :
    ∃ e, (markDirty pageId).run pager = (.error e, pager) ∧
      (FlatPager.markDirty pageId).run pager.abs = (.error e, pager.abs) := by
  have hstatus : pager.abs.status = pager.transactionState.status := rfl
  rw [markDirty, FlatPager.markDirty, Proc.get_bind_run, Proc.get_bind_run,
    Proc.bind_run_ok (Proc.failIf_run_of_not pager (by simp [hopen]) _)]
  by_cases hvalid : pageId = invalidPageId
  · rw [Proc.bind_run_error (Proc.failIf_run_of pager hvalid _),
      Proc.bind_run_error (Proc.failIf_run_of pager.abs hvalid _)]
    exact ⟨_, rfl, rfl⟩
  rw [Proc.bind_run_ok (Proc.failIf_run_of_not pager hvalid _),
    Proc.bind_run_ok (Proc.failIf_run_of_not pager.abs hvalid _)]
  by_cases hfailed : pager.transactionState.status = .failed
  · rw [Proc.bind_run_error (Proc.failIf_run_of pager (by simp [hfailed]) _),
      Proc.bind_run_error (Proc.failIf_run_of pager.abs (by simp [hstatus, hfailed]) _)]
    exact ⟨_, rfl, rfl⟩
  rw [Proc.bind_run_ok (Proc.failIf_run_of_not pager (by simp [hfailed]) _),
    Proc.bind_run_ok (Proc.failIf_run_of_not pager.abs (by simp [hstatus, hfailed]) _)]
  by_cases hunresolved : pager.transactionState.status = .unresolved
  · rw [Proc.bind_run_error (Proc.failIf_run_of pager (by simp [hunresolved]) _),
      Proc.bind_run_error (Proc.failIf_run_of pager.abs (by simp [hstatus, hunresolved]) _)]
    exact ⟨_, rfl, rfl⟩
  have hinactive : pager.transactionState.status = .inactive := by
    rcases hcase : pager.transactionState.status <;> simp_all
  rw [Proc.bind_run_ok (Proc.failIf_run_of_not pager (by simp [hunresolved]) _),
    Proc.bind_run_ok (Proc.failIf_run_of_not pager.abs (by simp [hstatus, hunresolved]) _),
    Proc.bind_run_error (Proc.failIf_run_of pager (by simp [hinactive]) _),
    Proc.bind_run_error (Proc.failIf_run_of pager.abs (by simp [hstatus, hinactive]) _)]
  exact ⟨_, rfl, rfl⟩

/-- What is left of `mark_dirty` in an active transaction. -/
theorem markDirty_active (hopen : pager.closed = false)
    (hactive : pager.transactionState.status = .active) {pageId : PageId}
    (hvalid : pageId ≠ invalidPageId) :
    (markDirty pageId).run pager =
      (if pageId ∈ pager.transactionState.originalPages ∨
          pageId ∈ pager.transactionState.newPageIds then pure ()
        else do
          let page ← dirtyPageSnapshot pageId
          setTransaction { pager.transactionState with
            originalPages := pager.transactionState.originalPages.insert pageId page
            dirtyPageIds := pager.transactionState.dirtyPageIds.insert pageId }).run pager := by
  rw [markDirty, Proc.get_bind_run,
    Proc.bind_run_ok (Proc.failIf_run_of_not _ (by simp [hopen]) _),
    Proc.bind_run_ok (Proc.failIf_run_of_not _ hvalid _),
    Proc.bind_run_ok (Proc.failIf_run_of_not _ (by simp [hactive]) _),
    Proc.bind_run_ok (Proc.failIf_run_of_not _ (by simp [hactive]) _),
    Proc.bind_run_ok (Proc.failIf_run_of_not _ (by simp [hactive]) _)]

theorem flat_markDirty_active {flat : FlatPager} (hactive : flat.status = .active)
    {pageId : PageId} (hvalid : pageId ≠ invalidPageId) :
    (FlatPager.markDirty pageId).run flat =
      (.ok (), { flat with dirtyPageIds := flat.dirtyPageIds.insert pageId }) := by
  rw [FlatPager.markDirty, Proc.get_bind_run,
    Proc.bind_run_ok (Proc.failIf_run_of_not _ hvalid _),
    Proc.bind_run_ok (Proc.failIf_run_of_not _ (by simp [hactive]) _),
    Proc.bind_run_ok (Proc.failIf_run_of_not _ (by simp [hactive]) _),
    Proc.bind_run_ok (Proc.failIf_run_of_not _ (by simp [hactive]) _)]
  rfl

/-- A page of the transaction is marked already. -/
theorem markDirty_known (h : pager.TransactionInv) (hopen : pager.closed = false)
    (hactive : pager.transactionState.status = .active) {pageId : PageId}
    (hvalid : pageId ≠ invalidPageId) (hmem : pageId ∈ pager.transactionState.dirtyPageIds) :
    (markDirty pageId).run pager = (.ok (), pager) := by
  rw [markDirty_active hopen hactive hvalid, if_pos (Or.comm.mp ((h.dirty_iff pageId).mp hmem))]
  rfl

/-- A page that is not one of the transaction yet. -/
theorem markDirty_clean (h : pager.TransactionInv) (hopen : pager.closed = false)
    (hactive : pager.transactionState.status = .active) {pageId : PageId}
    (hvalid : pageId ≠ invalidPageId) (hmem : pageId ∉ pager.transactionState.dirtyPageIds)
    {page : Page} {bpm : BufferPoolManager}
    (hsnapshot : (dirtyPageSnapshot pageId).run pager = (.ok page, pager.withPool bpm)) :
    (markDirty pageId).run pager = (.ok (), (pager.withPool bpm).markedDirty pageId page) := by
  rw [markDirty_active hopen hactive hvalid,
    if_neg fun hold => hmem ((h.dirty_iff pageId).mpr (Or.comm.mp hold)),
    Proc.bind_run_ok hsnapshot]
  rfl

variable {pin : PagePin}

/-- The handle of a page of the transaction becomes a dirty one. -/
theorem Inv.withDirty (h : pager.Inv (pin :: live))
    (hmem : pager.pinId pin ∈ pager.transactionState.dirtyPageIds) :
    pager.Inv ({ pin with isDirty := true } :: live) where
  isOpen := h.isOpen
  file := h.file
  transaction := h.transaction
  pool :=
    { inv := h.pool.inv
      cached := h.pool.cached
      held := fun pageId hd hne => (h.pool.held pageId hd hne).imp_right
        fun ⟨q, hq, hdirty, hid⟩ => by
          obtain rfl | hq := List.mem_cons.mp hq
          · exact ⟨{ q with isDirty := true }, List.mem_cons_self .., rfl, hid⟩
          · exact ⟨q, List.mem_cons_of_mem _ hq, hdirty, hid⟩
      frameDirty := h.pool.frameDirty
      pinDirty := fun q hq hdirty => by
        obtain rfl | hq := List.mem_cons.mp hq
        · exact hmem
        · exact h.pool.pinDirty q (List.mem_cons_of_mem _ hq) hdirty }

/-- A page of a handle becomes one of the transaction, which has its original. -/
theorem Inv.markedDirty (h : pager.Inv (pin :: live))
    (hactive : pager.transactionState.status = .active)
    (hmem : pager.pinId pin ∉ pager.transactionState.dirtyPageIds) :
    (pager.markedDirty (pager.pinId pin) (pager.page pin)).Inv
      ({ pin with isDirty := true } :: live) := by
  have hpin : pin ∈ pin :: live := List.mem_cons_self ..
  have hne := h.pinId_ne_header hpin
  have hcommitted : pager.committedPage (pager.pinId pin) = some (pager.page pin).data := by
    rw [← h.activePage_of_clean hmem, h.activePage_pin hpin]
  have hlt := ((committedPage_isSome h.file _).mp ⟨_, hcommitted⟩).2
  have hnew : pager.pinId pin ∉ pager.transactionState.newPageIds := fun hnew =>
    hmem ((h.transaction.dirty_iff _).mpr (.inl hnew))
  have hinsert {p : PageId} (hp : p ∈ pager.transactionState.dirtyPageIds) :
      p ∈ pager.transactionState.dirtyPageIds.insert (pager.pinId pin) :=
    List.mem_insert_of_mem hp
  refine ⟨h.isOpen, ⟨h.file.holds, h.file.filePages_le, h.file.stored, h.file.recovered⟩,
    h.transaction.markedDirty (by simp [hactive]) hnew rfl hlt (fun heq => absurd heq hne)
      (fun _ => hcommitted), h.pool.inv, fun p data hdata => ?_, fun p hp hne => ?_,
    fun p hp => hinsert (h.pool.frameDirty p hp), fun q hq hd => ?_⟩
  · exact (h.pool.cached p data hdata).imp_right fun hor => hor.imp_left hinsert
  · obtain rfl | hold := List.mem_insert_iff.mp hp
    · exact .inr ⟨{ pin with isDirty := true }, List.mem_cons_self .., rfl, rfl⟩
    · refine (h.pool.held p hold hne).imp_right fun ⟨q, hq, hdirty, hid⟩ => ?_
      obtain rfl | hq := List.mem_cons.mp hq
      · exact absurd (hid ▸ hold) hmem
      · exact ⟨q, List.mem_cons_of_mem _ hq, hdirty, hid⟩
  · obtain rfl | hq := List.mem_cons.mp hq
    · exact List.mem_insert_self ..
    · exact hinsert (h.pool.pinDirty q (List.mem_cons_of_mem _ hq) hd)

/-- `mutable_page` refuses what the flat array refuses, and otherwise the page
is one of the transaction and the handle dirty. -/
theorem mutablePage_yields (h : pager.Inv (pin :: live))
    (hroom : (pager.pinned (pin :: live)).count (pager.pinId pin) < maxPins) :
    (mutablePage pin).Yields pager fun r pager' =>
      SameStore pager pager' ∧ SamePins (pin :: live) pager pager' ∧
        pager'.page pin = pager.page pin ∧ pager'.bpm.dirty = pager.bpm.dirty ∧
        (r = .ok { pin with isDirty := true } ∧ pager'.Inv ({ pin with isDirty := true } :: live) ∧
            pager'.pinId pin ∈ pager'.transactionState.dirtyPageIds ∧
            (FlatPager.markDirty (pager.pinId pin)).run pager.abs = (.ok (), pager'.abs) ∨
          ∃ e, r = .error e ∧ pager' = pager ∧
            (FlatPager.markDirty (pager.pinId pin)).run pager.abs = (.error e, pager.abs)) := by
  have hpin : pin ∈ pin :: live := List.mem_cons_self ..
  have hframe := h.pool.inv.pageFrames_pageId (List.mem_map_of_mem hpin)
  have hvalid : pager.pinId pin ≠ invalidPageId := (h.pool.inv.mapped _ _ hframe).2.2.2
  have hid : (pager.page pin).id = pager.pinId pin := rfl
  unfold Proc.Yields
  rw [mutablePage, Proc.get_bind_run, hid]
  by_cases hactive : pager.transactionState.status = .active
  swap
  · obtain ⟨e, hrun, hflat⟩ := markDirty_refused h.isOpen _ hactive
    rw [Proc.bind_run_error hrun]
    exact ⟨.refl _, .refl _ _, rfl, rfl, .inr ⟨e, rfl, rfl, hflat⟩⟩
  have hflat : (FlatPager.markDirty (pager.pinId pin)).run pager.abs = _ :=
    flat_markDirty_active hactive hvalid
  by_cases hmem : pager.pinId pin ∈ pager.transactionState.dirtyPageIds
  · rw [Proc.bind_run_ok (markDirty_known h.transaction h.isOpen hactive hvalid hmem)]
    refine ⟨.refl _, .refl _ _, rfl, rfl, .inl ⟨rfl, h.withDirty hmem, hmem, hflat.trans ?_⟩⟩
    rw [show pager.abs.dirtyPageIds.insert (pager.pinId pin) = pager.abs.dirtyPageIds from
      List.insert_of_mem hmem]
    rfl
  · have hsnapshot := dirtyPageSnapshot_yields h hroom (h.content_pin hpin)
    unfold Proc.Yields at hsnapshot
    rcases hrun : (dirtyPageSnapshot (pager.pinId pin)).run pager with ⟨r, pager₁⟩
    rw [hrun] at hsnapshot
    obtain ⟨rfl, hinv₁, hread, bpm, rfl, hcontent, hdirty⟩ := hsnapshot
    rw [Proc.bind_run_ok (markDirty_clean h.transaction h.isOpen hactive hvalid hmem hrun)]
    have hid₁ := hread.pins pin hpin
    have hpage : (pager.withPool bpm).page pin = pager.page pin := by
      have hdata := hinv₁.content_pin hpin
      rw [hid₁, show (pager.withPool bpm).bpm.content = _ from hcontent, h.content_pin hpin] at hdata
      exact Page.ext hid₁ (Option.some.inj hdata).symm
    have hinv₂ := hinv₁.markedDirty hactive (by rw [hid₁]; exact hmem)
    rw [hid₁, hpage] at hinv₂
    refine ⟨hread.store.trans ⟨.refl _, rfl, rfl, rfl⟩, hread.pins, hpage, hdirty, .inl ⟨rfl, hinv₂,
      List.mem_insert_iff.mpr (.inl hid₁), hflat.trans ?_⟩⟩
    rw [← hread.abs]
    rfl

end Mark

/-! ## A new page -/

section New

variable {pager : Pager} {live : List PagePin}

/-- The checks of `new_page` and `commit_transaction` are those of the flat
array. -/
theorem requireActive_run (hopen : pager.closed = false) (verb : String) :
    ∃ r, (requireActive verb).run pager = (r, pager) ∧
      (FlatPager.requireActive verb).run pager.abs = (r, pager.abs) ∧
      (r = .ok () ∧ pager.transactionState.status = .active ∨ ∃ e, r = .error e) := by
  have hstatus : pager.abs.status = pager.transactionState.status := rfl
  rw [requireActive, FlatPager.requireActive, Proc.get_bind_run, Proc.get_bind_run,
    Proc.bind_run_ok (Proc.failIf_run_of_not pager (by simp [hopen]) _)]
  by_cases hinactive : pager.transactionState.status = .inactive
  · rw [Proc.bind_run_error (Proc.failIf_run_of pager (by simp [hinactive]) _),
      Proc.bind_run_error (Proc.failIf_run_of pager.abs (by simp [hstatus, hinactive]) _)]
    exact ⟨_, rfl, rfl, .inr ⟨_, rfl⟩⟩
  rw [Proc.bind_run_ok (Proc.failIf_run_of_not pager (by simp [hinactive]) _),
    Proc.bind_run_ok (Proc.failIf_run_of_not pager.abs (by simp [hstatus, hinactive]) _)]
  by_cases hfailed : pager.transactionState.status = .failed
  · rw [Proc.bind_run_error (Proc.failIf_run_of pager (by simp [hfailed]) _),
      Proc.bind_run_error (Proc.failIf_run_of pager.abs (by simp [hstatus, hfailed]) _)]
    exact ⟨_, rfl, rfl, .inr ⟨_, rfl⟩⟩
  rw [Proc.bind_run_ok (Proc.failIf_run_of_not pager (by simp [hfailed]) _),
    Proc.bind_run_ok (Proc.failIf_run_of_not pager.abs (by simp [hstatus, hfailed]) _)]
  by_cases hunresolved : pager.transactionState.status = .unresolved
  · rw [Proc.failIf_run_of pager (by simp [hunresolved]) _,
      Proc.failIf_run_of pager.abs (by simp [hstatus, hunresolved]) _]
    exact ⟨_, rfl, rfl, .inr ⟨_, rfl⟩⟩
  rw [Proc.failIf_run_of_not pager (by simp [hunresolved]) _,
    Proc.failIf_run_of_not pager.abs (by simp [hstatus, hunresolved]) _]
  refine ⟨_, rfl, rfl, .inl ⟨rfl, ?_⟩⟩
  rcases hcase : pager.transactionState.status <;> simp_all

/-- The pager once it has saved the original header. -/
def headerMarked (pager : Pager) : Pager :=
  if headerPageId ∈ pager.transactionState.dirtyPageIds then pager
  else pager.markedDirty headerPageId ⟨headerPageId, pager.dbHeader.image⟩

theorem markDirty_header (h : pager.TransactionInv) (hopen : pager.closed = false)
    (hactive : pager.transactionState.status = .active) :
    (markDirty headerPageId).run pager = (.ok (), pager.headerMarked) := by
  have hvalid : headerPageId ≠ invalidPageId := by decide
  unfold headerMarked
  split
  · exact markDirty_known h hopen hactive hvalid ‹_›
  · exact markDirty_clean h hopen hactive hvalid ‹_› (dirtyPageSnapshot_header h.dbHeader)

theorem TransactionInv.committedPageCount_pos (h : pager.TransactionInv) :
    0 < pager.committedHeader.pageCount.toNat :=
  Nat.pos_of_ne_zero fun h0 => h.committedHeader.pageCount (UInt64.toNat.inj h0)

theorem TransactionInv.header_not_new (h : pager.TransactionInv) :
    headerPageId ∉ pager.transactionState.newPageIds := fun hmem => by
  have hle := ((h.new_iff headerPageId).mp hmem).1
  have hpos := h.committedPageCount_pos
  rw [headerPageId_toNat] at hle
  omega

/-- What marking the header changes. -/
theorem headerMarked_facts (h : pager.TransactionInv)
    (hactive : pager.transactionState.status = .active) :
    pager.headerMarked.TransactionInv ∧
      headerPageId ∈ pager.headerMarked.transactionState.originalPages ∧
      pager.headerMarked = { pager with transactionState := pager.headerMarked.transactionState } ∧
      pager.headerMarked.transactionState.status = pager.transactionState.status ∧
      pager.headerMarked.transactionState.transactionId = pager.transactionState.transactionId ∧
      pager.headerMarked.transactionState.newPageIds = pager.transactionState.newPageIds ∧
      pager.headerMarked.transactionState.dirtyPageIds =
        pager.transactionState.dirtyPageIds.insert headerPageId := by
  have hnew := h.header_not_new
  unfold headerMarked
  split
  · rename_i hmem
    exact ⟨h, ((h.dirty_iff _).mp hmem).resolve_left hnew, rfl, rfl, rfl, rfl,
      (List.insert_of_mem hmem).symm⟩
  · rename_i hmem
    have hclean : headerPageId ∉ pager.transactionState.originalPages := fun hold =>
      hmem ((h.dirty_iff _).mpr (.inr hold))
    have himage : pager.dbHeader.image = pager.committedHeader.image := by rw [h.headerClean hclean]
    exact ⟨h.markedDirty (by simp [hactive]) hnew rfl h.committedPageCount_pos (fun _ => himage)
      (fun hne => absurd rfl hne), (AList.mem_insert _).mpr (.inl rfl), rfl, rfl, rfl, rfl, rfl⟩

theorem flat_requireActive {flat : FlatPager} (hactive : flat.status = .active)
    (verb : String) : (FlatPager.requireActive verb).run flat = (.ok (), flat) := by
  rw [FlatPager.requireActive, Proc.get_bind_run,
    Proc.bind_run_ok (Proc.failIf_run_of_not _ (by simp [hactive]) _),
    Proc.bind_run_ok (Proc.failIf_run_of_not _ (by simp [hactive]) _),
    Proc.failIf_run_of_not _ (by simp [hactive])]

theorem flat_newPage_active {flat : FlatPager} (hactive : flat.status = .active)
    (hvalid : flat.active.header.pageCount ≠ invalidPageId) :
    FlatPager.newPage.run flat = (.ok flat.active.header.pageCount, { flat with
      active :=
        { header := { flat.active.header with pageCount := flat.active.header.pageCount + 1 }
          page := Function.update flat.active.page flat.active.header.pageCount (some .zero) }
      dirtyPageIds :=
        (flat.dirtyPageIds.insert headerPageId).insert flat.active.header.pageCount }) := by
  have hcheck := Proc.failIf_run_of_not flat hvalid
    (Status.InvalidArgument "Cannot cache page: invalid page id")
  rw [FlatPager.newPage, Proc.bind_run_ok (flat_requireActive hactive _), Proc.get_bind_run]
  exact Proc.bind_run_ok hcheck

/-- The last step of `new_page`. -/
def addedPage (pager : Pager) (pageId : PageId) : Pager :=
  { pager with
    dbHeader := { pager.dbHeader with pageCount := pager.dbHeader.pageCount + 1 }
    transactionState := { pager.transactionState with
      newPageIds := pager.transactionState.newPageIds.insert pageId
      dirtyPageIds := pager.transactionState.dirtyPageIds.insert pageId } }

theorem toNat_add_one {n : UInt64} (h : n ≠ invalidPageId) : (n + 1).toNat = n.toNat + 1 := by
  have hlt : n.toNat < 2 ^ 64 - 1 := by
    have hmax : invalidPageId.toNat = 2 ^ 64 - 1 := rfl
    have hne : n.toNat ≠ invalidPageId.toNat := fun heq => h (UInt64.toNat.inj heq)
    have := n.toNat_lt
    omega
  rw [UInt64.toNat_add, show (1 : UInt64).toNat = 1 from rfl, Nat.mod_eq_of_lt (by omega)]

theorem rootPageIdIsValid_mono {root n n' : UInt64} (hle : n.toNat ≤ n'.toNat)
    (h : DatabaseHeader.rootPageIdIsValid root n = true) :
    DatabaseHeader.rootPageIdIsValid root n' = true := by
  simp only [DatabaseHeader.rootPageIdIsValid, Bool.or_eq_true, beq_iff_eq, Bool.and_eq_true,
    decide_eq_true_eq] at h ⊢
  exact h.imp_right fun ⟨hge, hlt⟩ => ⟨hge, UInt64.lt_iff_toNat_lt.mpr
    (Nat.lt_of_lt_of_le (UInt64.lt_iff_toNat_lt.mp hlt) hle)⟩

theorem TransactionInv.addedPage (h : pager.TransactionInv)
    (hactive : pager.transactionState.status = .active)
    (hheader : headerPageId ∈ pager.transactionState.originalPages)
    (hvalid : pager.dbHeader.pageCount ≠ invalidPageId) :
    (pager.addedPage pager.dbHeader.pageCount).TransactionInv := by
  have hnext := toNat_add_one hvalid
  have hle : pager.dbHeader.pageCount.toNat ≤ (pager.dbHeader.pageCount + 1).toNat := by omega
  have hcount := h.pageCount
  refine ⟨⟨fun h0 => ?_, rootPageIdIsValid_mono hle h.dbHeader.tables,
    rootPageIdIsValid_mono hle h.dbHeader.columns, rootPageIdIsValid_mono hle h.dbHeader.indexes,
    rootPageIdIsValid_mono hle h.dbHeader.indexColumns⟩, h.committedHeader, h.databaseId,
    hcount.trans hle, fun hs => ?_, h.dirtyNodup.insert, h.newNodup.insert, fun p => ?_,
    fun p => ?_, h.original, fun hmem => absurd hheader hmem⟩
  · have hzero : (pager.dbHeader.pageCount + 1).toNat = 0 := congrArg UInt64.toNat h0
    omega
  · exact absurd (hactive.symm.trans hs) (by decide)
  · show p ∈ List.insert _ _ ↔ p ∈ List.insert _ _ ∨ p ∈ pager.transactionState.originalPages
    rw [List.mem_insert_iff, List.mem_insert_iff, h.dirty_iff p]
    tauto
  · show p ∈ List.insert _ _ ↔ pager.committedHeader.pageCount.toNat ≤ p.toNat ∧
      p.toNat < (pager.dbHeader.pageCount + 1).toNat
    rw [List.mem_insert_iff, h.new_iff p, hnext]
    constructor
    · rintro (rfl | ⟨hge, hlt⟩)
      · exact ⟨hcount, Nat.lt_succ_self _⟩
      · exact ⟨hge, by omega⟩
    · rintro ⟨hge, hlt⟩
      by_cases heq : p.toNat = pager.dbHeader.pageCount.toNat
      · exact .inl (UInt64.toNat.inj heq)
      · exact .inr ⟨hge, by omega⟩

/-- The pager after `new_page`, once the pool has the page. -/
theorem Inv.newPage (h : pager.Inv live) (hactive : pager.transactionState.status = .active)
    (hvalid : pager.dbHeader.pageCount ≠ invalidPageId) {bpm : BufferPoolManager} {f : FrameId}
    (hid : bpm.pageId f = pager.dbHeader.pageCount) {content' : PageId → Option PageData}
    (heffect : BufferPoolManager.Effect pager.bpm bpm (live.map PagePin.frameId)
      (f :: live.map PagePin.frameId)
      (Function.update content' pager.dbHeader.pageCount (some .zero)) pager.bpm.dirty)
    (hkept : BufferPoolManager.Kept pager.bpm (live.map PagePin.frameId) content') :
    let pager' := (pager.withPool bpm).headerMarked.addedPage pager.dbHeader.pageCount
    pager'.Inv (⟨f, true⟩ :: live) ∧ SameStore pager pager' ∧ SamePins live pager pager' ∧
      pager'.bpm.dirty = pager.bpm.dirty ∧ pager'.pinId ⟨f, true⟩ = pager.dbHeader.pageCount ∧
      FlatPager.newPage.run pager.abs = (.ok pager.dbHeader.pageCount, pager'.abs) := by
  intro pager'
  set pageId := pager.dbHeader.pageCount with hpageId
  have hcached : (pager.withPool bpm).TransactionInv :=
    h.transaction.of_sameStore (.withPool _ _) rfl rfl
  obtain ⟨hmarked, hheader, heq, hstatus, -, hnewIds, hdirtyIds⟩ :=
    headerMarked_facts hcached hactive
  have hdb : (pager.withPool bpm).headerMarked.dbHeader = pager.dbHeader := by rw [heq]; rfl
  have hadded := hmarked.addedPage (hstatus.trans hactive) hheader (by rw [hdb]; exact hvalid)
  rw [hdb, ← hpageId] at hadded
  have hsame : SameStore pager pager' := by
    refine ⟨?_, ?_, ?_, ?_⟩ <;> simp only [pager', addedPage] <;> rw [heq]
    exacts [.refl _, rfl, rfl, rfl]
  have hbpm : pager'.bpm = bpm := by
    simp only [pager', addedPage]
    rw [heq]
    rfl
  have hdirty : pager'.transactionState.dirtyPageIds =
      (pager.transactionState.dirtyPageIds.insert headerPageId).insert pageId :=
    congrArg (List.insert pageId) hdirtyIds
  have hold {p : PageId} (hp : p ∈ pager.transactionState.dirtyPageIds) :
      p ∈ pager'.transactionState.dirtyPageIds := by
    rw [hdirty]
    exact List.mem_insert_of_mem (List.mem_insert_of_mem hp)
  have hself : pageId ∈ pager'.transactionState.dirtyPageIds := by
    rw [hdirty]
    exact List.mem_insert_self ..
  have hne : pageId ≠ headerPageId := fun h0 => h.transaction.dbHeader.pageCount h0
  have hpins : SamePins live pager pager' := fun q hq => by
    rw [pinId, hbpm]
    exact heffect.pins _ (List.mem_map_of_mem hq)
  have hpin : pager'.pinId ⟨f, true⟩ = pageId := by rw [pinId, hbpm, hid]
  have hcontent : pager'.bpm.content = Function.update content' pageId (some .zero) := by
    rw [hbpm, heffect.content]
  refine ⟨⟨?_, h.file.of_sameStore hsame, hadded, ?_, fun p data hdata => ?_, fun p hp hne' => ?_,
    fun p hp => ?_, fun q hq hd => ?_⟩, hsame, hpins, ?_, hpin, ?_⟩
  · simp only [pager', Pager.addedPage]
    rw [heq]
    exact h.isOpen
  · rw [hbpm]
    exact heffect.inv
  · rw [hcontent] at hdata
    by_cases hp : p = pageId
    · subst hp
      exact ⟨hne, .inl hself⟩
    · rw [Function.update_of_ne hp] at hdata
      rw [hsame.committedPage]
      exact (h.pool.cached p data (hkept.content hdata)).imp_right fun hor => hor.imp_left hold
  · rw [hdirty] at hp
    obtain rfl | hp := List.mem_insert_iff.mp hp
    · exact .inr ⟨_, List.mem_cons_self .., rfl, hpin⟩
    · refine (h.pool.held p ((List.mem_insert_iff.mp hp).resolve_left hne') hne').imp
        (fun hd => ?_) fun ⟨q, hq, hd, hid'⟩ =>
          ⟨q, List.mem_cons_of_mem _ hq, hd, (hpins q hq).trans hid'⟩
      rw [hbpm, heffect.dirty]
      exact hd
  · rw [hbpm, heffect.dirty] at hp
    exact hold (h.pool.frameDirty p hp)
  · obtain rfl | hq := List.mem_cons.mp hq
    · rw [hpin]
      exact hself
    · rw [hpins q hq]
      exact hold (h.pool.pinDirty q hq hd)
  · rw [hbpm]
    exact heffect.dirty
  · rw [flat_newPage_active hactive hvalid]
    have hactivePage : pager'.activePage = Function.update pager.activePage pageId (some .zero) := by
      funext p
      rw [activePage, hcontent, hsame.committedPage]
      by_cases hp : p = pageId
      · rw [hp, Function.update_self, Function.update_self]
        rfl
      · rw [Function.update_of_ne hp, Function.update_of_ne hp, h.activePage_kept hkept]
    have hheader' : pager'.dbHeader = { pager.dbHeader with pageCount := pageId + 1 } := by
      simp only [pager', Pager.addedPage]
      rw [heq]
      rfl
    have habs : pager'.abs = ⟨⟨{ pager.dbHeader with pageCount := pageId + 1 },
        Function.update pager.activePage pageId (some .zero)⟩,
        ⟨pager.committedHeader, pager.committedPage⟩, pager.transactionState.status,
        (pager.transactionState.dirtyPageIds.insert headerPageId).insert pageId⟩ := by
      rw [abs, hactivePage, hheader', hsame.committedPage, hsame.committedHeader, hdirty,
        ← show pager'.transactionState.status = pager.transactionState.status from hstatus]
    rw [habs]
    rfl

/-- The outcome of `new_page`. -/
def GotNewPage (pager : Pager) (live : List PagePin) (pager' : Pager) :
    Except Status PagePin → Prop
  | .ok pin => pin.isDirty = true ∧ pager'.Inv (pin :: live) ∧
      pager'.pinId pin = pager.dbHeader.pageCount ∧
      FlatPager.newPage.run pager.abs = (.ok pager.dbHeader.pageCount, pager'.abs)
  | .error e => pager' = pager ∧
      (FlatPager.newPage.run pager.abs = (.error e, pager.abs) ∨ pager.Fails e)

/-- In an active transaction only a full pool and the end of the page ids keep
`new_page` from issuing the next id. -/
theorem newPage_run (h : pager.Inv live) (hactive : pager.transactionState.status = .active) :
    (∃ pin pager', newPage.run pager = (.ok pin, pager') ∧ SameStore pager pager' ∧
        SamePins live pager pager' ∧ pager'.bpm.dirty = pager.bpm.dirty ∧
        GotNewPage pager live pager' (.ok pin)) ∨
      pager.bpm.Exhausted ∧
        newPage.run pager = (.error BufferPoolManager.exhaustedStatus, pager) ∨
      pager.dbHeader.pageCount = invalidPageId ∧ newPage.run pager =
        (.error (.InvalidArgument "Cannot cache page: invalid page id"), pager) := by
  obtain ⟨r, hrun, hflat, ⟨rfl, -⟩ | ⟨e, rfl⟩⟩ := requireActive_run h.isOpen "allocate new page"
  swap
  · have hok := @FlatPager.requireActive_active pager.abs hactive "allocate new page"
    cases hflat.symm.trans hok
  rw [newPage, Proc.bind_run_ok hrun, Proc.get_bind_run]
  by_cases hvalid : pager.dbHeader.pageCount = invalidPageId
  · have hcache : (BufferPoolManager.cachePage (Page.ofId pager.dbHeader.pageCount)).run pager.bpm =
        (.error (.InvalidArgument "Cannot cache page: invalid page id"), pager.bpm) :=
      Proc.bind_run_error (Proc.failIf_run_of _ hvalid _)
    exact .inr (.inr ⟨hvalid, Proc.bind_run_error (onPool_run hcache)⟩)
  have hnone : pager.bpm.pageFrames pager.dbHeader.pageCount = none := by
    rw [← BufferPoolManager.content_eq_none]
    rcases hdata : pager.bpm.content pager.dbHeader.pageCount with _ | data
    · rfl
    · have hactivePage : pager.activePage pager.dbHeader.pageCount = some data := by
        rw [activePage, hdata]
        rfl
      exact absurd ((h.activePage_isSome _).mp ⟨_, hactivePage⟩).2 (lt_irrefl _)
  obtain ⟨f, bpm, hcache, hid, content', heffect, hkept⟩ | ⟨hfull, hcache⟩ :=
    BufferPoolManager.cachePage_run h.pool.inv (Page.ofId pager.dbHeader.pageCount) hvalid
      hnone
  · have hcached : (pager.withPool bpm).TransactionInv :=
      h.transaction.of_sameStore (.withPool _ _) rfl rfl
    have hmark : (releaseOnError ⟨f, false⟩ (markDirty headerPageId)).run (pager.withPool bpm) =
        (.ok (), (pager.withPool bpm).headerMarked) := by
      rw [releaseOnError, Proc.attempt_bind_run (markDirty_header hcached h.isOpen hactive)]
      rfl
    rw [Proc.bind_run_ok (onPool_run hcache), Proc.bind_run_ok hmark, Proc.modify_bind_run,
      Proc.pure_run]
    obtain ⟨hinv, hsame, hpins, hdirty, hpin, hnew⟩ := h.newPage hactive hvalid hid heffect hkept
    exact .inl ⟨_, _, rfl, hsame, hpins, hdirty, rfl, hinv, hpin, hnew⟩
  · exact .inr (.inl ⟨hfull, Proc.bind_run_error (onPool_run hcache)⟩)

theorem newPage_yields (h : pager.Inv live) :
    newPage.Yields pager fun r pager' =>
      SameStore pager pager' ∧ SamePins live pager pager' ∧ GotNewPage pager live pager' r := by
  unfold Proc.Yields
  obtain ⟨r, hrun, hflat, ⟨rfl, hactive⟩ | ⟨e, rfl⟩⟩ :=
    requireActive_run h.isOpen "allocate new page"
  swap
  · rw [newPage, Proc.bind_run_error hrun]
    refine ⟨.refl _, .refl _ _, rfl, .inl ?_⟩
    rw [FlatPager.newPage, Proc.bind_run_error hflat]
  obtain ⟨pin, pager', hnew, hsame, hpins, -, hgot⟩ | ⟨hfull, hnew⟩ | ⟨hvalid, hnew⟩ :=
    newPage_run h hactive
  · rw [hnew]
    exact ⟨hsame, hpins, hgot⟩
  · rw [hnew]
    exact ⟨.refl _, .refl _ _, rfl, .inr (.inl ⟨rfl, hfull⟩)⟩
  · rw [hnew]
    refine ⟨.refl _, .refl _ _, rfl, .inl ?_⟩
    have hcheck := Proc.failIf_run_of pager.abs hvalid
      (Status.InvalidArgument "Cannot cache page: invalid page id")
    rw [FlatPager.newPage, Proc.bind_run_ok hflat, Proc.get_bind_run]
    exact Proc.bind_run_error hcheck

/-- The header after the roots of the system tables are set. -/
theorem setSystemRoots_yields (h : pager.Inv live) {tables columns indexes indexColumns : PageId}
    (hroots : (pager.dbHeader.withRoots tables columns indexes indexColumns).Valid) :
    (setSystemRoots tables columns indexes indexColumns).Yields pager fun r pager' =>
      SameStore pager pager' ∧ SamePins live pager pager' ∧ pager'.Inv live ∧
        (FlatPager.setSystemRoots tables columns indexes indexColumns).run pager.abs =
          (r, pager'.abs) := by
  unfold Proc.Yields
  rw [setSystemRoots, FlatPager.setSystemRoots]
  by_cases hactive : pager.transactionState.status = .active
  swap
  · obtain ⟨e, hrun, hflat⟩ := markDirty_refused h.isOpen headerPageId hactive
    rw [Proc.bind_run_error hrun, Proc.bind_run_error hflat]
    exact ⟨.refl _, .refl _ _, h, rfl⟩
  obtain ⟨hmarked, hheader, heq, hstatus, -, -, hdirtyIds⟩ :=
    headerMarked_facts h.transaction hactive
  rw [Proc.bind_run_ok (markDirty_header h.transaction h.isOpen hactive),
    Proc.bind_run_ok (flat_markDirty_active hactive (by decide)), Proc.modify_run,
    Proc.modify_run]
  have hpager : { pager.headerMarked with
      dbHeader := pager.headerMarked.dbHeader.withRoots tables columns indexes indexColumns } =
      ({ pager with
        dbHeader := pager.dbHeader.withRoots tables columns indexes indexColumns
        transactionState := pager.headerMarked.transactionState } : Pager) := by
    rw [heq]
  rw [hpager]
  set pager' : Pager := { pager with
    dbHeader := pager.dbHeader.withRoots tables columns indexes indexColumns
    transactionState := pager.headerMarked.transactionState }
  have hsame : SameStore pager pager' := ⟨.refl _, rfl, rfl, rfl⟩
  have hdirty : pager'.transactionState.dirtyPageIds =
      pager.transactionState.dirtyPageIds.insert headerPageId := hdirtyIds
  have hold {p : PageId} (hp : p ∈ pager.transactionState.dirtyPageIds) :
      p ∈ pager'.transactionState.dirtyPageIds := by
    rw [hdirty]
    exact List.mem_insert_of_mem hp
  have htransaction : pager'.TransactionInv := by
    have hcommitted : pager.headerMarked.committedHeader = pager.committedHeader := by rw [heq]
    have hdb : pager.headerMarked.dbHeader = pager.dbHeader := by rw [heq]
    have hpage : pager.headerMarked.committedPage = pager.committedPage := by rw [heq]; rfl
    refine ⟨hroots, h.transaction.committedHeader, h.transaction.databaseId,
      h.transaction.pageCount, hmarked.inactive, hmarked.dirtyNodup, hmarked.newNodup,
      hmarked.dirty_iff, fun p => ?_, fun p page hlookup => ?_, fun hmem => absurd hheader hmem⟩
    · have := hmarked.new_iff p
      rwa [hcommitted, hdb] at this
    · have := hmarked.original p page hlookup
      rwa [hcommitted, hpage] at this
  refine ⟨hsame, fun _ _ => rfl, ⟨h.isOpen, h.file.of_sameStore hsame, htransaction, h.pool.inv,
    fun p data hdata => (h.pool.cached p data hdata).imp_right fun hor => hor.imp_left hold,
    fun p hp hne => ?_, fun p hp => hold (h.pool.frameDirty p hp),
    fun q hq hd => hold (h.pool.pinDirty q hq hd)⟩, ?_⟩
  · rw [hdirty] at hp
    exact h.pool.held p ((List.mem_insert_iff.mp hp).resolve_left hne) hne
  · have habs : pager'.abs = ⟨⟨pager.dbHeader.withRoots tables columns indexes indexColumns,
        pager.activePage⟩, ⟨pager.committedHeader, pager.committedPage⟩,
        pager.transactionState.status,
        pager.transactionState.dirtyPageIds.insert headerPageId⟩ := by
      rw [abs, hdirty, ← hstatus]
      rfl
    rw [habs]
    rfl

end New

end Pager

end DanDB.Storage
