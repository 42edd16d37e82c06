import DanDB.Storage.FlatPager

/-!
# The invariant of the pager

`abs` reads a pager as a flat array of pages: a page is what the pool holds, or
else what was committed last, and that is in the log overlay or in the file.
The invariant says that the pool holds nothing but committed pages and pages of
the transaction, that the latter can never be evicted, and that the transaction
knows the original of every page it changed.

`live` lists the pins alive.
-/

namespace DanDB.Storage

open DanDB.Core Platform Wal BufferPool

namespace Pager

/-! ## Reading a pager as an array of pages -/

/-- The number of pages in the file. -/
def filePages (pager : Pager) : Nat := pager.diskManager.fileHandle.bytes.length / pageSize

/-- A page as the last commit left it. -/
def committedPage (pager : Pager) (pageId : PageId) : Option PageData :=
  if pageId = headerPageId then none
  else match pager.recoveredPages.lookup pageId with
    | some page => some page.data
    | none =>
      if pageId.toNat < pager.filePages then some (pager.diskManager.page pageId.toNat) else none

/-- A page as the transaction sees it. -/
def activePage (pager : Pager) (pageId : PageId) : Option PageData :=
  (pager.bpm.content pageId).or (pager.committedPage pageId)

/-- The pager as a flat array of pages. -/
def abs (pager : Pager) : FlatPager where
  active := ⟨pager.dbHeader, pager.activePage⟩
  committed := ⟨pager.committedHeader, pager.committedPage⟩
  status := pager.transactionState.status
  dirtyPageIds := pager.transactionState.dirtyPageIds

/-- The page a pin points to. -/
def pinId (pager : Pager) (pin : PagePin) : PageId := pager.bpm.pageId pin.frameId

/-- The pages that handles point to. -/
def pinned (pager : Pager) (live : List PagePin) : List PageId := live.map pager.pinId

/-! ## The invariant -/

/-- The committed pages are all there. -/
structure FileInv (pager : Pager) : Prop where
  holds : pager.diskManager.Holds pager.filePages
  filePages_le : pager.filePages ≤ pager.committedHeader.pageCount.toNat
  stored : ∀ pageId, pageId ≠ headerPageId →
    pageId.toNat < pager.committedHeader.pageCount.toNat →
    pageId ∈ pager.recoveredPages ∨ pageId.toNat < pager.filePages
  recovered : ∀ pageId page, pager.recoveredPages.lookup pageId = some page →
    page.id = pageId ∧ pageId ≠ headerPageId ∧
      pageId.toNat < pager.committedHeader.pageCount.toNat

/-- The transaction knows what it changed. -/
structure TransactionInv (pager : Pager) : Prop where
  dbHeader : pager.dbHeader.Valid
  committedHeader : pager.committedHeader.Valid
  databaseId : pager.dbHeader.databaseId = pager.committedHeader.databaseId
  pageCount : pager.committedHeader.pageCount.toNat ≤ pager.dbHeader.pageCount.toNat
  inactive : pager.transactionState.status = .inactive → pager.transactionState.dirtyPageIds = []
  dirtyNodup : pager.transactionState.dirtyPageIds.Nodup
  newNodup : pager.transactionState.newPageIds.Nodup
  dirty_iff : ∀ pageId, pageId ∈ pager.transactionState.dirtyPageIds ↔
    pageId ∈ pager.transactionState.newPageIds ∨ pageId ∈ pager.transactionState.originalPages
  new_iff : ∀ pageId, pageId ∈ pager.transactionState.newPageIds ↔
    pager.committedHeader.pageCount.toNat ≤ pageId.toNat ∧
      pageId.toNat < pager.dbHeader.pageCount.toNat
  original : ∀ pageId page, pager.transactionState.originalPages.lookup pageId = some page →
    page.id = pageId ∧ pageId.toNat < pager.committedHeader.pageCount.toNat ∧
      (pageId = headerPageId → page.data = pager.committedHeader.image) ∧
      (pageId ≠ headerPageId → pager.committedPage pageId = some page.data)
  headerClean : headerPageId ∉ pager.transactionState.originalPages →
    pager.dbHeader = pager.committedHeader

/-- The pool holds committed pages and pages of the transaction, and the latter
cannot be evicted. -/
structure PoolInv (pager : Pager) (live : List PagePin) : Prop where
  inv : pager.bpm.Inv (live.map PagePin.frameId)
  cached : ∀ pageId data, pager.bpm.content pageId = some data →
    pageId ≠ headerPageId ∧
      (pageId ∈ pager.transactionState.dirtyPageIds ∨ pager.committedPage pageId = some data)
  held : ∀ pageId ∈ pager.transactionState.dirtyPageIds, pageId ≠ headerPageId →
    pager.bpm.dirty pageId = true ∨ ∃ pin ∈ live, pin.isDirty = true ∧ pager.pinId pin = pageId
  frameDirty : ∀ pageId, pager.bpm.dirty pageId = true →
    pageId ∈ pager.transactionState.dirtyPageIds
  pinDirty : ∀ pin ∈ live, pin.isDirty = true →
    pager.pinId pin ∈ pager.transactionState.dirtyPageIds

structure Inv (pager : Pager) (live : List PagePin) : Prop where
  isOpen : pager.closed = false
  file : pager.FileInv
  transaction : pager.TransactionInv
  pool : pager.PoolInv live

section Basics

variable {pager : Pager} {live : List PagePin}

theorem Inv.perm (h : pager.Inv live) {live' : List PagePin} (hperm : live.Perm live') :
    pager.Inv live' where
  isOpen := h.isOpen
  file := h.file
  transaction := h.transaction
  pool :=
    { inv := h.pool.inv.perm (hperm.map _)
      cached := h.pool.cached
      held := fun pageId hmem hne => (h.pool.held pageId hmem hne).imp_right
        fun ⟨pin, hpin, hd⟩ => ⟨pin, hperm.mem_iff.mp hpin, hd⟩
      frameDirty := h.pool.frameDirty
      pinDirty := fun pin hpin => h.pool.pinDirty pin (hperm.mem_iff.mpr hpin) }

theorem headerPageId_toNat : headerPageId.toNat = 0 := rfl

theorem toNat_ne_zero {pageId : PageId} (h : pageId ≠ headerPageId) : pageId.toNat ≠ 0 := fun h0 =>
  h (UInt64.toNat.inj h0)

theorem valid_of_lt {pageId : PageId} {n : UInt64} (h : pageId.toNat < n.toNat) :
    pageId ≠ invalidPageId := by
  rintro rfl
  have := n.toNat_lt
  have hmax : invalidPageId.toNat = 2 ^ 64 - 1 := rfl
  omega

/-- The committed pages are those below the committed page count. -/
theorem committedPage_isSome (h : pager.FileInv) (pageId : PageId) :
    (∃ data, pager.committedPage pageId = some data) ↔
      pageId ≠ headerPageId ∧ pageId.toNat < pager.committedHeader.pageCount.toNat := by
  unfold committedPage
  constructor
  · rintro ⟨data, hdata⟩
    split at hdata
    · cases hdata
    · rename_i hne
      refine ⟨hne, ?_⟩
      split at hdata
      · rename_i page hlookup
        exact (h.recovered pageId page hlookup).2.2
      · split at hdata
        · exact Nat.lt_of_lt_of_le ‹_› h.filePages_le
        · cases hdata
  · rintro ⟨hne, hlt⟩
    rw [if_neg hne]
    rcases hlookup : pager.recoveredPages.lookup pageId with _ | page
    · have hmem : pageId ∉ pager.recoveredPages := AList.lookup_eq_none.mp hlookup
      exact ⟨_, if_pos ((h.stored pageId hne hlt).resolve_left hmem)⟩
    · exact ⟨page.data, rfl⟩

theorem committedPage_eq_none (h : pager.FileInv) {pageId : PageId}
    (hge : pager.committedHeader.pageCount.toNat ≤ pageId.toNat) :
    pager.committedPage pageId = none := by
  rcases hdata : pager.committedPage pageId with _ | data
  · rfl
  · have := ((committedPage_isSome h pageId).mp ⟨data, hdata⟩).2
    omega

/-- A page of the transaction is in the pool. -/
theorem PoolInv.content_of_dirty (h : pager.PoolInv live) {pageId : PageId}
    (hmem : pageId ∈ pager.transactionState.dirtyPageIds) (hne : pageId ≠ headerPageId) :
    ∃ data, pager.bpm.content pageId = some data := by
  obtain hdirty | ⟨pin, hpin, -, hid⟩ := h.held pageId hmem hne
  · rcases hf : pager.bpm.pageFrames pageId with _ | f
    · rw [BufferPoolManager.dirty_of_none hf] at hdirty
      cases hdirty
    · exact ⟨_, BufferPoolManager.content_of_pageFrames hf⟩
  · have hf := h.inv.pageFrames_pageId (List.mem_map_of_mem hpin)
    rw [show pager.bpm.pageId pin.frameId = pageId from hid] at hf
    exact ⟨_, BufferPoolManager.content_of_pageFrames hf⟩

theorem pageFrames_of_content {bpm : BufferPoolManager} {pageId : PageId} {data : PageData}
    (h : bpm.content pageId = some data) : ∃ f, bpm.pageFrames pageId = some f := by
  rcases hf : bpm.pageFrames pageId with _ | f
  · rw [BufferPoolManager.content_eq_none.mpr hf] at h
    cases h
  · exact ⟨f, rfl⟩

/-- A clean page is as it was committed. -/
theorem Inv.activePage_of_clean (h : pager.Inv live) {pageId : PageId}
    (hmem : pageId ∉ pager.transactionState.dirtyPageIds) :
    pager.activePage pageId = pager.committedPage pageId := by
  unfold activePage
  rcases hdata : pager.bpm.content pageId with _ | data
  · rfl
  · rw [((h.pool.cached pageId data hdata).2.resolve_left hmem)]
    rfl

theorem Inv.content_header (h : pager.Inv live) : pager.bpm.content headerPageId = none := by
  rcases hdata : pager.bpm.content headerPageId with _ | data
  · rfl
  · exact absurd rfl (h.pool.cached _ data hdata).1

/-- The pages are those below the page count. -/
theorem Inv.activePage_isSome (h : pager.Inv live) (pageId : PageId) :
    (∃ data, pager.activePage pageId = some data) ↔
      pageId ≠ headerPageId ∧ pageId.toNat < pager.dbHeader.pageCount.toNat := by
  have hcount := h.transaction.pageCount
  by_cases hmem : pageId ∈ pager.transactionState.dirtyPageIds
  · constructor
    · rintro ⟨data, hdata⟩
      have hne : pageId ≠ headerPageId := by
        rintro rfl
        rw [activePage, h.content_header, Option.none_or, committedPage, if_pos rfl] at hdata
        cases hdata
      refine ⟨hne, ?_⟩
      obtain hnew | hold := (h.transaction.dirty_iff pageId).mp hmem
      · exact ((h.transaction.new_iff pageId).mp hnew).2
      · obtain ⟨page, hpage⟩ := Option.isSome_iff_exists.mp (AList.lookup_isSome.mpr hold)
        have := (h.transaction.original pageId page hpage).2.1
        omega
    · rintro ⟨hne, -⟩
      obtain ⟨data, hdata⟩ := h.pool.content_of_dirty hmem hne
      exact ⟨data, by rw [activePage, hdata]; rfl⟩
  · rw [h.activePage_of_clean hmem, committedPage_isSome h.file]
    refine and_congr_right fun _ => ⟨fun hlt => by omega, fun hlt => ?_⟩
    by_contra hge
    exact hmem ((h.transaction.dirty_iff pageId).mpr (.inl
      ((h.transaction.new_iff pageId).mpr ⟨by omega, hlt⟩)))

end Basics

/-! ## Changes to the pool alone -/

section Pool

variable {pager : Pager} {live : List PagePin}

/-- The pager with another pool. -/
def withPool (pager : Pager) (bpm : BufferPoolManager) : Pager := { pager with bpm := bpm }

theorem Inv.withPool (h : pager.Inv live) {bpm : BufferPoolManager} {live' : List PagePin}
    (hpool : (pager.withPool bpm).PoolInv live') : (pager.withPool bpm).Inv live' :=
  ⟨h.isOpen, ⟨h.file.holds, h.file.filePages_le, h.file.stored, h.file.recovered⟩,
    ⟨h.transaction.dbHeader, h.transaction.committedHeader, h.transaction.databaseId,
      h.transaction.pageCount, h.transaction.inactive, h.transaction.dirtyNodup,
      h.transaction.newNodup, h.transaction.dirty_iff, h.transaction.new_iff,
      h.transaction.original, h.transaction.headerClean⟩, hpool⟩

theorem onPool_run {α : Type} {x : Proc Status BufferPoolManager α} {r : Except Status α}
    {bpm : BufferPoolManager} (h : x.run pager.bpm = (r, bpm)) :
    (onPool x).run pager = (r, pager.withPool bpm) := by
  rw [onPool, Proc.zoom_run, h]
  rfl

/-- Only the pages of the pool matter for what can be read. -/
theorem abs_withPool {bpm : BufferPoolManager}
    (h : ∀ pageId, (bpm.content pageId).or (pager.committedPage pageId) =
      pager.activePage pageId) :
    (pager.withPool bpm).abs = pager.abs := by
  have hactive : (pager.withPool bpm).activePage = pager.activePage := funext h
  rw [abs, abs, hactive]
  rfl

end Pool

end Pager

end DanDB.Storage
