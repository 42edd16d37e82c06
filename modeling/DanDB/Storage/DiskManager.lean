import DanDB.Platform.FileHandle
import DanDB.Storage.DatabaseHeader

/-!
# The database file

Page `i` of the database is block `i` of the file, and page 0 is the header.
The disk manager checks each page id against the size of the file, so it never
reads or writes past the end of the file.  A write that fails touches the page
it was for and no other (`writePage_yields`, `writeHeader_yields`).
-/

namespace DanDB.Storage

open Buffer DanDB.Core Platform

structure DiskManager where
  fileHandle : FileHandle
deriving DecidableEq

namespace DiskManager

/-- `std::numeric_limits<std::uint64_t>::max()/core::PAGE_SIZE` -/
def maxPageCount : Nat := (2 ^ 64 - 1) / pageSize

/-- An operation on the file of the disk manager. -/
def onFile {α : Type} (x : Proc Status FileHandle α) : Proc Status DiskManager α :=
  Proc.zoom DiskManager.fileHandle (fun file disk => { disk with fileHandle := file }) x

def size : Proc Status DiskManager Nat := onFile FileHandle.size

def readHeader : Proc Status DiskManager DatabaseHeader := do
  let headerPage ← onFile (FileHandle.readAt 0 pageSize)
  Proc.ofExcept (DatabaseHeader.decode (.ofList headerPage))

def writeHeader (header : DatabaseHeader) : Proc Status DiskManager Unit := do
  let headerPage ← Proc.ofExcept header.encodeInto
  onFile (FileHandle.writeAt 0 headerPage.bytes)

/-- The checks `read_page` and `write_page` share; `verb` is the one word in
which their messages differ. -/
def checkPageId (verb : String) (pageId : PageId) : Proc Status DiskManager Nat := do
  Proc.failIf (pageId.isValid = false)
    (.InvalidArgument s!"Cannot {verb} page: page id is invalid")
  Proc.failIf (pageId = headerPageId)
    (.InvalidArgument s!"Cannot {verb} page: page 0 is the database header")
  Proc.failIf (pageId.toNat > maxPageCount)
    (.InvalidArgument s!"Cannot {verb} page: page id is too large to calculate file offset")
  let offset := pageId.toNat * pageSize
  let fileSize ← size
  Proc.failIf (fileSize < pageSize ∨ offset > fileSize - pageSize)
    (.InvalidArgument s!"Cannot {verb} page: page is outside the file")
  return offset

def readPage (pageId : PageId) : Proc Status DiskManager Page := do
  let offset ← checkPageId "read" pageId
  let bytes ← onFile (FileHandle.readAt offset pageSize)
  return ⟨pageId, .ofList bytes⟩

def writePage (page : Page) : Proc Status DiskManager Unit := do
  let offset ← checkPageId "write" page.id
  onFile (FileHandle.writeAt offset page.data.bytes)

def resizeToPageCount (pageCount : UInt64) : Proc Status DiskManager Unit := do
  Proc.failIf (pageCount < DatabaseHeader.initialDatabasePageCount)
    (.InvalidArgument "Cannot resize database file: page count must include the header page")
  Proc.failIf (pageCount.toNat > maxPageCount)
    (.InvalidArgument "Cannot resize database file: page count is too large to calculate file size")
  let targetSize := pageCount.toNat * pageSize
  let currentSize ← size
  Proc.failIf (currentSize > targetSize)
    (.InternalError "Cannot resize database file: resizing would shrink the database file")
  if currentSize = targetSize then
    return ()
  onFile (FileHandle.resize targetSize)

def sync : Proc Status DiskManager Unit := onFile FileHandle.sync

def close : Proc Status DiskManager Unit := onFile FileHandle.close

/-- `create_new` on a path at which there is no file yet. -/
def createNew (path : String) (header : DatabaseHeader) : Result DiskManager := do
  Core.failIf (header.pageCount.toNat > maxPageCount)
    (.InvalidArgument "Cannot create new database file: page count is too large to calculate file size")
  let resizeValue := header.pageCount.toNat * pageSize
  let create : Proc Status DiskManager DiskManager := do
    onFile (FileHandle.resize resizeValue)
    writeHeader header
    Proc.get
  (create.run ⟨.openOn path []⟩).1

/-- `open_existing` on a file with the given contents. -/
def openExisting (path : String) (bytes : List Byte) : Result DiskManager := do
  let «open» : Proc Status DiskManager DiskManager := do
    let fileSize ← size
    Proc.failIf (fileSize % pageSize ≠ 0)
      (.Corruption "Cannot open existing database file: file size doesn't hold a whole number of pages")
    let header ← readHeader
    let filePageCount := fileSize / pageSize
    Proc.failIf (header.pageCount.toNat > filePageCount)
      (.Corruption "Cannot open existing database file: header page count exceeds file size")
    Proc.get
  («open».run ⟨.openOn path bytes⟩).1

/-! ## The pages of a file -/

/-- Page `i` of the file. -/
def page (disk : DiskManager) (i : Nat) : PageData :=
  .ofList (block pageSize disk.fileHandle.bytes i)

/-- The file is open and holds exactly the given number of pages. -/
structure Holds (disk : DiskManager) (pages : Nat) : Prop where
  isOpen : disk.fileHandle.isOpen = true
  length : disk.fileHandle.bytes.length = pages * pageSize
  pos : 0 < pages
  size : pages * pageSize ≤ FileHandle.maxFileSize

/-- Same handle, same number of pages. -/
structure SameFile (disk disk' : DiskManager) : Prop where
  handle : FileHandle.SameHandle disk.fileHandle disk'.fileHandle
  length : disk'.fileHandle.bytes.length = disk.fileHandle.bytes.length

/-- Same handle, same contents. -/
structure SameBytes (disk disk' : DiskManager) : Prop where
  handle : FileHandle.SameHandle disk.fileHandle disk'.fileHandle
  bytes : disk'.fileHandle.bytes = disk.fileHandle.bytes

theorem SameFile.holds {disk disk' : DiskManager} {pages : Nat} (h : SameFile disk disk')
    (hdisk : disk.Holds pages) : disk'.Holds pages :=
  ⟨h.handle.isOpen.trans hdisk.isOpen, h.length.trans hdisk.length, hdisk.pos, hdisk.size⟩

theorem SameFile.trans {a b c : DiskManager} (h : SameFile a b) (h' : SameFile b c) :
    SameFile a c :=
  ⟨h.handle.trans h'.handle, h'.length.trans h.length⟩

theorem SameFile.refl (disk : DiskManager) : SameFile disk disk := ⟨.refl _, rfl⟩

theorem SameBytes.sameFile {disk disk' : DiskManager} (h : SameBytes disk disk') :
    SameFile disk disk' :=
  ⟨h.handle, congrArg List.length h.bytes⟩

theorem SameBytes.refl (disk : DiskManager) : SameBytes disk disk := ⟨.refl _, rfl⟩

theorem SameBytes.trans {a b c : DiskManager} (h : SameBytes a b) (h' : SameBytes b c) :
    SameBytes a c :=
  ⟨h.handle.trans h'.handle, h'.bytes.trans h.bytes⟩

theorem SameBytes.page {disk disk' : DiskManager} (h : SameBytes disk disk') (i : Nat) :
    disk'.page i = disk.page i := by
  unfold DiskManager.page
  rw [h.bytes]

section Operations

variable {disk : DiskManager} {pages : Nat}

theorem Holds.le_maxPageCount (h : disk.Holds pages) : pages ≤ maxPageCount := by
  have hsize := h.size
  simp only [FileHandle.maxFileSize, maxPageCount, pageSize] at hsize ⊢
  omega

/-- The number of pages of a file. -/
theorem Holds.pages_eq (h : disk.Holds pages) :
    disk.fileHandle.bytes.length / pageSize = pages := by
  rw [h.length, Nat.mul_div_cancel _ (by decide)]

theorem Holds.block_le (h : disk.Holds pages) {i : Nat} (hi : i < pages) :
    (i + 1) * pageSize ≤ disk.fileHandle.bytes.length := by
  rw [h.length]
  exact Nat.mul_le_mul_right pageSize (Nat.succ_le_of_lt hi)

theorem yields_onFile {α : Type} {x : Proc Status FileHandle α}
    {post : Except Status α → FileHandle → Prop} (h : x.Yields disk.fileHandle post) :
    (onFile x).Yields disk fun r disk' => post r disk'.fileHandle := h

theorem size_yields (h : disk.Holds pages) :
    size.Yields disk fun r disk' => r = .ok (pages * pageSize) ∧ disk' = disk := by
  refine (yields_onFile (FileHandle.size_yields h.isOpen)).mono ?_
  rintro r ⟨file⟩ ⟨rfl, rfl⟩
  exact ⟨by rw [h.length], rfl⟩

/-- The answer for a page behind the end of the file. -/
def outsideStatus (verb : String) (pageId : PageId) : Status :=
  if pageId.toNat > maxPageCount then
    .InvalidArgument s!"Cannot {verb} page: page id is too large to calculate file offset"
  else
    .InvalidArgument s!"Cannot {verb} page: page is outside the file"

/-- The check of a page id passes exactly on the pages of the file. -/
theorem checkPageId_yields (h : disk.Holds pages) (verb : String) {pageId : PageId}
    (hvalid : pageId.isValid = true) (hheader : pageId ≠ headerPageId) :
    (checkPageId verb pageId).Yields disk fun r disk' =>
      disk' = disk ∧ (pageId.toNat < pages ∧ r = .ok (pageId.toNat * pageSize) ∨
        pages ≤ pageId.toNat ∧ r = .error (outsideStatus verb pageId)) := by
  have hmax := h.le_maxPageCount
  have hpos := h.pos
  refine Proc.yields_failIf_bind (fun h => by simp [hvalid] at h) fun _ => ?_
  refine Proc.yields_failIf_bind (fun h => absurd h hheader) fun _ => ?_
  refine Proc.yields_failIf_bind
    (fun h => ⟨rfl, .inr ⟨by omega, by rw [outsideStatus, if_pos h]⟩⟩) fun hmaxId => ?_
  refine (size_yields h).bind (fun fileSize disk' hmid => ?_) (fun e disk' hmid => ?_)
  · obtain ⟨hsize, rfl⟩ := hmid
    obtain rfl : fileSize = pages * pageSize := by simpa using hsize
    have hfile : pages * pageSize < pageSize ∨
        pageId.toNat * pageSize > pages * pageSize - pageSize ↔ pages ≤ pageId.toNat := by
      simp only [pageSize]
      omega
    refine Proc.yields_failIf_bind
      (fun h => ⟨rfl, .inr ⟨hfile.mp h, by rw [outsideStatus, if_neg hmaxId]⟩⟩) fun h => ?_
    exact Proc.yields_pure ⟨rfl, .inl ⟨by omega, rfl⟩⟩
  · cases hmid.1

/-- A read returns a page of the file and refuses any other. -/
theorem readPage_yields (h : disk.Holds pages) {pageId : PageId}
    (hvalid : pageId.isValid = true) (hheader : pageId ≠ headerPageId) :
    (readPage pageId).Yields disk fun r disk' =>
      SameBytes disk disk' ∧
        (pageId.toNat < pages ∧ r = .ok ⟨pageId, disk.page pageId.toNat⟩ ∨
          pages ≤ pageId.toNat ∧ r = .error (outsideStatus "read" pageId) ∨
          (∃ e, r = .error e) ∧ disk.fileHandle.faults ≠ []) := by
  refine (checkPageId_yields h "read" hvalid hheader).bind (fun offset disk' hmid => ?_)
    (fun e disk' hmid => ?_)
  · obtain ⟨rfl, ⟨hlt, hoffset⟩ | ⟨_, hoffset⟩⟩ := hmid
    swap
    · cases hoffset
    obtain rfl : offset = pageId.toNat * pageSize := by simpa using hoffset
    have hbound := h.block_le hlt
    rw [Nat.succ_mul] at hbound
    have hread := FileHandle.readAt_yields h.isOpen (n := pageSize) (by decide) hbound
    refine (yields_onFile hread).bind (fun bytes disk'' hmid => ?_) (fun e disk'' hmid => ?_)
    · obtain ⟨hhandle, hbytes, hr⟩ := hmid
      refine Proc.yields_pure ⟨⟨hhandle, hbytes⟩, .inl ⟨hlt, ?_⟩⟩
      obtain hr | ⟨_, _, hr⟩ := hr
      · cases hr
        rfl
      · cases hr
    · obtain ⟨hhandle, hbytes, hr | ⟨hfaults, _⟩⟩ := hmid
      · cases hr
      · exact ⟨⟨hhandle, hbytes⟩, .inr (.inr ⟨⟨e, rfl⟩, hfaults⟩)⟩
  · obtain ⟨rfl, ⟨_, hr⟩ | ⟨hge, hr⟩⟩ := hmid
    · cases hr
    · cases hr
      exact ⟨.refl _, .inr (.inl ⟨hge, rfl⟩)⟩

/-- Block `i` of the file after a write to it.  The other blocks are as they
were, and a write that does not stop half way leaves the old block or the new. -/
structure BlockWritten (disk disk' : DiskManager) (i : Nat) (data : PageData) : Prop where
  sameFile : SameFile disk disk'
  other : ∀ j, j ≠ i → disk'.page j = disk.page j
  same : disk.fileHandle.AtomicWrites → disk'.page i = disk.page i ∨ disk'.page i = data

theorem page_splice {bytes : List Byte} {i : Nat} {data : PageData}
    (hbytes : disk.fileHandle.bytes = splice bytes (i * pageSize) data.bytes)
    (hlen : (i + 1) * pageSize ≤ bytes.length) : disk.page i = data := by
  unfold page
  rw [hbytes, block_splice_same data.size_eq hlen, Bytes.ofList_bytes]

/-- A write of one block. -/
theorem writeBlock_yields (h : disk.Holds pages) {i : Nat} (hi : i < pages) (data : PageData) :
    (onFile (FileHandle.writeAt (i * pageSize) data.bytes)).Yields disk fun r disk' =>
      BlockWritten disk disk' i data ∧
        (r = .ok () ∧ disk'.page i = data ∨
          (∃ e, r = .error e) ∧ disk.fileHandle.faults ≠ []) := by
  have hlen := h.block_le hi
  have hne : data.bytes ≠ [] := by
    rw [ne_eq, ← List.length_eq_zero_iff, data.size_eq]
    decide
  have hext (n : Nat) : extend 0 disk.fileHandle.bytes (i * pageSize) (data.bytes.take n) =
      splice disk.fileHandle.bytes (i * pageSize) (data.bytes.take n) := by
    refine extend_of_le 0 ?_
    rw [Nat.succ_mul] at hlen
    have := List.length_take_le' n data.bytes
    rw [data.size_eq] at this
    omega
  have hfull : extend 0 disk.fileHandle.bytes (i * pageSize) data.bytes =
      splice disk.fileHandle.bytes (i * pageSize) data.bytes := by
    have := hext data.bytes.length
    rwa [List.take_length] at this
  refine (yields_onFile (FileHandle.writeAt_yields h.isOpen (i * pageSize) data.bytes
    hne)).mono ?_
  rintro r ⟨file⟩ ⟨hsame, hr⟩
  -- whatever the write left, it is a splice of some first bytes of the data
  have hwritten (d : List Byte) (hd : d.length ≤ pageSize)
      (hbytes : file.bytes = splice disk.fileHandle.bytes (i * pageSize) d) :
      SameFile disk ⟨file⟩ ∧ ∀ j, j ≠ i → (⟨file⟩ : DiskManager).page j = disk.page j := by
    rw [Nat.succ_mul] at hlen
    refine ⟨⟨hsame, ?_⟩, fun j hj => ?_⟩
    · rw [hbytes, length_splice (by omega)]
    · unfold page
      rw [hbytes, block_splice_ne hd (by rw [Nat.succ_mul]; exact hlen) hj]
  have hall := hwritten data.bytes data.size_eq.le
  obtain ⟨rfl, hbytes⟩ | ⟨he, hfaults, hbytes | hbytes | ⟨htorn, n, hbytes⟩⟩ := hr
  · rw [hfull] at hbytes
    obtain ⟨hfile, hother⟩ := hall hbytes
    have hpage : (⟨file⟩ : DiskManager).page i = data := page_splice hbytes hlen
    exact ⟨⟨hfile, hother, fun _ => .inr hpage⟩, .inl ⟨rfl, hpage⟩⟩
  · have hsameBytes : SameBytes disk ⟨file⟩ := ⟨hsame, hbytes⟩
    have hpage := hsameBytes.page
    exact ⟨⟨⟨hsame, congrArg List.length hbytes⟩, fun j _ => hpage j, fun _ => .inl (hpage i)⟩,
      .inr ⟨he, hfaults⟩⟩
  · rw [hfull] at hbytes
    obtain ⟨hfile, hother⟩ := hall hbytes
    have hpage : (⟨file⟩ : DiskManager).page i = data := page_splice hbytes hlen
    exact ⟨⟨hfile, hother, fun _ => .inr hpage⟩, .inr ⟨he, hfaults⟩⟩
  · rw [hext] at hbytes
    have hn := List.length_take_le' n data.bytes
    rw [data.size_eq] at hn
    obtain ⟨hfile, hother⟩ := hwritten _ hn hbytes
    exact ⟨⟨hfile, hother, fun ha => absurd ha htorn⟩, .inr ⟨he, hfaults⟩⟩

/-- A write of a page of the file. -/
theorem writePage_yields (h : disk.Holds pages) {page : Page} (hvalid : page.id.isValid = true)
    (hheader : page.id ≠ headerPageId) (hlt : page.id.toNat < pages) :
    (writePage page).Yields disk fun r disk' =>
      BlockWritten disk disk' page.id.toNat page.data ∧
        (r = .ok () ∧ disk'.page page.id.toNat = page.data ∨
          (∃ e, r = .error e) ∧ disk.fileHandle.faults ≠ []) := by
  refine (checkPageId_yields h "write" hvalid hheader).bind (fun offset disk' hmid => ?_)
    (fun e disk' hmid => ?_)
  · obtain ⟨rfl, ⟨_, hoffset⟩ | ⟨hge, _⟩⟩ := hmid
    · obtain rfl : offset = page.id.toNat * pageSize := by simpa using hoffset
      exact writeBlock_yields h hlt page.data
    · omega
  · obtain ⟨-, ⟨_, hr⟩ | ⟨hge, _⟩⟩ := hmid
    · cases hr
    · omega

/-- A write of the header that can be encoded. -/
theorem writeHeader_yields (h : disk.Holds pages) {header : DatabaseHeader}
    (hvalid : header.Valid) :
    (writeHeader header).Yields disk fun r disk' =>
      BlockWritten disk disk' 0 header.image ∧
        (r = .ok () ∧ disk'.page 0 = header.image ∨
          (∃ e, r = .error e) ∧ disk.fileHandle.faults ≠ []) := by
  refine Proc.yields_ofExcept_bind (fun e he => ?_) fun image himage => ?_
  · rw [hvalid.encodeInto] at he
    cases he
  · rw [hvalid.encodeInto] at himage
    obtain rfl : header.image = image := by simpa using himage
    have hwrite := writeBlock_yields h h.pos header.image
    rwa [Nat.zero_mul] at hwrite

theorem sync_yields (h : disk.Holds pages) :
    sync.Yields disk fun r disk' =>
      SameBytes disk disk' ∧ (r = .ok () ∨ (∃ e, r = .error e) ∧ disk.fileHandle.faults ≠ []) := by
  refine (yields_onFile (FileHandle.sync_yields h.isOpen)).mono ?_
  rintro r disk' ⟨hsame, hbytes, hr⟩
  exact ⟨⟨hsame, hbytes⟩, hr.imp_right And.symm⟩

/-- The file after a resize from `pages` to `pages'` pages. -/
structure Resized (disk disk' : DiskManager) (pages pages' : Nat) : Prop where
  handle : FileHandle.SameHandle disk.fileHandle disk'.fileHandle
  holds : disk'.Holds pages'
  le : pages ≤ pages'
  page : ∀ j, j < pages → disk'.page j = disk.page j

theorem Resized.of_sameBytes (h : disk.Holds pages) {disk' : DiskManager}
    (hsame : SameBytes disk disk') : Resized disk disk' pages pages :=
  ⟨hsame.handle, hsame.sameFile.holds h, le_refl _, fun j _ => hsame.page j⟩

/-- A resize to at least the present number of pages never asks to shrink the
file.  It succeeds on a disk that does not fail, unless no file is that large. -/
theorem resizeToPageCount_yields (h : disk.Holds pages) {pageCount : UInt64}
    (hle : pages ≤ pageCount.toNat) :
    (resizeToPageCount pageCount).Yields disk fun r disk' =>
      ∃ pages', Resized disk disk' pages pages' ∧
        (SameBytes disk disk' ∧ pages' = pages ∨ pages' = pageCount.toNat) ∧
        (r = .ok () ∧ pages' = pageCount.toNat ∨
          (∃ e, r = .error e) ∧ (disk.fileHandle.faults ≠ [] ∨
            pageCount.toNat * pageSize > FileHandle.maxFileSize)) := by
  have hpos := h.pos
  have hmax : pageCount.toNat > maxPageCount →
      pageCount.toNat * pageSize > FileHandle.maxFileSize := by
    simp only [maxPageCount, pageSize, FileHandle.maxFileSize]
    omega
  refine Proc.yields_failIf_bind (fun hlt => ?_) fun _ => ?_
  · have : pageCount.toNat < 1 := UInt64.lt_iff_toNat_lt.mp hlt
    omega
  refine Proc.yields_failIf_bind (fun hgt => ⟨pages, .of_sameBytes h (.refl disk), .inl ⟨.refl disk, rfl⟩,
    .inr ⟨⟨_, rfl⟩, .inr (hmax hgt)⟩⟩) fun _ => ?_
  refine (size_yields h).bind (fun currentSize disk' hmid => ?_) (fun e disk' hmid => ?_)
  · obtain ⟨hsize, rfl⟩ := hmid
    obtain rfl : currentSize = pages * pageSize := by simpa using hsize
    have hstep := Nat.mul_le_mul_right pageSize hle
    refine Proc.yields_failIf_bind (fun hgt => absurd hgt (by omega)) fun _ => ?_
    split
    · rename_i heq
      have hpages : pages = pageCount.toNat := Nat.eq_of_mul_eq_mul_right (by decide) heq
      exact Proc.yields_pure ⟨pages, .of_sameBytes h (.refl _), .inr hpages, .inl ⟨rfl, hpages⟩⟩
    refine (yields_onFile (FileHandle.resize_yields h.isOpen
      (pageCount.toNat * pageSize))).mono ?_
    rintro r disk'' ⟨hhandle, hr⟩
    -- the file as the resize leaves it when it has an effect
    have hgrown (hfit : pageCount.toNat * pageSize ≤ FileHandle.maxFileSize)
        (hbytes : disk''.fileHandle.bytes =
          Buffer.resize 0 disk'.fileHandle.bytes (pageCount.toNat * pageSize)) :
        Resized disk' disk'' pages pageCount.toNat := by
      refine ⟨hhandle, ⟨hhandle.isOpen.trans h.isOpen, ?_, by omega, hfit⟩, hle, fun j hj => ?_⟩
      · rw [hbytes, length_resize]
      · have hj' := Nat.mul_le_mul_right pageSize (Nat.succ_le_of_lt (Nat.lt_of_lt_of_le hj hle))
        unfold DiskManager.page
        rw [hbytes, block_resize 0 (h.block_le hj) hj']
    obtain ⟨rfl, hfit, hbytes⟩ | ⟨he, hwhy, hbytes⟩ := hr
    · exact ⟨_, hgrown hfit hbytes, .inr rfl, .inl ⟨rfl, rfl⟩⟩
    obtain hbytes | ⟨hfit, hbytes⟩ := hbytes
    · exact ⟨pages, .of_sameBytes h ⟨hhandle, hbytes⟩, .inl ⟨⟨hhandle, hbytes⟩, rfl⟩,
        .inr ⟨he, hwhy⟩⟩
    · exact ⟨_, hgrown hfit hbytes, .inr rfl, .inr ⟨he, hwhy⟩⟩
  · cases hmid.1

/-- The header of a file that starts with the image of one. -/
theorem readHeader_yields (h : disk.Holds pages) {header : DatabaseHeader} (hvalid : header.Valid)
    (hpage : disk.page 0 = header.image) :
    readHeader.Yields disk fun r disk' =>
      SameBytes disk disk' ∧
        (r = .ok header ∨ (∃ e, r = .error e) ∧ disk.fileHandle.faults ≠ []) := by
  have hbound := h.block_le h.pos
  have hread : (FileHandle.readAt 0 pageSize).Yields disk.fileHandle _ :=
    FileHandle.readAt_yields h.isOpen (by decide) (by omega)
  have hslice : (Bytes.ofList (slice disk.fileHandle.bytes 0 pageSize) : PageData) =
      header.image := by
    rw [← hpage, page, block, Nat.zero_mul]
  refine (yields_onFile hread).bind (fun bytes disk' hmid => ?_) (fun e disk' hmid => ?_)
  · obtain ⟨hhandle, hbytes, hr | ⟨_, _, hr⟩⟩ := hmid
    · cases hr
      rw [hslice, DatabaseHeader.decode_image hvalid]
      exact ⟨⟨hhandle, hbytes⟩, .inl rfl⟩
    · cases hr
  · obtain ⟨hhandle, hbytes, hr | ⟨hfaults, _⟩⟩ := hmid
    · cases hr
    · exact ⟨⟨hhandle, hbytes⟩, .inr ⟨⟨e, rfl⟩, hfaults⟩⟩

/-- A file of whole pages with a header opens. -/
theorem openExisting_eq (path : String) {bytes : List Byte}
    (h : DiskManager.Holds ⟨.openOn path bytes⟩ pages) {header : DatabaseHeader}
    (hvalid : header.Valid) (hpage : page ⟨.openOn path bytes⟩ 0 = header.image)
    (hcount : header.pageCount.toNat ≤ pages) :
    ∃ disk, openExisting path bytes = .ok disk ∧ SameBytes ⟨.openOn path bytes⟩ disk := by
  have hopen : (do
      let fileSize ← size
      Proc.failIf (fileSize % pageSize ≠ 0)
        (.Corruption "Cannot open existing database file: file size doesn't hold a whole number of pages")
      let header ← readHeader
      let filePageCount := fileSize / pageSize
      Proc.failIf (header.pageCount.toNat > filePageCount)
        (.Corruption "Cannot open existing database file: header page count exceeds file size")
      Proc.get : Proc Status DiskManager DiskManager).Yields ⟨.openOn path bytes⟩ fun r _ =>
        ∃ disk, r = .ok disk ∧ SameBytes ⟨.openOn path bytes⟩ disk := by
    refine (size_yields h).bind (fun fileSize disk hmid => ?_) (fun e disk hmid => by cases hmid.1)
    obtain ⟨hsize, rfl⟩ := hmid
    obtain rfl : fileSize = pages * pageSize := by simpa using hsize
    refine Proc.yields_failIf_bind (fun hmod => absurd (Nat.mul_mod_left _ _) hmod) fun _ => ?_
    refine (readHeader_yields h hvalid hpage).bind (fun read disk hmid => ?_)
      (fun e disk hmid => ?_)
    · obtain ⟨hsame, hr | ⟨⟨_, hr⟩, -⟩⟩ := hmid
      · cases hr
        have hdiv : pages * pageSize / pageSize = pages := Nat.mul_div_cancel _ (by decide)
        refine Proc.yields_failIf_bind (fun hgt => ?_) fun _ => ⟨disk, rfl, hsame⟩
        rw [hdiv] at hgt
        omega
      · cases hr
    · obtain ⟨-, hr | ⟨-, hfaults⟩⟩ := hmid
      · cases hr
      · exact absurd rfl hfaults
  exact hopen

/-- A new file holds the header and nothing else. -/
theorem createNew_eq (path : String) {header : DatabaseHeader} (hvalid : header.Valid)
    (hcount : header.pageCount = DatabaseHeader.initialDatabasePageCount) :
    ∃ disk, createNew path header = .ok disk ∧ disk.Holds 1 ∧ disk.page 0 = header.image ∧
      disk.fileHandle.faults = [] := by
  have hone : header.pageCount.toNat = 1 := by rw [hcount]; rfl
  have hcreate : (do
      onFile (FileHandle.resize (header.pageCount.toNat * pageSize))
      writeHeader header
      Proc.get : Proc Status DiskManager DiskManager).Yields ⟨.openOn path []⟩ fun r _ =>
        ∃ disk, r = .ok disk ∧ disk.Holds 1 ∧ disk.page 0 = header.image ∧
          disk.fileHandle.faults = [] := by
    rw [hone, Nat.one_mul]
    have hnofaults {file : FileHandle} (h : FileHandle.SameHandle (.openOn path []) file) :
        file.faults = [] := h.faults_nil rfl
    refine (yields_onFile (FileHandle.resize_yields rfl pageSize)).bind (fun _ disk hmid => ?_)
      fun e disk hmid => ?_
    · obtain ⟨hhandle, ⟨-, hfit, hbytes⟩ | ⟨⟨_, hr⟩, -⟩⟩ := hmid
      swap
      · cases hr
      have hholds : disk.Holds 1 :=
        ⟨hhandle.isOpen, by rw [hbytes, length_resize, Nat.one_mul], Nat.one_pos, by
          rwa [Nat.one_mul]⟩
      refine (writeHeader_yields hholds hvalid).bind (fun _ disk' hmid => ?_) fun e disk' hmid => ?_
      · obtain ⟨hwritten, ⟨-, hpage⟩ | ⟨⟨_, hr⟩, -⟩⟩ := hmid
        · exact ⟨disk', rfl, hwritten.sameFile.holds hholds, hpage,
            hwritten.sameFile.handle.faults_nil (hnofaults hhandle)⟩
        · cases hr
      · obtain ⟨-, ⟨hr, -⟩ | ⟨-, hfaults⟩⟩ := hmid
        · cases hr
        · exact absurd (hnofaults hhandle) hfaults
    · obtain ⟨-, ⟨hr, -⟩ | ⟨-, hfaults | hbig, -⟩⟩ := hmid
      · cases hr
      · exact absurd rfl hfaults
      · exact absurd hbig (by decide)
  obtain ⟨disk, hdisk, hrest⟩ := hcreate
  refine ⟨disk, ?_, hrest⟩
  rw [createNew, Core.failIf_of_not (by rw [hone]; decide), ok_bind]
  exact hdisk

end Operations

end DiskManager

end DanDB.Storage
