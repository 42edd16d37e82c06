import DanDB.Storage.Page

/-!
# The database header

Page 0 of a database file.  `encodeInto` and `decode` carry each their own list
of checks; a header passes the first exactly when it passes the second
(`encodeInto_ok_iff`, `decode_encodeInto`), so a header that was written can
always be read back.
-/

namespace DanDB.Storage

open Buffer DanDB.Core

/-- The fields of the database header. -/
structure DatabaseHeader where
  databaseId : UInt64
  pageCount : UInt64
  systemTablesRootPageId : PageId
  systemColumnsRootPageId : PageId
  systemIndexesRootPageId : PageId
  systemIndexColumnsRootPageId : PageId
deriving DecidableEq

namespace DatabaseHeader

def databaseMagicBytes : List Byte := [68, 68, 66, 49]
def databaseFormatVersion : UInt32 := 2
def databaseHeaderSize : UInt32 := 128
def databaseHeaderReservedBytesSize : Nat := 56
def initialDatabasePageCount : UInt64 := 1

def magicBytesOffset : Nat := 0
def formatVersionOffset : Nat := 4
def pageSizeOffset : Nat := 8
def headerSizeOffset : Nat := 12
def idOffset : Nat := 16
def pageCountOffset : Nat := 24
def systemTablesRootPageIdOffset : Nat := 32
def systemColumnsRootPageIdOffset : Nat := 40
def systemIndexesRootPageIdOffset : Nat := 48
def systemIndexColumnsRootPageIdOffset : Nat := 56
def reservedBytesOffset : Nat := 64
def checksumOffset : Nat := 120

/-- `root_page_id_is_valid` -/
def rootPageIdIsValid (pageId : PageId) (pageCount : UInt64) : Bool :=
  pageId == invalidPageId || (pageId ≥ firstAllocatablePageId && pageId < pageCount)

/-- One of the four root ids, read and checked. -/
def decodeRoot (page : PageData) (offset : Nat) (pageCount : UInt64) (name : String) :
    Result PageId := do
  let root ← readU64Le page.bytes offset
  failIf (rootPageIdIsValid root pageCount = false)
    (.Corruption s!"Cannot decode database header: {name} root page id is outside database page range")
  return root

def decode (page : PageData) : Result DatabaseHeader := do
  failIf (page.slice magicBytesOffset 4 ≠ databaseMagicBytes)
    (.Corruption "Cannot decode database header: magic bytes are invalid")
  let version ← readU32Le page.bytes formatVersionOffset
  failIf (version ≠ databaseFormatVersion)
    (.Corruption "Cannot decode database header: unsupported database format version")
  let storedPageSize ← readU32Le page.bytes pageSizeOffset
  failIf (storedPageSize.toNat ≠ pageSize)
    (.Corruption "Cannot decode database header: database header has unsupported page size")
  let storedHeaderSize ← readU32Le page.bytes headerSizeOffset
  failIf (storedHeaderSize ≠ databaseHeaderSize)
    (.Corruption "Cannot decode database header: database header has unsupported size")
  let databaseId ← readU64Le page.bytes idOffset
  let pageCount ← readU64Le page.bytes pageCountOffset
  failIf (pageCount = 0)
    (.Corruption "Cannot decode database header: page count cannot be zero")
  let tables ← decodeRoot page systemTablesRootPageIdOffset pageCount "system tables"
  let columns ← decodeRoot page systemColumnsRootPageIdOffset pageCount "system columns"
  let indexes ← decodeRoot page systemIndexesRootPageIdOffset pageCount "system indexes"
  let indexColumns ←
    decodeRoot page systemIndexColumnsRootPageIdOffset pageCount "system index columns"
  failIf (bytesAreZero (page.slice reservedBytesOffset databaseHeaderReservedBytesSize) = false)
    (.Corruption "Cannot decode database header: some reserved bytes are non-zero")
  let storedChecksum ← readU64Le page.bytes checksumOffset
  failIf (storedChecksum ≠ checksum (page.slice 0 checksumOffset))
    (.Corruption "Cannot decode database header: stored checksum and actual checksum differ")
  return ⟨databaseId, pageCount, tables, columns, indexes, indexColumns⟩

def createNew (databaseId : UInt64) : DatabaseHeader :=
  ⟨databaseId, initialDatabasePageCount, invalidPageId, invalidPageId, invalidPageId,
    invalidPageId⟩

/-- The four setters of the root ids. -/
def withRoots (header : DatabaseHeader) (tables columns indexes indexColumns : PageId) :
    DatabaseHeader :=
  { header with
    systemTablesRootPageId := tables
    systemColumnsRootPageId := columns
    systemIndexesRootPageId := indexes
    systemIndexColumnsRootPageId := indexColumns }

/-- The first `checksumOffset` bytes the encoder writes, in a page of zeros. -/
def imageBody (header : DatabaseHeader) : PageData :=
  (Bytes.zero : PageData)
    |>.put magicBytesOffset databaseMagicBytes
    |>.put formatVersionOffset (leBytes 4 databaseFormatVersion.toNat)
    |>.put pageSizeOffset (leBytes 4 pageSize)
    |>.put headerSizeOffset (leBytes 4 databaseHeaderSize.toNat)
    |>.put idOffset (leBytes 8 header.databaseId.toNat)
    |>.put pageCountOffset (leBytes 8 header.pageCount.toNat)
    |>.put systemTablesRootPageIdOffset (leBytes 8 header.systemTablesRootPageId.toNat)
    |>.put systemColumnsRootPageIdOffset (leBytes 8 header.systemColumnsRootPageId.toNat)
    |>.put systemIndexesRootPageIdOffset (leBytes 8 header.systemIndexesRootPageId.toNat)
    |>.put systemIndexColumnsRootPageIdOffset
      (leBytes 8 header.systemIndexColumnsRootPageId.toNat)

/-- The page the encoder leaves: the fields followed by their checksum. -/
def image (header : DatabaseHeader) : PageData :=
  header.imageBody.put checksumOffset
    (leBytes 8 (checksum (header.imageBody.slice 0 checksumOffset)).toNat)

/-- The check of one root id before it is written. -/
def checkRoot (header : DatabaseHeader) (root : PageId) (name : String) : Result Unit :=
  failIf (rootPageIdIsValid root header.pageCount = false)
    (.InvalidArgument s!"Cannot encode database header: {name} root page id is outside database page range")

/-- `encode_into` on a page-sized buffer.  On an error the callers drop the
buffer, so only the finished image is modelled. -/
def encodeInto (header : DatabaseHeader) : Result PageData := do
  failIf (header.pageCount = 0)
    (.InvalidArgument "Cannot encode database header: page count cannot be zero")
  header.checkRoot header.systemTablesRootPageId "system tables"
  header.checkRoot header.systemColumnsRootPageId "system columns"
  header.checkRoot header.systemIndexesRootPageId "system indexes"
  header.checkRoot header.systemIndexColumnsRootPageId "system index columns"
  return header.image

/-! ## What can be encoded -/

/-- The condition both lists of checks come to. -/
structure Valid (header : DatabaseHeader) : Prop where
  pageCount : header.pageCount ≠ 0
  tables : rootPageIdIsValid header.systemTablesRootPageId header.pageCount = true
  columns : rootPageIdIsValid header.systemColumnsRootPageId header.pageCount = true
  indexes : rootPageIdIsValid header.systemIndexesRootPageId header.pageCount = true
  indexColumns : rootPageIdIsValid header.systemIndexColumnsRootPageId header.pageCount = true

instance (header : DatabaseHeader) : Decidable header.Valid :=
  decidable_of_iff (header.pageCount ≠ 0 ∧
      rootPageIdIsValid header.systemTablesRootPageId header.pageCount = true ∧
      rootPageIdIsValid header.systemColumnsRootPageId header.pageCount = true ∧
      rootPageIdIsValid header.systemIndexesRootPageId header.pageCount = true ∧
      rootPageIdIsValid header.systemIndexColumnsRootPageId header.pageCount = true)
    ⟨fun ⟨h0, h1, h2, h3, h4⟩ => ⟨h0, h1, h2, h3, h4⟩,
      fun ⟨h0, h1, h2, h3, h4⟩ => ⟨h0, h1, h2, h3, h4⟩⟩

theorem encodeInto_eq_ok {header : DatabaseHeader} {page : PageData} :
    header.encodeInto = .ok page ↔ header.Valid ∧ header.image = page := by
  simp only [encodeInto, checkRoot, bind_eq_ok, failIf_eq_ok, pure_eq_ok, exists_const,
    Bool.not_eq_false, Except.ok.injEq]
  constructor
  · rintro ⟨h0, h1, h2, h3, h4, h⟩
    exact ⟨⟨h0, h1, h2, h3, h4⟩, h⟩
  · rintro ⟨⟨h0, h1, h2, h3, h4⟩, h⟩
    exact ⟨h0, h1, h2, h3, h4, h⟩

theorem Valid.encodeInto {header : DatabaseHeader} (h : header.Valid) :
    header.encodeInto = .ok header.image :=
  encodeInto_eq_ok.mpr ⟨h, rfl⟩

theorem createNew_valid (databaseId : UInt64) : (createNew databaseId).Valid :=
  ⟨by simp [createNew, initialDatabasePageCount], rfl, rfl, rfl, rfl⟩

/-! ## Reading an image back -/

section Image

variable (header : DatabaseHeader)

/-- A field of the body, read from the finished image. -/
theorem slice_image {off len : Nat} (h : off + len ≤ checksumOffset) :
    header.image.slice off len = header.imageBody.slice off len :=
  Bytes.slice_put_before _ h

theorem slice_image_checksum :
    header.image.slice checksumOffset 8 =
      leBytes 8 (checksum (header.imageBody.slice 0 checksumOffset)).toNat :=
  Bytes.slice_put_same _ (by rw [length_leBytes]; decide) (by rw [length_leBytes])

/-- The bytes at each field of the body. -/
theorem slice_imageBody :
    header.imageBody.slice magicBytesOffset 4 = databaseMagicBytes ∧
    header.imageBody.slice formatVersionOffset 4 = leBytes 4 databaseFormatVersion.toNat ∧
    header.imageBody.slice pageSizeOffset 4 = leBytes 4 pageSize ∧
    header.imageBody.slice headerSizeOffset 4 = leBytes 4 databaseHeaderSize.toNat ∧
    header.imageBody.slice idOffset 8 = leBytes 8 header.databaseId.toNat ∧
    header.imageBody.slice pageCountOffset 8 = leBytes 8 header.pageCount.toNat ∧
    header.imageBody.slice systemTablesRootPageIdOffset 8 =
      leBytes 8 header.systemTablesRootPageId.toNat ∧
    header.imageBody.slice systemColumnsRootPageIdOffset 8 =
      leBytes 8 header.systemColumnsRootPageId.toNat ∧
    header.imageBody.slice systemIndexesRootPageIdOffset 8 =
      leBytes 8 header.systemIndexesRootPageId.toNat ∧
    header.imageBody.slice systemIndexColumnsRootPageIdOffset 8 =
      leBytes 8 header.systemIndexColumnsRootPageId.toNat ∧
    header.imageBody.slice reservedBytesOffset databaseHeaderReservedBytesSize =
      List.replicate databaseHeaderReservedBytesSize 0 := by
  have magic_same : ((Bytes.zero : PageData).put 0 databaseMagicBytes).slice 0 4 = databaseMagicBytes :=
    Bytes.slice_put_same _ (by simp [databaseMagicBytes, pageSize]) rfl
  have magic_after : ((Bytes.zero : PageData).put 0 databaseMagicBytes).slice 64 56 =
      List.replicate 56 0 := by
    rw [Bytes.slice_put_after _ (by simp [databaseMagicBytes]),
      Bytes.slice_zero (by simp [pageSize])]
  refine ⟨?_, ?_, ?_, ?_, ?_, ?_, ?_, ?_, ?_, ?_, ?_⟩ <;>
    simp only [imageBody, magicBytesOffset, formatVersionOffset, pageSizeOffset,
      headerSizeOffset, idOffset, pageCountOffset, systemTablesRootPageIdOffset,
      systemColumnsRootPageIdOffset, systemIndexesRootPageIdOffset,
      systemIndexColumnsRootPageIdOffset, reservedBytesOffset,
      databaseHeaderReservedBytesSize] <;>
    simp (disch := first | omega | (unfold pageSize; omega)) only [Bytes.slice_putLe_before, Bytes.slice_putLe_same,
      Bytes.slice_putLe_after, magic_same, magic_after]

end Image

/-- A 32-bit field of the body, read from the image. -/
theorem readU32Le_image {header : DatabaseHeader} {off : Nat} {v : UInt32} (hb : off + 4 ≤ 120)
    (hv : header.imageBody.slice off 4 = leBytes 4 v.toNat) :
    readU32Le header.image.bytes off = .ok v :=
  header.image.readU32Le_eq (Nat.le_trans hb (by decide)) ((header.slice_image hb).trans hv)

/-- A 64-bit field of the body, read from the image. -/
theorem readU64Le_image {header : DatabaseHeader} {off : Nat} {v : UInt64} (hb : off + 8 ≤ 120)
    (hv : header.imageBody.slice off 8 = leBytes 8 v.toNat) :
    readU64Le header.image.bytes off = .ok v :=
  header.image.readU64Le_eq (Nat.le_trans hb (by decide)) ((header.slice_image hb).trans hv)

theorem readU64Le_image_checksum (header : DatabaseHeader) :
    readU64Le header.image.bytes checksumOffset =
      .ok (checksum (header.image.slice 0 checksumOffset)) := by
  rw [header.slice_image (Nat.zero_add _).le]
  exact header.image.readU64Le_eq (by decide) header.slice_image_checksum

theorem bytesAreZero_image (header : DatabaseHeader) :
    bytesAreZero (header.image.slice reservedBytesOffset databaseHeaderReservedBytesSize) =
      true := by
  obtain ⟨-, -, -, -, -, -, -, -, -, -, hres⟩ := header.slice_imageBody
  rw [header.slice_image (by decide), hres, bytesAreZero_iff, List.length_replicate]

/-- What was encoded can be decoded. -/
theorem decode_image {header : DatabaseHeader} (h : header.Valid) :
    decode header.image = .ok header := by
  obtain ⟨hmagic, hver, hps, hhs, hid, hpc, h1, h2, h3, h4, -⟩ := header.slice_imageBody
  have imagic := (header.slice_image (by decide)).trans hmagic
  have iver := readU32Le_image (by decide) hver
  have hsz : pageSize = (4096 : UInt32).toNat := by decide
  have ips := readU32Le_image (by decide) (hps.trans (congrArg (leBytes 4) hsz))
  have ihs := readU32Le_image (by decide) hhs
  have iid := readU64Le_image (by decide) hid
  have ipc := readU64Le_image (by decide) hpc
  have i1 := readU64Le_image (by decide) h1
  have i2 := readU64Le_image (by decide) h2
  have i3 := readU64Le_image (by decide) h3
  have i4 := readU64Le_image (by decide) h4
  have ires := header.bytesAreZero_image
  have ick := header.readU64Le_image_checksum
  generalize header.image = page at ick ires imagic iver ips ihs iid ipc i1 i2 i3 i4 ⊢
  have root {off : Nat} {id : PageId} {name : String}
      (hread : readU64Le page.bytes off = .ok id)
      (hid : rootPageIdIsValid id header.pageCount = true) :
      decodeRoot page off header.pageCount name = .ok id := by
    rw [decodeRoot, hread, ok_bind, failIf_of_not (by rw [hid]; decide), ok_bind, pure_eq_ok]
  rw [decode, failIf_of_not (not_not_intro imagic), ok_bind, iver, ok_bind,
    failIf_of_not (not_not_intro rfl), ok_bind, ips, ok_bind,
    failIf_of_not (not_not_intro hsz.symm), ok_bind, ihs, ok_bind,
    failIf_of_not (not_not_intro rfl), ok_bind, iid, ok_bind, ipc, ok_bind,
    failIf_of_not h.pageCount, ok_bind, root i1 h.tables, ok_bind, root i2 h.columns, ok_bind,
    root i3 h.indexes, ok_bind, root i4 h.indexColumns, ok_bind,
    failIf_of_not (by rw [ires]; decide), ok_bind, ick, ok_bind,
    failIf_of_not (not_not_intro rfl), ok_bind, pure_eq_ok]

/-! ## What can be decoded -/

section Decode

variable {page : PageData} {header : DatabaseHeader}

theorem decodeRoot_eq_ok {offset : Nat} {pageCount : UInt64} {name : String} {root : PageId} :
    decodeRoot page offset pageCount name = .ok root ↔
      readU64Le page.bytes offset = .ok root ∧ rootPageIdIsValid root pageCount = true := by
  simp only [decodeRoot, bind_eq_ok, failIf_eq_ok, Bool.not_eq_false, pure_eq_ok,
    Except.ok.injEq]
  constructor
  · rintro ⟨_, hread, _, hvalid, rfl⟩
    exact ⟨hread, hvalid⟩
  · rintro ⟨hread, hvalid⟩
    exact ⟨root, hread, (), hvalid, rfl⟩

/-- A page that decodes is the image of a header that can be encoded, as far as
the header reaches. -/
theorem of_decode (h : decode page = .ok header) : header.Valid ∧
    page.slice 0 databaseHeaderSize.toNat = header.image.slice 0 databaseHeaderSize.toNat := by
  obtain ⟨_, hmagic, h⟩ := bind_eq_ok.mp h
  obtain ⟨version, hversion, h⟩ := bind_eq_ok.mp h
  obtain ⟨_, hisVersion, h⟩ := bind_eq_ok.mp h
  obtain ⟨storedPageSize, hpages, h⟩ := bind_eq_ok.mp h
  obtain ⟨_, hisPages, h⟩ := bind_eq_ok.mp h
  obtain ⟨storedHeaderSize, hsize, h⟩ := bind_eq_ok.mp h
  obtain ⟨_, hisSize, h⟩ := bind_eq_ok.mp h
  obtain ⟨databaseId, hid, h⟩ := bind_eq_ok.mp h
  obtain ⟨pageCount, hcount, h⟩ := bind_eq_ok.mp h
  obtain ⟨_, hpositive, h⟩ := bind_eq_ok.mp h
  obtain ⟨tables, htables, h⟩ := bind_eq_ok.mp h
  obtain ⟨columns, hcolumns, h⟩ := bind_eq_ok.mp h
  obtain ⟨indexes, hindexes, h⟩ := bind_eq_ok.mp h
  obtain ⟨indexColumns, hindexColumns, h⟩ := bind_eq_ok.mp h
  obtain ⟨_, hzero, h⟩ := bind_eq_ok.mp h
  obtain ⟨sum, hsum, h⟩ := bind_eq_ok.mp h
  obtain ⟨_, hisSum, h⟩ := bind_eq_ok.mp h
  cases h
  rw [failIf_eq_ok, not_not] at hmagic hisVersion hisPages hisSize hisSum
  rw [failIf_eq_ok] at hpositive
  rw [failIf_eq_ok, Bool.not_eq_false, bytesAreZero_iff, Bytes.length_slice _ (by decide)] at hzero
  obtain ⟨htables, hvalidTables⟩ := decodeRoot_eq_ok.mp htables
  obtain ⟨hcolumns, hvalidColumns⟩ := decodeRoot_eq_ok.mp hcolumns
  obtain ⟨hindexes, hvalidIndexes⟩ := decodeRoot_eq_ok.mp hindexes
  obtain ⟨hindexColumns, hvalidIndexColumns⟩ := decodeRoot_eq_ok.mp hindexColumns
  subst hisVersion hisSize hisSum
  set header : DatabaseHeader := ⟨databaseId, pageCount, tables, columns, indexes, indexColumns⟩
  refine ⟨⟨hpositive, hvalidTables, hvalidColumns, hvalidIndexes, hvalidIndexColumns⟩, ?_⟩
  obtain ⟨imagic, iversion, ipages, isize, iid, icount, itables, icolumns, iindexes,
    iindexColumns, ireserved⟩ := header.slice_imageBody
  have sversion : page.slice 4 4 = _ := Bytes.slice_of_readU32Le (by decide) hversion
  have spages : page.slice 8 4 = _ := Bytes.slice_of_readU32Le (by decide) hpages
  have ssize : page.slice 12 4 = _ := Bytes.slice_of_readU32Le (by decide) hsize
  have sid : page.slice 16 8 = _ := Bytes.slice_of_readU64Le (by decide) hid
  have scount : page.slice 24 8 = _ := Bytes.slice_of_readU64Le (by decide) hcount
  have stables : page.slice 32 8 = _ := Bytes.slice_of_readU64Le (by decide) htables
  have scolumns : page.slice 40 8 = _ := Bytes.slice_of_readU64Le (by decide) hcolumns
  have sindexes : page.slice 48 8 = _ := Bytes.slice_of_readU64Le (by decide) hindexes
  have sindexColumns : page.slice 56 8 = _ := Bytes.slice_of_readU64Le (by decide) hindexColumns
  have ssum : page.slice 120 8 = _ := Bytes.slice_of_readU64Le (by decide) hsum
  rw [hisPages] at spages
  have hstart : page.slice 0 32 = header.imageBody.slice 0 32 :=
    Bytes.slice_congr_add (m := 24) (Bytes.slice_congr_add (m := 16)
      (Bytes.slice_congr_add (m := 12) (Bytes.slice_congr_add (m := 8)
        (Bytes.slice_congr_add (m := 4) (hmagic.trans imagic.symm) (sversion.trans iversion.symm))
        (spages.trans ipages.symm)) (ssize.trans isize.symm)) (sid.trans iid.symm))
      (scount.trans icount.symm)
  have hfields : page.slice 0 120 = header.imageBody.slice 0 120 :=
    Bytes.slice_congr_add (m := 64) (Bytes.slice_congr_add (m := 56)
      (Bytes.slice_congr_add (m := 48) (Bytes.slice_congr_add (m := 40)
        (Bytes.slice_congr_add (m := 32) hstart (stables.trans itables.symm))
        (scolumns.trans icolumns.symm)) (sindexes.trans iindexes.symm))
      (sindexColumns.trans iindexColumns.symm)) (hzero.trans ireserved.symm)
  have isum := header.slice_image_checksum
  have hlast : page.slice checksumOffset 8 = header.image.slice checksumOffset 8 := by
    rw [isum, ← show page.slice 0 checksumOffset = header.imageBody.slice 0 checksumOffset from
      hfields]
    exact ssum
  exact Bytes.slice_congr_add (m := 120) (n := 8)
    (hfields.trans (header.slice_image (by decide)).symm) hlast

end Decode

end DatabaseHeader

end DanDB.Storage
