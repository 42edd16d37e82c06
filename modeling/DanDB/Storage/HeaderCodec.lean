import DanDB.Storage.Reachable
import DanDB.Wal.WalCodecs

/-!
# The codec of the database header

The decoder and the encoder as they are called, on spans whose length they check
themselves.  Each has its own list of checks, and both come to `Valid`.  No call
of a session leaves a header that is not valid.
-/

namespace DanDB.Storage

open Buffer DanDB.Core Platform Wal BufferPool

namespace DatabaseHeader

/-- `DatabaseHeader::decode` -/
def decodeBytes : List Byte → Result DatabaseHeader :=
  decodeSpan pageSize "Cannot decode database header: page size is invalid" decode

/-- `DatabaseHeader::encode_into` -/
def encodeBytes (header : DatabaseHeader) (page : List Byte) : Result (List Byte) := do
  failIf (page.length ≠ pageSize)
    (.InvalidArgument "Cannot encode database header: page size is invalid")
  failIf (header.pageCount = 0)
    (.InvalidArgument "Cannot encode database header: page count cannot be zero")
  let page := put (List.replicate pageSize 0) magicBytesOffset databaseMagicBytes
  let page ← writeU32Le page formatVersionOffset databaseFormatVersion
  let page ← writeU32Le page pageSizeOffset (.ofNat pageSize)
  let page ← writeU32Le page headerSizeOffset databaseHeaderSize
  let page ← writeU64Le page idOffset header.databaseId
  let page ← writeU64Le page pageCountOffset header.pageCount
  header.checkRoot header.systemTablesRootPageId "system tables"
  let page ← writeU64Le page systemTablesRootPageIdOffset header.systemTablesRootPageId
  header.checkRoot header.systemColumnsRootPageId "system columns"
  let page ← writeU64Le page systemColumnsRootPageIdOffset header.systemColumnsRootPageId
  header.checkRoot header.systemIndexesRootPageId "system indexes"
  let page ← writeU64Le page systemIndexesRootPageIdOffset header.systemIndexesRootPageId
  header.checkRoot header.systemIndexColumnsRootPageId "system index columns"
  let page ← writeU64Le page systemIndexColumnsRootPageIdOffset header.systemIndexColumnsRootPageId
  writeU64Le page checksumOffset (checksum (page.take checksumOffset))

/-- On a page-sized buffer the checks and the writes are those of `encodeInto`. -/
theorem encodeBytes_eq (header : DatabaseHeader) (page : PageData) :
    header.encodeBytes page.bytes = header.encodeInto.map Bytes.bytes := by
  have hzero : List.replicate pageSize 0 = (Bytes.zero : PageData).bytes := rfl
  rw [encodeBytes, failIf_of_not (not_not_intro page.size_eq), ok_bind, encodeInto]
  dsimp only
  rw [hzero, ← Bytes.bytes_put, writeU32Le_bytes _ _ (by decide), ok_bind,
    writeU32Le_bytes _ _ (by decide), ok_bind, writeU32Le_bytes _ _ (by decide), ok_bind,
    writeU64Le_bytes _ _ (by decide), ok_bind,
    writeU64Le_bytes _ _ (by decide), ok_bind, writeU64Le_bytes _ _ (by decide), ok_bind,
    writeU64Le_bytes _ _ (by decide), ok_bind, writeU64Le_bytes _ _ (by decide), ok_bind,
    writeU64Le_bytes _ _ (by decide), ok_bind, Bytes.take_eq_slice,
    writeU64Le_bytes _ _ (by decide)]
  simp only [map_bind]
  rfl

theorem encodeBytes_eq_ok {header : DatabaseHeader} {buffer : PageData} {page : List Byte} :
    header.encodeBytes buffer.bytes = .ok page ↔ header.Valid ∧ header.image.bytes = page := by
  rw [encodeBytes_eq]
  constructor
  · intro h
    rcases hencode : header.encodeInto with e | image
    · rw [hencode] at h
      cases h
    · rw [hencode] at h
      cases h
      obtain ⟨hvalid, rfl⟩ := encodeInto_eq_ok.mp hencode
      exact ⟨hvalid, rfl⟩
  · rintro ⟨hvalid, rfl⟩
    rw [hvalid.encodeInto]
    rfl

theorem decodeBytes_image {header : DatabaseHeader} (h : header.Valid) :
    decodeBytes header.image.bytes = .ok header :=
  decodeSpan_eq_ok.mpr ⟨header.image, rfl, decode_image h⟩

/-- What is expected of the header codec: a header can be written exactly if it
can be read from some page, reading gives back what was written, and the header
of a page is written back as it was. -/
structure RoundTrips : Prop where
  writes_iff : ∀ header (buffer : PageData),
    (∃ page, encodeBytes header buffer.bytes = .ok page) ↔ ∃ page, decodeBytes page = .ok header
  decode_encode : ∀ header (buffer : PageData) page,
    encodeBytes header buffer.bytes = .ok page → decodeBytes page = .ok header
  encode_decode : ∀ header (buffer : PageData) page, decodeBytes page = .ok header →
    ∃ page', encodeBytes header buffer.bytes = .ok page' ∧
      page'.take databaseHeaderSize.toNat = page.take databaseHeaderSize.toNat

theorem roundTrips : RoundTrips := by
  constructor
  · intro header buffer
    constructor
    · rintro ⟨page, h⟩
      exact ⟨_, decodeBytes_image (encodeBytes_eq_ok.mp h).1⟩
    · rintro ⟨page, h⟩
      obtain ⟨array, -, harray⟩ := decodeSpan_eq_ok.mp h
      exact ⟨_, encodeBytes_eq_ok.mpr ⟨(of_decode harray).1, rfl⟩⟩
  · intro header buffer page h
    obtain ⟨hvalid, rfl⟩ := encodeBytes_eq_ok.mp h
    exact decodeBytes_image hvalid
  · intro header buffer page h
    obtain ⟨array, rfl, harray⟩ := decodeSpan_eq_ok.mp h
    obtain ⟨hvalid, hbytes⟩ := of_decode harray
    refine ⟨_, encodeBytes_eq_ok.mpr ⟨hvalid, rfl⟩, ?_⟩
    rw [Bytes.take_eq_slice, Bytes.take_eq_slice]
    exact hbytes.symm

/-- Any pages of the database can be made the roots of the system tables. -/
theorem Valid.withRoots {header : DatabaseHeader} (h : header.Valid)
    {tables columns indexes indexColumns : PageId}
    (hroots : ∀ root ∈ [tables, columns, indexes, indexColumns],
      root ≠ headerPageId ∧ root.toNat < header.pageCount.toNat) :
    (header.withRoots tables columns indexes indexColumns).Valid := by
  have hvalid (root : PageId) (hmem : root ∈ [tables, columns, indexes, indexColumns]) :
      rootPageIdIsValid root header.pageCount = true := by
    obtain ⟨hne, hlt⟩ := hroots root hmem
    have hpos : firstAllocatablePageId ≤ root :=
      UInt64.le_iff_toNat_le.mpr (Nat.one_le_iff_ne_zero.mpr (Pager.toNat_ne_zero hne))
    rw [rootPageIdIsValid, Bool.or_eq_true, Bool.and_eq_true]
    exact .inr ⟨decide_eq_true hpos, decide_eq_true (UInt64.lt_iff_toNat_lt.mpr hlt)⟩
  exact ⟨h.pageCount, hvalid tables (by simp), hvalid columns (by simp),
    hvalid indexes (by simp), hvalid indexColumns (by simp)⟩

end DatabaseHeader

namespace Session

variable {s : Session}

/-- No commit, rollback or checkpoint can fail on a header, and the roots of the
system tables can be set to any pages of the database. -/
structure HeadersEncodable (s : Session) : Prop where
  current : ∀ buffer : PageData, ∃ page, s.pager.dbHeader.encodeBytes buffer.bytes = .ok page
  committed : ∀ buffer : PageData,
    ∃ page, s.pager.committedHeader.encodeBytes buffer.bytes = .ok page
  /-- The image of the header that a commit writes to the log. -/
  snapshot : (Pager.dirtyPageSnapshot headerPageId).run s.pager =
    (.ok ⟨headerPageId, s.pager.dbHeader.image⟩, s.pager)
  /-- The original of the header that a rollback reads. -/
  restore : ∀ page, s.pager.transactionState.originalPages.lookup headerPageId = some page →
    (Pager.restoreOriginal (headerPageId, page)).run s.pager =
      (.ok (), { s.pager with dbHeader := s.pager.committedHeader })
  /-- The header that a checkpoint writes to the file. -/
  write : s.pager.diskManager.fileHandle.faults = [] →
    ((DiskManager.writeHeader s.pager.committedHeader).run s.pager.diskManager).1 = .ok ()
  roots : ∀ tables columns indexes indexColumns,
    (∀ root ∈ [tables, columns, indexes, indexColumns],
      root ≠ headerPageId ∧ root.toNat < s.pager.dbHeader.pageCount.toNat) →
    ∃ r s', s.Step (.setSystemRoots tables columns indexes indexColumns) r s'

theorem Sound.headersEncodable (h : s.Sound) : s.HeadersEncodable := by
  obtain ⟨hcurrent, hcommitted⟩ :=
    And.intro h.inv.transaction.dbHeader h.inv.transaction.committedHeader
  constructor
  · intro buffer
    exact ⟨_, DatabaseHeader.encodeBytes_eq_ok.mpr ⟨hcurrent, rfl⟩⟩
  · intro buffer
    exact ⟨_, DatabaseHeader.encodeBytes_eq_ok.mpr ⟨hcommitted, rfl⟩⟩
  · exact Pager.dirtyPageSnapshot_header hcurrent
  · intro page hlookup
    obtain ⟨-, -, himage, -⟩ := h.inv.transaction.original headerPageId page hlookup
    rw [Pager.restoreOriginal, if_pos rfl, himage rfl, DatabaseHeader.decode_image hcommitted]
    rfl
  · intro hfaults
    have hwrite := DiskManager.writeHeader_yields h.inv.file.holds hcommitted
    obtain ⟨-, ⟨hr, -⟩ | ⟨-, hne⟩⟩ := hwrite
    · exact hr
    · exact absurd hfaults hne
  · intro tables columns indexes indexColumns hroots
    exact ⟨_, _, if_pos (hcurrent.withRoots hroots)⟩

/-- The database header is written and read by inverse functions, and in every
session there can be both headers can be written. -/
theorem header_codec (h : Reachable s) : DatabaseHeader.RoundTrips ∧ s.HeadersEncodable :=
  ⟨DatabaseHeader.roundTrips, h.sound.headersEncodable⟩

theorem header_codec_small : ∃ s : Session, Reachable s ∧ s.HeadersEncodable := by
  obtain ⟨pager, hcreate, -⟩ := Pager.createEmpty_eq "db" (show 0 < 1 by decide) 7
  obtain ⟨r, s, hbegin⟩ : ∃ r s, (start pager).Step .beginTransaction r s := ⟨_, _, rfl⟩
  obtain ⟨r', s', hnew⟩ : ∃ r s', s.Step .newPage r s' := ⟨_, _, rfl⟩
  have hreach : Reachable s' := ((Reachable.create hcreate).step hbegin).step hnew
  exact ⟨s', hreach, (header_codec hreach).2⟩

end Session

end DanDB.Storage
