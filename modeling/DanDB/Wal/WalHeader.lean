import DanDB.Storage.Page

/-!
# The header of the write-ahead log

The first `walHeaderSize` bytes of a log name the database the log belongs to.
Every header of one database is the same sequence of bytes, so writing it again
over itself changes nothing, at whatever byte the write stops.
-/

namespace DanDB.Wal

open DanDB.Core Storage

structure WalHeader where
  databaseId : UInt64
deriving DecidableEq

namespace WalHeader

def walMagicBytes : List Byte := [68, 87, 65, 76]
def walFormatVersion : UInt32 := 1
def walHeaderSize : Nat := 64
def walHeaderReservedBytesSize : Nat := 32

def walMagicBytesOffset : Nat := 0
def walFormatVersionOffset : Nat := 4
def walPageSizeOffset : Nat := 8
def walHeaderSizeOffset : Nat := 12
def walDatabaseIdOffset : Nat := 16
def walReservedBytesOffset : Nat := 24
def walChecksumOffset : Nat := 56

def decode (bytes : Bytes 64) : Result WalHeader := do
  failIf (bytes.slice walMagicBytesOffset 4 ≠ walMagicBytes)
    (.Corruption "Cannot decode WAL header: magic bytes are invalid")
  let storedFormatVersion ← readU32Le bytes.bytes walFormatVersionOffset
  failIf (storedFormatVersion ≠ walFormatVersion)
    (.Corruption "Cannot decode WAL header: unsupported WAL format version")
  let storedPageSize ← readU32Le bytes.bytes walPageSizeOffset
  failIf (storedPageSize.toNat ≠ pageSize)
    (.Corruption "Cannot decode WAL header: WAL header has unsupported page size")
  let storedHeaderSize ← readU32Le bytes.bytes walHeaderSizeOffset
  failIf (storedHeaderSize.toNat ≠ walHeaderSize)
    (.Corruption "Cannot decode WAL header: WAL header has unsupported size")
  let storedDatabaseId ← readU64Le bytes.bytes walDatabaseIdOffset
  failIf (bytesAreZero (bytes.slice walReservedBytesOffset walHeaderReservedBytesSize) = false)
    (.Corruption "Cannot decode WAL header: some reserved bytes are non-zero")
  let storedChecksum ← readU64Le bytes.bytes walChecksumOffset
  failIf (storedChecksum ≠ checksum (bytes.slice 0 walChecksumOffset))
    (.Corruption "Cannot decode WAL header: stored checksum and actual checksum differ")
  return ⟨storedDatabaseId⟩

def createNew (databaseId : UInt64) : WalHeader := ⟨databaseId⟩

/-- The fields before the checksum. -/
def body (header : WalHeader) : Bytes 64 :=
  Bytes.zero
    |>.put walMagicBytesOffset walMagicBytes
    |>.put walFormatVersionOffset (leBytes 4 walFormatVersion.toNat)
    |>.put walPageSizeOffset (leBytes 4 pageSize)
    |>.put walHeaderSizeOffset (leBytes 4 walHeaderSize)
    |>.put walDatabaseIdOffset (leBytes 8 header.databaseId.toNat)

/-- `encode_into` on a buffer of `walHeaderSize` bytes, which never fails. -/
def encode (header : WalHeader) : Bytes 64 :=
  header.body.put walChecksumOffset
    (leBytes 8 (checksum (header.body.slice 0 walChecksumOffset)).toNat)

/-- The fields of the header, read from its bytes. -/
theorem slice_body (header : WalHeader) :
    header.body.slice 0 4 = walMagicBytes ∧
    header.body.slice 4 4 = leBytes 4 walFormatVersion.toNat ∧
    header.body.slice 8 4 = leBytes 4 pageSize ∧
    header.body.slice 12 4 = leBytes 4 walHeaderSize ∧
    header.body.slice 16 8 = leBytes 8 header.databaseId.toNat ∧
    header.body.slice 24 32 = List.replicate 32 0 := by
  have magic_same : ((Bytes.zero : Bytes 64).put 0 walMagicBytes).slice 0 4 = walMagicBytes :=
    Bytes.slice_put_same _ (by decide) rfl
  have magic_after : ((Bytes.zero : Bytes 64).put 0 walMagicBytes).slice 24 32 =
      List.replicate 32 0 := by
    rw [Bytes.slice_put_after _ (by decide), Bytes.slice_zero (by omega)]
  refine ⟨?_, ?_, ?_, ?_, ?_, ?_⟩ <;>
    simp only [body, walMagicBytesOffset, walFormatVersionOffset, walPageSizeOffset,
      walHeaderSizeOffset, walDatabaseIdOffset] <;>
    simp (disch := omega) only [Bytes.slice_putLe_before, Bytes.slice_putLe_same,
      Bytes.slice_putLe_after, magic_same, magic_after]

theorem slice_encode (header : WalHeader) {off len : Nat} (h : off + len ≤ 56) :
    header.encode.slice off len = header.body.slice off len :=
  Bytes.slice_put_before _ h

theorem decode_encode (header : WalHeader) : decode header.encode = .ok header := by
  obtain ⟨hmagic, hversion, hpage, hsize, hid, hreserved⟩ := header.slice_body
  have hp : pageSize = (4096 : UInt32).toNat := rfl
  have hs : walHeaderSize = (64 : UInt32).toNat := rfl
  rw [hp] at hpage
  rw [hs] at hsize
  have imagic := (header.slice_encode (by omega)).trans hmagic
  have iversion := header.encode.readU32Le_eq (by omega)
    ((header.slice_encode (by omega)).trans hversion)
  have ipage := header.encode.readU32Le_eq (by omega)
    ((header.slice_encode (by omega)).trans hpage)
  have isize := header.encode.readU32Le_eq (by omega)
    ((header.slice_encode (by omega)).trans hsize)
  have iid := header.encode.readU64Le_eq (by omega)
    ((header.slice_encode (by omega)).trans hid)
  have ireserved : bytesAreZero (header.encode.slice 24 32) = true := by
    rw [header.slice_encode (by omega), hreserved, bytesAreZero_iff, List.length_replicate]
  have ichecksum : readU64Le header.encode.bytes 56 =
      .ok (checksum (header.encode.slice 0 56)) := by
    rw [header.slice_encode (by omega)]
    exact header.encode.readU64Le_eq (by omega) (Bytes.slice_putLe_same _ (by decide))
  rw [decode, walMagicBytesOffset, failIf_of_not (not_not_intro imagic), ok_bind,
    walFormatVersionOffset, iversion, ok_bind, failIf_of_not (not_not_intro rfl), ok_bind,
    walPageSizeOffset, ipage, ok_bind, failIf_of_not (not_not_intro hp.symm), ok_bind,
    walHeaderSizeOffset, isize, ok_bind, failIf_of_not (not_not_intro hs.symm), ok_bind,
    walDatabaseIdOffset, iid, ok_bind, walReservedBytesOffset, walHeaderReservedBytesSize,
    failIf_of_not (by rw [ireserved]; decide), ok_bind, walChecksumOffset, ichecksum, ok_bind,
    failIf_of_not (not_not_intro rfl), ok_bind, pure_eq_ok]

/-- A header that decodes has no other bytes than its encoding. -/
theorem encode_of_decode {bytes : Bytes 64} {header : WalHeader}
    (h : decode bytes = .ok header) : bytes = header.encode := by
  obtain ⟨_, hmagic, h⟩ := bind_eq_ok.mp h
  obtain ⟨version, hversion, h⟩ := bind_eq_ok.mp h
  obtain ⟨_, hisVersion, h⟩ := bind_eq_ok.mp h
  obtain ⟨pages, hpages, h⟩ := bind_eq_ok.mp h
  obtain ⟨_, hisPages, h⟩ := bind_eq_ok.mp h
  obtain ⟨size, hsize, h⟩ := bind_eq_ok.mp h
  obtain ⟨_, hisSize, h⟩ := bind_eq_ok.mp h
  obtain ⟨databaseId, hid, h⟩ := bind_eq_ok.mp h
  obtain ⟨_, hzero, h⟩ := bind_eq_ok.mp h
  obtain ⟨sum, hsum, h⟩ := bind_eq_ok.mp h
  obtain ⟨_, hisSum, h⟩ := bind_eq_ok.mp h
  cases h
  rw [failIf_eq_ok, not_not] at hmagic hisVersion hisPages hisSize hisSum
  rw [failIf_eq_ok, Bool.not_eq_false, bytesAreZero_iff, Bytes.length_slice _ (by decide)] at hzero
  subst hisVersion hisSum
  set header : WalHeader := ⟨databaseId⟩
  obtain ⟨imagic, iversion, ipages, isize, iid, ireserved⟩ := header.slice_body
  have sversion : bytes.slice 4 4 = _ := Bytes.slice_of_readU32Le (by decide) hversion
  have spages : bytes.slice 8 4 = _ := Bytes.slice_of_readU32Le (by decide) hpages
  have ssize : bytes.slice 12 4 = _ := Bytes.slice_of_readU32Le (by decide) hsize
  have sid : bytes.slice 16 8 = _ := Bytes.slice_of_readU64Le (by decide) hid
  have ssum : bytes.slice 56 8 = _ := Bytes.slice_of_readU64Le (by decide) hsum
  rw [hisPages] at spages
  rw [hisSize] at ssize
  have hfields : bytes.slice 0 56 = header.body.slice 0 56 :=
    Bytes.slice_congr_add (m := 24) (Bytes.slice_congr_add (m := 16)
      (Bytes.slice_congr_add (m := 12) (Bytes.slice_congr_add (m := 8)
        (Bytes.slice_congr_add (m := 4) (hmagic.trans imagic.symm)
          (sversion.trans iversion.symm)) (spages.trans ipages.symm)) (ssize.trans isize.symm))
      (sid.trans iid.symm)) (hzero.trans ireserved.symm)
  have isum : header.encode.slice 56 8 =
      leBytes 8 (checksum (header.body.slice 0 56)).toNat :=
    Bytes.slice_putLe_same _ (by decide)
  refine Bytes.eq_of_slice (Bytes.slice_congr_add (m := 56) (n := 8) ?_ ?_)
  · exact hfields.trans (header.slice_encode (by omega)).symm
  · rw [← hfields] at isum
    exact ssum.trans isum.symm

end WalHeader

end DanDB.Wal
