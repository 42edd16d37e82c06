import DanDB.Storage.Page

/-!
# Page frames

A record of the log that holds the whole image of one page.
-/

namespace DanDB.Wal

open DanDB.Core Storage

structure WalPageFrame where
  transactionId : UInt64
  pageId : PageId
  pageImage : PageData
deriving DecidableEq

namespace WalPageFrame

def walPageFrameRecordType : UInt32 := 1
def walPageFrameRecordSize : Nat := 4136

def walPageFrameRecordTypeOffset : Nat := 0
def walPageFrameRecordSizeOffset : Nat := 4
def walPageFrameTransactionIdOffset : Nat := 8
def walPageFramePageIdOffset : Nat := 16
def walPageFrameImageSizeOffset : Nat := 24
def walPageFrameReservedOffset : Nat := 28
def walPageFrameImageOffset : Nat := 32
def walPageFrameChecksumOffset : Nat := 4128

def decode (bytes : Bytes 4136) : Result WalPageFrame := do
  let storedRecordType ← readU32Le bytes.bytes walPageFrameRecordTypeOffset
  failIf (storedRecordType ≠ walPageFrameRecordType)
    (.Corruption "Cannot decode WAL page frame: record type is invalid")
  let storedRecordSize ← readU32Le bytes.bytes walPageFrameRecordSizeOffset
  failIf (storedRecordSize.toNat ≠ walPageFrameRecordSize)
    (.Corruption "Cannot decode WAL page frame: record has unsupported size")
  let storedTransactionId ← readU64Le bytes.bytes walPageFrameTransactionIdOffset
  let storedPageId ← readU64Le bytes.bytes walPageFramePageIdOffset
  let storedPageImageSize ← readU32Le bytes.bytes walPageFrameImageSizeOffset
  failIf (storedPageImageSize.toNat ≠ pageSize)
    (.Corruption "Cannot decode WAL page frame: page image size is invalid")
  failIf (bytesAreZero (bytes.slice walPageFrameReservedOffset 4) = false)
    (.Corruption "Cannot decode WAL page frame: reserved bytes are non-zero")
  let storedPageImage := bytes.slice walPageFrameImageOffset pageSize
  let storedChecksum ← readU64Le bytes.bytes walPageFrameChecksumOffset
  failIf (storedChecksum ≠ checksum (bytes.slice 0 walPageFrameChecksumOffset))
    (.Corruption "Cannot decode WAL page frame: stored checksum and actual checksum differ")
  return ⟨storedTransactionId, storedPageId, .ofList storedPageImage⟩

def createNew (transactionId : UInt64) (pageId : PageId) (pageImage : PageData) : WalPageFrame :=
  ⟨transactionId, pageId, pageImage⟩

/-- The fields before the checksum. -/
def body (frame : WalPageFrame) : Bytes 4136 :=
  Bytes.zero
    |>.put walPageFrameRecordTypeOffset (leBytes 4 walPageFrameRecordType.toNat)
    |>.put walPageFrameRecordSizeOffset (leBytes 4 walPageFrameRecordSize)
    |>.put walPageFrameTransactionIdOffset (leBytes 8 frame.transactionId.toNat)
    |>.put walPageFramePageIdOffset (leBytes 8 frame.pageId.toNat)
    |>.put walPageFrameImageSizeOffset (leBytes 4 pageSize)
    |>.put walPageFrameImageOffset frame.pageImage.bytes

/-- `encode_into` on a buffer of `walPageFrameRecordSize` bytes, which never
fails. -/
def encode (frame : WalPageFrame) : Bytes 4136 :=
  frame.body.put walPageFrameChecksumOffset
    (leBytes 8 (checksum (frame.body.slice 0 walPageFrameChecksumOffset)).toNat)

/-- The fields of the frame, read from its bytes. -/
theorem slice_body (frame : WalPageFrame) :
    frame.body.slice 0 4 = leBytes 4 walPageFrameRecordType.toNat ∧
    frame.body.slice 4 4 = leBytes 4 walPageFrameRecordSize ∧
    frame.body.slice 8 8 = leBytes 8 frame.transactionId.toNat ∧
    frame.body.slice 16 8 = leBytes 8 frame.pageId.toNat ∧
    frame.body.slice 24 4 = leBytes 4 pageSize ∧
    frame.body.slice 28 4 = List.replicate 4 0 ∧
    frame.body.slice 32 pageSize = frame.pageImage.bytes := by
  refine ⟨?_, ?_, ?_, ?_, ?_, ?_, ?_⟩ <;>
    simp only [body, walPageFrameRecordTypeOffset, walPageFrameRecordSizeOffset,
      walPageFrameTransactionIdOffset, walPageFramePageIdOffset, walPageFrameImageSizeOffset,
      walPageFrameImageOffset] <;>
    simp (disch := first | omega | decide) only [Bytes.slice_put_before,
      Bytes.slice_putLe_same, Bytes.slice_putLe_after, Bytes.slice_putBytes_same,
      Bytes.slice_zero]

theorem slice_encode (frame : WalPageFrame) {off len : Nat} (h : off + len ≤ 4128) :
    frame.encode.slice off len = frame.body.slice off len :=
  Bytes.slice_put_before _ h

theorem slice_encode_type (frame : WalPageFrame) :
    frame.encode.slice 0 4 = leBytes 4 walPageFrameRecordType.toNat :=
  (frame.slice_encode (by omega)).trans frame.slice_body.1

theorem decode_encode (frame : WalPageFrame) : decode frame.encode = .ok frame := by
  obtain ⟨htype, hsize, htransaction, hpageId, himageSize, hreserved, himage⟩ := frame.slice_body
  have hp : pageSize = (4096 : UInt32).toNat := rfl
  have hs : walPageFrameRecordSize = (4136 : UInt32).toNat := rfl
  have himage' := (frame.slice_encode (by decide)).trans himage
  rw [hp] at himageSize
  rw [hs] at hsize
  have itype := frame.encode.readU32Le_eq (by omega)
    ((frame.slice_encode (by omega)).trans htype)
  have isize := frame.encode.readU32Le_eq (by omega)
    ((frame.slice_encode (by omega)).trans hsize)
  have itransaction := frame.encode.readU64Le_eq (by omega)
    ((frame.slice_encode (by omega)).trans htransaction)
  have ipageId := frame.encode.readU64Le_eq (by omega)
    ((frame.slice_encode (by omega)).trans hpageId)
  have iimageSize := frame.encode.readU32Le_eq (by omega)
    ((frame.slice_encode (by omega)).trans himageSize)
  have ireserved : bytesAreZero (frame.encode.slice 28 4) = true := by
    rw [frame.slice_encode (by omega), hreserved, bytesAreZero_iff, List.length_replicate]
  have ichecksum : readU64Le frame.encode.bytes 4128 =
      .ok (checksum (frame.encode.slice 0 4128)) := by
    rw [frame.slice_encode (by omega)]
    exact frame.encode.readU64Le_eq (by omega) (Bytes.slice_putLe_same _ (by decide))
  rw [decode, walPageFrameRecordTypeOffset, itype, ok_bind, failIf_of_not (not_not_intro rfl),
    ok_bind, walPageFrameRecordSizeOffset, isize, ok_bind,
    failIf_of_not (not_not_intro hs.symm), ok_bind, walPageFrameTransactionIdOffset,
    itransaction, ok_bind, walPageFramePageIdOffset, ipageId, ok_bind,
    walPageFrameImageSizeOffset, iimageSize, ok_bind, failIf_of_not (not_not_intro hp.symm),
    ok_bind, walPageFrameReservedOffset, failIf_of_not (by rw [ireserved]; decide), ok_bind,
    walPageFrameChecksumOffset, ichecksum, ok_bind, failIf_of_not (not_not_intro rfl), ok_bind,
    walPageFrameImageOffset, himage', Bytes.ofList_bytes, pure_eq_ok]

/-- A frame that decodes has no other bytes than its encoding. -/
theorem encode_of_decode {bytes : Bytes 4136} {frame : WalPageFrame}
    (h : decode bytes = .ok frame) : bytes = frame.encode := by
  obtain ⟨type, htype, h⟩ := bind_eq_ok.mp h
  obtain ⟨_, hisType, h⟩ := bind_eq_ok.mp h
  obtain ⟨recordSize, hsize, h⟩ := bind_eq_ok.mp h
  obtain ⟨_, hisSize, h⟩ := bind_eq_ok.mp h
  obtain ⟨transactionId, htransaction, h⟩ := bind_eq_ok.mp h
  obtain ⟨pageId, hpageId, h⟩ := bind_eq_ok.mp h
  obtain ⟨imageSize, himageSize, h⟩ := bind_eq_ok.mp h
  obtain ⟨_, hisImageSize, h⟩ := bind_eq_ok.mp h
  obtain ⟨_, hzero, h⟩ := bind_eq_ok.mp h
  obtain ⟨sum, hsum, h⟩ := bind_eq_ok.mp h
  obtain ⟨_, hisSum, h⟩ := bind_eq_ok.mp h
  cases h
  rw [failIf_eq_ok, not_not] at hisType hisSize hisImageSize hisSum
  rw [failIf_eq_ok, Bool.not_eq_false, bytesAreZero_iff, Bytes.length_slice _ (by decide)] at hzero
  subst hisType hisSum
  have hlen : (bytes.slice 32 pageSize).length = pageSize := bytes.length_slice (by decide)
  set frame : WalPageFrame := ⟨transactionId, pageId, .ofList (bytes.slice 32 pageSize)⟩ with hframe
  obtain ⟨itype, isize, itransaction, ipageId, iimageSize, ireserved, iimage⟩ := frame.slice_body
  have stype : bytes.slice 0 4 = _ := Bytes.slice_of_readU32Le (by decide) htype
  have ssize : bytes.slice 4 4 = _ := Bytes.slice_of_readU32Le (by decide) hsize
  have stransaction : bytes.slice 8 8 = _ := Bytes.slice_of_readU64Le (by decide) htransaction
  have spageId : bytes.slice 16 8 = _ := Bytes.slice_of_readU64Le (by decide) hpageId
  have simageSize : bytes.slice 24 4 = _ := Bytes.slice_of_readU32Le (by decide) himageSize
  have ssum : bytes.slice 4128 8 = _ := Bytes.slice_of_readU64Le (by decide) hsum
  have simage : bytes.slice 32 pageSize = frame.pageImage.bytes :=
    (congrArg Bytes.bytes (Bytes.ofList_of_length hlen)).symm
  rw [hisSize] at ssize
  rw [hisImageSize] at simageSize
  have hfields : bytes.slice 0 4128 = frame.body.slice 0 4128 :=
    Bytes.slice_congr_add (m := 32) (Bytes.slice_congr_add (m := 28)
      (Bytes.slice_congr_add (m := 24) (Bytes.slice_congr_add (m := 16)
        (Bytes.slice_congr_add (m := 8)
          (Bytes.slice_congr_add (m := 4) (stype.trans itype.symm) (ssize.trans isize.symm))
          (stransaction.trans itransaction.symm)) (spageId.trans ipageId.symm))
        (simageSize.trans iimageSize.symm)) (hzero.trans ireserved.symm))
      (simage.trans iimage.symm)
  have isum : frame.encode.slice 4128 8 =
      leBytes 8 (checksum (frame.body.slice 0 4128)).toNat :=
    Bytes.slice_putLe_same _ (by decide)
  refine Bytes.eq_of_slice (Bytes.slice_congr_add (m := 4128) (n := 8) ?_ ?_)
  · exact hfields.trans (frame.slice_encode (by omega)).symm
  · rw [← hfields] at isum
    exact ssum.trans isum.symm

end WalPageFrame

end DanDB.Wal
