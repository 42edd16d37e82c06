import DanDB.Storage.Page

/-!
# Commit records

The record that ends the frames of a transaction in the log.
-/

namespace DanDB.Wal

open DanDB.Core Storage

structure WalCommitRecord where
  transactionId : UInt64
  frameCount : UInt64
deriving DecidableEq

namespace WalCommitRecord

def walCommitRecordType : UInt32 := 2
def walCommitRecordSize : Nat := 32

def walCommitRecordTypeOffset : Nat := 0
def walCommitRecordSizeOffset : Nat := 4
def walCommitRecordTransactionIdOffset : Nat := 8
def walCommitRecordFrameCountOffset : Nat := 16
def walCommitRecordChecksumOffset : Nat := 24

def decode (bytes : Bytes 32) : Result WalCommitRecord := do
  let storedRecordType ← readU32Le bytes.bytes walCommitRecordTypeOffset
  failIf (storedRecordType ≠ walCommitRecordType)
    (.Corruption "Cannot decode WAL commit record: record type is invalid")
  let storedRecordSize ← readU32Le bytes.bytes walCommitRecordSizeOffset
  failIf (storedRecordSize.toNat ≠ walCommitRecordSize)
    (.Corruption "Cannot decode WAL commit record: record has unsupported size")
  let storedTransactionId ← readU64Le bytes.bytes walCommitRecordTransactionIdOffset
  let storedFrameCount ← readU64Le bytes.bytes walCommitRecordFrameCountOffset
  let storedChecksum ← readU64Le bytes.bytes walCommitRecordChecksumOffset
  failIf (storedChecksum ≠ checksum (bytes.slice 0 walCommitRecordChecksumOffset))
    (.Corruption "Cannot decode WAL commit record: stored checksum and actual checksum differ")
  return ⟨storedTransactionId, storedFrameCount⟩

def createNew (transactionId frameCount : UInt64) : WalCommitRecord :=
  ⟨transactionId, frameCount⟩

/-- The fields before the checksum. -/
def body (record : WalCommitRecord) : Bytes 32 :=
  Bytes.zero
    |>.put walCommitRecordTypeOffset (leBytes 4 walCommitRecordType.toNat)
    |>.put walCommitRecordSizeOffset (leBytes 4 walCommitRecordSize)
    |>.put walCommitRecordTransactionIdOffset (leBytes 8 record.transactionId.toNat)
    |>.put walCommitRecordFrameCountOffset (leBytes 8 record.frameCount.toNat)

/-- `encode_into` on a buffer of `walCommitRecordSize` bytes, which never fails. -/
def encode (record : WalCommitRecord) : Bytes 32 :=
  record.body.put walCommitRecordChecksumOffset
    (leBytes 8 (checksum (record.body.slice 0 walCommitRecordChecksumOffset)).toNat)

/-- The fields of the record, read from its bytes. -/
theorem slice_body (record : WalCommitRecord) :
    record.body.slice 0 4 = leBytes 4 walCommitRecordType.toNat ∧
    record.body.slice 4 4 = leBytes 4 walCommitRecordSize ∧
    record.body.slice 8 8 = leBytes 8 record.transactionId.toNat ∧
    record.body.slice 16 8 = leBytes 8 record.frameCount.toNat := by
  refine ⟨?_, ?_, ?_, ?_⟩ <;>
    simp only [body, walCommitRecordTypeOffset, walCommitRecordSizeOffset,
      walCommitRecordTransactionIdOffset, walCommitRecordFrameCountOffset] <;>
    simp (disch := omega) only [Bytes.slice_putLe_before, Bytes.slice_putLe_same]

theorem slice_encode (record : WalCommitRecord) {off len : Nat} (h : off + len ≤ 24) :
    record.encode.slice off len = record.body.slice off len :=
  Bytes.slice_put_before _ h

theorem slice_encode_type (record : WalCommitRecord) :
    record.encode.slice 0 4 = leBytes 4 walCommitRecordType.toNat :=
  (record.slice_encode (by omega)).trans record.slice_body.1

theorem decode_encode (record : WalCommitRecord) : decode record.encode = .ok record := by
  obtain ⟨htype, hsize, htransaction, hcount⟩ := record.slice_body
  have hs : walCommitRecordSize = (32 : UInt32).toNat := rfl
  rw [hs] at hsize
  have itype := record.encode.readU32Le_eq (by omega)
    ((record.slice_encode (by omega)).trans htype)
  have isize := record.encode.readU32Le_eq (by omega)
    ((record.slice_encode (by omega)).trans hsize)
  have itransaction := record.encode.readU64Le_eq (by omega)
    ((record.slice_encode (by omega)).trans htransaction)
  have icount := record.encode.readU64Le_eq (by omega)
    ((record.slice_encode (by omega)).trans hcount)
  have ichecksum : readU64Le record.encode.bytes 24 =
      .ok (checksum (record.encode.slice 0 24)) := by
    rw [record.slice_encode (by omega)]
    exact record.encode.readU64Le_eq (by omega) (Bytes.slice_putLe_same _ (by decide))
  rw [decode, walCommitRecordTypeOffset, itype, ok_bind, failIf_of_not (not_not_intro rfl),
    ok_bind, walCommitRecordSizeOffset, isize, ok_bind, failIf_of_not (not_not_intro hs.symm),
    ok_bind, walCommitRecordTransactionIdOffset, itransaction, ok_bind,
    walCommitRecordFrameCountOffset, icount, ok_bind, walCommitRecordChecksumOffset, ichecksum,
    ok_bind, failIf_of_not (not_not_intro rfl), ok_bind, pure_eq_ok]

/-- A record that decodes has no other bytes than its encoding. -/
theorem encode_of_decode {bytes : Bytes 32} {record : WalCommitRecord}
    (h : decode bytes = .ok record) : bytes = record.encode := by
  obtain ⟨type, htype, h⟩ := bind_eq_ok.mp h
  obtain ⟨_, hisType, h⟩ := bind_eq_ok.mp h
  obtain ⟨recordSize, hsize, h⟩ := bind_eq_ok.mp h
  obtain ⟨_, hisSize, h⟩ := bind_eq_ok.mp h
  obtain ⟨transactionId, htransaction, h⟩ := bind_eq_ok.mp h
  obtain ⟨frameCount, hcount, h⟩ := bind_eq_ok.mp h
  obtain ⟨sum, hsum, h⟩ := bind_eq_ok.mp h
  obtain ⟨_, hisSum, h⟩ := bind_eq_ok.mp h
  cases h
  rw [failIf_eq_ok, not_not] at hisType hisSize hisSum
  subst hisType hisSum
  set record : WalCommitRecord := ⟨transactionId, frameCount⟩
  obtain ⟨itype, isize, itransaction, icount⟩ := record.slice_body
  have stype : bytes.slice 0 4 = _ := Bytes.slice_of_readU32Le (by decide) htype
  have ssize : bytes.slice 4 4 = _ := Bytes.slice_of_readU32Le (by decide) hsize
  have stransaction : bytes.slice 8 8 = _ := Bytes.slice_of_readU64Le (by decide) htransaction
  have scount : bytes.slice 16 8 = _ := Bytes.slice_of_readU64Le (by decide) hcount
  have ssum : bytes.slice 24 8 = _ := Bytes.slice_of_readU64Le (by decide) hsum
  rw [hisSize] at ssize
  have hfields : bytes.slice 0 24 = record.body.slice 0 24 :=
    Bytes.slice_congr_add (m := 16) (Bytes.slice_congr_add (m := 8)
      (Bytes.slice_congr_add (m := 4) (stype.trans itype.symm) (ssize.trans isize.symm))
      (stransaction.trans itransaction.symm)) (scount.trans icount.symm)
  have isum : record.encode.slice 24 8 =
      leBytes 8 (checksum (record.body.slice 0 24)).toNat :=
    Bytes.slice_putLe_same _ (by decide)
  refine Bytes.eq_of_slice (Bytes.slice_congr_add (m := 24) (n := 8) ?_ ?_)
  · exact hfields.trans (record.slice_encode (by omega)).symm
  · rw [← hfields] at isum
    exact ssum.trans isum.symm

end WalCommitRecord

end DanDB.Wal
