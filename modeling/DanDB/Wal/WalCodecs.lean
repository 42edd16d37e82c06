import DanDB.Lib.Codec
import DanDB.Wal.WalCommitRecord
import DanDB.Wal.WalHeader
import DanDB.Wal.WalPageFrame

/-!
# The codecs of the log

The decoders and encoders as they are called, on spans whose length they check
themselves.  On a span of the right length `encodeInto` writes exactly the array
that `encode` names, whatever the span held before, so each pair is inverse.
-/

namespace DanDB.Wal

open Buffer Codec DanDB.Core Storage

/-! ## Spans -/

/-- A decoder of arrays applied to a span. -/
def decodeSpan {α : Type} (size : Nat) (message : String) (decode : Bytes size → Result α)
    (bytes : List Byte) : Result α :=
  if h : bytes.length = size then decode ⟨bytes, h⟩ else .error (.InvalidArgument message)

theorem decodeSpan_eq_ok {α : Type} {size : Nat} {message : String}
    {decode : Bytes size → Result α} {bytes : List Byte} {record : α} :
    decodeSpan size message decode bytes = .ok record ↔
      ∃ array : Bytes size, array.bytes = bytes ∧ decode array = .ok record := by
  constructor
  · intro h
    rw [decodeSpan] at h
    split at h
    next hsize => exact ⟨⟨bytes, hsize⟩, rfl, h⟩
    next => cases h
  · rintro ⟨array, rfl, h⟩
    rw [decodeSpan, dif_pos array.size_eq]
    exact h

/-- Decoding spans inverts an encoder of arrays if decoding arrays does. -/
theorem inverse_decodeSpan {α : Type} {size : Nat} {message : String}
    {decode : Bytes size → Result α} {encode : α → Bytes size}
    {encodeInto : α → Result (List Byte)}
    (hinto : ∀ record, encodeInto record = .ok (encode record).bytes)
    (hdecode : ∀ record, decode (encode record) = .ok record)
    (hencode : ∀ bytes record, decode bytes = .ok record → bytes = encode record) :
    Inverse encodeInto (decodeSpan size message decode) := by
  intro record bytes
  rw [hinto, decodeSpan_eq_ok, Except.ok.injEq]
  constructor
  · rintro rfl
    exact ⟨encode record, rfl, hdecode record⟩
  · rintro ⟨array, rfl, h⟩
    rw [hencode array record h]

/-! ## Decoders and encoders -/

/-- `WalHeader::decode` -/
def WalHeader.decodeBytes : List Byte → Result WalHeader :=
  decodeSpan walHeaderSize "Cannot decode WAL header: header size is invalid" decode

/-- `WalHeader::encode_into` -/
def WalHeader.encodeInto (header : WalHeader) (out : List Byte) : Result (List Byte) := do
  failIf (out.length ≠ walHeaderSize)
    (.InvalidArgument "Cannot encode WAL header: header size is invalid")
  let out := put (List.replicate walHeaderSize 0) walMagicBytesOffset walMagicBytes
  let out ← writeU32Le out walFormatVersionOffset walFormatVersion
  let out ← writeU32Le out walPageSizeOffset (.ofNat pageSize)
  let out ← writeU32Le out walHeaderSizeOffset (.ofNat walHeaderSize)
  let out ← writeU64Le out walDatabaseIdOffset header.databaseId
  writeU64Le out walChecksumOffset (checksum (out.take walChecksumOffset))

/-- `WalPageFrame::decode` -/
def WalPageFrame.decodeBytes : List Byte → Result WalPageFrame :=
  decodeSpan walPageFrameRecordSize "Cannot decode WAL page frame: record size is invalid" decode

/-- `WalPageFrame::encode_into` -/
def WalPageFrame.encodeInto (frame : WalPageFrame) (out : List Byte) : Result (List Byte) := do
  failIf (out.length ≠ walPageFrameRecordSize)
    (.InvalidArgument "Cannot encode WAL page frame: record size is invalid")
  let out := List.replicate walPageFrameRecordSize 0
  let out ← writeU32Le out walPageFrameRecordTypeOffset walPageFrameRecordType
  let out ← writeU32Le out walPageFrameRecordSizeOffset (.ofNat walPageFrameRecordSize)
  let out ← writeU64Le out walPageFrameTransactionIdOffset frame.transactionId
  let out ← writeU64Le out walPageFramePageIdOffset frame.pageId
  let out ← writeU32Le out walPageFrameImageSizeOffset (.ofNat pageSize)
  let out := put out walPageFrameImageOffset frame.pageImage.bytes
  writeU64Le out walPageFrameChecksumOffset (checksum (out.take (walPageFrameRecordSize - 8)))

/-- `WalCommitRecord::decode` -/
def WalCommitRecord.decodeBytes : List Byte → Result WalCommitRecord :=
  decodeSpan walCommitRecordSize "Cannot decode WAL commit record: record size is invalid" decode

/-- `WalCommitRecord::encode_into` -/
def WalCommitRecord.encodeInto (record : WalCommitRecord) (out : List Byte) :
    Result (List Byte) := do
  failIf (out.length ≠ walCommitRecordSize)
    (.InvalidArgument "Cannot encode WAL commit record: record size is invalid")
  let out := List.replicate walCommitRecordSize 0
  let out ← writeU32Le out walCommitRecordTypeOffset walCommitRecordType
  let out ← writeU32Le out walCommitRecordSizeOffset (.ofNat walCommitRecordSize)
  let out ← writeU64Le out walCommitRecordTransactionIdOffset record.transactionId
  let out ← writeU64Le out walCommitRecordFrameCountOffset record.frameCount
  writeU64Le out walCommitRecordChecksumOffset (checksum (out.take (walCommitRecordSize - 8)))

/-! ## What is written -/

section Writes

variable {size : Nat} (array : Bytes size) {offset : Nat}

theorem writeU32Le_bytes (value : UInt32) (h : offset + 4 ≤ size) :
    writeU32Le array.bytes offset value =
      .ok (array.put offset (leBytes 4 value.toNat)).bytes :=
  writeLe_ok (by omega) (by rw [array.size_eq]; exact h)

theorem writeU64Le_bytes (value : UInt64) (h : offset + 8 ≤ size) :
    writeU64Le array.bytes offset value =
      .ok (array.put offset (leBytes 8 value.toNat)).bytes :=
  writeLe_ok (by omega) (by rw [array.size_eq]; exact h)

end Writes

theorem WalHeader.encodeInto_eq (header : WalHeader) {out : List Byte}
    (h : out.length = walHeaderSize) : header.encodeInto out = .ok header.encode.bytes := by
  have hzero : put (List.replicate walHeaderSize 0) walMagicBytesOffset walMagicBytes =
      ((Bytes.zero : Bytes 64).put walMagicBytesOffset walMagicBytes).bytes := rfl
  rw [encodeInto, failIf_of_not (not_not_intro h), ok_bind]
  dsimp only
  rw [hzero, writeU32Le_bytes _ _ (by decide), ok_bind, writeU32Le_bytes _ _ (by decide), ok_bind,
    writeU32Le_bytes _ _ (by decide), ok_bind, writeU64Le_bytes _ _ (by decide), ok_bind,
    Bytes.take_eq_slice, writeU64Le_bytes _ _ (by decide)]
  rfl

theorem WalPageFrame.encodeInto_eq (frame : WalPageFrame) {out : List Byte}
    (h : out.length = walPageFrameRecordSize) :
    frame.encodeInto out = .ok frame.encode.bytes := by
  have hzero : List.replicate walPageFrameRecordSize 0 = (Bytes.zero : Bytes 4136).bytes := rfl
  rw [encodeInto, failIf_of_not (not_not_intro h), ok_bind]
  dsimp only
  rw [hzero, writeU32Le_bytes _ _ (by decide), ok_bind, writeU32Le_bytes _ _ (by decide), ok_bind,
    writeU64Le_bytes _ _ (by decide), ok_bind, writeU64Le_bytes _ _ (by decide), ok_bind,
    writeU32Le_bytes _ _ (by decide), ok_bind, ← Bytes.bytes_put, Bytes.take_eq_slice,
    writeU64Le_bytes _ _ (by decide)]
  rfl

theorem WalCommitRecord.encodeInto_eq (record : WalCommitRecord) {out : List Byte}
    (h : out.length = walCommitRecordSize) :
    record.encodeInto out = .ok record.encode.bytes := by
  have hzero : List.replicate walCommitRecordSize 0 = (Bytes.zero : Bytes 32).bytes := rfl
  rw [encodeInto, failIf_of_not (not_not_intro h), ok_bind]
  dsimp only
  rw [hzero, writeU32Le_bytes _ _ (by decide), ok_bind, writeU32Le_bytes _ _ (by decide), ok_bind,
    writeU64Le_bytes _ _ (by decide), ok_bind, writeU64Le_bytes _ _ (by decide), ok_bind,
    Bytes.take_eq_slice, writeU64Le_bytes _ _ (by decide)]
  rfl

/-! ## Both directions -/

/-- What is expected of the records of a log: each can be written over any span
of its size, reading gives back what was written, and what is read is written
back as it was. -/
structure IsCodec {α : Type} (size : Nat) (encodeInto : α → List Byte → Result (List Byte))
    (decode : List Byte → Result α) : Prop where
  /-- Writing over a span of the right size succeeds. -/
  writes : ∀ record (out : Bytes size), ∃ bytes, encodeInto record out.bytes = .ok bytes
  /-- Writing, whatever was there before, and reading are inverse. -/
  inverse : ∀ out : Bytes size, Inverse (fun record => encodeInto record out.bytes) decode
  /-- A record has one stored form. -/
  unique : ∀ record bytes other,
    decode bytes = .ok record → decode other = .ok record → bytes = other

theorem isCodec_decodeSpan {α : Type} {size : Nat} {message : String}
    {decode : Bytes size → Result α} {encode : α → Bytes size}
    {encodeInto : α → List Byte → Result (List Byte)}
    (hinto : ∀ record out, out.length = size → encodeInto record out = .ok (encode record).bytes)
    (hdecode : ∀ record, decode (encode record) = .ok record)
    (hencode : ∀ bytes record, decode bytes = .ok record → bytes = encode record) :
    IsCodec size encodeInto (decodeSpan size message decode) := by
  have hinverse (out : Bytes size) :
      Inverse (fun record => encodeInto record out.bytes) (decodeSpan size message decode) :=
    inverse_decodeSpan (fun record => hinto record out.bytes out.size_eq) hdecode hencode
  constructor
  · intro record out
    exact ⟨_, hinto record out.bytes out.size_eq⟩
  · exact hinverse
  · intro record bytes other hbytes hother
    exact (hinverse .zero).stored_unique hbytes hother

/-- The header, the page frames and the commit records of a log are each written
and read by inverse functions. -/
theorem wal_codecs_inverse :
    IsCodec WalHeader.walHeaderSize WalHeader.encodeInto WalHeader.decodeBytes ∧
    IsCodec WalPageFrame.walPageFrameRecordSize WalPageFrame.encodeInto
      WalPageFrame.decodeBytes ∧
    IsCodec WalCommitRecord.walCommitRecordSize WalCommitRecord.encodeInto
      WalCommitRecord.decodeBytes := by
  refine ⟨?header, ?frame, ?commit⟩
  case header =>
    exact isCodec_decodeSpan (fun header _ => header.encodeInto_eq) WalHeader.decode_encode
      fun _ _ => WalHeader.encode_of_decode
  case frame =>
    exact isCodec_decodeSpan (fun frame _ => frame.encodeInto_eq) WalPageFrame.decode_encode
      fun _ _ => WalPageFrame.encode_of_decode
  case commit =>
    exact isCodec_decodeSpan (fun record _ => record.encodeInto_eq)
      WalCommitRecord.decode_encode fun _ _ => WalCommitRecord.encode_of_decode

end DanDB.Wal
