import DanDB.Lib.Bitmap
import DanDB.Lib.Codec
import DanDB.Record.RowCodec

/-!
# One stored form for each row

`Shows` says what the bytes of a row are: its null bitmap, and for each column
the cell of its value.  Encoding writes bytes that show the row, decoding accepts
exactly these, and there are no two such byte strings.
-/

namespace DanDB.Record

open Buffer DanDB.Core

namespace RowCodec

/-! ## Cells -/

/-- The bytes of a value in the place of its column. -/
def cell : LogicalType → Payload → List Byte
  | type, .null => List.replicate type.fixedSize.toNat 0
  | .int8, .integer value => [value.toInt8.toUInt8]
  | .int16, .integer value => leBytes 2 value.toInt16.toUInt16.toNat
  | .int32, .integer value => leBytes 4 value.toInt32.toUInt32.toNat
  | .int64, .integer value => leBytes 8 value.toUInt64.toNat
  | .float64, .float64 bits => leBytes 8 bits.toNat
  | .string capacity, .string value =>
    value ++ List.replicate (capacity.val.toNat - value.length) 0
  | .boolean, .boolean value => [if value then 1 else 0]
  | _, _ => []

theorem cell_null (type : LogicalType) :
    cell type .null = List.replicate type.fixedSize.toNat 0 := by
  cases type <;> rfl

theorem length_cell {type : LogicalType} {payload : Payload} (h : payload.Fits type) :
    (cell type payload).length = type.fixedSize.toNat := by
  cases payload with
  | null => cases type <;> exact List.length_replicate
  | integer value =>
    cases type with
    | int8 => rfl
    | int16 => exact length_leBytes ..
    | int32 => exact length_leBytes ..
    | int64 => exact length_leBytes ..
    | _ => exact h.elim
  | float64 bits =>
    cases type with
    | float64 => exact length_leBytes ..
    | _ => exact h.elim
  | string value =>
    cases type with
    | string capacity =>
      have hle : value.length ≤ capacity.val.toNat := h
      rw [cell, List.length_append, List.length_replicate]
      exact Nat.add_sub_cancel' hle
    | _ => exact h.elim
  | boolean value =>
    cases type with
    | boolean => rfl
    | _ => exact h.elim

/-- The value has no null character. -/
def NoNull (payload : Payload) : Prop := ∀ bytes, payload = .string bytes → 0 ∉ bytes

theorem noNull_string {bytes : List Byte} : NoNull (.string bytes) ↔ 0 ∉ bytes :=
  ⟨fun h => h bytes rfl, fun h _ heq => Payload.string.inj heq ▸ h⟩

/-- A value of a type is null or has the payload of the type. -/
theorem fits_cases {type : LogicalType} {payload : Payload} (h : payload.Fits type) :
    payload = .null ∨ match type with
      | .int8 | .int16 | .int32 | .int64 => ∃ integer, payload = .integer integer
      | .float64 => ∃ bits, payload = .float64 bits
      | .string _ => ∃ bytes, payload = .string bytes
      | .boolean => ∃ boolean, payload = .boolean boolean := by
  cases payload <;> cases type <;> first
    | exact .inl rfl
    | exact .inr ⟨_, rfl⟩
    | exact h.elim

theorem validateValue_iff {column : Column} {value : Value} :
    validateValue column value = .ok () ↔ value.type = column.logicalType ∧
      (value.isNull = true → column.nullable = true) ∧ NoNull value.payload := by
  constructor
  · intro h
    have htype := type_of_validateValue h
    simp only [validateValue, bind_eq_ok, failIf_eq_ok] at h
    obtain ⟨-, -, -, -, hpayload⟩ := h
    refine ⟨htype, fun hnull => ?_, fun bytes hstring => ?_⟩
    · rw [Value.isNull, decide_eq_true_iff] at hnull
      rw [hnull] at hpayload
      exact Bool.eq_true_of_not_eq_false (failIf_eq_ok.mp hpayload)
    · rw [hstring] at hpayload
      simp only [bind_eq_ok, failIf_eq_ok] at hpayload
      obtain ⟨_, -, hnot⟩ := hpayload
      exact hnot
  · rintro ⟨htype, hnullable, hnull⟩
    obtain ⟨type, payload, hfits⟩ := value
    obtain rfl : type = column.logicalType := htype
    simp only [validateValue, bind_eq_ok, failIf_eq_ok]
    refine ⟨(), fun hne => hne rfl, (), fun hne => hne.2 rfl, ?_⟩
    cases payload with
    | null =>
      rw [failIf_eq_ok, hnullable rfl]
      exact Bool.noConfusion
    | string bytes =>
      simp only [bind_eq_ok, failIf_eq_ok]
      refine ⟨(), ?_, hnull bytes rfl⟩
      cases htype : column.logicalType with
      | string capacity =>
        rw [htype] at hfits
        exact Nat.not_lt_of_le hfits
      | _ =>
        rw [htype] at hfits
        exact hfits.elim
    | _ => rfl

/-! ## Reading a cell -/

section Read

variable {bytes : List Byte} {offset i : Nat} {value : Value}

theorem fetch_eq {byte : Byte} : fetch bytes i = .ok byte ↔ bytes[i]? = some byte := by
  rw [fetch]
  cases bytes[i]? with
  | none => constructor <;> rintro ⟨⟩
  | some b =>
    exact ⟨fun h => congrArg some (Except.ok.inj h), fun h => congrArg _ (Option.some.inj h)⟩

theorem slice_one (h : offset < bytes.length) : slice bytes offset 1 = [bytes[offset]] := by
  rw [slice, List.take_one, List.head?_drop, List.getElem?_eq_getElem h]
  rfl

theorem fetch_ok (h : offset + 1 ≤ bytes.length) :
    ∃ byte, fetch bytes offset = .ok byte ∧ slice bytes offset 1 = [byte] :=
  ⟨bytes[offset], fetch_eq.mpr (List.getElem?_eq_getElem h), slice_one h⟩

/-- A slice is the bytes of the number that is read from it. -/
theorem leBytes_slice {n : Nat} (h : offset + n ≤ bytes.length) :
    leBytes n (leValue (slice bytes offset n)) = slice bytes offset n := by
  have hround := leBytes_leValue (slice bytes offset n)
  rwa [length_slice h] at hround

theorem slice_lt {n : Nat} (h : offset + n ≤ bytes.length) :
    leValue (slice bytes offset n) < 256 ^ n := by
  have hlt := leValue_lt (slice bytes offset n)
  rwa [length_slice h] at hlt

/-- A narrow integer type takes every integer of its width, and no other. -/
theorem narrow_eq {type : LogicalType} {integer : Int64} :
    Value.narrow type integer = .ok value ↔
      value.type = type ∧ value.payload = .integer integer := by
  rw [Value.narrow]
  constructor
  · intro h
    split at h
    · cases h
      exact ⟨rfl, rfl⟩
    · cases h
  · obtain ⟨type', payload, hfits⟩ := value
    rintro ⟨rfl, rfl⟩
    rw [dif_pos hfits]

theorem ok_iff (type : LogicalType) (payload : Payload) (hfits : payload.Fits type) :
    (Except.ok ⟨type, payload, hfits⟩ : Except Failure Value) = .ok value ↔
      value.type = type ∧ value.payload = payload := by
  constructor
  · intro h
    cases h
    exact ⟨rfl, rfl⟩
  · obtain ⟨type', payload', hfits'⟩ := value
    rintro ⟨rfl, rfl⟩
    rfl

theorem bmod_of_fits {k : Nat} {integer : Int64} (h : fitsInteger (k + 1) integer = true) :
    integer.toInt.bmod (2 ^ (k + 1)) = integer.toInt := by
  rw [fitsInteger, decide_eq_true_iff, Nat.add_sub_cancel] at h
  have hpow : ((2 ^ (k + 1) : Nat) : Int) = 2 * 2 ^ k := by
    rw [Nat.pow_succ]
    push_cast
    ring
  refine Int.bmod_eq_of_le ?_ ?_
  · rw [hpow]
    omega
  · rw [hpow]
    omega

theorem mapError_eq_ok {α ε ε' : Type} {f : ε → ε'} {x : Except ε α} {a : α} :
    x.mapError f = .ok a ↔ x = .ok a := by
  cases x with
  | error e => exact ⟨nofun, nofun⟩
  | ok b => exact ⟨fun h => congrArg _ (Except.ok.inj h), fun h => congrArg _ (Except.ok.inj h)⟩

/-- A slice holds the number that is read from it, and no other. -/
theorem leValue_eq_iff {n number : Nat} (h : offset + n ≤ bytes.length) (hlt : number < 256 ^ n) :
    leValue (slice bytes offset n) = number ↔ slice bytes offset n = leBytes n number := by
  constructor
  · intro hread
    rw [← leBytes_slice h, hread]
  · intro hslice
    rw [hslice, leValue_leBytes_of_lt hlt]

theorem read16_iff {word : UInt16} (h : offset + 2 ≤ bytes.length) :
    UInt16.ofNat (leValue (slice bytes offset 2)) = word ↔
      slice bytes offset 2 = leBytes 2 word.toNat := by
  rw [← leValue_eq_iff h word.toNat_lt, ← UInt16.toNat_inj, UInt16.toNat_ofNat',
    Nat.mod_eq_of_lt (show _ < 2 ^ 16 from slice_lt h)]

theorem read32_iff {word : UInt32} (h : offset + 4 ≤ bytes.length) :
    UInt32.ofNat (leValue (slice bytes offset 4)) = word ↔
      slice bytes offset 4 = leBytes 4 word.toNat := by
  rw [← leValue_eq_iff h word.toNat_lt, ← UInt32.toNat_inj, UInt32.toNat_ofNat',
    Nat.mod_eq_of_lt (show _ < 2 ^ 32 from slice_lt h)]

theorem read64_iff {word : UInt64} (h : offset + 8 ≤ bytes.length) :
    UInt64.ofNat (leValue (slice bytes offset 8)) = word ↔
      slice bytes offset 8 = leBytes 8 word.toNat := by
  rw [← leValue_eq_iff h word.toNat_lt, ← UInt64.toNat_inj, UInt64.toNat_ofNat',
    Nat.mod_eq_of_lt (show _ < 2 ^ 64 from slice_lt h)]

theorem int8_iff {raw : UInt8} {integer : Int64} (h : fitsInteger 8 integer = true) :
    integer = raw.toInt8.toInt64 ↔ raw = integer.toInt8.toUInt8 := by
  constructor
  · rintro rfl
    rw [Int8.toInt8_toInt64, UInt8.toUInt8_toInt8]
  · rintro rfl
    rw [Int8.toInt8_toUInt8, ← Int64.toInt_inj, Int8.toInt_toInt64, Int64.toInt_toInt8]
    exact (bmod_of_fits h).symm

theorem int16_iff {raw : UInt16} {integer : Int64} (h : fitsInteger 16 integer = true) :
    integer = raw.toInt16.toInt64 ↔ raw = integer.toInt16.toUInt16 := by
  constructor
  · rintro rfl
    rw [Int16.toInt16_toInt64, UInt16.toUInt16_toInt16]
  · rintro rfl
    rw [Int16.toInt16_toUInt16, ← Int64.toInt_inj, Int16.toInt_toInt64, Int64.toInt_toInt16]
    exact (bmod_of_fits h).symm

theorem int32_iff {raw : UInt32} {integer : Int64} (h : fitsInteger 32 integer = true) :
    integer = raw.toInt32.toInt64 ↔ raw = integer.toInt32.toUInt32 := by
  constructor
  · rintro rfl
    rw [Int32.toInt32_toInt64, UInt32.toUInt32_toInt32]
  · rintro rfl
    rw [Int32.toInt32_toUInt32, ← Int64.toInt_inj, Int32.toInt_toInt64, Int64.toInt_toInt32]
    exact (bmod_of_fits h).symm

theorem int64_iff {raw : UInt64} {integer : Int64} :
    integer = raw.toInt64 ↔ raw = integer.toUInt64 := by
  constructor
  · rintro rfl
    rw [UInt64.toUInt64_toInt64]
  · rintro rfl
    rw [Int64.toInt64_toUInt64]

theorem boolean_iff {byte : Byte} {boolean : Bool} (h : ¬byte > 1) :
    boolean = decide (byte = 1) ↔ byte = if boolean then 1 else 0 := by
  have hcases : byte = 0 ∨ byte = 1 := by
    rw [gt_iff_lt, UInt8.lt_iff_toNat_lt, ← UInt8.toNat_inj, ← UInt8.toNat_inj] at *
    have hone : (1 : UInt8).toNat = 1 := rfl
    have hzero : (0 : UInt8).toNat = 0 := rfl
    omega
  obtain rfl | rfl := hcases <;> cases boolean <;> decide

/-- The value is not null, and the slice holds its cell. -/
def InCell (bytes : List Byte) (offset : Nat) (type : LogicalType) (payload : Payload) : Prop :=
  payload ≠ .null ∧ NoNull payload ∧
    slice bytes offset type.fixedSize.toNat = cell type payload

/-- A payload that is read as `mk read`, where a value of the type that is not null
is one `mk` of something. -/
theorem inCell_iff {β : Type} {type : LogicalType} {payload : Payload} {mk : β → Payload}
    {read : β} (hpayload : payload = .null ∨ ∃ b, payload = mk b) (hnull : ∀ b, mk b ≠ .null)
    (hmk : ∀ b c, mk b = mk c → b = c) (hchar : ∀ b, NoNull (mk b))
    (hcell : ∀ b, payload = mk b →
      (b = read ↔ slice bytes offset type.fixedSize.toNat = cell type (mk b))) :
    payload = mk read ↔ InCell bytes offset type payload := by
  cases hpayload with
  | inl hpayload =>
    subst hpayload
    exact ⟨fun h => (hnull read h.symm).elim, fun h => (h.1 rfl).elim⟩
  | inr hpayload =>
    obtain ⟨b, rfl⟩ := hpayload
    constructor
    · intro h
      exact ⟨hnull b, hchar b, (hcell b rfl).mp (hmk b read h)⟩
    · rintro ⟨-, -, hslice⟩
      rw [(hcell b rfl).mpr hslice]

/-! ### Strings -/

theorem slice_succ {n : Nat} (h : offset + (n + 1) ≤ bytes.length) :
    slice bytes offset (n + 1) = bytes[offset] :: slice bytes (offset + 1) n := by
  rw [Nat.add_comm n 1, ← slice_append_slice, slice_one (by omega)]
  rfl

/-- The characters of a string are those before the first null character. -/
theorem readString_eq {n : Nat} (h : offset + n ≤ bytes.length) :
    readString bytes offset n = .ok ((slice bytes offset n).takeWhile (· ≠ 0)) := by
  induction n generalizing offset with
  | zero => rfl
  | succ n ih =>
    have hfetch : fetch bytes offset = .ok bytes[offset] :=
      fetch_eq.mpr (List.getElem?_eq_getElem (by omega))
    rw [readString, hfetch, slice_succ h]
    show (if bytes[offset] = 0 then _ else _) = _
    by_cases hzero : bytes[offset] = 0
    · rw [if_pos hzero, List.takeWhile_cons, if_neg (by simp [hzero])]
      rfl
    · rw [if_neg hzero, List.takeWhile_cons, if_pos (by simp [hzero]), ih (by omega)]
      rfl

theorem subspan_eq {count : Nat} (h : offset + count ≤ bytes.length) :
    subspan bytes offset count = .ok (slice bytes offset count) :=
  if_pos h

theorem rejectIf_eq_ok {condition : Prop} [Decidable condition] {status : Status} {u : Unit} :
    rejectIf condition status = .ok u ↔ ¬condition := by
  rw [rejectIf]
  split
  next h => exact ⟨nofun, fun hnot => (hnot h).elim⟩
  next h => exact ⟨fun _ => h, fun _ => rfl⟩

theorem string_iff {capacity : Capacity} {string : List Byte}
    (h : string.length ≤ capacity.val.toNat) :
    Value.string string capacity.val = .ok value ↔
      value.type = .string capacity ∧ value.payload = .string string := by
  have htype : LogicalType.ofCapacity capacity.val = .ok (.string capacity) :=
    dif_neg capacity.property
  rw [Value.string, htype]
  show (if h : (Payload.string string).Fits (.string capacity) then _ else _) = _ ↔ _
  rw [dif_pos (show (Payload.string string).Fits (.string capacity) from h)]
  obtain ⟨type, payload, hfits⟩ := value
  constructor
  · intro hvalue
    cases hvalue
    exact ⟨rfl, rfl⟩
  · rintro ⟨rfl, rfl⟩
    rfl

/-- What follows the characters is zero, and they make a value. -/
theorem decodeString_eq_ok {capacity : Capacity} {stored string : List Byte}
    (h : offset + capacity.val.toNat ≤ bytes.length)
    (hstored : slice bytes offset capacity.val.toNat = stored)
    (hstring : stored.takeWhile (· ≠ 0) = string) :
    decodeString bytes offset capacity.val = .ok value ↔
      bytesAreZero (stored.drop string.length) = true ∧
        Value.string string capacity.val = .ok value := by
  have hlength : stored.length = capacity.val.toNat := by rw [← hstored, length_slice h]
  have hle : string.length ≤ capacity.val.toNat := by
    rw [← hlength, ← hstring]
    exact (List.takeWhile_prefix _).length_le
  rw [decodeString, readString_eq h, hstored, hstring]
  show (if string.length < capacity.val.toNat then _ else _) = _ ↔ _
  have hpadding : slice bytes (offset + string.length) (capacity.val.toNat - string.length) =
      stored.drop string.length := by
    rw [← hstored, slice, slice, List.drop_take, List.drop_drop]
  by_cases hlt : string.length < capacity.val.toNat
  · rw [if_pos hlt, subspan_eq (by omega), hpadding]
    simp only [bind_eq_ok, Except.ok.injEq, rejectIf_eq_ok, mapError_eq_ok, exists_eq_left',
      Bool.not_eq_false]
    constructor
    · rintro ⟨_, hzero, hvalue⟩
      exact ⟨hzero, hvalue⟩
    · rintro ⟨hzero, hvalue⟩
      exact ⟨(), hzero, hvalue⟩
  · rw [if_neg hlt, mapError_eq_ok, List.drop_eq_nil_of_le (by omega)]
    exact (and_iff_right rfl).symm

theorem takeWhile_cell {string : List Byte} (h : 0 ∉ string) (n : Nat) :
    (string ++ List.replicate n 0).takeWhile (· ≠ 0) = string := by
  have hall : ∀ b ∈ string, decide (b ≠ 0) = true :=
    fun b hb => decide_eq_true fun hzero => h (hzero ▸ hb)
  rw [List.takeWhile_append_of_pos hall]
  cases n with
  | zero => exact List.append_nil _
  | succ n => exact List.append_nil _

theorem decodeString_iff {capacity : Capacity} (h : offset + capacity.val.toNat ≤ bytes.length) :
    decodeString bytes offset capacity.val = .ok value ↔ value.type = .string capacity ∧
      InCell bytes offset (.string capacity) value.payload := by
  generalize hstored : slice bytes offset capacity.val.toNat = stored
  generalize hstring : stored.takeWhile (· ≠ 0) = string
  have hlength : stored.length = capacity.val.toNat := by rw [← hstored, length_slice h]
  have hprefix : string <+: stored := hstring ▸ List.takeWhile_prefix _
  have hle : string.length ≤ capacity.val.toNat := hlength ▸ hprefix.length_le
  rw [decodeString_eq_ok h hstored hstring, string_iff hle]
  constructor
  · rintro ⟨hzero, htype, hpayload⟩
    refine ⟨htype, by rw [hpayload]; exact nofun, ?_, ?_⟩
    · rw [hpayload, noNull_string, ← hstring]
      intro hmem
      have hne := List.mem_takeWhile_imp (p := fun b => decide (b ≠ 0)) hmem
      exact of_decide_eq_true hne rfl
    · rw [hpayload]
      show slice bytes offset capacity.val.toNat = _
      rw [bytesAreZero_iff, List.length_drop, hlength] at hzero
      rw [hstored, cell, ← hzero]
      exact (List.prefix_iff_eq_append.mp hprefix).symm
  · rintro ⟨htype, hne, hchar, hcell⟩
    obtain ⟨type, payload, hfits⟩ := value
    subst htype
    cases payload with
    | null => exact (hne rfl).elim
    | string characters =>
      have hcell : stored = characters ++
          List.replicate (capacity.val.toNat - characters.length) 0 := hstored ▸ hcell
      have heq : characters = string := by
        rw [← hstring, hcell, takeWhile_cell (noNull_string.mp hchar)]
      subst heq
      refine ⟨?_, rfl, rfl⟩
      rw [hcell, List.drop_left, bytesAreZero_iff, List.length_replicate]
    | _ => exact hfits.elim

/-! ### All types -/

/-- What is read in the place of a column that is not null. -/
theorem decodePayload_iff {type : LogicalType} (h : offset + type.fixedSize.toNat ≤ bytes.length) :
    decodePayload bytes offset type = .ok value ↔
      value.type = type ∧ InCell bytes offset type value.payload := by
  cases type with
  | int8 =>
    obtain ⟨raw, hraw, hslice⟩ := fetch_ok h
    rw [decodePayload, hraw]
    show Except.mapError _ _ = _ ↔ _
    rw [mapError_eq_ok, Value.int8, narrow_eq]
    refine and_congr_right fun htype => ?_
    have hfits := htype ▸ value.fits
    refine inCell_iff (fits_cases hfits) nofun (fun _ _ => Payload.integer.inj) nofun ?_
    intro integer hpayload
    rw [hpayload] at hfits
    rw [int8_iff hfits]
    show _ ↔ slice bytes offset 1 = [_]
    rw [hslice, List.singleton_inj]
  | int16 =>
    rw [decodePayload, readU16Le_ok h]
    show Except.mapError _ _ = _ ↔ _
    rw [mapError_eq_ok, Value.int16, narrow_eq]
    refine and_congr_right fun htype => ?_
    have hfits := htype ▸ value.fits
    refine inCell_iff (fits_cases hfits) nofun (fun _ _ => Payload.integer.inj) nofun ?_
    intro integer hpayload
    rw [hpayload] at hfits
    rw [int16_iff hfits]
    exact read16_iff h
  | int32 =>
    rw [decodePayload, readU32Le_ok h]
    show Except.mapError _ _ = _ ↔ _
    rw [mapError_eq_ok, Value.int32, narrow_eq]
    refine and_congr_right fun htype => ?_
    have hfits := htype ▸ value.fits
    refine inCell_iff (fits_cases hfits) nofun (fun _ _ => Payload.integer.inj) nofun ?_
    intro integer hpayload
    rw [hpayload] at hfits
    rw [int32_iff hfits]
    exact read32_iff h
  | int64 =>
    rw [decodePayload, readU64Le_ok h]
    refine (ok_iff .int64 (.integer _) trivial).trans (and_congr_right fun htype => ?_)
    refine inCell_iff (fits_cases (htype ▸ value.fits)) nofun (fun _ _ => Payload.integer.inj)
      nofun ?_
    intro integer _
    rw [int64_iff]
    exact read64_iff h
  | float64 =>
    rw [decodePayload, readU64Le_ok h]
    refine (ok_iff .float64 (.float64 _) trivial).trans (and_congr_right fun htype => ?_)
    refine inCell_iff (fits_cases (htype ▸ value.fits)) nofun (fun _ _ => Payload.float64.inj)
      nofun ?_
    intro bits _
    rw [eq_comm]
    exact read64_iff h
  | string capacity => exact decodeString_iff h
  | boolean =>
    obtain ⟨byte, hbyte, hslice⟩ := fetch_ok h
    rw [decodePayload, hbyte]
    show (rejectIf (byte > 1) _ >>= fun _ => Except.ok (Value.boolean (decide (byte = 1)))) = _ ↔ _
    by_cases hgt : byte > 1
    · rw [rejectIf, if_pos hgt]
      refine ⟨nofun, ?_⟩
      rintro ⟨htype, hne, -, hcell⟩
      cases fits_cases (htype ▸ value.fits) with
      | inl hnull => exact (hne hnull).elim
      | inr hpayload =>
        obtain ⟨boolean, hpayload⟩ := hpayload
        rw [hpayload] at hcell
        obtain rfl := List.singleton_inj.mp (hslice.symm.trans hcell)
        cases boolean with
        | false => exact absurd hgt (by decide)
        | true => exact absurd hgt (by decide)
    · rw [rejectIf, if_neg hgt]
      refine (ok_iff .boolean (.boolean _) trivial).trans (and_congr_right fun htype => ?_)
      refine inCell_iff (fits_cases (htype ▸ value.fits)) nofun (fun _ _ => Payload.boolean.inj)
        nofun ?_
      intro boolean _
      show _ ↔ slice bytes offset 1 = [if boolean then 1 else 0]
      rw [hslice, List.singleton_inj, boolean_iff hgt]

end Read

/-! ## What bytes show -/

/-- The bytes have a value of their column `i`, in its place and in the null bitmap. -/
def ShowsValue (bytes : List Byte) (i : Nat) (column : Column) (value : Value) : Prop :=
  validateValue column value = .ok () ∧ Bitmap.bit bytes i = value.isNull ∧
    slice bytes column.fixedOffset.toNat column.logicalType.fixedSize.toNat =
      cell column.logicalType value.payload

/-- The bytes have values of their columns from `i` on. -/
def ShowsFrom (bytes : List Byte) : Nat → List Column → List Value → Prop
  | _, [], [] => True
  | i, column :: columns, value :: values =>
    ShowsValue bytes i column value ∧ ShowsFrom bytes (i + 1) columns values
  | _, _, _ => False

/-- The bytes are those of a row. -/
structure Shows (schema : Schema) (bytes : List Byte) (row : Row) : Prop where
  length : bytes.length = schema.rowSize.toNat
  values : ShowsFrom bytes 0 schema.columns row.values
  unused : ∀ i, schema.columns.length ≤ i → i < 8 * schema.nullBitmapSize.toNat →
    Bitmap.bit bytes i = false

section Decode

variable {bytes : List Byte} {i : Nat} {column : Column} {value : Value}

theorem isNullAt_eq (h : i / 8 < bytes.length) : isNullAt bytes i = .ok (Bitmap.bit bytes i) := by
  have hfetch : fetch bytes (i / 8) = .ok bytes[i / 8] :=
    fetch_eq.mpr (List.getElem?_eq_getElem h)
  have hiff : bytes[i / 8] &&& nullBit i ≠ 0 ↔ Bitmap.bit bytes i = true := by
    rw [Bitmap.bit, List.getD_eq_getElem?_getD, List.getElem?_eq_getElem h]
    exact Bitmap.and_mask_ne_zero i
  rw [isNullAt, hfetch]
  exact congrArg Except.ok (Bool.eq_iff_iff.mpr (decide_eq_true_iff.trans hiff))

/-- One column is accepted exactly when the bytes show it. -/
theorem decodeValue_iff (hbit : i / 8 < bytes.length) (hplace : column.fixedEnd ≤ bytes.length) :
    checkNull bytes i column = .ok () ∧ decodeValue bytes i column = .ok value ↔
      ShowsValue bytes i column value := by
  rw [checkNull, decodeValue, isNullAt_eq hbit, ShowsValue, validateValue_iff]
  cases hnull : Bitmap.bit bytes i with
  | true =>
    show (rejectIf _ _ >>= fun _ => _ >>= fun payload => rejectIf _ _) = _ ∧
      Except.ok (Value.null column.logicalType) = _ ↔ _
    simp only [bind_eq_ok, rejectIf_eq_ok, subspan_eq hplace, Except.ok.injEq, exists_eq_left',
      exists_const, Bool.not_eq_false]
    rw [bytesAreZero_iff, length_slice hplace]
    constructor
    · rintro ⟨⟨hnullable, hzero⟩, rfl⟩
      refine ⟨⟨rfl, fun _ => hnullable, by rintro _ ⟨⟩⟩, rfl, ?_⟩
      exact hzero.trans (cell_null column.logicalType).symm
    · rintro ⟨⟨htype, hnullable, -⟩, hisNull, hcell⟩
      obtain ⟨type, payload, hfits⟩ := value
      obtain rfl : type = column.logicalType := htype
      obtain rfl : payload = .null := of_decide_eq_true hisNull.symm
      exact ⟨⟨hnullable rfl, hcell.trans (cell_null column.logicalType)⟩, rfl⟩
  | false =>
    show Except.ok () = _ ∧ decodePayload bytes _ _ = _ ↔ _
    rw [decodePayload_iff hplace, InCell]
    constructor
    · rintro ⟨-, htype, hne, hchar, hcell⟩
      have hisNull : value.isNull = false := decide_eq_false hne
      refine ⟨⟨htype, fun h => ?_, hchar⟩, hisNull.symm, hcell⟩
      exact Bool.noConfusion (h.symm.trans hisNull)
    · rintro ⟨⟨htype, -, hchar⟩, hisNull, hcell⟩
      exact ⟨rfl, htype, of_decide_eq_false hisNull.symm, hchar, hcell⟩

/-- The two loops accept exactly the values that the bytes show. -/
theorem decodeValues_iff {columns : List Column} {values : List Value}
    (hbits : (i + columns.length + 7) / 8 ≤ bytes.length)
    (hplaces : ∀ column ∈ columns, column.fixedEnd ≤ bytes.length) :
    checkNulls bytes i columns = .ok () ∧ decodeValues bytes i columns = .ok values ↔
      ShowsFrom bytes i columns values := by
  induction columns generalizing i values with
  | nil =>
    cases values with
    | nil => exact ⟨fun _ => trivial, fun _ => ⟨rfl, rfl⟩⟩
    | cons value values => exact ⟨fun h => (nomatch h.2), False.elim⟩
  | cons column columns ih =>
    rw [List.length_cons] at hbits
    have hbit : i / 8 < bytes.length := by omega
    have hplace := hplaces column (List.mem_cons_self ..)
    have hrest {values : List Value} := @ih (i + 1) values (by omega)
      fun other hmem => hplaces other (List.mem_cons_of_mem _ hmem)
    rw [checkNulls, decodeValues]
    simp only [bind_eq_ok]
    constructor
    · rintro ⟨⟨_, hcheck, hchecks⟩, value, hvalue, values, hvalues, hcons⟩
      obtain rfl := Except.ok.inj hcons
      exact ⟨(decodeValue_iff hbit hplace).mp ⟨hcheck, hvalue⟩, hrest.mp ⟨hchecks, hvalues⟩⟩
    · cases values with
      | nil => exact False.elim
      | cons value values =>
        rintro ⟨hvalue, hvalues⟩
        obtain ⟨hcheck, hdecode⟩ := (decodeValue_iff hbit hplace).mpr hvalue
        obtain ⟨hchecks, hdecodes⟩ := hrest.mpr hvalues
        exact ⟨⟨(), hcheck, hchecks⟩, value, hdecode, values, hdecodes, rfl⟩

/-- The check of the last byte of the null bitmap is one of every bit behind the
columns. -/
theorem checkUnusedBits_iff {schema : Schema}
    (hbitmap : schema.nullBitmapSize.toNat = (schema.columns.length + 7) / 8)
    (hlength : schema.nullBitmapSize.toNat ≤ bytes.length) :
    checkUnusedBits schema bytes = .ok () ↔ ∀ i, schema.columns.length ≤ i →
      i < 8 * schema.nullBitmapSize.toNat → Bitmap.bit bytes i = false := by
  rw [checkUnusedBits]
  generalize schema.columns.length = n at hbitmap
  by_cases hused : n % 8 = 0
  · refine ⟨fun _ i hle hlt => ?_, fun _ => if_neg (not_not.mpr hused)⟩
    omega
  · have hlast : schema.nullBitmapSize.toNat - 1 < bytes.length := by omega
    have hfetch : fetch bytes (schema.nullBitmapSize.toNat - 1) =
        .ok bytes[schema.nullBitmapSize.toNat - 1] := fetch_eq.mpr (List.getElem?_eq_getElem hlast)
    have hbyte : bytes.getD (schema.nullBitmapSize.toNat - 1) 0 =
        bytes[schema.nullBitmapSize.toNat - 1] := by
      rw [List.getD_eq_getElem?_getD, List.getElem?_eq_getElem hlast, Option.getD_some]
    rw [if_pos hused, hfetch]
    show rejectIf (bytes[schema.nullBitmapSize.toNat - 1] &&& Bitmap.highMask (n % 8) ≠ 0) _ = _ ↔ _
    rw [rejectIf_eq_ok, not_not, Bitmap.and_highMask_eq_zero (Nat.mod_lt n (by decide)), ← hbyte]
    constructor
    · intro h i hle hlt
      have hdiv : i / 8 = schema.nullBitmapSize.toNat - 1 := by omega
      rw [Bitmap.bit, hdiv]
      exact h (i % 8) (Nat.mod_lt i (by decide)) (by omega)
    · intro h k hk hle
      have hbit := h (8 * (schema.nullBitmapSize.toNat - 1) + k) (by omega) (by omega)
      have hdiv : (8 * (schema.nullBitmapSize.toNat - 1) + k) / 8 =
          schema.nullBitmapSize.toNat - 1 := by omega
      have hmod : (8 * (schema.nullBitmapSize.toNat - 1) + k) % 8 = k := by omega
      rwa [Bitmap.bit, hdiv, hmod] at hbit

/-- The columns of a schema lie one after the other behind the null bitmap. -/
structure Regular (schema : Schema) : Prop where
  bitmap : schema.nullBitmapSize.toNat = (schema.columns.length + 7) / 8
  laidOut : Schema.LaidOut schema.nullBitmapSize.toNat schema.columns schema.rowSize.toNat

theorem Regular.bitmap_le {schema : Schema} (h : Regular schema) :
    schema.nullBitmapSize.toNat ≤ schema.rowSize.toNat :=
  h.laidOut.le

theorem Regular.place_le {schema : Schema} (h : Regular schema) :
    ∀ column ∈ schema.columns, column.fixedEnd ≤ schema.rowSize.toNat :=
  fun column hmem => (h.laidOut.bounds column hmem).2

/-- What is accepted as a row are the bytes that show it. -/
theorem decode_iff {schema : Schema} {row : Row} (hschema : Regular schema) :
    decode schema bytes = .ok row ↔ Shows schema bytes row := by
  have hbitmap := hschema.bitmap
  have hle := hschema.bitmap_le
  have hvalues {values : List Value} (hlength : bytes.length = schema.rowSize.toNat) :=
    @decodeValues_iff bytes 0 schema.columns values (by omega)
      fun column hmem => hlength ▸ hschema.place_le column hmem
  have hbits (hlength : bytes.length = schema.rowSize.toNat) :=
    @checkUnusedBits_iff bytes schema hbitmap (by omega)
  rw [decode]
  simp only [bind_eq_ok, rejectIf_eq_ok, not_not]
  constructor
  · rintro ⟨_, hlength, _, hchecks, _, hunused, values, hdecode, hrow⟩
    obtain rfl := Except.ok.inj hrow
    exact ⟨hlength.symm, (hvalues hlength.symm).mp ⟨hchecks, hdecode⟩,
      (hbits hlength.symm).mp hunused⟩
  · rintro ⟨hlength, hshows, hunused⟩
    obtain ⟨hchecks, hdecode⟩ := (hvalues hlength).mpr hshows
    exact ⟨(), hlength.symm, (), hchecks, (), (hbits hlength).mpr hunused, row.values, hdecode, rfl⟩

end Decode

/-! ## What is written -/

section Encode

variable {bytes bytes' : List Byte}

/-- Whether the value at a position is null. -/
def nullAt (values : List Value) (i : Nat) : Bool := (values[i]?).any Value.isNull

theorem put_singleton {i : Nat} {byte : Byte} (h : i < bytes.length) :
    put bytes i [byte] = bytes.set i byte := by
  rw [put_of_le h, splice, List.set_eq_take_append_cons_drop, if_pos h, List.append_assoc]
  rfl

theorem markNull_spec {i : Nat} {value : Value} (hi : i / 8 < bytes.length)
    (h : markNull i bytes value = .ok bytes') :
    bytes'.length = bytes.length ∧
      (∀ j, Bitmap.bit bytes' j = (Bitmap.bit bytes j || decide (j = i) && value.isNull)) ∧
      ∀ offset len, i / 8 < offset → slice bytes' offset len = slice bytes offset len := by
  rw [markNull] at h
  cases hnull : value.isNull with
  | true =>
    rw [if_pos hnull, store, if_neg (fun hlt => absurd hlt.2 (Nat.not_lt_of_le hi))] at h
    obtain rfl := Except.ok.inj h
    refine ⟨length_put .., fun j => ?_, fun offset len hlt => slice_put_after hlt⟩
    rw [put_singleton hi, Bool.and_true]
    exact Bitmap.bit_or_mask hi j
  | false =>
    rw [if_neg (by rw [hnull]; exact Bool.noConfusion)] at h
    obtain rfl := Except.ok.inj h
    refine ⟨rfl, fun j => ?_, fun _ _ _ => rfl⟩
    rw [Bool.and_false, Bool.or_false]

/-- The first loop sets the bits of the null values and changes nothing behind the
null bitmap. -/
theorem markNulls_spec {i : Nat} {values : List Value} (h : markNulls i bytes values = .ok bytes')
    (hbits : (i + values.length + 7) / 8 ≤ bytes.length) :
    bytes'.length = bytes.length ∧
      (∀ j, Bitmap.bit bytes' j =
        (Bitmap.bit bytes j || decide (i ≤ j) && nullAt values (j - i))) ∧
      ∀ offset len, (i + values.length + 7) / 8 ≤ offset →
        slice bytes' offset len = slice bytes offset len := by
  induction values generalizing i bytes with
  | nil =>
    obtain rfl := Except.ok.inj h
    refine ⟨rfl, fun j => ?_, fun _ _ _ => rfl⟩
    rw [nullAt, List.getElem?_nil, Option.any_none, Bool.and_false, Bool.or_false]
  | cons value values ih =>
    rw [List.length_cons] at hbits ⊢
    obtain ⟨marked, hmark, hrest⟩ := bind_eq_ok.mp h
    obtain ⟨hlength, hbit, hbehind⟩ := markNull_spec (by omega) hmark
    obtain ⟨hlength', hbit', hbehind'⟩ := ih hrest (by omega)
    refine ⟨hlength'.trans hlength, fun j => ?_, fun offset len hle => ?_⟩
    · rw [hbit', hbit, Bool.or_assoc]
      congr 1
      rcases Nat.lt_trichotomy j i with hlt | heq | hgt
      · rw [decide_eq_false (by omega), decide_eq_false (by omega), decide_eq_false (by omega)]
        rfl
      · subst heq
        rw [decide_eq_true rfl, decide_eq_false (by omega), decide_eq_true (Nat.le_refl j),
          Nat.sub_self]
        simp [nullAt]
      · rw [decide_eq_false (by omega), decide_eq_true (by omega), decide_eq_true (by omega)]
        obtain ⟨k, rfl⟩ : ∃ k, j = i + 1 + k := ⟨j - (i + 1), by omega⟩
        rw [Nat.add_sub_cancel_left, show i + 1 + k - i = k + 1 by omega]
        simp [nullAt]
    · rw [hbehind' offset len (by omega), hbehind offset len (by omega)]

theorem store_eq {offset : Nat} {data : List Byte} (h : offset + data.length ≤ bytes.length) :
    store bytes offset data = .ok (put bytes offset data) :=
  if_neg fun hlt => absurd hlt.2 (Nat.not_lt_of_le h)

theorem checked_eq {offset width number : Nat} {message : String} (hwidth : 0 < width)
    (h : offset + width ≤ bytes.length) :
    checked (writeLe width message bytes offset number) =
      .ok (put bytes offset (leBytes width number)) := by
  rw [writeLe_ok hwidth h]
  rfl

theorem put_nil {offset : Nat} (h : offset ≤ bytes.length) : put bytes offset [] = bytes := by
  rw [put_of_le h, splice, List.append_nil]
  exact List.take_append_drop ..

/-- A store of a payload writes the bytes of its cell that are not padding. -/
theorem storePayload_eq {offset : Nat} {type : LogicalType} {payload : Payload}
    (hfits : payload.Fits type) (h : offset + type.fixedSize.toNat ≤ bytes.length) :
    ∃ data, storePayload bytes offset type payload = .ok (put bytes offset data) ∧
      data.length ≤ type.fixedSize.toNat ∧
      cell type payload = data ++ List.replicate (type.fixedSize.toNat - data.length) 0 := by
  have hlength := length_cell hfits
  -- all but strings and null values fill their cells
  have hwhole (hstore : storePayload bytes offset type payload =
      .ok (put bytes offset (cell type payload))) : ∃ data,
      storePayload bytes offset type payload = .ok (put bytes offset data) ∧
        data.length ≤ type.fixedSize.toNat ∧
        cell type payload = data ++ List.replicate (type.fixedSize.toNat - data.length) 0 := by
    refine ⟨cell type payload, hstore, hlength.le, ?_⟩
    rw [hlength, Nat.sub_self]
    exact (List.append_nil _).symm
  cases payload with
  | null =>
    refine ⟨[], ?_, Nat.zero_le _, cell_null type⟩
    rw [put_nil (by omega)]
    cases type <;> rfl
  | integer value =>
    cases type with
    | int8 => exact hwhole (store_eq h)
    | int16 => exact hwhole (checked_eq (by decide) h)
    | int32 => exact hwhole (checked_eq (by decide) h)
    | int64 => exact hwhole (checked_eq (by decide) h)
    | _ => exact hfits.elim
  | float64 bits =>
    cases type with
    | float64 => exact hwhole (checked_eq (by decide) h)
    | _ => exact hfits.elim
  | string value =>
    cases type with
    | string capacity =>
      have hle : value.length ≤ capacity.val.toNat := hfits
      exact ⟨value, store_eq ((Nat.add_le_add_left hle offset).trans h), hle, rfl⟩
    | _ => exact hfits.elim
  | boolean value =>
    cases type with
    | boolean => exact hwhole (store_eq h)
    | _ => exact hfits.elim

/-- A value stored over zero bytes fills its cell, and the bytes around it stay. -/
theorem encodeValue_spec {column : Column} {value : Value} (htype : value.type = column.logicalType)
    (h : column.fixedEnd ≤ bytes.length)
    (hzero : slice bytes column.fixedOffset.toNat column.logicalType.fixedSize.toNat =
      List.replicate column.logicalType.fixedSize.toNat 0) :
    ∃ bytes', encodeValue bytes column value = .ok bytes' ∧ bytes'.length = bytes.length ∧
      slice bytes' column.fixedOffset.toNat column.logicalType.fixedSize.toNat =
        cell column.logicalType value.payload ∧
      (∀ offset len, offset + len ≤ column.fixedOffset.toNat →
        slice bytes' offset len = slice bytes offset len) ∧
      ∀ offset len, column.fixedEnd ≤ offset →
        slice bytes' offset len = slice bytes offset len := by
  obtain ⟨data, hstore, hle, hcell⟩ := storePayload_eq (htype ▸ value.fits) h
  rw [Column.fixedEnd] at h
  have hend : column.fixedEnd = column.fixedOffset.toNat + column.logicalType.fixedSize.toNat := rfl
  refine ⟨_, hstore, length_put .., ?_, fun offset len hbefore => slice_put_before hbefore,
    fun offset len hafter => slice_put_after (by omega)⟩
  obtain ⟨padding, hpadding⟩ := Nat.exists_eq_add_of_le hle
  rw [hcell, hpadding, Nat.add_sub_cancel_left]
  rw [hpadding, ← slice_append_slice, List.replicate_add] at hzero
  have hrest := (List.append_inj hzero (by rw [length_slice (by omega), List.length_replicate])).2
  rw [← slice_append_slice, slice_put_same (by omega) rfl, slice_put_after (Nat.le_refl _), hrest]

/-- The second loop fills the cells of all columns. -/
theorem encodeValues_spec {columns : List Column} {values : List Value} {offset stop : Nat}
    (hlaid : Schema.LaidOut offset columns stop)
    (htypes : List.Forall₂ (fun column value => value.type = column.logicalType) columns values)
    (h : stop ≤ bytes.length)
    (hzero : ∀ start len, offset ≤ start → start + len ≤ stop →
      slice bytes start len = List.replicate len 0) :
    ∃ bytes', encodeValues bytes columns values = .ok bytes' ∧ bytes'.length = bytes.length ∧
      List.Forall₂ (fun column value =>
        slice bytes' column.fixedOffset.toNat column.logicalType.fixedSize.toNat =
          cell column.logicalType value.payload) columns values ∧
      ∀ start len, start + len ≤ offset → slice bytes' start len = slice bytes start len := by
  induction htypes generalizing bytes offset with
  | nil => exact ⟨bytes, rfl, rfl, .nil, fun _ _ _ => rfl⟩
  | @cons column value columns values htype htypes ih =>
    obtain _ | ⟨hoffset, htail⟩ := hlaid
    have hend : column.fixedEnd = column.fixedOffset.toNat + column.logicalType.fixedSize.toNat :=
      rfl
    have hstop := htail.le
    obtain ⟨stored, hstore, hlength, hcell, hbefore, hafter⟩ :=
      @encodeValue_spec bytes column value htype (by omega) (hzero _ _ hoffset.ge (by omega))
    obtain ⟨bytes', hrest, hlength', hcells, hkept⟩ := @ih stored column.fixedEnd htail (by omega)
      fun start len hle hlt => by rw [hafter start len hle, hzero start len (by omega) hlt]
    refine ⟨bytes', ?_, hlength'.trans hlength, .cons ?_ hcells, fun start len hle => ?_⟩
    · rw [encodeValues, hstore]
      exact hrest
    · rw [hkept _ _ (Nat.le_refl _), hcell]
    · rw [hkept start len (by omega), hbefore start len (by omega)]

/-- Cells and bits together. -/
theorem showsFrom_of_cells {columns : List Column} {values : List Value} {i : Nat}
    (hvalid : List.Forall₂ (fun column value => validateValue column value = .ok ()) columns values)
    (hcells : List.Forall₂ (fun column value =>
      slice bytes column.fixedOffset.toNat column.logicalType.fixedSize.toNat =
        cell column.logicalType value.payload) columns values)
    (hbits : ∀ k, k < values.length → Bitmap.bit bytes (i + k) = nullAt values k) :
    ShowsFrom bytes i columns values := by
  induction hvalid generalizing i with
  | nil => exact trivial
  | @cons column value columns values hvalue _ ih =>
    obtain _ | ⟨hcell, hcells⟩ := hcells
    refine ⟨⟨hvalue, ?_, hcell⟩, ih hcells fun k hk => ?_⟩
    · have hbit := hbits 0 (Nat.succ_pos _)
      simpa [nullAt] using hbit
    · have hbit := hbits (k + 1) (Nat.succ_lt_succ hk)
      rw [Nat.add_right_comm, Nat.add_assoc, hbit]
      simp [nullAt]

/-- The bits of a null bitmap are those of the whole row. -/
theorem bit_slice {n i : Nat} (h : i < 8 * n) :
    Bitmap.bit (slice bytes 0 n) i = Bitmap.bit bytes i := by
  rw [Bitmap.bit, Bitmap.bit, List.getD_eq_getElem?_getD, List.getD_eq_getElem?_getD,
    getElem?_slice, if_pos (by omega), Nat.zero_add]

/-- A valid row is encoded into bytes that show it. -/
theorem encode_shows {schema : Schema} {row : Row} (hschema : Regular schema)
    (hsize : schema.rowSize.toNat ≤ maxVectorSize) (hvalid : validateRow schema row = .ok ()) :
    ∃ bytes, encode schema row = .ok bytes ∧ Shows schema bytes row := by
  have hvalues := forall₂_of_validateRow hvalid
  have hcount : row.values.length = schema.columns.length := hvalues.length_eq.symm
  have hbitmap := hschema.bitmap
  have hle := hschema.bitmap_le
  have hcleared : (List.replicate schema.rowSize.toNat (0 : Byte)).length = schema.rowSize.toNat :=
    List.length_replicate
  obtain ⟨marked, hmark, -⟩ := @markNulls_ok (List.replicate schema.rowSize.toNat 0)
    schema.rowSize.toNat 0 row.values hcleared (by omega)
  obtain ⟨hlength, hbits, hbehind⟩ := markNulls_spec hmark (by omega)
  obtain ⟨bytes, hstore, hlength', hcells, hkept⟩ := @encodeValues_spec marked schema.columns
    row.values schema.nullBitmapSize.toNat schema.rowSize.toNat hschema.laidOut
    (hvalues.imp fun _ _ => type_of_validateValue) (by omega) fun start len hge hlt => by
      rw [hbehind start len (by omega), slice_replicate _ _ _ _ hlt]
  have hbit : ∀ j, j < 8 * schema.nullBitmapSize.toNat →
      Bitmap.bit bytes j = nullAt row.values j := by
    intro j hj
    rw [← bit_slice hj, hkept 0 _ (by omega), bit_slice hj, hbits j, Bitmap.bit_replicate,
      Bool.false_or, decide_eq_true (Nat.zero_le j), Bool.true_and, Nat.sub_zero]
  refine ⟨bytes, ?_, by omega, ?_, fun i hge hlt => ?_⟩
  · rw [encode_eq hvalid hsize, hmark]
    exact hstore
  · refine showsFrom_of_cells hvalues hcells fun k hk => ?_
    rw [Nat.zero_add]
    exact hbit k (by omega)
  · rw [hbit i hlt, nullAt, List.getElem?_eq_none (by omega)]
    rfl

end Encode

/-! ## One form for each row -/

section Unique

variable {a b bytes : List Byte} {i : Nat} {columns : List Column} {values : List Value}

theorem valid_of_showsFrom (h : ShowsFrom bytes i columns values) :
    columns.length = values.length ∧ validateValues columns values = .ok () := by
  induction columns generalizing i values with
  | nil =>
    cases values with
    | nil => exact ⟨rfl, rfl⟩
    | cons => exact h.elim
  | cons column columns ih =>
    cases values with
    | nil => exact h.elim
    | cons value values =>
      obtain ⟨hvalue, hvalues⟩ := h
      obtain ⟨hlength, hvalid⟩ := ih hvalues
      exact ⟨congrArg Nat.succ hlength, bind_eq_ok.mpr ⟨(), hvalue.1, hvalid⟩⟩

theorem Shows.valid {schema : Schema} {row : Row} (h : Shows schema bytes row) :
    validateRow schema row = .ok () := by
  obtain ⟨hlength, hvalid⟩ := valid_of_showsFrom h.values
  exact bind_eq_ok.mpr ⟨(), failIf_eq_ok.mpr (not_not.mpr hlength), hvalid⟩

/-- Two byte strings that show the same values have the same bits and cells. -/
theorem showsFrom_agree {offset stop : Nat} (hlaid : Schema.LaidOut offset columns stop)
    (ha : ShowsFrom a i columns values) (hb : ShowsFrom b i columns values) :
    (∀ j, i ≤ j → j < i + columns.length → Bitmap.bit a j = Bitmap.bit b j) ∧
      slice a offset (stop - offset) = slice b offset (stop - offset) := by
  induction hlaid generalizing i values with
  | nil offset =>
    rw [Nat.sub_self]
    refine ⟨fun j hle hlt => ?_, rfl⟩
    rw [List.length_nil] at hlt
    omega
  | @cons offset stop column columns hoffset htail ih =>
    cases values with
    | nil => exact ha.elim
    | cons value values =>
      obtain ⟨⟨_, hbita, hcella⟩, ha⟩ := ha
      obtain ⟨⟨_, hbitb, hcellb⟩, hb⟩ := hb
      obtain ⟨hbits, hslice⟩ := ih ha hb
      refine ⟨fun j hle hlt => ?_, ?_⟩
      · rcases Nat.eq_or_lt_of_le hle with rfl | hgt
        · rw [hbita, hbitb]
        · rw [List.length_cons] at hlt
          exact hbits j hgt (by omega)
      · have hstop := htail.le
        have hsplit : stop - offset =
            column.logicalType.fixedSize.toNat + (stop - column.fixedEnd) := by
          rw [Column.fixedEnd] at hstop ⊢
          omega
        rw [hsplit, ← slice_append_slice, ← slice_append_slice, ← hoffset]
        exact congrArg₂ _ (hcella.trans hcellb.symm) hslice

theorem Shows.unique {schema : Schema} {row : Row} (hschema : Regular schema)
    (ha : Shows schema a row) (hb : Shows schema b row) : a = b := by
  obtain ⟨hbits, hslice⟩ := showsFrom_agree hschema.laidOut ha.values hb.values
  have hle := hschema.bitmap_le
  have hlengtha := ha.length
  have hlengthb := hb.length
  have hbitmap : slice a 0 schema.nullBitmapSize.toNat = slice b 0 schema.nullBitmapSize.toNat := by
    have hlength := @length_slice _ a 0 schema.nullBitmapSize.toNat (by omega)
    have hlength' := @length_slice _ b 0 schema.nullBitmapSize.toNat (by omega)
    refine Bitmap.ext_bits (hlength.trans hlength'.symm) fun i hi => ?_
    rw [hlength] at hi
    rw [bit_slice hi, bit_slice hi]
    rcases Nat.lt_or_ge i schema.columns.length with hlt | hge
    · exact hbits i (Nat.zero_le i) (by omega)
    · rw [ha.unused i hge hi, hb.unused i hge hi]
  have hwhole := slice_append_slice a 0 schema.nullBitmapSize.toNat
    (schema.rowSize.toNat - schema.nullBitmapSize.toNat)
  rw [Nat.zero_add, hbitmap, hslice, Nat.add_sub_cancel' hle] at hwhole
  have hwholeb := slice_append_slice b 0 schema.nullBitmapSize.toNat
    (schema.rowSize.toNat - schema.nullBitmapSize.toNat)
  rw [Nat.zero_add, Nat.add_sub_cancel' hle] at hwholeb
  have heq := hwhole.symm.trans hwholeb
  rwa [← hlengtha, slice_zero_length, hlengtha, ← hlengthb, slice_zero_length] at heq

end Unique

/-! ## Rejections -/

/-- Whatever goes wrong is reported by a status. -/
def Reports {α : Type} (result : Except Failure α) : Prop :=
  ∀ failure, result = .error failure → ∃ status, failure = .status status

section Reports

variable {α β : Type} {bytes : List Byte}

theorem reports_ok (a : α) : Reports (.ok a) := nofun

theorem reports_bind {x : Except Failure α} {f : α → Except Failure β} (hx : Reports x)
    (hf : ∀ a, x = .ok a → Reports (f a)) : Reports (x >>= f) := by
  cases x with
  | error failure => exact fun other h => hx other (congrArg Except.error (Except.error.inj h))
  | ok a => exact hf a rfl

theorem reports_rejectIf (condition : Prop) [Decidable condition] (status : Status) :
    Reports (rejectIf condition status) := by
  intro failure h
  rw [rejectIf] at h
  split at h
  · cases h
    exact ⟨status, rfl⟩
  · cases h

theorem reports_mapError (x : Result α) : Reports (x.mapError .status) := by
  intro failure h
  cases x with
  | error status =>
    cases h
    exact ⟨status, rfl⟩
  | ok a => cases h

theorem reports_decodePayload {offset : Nat} {type : LogicalType}
    (h : offset + type.fixedSize.toNat ≤ bytes.length) :
    Reports (decodePayload bytes offset type) := by
  cases type with
  | int8 =>
    obtain ⟨raw, hraw, -⟩ := fetch_ok h
    rw [decodePayload, hraw]
    exact reports_mapError _
  | int16 => exact reports_bind (reports_mapError _) fun _ _ => reports_mapError _
  | int32 => exact reports_bind (reports_mapError _) fun _ _ => reports_mapError _
  | int64 => exact reports_bind (reports_mapError _) fun _ _ => reports_ok _
  | float64 => exact reports_bind (reports_mapError _) fun _ _ => reports_ok _
  | string capacity =>
    have hend : offset + capacity.val.toNat ≤ bytes.length := h
    rw [decodePayload, decodeString, readString_eq hend]
    generalize hstring : (slice bytes offset capacity.val.toNat).takeWhile (· ≠ 0) = string
    show Reports (if string.length < capacity.val.toNat then _ else _)
    split
    · rw [subspan_eq (by omega)]
      exact reports_bind (reports_ok _) fun _ _ =>
        reports_bind (reports_rejectIf _ _) fun _ _ => reports_mapError _
    · exact reports_mapError _
  | boolean =>
    obtain ⟨byte, hbyte, -⟩ := fetch_ok h
    rw [decodePayload, hbyte]
    exact reports_bind (reports_ok byte) fun _ _ =>
      reports_bind (reports_rejectIf _ _) fun _ _ => reports_ok _

theorem reports_checkNull {i : Nat} {column : Column} (hbit : i / 8 < bytes.length)
    (hplace : column.fixedEnd ≤ bytes.length) : Reports (checkNull bytes i column) := by
  rw [checkNull, isNullAt_eq hbit]
  show Reports (if Bitmap.bit bytes i = true then _ else _)
  split
  · refine reports_bind (reports_rejectIf _ _) fun _ _ => ?_
    rw [subspan_eq hplace]
    exact reports_bind (reports_ok _) fun _ _ => reports_rejectIf _ _
  · exact reports_ok ()

theorem reports_decodeValue {i : Nat} {column : Column} (hbit : i / 8 < bytes.length)
    (hplace : column.fixedEnd ≤ bytes.length) : Reports (decodeValue bytes i column) := by
  rw [decodeValue, isNullAt_eq hbit]
  show Reports (if Bitmap.bit bytes i = true then _ else _)
  split
  · exact reports_ok _
  · exact reports_decodePayload hplace

theorem reports_loops {i : Nat} {columns : List Column}
    (hbits : (i + columns.length + 7) / 8 ≤ bytes.length)
    (hplaces : ∀ column ∈ columns, column.fixedEnd ≤ bytes.length) :
    Reports (checkNulls bytes i columns) ∧ Reports (decodeValues bytes i columns) := by
  induction columns generalizing i with
  | nil => exact ⟨reports_ok (), reports_ok []⟩
  | cons column columns ih =>
    rw [List.length_cons] at hbits
    have hbit : i / 8 < bytes.length := by omega
    have hplace := hplaces column (List.mem_cons_self ..)
    obtain ⟨hchecks, hvalues⟩ := @ih (i + 1) (by omega)
      fun other hmem => hplaces other (List.mem_cons_of_mem _ hmem)
    exact ⟨reports_bind (reports_checkNull hbit hplace) fun _ _ => hchecks,
      reports_bind (reports_decodeValue hbit hplace) fun _ _ =>
        reports_bind hvalues fun _ _ => reports_ok _⟩

theorem reports_decode {schema : Schema} (hschema : Regular schema) (bytes : List Byte) :
    Reports (decode schema bytes) := by
  have hbitmap := hschema.bitmap
  have hle := hschema.bitmap_le
  refine reports_bind (reports_rejectIf _ _) fun _ hsize => ?_
  have hlength : bytes.length = schema.rowSize.toNat := (not_not.mp (rejectIf_eq_ok.mp hsize)).symm
  obtain ⟨hchecks, hvalues⟩ := @reports_loops bytes 0 schema.columns (by omega)
    fun column hmem => hlength ▸ hschema.place_le column hmem
  refine reports_bind hchecks fun _ _ => reports_bind ?_ fun _ _ =>
    reports_bind hvalues fun _ _ => reports_ok _
  rw [checkUnusedBits]
  split
  · obtain ⟨byte, hbyte⟩ : ∃ byte, fetch bytes (schema.nullBitmapSize.toNat - 1) = .ok byte :=
      ⟨_, fetch_eq.mpr (List.getElem?_eq_getElem (by omega))⟩
    rw [hbyte]
    exact reports_bind (reports_ok byte) fun _ _ => reports_rejectIf _ _
  · exact reports_ok ()

end Reports

theorem regular_of_create {columns : List Column} {schema : Schema}
    (hcreate : Schema.create columns = .ok schema)
    (hfits : Schema.exactRowSize columns < 2 ^ 64) :
    Regular schema ∧ schema.rowSize.toNat = Schema.exactRowSize columns := by
  obtain ⟨hlayout, hbitmap⟩ := Schema.create_eq hcreate
  obtain ⟨htypes, hsize, hlaid, hrow⟩ := Schema.laidOut_of_layouts hlayout hbitmap hfits
  refine ⟨⟨hsize, hlaid⟩, hrow.trans ?_⟩
  have hlength := congrArg List.length htypes
  rw [List.length_map, List.length_map] at hlength
  rw [Schema.exactRowSize, Schema.exactRowSize, hlength, Schema.sizeSum_congr htypes]

/-- Rows that a buffer can hold and their stored forms correspond one to one: every valid
row is encoded and read back, whatever is read is a valid row and is written as the same bytes,
the bytes show the row, and all others are rejected with a status. -/
theorem rows_correspond {columns : List Column} {schema : Schema}
    (hcreate : Schema.create columns = .ok schema)
    (hfits : Schema.exactRowSize columns ≤ maxVectorSize) :
    (∀ row, validateRow schema row = .ok () →
      ∃ bytes, encode schema row = .ok bytes ∧ decode schema bytes = .ok row) ∧
    (∀ bytes row, decode schema bytes = .ok row →
      validateRow schema row = .ok () ∧ encode schema row = .ok bytes ∧ Shows schema bytes row) ∧
    ∀ bytes, (∀ row, validateRow schema row = .ok () → encode schema row ≠ .ok bytes) →
      ∃ status, decode schema bytes = .error (.status status) := by
  obtain ⟨hschema, hrow⟩ := regular_of_create hcreate (hfits.trans_lt (by decide))
  have hsize := hrow.trans_le hfits
  have hwritten {row : Row} {bytes : List Byte} (h : decode schema bytes = .ok row) :
      validateRow schema row = .ok () ∧ encode schema row = .ok bytes ∧ Shows schema bytes row := by
    have hshows := (decode_iff hschema).mp h
    obtain ⟨other, hencode, hother⟩ := encode_shows hschema hsize hshows.valid
    obtain rfl := hshows.unique hschema hother
    exact ⟨hshows.valid, hencode, hshows⟩
  refine ⟨fun row hvalid => ?_, fun bytes row => hwritten, fun bytes hnone => ?_⟩
  · obtain ⟨bytes, hencode, hshows⟩ := encode_shows hschema hsize hvalid
    exact ⟨bytes, hencode, (decode_iff hschema).mpr hshows⟩
  · cases hdecode : decode schema bytes with
    | error failure =>
      obtain ⟨status, rfl⟩ := reports_decode hschema bytes failure hdecode
      exact ⟨status, rfl⟩
    | ok row =>
      obtain ⟨hvalid, hencode, -⟩ := hwritten hdecode
      exact (hnone row hvalid hencode).elim

/-- A key and a name that may be null. -/
def smallColumns : List Column :=
  [⟨"id", .int8, false, true, false, 0, 0⟩,
    ⟨"name", .string ⟨3, by decide⟩, true, false, false, 0, 0⟩]

def smallSchema : Schema :=
  ⟨[⟨"id", .int8, false, true, false, 0, 1⟩,
    ⟨"name", .string ⟨3, by decide⟩, true, false, false, 1, 2⟩], 0, 5, 1⟩

def smallRow : Row :=
  ⟨[⟨.int8, .integer 7, by decide⟩, ⟨.string ⟨3, by decide⟩, .string [65, 66], by decide⟩]⟩

theorem rows_correspond_small :
    ∃ bytes, encode smallSchema smallRow = .ok bytes ∧ decode smallSchema bytes = .ok smallRow :=
  (@rows_correspond smallColumns smallSchema rfl (by decide)).1 smallRow (by decide)

example : encode smallSchema smallRow = .ok [0, 7, 65, 66, 0] := by decide

/-- No vector has the bytes of a row of 2^63 + 2 bytes, so a valid row is not encoded. -/
theorem exists_tooLong : ∃ columns schema row, Schema.create columns = .ok schema ∧
    Schema.exactRowSize columns = 2 ^ 63 + 2 ∧ validateRow schema row = .ok () ∧
    encode schema row = .error .lengthError := by
  have hvalid : validateRow ⟨[⟨"id", .int8, false, true, false, 0, 1⟩,
      ⟨"name", .string ⟨0x8000000000000000, by decide⟩, true, false, false, 1, 2⟩], 0,
      0x8000000000000002, 1⟩ ⟨[⟨.int8, .integer 7, by decide⟩,
      ⟨.string ⟨0x8000000000000000, by decide⟩, .string [65, 66], by decide⟩]⟩ = .ok () := by
    decide
  exact ⟨[⟨"id", .int8, false, true, false, 0, 0⟩,
    ⟨"name", .string ⟨0x8000000000000000, by decide⟩, true, false, false, 0, 0⟩], _, _, rfl,
    by decide, hvalid, encode_tooLong hvalid (by decide)⟩

end RowCodec

end DanDB.Record
