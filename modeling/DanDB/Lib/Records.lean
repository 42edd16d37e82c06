import DanDB.Lib.Buffer

/-!
# Records of one size

A list of records stored in a buffer one behind the other.  Inserting a record
moves the ones behind it and stores it in the gap; erasing one moves those behind
it over it.
-/

namespace Buffer

variable {α β : Type*} {encode : β → List α} {size : Nat}

/-- The records one behind the other. -/
def pack (encode : β → List α) (records : List β) : List α := records.flatMap encode

@[simp] theorem pack_nil : pack encode [] = [] := rfl

theorem pack_cons (record : β) (records : List β) :
    pack encode (record :: records) = encode record ++ pack encode records := rfl

theorem pack_append (records records' : List β) :
    pack encode (records ++ records') = pack encode records ++ pack encode records' :=
  List.flatMap_append

theorem insertIdx_eq_take_cons_drop {records : List β} {i : Nat} {record : β}
    (hi : i ≤ records.length) : records.insertIdx i record =
      records.take i ++ record :: records.drop i := by
  induction records generalizing i with
  | nil =>
    cases Nat.le_zero.mp hi
    rfl
  | cons first records ih =>
    cases i with
    | zero => rfl
    | succ i => rw [List.insertIdx_succ_cons, ih (Nat.le_of_succ_le_succ hi), List.take_succ_cons,
        List.drop_succ_cons, List.cons_append]

section Sizes

variable (hsize : ∀ record, (encode record).length = size) (records : List β)

include hsize

theorem take_pack (i : Nat) : (pack encode records).take (i * size) = pack encode (records.take i) := by
  induction records generalizing i with
  | nil => simp
  | cons record records ih =>
    cases i with
    | zero => simp
    | succ i =>
      rw [pack_cons, Nat.succ_mul, Nat.add_comm, List.take_succ_cons, pack_cons, ← ih i,
        List.take_append, List.take_of_length_le (by rw [hsize]; omega), hsize,
        Nat.add_sub_cancel_left]

theorem drop_pack (i : Nat) : (pack encode records).drop (i * size) = pack encode (records.drop i) := by
  induction records generalizing i with
  | nil => simp
  | cons record records ih =>
    cases i with
    | zero => simp
    | succ i =>
      rw [pack_cons, Nat.succ_mul, Nat.add_comm, List.drop_succ_cons, ← ih i,
        List.drop_append, List.drop_of_length_le (by rw [hsize]; omega), hsize,
        Nat.add_sub_cancel_left, List.nil_append]

/-- One record, read back. -/
theorem slice_pack {i : Nat} (hi : i < records.length) :
    slice (pack encode records) (i * size) size = encode records[i] := by
  rw [slice, drop_pack hsize, List.drop_eq_getElem_cons hi, pack_cons,
    List.take_append_of_le_length (by rw [hsize]), List.take_of_length_le (by rw [hsize])]

end Sizes

/-- A stretch of the right length is a list of records when all stretches of the size of
one are records. -/
theorem exists_pack (hdecode : ∀ buf : List α, buf.length = size → ∃ record, encode record = buf)
    {n : Nat} {buf : List α} (h : buf.length = n * size) :
    ∃ records : List β, records.length = n ∧ pack encode records = buf := by
  induction n generalizing buf with
  | zero =>
    rw [Nat.zero_mul] at h
    exact ⟨[], rfl, (List.eq_nil_of_length_eq_zero h).symm⟩
  | succ n ih =>
    rw [Nat.succ_mul] at h
    obtain ⟨record, hrecord⟩ := hdecode (buf.take size) (by rw [List.length_take]; omega)
    obtain ⟨records, hlength, hpack⟩ := @ih (buf.drop size) (by rw [List.length_drop]; omega)
    refine ⟨record :: records, congrArg (· + 1) hlength, ?_⟩
    rw [pack_cons, hrecord, hpack, List.take_append_drop]

theorem slice_eq_self {buf : List α} {len : Nat} (h : buf.length = len) : slice buf 0 len = buf := by
  rw [← h, slice_zero_length]

/-! ## Moving a stretch -/

section Moves

variable {buf : List α} {base front gap back : Nat}

theorem put_nil (buf : List α) (off : Nat) : put buf off [] = buf := by
  unfold put
  split
  · simp [splice]
  · rfl

theorem slice_add (buf : List α) (off m n : Nat) :
    slice buf off (m + n) = slice buf off m ++ slice buf (off + m) n :=
  (slice_append_slice buf off m n).symm

/-- `memmove` up by the length of some data, and the data stored in the gap. -/
theorem slice_insert {data : List α} (hdata : data.length = gap)
    (h : base + (front + gap + back) ≤ buf.length) :
    slice (put (put buf (base + front + gap) (slice buf (base + front) back)) (base + front) data)
      base (front + gap + back) =
        slice buf base front ++ data ++ slice buf (base + front) back := by
  have hback : (slice buf (base + front) back).length = back := length_slice (by omega)
  rw [slice_add, slice_add, slice_put_before (Nat.le_refl _), slice_put_before (by omega),
    slice_put_same (by rw [length_put]; omega) hdata.symm, slice_put_after (by omega),
    ← Nat.add_assoc, slice_put_same (by omega) hback.symm]

/-- `memmove` down over a gap. -/
theorem slice_erase (h : base + (front + gap + back) ≤ buf.length) :
    slice (put buf (base + front) (slice buf (base + front + gap) back)) base (front + back) =
      slice buf base front ++ slice buf (base + front + gap) back := by
  have hback : (slice buf (base + front + gap) back).length = back := length_slice (by omega)
  rw [slice_add, slice_put_before (Nat.le_refl _), slice_put_same (by omega) hback.symm]

/-- Two stores one behind the other are one store. -/
theorem put_put_append {off : Nat} {data data' : List α}
    (h : off + data.length + data'.length ≤ buf.length) :
    put (put buf off data) (off + data.length) data' = put buf off (data ++ data') := by
  have hlength : (data ++ data').length = data.length + data'.length := List.length_append
  apply List.ext_getElem?
  intro i
  rw [getElem?_put (by rw [length_put]; omega), getElem?_put (by omega), getElem?_put (by omega),
    hlength, List.getElem?_append]
  split_ifs <;> first | rfl | omega | (congr 1; omega)

/-- A store inside a stretch. -/
theorem slice_put_within {off len inner : Nat} {data : List α} (h : off + len ≤ buf.length)
    (hinner : inner + data.length ≤ len) :
    slice (put buf (off + inner) data) off len = put (slice buf off len) inner data := by
  have hlength : (slice buf off len).length = len := length_slice h
  apply List.ext_getElem?
  intro i
  rw [getElem?_put (by omega), getElem?_slice, getElem?_slice, getElem?_put (by omega)]
  split_ifs <;> first | rfl | omega | (congr 1; omega)

theorem put_front {first first' second : List α} (h : first'.length = first.length) :
    put (first ++ second) 0 first' = first' ++ second := by
  rw [put_of_le (by rw [List.length_append]; omega), splice, Nat.zero_add, h, List.take_zero,
    List.drop_left, List.nil_append]

theorem put_behind {first second second' : List α} (h : second'.length = second.length) :
    put (first ++ second) first.length second' = first ++ second' := by
  rw [put_of_le (by rw [List.length_append]; omega), splice, List.take_left, h,
    List.drop_of_length_le (by rw [List.length_append]), List.append_nil]

end Moves

/-! ## Changing a list of records in place -/

section Records

variable {buf : List α} {base i : Nat} {records : List β} {record : β}

theorem slice_front (hsize : ∀ record, (encode record).length = size)
    (h : slice buf base (records.length * size) = pack encode records) (hi : i ≤ records.length) :
    slice buf base (i * size) = pack encode (records.take i) := by
  have hle : i * size ≤ records.length * size := Nat.mul_le_mul_right _ hi
  rw [← take_pack hsize, ← h, slice, slice, List.take_take, Nat.min_eq_left hle]

theorem slice_back (hsize : ∀ record, (encode record).length = size)
    (h : slice buf base (records.length * size) = pack encode records) (hi : i ≤ records.length) :
    slice buf (base + i * size) ((records.length - i) * size) = pack encode (records.drop i) := by
  have hle : i * size ≤ records.length * size := Nat.mul_le_mul_right _ hi
  rw [← drop_pack hsize, ← h, slice, slice, List.drop_take, List.drop_drop, Nat.sub_mul]

/-- One record of a buffer. -/
theorem slice_record (hsize : ∀ record, (encode record).length = size)
    (h : slice buf base (records.length * size) = pack encode records) (hi : i < records.length) :
    slice buf (base + i * size) size = encode records[i] := by
  have hle : (i + 1) * size ≤ records.length * size := Nat.mul_le_mul_right _ hi
  rw [Nat.succ_mul] at hle
  rw [← slice_pack hsize records hi, ← h, slice_slice hle]

/-- The records after one was inserted. -/
theorem slice_insertRecord (hsize : ∀ record, (encode record).length = size)
    (h : slice buf base (records.length * size) = pack encode records) (hi : i ≤ records.length)
    (hfits : base + (records.length + 1) * size ≤ buf.length) :
    slice (put (put buf (base + i * size + size)
        (slice buf (base + i * size) ((records.length - i) * size))) (base + i * size)
        (encode record)) base ((records.length + 1) * size) =
      pack encode (records.take i ++ record :: records.drop i) := by
  have hsplit : (records.length + 1) * size = i * size + size + (records.length - i) * size := by
    rw [Nat.succ_mul, Nat.add_right_comm, ← Nat.add_mul, Nat.add_sub_cancel' hi]
  rw [hsplit] at hfits ⊢
  rw [slice_insert (hsize record) hfits, slice_front hsize h hi, slice_back hsize h hi,
    pack_append, pack_cons, List.append_assoc]

/-- The records after one was erased. -/
theorem slice_eraseRecord (hsize : ∀ record, (encode record).length = size)
    (h : slice buf base (records.length * size) = pack encode records) (hi : i < records.length)
    (hfits : base + records.length * size ≤ buf.length) :
    slice (put buf (base + i * size)
        (slice buf (base + i * size + size) ((records.length - i - 1) * size)))
        base ((records.length - 1) * size) =
      pack encode (records.take i ++ records.drop (i + 1)) := by
  have hsplit : records.length * size = i * size + size + (records.length - i - 1) * size := by
    rw [← Nat.succ_mul, ← Nat.add_mul]
    congr 1
    omega
  have hsplit' : (records.length - 1) * size = i * size + (records.length - i - 1) * size := by
    rw [← Nat.add_mul]
    congr 1
    omega
  have hback := slice_back hsize h (i := i + 1) hi
  rw [Nat.succ_mul, ← Nat.add_assoc, Nat.sub_add_eq] at hback
  rw [hsplit] at hfits
  rw [hsplit', slice_erase hfits, slice_front hsize h hi.le, hback, pack_append]

/-- The records after a part of one was overwritten. -/
theorem slice_setRecord (hsize : ∀ record, (encode record).length = size)
    (h : slice buf base (records.length * size) = pack encode records) (hi : i < records.length)
    (hfits : base + records.length * size ≤ buf.length) {inner : Nat} {data : List α}
    (hinner : inner + data.length ≤ size)
    (hdata : encode record = put (encode records[i]) inner data) :
    slice (put buf (base + i * size + inner) data) base (records.length * size) =
      pack encode (records.take i ++ record :: records.drop (i + 1)) := by
  have hsplit : records.length * size = i * size + (size + (records.length - (i + 1)) * size) := by
    rw [← Nat.add_assoc, ← Nat.succ_mul, ← Nat.add_mul]
    congr 1
    omega
  have hfront := slice_front hsize h hi.le
  have hback := slice_back hsize h (i := i + 1) hi
  rw [Nat.succ_mul, ← Nat.add_assoc] at hback
  have hrecord := slice_record hsize h hi
  rw [hsplit] at hfits ⊢
  rw [slice_add, slice_add, slice_put_before (by omega), slice_put_within (by omega) hinner,
    slice_put_after (by omega), hfront, hrecord, hback, ← hdata, pack_append, pack_cons]

end Records

end Buffer
