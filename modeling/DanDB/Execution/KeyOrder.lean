import DanDB.Record.KeyCodec

/-!
# The order of keys

Predicates compare values, and the trees that answer them compare keys.  The two
agree, also for the keys of an index that is not unique: these end with the
primary key of the row.
-/

namespace DanDB.Execution

open Buffer DanDB.Core Record

/-! ## Comparing values -/

/-- The value of a double without its sign, in the order of its bits. -/
def float64Magnitude (bits : UInt64) : Nat := bits.toNat % 2 ^ 63

def float64IsNaN (bits : UInt64) : Bool := float64Magnitude bits > 0x7FF0000000000000

/-- A number in the order of the doubles; the two zeros have the same. -/
def float64Rank (bits : UInt64) : Int :=
  if bits.toNat < 2 ^ 63 then float64Magnitude bits else -float64Magnitude bits

/-- `<` on doubles. -/
def float64Less (left right : UInt64) : Bool :=
  !float64IsNaN left && !float64IsNaN right && float64Rank left < float64Rank right

/-- The way all cases of `compare_values` end. -/
def threeWay (less greater : Bool) : Int := if less then -1 else if greater then 1 else 0

/-- `compare_values`; `none` is the exception that a look at a null value throws. -/
def compareValues (left right : Value) : Option (Result Int) :=
  if left.type.kind ≠ right.type.kind then
    some (.error (.InternalError "Cannot compare SELECT predicate values with different types"))
  else match left.type.kind with
    | .int8 | .int16 | .int32 | .int64 => do
      let l ← left.asInteger
      let r ← right.asInteger
      return .ok (threeWay (l < r) (l > r))
    | .float64 => do
      let l ← left.asFloat64
      let r ← right.asFloat64
      return .ok (threeWay (float64Less l r) (float64Less r l))
    | .string => do
      let l ← left.asString
      let r ← right.asString
      return .ok (threeWay (compare l r = .lt) (compare l r = .gt))
    | .boolean => do
      let l ← left.asBoolean
      let r ← right.asBoolean
      return .ok (if l = r then 0 else if l then 1 else -1)

/-- The number that stands for an ordering. -/
theorem compare_threeWay {less greater : Bool} {ordering : Ordering}
    (hless : less = true ↔ ordering = .lt) (hgreater : greater = true ↔ ordering = .gt) :
    ordering = compare (threeWay less greater) 0 := by
  cases ordering with
  | lt =>
    rw [hless.mpr rfl]
    rfl
  | eq =>
    have hless' : less = false := Bool.eq_false_iff.mpr fun h => nomatch hless.mp h
    have hgreater' : greater = false := Bool.eq_false_iff.mpr fun h => nomatch hgreater.mp h
    rw [hless', hgreater']
    rfl
  | gt =>
    have hless' : less = false := Bool.eq_false_iff.mpr fun h => nomatch hless.mp h
    rw [hless', hgreater.mpr rfl]
    rfl

/-! ## Padded strings -/

theorem compare_toNat (a b : Byte) : compare a.toNat b.toNat = compare a b := by
  simp only [compare, compareOfLessAndEq, UInt8.lt_iff_toNat_lt, UInt8.toNat_inj]

theorem memcmp_self (bytes : List Byte) : memcmp bytes bytes = .eq := by
  rw [memcmp_eq rfl, Nat.compare_eq_eq]

/-- Padding with zeros keeps the order of strings without zeros, also where one
is a prefix of the other. -/
theorem memcmp_pad {s t : List Byte} {size : Nat} (hs : s.length ≤ size) (ht : t.length ≤ size)
    (hzeros : 0 ∉ s) (hzerot : 0 ∉ t) :
    memcmp (s ++ List.replicate (size - s.length) 0) (t ++ List.replicate (size - t.length) 0) =
      compare s t := by
  induction s generalizing t size with
  | nil =>
    cases t with
    | nil => exact (memcmp_self _).trans List.compare_nil_nil.symm
    | cons b t =>
      have hb : b.toNat ≠ 0 := fun h => hzerot ((UInt8.toNat.inj h : b = 0) ▸ List.mem_cons_self ..)
      obtain ⟨size, rfl⟩ := Nat.exists_eq_add_of_le' (Nat.zero_lt_of_lt ht)
      rw [List.compare_nil_cons, List.nil_append, List.length_nil, Nat.sub_zero,
        List.replicate_succ, List.cons_append, memcmp, Nat.compare_eq_lt.mpr]
      · rfl
      · exact Nat.pos_of_ne_zero hb
  | cons a s ih =>
    obtain ⟨size, rfl⟩ := Nat.exists_eq_add_of_le' (Nat.zero_lt_of_lt hs)
    obtain ⟨ha, hzeros⟩ := List.ne_and_not_mem_of_not_mem_cons hzeros
    cases t with
    | nil =>
      have hne : a.toNat ≠ 0 := fun h => ha (UInt8.toNat.inj h : a = 0).symm
      rw [List.compare_cons_nil, List.nil_append, List.length_nil, Nat.sub_zero,
        List.replicate_succ, List.cons_append, memcmp, Nat.compare_eq_gt.mpr]
      · rfl
      · exact Nat.pos_of_ne_zero hne
    | cons b t =>
      rw [List.length_cons] at hs ht
      rw [List.compare_cons_cons, List.cons_append, List.cons_append, memcmp, compare_toNat,
        List.length_cons, List.length_cons, Nat.add_sub_add_right, Nat.add_sub_add_right,
        ih (by omega) (by omega) hzeros (List.ne_and_not_mem_of_not_mem_cons hzerot).2]

/-! ## One column -/

section Column

variable {a b : Value} {ka kb : List Byte}

/-- The payload of a value that has a key is the one that the values of its type
have when they are not null. -/
theorem payload_of_encode (h : KeyCodec.encode a = .ok ka) :
    match a.type with
    | .int8 | .int16 | .int32 | .int64 => ∃ integer, a.payload = .integer integer
    | .float64 => False
    | .string _ => ∃ bytes, a.payload = .string bytes
    | .boolean => ∃ boolean, a.payload = .boolean boolean := by
  obtain ⟨type, payload, hfits⟩ := a
  cases payload with
  | null => cases h
  | integer integer => cases type <;> first | exact ⟨integer, rfl⟩ | exact hfits.elim
  | float64 bits => cases type <;> first | exact hfits.elim | cases h
  | string bytes => cases type <;> first | exact ⟨bytes, rfl⟩ | exact hfits.elim
  | boolean boolean => cases type <;> first | exact ⟨boolean, rfl⟩ | exact hfits.elim

theorem length_keys (htype : a.type = b.type) (ha : KeyCodec.encode a = .ok ka)
    (hb : KeyCodec.encode b = .ok kb) : ka.length = kb.length := by
  rw [KeyCodec.length_encode ha, KeyCodec.length_encode hb, htype]

theorem memcmp_integers {x y : Int64} (htype : a.type = b.type) (hx : a.payload = .integer x)
    (hy : b.payload = .integer y) (ha : KeyCodec.encode a = .ok ka)
    (hb : KeyCodec.encode b = .ok kb) :
    memcmp ka kb = compare (threeWay (x < y) (x > y)) 0 := by
  have hka := (KeyCodec.encode_integer hx ha).2
  have hkb := (KeyCodec.encode_integer hy hb).2
  rw [memcmp_eq (length_keys htype ha hb)]
  rw [htype] at hka
  refine compare_threeWay ?_ ?_
  · rw [Nat.compare_eq_lt, decide_eq_true_iff, Int64.lt_iff_toInt_lt]
    omega
  · rw [Nat.compare_eq_gt, decide_eq_true_iff, gt_iff_lt, Int64.lt_iff_toInt_lt]
    omega

theorem memcmp_strings {x y : List Byte} (htype : a.type = b.type) (hx : a.payload = .string x)
    (hy : b.payload = .string y) (ha : KeyCodec.encode a = .ok ka)
    (hb : KeyCodec.encode b = .ok kb) :
    memcmp ka kb = compare (threeWay (compare x y = .lt) (compare x y = .gt)) 0 := by
  obtain ⟨size, hsize, hlength, hzero, rfl⟩ := KeyCodec.encode_string hx ha
  obtain ⟨size', hsize', hlength', hzero', rfl⟩ := KeyCodec.encode_string hy hb
  obtain rfl : size = size' := hsize.symm.trans (htype ▸ hsize')
  rw [memcmp_pad hlength hlength' hzero hzero']
  exact compare_threeWay decide_eq_true_iff decide_eq_true_iff

theorem memcmp_booleans {x y : Bool} (hx : a.payload = .boolean x) (hy : b.payload = .boolean y)
    (ha : KeyCodec.encode a = .ok ka) (hb : KeyCodec.encode b = .ok kb) :
    memcmp ka kb = compare (if x = y then 0 else if x then 1 else -1 : Int) 0 := by
  obtain ⟨-, rfl⟩ := KeyCodec.encode_boolean hx ha
  obtain ⟨-, rfl⟩ := KeyCodec.encode_boolean hy hb
  cases x <;> cases y <;> rfl

/-- Keys compare as the values do. -/
theorem compareValues_keys (htype : a.type = b.type) (ha : KeyCodec.encode a = .ok ka)
    (hb : KeyCodec.encode b = .ok kb) :
    ∃ c, compareValues a b = some (.ok c) ∧ memcmp ka kb = compare c 0 := by
  have hpayload := payload_of_encode ha
  have hpayload' := payload_of_encode hb
  have hkind : ¬a.type.kind ≠ b.type.kind := fun hne => hne (congrArg LogicalType.kind htype)
  rw [compareValues, if_neg hkind]
  have hintegers (h : ∃ x, a.payload = .integer x) (h' : ∃ y, b.payload = .integer y) :
      ∃ c, (do
        let l ← a.asInteger
        let r ← b.asInteger
        return .ok (threeWay (l < r) (l > r)) : Option (Result Int)) = some (.ok c) ∧
        memcmp ka kb = compare c 0 := by
    obtain ⟨x, hx⟩ := h
    obtain ⟨y, hy⟩ := h'
    refine ⟨_, ?_, memcmp_integers htype hx hy ha hb⟩
    rw [Value.asInteger, hx, Value.asInteger, hy]
    rfl
  rw [← htype] at hpayload'
  cases ht : a.type with
  | int8 => rw [ht] at hpayload hpayload'; exact hintegers hpayload hpayload'
  | int16 => rw [ht] at hpayload hpayload'; exact hintegers hpayload hpayload'
  | int32 => rw [ht] at hpayload hpayload'; exact hintegers hpayload hpayload'
  | int64 => rw [ht] at hpayload hpayload'; exact hintegers hpayload hpayload'
  | float64 =>
    rw [ht] at hpayload
    exact hpayload.elim
  | string capacity =>
    rw [ht] at hpayload hpayload'
    obtain ⟨x, hx⟩ := hpayload
    obtain ⟨y, hy⟩ := hpayload'
    refine ⟨_, ?_, memcmp_strings htype hx hy ha hb⟩
    simp only [LogicalType.kind, Value.asString, hx, hy]
    rfl
  | boolean =>
    rw [ht] at hpayload hpayload'
    obtain ⟨x, hx⟩ := hpayload
    obtain ⟨y, hy⟩ := hpayload'
    refine ⟨_, ?_, memcmp_booleans hx hy ha hb⟩
    simp only [LogicalType.kind, Value.asBoolean, hx, hy]
    rfl

/-- A key has one value. -/
theorem keys_eq_iff (htype : a.type = b.type) (ha : KeyCodec.encode a = .ok ka)
    (hb : KeyCodec.encode b = .ok kb) : ka = kb ↔ a = b := by
  constructor
  swap
  · rintro rfl
    exact Except.ok.inj (ha.symm.trans hb)
  rintro rfl
  have hintegers (h : ∃ x, a.payload = .integer x) (h' : ∃ y, b.payload = .integer y) :
      a.payload = b.payload := by
    obtain ⟨x, hx⟩ := h
    obtain ⟨y, hy⟩ := h'
    have hka := (KeyCodec.encode_integer hx ha).2
    have hkb := (KeyCodec.encode_integer hy hb).2
    rw [htype, hkb] at hka
    rw [hx, hy, Int64.toInt.inj (add_right_cancel hka)]
  suffices hpayload : a.payload = b.payload by
    cases a
    cases b
    cases htype
    cases hpayload
    rfl
  have hpayload := payload_of_encode ha
  have hpayload' := payload_of_encode hb
  rw [← htype] at hpayload'
  cases ht : a.type with
  | int8 => rw [ht] at hpayload hpayload'; exact hintegers hpayload hpayload'
  | int16 => rw [ht] at hpayload hpayload'; exact hintegers hpayload hpayload'
  | int32 => rw [ht] at hpayload hpayload'; exact hintegers hpayload hpayload'
  | int64 => rw [ht] at hpayload hpayload'; exact hintegers hpayload hpayload'
  | float64 =>
    rw [ht] at hpayload
    exact hpayload.elim
  | string capacity =>
    rw [ht] at hpayload hpayload'
    obtain ⟨x, hx⟩ := hpayload
    obtain ⟨y, hy⟩ := hpayload'
    obtain ⟨size, hsize, hlength, hzero, hkey⟩ := KeyCodec.encode_string hx ha
    obtain ⟨size', hsize', hlength', hzero', hkey'⟩ := KeyCodec.encode_string hy hb
    obtain rfl : size = size' := hsize.symm.trans (htype ▸ hsize')
    have hcompare := memcmp_pad hlength hlength' hzero hzero'
    rw [← hkey, ← hkey', memcmp_self] at hcompare
    rw [hx, hy, Std.LawfulEqCmp.eq_of_compare hcompare.symm]
  | boolean =>
    rw [ht] at hpayload hpayload'
    obtain ⟨x, hx⟩ := hpayload
    obtain ⟨y, hy⟩ := hpayload'
    obtain ⟨-, hkey⟩ := KeyCodec.encode_boolean hx ha
    obtain ⟨-, hkey'⟩ := KeyCodec.encode_boolean hy hb
    rw [hkey] at hkey'
    rw [hx, hy]
    cases x <;> cases y <;> first | rfl | cases hkey'

end Column

/-! ## Index entries -/

/-- The key of a row in an index on a column: `execute_insert_statement` appends
the primary key unless the index is unique. -/
def indexEntryKey (schema : Schema) (row : Row) (ordinal : UInt64) (unique : Bool) :
    Result (List Byte) := do
  let primaryKeyBytes ← RowHelpers.primaryKeyBytes schema row
  let indexKey ← RowHelpers.indexedKeyBytes schema row ordinal
  return if unique then indexKey else indexKey ++ primaryKeyBytes

/-- Strings put together of a part of one length and a rest compare by the part
first. -/
theorem memcmp_append {as bs cs ds : List Byte} (h : as.length = bs.length) :
    memcmp (as ++ cs) (bs ++ ds) = (memcmp as bs).then (memcmp cs ds) := by
  induction as generalizing bs with
  | nil =>
    cases bs with
    | nil => rfl
    | cons => cases h
  | cons a as ih =>
    cases bs with
    | nil => cases h
    | cons b bs =>
      rw [List.cons_append, List.cons_append, memcmp, memcmp, ih (Nat.succ.inj h), Ordering.then_assoc]

/-- What the entries of an index that is not unique are, seen from their rows: the key
of the indexed value and that of the primary key. -/
theorem indexEntryKey_eq_ok {schema : Schema} {row : Row} {ordinal : UInt64} {key : List Byte}
    (h : indexEntryKey schema row ordinal false = .ok key) : ∃ indexKey primaryKey,
      RowHelpers.indexedKeyBytes schema row ordinal = .ok indexKey ∧
        RowHelpers.primaryKeyBytes schema row = .ok primaryKey ∧ key = indexKey ++ primaryKey := by
  obtain ⟨primaryKey, hprimary, hrest⟩ := bind_eq_ok.mp h
  obtain ⟨indexKey, hindex, hkey⟩ := bind_eq_ok.mp hrest
  exact ⟨indexKey, primaryKey, hindex, hprimary, (Except.ok.inj hkey).symm⟩

/-! ## The orders agree -/

/-- The keys of a type have one length and the order of its values. -/
def KeysOrdered (type : LogicalType) : Prop :=
  ∀ a b ka kb, a.type = type → b.type = type → KeyCodec.encode a = .ok ka →
    KeyCodec.encode b = .ok kb →
      ka.length = type.fixedSize.toNat ∧ kb.length = type.fixedSize.toNat ∧
        (∃ c, compareValues a b = some (.ok c) ∧ memcmp ka kb = compare c 0) ∧
        (ka = kb ↔ a = b)

/-- The entries of an index that is not unique are in the order of the indexed values,
and for one value in that of the primary keys.  An entry tells both, and it begins
with the key of a value iff that is its indexed value. -/
def EntriesOrdered (schema : Schema) (ordinal : UInt64) : Prop :=
  ∀ row row' key key', indexEntryKey schema row ordinal false = .ok key →
    indexEntryKey schema row' ordinal false = .ok key' →
      (∃ c d, compareValues (row.value ordinal) (row'.value ordinal) = some (.ok c) ∧
        compareValues (row.value schema.primaryKeyOrdinal) (row'.value schema.primaryKeyOrdinal) =
          some (.ok d) ∧
        memcmp key key' = (compare c 0).then (compare d 0)) ∧
      (key = key' ↔ row.value ordinal = row'.value ordinal ∧
        row.value schema.primaryKeyOrdinal = row'.value schema.primaryKeyOrdinal) ∧
      ∀ v kv, v.type = (row.value ordinal).type → KeyCodec.encode v = .ok kv →
        (kv <+: key ↔ row.value ordinal = v)

theorem keysOrdered (type : LogicalType) : KeysOrdered type := by
  intro a b ka kb hta htb ha hb
  have htype : a.type = b.type := hta.trans htb.symm
  exact ⟨(KeyCodec.length_encode ha).trans (hta ▸ rfl), (KeyCodec.length_encode hb).trans (htb ▸ rfl),
    compareValues_keys htype ha hb, keys_eq_iff htype ha hb⟩

/-- The values of two rows in one column have one type. -/
theorem type_of_indexedKeyBytes {schema : Schema} {row row' : Row} {ordinal : UInt64}
    {key key' : List Byte} (h : RowHelpers.indexedKeyBytes schema row ordinal = .ok key)
    (h' : RowHelpers.indexedKeyBytes schema row' ordinal = .ok key') :
    (row.value ordinal).type = (row'.value ordinal).type ∧
      KeyCodec.encode (row.value ordinal) = .ok key ∧
      KeyCodec.encode (row'.value ordinal) = .ok key' := by
  obtain ⟨column, hcolumn, htype, hkey⟩ := RowHelpers.indexedKeyBytes_eq_ok h
  obtain ⟨column', hcolumn', htype', hkey'⟩ := RowHelpers.indexedKeyBytes_eq_ok h'
  obtain rfl := Option.some.inj (hcolumn.symm.trans hcolumn')
  exact ⟨htype.trans htype'.symm, hkey, hkey'⟩

theorem entriesOrdered (schema : Schema) (ordinal : UInt64) : EntriesOrdered schema ordinal := by
  intro row row' key key' h h'
  obtain ⟨indexKey, primaryKey, hindex, hprimary, rfl⟩ := indexEntryKey_eq_ok h
  obtain ⟨indexKey', primaryKey', hindex', hprimary', rfl⟩ := indexEntryKey_eq_ok h'
  obtain ⟨htype, ha, ha'⟩ := type_of_indexedKeyBytes hindex hindex'
  obtain ⟨htype', hp, hp'⟩ := type_of_indexedKeyBytes hprimary hprimary'
  have hlength := length_keys htype ha ha'
  refine ⟨?_, ?_, fun v kv htv hv => ?_⟩
  · obtain ⟨c, hc, hmemcmp⟩ := compareValues_keys htype ha ha'
    obtain ⟨d, hd, hmemcmp'⟩ := compareValues_keys htype' hp hp'
    exact ⟨c, d, hc, hd, by rw [memcmp_append hlength, hmemcmp, hmemcmp']⟩
  · rw [← keys_eq_iff htype ha ha', ← keys_eq_iff htype' hp hp']
    constructor
    · exact fun heq => List.append_inj heq hlength
    · rintro ⟨rfl, rfl⟩
      rfl
  · rw [← keys_eq_iff htv.symm ha hv]
    constructor
    · intro hprefix
      have hlength' : kv.length = indexKey.length := length_keys htv hv ha
      have htake := List.prefix_iff_eq_take.mp hprefix
      rw [hlength', List.take_left] at htake
      exact htake.symm
    · rintro rfl
      exact List.prefix_append _ _

/-- The encoding of keys is an order embedding, for every type and for every index
on a column of a table. -/
theorem keys_embed_order (type : LogicalType) (schema : Schema) (ordinal : UInt64) :
    KeysOrdered type ∧ EntriesOrdered schema ordinal :=
  ⟨keysOrdered type, entriesOrdered schema ordinal⟩

/-- A table with a column that is not unique. -/
def sizesSchema : Schema :=
  ⟨[⟨"id", .int32, false, true, true, 0, 1⟩, ⟨"size", .int32, false, false, false, 1, 5⟩], 0, 9, 1⟩

def smallSize : Row := ⟨[⟨.int32, .integer 2, by decide⟩, ⟨.int32, .integer (-1), by decide⟩]⟩

def largeSize : Row := ⟨[⟨.int32, .integer 1, by decide⟩, ⟨.int32, .integer 3, by decide⟩]⟩

/-- A negative number is below a positive one, also where the primary keys are the other way. -/
theorem keys_embed_order_small :
    (∃ c, compareValues (smallSize.value 1) (largeSize.value 1) = some (.ok c) ∧
      memcmp [127, 255, 255, 255] [128, 0, 0, 3] = compare c 0) ∧
    (∃ c d, compareValues (smallSize.value 1) (largeSize.value 1) = some (.ok c) ∧
      compareValues (smallSize.value 0) (largeSize.value 0) = some (.ok d) ∧
      memcmp [127, 255, 255, 255, 128, 0, 0, 2] [128, 0, 0, 3, 128, 0, 0, 1] =
        (compare c 0).then (compare d 0)) ∧
    ([127, 255, 255, 255] <+: ([127, 255, 255, 255, 128, 0, 0, 2] : List Byte) ↔
      smallSize.value 1 = smallSize.value 1) := by
  obtain ⟨hkeys, hentries⟩ := keys_embed_order .int32 sizesSchema 1
  obtain ⟨-, -, hcompare, -⟩ := hkeys (smallSize.value 1) (largeSize.value 1) _ _ rfl rfl rfl rfl
  obtain ⟨hentry, -, hprefix⟩ := hentries smallSize largeSize _ _ rfl rfl
  exact ⟨hcompare, hentry, hprefix (smallSize.value 1) _ rfl rfl⟩

end DanDB.Execution
