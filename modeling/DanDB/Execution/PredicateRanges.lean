import DanDB.BTree.BTree
import DanDB.Core.Memcmp
import DanDB.Sql.Ast

/-!
# Predicate ranges

A comparison with a literal becomes ranges of keys, each from an inclusive lower to
an exclusive upper bound.  The bounds are the encoded literal and its successor, in a
secondary index with zeros behind them up to the size of the keys there.

`nextKey` is the number of the key plus one.  A key of the full size splits into its
column prefix and a rest, so where it lies between padded bounds depends on how its
prefix compares with the literal.
-/

namespace DanDB.Execution

open Buffer DanDB.Core Storage Sql BTree

/-! ## Successors -/

/-- The loop of `next_key`: the bytes behind the place were 0xff. -/
def nextKeyFrom : Nat → List Byte → Option (List Byte)
  | 0, _ => none
  | i + 1, successor =>
    let value := successor.getD i 0
    if value = 0xff then nextKeyFrom i (successor.set i 0x00)
    else some (successor.set i (value + 1))

def nextKey (key : List Byte) : Option (List Byte) := nextKeyFrom key.length key

theorem beValue_replicate_zero (n : Nat) : beValue (List.replicate n 0) = 0 := by
  induction n with
  | zero => rfl
  | succ n ih =>
    rw [List.replicate_succ, beValue, ih]
    exact Nat.zero_mul _

theorem beValue_replicate_max (n : Nat) : beValue (List.replicate n 0xff) + 1 = 256 ^ n := by
  induction n with
  | zero => rfl
  | succ n ih =>
    have hmax : (0xff : Byte).toNat = 255 := rfl
    rw [List.replicate_succ, beValue, List.length_replicate, hmax, Nat.add_assoc, ih, Nat.pow_succ]
    omega

/-- The bytes up to the place are still those of the key, and the others were cleared. -/
theorem nextKeyFrom_cases (front : List Byte) (n : Nat) :
    (nextKeyFrom front.length (front ++ List.replicate n 0) = none ∧
        front = List.replicate front.length 0xff) ∨
      ∃ next, nextKeyFrom front.length (front ++ List.replicate n 0) = some next ∧
        next.length = front.length + n ∧
        beValue next = beValue (front ++ List.replicate n 0xff) + 1 := by
  induction hlength : front.length generalizing front n with
  | zero =>
    rw [List.eq_nil_of_length_eq_zero hlength]
    exact .inl ⟨rfl, rfl⟩
  | succ i ih =>
    obtain ⟨front, byte, rfl⟩ := List.eq_nil_or_concat front |>.resolve_left
      (List.ne_nil_of_length_eq_add_one hlength)
    rw [List.length_concat, Nat.add_right_cancel_iff] at hlength
    subst hlength
    rw [List.concat_eq_append, List.append_assoc, List.append_assoc, List.singleton_append,
      List.singleton_append, nextKeyFrom]
    have hget : (front ++ byte :: List.replicate n 0).getD front.length 0 = byte := by simp
    have hset (value : Byte) : (front ++ byte :: List.replicate n 0).set front.length value =
        front ++ value :: List.replicate n 0 := by simp
    rw [hget, hset, hset]
    by_cases hmax : byte = 0xff
    · rw [if_pos hmax, hmax, ← List.replicate_succ, ← List.replicate_succ]
      obtain ⟨hnone, hfront⟩ | ⟨next, hnext, hlength, hvalue⟩ := ih front (n + 1) rfl
      · refine .inl ⟨hnone, ?_⟩
        rw [List.replicate_succ', ← hfront]
      · exact .inr ⟨next, hnext, by omega, hvalue⟩
    · rw [if_neg hmax]
      refine .inr ⟨_, rfl, by simp; omega, ?_⟩
      have hbyte : (byte + 1).toNat = byte.toNat + 1 := by
        have hlt := byte.toNat_lt
        have hne : byte.toNat ≠ 255 := fun heq => hmax (UInt8.toNat.inj heq)
        rw [UInt8.toNat_add]
        exact Nat.mod_eq_of_lt (by show byte.toNat + 1 < 256; omega)
      rw [beValue_append, beValue_append, beValue, beValue, hbyte, beValue_replicate_zero,
        List.length_cons, List.length_cons, List.length_replicate, List.length_replicate,
        Nat.add_assoc, Nat.add_assoc, beValue_replicate_max, Nat.succ_mul]
      omega

/-- The number of the successor; there is none for the last key. -/
theorem nextKey_cases (key : List Byte) :
    (nextKey key = none ∧ key = List.replicate key.length 0xff) ∨
      ∃ next, nextKey key = some next ∧ next.length = key.length ∧
        beValue next = beValue key + 1 := by
  have hcases := nextKeyFrom_cases key 0
  rwa [List.replicate_zero, List.replicate_zero, List.append_nil] at hcases

/-- The least larger key of the same length. -/
structure IsSuccessor (key next : List Byte) : Prop where
  length_eq : next.length = key.length
  greater : memcmp key next = .lt
  least : ∀ other : List Byte, other.length = key.length → memcmp key other = .lt →
    memcmp next other ≠ .gt

theorem isSuccessor_of_beValue {key next : List Byte} (hlength : next.length = key.length)
    (hvalue : beValue next = beValue key + 1) : IsSuccessor key next := by
  refine ⟨hlength, ?_, fun other hother hlt => ?_⟩
  · rw [memcmp_eq hlength.symm, Nat.compare_eq_lt]
    omega
  · rw [memcmp_eq hother.symm, Nat.compare_eq_lt] at hlt
    rw [memcmp_eq (hlength.trans hother.symm), Ne, Nat.compare_eq_gt]
    omega

theorem nextKey_spec (key : List Byte) :
    (∀ next, nextKey key = some next → IsSuccessor key next) ∧
      (nextKey key = none ↔ key = List.replicate key.length 0xff) := by
  obtain ⟨hnone, hmax⟩ | ⟨next, hnext, hlength, hvalue⟩ := nextKey_cases key
  · rw [hnone]
    exact ⟨nofun, iff_of_true rfl hmax⟩
  · rw [hnext]
    refine ⟨fun _ h => Option.some.inj h ▸ isSuccessor_of_beValue hlength hvalue,
      iff_of_false nofun fun hmax => ?_⟩
    have hlast := beValue_replicate_max key.length
    have hlt := beValue_lt next
    rw [← hmax] at hlast
    rw [hlength] at hlt
    omega

/-! ## Cursors -/

section Cursors

variable (tree : BTree) (comparisonOperator : ComparisonOperator)

def openCursors (key : List Byte) (nextKey : Option (List Byte)) :
    PageProgram (List BTreeCursor) :=
  match comparisonOperator with
  | .equal => do
    let cursor ← tree.scanRange (some key) nextKey
    return [cursor]
  | .notEqual => do
    let beforeCursor ← tree.scanRange none (some key)
    match nextKey with
    | some nextKey => do
      let afterCursor ← tree.scanRange (some nextKey) none
      return [beforeCursor, afterCursor]
    | none => return [beforeCursor]
  | .less => do
    let cursor ← tree.scanRange none (some key)
    return [cursor]
  | .lessEqual => do
    let cursor ← tree.scanRange none nextKey
    return [cursor]
  | .greater =>
    match nextKey with
    | none => return []
    | some nextKey => do
      let cursor ← tree.scanRange (some nextKey) none
      return [cursor]
  | .greaterEqual => do
    let cursor ← tree.scanRange (some key) none
    return [cursor]
  | .isNull | .isNotNull =>
    Program.fail (.InternalError "Cannot open cursors for a null predicate")

def openTableCursors (key : List Byte) : PageProgram (List BTreeCursor) :=
  openCursors tree comparisonOperator key (nextKey key)

def openSecondaryIndexCursors (indexedKeyPrefix : List Byte) : PageProgram (List BTreeCursor) := do
  Program.failIf (indexedKeyPrefix.length > tree.keySize) (.InvalidArgument
    "Cannot open secondary-index cursors: indexed key prefix is larger than the B+ tree key")
  let key := resize 0x00 indexedKeyPrefix tree.keySize
  let nextKey := (nextKey indexedKeyPrefix).map (resize 0x00 · tree.keySize)
  openCursors tree comparisonOperator key nextKey

end Cursors

/-! ## Ranges -/

/-- The bounds of a range scan. -/
structure KeyRange where
  lower : Option (List Byte)
  upper : Option (List Byte)

/-- The cursor of the range starts at or in front of the key, and ends behind it. -/
def KeyRange.Contains (range : KeyRange) (key : List Byte) : Prop :=
  (∀ lower ∈ range.lower, memcmp key lower ≠ .lt) ∧ ∀ upper ∈ range.upper, memcmp key upper = .lt

/-- The ranges of a comparison with a key, in the order of their cursors. -/
def comparisonRanges (key : List Byte) (nextKey : Option (List Byte)) :
    ComparisonOperator → List KeyRange
  | .equal => [⟨some key, nextKey⟩]
  | .notEqual => ⟨none, some key⟩ :: nextKey.toList.map fun nextKey => ⟨some nextKey, none⟩
  | .less => [⟨none, some key⟩]
  | .lessEqual => [⟨none, nextKey⟩]
  | .greater => nextKey.toList.map fun nextKey => ⟨some nextKey, none⟩
  | .greaterEqual => [⟨some key, none⟩]
  | .isNull | .isNotNull => []

/-- The operator compares with a literal. -/
def IsComparison (comparisonOperator : ComparisonOperator) : Prop :=
  comparisonOperator ≠ .isNull ∧ comparisonOperator ≠ .isNotNull

/-- What an operator says of the order of two values. -/
def Stands : ComparisonOperator → Ordering → Prop
  | .equal, ordering => ordering = .eq
  | .notEqual, ordering => ordering ≠ .eq
  | .less, ordering => ordering = .lt
  | .lessEqual, ordering => ordering ≠ .gt
  | .greater, ordering => ordering = .gt
  | .greaterEqual, ordering => ordering ≠ .lt
  | .isNull, _ => False
  | .isNotNull, _ => False

/-- One cursor is opened for each range. -/
theorem openCursors_eq {tree : BTree} {comparisonOperator : ComparisonOperator} {key : List Byte}
    {nextKey : Option (List Byte)} (h : IsComparison comparisonOperator) :
    openCursors tree comparisonOperator key nextKey =
      Program.collect (fun range => tree.scanRange range.lower range.upper)
        (comparisonRanges key nextKey comparisonOperator) := by
  obtain ⟨hnull, hnotNull⟩ := h
  cases comparisonOperator with
  | isNull => exact absurd rfl hnull
  | isNotNull => exact absurd rfl hnotNull
  | equal => rfl
  | less => rfl
  | lessEqual => rfl
  | greaterEqual => rfl
  | greater => cases nextKey <;> rfl
  | notEqual =>
    cases nextKey with
    | none => rfl
    | some nextKey =>
      simp only [openCursors, comparisonRanges, Option.toList_some, List.map_cons, List.map_nil,
        Program.collect_cons, Program.collect_nil, Program.pure_bind, Program.bind_assoc]

/-! ## Prefixes -/

section Prefixes

variable {key bound : List Byte} {keySize : Nat}

/-- A key against a padded bound is its prefix against the bound. -/
theorem memcmp_resize (hkey : key.length = keySize) (hbound : bound.length ≤ keySize) :
    memcmp key (resize 0x00 bound keySize) = .lt ↔ memcmp (key.take bound.length) bound = .lt := by
  have htake : (key.take bound.length).length = bound.length :=
    List.length_take_of_le (by omega)
  have hdrop : (key.drop bound.length).length = keySize - bound.length := by
    rw [List.length_drop, hkey]
  have hlt := beValue_lt (key.drop bound.length)
  have hpow : 0 < 256 ^ (keySize - bound.length) := Nat.pow_pos (by decide)
  rw [hdrop] at hlt
  rw [memcmp_eq htake, memcmp_eq (by rw [hkey, length_resize]), Nat.compare_eq_lt,
    Nat.compare_eq_lt]
  conv => lhs; lhs; rw [← List.take_append_drop bound.length key]
  rw [resize, List.take_of_length_le hbound, beValue_append, beValue_append,
    beValue_replicate_zero, List.length_replicate, hdrop, Nat.add_zero]
  constructor
  · intro h
    exact Nat.lt_of_mul_lt_mul_right ((Nat.le_add_right _ _).trans_lt h)
  · intro h
    have hmul := Nat.mul_le_mul_right (256 ^ (keySize - bound.length)) h
    rw [Nat.succ_mul] at hmul
    omega

/-- Being below the successor is not being above. -/
theorem memcmp_successor {next : List Byte} (hlength : key.length = bound.length)
    (hnext : next.length = bound.length) (hvalue : beValue next = beValue bound + 1) :
    memcmp key next = .lt ↔ memcmp key bound ≠ .gt := by
  rw [memcmp_eq (hlength.trans hnext.symm), memcmp_eq hlength, Nat.compare_eq_lt, Ne,
    Nat.compare_eq_gt]
  omega

/-- No key is above the last one. -/
theorem memcmp_last (hlength : key.length = bound.length)
    (hlast : bound = List.replicate bound.length 0xff) : memcmp key bound ≠ .gt := by
  have hvalue := beValue_replicate_max bound.length
  have hlt := beValue_lt key
  rw [← hlast] at hvalue
  rw [memcmp_eq hlength, Ne, Nat.compare_eq_gt]
  rw [hlength] at hlt
  omega

end Prefixes

/-! ## Exactness -/

/-- The ranges have bounds of the right size, do not overlap, and together contain the
keys with the property. -/
structure ExactRanges (keySize : Nat) (ranges : List KeyRange) (property : List Byte → Prop) :
    Prop where
  sized : ∀ range ∈ ranges, (∀ lower ∈ range.lower, lower.length = keySize) ∧
    ∀ upper ∈ range.upper, upper.length = keySize
  disjoint : ranges.Pairwise fun a b => ∀ key : List Byte, key.length = keySize →
    ¬(a.Contains key ∧ b.Contains key)
  union : ∀ key : List Byte, key.length = keySize →
    ((∃ range ∈ ranges, range.Contains key) ↔ property key)

section Exact

variable {keySize : Nat} {literal : List Byte} {comparisonOperator : ComparisonOperator}

/-- The ranges of a comparison with a literal that the keys begin with. -/
def prefixRanges (keySize : Nat) (literal : List Byte) (comparisonOperator : ComparisonOperator) :
    List KeyRange :=
  comparisonRanges (resize 0x00 literal keySize)
    ((nextKey literal).map (resize 0x00 · keySize)) comparisonOperator

theorem memcmp_next {key next : List Byte} (hkey : key.length = keySize)
    (hliteral : literal.length ≤ keySize) (hnext : nextKey literal = some next) :
    memcmp key (resize 0x00 next keySize) = .lt ↔
      memcmp (key.take literal.length) literal ≠ .gt := by
  obtain ⟨hnone, -⟩ | ⟨next', hnext', hlength, hvalue⟩ := nextKey_cases literal
  · rw [hnone] at hnext
    cases hnext
  · rw [hnext'] at hnext
    cases hnext
    rw [memcmp_resize hkey (hlength ▸ hliteral), hlength]
    exact memcmp_successor (List.length_take_of_le (by omega)) hlength hvalue

theorem memcmp_noNext {key : List Byte} (hkey : key.length = keySize)
    (hliteral : literal.length ≤ keySize) (hnext : nextKey literal = none) :
    memcmp (key.take literal.length) literal ≠ .gt :=
  memcmp_last (List.length_take_of_le (by omega)) ((nextKey_spec literal).2.mp hnext)

theorem union_prefixRanges {key : List Byte} (hcomparison : IsComparison comparisonOperator)
    (hkey : key.length = keySize) (hliteral : literal.length ≤ keySize) :
    (∃ range ∈ prefixRanges keySize literal comparisonOperator, range.Contains key) ↔
      Stands comparisonOperator (memcmp (key.take literal.length) literal) := by
  have hlower := memcmp_resize hkey hliteral
  obtain ⟨hnull, hnotNull⟩ := hcomparison
  rw [prefixRanges]
  cases hnext : nextKey literal with
  | none =>
    have hlast := memcmp_noNext hkey hliteral hnext
    generalize memcmp (key.take literal.length) literal = ordering at hlower hlast ⊢
    cases comparisonOperator <;> cases ordering <;>
      simp_all [comparisonRanges, KeyRange.Contains, Stands]
  | some next =>
    have hupper := memcmp_next hkey hliteral hnext
    generalize memcmp (key.take literal.length) literal = ordering at hlower hupper ⊢
    cases comparisonOperator <;> cases ordering <;>
      simp_all [comparisonRanges, KeyRange.Contains, Stands]

theorem disjoint_prefixRanges (hliteral : literal.length ≤ keySize) :
    (prefixRanges keySize literal comparisonOperator).Pairwise fun a b =>
      ∀ key : List Byte, key.length = keySize → ¬(a.Contains key ∧ b.Contains key) := by
  rw [prefixRanges]
  cases hnext : nextKey literal with
  | none => cases comparisonOperator <;> simp [comparisonRanges]
  | some next =>
    cases comparisonOperator with
    | notEqual =>
      -- below the literal and not below its successor
      simp only [comparisonRanges, Option.map_some, Option.toList_some, List.map_cons, List.map_nil,
        List.pairwise_pair]
      rintro key hkey ⟨hbefore, hbehind⟩
      have hlt := (memcmp_resize hkey hliteral).mp (hbefore.2 _ rfl)
      have hge := mt (memcmp_next hkey hliteral hnext).mpr (hbehind.1 _ rfl)
      rw [hlt] at hge
      exact hge nofun
    | _ => simp [comparisonRanges]

theorem sized_prefixRanges : ∀ range ∈ prefixRanges keySize literal comparisonOperator,
    (∀ lower ∈ range.lower, lower.length = keySize) ∧
      ∀ upper ∈ range.upper, upper.length = keySize := by
  rw [prefixRanges]
  cases nextKey literal <;> cases comparisonOperator <;> simp [comparisonRanges]

theorem exactRanges (hcomparison : IsComparison comparisonOperator)
    (hliteral : literal.length ≤ keySize) :
    ExactRanges keySize (prefixRanges keySize literal comparisonOperator) fun key =>
      Stands comparisonOperator (memcmp (key.take literal.length) literal) where
  sized := sized_prefixRanges
  disjoint := disjoint_prefixRanges hliteral
  union _ hkey := union_prefixRanges hcomparison hkey hliteral

/-- A literal of the full size is compared with the whole key. -/
theorem exactTableRanges (hcomparison : IsComparison comparisonOperator)
    (hliteral : literal.length = keySize) :
    ExactRanges keySize (prefixRanges keySize literal comparisonOperator) fun key =>
      Stands comparisonOperator (memcmp key literal) where
  sized := sized_prefixRanges
  disjoint := disjoint_prefixRanges hliteral.le
  union key hkey := by
    have hunion := (exactRanges hcomparison hliteral.le).union key hkey
    rwa [List.take_of_length_le (hkey.trans hliteral.symm).le] at hunion

end Exact

/-! ## The cursors of a predicate -/

section Predicates

variable {tree : BTree} {comparisonOperator : ComparisonOperator} {literal : List Byte}

/-- A cursor for each range. -/
def openRanges (tree : BTree) (ranges : List KeyRange) : PageProgram (List BTreeCursor) :=
  Program.collect (fun range => tree.scanRange range.lower range.upper) ranges

theorem openTableCursors_eq (hcomparison : IsComparison comparisonOperator)
    (hliteral : literal.length = tree.keySize) : openTableCursors tree comparisonOperator literal =
      openRanges tree (prefixRanges tree.keySize literal comparisonOperator) := by
  have hpad {key : List Byte} (hkey : key.length = tree.keySize) :
      resize 0x00 key tree.keySize = key := by
    rw [resize_of_le _ hkey.ge, ← hkey, List.take_length]
  have hnext : (nextKey literal).map (resize 0x00 · tree.keySize) = nextKey literal := by
    obtain ⟨hnone, -⟩ | ⟨next, hnext, hlength, -⟩ := nextKey_cases literal
    · rw [hnone, Option.map_none]
    · rw [hnext, Option.map_some, hpad (hlength.trans hliteral)]
  rw [openTableCursors, openCursors_eq hcomparison, openRanges, prefixRanges, hpad hliteral, hnext]

theorem openSecondaryIndexCursors_eq (hcomparison : IsComparison comparisonOperator)
    (hliteral : literal.length ≤ tree.keySize) :
    openSecondaryIndexCursors tree comparisonOperator literal =
      openRanges tree (prefixRanges tree.keySize literal comparisonOperator) := by
  rw [openSecondaryIndexCursors, Program.failIf, if_neg (Nat.not_lt.mpr hliteral),
    Program.pure_bind]
  exact openCursors_eq hcomparison

/-- A null test opens no cursors. -/
theorem openCursors_null {key : List Byte} {nextKey : Option (List Byte)}
    (h : ¬IsComparison comparisonOperator) : openCursors tree comparisonOperator key nextKey =
      Program.fail (.InternalError "Cannot open cursors for a null predicate") := by
  cases comparisonOperator with
  | isNull => rfl
  | isNotNull => rfl
  | _ => exact absurd ⟨nofun, nofun⟩ h

end Predicates

/-- The cursors of a comparison scan the keys that begin with a value in that relation to
the literal, in a table and in a secondary index.  A null test opens none. -/
theorem predicate_ranges :
    (∀ key : List Byte, (∀ next, nextKey key = some next → IsSuccessor key next) ∧
      (nextKey key = none ↔ key = List.replicate key.length 0xff)) ∧
    ∀ (tree : BTree) (comparisonOperator : ComparisonOperator) (literal : List Byte),
      (IsComparison comparisonOperator → literal.length = tree.keySize →
        openTableCursors tree comparisonOperator literal =
            openRanges tree (prefixRanges tree.keySize literal comparisonOperator) ∧
          ExactRanges tree.keySize (prefixRanges tree.keySize literal comparisonOperator)
            fun key => Stands comparisonOperator (memcmp key literal)) ∧
      (IsComparison comparisonOperator → literal.length ≤ tree.keySize →
        openSecondaryIndexCursors tree comparisonOperator literal =
            openRanges tree (prefixRanges tree.keySize literal comparisonOperator) ∧
          ExactRanges tree.keySize (prefixRanges tree.keySize literal comparisonOperator)
            fun key => Stands comparisonOperator (memcmp (key.take literal.length) literal)) ∧
      (¬IsComparison comparisonOperator → openTableCursors tree comparisonOperator literal =
        Program.fail (.InternalError "Cannot open cursors for a null predicate")) := by
  refine ⟨nextKey_spec, fun tree comparisonOperator literal => ⟨?_, ?_, openCursors_null⟩⟩
  · intro hcomparison hliteral
    exact ⟨openTableCursors_eq hcomparison hliteral, exactTableRanges hcomparison hliteral⟩
  · intro hcomparison hliteral
    exact ⟨openSecondaryIndexCursors_eq hcomparison hliteral, exactRanges hcomparison hliteral⟩

theorem predicate_ranges_small :
    IsSuccessor [0x01, 0xff] [0x02, 0x00] ∧
      ExactRanges 3 (prefixRanges 3 [0x01, 0xff] .notEqual) fun key =>
        Stands .notEqual (memcmp (key.take 2) [0x01, 0xff]) :=
  ⟨(predicate_ranges.1 [0x01, 0xff]).1 _ rfl,
    ((predicate_ranges.2 ⟨1, 3, 1⟩ .notEqual [0x01, 0xff]).2.1 ⟨nofun, nofun⟩ (by decide)).2⟩

end DanDB.Execution
