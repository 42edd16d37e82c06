import DanDB.BTree.TreeStoreSteps
import DanDB.Execution.KeyOrder
import DanDB.Execution.PredicateRanges

/-!
# The rows of a comparison

The cursors of a comparison yield the entries whose keys are in their ranges.  As the ranges
do not overlap, these are the entries whose keys begin with a value in that relation to the
literal, each of them once.
-/

namespace DanDB.Execution

open Buffer DanDB.Core Storage PageProgram Sql
open BTree hiding Runs

variable {layout : Layout} {height spare keySize : Nat} {ctx : PageContext (spare + 3)}
  {array : PageArray} {tree : BTree} {t : Subtree layout height} {ranges : List KeyRange}
  {cursors : List BTreeCursor} {map : ByteMap} {results : List (List BTreeEntry)}

/-! ## One cursor for each range -/

/-- The cursor has all entries of the range ahead. -/
def Scans (t : Subtree layout height) (range : KeyRange) (cursor : BTreeCursor) : Prop :=
  ∃ lower upper : Option layout.Key, range = ⟨lower.map Bytes.bytes, upper.map Bytes.bytes⟩ ∧
    Ahead t upper cursor (inRange lower upper t.entries)

/-- Each range gets a cursor at its first entry. -/
theorem runs_openRanges (h : WellFormed array tree t)
    (hsized : ∀ range ∈ ranges, (∀ lower ∈ range.lower, lower.length = tree.keySize) ∧
      ∀ upper ∈ range.upper, upper.length = tree.keySize) :
    BTree.Runs ctx (openRanges tree ranges) array fun cursors array' =>
      array' = array ∧ List.Forall₂ (Scans t) ranges cursors := by
  induction ranges with
  | nil => exact runs_pure ⟨rfl, .nil⟩
  | cons range ranges ih =>
    obtain ⟨⟨hlower, hupper⟩, hsized⟩ := List.forall_mem_cons.mp hsized
    rw [h.hasLayout.keySize] at hlower hupper
    have hlower' : ¬∃ bytes ∈ range.lower, bytes.length ≠ layout.keySize := by
      rintro ⟨bytes, hmem, hne⟩
      exact hne (hlower bytes hmem)
    have hupper' : ¬∃ bytes ∈ range.upper, bytes.length ≠ layout.keySize := by
      rintro ⟨bytes, hmem, hne⟩
      exact hne (hupper bytes hmem)
    obtain ⟨lower, hlower⟩ := exists_keys hlower'
    obtain ⟨upper, hupper⟩ := exists_keys hupper'
    rw [openRanges, Program.collect_cons, ← hlower, ← hupper]
    refine (h.runs_scanRange lower upper).bind ?_
    rintro cursor array' ⟨rfl, hahead⟩
    refine (ih hsized).bind ?_
    rintro cursors array' ⟨rfl, hscans⟩
    refine runs_pure ⟨rfl, .cons ⟨lower, upper, ?_, hahead⟩ hscans⟩
    rw [hlower, hupper]

/-- What the cursors yield, one after the other. -/
theorem runs_drainAll (h : WellFormed array tree t) (hscans : List.Forall₂ (Scans t) ranges cursors) :
    BTree.Runs ctx (Program.collect BTreeCursor.drain cursors) array fun results array' =>
      array' = array ∧ List.Forall₂
        (fun range entries => RangeOf (contents t.entries) range.lower range.upper entries)
        ranges results := by
  induction hscans with
  | nil => exact runs_pure ⟨rfl, .nil⟩
  | cons hfirst _ ih =>
    obtain ⟨lower, upper, rfl, hahead⟩ := hfirst
    rw [Program.collect_cons]
    refine (h.runs_drain hahead).bind ?_
    rintro entries array' ⟨rfl, rfl⟩
    refine ih.bind ?_
    rintro results array' ⟨rfl, hranges⟩
    exact runs_pure ⟨rfl, .cons (rangeOf_inRange h.sorted lower upper) hranges⟩

/-! ## Ranges that do not overlap -/

/-- The bounds of a scan are those of its range. -/
theorem contains_iff {range : KeyRange} {key : List Byte}
    (hlower : ∀ lower ∈ range.lower, lower.length = key.length) : range.Contains key ↔
      (∀ lower ∈ range.lower, memcmp lower key ≠ .gt) ∧
        ∀ upper ∈ range.upper, memcmp key upper = .lt := by
  have hswap (lower : List Byte) (hmem : lower ∈ range.lower) :
      memcmp key lower ≠ .lt ↔ memcmp lower key ≠ .gt := by
    have hlength := hlower lower hmem
    rw [memcmp_eq hlength, memcmp_eq hlength.symm, Ne, Nat.compare_eq_lt, Ne, Nat.compare_eq_gt]
  exact and_congr_left' (forall₂_congr hswap)

/-- A scan yields what is in its range. -/
theorem mem_rangeOf {range : KeyRange} {entries : List BTreeEntry} {entry : BTreeEntry}
    (h : RangeOf map range.lower range.upper entries)
    (hsized : ∀ lower ∈ range.lower, lower.length = keySize)
    (hkeys : ∀ key value, map key = some value → key.length = keySize) :
    entry ∈ entries ↔ map entry.key = some entry.value ∧ range.Contains entry.key := by
  rw [h.mem_iff]
  refine and_congr_right fun hentry => (contains_iff fun lower hmem => ?_).symm
  rw [hsized lower hmem, hkeys _ _ hentry]

theorem nodup_rangeOf {lower upper : Option (List Byte)} {entries : List BTreeEntry}
    (h : RangeOf map lower upper entries) : entries.Nodup := by
  refine h.sorted.imp fun hlt heq => ?_
  rw [heq, memcmp_self] at hlt
  cases hlt

/-- Scans of all ranges yield the entries with the property, each once. -/
theorem ExactRanges.yield {property : List Byte → Prop} (h : ExactRanges keySize ranges property)
    (hkeys : ∀ key value, map key = some value → key.length = keySize)
    (hresults : List.Forall₂ (fun range entries => RangeOf map range.lower range.upper entries)
      ranges results) :
    results.flatten.Nodup ∧ ∀ entry, entry ∈ results.flatten ↔
      map entry.key = some entry.value ∧ property entry.key := by
  have hflatten : results.flatten.Nodup ∧ ∀ entry, entry ∈ results.flatten ↔
      map entry.key = some entry.value ∧ ∃ range ∈ ranges, range.Contains entry.key := by
    have hsized := h.sized
    have hdisjoint := h.disjoint
    clear h
    induction hresults with
    | nil => simp
    | @cons range entries ranges results hrange _ ih =>
      obtain ⟨⟨hlower, -⟩, hsized⟩ := List.forall_mem_cons.mp hsized
      obtain ⟨hapart, hdisjoint⟩ := List.pairwise_cons.mp hdisjoint
      obtain ⟨hnodup, hmem⟩ := ih hsized hdisjoint
      have hfirst (entry : BTreeEntry) : entry ∈ entries ↔
          map entry.key = some entry.value ∧ range.Contains entry.key :=
        mem_rangeOf hrange hlower hkeys
      constructor
      · refine List.nodup_append'.mpr ⟨nodup_rangeOf hrange, hnodup, fun entry hentry hother => ?_⟩
        obtain ⟨hvalue, hcontains⟩ := (hfirst entry).mp hentry
        obtain ⟨-, other, hother, hcontains'⟩ := (hmem entry).mp hother
        exact hapart other hother entry.key (hkeys _ _ hvalue) ⟨hcontains, hcontains'⟩
      · intro entry
        rw [List.flatten_cons, List.mem_append, hfirst, hmem, List.exists_mem_cons_iff]
        tauto
  refine ⟨hflatten.1, fun entry => (hflatten.2 entry).trans (and_congr_right fun hvalue => ?_)⟩
  exact h.union entry.key (hkeys _ _ hvalue)

/-! ## Comparisons -/

theorem length_of_contents {entries : List (layout.Entry .leaf)} {key value : List Byte}
    (h : contents entries key = some value) : key.length = layout.keySize := by
  by_contra hne
  rw [contents, dif_neg hne] at h
  cases h

section Comparisons

variable {comparisonOperator : ComparisonOperator} {literal : List Byte}
  (h : WellFormed array tree t)

include h

/-- The cursors of ranges for a property yield the entries with the property. -/
theorem runs_exactRanges {property : List Byte → Prop}
    (hexact : ExactRanges tree.keySize ranges property) :
    BTree.Runs ctx (openRanges tree ranges >>= Program.collect BTreeCursor.drain) array
      fun results array' => array' = array ∧ results.flatten.Nodup ∧
        ∀ entry, entry ∈ results.flatten ↔
          contents t.entries entry.key = some entry.value ∧ property entry.key := by
  have hkeys (key value : List Byte) (hvalue : contents t.entries key = some value) :
      key.length = tree.keySize := (length_of_contents hvalue).trans h.hasLayout.keySize.symm
  refine (runs_openRanges h hexact.sized).bind ?_
  rintro cursors array' ⟨rfl, hscans⟩
  refine (runs_drainAll h hscans).mono ?_
  rintro results array' ⟨rfl, hresults⟩
  exact ⟨rfl, hexact.yield hkeys hresults⟩

/-- A comparison with the primary key visits the rows for which it holds, each once. -/
theorem runs_tableComparison (hcomparison : IsComparison comparisonOperator)
    (hliteral : literal.length = tree.keySize) :
    BTree.Runs ctx (openTableCursors tree comparisonOperator literal >>=
        Program.collect BTreeCursor.drain) array
      fun results array' => array' = array ∧ results.flatten.Nodup ∧
        ∀ entry, entry ∈ results.flatten ↔ contents t.entries entry.key = some entry.value ∧
          Stands comparisonOperator (memcmp entry.key literal) := by
  rw [openTableCursors_eq hcomparison hliteral]
  exact runs_exactRanges h (exactTableRanges hcomparison hliteral)

/-- A comparison with an indexed column visits the entries of the index whose keys begin with
a value for which it holds, each once. -/
theorem runs_indexComparison (hcomparison : IsComparison comparisonOperator)
    (hliteral : literal.length ≤ tree.keySize) :
    BTree.Runs ctx (openSecondaryIndexCursors tree comparisonOperator literal >>=
        Program.collect BTreeCursor.drain) array
      fun results array' => array' = array ∧ results.flatten.Nodup ∧
        ∀ entry, entry ∈ results.flatten ↔ contents t.entries entry.key = some entry.value ∧
          Stands comparisonOperator (memcmp (entry.key.take literal.length) literal) := by
  rw [openSecondaryIndexCursors_eq hcomparison hliteral]
  exact runs_exactRanges h (exactRanges hcomparison hliteral)

end Comparisons

end DanDB.Execution
