import DanDB.BTree.Subtree

/-!
# Order and occupancy of subtrees

The keys of a subtree increase from left to right, and its nodes are full enough.
Together they say which child a key belongs to.
-/

namespace DanDB.BTree

open Buffer DanDB.Core Storage Subtree Entries

variable {layout : Layout} {height : Nat} {isRoot : Bool} {t : Subtree layout height}
  {ts front back : List (Subtree layout height)} {key : layout.Key}

/-- The least number of entries of a node that is not the root. -/
def Layout.minimum (layout : Layout) : BTreePageKind → Nat
  | .leaf => (layout.capacity .leaf + 1) / 2
  | .internal => layout.capacity .internal / 2

theorem Layout.minimum_pos {kind : BTreePageKind} (h : layout.Admits kind) :
    0 < layout.minimum kind := by
  have hge : kind.minimumCapacity ≤ layout.capacity kind := h
  cases kind with
  | leaf => exact Nat.div_pos (Nat.succ_le_succ hge) (by decide)
  | internal => exact Nat.div_pos hge (by decide)

namespace Subtree

/-- The nodes have as many entries as they need; an internal root has two children. -/
def Filled : {height : Nat} → Bool → Subtree layout height → Prop
  | 0, isRoot, (_, entries) => isRoot = true ∨ layout.minimum .leaf ≤ entries.length
  | _ + 1, isRoot, (_, children) =>
    (if isRoot then 2 else layout.minimum .internal + 1) ≤ children.1.length ∧
      ∀ child ∈ children.1, Filled false child

/-- The node may have one entry less than it needs. -/
def Thin : {height : Nat} → Bool → Subtree layout height → Prop
  | 0, isRoot, (_, entries) => isRoot = true ∨ layout.minimum .leaf ≤ entries.length + 1
  | _ + 1, isRoot, (_, children) =>
    (if isRoot then 2 else layout.minimum .internal + 1) ≤ children.1.length + 1 ∧
      ∀ child ∈ children.1, Filled false child

theorem Filled.entries_ne_nil (hadmits : layout.Admits .leaf) (h : t.Filled false) :
    t.entries ≠ [] := by
  induction height with
  | zero =>
    obtain ⟨pageId, entries⟩ := t
    have hle : layout.minimum .leaf ≤ entries.length := h.resolve_left nofun
    have hpos := Layout.minimum_pos hadmits
    have hentries : @Subtree.entries layout 0 (pageId, entries) = entries :=
      List.append_nil _
    rw [hentries]
    exact List.ne_nil_of_length_pos (by omega)
  | succ height ih =>
    obtain ⟨pageId, children, hne⟩ := t
    obtain ⟨first, rest, rfl⟩ := List.exists_cons_of_ne_nil hne
    intro hnil
    have hflat : (first :: rest).flatMap entries = [] := entries_internal.symm.trans hnil
    exact ih (h.2 first (List.mem_cons_self ..)) (List.append_eq_nil_iff.mp hflat).1

/-! ## The least key -/

theorem minKey_eq {entry : layout.Entry .leaf} {rest : List (layout.Entry .leaf)}
    (h : t.entries = entry :: rest) : t.minKey = entry.1 := by
  rw [minKey, h]
  rfl

theorem minKey_mem (h : t.entries ≠ []) : ∃ entry ∈ t.entries, entry.1 = t.minKey := by
  obtain ⟨entry, rest, hentries⟩ := List.exists_cons_of_ne_nil h
  exact ⟨entry, hentries ▸ List.mem_cons_self .., (minKey_eq hentries).symm⟩

theorem minKey_le (hsorted : Sorted t.entries) {entry : layout.Entry .leaf}
    (h : entry ∈ t.entries) : t.minKey ≤ entry.1 := by
  obtain ⟨first, rest, hentries⟩ := List.exists_cons_of_ne_nil (List.ne_nil_of_mem h)
  rw [minKey_eq hentries]
  rw [hentries] at h hsorted
  obtain rfl | hmem := List.mem_cons.mp h
  · exact le_refl _
  · exact ((sorted_cons.mp hsorted).1 entry hmem).le

end Subtree

/-! ## Children in order -/

section Children

theorem sorted_flatMap_append (hsorted : Sorted ((front ++ back).flatMap entries)) :
    Sorted (front.flatMap entries) ∧ Sorted (back.flatMap entries) ∧
      ∀ a ∈ front.flatMap entries, ∀ b ∈ back.flatMap entries, a.1 < b.1 := by
  rw [List.flatMap_append] at hsorted
  exact sorted_append.mp hsorted

theorem sorted_of_mem (hsorted : Sorted (ts.flatMap entries)) (h : t ∈ ts) : Sorted t.entries := by
  obtain ⟨front, back, rfl⟩ := List.append_of_mem h
  obtain ⟨-, hback, -⟩ := sorted_flatMap_append hsorted
  exact (sorted_append.mp hback).1

/-- The entries on the left of a child have smaller keys than it. -/
theorem lt_minKey (hsorted : Sorted ((front ++ back).flatMap entries)) (hmem : t ∈ back)
    (hne : t.entries ≠ []) {entry : layout.Entry .leaf} (h : entry ∈ front.flatMap entries) :
    entry.1 < t.minKey := by
  obtain ⟨-, -, hlt⟩ := sorted_flatMap_append hsorted
  obtain ⟨least, hleast, heq⟩ := minKey_mem hne
  rw [← heq]
  exact hlt entry h least (List.mem_flatMap.mpr ⟨t, hmem, hleast⟩)

/-- The keys of a child on the right are not smaller than its least key. -/
theorem minKey_lt_minKey (hsorted : Sorted ((front ++ back).flatMap entries))
    (hne : ∀ t ∈ front ++ back, t.entries ≠ []) {a b : Subtree layout height} (ha : a ∈ front)
    (hb : b ∈ back) : a.minKey < b.minKey := by
  obtain ⟨least, hleast, heq⟩ := minKey_mem (hne a (List.mem_append_left _ ha))
  rw [← heq]
  exact lt_minKey hsorted hb (hne b (List.mem_append_right _ hb))
    (List.mem_flatMap.mpr ⟨a, ha, hleast⟩)

/-- The child that a key belongs to: the last one whose least key is not larger,
or the first one. -/
structure ChildFor (key : layout.Key) (front : List (Subtree layout height))
    (t : Subtree layout height) (back : List (Subtree layout height)) : Prop where
  le : ∀ child ∈ (front ++ [t]).tail, child.minKey ≤ key
  lt : ∀ child ∈ back, key < child.minKey

theorem exists_childFor (hts : ts ≠ []) (hsorted : Sorted (ts.flatMap entries))
    (hne : ∀ t ∈ ts, t.entries ≠ []) (key : layout.Key) :
    ∃ front t back, ts = front ++ t :: back ∧ ChildFor key front t back := by
  induction ts with
  | nil => exact absurd rfl hts
  | cons t ts ih =>
    cases ts with
    | nil => exact ⟨[], t, [], rfl, nofun, nofun⟩
    | cons t' ts =>
      obtain ⟨-, hsorted', -⟩ := sorted_append.mp hsorted
      obtain ⟨-, hne'⟩ := List.forall_mem_cons.mp hne
      rcases le_or_gt t'.minKey key with hle | hlt
      · obtain ⟨front, child, back, hsplit, hchild⟩ := ih (List.cons_ne_nil _ _) hsorted' hne'
        refine ⟨t :: front, child, back, by rw [hsplit, List.cons_append], ⟨?_, hchild.lt⟩⟩
        have hhead : front ++ [child] = t' :: (front ++ [child]).tail := by
          cases front with
          | nil =>
            obtain ⟨rfl, -⟩ := List.cons.inj hsplit
            rfl
          | cons c front =>
            obtain ⟨rfl, -⟩ := List.cons.inj hsplit
            rfl
        rw [List.cons_append, List.tail_cons, hhead]
        exact List.forall_mem_cons.mpr ⟨hle, hchild.le⟩
      · refine ⟨[], t, t' :: ts, rfl, nofun, List.forall_mem_cons.mpr ⟨hlt, fun child hmem => ?_⟩⟩
        exact hlt.trans (@minKey_lt_minKey _ _ [t'] ts hsorted' hne' t' child
          (List.mem_singleton.mpr rfl) hmem)

namespace ChildFor

variable (h : ChildFor key front t back)

include h

/-- The branches of the node, as its search sees them. -/
theorem branch_le : ∀ b ∈ (front.map branch ++ [t.branch]).tail, b.1 ≤ key := by
  have hmap : front.map branch ++ [t.branch] = (front ++ [t]).map branch := by
    rw [List.map_append]
    rfl
  rw [hmap, ← List.map_tail]
  intro b hb
  obtain ⟨child, hmem, rfl⟩ := List.mem_map.mp hb
  exact h.le child hmem

theorem lt_branch : ∀ b ∈ back.map branch, key < b.1 := by
  intro b hb
  obtain ⟨child, hmem, rfl⟩ := List.mem_map.mp hb
  exact h.lt child hmem

/-- Unless it belongs to the first child, the key is not below the least one of its child. -/
theorem minKey_le (hfront : front ≠ []) : t.minKey ≤ key := by
  obtain ⟨first, rest, rfl⟩ := List.exists_cons_of_ne_nil hfront
  exact h.le t (List.mem_append_right _ (List.mem_singleton.mpr rfl))

theorem front_lt (hsorted : Sorted ((front ++ t :: back).flatMap entries)) (hne : t.entries ≠ [])
    {entry : layout.Entry .leaf} (hmem : entry ∈ front.flatMap entries) : entry.1 < key := by
  have hfront : front ≠ [] := by
    rintro rfl
    cases hmem
  exact (lt_minKey hsorted (List.mem_cons_self ..) hne hmem).trans_le (h.minKey_le hfront)

theorem lt_back (hsorted : Sorted (back.flatMap entries)) {entry : layout.Entry .leaf}
    (hmem : entry ∈ back.flatMap entries) : key < entry.1 := by
  obtain ⟨child, hchild, hentry⟩ := List.mem_flatMap.mp hmem
  exact (h.lt child hchild).trans_le (Subtree.minKey_le (sorted_of_mem hsorted hchild) hentry)

end ChildFor

end Children

end DanDB.BTree
