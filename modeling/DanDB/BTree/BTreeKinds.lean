import DanDB.BTree.BTree
import DanDB.BTree.BTreeNode
import DanDB.Lib.SortedEntries

/-!
# Leaves and internal nodes

The nodes of the two kinds.  An internal node is its list of branches, each a
child with the key in front of it; the page has no room for the key of the first.
-/

namespace DanDB.BTree

open Buffer DanDB.Core Storage

/-- A loop over indices that reads a list. -/
theorem mapM_range_ok {α β : Type} {f : Nat → Result β} {g : α → β} {values : List α}
    (h : ∀ front value back, values = front ++ value :: back → f front.length = .ok (g value)) :
    (List.range values.length).mapM f = .ok (values.map g) := by
  suffices hsuffix : ∀ (back front : List α), values = front ++ back →
      (List.range' front.length back.length).mapM f = .ok (back.map g) by
    have hall := hsuffix values [] rfl
    rwa [List.length_nil, ← List.range_eq_range'] at hall
  intro back
  induction back with
  | nil => exact fun front _ => rfl
  | cons value back ih =>
    intro front hsplit
    have hrest := ih (front ++ [value]) (by rw [hsplit, List.append_assoc, List.singleton_append])
    rw [List.length_append, List.length_singleton] at hrest
    rw [List.length_cons, List.range'_succ, List.mapM_cons, h front value back hsplit, ok_bind, hrest,
      ok_bind, List.map_cons]
    rfl

theorem tail_append_cons {α : Type} (front back : List α) (a : α) :
    (front ++ a :: back).tail = (front ++ [a]).tail ++ back := by
  cases front with
  | nil => rfl
  | cons b front =>
    rw [List.cons_append, List.tail_cons, List.cons_append, List.tail_cons, List.append_assoc,
      List.singleton_append]

theorem length_tail_concat {α : Type} (front : List α) (a : α) :
    (front ++ [a]).tail.length = front.length := by
  rw [List.length_tail, List.length_append, List.length_singleton, Nat.add_sub_cancel]

/-- The tree has the sizes of the layout. -/
structure HasLayout (tree : BTree) (layout : Layout) : Prop where
  keySize : tree.keySize = layout.keySize
  valueSize : tree.valueSize = layout.valueSize

namespace Node

variable {layout : Layout} {page : PageData} {isRoot : Bool} {parent previous next : PageId}

def leaf (isRoot : Bool) (parent previous next : PageId) (entries : List (layout.Entry .leaf)) :
    Node layout .leaf :=
  ⟨isRoot, parent, next, previous, invalidPageId, entries⟩

/-- A child of an internal node and the key in front of it. -/
abbrev Branch (layout : Layout) := layout.Entry .internal

def internal (isRoot : Bool) (parent : PageId) (branches : List (Branch layout)) :
    Node layout .internal :=
  ⟨isRoot, parent, invalidPageId, invalidPageId, (branches.map Prod.snd).headD invalidPageId,
    branches.tail⟩

namespace Shows

/-! ## Leaves -/

/-- All entries of a leaf are read off its page. -/
theorem mapM_entryAt {entries : List (layout.Entry .leaf)}
    (h : Shows page (leaf isRoot parent previous next entries)) :
    (List.range entries.length).mapM (BTreeLeafPage.entryAt page) =
      .ok (entries.map (layout.entryBytes .leaf)) := by
  exact mapM_range_ok fun front entry back hsplit => h.entryAt_split hsplit

/-- A tree inserts the bytes of an entry as the page view does. -/
theorem insertLeafEntry_entryBytes {tree : BTree} (hlayout : HasLayout tree layout)
    (page : PageData) (entryIndex : Nat) (entry : layout.Entry .leaf) :
    tree.insertLeafEntry page entryIndex (layout.entryBytes .leaf entry) =
      BTreePage.insertEntry .leaf page entryIndex entry.1.bytes
        (layout.payloadBytes .leaf entry.2) := by
  have hkey := entry.1.size_eq
  have hvalue : (layout.payloadBytes .leaf entry.2).length = layout.valueSize := entry.2.size_eq
  rw [insertLeafEntry, hlayout.keySize, hlayout.valueSize, Layout.entryBytes,
    slice_append_left (by rw [hkey, Nat.zero_add]), slice_eq_self hkey,
    slice_append_right hkey.le, hkey, Nat.sub_self, slice_eq_self hvalue]
  rfl

/-- Entries that are inserted one behind the other. -/
theorem insertLeafEntry_ok {tree : BTree} (hlayout : HasLayout tree layout)
    {entries front back : List (layout.Entry .leaf)} {entry : layout.Entry .leaf}
    (hsorted : Entries.Sorted entries) (hfits : entries.length ≤ layout.capacity .leaf)
    (hsplit : entries = front ++ entry :: back)
    (h : Shows page (leaf isRoot parent previous next front)) : ∃ page',
      tree.insertLeafEntry page front.length (layout.entryBytes .leaf entry) = .ok page' ∧
        Shows page' (leaf isRoot parent previous next (front ++ [entry])) := by
  subst hsplit
  rw [insertLeafEntry_entryBytes hlayout]
  rw [List.length_append, List.length_cons] at hfits
  obtain ⟨-, -, hlt⟩ := Entries.sorted_append.mp hsorted
  refine h.appendEntry_ok entry.2 (fun e he => (hlt e he entry (List.mem_cons_self ..)).le) ?_
  show front.length < layout.capacity .leaf
  omega

/-! ## Internal nodes -/

section Internal

variable {front back : List (Branch layout)} {branch left right : Branch layout}

/-- A descent goes to the last branch whose key is not above the key. -/
theorem childIndexForKey_branches
    (h : Shows page (internal isRoot parent (front ++ branch :: back))) {key : layout.Key}
    (hfront : ∀ b ∈ (front ++ [branch]).tail, b.1 ≤ key) (hback : ∀ b ∈ back, key < b.1) :
    BTreeInternalPage.childIndexForKey page key.bytes = .ok front.length := by
  rw [h.childIndexForKey_ok (tail_append_cons front back branch) hfront hback, length_tail_concat]

theorem rightChildPageIdAt_branches
    (h : Shows page (internal isRoot parent (front ++ left :: right :: back))) :
    BTreeInternalPage.rightChildPageIdAt page front.length = .ok right.2 := by
  rw [← h.rightChildPageIdAt_ok (tail_append_cons front (right :: back) left), length_tail_concat]

theorem childPageIdAt_branches
    (h : Shows page (internal isRoot parent (front ++ branch :: back))) :
    BTreeInternalPage.childPageIdAt page front.length = .ok branch.2 := by
  obtain rfl | ⟨front', left, rfl⟩ := List.eq_nil_or_concat front
  · rw [BTreeInternalPage.childPageIdAt, List.length_nil, if_pos rfl, h.firstChild_eq]
    rfl
  · rw [List.concat_eq_append, List.append_assoc] at h
    rw [BTreeInternalPage.childPageIdAt, List.length_concat, if_neg (Nat.succ_ne_zero _),
      Nat.add_sub_cancel]
    exact h.rightChildPageIdAt_branches

theorem childPageIdForKey_branches
    (h : Shows page (internal isRoot parent (front ++ branch :: back))) {key : layout.Key}
    (hfront : ∀ b ∈ (front ++ [branch]).tail, b.1 ≤ key) (hback : ∀ b ∈ back, key < b.1) :
    BTreeInternalPage.childPageIdForKey page key.bytes = .ok branch.2 := by
  rw [BTreeInternalPage.childPageIdForKey, h.childIndexForKey_branches hfront hback, ok_bind,
    h.childPageIdAt_branches]

/-- The key of a branch but the first is a separator of the page. -/
theorem keyAt_branches
    (h : Shows page (internal isRoot parent (front ++ left :: right :: back))) :
    BTreeInternalPage.keyAt page front.length = .ok right.1.bytes := by
  have hkey := h.keyAt_split (tail_append_cons front (right :: back) left)
  rwa [length_tail_concat] at hkey

theorem findInsertionPosition_branches
    (h : Shows page (internal isRoot parent (front ++ branch :: back))) {key : layout.Key}
    (hfront : ∀ b ∈ (front ++ [branch]).tail, b.1 < key) (hback : ∀ b ∈ back, key ≤ b.1) :
    BTreeInternalPage.findInsertionPosition page key.bytes = .ok front.length := by
  rw [BTreeInternalPage.findInsertionPosition,
    h.findInsertionPosition_ok (tail_append_cons front back branch) hfront hback,
    length_tail_concat]

theorem keyCount_branches
    (h : Shows page (internal isRoot parent (front ++ branch :: back))) :
    BTreePage.keyCount page = front.length + back.length := by
  rw [h.keyCount_eq]
  simp [internal]

/-- A branch is inserted behind those up to its key. -/
theorem insertEntry_branches
    (h : Shows page (internal isRoot parent (front ++ branch :: back))) (child : Branch layout)
    (hfront : ∀ b ∈ (front ++ [branch]).tail, b.1 ≤ child.1) (hback : ∀ b ∈ back, child.1 ≤ b.1)
    (hroom : front.length + back.length < layout.capacity .internal) :
    ∃ page', BTreeInternalPage.insertEntry page front.length child.1.bytes child.2 = .ok page' ∧
      Shows page' (internal isRoot parent (front ++ branch :: child :: back)) := by
  have hcount := h.keyCount_branches
  rw [h.keyCount_eq] at hcount
  obtain ⟨page', hinsert, hshows⟩ := h.insertEntry_ok (tail_append_cons front back branch) child.2
    hfront hback (by rw [hcount]; exact hroom)
  rw [length_tail_concat] at hinsert
  refine ⟨page', hinsert, ?_⟩
  have hnode : { internal isRoot parent (front ++ branch :: back) with
      entries := (front ++ [branch]).tail ++ child :: back } =
        internal isRoot parent (front ++ branch :: child :: back) := by
    rw [internal, internal, tail_append_cons front (child :: back) branch]
    cases front <;> rfl
  rw [← hnode]
  exact hshows

theorem setKeyAt_branches
    (h : Shows page (internal isRoot parent (front ++ left :: right :: back))) (key : layout.Key) :
    ∃ page', BTreeInternalPage.setKeyAt page front.length key.bytes = .ok page' ∧
      Shows page' (internal isRoot parent (front ++ left :: (key, right.2) :: back)) := by
  obtain ⟨page', hset, hshows⟩ := h.setKeyAt_ok (tail_append_cons front (right :: back) left) key
  rw [length_tail_concat] at hset
  refine ⟨page', hset, ?_⟩
  have hnode : { internal isRoot parent (front ++ left :: right :: back) with
      entries := (front ++ [left]).tail ++ (key, right.2) :: back } =
        internal isRoot parent (front ++ left :: (key, right.2) :: back) := by
    rw [internal, internal, tail_append_cons front ((key, right.2) :: back) left]
    cases front <;> rfl
  rw [← hnode]
  exact hshows

/-- With a separator goes the branch to its right. -/
theorem eraseEntry_branches
    (h : Shows page (internal isRoot parent (front ++ left :: right :: back))) :
    ∃ page', BTreeInternalPage.eraseEntry page front.length = .ok page' ∧
      Shows page' (internal isRoot parent (front ++ left :: back)) := by
  obtain ⟨page', herase, hshows⟩ := h.eraseEntry_ok (tail_append_cons front (right :: back) left)
  rw [length_tail_concat] at herase
  refine ⟨page', herase, ?_⟩
  have hnode : { internal isRoot parent (front ++ left :: right :: back) with
      entries := (front ++ [left]).tail ++ back } =
        internal isRoot parent (front ++ left :: back) := by
    rw [internal, internal, tail_append_cons front back left]
    cases front <;> rfl
  rw [← hnode]
  exact hshows

/-- The first child is replaced; the page has no key for it. -/
theorem setFirstChild_branches (h : Shows page (internal isRoot parent (branch :: back)))
    (child : Branch layout) :
    Shows (BTreePage.setFirstChildPageId page child.2) (internal isRoot parent (child :: back)) :=
  h.setFirstChild child.2

/-- Without its separators a page has its first branch only. -/
theorem clear_branches (h : Shows page (internal isRoot parent (branch :: back))) :
    ∃ page', BTreeInternalPage.setKeyCount page 0 = .ok page' ∧
      Shows page' (internal isRoot parent [branch]) :=
  h.truncate_ok (List.nil_append _).symm

theorem mapM_internalEntryAt (h : Shows page (internal isRoot parent (branch :: back))) :
    (List.range (BTreePage.keyCount page)).mapM (internalEntryAt page) =
      .ok (back.map fun b => (b.1.bytes, b.2)) := by
  have hcount : BTreePage.keyCount page = back.length := h.keyCount_eq
  rw [hcount]
  refine mapM_range_ok fun front b back' hsplit => ?_
  have hsplit' : (internal isRoot parent (branch :: back)).entries = front ++ b :: back' := hsplit
  rw [internalEntryAt, BTreeInternalPage.keyAt, h.keyAt_split hsplit', ok_bind,
    h.rightChildPageIdAt_ok hsplit', ok_bind]
  rfl

theorem mapM_rightChildPageIdAt (h : Shows page (internal isRoot parent (branch :: back))) :
    (List.range (BTreePage.keyCount page)).mapM (BTreeInternalPage.rightChildPageIdAt page) =
      .ok (back.map Prod.snd) := by
  have hcount : BTreePage.keyCount page = back.length := h.keyCount_eq
  rw [hcount]
  refine mapM_range_ok fun front b back' hsplit => ?_
  have hsplit' : (internal isRoot parent (branch :: back)).entries = front ++ b :: back' := hsplit
  exact h.rightChildPageIdAt_ok hsplit'

end Internal

end Shows

end Node

end DanDB.BTree
