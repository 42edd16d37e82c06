import DanDB.BTree.NodePrograms
import DanDB.Lib.SortedEntries

/-!
# Subtrees

The shape of a tree and its entries, apart from the pages.  The height is part of
the type, so all leaves have the same depth.  `Stored` says that the pages hold a
subtree: every page shows the node of its place in the tree, with the right parent,
the right neighbours, and the least key below each child in front of it.
-/

namespace DanDB.BTree

open Buffer DanDB.Core Storage PageProgram

/-- A page and what is below it: entries, or at least one child. -/
def Subtree (layout : Layout) : Nat → Type
  | 0 => PageId × List (layout.Entry .leaf)
  | height + 1 => PageId × { children : List (Subtree layout height) // children ≠ [] }

variable {layout : Layout} {height : Nat}

namespace Subtree

def leaf (pageId : PageId) (entries : List (layout.Entry .leaf)) : Subtree layout 0 :=
  (pageId, entries)

def internal (pageId : PageId) (children : List (Subtree layout height)) (h : children ≠ []) :
    Subtree layout (height + 1) :=
  (pageId, ⟨children, h⟩)

def pageId : {height : Nat} → Subtree layout height → PageId
  | 0, (pageId, _) => pageId
  | _ + 1, (pageId, _) => pageId

/-- The pages of the subtree. -/
def pageIds : {height : Nat} → Subtree layout height → List PageId
  | 0, (pageId, _) => [pageId]
  | _ + 1, (pageId, children) => pageId :: children.1.flatMap pageIds

/-- The leaves from left to right, each with its entries. -/
def leaves : {height : Nat} → Subtree layout height → List (PageId × List (layout.Entry .leaf))
  | 0, (pageId, entries) => [(pageId, entries)]
  | _ + 1, (_, children) => children.1.flatMap leaves

/-- The entries in the order of their keys. -/
def entries (t : Subtree layout height) : List (layout.Entry .leaf) := t.leaves.flatMap Prod.snd

/-- The least key. -/
def minKey (t : Subtree layout height) : layout.Key := (t.entries.map Prod.fst).headD .zero

/-- What an internal page has of a child. -/
def branch (t : Subtree layout height) : Node.Branch layout := (t.minKey, t.pageId)

end Subtree

open Subtree

/-! ## Lists of subtrees -/

/-- The first leaf, or the page that comes behind it. -/
def firstLeaf (leaves : List (PageId × List (layout.Entry .leaf))) (next : PageId) : PageId :=
  (leaves.map Prod.fst).headD next

/-- The last leaf, or the page that comes in front of it. -/
def lastLeaf (previous : PageId) (leaves : List (PageId × List (layout.Entry .leaf))) : PageId :=
  (leaves.map Prod.fst).getLastD previous

/-- Subtrees side by side, each between the last leaf on its left and the first on
its right.  Only the first can be a root. -/
def LinkedBy (stored : Bool → PageId → PageId → Subtree layout height → Prop) :
    Bool → PageId → PageId → List (Subtree layout height) → Prop
  | _, _, _, [] => True
  | isRoot, previous, next, t :: ts =>
    stored isRoot previous (firstLeaf (ts.flatMap leaves) next) t ∧
      LinkedBy stored false (lastLeaf previous t.leaves) next ts

/-- The pages hold the subtree. -/
def Stored (array : PageArray) :
    {height : Nat} → Bool → PageId → PageId → PageId → Subtree layout height → Prop
  | 0, isRoot, parent, previous, next, (pageId, entries) =>
    Holds array pageId (Node.leaf isRoot parent previous next entries)
  | _ + 1, isRoot, parent, previous, next, (pageId, children) =>
    Holds array pageId (Node.internal isRoot parent (children.1.map branch)) ∧
      LinkedBy (fun isRoot => Stored array isRoot pageId) false previous next children.1

/-- The pages hold the children of a parent. -/
def Linked (array : PageArray) (isRoot : Bool) (parent previous next : PageId)
    (ts : List (Subtree layout height)) : Prop :=
  LinkedBy (fun isRoot => Stored array isRoot parent) isRoot previous next ts

section Lists

variable {previous next parent : PageId} {isRoot : Bool} {array array' : PageArray}
  {own : List PageId} {t : Subtree layout height} {ts front back : List (Subtree layout height)}

/-- The first leaf of a row of leaves is that of its front, if this has one. -/
theorem firstLeaf_append (left right : List (PageId × List (layout.Entry .leaf))) :
    firstLeaf (left ++ right) next = firstLeaf left (firstLeaf right next) := by
  cases left <;> rfl

/-- The last leaf is that of the back, if this has one. -/
theorem lastLeaf_append (left right : List (PageId × List (layout.Entry .leaf))) :
    lastLeaf previous (left ++ right) = lastLeaf (lastLeaf previous left) right := by
  rw [lastLeaf, lastLeaf, lastLeaf, List.map_append, List.getLastD_eq_getLast?,
    List.getLastD_eq_getLast?, List.getLastD_eq_getLast?, List.getLast?_append]
  cases (right.map Prod.fst).getLast? <;> rfl

theorem linked_singleton : Linked array isRoot parent previous next [t] ↔
    Stored array isRoot parent previous next t := by
  rw [Linked, LinkedBy]
  exact and_iff_left trivial

theorem linked_cons : Linked array isRoot parent previous next (t :: ts) ↔
    Stored array isRoot parent previous (firstLeaf (ts.flatMap leaves) next) t ∧
      Linked array false parent (lastLeaf previous t.leaves) next ts := Iff.rfl

/-- Subtrees side by side are linked where the front meets the back. -/
theorem linked_append : Linked array false parent previous next (front ++ back) ↔
    Linked array false parent previous (firstLeaf (back.flatMap leaves) next) front ∧
      Linked array false parent (lastLeaf previous (front.flatMap leaves)) next back := by
  induction front generalizing previous with
  | nil => exact (and_iff_right trivial).symm
  | cons t front ih =>
    rw [List.cons_append, linked_cons, linked_cons, ih, List.flatMap_append, firstLeaf_append,
      List.flatMap_cons, lastLeaf_append, and_assoc]

/-- A subtree above the leaves is stored if its root page and its children are. -/
theorem stored_internal {pageId : PageId} {children : List (Subtree layout height)}
    {h : children ≠ []} : Stored array isRoot parent previous next (internal pageId children h) ↔
      Holds array pageId (Node.internal isRoot parent (children.map branch)) ∧
        Linked array false pageId previous next children := Iff.rfl

theorem Subtree.pageIds_internal {pageId : PageId} {children : List (Subtree layout height)}
    {h : children ≠ []} :
    (internal pageId children h).pageIds = pageId :: children.flatMap pageIds := rfl

theorem Subtree.leaves_internal {pageId : PageId} {children : List (Subtree layout height)}
    {h : children ≠ []} : (internal pageId children h).leaves = children.flatMap leaves := rfl

theorem Subtree.entries_internal {pageId : PageId} {children : List (Subtree layout height)}
    {h : children ≠ []} : (internal pageId children h).entries = children.flatMap entries := by
  rw [Subtree.entries, leaves_internal, List.flatMap_assoc]
  rfl

theorem Subtree.pageId_mem (t : Subtree layout height) : t.pageId ∈ t.pageIds := by
  cases height with
  | zero =>
    obtain ⟨pageId, entries⟩ := t
    exact List.mem_singleton.mpr rfl
  | succ height =>
    obtain ⟨pageId, children⟩ := t
    exact List.mem_cons_self ..

theorem Subtree.leaves_ne_nil (t : Subtree layout height) : t.leaves ≠ [] := by
  induction height with
  | zero =>
    obtain ⟨pageId, entries⟩ := t
    exact List.cons_ne_nil _ _
  | succ height ih =>
    obtain ⟨pageId, children, hne⟩ := t
    obtain ⟨first, rest, rfl⟩ := List.exists_cons_of_ne_nil hne
    intro h
    exact ih first (List.append_eq_nil_iff.mp (h : first.leaves ++ rest.flatMap leaves = [])).1

/-- A leaf is a page of the subtree. -/
theorem Subtree.leaf_mem {l : PageId × List (layout.Entry .leaf)} (h : l ∈ t.leaves) :
    l.1 ∈ t.pageIds := by
  induction height with
  | zero =>
    obtain ⟨pageId, entries⟩ := t
    rw [List.mem_singleton.mp h]
    exact List.mem_singleton.mpr rfl
  | succ height ih =>
    obtain ⟨pageId, children⟩ := t
    obtain ⟨child, hmem, hleaf⟩ := List.mem_flatMap.mp h
    exact List.mem_cons_of_mem _ (List.mem_flatMap.mpr ⟨child, hmem, ih hleaf⟩)

/-- So is the first leaf of a subtree, which has one. -/
theorem Subtree.firstLeaf_mem (t : Subtree layout height) (next : PageId) :
    firstLeaf t.leaves next ∈ t.pageIds := by
  obtain ⟨l, ls, hls⟩ := List.exists_cons_of_ne_nil t.leaves_ne_nil
  rw [hls]
  exact t.leaf_mem (hls ▸ List.mem_cons_self ..)

/-- And the last, so what stands before the subtree does not matter. -/
theorem Subtree.lastLeaf_eq (t : Subtree layout height) (previous previous' : PageId) :
    lastLeaf previous t.leaves = lastLeaf previous' t.leaves := by
  obtain ⟨l, ls, hls⟩ := List.exists_cons_of_ne_nil t.leaves_ne_nil
  rw [hls, lastLeaf, lastLeaf, List.map_cons, List.getLastD_cons, List.getLastD_cons]

/-! ## Pages that do not change -/

/-- Each subtree may be described more coarsely in its place. -/
theorem LinkedBy.imp {stored stored' : Bool → PageId → PageId → Subtree layout height → Prop}
    (h : LinkedBy stored isRoot previous next ts)
    (himp : ∀ t ∈ ts, ∀ isRoot previous next, stored isRoot previous next t →
      stored' isRoot previous next t) : LinkedBy stored' isRoot previous next ts := by
  induction ts generalizing isRoot previous with
  | nil => trivial
  | cons t ts ih =>
    obtain ⟨himpt, himpts⟩ := List.forall_mem_cons.mp himp
    exact ⟨himpt _ _ _ h.1, ih h.2 himpts⟩

/-- The pages of a stored subtree are pages of the database. -/
theorem Stored.lt {pageId : PageId} (h : Stored array isRoot parent previous next t)
    (hmem : pageId ∈ t.pageIds) : pageId < array.header.pageCount ∧ pageId ≠ headerPageId := by
  induction height generalizing isRoot parent previous next with
  | zero =>
    obtain ⟨pageId', entries⟩ := t
    rw [List.mem_singleton.mp hmem]
    exact ⟨Holds.lt h, Holds.ne_header h⟩
  | succ height ih =>
    obtain ⟨pageId', children⟩ := t
    obtain rfl | hmem := List.mem_cons.mp hmem
    · exact ⟨h.1.lt, h.1.ne_header⟩
    · obtain ⟨child, hchild, hmem⟩ := List.mem_flatMap.mp hmem
      obtain ⟨front, back, hsplit⟩ := List.append_of_mem hchild
      have hlinked := h.2
      rw [hsplit] at hlinked
      obtain ⟨-, hlinked⟩ := linked_append.mp hlinked
      exact ih hlinked.1 hmem

theorem Stored.admits_leaf (h : Stored array isRoot parent previous next t) :
    layout.Admits .leaf := by
  induction height generalizing isRoot parent previous next with
  | zero =>
    obtain ⟨pageId, entries⟩ := t
    exact Holds.admits h
  | succ height ih =>
    obtain ⟨pageId, children, hne⟩ := t
    obtain ⟨first, rest, rfl⟩ := List.exists_cons_of_ne_nil hne
    exact ih (linked_cons.mp h.2).1

theorem Linked.lt {pageId : PageId} (h : Linked array false parent previous next ts)
    (hmem : pageId ∈ ts.flatMap pageIds) :
    pageId < array.header.pageCount ∧ pageId ≠ headerPageId := by
  obtain ⟨child, hchild, hid⟩ := List.mem_flatMap.mp hmem
  obtain ⟨front, back, rfl⟩ := List.append_of_mem hchild
  obtain ⟨-, hlinked⟩ := linked_append.mp h
  exact hlinked.1.lt hid

/-- A subtree none of whose pages changes stays stored. -/
theorem Stored.only (h : Stored array isRoot parent previous next t)
    (hchange : OnlyChanges own array array') (hmem : ∀ pageId ∈ t.pageIds, pageId ∉ own) :
    Stored array' isRoot parent previous next t := by
  induction height generalizing isRoot parent previous next with
  | zero =>
    obtain ⟨pageId, entries⟩ := t
    exact hchange.holds (hmem pageId (List.mem_singleton.mpr rfl)) h
  | succ height ih =>
    obtain ⟨pageId, children⟩ := t
    obtain ⟨hpage, hchildren⟩ := List.forall_mem_cons.mp hmem
    refine ⟨hchange.holds hpage h.1, h.2.imp fun child hchild _ _ _ hstored => ?_⟩
    exact ih hstored fun id hid => hchildren id (List.mem_flatMap.mpr ⟨child, hchild, hid⟩)

theorem Linked.only (h : Linked array isRoot parent previous next ts)
    (hchange : OnlyChanges own array array') (hmem : ∀ pageId ∈ ts.flatMap pageIds, pageId ∉ own) :
    Linked array' isRoot parent previous next ts :=
  LinkedBy.imp h fun t ht _ _ _ hstored => hstored.only hchange fun id hid =>
    hmem id (List.mem_flatMap.mpr ⟨t, ht, hid⟩)

end Lists

end DanDB.BTree
