import DanDB.BTree.Inserting

/-!
# Reshaping the children of a page

What an erasure does to a page and its children, until the keys in the page are the
least keys of the children again.
-/

namespace DanDB.BTree

open Buffer DanDB.Core Storage PageProgram Subtree Entries

variable {layout : Layout} {height : Nat} {isRoot : Bool} {parent previous next pageId : PageId}
  {array array' array'' : PageArray} {spare : Nat} {ctx : PageContext (spare + 3)} {t : Subtree layout height}
  {ts before after after' front back : List (Subtree layout height)}

/-- The children of a page have become others, and the page may have been written too. -/
structure Reshaped (array array' : PageArray) (pageId previous next : PageId)
    (before after : List (Subtree layout height)) : Prop where
  linked : Linked array' false pageId previous next after
  firstLeaf : ∀ next, firstLeaf (after.flatMap leaves) next = firstLeaf (before.flatMap leaves) next
  nodup : (after.flatMap pageIds).Nodup
  fresh : ∀ pageId ∈ after.flatMap pageIds, pageId < array.header.pageCount →
    pageId ∈ before.flatMap pageIds
  changes : OnlyChanges (pageId :: next :: before.flatMap pageIds) array array'
  successor : ∀ node : Node layout .leaf,
    Successor array next node (lastLeaf previous (before.flatMap leaves)) →
      Successor array' next node (lastLeaf previous (after.flatMap leaves))

theorem Replaced.reshaped (h : Replaced array array' false pageId previous next before after) :
    Reshaped array array' pageId previous next before after :=
  ⟨h.linked, h.firstLeaf, h.nodup, h.fresh, h.changes.mono (List.subset_cons_self ..), h.successor⟩

namespace Reshaped

theorem trans (h : Reshaped array array' pageId previous next before after)
    (h' : Reshaped array' array'' pageId previous next after after') :
    Reshaped array array'' pageId previous next before after' where
  linked := h'.linked
  firstLeaf next := (h'.firstLeaf next).trans (h.firstLeaf next)
  nodup := h'.nodup
  fresh id hmem hlt :=
    h.fresh id (h'.fresh id hmem (UInt64.lt_of_lt_of_le hlt h.changes.count)) hlt
  changes := by
    refine h.changes.trans h'.changes fun id hmem hlt => ?_
    obtain rfl | hmem := List.mem_cons.mp hmem
    · exact List.mem_cons_self ..
    · obtain rfl | hmem := List.mem_cons.mp hmem
      · exact List.mem_cons_of_mem _ (List.mem_cons_self ..)
      · exact List.mem_cons_of_mem _ (List.mem_cons_of_mem _ (h.fresh id hmem hlt))
  successor node hnode := h'.successor node (h.successor node hnode)

/-- The page above is not among the pages of its children. -/
theorem not_mem (h : Reshaped array array' pageId previous next before after)
    (hself : pageId ∉ before.flatMap pageIds) (hlt : pageId < array.header.pageCount) :
    pageId ∉ after.flatMap pageIds := fun hmem => hself (h.fresh pageId hmem hlt)

/-- The page above is written. -/
theorem changePage (h : Reshaped array array' pageId previous next before after)
    (hpage : OnlyChanges [pageId] array' array'') (hself : pageId ∉ before.flatMap pageIds)
    (hlt : pageId < array.header.pageCount) (hnext : next ≠ pageId) :
    Reshaped array array'' pageId previous next before after where
  linked := h.linked.only hpage fun id hmem hown =>
    h.not_mem hself hlt (List.mem_singleton.mp hown ▸ hmem)
  firstLeaf := h.firstLeaf
  nodup := h.nodup
  fresh := h.fresh
  changes := h.changes.trans hpage fun id hmem _ =>
    List.mem_cons.mpr (.inl (List.mem_singleton.mp hmem))
  successor node hnode := (h.successor node hnode).only hpage (by simpa using hnext)

/-- The page above has the keys of its children. -/
theorem replaced {hbefore : before ≠ []} {hafter : after ≠ []}
    (h : Reshaped array array' pageId previous next before after)
    (hholds : Holds array' pageId (Node.internal isRoot parent (after.map branch)))
    (hself : pageId ∉ before.flatMap pageIds) (hlt : pageId < array.header.pageCount) :
    Replaced array array' isRoot parent previous next [internal pageId before hbefore]
      [internal pageId after hafter] := by
  refine ⟨linked_singleton.mpr (stored_internal.mpr ⟨hholds, h.linked⟩), fun next' => ?_, ?_, ?_, ?_, ?_⟩
  · simp only [List.flatMap_cons, List.flatMap_nil, List.append_nil, leaves_internal]
    exact h.firstLeaf next'
  · rw [List.flatMap_singleton, pageIds_internal]
    exact List.nodup_cons.mpr ⟨h.not_mem hself hlt, h.nodup⟩
  · rw [List.flatMap_singleton, List.flatMap_singleton, pageIds_internal, pageIds_internal]
    intro id hmem hid
    obtain rfl | hmem := List.mem_cons.mp hmem
    · exact List.mem_cons_self ..
    · exact List.mem_cons_of_mem _ (h.fresh id hmem hid)
  · rw [List.flatMap_singleton, pageIds_internal]
    refine h.changes.mono fun id hmem => ?_
    obtain rfl | hmem := List.mem_cons.mp hmem
    · exact List.mem_cons_of_mem _ (List.mem_cons_self ..)
    · obtain rfl | hmem := List.mem_cons.mp hmem
      · exact List.mem_cons_self ..
      · exact List.mem_cons_of_mem _ (List.mem_cons_of_mem _ hmem)
  · simp only [List.flatMap_cons, List.flatMap_nil, List.append_nil, leaves_internal]
    exact h.successor

end Reshaped

/-! ## The first key below a page -/

/-- There is an entry in every leaf. -/
def Subtree.HasEntries (t : Subtree layout height) : Prop := ∀ l ∈ t.leaves, l.2 ≠ []

theorem Subtree.Filled.hasEntries (h : t.Filled false) (hadmits : layout.Admits .leaf) :
    t.HasEntries := by
  induction height with
  | zero =>
    obtain ⟨pageId, entries⟩ := t
    have hle : layout.minimum .leaf ≤ entries.length := h.resolve_left nofun
    have hpos := Layout.minimum_pos hadmits
    intro l hl
    rw [List.mem_singleton.mp hl]
    exact List.ne_nil_of_length_pos (show 0 < entries.length by omega)
  | succ height ih =>
    obtain ⟨pageId, children⟩ := t
    intro l hl
    obtain ⟨child, hchild, hl⟩ := List.mem_flatMap.mp hl
    exact ih (h.2 child hchild) l hl

theorem Subtree.HasEntries.entries_ne_nil (h : t.HasEntries) : t.entries ≠ [] := by
  obtain ⟨l, ls, hls⟩ := List.exists_cons_of_ne_nil t.leaves_ne_nil
  have hl := h l (hls ▸ List.mem_cons_self ..)
  rw [Subtree.entries, hls, List.flatMap_cons]
  exact List.append_ne_nil_of_left_ne_nil hl _

theorem Subtree.HasEntries.child {children : List (Subtree layout height)} {hne : children ≠ []}
    (h : (internal pageId children hne).HasEntries) {child : Subtree layout height}
    (hmem : child ∈ children) : child.HasEntries := fun l hl =>
  h l (List.mem_flatMap.mpr ⟨child, hmem, hl⟩)

theorem runs_firstKeyFrom (h : Stored array isRoot parent previous next t) (hentries : t.HasEntries)
    {fuel : Nat} (hfuel : height < fuel) :
    Runs ctx (firstKeyFrom fuel t.pageId) array fun key array' =>
      key = t.minKey.bytes ∧ array' = array := by
  obtain ⟨fuel, rfl⟩ := Nat.exists_eq_succ_of_ne_zero (Nat.zero_lt_of_lt hfuel).ne'
  induction height generalizing isRoot parent previous next fuel with
  | zero =>
    obtain ⟨pageId, entries⟩ := t
    obtain ⟨entry, rest, rfl⟩ := List.exists_cons_of_ne_nil
      (hentries (pageId, entries) (List.mem_singleton.mpr rfl))
    have hpage : Holds array pageId (Node.leaf isRoot parent previous next (entry :: rest)) := h
    have hfirst : Runs ctx (firstChildOrKey pageId) array fun found array' =>
        found = .inr entry.1.bytes ∧ array' = array := by
      refine yields_withPage_node hpage fun data hshows => yields_ok_bind hshows.openPage_ok ?_
      rw [hshows.kind_eq]
      exact yields_ok_bind hshows.openAs_ok
        (yields_ok_bind (hshows.keyAt_split (List.nil_append _).symm) (runs_pure ⟨rfl, rfl⟩))
    refine hfirst.bind fun found array ⟨hfound, harray⟩ => ?_
    subst hfound harray
    exact runs_pure ⟨rfl, rfl⟩
  | succ height ih =>
    obtain ⟨pageId, children, hne⟩ := t
    obtain ⟨first, rest, rfl⟩ := List.exists_cons_of_ne_nil hne
    obtain ⟨fuel, rfl⟩ := Nat.exists_eq_succ_of_ne_zero
      (Nat.zero_lt_of_lt (Nat.lt_of_succ_lt_succ hfuel)).ne'
    have hentriesFirst := hentries.child (List.mem_cons_self ..)
    have hfirst : Runs ctx (firstChildOrKey pageId) array fun found array' =>
        found = .inl first.pageId ∧ array' = array := by
      refine yields_withPage_node h.1 fun data hshows => yields_ok_bind hshows.openPage_ok ?_
      rw [hshows.kind_eq]
      refine yields_ok_bind hshows.openAs_ok (runs_pure ⟨?_, rfl⟩)
      rw [hshows.firstChild_eq]
      rfl
    refine hfirst.bind fun found array ⟨hfound, harray⟩ => ?_
    subst hfound harray
    refine (ih (linked_cons.mp h.2).1 hentriesFirst fuel (Nat.lt_of_succ_lt_succ hfuel)).mono ?_
    rintro key array' ⟨rfl, rfl⟩
    exact ⟨by rw [← minKey_internal hne hentriesFirst.entries_ne_nil]; rfl, rfl⟩

/-- The key in front of a child becomes its least key. -/
theorem runs_refreshChildSeparator (hactive : ctx.status = .active)
    {front back : List (Node.Branch layout)} {separator : layout.Key} {child : Subtree layout height}
    (hpage : Holds array pageId
      (Node.internal isRoot parent (front ++ (separator, child.pageId) :: back)))
    {isRoot' : Bool} {parent' : PageId} (hchild : Stored array isRoot' parent' previous next child)
    (hentries : child.HasEntries) (hnodup : child.pageIds.Nodup) :
    Runs ctx (refreshChildSeparator pageId front.length) array fun _ array' =>
      OnlyChanges [pageId] array array' ∧ Holds array' pageId
        (Node.internal isRoot parent (front ++ child.branch :: back)) := by
  obtain rfl | ⟨front, left, rfl⟩ := List.eq_nil_or_concat front
  · rw [List.length_nil, refreshChildSeparator, if_pos rfl]
    exact runs_pure ⟨.refl _ _, hpage⟩
  · simp only [List.concat_eq_append, List.append_assoc, List.singleton_append] at hpage ⊢
    rw [refreshChildSeparator, if_neg (by simp),
      show (front ++ [left]).length - 1 = front.length by simp]
    have hread : Runs ctx (withPage pageId fun page => do
        let page ← .done (BTreeInternalPage.openPage page)
        .done (BTreeInternalPage.rightChildPageIdAt page front.length)) array fun id array' =>
          id = child.pageId ∧ array' = array := by
      refine yields_withPage_node hpage fun data hshows => yields_ok_bind hshows.openAs_ok ?_
      rw [hshows.rightChildPageIdAt_branches]
      exact runs_pure ⟨rfl, rfl⟩
    refine hread.bind fun id array ⟨hid, harray⟩ => ?_
    subst hid harray
    refine (runs_firstKeyFrom hchild hentries (Subtree.height_lt_walkLimit hnodup)).bind
      fun key array ⟨hkey, harray⟩ => ?_
    subst hkey harray
    exact yields_withMutablePage_node hactive hpage fun _ hshows => yields_ok_bind hshows.openAs_ok
      (runs_edit_node rfl hpage fun _ hshows => hshows.setKeyAt_branches child.minKey)

end DanDB.BTree
