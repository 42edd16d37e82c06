import DanDB.BTree.Merging
import DanDB.BTree.RootSplitting

/-!
# Erasing

An erasure leaves a subtree that may be one entry short at the top, and says so; the
page above mends it.  A root with one child left gives its place to the child.
-/

namespace DanDB.BTree

open Buffer DanDB.Core Storage PageProgram Subtree Entries

variable {layout : Layout} {height : Nat} {isRoot : Bool} {parent previous next pageId : PageId}
  {array array' : PageArray} {spare : Nat} {ctx : PageContext (spare + 3)} {tree : BTree} {separator : layout.Key}
  {t child : Subtree layout height} {front back : List (Subtree layout height)} {key : layout.Key}

/-- What `erase_from_leaf` says of a key that is not there. -/
def absentStatus : Status := .NotFound "Cannot erase key from B+ tree: key was not found"

/-- How an erasure from a subtree ends.  The answer is whether the page at the top has
become too small. -/
inductive EraseEnds (array : PageArray) (isRoot : Bool) (parent previous next : PageId)
    (t : Subtree layout height) (key : layout.Key) : Except Status Bool → PageArray → Prop
  | erased (array' : PageArray) (isUnderfull : Bool) (t' : Subtree layout height)
      (value : layout.Value) (hpresent : lookup key t.entries = some value)
      (hreplaced : Replaced array array' isRoot parent previous next [t] [t'])
      (hpageId : t'.pageId = t.pageId) (hentries : t'.entries = remove key t.entries)
      (hthin : t'.Thin isRoot)
      (hunderfull : isUnderfull = true ↔ isRoot = false ∧ ¬t'.Filled false) :
      EraseEnds array isRoot parent previous next t key (.ok isUnderfull) array'
  | absent (habsent : lookup key t.entries = none) :
      EraseEnds array isRoot parent previous next t key (.error absentStatus) array

/-! ## Too small pages -/

theorem runs_pageIsUnderfull {kind : BTreePageKind} {node : Node layout kind}
    (h : Holds array pageId node) :
    Runs ctx (pageIsUnderfull pageId) array fun isUnderfull array' =>
      (isUnderfull = true ↔ node.isRoot = false ∧ node.entries.length < layout.minimum kind) ∧
        array' = array := by
  refine yields_withPage_node h fun data hshows => yields_ok_bind hshows.openPage_ok ?_
  rw [hshows.isRoot_eq]
  cases hroot : node.isRoot with
  | true => exact runs_pure ⟨⟨nofun, nofun⟩, rfl⟩
  | false =>
    rw [hshows.kind_eq, if_neg Bool.false_ne_true]
    refine yields_ok_bind hshows.openAs_ok ?_
    rw [hshows.kind_eq, minimumKeyCount_eq hshows, hshows.keyCount_eq]
    refine runs_pure ⟨?_, rfl⟩
    rw [decide_eq_true_iff]
    exact (and_iff_right rfl).symm

/-- A child that has become too small borrows from a sibling or merges with one. -/
theorem runs_rebalanceChildAfterErase (hactive : ctx.status = .active)
    (hlayout : HasLayout tree layout)
    (h : Thinned array isRoot parent previous next pageId front separator child back)
    (hunderfull : ¬child.Filled false) (hsibling : front ++ back ≠ []) :
    Runs ctx (tree.rebalanceChildAfterErase pageId front.length) array fun _ array' =>
      ∃ after, Mended array array' isRoot parent previous next pageId (front ++ child :: back) after := by
  have hchild : Runs ctx (withPage pageId fun page => do
      let page ← .done (BTreeInternalPage.openPage page)
      .done (BTreeInternalPage.childPageIdAt page front.length)) array fun childPageId array' =>
        childPageId = child.pageId ∧ array' = array := by
    refine yields_withPage_node h.page fun data hshows => yields_ok_bind hshows.openAs_ok ?_
    have hat := hshows.childPageIdAt_branches
    rw [List.length_map] at hat
    rw [hat]
    exact runs_pure ⟨rfl, rfl⟩
  refine hchild.bind fun childPageId array ⟨hid, harray⟩ => ?_
  subst hid harray
  have hstored := (linked_cons.mp (linked_append.mp h.siblings.linked).2).1
  cases height with
  | zero =>
    obtain ⟨childPageId, entries, rfl⟩ := exists_leaf child
    refine (runs_pageKind (show Holds array childPageId (Node.leaf false pageId _ _ entries) from hstored)).bind
      fun kind array ⟨hkind, harray⟩ => ?_
    subst hkind harray
    exact runs_rebalanceLeafChildAfterErase hactive hlayout h hunderfull hsibling
  | succ height =>
    obtain ⟨childPageId, children, hne, rfl⟩ := exists_internal child
    refine (runs_pageKind hstored.1).bind fun kind array ⟨hkind, harray⟩ => ?_
    subst hkind harray
    exact runs_rebalanceInternalChildAfterErase hactive h hunderfull hsibling

/-! ## Leaves -/

theorem yields_eraseFromLeaf (hactive : ctx.status = .active)
    {entries : List (layout.Entry .leaf)}
    (h : Holds array pageId (Node.leaf isRoot parent previous next entries)) (hnext : next ≠ pageId)
    (hsorted : Sorted entries) (hfilled : (Subtree.leaf pageId entries).Filled isRoot) :
    Yields ctx (eraseFromLeaf pageId key.bytes) array
      (EraseEnds array isRoot parent previous next (Subtree.leaf pageId entries) key) := by
  obtain ⟨front, back, hfront, hback, rfl | ⟨value, rfl⟩⟩ := hsorted.cases_split key
  · have hposition : Yields ctx (withPage pageId fun page => do
        let page ← .done (BTreeLeafPage.openPage page)
        .done (BTreeLeafPage.positionOfKey
          "Cannot erase key from B+ tree: key was not found" page key.bytes)) array
        fun r array' => r = .error absentStatus ∧ array' = array := by
      refine yields_withPage_node h fun data hshows => yields_ok_bind hshows.openAs_ok ?_
      rw [hshows.positionOfKey_absent _ rfl hfront hback]
      exact yields_done ⟨rfl, rfl⟩
    refine hposition.bind ?_ ?_
    · rintro _ _ ⟨heq, -⟩
      cases heq
    · rintro status array' ⟨heq, rfl⟩
      obtain rfl : status = absentStatus := Except.error.inj heq
      exact .absent (by rw [entries_leaf, lookup_split_none hfront hback])
  · have hposition : Runs ctx (withPage pageId fun page => do
        let page ← .done (BTreeLeafPage.openPage page)
        .done (BTreeLeafPage.positionOfKey
          "Cannot erase key from B+ tree: key was not found" page key.bytes)) array
        fun position array' => position = front.length ∧ array' = array := by
      refine yields_withPage_node h fun data hshows => yields_ok_bind hshows.openAs_ok ?_
      rw [hshows.positionOfKey_ok _ rfl hfront hback]
      exact runs_pure ⟨rfl, rfl⟩
    refine hposition.bind fun position array ⟨hposition, harray⟩ => ?_
    subst hposition harray
    refine (runs_eraseLeafEntry hactive h).bind fun _ array₁ ⟨hchange, hholds⟩ => ?_
    refine Yields.mono (runs_pageIsUnderfull hholds) ?_
    rintro _ array' ⟨isUnderfull, rfl, hunderfull, rfl⟩
    refine .erased array' isUnderfull (Subtree.leaf pageId (front ++ back)) value ?_
      (replaced_leaf hchange hholds hnext) rfl ?_ (Or.imp_right (fun hle => hle.trans ?_) hfilled) ?_
    · rw [entries_leaf, lookup_split hfront]
    · rw [entries_leaf, entries_leaf, remove_split hfront hback]
    · refine hunderfull.trans (and_congr_right fun _ => ?_)
      show (front ++ back).length < _ ↔ ¬(false = true ∨ layout.minimum .leaf ≤ (front ++ back).length)
      rw [or_iff_right Bool.false_ne_true, Nat.not_le]
    · rw [List.length_append, List.length_append, List.length_cons]
      omega

/-! ## Internal nodes -/

section Internal

/-- The way down of `erase_from_internal`. -/
theorem runs_childIndexForKey (h : Holds array pageId
      (Node.internal isRoot parent ((front ++ child :: back).map branch)))
    (hchild : ChildFor key front child back) :
    Runs ctx (withPage pageId fun page => do
      let page ← .done (BTreeInternalPage.openPage page)
      let childIndex ← .done (BTreeInternalPage.childIndexForKey page key.bytes)
      let childPageId ← .done (BTreeInternalPage.childPageIdAt page childIndex)
      return (childIndex, childPageId)) array fun found array' =>
        found = (front.length, child.pageId) ∧ array' = array := by
  refine yields_withPage_node h fun data hshows => yields_ok_bind hshows.openAs_ok ?_
  rw [List.map_append, List.map_cons] at hshows
  have hat := hshows.childPageIdAt_branches
  rw [hshows.childIndexForKey_branches hchild.branch_le hchild.lt_branch]
  rw [List.length_map] at hat ⊢
  exact yields_ok_bind rfl (yields_ok_bind hat (runs_pure ⟨rfl, rfl⟩))

/-- What an erasure leaves below a node. -/
theorem ChildFor.remove_eq (h : ChildFor key front child back)
    (hsorted : Sorted ((front ++ child :: back).flatMap entries)) (hne : child.entries ≠ []) :
    remove key ((front ++ child :: back).flatMap entries) =
      front.flatMap entries ++ remove key child.entries ++ back.flatMap entries := by
  obtain ⟨-, hback, -⟩ := sorted_flatMap_append hsorted
  rw [List.flatMap_append, List.flatMap_cons, ← List.append_assoc]
  exact remove_append (fun e he => h.front_lt hsorted hne he) fun e he =>
    h.lt_back (sorted_append.mp hback).2.1 he

/-- The answer of a node whose children are in order. -/
theorem underfull_internal {after : List (Subtree layout height)} (hne : after ≠ [])
    (hfilled : ∀ c ∈ after, c.Filled false) {isUnderfull : Bool}
    (h : isUnderfull = true ↔ isRoot = false ∧
      (Node.internal isRoot parent (after.map branch)).entries.length < layout.minimum .internal) :
    isUnderfull = true ↔ isRoot = false ∧ ¬(Subtree.internal pageId after hne).Filled false := by
  refine h.trans (and_congr_right fun _ => ?_)
  have hcount : (Node.internal isRoot parent (after.map branch)).entries.length + 1 = after.length := by
    obtain ⟨first, rest, rfl⟩ := List.exists_cons_of_ne_nil hne
    show (rest.map branch).length + 1 = _
    rw [List.length_map, List.length_cons]
  have hiff : (Subtree.internal pageId after hne).Filled false ↔
      layout.minimum .internal + 1 ≤ after.length := and_iff_left hfilled
  rw [hiff]
  omega

/-- The page above mends a child that was erased from. -/
theorem runs_mendChild (hactive : ctx.status = .active) (hlayout : HasLayout tree layout)
    (h : Thinned array isRoot parent previous next pageId front separator child back)
    {isUnderfull : Bool} (hunderfull : isUnderfull = true ↔ ¬child.Filled false)
    (hsibling : front ++ back ≠ []) :
    Runs ctx (if isUnderfull then tree.rebalanceChildAfterErase pageId front.length
      else refreshChildSeparator pageId front.length) array fun _ array' =>
        ∃ after, Mended array array' isRoot parent previous next pageId (front ++ child :: back) after := by
  cases isUnderfull with
  | true => exact runs_rebalanceChildAfterErase hactive hlayout h (hunderfull.mp rfl) hsibling
  | false =>
    have hchild : child.Filled false := by
      by_contra hnot
      exact Bool.false_ne_true (hunderfull.mpr hnot)
    have hstored := (linked_cons.mp (linked_append.mp h.siblings.linked).2).1
    have hnodup := h.siblings.nodup
    rw [List.flatMap_append, List.flatMap_cons] at hnodup
    obtain ⟨-, hnodup, -⟩ := List.nodup_append.mp hnodup
    obtain ⟨hnodup, -, -⟩ := List.nodup_append.mp hnodup
    have hrefresh := runs_refreshChildSeparator hactive h.page hstored
      (hchild.hasEntries hstored.admits_leaf) hnodup
    rw [List.length_map] at hrefresh
    have hsame : Replaced array array false pageId previous next (front ++ child :: back)
        (front ++ child :: back) :=
      ⟨h.siblings.linked, fun _ => rfl, h.siblings.nodup, fun _ hmem _ => hmem, .refl _ _,
        fun _ hnode => hnode⟩
    refine hrefresh.mono fun _ array' ⟨hchange, hpage⟩ => ⟨front ++ child :: back,
      h.siblings.mended h.page.lt hsame hchange ?_ rfl ?_ (Nat.le_succ _)⟩
    · rw [List.map_append, List.map_cons]
      exact hpage
    · obtain ⟨hfront, hback⟩ := List.forall_mem_append.mp h.filled
      exact List.forall_mem_append.mpr ⟨hfront, List.forall_mem_cons.mpr ⟨hchild, hback⟩⟩

theorem yields_eraseFromInternal (hactive : ctx.status = .active) (hlayout : HasLayout tree layout)
    {hne : front ++ child :: back ≠ []}
    (h : Stored array isRoot parent previous next
      (Subtree.internal pageId (front ++ child :: back) hne))
    (hnodup : (Subtree.internal pageId (front ++ child :: back) hne).pageIds.Nodup)
    (hnext : next ∉ (Subtree.internal pageId (front ++ child :: back) hne).pageIds)
    {node : Node layout .leaf} (hsuccessor : Successor array next node
      (lastLeaf previous (Subtree.internal pageId (front ++ child :: back) hne).leaves))
    (hsorted : Sorted (Subtree.internal pageId (front ++ child :: back) hne).entries)
    (hfilled : (Subtree.internal pageId (front ++ child :: back) hne).Filled isRoot)
    (hchild : ChildFor key front child back)
    {eraseFromChild : PageId → PageProgram Bool}
    (herase : Yields ctx (eraseFromChild child.pageId) array
      (EraseEnds array false pageId (lastLeaf previous (front.flatMap leaves))
        (firstLeaf (back.flatMap leaves) next) child key)) :
    Yields ctx (tree.eraseFromInternal eraseFromChild pageId key.bytes) array
      (EraseEnds array isRoot parent previous next
        (Subtree.internal pageId (front ++ child :: back) hne) key) := by
  obtain ⟨-, -, -, -, hlift⟩ := h.child hnodup hnext hsuccessor
  obtain ⟨hpage, -⟩ := stored_internal.mp h
  obtain ⟨hlength, hfilledChildren⟩ := hfilled
  rw [entries_internal] at hsorted
  have hmem : child ∈ front ++ child :: back := List.mem_append_right _ (List.mem_cons_self ..)
  have hneChild := (hfilledChildren child hmem).entries_ne_nil h.admits_leaf
  obtain ⟨hlookup, -⟩ := @ChildFor.lookup_eq _ _ _ _ _ .zero _ hchild hsorted hneChild
  have hremove := hchild.remove_eq hsorted hneChild
  rw [pageIds_internal] at hnodup hnext
  obtain ⟨hself, -⟩ := List.nodup_cons.mp hnodup
  obtain ⟨hnextSelf, hnextChildren⟩ := not_or.mp (mt List.mem_cons.mpr hnext)
  refine (runs_childIndexForKey hpage hchild).bind fun found array ⟨hfound, harray⟩ => ?_
  subst hfound harray
  refine herase.bind ?_ ?_
  · rintro isUnderfull array₁ (⟨_, _, child', value, hpresent, hreplaced, hpageId, hentries, hthin,
      hunderfull⟩ | _)
    have hpresent' : lookup key (Subtree.internal pageId (front ++ child :: back) hne).entries =
        some value := by
      rw [entries_internal, hlookup, hpresent]
    obtain ⟨hreplaced, hholds⟩ := hlift array₁ [child'] hreplaced
    rw [List.append_assoc, List.singleton_append] at hreplaced
    have hentries' : (front ++ child' :: back).flatMap entries =
        remove key ((front ++ child :: back).flatMap entries) := by
      rw [hremove, ← hentries, List.flatMap_append, List.flatMap_cons, List.append_assoc]
    have hpage' : Holds array₁ pageId (Node.internal isRoot parent
        (front.map branch ++ (child.minKey, child'.pageId) :: back.map branch)) := by
      rw [List.map_append, List.map_cons] at hholds
      rw [hpageId]
      exact hholds
    have hthinned : Thinned array₁ isRoot parent previous next pageId front child.minKey child' back :=
      ⟨⟨hreplaced.linked, hreplaced.nodup, fun hid => hself (hreplaced.fresh pageId hid hpage.lt),
          hreplaced.next_not_mem hnextChildren hsuccessor, hnextSelf, node,
          hreplaced.successor node hsuccessor⟩,
        hpage', hentries' ▸ hsorted.remove key, fun c hc => hfilledChildren c (by
          obtain hc | hc := List.mem_append.mp hc
          · exact List.mem_append_left _ hc
          · exact List.mem_append_right _ (List.mem_cons_of_mem _ hc)), hthin⟩
    have hcount : 2 ≤ (front ++ child :: back).length := by
      have hminimum := Layout.minimum_pos hpage.admits
      refine le_trans ?_ hlength
      split <;> omega
    have hsibling : front ++ back ≠ [] := by
      refine List.ne_nil_of_length_pos ?_
      rw [List.length_append, List.length_cons] at hcount
      rw [List.length_append]
      omega
    suffices hjoined : Yields ctx ((if isUnderfull then
        tree.rebalanceChildAfterErase pageId front.length
      else refreshChildSeparator pageId front.length) >>= fun _ => pageIsUnderfull pageId) array₁
        (EraseEnds array isRoot parent previous next
          (Subtree.internal pageId (front ++ child :: back) hne) key) by
      cases isUnderfull <;> exact hjoined
    refine (runs_mendChild hactive hlayout hthinned (hunderfull.trans (and_iff_right rfl)) hsibling).bind
      fun _ array₂ ⟨after, hmended⟩ => ?_
    have hlength' : (front ++ child :: back).length ≤ after.length + 1 := by
      have hle := hmended.length
      rwa [List.length_append, List.length_cons] at hle ⊢
    have hafter : after ≠ [] := List.ne_nil_of_length_pos (by omega)
    refine Yields.mono (runs_pageIsUnderfull hmended.page) ?_
    rintro _ array' ⟨isUnderfull', rfl, hunderfull', rfl⟩
    refine .erased array' isUnderfull' (Subtree.internal pageId after hafter) value hpresent'
      ((hreplaced.reshaped.trans hmended.reshaped).replaced hmended.page hself hpage.lt) rfl ?_
      ⟨hlength.trans hlength', hmended.filled⟩ (underfull_internal hafter hmended.filled hunderfull')
    rw [entries_internal, entries_internal, hmended.entries, hentries']
  · rintro status array' (_ | habsent)
    exact .absent (by rw [entries_internal, hlookup, habsent])

end Internal

/-! ## Subtrees -/

/-- An erasure from a subtree: the recursion down to the leaf of the key and the mending
on the way back. -/
theorem yields_eraseFromSubtree (hactive : ctx.status = .active) (hlayout : HasLayout tree layout)
    (h : Stored array isRoot parent previous next t) (hnodup : t.pageIds.Nodup)
    (hnext : next ∉ t.pageIds) {node : Node layout .leaf}
    (hsuccessor : Successor array next node (lastLeaf previous t.leaves))
    (hsorted : Sorted t.entries) (hfilled : t.Filled isRoot) {fuel : Nat} (hfuel : height < fuel) :
    Yields ctx (tree.eraseFromSubtree key.bytes fuel t.pageId) array
      (EraseEnds array isRoot parent previous next t key) := by
  obtain ⟨fuel, rfl⟩ := Nat.exists_eq_succ_of_ne_zero (Nat.zero_lt_of_lt hfuel).ne'
  induction height generalizing isRoot parent previous next fuel node with
  | zero =>
    obtain ⟨pageId, entries⟩ := t
    have hpage : Holds array pageId (Node.leaf isRoot parent previous next entries) := h
    refine (runs_pageKind hpage).bind fun pageKind array ⟨hkind, harray⟩ => ?_
    subst hkind harray
    refine yields_eraseFromLeaf hactive h ?_ ?_ hfilled
    · exact fun heq => hnext (List.mem_singleton.mpr heq)
    · exact entries_leaf pageId entries ▸ hsorted
  | succ height ih =>
    obtain ⟨pageId, children, hne⟩ := t
    obtain ⟨fuel, rfl⟩ := Nat.exists_eq_succ_of_ne_zero
      (Nat.zero_lt_of_lt (Nat.lt_of_succ_lt_succ hfuel)).ne'
    have hsorted' : Sorted (children.flatMap entries) := entries_internal ▸ hsorted
    obtain ⟨front, child, back, rfl, hchild⟩ := exists_childFor hne hsorted'
      (fun c hc => (hfilled.2 c hc).entries_ne_nil h.admits_leaf) key
    have hmem : child ∈ front ++ child :: back := List.mem_append_right _ (List.mem_cons_self ..)
    refine (runs_pageKind h.1).bind fun pageKind array ⟨hkind, harray⟩ => ?_
    subst hkind harray
    obtain ⟨hstored, hnodupChild, hnextChild, ⟨node', hsuccessor'⟩, -⟩ :=
      Stored.child h hnodup hnext hsuccessor
    exact yields_eraseFromInternal hactive hlayout h hnodup hnext hsuccessor hsorted hfilled hchild
      (ih hstored hnodupChild hnextChild hsuccessor' (sorted_of_mem hsorted' hmem)
        (hfilled.2 child hmem) fuel (Nat.lt_of_succ_lt_succ hfuel))

/-! ## The root -/

/-- The root gets what the page of its child holds. -/
theorem runs_copyToRoot (hactive : ctx.status = .active) {kind kind' : BTreePageKind}
    {root : Node layout kind} {node : Node layout kind'} (hroot : Holds array tree.rootPageId root)
    (h : Holds array pageId node) :
    Runs ctx (withPage pageId fun _ =>
      withMutablePage tree.rootPageId fun _ => do
        let childPage ← read 1
        update 0 fun _ => childPage.data
        let _ ← readWith 0 BTreePage.openPage
        update 0 (BTreePage.setRoot · true)
        update 0 (BTreePage.setParentPageId · invalidPageId)) array fun _ array' =>
          OnlyChanges [tree.rootPageId] array array' ∧
            Holds array' tree.rootPageId { node with isRoot := true, parent := invalidPageId } := by
  have ⟨rootData, hrootPresent, _⟩ := hroot
  have ⟨data, hpresent, hshows⟩ := h
  refine yields_withPage_node h fun _ _ => ?_
  have hactive' : (ctx.pin pageId false).status = .active := hactive
  refine yields_withMutablePage_node hactive' hroot fun _ _ => ?_
  refine (runs_read rfl hpresent).bind fun page array ⟨hpage, harray⟩ => ?_
  subst hpage harray
  have hcopy : Runs ((ctx.pin pageId false).pin tree.rootPageId true) (update 0 fun _ => data) array
      fun _ array' => OnlyChanges [tree.rootPageId] array array' ∧ Holds array' tree.rootPageId node :=
    runs_edit_present rfl hrootPresent ⟨data, rfl, hshows⟩
  refine hcopy.bind fun _ array₁ ⟨hchange₁, hholds₁⟩ => ?_
  refine (runs_readWith_node rfl hholds₁ fun data hshows =>
    ⟨data, hshows.openPage_ok, trivial⟩).bind fun _ array₁ ⟨_, harray⟩ => ?_
  subst harray
  refine (runs_update_node rfl hholds₁ fun _ hshows => hshows.setRoot true).bind
    fun _ array₂ ⟨hchange₂, hholds₂⟩ => ?_
  refine (runs_update_node rfl hholds₂ fun _ hshows => hshows.setParent invalidPageId).mono
    fun _ array₃ ⟨hchange₃, hholds₃⟩ => ⟨?_, hholds₃⟩
  exact (hchange₁.trans hchange₂ fun _ hmem _ => hmem).trans hchange₃ fun _ hmem _ => hmem

/-- What holds of the tree when the only child has taken the place of the root. -/
structure Collapsed (array array' : PageArray) (tree : BTree) (child t : Subtree layout height) :
    Prop where
  stored : Stored array' true invalidPageId invalidPageId invalidPageId t
  pageId : t.pageId = tree.rootPageId
  entries : t.entries = child.entries
  nodup : t.pageIds.Nodup
  pageIds : t.pageIds ⊆ tree.rootPageId :: child.pageIds
  changes : OnlyChanges (tree.rootPageId :: child.pageIds) array array'
  filled : t.Filled true

theorem runs_collapseRoot (hactive : ctx.status = .active) {hne : [child] ≠ []}
    (h : Stored array true invalidPageId invalidPageId invalidPageId
      (Subtree.internal tree.rootPageId [child] hne))
    (hnodup : (Subtree.internal tree.rootPageId [child] hne).pageIds.Nodup)
    (hfilled : child.Filled false) :
    Runs ctx (tree.collapseRoot child.pageId) array fun _ array' =>
      ∃ t, Collapsed array array' tree child t := by
  obtain ⟨hroot, hlinked⟩ := stored_internal.mp h
  have hchild := linked_singleton.mp hlinked
  rw [pageIds_internal, List.flatMap_singleton] at hnodup
  obtain ⟨hself, hnodup⟩ := List.nodup_cons.mp hnodup
  have hnext : invalidPageId ≠ tree.rootPageId := hroot.ne_invalid.symm
  cases height with
  | zero =>
    obtain ⟨childPageId, entries, rfl⟩ := exists_leaf child
    have hpage : Holds array childPageId
        (Node.leaf false tree.rootPageId invalidPageId invalidPageId entries) := hchild
    have hids : Runs ctx (withPage childPageId fun page => do
        let page ← .done (BTreePage.openPage page)
        childPageIdsOf (BTreePage.kind page) childPageId) array fun ids array' =>
          ids = [] ∧ array' = array := by
      refine yields_withPage_node hpage fun data hshows => yields_ok_bind hshows.openPage_ok ?_
      rw [hshows.kind_eq]
      exact runs_pure ⟨rfl, rfl⟩
    refine hids.bind fun ids array ⟨hids, harray⟩ => ?_
    subst hids harray
    refine (runs_copyToRoot hactive hroot hpage).bind fun _ array₁ ⟨hchange₁, hholds₁⟩ => ?_
    refine runs_pure ⟨Subtree.leaf tree.rootPageId entries, hholds₁, rfl, ?_, ?_, ?_, ?_, .inl rfl⟩
    · rw [entries_leaf, entries_leaf]
    · exact List.nodup_singleton _
    · exact List.cons_subset_cons _ (List.nil_subset _)
    · exact hchange₁.mono (List.cons_subset_cons _ (List.nil_subset _))
  | succ height =>
    obtain ⟨childPageId, children, hchildren, rfl⟩ := exists_internal child
    obtain ⟨hpage, hlinked⟩ := stored_internal.mp hchild
    rw [pageIds_internal] at hself hnodup
    obtain ⟨-, hselfChildren⟩ := not_or.mp (mt List.mem_cons.mpr hself)
    obtain ⟨-, hnodup⟩ := List.nodup_cons.mp hnodup
    have hids : Runs ctx (withPage childPageId fun page => do
        let page ← .done (BTreePage.openPage page)
        childPageIdsOf (BTreePage.kind page) childPageId) array fun ids array' =>
          ids = children.map Subtree.pageId ∧ array' = array := by
      refine yields_withPage_node hpage fun data hshows => yields_ok_bind hshows.openPage_ok ?_
      rw [hshows.kind_eq]
      exact runs_internalChildPageIds hchildren hpage
    refine hids.bind fun ids array ⟨hids, harray⟩ => ?_
    subst hids harray
    refine (runs_copyToRoot hactive hroot hpage).bind fun _ array₁ ⟨hchange₁, hholds₁⟩ => ?_
    have hlinked₁ := hlinked.only hchange₁ fun id hid hown =>
      hselfChildren (List.mem_singleton.mp hown ▸ hid)
    refine (runs_setParents hactive tree.rootPageId hlinked₁ hnodup).mono
      fun _ array₂ ⟨hchange₂, hlinked₂⟩ => ?_
    have hmap {id : PageId} (hmem : id ∈ children.map Subtree.pageId) :
        id ∈ children.flatMap Subtree.pageIds := by
      obtain ⟨child, hchild, rfl⟩ := List.mem_map.mp hmem
      exact List.mem_flatMap.mpr ⟨child, hchild, child.pageId_mem⟩
    refine ⟨Subtree.internal tree.rootPageId children hchildren, stored_internal.mpr
      ⟨hchange₂.holds (fun hmem => hselfChildren (hmap hmem)) hholds₁, hlinked₂⟩, rfl, ?_, ?_, ?_, ?_, ?_⟩
    · rw [entries_internal, entries_internal]
    · rw [pageIds_internal]
      exact List.nodup_cons.mpr ⟨hselfChildren, hnodup⟩
    · rw [pageIds_internal, pageIds_internal]
      exact List.cons_subset_cons _ (List.subset_cons_self ..)
    · rw [pageIds_internal]
      refine (hchange₁.mono (List.cons_subset_cons _ (List.nil_subset _))).trans hchange₂
        fun id hmem _ => List.mem_cons_of_mem _ (List.mem_cons_of_mem _ (hmap hmem))
    · have hminimum := Layout.minimum_pos hpage.admits
      refine ⟨?_, hfilled.2⟩
      show 2 ≤ children.length
      have hlength : layout.minimum .internal + 1 ≤ children.length := hfilled.1
      omega

/-- The child of a root that has only one. -/
theorem runs_onlyChild {kind : BTreePageKind} {node : Node layout kind} (h : Holds array pageId node) :
    Runs ctx (withPage pageId fun page => do
      let page ← .done (BTreePage.openPage page)
      if BTreePage.kind page = .leaf ∨ BTreePage.keyCount page > 0 then return none
      else do
        let page ← .done (BTreeInternalPage.openPage page)
        return some (BTreePage.firstChildPageId page)) array fun onlyChild array' =>
          onlyChild = (if kind = .leaf ∨ node.entries.length > 0 then none else some node.firstChild) ∧
            array' = array := by
  refine yields_withPage_node h fun data hshows => yields_ok_bind hshows.openPage_ok ?_
  rw [hshows.kind_eq, hshows.keyCount_eq]
  split
  · exact runs_pure ⟨rfl, rfl⟩
  · rename_i hinternal
    obtain ⟨hkind, -⟩ := not_or.mp hinternal
    cases kind with
    | leaf => exact absurd rfl hkind
    | internal =>
      exact yields_ok_bind hshows.openAs_ok (runs_pure ⟨by rw [hshows.firstChild_eq], rfl⟩)

/-! ## Erasing from a tree -/

namespace WellFormed

/-- An erasure takes the key away, if it is there. -/
theorem yields_erase (h : WellFormed array tree t) (hactive : ctx.status = .active)
    (key : layout.Key) :
    Yields ctx (tree.erase key.bytes) array fun r array' =>
      (lookup key t.entries).elim (r = .error absentStatus ∧ array' = array) fun _ =>
        r = .ok () ∧ Becomes array tree t (remove key t.entries) array' := by
  refine yields_failIf_bind (fun hne => absurd (key.size_eq.trans h.hasLayout.keySize.symm) hne)
    fun _ => ?_
  have hnext : invalidPageId ∉ t.pageIds := fun hmem =>
    ne_invalidPageId_of_lt (h.stored.lt hmem).1 rfl
  have hsuccessor : Successor array invalidPageId (Node.leaf true 0 0 0 [] : Node layout .leaf)
      (lastLeaf invalidPageId t.leaves) := fun hne => absurd rfl hne
  have herase : Yields ctx (tree.eraseFromSubtree key.bytes walkLimit t.pageId) array
      (EraseEnds array true invalidPageId invalidPageId invalidPageId t key) :=
    yields_eraseFromSubtree hactive h.hasLayout h.stored h.nodup hnext hsuccessor h.sorted h.filled
      (Subtree.height_lt_walkLimit h.nodup)
  rw [← h.rootPageId] at herase
  refine herase.bind ?_ ?_
  · rintro _ array₁ (⟨_, isUnderfull, t', value, hpresent, hreplaced, hpageId, hentries, hthin, -⟩ | _)
    rw [hpresent]
    have hsorted : Sorted t'.entries := hentries ▸ h.sorted.remove key
    have hstored := linked_singleton.mp hreplaced.linked
    cases height with
    | zero =>
      obtain ⟨rootPageId, entries, rfl⟩ := exists_leaf t'
      have hpage : Holds array₁ rootPageId
          (Node.leaf true invalidPageId invalidPageId invalidPageId entries) := hstored
      have hroot : tree.rootPageId = rootPageId := h.rootPageId.trans hpageId.symm
      refine (runs_onlyChild (hroot ▸ hpage)).bind fun onlyChild array' ⟨honly, harray⟩ => ?_
      subst honly harray
      exact yields_pure ⟨rfl, h.becomes_of_replaced hreplaced hpageId hentries (.inl rfl) hsorted⟩
    | succ height =>
      obtain ⟨rootPageId, children, hne, rfl⟩ := exists_internal t'
      have hroot : rootPageId = tree.rootPageId := hpageId.trans h.rootPageId.symm
      subst hroot
      obtain ⟨first, rest, rfl⟩ := List.exists_cons_of_ne_nil hne
      refine (runs_onlyChild hstored.1).bind fun onlyChild array' ⟨honly, harray⟩ => ?_
      subst honly harray
      cases rest with
      | cons second rest =>
        refine yields_pure ⟨rfl, h.becomes_of_replaced hreplaced hpageId hentries ⟨?_, hthin.2⟩ hsorted⟩
        exact Nat.le_add_left 2 rest.length
      | nil =>
        -- the root has one child left
        have hnodup := hreplaced.nodup
        have hfresh := hreplaced.fresh
        have hchanges := hreplaced.changes.drop_invalid
        rw [List.flatMap_singleton] at hnodup hchanges
        rw [List.flatMap_singleton, List.flatMap_singleton, pageIds_internal,
          List.flatMap_singleton] at hfresh
        refine Yields.mono (runs_collapseRoot hactive hstored hnodup
          (hthin.2 first (List.mem_singleton.mpr rfl))) ?_
        rintro _ array₂ ⟨_, rfl, t'', hcollapsed⟩
        have hentries'' : t''.entries = remove key t.entries := by
          rw [hcollapsed.entries, ← hentries, entries_internal, List.flatMap_singleton]
        refine ⟨rfl, height, t'', ⟨hcollapsed.pageId.symm, h.hasLayout, hcollapsed.stored,
          hcollapsed.nodup, hcollapsed.filled, hentries'' ▸ h.sorted.remove key⟩, hentries'',
          hchanges.trans hcollapsed.changes hfresh, fun id hmem hlt =>
            hfresh id (hcollapsed.pageIds hmem) hlt⟩
  · rintro status array' (_ | habsent)
    rw [habsent]
    exact ⟨rfl, rfl⟩

end WellFormed

end DanDB.BTree
