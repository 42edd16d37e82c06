import DanDB.BTree.Borrowing

/-!
# Merging

A child that has become too small and a sibling that has no entries to spare become
one.
-/

namespace DanDB.BTree

open Buffer DanDB.Core Storage PageProgram Subtree Entries

variable {layout : Layout} {height : Nat} {isRoot : Bool} {parent previous next pageId : PageId}
  {array array' array'' : PageArray} {spare : Nat} {ctx : PageContext (spare + 3)} {tree : BTree} {separator : layout.Key}
  {child left right : Subtree layout height} {ts before after front back : List (Subtree layout height)}

/-! ## Leaves -/

/-- The entries of the leaf on the right go to the one on the left. -/
theorem runs_mergeAdjacentLeaves (hactive : ctx.status = .active) (hlayout : HasLayout tree layout)
    {a b : PageId} {es fs : List (layout.Entry .leaf)}
    (h : Siblings array pageId previous next [Subtree.leaf a es, Subtree.leaf b fs])
    (hsorted : Sorted (es ++ fs)) (hfits : (es ++ fs).length ≤ layout.capacity .leaf) :
    Runs ctx (tree.mergeAdjacentLeaves a b) array fun _ array' =>
      Replaced array array' false pageId previous next [Subtree.leaf a es, Subtree.leaf b fs]
        [Subtree.leaf a (es ++ fs)] := by
  obtain ⟨hleft, hright⟩ := linked_cons.mp h.linked
  replace hleft : Holds array a (Node.leaf false pageId previous b es) := hleft
  replace hright : Holds array b (Node.leaf false pageId a next fs) := linked_singleton.mp hright
  obtain ⟨node, hsuccessor⟩ := h.successor
  replace hsuccessor : Successor array next node b := hsuccessor
  have hne : b ≠ a := fun heq =>
    (List.nodup_cons.mp h.nodup).1 (List.mem_singleton.mpr heq.symm)
  have hnextLeft : next ≠ a := fun heq => h.next_not_mem (heq ▸ List.mem_cons_self ..)
  have hmove : Runs ctx (withPage b fun rightPage => do
      let rightPage ← .done (BTreeLeafPage.openPage rightPage)
      let nextLeafPageId := BTreePage.nextLeafPageId rightPage
      withMutablePage a fun leftPage => do
        let leftPage ← .done (BTreeLeafPage.openPage leftPage)
        appendEntries BTreeLeafPage.entryAt tree.insertLeafEntry (BTreePage.keyCount leftPage) 65536 0
        update 0 (BTreePage.setNextLeafPageId · nextLeafPageId)
        return nextLeafPageId) array fun nextLeafPageId array' => nextLeafPageId = next ∧
          OnlyChanges [a] array array' ∧
            Holds array' a (Node.leaf false pageId previous next (es ++ fs)) := by
    refine yields_withPage_node hright fun data hshows => yields_ok_bind hshows.openAs_ok ?_
    dsimp only
    rw [hshows.next_eq]
    have hactive' : (ctx.pin b false).status = .active := hactive
    refine yields_withMutablePage_node hactive' hleft fun data hshows =>
      yields_ok_bind hshows.openAs_ok ?_
    have hcount : BTreePage.keyCount data = es.length := hshows.keyCount_eq
    rw [hcount]
    have happend : Runs ((ctx.pin b false).pin a true) (appendEntries BTreeLeafPage.entryAt
        tree.insertLeafEntry es.length 65536 0) array fun _ array' =>
          OnlyChanges [a] array array' ∧
            Holds array' a (Node.leaf false pageId previous b (es ++ ([] ++ fs))) := by
      refine @runs_appendEntries _ _ _ _ _ _ _ _ _ _ (layout.entryBytes .leaf) _ _
        (fun appended => Node.leaf false pageId previous b (es ++ appended)) _ _ rfl rfl hne fs []
        _ ?_ (by rwa [List.append_nil]) hright (fun data hshows => hshows.keyCount_eq) ?_ ?_
      · rw [List.length_append] at hfits
        have hlt := layout.capacity_lt .leaf
        omega
      · intro front' entry back' hsplit data hshows
        rw [List.nil_append] at hsplit
        exact hshows.entryAt_split hsplit
      · intro front' entry back' hsplit data hshows
        rw [List.nil_append] at hsplit
        rw [← List.length_append]
        have hsplit' : es ++ fs = es ++ front' ++ entry :: back' := by
          rw [hsplit, List.append_assoc]
        have hinsert := hshows.insertLeafEntry_ok hlayout hsorted hfits hsplit'
        rwa [List.append_assoc] at hinsert
    refine happend.bind fun _ array₁ ⟨hchange₁, hholds₁⟩ => ?_
    refine (runs_update_node rfl hholds₁ fun _ hshows => hshows.setNext next).bind
      fun _ array₂ ⟨hchange₂, hholds₂⟩ => runs_pure ⟨rfl, ?_, hholds₂⟩
    exact hchange₁.trans hchange₂ fun _ hmem _ => hmem
  refine hmove.bind fun nextLeafPageId array₁ ⟨hid, hchange₁, hholds₁⟩ => ?_
  subst hid
  refine (runs_setPreviousLeaf hactive (hsuccessor.only hchange₁ (by simpa using hnextLeft)) a).mono
    fun _ array₂ ⟨hchange₂, hbehind⟩ => ?_
  have hholds₂ := hchange₂.holds_of_ne hnextLeft.symm hholds₁
  refine replaced_of_subperm (linked_singleton.mpr hholds₂) (fun _ => rfl)
    (List.Sublist.subperm (List.cons_sublist_cons.mpr (List.nil_sublist _))) h.nodup ?_
    fun node' hnode' => ?_
  · refine (hchange₁.mono ?_).trans hchange₂ fun id hmem _ => ?_
    · exact List.cons_subset.mpr ⟨List.mem_cons_of_mem _ (List.mem_cons_self ..), List.nil_subset _⟩
    · exact List.mem_cons.mpr (.inl (List.mem_singleton.mp hmem))
  · exact hbehind node' (Successor.only hnode' hchange₁ (by simpa using hnextLeft))

/-- The child merges into its left sibling. -/
theorem runs_mergeLeftLeaf (hactive : ctx.status = .active) (hlayout : HasLayout tree layout)
    {left child : Subtree layout 0} {front back : List (Subtree layout 0)}
    (h : Thinned array isRoot parent previous next pageId (front ++ [left]) separator child back)
    (hunderfull : ¬child.Filled false) (hleft : left.entries.length ≤ layout.minimum .leaf) :
    Runs ctx (do
      tree.mergeAdjacentLeaves left.pageId child.pageId
      eraseInternalEntry pageId ((front ++ [left]).length - 1)) array fun _ array' =>
        ∃ after, Mended array array' isRoot parent previous next pageId
          (front ++ [left] ++ child :: back) after := by
  obtain ⟨hsiblings, hpage, hsorted, hfilled, hthin⟩ := h
  obtain ⟨leftPageId, es, rfl⟩ := exists_leaf left
  obtain ⟨childPageId, fs, rfl⟩ := exists_leaf child
  rw [entries_leaf] at hleft
  have hconcat (left child : Subtree layout 0) :
      front ++ [left] ++ child :: back = front ++ [left, child] ++ back := by simp
  rw [hconcat] at hsiblings hsorted ⊢
  rw [List.append_assoc, List.singleton_append] at hfilled
  obtain ⟨hpair, hlift⟩ := hsiblings.stretch
  have hcapacity : 1 ≤ layout.capacity .leaf := Holds.admits (linked_cons.mp hpair.linked).1
  have hminimum : layout.minimum .leaf = (layout.capacity .leaf + 1) / 2 := rfl
  have hfew : fs.length < layout.minimum .leaf :=
    Nat.not_le.mp (not_or.mp (show ¬(false = true ∨ layout.minimum .leaf ≤ fs.length) from hunderfull)).2
  have hes : layout.minimum .leaf ≤ es.length := (show false = true ∨ layout.minimum .leaf ≤ es.length
    from hfilled _ (List.mem_append_right _ (List.mem_cons_self ..))).resolve_left nofun
  have hpairSorted := sorted_stretch hsorted
  rw [List.flatMap_cons, List.flatMap_singleton, entries_leaf, entries_leaf] at hpairSorted
  refine (runs_mergeAdjacentLeaves hactive hlayout hpair hpairSorted
    (by rw [List.length_append]; omega)).bind fun _ array₁ hmerged => ?_
  have hreplaced := hlift array₁ _ hmerged
  have hbranch : (Subtree.leaf leftPageId (es ++ fs)).branch = (Subtree.leaf leftPageId es).branch :=
    Prod.ext (minKey_leaf_append leftPageId es (List.ne_nil_of_length_pos (by omega)) fs) rfl
  have hpage₁ : Holds array₁ pageId (Node.internal isRoot parent (front.map branch ++
      (Subtree.leaf leftPageId (es ++ fs)).branch ::
        (separator, (Subtree.leaf childPageId fs).pageId) :: back.map branch)) := by
    have hpage₁ := hmerged.changes.holds (not_mem_stretch hsiblings.self_not_mem hsiblings.next_ne) hpage
    rw [hbranch]
    simpa using hpage₁
  have herase := runs_eraseInternalEntry hactive hpage₁
  rw [List.length_map] at herase
  rw [List.length_append, List.length_singleton, Nat.add_sub_cancel]
  refine herase.mono fun _ array₂ ⟨hchange₂, hpage₂⟩ => ⟨_,
    hsiblings.mended hpage.lt hreplaced hchange₂ ?_ ?_ ?_ ?_⟩
  · simpa using hpage₂
  · simp [entries_leaf]
  · refine forall_mem_replace hfilled (List.forall_mem_singleton.mpr (.inr ?_))
    rw [List.length_append]
    omega
  · simp only [List.length_append, List.length_cons, List.length_nil]
    omega

/-- The right sibling merges into the first child. -/
theorem runs_mergeRightLeaf (hactive : ctx.status = .active) (hlayout : HasLayout tree layout)
    {child right : Subtree layout 0} {back : List (Subtree layout 0)}
    (h : Thinned array isRoot parent previous next pageId [] separator child (right :: back))
    (hunderfull : ¬child.Filled false) (hright : right.entries.length ≤ layout.minimum .leaf) :
    Runs ctx (do
      tree.mergeAdjacentLeaves child.pageId right.pageId
      eraseInternalEntry pageId 0) array fun _ array' =>
        ∃ after, Mended array array' isRoot parent previous next pageId (child :: right :: back) after := by
  obtain ⟨hsiblings, hpage, hsorted, hfilled, hthin⟩ := h
  obtain ⟨childPageId, es, rfl⟩ := exists_leaf child
  obtain ⟨rightPageId, fs, rfl⟩ := exists_leaf right
  rw [entries_leaf] at hright
  have hconcat (child right : Subtree layout 0) :
      child :: right :: back = [] ++ [child, right] ++ back := rfl
  rw [List.nil_append, hconcat] at hsiblings hsorted
  rw [hconcat]
  obtain ⟨hpair, hlift⟩ := hsiblings.stretch
  have hcapacity : 1 ≤ layout.capacity .leaf := Holds.admits (linked_cons.mp hpair.linked).1
  have hminimum : layout.minimum .leaf = (layout.capacity .leaf + 1) / 2 := rfl
  have hfew : es.length < layout.minimum .leaf :=
    Nat.not_le.mp (not_or.mp (show ¬(false = true ∨ layout.minimum .leaf ≤ es.length) from hunderfull)).2
  have hfs : layout.minimum .leaf ≤ fs.length := (show false = true ∨ layout.minimum .leaf ≤ fs.length
    from hfilled _ (List.mem_cons_self ..)).resolve_left nofun
  have hpairSorted := sorted_stretch hsorted
  rw [List.flatMap_cons, List.flatMap_singleton, entries_leaf, entries_leaf] at hpairSorted
  refine (runs_mergeAdjacentLeaves hactive hlayout hpair hpairSorted
    (by rw [List.length_append]; omega)).bind fun _ array₁ hmerged => ?_
  have hreplaced := hlift array₁ _ hmerged
  -- there is no key in front of the first child
  have hpage₁ : Holds array₁ pageId (Node.internal isRoot parent ([] ++
      (Subtree.leaf childPageId (es ++ fs)).branch :: (Subtree.leaf rightPageId fs).branch ::
        back.map branch)) :=
    hmerged.changes.holds (not_mem_stretch hsiblings.self_not_mem hsiblings.next_ne) hpage
  refine (runs_eraseInternalEntry hactive hpage₁).mono fun _ array₂ ⟨hchange₂, hpage₂⟩ => ⟨_,
    hsiblings.mended hpage.lt hreplaced hchange₂ hpage₂ ?_ ?_ ?_⟩
  · simp [entries_leaf]
  · refine forall_mem_replace hfilled (List.forall_mem_singleton.mpr (.inr ?_))
    rw [List.length_append]
    omega
  · simp

/-! ## Rebalancing -/

theorem runs_childWithSiblings {front back : List (Node.Branch layout)} {branch : Node.Branch layout}
    (h : Holds array pageId (Node.internal isRoot parent (front ++ branch :: back))) :
    Runs ctx (childWithSiblings pageId front.length) array fun links array' =>
      links = ⟨branch.2, (front.map Prod.snd).getLastD invalidPageId,
        (back.map Prod.snd).headD invalidPageId⟩ ∧ array' = array := by
  refine yields_withPage_node h fun data hshows => yields_ok_bind hshows.openAs_ok
    (yields_ok_bind hshows.childPageIdAt_branches ?_)
  have hleft : (if front.length > 0 then BTreeInternalPage.childPageIdAt data (front.length - 1)
      else .ok invalidPageId) = .ok ((front.map Prod.snd).getLastD invalidPageId) := by
    obtain rfl | ⟨front, left, rfl⟩ := List.eq_nil_or_concat front
    · rfl
    · rw [List.concat_eq_append, List.append_assoc, List.singleton_append] at hshows
      rw [List.concat_eq_append, if_pos (by simp), List.length_append, List.length_singleton,
        Nat.add_sub_cancel, hshows.childPageIdAt_branches]
      simp
  have hright : (if front.length < BTreePage.keyCount data then
      BTreeInternalPage.rightChildPageIdAt data front.length else .ok invalidPageId) =
        .ok ((back.map Prod.snd).headD invalidPageId) := by
    rw [hshows.keyCount_branches]
    cases back with
    | nil => rw [if_neg (by simp)]; rfl
    | cons right back => rw [if_pos (by simp), hshows.rightChildPageIdAt_branches]; rfl
  rw [hleft, hright]
  exact runs_pure ⟨rfl, rfl⟩

/-- The siblings of the child that was erased from. -/
theorem Thinned.runs_childWithSiblings
    (h : Thinned array isRoot parent previous next pageId front separator child back) :
    Runs ctx (childWithSiblings pageId front.length) array fun links array' =>
      links = ⟨child.pageId, (front.map Subtree.pageId).getLastD invalidPageId,
        (back.map Subtree.pageId).headD invalidPageId⟩ ∧ array' = array := by
  have hlinks : Runs ctx (childWithSiblings pageId (front.map branch).length) array _ :=
    BTree.runs_childWithSiblings h.page
  rwa [List.length_map, List.map_map, List.map_map] at hlinks

theorem Thinned.right_ne_invalid
    (h : Thinned array isRoot parent previous next pageId front separator child (right :: back)) :
    right.pageId ≠ invalidPageId := by
  have hright := (linked_cons.mp (linked_cons.mp (linked_append.mp h.siblings.linked).2).2).1
  exact ne_invalidPageId_of_lt (hright.lt right.pageId_mem).1

theorem Thinned.left_ne_invalid
    (h : Thinned array isRoot parent previous next pageId (front ++ [left]) separator child back) :
    left.pageId ≠ invalidPageId := by
  have hleft := (linked_cons.mp (linked_append.mp (linked_append.mp h.siblings.linked).1).2).1
  exact ne_invalidPageId_of_lt (hleft.lt left.pageId_mem).1

/-- A leaf that has become too small borrows from a sibling or merges with one. -/
theorem runs_rebalanceLeafChildAfterErase (hactive : ctx.status = .active)
    (hlayout : HasLayout tree layout) {child : Subtree layout 0} {front back : List (Subtree layout 0)}
    (h : Thinned array isRoot parent previous next pageId front separator child back)
    (hunderfull : ¬child.Filled false) (hsibling : front ++ back ≠ []) :
    Runs ctx (tree.rebalanceLeafChildAfterErase pageId front.length) array fun _ array' =>
      ∃ after, Mended array array' isRoot parent previous next pageId (front ++ child :: back) after := by
  refine h.runs_childWithSiblings.bind fun links array ⟨hlinks, harray⟩ => ?_
  subst hlinks harray
  obtain rfl | ⟨front, left, rfl⟩ := List.eq_nil_or_concat front
  · -- the first child has a sibling on its right only
    obtain ⟨right, back, rfl⟩ := List.exists_cons_of_ne_nil hsibling
    rw [List.map_nil, List.getLastD_nil, List.map_cons, List.headD_cons]
    rw [borrowFromLeftLeaf, if_pos rfl, Program.pure_bind, if_neg Bool.false_ne_true]
    refine (runs_borrowFromRightLeaf hactive hlayout h hunderfull invalidPageId).bind
      fun borrowed array₁ hends => ?_
    obtain ⟨rfl, after, hmended⟩ | ⟨rfl, rfl, hfew⟩ := hends
    · exact runs_pure ⟨after, hmended⟩
    · rw [if_neg Bool.false_ne_true, if_neg (not_not_intro rfl), if_pos h.right_ne_invalid]
      exact runs_mergeRightLeaf hactive hlayout h hunderfull hfew
  · rw [List.concat_eq_append] at *
    have hlast : ((front ++ [left]).map Subtree.pageId).getLastD invalidPageId = left.pageId := by simp
    rw [hlast]
    refine (runs_borrowFromLeftLeaf hactive hlayout h hunderfull _).bind fun borrowed array₁ hends => ?_
    obtain ⟨rfl, after, hmended⟩ | ⟨rfl, rfl, hfewLeft⟩ := hends
    · exact runs_pure ⟨after, hmended⟩
    · rw [if_neg Bool.false_ne_true]
      have hmerge := runs_mergeLeftLeaf hactive hlayout h hunderfull hfewLeft
      cases back with
      | nil =>
        rw [List.map_nil, List.headD_nil, borrowFromRightLeaf, if_pos rfl, Program.pure_bind,
          if_neg Bool.false_ne_true, if_pos h.left_ne_invalid]
        exact hmerge
      | cons right back =>
        rw [List.map_cons, List.headD_cons]
        refine (runs_borrowFromRightLeaf hactive hlayout h hunderfull left.pageId).bind
          fun borrowed array₂ hends => ?_
        obtain ⟨rfl, after, hmended⟩ | ⟨rfl, rfl, -⟩ := hends
        · exact runs_pure ⟨after, hmended⟩
        · rw [if_neg Bool.false_ne_true, if_pos h.left_ne_invalid]
          exact hmerge

/-! ## Internal nodes -/

section Internal

variable {a b : PageId} {xs ys : List (Subtree layout height)} {hxs : xs ≠ []} {hys : ys ≠ []}

/-- The children of the page of handle 0, from one on, get another parent. -/
theorem runs_reparentMerged {ctx : PageContext (spare + 1)} {isDirty : Bool}
    (hactive : ctx.status = .active)
    (hhandle : ctx.handles[0]? = some (b, isDirty)) {first : Node.Branch layout} (parent' : PageId)
    (ts done : List (Subtree layout height)) {fuel : Nat} (hfuel : ts.length ≤ fuel)
    (h : Holds array b (Node.internal isRoot parent (first :: (done ++ ts).map branch)))
    (hlinked : Linked array false pageId previous next ts) (hnodup : (ts.flatMap pageIds).Nodup)
    (hself : b ∉ ts.flatMap pageIds) :
    Runs ctx (reparentMerged parent' fuel done.length) array fun _ array' =>
      OnlyChanges (ts.map Subtree.pageId) array array' ∧
        Linked array' false parent' previous next ts := by
  induction fuel generalizing array previous ts done with
  | zero =>
    obtain rfl := List.length_eq_zero_iff.mp (Nat.le_zero.mp hfuel)
    exact runs_pure ⟨.refl _ _, trivial⟩
  | succ fuel ih =>
    have ⟨data, hpresent, hshows⟩ := h
    refine (runs_read hhandle hpresent).bind fun page array' ⟨hpage, harray⟩ => ?_
    subst hpage harray
    have hcount : BTreePage.keyCount data = (done ++ ts).length := by
      have hcount : BTreePage.keyCount data = ((done ++ ts).map branch).length := hshows.keyCount_eq
      rwa [List.length_map] at hcount
    dsimp only
    rw [hcount]
    cases ts with
    | nil =>
      rw [List.append_nil, if_neg (Nat.lt_irrefl _)]
      exact runs_pure ⟨.refl _ _, trivial⟩
    | cons t ts =>
      obtain ⟨hfirst, hrest⟩ := linked_cons.mp hlinked
      obtain ⟨hnodupFirst, hnodupRest, hdisjoint⟩ := List.nodup_append.mp hnodup
      obtain ⟨hselfFirst, hselfRest⟩ := not_or.mp (mt List.mem_append.mpr hself)
      have hright : BTreeInternalPage.rightChildPageIdAt data done.length = .ok t.pageId := by
        have hsplit : (Node.internal isRoot parent (first :: (done ++ t :: ts).map branch)).entries =
            done.map branch ++ t.branch :: ts.map branch := List.map_append
        rw [show done.length = (done.map branch).length from (List.length_map _).symm, hshows.rightChildPageIdAt_ok hsplit]
        rfl
      rw [if_pos (by simp)]
      refine yields_ok_bind hright ((hfirst.runs_updateParentPageId hactive hnodupFirst parent').bind
        fun _ array₁ ⟨hchange, hfirst'⟩ => ?_)
      have hrest' := hrest.only hchange fun id hmem hown => by
        rw [List.mem_singleton.mp hown] at hmem
        exact hdisjoint _ t.pageId_mem _ hmem rfl
      have hne : b ≠ t.pageId := fun heq => hselfFirst (by rw [heq]; exact t.pageId_mem)
      have hpage' := hchange.holds_of_ne hne h
      have happend : done ++ t :: ts = (done ++ [t]) ++ ts := by simp
      rw [happend] at hpage'
      have hloop := ih ts (done ++ [t]) (Nat.le_of_succ_le_succ hfuel) hpage' hrest' hnodupRest hselfRest
      rw [List.length_append, List.length_singleton] at hloop
      refine hloop.mono fun _ array₂ ⟨hchange', hlinked'⟩ => ⟨?_, hfirst'.only hchange' ?_, hlinked'⟩
      · refine (hchange.mono (List.cons_subset_cons _ (List.nil_subset _))).trans hchange'
          fun id hmem _ => List.mem_cons_of_mem _ hmem
      · intro id hmem hown
        obtain ⟨child, hchild, rfl⟩ := List.mem_map.mp hown
        exact hdisjoint _ hmem _ (List.mem_flatMap.mpr ⟨child, hchild, child.pageId_mem⟩) rfl

/-- All children of the page of handle 0 get another parent. -/
theorem runs_reparentChildren {ctx : PageContext (spare + 1)} {isDirty : Bool}
    (hactive : ctx.status = .active)
    (hhandle : ctx.handles[0]? = some (b, isDirty)) {t : Subtree layout height}
    {ts : List (Subtree layout height)} (parent' : PageId)
    (h : Holds array b (Node.internal isRoot parent ((t :: ts).map branch)))
    (hlinked : Linked array false b previous next (t :: ts))
    (hnodup : ((t :: ts).flatMap pageIds).Nodup) (hself : b ∉ (t :: ts).flatMap pageIds)
    (hfuel : ts.length ≤ 65536) :
    Runs ctx (do
      updateParentPageId parent' t.pageId
      reparentMerged parent' 65536 0) array fun _ array' =>
        OnlyChanges ((t :: ts).map Subtree.pageId) array array' ∧
          Linked array' false parent' previous next (t :: ts) := by
  obtain ⟨ht, hts⟩ := linked_cons.mp hlinked
  obtain ⟨hnodupT, hnodupTs, hdisjoint⟩ := List.nodup_append.mp hnodup
  obtain ⟨hselfT, hselfTs⟩ := not_or.mp (mt List.mem_append.mpr hself)
  have hne : b ≠ t.pageId := fun heq => hselfT (by rw [heq]; exact t.pageId_mem)
  refine (ht.runs_updateParentPageId hactive hnodupT parent').bind fun _ array₁ ⟨hchange, ht'⟩ => ?_
  have hts' := hts.only hchange fun id hid hown => by
    rw [List.mem_singleton.mp hown] at hid
    exact hdisjoint _ t.pageId_mem _ hid rfl
  refine (runs_reparentMerged hactive hhandle parent' ts [] hfuel (hchange.holds_of_ne hne h) hts'
    hnodupTs hselfTs).mono fun _ array₂ ⟨hchange', hts''⟩ => ⟨?_, ht'.only hchange' ?_, hts''⟩
  · refine (hchange.mono (List.cons_subset_cons _ (List.nil_subset _))).trans hchange'
      fun id hmem _ => List.mem_cons_of_mem _ hmem
  · intro id hid hown
    obtain ⟨child, hchild, rfl⟩ := List.mem_map.mp hown
    exact hdisjoint _ hid _ (List.mem_flatMap.mpr ⟨child, hchild, child.pageId_mem⟩) rfl

/-- The branches of the page on the right go to the one on the left. -/
theorem runs_appendBranches {ctx : PageContext spare} {node : Node layout .internal} {isDirty : Bool}
    (hne : b ≠ a)
    (hleft : ctx.handles[0]? = some (a, true)) (hright : ctx.handles[1]? = some (b, isDirty))
    {first : Node.Branch layout} {branches branches' : List (Node.Branch layout)}
    (h : Holds array a (Node.internal isRoot parent (first :: branches))) (h' : Holds array b node)
    (hentries : node.entries = branches') (hsorted : Sorted (branches ++ branches'))
    (hfits : (branches ++ branches').length ≤ layout.capacity .internal) :
    Runs ctx (appendEntries internalEntryAt insertInternalEntry branches.length 65536 0) array
      fun _ array' => OnlyChanges [a] array array' ∧
        Holds array' a (Node.internal isRoot parent (first :: (branches ++ branches'))) := by
  have hmiddle {front' back' : List (Node.Branch layout)} {branch : Node.Branch layout}
      (hsplit : [] ++ branches' = front' ++ branch :: back') :
      node.entries = front' ++ branch :: back' := by
    rw [hentries, ← hsplit, List.nil_append]
  have happend : Runs ctx (appendEntries internalEntryAt insertInternalEntry branches.length 65536 0)
      array fun _ array' => OnlyChanges [a] array array' ∧
        Holds array' a (Node.internal isRoot parent (first :: (branches ++ ([] ++ branches')))) := by
    refine @runs_appendEntries _ _ _ _ _ _ _ _ _ _ (fun branch => (branch.1.bytes, branch.2)) _ _
      (fun appended => Node.internal isRoot parent (first :: (branches ++ appended))) _ _ hleft hright
      hne branches' [] _ ?_ (by rwa [List.append_nil]) h' ?_ ?_ ?_
    · have hlt := layout.capacity_lt .internal
      rw [List.length_append] at hfits
      omega
    · intro data hshows
      rw [hshows.keyCount_eq, hentries, List.nil_append]
    · intro front' branch back' hsplit data hshows
      rw [internalEntryAt, BTreeInternalPage.keyAt, hshows.keyAt_split (hmiddle hsplit), ok_bind,
        hshows.rightChildPageIdAt_ok (hmiddle hsplit), ok_bind]
      rfl
    · intro front' branch back' hsplit data hshows
      rw [List.nil_append] at hsplit
      rw [hsplit, ← List.append_assoc] at hsorted hfits
      rw [List.length_append, List.length_cons] at hfits
      obtain ⟨-, -, hlt⟩ := sorted_append.mp hsorted
      rw [← List.length_append, ← List.append_assoc]
      exact hshows.appendEntry_ok branch.2
        (fun e he => (hlt e he branch (List.mem_cons_self ..)).le)
        (show (branches ++ front').length < _ by omega)
  exact happend

/-- The children of the node on the right go to the one on the left. -/
theorem runs_mergeAdjacentInternals (hactive : ctx.status = .active)
    {t : Subtree layout height} {hys : t :: ys ≠ []}
    (h : Siblings array pageId previous next [Subtree.internal a xs hxs, Subtree.internal b (t :: ys) hys])
    (hsorted : Sorted ((xs ++ t :: ys).map branch))
    (hfits : (xs ++ t :: ys).length ≤ layout.capacity .internal + 1) :
    Runs ctx (mergeAdjacentInternals a t.minKey.bytes b) array fun _ array' =>
      Replaced array array' false pageId previous next
        [Subtree.internal a xs hxs, Subtree.internal b (t :: ys) hys]
        [Subtree.internal a (xs ++ t :: ys) (List.append_ne_nil_of_left_ne_nil hxs _)] := by
  have hpair := h.internalPair
  obtain ⟨x, xs, rfl⟩ := List.exists_cons_of_ne_nil hxs
  rw [List.length_append, List.length_cons, List.length_cons] at hfits
  rw [List.map_append, List.map_cons, List.map_cons, List.cons_append] at hsorted
  obtain ⟨-, hsorted⟩ := sorted_cons.mp hsorted
  have hactive' : (ctx.pin b false).status = .active := hactive
  -- the branches of both
  have hbranches : Runs (ctx.pin b false) (withMutablePage a fun leftPage => do
      let leftPage ← .done (BTreeInternalPage.openPage leftPage)
      let leftKeyCount := BTreePage.keyCount leftPage
      edit 0 (BTreeInternalPage.insertEntry · leftKeyCount t.minKey.bytes t.pageId)
      appendEntries internalEntryAt insertInternalEntry (leftKeyCount + 1) 65536 0) array
      fun _ array' => OnlyChanges [a] array array' ∧
        Holds array' a (Node.internal false pageId ((x :: xs ++ t :: ys).map branch)) := by
    refine yields_withMutablePage_node hactive' hpair.left fun data hshows =>
      yields_ok_bind hshows.openAs_ok ?_
    have hcount : BTreePage.keyCount data = (xs.map branch).length := hshows.keyCount_eq
    dsimp only
    rw [hcount]
    have hedit : Runs ((ctx.pin b false).pin a true) (edit 0 (BTreeInternalPage.insertEntry ·
        (xs.map branch).length t.minKey.bytes t.pageId)) array fun _ array' =>
          OnlyChanges [a] array array' ∧ Holds array' a
            (Node.internal false pageId (x.branch :: (xs.map branch ++ [t.branch]))) := by
      rw [← List.singleton_append, ← List.append_assoc] at hsorted
      obtain ⟨hsortedLeft, -, -⟩ := sorted_append.mp hsorted
      obtain ⟨-, -, hlt⟩ := sorted_append.mp hsortedLeft
      refine runs_edit_node rfl hpair.left fun data hshows => hshows.appendEntry_ok t.pageId
        (fun e he => (hlt e he t.branch (List.mem_singleton.mpr rfl)).le) ?_
      show (xs.map branch).length < _
      rw [List.length_map]
      omega
    refine hedit.bind fun _ array₁ ⟨hchange₁, hholds₁⟩ => ?_
    have happend := @runs_appendBranches _ _ _ _ _ _ _ ((ctx.pin b false).pin a true) _ _
      hpair.ne.symm rfl rfl _ _ _ hholds₁ (hchange₁.holds_of_ne hpair.ne.symm hpair.right)
      (show _ = ys.map branch from rfl) (by rwa [List.append_assoc]) (by
        rw [List.length_append, List.length_append, List.length_map, List.length_map,
          List.length_singleton]
        omega)
    rw [List.length_append, List.length_singleton] at happend
    refine happend.mono fun _ array₂ ⟨hchange₂, hholds₂⟩ =>
      ⟨hchange₁.trans hchange₂ fun _ hmem _ => hmem, ?_⟩
    rw [List.append_assoc] at hholds₂
    rw [List.map_append]
    exact hholds₂
  refine yields_withPage_node hpair.right fun data hshows => yields_ok_bind hshows.openAs_ok ?_
  have hfirst : BTreePage.firstChildPageId data = t.pageId := hshows.firstChild_eq
  dsimp only
  rw [hfirst]
  refine hbranches.bind fun _ array₁ ⟨hchange₁, hleft₁⟩ => ?_
  -- the children that have another parent now
  have hnot {ids : List PageId} (hmem : a ∉ ids) : ∀ id ∈ ids, id ∉ [a] := by
    intro id hid hown
    exact hmem (List.mem_singleton.mp hown ▸ hid)
  have hleftMem := hpair.left_not_mem
  have hnodup := hpair.nodup
  rw [List.flatMap_append] at hleftMem hnodup
  obtain ⟨hleftMemXs, hleftMemYs⟩ := not_or.mp (mt List.mem_append.mpr hleftMem)
  obtain ⟨-, hnodupYs, hdisjoint⟩ := List.nodup_append.mp hnodup
  have hxsLinked₁ := hpair.linkedLeft.only hchange₁ (hnot hleftMemXs)
  have hysLinked₁ := hpair.linkedRight.only hchange₁ (hnot hleftMemYs)
  have hright₁ := hchange₁.holds_of_ne hpair.ne.symm hpair.right
  have hself : b ∉ (t :: ys).flatMap pageIds := fun hmem =>
    hpair.right_not_mem (List.flatMap_append ▸ List.mem_append_right _ hmem)
  have hfuel : ys.length ≤ 65536 := by
    have hlt := layout.capacity_lt .internal
    omega
  have hreparent := runs_reparentChildren hactive' rfl a hright₁ hysLinked₁ hnodupYs hself hfuel
  refine hreparent.mono fun _ array₂ ⟨hchange₂, hysLinked₂⟩ => ?_
  have hmap {id : PageId} (hmem : id ∈ (t :: ys).map Subtree.pageId) :
      id ∈ (t :: ys).flatMap pageIds := by
    obtain ⟨child, hchild, rfl⟩ := List.mem_map.mp hmem
    exact List.mem_flatMap.mpr ⟨child, hchild, child.pageId_mem⟩
  have hxsLinked₂ := hxsLinked₁.only hchange₂ fun id hid hown => hdisjoint _ hid _ (hmap hown) rfl
  have hleft₂ := hchange₂.holds (fun hmem => hleftMemYs (hmap hmem)) hleft₁
  have hown : OnlyChanges (a :: (t :: ys).flatMap pageIds) array array₂ := by
    refine (hchange₁.mono (List.cons_subset_cons _ (List.nil_subset _))).trans hchange₂
      fun id hmem _ => List.mem_cons_of_mem _ (hmap hmem)
  have hperm : ([Subtree.internal a (x :: xs) hxs, Subtree.internal b (t :: ys) hys].flatMap
      pageIds).Perm (a :: b :: (x :: xs ++ t :: ys).flatMap pageIds) := perm_internals
  have hsub : a :: (t :: ys).flatMap pageIds ⊆
      [Subtree.internal a (x :: xs) hxs, Subtree.internal b (t :: ys) hys].flatMap pageIds := by
    refine List.Subset.trans (List.cons_subset_cons a (List.subset_cons_of_subset b ?_))
      hperm.symm.subset
    rw [List.flatMap_append]
    exact List.subset_append_right ..
  refine replaced_of_subperm ?_ (fun next' => ?_) ?_ h.nodup
    (hown.mono (List.Subset.trans hsub (List.subset_cons_self ..))) fun node hnode => ?_
  · rw [linked_singleton, stored_internal, linked_append]
    exact ⟨hleft₂, hxsLinked₂, hysLinked₂⟩
  · simp only [List.flatMap_cons, List.flatMap_nil, List.append_nil, leaves_internal,
      List.flatMap_append]
  · rw [List.flatMap_singleton, pageIds_internal]
    exact (List.cons_sublist_cons.mpr (List.sublist_cons_self b _)).subperm.trans hperm.symm.subperm
  · simp only [List.flatMap_cons, List.flatMap_nil, List.append_nil, leaves_internal,
      List.flatMap_append] at hnode ⊢
    exact hnode.only hown fun hmem => h.next_not_mem (hsub hmem)

/-- Two children side by side become one, and the page above loses the key between them. -/
theorem runs_mergeChildren (hactive : ctx.status = .active) {left right : Subtree layout (height + 1)}
    {front back : List (Subtree layout (height + 1))}
    (hsiblings : Siblings array pageId previous next (front ++ [left, right] ++ back))
    (hpage : Holds array pageId
      (Node.internal isRoot parent ((front ++ [left, right] ++ back).map branch)))
    (hsorted : Sorted ((front ++ [left, right] ++ back).flatMap entries))
    (hfilled : ∀ c ∈ front ++ back, c.Filled false)
    (hchildren : ∀ c ∈ left.children ++ right.children, c.Filled false)
    (hmany : layout.minimum .internal + 1 ≤ left.children.length + right.children.length)
    (hfits : left.children.length + right.children.length ≤ layout.capacity .internal + 1) :
    Runs ctx (do
      let separatorKey ← separatorKeyAt pageId front.length
      mergeAdjacentInternals left.pageId separatorKey right.pageId
      eraseInternalEntry pageId front.length) array fun _ array' =>
        ∃ after, Mended array array' isRoot parent previous next pageId
          (front ++ [left, right] ++ back) after := by
  obtain ⟨a, xs, hxs, rfl⟩ := exists_internal left
  obtain ⟨b, ys, hys, rfl⟩ := exists_internal right
  obtain ⟨t, ys, rfl⟩ := List.exists_cons_of_ne_nil hys
  replace hchildren : ∀ c ∈ xs ++ t :: ys, c.Filled false := hchildren
  replace hmany : layout.minimum .internal + 1 ≤ xs.length + (t :: ys).length := hmany
  replace hfits : xs.length + (t :: ys).length ≤ layout.capacity .internal + 1 := hfits
  rw [← List.length_append] at hmany hfits
  obtain ⟨hpair, hlift⟩ := hsiblings.stretch
  have hadmits : layout.Admits .leaf := (linked_cons.mp hpair.linked).1.admits_leaf
  have hentries : ∀ c ∈ xs ++ t :: ys, c.entries ≠ [] := fun c hc =>
    (hchildren c hc).entries_ne_nil hadmits
  have ht : t.entries ≠ [] := hentries t (by simp)
  have hpairSorted := sorted_stretch hsorted
  rw [List.flatMap_cons, List.flatMap_singleton, entries_internal, entries_internal,
    ← List.flatMap_append] at hpairSorted
  have hbranches (t : Subtree layout (height + 1)) : (front ++ [t] ++ back).map branch =
      front.map branch ++ t.branch :: back.map branch := by simp
  have hpage' : Holds array pageId (Node.internal isRoot parent (front.map branch ++
      (Subtree.internal a xs hxs).branch :: (Subtree.internal b (t :: ys) hys).branch ::
        back.map branch)) := by
    rw [List.map_append, List.map_append, List.append_assoc] at hpage
    exact hpage
  have hseparator := @runs_separatorKeyAt _ _ _ _ _ _ ctx _ _ _ _ hpage'
  rw [List.length_map] at hseparator
  refine hseparator.bind ?_
  rintro separatorKey array ⟨hkey, rfl⟩
  have hkey' : separatorKey = t.minKey.bytes := by
    rw [hkey, Subtree.branch, minKey_internal hys ht]
  subst hkey'
  refine (runs_mergeAdjacentInternals hactive hpair (sorted_branches hpairSorted hentries) hfits).bind
    fun _ array₁ hmerged => ?_
  have hbranch : (Subtree.internal a xs hxs).branch = (Subtree.internal a (xs ++ t :: ys)
      (List.append_ne_nil_of_left_ne_nil hxs _)).branch := by
    obtain ⟨first, rest, rfl⟩ := List.exists_cons_of_ne_nil hxs
    have hfirst : first.entries ≠ [] := hentries first (by simp)
    exact Prod.ext ((minKey_internal hxs hfirst).trans
      (minKey_internal (List.cons_ne_nil _ _) hfirst).symm) rfl
  have hpage₁ := hmerged.changes.holds (not_mem_stretch hsiblings.self_not_mem hsiblings.next_ne) hpage'
  rw [hbranch] at hpage₁
  have herase := runs_eraseInternalEntry hactive hpage₁
  rw [List.length_map, ← hbranches] at herase
  refine herase.mono ?_
  rintro _ array₂ ⟨hchange₂, hpage₂⟩
  refine ⟨_, hsiblings.mended hpage.lt (hlift array₁ _ hmerged) hchange₂ hpage₂ ?_ ?_ ?_⟩
  · simp [entries_internal]
  · intro c hc
    obtain hc | hc := List.mem_append.mp hc
    · obtain hc | hc := List.mem_append.mp hc
      · exact hfilled c (List.mem_append_left _ hc)
      · rw [List.mem_singleton.mp hc]
        exact ⟨hmany, hchildren⟩
    · exact hfilled c (List.mem_append_right _ hc)
  · simp only [List.length_append, List.length_cons, List.length_nil]
    omega

theorem Thinned.page_branches {child : Subtree layout (height + 1)}
    {front back : List (Subtree layout (height + 1))}
    (h : Thinned array isRoot parent previous next pageId front child.minKey child back) :
    Holds array pageId (Node.internal isRoot parent ((front ++ child :: back).map branch)) := by
  rw [List.map_append, List.map_cons]
  exact h.page

/-- The page above has been written, and nothing else. -/
theorem Thinned.refreshed {child : Subtree layout (height + 1)}
    {front back : List (Subtree layout (height + 1))}
    (h : Thinned array isRoot parent previous next pageId front separator child back)
    (hchange : OnlyChanges [pageId] array array')
    (hpage : Holds array' pageId (Node.internal isRoot parent
      (front.map branch ++ child.branch :: back.map branch))) :
    Thinned array' isRoot parent previous next pageId front child.minKey child back where
  siblings := by
    obtain ⟨node, hsuccessor⟩ := h.siblings.successor
    refine ⟨h.siblings.linked.only hchange fun id hmem hown => ?_, h.siblings.nodup,
      h.siblings.self_not_mem, h.siblings.next_not_mem, h.siblings.next_ne, node,
      hsuccessor.only hchange (by simpa using h.siblings.next_ne)⟩
    exact h.siblings.self_not_mem (List.mem_singleton.mp hown ▸ hmem)
  page := hpage
  sorted := h.sorted
  filled := h.filled
  thin := h.thin

/-- The page above was written first. -/
theorem Mended.afterPage (h : Mended array' array'' isRoot parent previous next pageId before after)
    (hchange : OnlyChanges [pageId] array array') (hnext : next ≠ pageId) :
    Mended array array'' isRoot parent previous next pageId before after where
  reshaped := by
    refine ⟨h.reshaped.linked, h.reshaped.firstLeaf, h.reshaped.nodup, fun id hmem hlt =>
      h.reshaped.fresh id hmem (UInt64.lt_of_lt_of_le hlt hchange.count), ?_, fun node hnode =>
        h.reshaped.successor node (hnode.only hchange (by simpa using hnext))⟩
    refine (hchange.mono ?_).trans h.reshaped.changes fun _ hmem _ => hmem
    exact List.cons_subset_cons _ (List.nil_subset _)
  page := h.page
  entries := h.entries
  filled := h.filled
  length := h.length

/-- The sizes of a node that is too small and of a sibling with nothing to spare. -/
theorem Thinned.merged_sizes {child sibling : Subtree layout (height + 1)}
    (hthin : child.Thin false) (hunderfull : ¬child.Filled false) (hfilled : sibling.Filled false)
    (hfew : sibling.children.length ≤ layout.minimum .internal + 1) :
    (∀ c ∈ child.children ++ sibling.children, c.Filled false) ∧
      layout.minimum .internal + 1 ≤ child.children.length + sibling.children.length ∧
      child.children.length + sibling.children.length ≤ layout.capacity .internal + 1 := by
  obtain ⟨b, hs, hhs, rfl⟩ := exists_internal child
  obtain ⟨a, xs, hxs, rfl⟩ := exists_internal sibling
  have hmany : layout.minimum .internal + 1 ≤ xs.length := hfilled.1
  have hminimum : 2 * layout.minimum .internal ≤ layout.capacity .internal := by
    rw [Layout.minimum]
    omega
  have hless : hs.length < layout.minimum .internal + 1 := by
    by_contra hnot
    exact hunderfull ⟨Nat.not_lt.mp hnot, hthin.2⟩
  replace hfew : xs.length ≤ layout.minimum .internal + 1 := hfew
  refine ⟨List.forall_mem_append.mpr ⟨hthin.2, hfilled.2⟩, ?_, ?_⟩
  · show _ ≤ hs.length + xs.length
    omega
  · show hs.length + xs.length ≤ _
    omega

/-- An internal node that has become too small borrows from a sibling or merges with one. -/
theorem runs_rebalanceInternalChildAfterErase (hactive : ctx.status = .active)
    {child : Subtree layout (height + 1)} {front back : List (Subtree layout (height + 1))}
    (h : Thinned array isRoot parent previous next pageId front separator child back)
    (hunderfull : ¬child.Filled false) (hsibling : front ++ back ≠ []) :
    Runs ctx (rebalanceInternalChildAfterErase pageId front.length) array fun _ array' =>
      ∃ after, Mended array array' isRoot parent previous next pageId (front ++ child :: back) after := by
  refine h.runs_childWithSiblings.bind ?_
  rintro links array ⟨rfl, rfl⟩
  obtain ⟨b, hs, hhs, rfl⟩ := exists_internal child
  have hstored := (linked_cons.mp (linked_append.mp h.siblings.linked).2).1
  have hnodup := h.siblings.nodup
  rw [List.flatMap_append, List.flatMap_cons] at hnodup
  obtain ⟨-, hnodup, -⟩ := List.nodup_append.mp hnodup
  obtain ⟨hnodup, -, -⟩ := List.nodup_append.mp hnodup
  have hrefresh := runs_refreshChildSeparator hactive h.page hstored
    (h.thin.hasEntries hstored.admits_leaf) hnodup
  rw [List.length_map] at hrefresh
  refine hrefresh.bind ?_
  rintro _ array₁ ⟨hchange₁, hpage₁⟩
  have h₁ := h.refreshed hchange₁ hpage₁
  have hnext := h.siblings.next_ne
  have hpage₁' := h₁.page_branches
  obtain rfl | ⟨front, left, rfl⟩ := List.eq_nil_or_concat front
  · -- the first child has a sibling on its right only
    obtain ⟨right, back, rfl⟩ := List.exists_cons_of_ne_nil hsibling
    have hright : right.Filled false := h.filled _ (List.mem_cons_self ..)
    rw [List.map_nil, List.getLastD_nil, List.map_cons, List.headD_cons]
    rw [borrowFromLeftInternal, if_pos rfl, Program.pure_bind, if_neg Bool.false_ne_true]
    refine (runs_borrowFromRightInternal hactive h₁ hunderfull invalidPageId).bind
      fun borrowed array₂ hends => ?_
    obtain ⟨rfl, after, hmended⟩ | ⟨rfl, rfl, hfew⟩ := hends
    · exact runs_pure ⟨after, hmended.afterPage hchange₁ hnext⟩
    · rw [if_neg Bool.false_ne_true, if_neg (not_not_intro rfl), if_pos h.right_ne_invalid]
      obtain ⟨hchildren, hmany, hfits⟩ := Thinned.merged_sizes h.thin hunderfull hright hfew
      obtain ⟨-, hfilled⟩ := List.forall_mem_cons.mp h.filled
      refine (@runs_mergeChildren _ _ _ _ _ _ _ _ _ _ hactive _ _ [] back h₁.siblings hpage₁' h₁.sorted
        hfilled hchildren hmany hfits).mono ?_
      rintro _ array' ⟨after, hmended⟩
      exact ⟨after, hmended.afterPage hchange₁ hnext⟩
  · rw [List.concat_eq_append] at *
    have hlast : ((front ++ [left]).map Subtree.pageId).getLastD invalidPageId = left.pageId := by simp
    have hleft : left.Filled false :=
      h.filled _ (List.mem_append_left _ (List.mem_append_right _ (List.mem_singleton.mpr rfl)))
    rw [hlast]
    refine (runs_borrowFromLeftInternal hactive h₁ hunderfull _).bind fun borrowed array₂ hends => ?_
    obtain ⟨rfl, after, hmended⟩ | ⟨rfl, rfl, hfewLeft⟩ := hends
    · exact runs_pure ⟨after, hmended.afterPage hchange₁ hnext⟩
    · rw [if_neg Bool.false_ne_true]
      obtain ⟨hchildren, hmany, hfits⟩ := Thinned.merged_sizes h.thin hunderfull hleft hfewLeft
      have hconcat (child : Subtree layout (height + 1)) :
          front ++ [left] ++ child :: back = front ++ [left, child] ++ back := by simp
      have hsiblings := h₁.siblings
      have hsorted := h₁.sorted
      rw [hconcat] at hsiblings hsorted hpage₁'
      have hfilled : ∀ c ∈ front ++ back, c.Filled false := fun c hc => by
        refine h.filled c ?_
        obtain hc | hc := List.mem_append.mp hc
        · exact List.mem_append_left _ (List.mem_append_left _ hc)
        · exact List.mem_append_right _ hc
      have hmerge := (runs_mergeChildren hactive hsiblings hpage₁' hsorted hfilled
        (fun c hc => hchildren c (List.perm_append_comm.mem_iff.mp hc))
        (by omega) (by omega)).mono fun _ array' hends => hends.imp
          fun after hmended => hmended.afterPage hchange₁ hnext
      rw [← hconcat, show front.length = (front ++ [left]).length - 1 by simp] at hmerge
      cases back with
      | nil =>
        rw [List.map_nil, List.headD_nil, borrowFromRightInternal, if_pos rfl, Program.pure_bind,
          if_neg Bool.false_ne_true, if_pos h.left_ne_invalid]
        exact hmerge
      | cons right back =>
        rw [List.map_cons, List.headD_cons]
        refine (runs_borrowFromRightInternal hactive h₁ hunderfull left.pageId).bind
          fun borrowed array₂ hends => ?_
        obtain ⟨rfl, after, hmended⟩ | ⟨rfl, rfl, -⟩ := hends
        · exact runs_pure ⟨after, hmended.afterPage hchange₁ hnext⟩
        · rw [if_neg Bool.false_ne_true, if_pos h.left_ne_invalid]
          exact hmerge

end Internal

end DanDB.BTree
