import DanDB.BTree.Subtree

/-!
# Changes of subtrees

What a change of some pages does to the subtrees that are stored in them.
`Replaced` says that subtrees side by side have become others in the same place;
it goes from a stretch to the list around it and from the children to their node.
-/

namespace DanDB.BTree

open Buffer DanDB.Core Storage PageProgram Subtree

variable {layout : Layout} {height : Nat} {previous next parent : PageId} {isRoot : Bool}
  {array array' : PageArray} {own : List PageId} {t : Subtree layout height}
  {ts front back : List (Subtree layout height)}

/-! ## The leaf behind -/

/-- Behind the last leaf there is no leaf or this one. -/
def Successor (array : PageArray) (next : PageId) (node : Node layout .leaf) (last : PageId) : Prop :=
  next ≠ invalidPageId → Holds array next { node with previous := last }

theorem Successor.only {node : Node layout .leaf} {last : PageId}
    (h : Successor array next node last) (hchange : OnlyChanges own array array')
    (hmem : next ∉ own) : Successor array' next node last :=
  fun hvalid => hchange.holds hmem (h hvalid)

theorem runs_setPreviousLeaf {spare : Nat} {ctx : PageContext (spare + 1)} (hactive : ctx.status = .active)
    {node : Node layout .leaf} {last : PageId} (h : Successor array next node last) (last' : PageId) :
    Runs ctx (setPreviousLeaf next last') array fun _ array' => OnlyChanges [next] array array' ∧
      ∀ node' : Node layout .leaf, Successor array next node' last →
        Successor array' next node' last' := by
  by_cases hinvalid : next = invalidPageId
  · rw [setPreviousLeaf, if_pos hinvalid]
    exact runs_pure ⟨.refl _ _, fun _ _ hvalid => absurd hinvalid hvalid⟩
  · rw [setPreviousLeaf, if_neg hinvalid]
    have hholds := h hinvalid
    refine yields_withMutablePage_node hactive hholds fun data hshows =>
      yields_ok_bind hshows.openAs_ok ?_
    have hupdate : Runs (ctx.pin next true) (update 0 (BTreePage.setPreviousLeafPageId · last')) array
        fun _ array' => OnlyChanges [next] array array' ∧
          Holds array' next { node with previous := last' } :=
      runs_update_node rfl hholds fun _ hshows => hshows.setPrevious last'
    refine hupdate.mono fun _ array' ⟨hchange, hholds'⟩ => ⟨hchange, fun node' hnode' _ => ?_⟩
    have hnode : { node' with previous := last' } = { node with previous := last' } := by
      have hsame := hholds.unique (hnode' hinvalid)
      rw [Node.mk.injEq] at hsame ⊢
      exact ⟨hsame.1, hsame.2.1, hsame.2.2.1, rfl, hsame.2.2.2.2⟩
    rw [hnode]
    exact hholds'

/-- The first leaf of a subtree, which may get another leaf in front of it. -/
theorem Stored.relink (h : Stored array isRoot parent previous next t) (hnodup : t.pageIds.Nodup) :
    ∃ node : Node layout .leaf, Holds array (firstLeaf t.leaves next) { node with previous := previous } ∧
      ∀ array' previous' own, OnlyChanges own array array' →
        (∀ pageId ∈ t.pageIds, pageId ∈ own → pageId = firstLeaf t.leaves next) →
        Holds array' (firstLeaf t.leaves next) { node with previous := previous' } →
          Stored array' isRoot parent previous' next t := by
  induction height generalizing isRoot parent previous next with
  | zero =>
    obtain ⟨pageId, entries⟩ := t
    exact ⟨Node.leaf isRoot parent previous next entries, h, fun _ _ _ _ _ hholds => hholds⟩
  | succ height ih =>
    obtain ⟨pageId, children, hne⟩ := t
    obtain ⟨first, rest, rfl⟩ := List.exists_cons_of_ne_nil hne
    obtain ⟨hpage, hfirst, hrest⟩ := h
    obtain ⟨hself, hbelow⟩ := List.nodup_cons.mp hnodup
    obtain ⟨hnodupFirst, hnodupRest, hdisjoint⟩ := List.nodup_append.mp hbelow
    obtain ⟨node, hholds, hrelink⟩ := ih hfirst hnodupFirst
    have hleaf : firstLeaf (@leaves layout (height + 1) (pageId, ⟨first :: rest, hne⟩)) next =
        firstLeaf first.leaves (firstLeaf (rest.flatMap leaves) next) := firstLeaf_append _ _
    have hmem := first.firstLeaf_mem (firstLeaf (rest.flatMap leaves) next)
    rw [hleaf]
    refine ⟨node, hholds, fun array' previous' own hchange hown hholds' => ⟨?_, ?_, ?_⟩⟩
    · refine hchange.holds (fun hmemOwn => hself ?_) hpage
      rw [hown pageId (List.mem_cons_self ..) hmemOwn]
      exact List.mem_append_left _ hmem
    · exact hrelink array' previous' own hchange
        (fun id hid => hown id (List.mem_cons_of_mem _ (List.mem_append_left _ hid))) hholds'
    · rw [first.lastLeaf_eq previous' previous]
      refine hrest.imp fun child hchild _ _ _ hstored => hstored.only hchange fun id hid hmemOwn => ?_
      have hidRest : id ∈ rest.flatMap pageIds := List.mem_flatMap.mpr ⟨child, hchild, hid⟩
      have heq := hown id (List.mem_cons_of_mem _ (List.mem_append_right _ hidRest)) hmemOwn
      exact hdisjoint _ hmem _ hidRest heq.symm

/-- The leaf behind some subtrees, seen from in front of them. -/
theorem Linked.relink (h : Linked array false parent previous next ts)
    (hnodup : (ts.flatMap pageIds).Nodup) (hnext : next ∉ ts.flatMap pageIds)
    {node : Node layout .leaf}
    (hsuccessor : Successor array next node (lastLeaf previous (ts.flatMap leaves))) :
    ∃ node' : Node layout .leaf,
      Successor array (firstLeaf (ts.flatMap leaves) next) node' previous ∧
      ∀ array' previous' own, OnlyChanges own array array' →
        (∀ pageId ∈ next :: ts.flatMap pageIds, pageId ∈ own →
          pageId = firstLeaf (ts.flatMap leaves) next) →
        Successor array' (firstLeaf (ts.flatMap leaves) next) node' previous' →
          Linked array' false parent previous' next ts ∧
            Successor array' next node (lastLeaf previous' (ts.flatMap leaves)) := by
  cases ts with
  | nil => exact ⟨node, hsuccessor, fun _ _ _ _ _ h' => ⟨trivial, h'⟩⟩
  | cons t ts =>
    obtain ⟨hfirst, hrest⟩ := linked_cons.mp h
    rw [List.flatMap_cons] at hnodup hnext hsuccessor
    obtain ⟨hnodupFirst, -, hdisjoint⟩ := List.nodup_append.mp hnodup
    obtain ⟨node', hholds, hrelink⟩ := hfirst.relink hnodupFirst
    rw [List.flatMap_cons, List.flatMap_cons, firstLeaf_append]
    have hmem := t.firstLeaf_mem (firstLeaf (ts.flatMap leaves) next)
    refine ⟨node', fun _ => hholds, fun array' previous' own hchange hown hsuccessor' => ?_⟩
    have hvalid := hholds.ne_invalid
    have hlast : lastLeaf previous' (t.leaves ++ ts.flatMap leaves) =
        lastLeaf previous (t.leaves ++ ts.flatMap leaves) := by
      rw [lastLeaf_append, lastLeaf_append, t.lastLeaf_eq previous' previous]
    refine ⟨linked_cons.mpr ⟨?_, ?_⟩, ?_⟩
    · exact hrelink array' previous' own hchange (fun id hid => hown id
        (List.mem_cons_of_mem _ (List.mem_append_left _ hid))) (hsuccessor' hvalid)
    · rw [t.lastLeaf_eq previous' previous]
      refine hrest.only hchange fun id hid hmemOwn => ?_
      have heq := hown id (List.mem_cons_of_mem _ (List.mem_append_right _ hid)) hmemOwn
      exact hdisjoint _ hmem _ hid heq.symm
    · rw [hlast]
      refine hsuccessor.only hchange fun hmemOwn => hnext ?_
      rw [hown next (List.mem_cons_self ..) hmemOwn]
      exact List.mem_append_left _ hmem

theorem firstLeaf_mem_cons (ts : List (Subtree layout height)) (next : PageId) :
    firstLeaf (ts.flatMap leaves) next ∈ next :: ts.flatMap pageIds := by
  cases ts with
  | nil => exact List.mem_cons_self ..
  | cons t ts =>
    rw [List.flatMap_cons, List.flatMap_cons, firstLeaf_append]
    exact List.mem_cons_of_mem _ (List.mem_append_left _ (t.firstLeaf_mem _))

/-! ## Changes of a stretch -/

/-- Subtrees side by side have become other ones.  The first leaf has stayed the
first, and the leaf behind the last one knows the new last one. -/
structure Replaced (array array' : PageArray) (isRoot : Bool) (parent previous next : PageId)
    (before after : List (Subtree layout height)) : Prop where
  linked : Linked array' isRoot parent previous next after
  firstLeaf : ∀ next, firstLeaf (after.flatMap leaves) next = firstLeaf (before.flatMap leaves) next
  nodup : (after.flatMap pageIds).Nodup
  fresh : ∀ pageId ∈ after.flatMap pageIds, pageId < array.header.pageCount →
    pageId ∈ before.flatMap pageIds
  changes : OnlyChanges (next :: before.flatMap pageIds) array array'
  successor : ∀ node : Node layout .leaf,
    Successor array next node (lastLeaf previous (before.flatMap leaves)) →
      Successor array' next node (lastLeaf previous (after.flatMap leaves))

namespace Replaced

variable {array'' : PageArray} {before after after' : List (Subtree layout height)}

theorem refl (h : Linked array isRoot parent previous next before)
    (hnodup : (before.flatMap pageIds).Nodup) :
    Replaced array array isRoot parent previous next before before :=
  ⟨h, fun _ => rfl, hnodup, fun _ hmem _ => hmem, .refl _ _, fun _ h => h⟩

theorem trans (h : Replaced array array' isRoot parent previous next before after)
    (h' : Replaced array' array'' isRoot parent previous next after after') :
    Replaced array array'' isRoot parent previous next before after' where
  linked := h'.linked
  firstLeaf next := (h'.firstLeaf next).trans (h.firstLeaf next)
  nodup := h'.nodup
  fresh pageId hmem hlt :=
    h.fresh pageId (h'.fresh pageId hmem (UInt64.lt_of_lt_of_le hlt h.changes.count)) hlt
  changes := by
    refine h.changes.trans h'.changes fun pageId hmem hlt => ?_
    obtain rfl | hmem := List.mem_cons.mp hmem
    · exact List.mem_cons_self ..
    · exact List.mem_cons_of_mem _ (h.fresh pageId hmem hlt)
  successor node hnode := h'.successor node (h.successor node hnode)

/-- A change of a stretch, as a change of the list it is a part of. -/
theorem append (h : Replaced array array' false parent (lastLeaf previous (front.flatMap leaves))
      (DanDB.BTree.firstLeaf (back.flatMap leaves) next) before after)
    (hfront : Linked array false parent previous
      (DanDB.BTree.firstLeaf ((before ++ back).flatMap leaves) next) front)
    (hback : Linked array false parent
      (lastLeaf previous ((front ++ before).flatMap leaves)) next back)
    (hnodup : ((front ++ before ++ back).flatMap pageIds).Nodup)
    (hnext : next ∉ (front ++ before ++ back).flatMap pageIds) {node : Node layout .leaf}
    (hsuccessor : Successor array next node
      (lastLeaf previous ((front ++ before ++ back).flatMap leaves))) :
    Replaced array array' false parent previous next (front ++ before ++ back)
      (front ++ after ++ back) := by
  simp only [List.flatMap_append] at hfront hback hnodup hnext hsuccessor
  obtain ⟨hnodupLeft, hnodupBack, hdisjointBack⟩ := List.nodup_append.mp hnodup
  obtain ⟨hnodupFront, hnodupBefore, hdisjoint⟩ := List.nodup_append.mp hnodupLeft
  have hnextBack : next ∉ back.flatMap pageIds := fun hmem => hnext (List.mem_append_right _ hmem)
  have hnextBefore : next ∉ before.flatMap pageIds := fun hmem =>
    hnext (List.mem_append_left _ (List.mem_append_right _ hmem))
  -- the leaf behind the stretch is the only page outside it that changes
  have houtside : ∀ pageId ∈ next :: back.flatMap pageIds, pageId ∉ before.flatMap pageIds := by
    intro pageId hmem hbefore
    obtain rfl | hmem := List.mem_cons.mp hmem
    · exact hnextBefore hbefore
    · exact hdisjointBack _ (List.mem_append_right _ hbefore) _ hmem rfl
  have hbehind (node : Node layout .leaf) (hnode : Successor array next node
      (lastLeaf previous (front.flatMap leaves ++ before.flatMap leaves ++ back.flatMap leaves))) :
      Linked array' false parent
        (lastLeaf previous (front.flatMap leaves ++ after.flatMap leaves)) next back ∧
      Successor array' next node
        (lastLeaf previous (front.flatMap leaves ++ after.flatMap leaves ++ back.flatMap leaves)) := by
    rw [lastLeaf_append] at hnode
    obtain ⟨node', hnode', hrelink⟩ := hback.relink hnodupBack hnextBack hnode
    rw [lastLeaf_append] at hnode'
    obtain ⟨hlinked, hlast⟩ := hrelink array' _ _ h.changes (fun pageId hmem hown =>
      (List.mem_cons.mp hown).resolve_right (houtside pageId hmem)) (h.successor node' hnode')
    rw [lastLeaf_append _ (back.flatMap leaves), lastLeaf_append]
    exact ⟨hlinked, hlast⟩
  refine ⟨?_, fun next' => ?_, ?_, ?_, ?_, ?_⟩
  · rw [linked_append, linked_append, List.flatMap_append]
    refine ⟨⟨?_, h.linked⟩, (hbehind node hsuccessor).1⟩
    rw [h.firstLeaf, ← firstLeaf_append]
    refine hfront.only h.changes fun pageId hmem hown => ?_
    obtain rfl | hown := List.mem_cons.mp hown
    · obtain heq | hmemBack := List.mem_cons.mp (firstLeaf_mem_cons back next)
      · rw [heq] at hmem
        exact hnext (List.mem_append_left _ (List.mem_append_left _ hmem))
      · exact hdisjointBack _ (List.mem_append_left _ hmem) _ hmemBack rfl
    · exact hdisjoint _ hmem _ hown rfl
  · simp only [List.flatMap_append]
    rw [firstLeaf_append, firstLeaf_append, firstLeaf_append, firstLeaf_append, h.firstLeaf]
  · simp only [List.flatMap_append]
    have hfresh {pageId : PageId} (hlt : pageId < array.header.pageCount)
        (hmem : pageId ∈ after.flatMap pageIds) := h.fresh pageId hmem hlt
    refine List.nodup_append.mpr ⟨List.nodup_append.mpr ⟨hnodupFront, h.nodup, ?_⟩, hnodupBack, ?_⟩
    · rintro pageId hmem _ hafter rfl
      exact hdisjoint _ hmem _ (hfresh (hfront.lt hmem).1 hafter) rfl
    · rintro pageId hmem _ hmemBack rfl
      obtain hmem | hafter := List.mem_append.mp hmem
      · exact hdisjointBack _ (List.mem_append_left _ hmem) _ hmemBack rfl
      · exact hdisjointBack _ (List.mem_append_right _ (hfresh (hback.lt hmemBack).1 hafter)) _
          hmemBack rfl
  · simp only [List.flatMap_append]
    intro pageId hmem hlt
    obtain hmem | hmem := List.mem_append.mp hmem
    · obtain hmem | hmem := List.mem_append.mp hmem
      · exact List.mem_append_left _ (List.mem_append_left _ hmem)
      · exact List.mem_append_left _ (List.mem_append_right _ (h.fresh pageId hmem hlt))
    · exact List.mem_append_right _ hmem
  · simp only [List.flatMap_append]
    refine h.changes.mono fun pageId hmem => ?_
    obtain rfl | hmem := List.mem_cons.mp hmem
    · obtain heq | hmemBack := List.mem_cons.mp (firstLeaf_mem_cons back next)
      · rw [heq]
        exact List.mem_cons_self ..
      · exact List.mem_cons_of_mem _ (List.mem_append_right _ hmemBack)
    · exact List.mem_cons_of_mem _ (List.mem_append_left _ (List.mem_append_right _ hmem))
  · simp only [List.flatMap_append]
    exact fun node' hnode => (hbehind node' hnode).2

/-- The children of a node have changed, and then the page of the node. -/
theorem internal {pageId : PageId} {hbefore : before ≠ []} {hafter : after ≠ []}
    (h : Replaced array array' false pageId previous next before after)
    (hpage : OnlyChanges [pageId] array' array'')
    (hholds : Holds array'' pageId (Node.internal isRoot parent (after.map branch)))
    (hself : pageId ∉ before.flatMap pageIds) (hlt : pageId < array.header.pageCount)
    (hnext : next ≠ pageId) :
    Replaced array array'' isRoot parent previous next [internal pageId before hbefore]
      [internal pageId after hafter] := by
  have hafter' : pageId ∉ after.flatMap pageIds := fun hmem => hself (h.fresh pageId hmem hlt)
  refine ⟨?_, ?_, ?_, ?_, ?_, ?_⟩
  · refine linked_singleton.mpr (stored_internal.mpr ⟨hholds, h.linked.only hpage ?_⟩)
    intro id hmem hown
    rw [List.mem_singleton.mp hown] at hmem
    exact hafter' hmem
  · intro next'
    simp only [List.flatMap_cons, List.flatMap_nil, List.append_nil, leaves_internal]
    exact h.firstLeaf next'
  · simp only [List.flatMap_cons, List.flatMap_nil, List.append_nil, pageIds_internal]
    exact List.nodup_cons.mpr ⟨hafter', h.nodup⟩
  · simp only [List.flatMap_cons, List.flatMap_nil, List.append_nil, pageIds_internal]
    intro id hmem hid
    obtain rfl | hmem := List.mem_cons.mp hmem
    · exact List.mem_cons_self ..
    · exact List.mem_cons_of_mem _ (h.fresh id hmem hid)
  · simp only [List.flatMap_cons, List.flatMap_nil, List.append_nil, pageIds_internal]
    refine (h.changes.mono ?_).trans hpage fun id hmem _ => ?_
    · exact List.cons_subset_cons _ (List.subset_cons_self ..)
    · rw [List.mem_singleton.mp hmem]
      exact List.mem_cons_of_mem _ (List.mem_cons_self ..)
  · simp only [List.flatMap_cons, List.flatMap_nil, List.append_nil, leaves_internal]
    intro node hnode
    exact (h.successor node hnode).only hpage (by simpa using hnext)

/-- The page behind the stretch is still outside it. -/
theorem next_not_mem (h : Replaced array array' false parent previous next before after)
    (hnext : next ∉ before.flatMap pageIds) {node : Node layout .leaf} {last : PageId}
    (hsuccessor : Successor array next node last) : next ∉ after.flatMap pageIds := by
  intro hmem
  have hvalid : next ≠ invalidPageId := ne_invalidPageId_of_lt (h.linked.lt hmem).1
  exact hnext (h.fresh next hmem (hsuccessor hvalid).lt)

end Replaced

/-! ## A stretch on its own -/

/-- A stretch of subtrees side by side, and what becomes of the subtrees around it when
others take its place. -/
theorem Linked.stretch {middle : List (Subtree layout height)}
    (h : Linked array false parent previous next (front ++ middle ++ back))
    (hnodup : ((front ++ middle ++ back).flatMap pageIds).Nodup)
    (hnext : next ∉ (front ++ middle ++ back).flatMap pageIds) {node : Node layout .leaf}
    (hsuccessor : Successor array next node
      (lastLeaf previous ((front ++ middle ++ back).flatMap leaves))) :
    Linked array false parent (lastLeaf previous (front.flatMap leaves))
        (firstLeaf (back.flatMap leaves) next) middle ∧
      (middle.flatMap pageIds).Nodup ∧ firstLeaf (back.flatMap leaves) next ∉ middle.flatMap pageIds ∧
      (∃ node' : Node layout .leaf, Successor array (firstLeaf (back.flatMap leaves) next) node'
        (lastLeaf (lastLeaf previous (front.flatMap leaves)) (middle.flatMap leaves))) ∧
      ∀ array' after, Replaced array array' false parent (lastLeaf previous (front.flatMap leaves))
          (firstLeaf (back.flatMap leaves) next) middle after →
        Replaced array array' false parent previous next (front ++ middle ++ back)
          (front ++ after ++ back) := by
  obtain ⟨hmiddle, hback⟩ := linked_append.mp h
  obtain ⟨hfront, hmiddle⟩ := linked_append.mp hmiddle
  have hnodup' := hnodup
  have hnext' := hnext
  rw [List.flatMap_append, List.flatMap_append] at hnodup' hnext'
  obtain ⟨hnodupLeft, hnodupBack, hdisjoint⟩ := List.nodup_append.mp hnodup'
  obtain ⟨-, hnodupMiddle, -⟩ := List.nodup_append.mp hnodupLeft
  have hnextMiddle : next ∉ middle.flatMap pageIds := fun hmem =>
    hnext' (List.mem_append_left _ (List.mem_append_right _ hmem))
  have hnextBack : next ∉ back.flatMap pageIds := fun hmem => hnext' (List.mem_append_right _ hmem)
  have hbehind := hsuccessor
  rw [List.flatMap_append, lastLeaf_append] at hbehind
  obtain ⟨node', hnode', -⟩ := hback.relink hnodupBack hnextBack hbehind
  rw [List.flatMap_append, lastLeaf_append] at hnode'
  rw [← firstLeaf_append, ← List.flatMap_append] at hfront
  refine ⟨hmiddle, hnodupMiddle, fun hmem => ?_, ⟨node', hnode'⟩, fun array' after hreplaced =>
    hreplaced.append hfront hback hnodup hnext hsuccessor⟩
  obtain heq | hmem' := List.mem_cons.mp (firstLeaf_mem_cons back next)
  · exact hnextMiddle (heq ▸ hmem)
  · exact hdisjoint _ (List.mem_append_right _ hmem) _ hmem' rfl

/-- The page above a stretch is not among those that change with it. -/
theorem not_mem_stretch {pageId : PageId} {middle : List (Subtree layout height)}
    (hself : pageId ∉ (front ++ middle ++ back).flatMap pageIds) (hnext : next ≠ pageId) :
    pageId ∉ firstLeaf (back.flatMap leaves) next :: middle.flatMap pageIds := by
  rw [List.flatMap_append, List.flatMap_append] at hself
  intro hmem
  obtain heq | hmem := List.mem_cons.mp hmem
  · obtain hnextLeaf | hmemBack := List.mem_cons.mp (firstLeaf_mem_cons back next)
    · exact hnext (hnextLeaf.symm.trans heq.symm)
    · exact hself (List.mem_append_right _ (heq ▸ hmemBack))
  · exact hself (List.mem_append_left _ (List.mem_append_right _ hmem))

/-- A child of a node as a subtree of its own, and what becomes of its siblings when
others take its place. -/
theorem Stored.child {pageId : PageId} {hne : front ++ t :: back ≠ []}
    (h : Stored array isRoot parent previous next (internal pageId (front ++ t :: back) hne))
    (hnodup : (internal pageId (front ++ t :: back) hne).pageIds.Nodup)
    (hnext : next ∉ (internal pageId (front ++ t :: back) hne).pageIds) {node : Node layout .leaf}
    (hsuccessor : Successor array next node
      (lastLeaf previous (internal pageId (front ++ t :: back) hne).leaves)) :
    Stored array false pageId (lastLeaf previous (front.flatMap leaves))
        (firstLeaf (back.flatMap leaves) next) t ∧
      t.pageIds.Nodup ∧ firstLeaf (back.flatMap leaves) next ∉ t.pageIds ∧
      (∃ node' : Node layout .leaf, Successor array (firstLeaf (back.flatMap leaves) next) node'
        (lastLeaf (lastLeaf previous (front.flatMap leaves)) t.leaves)) ∧
      ∀ array' after, Replaced array array' false pageId (lastLeaf previous (front.flatMap leaves))
          (firstLeaf (back.flatMap leaves) next) [t] after →
        Replaced array array' false pageId previous next (front ++ t :: back)
            (front ++ after ++ back) ∧
          Holds array' pageId (Node.internal isRoot parent ((front ++ t :: back).map branch)) := by
  obtain ⟨hpage, hchildren⟩ := stored_internal.mp h
  rw [pageIds_internal] at hnodup hnext
  rw [leaves_internal] at hsuccessor
  obtain ⟨hself, hnodup⟩ := List.nodup_cons.mp hnodup
  obtain ⟨hnextSelf, hnext⟩ := not_or.mp (mt List.mem_cons.mpr hnext)
  have hconcat : front ++ t :: back = front ++ [t] ++ back := by
    rw [List.append_assoc, List.singleton_append]
  rw [hconcat] at hchildren hnodup hnext hsuccessor hself
  obtain ⟨hstored, hnodupChild, hnextChild, ⟨node', hnode'⟩, hlift⟩ :=
    hchildren.stretch hnodup hnext hsuccessor
  rw [List.flatMap_singleton] at hnodupChild hnextChild hnode'
  refine ⟨linked_singleton.mp hstored, hnodupChild, hnextChild, ⟨node', hnode'⟩,
    fun array' after hreplaced => ⟨hconcat ▸ hlift array' after hreplaced, ?_⟩⟩
  exact hreplaced.changes.holds (not_mem_stretch hself hnextSelf) hpage

/-! ## Other parents -/

/-- The page of a node gets another parent; it may become or cease to be a root. -/
theorem Stored.reparent (h : Stored array isRoot parent previous next t)
    (hnodup : t.pageIds.Nodup) :
    ∃ (kind : BTreePageKind) (node : Node layout kind), Holds array t.pageId node ∧
      node.parent = parent ∧ node.isRoot = isRoot ∧
      ∀ array' isRoot' parent', OnlyChanges [t.pageId] array array' →
        Holds array' t.pageId { node with isRoot := isRoot', parent := parent' } →
          Stored array' isRoot' parent' previous next t := by
  cases height with
  | zero =>
    obtain ⟨pageId, entries⟩ := t
    exact ⟨.leaf, _, h, rfl, rfl, fun _ _ _ _ hholds => hholds⟩
  | succ height =>
    obtain ⟨pageId, children⟩ := t
    obtain ⟨hself, -⟩ := List.nodup_cons.mp hnodup
    refine ⟨.internal, _, h.1, rfl, rfl, fun array' isRoot' parent' hchange hholds => ⟨hholds, ?_⟩⟩
    refine Linked.only h.2 hchange fun id hmem hown => ?_
    rw [List.mem_singleton.mp hown] at hmem
    exact hself hmem

/-- The page of a subtree gets another parent. -/
theorem Stored.runs_updateParentPageId {spare : Nat} {ctx : PageContext (spare + 1)} (hactive : ctx.status = .active)
    (h : Stored array false parent previous next t) (hnodup : t.pageIds.Nodup) (parent' : PageId) :
    Runs ctx (updateParentPageId parent' t.pageId) array fun _ array' =>
      OnlyChanges [t.pageId] array array' ∧ Stored array' false parent' previous next t := by
  obtain ⟨kind, node, hholds, -, hroot, hstored⟩ := h.reparent hnodup
  refine (BTree.runs_updateParentPageId hactive hholds parent').mono
    fun _ array' ⟨hchange, hholds'⟩ => ⟨hchange, hstored array' false parent' hchange ?_⟩
  rw [← hroot]
  exact hholds'

theorem runs_setParents {spare : Nat} {ctx : PageContext (spare + 1)} (hactive : ctx.status = .active) (parent' : PageId)
    (h : Linked array false parent previous next ts) (hnodup : (ts.flatMap pageIds).Nodup) :
    Runs ctx (Program.forEach (updateParentPageId parent') (ts.map pageId)) array fun _ array' =>
      OnlyChanges (ts.map pageId) array array' ∧ Linked array' false parent' previous next ts := by
  induction ts generalizing array previous with
  | nil => exact runs_pure ⟨.refl _ _, trivial⟩
  | cons t ts ih =>
    obtain ⟨hfirst, hrest⟩ := linked_cons.mp h
    obtain ⟨hnodupFirst, hnodupRest, hdisjoint⟩ := List.nodup_append.mp hnodup
    rw [List.map_cons, Program.forEach_cons]
    refine (hfirst.runs_updateParentPageId hactive hnodupFirst parent').bind
      fun _ array' ⟨hchange, hfirst'⟩ => ?_
    have hrest' := hrest.only hchange fun id hmem hown => by
      rw [List.mem_singleton.mp hown] at hmem
      exact hdisjoint _ t.pageId_mem _ hmem rfl
    refine (ih hrest' hnodupRest).mono fun _ array'' ⟨hchange', hlinked⟩ => ⟨?_, ?_, hlinked⟩
    · refine (hchange.mono (List.cons_subset_cons _ (List.nil_subset _))).trans hchange'
        fun id hmem _ => List.mem_cons_of_mem _ hmem
    · refine hfirst'.only hchange' fun id hmem hown => ?_
      obtain ⟨child, hchild, rfl⟩ := List.mem_map.mp hown
      exact hdisjoint _ hmem _ (List.mem_flatMap.mpr ⟨child, hchild, child.pageId_mem⟩) rfl

end DanDB.BTree
