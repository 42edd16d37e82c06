import DanDB.BTree.Inserting

/-!
# Splitting the root

The root keeps its page.  When it is split, what it holds moves to a new page, and
the root becomes an internal page with two children.
-/

namespace DanDB.BTree

open Buffer DanDB.Core Storage PageProgram Subtree Entries

variable {layout : Layout} {height : Nat} {isRoot : Bool} {parent previous next : PageId}
  {array array' : PageArray} {spare : Nat} {ctx : PageContext (spare + 3)} {tree : BTree} {kind : BTreePageKind}
  {pageId : PageId} {ts : List (Subtree layout height)}

/-! ## Steps -/

theorem runs_internalChildPageIds {ctx : PageContext (spare + 1)} (hts : ts ≠ [])
    (h : Holds array pageId (Node.internal isRoot parent (ts.map branch))) :
    Runs ctx (internalChildPageIds pageId) array fun childPageIds array' =>
      childPageIds = ts.map Subtree.pageId ∧ array' = array := by
  obtain ⟨first, rest, rfl⟩ := List.exists_cons_of_ne_nil hts
  refine yields_withPage_node h fun data hshows => yields_ok_bind hshows.openAs_ok
    (yields_ok_bind hshows.mapM_rightChildPageIdAt (runs_pure ⟨?_, rfl⟩))
  rw [hshows.firstChild_eq, List.map_cons, List.map_map]
  rfl

/-- The old root moves into a new page. -/
theorem runs_moveRoot (hactive : ctx.status = .active) {node : Node layout kind}
    (h : Holds array tree.rootPageId node) {childPageIds : List PageId}
    (hchildren : ∀ ctx : PageContext (spare + 2), Runs ctx (childPageIdsOf kind tree.rootPageId) array fun ids array' =>
      ids = childPageIds ∧ array' = array) :
    Runs ctx tree.moveRoot array fun moved array' => ∃ leftPageId,
      moved = (kind, childPageIds, leftPageId) ∧ ¬leftPageId < array.header.pageCount ∧
        OnlyChanges [] array array' ∧
        Holds array' leftPageId { node with isRoot := false, parent := tree.rootPageId } := by
  have hpos : 0 < array.header.pageCount := by
    have hlt := UInt64.lt_iff_toNat_lt.mp h.lt
    exact UInt64.lt_iff_toNat_lt.mpr (Nat.zero_lt_of_lt hlt)
  refine yields_withPage_node h fun _ hshows => yields_ok_bind hshows.openPage_ok ?_
  dsimp only
  rw [hshows.kind_eq]
  refine (hchildren _).bind fun ids array ⟨hids, harray⟩ => ?_
  subst hids harray
  have hactive' : (ctx.pin tree.rootPageId false).status = .active := hactive
  refine yields_withNewPage_present hactive' hpos fun array₁ hgrow hpresent => ?_
  generalize hid : array.header.pageCount = leftPageId at hpresent ⊢
  have hnew : ¬leftPageId < array.header.pageCount := hid ▸ UInt64.lt_irrefl _
  obtain ⟨data, hroot, hdata⟩ := hgrow.holds (List.not_mem_nil) h
  refine (runs_read rfl hroot).bind fun page array₁ ⟨hpage, harray⟩ => ?_
  subst hpage harray
  have hcopy : Runs ((ctx.pin tree.rootPageId false).pin leftPageId true)
      (update 0 fun _ => data) array₁ fun _ array' =>
        OnlyChanges [leftPageId] array₁ array' ∧ Holds array' leftPageId node :=
    runs_edit_present rfl hpresent ⟨data, rfl, hdata⟩
  refine hcopy.bind fun _ array₂ ⟨hchange₂, hholds₂⟩ => ?_
  refine (runs_readWith_node rfl hholds₂ fun data hshows =>
    ⟨data, hshows.openPage_ok, trivial⟩).bind fun _ array₂ ⟨_, harray⟩ => ?_
  subst harray
  refine (runs_update_node rfl hholds₂ fun _ hshows => hshows.setRoot false).bind
    fun _ array₃ ⟨hchange₃, hholds₃⟩ => ?_
  refine (runs_update_node rfl hholds₃ fun _ hshows => hshows.setParent tree.rootPageId).bind
    fun _ array₄ ⟨hchange₄, hholds₄⟩ => runs_pure ⟨leftPageId, rfl, UInt64.lt_irrefl _, ?_, hholds₄⟩
  refine hgrow.trans ((hchange₂.trans hchange₃ fun _ hmem _ => hmem).trans hchange₄
    fun _ hmem _ => hmem) fun id hmem hlt => ?_
  rw [List.mem_singleton.mp hmem] at hlt
  exact absurd hlt hnew

/-- The page of the root becomes an internal page with two children. -/
theorem runs_newRoot (hactive : ctx.status = .active) (hlayout : HasLayout tree layout)
    (hadmits : layout.Admits .internal) {node : Node layout kind} (h : Holds array tree.rootPageId node)
    (left right : Node.Branch layout) :
    Runs ctx (withMutablePage tree.rootPageId fun _ => do
      edit 0 fun _ => initializeInternal tree.keySize tree.valueSize
      let _ ← readWith 0 BTreeInternalPage.openPage
      update 0 (BTreePage.setRoot · true)
      update 0 (BTreePage.setParentPageId · invalidPageId)
      update 0 (BTreePage.setFirstChildPageId · left.2)
      edit 0 (BTreeInternalPage.insertEntry · 0 right.1.bytes right.2)) array fun _ array' =>
        OnlyChanges [tree.rootPageId] array array' ∧
          Holds array' tree.rootPageId (Node.internal true invalidPageId [left, right]) := by
  have hcapacity : 2 ≤ layout.capacity .internal := hadmits
  have ⟨data, hpresent, hshows⟩ := h
  refine yields_withMutablePage_node hactive h fun _ _ => ?_
  refine (runs_initializeInternal hlayout hadmits rfl hpresent).bind
    fun _ array₁ ⟨hchange₁, hholds₁⟩ => ?_
  refine (runs_readWith_openAs rfl hholds₁).bind fun _ array₁ harray => ?_
  subst harray
  refine (runs_update_node rfl hholds₁ fun _ hshows => hshows.setRoot true).bind
    fun _ array₂ ⟨hchange₂, hholds₂⟩ => ?_
  refine (runs_update_node rfl hholds₂ fun _ hshows => hshows.setParent invalidPageId).bind
    fun _ array₃ ⟨hchange₃, hholds₃⟩ => ?_
  have hfirst : Runs (ctx.pin tree.rootPageId true) (update 0 (BTreePage.setFirstChildPageId · left.2))
      array₃ fun _ array₄ => OnlyChanges [tree.rootPageId] array₃ array₄ ∧
        Holds array₄ tree.rootPageId (Node.internal true invalidPageId [left]) :=
    runs_update_node rfl hholds₃ fun _ hshows => hshows.setFirstChild left.2
  refine hfirst.bind fun _ array₄ ⟨hchange₄, hholds₄⟩ => ?_
  have hinsert : Runs (ctx.pin tree.rootPageId true)
      (edit 0 (BTreeInternalPage.insertEntry · 0 right.1.bytes right.2)) array₄ fun _ array₅ =>
        OnlyChanges [tree.rootPageId] array₄ array₅ ∧
          Holds array₅ tree.rootPageId (Node.internal true invalidPageId [left, right]) :=
    runs_edit_node rfl hholds₄ fun _ hshows =>
      hshows.appendEntry_ok right.2 nofun (Nat.zero_lt_of_lt hcapacity)
  refine hinsert.mono fun _ array₅ ⟨hchange₅, hholds₅⟩ => ⟨?_, hholds₅⟩
  have hsame : ∀ {base : PageArray}, ∀ id ∈ [tree.rootPageId], id < base.header.pageCount →
      id ∈ [tree.rootPageId] := fun _ hmem _ => hmem
  exact (((hchange₁.trans hchange₂ hsame).trans hchange₃ hsame).trans hchange₄ hsame).trans
    hchange₅ hsame

/-- The page on the right becomes a child of the root. -/
theorem runs_adopt (hactive : ctx.status = .active) {node : Node layout kind}
    (h : Holds array pageId node) {body : PageProgram Unit} {post : Unit → PageArray → Prop}
    (hbody : ∀ array', OnlyChanges [pageId] array array' →
      Holds array' pageId { node with isRoot := false, parent := tree.rootPageId } →
        Runs (ctx.pin pageId true) body array' post) :
    Runs ctx (withMutablePage pageId fun page => do
      let _ ← .done (BTreePage.openPage page)
      update 0 (BTreePage.setRoot · false)
      update 0 (BTreePage.setParentPageId · tree.rootPageId)
      body) array post := by
  refine yields_withMutablePage_node hactive h fun _ hshows => yields_ok_bind hshows.openPage_ok ?_
  refine (runs_update_node rfl h fun _ hshows => hshows.setRoot false).bind
    fun _ array₁ ⟨hchange₁, hholds₁⟩ => ?_
  refine (runs_update_node rfl hholds₁ fun _ hshows => hshows.setParent tree.rootPageId).bind
    fun _ array₂ ⟨hchange₂, hholds₂⟩ => ?_
  exact hbody array₂ (hchange₁.trans hchange₂ fun _ hmem _ => hmem) hholds₂

/-! ## The split -/

section Split

variable {left right : Subtree layout height}

/-- What holds of the tree when the root was split. -/
structure RootSplit (array array' : PageArray) (tree : BTree) (left right : Subtree layout height)
    (t : Subtree layout (height + 1)) : Prop where
  stored : Stored array' true invalidPageId invalidPageId invalidPageId t
  pageId : t.pageId = tree.rootPageId
  entries : t.entries = left.entries ++ right.entries
  nodup : t.pageIds.Nodup
  fresh : ∀ pageId ∈ t.pageIds, pageId < array.header.pageCount →
    pageId ∈ left.pageIds ++ right.pageIds
  changes : OnlyChanges (left.pageIds ++ right.pageIds) array array'
  filled : left.Filled false → right.Filled false → t.Filled true

theorem runs_splitRoot_leaf (hactive : ctx.status = .active) (hlayout : HasLayout tree layout)
    (hadmits : layout.Admits .internal) {left right : Subtree layout 0}
    (h : Linked array true invalidPageId invalidPageId invalidPageId [left, right])
    (hnodup : (left.pageIds ++ right.pageIds).Nodup) (hpageId : left.pageId = tree.rootPageId) :
    Runs ctx (tree.splitRoot ⟨right.minKey.bytes, right.pageId⟩) array fun _ array' =>
      ∃ t, RootSplit array array' tree left right t := by
  obtain ⟨rootPageId, entries⟩ := left
  obtain ⟨rightPageId, entries'⟩ := right
  obtain rfl : rootPageId = tree.rootPageId := hpageId
  obtain ⟨hroot, hright⟩ := linked_cons.mp h
  replace hright := linked_singleton.mp hright
  have hne : rightPageId ≠ tree.rootPageId := by
    rintro rfl
    exact (List.nodup_cons.mp hnodup).1 (List.mem_cons_self ..)
  have hroot' : Holds array tree.rootPageId
      (Node.leaf true invalidPageId invalidPageId rightPageId entries) := hroot
  have hright' : Holds array rightPageId
      (Node.leaf false invalidPageId tree.rootPageId invalidPageId entries') := hright
  refine (runs_moveRoot hactive hroot' fun _ => runs_pure ⟨rfl, rfl⟩).bind ?_
  rintro _ array₁ ⟨leftPageId, rfl, hnew, hchange₁, hleft₁⟩
  have hneLeft : tree.rootPageId ≠ leftPageId := fun heq => hnew (heq ▸ hroot'.lt)
  have hneLeft' : rightPageId ≠ leftPageId := fun heq => hnew (heq ▸ hright'.lt)
  let left : Subtree layout 0 := Subtree.leaf leftPageId entries
  let right : Subtree layout 0 := Subtree.leaf rightPageId entries'
  refine (runs_newRoot hactive hlayout hadmits (hchange₁.holds (List.not_mem_nil) hroot')
    left.branch right.branch).bind fun _ array₂ ⟨hchange₂, hroot₂⟩ => ?_
  have hright₂ := hchange₂.holds_of_ne hne (hchange₁.holds (List.not_mem_nil) hright')
  have hleft₂ := hchange₂.holds_of_ne hneLeft.symm hleft₁
  refine runs_adopt hactive hright₂ fun array₃ hchange₃ hright₃ => ?_
  refine (runs_readWith_openAs rfl hright₃).bind fun _ array₃ harray => ?_
  subst harray
  refine (runs_update_node rfl hright₃ fun _ hshows => hshows.setPrevious leftPageId).mono
    fun _ array₄ ⟨hchange₄, hright₄⟩ => ?_
  have hchange₅ := hchange₃.trans hchange₄ fun _ hmem _ => hmem
  refine ⟨Subtree.internal tree.rootPageId [left, right] (List.cons_ne_nil _ _), ?_, rfl, ?_, ?_, ?_,
    ?_, fun hleft hright => ⟨Nat.le_refl 2, List.forall_mem_cons.mpr ⟨hleft,
      List.forall_mem_singleton.mpr hright⟩⟩⟩
  · refine stored_internal.mpr ⟨hchange₅.holds_of_ne hne.symm hroot₂, linked_cons.mpr ⟨?_,
      linked_singleton.mpr hright₄⟩⟩
    exact hchange₅.holds_of_ne hneLeft'.symm hleft₂
  · rw [entries_internal, List.flatMap_cons, List.flatMap_singleton]
    rfl
  · show [tree.rootPageId, leftPageId, rightPageId].Nodup
    simp [hneLeft, hne.symm, hneLeft'.symm]
  · intro id hmem hlt
    obtain rfl | hmem := List.mem_cons.mp (show id ∈ [tree.rootPageId, leftPageId, rightPageId] from hmem)
    · exact List.mem_cons_self ..
    · obtain rfl | hmem := List.mem_cons.mp hmem
      · exact absurd hlt hnew
      · exact List.mem_cons_of_mem _ hmem
  · show OnlyChanges [tree.rootPageId, rightPageId] array array₄
    refine ((hchange₁.mono (List.nil_subset _)).trans hchange₂ fun id hmem _ => ?_).trans hchange₅
      fun id hmem _ => List.mem_cons_of_mem _ hmem
    exact List.mem_cons.mpr (.inl (List.mem_singleton.mp hmem))

/-- The children of the old root get the new page as their parent. -/
theorem runs_splitRoot_internal (hactive : ctx.status = .active) (hlayout : HasLayout tree layout)
    (hadmits : layout.Admits .internal) {left right : Subtree layout (height + 1)}
    (h : Linked array true invalidPageId invalidPageId invalidPageId [left, right])
    (hnodup : (left.pageIds ++ right.pageIds).Nodup) (hpageId : left.pageId = tree.rootPageId) :
    Runs ctx (tree.splitRoot ⟨right.minKey.bytes, right.pageId⟩) array fun _ array' =>
      ∃ t, RootSplit array array' tree left right t := by
  obtain ⟨rootPageId, leftChildren, hleftChildren⟩ := left
  obtain ⟨rightPageId, rightChildren, hrightChildren⟩ := right
  obtain rfl : rootPageId = tree.rootPageId := hpageId
  obtain ⟨⟨hroot, hleftLinked⟩, hright⟩ := linked_cons.mp h
  obtain ⟨hright, hrightLinked⟩ := linked_singleton.mp hright
  obtain ⟨hnodupLeft, hnodupRight, hdisjoint⟩ := List.nodup_append.mp
    (show ((tree.rootPageId :: leftChildren.flatMap pageIds) ++
      (rightPageId :: rightChildren.flatMap pageIds)).Nodup from hnodup)
  obtain ⟨hself, hnodupChildren⟩ := List.nodup_cons.mp hnodupLeft
  obtain ⟨hself', -⟩ := List.nodup_cons.mp hnodupRight
  have hneRight : rightPageId ≠ tree.rootPageId := fun heq =>
    hdisjoint _ (List.mem_cons_self ..) _ (List.mem_cons_self ..) heq.symm
  have hmap {id : PageId} (hmem : id ∈ leftChildren.map Subtree.pageId) :
      id ∈ leftChildren.flatMap pageIds := by
    obtain ⟨child, hchild, rfl⟩ := List.mem_map.mp hmem
    exact List.mem_flatMap.mpr ⟨child, hchild, child.pageId_mem⟩
  -- the new page takes over the children on the left
  refine (runs_moveRoot hactive hroot fun _ =>
    runs_internalChildPageIds hleftChildren hroot).bind ?_
  rintro _ array₁ ⟨leftPageId, rfl, hnew, hchange₁, hleft₁⟩
  have hbefore {id : PageId} (hlt : id < array.header.pageCount) : id ≠ leftPageId :=
    fun heq => hnew (heq ▸ hlt)
  refine (runs_setParents hactive leftPageId
    (Linked.only hleftLinked hchange₁ fun _ _ => List.not_mem_nil) hnodupChildren).bind
      fun _ array₂ ⟨hchange₂, hlinked₂⟩ => ?_
  have hroot₂ := hchange₂.holds (fun hmem => hself (hmap hmem))
    (hchange₁.holds (List.not_mem_nil) hroot)
  have hleft₂ := hchange₂.holds (fun hmem => hbefore (Linked.lt hleftLinked (hmap hmem)).1 rfl) hleft₁
  have hright₂ := hchange₂.holds (fun hmem => hdisjoint _ (List.mem_cons_of_mem _ (hmap hmem)) _
    (List.mem_cons_self ..) rfl) (hchange₁.holds (List.not_mem_nil) hright)
  let left : Subtree layout (height + 1) := Subtree.internal leftPageId leftChildren hleftChildren
  let right : Subtree layout (height + 1) :=
    Subtree.internal rightPageId rightChildren hrightChildren
  -- the root and its child on the right
  refine (runs_newRoot hactive hlayout hadmits hroot₂ left.branch right.branch).bind
    fun _ array₃ ⟨hchange₃, hroot₃⟩ => ?_
  refine runs_adopt hactive (hchange₃.holds_of_ne hneRight hright₂)
    fun array₄ hchange₄ hright₄ => runs_pure ?_
  have hchange₃₄ : OnlyChanges [tree.rootPageId, rightPageId] array₂ array₄ :=
    (hchange₃.mono (List.cons_subset_cons _ (List.nil_subset _))).trans hchange₄
      fun id hmem _ => List.mem_cons_of_mem _ hmem
  have hids : (Subtree.internal tree.rootPageId [left, right] (List.cons_ne_nil _ _)).pageIds =
      tree.rootPageId :: leftPageId ::
        (leftChildren.flatMap pageIds ++ rightPageId :: rightChildren.flatMap pageIds) := by
    rw [pageIds_internal, List.flatMap_cons, List.flatMap_singleton]
    rfl
  refine ⟨Subtree.internal tree.rootPageId [left, right] (List.cons_ne_nil _ _), ?_, rfl, ?_, ?_, ?_,
    ?_, fun hleft hright => ⟨Nat.le_refl 2, List.forall_mem_cons.mpr ⟨hleft,
      List.forall_mem_singleton.mpr hright⟩⟩⟩
  · refine stored_internal.mpr ⟨hchange₄.holds_of_ne hneRight.symm hroot₃, linked_cons.mpr ⟨⟨?_, ?_⟩,
      linked_singleton.mpr ⟨hright₄, ?_⟩⟩⟩
    · refine hchange₃₄.holds ?_ hleft₂
      simp [(hbefore hroot.lt).symm, (hbefore hright.lt).symm]
    · refine Linked.only hlinked₂ hchange₃₄ fun id hmem hown => ?_
      obtain rfl | hown := List.mem_cons.mp hown
      · exact hself hmem
      · exact hdisjoint _ (List.mem_cons_of_mem _ hmem) _ (List.mem_cons_self ..)
          (List.mem_singleton.mp hown)
    · have hrightLinked₁ := Linked.only hrightLinked hchange₁ fun _ _ => List.not_mem_nil
      refine (hrightLinked₁.only hchange₂ fun id hmem hown => ?_).only hchange₃₄ fun id hmem hown => ?_
      · exact hdisjoint _ (List.mem_cons_of_mem _ (hmap hown)) _ (List.mem_cons_of_mem _ hmem) rfl
      · obtain rfl | hown := List.mem_cons.mp hown
        · exact hdisjoint _ (List.mem_cons_self ..) _ (List.mem_cons_of_mem _ hmem) rfl
        · rw [List.mem_singleton.mp hown] at hmem
          exact hself' hmem
  · rw [entries_internal, List.flatMap_cons, List.flatMap_singleton]
    rfl
  · rw [hids]
    refine List.nodup_cons.mpr ⟨fun hmem => ?_, List.nodup_cons.mpr ⟨fun hmem => ?_, ?_⟩⟩
    · obtain heq | hmem := List.mem_cons.mp hmem
      · exact hbefore hroot.lt heq
      · obtain hmem | hmem := List.mem_append.mp hmem
        · exact hself hmem
        · exact hdisjoint _ (List.mem_cons_self ..) _ hmem rfl
    · obtain hmem | hmem := List.mem_append.mp hmem
      · exact hnew (Linked.lt hleftLinked hmem).1
      · obtain heq | hmem := List.mem_cons.mp hmem
        · exact hbefore hright.lt heq.symm
        · exact hnew (Linked.lt hrightLinked hmem).1
    · exact (List.nodup_cons.mp hnodup).2
  · rw [hids]
    intro id hmem hlt
    obtain rfl | hmem := List.mem_cons.mp hmem
    · exact List.mem_cons_self ..
    · obtain rfl | hmem := List.mem_cons.mp hmem
      · exact absurd hlt hnew
      · exact List.mem_cons_of_mem _ hmem
  · refine ((hchange₁.mono (List.nil_subset _)).trans hchange₂ fun id hmem _ => ?_).trans hchange₃₄
      fun id hmem _ => ?_
    · exact List.mem_append_left _ (List.mem_cons_of_mem _ (hmap hmem))
    · obtain rfl | hmem := List.mem_cons.mp hmem
      · exact List.mem_append_left _ (List.mem_cons_self ..)
      · rw [List.mem_singleton.mp hmem]
        exact List.mem_append_right _ (List.mem_cons_self ..)

theorem runs_splitRoot (hactive : ctx.status = .active) (hlayout : HasLayout tree layout)
    (hadmits : layout.Admits .internal)
    (h : Linked array true invalidPageId invalidPageId invalidPageId [left, right])
    (hnodup : (left.pageIds ++ right.pageIds).Nodup) (hpageId : left.pageId = tree.rootPageId) :
    Runs ctx (tree.splitRoot ⟨right.minKey.bytes, right.pageId⟩) array fun _ array' =>
      ∃ t, RootSplit array array' tree left right t := by
  cases height with
  | zero => exact runs_splitRoot_leaf hactive hlayout hadmits h hnodup hpageId
  | succ height => exact runs_splitRoot_internal hactive hlayout hadmits h hnodup hpageId

end Split

/-! ## Inserting into a tree -/

namespace WellFormed

variable {t : Subtree layout height}

theorem becomes_of_replaced (h : WellFormed array tree t) {t' : Subtree layout height}
    (hreplaced : Replaced array array' true invalidPageId invalidPageId invalidPageId [t] [t'])
    (hpageId : t'.pageId = t.pageId) {entries : List (layout.Entry .leaf)}
    (hentries : t'.entries = entries) (hfilled : t'.Filled true) (hsorted : Sorted t'.entries) :
    Becomes array tree t entries array' := by
  have hnodup := hreplaced.nodup
  have hfresh := hreplaced.fresh
  have hchanges := hreplaced.changes.drop_invalid
  rw [List.flatMap_singleton] at hnodup hchanges
  rw [List.flatMap_singleton, List.flatMap_singleton] at hfresh
  exact ⟨height, t', ⟨h.rootPageId.trans hpageId.symm, h.hasLayout,
    linked_singleton.mp hreplaced.linked, hnodup, hfilled, hsorted⟩, hentries, hchanges, hfresh⟩

/-- An insertion adds the key, unless it is there already. -/
theorem yields_insert (h : WellFormed array tree t) (hactive : ctx.status = .active)
    (hadmits : layout.Admits .internal) (key : layout.Key) (value : layout.Value) :
    Yields ctx (tree.insert key.bytes value.bytes) array fun r array' =>
      (lookup key t.entries).elim
        (r = .ok () ∧ Becomes array tree t (put key value t.entries) array') fun _ =>
        r = .error duplicateStatus ∧ array' = array := by
  refine yields_failIf_bind (fun hne => absurd (key.size_eq.trans h.hasLayout.keySize.symm) hne)
    fun _ => yields_failIf_bind
      (fun hne => absurd (value.size_eq.trans h.hasLayout.valueSize.symm) hne) fun _ => ?_
  have hnext : invalidPageId ∉ t.pageIds := fun hmem =>
    ne_invalidPageId_of_lt (h.stored.lt hmem).1 rfl
  have hsuccessor : Successor array invalidPageId (Node.leaf true 0 0 0 [] : Node layout .leaf)
      (lastLeaf invalidPageId t.leaves) := fun hne => absurd rfl hne
  have hinsert : Yields ctx (tree.insertIntoSubtree key.bytes value.bytes walkLimit t.pageId) array
      (InsertEnds array true invalidPageId invalidPageId invalidPageId t key value) :=
    yields_insertIntoSubtree hactive h.hasLayout h.stored h.nodup hnext hsuccessor h.sorted h.filled
      (Subtree.height_lt_walkLimit h.nodup)
  rw [← h.rootPageId] at hinsert
  refine hinsert.bind ?_ ?_
  · rintro _ array' (⟨_, split, habsent, hinserted⟩ | _)
    rw [habsent]
    cases hinserted with
    | whole t' hreplaced hpageId hentries hfilled =>
      have hsorted := h.sorted.put key value
      rw [← hentries] at hsorted
      refine yields_pure ⟨rfl, h.becomes_of_replaced hreplaced hpageId hentries hfilled hsorted⟩
    | split left right hreplaced hpageId hentries hleft hright =>
      have hnodup := hreplaced.nodup
      have hfresh := hreplaced.fresh
      have hchanges := hreplaced.changes.drop_invalid
      rw [List.flatMap_singleton] at hfresh hchanges
      rw [List.flatMap_cons, List.flatMap_singleton] at hnodup hfresh
      refine Yields.mono (runs_splitRoot hactive h.hasLayout hadmits hreplaced.linked hnodup
        (hpageId.trans h.rootPageId.symm)) ?_
      rintro _ array'' ⟨_, rfl, t', hsplit⟩
      have hentries' : t'.entries = put key value t.entries := hsplit.entries.trans hentries
      refine ⟨rfl, _, t', ⟨hsplit.pageId.symm, h.hasLayout, hsplit.stored, hsplit.nodup,
        hsplit.filled hleft hright, hentries' ▸ h.sorted.put key value⟩, hentries', ?_, ?_⟩
      · exact hchanges.trans hsplit.changes fun id hmem hlt => hfresh id hmem hlt
      · intro id hmem hlt
        exact hfresh id (hsplit.fresh id hmem (UInt64.lt_of_lt_of_le hlt hchanges.count)) hlt
  · rintro status array' (_ | ⟨value', hpresent⟩)
    rw [hpresent]
    exact ⟨rfl, rfl⟩

end WellFormed

end DanDB.BTree
