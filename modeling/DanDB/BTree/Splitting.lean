import DanDB.BTree.SubtreeChanges
import DanDB.BTree.SubtreeOrder

/-!
# Splitting pages

A full page is split in two.  The page on the right is new and shares its parent
with the page on the left; the caller hands it to the parent.
-/

namespace DanDB.BTree

open Buffer DanDB.Core Storage PageProgram Subtree Entries

variable {layout : Layout} {height : Nat} {isRoot : Bool} {parent previous next : PageId}
  {array array' array'' : PageArray} {spare : Nat} {ctx : PageContext spare} {tree : BTree}

/-! ## Two pages at a time -/

section Pair

variable {kind kind' : BTreePageKind} {own : List PageId} {a b : PageId}
  {left left' : Node layout kind} {right right' : Node layout kind'}

/-- Two pages that are being written; of the other pages only those in the list
may have changed. -/
structure Pair (own : List PageId) (array array' : PageArray) (a b : PageId)
    (left : Node layout kind) (right : Node layout kind') : Prop where
  changes : OnlyChanges own array array'
  left : Holds array' a left
  right : Holds array' b right

theorem Pair.runs_left (h : Pair own array array' a b left right) (hne : a ≠ b)
    (hown : a < array.header.pageCount → a ∈ own) {α : Type} {x : PageProgram α}
    (hrun : Runs ctx x array' fun _ array'' => OnlyChanges [a] array' array'' ∧ Holds array'' a left') :
    Runs ctx x array' fun _ array'' => Pair own array array'' a b left' right := by
  refine hrun.mono fun _ array'' ⟨hchange, hholds⟩ => ⟨?_, hholds, ?_⟩
  · refine h.changes.trans hchange fun pageId hmem hlt => ?_
    rw [List.mem_singleton.mp hmem] at hlt ⊢
    exact hown hlt
  · exact hchange.holds_of_ne hne.symm h.right

theorem Pair.runs_right (h : Pair own array array' a b left right) (hne : a ≠ b)
    (hown : b < array.header.pageCount → b ∈ own) {α : Type} {x : PageProgram α}
    (hrun : Runs ctx x array' fun _ array'' => OnlyChanges [b] array' array'' ∧
      Holds array'' b right') :
    Runs ctx x array' fun _ array'' => Pair own array array'' a b left right' := by
  refine hrun.mono fun _ array'' ⟨hchange, hholds⟩ => ⟨?_, ?_, hholds⟩
  · refine h.changes.trans hchange fun pageId hmem hlt => ?_
    rw [List.mem_singleton.mp hmem] at hlt ⊢
    exact hown hlt
  · exact hchange.holds_of_ne hne h.left

end Pair

theorem insertIdx_length {α : Type} (front back : List α) (a : α) :
    (front ++ back).insertIdx front.length a = front ++ a :: back := by
  induction front with
  | nil => rfl
  | cons b front ih => exact congrArg (b :: ·) ih

/-! ## Leaves -/

section Leaf

variable {pageId : PageId} {page : PageData} {key : layout.Key} {value : layout.Value}
  {front back : List (layout.Entry .leaf)}

/-- A page that was just made becomes a leaf. -/
theorem runs_initializeLeaf (hlayout : HasLayout tree layout) (hadmits : layout.Admits .leaf)
    {handle : Nat} {data : PageData} (hhandle : ctx.handles[handle]? = some (pageId, true))
    (h : Present array pageId data) :
    Runs ctx (edit handle fun _ => initializeLeaf tree.keySize tree.valueSize) array
      fun _ array' => OnlyChanges [pageId] array array' ∧ Holds array' pageId
        (Node.leaf false invalidPageId invalidPageId invalidPageId [] : Node layout .leaf) := by
  refine runs_edit_present hhandle h ?_
  rw [hlayout.keySize, hlayout.valueSize]
  exact ⟨_, Node.initializeAs_ok hadmits, Node.shows_emptyPage hadmits⟩

/-- The entries of a leaf are stored, one behind the other. -/
theorem runs_insertLeafEntries (hlayout : HasLayout tree layout) {handle : Nat}
    {entries : List (layout.Entry .leaf)} (hhandle : ctx.handles[handle]? = some (pageId, true))
    (hsorted : Sorted entries) (hfits : entries.length ≤ layout.capacity .leaf)
    (h : Holds array pageId (Node.leaf isRoot parent previous next [] : Node layout .leaf)) :
    Runs ctx (insertEntries tree.insertLeafEntry handle 0
      (entries.map (layout.entryBytes .leaf))) array fun _ array' =>
        OnlyChanges [pageId] array array' ∧
          Holds array' pageId (Node.leaf isRoot parent previous next entries) :=
  runs_insertEntries hhandle entries [] h fun _ _ _ hsplit _ hshows =>
    hshows.insertLeafEntry_ok hlayout hsorted hfits hsplit

/-- A full leaf becomes two, each with at least half of the entries. -/
theorem runs_splitLeaf {ctx : PageContext (spare + 3)} (hactive : ctx.status = .active) (hlayout : HasLayout tree layout)
    (h : Holds array pageId (Node.leaf isRoot parent previous next (front ++ back)))
    (hshows : (Node.leaf isRoot parent previous next (front ++ back)).Shows page)
    {node : Node layout .leaf} (hsuccessor : Successor array next node pageId) (hnext : next ≠ pageId)
    (hfull : (front ++ back).length = layout.capacity .leaf)
    (hsorted : Sorted (front ++ (key, value) :: back)) :
    Runs (ctx.pin pageId true) (tree.splitLeaf pageId page front.length (front ++ back).length
      key.bytes value.bytes) array fun split array' => ∃ left right rightPageId,
        front ++ (key, value) :: back = left ++ right ∧
        layout.minimum .leaf ≤ left.length ∧ layout.minimum .leaf ≤ right.length ∧
        Replaced array array' isRoot parent previous next [Subtree.leaf pageId (front ++ back)]
          [Subtree.leaf pageId left, Subtree.leaf rightPageId right] ∧
        split = some ⟨(Subtree.leaf rightPageId right).minKey.bytes, rightPageId⟩ := by
  have hcapacity : 1 ≤ layout.capacity .leaf := h.admits
  have hminimum : layout.minimum .leaf = (layout.capacity .leaf + 1) / 2 := rfl
  have hlength : (front ++ (key, value) :: back).length = layout.capacity .leaf + 1 := by
    rw [← hfull, List.length_append, List.length_append, List.length_cons, Nat.add_assoc]
  have hpos : 0 < array.header.pageCount := by
    have hlt := UInt64.lt_iff_toNat_lt.mp h.lt
    exact UInt64.lt_iff_toNat_lt.mpr (Nat.zero_lt_of_lt hlt)
  have hentries := hshows.mapM_entryAt
  generalize hall : front ++ (key, value) :: back = all at hsorted hlength
  have hinsert : ((front ++ back).map (layout.entryBytes .leaf)).insertIdx front.length
      (key.bytes ++ value.bytes) = all.map (layout.entryBytes .leaf) := by
    have hidx := insertIdx_length (front.map (layout.entryBytes .leaf))
      (back.map (layout.entryBytes .leaf)) (key.bytes ++ value.bytes)
    rw [List.length_map, ← List.map_append] at hidx
    rw [hidx, ← hall, List.map_append, List.map_cons]
    rfl
  obtain ⟨left, right, hleft, hright⟩ : ∃ left right, all.take (all.length / 2) = left ∧
      all.drop (all.length / 2) = right := ⟨_, _, rfl, rfl⟩
  have hsplit : all = left ++ right := by rw [← hleft, ← hright, List.take_append_drop]
  have hleftLength : left.length = (layout.capacity .leaf + 1) / 2 := by
    rw [← hleft, List.length_take, hlength]
    omega
  have hrightLength : right.length = layout.capacity .leaf + 1 - (layout.capacity .leaf + 1) / 2 := by
    rw [← hright, List.length_drop, hlength]
  obtain ⟨hsortedLeft, hsortedRight, -⟩ := sorted_append.mp (hsplit ▸ hsorted)
  obtain ⟨entry, rest, rfl⟩ : ∃ entry rest, right = entry :: rest :=
    List.exists_cons_of_ne_nil (List.ne_nil_of_length_pos (by omega))
  refine yields_ok_bind hentries ?_
  dsimp only
  rw [hinsert, hshows.parent_eq, hshows.next_eq, List.length_map, ← List.map_take, ← List.map_drop,
    hleft, hright]
  -- the new page, and both pages with their entries
  have hactive' : (ctx.pin pageId true).status = .active := hactive
  refine yields_withNewPage_present hactive' hpos fun array₁ hgrow hpresent => ?_
  generalize hid : array.header.pageCount = rightPageId at hpresent ⊢
  have hne : pageId ≠ rightPageId := by
    rw [← hid]
    exact UInt64.ne_of_lt h.lt
  have hown : pageId < array.header.pageCount → pageId ∈ [pageId] := fun _ => List.mem_cons_self ..
  have hnew : rightPageId < array.header.pageCount → rightPageId ∈ [pageId] := fun hlt =>
    absurd hlt (hid ▸ UInt64.lt_irrefl _)
  refine (runs_initializeLeaf hlayout h.admits rfl hpresent).bind
    fun _ array₂ ⟨hchange, hholds⟩ => ?_
  have hpair : Pair [pageId] array array₂ pageId rightPageId
      (Node.leaf isRoot parent previous next (front ++ back))
      (Node.leaf false invalidPageId invalidPageId invalidPageId []) := by
    refine ⟨(hgrow.mono (List.nil_subset _)).trans hchange fun id hmem hlt => ?_, ?_, hholds⟩
    · rw [List.mem_singleton.mp hmem] at hlt
      exact absurd hlt (hid ▸ UInt64.lt_irrefl _)
    · exact hchange.holds_of_ne hne (hgrow.holds (List.not_mem_nil) h)
  refine (runs_readWith_openAs rfl hholds).bind fun _ _ harray => ?_
  subst harray
  refine (hpair.runs_left hne hown (runs_edit_node rfl hpair.left fun _ hshows =>
    hshows.truncate_ok (List.nil_append _).symm)).bind fun _ array₃ hpair => ?_
  refine (hpair.runs_left hne hown (runs_insertLeafEntries hlayout rfl hsortedLeft (by omega)
    hpair.left)).bind fun _ array₄ hpair => ?_
  refine (hpair.runs_right hne hnew (runs_insertLeafEntries hlayout rfl hsortedRight (by omega)
    hpair.right)).bind fun _ array₅ hpair => ?_
  -- the links
  refine (hpair.runs_left hne hown (runs_update_node rfl hpair.left fun _ hshows =>
    hshows.setNext rightPageId)).bind fun _ array₆ hpair => ?_
  refine (hpair.runs_right hne hnew (runs_update_node rfl hpair.right fun _ hshows =>
    hshows.setParent parent)).bind fun _ array₇ hpair => ?_
  refine (hpair.runs_right hne hnew (runs_update_node rfl hpair.right fun _ hshows =>
    hshows.setPrevious pageId)).bind fun _ array₈ hpair => ?_
  refine (hpair.runs_right hne hnew (runs_update_node rfl hpair.right fun _ hshows =>
    hshows.setNext next)).bind fun _ array₉ hpair => ?_
  have hsuccessor' := hsuccessor.only hpair.changes (by simpa using hnext)
  refine (runs_setPreviousLeaf (show ((ctx.pin pageId true).pin rightPageId true).status = .active
    from hactive) hsuccessor' rightPageId).bind fun _ array' ⟨hchange, hbehind⟩ => runs_pure ?_
  have hnextRight : rightPageId ≠ next := by
    rintro rfl
    exact hnew (hsuccessor hpair.right.ne_invalid).lt |> List.mem_singleton.mp |> hnext
  refine ⟨left, entry :: rest, rightPageId, hsplit, by omega, by omega, ⟨?_, fun _ => rfl, ?_, ?_, ?_, ?_⟩,
    ?_⟩
  · refine linked_cons.mpr ⟨?_, linked_singleton.mpr ?_⟩
    · exact hchange.holds_of_ne hnext.symm hpair.left
    · exact hchange.holds_of_ne hnextRight hpair.right
  · exact List.nodup_cons.mpr ⟨fun hmem => hne (List.mem_singleton.mp hmem), List.nodup_singleton _⟩
  · intro id hmem hlt
    obtain rfl | hmem := List.mem_cons.mp hmem
    · exact List.mem_cons_self ..
    · rw [List.mem_singleton.mp hmem] at hlt ⊢
      exact hnew hlt
  · refine (hpair.changes.mono (List.subset_cons_self ..)).trans hchange fun id hmem _ => ?_
    rw [List.mem_singleton.mp hmem]
    exact List.mem_cons_self ..
  · intro node' hnode'
    exact hbehind node' (hnode'.only hpair.changes (by simpa using hnext))
  · have hget : (all.map (layout.entryBytes .leaf)).getD (all.length / 2) [] =
        layout.entryBytes .leaf entry := by
      have hmiddle : all.length / 2 = left.length := by omega
      rw [hmiddle, hsplit]
      simp
    rw [hget, hlayout.keySize, Layout.entryBytes, slice_append_left (by rw [entry.1.size_eq, Nat.zero_add]),
      slice_eq_self entry.1.size_eq]
    rfl

end Leaf

/-! ## Internal nodes -/

section Internal

variable {pageId rightPageId : PageId} {page : PageData}
  {before left right front back : List (Subtree layout height)}

theorem Subtree.minKey_internal {t : Subtree layout height} {ts : List (Subtree layout height)}
    (h : t :: ts ≠ []) (hne : t.entries ≠ []) : (internal pageId (t :: ts) h).minKey = t.minKey := by
  obtain ⟨entry, rest, hentries⟩ := List.exists_cons_of_ne_nil hne
  rw [minKey_eq hentries, minKey_eq]
  rw [entries_internal, List.flatMap_cons, hentries, List.cons_append]

/-- The least keys of subtrees side by side increase. -/
theorem sorted_branches {ts : List (Subtree layout height)} (hsorted : Sorted (ts.flatMap entries))
    (hne : ∀ t ∈ ts, t.entries ≠ []) : Sorted (ts.map branch) := by
  induction ts with
  | nil => exact List.Pairwise.nil
  | cons t ts ih =>
    obtain ⟨-, hnes⟩ := List.forall_mem_cons.mp hne
    obtain ⟨-, hsorted', -⟩ := sorted_append.mp hsorted
    refine sorted_cons.mpr ⟨fun b hb => ?_, ih hsorted' hnes⟩
    obtain ⟨child, hmem, rfl⟩ := List.mem_map.mp hb
    exact @minKey_lt_minKey _ _ [t] ts hsorted hne t child (List.mem_singleton.mpr rfl) hmem

/-- The branches of an internal page are stored, one behind the other. -/
theorem runs_insertInternalEntries {handle : Nat} {first : Node.Branch layout}
    {branches : List (Node.Branch layout)} (hhandle : ctx.handles[handle]? = some (pageId, true))
    (hsorted : Sorted branches) (hfits : branches.length ≤ layout.capacity .internal)
    (h : Holds array pageId (Node.internal isRoot parent [first])) :
    Runs ctx (insertEntries insertInternalEntry handle 0
      (branches.map fun branch => (branch.1.bytes, branch.2))) array fun _ array' =>
        OnlyChanges [pageId] array array' ∧
          Holds array' pageId (Node.internal isRoot parent (first :: branches)) := by
  refine @runs_insertEntries _ _ _ _ _ _ _ _ _ insertInternalEntry
    (fun front => Node.internal isRoot parent (first :: front)) _ hhandle branches [] h ?_
  intro front branch back hsplit data hshows
  rw [List.nil_append] at hsplit
  subst hsplit
  rw [List.length_append, List.length_cons] at hfits
  obtain ⟨-, -, hlt⟩ := sorted_append.mp hsorted
  refine hshows.appendEntry_ok branch.2
    (fun b hb => (hlt b hb branch (List.mem_cons_self ..)).le) ?_
  show front.length < layout.capacity .internal
  omega

/-- The children of a node have changed, and the node has been split between them. -/
theorem Replaced.split {hbefore : before ≠ []} {hleft : left ≠ []} {hright : right ≠ []}
    (h : Replaced array array' false pageId previous next before (left ++ right))
    (hpage : OnlyChanges (pageId :: right.map Subtree.pageId) array' array'')
    (hholds : Holds array'' pageId (Node.internal isRoot parent (left.map branch)))
    (hholds' : Holds array'' rightPageId (Node.internal false parent (right.map branch)))
    (hlinked : Linked array'' false rightPageId (lastLeaf previous (left.flatMap leaves)) next right)
    (hself : pageId ∉ before.flatMap pageIds) (hlt : pageId < array.header.pageCount)
    (hnew : ¬rightPageId < array'.header.pageCount) (hnext : next ≠ pageId)
    (hnextRight : next ∉ (left ++ right).flatMap pageIds) :
    Replaced array array'' isRoot parent previous next [Subtree.internal pageId before hbefore]
      [Subtree.internal pageId left hleft, Subtree.internal rightPageId right hright] := by
  have hafter : pageId ∉ (left ++ right).flatMap pageIds := fun hmem =>
    hself (h.fresh pageId hmem hlt)
  have hafter' : rightPageId ∉ (left ++ right).flatMap pageIds := fun hmem =>
    hnew (h.linked.lt hmem).1
  have hne : pageId ≠ rightPageId := by
    rintro rfl
    exact hnew (UInt64.lt_of_lt_of_le hlt h.changes.count)
  have hnodup := h.nodup
  rw [List.flatMap_append] at hafter hafter' hnodup hnextRight
  obtain ⟨hnodupLeft, hnodupRight, hdisjoint⟩ := List.nodup_append.mp hnodup
  have hmap {id : PageId} (hmem : id ∈ right.map Subtree.pageId) : id ∈ right.flatMap pageIds := by
    obtain ⟨child, hchild, rfl⟩ := List.mem_map.mp hmem
    exact List.mem_flatMap.mpr ⟨child, hchild, child.pageId_mem⟩
  have hlinkedLeft := (linked_append.mp h.linked).1
  refine ⟨?_, fun next' => ?_, ?_, ?_, ?_, ?_⟩
  · refine linked_cons.mpr ⟨stored_internal.mpr ⟨hholds, ?_⟩, linked_singleton.mpr
      (stored_internal.mpr ⟨hholds', hlinked⟩)⟩
    simp only [List.flatMap_cons, List.flatMap_nil, List.append_nil, leaves_internal]
    refine hlinkedLeft.only hpage fun id hmem hown => ?_
    obtain rfl | hown := List.mem_cons.mp hown
    · exact hafter (List.mem_append_left _ hmem)
    · exact hdisjoint _ hmem _ (hmap hown) rfl
  · have hfirst := h.firstLeaf next'
    simp only [List.flatMap_cons, List.flatMap_nil, List.append_nil, leaves_internal]
    rwa [List.flatMap_append] at hfirst
  · simp only [List.flatMap_cons, List.flatMap_nil, List.append_nil, pageIds_internal]
    refine List.nodup_cons.mpr ⟨fun hmem => ?_, List.nodup_append.mpr ⟨hnodupLeft,
      List.nodup_cons.mpr ⟨fun hmem => hafter' (List.mem_append_right _ hmem), hnodupRight⟩, ?_⟩⟩
    · obtain hmem | hmem := List.mem_append.mp hmem
      · exact hafter (List.mem_append_left _ hmem)
      · exact (List.mem_cons.mp hmem).elim hne fun hmem => hafter (List.mem_append_right _ hmem)
    · rintro id hmem _ hmem' rfl
      obtain rfl | hmem' := List.mem_cons.mp hmem'
      · exact hafter' (List.mem_append_left _ hmem)
      · exact hdisjoint _ hmem _ hmem' rfl
  · simp only [List.flatMap_cons, List.flatMap_nil, List.append_nil, pageIds_internal]
    intro id hmem hid
    obtain rfl | hmem := List.mem_cons.mp hmem
    · exact List.mem_cons_self ..
    · refine List.mem_cons_of_mem _ (h.fresh id ?_ hid)
      rw [List.flatMap_append]
      obtain hmem | hmem := List.mem_append.mp hmem
      · exact List.mem_append_left _ hmem
      · obtain rfl | hmem := List.mem_cons.mp hmem
        · exact absurd (UInt64.lt_of_lt_of_le hid h.changes.count) hnew
        · exact List.mem_append_right _ hmem
  · simp only [List.flatMap_cons, List.flatMap_nil, List.append_nil, pageIds_internal]
    refine (h.changes.mono ?_).trans hpage fun id hmem hid => ?_
    · exact List.cons_subset_cons _ (List.subset_cons_self ..)
    · obtain rfl | hmem := List.mem_cons.mp hmem
      · exact List.mem_cons_of_mem _ (List.mem_cons_self ..)
      · refine List.mem_cons_of_mem _ (List.mem_cons_of_mem _ (h.fresh id ?_ hid))
        rw [List.flatMap_append]
        exact List.mem_append_right _ (hmap hmem)
  · intro node hnode
    simp only [List.flatMap_cons, List.flatMap_nil, List.append_nil, leaves_internal] at hnode ⊢
    rw [← List.flatMap_append]
    refine (h.successor node hnode).only hpage fun hmem => ?_
    obtain rfl | hmem := List.mem_cons.mp hmem
    · exact hnext rfl
    · exact hnextRight (List.mem_append_right _ (hmap hmem))

/-- The position of a new branch behind the one that it was split from. -/
theorem findInsertionPosition_child {left right : Subtree layout height}
    (hshows : (Node.internal isRoot parent ((front ++ left :: back).map branch)).Shows page)
    (hsorted : Sorted ((front ++ left :: right :: back).map branch)) :
    BTreeInternalPage.findInsertionPosition page right.minKey.bytes = .ok front.length := by
  rw [List.map_append, List.map_cons] at hshows
  rw [List.map_append, List.map_cons, List.map_cons] at hsorted
  obtain ⟨-, hright, hcross⟩ := sorted_append.mp hsorted
  obtain ⟨hleft, hright⟩ := sorted_cons.mp hright
  have hfront : ∀ b ∈ (front.map branch ++ [left.branch]).tail, b.1 < right.minKey := by
    intro b hb
    obtain hb | hb := List.mem_append.mp (List.mem_of_mem_tail hb)
    · exact hcross b hb right.branch (List.mem_cons_of_mem _ (List.mem_cons_self ..))
    · rw [List.mem_singleton.mp hb]
      exact hleft right.branch (List.mem_cons_self ..)
  have hposition := hshows.findInsertionPosition_branches hfront
    fun b hb => ((sorted_cons.mp hright).1 b hb).le
  rwa [List.length_map] at hposition

/-- The entries of an internal page with one more branch, as `splitInternal` collects them. -/
theorem insertIdx_entries {left right : Subtree layout height}
    (h : (Node.internal isRoot parent ((front ++ left :: back).map branch)).Shows page) :
    ∃ oldEntries, (List.range (BTreePage.keyCount page)).mapM (internalEntryAt page) = .ok oldEntries ∧
      oldEntries.insertIdx front.length (right.minKey.bytes, right.pageId) =
        ((front ++ left :: right :: back).tail.map branch).map fun b => (b.1.bytes, b.2) := by
  obtain ⟨first, rest, hall⟩ : ∃ first rest, front ++ left :: back = first :: rest :=
    List.exists_cons_of_ne_nil (List.append_ne_nil_of_right_ne_nil _ (List.cons_ne_nil _ _))
  have hrest : rest = (front ++ [left]).tail ++ back := by
    rw [← tail_append_cons, hall, List.tail_cons]
  rw [hall, List.map_cons] at h
  refine ⟨_, h.mapM_internalEntryAt, ?_⟩
  rw [tail_append_cons front (right :: back) left, hrest]
  simp only [List.map_append, List.map_cons]
  have hidx := insertIdx_length
    (((front ++ [left]).tail.map branch).map fun b => (b.1.bytes, b.2))
    ((back.map branch).map fun b => (b.1.bytes, b.2)) (right.minKey.bytes, right.pageId)
  rwa [List.length_map, List.length_map, length_tail_concat] at hidx

/-- A new page becomes an internal page with one child. -/
theorem runs_initializeInternal (hlayout : HasLayout tree layout) (hadmits : layout.Admits .internal)
    {handle : Nat} {data : PageData} (hhandle : ctx.handles[handle]? = some (pageId, true))
    (h : Present array pageId data) :
    Runs ctx (edit handle fun _ => initializeInternal tree.keySize tree.valueSize) array
      fun _ array' => OnlyChanges [pageId] array array' ∧
        Holds array' pageId (Node.fresh layout .internal) := by
  refine runs_edit_present hhandle h ?_
  rw [hlayout.keySize, hlayout.valueSize]
  exact ⟨_, Node.initializeAs_ok hadmits, Node.shows_emptyPage hadmits⟩

/-- A full internal page becomes two, when one of its children has become two. -/
theorem runs_splitInternal {ctx : PageContext (spare + 3)} (hactive : ctx.status = .active) (hlayout : HasLayout tree layout)
    {leftChild rightChild : Subtree layout height} (hbefore : before ≠ [])
    (h : Replaced array array' false pageId previous next before
      (front ++ leftChild :: rightChild :: back))
    (hholds : Holds array' pageId
      (Node.internal isRoot parent ((front ++ leftChild :: back).map branch)))
    (hshows : (Node.internal isRoot parent ((front ++ leftChild :: back).map branch)).Shows page)
    (hself : pageId ∉ before.flatMap pageIds) (hlt : pageId < array.header.pageCount)
    (hnext : next ≠ pageId)
    (hnextAfter : next ∉ (front ++ leftChild :: rightChild :: back).flatMap pageIds)
    (hfull : front.length + back.length = layout.capacity .internal)
    (hsorted : Sorted ((front ++ leftChild :: rightChild :: back).flatMap entries))
    (hne : ∀ t ∈ front ++ leftChild :: rightChild :: back, t.entries ≠ []) :
    Runs (ctx.pin pageId true)
      (tree.splitInternal page ⟨rightChild.minKey.bytes, rightChild.pageId⟩) array'
      fun split array'' => ∃ (left right : List (Subtree layout height)) (rightPageId : PageId)
        (hleft : left ≠ []) (hright : right ≠ []),
        front ++ leftChild :: rightChild :: back = left ++ right ∧
        layout.minimum .internal + 1 ≤ left.length ∧ layout.minimum .internal + 1 ≤ right.length ∧
        Replaced array array'' isRoot parent previous next [Subtree.internal pageId before hbefore]
          [Subtree.internal pageId left hleft, Subtree.internal rightPageId right hright] ∧
        split = some ⟨(Subtree.internal rightPageId right hright).minKey.bytes, rightPageId⟩ := by
  have hcapacity : 2 ≤ layout.capacity .internal := hholds.admits
  have hminimum : layout.minimum .internal = layout.capacity .internal / 2 := rfl
  have hpos : 0 < array'.header.pageCount := by
    have hlt := UInt64.lt_iff_toNat_lt.mp hholds.lt
    exact UInt64.lt_iff_toNat_lt.mpr (Nat.zero_lt_of_lt hlt)
  have hbranches := sorted_branches hsorted hne
  have hposition := findInsertionPosition_child hshows hbranches
  obtain ⟨oldEntries, hentries, hinsert⟩ := @insertIdx_entries _ _ _ _ _ _ _ _ rightChild hshows
  obtain ⟨first, rest, hall⟩ : ∃ first rest, front ++ leftChild :: rightChild :: back = first :: rest :=
    List.exists_cons_of_ne_nil (List.append_ne_nil_of_right_ne_nil _ (List.cons_ne_nil _ _))
  have hlength : rest.length = layout.capacity .internal + 1 := by
    have hlength := congrArg List.length hall
    rw [List.length_append, List.length_cons, List.length_cons, List.length_cons] at hlength
    omega
  rw [hall] at h hsorted hne hbranches hinsert hnextAfter ⊢
  -- the middle entry is promoted
  obtain ⟨leftRest, promoted, rightRest, hleft, hright, hrest⟩ : ∃ leftRest promoted rightRest,
      rest.take (rest.length / 2) = leftRest ∧ rest.drop (rest.length / 2) = promoted :: rightRest ∧
        rest = leftRest ++ promoted :: rightRest := by
    have hdrop : rest.drop (rest.length / 2) ≠ [] := by
      refine List.ne_nil_of_length_pos ?_
      rw [List.length_drop]
      omega
    obtain ⟨promoted, rightRest, hdrop⟩ := List.exists_cons_of_ne_nil hdrop
    exact ⟨_, promoted, rightRest, rfl, hdrop, by rw [← hdrop, List.take_append_drop]⟩
  have hleftLength : leftRest.length = rest.length / 2 := by
    rw [← hleft, List.length_take]
    omega
  have hrightLength : rightRest.length + 1 = rest.length - rest.length / 2 := by
    rw [← List.length_drop, hright, List.length_cons]
  have hget : ((rest.map branch).map fun b => (b.1.bytes, b.2)).getD (rest.length / 2)
      ([], invalidPageId) = (promoted.minKey.bytes, promoted.pageId) := by
    rw [hrest, ← hrest, ← hleftLength, hrest]
    simp [branch]
  have hdrop : rest.drop (rest.length / 2 + 1) = rightRest := by
    rw [← List.tail_drop, hright, List.tail_cons]
  obtain ⟨rest', hfirst⟩ : ∃ rest', front ++ leftChild :: back = first :: rest' := by
    cases front with
    | nil =>
      obtain ⟨rfl, -⟩ := List.cons.inj hall
      exact ⟨back, rfl⟩
    | cons child front =>
      obtain ⟨rfl, -⟩ := List.cons.inj hall
      exact ⟨front ++ leftChild :: back, rfl⟩
  rw [hfirst, List.map_cons] at hholds
  refine yields_ok_bind hposition (yields_ok_bind hentries ?_)
  dsimp only
  rw [hinsert, hshows.parent_eq, List.tail_cons, List.length_map, List.length_map, hget,
    ← List.map_take, ← List.map_take, ← List.map_drop, ← List.map_drop, hleft, hdrop]
  obtain ⟨-, hbranches⟩ := sorted_cons.mp hbranches
  rw [hrest, List.map_append, List.map_cons] at hbranches
  obtain ⟨hsortedLeft, hsortedRight, -⟩ := sorted_append.mp hbranches
  obtain ⟨-, hsortedRight⟩ := sorted_cons.mp hsortedRight
  -- the new page, and both pages with their entries
  have hactive' : (ctx.pin pageId true).status = .active := hactive
  refine yields_withNewPage_present hactive' hpos fun array₁ hgrow hpresent => ?_
  generalize hid : array'.header.pageCount = rightPageId at hpresent ⊢
  have hnew : ¬rightPageId < array'.header.pageCount := hid ▸ UInt64.lt_irrefl _
  have hneRight : pageId ≠ rightPageId := by
    rw [← hid]
    exact UInt64.ne_of_lt hholds.lt
  have hown : pageId < array'.header.pageCount → pageId ∈ [pageId] := fun _ => List.mem_cons_self ..
  have hnew' : rightPageId < array'.header.pageCount → rightPageId ∈ [pageId] := fun hlt =>
    absurd hlt hnew
  refine (runs_initializeInternal hlayout hholds.admits rfl hpresent).bind
    fun _ array₂ ⟨hchange, hfresh⟩ => ?_
  have hpair : Pair [pageId] array' array₂ pageId rightPageId
      (Node.internal isRoot parent (first.branch :: rest'.map branch))
      (Node.fresh layout .internal) := by
    refine ⟨(hgrow.mono (List.nil_subset _)).trans hchange fun id hmem hlt => ?_, ?_, hfresh⟩
    · rw [List.mem_singleton.mp hmem] at hlt
      exact absurd hlt hnew
    · exact hchange.holds_of_ne hneRight (hgrow.holds (List.not_mem_nil) hholds)
  refine (runs_readWith_openAs rfl hfresh).bind fun _ _ harray => ?_
  subst harray
  refine (hpair.runs_left hneRight hown (runs_edit_node rfl hpair.left fun _ hshows =>
    hshows.clear_branches)).bind fun _ array₃ hpair => ?_
  refine (hpair.runs_left hneRight hown (runs_insertInternalEntries rfl hsortedLeft
    (by rw [List.length_map]; omega) hpair.left)).bind fun _ array₄ hpair => ?_
  refine (hpair.runs_right hneRight hnew' (runs_update_node rfl hpair.right fun _ hshows =>
    hshows.setParent parent)).bind fun _ array₅ hpair => ?_
  have hfirstChild : Runs ((ctx.pin pageId true).pin rightPageId true)
      (update 0 (BTreePage.setFirstChildPageId · promoted.pageId)) array₅ fun _ array₆ =>
        OnlyChanges [rightPageId] array₅ array₆ ∧
          Holds array₆ rightPageId (Node.internal false parent [promoted.branch]) :=
    runs_update_node rfl hpair.right fun _ hshows => hshows.setFirstChild promoted.pageId
  refine (hpair.runs_right hneRight hnew' hfirstChild).bind fun _ array₆ hpair => ?_
  refine (hpair.runs_right hneRight hnew' (runs_insertInternalEntries rfl hsortedRight
    (by rw [List.length_map]; omega) hpair.right)).bind fun _ array₇ hpair => ?_
  -- the children on the right get the new page as their parent
  have hids : ((rightRest.map branch).map fun b => (b.1.bytes, b.2)).map Prod.snd =
      rightRest.map Subtree.pageId := by
    rw [List.map_map, List.map_map]
    rfl
  have hsplit : first :: rest = (first :: leftRest) ++ (promoted :: rightRest) := by
    rw [hrest, List.cons_append]
  rw [hsplit] at h hnextAfter ⊢
  have hselfAfter : pageId ∉ ((first :: leftRest) ++ (promoted :: rightRest)).flatMap pageIds :=
    fun hmem => hself (h.fresh pageId hmem hlt)
  have hlinked := (linked_append.mp h.linked).2.only hpair.changes fun id hmem hown => by
    rw [List.mem_singleton.mp hown] at hmem
    rw [List.flatMap_append] at hselfAfter
    exact hselfAfter (List.mem_append_right _ hmem)
  have hnodup := h.nodup
  rw [List.flatMap_append] at hnodup
  obtain ⟨-, hnodupRight, -⟩ := List.nodup_append.mp hnodup
  rw [hids, ← Program.bind_assoc, ← Program.forEach_cons]
  refine (runs_setParents (show ((ctx.pin pageId true).pin rightPageId true).status = .active
    from hactive) rightPageId hlinked hnodupRight).bind
      fun _ array'' ⟨hchange', hlinked'⟩ => runs_pure ?_
  have hmap {id : PageId} (hmem : id ∈ (promoted :: rightRest).map Subtree.pageId) :
      id ∈ ((first :: leftRest) ++ (promoted :: rightRest)).flatMap pageIds := by
    obtain ⟨child, hchild, rfl⟩ := List.mem_map.mp hmem
    exact List.mem_flatMap.mpr ⟨child, List.mem_append_right _ hchild, child.pageId_mem⟩
  have hpages : OnlyChanges (pageId :: (promoted :: rightRest).map Subtree.pageId) array' array'' :=
    (hpair.changes.mono (List.cons_subset_cons _ (List.nil_subset _))).trans hchange'
      fun id hmem _ => List.mem_cons_of_mem _ hmem
  have hleftHolds : Holds array'' pageId
      (Node.internal isRoot parent ((first :: leftRest).map branch)) :=
    hchange'.holds (fun hmem => hselfAfter (hmap hmem)) hpair.left
  have hrightHolds : Holds array'' rightPageId
      (Node.internal false parent ((promoted :: rightRest).map branch)) :=
    hchange'.holds (fun hmem => hnew (h.linked.lt (hmap hmem)).1) hpair.right
  refine ⟨first :: leftRest, promoted :: rightRest, rightPageId, List.cons_ne_nil _ _,
    List.cons_ne_nil _ _, rfl, ?_, ?_, h.split hpages hleftHolds hrightHolds hlinked' hself hlt hnew
      hnext hnextAfter, ?_⟩
  · rw [List.length_cons]
    omega
  · rw [List.length_cons]
    omega
  · rw [minKey_internal _ (hne promoted (hsplit ▸ List.mem_append_right _ (List.mem_cons_self ..)))]

end Internal

end DanDB.BTree
