import DanDB.BTree.Lending

/-!
# Borrowing

A child that has become too small gets an entry or a child of its sibling, if that one
has more than it needs.
-/

namespace DanDB.BTree

open Buffer DanDB.Core Storage PageProgram Subtree Entries

variable {layout : Layout} {height : Nat} {isRoot : Bool} {parent previous next pageId : PageId}
  {array array' : PageArray} {spare : Nat} {ctx : PageContext (spare + 3)} {tree : BTree} {separator : layout.Key}
  {child left right : Subtree layout height} {ts before after front back : List (Subtree layout height)}

/-! ## The children of a page -/

/-- The children of a page between the leaves around them. -/
structure Siblings (array : PageArray) (pageId previous next : PageId)
    (ts : List (Subtree layout height)) : Prop where
  linked : Linked array false pageId previous next ts
  nodup : (ts.flatMap pageIds).Nodup
  self_not_mem : pageId ∉ ts.flatMap pageIds
  next_not_mem : next ∉ ts.flatMap pageIds
  next_ne : next ≠ pageId
  successor : ∃ node : Node layout .leaf,
    Successor array next node (lastLeaf previous (ts.flatMap leaves))

/-- A stretch of the children, and what becomes of all of them with it. -/
theorem Siblings.stretch {middle : List (Subtree layout height)}
    (h : Siblings array pageId previous next (front ++ middle ++ back)) :
    Siblings array pageId (lastLeaf previous (front.flatMap leaves))
        (firstLeaf (back.flatMap leaves) next) middle ∧
      ∀ array' after, Replaced array array' false pageId (lastLeaf previous (front.flatMap leaves))
          (firstLeaf (back.flatMap leaves) next) middle after →
        Replaced array array' false pageId previous next (front ++ middle ++ back)
          (front ++ after ++ back) := by
  obtain ⟨node, hsuccessor⟩ := h.successor
  obtain ⟨hlinked, hnodup, hnext, hsuccessor', hlift⟩ :=
    h.linked.stretch h.nodup h.next_not_mem hsuccessor
  obtain ⟨hself', hself⟩ := not_or.mp (mt List.mem_cons.mpr
    (not_mem_stretch h.self_not_mem h.next_ne))
  exact ⟨⟨hlinked, hnodup, hself, hnext, Ne.symm hself', hsuccessor'⟩, hlift⟩

/-- A page after a key below its child was erased: the child may be too small, and the
key in front of it may be an old one. -/
structure Thinned (array : PageArray) (isRoot : Bool) (parent previous next pageId : PageId)
    (front : List (Subtree layout height)) (separator : layout.Key) (child : Subtree layout height)
    (back : List (Subtree layout height)) : Prop where
  siblings : Siblings array pageId previous next (front ++ child :: back)
  page : Holds array pageId (Node.internal isRoot parent
    (front.map branch ++ (separator, child.pageId) :: back.map branch))
  sorted : Sorted ((front ++ child :: back).flatMap entries)
  filled : ∀ c ∈ front ++ back, c.Filled false
  thin : child.Thin false

/-- The page and its children are in order. -/
structure Mended (array array' : PageArray) (isRoot : Bool) (parent previous next pageId : PageId)
    (before after : List (Subtree layout height)) : Prop where
  reshaped : Reshaped array array' pageId previous next before after
  page : Holds array' pageId (Node.internal isRoot parent (after.map branch))
  entries : after.flatMap entries = before.flatMap entries
  filled : ∀ c ∈ after, c.Filled false
  length : before.length ≤ after.length + 1

theorem sorted_stretch {middle : List (Subtree layout height)}
    (h : Sorted ((front ++ middle ++ back).flatMap entries)) : Sorted (middle.flatMap entries) := by
  obtain ⟨hleft, -, -⟩ := sorted_flatMap_append h
  exact (sorted_flatMap_append hleft).2.1

/-- Subtrees in the place of others with the same pages, or some of them. -/
theorem replaced_of_subperm (hlinked : Linked array' false parent previous next after)
    (hfirst : ∀ next, firstLeaf (after.flatMap leaves) next = firstLeaf (before.flatMap leaves) next)
    (hsubperm : (after.flatMap pageIds).Subperm (before.flatMap pageIds))
    (hnodup : (before.flatMap pageIds).Nodup)
    (hchange : OnlyChanges (next :: before.flatMap pageIds) array array')
    (hsuccessor : ∀ node : Node layout .leaf,
      Successor array next node (lastLeaf previous (before.flatMap leaves)) →
        Successor array' next node (lastLeaf previous (after.flatMap leaves))) :
    Replaced array array' false parent previous next before after := by
  obtain ⟨ids, hperm, hsublist⟩ := hsubperm
  exact ⟨hlinked, hfirst, hperm.nodup_iff.mp (hnodup.sublist hsublist),
    fun _ hmem _ => hsublist.subset (hperm.symm.subset hmem), hchange, hsuccessor⟩

/-- Subtrees with the same pages and leaves in the place of others. -/
theorem replaced_of_perm (hlinked : Linked array' false parent previous next after)
    (hleaves : (after.flatMap leaves).map Prod.fst = (before.flatMap leaves).map Prod.fst)
    (hperm : (after.flatMap pageIds).Perm (before.flatMap pageIds))
    (hnodup : (before.flatMap pageIds).Nodup)
    (hchange : OnlyChanges (before.flatMap pageIds) array array')
    (hnext : next ∉ before.flatMap pageIds) :
    Replaced array array' false parent previous next before after := by
  refine replaced_of_subperm hlinked (fun next' => ?_) hperm.subperm hnodup
    (hchange.mono (List.subset_cons_self ..)) fun node hnode => ?_
  · rw [firstLeaf, firstLeaf, hleaves]
  · have hlast : lastLeaf previous (after.flatMap leaves) =
        lastLeaf previous (before.flatMap leaves) := by
      rw [lastLeaf, lastLeaf, hleaves]
    rw [hlast]
    exact hnode.only hchange hnext

/-- The children have been reshaped, and then the page above has got their keys. -/
theorem Siblings.mended (h : Siblings array pageId previous next before)
    (hlt : pageId < array.header.pageCount) {array₁ : PageArray}
    (hreplaced : Replaced array array₁ false pageId previous next before after)
    (hchange : OnlyChanges [pageId] array₁ array')
    (hpage : Holds array' pageId (Node.internal isRoot parent (after.map branch)))
    (hentries : after.flatMap entries = before.flatMap entries)
    (hfilled : ∀ c ∈ after, c.Filled false) (hlength : before.length ≤ after.length + 1) :
    Mended array array' isRoot parent previous next pageId before after :=
  ⟨hreplaced.reshaped.changePage hchange h.self_not_mem hlt h.next_ne, hpage, hentries, hfilled,
    hlength⟩

/-! ## Leaves -/

theorem Subtree.exists_leaf (t : Subtree layout 0) :
    ∃ pageId entries, t = Subtree.leaf pageId entries := ⟨_, _, rfl⟩

theorem Subtree.pageId_leaf (pageId : PageId) (entries : List (layout.Entry .leaf)) :
    (Subtree.leaf pageId entries).pageId = pageId := rfl

theorem Subtree.hasEntries_leaf {entries : List (layout.Entry .leaf)} (h : entries ≠ []) :
    (Subtree.leaf pageId entries).HasEntries := by
  intro l hl
  rw [List.mem_singleton.mp hl]
  exact h

theorem Subtree.minKey_leaf_append (pageId : PageId) (es : List (layout.Entry .leaf))
    (hne : es ≠ []) (fs : List (layout.Entry .leaf)) :
    (Subtree.leaf pageId (es ++ fs)).minKey = (Subtree.leaf pageId es).minKey := by
  obtain ⟨entry, rest, rfl⟩ := List.exists_cons_of_ne_nil hne
  rfl

/-- Two leaves side by side with other entries. -/
theorem replaced_leaves {a b : PageId} {es fs es' fs' : List (layout.Entry .leaf)}
    (h : Siblings array pageId previous next [Subtree.leaf a es, Subtree.leaf b fs])
    (hchange : OnlyChanges [a, b] array array')
    (ha : Holds array' a (Node.leaf false pageId previous b es'))
    (hb : Holds array' b (Node.leaf false pageId a next fs')) :
    Replaced array array' false pageId previous next [Subtree.leaf a es, Subtree.leaf b fs]
      [Subtree.leaf a es', Subtree.leaf b fs'] :=
  replaced_of_perm (linked_cons.mpr ⟨ha, linked_singleton.mpr hb⟩) rfl (.refl _) h.nodup hchange
    h.next_not_mem

theorem runs_borrowFromLeftLeaf (hactive : ctx.status = .active) (hlayout : HasLayout tree layout)
    {left child : Subtree layout 0} {front back : List (Subtree layout 0)}
    (h : Thinned array isRoot parent previous next pageId (front ++ [left]) separator child back)
    (hunderfull : ¬child.Filled false) (rightSiblingPageId : PageId) :
    Runs ctx (tree.borrowFromLeftLeaf pageId (front ++ [left]).length
      ⟨child.pageId, left.pageId, rightSiblingPageId⟩) array fun borrowed array' =>
        (borrowed = true ∧ ∃ after, Mended array array' isRoot parent previous next pageId
          (front ++ [left] ++ child :: back) after) ∨
        borrowed = false ∧ array' = array ∧ left.entries.length ≤ layout.minimum .leaf := by
  obtain ⟨hsiblings, hpage, hsorted, hfilled, hthin⟩ := h
  obtain ⟨leftPageId, es, rfl⟩ := exists_leaf left
  obtain ⟨childPageId, fs, rfl⟩ := exists_leaf child
  have hconcat (left child : Subtree layout 0) :
      front ++ [left] ++ child :: back = front ++ [left, child] ++ back := by simp
  rw [hconcat] at hsiblings hsorted ⊢
  obtain ⟨hpair, hlift⟩ := hsiblings.stretch
  obtain ⟨hleft, hchild⟩ := linked_cons.mp hpair.linked
  replace hleft : Holds array leftPageId (Node.leaf false pageId _ childPageId es) := hleft
  replace hchild : Holds array childPageId (Node.leaf false pageId leftPageId _ fs) :=
    linked_singleton.mp hchild
  have hcapacity : 1 ≤ layout.capacity .leaf := hleft.admits
  have hminimum : layout.minimum .leaf = (layout.capacity .leaf + 1) / 2 := rfl
  have hfew : fs.length < layout.minimum .leaf :=
    Nat.not_le.mp (not_or.mp (show ¬(false = true ∨ layout.minimum .leaf ≤ fs.length) from hunderfull)).2
  have hmany : layout.minimum .leaf ≤ fs.length + 1 := hthin.resolve_left nofun
  dsimp only [pageId_leaf]
  rw [borrowFromLeftLeaf, if_neg hleft.ne_invalid]
  rcases Nat.lt_or_ge (layout.minimum .leaf) es.length with hmore | hless
  · -- the left sibling lends its last entry
    obtain ⟨es, entry, rfl⟩ := (List.eq_nil_or_concat es).resolve_left
      (List.ne_nil_of_length_pos (by omega))
    rw [List.concat_eq_append] at *
    have hes : es ≠ [] := by
      rw [List.length_append, List.length_singleton] at hmore
      exact List.ne_nil_of_length_pos (by omega)
    have hpairSorted : Sorted (es ++ entry :: fs) := by
      have hpairSorted := sorted_stretch hsorted
      rw [List.flatMap_cons, List.flatMap_singleton, entries_leaf, entries_leaf, List.append_assoc,
        List.singleton_append] at hpairSorted
      exact hpairSorted
    obtain ⟨-, hchildSorted, -⟩ := sorted_append.mp hpairSorted
    refine (runs_leafEntryToLend hleft (by simp) hmore).bind fun borrowed array ⟨hborrowed, harray⟩ => ?_
    subst hborrowed harray
    have hne : leftPageId ≠ childPageId := fun heq =>
      (List.nodup_cons.mp hpair.nodup).1 (List.mem_singleton.mpr heq)
    have hadd : Runs ctx (tree.addLeafEntry childPageId (fun _ => 0) (layout.entryBytes .leaf entry))
        array fun _ array' => OnlyChanges [childPageId] array array' ∧ Holds array' childPageId
          (Node.leaf false pageId leftPageId (firstLeaf (back.flatMap leaves) next) (entry :: fs)) :=
      @runs_addLeafEntry _ _ _ _ _ _ _ _ _ _ [] fs entry _ hactive hlayout hchild rfl hchildSorted
        (show fs.length < _ by omega)
    refine hadd.bind fun _ array₁ ⟨hchange₁, hchild₁⟩ => ?_
    refine (runs_eraseLeafEntry hactive (hchange₁.holds_of_ne hne hleft)).bind
      fun _ array₂ ⟨hchange₂, hleft₂⟩ => ?_
    rw [List.append_nil] at hleft₂
    have hchild₂ := hchange₂.holds_of_ne hne.symm hchild₁
    have hchange : OnlyChanges [leftPageId, childPageId] array array₂ :=
      (hchange₁.mono (by simp)).trans hchange₂ fun id hmem _ => by
        rw [List.mem_singleton.mp hmem]
        exact List.mem_cons_self ..
    have hreplaced := hlift array₂ _ (replaced_leaves hpair hchange hleft₂ hchild₂)
    have hbranch : (Subtree.leaf leftPageId (es ++ [entry])).branch =
        (Subtree.leaf leftPageId es).branch :=
      Prod.ext (minKey_leaf_append leftPageId es hes [entry]) rfl
    have hpage₂ : Holds array₂ pageId (Node.internal isRoot parent
        (front.map branch ++ [(Subtree.leaf leftPageId es).branch] ++
          (separator, (Subtree.leaf childPageId (entry :: fs)).pageId) :: back.map branch)) := by
      have hpage₂ := hchange.holds hpair.self_not_mem hpage
      rwa [List.map_append, List.map_singleton, hbranch] at hpage₂
    -- the key in front of the child is the one that was lent
    have hstored : Stored array₂ false pageId leftPageId (firstLeaf (back.flatMap leaves) next)
        (Subtree.leaf childPageId (entry :: fs)) := hchild₂
    have hrefresh := runs_refreshChildSeparator hactive hpage₂ hstored
      (hasEntries_leaf (List.cons_ne_nil _ _)) (List.nodup_singleton _)
    rw [show (front.map branch ++ [(Subtree.leaf leftPageId es).branch]).length =
      (front ++ [Subtree.leaf leftPageId (es ++ [entry])]).length by simp] at hrefresh
    refine hrefresh.bind fun _ array₃ ⟨hchange₃, hpage₃⟩ => runs_pure (.inl ⟨rfl, _,
      hsiblings.mended hpage.lt hreplaced hchange₃ ?_ ?_ ?_ ?_⟩)
    · simpa using hpage₃
    · simp [entries_leaf]
    · rw [List.append_assoc, List.singleton_append] at hfilled
      rw [List.length_append, List.length_singleton] at hmore
      exact forall_mem_replace hfilled (List.forall_mem_cons.mpr
        ⟨.inr (Nat.le_of_lt_succ hmore), List.forall_mem_singleton.mpr (.inr hmany)⟩)
    · simp
  · refine (runs_leafEntryToLend_none hleft hless).bind fun borrowed array ⟨hborrowed, harray⟩ => ?_
    subst hborrowed harray
    exact runs_pure (.inr ⟨rfl, rfl, (entries_leaf leftPageId es).symm ▸ hless⟩)

theorem runs_borrowFromRightLeaf (hactive : ctx.status = .active) (hlayout : HasLayout tree layout)
    {child right : Subtree layout 0} {front back : List (Subtree layout 0)}
    (h : Thinned array isRoot parent previous next pageId front separator child (right :: back))
    (hunderfull : ¬child.Filled false) (leftSiblingPageId : PageId) :
    Runs ctx (tree.borrowFromRightLeaf pageId front.length
      ⟨child.pageId, leftSiblingPageId, right.pageId⟩) array fun borrowed array' =>
        (borrowed = true ∧ ∃ after, Mended array array' isRoot parent previous next pageId
          (front ++ child :: right :: back) after) ∨
        borrowed = false ∧ array' = array ∧ right.entries.length ≤ layout.minimum .leaf := by
  obtain ⟨hsiblings, hpage, hsorted, hfilled, hthin⟩ := h
  obtain ⟨childPageId, es, rfl⟩ := exists_leaf child
  obtain ⟨rightPageId, fs, rfl⟩ := exists_leaf right
  have hconcat (child right : Subtree layout 0) :
      front ++ child :: right :: back = front ++ [child, right] ++ back := by simp
  rw [hconcat] at hsiblings hsorted ⊢
  obtain ⟨hpair, hlift⟩ := hsiblings.stretch
  obtain ⟨hchild, hright⟩ := linked_cons.mp hpair.linked
  replace hchild : Holds array childPageId (Node.leaf false pageId _ rightPageId es) := hchild
  replace hright : Holds array rightPageId (Node.leaf false pageId childPageId _ fs) :=
    linked_singleton.mp hright
  have hcapacity : 1 ≤ layout.capacity .leaf := hchild.admits
  have hminimum : layout.minimum .leaf = (layout.capacity .leaf + 1) / 2 := rfl
  have hfew : es.length < layout.minimum .leaf :=
    Nat.not_le.mp (not_or.mp (show ¬(false = true ∨ layout.minimum .leaf ≤ es.length) from hunderfull)).2
  have hmany : layout.minimum .leaf ≤ es.length + 1 := hthin.resolve_left nofun
  dsimp only [pageId_leaf]
  rw [borrowFromRightLeaf, if_neg hright.ne_invalid]
  rcases Nat.lt_or_ge (layout.minimum .leaf) fs.length with hmore | hless
  · -- the right sibling lends its first entry
    obtain ⟨entry, fs, rfl⟩ := List.exists_cons_of_ne_nil (List.ne_nil_of_length_pos
      (show 0 < fs.length by omega))
    rw [List.length_cons] at hmore
    have hfs : fs ≠ [] := List.ne_nil_of_length_pos (by omega)
    have hchildSorted : Sorted (es ++ [entry]) := by
      have hpairSorted := sorted_stretch hsorted
      rw [List.flatMap_cons, List.flatMap_singleton, entries_leaf, entries_leaf,
        ← List.singleton_append, ← List.append_assoc] at hpairSorted
      exact (sorted_append.mp hpairSorted).1
    have hlend := @runs_leafEntryToLend _ _ _ _ _ _ _ _ ctx [] fs entry (fun _ => 0) hright rfl
      (show layout.minimum .leaf < fs.length + 1 from hmore)
    refine hlend.bind fun borrowed array ⟨hborrowed, harray⟩ => ?_
    subst hborrowed harray
    have hne : childPageId ≠ rightPageId := fun heq =>
      (List.nodup_cons.mp hpair.nodup).1 (List.mem_singleton.mpr heq)
    have hadd : Runs ctx (tree.addLeafEntry childPageId id (layout.entryBytes .leaf entry)) array
        fun _ array' => OnlyChanges [childPageId] array array' ∧ Holds array' childPageId (Node.leaf
          false pageId (lastLeaf previous (front.flatMap leaves)) rightPageId (es ++ [entry])) :=
      runs_addLeafEntry hactive hlayout (by rwa [List.append_nil]) (by simp) hchildSorted
        (by rw [List.append_nil]; omega)
    refine hadd.bind fun _ array₁ ⟨hchange₁, hchild₁⟩ => ?_
    refine (@runs_eraseLeafEntry _ _ _ _ _ _ _ _ _ [] fs entry hactive
      (hchange₁.holds_of_ne hne.symm hright)).bind fun _ array₂ ⟨hchange₂, hright₂⟩ => ?_
    have hchild₂ := hchange₂.holds_of_ne hne hchild₁
    have hchange : OnlyChanges [childPageId, rightPageId] array array₂ :=
      (hchange₁.mono (by simp)).trans hchange₂ fun id hmem _ => List.mem_cons_of_mem _ hmem
    have hreplaced := hlift array₂ _ (replaced_leaves hpair hchange hchild₂ hright₂)
    have hpage₂ : Holds array₂ pageId (Node.internal isRoot parent (front.map branch ++
        (separator, (Subtree.leaf childPageId (es ++ [entry])).pageId) ::
          (Subtree.leaf rightPageId (entry :: fs)).branch :: back.map branch)) :=
      hchange.holds hpair.self_not_mem hpage
    -- the keys in front of both are new
    have hstored : Stored array₂ false pageId (lastLeaf previous (front.flatMap leaves)) rightPageId
        (Subtree.leaf childPageId (es ++ [entry])) := hchild₂
    have hrefresh := runs_refreshChildSeparator hactive hpage₂ hstored
      (hasEntries_leaf (by simp)) (List.nodup_singleton _)
    rw [List.length_map] at hrefresh
    refine hrefresh.bind fun _ array₃ ⟨hchange₃, hpage₃⟩ => ?_
    have hpage₃ : Holds array₃ pageId (Node.internal isRoot parent ((front.map branch ++
        [(Subtree.leaf childPageId (es ++ [entry])).branch]) ++ (entry.1,
          (Subtree.leaf rightPageId fs).pageId) :: back.map branch)) := by
      rw [List.append_assoc, List.singleton_append]
      exact hpage₃
    have hright₃ := hchange₃.holds_of_ne (fun heq => hpair.self_not_mem
      (heq ▸ List.mem_cons_of_mem _ (List.mem_cons_self ..))) hright₂
    have hstored : Stored array₃ false pageId childPageId (firstLeaf (back.flatMap leaves) next)
        (Subtree.leaf rightPageId fs) := hright₃
    have hrefresh := runs_refreshChildSeparator hactive hpage₃ hstored (hasEntries_leaf hfs)
      (List.nodup_singleton _)
    rw [List.length_append, List.length_map, List.length_singleton] at hrefresh
    refine hrefresh.bind fun _ array₄ ⟨hchange₄, hpage₄⟩ => runs_pure (.inl ⟨rfl, _,
      hsiblings.mended hpage.lt hreplaced (hchange₃.trans hchange₄ fun _ hmem _ => hmem) ?_ ?_ ?_ ?_⟩)
    · simpa using hpage₄
    · simp [entries_leaf]
    · refine forall_mem_replace hfilled (List.forall_mem_cons.mpr ⟨.inr ?_,
        List.forall_mem_singleton.mpr (.inr (Nat.le_of_lt_succ hmore))⟩)
      rwa [List.length_append, List.length_singleton]
    · simp
  · refine (runs_leafEntryToLend_none hright hless).bind fun borrowed array ⟨hborrowed, harray⟩ => ?_
    subst hborrowed harray
    exact runs_pure (.inr ⟨rfl, rfl, (entries_leaf rightPageId fs).symm ▸ hless⟩)

/-! ## Internal nodes -/

/-- The children of an internal node. -/
def Subtree.children (t : Subtree layout (height + 1)) : List (Subtree layout height) := t.2.1

theorem Subtree.exists_internal (t : Subtree layout (height + 1)) :
    ∃ (pageId : PageId) (children : List (Subtree layout height)) (hne : children ≠ []),
      t = Subtree.internal pageId children hne := ⟨_, _, t.2.2, rfl⟩

theorem Subtree.pageId_internal (pageId : PageId) (children : List (Subtree layout height))
    (hne : children ≠ []) : (Subtree.internal pageId children hne).pageId = pageId := rfl

theorem Subtree.Thin.hasEntries {children : List (Subtree layout height)} {hne : children ≠ []}
    (h : (Subtree.internal pageId children hne).Thin isRoot) (hadmits : layout.Admits .leaf) :
    (Subtree.internal pageId children hne).HasEntries := by
  intro l hl
  obtain ⟨child, hchild, hl⟩ := List.mem_flatMap.mp hl
  exact (h.2 child hchild).hasEntries hadmits l hl

section Internal

variable {a b : PageId} {g : Subtree layout height} {gs hs xs ys xs' ys' : List (Subtree layout height)}
  {hxs : xs ≠ []} {hys : ys ≠ []} {hxs' : xs' ≠ []} {hys' : ys' ≠ []}

/-- Two internal nodes side by side: their pages and the children of both. -/
structure InternalPair (array : PageArray) (pageId previous next a b : PageId)
    (xs ys : List (Subtree layout height)) : Prop where
  left : Holds array a (Node.internal false pageId (xs.map branch))
  right : Holds array b (Node.internal false pageId (ys.map branch))
  linkedLeft : Linked array false a previous (firstLeaf (ys.flatMap leaves) next) xs
  linkedRight : Linked array false b (lastLeaf previous (xs.flatMap leaves)) next ys
  ne : a ≠ b
  left_not_mem : a ∉ (xs ++ ys).flatMap pageIds
  right_not_mem : b ∉ (xs ++ ys).flatMap pageIds
  nodup : ((xs ++ ys).flatMap pageIds).Nodup

theorem perm_internals :
    ([Subtree.internal a xs hxs, Subtree.internal b ys hys].flatMap pageIds).Perm
      (a :: b :: (xs ++ ys).flatMap pageIds) := by
  simp only [List.flatMap_cons, List.flatMap_nil, List.append_nil, pageIds_internal,
    List.flatMap_append, List.cons_append]
  exact List.perm_middle.cons a

theorem Siblings.internalPair (h : Siblings array pageId previous next
      [Subtree.internal a xs hxs, Subtree.internal b ys hys]) :
    InternalPair array pageId previous next a b xs ys := by
  obtain ⟨hleft, hright⟩ := linked_cons.mp h.linked
  rw [linked_singleton] at hright
  simp only [List.flatMap_cons, List.flatMap_nil, List.append_nil, leaves_internal] at hleft hright
  obtain ⟨hself, hnodup⟩ := List.nodup_cons.mp (perm_internals.nodup_iff.mp h.nodup)
  obtain ⟨hne, hleftMem⟩ := not_or.mp (mt List.mem_cons.mpr hself)
  obtain ⟨hrightMem, hnodup⟩ := List.nodup_cons.mp hnodup
  exact ⟨hleft.1, hright.1, hleft.2, hright.2, hne, hleftMem, hrightMem, hnodup⟩

/-- Two internal nodes side by side that have the same children together. -/
theorem replaced_internals (h : Siblings array pageId previous next
      [Subtree.internal a xs hxs, Subtree.internal b ys hys]) (hsame : xs' ++ ys' = xs ++ ys)
    (hchange : OnlyChanges (a :: b :: (xs ++ ys).flatMap pageIds) array array')
    (hleft : Holds array' a (Node.internal false pageId (xs'.map branch)))
    (hright : Holds array' b (Node.internal false pageId (ys'.map branch)))
    (hlinkedLeft : Linked array' false a previous (firstLeaf (ys'.flatMap leaves) next) xs')
    (hlinkedRight : Linked array' false b (lastLeaf previous (xs'.flatMap leaves)) next ys') :
    Replaced array array' false pageId previous next
      [Subtree.internal a xs hxs, Subtree.internal b ys hys]
      [Subtree.internal a xs' hxs', Subtree.internal b ys' hys'] := by
  refine replaced_of_perm ?_ ?_ ?_ h.nodup (hchange.mono perm_internals.symm.subset) h.next_not_mem
  · rw [linked_cons, linked_singleton]
    simp only [List.flatMap_cons, List.flatMap_nil, List.append_nil, leaves_internal]
    exact ⟨⟨hleft, hlinkedLeft⟩, hright, hlinkedRight⟩
  · simp only [List.flatMap_cons, List.flatMap_nil, List.append_nil, leaves_internal]
    rw [← List.flatMap_append, hsame, List.flatMap_append]
  · refine perm_internals.trans (.trans ?_ perm_internals.symm)
    rw [hsame]

/-- The children are as before when only the two pages have changed. -/
theorem InternalPair.only (h : InternalPair array pageId previous next a b xs ys)
    (hchange : OnlyChanges [a, b] array array') :
    Linked array' false a previous (firstLeaf (ys.flatMap leaves) next) xs ∧
      Linked array' false b (lastLeaf previous (xs.flatMap leaves)) next ys := by
  have hown : ∀ id ∈ (xs ++ ys).flatMap pageIds, id ∉ [a, b] := by
    intro id hmem hown
    obtain rfl | hown := List.mem_cons.mp hown
    · exact h.left_not_mem hmem
    · exact h.right_not_mem (List.mem_singleton.mp hown ▸ hmem)
  rw [List.flatMap_append] at hown
  exact ⟨h.linkedLeft.only hchange fun id hmem => hown id (List.mem_append_left _ hmem),
    h.linkedRight.only hchange fun id hmem => hown id (List.mem_append_right _ hmem)⟩

/-- One child of the two nodes changes with their pages. -/
theorem onlyChanges_adopt {array'' : PageArray} (hchange : OnlyChanges [a, b] array array')
    (hchange' : OnlyChanges [g.pageId] array' array'') (hmem : g ∈ xs ++ ys) :
    OnlyChanges (a :: b :: (xs ++ ys).flatMap pageIds) array array'' := by
  refine (hchange.mono ?_).trans hchange' fun id hid _ => ?_
  · exact List.cons_subset_cons _ (List.cons_subset_cons _ (List.nil_subset _))
  · refine List.mem_cons_of_mem _ (List.mem_cons_of_mem _ (List.mem_flatMap.mpr ⟨g, hmem, ?_⟩))
    rw [List.mem_singleton.mp hid]
    exact g.pageId_mem

/-- The last child of the left node goes to the right one.  The pages of the nodes have
it there already, and its own page changes last. -/
theorem runs_adoptLast (hactive : ctx.status = .active) {hxs : gs ++ [g] ≠ []} {hys : hs ≠ []}
    (hgs : gs ≠ []) (h : Siblings array pageId previous next
      [Subtree.internal a (gs ++ [g]) hxs, Subtree.internal b hs hys])
    (hchange : OnlyChanges [a, b] array array')
    (hleft : Holds array' a (Node.internal false pageId (gs.map branch)))
    (hright : Holds array' b (Node.internal false pageId ((g :: hs).map branch))) :
    Runs ctx (updateParentPageId b g.pageId) array' fun _ array'' => Replaced array array'' false
      pageId previous next [Subtree.internal a (gs ++ [g]) hxs, Subtree.internal b hs hys]
        [Subtree.internal a gs hgs, Subtree.internal b (g :: hs) (List.cons_ne_nil _ _)] := by
  have hpair := h.internalPair
  obtain ⟨hlinkedLeft, hlinkedRight⟩ := hpair.only hchange
  obtain ⟨hgsLinked, hg⟩ := linked_append.mp hlinkedLeft
  rw [linked_singleton] at hg
  rw [List.flatMap_singleton] at hgsLinked
  rw [List.flatMap_append, List.flatMap_singleton, lastLeaf_append] at hlinkedRight
  have hnodup := hpair.nodup
  rw [List.flatMap_append, List.flatMap_append, List.flatMap_singleton] at hnodup
  obtain ⟨hnodupLeft, -, hdisjoint⟩ := List.nodup_append.mp hnodup
  obtain ⟨-, hnodupG, hdisjointLeft⟩ := List.nodup_append.mp hnodupLeft
  have hmem : g ∈ gs ++ [g] ++ hs :=
    List.mem_append_left _ (List.mem_append_right _ (List.mem_singleton.mpr rfl))
  have hself {id : PageId} (hleft : id ∉ (gs ++ [g] ++ hs).flatMap pageIds) : id ≠ g.pageId := by
    rintro rfl
    exact hleft (List.mem_flatMap.mpr ⟨g, hmem, g.pageId_mem⟩)
  refine (hg.runs_updateParentPageId hactive hnodupG b).mono fun _ array'' ⟨hchange', hg'⟩ => ?_
  refine replaced_internals h (by simp) (onlyChanges_adopt hchange hchange' hmem)
    (hchange'.holds_of_ne (hself hpair.left_not_mem) hleft)
    (hchange'.holds_of_ne (hself hpair.right_not_mem) hright) ?_ (linked_cons.mpr ⟨hg', ?_⟩)
  · rw [List.flatMap_cons, firstLeaf_append]
    exact hgsLinked.only hchange' fun id hid hown =>
      hdisjointLeft _ hid _ (List.mem_singleton.mp hown ▸ g.pageId_mem) rfl
  · exact hlinkedRight.only hchange' fun id hid hown =>
      hdisjoint _ (List.mem_append_right _ (List.mem_singleton.mp hown ▸ g.pageId_mem)) _ hid rfl

/-- The first child of the right node goes to the left one. -/
theorem runs_adoptFirst (hactive : ctx.status = .active) {hxs : gs ≠ []} {hys : g :: hs ≠ []}
    (hhs : hs ≠ []) (h : Siblings array pageId previous next
      [Subtree.internal a gs hxs, Subtree.internal b (g :: hs) hys])
    (hchange : OnlyChanges [a, b] array array')
    (hleft : Holds array' a (Node.internal false pageId ((gs ++ [g]).map branch)))
    (hright : Holds array' b (Node.internal false pageId (hs.map branch))) :
    Runs ctx (updateParentPageId a g.pageId) array' fun _ array'' => Replaced array array'' false
      pageId previous next [Subtree.internal a gs hxs, Subtree.internal b (g :: hs) hys]
        [Subtree.internal a (gs ++ [g]) (by simp), Subtree.internal b hs hhs] := by
  have hpair := h.internalPair
  obtain ⟨hlinkedLeft, hlinkedRight⟩ := hpair.only hchange
  obtain ⟨hg, hhsLinked⟩ := linked_cons.mp hlinkedRight
  rw [List.flatMap_cons, firstLeaf_append] at hlinkedLeft
  have hnodup := hpair.nodup
  rw [List.flatMap_append, List.flatMap_cons] at hnodup
  obtain ⟨-, hnodupRight, hdisjoint⟩ := List.nodup_append.mp hnodup
  obtain ⟨hnodupG, -, hdisjointRight⟩ := List.nodup_append.mp hnodupRight
  have hmem : g ∈ gs ++ g :: hs := List.mem_append_right _ (List.mem_cons_self ..)
  have hself {id : PageId} (hleft : id ∉ (gs ++ g :: hs).flatMap pageIds) : id ≠ g.pageId := by
    rintro rfl
    exact hleft (List.mem_flatMap.mpr ⟨g, hmem, g.pageId_mem⟩)
  refine (hg.runs_updateParentPageId hactive hnodupG a).mono fun _ array'' ⟨hchange', hg'⟩ => ?_
  refine replaced_internals h (by simp) (onlyChanges_adopt hchange hchange' hmem)
    (hchange'.holds_of_ne (hself hpair.left_not_mem) hleft)
    (hchange'.holds_of_ne (hself hpair.right_not_mem) hright) ?_ ?_
  · rw [linked_append, linked_singleton, List.flatMap_singleton]
    refine ⟨hlinkedLeft.only hchange' fun id hid hown => ?_, hg'⟩
    exact hdisjoint _ hid _ (List.mem_append_left _ (List.mem_singleton.mp hown ▸ g.pageId_mem)) rfl
  · rw [List.flatMap_append, List.flatMap_singleton, lastLeaf_append]
    exact hhsLinked.only hchange' fun id hid hown =>
      hdisjointRight _ (List.mem_singleton.mp hown ▸ g.pageId_mem) _ hid rfl

/-- The left sibling lends its last child, if it has one to spare. -/
theorem runs_borrowFromLeftInternal (hactive : ctx.status = .active)
    {left child : Subtree layout (height + 1)} {front back : List (Subtree layout (height + 1))}
    (h : Thinned array isRoot parent previous next pageId (front ++ [left]) child.minKey child back)
    (hunderfull : ¬child.Filled false) (rightSiblingPageId : PageId) :
    Runs ctx (borrowFromLeftInternal pageId (front ++ [left]).length
      ⟨child.pageId, left.pageId, rightSiblingPageId⟩) array fun borrowed array' =>
        (borrowed = true ∧ ∃ after, Mended array array' isRoot parent previous next pageId
          (front ++ [left] ++ child :: back) after) ∨
        borrowed = false ∧ array' = array ∧ left.children.length ≤ layout.minimum .internal + 1 := by
  obtain ⟨hsiblings, hpage, hsorted, hfilled, hthin⟩ := h
  obtain ⟨a, xs, hxs, rfl⟩ := exists_internal left
  obtain ⟨b, hs, hhs, rfl⟩ := exists_internal child
  obtain ⟨h₀, hs, rfl⟩ := List.exists_cons_of_ne_nil hhs
  have hconcat (left child : Subtree layout (height + 1)) :
      front ++ [left] ++ child :: back = front ++ [left, child] ++ back := by simp
  rw [hconcat] at hsiblings hsorted ⊢
  obtain ⟨hpair, hlift⟩ := hsiblings.stretch
  have hpages := hpair.internalPair
  have hleafAdmits : layout.Admits .leaf := (linked_cons.mp hpair.linked).1.admits_leaf
  have hminimum : 2 * layout.minimum .internal ≤ layout.capacity .internal := by
    rw [Layout.minimum]
    omega
  have hfew : (h₀ :: hs).length < layout.minimum .internal + 1 := by
    by_contra hmany
    exact hunderfull ⟨Nat.not_lt.mp hmany, hthin.2⟩
  have hmany : layout.minimum .internal + 1 ≤ (h₀ :: hs).length + 1 := hthin.1
  rw [List.length_cons] at hfew hmany
  have hleftFilled : layout.minimum .internal + 1 ≤ xs.length ∧ ∀ child ∈ xs, child.Filled false :=
    hfilled _ (List.mem_append_left _ (List.mem_append_right _ (List.mem_singleton.mpr rfl)))
  have hchildFilled : ∀ child ∈ h₀ :: hs, child.Filled false := hthin.2
  have hchildEntries : ∀ child ∈ h₀ :: hs, child.entries ≠ [] := fun child hchild =>
    (hchildFilled child hchild).entries_ne_nil hleafAdmits
  have hh₀ := hchildEntries h₀ (List.mem_cons_self ..)
  have hpairSorted := sorted_stretch hsorted
  rw [List.flatMap_cons, List.flatMap_singleton, entries_internal, entries_internal] at hpairSorted
  obtain ⟨-, hchildSorted, -⟩ := sorted_append.mp hpairSorted
  dsimp only [pageId_internal]
  rw [borrowFromLeftInternal, if_neg hpages.left.ne_invalid]
  rcases Nat.lt_or_ge (layout.minimum .internal + 1) xs.length with hmore | hless
  · obtain ⟨gs, g, hconcat'⟩ := (List.eq_nil_or_concat xs).resolve_left hxs
    rw [List.concat_eq_append] at hconcat'
    subst hconcat'
    rw [List.length_append, List.length_singleton] at hmore
    have hgsNe : gs ≠ [] := List.ne_nil_of_length_pos (by omega)
    obtain ⟨gs', g', hgs⟩ := (List.eq_nil_or_concat gs).resolve_left hgsNe
    rw [List.concat_eq_append] at hgs
    have hlength : gs.length = gs'.length + 1 := by rw [hgs, List.length_append, List.length_singleton]
    have hbranches : (gs ++ [g]).map branch = gs'.map branch ++ [g'.branch, g.branch] := by
      rw [hgs, List.map_append, List.map_append, List.append_assoc]
      rfl
    have hleft := hpages.left
    rw [hbranches] at hleft
    refine (runs_lastChildToLend hleft (by rw [List.length_map]; omega)).bind ?_
    rintro borrowed array ⟨rfl, rfl⟩
    -- the key in front of the child goes down in front of its first child
    have hpage' : Holds array pageId (Node.internal isRoot parent (front.map branch ++
        (Subtree.internal a (gs ++ [g]) hxs).branch :: (Subtree.internal b (h₀ :: hs) hhs).branch ::
          back.map branch)) := by
      rw [List.map_append, List.append_assoc] at hpage
      exact hpage
    have hseparator := @runs_separatorKeyAt _ _ _ _ _ _ ctx _ _ _ _ hpage'
    rw [List.length_map] at hseparator
    rw [List.length_append, List.length_singleton, Nat.add_sub_cancel]
    refine hseparator.bind ?_
    rintro separatorKey array ⟨hkey, rfl⟩
    have hkey' : separatorKey = h₀.minKey.bytes := by
      rw [hkey, Subtree.branch, minKey_internal hhs hh₀]
    subst hkey'
    have hadopt := @runs_addFirstChild _ _ _ _ _ _ _ _ hactive _ g.branch hpages.right
      (sorted_branches hchildSorted hchildEntries) (by rw [List.length_map]; omega)
    refine hadopt.bind ?_
    rintro _ array₁ ⟨hchange₁, hright₁⟩
    have herase := @runs_eraseInternalEntry _ _ _ _ _ _ _ hactive _ _ _ _
      (hchange₁.holds_of_ne hpages.ne hleft)
    refine herase.bind ?_
    rintro _ array₂ ⟨hchange₂, hleft₂⟩
    have hchange : OnlyChanges [a, b] array array₂ :=
      (hchange₁.mono (by simp)).trans hchange₂ fun id hmem _ => by
        rw [List.mem_singleton.mp hmem]
        exact List.mem_cons_self ..
    have hleft₂' : Holds array₂ a (Node.internal false pageId (gs.map branch)) := by
      rw [hgs, List.map_append]
      exact hleft₂
    refine (runs_adoptLast hactive hgsNe hpair hchange hleft₂'
      (hchange₂.holds_of_ne hpages.ne.symm hright₁)).bind fun _ array₃ hreplaced => ?_
    have hleftBranch : (Subtree.internal a (gs ++ [g]) hxs).branch =
        (Subtree.internal a gs hgsNe).branch := by
      obtain ⟨first, rest, rfl⟩ := List.exists_cons_of_ne_nil hgsNe
      have hfirst : first.entries ≠ [] := (hleftFilled.2 first (by simp)).entries_ne_nil hleafAdmits
      exact Prod.ext ((minKey_internal hxs hfirst).trans (minKey_internal hgsNe hfirst).symm) rfl
    have hpage₃ : Holds array₃ pageId (Node.internal isRoot parent
        ((front ++ [Subtree.internal a gs hgsNe]).map branch ++
          ((Subtree.internal b (h₀ :: hs) hhs).minKey, b) :: back.map branch)) := by
      rw [List.map_append, List.map_singleton, ← hleftBranch, List.append_assoc]
      exact hreplaced.changes.holds (not_mem_stretch hsiblings.self_not_mem hsiblings.next_ne) hpage'
    -- the key in front of the child becomes the one of the child that was lent
    have hfilled' : ∀ child ∈ [Subtree.internal a gs hgsNe,
        Subtree.internal b (g :: h₀ :: hs) (List.cons_ne_nil _ _)], child.Filled false := by
      obtain ⟨hgsFilled, hgFilled⟩ := List.forall_mem_append.mp hleftFilled.2
      refine List.forall_mem_cons.mpr ⟨⟨Nat.le_of_lt_succ hmore, hgsFilled⟩,
        List.forall_mem_singleton.mpr ⟨?_, List.forall_mem_cons.mpr
          ⟨hgFilled g (List.mem_singleton.mpr rfl), hchildFilled⟩⟩⟩
      exact hmany
    obtain ⟨-, hstored⟩ := linked_cons.mp hreplaced.linked
    rw [linked_singleton] at hstored
    have hnodup₃ := hreplaced.nodup
    rw [List.flatMap_cons, List.flatMap_singleton] at hnodup₃
    obtain ⟨-, hnodupChild, -⟩ := List.nodup_append.mp hnodup₃
    have hrefresh := @runs_refreshChildSeparator _ _ _ _ _ _ _ _ _ _ hactive _ _ _ _ hpage₃ _ _ hstored
      ((hfilled' _ (by simp)).hasEntries hleafAdmits) hnodupChild
    rw [List.length_map, List.length_append, List.length_singleton] at hrefresh
    refine hrefresh.bind ?_
    rintro _ array₄ ⟨hchange₄, hpage₄⟩
    refine runs_pure (.inl ⟨rfl, _,
      hsiblings.mended hpage.lt (hlift array₃ _ hreplaced) hchange₄ ?_ ?_ ?_ ?_⟩)
    · simpa using hpage₄
    · simp [entries_internal]
    · rw [List.append_assoc, List.singleton_append] at hfilled
      exact forall_mem_replace hfilled hfilled'
    · simp
  · obtain ⟨x, xs', rfl⟩ := List.exists_cons_of_ne_nil hxs
    refine (runs_childToLend_none hpages.left ?_).1.bind ?_
    · rw [List.length_map]
      exact Nat.le_of_succ_le_succ hless
    rintro borrowed array ⟨rfl, rfl⟩
    exact runs_pure (.inr ⟨rfl, rfl, hless⟩)

/-- The right sibling lends its first child, if it has one to spare. -/
theorem runs_borrowFromRightInternal (hactive : ctx.status = .active)
    {child right : Subtree layout (height + 1)} {front back : List (Subtree layout (height + 1))}
    (h : Thinned array isRoot parent previous next pageId front child.minKey child (right :: back))
    (hunderfull : ¬child.Filled false) (leftSiblingPageId : PageId) :
    Runs ctx (borrowFromRightInternal pageId front.length
      ⟨child.pageId, leftSiblingPageId, right.pageId⟩) array fun borrowed array' =>
        (borrowed = true ∧ ∃ after, Mended array array' isRoot parent previous next pageId
          (front ++ child :: right :: back) after) ∨
        borrowed = false ∧ array' = array ∧ right.children.length ≤ layout.minimum .internal + 1 := by
  obtain ⟨hsiblings, hpage, hsorted, hfilled, hthin⟩ := h
  obtain ⟨a, gs, hgs, rfl⟩ := exists_internal child
  obtain ⟨b, ys, hys, rfl⟩ := exists_internal right
  obtain ⟨g, hs, rfl⟩ := List.exists_cons_of_ne_nil hys
  have hconcat (child right : Subtree layout (height + 1)) :
      front ++ child :: right :: back = front ++ [child, right] ++ back := by simp
  rw [hconcat] at hsiblings hsorted ⊢
  obtain ⟨hpair, hlift⟩ := hsiblings.stretch
  have hpages := hpair.internalPair
  have hleafAdmits : layout.Admits .leaf := (linked_cons.mp hpair.linked).1.admits_leaf
  have hminimum : 2 * layout.minimum .internal ≤ layout.capacity .internal := by
    rw [Layout.minimum]
    omega
  have hfew : gs.length < layout.minimum .internal + 1 := by
    by_contra hmany
    exact hunderfull ⟨Nat.not_lt.mp hmany, hthin.2⟩
  have hmany : layout.minimum .internal + 1 ≤ gs.length + 1 := hthin.1
  have hrightFilled : layout.minimum .internal + 1 ≤ (g :: hs).length ∧
      ∀ child ∈ g :: hs, child.Filled false :=
    hfilled _ (List.mem_append_right _ (List.mem_cons_self ..))
  have hchildFilled : ∀ child ∈ gs, child.Filled false := hthin.2
  have hg : g.entries ≠ [] := (hrightFilled.2 g (List.mem_cons_self ..)).entries_ne_nil hleafAdmits
  have hentries : ∀ child ∈ gs ++ [g], child.entries ≠ [] := fun child hchild =>
    ((List.forall_mem_append.mpr ⟨hchildFilled, List.forall_mem_singleton.mpr
      (hrightFilled.2 g (List.mem_cons_self ..))⟩) child hchild).entries_ne_nil hleafAdmits
  have hpairSorted := sorted_stretch hsorted
  rw [List.flatMap_cons, List.flatMap_singleton, entries_internal, entries_internal,
    List.flatMap_cons, ← List.append_assoc] at hpairSorted
  obtain ⟨hchildSorted, -, -⟩ := sorted_append.mp hpairSorted
  have hbranchesSorted : Sorted (gs.map branch ++ [g.branch]) := by
    have hbranchesSorted := @sorted_branches _ _ (gs ++ [g])
      (by rwa [List.flatMap_append, List.flatMap_singleton]) hentries
    rwa [List.map_append, List.map_singleton] at hbranchesSorted
  dsimp only [pageId_internal]
  rw [borrowFromRightInternal, if_neg hpages.right.ne_invalid]
  rcases Nat.lt_or_ge (layout.minimum .internal + 1) (g :: hs).length with hmore | hless
  · rw [List.length_cons] at hmore
    obtain ⟨h₀, hs, rfl⟩ := List.exists_cons_of_ne_nil (List.ne_nil_of_length_pos
      (show 0 < hs.length by omega))
    have hspare : layout.minimum .internal < (hs.map branch).length + 1 := by
      rw [List.length_map]
      exact Nat.lt_of_succ_lt_succ hmore
    refine (runs_firstChildToLend hpages.right hspare).bind ?_
    rintro borrowed array ⟨rfl, rfl⟩
    -- the key in front of the right sibling is the least one of its first child
    have hseparator := @runs_separatorKeyAt _ _ _ _ _ _ ctx _ _ _ _ hpage
    rw [List.length_map] at hseparator
    refine hseparator.bind ?_
    rintro separatorKey array ⟨hkey, rfl⟩
    have hkey' : separatorKey = g.branch.1.bytes := by
      rw [hkey, Subtree.branch, minKey_internal hys hg, Subtree.branch]
    subst hkey'
    have hadd := runs_addLastChild hactive hpages.left (mt List.map_eq_nil_iff.mp hgs) hbranchesSorted
      (by rw [List.length_map]; omega)
    refine hadd.bind ?_
    rintro _ array₁ ⟨hchange₁, hleft₁⟩
    refine (runs_dropFirstChild hactive (hchange₁.holds_of_ne hpages.ne.symm hpages.right)).bind
      ?_
    rintro _ array₂ ⟨hchange₂, hright₂⟩
    have hchange : OnlyChanges [a, b] array array₂ :=
      (hchange₁.mono (by simp)).trans hchange₂ fun id hmem _ => List.mem_cons_of_mem _ hmem
    have hleft₂ : Holds array₂ a (Node.internal false pageId ((gs ++ [g]).map branch)) := by
      rw [List.map_append]
      exact hchange₂.holds_of_ne hpages.ne hleft₁
    refine (runs_adoptFirst hactive (List.cons_ne_nil _ _) hpair hchange hleft₂ hright₂).bind
      fun _ array₃ hreplaced => ?_
    have hchildBranch : (Subtree.internal a gs hgs).branch =
        (Subtree.internal a (gs ++ [g]) (by simp)).branch := by
      obtain ⟨first, rest, rfl⟩ := List.exists_cons_of_ne_nil hgs
      have hfirst : first.entries ≠ [] := hentries first (by simp)
      exact Prod.ext ((minKey_internal hgs hfirst).trans
        (minKey_internal (List.cons_ne_nil _ _) hfirst).symm) rfl
    have hpage₃ : Holds array₃ pageId (Node.internal isRoot parent
        ((front ++ [Subtree.internal a (gs ++ [g]) (by simp)]).map branch ++
          ((Subtree.internal b (g :: h₀ :: hs) hys).minKey, b) :: back.map branch)) := by
      rw [List.map_append, List.map_singleton, ← hchildBranch, List.append_assoc]
      exact hreplaced.changes.holds (not_mem_stretch hsiblings.self_not_mem hsiblings.next_ne) hpage
    have hfilled' : ∀ child ∈ [Subtree.internal a (gs ++ [g]) (by simp),
        Subtree.internal b (h₀ :: hs) (List.cons_ne_nil _ _)], child.Filled false := by
      obtain ⟨hgFilled, hhsFilled⟩ := List.forall_mem_cons.mp hrightFilled.2
      refine List.forall_mem_cons.mpr ⟨⟨?_, List.forall_mem_append.mpr
        ⟨hchildFilled, List.forall_mem_singleton.mpr hgFilled⟩⟩,
          List.forall_mem_singleton.mpr ⟨Nat.le_of_lt_succ hmore, hhsFilled⟩⟩
      show layout.minimum .internal + 1 ≤ (gs ++ [g]).length
      rwa [List.length_append, List.length_singleton]
    obtain ⟨-, hstored⟩ := linked_cons.mp hreplaced.linked
    rw [linked_singleton] at hstored
    have hnodup₃ := hreplaced.nodup
    rw [List.flatMap_cons, List.flatMap_singleton] at hnodup₃
    obtain ⟨-, hnodupRight, -⟩ := List.nodup_append.mp hnodup₃
    have hrefresh := @runs_refreshChildSeparator _ _ _ _ _ _ _ _ _ _ hactive _ _ _ _ hpage₃ _ _ hstored
      ((hfilled' _ (by simp)).hasEntries hleafAdmits) hnodupRight
    rw [List.length_map, List.length_append, List.length_singleton] at hrefresh
    refine hrefresh.bind ?_
    rintro _ array₄ ⟨hchange₄, hpage₄⟩
    refine runs_pure (.inl ⟨rfl, _,
      hsiblings.mended hpage.lt (hlift array₃ _ hreplaced) hchange₄ ?_ ?_ ?_ ?_⟩)
    · simpa using hpage₄
    · simp [entries_internal]
    · exact forall_mem_replace hfilled hfilled'
    · simp
  · refine (runs_childToLend_none hpages.right ?_).2.bind ?_
    · rw [List.length_map]
      exact Nat.le_of_succ_le_succ hless
    rintro borrowed array ⟨rfl, rfl⟩
    exact runs_pure (.inr ⟨rfl, rfl, hless⟩)

end Internal

end DanDB.BTree
