import DanDB.BTree.Find
import DanDB.BTree.Splitting

/-!
# Inserting

An insertion leaves a subtree in place of the old one, or two of them when the page
at the top was split.  A key that is there already is rejected, and nothing changes.
-/

namespace DanDB.BTree

open Buffer DanDB.Core Storage PageProgram Subtree Entries

variable {layout : Layout} {height : Nat} {isRoot : Bool} {parent previous next : PageId}
  {array array' : PageArray} {spare : Nat} {ctx : PageContext (spare + 3)} {tree : BTree} {t : Subtree layout height}
  {ts front back : List (Subtree layout height)} {key : layout.Key} {value : layout.Value}

/-- What `insert_into_leaf` says of a key that is there already. -/
def duplicateStatus : Status :=
  .ConstraintViolation "Cannot insert key/value into B+ tree: key is duplicated"

/-- What stands in the place of a subtree after an insertion, and what the page above
hears of it. -/
inductive Inserted (array array' : PageArray) (isRoot : Bool) (parent previous next : PageId)
    (t : Subtree layout height) (entries : List (layout.Entry .leaf)) : Option SplitResult → Prop
  | whole (t' : Subtree layout height)
      (hreplaced : Replaced array array' isRoot parent previous next [t] [t'])
      (hpageId : t'.pageId = t.pageId) (hentries : t'.entries = entries) (hfilled : t'.Filled isRoot) :
      Inserted array array' isRoot parent previous next t entries none
  | split (left right : Subtree layout height)
      (hreplaced : Replaced array array' isRoot parent previous next [t] [left, right])
      (hpageId : left.pageId = t.pageId) (hentries : left.entries ++ right.entries = entries)
      (hleft : left.Filled false) (hright : right.Filled false) :
      Inserted array array' isRoot parent previous next t entries
        (some ⟨right.minKey.bytes, right.pageId⟩)

/-- How an insertion into a subtree ends. -/
inductive InsertEnds (array : PageArray) (isRoot : Bool) (parent previous next : PageId)
    (t : Subtree layout height) (key : layout.Key) (value : layout.Value) :
    Except Status (Option SplitResult) → PageArray → Prop
  | inserted (array' : PageArray) (split : Option SplitResult)
      (habsent : lookup key t.entries = none)
      (h : Inserted array array' isRoot parent previous next t (put key value t.entries) split) :
      InsertEnds array isRoot parent previous next t key value (.ok split) array'
  | duplicate (value' : layout.Value) (hpresent : lookup key t.entries = some value') :
      InsertEnds array isRoot parent previous next t key value (.error duplicateStatus) array

/-! ## Leaves -/

theorem Subtree.entries_leaf (pageId : PageId) (entries : List (layout.Entry .leaf)) :
    (Subtree.leaf pageId entries).entries = entries := List.append_nil _

/-- A leaf with other entries. -/
theorem replaced_leaf {pageId : PageId} {entries entries' : List (layout.Entry .leaf)}
    (hchange : OnlyChanges [pageId] array array')
    (hholds : Holds array' pageId (Node.leaf isRoot parent previous next entries'))
    (hnext : next ≠ pageId) : Replaced array array' isRoot parent previous next
      [Subtree.leaf pageId entries] [Subtree.leaf pageId entries'] := by
  refine ⟨linked_singleton.mpr hholds, fun _ => rfl, List.nodup_singleton _, fun _ hmem _ => hmem,
    hchange.mono (List.subset_cons_self ..), fun node hnode => ?_⟩
  exact hnode.only hchange (by simpa using hnext)

section Leaf

variable {pageId : PageId} {entries front back : List (layout.Entry .leaf)} {page : PageData}

theorem checkDuplicate_absent
    (h : (Node.leaf isRoot parent previous next (front ++ back)).Shows page)
    (hback : ∀ b ∈ back, key < b.1) : checkDuplicate page front.length key.bytes = .ok () := by
  rw [checkDuplicate, h.keyCount_eq]
  split
  · rename_i hlt
    cases back with
    | nil =>
      rw [Node.leaf, List.append_nil] at hlt
      exact absurd hlt (Nat.lt_irrefl _)
    | cons entry back =>
      have hne : memcmp key.bytes entry.1.bytes ≠ .eq := fun heq =>
        (hback entry (List.mem_cons_self ..)).ne (Bytes.memcmp_eq_eq.mp heq)
      rw [BTreeLeafPage.keyAt, h.keyAt_split rfl, ok_bind, failIf_of_not hne]
  · rfl

theorem checkDuplicate_present {value' : layout.Value}
    (h : (Node.leaf isRoot parent previous next (front ++ (key, value') :: back)).Shows page) :
    checkDuplicate page front.length key.bytes = .error duplicateStatus := by
  have hlt : front.length < (front ++ (key, value') :: back).length := by
    rw [List.length_append, List.length_cons]
    omega
  have hcount : BTreePage.keyCount page = (front ++ (key, value') :: back).length := h.keyCount_eq
  rw [checkDuplicate, hcount, if_pos hlt, BTreeLeafPage.keyAt, h.keyAt_split rfl, ok_bind,
    failIf_of (Bytes.memcmp_eq_eq.mpr rfl)]
  rfl

theorem yields_insertIntoLeaf (hactive : ctx.status = .active) (hlayout : HasLayout tree layout)
    (h : Holds array pageId (Node.leaf isRoot parent previous next entries))
    {node : Node layout .leaf} (hsuccessor : Successor array next node pageId) (hnext : next ≠ pageId)
    (hsorted : Sorted entries) (hfilled : (Subtree.leaf pageId entries).Filled isRoot) :
    Yields ctx (tree.insertIntoLeaf pageId key.bytes value.bytes) array
      (InsertEnds array isRoot parent previous next (Subtree.leaf pageId entries) key value) := by
  obtain ⟨front, back, hfront, hback, rfl | ⟨value', rfl⟩⟩ := hsorted.cases_split key
  · have habsent : lookup key (Subtree.leaf pageId (front ++ back)).entries = none := by
      rw [entries_leaf, lookup_split_none hfront hback]
    have hput : put key value (Subtree.leaf pageId (front ++ back)).entries =
        front ++ (key, value) :: back := by
      rw [entries_leaf, put_split hfront hback]
    have hsorted' : Sorted (front ++ (key, value) :: back) := by
      rw [← put_split hfront hback]
      exact hsorted.put key value
    -- the key has a place between the others
    have hposition : Runs ctx (withPage pageId fun page => do
        let page ← .done (BTreeLeafPage.openPage page)
        let insertionPos ← .done (BTreeLeafPage.findInsertionPosition page key.bytes)
        .done (checkDuplicate page insertionPos key.bytes)
        return (insertionPos, BTreePage.keyCount page)) array fun found array' =>
          found = (front.length, (front ++ back).length) ∧ array' = array :=
      yields_withPage_node h fun data hshows => yields_ok_bind hshows.openAs_ok
        (yields_ok_bind (hshows.findInsertionPosition_ok rfl hfront fun b hb => (hback b hb).le)
          (yields_ok_bind (checkDuplicate_absent hshows hback)
            (runs_pure ⟨by rw [hshows.keyCount_eq]; rfl, rfl⟩)))
    refine hposition.bind fun found array ⟨hfound, harray⟩ => ?_
    subst hfound harray
    refine yields_withMutablePage_node hactive h fun data hshows =>
      yields_ok_bind hshows.openAs_ok ?_
    have hcount : BTreePage.keyCount data = (front ++ back).length := hshows.keyCount_eq
    rw [BTreeLeafPage.capacity, hcount, hshows.capacityOf_eq]
    split
    · rename_i hroom
      have hedit : Runs (ctx.pin pageId true)
          (edit 0 (BTreeLeafPage.insertEntry · front.length key.bytes value.bytes)) array
          fun _ array' => OnlyChanges [pageId] array array' ∧ Holds array' pageId
            (Node.leaf isRoot parent previous next (front ++ (key, value) :: back)) :=
        runs_edit_node rfl h fun data hshows => hshows.insertEntry_ok rfl value
          (fun a ha => (hfront a ha).le) (fun b hb => (hback b hb).le) hroom
      refine hedit.bind fun _ array' ⟨hchange, hholds⟩ => yields_pure ?_
      refine .inserted array' none habsent (.whole (Subtree.leaf pageId (front ++ (key, value) :: back))
        (replaced_leaf hchange hholds hnext) rfl (by rw [hput, entries_leaf]) ?_)
      refine Or.imp_right (fun hle => hle.trans ?_) hfilled
      rw [List.length_append, List.length_append, List.length_cons]
      omega
    · rename_i hfull
      have hfits : (front ++ back).length ≤ layout.capacity .leaf := hshows.fits
      refine Yields.mono
        (runs_splitLeaf hactive hlayout h hshows hsuccessor hnext (by omega) hsorted') ?_
      rintro _ array' ⟨_, rfl, left, right, rightPageId, hsplit, hleft, hright, hreplaced, rfl⟩
      refine .inserted array' _ habsent (.split (Subtree.leaf pageId left)
        (Subtree.leaf rightPageId right) hreplaced rfl ?_ (.inr hleft) (.inr hright))
      rw [hput, entries_leaf, entries_leaf, hsplit]
  · have hpresent : lookup key (Subtree.leaf pageId (front ++ (key, value') :: back)).entries =
        some value' := by
      rw [entries_leaf, lookup_split hfront]
    have hposition : Yields ctx (withPage pageId fun page => do
        let page ← .done (BTreeLeafPage.openPage page)
        let insertionPos ← .done (BTreeLeafPage.findInsertionPosition page key.bytes)
        .done (checkDuplicate page insertionPos key.bytes)
        return (insertionPos, BTreePage.keyCount page)) array fun r array' =>
          r = .error duplicateStatus ∧ array' = array := by
      refine yields_withPage_node h fun data hshows => yields_ok_bind hshows.openAs_ok
        (yields_ok_bind (hshows.findInsertionPosition_ok rfl hfront (List.forall_mem_cons.mpr
          ⟨le_refl _, fun b hb => (hback b hb).le⟩)) ?_)
      rw [checkDuplicate_present hshows]
      exact yields_done ⟨rfl, rfl⟩
    refine hposition.bind ?_ ?_
    · rintro found array' ⟨hr, -⟩
      cases hr
    · rintro status array' ⟨hr, harray⟩
      cases hr
      subst harray
      exact .duplicate value' hpresent

end Leaf

/-! ## Internal nodes -/

/-- Another child in the place of one; the key in front of the first child is not
stored. -/
theorem Holds.replaceChild {pageId : PageId} {child child' : Subtree layout height}
    (h : Holds array pageId (Node.internal isRoot parent ((front ++ child :: back).map branch)))
    (hpageId : child'.pageId = child.pageId) (hkey : front ≠ [] → child'.minKey = child.minKey) :
    Holds array pageId (Node.internal isRoot parent ((front ++ child' :: back).map branch)) := by
  cases front with
  | nil =>
    rw [List.nil_append, List.map_cons, Node.internal, List.map_cons, List.headD_cons] at h ⊢
    rw [branch, hpageId]
    exact h
  | cons first front =>
    have hbranch : child'.branch = child.branch :=
      Prod.ext (hkey (List.cons_ne_nil _ _)) hpageId
    simp only [List.map_append, List.map_cons, hbranch] at h ⊢
    exact h

/-- A key that is not below the others does not become the least one. -/
theorem minKey_of_put {t' : Subtree layout height} {rest : List (layout.Entry .leaf)}
    (hsorted : Sorted t.entries) (hne : t.entries ≠ []) (hle : t.minKey ≤ key)
    (hne' : t'.entries ≠ []) (hput : put key value t.entries = t'.entries ++ rest) :
    t'.minKey = t.minKey := by
  obtain ⟨entry, entries, hentries⟩ := List.exists_cons_of_ne_nil hne
  obtain ⟨entry', entries', hentries'⟩ := List.exists_cons_of_ne_nil hne'
  rw [minKey_eq hentries] at hle ⊢
  rw [minKey_eq hentries']
  rw [hentries, hentries'] at hput
  rw [hentries] at hsorted
  obtain ⟨value', entries'', hhead⟩ := put_cons_of_le hsorted hle value
  rw [hhead] at hput
  rw [← (List.cons.inj hput).1]

/-- What is true of the children of a node, when others take the place of one of them. -/
theorem forall_mem_replace {α : Type} {p : α → Prop} {front middle back : List α} {a : α}
    (h : ∀ x ∈ front ++ a :: back, p x) (hmiddle : ∀ x ∈ middle, p x) :
    ∀ x ∈ front ++ middle ++ back, p x := by
  intro x hx
  obtain hx | hx := List.mem_append.mp hx
  · obtain hx | hx := List.mem_append.mp hx
    · exact h x (List.mem_append_left _ hx)
    · exact hmiddle x hx
  · exact h x (List.mem_append_right _ (List.mem_cons_of_mem _ hx))

section Internal

variable {pageId : PageId} {page : PageData} {child : Subtree layout height}

/-- The way down of `insert_into_internal`. -/
theorem runs_childPageIdForKey (h : Holds array pageId
      (Node.internal isRoot parent ((front ++ child :: back).map branch)))
    (hchild : ChildFor key front child back) :
    Runs ctx (withPage pageId fun page => do
      let page ← .done (BTreeInternalPage.openPage page)
      .done (BTreeInternalPage.childPageIdForKey page key.bytes)) array fun childPageId array' =>
        childPageId = child.pageId ∧ array' = array := by
  refine yields_withPage_node h fun data hshows => yields_ok_bind hshows.openAs_ok ?_
  rw [List.map_append, List.map_cons] at hshows
  rw [hshows.childPageIdForKey_branches hchild.branch_le hchild.lt_branch]
  exact runs_pure ⟨rfl, rfl⟩

/-- What the keys of a node do not have, or where it is. -/
theorem ChildFor.lookup_eq (h : ChildFor key front child back)
    (hsorted : Sorted ((front ++ child :: back).flatMap entries)) (hne : child.entries ≠ []) :
    lookup key ((front ++ child :: back).flatMap entries) = lookup key child.entries ∧
      put key value ((front ++ child :: back).flatMap entries) =
        front.flatMap entries ++ put key value child.entries ++ back.flatMap entries := by
  obtain ⟨-, hback, -⟩ := sorted_flatMap_append hsorted
  have hfront : ∀ e ∈ front.flatMap entries, e.1 < key := fun e he => h.front_lt hsorted hne he
  have hback : ∀ e ∈ back.flatMap entries, key < e.1 := fun e he =>
    h.lt_back (sorted_append.mp hback).2.1 he
  rw [List.flatMap_append, List.flatMap_cons, ← List.append_assoc]
  refine ⟨?_, put_append hfront hback⟩
  rw [lookup_append, lookup_append, lookup_eq_none.mpr fun e he => (hfront e he).ne,
    lookup_eq_none.mpr fun e he => (hback e he).ne', Option.none_or, Option.or_none]

/-- A page with room takes the new child. -/
theorem runs_insertChild {left right : Subtree layout height}
    (hholds : Holds array pageId
      (Node.internal isRoot parent ((front ++ left :: back).map branch)))
    (hshows : (Node.internal isRoot parent ((front ++ left :: back).map branch)).Shows page)
    (hsorted : Sorted ((front ++ left :: right :: back).map branch))
    (hroom : front.length + back.length < layout.capacity .internal) :
    Runs (ctx.pin pageId true) (insertChild page ⟨right.minKey.bytes, right.pageId⟩) array
      fun split array' => split = none ∧ OnlyChanges [pageId] array array' ∧ Holds array' pageId
        (Node.internal isRoot parent ((front ++ left :: right :: back).map branch)) := by
  refine yields_ok_bind (findInsertionPosition_child hshows hsorted) ?_
  rw [List.map_append, List.map_cons] at hholds
  rw [List.map_append, List.map_cons, List.map_cons] at hsorted ⊢
  obtain ⟨-, hright, hcross⟩ := sorted_append.mp hsorted
  obtain ⟨hleft, hright⟩ := sorted_cons.mp hright
  have hfront : ∀ b ∈ (front.map branch ++ [left.branch]).tail, b.1 ≤ right.branch.1 := by
    intro b hb
    obtain hb | hb := List.mem_append.mp (List.mem_of_mem_tail hb)
    · exact (hcross b hb right.branch (List.mem_cons_of_mem _ (List.mem_cons_self ..))).le
    · rw [List.mem_singleton.mp hb]
      exact (hleft right.branch (List.mem_cons_self ..)).le
  have hback : ∀ b ∈ back.map branch, right.branch.1 ≤ b.1 := fun b hb =>
    ((sorted_cons.mp hright).1 b hb).le
  have hedit : Runs (ctx.pin pageId true)
      (edit 0 (BTreeInternalPage.insertEntry · front.length right.minKey.bytes right.pageId)) array
      fun _ array' => OnlyChanges [pageId] array array' ∧ Holds array' pageId (Node.internal isRoot
        parent (front.map branch ++ left.branch :: right.branch :: back.map branch)) := by
    refine runs_edit_node rfl hholds fun data hshows => ?_
    obtain ⟨data', hinsert, hshows'⟩ := hshows.insertEntry_branches right.branch hfront hback
      (by rw [List.length_map, List.length_map]; exact hroom)
    rw [List.length_map] at hinsert
    exact ⟨data', hinsert, hshows'⟩
  exact hedit.bind fun _ array' hpost => runs_pure ⟨rfl, hpost⟩

theorem yields_insertIntoInternal (hactive : ctx.status = .active) (hlayout : HasLayout tree layout)
    {hne : front ++ child :: back ≠ []}
    (h : Stored array isRoot parent previous next
      (Subtree.internal pageId (front ++ child :: back) hne))
    (hnodup : (Subtree.internal pageId (front ++ child :: back) hne).pageIds.Nodup)
    (hnext : next ∉ (Subtree.internal pageId (front ++ child :: back) hne).pageIds)
    {node : Node layout .leaf} (hsuccessor : Successor array next node
      (lastLeaf previous (Subtree.internal pageId (front ++ child :: back) hne).leaves))
    (hsorted : Sorted (Subtree.internal pageId (front ++ child :: back) hne).entries)
    (hfilled : (Subtree.internal pageId (front ++ child :: back) hne).Filled isRoot)
    (hchild : ChildFor key front child back)
    {insertIntoChild : PageId → PageProgram (Option SplitResult)}
    (hinsert : Yields ctx (insertIntoChild child.pageId) array
      (InsertEnds array false pageId (lastLeaf previous (front.flatMap leaves))
        (firstLeaf (back.flatMap leaves) next) child key value)) :
    Yields ctx (tree.insertIntoInternal insertIntoChild pageId key.bytes) array
      (InsertEnds array isRoot parent previous next
        (Subtree.internal pageId (front ++ child :: back) hne) key value) := by
  obtain ⟨-, -, -, -, hlift⟩ := h.child hnodup hnext hsuccessor
  obtain ⟨hpage, -⟩ := stored_internal.mp h
  obtain ⟨hlength, hfilledChildren⟩ := hfilled
  rw [entries_internal] at hsorted
  have hmem : child ∈ front ++ child :: back := List.mem_append_right _ (List.mem_cons_self ..)
  have hneChild := (hfilledChildren child hmem).entries_ne_nil h.admits_leaf
  obtain ⟨hlookup, hput⟩ := @ChildFor.lookup_eq _ _ _ _ _ value _ hchild hsorted hneChild
  rw [pageIds_internal] at hnodup hnext
  obtain ⟨hself, -⟩ := List.nodup_cons.mp hnodup
  obtain ⟨hnextSelf, hnextChildren⟩ := not_or.mp (mt List.mem_cons.mpr hnext)
  have hsortedPut := hsorted.put key value
  rw [hput] at hsortedPut
  refine (runs_childPageIdForKey hpage hchild).bind fun childPageId array ⟨hid, harray⟩ => ?_
  subst hid harray
  refine hinsert.bind ?_ ?_
  · rintro _ array' (⟨_, split, habsent, hinserted⟩ | _)
    have habsent' : lookup key (Subtree.internal pageId (front ++ child :: back) hne).entries = none := by
      rw [entries_internal, hlookup, habsent]
    cases hinserted with
    | whole child' hreplaced hpageId hentries hfilled' =>
      obtain ⟨hreplaced, hholds⟩ := hlift array' [child'] hreplaced
      rw [List.append_assoc, List.singleton_append] at hreplaced
      have hneChild' := hfilled'.entries_ne_nil h.admits_leaf
      have hholds' := hholds.replaceChild hpageId fun hfront =>
        minKey_of_put (sorted_of_mem hsorted hmem) hneChild (hchild.minKey_le hfront) hneChild'
          (hentries.symm.trans (List.append_nil _).symm)
      refine yields_pure (.inserted array' none habsent' (.whole (Subtree.internal pageId
        (front ++ child' :: back) (List.append_ne_nil_of_right_ne_nil _ (List.cons_ne_nil _ _)))
        (hreplaced.internal (.refl _ _) hholds' hself hpage.lt hnextSelf) rfl ?_ ⟨?_, ?_⟩))
      · rw [entries_internal, entries_internal, hput, List.flatMap_append, List.flatMap_cons, hentries,
          List.append_assoc]
      · rwa [List.length_append, List.length_cons] at hlength ⊢
      · have hfilledAfter := forall_mem_replace hfilledChildren
          (List.forall_mem_singleton.mpr hfilled')
        rwa [List.append_assoc, List.singleton_append] at hfilledAfter
    | split left right hreplaced hpageId hentries hleft hright =>
      obtain ⟨hreplaced, hholds⟩ := hlift array' [left, right] hreplaced
      have hneLeft := hleft.entries_ne_nil h.admits_leaf
      have hfilledAfter := forall_mem_replace hfilledChildren
        (List.forall_mem_cons.mpr ⟨hleft, List.forall_mem_singleton.mpr hright⟩)
      rw [List.append_assoc, List.cons_append, List.singleton_append] at hreplaced hfilledAfter
      have hentriesAfter : (front ++ left :: right :: back).flatMap entries =
          put key value ((front ++ child :: back).flatMap entries) := by
        rw [hput, ← hentries, List.flatMap_append, List.flatMap_cons, List.flatMap_cons]
        simp only [List.append_assoc]
      rw [← hput, ← hentriesAfter] at hsortedPut
      have hneAfter : ∀ c ∈ front ++ left :: right :: back, c.entries ≠ [] := fun c hc =>
        (hfilledAfter c hc).entries_ne_nil h.admits_leaf
      replace hholds := hholds.replaceChild hpageId fun hfront =>
        minKey_of_put (sorted_of_mem hsorted hmem) hneChild (hchild.minKey_le hfront) hneLeft
          hentries.symm
      refine yields_withMutablePage_node hactive hholds fun data hshows =>
        yields_ok_bind hshows.openAs_ok ?_
      have hcount : BTreePage.keyCount data = front.length + back.length := by
        rw [List.map_append, List.map_cons] at hshows
        rw [hshows.keyCount_branches, List.length_map, List.length_map]
      rw [BTreeInternalPage.capacity, hcount, hshows.capacityOf_eq]
      split
      · rename_i hroom
        refine Yields.mono (runs_insertChild hholds hshows (sorted_branches hsortedPut hneAfter) hroom) ?_
        rintro _ array'' ⟨_, rfl, rfl, hchange, hholds'⟩
        refine .inserted array'' none habsent' (.whole (Subtree.internal pageId
          (front ++ left :: right :: back) (List.append_ne_nil_of_right_ne_nil _ (List.cons_ne_nil _ _)))
          (hreplaced.internal hchange hholds' hself hpage.lt hnextSelf) rfl ?_ ⟨?_, hfilledAfter⟩)
        · rw [entries_internal, entries_internal, hentriesAfter]
        · refine hlength.trans ?_
          rw [List.length_append, List.length_append, List.length_cons, List.length_cons,
            List.length_cons]
          omega
      · rename_i hfull
        have hfits : front.length + back.length ≤ layout.capacity .internal := by
          rw [← hcount, hshows.keyCount_eq]
          exact hshows.fits
        refine Yields.mono (runs_splitInternal hactive hlayout hne hreplaced hholds hshows hself hpage.lt
          hnextSelf (hreplaced.next_not_mem hnextChildren hsuccessor) (by omega) hsortedPut
          hneAfter) ?_
        rintro _ array'' ⟨_, rfl, lefts, rights, rightPageId, hlefts, hrights, hsplit, hleftLength,
          hrightLength, hreplaced', rfl⟩
        rw [hsplit] at hfilledAfter hentriesAfter
        refine .inserted array'' _ habsent' (.split (Subtree.internal pageId lefts hlefts)
          (Subtree.internal rightPageId rights hrights) hreplaced' rfl ?_
          ⟨hleftLength, fun c hc => hfilledAfter c (List.mem_append_left _ hc)⟩
          ⟨hrightLength, fun c hc => hfilledAfter c (List.mem_append_right _ hc)⟩)
        rw [entries_internal, entries_internal, entries_internal, ← hentriesAfter,
          List.flatMap_append]
  · rintro status array' (_ | ⟨value', hpresent⟩)
    refine .duplicate value' ?_
    rw [entries_internal, hlookup, hpresent]

end Internal

/-! ## Subtrees -/

/-- An insertion into a subtree: the recursion down to the leaf of the key and the
splits on the way back. -/
theorem yields_insertIntoSubtree (hactive : ctx.status = .active) (hlayout : HasLayout tree layout)
    (h : Stored array isRoot parent previous next t) (hnodup : t.pageIds.Nodup)
    (hnext : next ∉ t.pageIds) {node : Node layout .leaf}
    (hsuccessor : Successor array next node (lastLeaf previous t.leaves))
    (hsorted : Sorted t.entries) (hfilled : t.Filled isRoot) {fuel : Nat} (hfuel : height < fuel) :
    Yields ctx (tree.insertIntoSubtree key.bytes value.bytes fuel t.pageId) array
      (InsertEnds array isRoot parent previous next t key value) := by
  obtain ⟨fuel, rfl⟩ := Nat.exists_eq_succ_of_ne_zero (Nat.zero_lt_of_lt hfuel).ne'
  induction height generalizing isRoot parent previous next fuel node with
  | zero =>
    obtain ⟨pageId, entries⟩ := t
    have hpage : Holds array pageId (Node.leaf isRoot parent previous next entries) := h
    refine (runs_pageKind hpage).bind fun pageKind array ⟨hkind, harray⟩ => ?_
    subst hkind harray
    refine yields_insertIntoLeaf hactive hlayout h hsuccessor ?_ ?_ hfilled
    · exact fun heq => hnext (List.mem_singleton.mpr heq)
    · exact entries_leaf pageId entries ▸ hsorted
  | succ height ih =>
    obtain ⟨pageId, children, hne⟩ := t
    obtain ⟨fuel, rfl⟩ := Nat.exists_eq_succ_of_ne_zero
      (Nat.zero_lt_of_lt (Nat.lt_of_succ_lt_succ hfuel)).ne'
    have hsorted' : Sorted (children.flatMap entries) := entries_internal ▸ hsorted
    obtain ⟨front, child, back, rfl, hchild⟩ := exists_childFor hne hsorted'
      (fun c hc => (hfilled.2 c hc).entries_ne_nil h.admits_leaf) key
    have hmem : child ∈ front ++ child :: back := List.mem_append_right _ (List.mem_cons_self ..)
    refine (runs_pageKind h.1).bind fun pageKind array ⟨hkind, harray⟩ => ?_
    subst hkind harray
    obtain ⟨hstored, hnodupChild, hnextChild, ⟨node', hsuccessor'⟩, -⟩ :=
      Stored.child h hnodup hnext hsuccessor
    exact yields_insertIntoInternal hactive hlayout h hnodup hnext hsuccessor hsorted hfilled hchild
      (ih hstored hnodupChild hnextChild hsuccessor' (sorted_of_mem hsorted' hmem)
        (hfilled.2 child hmem) fuel (Nat.lt_of_succ_lt_succ hfuel))

end DanDB.BTree
