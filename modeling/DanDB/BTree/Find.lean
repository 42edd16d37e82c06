import DanDB.BTree.SubtreeChanges
import DanDB.BTree.SubtreeOrder

/-!
# Walks down a tree

The walk to the leaf of a key and the walks to the first leaf.  A walk ends,
because the pages on its way are different ones.
-/

namespace DanDB.BTree

open Buffer DanDB.Core Storage PageProgram Subtree Entries

variable {layout : Layout} {height : Nat} {isRoot : Bool} {parent previous next : PageId}
  {array array' : PageArray} {spare : Nat} {ctx : PageContext (spare + 3)} {t : Subtree layout height}
  {ts front back : List (Subtree layout height)} {key : layout.Key}

/-! ## Heights -/

theorem Subtree.height_lt_length (t : Subtree layout height) : height < t.pageIds.length := by
  induction height with
  | zero =>
    obtain ⟨pageId, entries⟩ := t
    exact Nat.zero_lt_one
  | succ height ih =>
    obtain ⟨pageId, children, hne⟩ := t
    obtain ⟨first, rest, rfl⟩ := List.exists_cons_of_ne_nil hne
    have hfirst := ih first
    have hlength : (@pageIds layout (height + 1) (pageId, ⟨first :: rest, hne⟩)).length =
        first.pageIds.length + (rest.flatMap pageIds).length + 1 := by
      rw [← List.length_append]
      rfl
    omega

/-- There are as many different page ids. -/
theorem length_le_walkLimit {pageIds : List PageId} (h : pageIds.Nodup) :
    pageIds.length ≤ walkLimit := by
  have hnodup : (pageIds.map UInt64.toNat).Nodup := h.map fun _ _ => UInt64.toNat_inj.mp
  have hsub : pageIds.map UInt64.toNat ⊆ List.range walkLimit := by
    intro n hn
    obtain ⟨pageId, -, rfl⟩ := List.mem_map.mp hn
    exact List.mem_range.mpr pageId.toNat_lt
  have hle := (List.subperm_of_subset hnodup hsub).length_le
  rwa [List.length_map, List.length_range] at hle

theorem Subtree.height_lt_walkLimit (h : t.pageIds.Nodup) : height < walkLimit :=
  t.height_lt_length.trans_le (length_le_walkLimit h)

/-! ## The leaf of a key -/

/-- Entries of leaves. -/
abbrev leafEntries (leaves : List (PageId × List (layout.Entry .leaf))) :
    List (layout.Entry .leaf) := leaves.flatMap Prod.snd

theorem leafEntries_leaves (ts : List (Subtree layout height)) :
    leafEntries (ts.flatMap leaves) = ts.flatMap entries := List.flatMap_assoc

/-- The leaf that a key belongs to. -/
structure LeafFor (key : layout.Key)
    (front : List (PageId × List (layout.Entry .leaf))) (back : List (PageId × List (layout.Entry .leaf))) :
    Prop where
  lt : ∀ entry ∈ leafEntries front, entry.1 < key
  gt : ∀ entry ∈ leafEntries back, key < entry.1

/-- The leaf of a key in a child is its leaf in the page above. -/
theorem ChildFor.leafFor (h : ChildFor key front t back)
    (hsorted : Sorted ((front ++ t :: back).flatMap entries)) (hne : t.entries ≠ [])
    {leafPageId : PageId} {leafEntries : List (layout.Entry .leaf)}
    {front' back' : List (PageId × List (layout.Entry .leaf))}
    (hleaves : t.leaves = front' ++ (leafPageId, leafEntries) :: back')
    (hleaf : LeafFor key front' back') :
    (front ++ t :: back).flatMap leaves =
        (front.flatMap leaves ++ front') ++ (leafPageId, leafEntries) :: (back' ++ back.flatMap leaves) ∧
      LeafFor key (front.flatMap leaves ++ front') (back' ++ back.flatMap leaves) := by
  refine ⟨?_, ?_, ?_⟩
  · rw [List.flatMap_append, List.flatMap_cons, hleaves]
    simp only [List.append_assoc, List.cons_append]
  · intro entry hentry
    rw [BTree.leafEntries, List.flatMap_append] at hentry
    obtain hentry | hentry := List.mem_append.mp hentry
    · rw [← BTree.leafEntries, leafEntries_leaves] at hentry
      exact h.front_lt hsorted hne hentry
    · exact hleaf.lt entry hentry
  · intro entry hentry
    rw [BTree.leafEntries, List.flatMap_append] at hentry
    obtain hentry | hentry := List.mem_append.mp hentry
    · exact hleaf.gt entry hentry
    · rw [← BTree.leafEntries, leafEntries_leaves] at hentry
      obtain ⟨-, hback, -⟩ := sorted_flatMap_append hsorted
      exact h.lt_back (sorted_append.mp hback).2.1 hentry

theorem runs_childTowards_leaf {pageId : PageId} {node : Node layout .leaf}
    (h : Holds array pageId node) :
    Runs ctx (childTowards key.bytes pageId) array fun child array' =>
      child = none ∧ array' = array :=
  yields_withPage_node h fun data hshows => yields_ok_bind hshows.openPage_ok (by
    rw [hshows.kind_eq]
    exact runs_pure ⟨rfl, rfl⟩)

theorem runs_childTowards {pageId : PageId} (h : Holds array pageId
      (Node.internal isRoot parent ((front ++ t :: back).map branch)))
    (hchild : ChildFor key front t back) :
    Runs ctx (childTowards key.bytes pageId) array fun child array' =>
      child = some t.pageId ∧ array' = array := by
  refine yields_withPage_node h fun data hshows => yields_ok_bind hshows.openPage_ok ?_
  rw [hshows.kind_eq]
  refine yields_ok_bind hshows.openAs_ok ?_
  rw [List.map_append, List.map_cons] at hshows
  exact yields_ok_bind (hshows.childPageIdForKey_branches hchild.branch_le hchild.lt_branch)
    (runs_pure ⟨rfl, rfl⟩)

theorem runs_findLeafFrom (h : Stored array isRoot parent previous next t)
    (hsorted : Sorted t.entries) (hfilled : t.Filled isRoot) {fuel : Nat} (hfuel : height < fuel) :
    Runs ctx (findLeafFrom key.bytes fuel t.pageId) array fun leafPageId array' =>
      array' = array ∧ ∃ front entries back, t.leaves = front ++ (leafPageId, entries) :: back ∧
        LeafFor key front back := by
  obtain ⟨fuel, rfl⟩ := Nat.exists_eq_succ_of_ne_zero (Nat.zero_lt_of_lt hfuel).ne'
  induction height generalizing isRoot parent previous next fuel with
  | zero =>
    obtain ⟨pageId, entries⟩ := t
    refine (runs_childTowards_leaf h).bind fun child array' ⟨hchild, harray⟩ => ?_
    subst hchild harray
    exact runs_pure ⟨rfl, [], entries, [], rfl, nofun, nofun⟩
  | succ height ih =>
    obtain ⟨pageId, children, hne⟩ := t
    obtain ⟨fuel, rfl⟩ := Nat.exists_eq_succ_of_ne_zero
      (Nat.zero_lt_of_lt (Nat.lt_of_succ_lt_succ hfuel)).ne'
    have hsorted' : Sorted (children.flatMap entries) := entries_internal ▸ hsorted
    obtain ⟨front, child, back, rfl, hchild⟩ := exists_childFor hne hsorted'
      (fun c hc => (hfilled.2 c hc).entries_ne_nil h.admits_leaf) key
    have hmem : child ∈ front ++ child :: back :=
      List.mem_append_right _ (List.mem_cons_self ..)
    have hfilledChild := hfilled.2 child hmem
    refine (runs_childTowards h.1 hchild).bind fun c array' ⟨hc, harray⟩ => ?_
    subst hc harray
    obtain ⟨-, hlinked⟩ := linked_append.mp (stored_internal.mp h).2
    refine (ih hlinked.1 (sorted_of_mem hsorted' hmem) hfilledChild fuel
      (Nat.lt_of_succ_lt_succ hfuel)).mono ?_
    rintro leafPageId array' ⟨harray, front', entries, back', hleaves, hleaf⟩
    obtain ⟨hsplit, hleaf'⟩ := hchild.leafFor hsorted' (hfilledChild.entries_ne_nil h.admits_leaf)
      hleaves hleaf
    exact ⟨harray, _, entries, _, hsplit, hleaf'⟩

/-! ## One leaf of a tree -/

/-- A place in a list that was put together of lists. -/
theorem exists_split_of_flatMap {α β : Type} {f : α → List β} {as : List α} {front back : List β}
    {b : β} (h : as.flatMap f = front ++ b :: back) : ∃ as₁ a as₂ front' back',
      as = as₁ ++ a :: as₂ ∧ f a = front' ++ b :: back' ∧ front = as₁.flatMap f ++ front' ∧
        back = back' ++ as₂.flatMap f := by
  induction as generalizing front with
  | nil => exact absurd h.symm (List.append_ne_nil_of_right_ne_nil _ (List.cons_ne_nil _ _))
  | cons a as ih =>
    rw [List.flatMap_cons, List.append_eq_append_iff] at h
    obtain ⟨rest, hfront, hrest⟩ | ⟨rest, ha, hrest⟩ := h
    · obtain ⟨as₁, a', as₂, front', back', rfl, ha', hfront', hback⟩ := ih hrest
      exact ⟨a :: as₁, a', as₂, front', back', rfl, ha', by
        rw [hfront, hfront', List.flatMap_cons, List.append_assoc], hback⟩
    · cases rest with
      | nil =>
        obtain ⟨as₁, a', as₂, front', back', rfl, ha', hfront', hback⟩ := @ih [] hrest.symm
        refine ⟨a :: as₁, a', as₂, front', back', rfl, ha', ?_, hback⟩
        rw [List.flatMap_cons, List.append_assoc, ← hfront', List.append_nil, ha, List.append_nil]
      | cons b' rest =>
        obtain ⟨rfl, hback⟩ := List.cons.inj hrest
        exact ⟨[], a, as, front, rest, rfl, ha, (List.nil_append _).symm, hback⟩

/-- The page of a leaf, and what becomes of the tree when it gets other values. -/
theorem Stored.focus (h : Stored array isRoot parent previous next t) (hnodup : t.pageIds.Nodup)
    {leafPageId : PageId} {entries : List (layout.Entry .leaf)}
    {front back : List (PageId × List (layout.Entry .leaf))}
    (hleaves : t.leaves = front ++ (leafPageId, entries) :: back) : ∃ isRoot' parent',
      Holds array leafPageId
        (Node.leaf isRoot' parent' (lastLeaf previous front) (firstLeaf back next) entries) ∧
      ∀ entries' : List (layout.Entry .leaf), entries'.map Prod.fst = entries.map Prod.fst →
        ∃ t' : Subtree layout height, t'.pageId = t.pageId ∧ t'.pageIds = t.pageIds ∧
          t'.leaves = front ++ (leafPageId, entries') :: back ∧ (t.Filled isRoot → t'.Filled isRoot) ∧
          ∀ array', OnlyChanges [leafPageId] array array' → Holds array' leafPageId
            (Node.leaf isRoot' parent' (lastLeaf previous front) (firstLeaf back next) entries') →
            Stored array' isRoot parent previous next t' := by
  induction height generalizing isRoot parent previous next front back with
  | zero =>
    obtain ⟨pageId, entries₀⟩ := t
    have hsingle : [(pageId, entries₀)] = front ++ (leafPageId, entries) :: back := hleaves
    obtain ⟨rfl, hleaf, rfl⟩ : front = [] ∧ (pageId, entries₀) = (leafPageId, entries) ∧ back = [] := by
      cases front with
      | nil => exact ⟨rfl, (List.cons.inj hsingle).1, (List.cons.inj hsingle).2.symm⟩
      | cons l front =>
        exact absurd (List.cons.inj hsingle).2.symm
          (List.append_ne_nil_of_right_ne_nil _ (List.cons_ne_nil _ _))
    cases hleaf
    refine ⟨isRoot, parent, h, fun entries' hkeys => ⟨Subtree.leaf leafPageId entries', rfl, rfl, rfl, ?_,
      fun _ _ hholds => hholds⟩⟩
    have hlength : entries'.length = entries.length := by
      rw [← List.length_map (f := Prod.fst), hkeys, List.length_map]
    exact fun hfilled => Or.imp_right (fun hle => hle.trans_eq hlength.symm) hfilled
  | succ height ih =>
    obtain ⟨pageId, children, hne⟩ := t
    obtain ⟨childrenFront, child, childrenBack, front', back', rfl, hchild, rfl, rfl⟩ :=
      exists_split_of_flatMap hleaves
    obtain ⟨hpage, hchildren⟩ := h
    obtain ⟨hfront, hlinked⟩ := linked_append.mp hchildren
    obtain ⟨hself, hbelow⟩ := List.nodup_cons.mp hnodup
    rw [List.flatMap_append, List.flatMap_cons] at hself hbelow
    obtain ⟨-, hnodupRight, hdisjoint⟩ := List.nodup_append.mp hbelow
    obtain ⟨hnodupChild, -, hdisjointBack⟩ := List.nodup_append.mp hnodupRight
    have hmem : leafPageId ∈ child.pageIds := child.leaf_mem (l := (leafPageId, entries))
      (hchild ▸ List.mem_append_right _ (List.mem_cons_self ..))
    obtain ⟨isRoot', parent', hholds, hstored⟩ := ih hlinked.1 hnodupChild hchild
    rw [lastLeaf_append, firstLeaf_append]
    refine ⟨isRoot', parent', hholds, fun entries' hkeys => ?_⟩
    obtain ⟨child', hpageId, hpageIds, hleaves', hfilled', hstored'⟩ := hstored entries' hkeys
    have hminKey : child'.minKey = child.minKey := by
      rw [minKey, minKey, Subtree.entries, Subtree.entries, hchild, hleaves']
      simp only [List.flatMap_append, List.flatMap_cons, List.map_append, hkeys]
    have hbranch : child'.branch = child.branch := by
      rw [branch, branch, hminKey, hpageId]
    have hne' : childrenFront ++ child' :: childrenBack ≠ [] :=
      List.append_ne_nil_of_right_ne_nil _ (List.cons_ne_nil _ _)
    refine ⟨Subtree.internal pageId (childrenFront ++ child' :: childrenBack) hne', rfl, ?_, ?_, ?_, ?_⟩
    · rw [pageIds_internal, List.flatMap_append, List.flatMap_cons, hpageIds,
        ← List.flatMap_cons, ← List.flatMap_append]
      rfl
    · rw [leaves_internal, List.flatMap_append, List.flatMap_cons, hleaves']
      simp only [List.append_assoc, List.cons_append]
    · rintro ⟨hlength, hfilled⟩
      refine ⟨?_, fun c hc => ?_⟩
      · rwa [List.length_append, List.length_cons] at hlength ⊢
      · obtain hc | hc := List.mem_append.mp hc
        · exact hfilled c (List.mem_append_left _ hc)
        · obtain rfl | hc := List.mem_cons.mp hc
          · exact hfilled' (hfilled child (List.mem_append_right _ (List.mem_cons_self ..)))
          · exact hfilled c (List.mem_append_right _ (List.mem_cons_of_mem _ hc))
    · intro array' hchange hholds'
      have hlast : lastLeaf (lastLeaf previous (childrenFront.flatMap leaves)) child'.leaves =
          lastLeaf (lastLeaf previous (childrenFront.flatMap leaves)) child.leaves := by
        rw [hleaves', hchild, lastLeaf_append, lastLeaf_append]
        rfl
      have hfirst (next : PageId) : firstLeaf child'.leaves next = firstLeaf child.leaves next := by
        rw [hleaves', hchild, firstLeaf_append, firstLeaf_append]
        rfl
      refine ⟨?_, linked_append.mpr ⟨?_, linked_cons.mpr ⟨?_, ?_⟩⟩⟩
      · rw [List.map_append, List.map_cons, hbranch, ← List.map_cons, ← List.map_append]
        refine hchange.holds (fun hown => hself ?_) hpage
        rw [List.mem_singleton.mp hown]
        exact List.mem_append_right _ (List.mem_append_left _ hmem)
      · rw [List.flatMap_cons, firstLeaf_append, hfirst, ← firstLeaf_append, ← List.flatMap_cons]
        refine hfront.only hchange fun id hid hown => ?_
        rw [List.mem_singleton.mp hown] at hid
        exact hdisjoint _ hid _ (List.mem_append_left _ hmem) rfl
      · exact hstored' array' hchange hholds'
      · rw [hlast]
        refine Linked.only hlinked.2 hchange fun id hid hown => ?_
        rw [List.mem_singleton.mp hown] at hid
        exact hdisjointBack _ hmem _ hid rfl

/-! ## Finding and updating -/

/-- The pages hold a tree: its root page and everything below it. -/
structure WellFormed (array : PageArray) (tree : BTree) (t : Subtree layout height) : Prop where
  rootPageId : tree.rootPageId = t.pageId
  hasLayout : HasLayout tree layout
  stored : Stored array true invalidPageId invalidPageId invalidPageId t
  nodup : t.pageIds.Nodup
  filled : t.Filled true
  sorted : Sorted t.entries

/-- An operation has made other entries of the tree; only its own pages and new ones
have changed. -/
def Becomes (array : PageArray) (tree : BTree) (t : Subtree layout height)
    (entries : List (layout.Entry .leaf)) (array' : PageArray) : Prop :=
  ∃ (height' : Nat) (t' : Subtree layout height'), WellFormed array' tree t' ∧ t'.entries = entries ∧
    OnlyChanges t.pageIds array array' ∧
    ∀ pageId ∈ t'.pageIds, pageId < array.header.pageCount → pageId ∈ t.pageIds

namespace WellFormed

variable {tree : BTree} (h : WellFormed array tree t)

include h

theorem becomes_self : Becomes array tree t t.entries array :=
  ⟨height, t, h, rfl, .refl _ _, fun _ hmem _ => hmem⟩

/-- The walk to the leaf of a key. -/
theorem runs_findLeafPageId (key : layout.Key) :
    Runs ctx (tree.findLeafPageId key.bytes) array fun leafPageId array' =>
      array' = array ∧ ∃ front entries back, t.leaves = front ++ (leafPageId, entries) :: back ∧
        LeafFor key front back := by
  rw [findLeafPageId, h.rootPageId]
  exact runs_findLeafFrom h.stored h.sorted h.filled (Subtree.height_lt_walkLimit h.nodup)

omit h in
/-- The entries around those of a leaf. -/
theorem entries_split {leafPageId : PageId} {entries : List (layout.Entry .leaf)}
    {front back : List (PageId × List (layout.Entry .leaf))}
    (hleaves : t.leaves = front ++ (leafPageId, entries) :: back) :
    t.entries = leafEntries front ++ entries ++ leafEntries back := by
  rw [Subtree.entries, hleaves, List.flatMap_append, List.flatMap_cons, List.append_assoc]

/-- What concerns a key concerns its leaf alone. -/
theorem leafFor {leafPageId : PageId} {entries : List (layout.Entry .leaf)}
    {front back : List (PageId × List (layout.Entry .leaf))}
    (hleaves : t.leaves = front ++ (leafPageId, entries) :: back) (hleaf : LeafFor key front back) :
    Sorted entries ∧ lookup key t.entries = lookup key entries ∧
      ∀ value, put key value t.entries =
        leafEntries front ++ put key value entries ++ leafEntries back := by
  rw [entries_split hleaves]
  obtain ⟨hsortedFront, -, -⟩ := sorted_append.mp (entries_split hleaves ▸ h.sorted)
  obtain ⟨-, hsorted, -⟩ := sorted_append.mp hsortedFront
  refine ⟨hsorted, ?_, fun value => put_append hleaf.lt hleaf.gt⟩
  rw [lookup_append, lookup_append, lookup_eq_none.mpr fun e he => (hleaf.lt e he).ne,
    lookup_eq_none.mpr fun e he => (hleaf.gt e he).ne', Option.none_or, Option.or_none]

theorem yields_find (key : layout.Key) :
    Yields ctx (tree.find key.bytes) array fun r array' => array' = array ∧
      r = (lookup key t.entries).elim
        (.error (.NotFound "Cannot find B+ tree key: key was not found")) fun value =>
          .ok value.bytes := by
  refine yields_failIf_bind (fun hne => absurd (key.size_eq.trans h.hasLayout.keySize.symm) hne) fun _ => ?_
  refine (h.runs_findLeafPageId key).bind ?_
  rintro leafPageId array' ⟨rfl, leavesFront, entries, leavesBack, hleaves, hleaf⟩
  obtain ⟨isRoot', parent', hholds, -⟩ := h.stored.focus h.nodup hleaves
  obtain ⟨hsorted, hlookup, -⟩ := h.leafFor hleaves hleaf
  rw [hlookup]
  refine yields_withPage_node hholds fun data hshows => yields_ok_bind hshows.openAs_ok ?_
  obtain ⟨front, back, hfront, hback, rfl | ⟨value, rfl⟩⟩ := hsorted.cases_split key
  · rw [hshows.positionOfKey_absent _ rfl hfront hback, lookup_split_none hfront hback]
    exact yields_done ⟨rfl, rfl⟩
  · rw [lookup_split hfront]
    refine yields_ok_bind (hshows.positionOfKey_ok _ rfl hfront hback) ?_
    rw [hshows.valueAt_ok rfl]
    exact yields_done ⟨rfl, rfl⟩

theorem yields_updateValue (hactive : ctx.status = .active) (key : layout.Key)
    (value : layout.Value) : Yields ctx (tree.updateValue key.bytes value.bytes) array fun r array' =>
      (lookup key t.entries).elim
        (r = .error (.NotFound "Cannot update B+ tree leaf page value: key was not found") ∧
          array' = array) fun _ =>
        r = .ok () ∧ Becomes array tree t (put key value t.entries) array' := by
  refine yields_failIf_bind (fun hne => absurd (key.size_eq.trans h.hasLayout.keySize.symm) hne) fun _ => ?_
  refine yields_failIf_bind (fun hne => absurd (value.size_eq.trans h.hasLayout.valueSize.symm) hne)
    fun _ => ?_
  refine (h.runs_findLeafPageId key).bind ?_
  rintro leafPageId array' ⟨rfl, leavesFront, entries, leavesBack, hleaves, hleaf⟩
  obtain ⟨isRoot', parent', hholds, hstored⟩ := h.stored.focus h.nodup hleaves
  obtain ⟨hsorted, hlookup, hput⟩ := h.leafFor hleaves hleaf
  rw [hlookup]
  have ⟨data, hpresent, hshows⟩ := hholds
  refine yields_withMutablePage_node hactive hholds fun _ hshows' =>
    yields_ok_bind hshows'.openAs_ok ?_
  obtain ⟨front, back, hfront, hback, rfl | ⟨value', rfl⟩⟩ := hsorted.cases_split key
  · rw [lookup_split_none hfront hback]
    have hupdate := hshows.updateValue_absent rfl hfront hback value
    refine yields_edit rfl hpresent.page ?_ ?_
    · intro data' hok
      rw [hupdate] at hok
      cases hok
    · intro status herror
      rw [hupdate] at herror
      cases herror
      exact ⟨rfl, rfl⟩
  · rw [lookup_split hfront]
    obtain ⟨t', hpageId, hpageIds, hleaves', hfilled, hstored'⟩ :=
      hstored (front ++ (key, value) :: back) (by simp)
    have hedit : Runs (ctx.pin leafPageId true)
        (edit 0 (BTreeLeafPage.updateValue · key.bytes value.bytes)) array' fun _ array'' =>
          OnlyChanges [leafPageId] array' array'' ∧ Holds array'' leafPageId (Node.leaf isRoot'
            parent' (lastLeaf invalidPageId leavesFront) (firstLeaf leavesBack invalidPageId)
            (front ++ (key, value) :: back)) :=
      runs_edit_present rfl hpresent (hshows.updateValue_ok rfl hfront hback value)
    have hentries : t'.entries = put key value t.entries := by
      rw [entries_split hleaves', hput, put_split_same hfront hback]
    refine Yields.mono hedit ?_
    rintro r array'' ⟨_, rfl, hchange, hholds'⟩
    refine ⟨rfl, height, t', ?_, hentries, hchange.mono ?_, fun id hid _ => hpageIds ▸ hid⟩
    · exact ⟨h.rootPageId.trans hpageId.symm, h.hasLayout, hstored' array'' hchange hholds',
        hpageIds.symm ▸ h.nodup, hfilled h.filled, hentries.symm ▸ h.sorted.put key value⟩
    · rintro id hid
      rw [List.mem_singleton.mp hid]
      exact t.leaf_mem (hleaves ▸ List.mem_append_right _ (List.mem_cons_self ..))

end WellFormed

end DanDB.BTree
