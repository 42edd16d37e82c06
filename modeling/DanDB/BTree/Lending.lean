import DanDB.BTree.Reshaping

/-!
# Lending entries

The steps of the rebalancing of two siblings: what a page may lend, and how an entry
or a child goes from one page to the other.
-/

namespace DanDB.BTree

open Buffer DanDB.Core Storage PageProgram Subtree Entries

variable {layout : Layout} {height : Nat} {isRoot : Bool} {parent previous next pageId : PageId}
  {array array' : PageArray} {spare : Nat} {ctx : PageContext (spare + 3)} {tree : BTree}

/-! ## Leaves -/

section Leaf

variable {entries front back : List (layout.Entry .leaf)} {entry : layout.Entry .leaf}
  {page : PageData} {entryIndex : Nat → Nat}

theorem minimumKeyCount_eq {kind : BTreePageKind} {node : Node layout kind} (h : node.Shows page) :
    minimumKeyCount page kind = layout.minimum kind := by
  cases kind with
  | leaf => rw [minimumKeyCount, BTreeLeafPage.capacity, h.capacityOf_eq]; rfl
  | internal => rw [minimumKeyCount, BTreeInternalPage.capacity, h.capacityOf_eq]; rfl

theorem runs_leafEntryToLend
    (h : Holds array pageId (Node.leaf isRoot parent previous next (front ++ entry :: back)))
    (hindex : entryIndex (front ++ entry :: back).length = front.length)
    (hmore : layout.minimum .leaf < (front ++ entry :: back).length) :
    Runs ctx (leafEntryToLend pageId entryIndex) array fun borrowed array' =>
      borrowed = some (front.length, layout.entryBytes .leaf entry) ∧ array' = array := by
  refine yields_withPage_node h fun data hshows => yields_ok_bind hshows.openAs_ok ?_
  have hcount : BTreePage.keyCount data = (front ++ entry :: back).length := hshows.keyCount_eq
  rw [minimumKeyCount_eq hshows, hcount, if_pos hmore, hindex]
  exact yields_ok_bind (hshows.entryAt_split rfl) (runs_pure ⟨rfl, rfl⟩)

theorem runs_leafEntryToLend_none
    (h : Holds array pageId (Node.leaf isRoot parent previous next entries))
    (hfew : entries.length ≤ layout.minimum .leaf) :
    Runs ctx (leafEntryToLend pageId entryIndex) array fun borrowed array' =>
      borrowed = none ∧ array' = array := by
  refine yields_withPage_node h fun data hshows => yields_ok_bind hshows.openAs_ok ?_
  have hcount : BTreePage.keyCount data = entries.length := hshows.keyCount_eq
  rw [minimumKeyCount_eq hshows, hcount, if_neg (Nat.not_lt.mpr hfew)]
  exact runs_pure ⟨rfl, rfl⟩

theorem runs_addLeafEntry (hactive : ctx.status = .active) (hlayout : HasLayout tree layout)
    (h : Holds array pageId (Node.leaf isRoot parent previous next (front ++ back)))
    (hindex : entryIndex (front ++ back).length = front.length)
    (hsorted : Sorted (front ++ entry :: back))
    (hroom : (front ++ back).length < layout.capacity .leaf) :
    Runs ctx (tree.addLeafEntry pageId entryIndex (layout.entryBytes .leaf entry)) array
      fun _ array' => OnlyChanges [pageId] array array' ∧
        Holds array' pageId (Node.leaf isRoot parent previous next (front ++ entry :: back)) := by
  refine yields_withMutablePage_node hactive h fun data hshows => yields_ok_bind hshows.openAs_ok ?_
  have hcount : BTreePage.keyCount data = (front ++ back).length := hshows.keyCount_eq
  obtain ⟨-, hback, hfront⟩ := sorted_append.mp hsorted
  obtain ⟨hback, -⟩ := sorted_cons.mp hback
  rw [hcount, hindex]
  refine runs_edit_node rfl h fun data hshows => ?_
  rw [Node.Shows.insertLeafEntry_entryBytes hlayout]
  exact hshows.insertEntry_ok rfl entry.2
    (fun a ha => (hfront a ha entry (List.mem_cons_self ..)).le) (fun b hb => (hback b hb).le) hroom

theorem runs_eraseLeafEntry (hactive : ctx.status = .active)
    (h : Holds array pageId (Node.leaf isRoot parent previous next (front ++ entry :: back))) :
    Runs ctx (eraseLeafEntry pageId front.length) array fun _ array' =>
      OnlyChanges [pageId] array array' ∧
        Holds array' pageId (Node.leaf isRoot parent previous next (front ++ back)) :=
  yields_withMutablePage_node hactive h fun _ hshows => yields_ok_bind hshows.openAs_ok
    (runs_edit_node rfl h fun _ hshows => hshows.eraseEntry_ok rfl)

end Leaf

/-! ## Internal nodes -/

section Internal

variable {ts front back : List (Subtree layout height)} {child left right : Subtree layout height}
  {branches : List (Node.Branch layout)}

theorem runs_eraseInternalEntry (hactive : ctx.status = .active)
    {front back : List (Node.Branch layout)} {left right : Node.Branch layout}
    (h : Holds array pageId (Node.internal isRoot parent (front ++ left :: right :: back))) :
    Runs ctx (eraseInternalEntry pageId front.length) array fun _ array' =>
      OnlyChanges [pageId] array array' ∧
        Holds array' pageId (Node.internal isRoot parent (front ++ left :: back)) :=
  yields_withMutablePage_node hactive h fun _ hshows => yields_ok_bind hshows.openAs_ok
    (runs_edit_node rfl h fun _ hshows => hshows.eraseEntry_branches)

theorem runs_separatorKeyAt {front back : List (Node.Branch layout)} {left right : Node.Branch layout}
    (h : Holds array pageId (Node.internal isRoot parent (front ++ left :: right :: back))) :
    Runs ctx (separatorKeyAt pageId front.length) array fun key array' =>
      key = right.1.bytes ∧ array' = array := by
  refine yields_withPage_node h fun data hshows => yields_ok_bind hshows.openAs_ok ?_
  rw [hshows.keyAt_branches]
  exact runs_pure ⟨rfl, rfl⟩

/-- A page with a branch to spare lends its last child. -/
theorem runs_lastChildToLend {front : List (Node.Branch layout)} {left right : Node.Branch layout}
    (h : Holds array pageId (Node.internal isRoot parent (front ++ [left, right])))
    (hmore : layout.minimum .internal < front.length + 1) :
    Runs ctx (lastChildToLend pageId) array fun borrowed array' =>
      borrowed = some (front.length, right.2) ∧ array' = array := by
  refine yields_withPage_node h fun data hshows => yields_ok_bind hshows.openAs_ok ?_
  rw [minimumKeyCount_eq hshows, hshows.keyCount_branches, List.length_singleton, if_pos hmore,
    Nat.add_sub_cancel]
  exact yields_ok_bind hshows.rightChildPageIdAt_branches (runs_pure ⟨rfl, rfl⟩)

/-- A page with a branch to spare lends its first child. -/
theorem runs_firstChildToLend {back : List (Node.Branch layout)} {left right : Node.Branch layout}
    (h : Holds array pageId (Node.internal isRoot parent (left :: right :: back)))
    (hmore : layout.minimum .internal < back.length + 1) :
    Runs ctx (firstChildToLend pageId) array fun borrowed array' =>
      borrowed = some (left.2, right.2) ∧ array' = array := by
  refine yields_withPage_node h fun data hshows => yields_ok_bind hshows.openAs_ok ?_
  have hcount : BTreePage.keyCount data = back.length + 1 := hshows.keyCount_eq
  rw [minimumKeyCount_eq hshows, hcount, if_pos hmore]
  have hright : BTreeInternalPage.rightChildPageIdAt data 0 = .ok right.2 :=
    hshows.rightChildPageIdAt_ok (List.nil_append _).symm
  exact yields_ok_bind hright (runs_pure ⟨by rw [hshows.firstChild_eq]; rfl, rfl⟩)

theorem runs_childToLend_none {branch : Node.Branch layout}
    (h : Holds array pageId (Node.internal isRoot parent (branch :: branches)))
    (hfew : branches.length ≤ layout.minimum .internal) :
    Runs ctx (lastChildToLend pageId) array (fun borrowed array' =>
        borrowed = none ∧ array' = array) ∧
      Runs ctx (firstChildToLend pageId) array fun borrowed array' =>
        borrowed = none ∧ array' = array := by
  have hcount {data : PageData} (hshows : (Node.internal isRoot parent (branch :: branches)).Shows data) :
      ¬layout.minimum .internal < BTreePage.keyCount data := by
    rw [hshows.keyCount_eq]
    exact Nat.not_lt.mpr hfew
  refine ⟨?_, ?_⟩ <;>
  · refine yields_withPage_node h fun data hshows => yields_ok_bind hshows.openAs_ok ?_
    rw [minimumKeyCount_eq hshows, if_neg (hcount hshows)]
    exact runs_pure ⟨rfl, rfl⟩

/-- A node gets a new first child, and the key of the old one goes down in front of it. -/
theorem runs_addFirstChild (hactive : ctx.status = .active)
    {branch branch' : Node.Branch layout}
    (h : Holds array pageId (Node.internal isRoot parent (branch :: branches)))
    (hsorted : Sorted (branch :: branches)) (hroom : branches.length < layout.capacity .internal) :
    Runs ctx (withMutablePage pageId fun page => do
      let page ← .done (BTreeInternalPage.openPage page)
      edit 0 (BTreeInternalPage.insertEntry · 0 branch.1.bytes (BTreePage.firstChildPageId page))
      update 0 (BTreePage.setFirstChildPageId · branch'.2)) array fun _ array' =>
        OnlyChanges [pageId] array array' ∧
          Holds array' pageId (Node.internal isRoot parent (branch' :: branch :: branches)) := by
  refine yields_withMutablePage_node hactive h fun data hshows => yields_ok_bind hshows.openAs_ok ?_
  have hfirst : BTreePage.firstChildPageId data = branch.2 := hshows.firstChild_eq
  rw [hfirst]
  obtain ⟨hle, -⟩ := sorted_cons.mp hsorted
  refine (runs_edit_node rfl h fun data hshows => @Node.Shows.insertEntry_branches _ _ _ _ [] branches
    branch hshows branch nofun (fun b hb => (hle b hb).le) ?_).bind
      fun _ array₁ ⟨hchange₁, hholds₁⟩ => ?_
  · rwa [List.length_nil, Nat.zero_add]
  refine (runs_update_node rfl hholds₁ fun _ hshows => hshows.setFirstChild_branches branch').mono
    fun _ array₂ ⟨hchange₂, hholds₂⟩ => ⟨hchange₁.trans hchange₂ fun _ hmem _ => hmem, hholds₂⟩

/-- A node gets a new last child. -/
theorem runs_addLastChild (hactive : ctx.status = .active) {branch : Node.Branch layout}
    (h : Holds array pageId (Node.internal isRoot parent branches)) (hne : branches ≠ [])
    (hsorted : Sorted (branches ++ [branch])) (hroom : branches.length ≤ layout.capacity .internal) :
    Runs ctx (withMutablePage pageId fun page => do
      let page ← .done (BTreeInternalPage.openPage page)
      edit 0 (BTreeInternalPage.insertEntry · (BTreePage.keyCount page) branch.1.bytes branch.2)) array
      fun _ array' => OnlyChanges [pageId] array array' ∧
        Holds array' pageId (Node.internal isRoot parent (branches ++ [branch])) := by
  obtain ⟨front, last, hconcat⟩ := (List.eq_nil_or_concat branches).resolve_left hne
  rw [List.concat_eq_append] at hconcat
  subst hconcat
  refine yields_withMutablePage_node hactive h fun data hshows => yields_ok_bind hshows.openAs_ok ?_
  rw [hshows.keyCount_branches, List.length_nil, Nat.add_zero front.length, List.append_assoc,
    List.singleton_append]
  obtain ⟨-, -, hlt⟩ := sorted_append.mp hsorted
  refine runs_edit_node rfl h fun data hshows => hshows.insertEntry_branches branch (fun b hb => ?_)
    nofun ?_
  · exact (hlt b (List.mem_of_mem_tail hb) branch (List.mem_singleton.mpr rfl)).le
  · rw [List.length_append, List.length_singleton] at hroom
    exact hroom

/-- A node loses its first child. -/
theorem runs_dropFirstChild (hactive : ctx.status = .active) {left right : Node.Branch layout}
    (h : Holds array pageId (Node.internal isRoot parent (left :: right :: branches))) :
    Runs ctx (withMutablePage pageId fun page => do
      let _ ← .done (BTreeInternalPage.openPage page)
      update 0 (BTreePage.setFirstChildPageId · right.2)
      edit 0 (BTreeInternalPage.eraseEntry · 0)) array fun _ array' =>
        OnlyChanges [pageId] array array' ∧
          Holds array' pageId (Node.internal isRoot parent (right :: branches)) := by
  refine yields_withMutablePage_node hactive h fun data hshows => yields_ok_bind hshows.openAs_ok ?_
  have hfirst := fun data (hshows : (Node.internal isRoot parent (left :: right :: branches)).Shows data) =>
    hshows.setFirstChild_branches (left.1, right.2)
  refine (runs_update_node rfl h hfirst).bind fun _ array₁ ⟨hchange₁, hholds₁⟩ => ?_
  refine (runs_edit_node rfl hholds₁ fun data hshows => @Node.Shows.eraseEntry_branches _ _ _ _ []
    branches (left.1, right.2) right hshows).mono fun _ array₂ ⟨hchange₂, hholds₂⟩ => ?_
  exact ⟨hchange₁.trans hchange₂ fun _ hmem _ => hmem, hholds₂⟩

end Internal

end DanDB.BTree
