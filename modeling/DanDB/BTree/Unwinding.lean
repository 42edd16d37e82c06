import DanDB.BTree.Walks
import DanDB.Storage.Unwinding

/-!
# Errors in a tree

What a page answers with `NotFound` is a key that is not in the leaf, and nothing
else.  So an erasure that has found its key does not start this error itself.
-/

namespace DanDB.BTree

open Buffer DanDB.Core Storage PageProgram

/-! ## Pages -/

namespace BTreePage

variable {page : PageData} {pageKind : BTreePageKind}

/-- A page that is not a page of a tree is corrupt. -/
theorem other_validatePage (page : PageData) : OtherThanNotFound (validatePage page) := by
  refine (other_failIf (by nofun)).bind fun _ => (other_failIf (by nofun)).bind fun _ => ?_
  refine (other_failIf (by nofun)).bind fun _ => (other_failIf (by nofun)).bind fun _ => ?_
  refine (other_failIf (by nofun)).bind fun _ => (other_failIf (by nofun)).bind fun _ => ?_
  exact (other_failIf (by nofun)).bind fun _ => (other_failIf (by nofun)).bind fun _ => other_failIf (by nofun)

theorem other_openPage (page : PageData) : OtherThanNotFound (openPage page) :=
  (other_validatePage page).bind fun _ => other_ok _

/-- So is a page of the other kind. -/
theorem other_openAs (pageKind : BTreePageKind) (page : PageData) :
    OtherThanNotFound (openAs pageKind page) :=
  (other_openPage page).bind fun _ => (other_failIf (by nofun)).bind fun _ => other_ok _

/-- An entry that the page does not have is out of range. -/
theorem other_partAt (part : String) (page : PageData) (entryIndex offset size : Nat) :
    OtherThanNotFound (partAt pageKind part page entryIndex offset size) :=
  (other_failIf (by nofun)).bind fun _ => other_ok _

/-- A search reads keys. -/
theorem other_searchLoop {before : Ordering → Bool} {key : List Byte} (fuel left right : Nat) :
    OtherThanNotFound (searchLoop pageKind before page key fuel left right) := by
  induction fuel generalizing left right with
  | zero => exact other_ok _
  | succ fuel ih =>
    rw [searchLoop]
    split
    · refine (other_partAt ..).bind fun storedKey => ?_
      split
      · exact ih ..
      · exact ih ..
    · exact other_ok _

theorem other_setKeyCount (page : PageData) (keyCount : Nat) :
    OtherThanNotFound (setKeyCount pageKind page keyCount) :=
  (other_failIf (by nofun)).bind fun _ => other_ok _

/-- Keys that are out of order are an invalid argument. -/
theorem other_checkPreviousKey (page : PageData) (entryIndex : Nat) (key : List Byte) :
    OtherThanNotFound (checkPreviousKey pageKind page entryIndex key) := by
  unfold checkPreviousKey
  split
  · exact (other_partAt ..).bind fun _ => other_failIf (by rintro ⟨⟩)
  · exact other_ok _

theorem other_checkNextKey (page : PageData) (entryIndex : Nat) (key : List Byte) :
    OtherThanNotFound (checkNextKey pageKind page entryIndex key) := by
  unfold checkNextKey
  split
  · exact (other_partAt ..).bind fun _ => other_failIf (by rintro ⟨⟩)
  · exact other_ok _

/-- An insertion into a page fails for its checks only. -/
theorem other_insertEntry (page : PageData) (entryIndex : Nat) (key payload : List Byte) :
    OtherThanNotFound (insertEntry pageKind page entryIndex key payload) := by
  refine (other_failIf (by nofun)).bind fun _ => (other_failIf (by nofun)).bind fun _ => ?_
  refine (other_failIf (by nofun)).bind fun _ => (other_failIf (by nofun)).bind fun _ => ?_
  exact (other_checkPreviousKey ..).bind fun _ => (other_checkNextKey ..).bind fun _ =>
    other_setKeyCount ..

/-- An erasure by position does not look for a key. -/
theorem other_eraseEntry (page : PageData) (entryIndex : Nat) :
    OtherThanNotFound (eraseEntry pageKind page entryIndex) :=
  (other_failIf (by nofun)).bind fun _ => other_setKeyCount ..

end BTreePage

namespace BTreeInternalPage

theorem other_rightChildPageIdAt (page : PageData) (entryIndex : Nat) :
    OtherThanNotFound (rightChildPageIdAt page entryIndex) := by
  have hpart : OtherThanNotFound (BTreePage.partAt .internal "right child page id" page entryIndex
      (BTreePage.keySize page) 8) := BTreePage.other_partAt ..
  unfold rightChildPageIdAt
  cases hbytes : BTreePage.partAt .internal "right child page id" page entryIndex
      (BTreePage.keySize page) 8 with
  | ok bytes => exact other_ok _
  | error status => exact other_error (hpart.code status hbytes)

theorem other_childPageIdAt (page : PageData) (childIndex : Nat) :
    OtherThanNotFound (childPageIdAt page childIndex) := by
  unfold childPageIdAt
  split
  · exact other_ok _
  · exact other_rightChildPageIdAt ..

/-- A descent finds a child for every key. -/
theorem other_childIndexForKey (page : PageData) (key : List Byte) :
    OtherThanNotFound (childIndexForKey page key) :=
  (other_failIf (by nofun)).bind fun _ => BTreePage.other_searchLoop ..

/-- The child is read off the page. -/
theorem other_childPageIdForKey (page : PageData) (key : List Byte) :
    OtherThanNotFound (childPageIdForKey page key) :=
  (other_childIndexForKey page key).bind fun _ => other_childPageIdAt ..

/-- A separator is replaced by position. -/
theorem other_setKeyAt (page : PageData) (entryIndex : Nat) (key : List Byte) :
    OtherThanNotFound (setKeyAt page entryIndex key) :=
  (other_failIf (by nofun)).bind fun _ => (other_failIf (by nofun)).bind fun _ => other_ok _

end BTreeInternalPage

/-! ## Programs -/

/-- The program does not start a `NotFound` itself. -/
abbrev NeverNotFound {α : Type} (x : PageProgram α) : Prop :=
  Propagates (fun status => status.code ≠ .notFound) 0 x

section Programs

variable {α β : Type} {tree : BTree}

/-- A result with another error does not start one. -/
theorem never_done {r : Result α} (h : OtherThanNotFound r) :
    NeverNotFound (.done r : PageProgram α) := propagates_done h.code

/-- Nor does it in front of a program. -/
theorem never_done_bind {r : Result β} {f : β → PageProgram α} (h : OtherThanNotFound r)
    (hf : ∀ b, NeverNotFound (f b)) : NeverNotFound (.done r >>= f) :=
  propagates_done_bind h.code hf

/-- A change of a page passes on what the page answers. -/
theorem never_edit {handle : Nat} {change : PageData → Result PageData}
    (h : ∀ data, OtherThanNotFound (change data)) : NeverNotFound (edit handle change) :=
  propagates_edit fun data => (h data).code

theorem never_update (handle : Nat) (change : PageData → PageData) :
    NeverNotFound (update handle change) := never_edit fun _ => other_ok _

theorem never_readWith {handle : Nat} {f : PageData → Result α}
    (h : ∀ data, OtherThanNotFound (f data)) : NeverNotFound (readWith handle f) :=
  (propagates_read handle).bind fun page => never_done (h page.data)

/-! ### The way down -/

/-- Programs on pages pass on what the pages answer. -/
theorem never_pageKind (pageId : PageId) : NeverNotFound (pageKind pageId) :=
  propagates_withPage fun data => never_done_bind (BTreePage.other_openPage data) fun _ =>
    propagates_pure _

/-- One step of a descent. -/
theorem never_childForKey (pageId : PageId) (key : List Byte) :
    NeverNotFound (childForKey pageId key) := by
  refine propagates_withPage fun data => never_done_bind (BTreePage.other_openAs _ data) fun page => ?_
  refine never_done_bind (BTreeInternalPage.other_childIndexForKey page key) fun childIndex => ?_
  exact never_done_bind (BTreeInternalPage.other_childPageIdAt page childIndex) fun _ =>
    propagates_pure _

/-- A descent does not miss a key, whatever the depth. -/
theorem never_descend (key : List Byte) (fuel : Nat) (pageId : PageId) :
    NeverNotFound (descend key fuel pageId) := by
  induction fuel generalizing pageId with
  | zero => exact .diverge
  | succ fuel ih =>
    refine (never_pageKind pageId).bind fun pageKind => ?_
    cases pageKind with
    | leaf => exact propagates_pure _
    | internal => exact (never_childForKey pageId key).bind fun child => (ih child.2).bind fun way =>
        propagates_pure _

/-- The step of `findLeafFrom`. -/
theorem never_childTowards (key : List Byte) (pageId : PageId) :
    NeverNotFound (childTowards key pageId) := by
  refine propagates_withPage fun data => never_done_bind (BTreePage.other_openPage data) fun page => ?_
  cases BTreePage.kind page with
  | leaf => exact propagates_pure _
  | internal =>
    refine never_done_bind (BTreePage.other_openAs _ page) fun page => ?_
    exact never_done_bind (BTreeInternalPage.other_childPageIdForKey page key) fun _ =>
      propagates_pure _

/-- The way to a leaf. -/
theorem never_findLeafPageId (key : List Byte) : NeverNotFound (tree.findLeafPageId key) := by
  suffices hfrom : ∀ fuel pageId, NeverNotFound (findLeafFrom key fuel pageId) from hfrom _ _
  intro fuel
  induction fuel with
  | zero => exact fun _ => .diverge
  | succ fuel ih =>
    intro pageId
    refine (never_childTowards key pageId).bind fun child => ?_
    cases child with
    | none => exact propagates_pure _
    | some childPageId => exact ih childPageId

/-! ### Pages and their links -/

theorem never_updateParentPageId (parentPageId childPageId : PageId) :
    NeverNotFound (updateParentPageId parentPageId childPageId) :=
  propagates_withMutablePage fun data => never_done_bind (BTreePage.other_openPage data) fun _ =>
    never_update ..

/-- The children of a page, one after the other. -/
theorem never_setChildrenParentPageId (childPageIds : List PageId) (parentPageId : PageId) :
    NeverNotFound (setChildrenParentPageId childPageIds parentPageId) :=
  propagates_forEach (never_updateParentPageId parentPageId) childPageIds

theorem never_setPreviousLeaf (leafPageId previousLeafPageId : PageId) :
    NeverNotFound (setPreviousLeaf leafPageId previousLeafPageId) := by
  unfold setPreviousLeaf
  split
  · exact propagates_pure ()
  · exact propagates_withMutablePage fun data =>
      never_done_bind (BTreePage.other_openAs _ data) fun _ => never_update ..

/-- The children of an internal page. -/
theorem never_internalChildPageIds (pageId : PageId) :
    NeverNotFound (internalChildPageIds pageId) := by
  refine propagates_withPage fun data => never_done_bind (BTreePage.other_openAs _ data) fun page => ?_
  exact never_done_bind (other_mapM (BTreeInternalPage.other_rightChildPageIdAt page) _) fun _ =>
    propagates_pure _

theorem never_childPageIdsOf (pageKind : BTreePageKind) (pageId : PageId) :
    NeverNotFound (childPageIdsOf pageKind pageId) := by
  cases pageKind with
  | leaf => exact propagates_pure []
  | internal => exact never_internalChildPageIds pageId

/-- Whether a page is underfull. -/
theorem never_pageIsUnderfull (pageId : PageId) : NeverNotFound (pageIsUnderfull pageId) := by
  refine propagates_withPage fun data => never_done_bind (BTreePage.other_openPage data) fun page => ?_
  split
  · exact propagates_pure _
  · exact never_done_bind (BTreePage.other_openAs _ page) fun _ => propagates_pure _

/-- The least key of a subtree. -/
theorem never_firstKeyFrom (fuel : Nat) (pageId : PageId) :
    NeverNotFound (firstKeyFrom fuel pageId) := by
  induction fuel generalizing pageId with
  | zero => exact .diverge
  | succ fuel ih =>
    have hfound : NeverNotFound (firstChildOrKey pageId) := by
      refine propagates_withPage fun data => never_done_bind (BTreePage.other_openPage data)
        fun page => ?_
      cases BTreePage.kind page with
      | internal => exact never_done_bind (BTreePage.other_openAs _ page) fun _ => propagates_pure _
      | leaf =>
        refine never_done_bind (BTreePage.other_openAs _ page) fun page => ?_
        exact never_done_bind (BTreePage.other_partAt ..) fun _ => propagates_pure _
    refine hfound.bind fun found => ?_
    cases found with
    | inl childPageId => exact ih childPageId
    | inr key => exact propagates_pure key

/-- The separator of a child. -/
theorem never_refreshChildSeparator (internalPageId : PageId) (childIndex : Nat) :
    NeverNotFound (refreshChildSeparator internalPageId childIndex) := by
  unfold refreshChildSeparator
  split
  · exact propagates_pure ()
  · refine Propagates.bind (propagates_withPage fun data =>
      never_done_bind (BTreePage.other_openAs _ data) fun page =>
        never_done (BTreeInternalPage.other_rightChildPageIdAt page _)) fun childPageId => ?_
    refine (never_firstKeyFrom walkLimit childPageId).bind fun firstKey => ?_
    exact propagates_withMutablePage fun data => never_done_bind (BTreePage.other_openAs _ data)
      fun _ => never_edit fun page => BTreeInternalPage.other_setKeyAt page _ _

theorem never_eraseLeafEntry (pageId : PageId) (entryIndex : Nat) :
    NeverNotFound (eraseLeafEntry pageId entryIndex) :=
  propagates_withMutablePage fun data => never_done_bind (BTreePage.other_openAs _ data) fun _ =>
    never_edit fun page => BTreePage.other_eraseEntry page entryIndex

/-- An entry that is erased by position. -/
theorem never_eraseInternalEntry (pageId : PageId) (entryIndex : Nat) :
    NeverNotFound (eraseInternalEntry pageId entryIndex) :=
  propagates_withMutablePage fun data => never_done_bind (BTreePage.other_openAs _ data) fun _ =>
    never_edit fun page => BTreePage.other_eraseEntry page entryIndex

/-! ### Merging -/

/-- The entries of a page that is merged. -/
theorem never_appendEntries {ι : Type} {entryAt : PageData → Nat → Result ι}
    {insertEntry : PageData → Nat → ι → Result PageData} {firstIndex : Nat}
    (hentry : ∀ page entryIndex, OtherThanNotFound (entryAt page entryIndex))
    (hinsert : ∀ page entryIndex entry, OtherThanNotFound (insertEntry page entryIndex entry))
    (fuel entryIndex : Nat) :
    NeverNotFound (appendEntries entryAt insertEntry firstIndex fuel entryIndex) := by
  induction fuel generalizing entryIndex with
  | zero => exact propagates_pure ()
  | succ fuel ih =>
    refine (propagates_read 1).bind fun rightPage => ?_
    split
    · refine never_done_bind (hentry rightPage.data entryIndex) fun entry => ?_
      exact (never_edit fun page => hinsert page _ entry).bind fun _ => ih (entryIndex + 1)
    · exact propagates_pure ()

/-- Two leaves become one. -/
theorem never_mergeAdjacentLeaves (leftPageId rightPageId : PageId) :
    NeverNotFound (tree.mergeAdjacentLeaves leftPageId rightPageId) := by
  refine Propagates.bind (propagates_withPage fun data =>
    never_done_bind (BTreePage.other_openAs _ data) fun rightPage =>
      propagates_withMutablePage fun data => never_done_bind (BTreePage.other_openAs _ data)
        fun leftPage => ?_) fun nextLeafPageId => never_setPreviousLeaf ..
  refine (never_appendEntries (fun page entryIndex => BTreePage.other_partAt ..)
    (fun page entryIndex entry => BTreePage.other_insertEntry ..) _ _).bind fun _ => ?_
  exact (never_update ..).bind fun _ => propagates_pure _

theorem never_reparentMerged (leftPageId : PageId) (fuel entryIndex : Nat) :
    NeverNotFound (reparentMerged leftPageId fuel entryIndex) := by
  induction fuel generalizing entryIndex with
  | zero => exact propagates_pure ()
  | succ fuel ih =>
    refine (propagates_read 0).bind fun rightPage => ?_
    split
    · refine never_done_bind (BTreeInternalPage.other_rightChildPageIdAt ..) fun childPageId => ?_
      exact (never_updateParentPageId leftPageId childPageId).bind fun _ => ih (entryIndex + 1)
    · exact propagates_pure ()

theorem other_internalEntryAt (page : PageData) (entryIndex : Nat) :
    OtherThanNotFound (internalEntryAt page entryIndex) :=
  (BTreePage.other_partAt ..).bind fun _ =>
    (BTreeInternalPage.other_rightChildPageIdAt page entryIndex).bind fun _ => other_ok _

/-- Two internal pages become one. -/
theorem never_mergeAdjacentInternals (leftPageId : PageId) (separatorKey : List Byte)
    (rightPageId : PageId) :
    NeverNotFound (mergeAdjacentInternals leftPageId separatorKey rightPageId) := by
  refine propagates_withPage fun data => never_done_bind (BTreePage.other_openAs _ data)
    fun rightPage => ?_
  refine Propagates.bind (propagates_withMutablePage fun data =>
    never_done_bind (BTreePage.other_openAs _ data) fun leftPage => ?_) fun _ => ?_
  · refine (never_edit fun page => BTreePage.other_insertEntry ..).bind fun _ => ?_
    exact never_appendEntries other_internalEntryAt
      (fun page entryIndex entry => BTreePage.other_insertEntry ..) _ _
  · exact (never_updateParentPageId ..).bind fun _ => never_reparentMerged ..

/-! ### Rebalancing -/

/-- The neighbours of a child. -/
theorem never_childWithSiblings (parentPageId : PageId) (childIndex : Nat) :
    NeverNotFound (childWithSiblings parentPageId childIndex) := by
  refine propagates_withPage fun data => never_done_bind (BTreePage.other_openAs _ data) fun page => ?_
  refine never_done_bind (BTreeInternalPage.other_childPageIdAt page childIndex) fun childPageId => ?_
  refine never_done_bind ?_ fun leftSiblingPageId => never_done_bind ?_ fun rightSiblingPageId =>
    propagates_pure _
  · split
    · exact BTreeInternalPage.other_childPageIdAt ..
    · exact other_ok _
  · split
    · exact BTreeInternalPage.other_rightChildPageIdAt ..
    · exact other_ok _

/-- A leaf lends an entry if it has more than it needs. -/
theorem never_leafEntryToLend (pageId : PageId) (entryIndex : Nat → Nat) :
    NeverNotFound (leafEntryToLend pageId entryIndex) := by
  refine propagates_withPage fun data => never_done_bind (BTreePage.other_openAs _ data) fun page => ?_
  split
  · exact never_done_bind (BTreePage.other_partAt ..) fun _ => propagates_pure _
  · exact propagates_pure _

theorem never_addLeafEntry (pageId : PageId) (entryIndex : Nat → Nat) (entry : List Byte) :
    NeverNotFound (tree.addLeafEntry pageId entryIndex entry) :=
  propagates_withMutablePage fun data => never_done_bind (BTreePage.other_openAs _ data) fun _ =>
    never_edit fun _ => BTreePage.other_insertEntry ..

/-- A leaf borrows an entry. -/
theorem never_borrowFromLeftLeaf (parentPageId : PageId) (childIndex : Nat)
    (links : ChildWithSiblings) :
    NeverNotFound (tree.borrowFromLeftLeaf parentPageId childIndex links) := by
  unfold borrowFromLeftLeaf
  split
  · exact propagates_pure _
  refine (never_leafEntryToLend ..).bind fun borrowed => ?_
  obtain _ | ⟨borrowedEntryIndex, borrowedEntry⟩ := borrowed
  · exact propagates_pure _
  · refine (never_addLeafEntry ..).bind fun _ => (never_eraseLeafEntry ..).bind fun _ => ?_
    exact (never_refreshChildSeparator ..).bind fun _ => propagates_pure _

theorem never_borrowFromRightLeaf (parentPageId : PageId) (childIndex : Nat)
    (links : ChildWithSiblings) :
    NeverNotFound (tree.borrowFromRightLeaf parentPageId childIndex links) := by
  unfold borrowFromRightLeaf
  split
  · exact propagates_pure _
  refine (never_leafEntryToLend ..).bind fun borrowed => ?_
  obtain _ | ⟨borrowedEntryIndex, borrowedEntry⟩ := borrowed
  · exact propagates_pure _
  · refine (never_addLeafEntry ..).bind fun _ => (never_eraseLeafEntry ..).bind fun _ => ?_
    refine (never_refreshChildSeparator ..).bind fun _ => ?_
    exact (never_refreshChildSeparator ..).bind fun _ => propagates_pure _

/-- An underfull leaf is mended. -/
theorem never_rebalanceLeafChildAfterErase (parentPageId : PageId) (childIndex : Nat) :
    NeverNotFound (tree.rebalanceLeafChildAfterErase parentPageId childIndex) := by
  refine (never_childWithSiblings ..).bind fun links => ?_
  refine (never_borrowFromLeftLeaf ..).bind fun borrowed => ?_
  split
  · exact propagates_pure ()
  refine (never_borrowFromRightLeaf ..).bind fun borrowed => ?_
  split
  · exact propagates_pure ()
  split
  · exact (never_mergeAdjacentLeaves ..).bind fun _ => never_eraseInternalEntry ..
  split
  · exact (never_mergeAdjacentLeaves ..).bind fun _ => never_eraseInternalEntry ..
  · exact never_done (other_error nofun)

theorem never_separatorKeyAt (pageId : PageId) (entryIndex : Nat) :
    NeverNotFound (separatorKeyAt pageId entryIndex) :=
  propagates_withPage fun data => never_done_bind (BTreePage.other_openAs _ data) fun _ =>
    never_done (BTreePage.other_partAt ..)

theorem never_lastChildToLend (pageId : PageId) : NeverNotFound (lastChildToLend pageId) := by
  refine propagates_withPage fun data => never_done_bind (BTreePage.other_openAs _ data) fun page => ?_
  split
  · exact never_done_bind (BTreeInternalPage.other_rightChildPageIdAt ..) fun _ => propagates_pure _
  · exact propagates_pure _

theorem never_firstChildToLend (pageId : PageId) : NeverNotFound (firstChildToLend pageId) := by
  refine propagates_withPage fun data => never_done_bind (BTreePage.other_openAs _ data) fun page => ?_
  split
  · exact never_done_bind (BTreeInternalPage.other_rightChildPageIdAt ..) fun _ => propagates_pure _
  · exact propagates_pure _

/-- An internal page borrows a child. -/
theorem never_borrowFromLeftInternal (parentPageId : PageId) (childIndex : Nat)
    (links : ChildWithSiblings) :
    NeverNotFound (borrowFromLeftInternal parentPageId childIndex links) := by
  unfold borrowFromLeftInternal
  split
  · exact propagates_pure _
  refine (never_lastChildToLend _).bind fun borrowed => ?_
  obtain _ | ⟨borrowedEntryIndex, borrowedChildPageId⟩ := borrowed
  · exact propagates_pure _
  refine (never_separatorKeyAt ..).bind fun separatorKey => Propagates.bind ?_ fun _ => ?_
  · refine propagates_withMutablePage fun data => never_done_bind (BTreePage.other_openAs _ data)
      fun page => (never_edit fun _ => BTreePage.other_insertEntry ..).bind fun _ => never_update ..
  · refine (never_eraseInternalEntry ..).bind fun _ => (never_updateParentPageId ..).bind fun _ => ?_
    exact (never_refreshChildSeparator ..).bind fun _ => propagates_pure _

theorem never_borrowFromRightInternal (parentPageId : PageId) (childIndex : Nat)
    (links : ChildWithSiblings) :
    NeverNotFound (borrowFromRightInternal parentPageId childIndex links) := by
  unfold borrowFromRightInternal
  split
  · exact propagates_pure _
  refine (never_firstChildToLend _).bind fun borrowed => ?_
  obtain _ | ⟨borrowedChildPageId, newRightFirstChildPageId⟩ := borrowed
  · exact propagates_pure _
  refine (never_separatorKeyAt ..).bind fun separatorKey => Propagates.bind ?_ fun _ =>
    Propagates.bind ?_ fun _ => ?_
  · exact propagates_withMutablePage fun data => never_done_bind (BTreePage.other_openAs _ data)
      fun _ => never_edit fun _ => BTreePage.other_insertEntry ..
  · exact propagates_withMutablePage fun data => never_done_bind (BTreePage.other_openAs _ data)
      fun _ => (never_update ..).bind fun _ => never_edit fun _ => BTreePage.other_eraseEntry ..
  · refine (never_updateParentPageId ..).bind fun _ => ?_
    exact (never_refreshChildSeparator ..).bind fun _ => propagates_pure _

/-- An underfull internal page is mended. -/
theorem never_rebalanceInternalChildAfterErase (parentPageId : PageId) (childIndex : Nat) :
    NeverNotFound (rebalanceInternalChildAfterErase parentPageId childIndex) := by
  refine (never_childWithSiblings ..).bind fun links => ?_
  refine (never_refreshChildSeparator ..).bind fun _ => ?_
  refine (never_borrowFromLeftInternal ..).bind fun borrowed => ?_
  split
  · exact propagates_pure ()
  refine (never_borrowFromRightInternal ..).bind fun borrowed => ?_
  split
  · exact propagates_pure ()
  split
  · refine (never_separatorKeyAt ..).bind fun separatorKey => ?_
    exact (never_mergeAdjacentInternals ..).bind fun _ => never_eraseInternalEntry ..
  split
  · refine (never_separatorKeyAt ..).bind fun separatorKey => ?_
    exact (never_mergeAdjacentInternals ..).bind fun _ => never_eraseInternalEntry ..
  · exact never_done (other_error nofun)

/-- What has found its key is mended without looking for another. -/
theorem never_rebalanceChildAfterErase (parentPageId : PageId) (childIndex : Nat) :
    NeverNotFound (tree.rebalanceChildAfterErase parentPageId childIndex) := by
  refine Propagates.bind (propagates_withPage fun data =>
    never_done_bind (BTreePage.other_openAs _ data) fun page =>
      never_done (BTreeInternalPage.other_childPageIdAt page childIndex)) fun childPageId => ?_
  refine (never_pageKind childPageId).bind fun childPageKind => ?_
  cases childPageKind with
  | leaf => exact never_rebalanceLeafChildAfterErase ..
  | internal => exact never_rebalanceInternalChildAfterErase ..

/-- The way up of an erasure from one page to the next. -/
theorem never_climb (pageId : PageId) (childIndex : Nat) (childIsUnderfull : Bool) :
    NeverNotFound (do
      if childIsUnderfull then tree.rebalanceChildAfterErase pageId childIndex
      else refreshChildSeparator pageId childIndex
      pageIsUnderfull pageId) := by
  dsimp only
  split
  · exact (never_rebalanceChildAfterErase ..).bind fun _ => never_pageIsUnderfull pageId
  · exact (never_refreshChildSeparator ..).bind fun _ => never_pageIsUnderfull pageId

/-- The root loses a level. -/
theorem never_collapseRoot (childPageId : PageId) :
    NeverNotFound (tree.collapseRoot childPageId) := by
  refine Propagates.bind (propagates_withPage fun data =>
    never_done_bind (BTreePage.other_openPage data) fun page => never_childPageIdsOf ..)
    fun childPageIds => Propagates.bind ?_ fun _ => never_setChildrenParentPageId ..
  refine propagates_withPage fun _ => propagates_withMutablePage fun _ => ?_
  refine (propagates_read 1).bind fun childPage => (never_update ..).bind fun _ => ?_
  refine (never_readWith BTreePage.other_openPage).bind fun _ => ?_
  exact (never_update ..).bind fun _ => never_update ..

/-- What `erase` does when the key is gone. -/
theorem never_finishErase : NeverNotFound (do
    let onlyChild ← withPage tree.rootPageId fun page => do
      let page ← .done (BTreePage.openPage page)
      if BTreePage.kind page = .leaf ∨ BTreePage.keyCount page > 0 then return none
      else do
        let page ← .done (BTreeInternalPage.openPage page)
        return some (BTreePage.firstChildPageId page)
    match onlyChild with
    | none => return ()
    | some childPageId => tree.collapseRoot childPageId) := by
  refine Propagates.bind (propagates_withPage fun data =>
    never_done_bind (BTreePage.other_openPage data) fun page => ?_) fun onlyChild => ?_
  · split
    · exact propagates_pure _
    · exact never_done_bind (BTreePage.other_openAs _ page) fun _ => propagates_pure _
  · cases onlyChild with
    | none => exact propagates_pure ()
    | some childPageId => exact never_collapseRoot childPageId

end Programs

end DanDB.BTree
