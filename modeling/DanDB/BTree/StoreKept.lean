import DanDB.BTree.Scanning
import DanDB.Storage.PageCalls

/-!
# Trees and the files

No operation of a tree writes to a file, whatever its pages hold.
-/

namespace DanDB.BTree

open DanDB.Core Storage Program PageProgram BTreePage

variable {tree : BTree}

/-! ## Walks -/

@[grind ←] theorem reads_readWith {α : Type} (handle : Nat) (f : PageData → Result α) :
    (readWith handle f).Only PageCall.Reads := by
  unfold readWith
  grind

@[grind ←] theorem only_update (handle : Nat) (change : PageData → PageData) :
    (update handle change).Only PageCall.KeepsStore := only_edit ..

/-- The kind of a page is read. -/
@[grind ←] theorem reads_pageKind (pageId : PageId) :
    (pageKind pageId).Only PageCall.Reads := by
  unfold pageKind
  grind

/-- A step of a descent reads one page. -/
@[grind ←] theorem reads_childTowards (key : List Byte) (pageId : PageId) :
    (childTowards key pageId).Only PageCall.Reads := by
  unfold childTowards
  grind

/-- A descent to a leaf only reads, however deep it goes. -/
@[grind ←] theorem reads_findLeafFrom (key : List Byte) (fuel : Nat) (pageId : PageId) :
    (findLeafFrom key fuel pageId).Only PageCall.Reads := by
  induction fuel generalizing pageId with
  | zero => trivial
  | succ fuel ih =>
    unfold findLeafFrom
    grind

@[grind ←] theorem reads_findLeafPageId (key : List Byte) :
    (tree.findLeafPageId key).Only PageCall.Reads := reads_findLeafFrom ..

@[grind ←] theorem reads_firstChild (pageId : PageId) :
    (firstChild pageId).Only PageCall.Reads := by
  unfold firstChild
  grind

/-- So does a descent along the first children. -/
@[grind ←] theorem reads_firstLeafFrom (fuel : Nat) (pageId : PageId) :
    (firstLeafFrom fuel pageId).Only PageCall.Reads := by
  induction fuel generalizing pageId with
  | zero => trivial
  | succ fuel ih =>
    unfold firstLeafFrom
    grind

@[grind ←] theorem reads_firstChildOrKey (pageId : PageId) :
    (firstChildOrKey pageId).Only PageCall.Reads := by
  unfold firstChildOrKey
  grind

/-- The least key of a subtree is read off its first leaf. -/
@[grind ←] theorem reads_firstKeyFrom (fuel : Nat) (pageId : PageId) :
    (firstKeyFrom fuel pageId).Only PageCall.Reads := by
  induction fuel generalizing pageId with
  | zero => trivial
  | succ fuel ih =>
    unfold firstKeyFrom
    grind

/-- The children of an internal page are read off it. -/
@[grind ←] theorem reads_internalChildPageIds (pageId : PageId) :
    (internalChildPageIds pageId).Only PageCall.Reads := by
  unfold internalChildPageIds
  grind

/-- A child that gets another parent is written in its page. -/
@[grind ←] theorem only_updateParentPageId (parentPageId childPageId : PageId) :
    (updateParentPageId parentPageId childPageId).Only PageCall.KeepsStore := by
  unfold updateParentPageId
  grind

/-- So are the children of a page, one after the other. -/
@[grind ←] theorem only_setChildrenParentPageId (childPageIds : List PageId) (parentPageId : PageId) :
    (setChildrenParentPageId childPageIds parentPageId).Only PageCall.KeepsStore := by
  unfold setChildrenParentPageId
  grind

@[grind ←] theorem only_setPreviousLeaf (leafPageId previousLeafPageId : PageId) :
    (setPreviousLeaf leafPageId previousLeafPageId).Only PageCall.KeepsStore := by
  unfold setPreviousLeaf
  grind

/-- Entries go into a page that is held by a handle. -/
@[grind ←] theorem only_insertEntries {ι : Type} (insertEntry : PageData → Nat → ι → Result PageData)
    (handle entryIndex : Nat) (entries : List ι) :
    (insertEntries insertEntry handle entryIndex entries).Only PageCall.KeepsStore := by
  induction entries generalizing entryIndex with
  | nil => trivial
  | cons entry entries ih =>
    unfold insertEntries
    grind

/-! ## Creating, finding, updating and inserting -/

/-- Opening a tree checks its root page. -/
theorem reads_openExisting (rootPageId : PageId) (keySize valueSize : Nat) :
    (openExisting rootPageId keySize valueSize).Only PageCall.Reads := by
  unfold openExisting
  grind

/-- A lookup only reads. -/
theorem reads_find (key : List Byte) : (tree.find key).Only PageCall.Reads := by
  unfold find findLeafPageId
  grind

/-- A new tree is a page that is written in the pool. -/
theorem only_createNew (keySize valueSize : Nat) :
    (createNew keySize valueSize).Only PageCall.KeepsStore := by
  unfold createNew
  grind

/-- Opening a cursor reads down to the leaf of the lower bound. -/
@[grind ←] theorem reads_scanRange (lowerBound upperBound : Option (List Byte)) :
    (tree.scanRange lowerBound upperBound).Only PageCall.Reads := by
  refine (only_failIf _ _).bind fun _ => (only_failIf _ _).bind fun _ => ?_
  unfold findLeafPageId
  split
  · grind
  · grind

/-- A cursor reads along the leaves, however many are empty. -/
@[grind ←] theorem reads_nextFrom (fuel : Nat) (cursor : BTreeCursor) :
    (cursor.nextFrom fuel).Only PageCall.Reads := by
  induction fuel generalizing cursor with
  | zero => trivial
  | succ fuel ih =>
    unfold BTreeCursor.nextFrom
    grind

theorem reads_next (cursor : BTreeCursor) : cursor.next.Only PageCall.Reads := reads_nextFrom ..

/-- A loop over entries reads if what it does with an entry does. -/
theorem only_foldEntries {σ : Type} {allowed : PageCall → Prop} (hreads : ∀ c, c.Reads → allowed c)
    {step : σ → BTreeEntry → PageProgram σ} (hstep : ∀ state entry, (step state entry).Only allowed)
    (fuel : Nat) (cursor : BTreeCursor) (state : σ) :
    (BTreeCursor.foldEntries BTreeCursor.next step fuel cursor state).Only allowed := by
  induction fuel generalizing cursor state with
  | zero => trivial
  | succ fuel ih =>
    refine ((reads_next cursor).mono hreads).bind fun (entry, cursor) => ?_
    cases entry with
    | none => trivial
    | some entry => exact (hstep state entry).bind fun state => ih cursor state

/-- A scan only reads. -/
theorem reads_drain (cursor : BTreeCursor) : cursor.drain.Only PageCall.Reads :=
  only_foldEntries (fun _ => id) (fun _ _ => only_pure _) ..

/-- An update writes to one leaf. -/
theorem only_updateValue (key value : List Byte) :
    (tree.updateValue key value).Only PageCall.KeepsStore := by
  unfold updateValue
  grind

/-- A split writes to the leaf and a new one. -/
@[grind ←] theorem only_splitLeaf (pageId : PageId) (page : PageData) (insertionPos storedKeyCount : Nat)
    (key value : List Byte) :
    (tree.splitLeaf pageId page insertionPos storedKeyCount key value).Only PageCall.KeepsStore := by
  refine (only_done _).bind fun oldEntries => only_withNewPage fun rightLeafPageId => ?_
  refine (only_edit ..).bind fun _ => (keepsStore_of_reads (reads_readWith ..)).bind fun _ => (only_edit ..).bind fun _ =>
    (only_insertEntries ..).bind fun _ => (only_insertEntries ..).bind fun _ => ?_
  grind

/-- An insertion into a leaf writes to it, or splits it. -/
@[grind ←] theorem only_insertIntoLeaf (pageId : PageId) (key value : List Byte) :
    (tree.insertIntoLeaf pageId key value).Only PageCall.KeepsStore := by
  unfold insertIntoLeaf
  grind

/-- An internal page is split as a leaf is. -/
@[grind ←] theorem only_splitInternal (page : PageData) (childSplit : SplitResult) :
    (tree.splitInternal page childSplit).Only PageCall.KeepsStore := by
  refine (only_done _).bind fun insertionPos => (only_done _).bind fun oldEntries =>
    only_withNewPage fun rightInternalPageId => ?_
  refine (only_edit ..).bind fun _ => (keepsStore_of_reads (reads_readWith ..)).bind fun _ => (only_edit ..).bind fun _ =>
    (only_insertEntries ..).bind fun _ => ?_
  grind

@[grind ←] theorem only_insertChild (page : PageData) (childSplit : SplitResult) :
    (insertChild page childSplit).Only PageCall.KeepsStore := by
  unfold insertChild
  grind

/-- An insertion below an internal page writes what the one below its child does, and adds a
branch if that was split. -/
@[grind ←] theorem only_insertIntoInternal {insertIntoChild : PageId → PageProgram (Option SplitResult)}
    (h : ∀ pageId, (insertIntoChild pageId).Only PageCall.KeepsStore) (pageId : PageId)
    (key : List Byte) :
    (tree.insertIntoInternal insertIntoChild pageId key).Only PageCall.KeepsStore := by
  unfold insertIntoInternal
  grind

/-- By induction on the depth. -/
@[grind ←] theorem only_insertIntoSubtree (key value : List Byte) (fuel : Nat) (pageId : PageId) :
    (tree.insertIntoSubtree key value fuel pageId).Only PageCall.KeepsStore := by
  induction fuel generalizing pageId with
  | zero => trivial
  | succ fuel ih =>
    unfold insertIntoSubtree
    grind

@[grind ←] theorem reads_childPageIdsOf (pageKind : BTreePageKind) (pageId : PageId) :
    (childPageIdsOf pageKind pageId).Only PageCall.Reads := by
  unfold childPageIdsOf
  grind

/-- The root keeps its page, and its entries move to a new one. -/
@[grind ←] theorem only_moveRoot : tree.moveRoot.Only PageCall.KeepsStore := by
  refine only_withPage fun oldRootPage => (only_done _).bind fun oldRootPage =>
    (keepsStore_of_reads (reads_childPageIdsOf ..)).bind fun oldRootChildPageIds => only_withNewPage fun leftChildPageId => ?_
  grind

/-- A root that was split gets a level more. -/
@[grind ←] theorem only_splitRoot (split : SplitResult) :
    (tree.splitRoot split).Only PageCall.KeepsStore := by
  refine only_moveRoot.bind fun moved => (only_setChildrenParentPageId ..).bind fun _ => ?_
  refine Program.Only.bind (only_withMutablePage fun _ => ?_) fun _ => only_withMutablePage fun _ => ?_
  · grind
  · grind

/-- An insertion writes to pages of the pool only. -/
theorem only_insert (key value : List Byte) : (tree.insert key value).Only PageCall.KeepsStore := by
  unfold insert
  grind

/-! ## Erasing -/

/-- Whether a page is underfull is read off its header. -/
@[grind ←] theorem reads_pageIsUnderfull (pageId : PageId) :
    (pageIsUnderfull pageId).Only PageCall.Reads := by
  unfold pageIsUnderfull
  grind

/-- A separator is written in the parent. -/
@[grind ←] theorem only_refreshChildSeparator (internalPageId : PageId) (childIndex : Nat) :
    (refreshChildSeparator internalPageId childIndex).Only PageCall.KeepsStore := by
  unfold refreshChildSeparator
  grind

@[grind ←] theorem only_eraseLeafEntry (pageId : PageId) (entryIndex : Nat) :
    (eraseLeafEntry pageId entryIndex).Only PageCall.KeepsStore := by
  unfold eraseLeafEntry
  grind

@[grind ←] theorem only_eraseInternalEntry (pageId : PageId) (entryIndex : Nat) :
    (eraseInternalEntry pageId entryIndex).Only PageCall.KeepsStore := by
  unfold eraseInternalEntry
  grind

/-- An erasure from a leaf writes to it. -/
@[grind ←] theorem only_eraseFromLeaf (pageId : PageId) (key : List Byte) :
    (eraseFromLeaf pageId key).Only PageCall.KeepsStore := by
  unfold eraseFromLeaf
  grind

/-- The entries of a page that is merged are written behind those of its neighbour. -/
@[grind ←] theorem only_appendEntries {ι : Type} (entryAt : PageData → Nat → Result ι)
    (insertEntry : PageData → Nat → ι → Result PageData) (firstIndex fuel entryIndex : Nat) :
    (appendEntries entryAt insertEntry firstIndex fuel entryIndex).Only PageCall.KeepsStore := by
  induction fuel generalizing entryIndex with
  | zero => trivial
  | succ fuel ih =>
    unfold appendEntries
    grind

/-- A merge of leaves writes to the left one, and to the link of the leaf behind them. -/
@[grind ←] theorem only_mergeAdjacentLeaves (leftPageId rightPageId : PageId) :
    (tree.mergeAdjacentLeaves leftPageId rightPageId).Only PageCall.KeepsStore := by
  refine Only.bind (only_withPage fun rightPage => (only_done _).bind fun rightPage => ?_)
    fun nextLeafPageId => only_setPreviousLeaf ..
  grind

/-- The children of a page that was merged get the other page as parent. -/
@[grind ←] theorem only_reparentMerged (leftPageId : PageId) (fuel entryIndex : Nat) :
    (reparentMerged leftPageId fuel entryIndex).Only PageCall.KeepsStore := by
  induction fuel generalizing entryIndex with
  | zero => trivial
  | succ fuel ih =>
    unfold reparentMerged
    grind

/-- A merge of internal pages writes to the left one and to the children of the right one. -/
@[grind ←] theorem only_mergeAdjacentInternals (leftPageId : PageId) (separatorKey : List Byte)
    (rightPageId : PageId) :
    (mergeAdjacentInternals leftPageId separatorKey rightPageId).Only PageCall.KeepsStore := by
  unfold mergeAdjacentInternals
  grind

/-- The siblings of a child are read off the parent. -/
@[grind ←] theorem reads_childWithSiblings (parentPageId : PageId) (childIndex : Nat) :
    (childWithSiblings parentPageId childIndex).Only PageCall.Reads := by
  unfold childWithSiblings
  grind

@[grind ←] theorem reads_leafEntryToLend (pageId : PageId) (entryIndex : Nat → Nat) :
    (leafEntryToLend pageId entryIndex).Only PageCall.Reads := by
  unfold leafEntryToLend
  grind

@[grind ←] theorem only_addLeafEntry (pageId : PageId) (entryIndex : Nat → Nat) (entry : List Byte) :
    (tree.addLeafEntry pageId entryIndex entry).Only PageCall.KeepsStore := by
  unfold addLeafEntry
  grind

/-- A borrowed entry is written in the leaf and erased in its sibling. -/
@[grind ←] theorem only_borrowFromLeftLeaf (parentPageId : PageId) (childIndex : Nat)
    (links : ChildWithSiblings) :
    (tree.borrowFromLeftLeaf parentPageId childIndex links).Only PageCall.KeepsStore := by
  unfold borrowFromLeftLeaf
  grind

/-- The same on the other side. -/
@[grind ←] theorem only_borrowFromRightLeaf (parentPageId : PageId) (childIndex : Nat)
    (links : ChildWithSiblings) :
    (tree.borrowFromRightLeaf parentPageId childIndex links).Only PageCall.KeepsStore := by
  unfold borrowFromRightLeaf
  grind

/-- An underfull leaf borrows or is merged. -/
@[grind ←] theorem only_rebalanceLeafChildAfterErase (parentPageId : PageId) (childIndex : Nat) :
    (tree.rebalanceLeafChildAfterErase parentPageId childIndex).Only PageCall.KeepsStore := by
  unfold rebalanceLeafChildAfterErase
  grind

@[grind ←] theorem reads_separatorKeyAt (pageId : PageId) (entryIndex : Nat) :
    (separatorKeyAt pageId entryIndex).Only PageCall.Reads := by
  unfold separatorKeyAt
  grind

@[grind ←] theorem reads_lastChildToLend (pageId : PageId) :
    (lastChildToLend pageId).Only PageCall.Reads := by
  unfold lastChildToLend
  grind

@[grind ←] theorem reads_firstChildToLend (pageId : PageId) :
    (firstChildToLend pageId).Only PageCall.Reads := by
  unfold firstChildToLend
  grind

/-- A borrowed child goes through the separator of the parent. -/
@[grind ←] theorem only_borrowFromLeftInternal (parentPageId : PageId) (childIndex : Nat)
    (links : ChildWithSiblings) :
    (borrowFromLeftInternal parentPageId childIndex links).Only PageCall.KeepsStore := by
  unfold borrowFromLeftInternal
  split
  · trivial
  refine (keepsStore_of_reads (reads_lastChildToLend _)).bind fun borrowed => ?_
  cases borrowed with
  | none => trivial
  | some borrowed =>
    refine (keepsStore_of_reads (reads_separatorKeyAt ..)).bind fun separatorKey => ?_
    refine Only.bind (only_withMutablePage fun page => ?_) fun _ => ?_
    · grind
    · grind

/-- The same on the other side. -/
@[grind ←] theorem only_borrowFromRightInternal (parentPageId : PageId) (childIndex : Nat)
    (links : ChildWithSiblings) :
    (borrowFromRightInternal parentPageId childIndex links).Only PageCall.KeepsStore := by
  unfold borrowFromRightInternal
  split
  · trivial
  refine (keepsStore_of_reads (reads_firstChildToLend _)).bind fun borrowed => ?_
  cases borrowed with
  | none => trivial
  | some borrowed =>
    refine (keepsStore_of_reads (reads_separatorKeyAt ..)).bind fun separatorKey => ?_
    refine Only.bind (only_withMutablePage fun page => ?_) fun _ => ?_
    · grind
    · refine Only.bind (only_withMutablePage fun page => ?_) fun _ => ?_
      · grind
      · grind

/-- An underfull internal page borrows or is merged. -/
@[grind ←] theorem only_rebalanceInternalChildAfterErase (parentPageId : PageId) (childIndex : Nat) :
    (rebalanceInternalChildAfterErase parentPageId childIndex).Only PageCall.KeepsStore := by
  unfold rebalanceInternalChildAfterErase
  grind

@[grind ←] theorem only_rebalanceChildAfterErase (parentPageId : PageId) (childIndex : Nat) :
    (tree.rebalanceChildAfterErase parentPageId childIndex).Only PageCall.KeepsStore := by
  unfold rebalanceChildAfterErase
  grind

/-- An erasure below an internal page mends the child behind it. -/
@[grind ←] theorem only_eraseFromInternal {eraseFromChild : PageId → PageProgram Bool}
    (h : ∀ pageId, (eraseFromChild pageId).Only PageCall.KeepsStore) (pageId : PageId)
    (key : List Byte) :
    (tree.eraseFromInternal eraseFromChild pageId key).Only PageCall.KeepsStore := by
  unfold eraseFromInternal
  grind

/-- By induction on the depth. -/
@[grind ←] theorem only_eraseFromSubtree (key : List Byte) (fuel : Nat) (pageId : PageId) :
    (tree.eraseFromSubtree key fuel pageId).Only PageCall.KeepsStore := by
  induction fuel generalizing pageId with
  | zero => trivial
  | succ fuel ih =>
    unfold eraseFromSubtree
    grind

/-- A root with one child takes over its entries. -/
@[grind ←] theorem only_collapseRoot (childPageId : PageId) :
    (tree.collapseRoot childPageId).Only PageCall.KeepsStore := by
  refine Only.bind (only_withPage fun page => ?_) fun childPageChildPageIds =>
    Only.bind (only_withPage fun _ => only_withMutablePage fun _ => ?_) fun _ => ?_
  · grind
  · grind
  · grind

/-- An erasure writes to pages of the pool only. -/
theorem only_erase (key : List Byte) : (tree.erase key).Only PageCall.KeepsStore := by
  unfold erase
  grind

/-- No call on a tree writes to a file. -/
theorem TreeCall.only_program (call : TreeCall) : (call.program tree).Only PageCall.KeepsStore := by
  cases call with
  | find key => exact (keepsStore_of_reads (reads_find key)).bind fun _ => only_pure _
  | insert key value => exact (only_insert key value).bind fun _ => only_pure _
  | updateValue key value => exact (only_updateValue key value).bind fun _ => only_pure _
  | erase key => exact (only_erase key).bind fun _ => only_pure _

end DanDB.BTree
