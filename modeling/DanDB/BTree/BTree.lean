import DanDB.BTree.BTreePage
import DanDB.Storage.PageProgram

/-!
# B+ trees

The operations of a tree as programs on its pages.  A handle is held for as long
as the variable that holds it is in scope.  In a body, handle 0 is the one that
was taken last and handle 1 the one before it.

Walks from page to page have no bound in the source.  A walk of as many steps as
there are page ids has come back to a page, so it goes on for ever.
-/

namespace DanDB

open DanDB.Core Storage

/-- A tree, without the pager that holds it. -/
structure BTree where
  rootPageId : PageId
  keySize : Nat
  valueSize : Nat

namespace BTree

open Buffer PageProgram BTreePage

/-- The number of page ids. -/
def walkLimit : Nat := 2 ^ 64

/-- What a page that was split hands to its parent. -/
structure SplitResult where
  separatorKey : List Byte
  rightChildPageId : PageId

/-! ## Creating and opening -/

def validateLayout (keySize valueSize : Nat) : Result Unit := do
  failIf (keySize = 0)
    (.InvalidArgument "Cannot create B+ tree: key size must be greater than 0")
  failIf (valueSize = 0)
    (.InvalidArgument "Cannot create B+ tree: value size must be greater than 0")
  failIf (keySize > 65535 ∨ valueSize > 65535)
    (.InvalidArgument "Cannot create B+ tree: key or value size exceeds the page-header limit")
  failIf (BTreePageKind.leaf.capacity keySize valueSize = 0)
    (.InvalidArgument "Cannot create B+ tree: leaf entry size is too large")
  failIf (BTreePageKind.internal.capacity keySize valueSize < 2)
    (.InvalidArgument "Cannot create B+ tree: internal page must hold at least two entries")

/-- A change of a page that cannot fail. -/
def update (handle : Nat) (change : PageData → PageData) : PageProgram Unit :=
  edit handle fun page => .ok (change page)

/-- The page of a handle, after a function that may fail on it, such as `open`. -/
def readWith {α : Type} (handle : Nat) (f : PageData → Result α) : PageProgram α := do
  let page ← read handle
  .done (f page.data)

def createNew (keySize valueSize : Nat) : PageProgram BTree := do
  .done (validateLayout keySize valueSize)
  withNewPage fun rootPageId => do
    edit 0 fun _ => initializeLeaf keySize valueSize
    let _ ← readWith 0 BTreeLeafPage.openPage
    update 0 (setRoot · true)
    return ⟨rootPageId, keySize, valueSize⟩

def openExisting (rootPageId : PageId) (keySize valueSize : Nat) : PageProgram BTree :=
  withPage rootPageId fun page => do
    let page ← .done (openPage page)
    Program.failIf (isRoot page = false) (.InvalidArgument
      "Cannot open existing B+ tree: root page is not marked as root")
    Program.failIf (BTreePage.keySize page ≠ keySize) (.InvalidArgument
      "Cannot open existing B+ tree: key size does not match root page")
    Program.failIf (BTreePage.valueSize page ≠ valueSize) (.InvalidArgument
      "Cannot open existing B+ tree: value size does not match root page")
    return ⟨rootPageId, keySize, valueSize⟩

/-! ## Walks -/

/-- The kind of a page. -/
def pageKind (pageId : PageId) : PageProgram BTreePageKind :=
  withPage pageId fun page => do
    let page ← .done (openPage page)
    return kind page

/-- The child that a key belongs to; a leaf has none. -/
def childTowards (key : List Byte) (pageId : PageId) : PageProgram (Option PageId) :=
  withPage pageId fun page => do
    let page ← .done (openPage page)
    match kind page with
    | .leaf => return none
    | .internal =>
      let page ← .done (BTreeInternalPage.openPage page)
      let childPageId ← .done (BTreeInternalPage.childPageIdForKey page key)
      return some childPageId

/-- The loop of `find_leaf_page_id`. -/
def findLeafFrom (key : List Byte) : Nat → PageId → PageProgram PageId
  | 0, _ => .diverge
  | fuel + 1, currentPageId => do
    let child ← childTowards key currentPageId
    match child with
    | none => return currentPageId
    | some childPageId => findLeafFrom key fuel childPageId

def findLeafPageId (tree : BTree) (key : List Byte) : PageProgram PageId :=
  findLeafFrom key walkLimit tree.rootPageId

/-- The first child; a leaf has none. -/
def firstChild (pageId : PageId) : PageProgram (Option PageId) :=
  withPage pageId fun page => do
    let page ← .done (openPage page)
    match kind page with
    | .leaf => return none
    | .internal =>
      let page ← .done (BTreeInternalPage.openPage page)
      return some (firstChildPageId page)

/-- The loop of `scan_range` that goes to the first leaf. -/
def firstLeafFrom : Nat → PageId → PageProgram PageId
  | 0, _ => .diverge
  | fuel + 1, currentPageId => do
    let child ← firstChild currentPageId
    match child with
    | none => return currentPageId
    | some childPageId => firstLeafFrom fuel childPageId

/-- The first child of an internal page or the first key of a leaf. -/
def firstChildOrKey (pageId : PageId) : PageProgram (PageId ⊕ List Byte) :=
  withPage pageId fun page => do
    let page ← .done (openPage page)
    match kind page with
    | .internal =>
      let page ← .done (BTreeInternalPage.openPage page)
      return .inl (firstChildPageId page)
    | .leaf =>
      let page ← .done (BTreeLeafPage.openPage page)
      let key ← .done (BTreeLeafPage.keyAt page 0)
      return .inr key

/-- The loop of `refresh_child_separator`: the first key below a page. -/
def firstKeyFrom : Nat → PageId → PageProgram (List Byte)
  | 0, _ => .diverge
  | fuel + 1, currentPageId => do
    let found ← firstChildOrKey currentPageId
    match found with
    | .inl childPageId => firstKeyFrom fuel childPageId
    | .inr key => return key

def internalChildPageIds (internalPageId : PageId) : PageProgram (List PageId) :=
  withPage internalPageId fun page => do
    let page ← .done (BTreeInternalPage.openPage page)
    let childPageIds ← .done
      ((List.range (keyCount page)).mapM (BTreeInternalPage.rightChildPageIdAt page))
    return firstChildPageId page :: childPageIds

/-- One page of `set_children_parent_page_id`, and what the lambda functions
`update_child_parent_page_id` do. -/
def updateParentPageId (parentPageId childPageId : PageId) : PageProgram Unit :=
  withMutablePage childPageId fun page => do
    let _ ← .done (openPage page)
    update 0 (setParentPageId · parentPageId)

def setChildrenParentPageId (childPageIds : List PageId) (parentPageId : PageId) :
    PageProgram Unit :=
  Program.forEach (updateParentPageId parentPageId) childPageIds

/-- Make a page the previous one of a leaf, if there is that leaf. -/
def setPreviousLeaf (leafPageId previousLeafPageId : PageId) : PageProgram Unit :=
  if leafPageId = invalidPageId then return ()
  else withMutablePage leafPageId fun page => do
    let _ ← .done (BTreeLeafPage.openPage page)
    update 0 (setPreviousLeafPageId · previousLeafPageId)

/-- The loops that insert entries one behind the other. -/
def insertEntries {ι : Type} (insertEntry : PageData → Nat → ι → Result PageData) (handle : Nat) :
    Nat → List ι → PageProgram Unit
  | _, [] => return ()
  | entryIndex, entry :: entries => do
    edit handle (insertEntry · entryIndex entry)
    insertEntries insertEntry handle (entryIndex + 1) entries

/-! ## Finding and updating -/

def find (tree : BTree) (key : List Byte) : PageProgram (List Byte) := do
  Program.failIf (key.length ≠ tree.keySize)
    (.InvalidArgument "Cannot find B+ tree key: key size is invalid")
  let leafPageId ← tree.findLeafPageId key
  withPage leafPageId fun page => do
    let page ← .done (BTreeLeafPage.openPage page)
    let position ← .done
      (BTreeLeafPage.positionOfKey "Cannot find B+ tree key: key was not found" page key)
    .done (BTreeLeafPage.valueAt page position)

def updateValue (tree : BTree) (key value : List Byte) : PageProgram Unit := do
  Program.failIf (key.length ≠ tree.keySize)
    (.InvalidArgument "Cannot update B+ tree value: key size is invalid")
  Program.failIf (value.length ≠ tree.valueSize)
    (.InvalidArgument "Cannot update B+ tree value: value size is invalid")
  let leafPageId ← tree.findLeafPageId key
  withMutablePage leafPageId fun page => do
    let _ ← .done (BTreeLeafPage.openPage page)
    edit 0 (BTreeLeafPage.updateValue · key value)

/-! ## Inserting -/

section Insert

variable (tree : BTree)

/-- An entry of a leaf, stored as its key and its value. -/
def insertLeafEntry (page : PageData) (entryIndex : Nat) (entry : List Byte) : Result PageData :=
  BTreeLeafPage.insertEntry page entryIndex (slice entry 0 tree.keySize)
    (slice entry tree.keySize tree.valueSize)

def insertInternalEntry (page : PageData) (entryIndex : Nat) (entry : List Byte × PageId) :
    Result PageData :=
  BTreeInternalPage.insertEntry page entryIndex entry.1 entry.2

/-- `insert_into_leaf` on a full page, which is in the scope of handle 0. -/
def splitLeaf (pageId : PageId) (page : PageData) (insertionPos storedKeyCount : Nat)
    (key value : List Byte) : PageProgram (Option SplitResult) := do
  let parentPageId := parentPageId page
  let oldNextLeafPageId := nextLeafPageId page
  let oldEntries ← .done ((List.range storedKeyCount).mapM (BTreeLeafPage.entryAt page))
  let entries := oldEntries.insertIdx insertionPos (key ++ value)
  withNewPage fun rightLeafPageId => do
    edit 0 fun _ => initializeLeaf tree.keySize tree.valueSize
    let _ ← readWith 0 BTreeLeafPage.openPage
    let leftKeyCount := entries.length / 2
    edit 1 (BTreeLeafPage.setKeyCount · 0)
    insertEntries tree.insertLeafEntry 1 0 (entries.take leftKeyCount)
    insertEntries tree.insertLeafEntry 0 0 (entries.drop leftKeyCount)
    update 1 (setNextLeafPageId · rightLeafPageId)
    update 0 (setParentPageId · parentPageId)
    update 0 (setPreviousLeafPageId · pageId)
    update 0 (setNextLeafPageId · oldNextLeafPageId)
    setPreviousLeaf oldNextLeafPageId rightLeafPageId
    return some ⟨slice (entries.getD leftKeyCount []) 0 tree.keySize, rightLeafPageId⟩

/-- Duplicate keys are rejected. -/
def checkDuplicate (page : PageData) (insertionPos : Nat) (key : List Byte) : Result Unit :=
  if insertionPos < keyCount page then do
    let nextKey ← BTreeLeafPage.keyAt page insertionPos
    failIf (memcmp key nextKey = .eq)
      (.ConstraintViolation "Cannot insert key/value into B+ tree: key is duplicated")
  else return ()

def insertIntoLeaf (pageId : PageId) (key value : List Byte) :
    PageProgram (Option SplitResult) := do
  let (insertionPos, storedKeyCount) ← withPage pageId fun page => do
    let page ← .done (BTreeLeafPage.openPage page)
    let insertionPos ← .done (BTreeLeafPage.findInsertionPosition page key)
    .done (checkDuplicate page insertionPos key)
    return (insertionPos, keyCount page)
  withMutablePage pageId fun page => do
    let page ← .done (BTreeLeafPage.openPage page)
    if keyCount page < BTreeLeafPage.capacity page then do
      edit 0 (BTreeLeafPage.insertEntry · insertionPos key value)
      return none
    else tree.splitLeaf pageId page insertionPos storedKeyCount key value

/-- An entry of an internal page. -/
def internalEntryAt (page : PageData) (entryIndex : Nat) : Result (List Byte × PageId) := do
  let key ← BTreeInternalPage.keyAt page entryIndex
  let rightChildPageId ← BTreeInternalPage.rightChildPageIdAt page entryIndex
  return (key, rightChildPageId)

/-- `insert_into_internal` on a full page, which is in the scope of handle 0. -/
def splitInternal (page : PageData) (childSplit : SplitResult) :
    PageProgram (Option SplitResult) := do
  let insertionPos ←
    .done (BTreeInternalPage.findInsertionPosition page childSplit.separatorKey)
  let parentPageId := parentPageId page
  let oldEntries ← .done ((List.range (keyCount page)).mapM (internalEntryAt page))
  let entries := oldEntries.insertIdx insertionPos
    (childSplit.separatorKey, childSplit.rightChildPageId)
  withNewPage fun rightInternalPageId => do
    edit 0 fun _ => initializeInternal tree.keySize tree.valueSize
    let _ ← readWith 0 BTreeInternalPage.openPage
    let middleIndex := entries.length / 2
    let promotedEntry := entries.getD middleIndex ([], invalidPageId)
    let rightEntries := entries.drop (middleIndex + 1)
    edit 1 (BTreeInternalPage.setKeyCount · 0)
    insertEntries insertInternalEntry 1 0 (entries.take middleIndex)
    update 0 (setParentPageId · parentPageId)
    update 0 (setFirstChildPageId · promotedEntry.2)
    insertEntries insertInternalEntry 0 0 rightEntries
    updateParentPageId rightInternalPageId promotedEntry.2
    Program.forEach (updateParentPageId rightInternalPageId) (rightEntries.map Prod.snd)
    return some ⟨promotedEntry.1, rightInternalPageId⟩

/-- `insert_into_internal` on a page with room, which is in the scope of handle 0. -/
def insertChild (page : PageData) (childSplit : SplitResult) :
    PageProgram (Option SplitResult) := do
  let insertionPos ←
    .done (BTreeInternalPage.findInsertionPosition page childSplit.separatorKey)
  edit 0 (BTreeInternalPage.insertEntry · insertionPos childSplit.separatorKey
    childSplit.rightChildPageId)
  return none

/-- `insert_into_internal`; `insertIntoChild` is the recursive call. -/
def insertIntoInternal (insertIntoChild : PageId → PageProgram (Option SplitResult))
    (pageId : PageId) (key : List Byte) : PageProgram (Option SplitResult) := do
  let childPageId ← withPage pageId fun page => do
    let page ← .done (BTreeInternalPage.openPage page)
    .done (BTreeInternalPage.childPageIdForKey page key)
  let childSplit ← insertIntoChild childPageId
  match childSplit with
  | none => return none
  | some childSplit =>
    withMutablePage pageId fun page => do
      let page ← .done (BTreeInternalPage.openPage page)
      if keyCount page < BTreeInternalPage.capacity page then insertChild page childSplit
      else tree.splitInternal page childSplit

def insertIntoSubtree (key value : List Byte) : Nat → PageId → PageProgram (Option SplitResult)
  | 0, _ => .diverge
  | fuel + 1, pageId => do
    let pageKind ← pageKind pageId
    match pageKind with
    | .leaf => tree.insertIntoLeaf pageId key value
    | .internal => tree.insertIntoInternal (insertIntoSubtree key value fuel) pageId key

/-- The children of a page that is not a leaf. -/
def childPageIdsOf (pageKind : BTreePageKind) (pageId : PageId) : PageProgram (List PageId) :=
  match pageKind with
  | .leaf => return []
  | .internal => internalChildPageIds pageId

/-- `insert`, when the root was split: the old root moves into a new left child. -/
def moveRoot : PageProgram (BTreePageKind × List PageId × PageId) :=
  withPage tree.rootPageId fun oldRootPage => do
    let oldRootPage ← .done (openPage oldRootPage)
    let oldRootPageKind := kind oldRootPage
    let oldRootChildPageIds ← childPageIdsOf oldRootPageKind tree.rootPageId
    withNewPage fun leftChildPageId => do
      let oldRootPage ← read 1
      update 0 fun _ => oldRootPage.data
      let _ ← readWith 0 openPage
      update 0 (setRoot · false)
      update 0 (setParentPageId · tree.rootPageId)
      return (oldRootPageKind, oldRootChildPageIds, leftChildPageId)

/-- `insert`, when the root was split. -/
def splitRoot (split : SplitResult) : PageProgram Unit := do
  let rightChildPageId := split.rightChildPageId
  let (oldRootPageKind, oldRootChildPageIds, leftChildPageId) ← tree.moveRoot
  setChildrenParentPageId oldRootChildPageIds leftChildPageId
  withMutablePage tree.rootPageId fun _ => do
    edit 0 fun _ => initializeInternal tree.keySize tree.valueSize
    let _ ← readWith 0 BTreeInternalPage.openPage
    update 0 (setRoot · true)
    update 0 (setParentPageId · invalidPageId)
    update 0 (setFirstChildPageId · leftChildPageId)
    edit 0 (BTreeInternalPage.insertEntry · 0 split.separatorKey rightChildPageId)
  withMutablePage rightChildPageId fun page => do
    let _ ← .done (openPage page)
    update 0 (setRoot · false)
    update 0 (setParentPageId · tree.rootPageId)
    match oldRootPageKind with
    | .internal => return ()
    | .leaf =>
      let _ ← readWith 0 BTreeLeafPage.openPage
      update 0 (setPreviousLeafPageId · leftChildPageId)

def insert (key value : List Byte) : PageProgram Unit := do
  Program.failIf (key.length ≠ tree.keySize)
    (.InvalidArgument "Cannot insert key/value into B+ tree: key size is invalid")
  Program.failIf (value.length ≠ tree.valueSize)
    (.InvalidArgument "Cannot insert key/value into B+ tree: value size is invalid")
  let split ← tree.insertIntoSubtree key value walkLimit tree.rootPageId
  match split with
  | none => return ()
  | some split => tree.splitRoot split

end Insert

/-! ## Erasing -/

section Erase

variable (tree : BTree)

/-- The least number of entries of a page that is not the root. -/
def minimumKeyCount (page : PageData) : BTreePageKind → Nat
  | .leaf => (BTreeLeafPage.capacity page + 1) / 2
  | .internal => BTreeInternalPage.capacity page / 2

def pageIsUnderfull (pageId : PageId) : PageProgram Bool :=
  withPage pageId fun page => do
    let page ← .done (openPage page)
    if isRoot page then return false
    else do
      let page ← .done (openAs (kind page) page)
      return decide (keyCount page < minimumKeyCount page (kind page))

/-- `refresh_child_separator` -/
def refreshChildSeparator (internalPageId : PageId) (childIndex : Nat) : PageProgram Unit :=
  if childIndex = 0 then return ()
  else do
    let childPageId ← withPage internalPageId fun page => do
      let page ← .done (BTreeInternalPage.openPage page)
      .done (BTreeInternalPage.rightChildPageIdAt page (childIndex - 1))
    let firstKey ← firstKeyFrom walkLimit childPageId
    withMutablePage internalPageId fun page => do
      let _ ← .done (BTreeInternalPage.openPage page)
      edit 0 (BTreeInternalPage.setKeyAt · (childIndex - 1) firstKey)

/-- An entry of a leaf, erased. -/
def eraseLeafEntry (pageId : PageId) (entryIndex : Nat) : PageProgram Unit :=
  withMutablePage pageId fun page => do
    let _ ← .done (BTreeLeafPage.openPage page)
    edit 0 (BTreeLeafPage.eraseEntry · entryIndex)

/-- An entry of an internal page, erased. -/
def eraseInternalEntry (pageId : PageId) (entryIndex : Nat) : PageProgram Unit :=
  withMutablePage pageId fun page => do
    let _ ← .done (BTreeInternalPage.openPage page)
    edit 0 (BTreeInternalPage.eraseEntry · entryIndex)

def eraseFromLeaf (pageId : PageId) (key : List Byte) : PageProgram Bool := do
  let position ← withPage pageId fun page => do
    let page ← .done (BTreeLeafPage.openPage page)
    .done (BTreeLeafPage.positionOfKey
      "Cannot erase key from B+ tree: key was not found" page key)
  eraseLeafEntry pageId position
  pageIsUnderfull pageId

/-! ### Merging -/

/-- The loops that append the entries of the page of handle 1 to the page of
handle 0.  The index is a 16-bit number, and the fuel is the number of those. -/
def appendEntries {ι : Type} (entryAt : PageData → Nat → Result ι)
    (insertEntry : PageData → Nat → ι → Result PageData) (firstIndex : Nat) :
    Nat → Nat → PageProgram Unit
  | 0, _ => return ()
  | fuel + 1, entryIndex => do
    let rightPage ← read 1
    if entryIndex < keyCount rightPage.data then do
      let entry ← .done (entryAt rightPage.data entryIndex)
      edit 0 (insertEntry · (firstIndex + entryIndex) entry)
      appendEntries entryAt insertEntry firstIndex fuel (entryIndex + 1)
    else return ()

def mergeAdjacentLeaves (leftPageId rightPageId : PageId) : PageProgram Unit := do
  let nextLeafPageId ← withPage rightPageId fun rightPage => do
    let rightPage ← .done (BTreeLeafPage.openPage rightPage)
    let nextLeafPageId := nextLeafPageId rightPage
    withMutablePage leftPageId fun leftPage => do
      let leftPage ← .done (BTreeLeafPage.openPage leftPage)
      appendEntries BTreeLeafPage.entryAt tree.insertLeafEntry (keyCount leftPage) 65536 0
      update 0 (setNextLeafPageId · nextLeafPageId)
      return nextLeafPageId
  setPreviousLeaf nextLeafPageId leftPageId

/-- The loop of `merge_adjacent_internals` over the children of the page of handle 0. -/
def reparentMerged (leftPageId : PageId) : Nat → Nat → PageProgram Unit
  | 0, _ => return ()
  | fuel + 1, entryIndex => do
    let rightPage ← read 0
    if entryIndex < keyCount rightPage.data then do
      let rightChildPageId ← .done (BTreeInternalPage.rightChildPageIdAt rightPage.data entryIndex)
      updateParentPageId leftPageId rightChildPageId
      reparentMerged leftPageId fuel (entryIndex + 1)
    else return ()

def mergeAdjacentInternals (leftPageId : PageId) (separatorKey : List Byte)
    (rightPageId : PageId) : PageProgram Unit :=
  withPage rightPageId fun rightPage => do
    let rightPage ← .done (BTreeInternalPage.openPage rightPage)
    let rightFirstChildPageId := firstChildPageId rightPage
    withMutablePage leftPageId fun leftPage => do
      let leftPage ← .done (BTreeInternalPage.openPage leftPage)
      let leftKeyCount := keyCount leftPage
      edit 0 (BTreeInternalPage.insertEntry · leftKeyCount separatorKey rightFirstChildPageId)
      appendEntries internalEntryAt insertInternalEntry (leftKeyCount + 1) 65536 0
    updateParentPageId leftPageId rightFirstChildPageId
    reparentMerged leftPageId 65536 0

/-! ### Rebalancing -/

/-- A child and its siblings; the id of a sibling that is not there is invalid. -/
structure ChildWithSiblings where
  childPageId : PageId
  leftSiblingPageId : PageId
  rightSiblingPageId : PageId

def childWithSiblings (parentPageId : PageId) (childIndex : Nat) :
    PageProgram ChildWithSiblings :=
  withPage parentPageId fun page => do
    let page ← .done (BTreeInternalPage.openPage page)
    let childPageId ← .done (BTreeInternalPage.childPageIdAt page childIndex)
    let leftSiblingPageId ← .done
      (if childIndex > 0 then BTreeInternalPage.childPageIdAt page (childIndex - 1)
      else .ok invalidPageId)
    let rightSiblingPageId ← .done
      (if childIndex < keyCount page then BTreeInternalPage.rightChildPageIdAt page childIndex
      else .ok invalidPageId)
    return ⟨childPageId, leftSiblingPageId, rightSiblingPageId⟩

/-- The index and the bytes of the entry that a leaf lends, if it has more entries
than it needs; the index depends on their number. -/
def leafEntryToLend (pageId : PageId) (entryIndex : Nat → Nat) :
    PageProgram (Option (Nat × List Byte)) :=
  withPage pageId fun page => do
    let page ← .done (BTreeLeafPage.openPage page)
    if keyCount page > minimumKeyCount page .leaf then do
      let entry ← .done (BTreeLeafPage.entryAt page (entryIndex (keyCount page)))
      return some (entryIndex (keyCount page), entry)
    else return none

/-- Insert an entry; its index depends on the number of entries. -/
def addLeafEntry (pageId : PageId) (entryIndex : Nat → Nat) (entry : List Byte) :
    PageProgram Unit :=
  withMutablePage pageId fun page => do
    let page ← .done (BTreeLeafPage.openPage page)
    edit 0 (tree.insertLeafEntry · (entryIndex (keyCount page)) entry)

/-- Borrow the last entry of the left sibling; says whether there was one to borrow. -/
def borrowFromLeftLeaf (parentPageId : PageId) (childIndex : Nat) (links : ChildWithSiblings) :
    PageProgram Bool :=
  if links.leftSiblingPageId = invalidPageId then return false
  else do
    let borrowed ← leafEntryToLend links.leftSiblingPageId (· - 1)
    match borrowed with
    | none => return false
    | some (borrowedEntryIndex, borrowedEntry) =>
      tree.addLeafEntry links.childPageId (fun _ => 0) borrowedEntry
      eraseLeafEntry links.leftSiblingPageId borrowedEntryIndex
      refreshChildSeparator parentPageId childIndex
      return true

/-- Borrow the first entry of the right sibling. -/
def borrowFromRightLeaf (parentPageId : PageId) (childIndex : Nat) (links : ChildWithSiblings) :
    PageProgram Bool :=
  if links.rightSiblingPageId = invalidPageId then return false
  else do
    let borrowed ← leafEntryToLend links.rightSiblingPageId fun _ => 0
    match borrowed with
    | none => return false
    | some (borrowedEntryIndex, borrowedEntry) =>
      tree.addLeafEntry links.childPageId id borrowedEntry
      eraseLeafEntry links.rightSiblingPageId borrowedEntryIndex
      refreshChildSeparator parentPageId childIndex
      refreshChildSeparator parentPageId (childIndex + 1)
      return true

def rebalanceLeafChildAfterErase (parentPageId : PageId) (childIndex : Nat) :
    PageProgram Unit := do
  let links ← childWithSiblings parentPageId childIndex
  let borrowed ← tree.borrowFromLeftLeaf parentPageId childIndex links
  if borrowed then return ()
  else do
    let borrowed ← tree.borrowFromRightLeaf parentPageId childIndex links
    if borrowed then return ()
    else if links.leftSiblingPageId ≠ invalidPageId then do
      tree.mergeAdjacentLeaves links.leftSiblingPageId links.childPageId
      eraseInternalEntry parentPageId (childIndex - 1)
    else if links.rightSiblingPageId ≠ invalidPageId then do
      tree.mergeAdjacentLeaves links.childPageId links.rightSiblingPageId
      eraseInternalEntry parentPageId childIndex
    else Program.fail (.Corruption
      "Cannot rebalance B+ tree leaf child after erase: child has no siblings")

/-- A key of an internal page. -/
def separatorKeyAt (pageId : PageId) (entryIndex : Nat) : PageProgram (List Byte) :=
  withPage pageId fun page => do
    let page ← .done (BTreeInternalPage.openPage page)
    .done (BTreeInternalPage.keyAt page entryIndex)

/-- The index of the last entry of an internal page and its child, if the page has
more entries than it needs. -/
def lastChildToLend (pageId : PageId) : PageProgram (Option (Nat × PageId)) :=
  withPage pageId fun page => do
    let page ← .done (BTreeInternalPage.openPage page)
    if keyCount page > minimumKeyCount page .internal then do
      let childPageId ← .done (BTreeInternalPage.rightChildPageIdAt page (keyCount page - 1))
      return some (keyCount page - 1, childPageId)
    else return none

/-- The first two children of an internal page, if it has more entries than it needs. -/
def firstChildToLend (pageId : PageId) : PageProgram (Option (PageId × PageId)) :=
  withPage pageId fun page => do
    let page ← .done (BTreeInternalPage.openPage page)
    if keyCount page > minimumKeyCount page .internal then do
      let newFirstChildPageId ← .done (BTreeInternalPage.rightChildPageIdAt page 0)
      return some (firstChildPageId page, newFirstChildPageId)
    else return none

/-- Borrow the last child of the left sibling. -/
def borrowFromLeftInternal (parentPageId : PageId) (childIndex : Nat)
    (links : ChildWithSiblings) : PageProgram Bool :=
  if links.leftSiblingPageId = invalidPageId then return false
  else do
    let borrowed ← lastChildToLend links.leftSiblingPageId
    match borrowed with
    | none => return false
    | some (borrowedEntryIndex, borrowedChildPageId) =>
      let separatorKey ← separatorKeyAt parentPageId (childIndex - 1)
      withMutablePage links.childPageId fun page => do
        let page ← .done (BTreeInternalPage.openPage page)
        edit 0 (BTreeInternalPage.insertEntry · 0 separatorKey (firstChildPageId page))
        update 0 (setFirstChildPageId · borrowedChildPageId)
      eraseInternalEntry links.leftSiblingPageId borrowedEntryIndex
      updateParentPageId links.childPageId borrowedChildPageId
      refreshChildSeparator parentPageId childIndex
      return true

/-- Borrow the first child of the right sibling. -/
def borrowFromRightInternal (parentPageId : PageId) (childIndex : Nat)
    (links : ChildWithSiblings) : PageProgram Bool :=
  if links.rightSiblingPageId = invalidPageId then return false
  else do
    let borrowed ← firstChildToLend links.rightSiblingPageId
    match borrowed with
    | none => return false
    | some (borrowedChildPageId, newRightFirstChildPageId) =>
      let separatorKey ← separatorKeyAt parentPageId childIndex
      withMutablePage links.childPageId fun page => do
        let page ← .done (BTreeInternalPage.openPage page)
        edit 0 (BTreeInternalPage.insertEntry · (keyCount page) separatorKey borrowedChildPageId)
      withMutablePage links.rightSiblingPageId fun page => do
        let _ ← .done (BTreeInternalPage.openPage page)
        update 0 (setFirstChildPageId · newRightFirstChildPageId)
        edit 0 (BTreeInternalPage.eraseEntry · 0)
      updateParentPageId links.childPageId borrowedChildPageId
      refreshChildSeparator parentPageId (childIndex + 1)
      return true

def rebalanceInternalChildAfterErase (parentPageId : PageId) (childIndex : Nat) :
    PageProgram Unit := do
  let links ← childWithSiblings parentPageId childIndex
  refreshChildSeparator parentPageId childIndex
  let borrowed ← borrowFromLeftInternal parentPageId childIndex links
  if borrowed then return ()
  else do
    let borrowed ← borrowFromRightInternal parentPageId childIndex links
    if borrowed then return ()
    else if links.leftSiblingPageId ≠ invalidPageId then do
      let separatorKey ← separatorKeyAt parentPageId (childIndex - 1)
      mergeAdjacentInternals links.leftSiblingPageId separatorKey links.childPageId
      eraseInternalEntry parentPageId (childIndex - 1)
    else if links.rightSiblingPageId ≠ invalidPageId then do
      let separatorKey ← separatorKeyAt parentPageId childIndex
      mergeAdjacentInternals links.childPageId separatorKey links.rightSiblingPageId
      eraseInternalEntry parentPageId childIndex
    else Program.fail (.Corruption
      "Cannot rebalance B+ tree internal child after erase: child has no siblings")

def rebalanceChildAfterErase (parentPageId : PageId) (childIndex : Nat) : PageProgram Unit := do
  let childPageId ← withPage parentPageId fun page => do
    let page ← .done (BTreeInternalPage.openPage page)
    .done (BTreeInternalPage.childPageIdAt page childIndex)
  let childPageKind ← pageKind childPageId
  match childPageKind with
  | .leaf => tree.rebalanceLeafChildAfterErase parentPageId childIndex
  | .internal => rebalanceInternalChildAfterErase parentPageId childIndex

/-- `erase_from_internal`; `eraseFromChild` is the recursive call. -/
def eraseFromInternal (eraseFromChild : PageId → PageProgram Bool) (pageId : PageId)
    (key : List Byte) : PageProgram Bool := do
  let (childIndex, childPageId) ← withPage pageId fun page => do
    let page ← .done (BTreeInternalPage.openPage page)
    let childIndex ← .done (BTreeInternalPage.childIndexForKey page key)
    let childPageId ← .done (BTreeInternalPage.childPageIdAt page childIndex)
    return (childIndex, childPageId)
  let childIsUnderfull ← eraseFromChild childPageId
  if childIsUnderfull then tree.rebalanceChildAfterErase pageId childIndex
  else refreshChildSeparator pageId childIndex
  pageIsUnderfull pageId

def eraseFromSubtree (key : List Byte) : Nat → PageId → PageProgram Bool
  | 0, _ => .diverge
  | fuel + 1, pageId => do
    let pageKind ← pageKind pageId
    match pageKind with
    | .leaf => eraseFromLeaf pageId key
    | .internal => tree.eraseFromInternal (eraseFromSubtree key fuel) pageId key

/-- `erase`, when the root has one child: the child moves into the root. -/
def collapseRoot (childPageId : PageId) : PageProgram Unit := do
  let childPageChildPageIds ← withPage childPageId fun page => do
    let page ← .done (openPage page)
    childPageIdsOf (kind page) childPageId
  withPage childPageId fun _ =>
    withMutablePage tree.rootPageId fun _ => do
      let childPage ← read 1
      update 0 fun _ => childPage.data
      let _ ← readWith 0 openPage
      update 0 (setRoot · true)
      update 0 (setParentPageId · invalidPageId)
  setChildrenParentPageId childPageChildPageIds tree.rootPageId

def erase (key : List Byte) : PageProgram Unit := do
  Program.failIf (key.length ≠ tree.keySize)
    (.InvalidArgument "Cannot erase key from B+ tree: key size is invalid")
  let _ ← tree.eraseFromSubtree key walkLimit tree.rootPageId
  let onlyChild ← withPage tree.rootPageId fun page => do
    let page ← .done (openPage page)
    if kind page = .leaf ∨ keyCount page > 0 then return none
    else do
      let page ← .done (BTreeInternalPage.openPage page)
      return some (firstChildPageId page)
  match onlyChild with
  | none => return ()
  | some childPageId => tree.collapseRoot childPageId

end Erase

end BTree

/-! ## Scanning -/

structure BTreeEntry where
  key : List Byte
  value : List Byte
deriving DecidableEq

structure BTreeCursor where
  currentLeafPageId : PageId
  entryIndex : Nat
  upperBound : Option (List Byte)

namespace BTree

open PageProgram BTreePage

def scanRange (tree : BTree) (lowerBound upperBound : Option (List Byte)) :
    PageProgram BTreeCursor := do
  Program.failIf (∃ bound ∈ lowerBound, bound.length ≠ tree.keySize)
    (.InvalidArgument "Cannot range scan B+ tree: lower bound key size is invalid")
  Program.failIf (∃ bound ∈ upperBound, bound.length ≠ tree.keySize)
    (.InvalidArgument "Cannot range scan B+ tree: upper bound key size is invalid")
  match lowerBound with
  | some lowerBound => do
    let leafPageId ← tree.findLeafPageId lowerBound
    withPage leafPageId fun page => do
      let page ← .done (BTreeLeafPage.openPage page)
      let position ← .done (BTreeLeafPage.findInsertionPosition page lowerBound)
      return ⟨leafPageId, position, upperBound⟩
  | none => do
    let leafPageId ← firstLeafFrom walkLimit tree.rootPageId
    return ⟨leafPageId, 0, upperBound⟩

def scan (tree : BTree) : PageProgram BTreeCursor := tree.scanRange none none

end BTree

namespace BTreeCursor

open BTree PageProgram BTree.BTreePage

/-- The key is not below the upper bound. -/
def HasReachedUpperBound (cursor : BTreeCursor) (key : List Byte) : Prop :=
  ∃ bound ∈ cursor.upperBound, memcmp key bound ≠ .lt

instance (cursor : BTreeCursor) (key : List Byte) : Decidable (cursor.HasReachedUpperBound key) :=
  inferInstanceAs (Decidable (∃ bound ∈ cursor.upperBound, memcmp key bound ≠ .lt))

/-- The entry of a cursor in its leaf, if there is one; the answer of `next` and
the cursor afterwards. -/
def entryInLeaf (cursor : BTreeCursor) (page : PageData) :
    Result (Option BTreeEntry × BTreeCursor) := do
  let key ← BTreeLeafPage.keyAt page cursor.entryIndex
  if cursor.HasReachedUpperBound key then
    return (none, { cursor with currentLeafPageId := invalidPageId })
  else do
    let value ← BTreeLeafPage.valueAt page cursor.entryIndex
    return (some ⟨key, value⟩, { cursor with entryIndex := cursor.entryIndex + 1 })

/-- The loop of `next`. -/
def nextFrom : Nat → BTreeCursor → PageProgram (Option BTreeEntry × BTreeCursor)
  | 0, _ => .diverge
  | fuel + 1, cursor =>
    if cursor.currentLeafPageId = invalidPageId then return (none, cursor)
    else do
      let step ← withPage cursor.currentLeafPageId fun page => do
        let page ← .done (BTreeLeafPage.openPage page)
        if cursor.entryIndex < keyCount page then do
          let answer ← .done (cursor.entryInLeaf page)
          return Sum.inr answer
        else return Sum.inl ⟨nextLeafPageId page, 0, cursor.upperBound⟩
      match step with
      | .inl cursor => nextFrom fuel cursor
      | .inr answer => return answer

def next (cursor : BTreeCursor) : PageProgram (Option BTreeEntry × BTreeCursor) :=
  nextFrom walkLimit cursor

end BTreeCursor

end DanDB
