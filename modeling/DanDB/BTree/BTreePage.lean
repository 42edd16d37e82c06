import DanDB.Core.Memcmp
import DanDB.Lib.Records
import DanDB.Storage.Page

/-!
# B+ tree pages

A page of a tree begins with a header, and its entries follow it in the order of
their keys.  An entry is a key with a payload: a value in a leaf page and the id
of a child page in an internal page.  The two kinds of pages do the same to their
entries, so the functions below work on pages of either kind.
-/

namespace DanDB.BTree

open Buffer DanDB.Core Storage

def btreePageHeaderSize : Nat := 64
def btreePageEntryArrayOffset : Nat := btreePageHeaderSize
def btreePageEntryAreaSize : Nat := pageSize - btreePageHeaderSize
def btreePageReservedRanges : List (Nat × Nat) := [(6, 2), (44, 20)]
def btreeInternalPageKind : Byte := 1
def btreeLeafPageKind : Byte := 2
def btreePageRootFlag : Byte := 1

inductive BTreePageKind where
  | internal
  | leaf
deriving DecidableEq

namespace BTreePageKind

/-- The byte that marks a page of the kind. -/
def code : BTreePageKind → Byte
  | internal => btreeInternalPageKind
  | leaf => btreeLeafPageKind

/-- The least number of entries that a page must have room for. -/
def minimumCapacity : BTreePageKind → Nat
  | internal => 2
  | leaf => 1

/-- What a message says of entries that are too large. -/
def capacityText : BTreePageKind → String
  | internal => "entry size must leave room for at least two entries"
  | leaf => "entry size is too large"

/-- The word for the kind in a message. -/
def text : BTreePageKind → String
  | internal => "internal"
  | leaf => "leaf"

def payloadSize (kind : BTreePageKind) (valueSize : Nat) : Nat :=
  match kind with
  | internal => 8
  | leaf => valueSize

def entrySize (kind : BTreePageKind) (keySize valueSize : Nat) : Nat :=
  keySize + kind.payloadSize valueSize

def capacity (kind : BTreePageKind) (keySize valueSize : Nat) : Nat :=
  btreePageEntryAreaSize / kind.entrySize keySize valueSize

end BTreePageKind

namespace BTreePage

/-! ## The header -/

def kindOffset : Nat := 0
def flagsOffset : Nat := 1
def keyCountOffset : Nat := 2
def headerSizeOffset : Nat := 4
def parentPageIdOffset : Nat := 8
def nextLeafPageIdOffset : Nat := 16
def previousLeafPageIdOffset : Nat := 24
def firstChildPageIdOffset : Nat := 32
def keySizeOffset : Nat := 40
def valueSizeOffset : Nat := 42

def byteAt (page : PageData) (offset : Nat) : Byte := (page.slice offset 1).headD 0

/-- A 16-bit field. -/
def numberAt (page : PageData) (offset : Nat) : Nat := leValue (page.slice offset 2)

/-- A field that holds a page id. -/
def pageIdAt (page : PageData) (offset : Nat) : PageId :=
  UInt64.ofNat (leValue (page.slice offset 8))

def setPageId (page : PageData) (offset : Nat) (pageId : PageId) : PageData :=
  page.put offset (leBytes 8 pageId.toNat)

def kind (page : PageData) : BTreePageKind :=
  if byteAt page kindOffset = btreeInternalPageKind then .internal else .leaf

def isRoot (page : PageData) : Bool := byteAt page flagsOffset &&& btreePageRootFlag != 0

def keyCount (page : PageData) : Nat := numberAt page keyCountOffset

def keySize (page : PageData) : Nat := numberAt page keySizeOffset

def valueSize (page : PageData) : Nat := numberAt page valueSizeOffset

def parentPageId (page : PageData) : PageId := pageIdAt page parentPageIdOffset

def nextLeafPageId (page : PageData) : PageId := pageIdAt page nextLeafPageIdOffset

def previousLeafPageId (page : PageData) : PageId := pageIdAt page previousLeafPageIdOffset

def firstChildPageId (page : PageData) : PageId := pageIdAt page firstChildPageIdOffset

def setParentPageId (page : PageData) (pageId : PageId) : PageData :=
  setPageId page parentPageIdOffset pageId

def setNextLeafPageId (page : PageData) (pageId : PageId) : PageData :=
  setPageId page nextLeafPageIdOffset pageId

def setPreviousLeafPageId (page : PageData) (pageId : PageId) : PageData :=
  setPageId page previousLeafPageIdOffset pageId

def setFirstChildPageId (page : PageData) (pageId : PageId) : PageData :=
  setPageId page firstChildPageIdOffset pageId

def setRoot (page : PageData) (isRoot : Bool) : PageData :=
  let flags := byteAt page flagsOffset
  page.put flagsOffset [if isRoot then flags ||| btreePageRootFlag else flags &&& ~~~btreePageRootFlag]

/-- A page without entries. -/
def emptyPage (kind : BTreePageKind) (keySize valueSize : Nat) : PageData :=
  (Bytes.zero : PageData)
    |>.put kindOffset [kind.code]
    |>.put flagsOffset [0]
    |>.put keyCountOffset (leBytes 2 0)
    |>.put headerSizeOffset (leBytes 2 btreePageHeaderSize)
    |>.put parentPageIdOffset (leBytes 8 invalidPageId.toNat)
    |>.put nextLeafPageIdOffset (leBytes 8 invalidPageId.toNat)
    |>.put previousLeafPageIdOffset (leBytes 8 invalidPageId.toNat)
    |>.put firstChildPageIdOffset (leBytes 8 invalidPageId.toNat)
    |>.put keySizeOffset (leBytes 2 keySize)
    |>.put valueSizeOffset (leBytes 2 valueSize)

/-- What `initialize_internal` and `initialize_leaf` do. -/
def initializeAs (kind : BTreePageKind) (keySize valueSize : Nat) : Result PageData := do
  failIf (keySize = 0) (.InvalidArgument
    s!"Cannot initialize {kind.text} B+ tree page: key size must be greater than 0")
  failIf (valueSize = 0) (.InvalidArgument
    s!"Cannot initialize {kind.text} B+ tree page: value size must be greater than 0")
  failIf (kind.capacity keySize valueSize < kind.minimumCapacity) (.InvalidArgument
    s!"Cannot initialize {kind.text} B+ tree page: {kind.capacityText}")
  return emptyPage kind keySize valueSize

def capacityOf (kind : BTreePageKind) (page : PageData) : Nat :=
  kind.capacity (keySize page) (valueSize page)

def validatePage (page : PageData) : Result Unit := do
  let pageKind := byteAt page kindOffset
  failIf (pageKind ≠ btreeInternalPageKind ∧ pageKind ≠ btreeLeafPageKind)
    (.Corruption "Cannot validate B+ tree page: page kind is invalid")
  failIf (byteAt page flagsOffset &&& ~~~btreePageRootFlag ≠ 0)
    (.Corruption "Cannot validate B+ tree page: flags contain unsupported bits")
  failIf (numberAt page headerSizeOffset ≠ btreePageHeaderSize)
    (.Corruption "Cannot validate B+ tree page: header size is invalid")
  failIf (∃ range ∈ btreePageReservedRanges, bytesAreZero (page.slice range.1 range.2) = false)
    (.Corruption "Cannot validate B+ tree page: reserved bytes are non-zero")
  failIf (keySize page = 0)
    (.Corruption "Cannot validate B+ tree page: key size must be greater than 0")
  failIf (valueSize page = 0)
    (.Corruption "Cannot validate B+ tree page: value size must be greater than 0")
  let capacity := capacityOf (kind page) page
  failIf (capacity = 0) (.Corruption "Cannot validate B+ tree page: entry size is too large")
  failIf (kind page = .internal ∧ capacity < 2) (.Corruption
    "Cannot validate B+ tree internal page: entry size must leave room for at least two entries")
  failIf (keyCount page > capacity)
    (.Corruption "Cannot validate B+ tree page: key count exceeds page capacity")

/-- `open`: the view of a page is the page. -/
def openPage (page : PageData) : Result PageData := do
  validatePage page
  return page

/-- `open` of a page of one kind. -/
def openAs (kind : BTreePageKind) (page : PageData) : Result PageData := do
  let page ← openPage page
  failIf (BTreePage.kind page ≠ kind) (.InvalidArgument
    s!"Cannot open B+ tree {kind.text} page: page kind is not {kind.text}")
  return page

/-! ## Entries -/

section Entries

variable (pageKind : BTreePageKind)

def entrySize (page : PageData) : Nat := pageKind.entrySize (keySize page) (valueSize page)

def entryOffset (page : PageData) (entryIndex : Nat) : Nat :=
  btreePageEntryArrayOffset + entryIndex * entrySize pageKind page

/-- A part of an entry, after the check of its index; `part` is the word for it
in the message. -/
def partAt (part : String) (page : PageData) (entryIndex offset size : Nat) :
    Result (List Byte) := do
  failIf (entryIndex ≥ keyCount page) (.InvalidArgument
    s!"Cannot read B+ tree {pageKind.text} page {part}: entry index is out of bounds")
  return page.slice (entryOffset pageKind page entryIndex + offset) size

def entryAt (page : PageData) (entryIndex : Nat) : Result (List Byte) :=
  partAt pageKind "entry" page entryIndex 0 (entrySize pageKind page)

def keyAt (page : PageData) (entryIndex : Nat) : Result (List Byte) :=
  partAt pageKind "key" page entryIndex 0 (keySize page)

/-- The loop of `find_insertion_position` and `child_index_for_key`: the keys
before the position are those that compare as `before` says.  The fuel is the
number of entries. -/
def searchLoop (before : Ordering → Bool) (page : PageData) (key : List Byte) :
    Nat → Nat → Nat → Result Nat
  | 0, left, _ => return left
  | fuel + 1, left, right =>
    if left < right then do
      let mid := left + (right - left) / 2
      let storedKey ← keyAt pageKind page mid
      if before (memcmp storedKey key) then searchLoop before page key fuel (mid + 1) right
      else searchLoop before page key fuel left mid
    else return left

def findInsertionPosition (page : PageData) (key : List Byte) : Result Nat := do
  failIf (key.length ≠ keySize page) (.InvalidArgument
    s!"Cannot find B+ tree {pageKind.text} page insertion position: key size is invalid")
  searchLoop pageKind (· == .lt) page key (keyCount page) 0 (keyCount page)

def setKeyCount (page : PageData) (keyCount : Nat) : Result PageData := do
  failIf (keyCount > capacityOf pageKind page) (.InvalidArgument
    "Cannot set B+ tree page key count: key count exceeds page capacity")
  return page.put keyCountOffset (leBytes 2 keyCount)

def insertFailure (reason : String) : Status :=
  .InvalidArgument s!"Cannot insert B+ tree {pageKind.text} page entry: {reason}"

/-- The key in front of a new entry is not larger. -/
def checkPreviousKey (page : PageData) (entryIndex : Nat) (key : List Byte) : Result Unit :=
  if entryIndex > 0 then do
    let previousKey ← keyAt pageKind page (entryIndex - 1)
    failIf (memcmp key previousKey = .lt)
      (insertFailure pageKind "entry index breaks sorted-key invariant")
  else return ()

/-- The key behind a new entry is not smaller. -/
def checkNextKey (page : PageData) (entryIndex : Nat) (key : List Byte) : Result Unit :=
  if entryIndex < keyCount page then do
    let nextKey ← keyAt pageKind page entryIndex
    failIf (memcmp nextKey key = .lt)
      (insertFailure pageKind "entry index breaks sorted-key invariant")
  else return ()

/-- `insert_entry`, with the bytes of the value or of the child page id; those of
a child page id always have the right number. -/
def insertEntry (page : PageData) (entryIndex : Nat) (key payload : List Byte) :
    Result PageData := do
  let storedKeyCount := keyCount page
  failIf (entryIndex > storedKeyCount) (insertFailure pageKind "entry index is out of bounds")
  failIf (key.length ≠ keySize page) (insertFailure pageKind "key size is invalid")
  failIf (payload.length ≠ pageKind.payloadSize (valueSize page))
    (insertFailure pageKind "value size is invalid")
  failIf (storedKeyCount ≥ capacityOf pageKind page) (insertFailure pageKind "page is full")
  checkPreviousKey pageKind page entryIndex key
  checkNextKey pageKind page entryIndex key
  let entryOffset := entryOffset pageKind page entryIndex
  let valueOffset := entryOffset + keySize page
  let bytesToShift := (storedKeyCount - entryIndex) * entrySize pageKind page
  let page := page.put (entryOffset + entrySize pageKind page) (page.slice entryOffset bytesToShift)
  let page := page.put entryOffset key
  let page := page.put valueOffset payload
  setKeyCount pageKind page (storedKeyCount + 1)

def eraseEntry (page : PageData) (entryIndex : Nat) : Result PageData := do
  let storedKeyCount := keyCount page
  failIf (entryIndex ≥ storedKeyCount) (.InvalidArgument
    s!"Cannot erase B+ tree {pageKind.text} page entry: entry index is out of bounds")
  let entryOffset := entryOffset pageKind page entryIndex
  let bytesToShift := (storedKeyCount - entryIndex - 1) * entrySize pageKind page
  let page := page.put entryOffset
    (page.slice (entryOffset + entrySize pageKind page) bytesToShift)
  setKeyCount pageKind page (storedKeyCount - 1)

end Entries

end BTreePage

def initializeLeaf (keySize valueSize : Nat) : Result PageData :=
  BTreePage.initializeAs .leaf keySize valueSize

def initializeInternal (keySize valueSize : Nat) : Result PageData :=
  BTreePage.initializeAs .internal keySize valueSize

/-! ## Leaf pages -/

namespace BTreeLeafPage

open BTreePage

def openPage (page : PageData) : Result PageData := openAs .leaf page

def capacity (page : PageData) : Nat := capacityOf .leaf page

def entryAt (page : PageData) (entryIndex : Nat) : Result (List Byte) :=
  BTreePage.entryAt .leaf page entryIndex

def keyAt (page : PageData) (entryIndex : Nat) : Result (List Byte) :=
  BTreePage.keyAt .leaf page entryIndex

def valueAt (page : PageData) (entryIndex : Nat) : Result (List Byte) :=
  partAt .leaf "value" page entryIndex (keySize page) (valueSize page)

def findInsertionPosition (page : PageData) (key : List Byte) : Result Nat :=
  BTreePage.findInsertionPosition .leaf page key

/-- The position of a key that has to be there; what `find`, `update_value` and
`erase_from_leaf` do first. -/
def positionOfKey (message : String) (page : PageData) (key : List Byte) : Result Nat := do
  let position ← findInsertionPosition page key
  failIf (position = keyCount page) (.NotFound message)
  let storedKey ← keyAt page position
  failIf (memcmp storedKey key ≠ .eq) (.NotFound message)
  return position

def updateValue (page : PageData) (key value : List Byte) : Result PageData := do
  failIf (key.length ≠ keySize page)
    (.InvalidArgument "Cannot update B+ tree leaf page value: key size is invalid")
  failIf (value.length ≠ valueSize page)
    (.InvalidArgument "Cannot update B+ tree leaf page value: value size is invalid")
  let position ←
    positionOfKey "Cannot update B+ tree leaf page value: key was not found" page key
  return page.put (entryOffset .leaf page position + keySize page) value

def insertEntry (page : PageData) (entryIndex : Nat) (key value : List Byte) : Result PageData :=
  BTreePage.insertEntry .leaf page entryIndex key value

def eraseEntry (page : PageData) (entryIndex : Nat) : Result PageData :=
  BTreePage.eraseEntry .leaf page entryIndex

def setKeyCount (page : PageData) (keyCount : Nat) : Result PageData :=
  BTreePage.setKeyCount .leaf page keyCount

end BTreeLeafPage

/-! ## Internal pages -/

namespace BTreeInternalPage

open BTreePage

def openPage (page : PageData) : Result PageData := openAs .internal page

def capacity (page : PageData) : Nat := capacityOf .internal page

def keyAt (page : PageData) (entryIndex : Nat) : Result (List Byte) :=
  BTreePage.keyAt .internal page entryIndex

def rightChildPageIdAt (page : PageData) (entryIndex : Nat) : Result PageId :=
  (partAt .internal "right child page id" page entryIndex (keySize page) 8).map fun bytes =>
    UInt64.ofNat (leValue bytes)

def childIndexForKey (page : PageData) (key : List Byte) : Result Nat := do
  failIf (key.length ≠ keySize page)
    (.InvalidArgument "Cannot find B+ tree internal page child: key size is invalid")
  searchLoop .internal (· != .gt) page key (keyCount page) 0 (keyCount page)

/-- The child of an index, as every function that needs one computes it. -/
def childPageIdAt (page : PageData) (childIndex : Nat) : Result PageId :=
  if childIndex = 0 then return firstChildPageId page else rightChildPageIdAt page (childIndex - 1)

def childPageIdForKey (page : PageData) (key : List Byte) : Result PageId := do
  let childIndex ← childIndexForKey page key
  childPageIdAt page childIndex

def findInsertionPosition (page : PageData) (key : List Byte) : Result Nat :=
  BTreePage.findInsertionPosition .internal page key

def insertEntry (page : PageData) (entryIndex : Nat) (key : List Byte)
    (rightChildPageId : PageId) : Result PageData :=
  BTreePage.insertEntry .internal page entryIndex key (leBytes 8 rightChildPageId.toNat)

def eraseEntry (page : PageData) (entryIndex : Nat) : Result PageData :=
  BTreePage.eraseEntry .internal page entryIndex

def setKeyCount (page : PageData) (keyCount : Nat) : Result PageData :=
  BTreePage.setKeyCount .internal page keyCount

def setKeyAt (page : PageData) (entryIndex : Nat) (key : List Byte) : Result PageData := do
  failIf (entryIndex ≥ keyCount page)
    (.InvalidArgument "Cannot set B+ tree internal page key: entry index is out of bounds")
  failIf (key.length ≠ keySize page)
    (.InvalidArgument "Cannot set B+ tree internal page key: invalid new key size")
  return page.put (entryOffset .internal page entryIndex) key

end BTreeInternalPage

end DanDB.BTree
