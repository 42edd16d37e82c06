import DanDB.BTree.BTree
import DanDB.BTree.PageContents
import DanDB.Core.InPlace

/-!
# Editing a page

The functions that change the entries of a page, as they work on its bytes: they
shift the entries behind a place with `memmove`, copy an entry there and store the
new number of entries.  Each does to the page what its counterpart among the
functions on pages computes, so on a page that `validate_page` accepts it edits the
list of entries, stays inside the page and leaves the rest of the header alone.
-/

namespace DanDB.BTree

open Buffer DanDB.Core Storage InPlace

namespace BTreePage

/-! ## The functions -/

section Functions

variable (pageKind : BTreePageKind)

def setKeyCountInPlace (keyCount : Nat) : InPlace pageSize Unit := do
  let page ← get
  returns (failIf (keyCount > capacityOf pageKind page) (.InvalidArgument
    "Cannot set B+ tree page key count: key count exceeds page capacity"))
  writeLe 2 "Cannot write 16-bit integer to buffer: write bounds failure" keyCountOffset keyCount

/-- The entries are moved if there are any. -/
def shiftEntries (target source bytesToShift : Nat) : InPlace pageSize Unit :=
  if bytesToShift > 0 then memmove target source bytesToShift else pure ()

/-- A value is copied; a child page id is written behind a check of its bounds. -/
def storePayload : BTreePageKind → Nat → List Byte → InPlace pageSize Unit
  | .internal, offset, payload =>
    writeLe 8 "Cannot write 64-bit integer to buffer: write bounds failure" offset (leValue payload)
  | .leaf, offset, payload => memcpy offset payload

def insertEntryInPlace (entryIndex : Nat) (key payload : List Byte) : InPlace pageSize Unit := do
  let page ← get
  let storedKeyCount := keyCount page
  returns (failIf (entryIndex > storedKeyCount)
    (insertFailure pageKind "entry index is out of bounds"))
  returns (failIf (key.length ≠ keySize page) (insertFailure pageKind "key size is invalid"))
  returns (failIf (payload.length ≠ pageKind.payloadSize (valueSize page))
    (insertFailure pageKind "value size is invalid"))
  returns (failIf (storedKeyCount ≥ capacityOf pageKind page)
    (insertFailure pageKind "page is full"))
  returns (checkPreviousKey pageKind page entryIndex key)
  returns (checkNextKey pageKind page entryIndex key)
  let entryOffset := entryOffset pageKind page entryIndex
  let bytesToShift := (storedKeyCount - entryIndex) * entrySize pageKind page
  shiftEntries (entryOffset + entrySize pageKind page) entryOffset bytesToShift
  memcpy entryOffset key
  storePayload pageKind (entryOffset + keySize page) payload
  setKeyCountInPlace pageKind ((storedKeyCount + 1) % 65536)

def eraseEntryInPlace (entryIndex : Nat) : InPlace pageSize Unit := do
  let page ← get
  let storedKeyCount := keyCount page
  returns (failIf (entryIndex ≥ storedKeyCount) (.InvalidArgument
    s!"Cannot erase B+ tree {pageKind.text} page entry: entry index is out of bounds"))
  let entryOffset := entryOffset pageKind page entryIndex
  let bytesToShift := (storedKeyCount - entryIndex - 1) * entrySize pageKind page
  shiftEntries entryOffset (entryOffset + entrySize pageKind page) bytesToShift
  setKeyCountInPlace pageKind (storedKeyCount - 1)

end Functions

end BTreePage

open BTreePage

def BTreeInternalPage.setKeyAtInPlace (entryIndex : Nat) (key : List Byte) :
    InPlace pageSize Unit := do
  let page ← get
  returns (failIf (entryIndex ≥ BTreePage.keyCount page)
    (.InvalidArgument "Cannot set B+ tree internal page key: entry index is out of bounds"))
  returns (failIf (key.length ≠ BTreePage.keySize page)
    (.InvalidArgument "Cannot set B+ tree internal page key: invalid new key size"))
  memcpy (entryOffset .internal page entryIndex) key

def BTreeLeafPage.updateValueInPlace (key value : List Byte) : InPlace pageSize Unit := do
  let page ← get
  returns (failIf (key.length ≠ BTreePage.keySize page)
    (.InvalidArgument "Cannot update B+ tree leaf page value: key size is invalid"))
  returns (failIf (value.length ≠ BTreePage.valueSize page)
    (.InvalidArgument "Cannot update B+ tree leaf page value: value size is invalid"))
  let position ← returns (BTreeLeafPage.positionOfKey
    "Cannot update B+ tree leaf page value: key was not found" page key)
  memcpy (entryOffset .leaf page position + BTreePage.keySize page) value

/-! ## What they do to the bytes -/

namespace BTreePage

theorem capacityOf_put {kind : BTreePageKind} {page : PageData} {offset : Nat}
    {data : List Byte} (h : 64 ≤ offset) :
    capacityOf kind (page.put offset data) = capacityOf kind page := by
  rw [capacityOf, capacityOf, keySize, keySize, valueSize, valueSize, numberAt, numberAt, numberAt,
    numberAt, keySizeOffset, valueSizeOffset, Bytes.slice_put_before _ (by omega),
    Bytes.slice_put_before _ (by omega)]

theorem setKeyCount_of_le {kind : BTreePageKind} {page : PageData} {keyCount : Nat}
    (h : keyCount ≤ capacityOf kind page) :
    setKeyCount kind page keyCount = .ok (page.put keyCountOffset (leBytes 2 keyCount)) := by
  rw [setKeyCount, failIf_of_not (Nat.not_lt.mpr h)]
  rfl

theorem setKeyCountInPlace_run {kind : BTreePageKind} {page : PageData} {keyCount : Nat}
    (h : keyCount ≤ capacityOf kind page) : setKeyCountInPlace kind keyCount page =
      .ok () (page.put keyCountOffset (leBytes 2 keyCount)) := by
  have hdoes : Does (setKeyCountInPlace kind keyCount) page (setKeyCount kind page keyCount) :=
    does_get (does_returns fun _ _ => does_of_ok (writeLe_run (by decide) (by decide)) rfl)
  exact hdoes.ok (setKeyCount_of_le h)

theorem shiftEntries_bind {page : PageData} {target source len : Nat}
    {f : Unit → InPlace pageSize Unit} (hsource : source + len ≤ pageSize)
    (htarget : target + len ≤ pageSize) : (shiftEntries target source len >>= f) page =
      f () (page.put target (page.slice source len)) := by
  rw [shiftEntries]
  split
  · exact memmove_bind hsource htarget
  · have hlen : len = 0 := by omega
    have hput : page.put target (page.slice source len) = page := by
      rw [hlen]
      exact Bytes.ext (put_nil _ _)
    rw [hput]
    rfl

theorem storePayload_bind {kind : BTreePageKind} {page : PageData} {offset : Nat}
    {payload : List Byte} {f : Unit → InPlace pageSize Unit} (hfits : offset + payload.length ≤ pageSize)
    (hpayload : kind = .internal → payload.length = 8) :
    (storePayload kind offset payload >>= f) page = f () (page.put offset payload) := by
  cases kind with
  | leaf => exact memcpy_bind hfits
  | internal =>
    have hlength := hpayload rfl
    have hbytes := leBytes_leValue payload
    rw [hlength] at hfits hbytes
    show EStateM.bind _ _ _ = _
    rw [EStateM.bind, storePayload, writeLe_run (by decide) hfits, hbytes]

end BTreePage

namespace Node.Shows

variable {layout : Layout} {kind : BTreePageKind} {page : PageData} {node : Node layout kind}
  (h : node.Shows page)

include h

theorem does_insertEntry (entryIndex : Nat) (key payload : List Byte) :
    Does (insertEntryInPlace kind entryIndex key payload) page
      (BTreePage.insertEntry kind page entryIndex key payload) := by
  refine does_get (does_returns fun _ hindex => does_returns fun _ hkey => does_returns fun _ hpayload =>
    does_returns fun _ hroom => does_returns fun _ _ => does_returns fun _ _ => ?_)
  rw [failIf_eq_ok, h.keyCount_eq] at hindex
  rw [failIf_eq_ok, not_not, h.keySize_eq] at hkey
  rw [failIf_eq_ok, not_not, h.valueSize_eq] at hpayload
  rw [failIf_eq_ok, h.keyCount_eq, h.capacityOf_eq] at hroom
  have hsize : layout.entrySize kind = layout.keySize + kind.payloadSize layout.valueSize := rfl
  have hfits : 64 + (node.entries.length + 1) * layout.entrySize kind ≤ pageSize :=
    layout.fits_of_le kind (Nat.not_le.mp hroom)
  have hcount := layout.capacity_lt kind
  have hsplit : node.entries.length * layout.entrySize kind =
      entryIndex * layout.entrySize kind +
        (node.entries.length - entryIndex) * layout.entrySize kind := by
    rw [← Nat.add_mul, Nat.add_sub_cancel' (Nat.not_lt.mp hindex)]
  rw [Nat.succ_mul] at hfits
  simp only [h.keyCount_eq, h.keySize_eq, h.entrySize_eq, entryOffset, btreePageEntryArrayOffset,
    btreePageHeaderSize]
  rw [Nat.mod_eq_of_lt (by omega)]
  have hcapacity : node.entries.length + 1 ≤ layout.capacity kind := Nat.not_le.mp hroom
  refine does_of_ok ?_ (setKeyCount_of_le ?_)
  · rw [shiftEntries_bind (by omega) (by omega), memcpy_bind (by omega),
      storePayload_bind (by omega) (by rintro rfl; exact hpayload), setKeyCountInPlace_run]
    rwa [capacityOf_put (by omega), capacityOf_put (by omega), capacityOf_put (by omega),
      h.capacityOf_eq]
  · rwa [capacityOf_put (by omega), capacityOf_put (by omega), capacityOf_put (by omega),
      h.capacityOf_eq]

theorem does_eraseEntry (entryIndex : Nat) :
    Does (eraseEntryInPlace kind entryIndex) page (BTreePage.eraseEntry kind page entryIndex) := by
  refine does_get (does_returns fun _ hindex => ?_)
  rw [failIf_eq_ok, h.keyCount_eq] at hindex
  have hfits := layout.fits_of_le kind h.fits
  have hsplit : node.entries.length * layout.entrySize kind =
      entryIndex * layout.entrySize kind + layout.entrySize kind +
        (node.entries.length - entryIndex - 1) * layout.entrySize kind := by
    rw [← Nat.succ_mul, ← Nat.add_mul]
    congr 1
    omega
  have hcount := h.fits
  simp only [h.keyCount_eq, h.entrySize_eq, entryOffset, btreePageEntryArrayOffset,
    btreePageHeaderSize]
  have hcapacity : node.entries.length - 1 ≤ layout.capacity kind := by omega
  refine does_of_ok ?_ (setKeyCount_of_le ?_)
  · rw [shiftEntries_bind (by omega) (by omega), setKeyCountInPlace_run]
    rwa [capacityOf_put (by omega), h.capacityOf_eq]
  · rwa [capacityOf_put (by omega), h.capacityOf_eq]

/-- An entry lies inside the page. -/
theorem entryOffset_fits {entryIndex : Nat} (hindex : entryIndex < BTreePage.keyCount page) :
    entryOffset kind page entryIndex + layout.entrySize kind ≤ pageSize := by
  rw [h.keyCount_eq] at hindex
  have hfits := layout.fits_of_le kind (hindex.trans_le h.fits)
  rw [Nat.succ_mul] at hfits
  rw [entryOffset, h.entrySize_eq, btreePageEntryArrayOffset, btreePageHeaderSize]
  omega

end Node.Shows

namespace Node.Shows

variable {layout : Layout} {page : PageData}

theorem does_setKeyAt {node : Node layout .internal} (h : node.Shows page) (entryIndex : Nat)
    (key : List Byte) : Does (BTreeInternalPage.setKeyAtInPlace entryIndex key) page
      (BTreeInternalPage.setKeyAt page entryIndex key) := by
  refine does_get (does_returns fun _ hindex => does_returns fun _ hkey => ?_)
  rw [failIf_eq_ok] at hindex
  rw [failIf_eq_ok, not_not, h.keySize_eq] at hkey
  have hfits := h.entryOffset_fits (Nat.not_le.mp hindex)
  have hsize : layout.entrySize .internal = layout.keySize + 8 := rfl
  exact does_of_ok (memcpy_run (by omega)) rfl

theorem does_updateValue {node : Node layout .leaf} (h : node.Shows page) (key value : List Byte) :
    Does (BTreeLeafPage.updateValueInPlace key value) page
      (BTreeLeafPage.updateValue page key value) := by
  refine does_get (does_returns fun _ _ => does_returns fun _ hvalue =>
    does_returns fun position hposition => ?_)
  rw [failIf_eq_ok, not_not, h.valueSize_eq] at hvalue
  simp only [BTreeLeafPage.positionOfKey, BTreeLeafPage.keyAt, BTreePage.keyAt, partAt, bind_eq_ok,
    failIf_eq_ok] at hposition
  obtain ⟨found, -, -, -, storedKey, ⟨-, hindex, -⟩, -, -, hfound⟩ := hposition
  cases hfound
  have hfits := h.entryOffset_fits (Nat.not_le.mp hindex)
  have hsize : layout.entrySize .leaf = layout.keySize + layout.valueSize := rfl
  rw [h.keySize_eq]
  exact does_of_ok (memcpy_run (by omega)) rfl

end Node.Shows

end DanDB.BTree
