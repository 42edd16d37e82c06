import DanDB.BTree.BTreeNode

/-!
# The contents of a page

A page that `validate_page` accepts shows a node: its sizes are those of a layout,
and the stretches behind its header are entries.  `entries` reads them off the
bytes, each as the bytes of its key with those of its value or child.
-/

namespace DanDB.BTree

open Buffer DanDB.Core Storage

namespace BTreePage

/-- The entries of a page, as its bytes have them. -/
def entries (page : PageData) : List (List Byte × List Byte) :=
  (List.range (keyCount page)).map fun i =>
    (page.slice (entryOffset (kind page) page i) (keySize page),
      page.slice (entryOffset (kind page) page i + keySize page)
        ((kind page).payloadSize (valueSize page)))

/-- What `validate_page` checks. -/
structure Accepted (page : PageData) : Prop where
  kind : byteAt page kindOffset = btreeInternalPageKind ∨ byteAt page kindOffset = btreeLeafPageKind
  flags : byteAt page flagsOffset &&& ~~~btreePageRootFlag = 0
  headerSize : numberAt page headerSizeOffset = btreePageHeaderSize
  reserved : ∀ range ∈ btreePageReservedRanges, bytesAreZero (page.slice range.1 range.2) = true
  keySize : 0 < BTreePage.keySize page
  valueSize : 0 < BTreePage.valueSize page
  capacity : (BTreePage.kind page).minimumCapacity ≤ capacityOf (BTreePage.kind page) page
  keyCount : BTreePage.keyCount page ≤ capacityOf (BTreePage.kind page) page

theorem accepted_of_validatePage {page : PageData} (h : validatePage page = .ok ()) :
    Accepted page := by
  simp only [validatePage, bind_eq_ok, failIf_eq_ok, exists_const] at h
  obtain ⟨hkind, hflags, hheader, hreserved, hkeySize, hvalueSize, hcapacity, hinternal, hcount⟩ := h
  refine ⟨?_, not_not.mp hflags, not_not.mp hheader, ?_, Nat.pos_of_ne_zero hkeySize,
    Nat.pos_of_ne_zero hvalueSize, ?_, Nat.not_lt.mp hcount⟩
  · rw [not_and_or] at hkind
    exact hkind.imp not_not.mp not_not.mp
  · intro range hmem
    have hzero := fun hfalse => hreserved ⟨range, hmem, hfalse⟩
    simpa using hzero
  · cases hkind' : BTreePage.kind page with
    | internal =>
      rw [hkind'] at hinternal
      exact Nat.not_lt.mp fun hlt => hinternal ⟨rfl, hlt⟩
    | leaf =>
      rw [hkind'] at hcapacity
      exact Nat.pos_of_ne_zero hcapacity

end BTreePage

/-! ## Fields -/

theorem BTreePage.slice_one (page : PageData) {offset : Nat} (h : offset + 1 ≤ pageSize) :
    page.slice offset 1 = [BTreePage.byteAt page offset] := by
  obtain ⟨byte, hbyte⟩ := List.length_eq_one_iff.mp (page.length_slice h)
  rw [BTreePage.byteAt, hbyte, List.headD_cons]

theorem BTreePage.slice_two (page : PageData) {offset : Nat} (h : offset + 2 ≤ pageSize) :
    page.slice offset 2 = leBytes 2 (BTreePage.numberAt page offset) := by
  have hbytes := leBytes_leValue (page.slice offset 2)
  rw [page.length_slice h] at hbytes
  exact hbytes.symm

theorem BTreePage.slice_pageId (page : PageData) {offset : Nat} (h : offset + 8 ≤ pageSize) :
    page.slice offset 8 = leBytes 8 (BTreePage.pageIdAt page offset).toNat := by
  have hbytes := leBytes_leValue (page.slice offset 8)
  have hlt := leValue_lt (page.slice offset 8)
  rw [page.length_slice h] at hbytes hlt
  rw [BTreePage.pageIdAt, UInt64.toNat_ofNat', Nat.mod_eq_of_lt (hlt.trans_le (by decide)), hbytes]

theorem BTreePage.numberAt_lt (page : PageData) (offset : Nat) :
    BTreePage.numberAt page offset < 65536 := by
  have hlt := leValue_lt (page.slice offset 2)
  have hle : (page.slice offset 2).length ≤ 2 := length_slice_le _ _ _
  exact hlt.trans_le (Nat.pow_le_pow_right (by decide) hle)

/-- A byte without other bits than the lowest. -/
theorem eq_of_and_not_one {byte : Byte} (h : byte &&& ~~~(1 : Byte) = 0) :
    byte = if byte &&& 1 != 0 then 1 else 0 := by
  have hbytes : ∀ n : Fin 256, UInt8.ofNat n &&& ~~~(1 : Byte) = 0 →
      UInt8.ofNat n = if UInt8.ofNat n &&& 1 != 0 then 1 else 0 := by decide +kernel
  have hbyte := hbytes ⟨byte.toNat, byte.toNat_lt⟩
  rw [UInt8.ofNat_toNat] at hbyte
  exact hbyte h

/-! ## Entries -/

theorem Layout.exists_payloadBytes (layout : Layout) {kind : BTreePageKind} {bytes : List Byte}
    (h : bytes.length = kind.payloadSize layout.valueSize) :
    ∃ payload, layout.payloadBytes kind payload = bytes := by
  cases kind with
  | internal =>
    have hbytes := leBytes_leValue bytes
    have hlt := leValue_lt bytes
    rw [show bytes.length = 8 from h] at hbytes hlt
    refine ⟨UInt64.ofNat (leValue bytes), ?_⟩
    rw [Layout.payloadBytes, UInt64.toNat_ofNat', Nat.mod_eq_of_lt (hlt.trans_le (by decide)),
      hbytes]
  | leaf => exact ⟨⟨bytes, h⟩, rfl⟩

theorem Layout.exists_entryBytes (layout : Layout) {kind : BTreePageKind} {bytes : List Byte}
    (h : bytes.length = layout.entrySize kind) : ∃ entry, layout.entryBytes kind entry = bytes := by
  have hsize : layout.entrySize kind = layout.keySize + kind.payloadSize layout.valueSize := rfl
  have hkey : (bytes.take layout.keySize).length = layout.keySize := by
    rw [List.length_take]
    omega
  obtain ⟨payload, hpayload⟩ := @layout.exists_payloadBytes kind (bytes.drop layout.keySize)
    (by rw [List.length_drop]; omega)
  refine ⟨(⟨bytes.take layout.keySize, hkey⟩, payload), ?_⟩
  rw [Layout.entryBytes, hpayload, List.take_append_drop]

/-! ## The node of a page -/

namespace BTreePage.Accepted

variable {page : PageData} (h : Accepted page)

include h

/-- The sizes that the header has. -/
def layout : Layout where
  keySize := BTreePage.keySize page
  valueSize := BTreePage.valueSize page
  keySize_pos := h.keySize
  valueSize_pos := h.valueSize
  keySize_lt := numberAt_lt page keySizeOffset
  valueSize_lt := numberAt_lt page valueSizeOffset

theorem kindByte : page.slice 0 1 = [(BTreePage.kind page).code] := by
  rw [slice_one page (by decide), BTreePage.kind]
  obtain hkind | hkind := h.kind
  · rw [if_pos hkind]
    exact congrArg (fun byte => [byte]) hkind
  · rw [if_neg (by rw [hkind]; decide)]
    exact congrArg (fun byte => [byte]) hkind

theorem exists_node : ∃ node : Node h.layout (BTreePage.kind page), node.Shows page := by
  have hfits := h.layout.fits_of_le (BTreePage.kind page) h.keyCount
  obtain ⟨entries, hlength, hentries⟩ := exists_pack
    (fun bytes => h.layout.exists_entryBytes) (page.length_slice hfits)
  have hzero {offset len : Nat} (hmem : (offset, len) ∈ btreePageReservedRanges)
      (hle : offset + len ≤ pageSize) : page.slice offset len = List.replicate len 0 := by
    have hbytes := (bytesAreZero_iff _).mp (h.reserved _ hmem)
    rwa [page.length_slice hle] at hbytes
  refine ⟨⟨isRoot page, parentPageId page, nextLeafPageId page, previousLeafPageId page,
    firstChildPageId page, entries⟩, h.kindByte, ?_, ?_, ?_, hzero (by decide) (by decide),
    slice_pageId page (by decide), slice_pageId page (by decide), slice_pageId page (by decide),
    slice_pageId page (by decide), slice_two page (by decide), slice_two page (by decide),
    hzero (by decide) (by decide), h.capacity, ?_, ?_⟩
  · rw [slice_one page (by decide)]
    exact congrArg (fun byte => [byte]) (eq_of_and_not_one h.flags)
  · rw [slice_two page (by decide), hlength]
    rfl
  · rw [slice_two page (by decide)]
    exact congrArg _ h.headerSize
  · rw [hlength]
    exact h.keyCount
  · rw [hlength]
    exact hentries.symm

end BTreePage.Accepted

namespace Node.Shows

variable {layout : Layout} {kind : BTreePageKind} {page : PageData} {node : Node layout kind}

/-- The bytes of the entries are the entries of the node. -/
theorem entries_eq (h : node.Shows page) : BTreePage.entries page =
    node.entries.map fun entry => (entry.1.bytes, layout.payloadBytes kind entry.2) := by
  rw [BTreePage.entries, h.kind_eq, h.keyCount_eq, h.keySize_eq, h.valueSize_eq]
  refine List.ext_getElem (by simp) fun i hi hi' => ?_
  have hlt : i < node.entries.length := by simpa using hi'
  rw [List.getElem_map, List.getElem_range, List.getElem_map]
  have hkey := h.keyAt_ok hlt
  rw [BTreePage.keyAt, BTreePage.partAt, h.keyCount_eq, h.keySize_eq,
    failIf_of_not (Nat.not_le.mpr hlt), ok_bind, pure_eq_ok, Nat.add_zero] at hkey
  have hpayload := h.payloadAt_ok "value" hlt
  rw [BTreePage.partAt, h.keyCount_eq, failIf_of_not (Nat.not_le.mpr hlt), ok_bind,
    pure_eq_ok] at hpayload
  exact Prod.ext (Except.ok.inj hkey) (Except.ok.inj hpayload)

/-- The header does not depend on the entries but for their number. -/
theorem header_eq {page' : PageData} {entries : List (layout.Entry kind)} (h : node.Shows page)
    (h' : Shows page' { node with entries := entries }) {i : Nat} (hi : i < 64) (hcount : i ≠ 2)
    (hcount' : i ≠ 3) : page'.bytes[i]? = page.bytes[i]? := by
  have hfront : page'.slice 0 (1 + 1) = page.slice 0 (1 + 1) :=
    Bytes.slice_congr_add (h'.kindByte.trans h.kindByte.symm) (h'.flags.trans h.flags.symm)
  have hback : page'.slice 4 (2 + 2 + 8 + 8 + 8 + 8 + 2 + 2 + 20) =
      page.slice 4 (2 + 2 + 8 + 8 + 8 + 8 + 2 + 2 + 20) := by
    refine Bytes.slice_congr_add (Bytes.slice_congr_add (Bytes.slice_congr_add
      (Bytes.slice_congr_add (Bytes.slice_congr_add (Bytes.slice_congr_add (Bytes.slice_congr_add
      (Bytes.slice_congr_add ?_ ?_) ?_) ?_) ?_) ?_) ?_) ?_) ?_
    · exact h'.headerSize.trans h.headerSize.symm
    · exact h'.reserved.trans h.reserved.symm
    · exact h'.parent.trans h.parent.symm
    · exact h'.next.trans h.next.symm
    · exact h'.previous.trans h.previous.symm
    · exact h'.firstChild.trans h.firstChild.symm
    · exact h'.keySize.trans h.keySize.symm
    · exact h'.valueSize.trans h.valueSize.symm
    · exact h'.reserved'.trans h.reserved'.symm
  have hread {offset len : Nat} (heq : page'.slice offset len = page.slice offset len)
      (hle : offset ≤ i) (hlt : i < offset + len) : page'.bytes[i]? = page.bytes[i]? := by
    have hget := congrArg (fun bytes => bytes[i - offset]?) heq
    simp only [Bytes.slice, getElem?_slice] at hget
    rwa [if_pos (by omega), if_pos (by omega), Nat.add_sub_cancel' hle] at hget
  rcases Nat.lt_or_ge i 2 with hlt | hge
  · exact hread hfront (Nat.zero_le i) hlt
  · exact hread hback (by omega) hi

end Node.Shows

end DanDB.BTree
