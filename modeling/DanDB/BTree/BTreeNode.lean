import DanDB.BTree.BTreePage

/-!
# Nodes

What a page of a tree stands for: a node with its links and its list of entries.
`Shows page node` says that the page holds the node.  Each function on pages has
one lemma, which says what it does to the node.
-/

namespace DanDB.BTree

open Buffer DanDB.Core Storage

/-- The sizes of keys and values. -/
structure Layout where
  keySize : Nat
  valueSize : Nat
  keySize_pos : 0 < keySize
  valueSize_pos : 0 < valueSize
  keySize_lt : keySize < 65536
  valueSize_lt : valueSize < 65536

/-- Keys and values of one byte. -/
def smallLayout : Layout := ⟨1, 1, by decide, by decide, by decide, by decide⟩

namespace Layout

abbrev Key (layout : Layout) := Bytes layout.keySize

abbrev Value (layout : Layout) := Bytes layout.valueSize

/-- What belongs to a key in an entry: a value or the child to its right. -/
abbrev Payload (layout : Layout) : BTreePageKind → Type
  | .internal => PageId
  | .leaf => layout.Value

abbrev Entry (layout : Layout) (kind : BTreePageKind) := layout.Key × layout.Payload kind

def payloadBytes (layout : Layout) : (kind : BTreePageKind) → layout.Payload kind → List Byte
  | .internal, pageId => leBytes 8 pageId.toNat
  | .leaf, value => value.bytes

/-- The bytes of an entry. -/
def entryBytes (layout : Layout) (kind : BTreePageKind) (entry : layout.Entry kind) : List Byte :=
  entry.1.bytes ++ layout.payloadBytes kind entry.2

/-- `entry_size` -/
def entrySize (layout : Layout) (kind : BTreePageKind) : Nat :=
  kind.entrySize layout.keySize layout.valueSize

/-- `capacity` -/
def capacity (layout : Layout) (kind : BTreePageKind) : Nat :=
  kind.capacity layout.keySize layout.valueSize

/-- Pages of the kind have enough room. -/
def Admits (layout : Layout) (kind : BTreePageKind) : Prop :=
  kind.minimumCapacity ≤ layout.capacity kind

variable (layout : Layout) (kind : BTreePageKind)

theorem length_payloadBytes (payload : layout.Payload kind) :
    (layout.payloadBytes kind payload).length = kind.payloadSize layout.valueSize := by
  cases kind with
  | internal => exact length_leBytes 8 _
  | leaf => exact Bytes.size_eq payload

/-- Entries have one size, -/
theorem length_entryBytes (entry : layout.Entry kind) :
    (layout.entryBytes kind entry).length = layout.entrySize kind := by
  rw [entryBytes, List.length_append, entry.1.size_eq, length_payloadBytes]
  rfl

theorem payloadBytes_injective : Function.Injective (layout.payloadBytes kind) := by
  intro payload payload' h
  cases kind with
  | internal =>
    have hvalue := congrArg (fun bytes => UInt64.ofNat (leValue bytes)) h
    have hinj (pageId : PageId) : UInt64.ofNat (leValue (layout.payloadBytes .internal pageId)) = pageId :=
      ofNat_leValue_leBytes_64 pageId
    rwa [hinj, hinj] at hvalue
  | leaf => exact Bytes.ext h

/-- and their bytes tell them apart. -/
theorem entryBytes_injective : Function.Injective (layout.entryBytes kind) := by
  intro entry entry' h
  obtain ⟨hkey, hpayload⟩ := List.append_inj h (entry.1.size_eq.trans entry'.1.size_eq.symm)
  exact Prod.ext (Bytes.ext hkey) (layout.payloadBytes_injective kind hpayload)

theorem entrySize_pos : 0 < layout.entrySize kind :=
  Nat.add_pos_left layout.keySize_pos _

/-- The entries of a page fit behind its header. -/
theorem capacity_mul_le : 64 + layout.capacity kind * layout.entrySize kind ≤ pageSize := by
  have hle : layout.capacity kind * layout.entrySize kind ≤ btreePageEntryAreaSize :=
    Nat.div_mul_le_self _ _
  have harea : btreePageEntryAreaSize = 4032 := rfl
  have hpage : pageSize = 4096 := rfl
  omega

/-- As many entries as the capacity says fit behind the header, -/
theorem fits_of_le {n : Nat} (h : n ≤ layout.capacity kind) :
    64 + n * layout.entrySize kind ≤ pageSize :=
  (Nat.add_le_add_left (Nat.mul_le_mul_right _ h) 64).trans (layout.capacity_mul_le kind)

/-- and their number fits its field. -/
theorem capacity_lt : layout.capacity kind < 65536 := by
  have hle := layout.capacity_mul_le kind
  have hmul := Nat.le_mul_of_pos_right (layout.capacity kind) (layout.entrySize_pos kind)
  have hpage : pageSize = 4096 := rfl
  omega

end Layout

theorem smallLayout_admits (kind : BTreePageKind) : smallLayout.Admits kind := by
  cases kind <;> exact Nat.le_of_ble_eq_true rfl

/-- A node of a tree.  A leaf has no first child, and an internal node has no
next and no previous leaf; the fields are there in both. -/
structure Node (layout : Layout) (kind : BTreePageKind) where
  isRoot : Bool
  parent : PageId
  next : PageId
  previous : PageId
  firstChild : PageId
  entries : List (layout.Entry kind)

namespace Node

variable {layout : Layout} {kind : BTreePageKind}

/-- The page holds the node. -/
structure Shows (page : PageData) (node : Node layout kind) : Prop where
  kindByte : page.slice 0 1 = [kind.code]
  flags : page.slice 1 1 = [if node.isRoot then 1 else 0]
  keyCount : page.slice 2 2 = leBytes 2 node.entries.length
  headerSize : page.slice 4 2 = leBytes 2 64
  reserved : page.slice 6 2 = List.replicate 2 0
  parent : page.slice 8 8 = leBytes 8 node.parent.toNat
  next : page.slice 16 8 = leBytes 8 node.next.toNat
  previous : page.slice 24 8 = leBytes 8 node.previous.toNat
  firstChild : page.slice 32 8 = leBytes 8 node.firstChild.toNat
  keySize : page.slice 40 2 = leBytes 2 layout.keySize
  valueSize : page.slice 42 2 = leBytes 2 layout.valueSize
  reserved' : page.slice 44 20 = List.replicate 20 0
  admits : layout.Admits kind
  fits : node.entries.length ≤ layout.capacity kind
  entries : page.slice 64 (node.entries.length * layout.entrySize kind) =
    pack (layout.entryBytes kind) node.entries

namespace Shows

variable {page : PageData} {node : Node layout kind}

/-! ## Reading -/

section Reading

variable (h : Shows page node)

include h

theorem keySize_eq : BTreePage.keySize page = layout.keySize := by
  rw [BTreePage.keySize, BTreePage.numberAt, BTreePage.keySizeOffset, h.keySize,
    leValue_leBytes_of_lt layout.keySize_lt]

theorem valueSize_eq : BTreePage.valueSize page = layout.valueSize := by
  rw [BTreePage.valueSize, BTreePage.numberAt, BTreePage.valueSizeOffset, h.valueSize,
    leValue_leBytes_of_lt layout.valueSize_lt]

theorem keyCount_eq : BTreePage.keyCount page = node.entries.length := by
  rw [BTreePage.keyCount, BTreePage.numberAt, BTreePage.keyCountOffset, h.keyCount,
    leValue_leBytes_of_lt (h.fits.trans_lt (layout.capacity_lt kind))]

theorem parent_eq : BTreePage.parentPageId page = node.parent := by
  rw [BTreePage.parentPageId, BTreePage.pageIdAt, BTreePage.parentPageIdOffset, h.parent,
    ofNat_leValue_leBytes_64]

theorem next_eq : BTreePage.nextLeafPageId page = node.next := by
  rw [BTreePage.nextLeafPageId, BTreePage.pageIdAt, BTreePage.nextLeafPageIdOffset, h.next,
    ofNat_leValue_leBytes_64]

theorem previous_eq : BTreePage.previousLeafPageId page = node.previous := by
  rw [BTreePage.previousLeafPageId, BTreePage.pageIdAt, BTreePage.previousLeafPageIdOffset,
    h.previous, ofNat_leValue_leBytes_64]

theorem firstChild_eq : BTreePage.firstChildPageId page = node.firstChild := by
  rw [BTreePage.firstChildPageId, BTreePage.pageIdAt, BTreePage.firstChildPageIdOffset,
    h.firstChild, ofNat_leValue_leBytes_64]

theorem kind_eq : BTreePage.kind page = kind := by
  rw [BTreePage.kind, BTreePage.byteAt, BTreePage.kindOffset, h.kindByte, List.headD_cons]
  cases kind <;> rfl

theorem isRoot_eq : BTreePage.isRoot page = node.isRoot := by
  rw [BTreePage.isRoot, BTreePage.byteAt, BTreePage.flagsOffset, h.flags, List.headD_cons]
  cases node.isRoot <;> rfl

theorem entrySize_eq : BTreePage.entrySize kind page = layout.entrySize kind := by
  rw [BTreePage.entrySize, h.keySize_eq, h.valueSize_eq, Layout.entrySize]

theorem capacityOf_eq : BTreePage.capacityOf kind page = layout.capacity kind := by
  rw [BTreePage.capacityOf, h.keySize_eq, h.valueSize_eq, Layout.capacity]

/-- A page that shows a node is accepted. -/
theorem validatePage_ok : BTreePage.validatePage page = .ok () := by
  have hkind : BTreePage.byteAt page BTreePage.kindOffset = kind.code := by
    rw [BTreePage.byteAt, BTreePage.kindOffset, h.kindByte, List.headD_cons]
  have hflags : BTreePage.byteAt page BTreePage.flagsOffset &&& ~~~btreePageRootFlag = 0 := by
    rw [BTreePage.byteAt, BTreePage.flagsOffset, h.flags, List.headD_cons]
    cases node.isRoot <;> decide
  have hheader : BTreePage.numberAt page BTreePage.headerSizeOffset = btreePageHeaderSize := by
    rw [BTreePage.numberAt, BTreePage.headerSizeOffset, h.headerSize,
      leValue_leBytes_of_lt (by decide), btreePageHeaderSize]
  have hreserved : ¬∃ range ∈ btreePageReservedRanges,
      bytesAreZero (page.slice range.1 range.2) = false := by
    rintro ⟨range, hmem, hzero⟩
    rw [btreePageReservedRanges, List.mem_cons, List.mem_singleton] at hmem
    obtain rfl | rfl := hmem
    · rw [h.reserved] at hzero
      cases hzero
    · rw [h.reserved'] at hzero
      cases hzero
  have hcapacity : 1 ≤ layout.capacity kind ∧ (kind = .internal → 2 ≤ layout.capacity kind) := by
    have hge : kind.minimumCapacity ≤ layout.capacity kind := h.admits
    cases kind with
    | internal => exact ⟨le_trans (by decide) hge, fun _ => hge⟩
    | leaf => exact ⟨hge, nofun⟩
  have hkeySize := layout.keySize_pos
  have hvalueSize := layout.valueSize_pos
  simp only [BTreePage.validatePage, hkind, hflags, hheader, h.keySize_eq, h.valueSize_eq,
    h.kind_eq, h.keyCount_eq, h.capacityOf_eq]
  rw [failIf_of_not (by cases kind <;> decide), ok_bind, failIf_of_not (by decide), ok_bind,
    failIf_of_not (by decide), ok_bind, failIf_of_not hreserved, ok_bind,
    failIf_of_not (by omega), ok_bind, failIf_of_not (by omega), ok_bind,
    failIf_of_not (by omega), ok_bind,
    failIf_of_not (fun hlt => absurd (hcapacity.2 hlt.1) (by omega)), ok_bind,
    failIf_of_not (Nat.not_lt.mpr h.fits)]

theorem openPage_ok : BTreePage.openPage page = .ok page := by
  rw [BTreePage.openPage, h.validatePage_ok]
  rfl

theorem openAs_ok : BTreePage.openAs kind page = .ok page := by
  rw [BTreePage.openAs, h.openPage_ok, ok_bind, failIf_of_not (not_not_intro h.kind_eq)]
  rfl

/-- The entries of the node lie in the page, one after the other. -/
theorem slice_entry {i : Nat} (hi : i < node.entries.length) :
    page.slice (BTreePage.entryOffset kind page i) (layout.entrySize kind) =
      layout.entryBytes kind node.entries[i] := by
  rw [BTreePage.entryOffset, h.entrySize_eq]
  exact slice_record (layout.length_entryBytes kind) h.entries hi

/-- A part of an entry is read from it. -/
theorem partAt_ok (part : String) {i offset size : Nat} (hi : i < node.entries.length)
    (hsize : offset + size ≤ layout.entrySize kind) :
    BTreePage.partAt kind part page i offset size =
      .ok (slice (layout.entryBytes kind node.entries[i]) offset size) := by
  rw [BTreePage.partAt, h.keyCount_eq, failIf_of_not (Nat.not_le.mpr hi), ok_bind, pure_eq_ok,
    ← h.slice_entry hi]
  exact congrArg Except.ok (slice_slice hsize).symm

theorem entryAt_ok {i : Nat} (hi : i < node.entries.length) :
    BTreePage.entryAt kind page i = .ok (layout.entryBytes kind node.entries[i]) := by
  have hlength := layout.length_entryBytes kind node.entries[i]
  rw [BTreePage.entryAt, h.entrySize_eq, h.partAt_ok _ hi (by omega), slice_eq_self hlength]

theorem keyAt_ok {i : Nat} (hi : i < node.entries.length) :
    BTreePage.keyAt kind page i = .ok node.entries[i].1.bytes := by
  have hle : 0 + layout.keySize ≤ layout.entrySize kind := by
    rw [Nat.zero_add]
    exact Nat.le_add_right ..
  rw [BTreePage.keyAt, h.keySize_eq, h.partAt_ok _ hi hle, Layout.entryBytes,
    slice_append_left (by rw [node.entries[i].1.size_eq, Nat.zero_add]),
    slice_eq_self node.entries[i].1.size_eq]

theorem payloadAt_ok (part : String) {i : Nat} (hi : i < node.entries.length) :
    BTreePage.partAt kind part page i layout.keySize (kind.payloadSize layout.valueSize) =
      .ok (layout.payloadBytes kind node.entries[i].2) := by
  have hlength := layout.length_payloadBytes kind node.entries[i].2
  have hkey := node.entries[i].1.size_eq
  rw [h.partAt_ok part hi (Nat.le_refl _), Layout.entryBytes,
    slice_append_right hkey.le, hkey, Nat.sub_self, slice_eq_self hlength]

/-- A page shows one node. -/
theorem unique {node' : Node layout kind} (h' : Shows page node') : node' = node := by
  have hlength : node'.entries.length = node.entries.length := by
    rw [← h.keyCount_eq, ← h'.keyCount_eq]
  have hentries : node'.entries = node.entries := by
    refine List.ext_getElem hlength fun i hi' hi => layout.entryBytes_injective kind ?_
    rw [← h.slice_entry hi, ← h'.slice_entry hi']
  have hisRoot : node'.isRoot = node.isRoot := by rw [← h.isRoot_eq, ← h'.isRoot_eq]
  have hparent : node'.parent = node.parent := by rw [← h.parent_eq, ← h'.parent_eq]
  have hnext : node'.next = node.next := by rw [← h.next_eq, ← h'.next_eq]
  have hprevious : node'.previous = node.previous := by rw [← h.previous_eq, ← h'.previous_eq]
  have hfirstChild : node'.firstChild = node.firstChild := by
    rw [← h.firstChild_eq, ← h'.firstChild_eq]
  cases node
  cases node'
  subst hisRoot hparent hnext hprevious hfirstChild hentries
  rfl

/-- The loop of a search ends at the position where the keys change sides. -/
theorem searchLoop_ok {before : Ordering → Bool} {key : List Byte} {position : Nat}
    (hbefore : ∀ i (hi : i < node.entries.length),
      before (memcmp node.entries[i].1.bytes key) = decide (i < position))
    {fuel left right : Nat} (hleft : left ≤ position) (hright : position ≤ right)
    (hcount : right ≤ node.entries.length) (hfuel : right - left ≤ fuel) :
    BTreePage.searchLoop kind before page key fuel left right = .ok position := by
  induction fuel generalizing left right with
  | zero =>
    have heq : left = position := by omega
    rw [BTreePage.searchLoop, heq, pure_eq_ok]
  | succ fuel ih =>
    rw [BTreePage.searchLoop]
    split
    · have hmid : left + (right - left) / 2 < right := by omega
      dsimp only
      rw [h.keyAt_ok (hmid.trans_le hcount), ok_bind, hbefore _ (hmid.trans_le hcount)]
      rcases Nat.lt_or_ge (left + (right - left) / 2) position with hlt | hge
      · rw [if_pos (decide_eq_true hlt)]
        exact ih hlt hright hcount (by omega)
      · rw [if_neg (by simpa using hge)]
        exact ih hleft hge (by omega) (by omega)
    · have heq : left = position := by omega
      rw [heq, pure_eq_ok]

end Reading


/-! ## Changing the header -/

/-- A field of the header has the value that was put there. -/
theorem slice_field (page : PageData) {offset width value : Nat} (h : offset + width ≤ 4096) :
    (page.put offset (leBytes width value)).slice offset width = leBytes width value :=
  page.slice_putLe_same h

/-- A field of the header is a field of the node. -/
theorem setParent (h : Shows page node) (pageId : PageId) :
    Shows (BTreePage.setParentPageId page pageId) { node with parent := pageId } := by
  constructor <;> simp (disch := omega) only [BTreePage.setParentPageId, BTreePage.setPageId,
    BTreePage.parentPageIdOffset, Bytes.slice_putLe_before, slice_field, Bytes.slice_putLe_after,
    h.kindByte, h.flags, h.keyCount, h.headerSize, h.reserved, h.next, h.previous, h.firstChild,
    h.keySize, h.valueSize, h.reserved', h.admits, h.fits, h.entries]

theorem setNext (h : Shows page node) (pageId : PageId) :
    Shows (BTreePage.setNextLeafPageId page pageId) { node with next := pageId } := by
  constructor <;> simp (disch := omega) only [BTreePage.setNextLeafPageId, BTreePage.setPageId,
    BTreePage.nextLeafPageIdOffset, Bytes.slice_putLe_before, slice_field, Bytes.slice_putLe_after,
    h.kindByte, h.flags, h.keyCount, h.headerSize, h.reserved, h.parent, h.previous, h.firstChild,
    h.keySize, h.valueSize, h.reserved', h.admits, h.fits, h.entries]

theorem setPrevious (h : Shows page node) (pageId : PageId) :
    Shows (BTreePage.setPreviousLeafPageId page pageId) { node with previous := pageId } := by
  constructor <;> simp (disch := omega) only [BTreePage.setPreviousLeafPageId, BTreePage.setPageId,
    BTreePage.previousLeafPageIdOffset, Bytes.slice_putLe_before, slice_field, Bytes.slice_putLe_after,
    h.kindByte, h.flags, h.keyCount, h.headerSize, h.reserved, h.parent, h.next, h.firstChild,
    h.keySize, h.valueSize, h.reserved', h.admits, h.fits, h.entries]

theorem setFirstChild (h : Shows page node) (pageId : PageId) :
    Shows (BTreePage.setFirstChildPageId page pageId) { node with firstChild := pageId } := by
  constructor <;> simp (disch := omega) only [BTreePage.setFirstChildPageId, BTreePage.setPageId,
    BTreePage.firstChildPageIdOffset, Bytes.slice_putLe_before, slice_field, Bytes.slice_putLe_after,
    h.kindByte, h.flags, h.keyCount, h.headerSize, h.reserved, h.parent, h.next, h.previous,
    h.keySize, h.valueSize, h.reserved', h.admits, h.fits, h.entries]

theorem setRoot (h : Shows page node) (isRoot : Bool) :
    Shows (BTreePage.setRoot page isRoot) { node with isRoot := isRoot } := by
  have hflags : BTreePage.byteAt page 1 = if node.isRoot then 1 else 0 := by
    rw [BTreePage.byteAt, h.flags, List.headD_cons]
  have hput : BTreePage.setRoot page isRoot = page.put 1 [if isRoot then 1 else 0] := by
    rw [BTreePage.setRoot, BTreePage.flagsOffset, hflags]
    cases isRoot <;> cases node.isRoot <;> rfl
  have hsame : (page.put 1 [if isRoot then 1 else 0]).slice 1 1 = [if isRoot then 1 else 0] :=
    page.slice_put_same (show 2 ≤ 4096 by decide) rfl
  rw [hput]
  constructor <;> simp (disch := first | omega | simp) only [Bytes.slice_put_before,
    Bytes.slice_put_after, hsame, h.kindByte, h.keyCount, h.headerSize, h.reserved,
    h.parent, h.next, h.previous, h.firstChild, h.keySize, h.valueSize, h.reserved', h.admits,
    h.fits, h.entries]

/-! ## Changing the entries -/

section Entries

variable (h : Shows page node) {page' : PageData} {entries : List (layout.Entry kind)}

include h

/-- Other entries behind the same header. -/
theorem withEntries (hheader : ∀ offset len, offset + len ≤ 64 →
      page'.slice offset len = page.slice offset len)
    (hfits : entries.length ≤ layout.capacity kind)
    (hentries : page'.slice 64 (entries.length * layout.entrySize kind) =
      pack (layout.entryBytes kind) entries) :
    Shows (page'.put 2 (leBytes 2 entries.length)) { node with entries := entries } := by
  refine ⟨?_, ?_, ?_, ?_, ?_, ?_, ?_, ?_, ?_, ?_, ?_, ?_, h.admits, hfits, ?_⟩ <;>
    simp (disch := omega) only [Bytes.slice_putLe_before, slice_field, Bytes.slice_putLe_after,
      hheader, h.kindByte, h.flags, h.headerSize, h.reserved, h.parent, h.next, h.previous,
      h.firstChild, h.keySize, h.valueSize, h.reserved', hentries]

/-- As many other entries behind the same header. -/
theorem withSameCount (hheader : ∀ offset len, offset + len ≤ 64 →
      page'.slice offset len = page.slice offset len)
    (hcount : entries.length = node.entries.length)
    (hentries : page'.slice 64 (entries.length * layout.entrySize kind) =
      pack (layout.entryBytes kind) entries) :
    Shows page' { node with entries := entries } := by
  have hsame : page'.put 2 (leBytes 2 entries.length) = page' := by
    have hslice : page'.slice 2 2 = leBytes 2 entries.length := by
      rw [hheader 2 2 (by omega), h.keyCount, hcount]
    refine Bytes.ext ?_
    rw [Bytes.bytes_put, ← hslice, put_of_le (by rw [hslice, length_leBytes, page'.size_eq]; decide)]
    exact splice_slice_self (by rw [page'.size_eq]; decide)
  rw [← hsame]
  exact h.withEntries hheader (hcount ▸ h.fits) hentries

/-- The new number of entries is stored behind a change of the entries. -/
theorem setKeyCount_ok (hheader : ∀ offset len, offset + len ≤ 64 →
      page'.slice offset len = page.slice offset len)
    (hfits : entries.length ≤ layout.capacity kind)
    (hentries : page'.slice 64 (entries.length * layout.entrySize kind) =
      pack (layout.entryBytes kind) entries) :
    ∃ page'', BTreePage.setKeyCount kind page' entries.length = .ok page'' ∧
      Shows page'' { node with entries := entries } := by
  refine ⟨page'.put 2 (leBytes 2 entries.length), ?_, h.withEntries hheader hfits hentries⟩
  have hcapacity : BTreePage.capacityOf kind page' = layout.capacity kind := by
    rw [← h.capacityOf_eq, BTreePage.capacityOf, BTreePage.capacityOf, BTreePage.keySize,
      BTreePage.valueSize, BTreePage.numberAt, BTreePage.numberAt, BTreePage.keySizeOffset,
      BTreePage.valueSizeOffset, hheader 40 2 (by omega), hheader 42 2 (by omega)]
    rfl
  rw [BTreePage.setKeyCount, hcapacity, failIf_of_not (Nat.not_lt.mpr hfits)]
  rfl

variable {front back : List (layout.Entry kind)}

/-- The entry behind the first ones is at their number. -/
theorem keyAt_split {entry : layout.Entry kind} (hsplit : node.entries = front ++ entry :: back) :
    BTreePage.keyAt kind page front.length = .ok entry.1.bytes := by
  have hlt : front.length < node.entries.length := by
    rw [hsplit, List.length_append, List.length_cons]
    omega
  have hget : node.entries[front.length] = entry := by
    simp [hsplit]
  rw [h.keyAt_ok hlt, hget]

theorem entryAt_split {entry : layout.Entry kind} (hsplit : node.entries = front ++ entry :: back) :
    BTreePage.entryAt kind page front.length = .ok (layout.entryBytes kind entry) := by
  have hlt : front.length < node.entries.length := by
    rw [hsplit, List.length_append, List.length_cons]
    omega
  have hget : node.entries[front.length] = entry := by
    simp [hsplit]
  rw [h.entryAt_ok hlt, hget]

/-- A key that is not less than the ones before is in order with them, -/
theorem checkPreviousKey_ok (hsplit : node.entries = front ++ back) {key : layout.Key}
    (hfront : ∀ entry ∈ front, entry.1 ≤ key) :
    BTreePage.checkPreviousKey kind page front.length key.bytes = .ok () := by
  rw [BTreePage.checkPreviousKey]
  split
  · rename_i hpos
    obtain ⟨front', entry, rfl⟩ := List.eq_nil_or_concat front |>.resolve_left
      (List.ne_nil_of_length_pos hpos)
    rw [List.concat_eq_append] at hsplit hfront
    rw [List.append_assoc] at hsplit
    have hle : entry.1 ≤ key := hfront entry (by simp)
    rw [List.length_concat, Nat.add_sub_cancel, h.keyAt_split hsplit, ok_bind,
      failIf_of_not (fun hlt => hle.not_gt (Bytes.memcmp_eq_lt.mp hlt))]
  · rfl

/-- and so with those behind. -/
theorem checkNextKey_ok (hsplit : node.entries = front ++ back) {key : layout.Key}
    (hback : ∀ entry ∈ back, key ≤ entry.1) :
    BTreePage.checkNextKey kind page front.length key.bytes = .ok () := by
  rw [BTreePage.checkNextKey, h.keyCount_eq]
  split
  · rename_i hlt
    cases back with
    | nil =>
      rw [hsplit, List.append_nil] at hlt
      exact absurd hlt (Nat.lt_irrefl _)
    | cons entry back =>
      have hle : key ≤ entry.1 := hback entry (List.mem_cons_self ..)
      rw [h.keyAt_split hsplit, ok_bind,
        failIf_of_not (fun hlt => hle.not_gt (Bytes.memcmp_eq_lt.mp hlt))]
  · rfl

/-- A new entry, when the keys beside it pass the checks. -/
theorem insertEntry_checked (hsplit : node.entries = front ++ back) {key : layout.Key}
    (payload : layout.Payload kind)
    (hprevious : BTreePage.checkPreviousKey kind page front.length key.bytes = .ok ())
    (hnext : BTreePage.checkNextKey kind page front.length key.bytes = .ok ())
    (hroom : node.entries.length < layout.capacity kind) :
    ∃ page', BTreePage.insertEntry kind page front.length key.bytes
        (layout.payloadBytes kind payload) = .ok page' ∧
      Shows page' { node with entries := front ++ (key, payload) :: back } := by
  have hlength : node.entries.length = front.length + back.length := by
    rw [hsplit, List.length_append]
  have hle : front.length ≤ node.entries.length := by omega
  have hfits : 64 + (node.entries.length + 1) * layout.entrySize kind ≤ pageSize :=
    layout.fits_of_le kind hroom
  have hmul : (front.length + 1) * layout.entrySize kind ≤
      (node.entries.length + 1) * layout.entrySize kind := Nat.mul_le_mul_right _ (by omega)
  rw [Nat.succ_mul front.length] at hmul
  have hsize : layout.keySize + kind.payloadSize layout.valueSize = layout.entrySize kind := rfl
  have hpayload := layout.length_payloadBytes kind payload
  have hstore (page : PageData) (off : Nat) (hoff : off + layout.entrySize kind ≤ pageSize) :
      (page.put off key.bytes).put (off + layout.keySize) (layout.payloadBytes kind payload) =
        page.put off (layout.entryBytes kind (key, payload)) := by
    refine Bytes.ext ?_
    rw [Bytes.bytes_put, Bytes.bytes_put, Bytes.bytes_put, Layout.entryBytes,
      ← put_put_append (by rw [key.size_eq, hpayload, page.size_eq]; omega), key.size_eq]
  have hcount : node.entries.length + 1 = (front ++ (key, payload) :: back).length := by
    rw [List.length_append, List.length_cons, hlength, Nat.add_assoc]
  have hinsert := @slice_insertRecord _ _ _ _ _ _ _ _ (key, payload)
    (layout.length_entryBytes kind) h.entries hle (by rw [page.size_eq]; exact hfits)
  rw [hsplit, List.take_left, List.drop_left, ← hsplit] at hinsert
  simp only [BTreePage.insertEntry, h.keyCount_eq, h.keySize_eq, h.valueSize_eq, h.capacityOf_eq,
    h.entrySize_eq, BTreePage.entryOffset, btreePageEntryArrayOffset, btreePageHeaderSize]
  rw [failIf_of_not (by omega), ok_bind, failIf_of_not (not_not_intro key.size_eq), ok_bind,
    failIf_of_not (not_not_intro hpayload), ok_bind, failIf_of_not (Nat.not_le.mpr hroom), ok_bind,
    hprevious, ok_bind, hnext, ok_bind,
    hstore _ _ (by omega), hcount]
  refine h.setKeyCount_ok (fun offset len hbound => ?_) (hcount ▸ hroom) (hcount ▸ hinsert)
  rw [Bytes.slice_put_before _ (by omega), Bytes.slice_put_before _ (by omega)]

/-- A new entry between those with smaller and those with larger keys. -/
theorem insertEntry_ok (hsplit : node.entries = front ++ back) {key : layout.Key}
    (payload : layout.Payload kind) (hfront : ∀ entry ∈ front, entry.1 ≤ key)
    (hback : ∀ entry ∈ back, key ≤ entry.1)
    (hroom : node.entries.length < layout.capacity kind) :
    ∃ page', BTreePage.insertEntry kind page front.length key.bytes
        (layout.payloadBytes kind payload) = .ok page' ∧
      Shows page' { node with entries := front ++ (key, payload) :: back } :=
  h.insertEntry_checked hsplit payload (h.checkPreviousKey_ok hsplit hfront)
    (h.checkNextKey_ok hsplit hback) hroom

/-- A new entry behind all others. -/
theorem appendEntry_ok {key : layout.Key} (payload : layout.Payload kind)
    (hle : ∀ entry ∈ node.entries, entry.1 ≤ key)
    (hroom : node.entries.length < layout.capacity kind) :
    ∃ page', BTreePage.insertEntry kind page node.entries.length key.bytes
        (layout.payloadBytes kind payload) = .ok page' ∧
      Shows page' { node with entries := node.entries ++ [(key, payload)] } :=
  h.insertEntry_ok (List.append_nil _).symm payload hle nofun hroom

/-- An entry is taken out of the list. -/
theorem eraseEntry_ok {entry : layout.Entry kind} (hsplit : node.entries = front ++ entry :: back) :
    ∃ page', BTreePage.eraseEntry kind page front.length = .ok page' ∧
      Shows page' { node with entries := front ++ back } := by
  have hlength : node.entries.length = front.length + (back.length + 1) := by
    rw [hsplit, List.length_append, List.length_cons]
  have hlt : front.length < node.entries.length := by omega
  have hfits := layout.fits_of_le kind h.fits
  have hcount : node.entries.length - 1 = (front ++ back).length := by
    rw [List.length_append]
    omega
  have herase := slice_eraseRecord (layout.length_entryBytes kind) h.entries hlt
    (by rw [page.size_eq]; exact hfits)
  rw [hsplit, List.take_left, ← List.drop_drop, List.drop_left, List.drop_one, List.tail_cons,
    ← hsplit] at herase
  simp only [BTreePage.eraseEntry, h.keyCount_eq, h.entrySize_eq, BTreePage.entryOffset,
    btreePageEntryArrayOffset, btreePageHeaderSize]
  rw [failIf_of_not (by omega), ok_bind, hcount]
  refine h.setKeyCount_ok (fun offset len hbound => ?_) ?_ (hcount ▸ herase)
  · rw [Bytes.slice_put_before _ (by omega)]
  · exact hcount ▸ (Nat.sub_le _ _).trans h.fits

/-- The entries from a position on are dropped. -/
theorem truncate_ok (hsplit : node.entries = front ++ back) :
    ∃ page', BTreePage.setKeyCount kind page front.length = .ok page' ∧
      Shows page' { node with entries := front } := by
  have hle : front.length ≤ node.entries.length := by
    rw [hsplit, List.length_append]
    omega
  have hfront := slice_front (layout.length_entryBytes kind) h.entries hle
  rw [hsplit, List.take_left] at hfront
  exact h.setKeyCount_ok (fun _ _ _ => rfl) (hle.trans h.fits) hfront

/-- One entry with a part of it overwritten. -/
theorem setEntry {entry entry' : layout.Entry kind} (hsplit : node.entries = front ++ entry :: back)
    {offset : Nat} {data : List Byte} (hoffset : offset + data.length ≤ layout.entrySize kind)
    (hdata : layout.entryBytes kind entry' = put (layout.entryBytes kind entry) offset data) :
    Shows (page.put (BTreePage.entryOffset kind page front.length + offset) data)
      { node with entries := front ++ entry' :: back } := by
  have hcount : (front ++ entry' :: back).length = node.entries.length := by
    rw [hsplit, List.length_append, List.length_append, List.length_cons, List.length_cons]
  have hlt : front.length < node.entries.length := by
    rw [hsplit, List.length_append, List.length_cons]
    omega
  have hget : node.entries[front.length] = entry := by
    simp [hsplit]
  have hset := slice_setRecord (layout.length_entryBytes kind) h.entries hlt
    (by rw [page.size_eq]; exact layout.fits_of_le kind h.fits) hoffset
    (hget ▸ hdata : layout.entryBytes kind entry' = _)
  rw [hsplit, List.take_left, ← List.drop_drop, List.drop_left, List.drop_one, List.tail_cons,
    ← hsplit, ← hcount] at hset
  rw [BTreePage.entryOffset, h.entrySize_eq]
  refine h.withSameCount (fun offset' len hbound => ?_) hcount hset
  exact Bytes.slice_put_before _ (by rw [btreePageEntryArrayOffset, btreePageHeaderSize]; omega)

end Entries

/-! ## Searching -/

section Search

variable (h : Shows page node) {front back : List (layout.Entry kind)}

include h

/-- The binary search ends between the entries before and the others. -/
theorem searchLoop_split (hsplit : node.entries = front ++ back) {before : Ordering → Bool}
    {key : List Byte} (hfront : ∀ entry ∈ front, before (memcmp entry.1.bytes key) = true)
    (hback : ∀ entry ∈ back, before (memcmp entry.1.bytes key) = false) :
    BTreePage.searchLoop kind before page key (BTreePage.keyCount page) 0
      (BTreePage.keyCount page) = .ok front.length := by
  have hle : front.length ≤ node.entries.length := by
    rw [hsplit, List.length_append]
    omega
  rw [h.keyCount_eq]
  refine h.searchLoop_ok (fun i hi => ?_) (Nat.zero_le _) hle (Nat.le_refl _) (Nat.sub_le _ _)
  simp only [hsplit, List.getElem_append]
  split
  · rename_i hlt
    rw [hfront _ (List.getElem_mem hlt), decide_eq_true hlt]
  · rename_i hge
    rw [hback _ (List.getElem_mem _), decide_eq_false hge]

/-- The position of a key: the entries with smaller keys are in front of it. -/
theorem findInsertionPosition_ok (hsplit : node.entries = front ++ back) {key : layout.Key}
    (hfront : ∀ entry ∈ front, entry.1 < key) (hback : ∀ entry ∈ back, key ≤ entry.1) :
    BTreePage.findInsertionPosition kind page key.bytes = .ok front.length := by
  rw [BTreePage.findInsertionPosition, h.keySize_eq, failIf_of_not (not_not_intro key.size_eq),
    ok_bind]
  refine h.searchLoop_split hsplit (fun entry hmem => ?_) fun entry hmem => ?_
  · rw [Bytes.memcmp_eq_lt.mpr (hfront entry hmem)]
    rfl
  · have hne := mt Bytes.memcmp_eq_lt.mp (hback entry hmem).not_gt
    simpa using hne

end Search

/-! ## The functions of one kind of page -/

section Leaf

variable {node : Node layout .leaf} (h : Shows page node) {front back : List (layout.Entry .leaf)}
  {key : layout.Key} {value : layout.Value}

include h

/-- A key is found where it is, -/
theorem positionOfKey_ok (message : String) (hsplit : node.entries = front ++ (key, value) :: back)
    (hfront : ∀ entry ∈ front, entry.1 < key) (hback : ∀ entry ∈ back, key < entry.1) :
    BTreeLeafPage.positionOfKey message page key.bytes = .ok front.length := by
  have hposition := h.findInsertionPosition_ok hsplit hfront
    (List.forall_mem_cons.mpr ⟨le_refl _, fun entry hmem => (hback entry hmem).le⟩)
  have hlt : front.length ≠ node.entries.length := by
    rw [hsplit, List.length_append, List.length_cons]
    omega
  rw [BTreeLeafPage.positionOfKey, h.keyCount_eq, BTreeLeafPage.findInsertionPosition, hposition,
    ok_bind, failIf_of_not hlt, ok_bind, BTreeLeafPage.keyAt, h.keyAt_split hsplit, ok_bind,
    failIf_of_not (not_not_intro (Bytes.memcmp_eq_eq.mpr rfl))]
  rfl

/-- and nowhere else. -/
theorem positionOfKey_absent (message : String) (hsplit : node.entries = front ++ back)
    (hfront : ∀ entry ∈ front, entry.1 < key) (hback : ∀ entry ∈ back, key < entry.1) :
    BTreeLeafPage.positionOfKey message page key.bytes = .error (.NotFound message) := by
  have hposition := h.findInsertionPosition_ok hsplit hfront fun entry hmem => (hback entry hmem).le
  rw [BTreeLeafPage.positionOfKey, h.keyCount_eq, BTreeLeafPage.findInsertionPosition, hposition,
    ok_bind]
  cases back with
  | nil => rw [hsplit, List.append_nil, failIf_of rfl, error_bind]
  | cons entry back =>
    have hlt : front.length ≠ node.entries.length := by
      rw [hsplit, List.length_append, List.length_cons]
      omega
    have hne : memcmp entry.1.bytes key.bytes ≠ .eq := fun heq =>
      (hback entry (List.mem_cons_self ..)).ne (Bytes.memcmp_eq_eq.mp heq).symm
    rw [failIf_of_not hlt, ok_bind, BTreeLeafPage.keyAt, h.keyAt_split hsplit, ok_bind,
      failIf_of hne, error_bind]

theorem valueAt_ok (hsplit : node.entries = front ++ (key, value) :: back) :
    BTreeLeafPage.valueAt page front.length = .ok value.bytes := by
  have hlt : front.length < node.entries.length := by
    rw [hsplit, List.length_append, List.length_cons]
    omega
  have hget : node.entries[front.length] = (key, value) := by
    simp [hsplit]
  have hpart := h.payloadAt_ok "value" hlt
  rw [hget] at hpart
  rw [BTreeLeafPage.valueAt, h.keySize_eq, h.valueSize_eq]
  exact hpart

/-- The value of a key is replaced. -/
theorem updateValue_ok (hsplit : node.entries = front ++ (key, value) :: back)
    (hfront : ∀ entry ∈ front, entry.1 < key) (hback : ∀ entry ∈ back, key < entry.1)
    (value' : layout.Value) :
    ∃ page', BTreeLeafPage.updateValue page key.bytes value'.bytes = .ok page' ∧
      Shows page' { node with entries := front ++ (key, value') :: back } := by
  rw [BTreeLeafPage.updateValue, h.keySize_eq, h.valueSize_eq,
    failIf_of_not (not_not_intro key.size_eq), ok_bind,
    failIf_of_not (not_not_intro value'.size_eq), ok_bind,
    h.positionOfKey_ok _ hsplit hfront hback, ok_bind]
  refine ⟨_, rfl, h.setEntry hsplit (by rw [value'.size_eq]; exact Nat.le_refl _) ?_⟩
  have hput := @put_behind _ key.bytes _ _ (value'.size_eq.trans value.size_eq.symm)
  rw [key.size_eq] at hput
  exact hput.symm

theorem updateValue_absent (hsplit : node.entries = front ++ back)
    (hfront : ∀ entry ∈ front, entry.1 < key) (hback : ∀ entry ∈ back, key < entry.1)
    (value' : layout.Value) : BTreeLeafPage.updateValue page key.bytes value'.bytes =
      .error (.NotFound "Cannot update B+ tree leaf page value: key was not found") := by
  rw [BTreeLeafPage.updateValue, h.keySize_eq, h.valueSize_eq,
    failIf_of_not (not_not_intro key.size_eq), ok_bind,
    failIf_of_not (not_not_intro value'.size_eq), ok_bind,
    h.positionOfKey_absent _ hsplit hfront hback, error_bind]

end Leaf

/-- The child for a key is behind the last separator that is not greater. -/
theorem childIndexForKey_ok {node : Node layout .internal} (h : Shows page node)
    {front back : List (layout.Entry .internal)} (hsplit : node.entries = front ++ back)
    {key : layout.Key} (hfront : ∀ entry ∈ front, entry.1 ≤ key)
    (hback : ∀ entry ∈ back, key < entry.1) :
    BTreeInternalPage.childIndexForKey page key.bytes = .ok front.length := by
  rw [BTreeInternalPage.childIndexForKey, h.keySize_eq,
    failIf_of_not (not_not_intro key.size_eq), ok_bind]
  refine h.searchLoop_split hsplit (fun entry hmem => ?_) fun entry hmem => ?_
  · have hne := Bytes.memcmp_ne_gt.mpr (hfront entry hmem)
    simpa using hne
  · have hgt := not_not.mp (mt Bytes.memcmp_ne_gt.mp (hback entry hmem).not_ge)
    rw [hgt]
    rfl

theorem rightChildPageIdAt_ok {node : Node layout .internal} (h : Shows page node)
    {front back : List (layout.Entry .internal)} {entry : layout.Entry .internal}
    (hsplit : node.entries = front ++ entry :: back) :
    BTreeInternalPage.rightChildPageIdAt page front.length = .ok entry.2 := by
  have hlt : front.length < node.entries.length := by
    rw [hsplit, List.length_append, List.length_cons]
    omega
  have hget : node.entries[front.length] = entry := by
    simp [hsplit]
  rw [BTreeInternalPage.rightChildPageIdAt, h.keySize_eq]
  have hpart := h.payloadAt_ok "right child page id" hlt
  rw [hget] at hpart
  rw [show BTreePage.partAt .internal "right child page id" page front.length layout.keySize 8 =
    .ok (leBytes 8 entry.2.toNat) from hpart]
  exact congrArg Except.ok (ofNat_leValue_leBytes_64 entry.2)

/-- A separator is replaced; its child stays. -/
theorem setKeyAt_ok {node : Node layout .internal} (h : Shows page node)
    {front back : List (layout.Entry .internal)} {entry : layout.Entry .internal}
    (hsplit : node.entries = front ++ entry :: back) (key : layout.Key) :
    ∃ page', BTreeInternalPage.setKeyAt page front.length key.bytes = .ok page' ∧
      Shows page' { node with entries := front ++ (key, entry.2) :: back } := by
  have hlt : front.length < node.entries.length := by
    rw [hsplit, List.length_append, List.length_cons]
    omega
  rw [BTreeInternalPage.setKeyAt, h.keyCount_eq, h.keySize_eq, failIf_of_not (Nat.not_le.mpr hlt),
    ok_bind, failIf_of_not (not_not_intro key.size_eq), ok_bind]
  refine ⟨_, rfl, @setEntry _ _ _ _ h _ _ _ _ hsplit 0 _ ?_ ?_⟩
  · rw [key.size_eq, Nat.zero_add]
    exact Nat.le_add_right ..
  · exact (put_front (key.size_eq.trans entry.1.size_eq.symm)).symm

end Shows

/-- The node of a page that was just made. -/
def fresh (layout : Layout) (kind : BTreePageKind) : Node layout kind :=
  ⟨false, invalidPageId, invalidPageId, invalidPageId, invalidPageId, []⟩

/-- A page that was set up shows a node without entries. -/
theorem shows_emptyPage (hadmits : layout.Admits kind) :
    Shows (BTreePage.emptyPage kind layout.keySize layout.valueSize) (fresh layout kind) := by
  have hbyte (page : PageData) (offset : Nat) (byte : Byte) (h : offset + 1 ≤ 4096) :
      (page.put offset [byte]).slice offset 1 = [byte] := page.slice_put_same h rfl
  have hbefore (page : PageData) (offset offset' len : Nat) (byte : Byte) (h : offset' + len ≤ offset) :
      (page.put offset [byte]).slice offset' len = page.slice offset' len :=
    page.slice_put_before h
  have hafter (page : PageData) (offset offset' len : Nat) (byte : Byte) (h : offset + 1 ≤ offset') :
      (page.put offset [byte]).slice offset' len = page.slice offset' len :=
    page.slice_put_after h
  have hzero (offset len : Nat) (h : offset + len ≤ 4096) :
      (Bytes.zero : PageData).slice offset len = List.replicate len 0 := Bytes.slice_zero h
  constructor <;> simp (disch := omega) only [BTreePage.emptyPage, BTreePage.kindOffset,
    BTreePage.flagsOffset, BTreePage.keyCountOffset, BTreePage.headerSizeOffset,
    BTreePage.parentPageIdOffset, BTreePage.nextLeafPageIdOffset,
    BTreePage.previousLeafPageIdOffset, BTreePage.firstChildPageIdOffset, BTreePage.keySizeOffset,
    BTreePage.valueSizeOffset, Shows.slice_field, Bytes.slice_putLe_before,
    Bytes.slice_putLe_after, hbyte, hbefore, hafter, hzero, fresh, btreePageHeaderSize,
    hadmits, List.length_nil, Nat.zero_le, Nat.zero_mul, pack_nil]
  · rfl
  · rfl

/-- There is a page for every node with sorted entries that fit in one. -/
theorem exists_shows (hadmits : layout.Admits kind) (node : Node layout kind)
    (hsorted : node.entries.Pairwise fun a b => a.1 < b.1)
    (hfits : node.entries.length ≤ layout.capacity kind) : ∃ page, Shows page node := by
  obtain ⟨isRoot, parent, next, previous, firstChild, entries⟩ := node
  dsimp only at hsorted hfits
  induction entries using List.reverseRecOn with
  | nil =>
    exact ⟨_, (((((shows_emptyPage hadmits).setRoot isRoot).setParent parent).setNext
      next).setPrevious previous).setFirstChild firstChild⟩
  | append_singleton entries entry ih =>
    rw [List.length_append, List.length_singleton] at hfits
    obtain ⟨hsorted, -, hlt⟩ := List.pairwise_append.mp hsorted
    obtain ⟨page, hshows⟩ := ih hsorted (Nat.le_of_succ_le hfits)
    obtain ⟨page', -, hshows'⟩ := hshows.appendEntry_ok entry.2
      (fun other hmem => (hlt other hmem entry (List.mem_singleton_self entry)).le) hfits
    exact ⟨page', hshows'⟩

theorem initializeAs_ok (hadmits : layout.Admits kind) :
    BTreePage.initializeAs kind layout.keySize layout.valueSize =
      .ok (BTreePage.emptyPage kind layout.keySize layout.valueSize) := by
  have hroom : ¬kind.capacity layout.keySize layout.valueSize < kind.minimumCapacity :=
    Nat.not_lt.mpr hadmits
  rw [BTreePage.initializeAs, failIf_of_not layout.keySize_pos.ne', ok_bind,
    failIf_of_not layout.valueSize_pos.ne', ok_bind,
    failIf_of_not hroom, ok_bind, pure_eq_ok]

end Node

end DanDB.BTree
