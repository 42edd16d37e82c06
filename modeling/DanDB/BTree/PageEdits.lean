import DanDB.BTree.PageEditing
import DanDB.Lib.SortedEntries

/-!
# The entries of an edited page

On every page that `validate_page` accepts the editing functions act on the list of
entries: they insert, erase or replace at an index, or they are rejected and change no
byte.  The searches find the place that the order of the keys gives, and an absent key
that was inserted leaves the keys in order.
-/

namespace DanDB.BTree

open Buffer DanDB.Core Storage InPlace BTreePage

/-- The keys increase strictly. -/
def BTreePage.SortedKeys (entries : List (List Byte × List Byte)) : Prop :=
  entries.Pairwise fun a b => memcmp a.1 b.1 = .lt

/-- The other page is accepted as well, has the entries, and agrees with the page on
the bytes outside the key count and the entry area. -/
structure BTreePage.Edited (page page' : PageData) (entries : List (List Byte × List Byte)) :
    Prop where
  accepted : validatePage page' = .ok ()
  entries_eq : BTreePage.entries page' = entries
  header : ∀ i < btreePageEntryArrayOffset, i ≠ keyCountOffset → i ≠ keyCountOffset + 1 →
    page'.bytes[i]? = page.bytes[i]?

/-- The function edits the entries if it is allowed to, and is rejected and leaves the
page as it was if not. -/
def BTreePage.Edits (m : InPlace pageSize Unit) (page : PageData) (allowed : Prop)
    (entries : List (List Byte × List Byte)) : Prop :=
  (allowed ∧ ∃ page', m page = .ok () page' ∧ Edited page page' entries) ∨
    (¬allowed ∧ ∃ status, m page = .error (.returned status) page)

/-- An entry can be inserted: there is room, and its neighbours are in order with it. -/
structure BTreePage.CanInsert (page : PageData) (entryIndex : Nat) (key payload : List Byte) :
    Prop where
  index : entryIndex ≤ (BTreePage.entries page).length
  keySize : key.length = BTreePage.keySize page
  payloadSize : payload.length = (BTreePage.kind page).payloadSize (BTreePage.valueSize page)
  room : (BTreePage.entries page).length < capacityOf (BTreePage.kind page) page
  previous : ∀ entry, 0 < entryIndex → (BTreePage.entries page)[entryIndex - 1]? = some entry →
    memcmp key entry.1 ≠ .lt
  next : ∀ entry, (BTreePage.entries page)[entryIndex]? = some entry → memcmp entry.1 key ≠ .lt

/-- The position behind the entries whose keys are before, with the others behind it. -/
structure BTreePage.IsPosition (before : List Byte → Prop)
    (entries : List (List Byte × List Byte)) (position : Nat) : Prop where
  le : position ≤ entries.length
  front : ∀ entry ∈ entries.take position, before entry.1
  back : ∀ entry ∈ entries.drop position, ¬before entry.1

/-- There is one position between the keys before and those behind. -/
theorem BTreePage.IsPosition.unique {before : List Byte → Prop}
    {entries : List (List Byte × List Byte)} {position position' : Nat}
    (h : IsPosition before entries position) (h' : IsPosition before entries position') :
    position' = position := by
  have hle {i j : Nat} (hi : IsPosition before entries i) (hj : IsPosition before entries j) :
      i ≤ j := by
    by_contra hlt
    have hj' : j < entries.length := (Nat.not_le.mp hlt).trans_le hi.le
    refine hj.back entries[j] ?_ (hi.front entries[j] ?_)
    · rw [List.drop_eq_getElem_cons hj']
      exact List.mem_cons_self ..
    · exact List.mem_take_iff_getElem.mpr ⟨j, by omega, rfl⟩
  exact Nat.le_antisymm (hle h' h) (hle h h')

namespace Node.Shows

variable {layout : Layout} {kind : BTreePageKind} {page page' : PageData} {node : Node layout kind}
  {entries' : List (layout.Entry kind)}

/-! ## Entries of the page and of the node -/

section Bytes

variable (h : node.Shows page)

include h

/-- The entries that are read off a page are those of its node. -/
theorem length_entries : (BTreePage.entries page).length = node.entries.length := by
  rw [h.entries_eq, List.length_map]

theorem getElem?_entries (i : Nat) : (BTreePage.entries page)[i]? = node.entries[i]?.map
    fun entry => (entry.1.bytes, layout.payloadBytes kind entry.2) := by
  rw [h.entries_eq, List.getElem?_map]

/-- The page is sorted as its node is. -/
theorem sortedKeys_iff : SortedKeys (BTreePage.entries page) ↔ Entries.Sorted node.entries := by
  rw [h.entries_eq, SortedKeys, List.pairwise_map]
  exact List.Pairwise.iff fun a b => Bytes.memcmp_eq_lt

/-- A page of a node with other entries is the page edited to have these. -/
theorem edited (h' : Shows page' { node with entries := entries' }) : Edited page page'
    (entries'.map fun entry => (entry.1.bytes, layout.payloadBytes kind entry.2)) :=
  ⟨h'.validatePage_ok, h'.entries_eq, fun _ hi hcount hcount' => h.header_eq h' hi hcount hcount'⟩

end Bytes

/-! ## Inserting -/

section Insert

variable (h : node.Shows page) {entryIndex : Nat} {key payload : List Byte}

include h

/-- The check of the entry before the new one, -/
theorem checkPreviousKey_iff (hindex : entryIndex ≤ node.entries.length) :
    checkPreviousKey kind page entryIndex key = .ok () ↔
      ∀ entry, 0 < entryIndex → (BTreePage.entries page)[entryIndex - 1]? = some entry →
        memcmp key entry.1 ≠ .lt := by
  rw [checkPreviousKey]
  split
  · rename_i hpos
    have hlt : entryIndex - 1 < node.entries.length := by omega
    rw [h.keyAt_ok hlt, ok_bind, failIf_eq_ok, h.getElem?_entries, List.getElem?_eq_getElem hlt]
    constructor
    · rintro hkey entry - hentry
      cases hentry
      exact hkey
    · intro hkey
      exact hkey _ hpos rfl
  · rename_i hpos
    exact iff_of_true rfl fun entry hentry => absurd hentry hpos

/-- and of the one behind it. -/
theorem checkNextKey_iff : checkNextKey kind page entryIndex key = .ok () ↔
    ∀ entry, (BTreePage.entries page)[entryIndex]? = some entry → memcmp entry.1 key ≠ .lt := by
  rw [checkNextKey, h.keyCount_eq, h.getElem?_entries]
  split
  · rename_i hlt
    rw [h.keyAt_ok hlt, ok_bind, failIf_eq_ok, List.getElem?_eq_getElem hlt]
    constructor
    · rintro hkey entry hentry
      cases hentry
      exact hkey
    · intro hkey
      exact hkey _ rfl
  · rename_i hlt
    rw [List.getElem?_eq_none (Nat.not_lt.mp hlt)]
    exact iff_of_true rfl (by rintro entry ⟨⟩)

/-- Insertion succeeds only where it is allowed, -/
theorem canInsert_of_ok (hok : BTreePage.insertEntry kind page entryIndex key payload = .ok page') :
    CanInsert page entryIndex key payload := by
  simp only [BTreePage.insertEntry, bind_eq_ok, failIf_eq_ok, exists_const] at hok
  obtain ⟨hindex, hkey, hpayload, hroom, ⟨⟩, hprevious, ⟨⟩, hnext, -⟩ := hok
  rw [h.keyCount_eq, ← h.length_entries] at hindex
  rw [h.keyCount_eq, ← h.length_entries, ← h.kind_eq] at hroom
  have hle := Nat.not_lt.mp hindex
  refine ⟨hle, not_not.mp hkey, ?_, Nat.not_le.mp hroom, ?_, h.checkNextKey_iff.mp hnext⟩
  · rw [h.kind_eq]
    exact not_not.mp hpayload
  · rw [h.length_entries] at hle
    exact (h.checkPreviousKey_iff hle).mp hprevious

/-- and wherever it is. -/
theorem insertEntry_of_canInsert (hcan : CanInsert page entryIndex key payload) :
    ∃ (typedKey : layout.Key) (typedPayload : layout.Payload kind) (page' : PageData),
      typedKey.bytes = key ∧ layout.payloadBytes kind typedPayload = payload ∧
      BTreePage.insertEntry kind page entryIndex key payload = .ok page' ∧
      Shows page' { node with
        entries := node.entries.take entryIndex ++
          (typedKey, typedPayload) :: node.entries.drop entryIndex } := by
  obtain ⟨hindex, hkey, hpayload, hroom, hprevious, hnext⟩ := hcan
  rw [h.length_entries] at hindex hroom
  rw [h.keySize_eq] at hkey
  rw [h.kind_eq, h.valueSize_eq] at hpayload
  rw [h.kind_eq, h.capacityOf_eq] at hroom
  obtain ⟨typedPayload, rfl⟩ := layout.exists_payloadBytes hpayload
  have hlength : (node.entries.take entryIndex).length = entryIndex := List.length_take_of_le hindex
  obtain ⟨page', hok, hshows⟩ := @insertEntry_checked _ _ _ _ h _ _
    (List.take_append_drop entryIndex node.entries).symm ⟨key, hkey⟩ typedPayload
    (by rw [hlength]; exact (h.checkPreviousKey_iff hindex).mpr hprevious)
    (by rw [hlength]; exact h.checkNextKey_iff.mpr hnext) hroom
  rw [hlength] at hok
  exact ⟨⟨key, hkey⟩, typedPayload, page', rfl, rfl, hok, hshows⟩

/-- Insertion in place inserts into the list of entries. -/
theorem edits_insertEntry : Edits (insertEntryInPlace kind entryIndex key payload) page
    (CanInsert page entryIndex key payload)
    ((BTreePage.entries page).insertIdx entryIndex (key, payload)) := by
  by_cases hcan : CanInsert page entryIndex key payload
  · obtain ⟨typedKey, typedPayload, page', rfl, rfl, hok, hshows⟩ := h.insertEntry_of_canInsert hcan
    have hedited := h.edited hshows
    rw [← insertIdx_eq_take_cons_drop (h.length_entries ▸ hcan.index), List.map_insertIdx,
      ← h.entries_eq] at hedited
    exact .inl ⟨hcan, page', (h.does_insertEntry ..).ok hok, hedited⟩
  · cases hresult : BTreePage.insertEntry kind page entryIndex key payload with
    | ok page' => exact absurd (h.canInsert_of_ok hresult) hcan
    | error status => exact .inr ⟨hcan, status, (h.does_insertEntry ..).error hresult⟩

/-- An absent key, inserted where it can be, leaves the keys in order. -/
theorem sortedKeys_insertIdx (hsorted : SortedKeys (BTreePage.entries page))
    (hcan : CanInsert page entryIndex key payload)
    (habsent : key ∉ (BTreePage.entries page).map Prod.fst) :
    SortedKeys ((BTreePage.entries page).insertIdx entryIndex (key, payload)) := by
  obtain ⟨typedKey, typedPayload, page', rfl, rfl, hok, hshows⟩ := h.insertEntry_of_canInsert hcan
  have hindex : entryIndex ≤ node.entries.length := h.length_entries ▸ hcan.index
  have hedited := h.edited hshows
  rw [← insertIdx_eq_take_cons_drop hindex, List.map_insertIdx, ← h.entries_eq] at hedited
  rw [← hedited.entries_eq, hshows.sortedKeys_iff]
  rw [h.sortedKeys_iff, ← List.take_append_drop entryIndex node.entries] at hsorted
  refine hsorted.insert_between ?_ ?_ ?_
  · rw [List.take_append_drop]
    rintro entry hentry rfl
    rw [h.entries_eq, List.map_map] at habsent
    exact habsent (List.mem_map_of_mem hentry)
  · intro entry hentry
    rw [List.getLast?_eq_getElem?, List.length_take_of_le hindex] at hentry
    have hpos : 0 < entryIndex := by
      refine Nat.pos_of_ne_zero ?_
      rintro rfl
      cases hentry
    rw [Option.mem_def, List.getElem?_take_of_lt (by omega)] at hentry
    have hge := hcan.previous (entry.1.bytes, _) hpos
      (by rw [h.getElem?_entries, hentry]; rfl)
    rw [Ne, Bytes.memcmp_eq_lt, not_lt] at hge
    exact hge
  · intro entry hentry
    rw [List.head?_drop, Option.mem_def] at hentry
    have hge := hcan.next (entry.1.bytes, _) (by rw [h.getElem?_entries, hentry]; rfl)
    rw [Ne, Bytes.memcmp_eq_lt, not_lt] at hge
    exact hge

end Insert

/-! ## Erasing and replacing -/

/-- Erasure in place erases from the list. -/
theorem edits_eraseEntry (h : node.Shows page) {entryIndex : Nat} :
    Edits (eraseEntryInPlace kind entryIndex) page (entryIndex < (BTreePage.entries page).length)
      ((BTreePage.entries page).eraseIdx entryIndex) := by
  rw [h.length_entries]
  rcases Nat.lt_or_ge entryIndex node.entries.length with hlt | hge
  · have hsplit : node.entries = node.entries.take entryIndex ++
        node.entries[entryIndex] :: node.entries.drop (entryIndex + 1) := by
      rw [← List.drop_eq_getElem_cons, List.take_append_drop]
    obtain ⟨page', hok, hshows⟩ := h.eraseEntry_ok hsplit
    have hedited := h.edited hshows
    rw [List.length_take_of_le hlt.le] at hok
    rw [← List.eraseIdx_eq_take_drop_succ, ← List.eraseIdx_map, ← h.entries_eq] at hedited
    exact .inl ⟨hlt, page', (h.does_eraseEntry entryIndex).ok hok, hedited⟩
  · have herror : ∃ status, BTreePage.eraseEntry kind page entryIndex = .error status :=
      ⟨_, by rw [BTreePage.eraseEntry, h.keyCount_eq, failIf_of hge, error_bind]⟩
    obtain ⟨status, herror⟩ := herror
    exact .inr ⟨Nat.not_lt.mpr hge, status, (h.does_eraseEntry entryIndex).error herror⟩

/-- A separator is replaced in the list. -/
theorem edits_setKeyAt {node : Node layout .internal} (h : node.Shows page) {entryIndex : Nat}
    {key : List Byte} : Edits (BTreeInternalPage.setKeyAtInPlace entryIndex key) page
      (entryIndex < (BTreePage.entries page).length ∧ key.length = BTreePage.keySize page)
      ((BTreePage.entries page).modify entryIndex fun entry => (key, entry.2)) := by
  rw [h.length_entries, h.keySize_eq]
  by_cases hallowed : entryIndex < node.entries.length ∧ key.length = layout.keySize
  · obtain ⟨hlt, hkey⟩ := hallowed
    have hsplit : node.entries = node.entries.take entryIndex ++
        node.entries[entryIndex] :: node.entries.drop (entryIndex + 1) := by
      rw [← List.drop_eq_getElem_cons, List.take_append_drop]
    obtain ⟨page', hok, hshows⟩ := h.setKeyAt_ok hsplit ⟨key, hkey⟩
    have hedited := h.edited hshows
    rw [List.length_take_of_le hlt.le] at hok
    have hentries : (node.entries.take entryIndex ++
          (⟨key, hkey⟩, node.entries[entryIndex].2) :: node.entries.drop (entryIndex + 1)).map
            (fun entry => (entry.1.bytes, layout.payloadBytes .internal entry.2)) =
        (BTreePage.entries page).modify entryIndex fun entry => (key, entry.2) := by
      rw [h.entries_eq, List.modify_eq_take_cons_drop (by rwa [List.length_map]), List.map_append,
        List.map_take, List.map_cons, List.map_drop, List.getElem_map]
    rw [hentries] at hedited
    exact .inl ⟨⟨hlt, hkey⟩, page', (h.does_setKeyAt entryIndex key).ok hok, hedited⟩
  · cases hresult : BTreeInternalPage.setKeyAt page entryIndex key with
    | ok page' =>
      simp only [BTreeInternalPage.setKeyAt, bind_eq_ok, failIf_eq_ok, h.keyCount_eq,
        h.keySize_eq] at hresult
      obtain ⟨-, hindex, -, hkey, -⟩ := hresult
      exact absurd ⟨Nat.not_le.mp hindex, not_not.mp hkey⟩ hallowed
    | error status => exact .inr ⟨hallowed, status, (h.does_setKeyAt entryIndex key).error hresult⟩

/-- The value of the one entry with the key is replaced. -/
theorem edits_updateValue {node : Node layout .leaf} (h : node.Shows page)
    (hsorted : SortedKeys (BTreePage.entries page)) {key value : List Byte} :
    Edits (BTreeLeafPage.updateValueInPlace key value) page
      (key ∈ (BTreePage.entries page).map Prod.fst ∧ value.length = BTreePage.valueSize page)
      ((BTreePage.entries page).map fun entry => if entry.1 = key then (key, value) else entry) := by
  rw [h.sortedKeys_iff] at hsorted
  have hdoes := h.does_updateValue key value
  have hkeys : key ∈ (BTreePage.entries page).map Prod.fst ↔
      ∃ entry ∈ node.entries, entry.1.bytes = key := by
    rw [h.entries_eq, List.map_map, List.mem_map]
    rfl
  rw [h.valueSize_eq, hkeys]
  by_cases hsizes : key.length = layout.keySize ∧ value.length = layout.valueSize
  · obtain ⟨hkey, hvalue⟩ := hsizes
    obtain ⟨front, back, hfront, hback, hsplit | ⟨old, hsplit⟩⟩ :=
      hsorted.cases_split (⟨key, hkey⟩ : layout.Key)
    · refine .inr ⟨?_, _, hdoes.error (h.updateValue_absent hsplit hfront hback ⟨value, hvalue⟩)⟩
      rintro ⟨⟨entry, hentry, heq⟩, -⟩
      have heq : entry.1 = ⟨key, hkey⟩ := Bytes.ext heq
      rw [hsplit, List.mem_append] at hentry
      exact hentry.elim (fun hmem => (hfront entry hmem).ne heq) fun hmem => (hback entry hmem).ne' heq
    · obtain ⟨page', hok, hshows⟩ := h.updateValue_ok hsplit hfront hback ⟨value, hvalue⟩
      have hedited := h.edited hshows
      have hother (entries : List (layout.Entry .leaf)) (hne : ∀ entry ∈ entries, entry.1 ≠ ⟨key, hkey⟩) :
          (entries.map fun entry => (entry.1.bytes, layout.payloadBytes .leaf entry.2)).map
              (fun entry => if entry.1 = key then (key, value) else entry) =
            entries.map fun entry => (entry.1.bytes, layout.payloadBytes .leaf entry.2) := by
        rw [List.map_map]
        refine List.map_congr_left fun entry hentry => ?_
        exact if_neg fun heq => hne entry hentry (Bytes.ext heq)
      have hentries : (BTreePage.entries page).map
            (fun entry => if entry.1 = key then (key, value) else entry) =
          (front ++ (⟨key, hkey⟩, ⟨value, hvalue⟩) :: back).map
            fun entry => (entry.1.bytes, layout.payloadBytes .leaf entry.2) := by
        rw [h.entries_eq, hsplit, List.map_append, List.map_append, List.map_append, List.map_cons,
          List.map_cons, List.map_cons, hother front fun entry hmem => (hfront entry hmem).ne,
          hother back fun entry hmem => (hback entry hmem).ne', if_pos rfl]
        rfl
      rw [hentries]
      refine .inl ⟨⟨⟨(⟨key, hkey⟩, old), ?_, rfl⟩, hvalue⟩, page', hdoes.ok hok, hedited⟩
      rw [hsplit]
      exact List.mem_append_right _ (List.mem_cons_self ..)
  · cases hresult : BTreeLeafPage.updateValue page key value with
    | ok page' =>
      simp only [BTreeLeafPage.updateValue, bind_eq_ok, failIf_eq_ok, h.keySize_eq,
        h.valueSize_eq] at hresult
      obtain ⟨-, hkey, -, hvalue, -⟩ := hresult
      exact absurd ⟨not_not.mp hkey, not_not.mp hvalue⟩ hsizes
    | error status =>
      refine .inr ⟨?_, status, hdoes.error hresult⟩
      rintro ⟨⟨entry, -, rfl⟩, hvalue⟩
      exact hsizes ⟨entry.1.size_eq, hvalue⟩

/-! ## Positions -/

/-- Where a node is split by a key, the split is the position of the key. -/
theorem isPosition_of_split {front back : List (layout.Entry kind)} (h : node.Shows page)
    (hsplit : node.entries = front ++ back) {before : List Byte → Prop}
    (hfront : ∀ entry ∈ front, before entry.1.bytes) (hback : ∀ entry ∈ back, ¬before entry.1.bytes) :
    IsPosition before (BTreePage.entries page) front.length := by
  have hentries := h.entries_eq
  have hlength : (front.map fun entry : layout.Entry kind =>
      (entry.1.bytes, layout.payloadBytes kind entry.2)).length = front.length := List.length_map _
  rw [hsplit, List.map_append] at hentries
  refine ⟨?_, ?_, ?_⟩
  · rw [h.length_entries, hsplit, List.length_append]
    exact Nat.le_add_right _ _
  · rw [hentries, List.take_left' hlength]
    exact List.forall_mem_map.mpr hfront
  · rw [hentries, List.drop_left' hlength]
    exact List.forall_mem_map.mpr hback

/-- The search for a key finds its position. -/
theorem findInsertionPosition_isPosition (h : node.Shows page)
    (hsorted : SortedKeys (BTreePage.entries page)) {key : List Byte}
    (hkey : key.length = BTreePage.keySize page) : ∃ position,
      BTreePage.findInsertionPosition kind page key = .ok position ∧
      IsPosition (memcmp · key = .lt) (BTreePage.entries page) position := by
  rw [h.keySize_eq] at hkey
  obtain ⟨front, back, hsplit, hfront, hback⟩ :=
    (h.sortedKeys_iff.mp hsorted).exists_split (⟨key, hkey⟩ : layout.Key)
  refine ⟨front.length, h.findInsertionPosition_ok hsplit hfront hback,
    h.isPosition_of_split hsplit (fun entry hmem => ?_) fun entry hmem => ?_⟩
  · exact Bytes.memcmp_eq_lt.mpr (hfront entry hmem)
  · exact mt (Bytes.memcmp_eq_lt (b := ⟨key, hkey⟩)).mp (hback entry hmem).not_gt

/-- The search for a child finds the position behind all keys up to the key. -/
theorem childIndexForKey_isPosition {node : Node layout .internal} (h : node.Shows page)
    (hsorted : SortedKeys (BTreePage.entries page)) {key : List Byte}
    (hkey : key.length = BTreePage.keySize page) : ∃ position,
      BTreeInternalPage.childIndexForKey page key = .ok position ∧
      IsPosition (memcmp · key ≠ .gt) (BTreePage.entries page) position := by
  rw [h.keySize_eq] at hkey
  obtain ⟨front, back, hsplit, hfront, hback⟩ :=
    (h.sortedKeys_iff.mp hsorted).exists_split_le (⟨key, hkey⟩ : layout.Key)
  refine ⟨front.length, h.childIndexForKey_ok hsplit hfront hback,
    h.isPosition_of_split hsplit (fun entry hmem => ?_) fun entry hmem => ?_⟩
  · exact Bytes.memcmp_ne_gt.mpr (hfront entry hmem)
  · exact mt (Bytes.memcmp_ne_gt (b := ⟨key, hkey⟩)).mp (hback entry hmem).not_ge

end Node.Shows

/-! ## All pages -/

/-- The editing functions on one page. -/
structure BTreePage.EditsAsList (page : PageData) : Prop where
  insertEntry : ∀ entryIndex key payload,
    Edits (insertEntryInPlace (BTreePage.kind page) entryIndex key payload) page
      (CanInsert page entryIndex key payload)
      ((BTreePage.entries page).insertIdx entryIndex (key, payload))
  eraseEntry : ∀ entryIndex, Edits (eraseEntryInPlace (BTreePage.kind page) entryIndex) page
    (entryIndex < (BTreePage.entries page).length) ((BTreePage.entries page).eraseIdx entryIndex)
  setKeyAt : BTreePage.kind page = .internal → ∀ entryIndex key,
    Edits (BTreeInternalPage.setKeyAtInPlace entryIndex key) page
      (entryIndex < (BTreePage.entries page).length ∧ key.length = BTreePage.keySize page)
      ((BTreePage.entries page).modify entryIndex fun entry => (key, entry.2))
  findInsertionPosition : SortedKeys (BTreePage.entries page) → ∀ key : List Byte,
    key.length = BTreePage.keySize page → ∃ position,
      BTreePage.findInsertionPosition (BTreePage.kind page) page key = .ok position ∧
      IsPosition (memcmp · key = .lt) (BTreePage.entries page) position ∧
      ∀ other, IsPosition (memcmp · key = .lt) (BTreePage.entries page) other → other = position
  childIndexForKey : BTreePage.kind page = .internal → SortedKeys (BTreePage.entries page) →
    ∀ key : List Byte, key.length = BTreePage.keySize page → ∃ position,
      BTreeInternalPage.childIndexForKey page key = .ok position ∧
      IsPosition (memcmp · key ≠ .gt) (BTreePage.entries page) position ∧
      ∀ other, IsPosition (memcmp · key ≠ .gt) (BTreePage.entries page) other → other = position
  updateValue : BTreePage.kind page = .leaf → SortedKeys (BTreePage.entries page) →
    ∀ key value, Edits (BTreeLeafPage.updateValueInPlace key value) page
      (key ∈ (BTreePage.entries page).map Prod.fst ∧ value.length = BTreePage.valueSize page)
      ((BTreePage.entries page).map fun entry => if entry.1 = key then (key, value) else entry)
  sortedKeys : SortedKeys (BTreePage.entries page) → ∀ entryIndex key payload page',
    insertEntryInPlace (BTreePage.kind page) entryIndex key payload page = .ok () page' →
    key ∉ (BTreePage.entries page).map Prod.fst → SortedKeys (BTreePage.entries page')

/-- An edit that succeeds was allowed and did what it should. -/
theorem BTreePage.Edits.of_ok {m : InPlace pageSize Unit} {page page' : PageData} {allowed : Prop}
    {entries : List (List Byte × List Byte)} (h : Edits m page allowed entries)
    (hok : m page = .ok () page') : allowed ∧ Edited page page' entries := by
  obtain ⟨hallowed, page'', hok', hedited⟩ | ⟨-, status, herror⟩ := h
  · rw [hok'] at hok
    cases hok
    exact ⟨hallowed, hedited⟩
  · rw [herror] at hok
    cases hok

/-- The edits of an accepted page are edits of its list of entries. -/
theorem BTreePage.editsAsList {page : PageData} (h : validatePage page = .ok ()) :
    EditsAsList page := by
  obtain ⟨layout, kind, hkind, node, hshows⟩ : ∃ (layout : Layout) (kind : BTreePageKind),
      BTreePage.kind page = kind ∧ ∃ node : Node layout kind, node.Shows page :=
    ⟨(accepted_of_validatePage h).layout, _, rfl, (accepted_of_validatePage h).exists_node⟩
  constructor <;> rw [hkind]
  case insertEntry => exact fun _ _ _ => hshows.edits_insertEntry
  case eraseEntry => exact fun _ => hshows.edits_eraseEntry
  case setKeyAt =>
    rintro rfl entryIndex key
    exact hshows.edits_setKeyAt
  case findInsertionPosition =>
    intro hsorted key hkey
    obtain ⟨position, hfind, hposition⟩ := hshows.findInsertionPosition_isPosition hsorted hkey
    exact ⟨position, hfind, hposition, fun _ hother => hposition.unique hother⟩
  case childIndexForKey =>
    rintro rfl hsorted key hkey
    obtain ⟨position, hfind, hposition⟩ := hshows.childIndexForKey_isPosition hsorted hkey
    exact ⟨position, hfind, hposition, fun _ hother => hposition.unique hother⟩
  case updateValue =>
    rintro rfl hsorted key value
    exact hshows.edits_updateValue hsorted
  case sortedKeys =>
    intro hsorted entryIndex key payload page' hok habsent
    obtain ⟨hcan, hedited⟩ := BTreePage.Edits.of_ok hshows.edits_insertEntry hok
    rw [hedited.entries_eq]
    exact hshows.sortedKeys_insertIdx hsorted hcan habsent

/-- The sizes fit the fields of the header, and pages of both kinds can be made. -/
structure Initializes (keySize valueSize : Nat) : Prop where
  keySize_lt : keySize < 65536
  valueSize_lt : valueSize < 65536
  leaf : ∃ page, initializeLeaf keySize valueSize = .ok page ∧ 1 ≤ BTreeLeafPage.capacity page
  internal : ∃ page, initializeInternal keySize valueSize = .ok page ∧
    2 ≤ BTreeInternalPage.capacity page

theorem initializes_of_validateLayout {keySize valueSize : Nat}
    (h : validateLayout keySize valueSize = .ok ()) : Initializes keySize valueSize := by
  simp only [validateLayout, bind_eq_ok, failIf_eq_ok] at h
  obtain ⟨-, hkey, -, hvalue, -, hlimits, -, hleaf, hinternal⟩ := h
  obtain ⟨layout, rfl, rfl⟩ : ∃ layout : Layout,
      layout.keySize = keySize ∧ layout.valueSize = valueSize :=
    ⟨⟨keySize, valueSize, by omega, by omega, by omega, by omega⟩, rfl, rfl⟩
  have hinit {kind : BTreePageKind} (hadmits : layout.Admits kind) : ∃ page,
      initializeAs kind layout.keySize layout.valueSize = .ok page ∧
        kind.minimumCapacity ≤ capacityOf kind page :=
    ⟨_, Node.initializeAs_ok hadmits, by rw [(Node.shows_emptyPage hadmits).capacityOf_eq]; exact hadmits⟩
  exact ⟨layout.keySize_lt, layout.valueSize_lt, hinit (Nat.pos_of_ne_zero hleaf),
    hinit (Nat.not_lt.mp hinternal)⟩

/-- Editing an accepted page is editing its list of entries, and an accepted layout
makes pages of both kinds. -/
theorem page_editing : (∀ page : PageData, validatePage page = .ok () → EditsAsList page) ∧
    ∀ keySize valueSize, validateLayout keySize valueSize = .ok () →
      Initializes keySize valueSize :=
  ⟨fun _ => editsAsList, fun _ _ => initializes_of_validateLayout⟩

/-! ## A leaf and an internal page -/

/-- A leaf with two entries. -/
def pairLeaf : Node smallLayout .leaf :=
  ⟨true, invalidPageId, invalidPageId, invalidPageId, invalidPageId,
    [(⟨[2], rfl⟩, ⟨[9], rfl⟩), (⟨[4], rfl⟩, ⟨[8], rfl⟩)]⟩

/-- An internal page with three children. -/
def pairInternal : Node smallLayout .internal :=
  ⟨true, invalidPageId, invalidPageId, invalidPageId, 5, [(⟨[2], rfl⟩, 6), (⟨[4], rfl⟩, 7)]⟩

/-- An allowed edit succeeds. -/
theorem BTreePage.Edits.ok {m : InPlace pageSize Unit} {page : PageData} {allowed : Prop}
    {entries : List (List Byte × List Byte)} (h : Edits m page allowed entries)
    (hallowed : allowed) : ∃ page', m page = .ok () page' ∧ Edited page page' entries :=
  h.elim And.right fun hnot => absurd hallowed hnot.1

theorem page_editing_small : ∃ leaf internal : PageData,
    pairLeaf.Shows leaf ∧ pairInternal.Shows internal ∧
    BTreePage.findInsertionPosition .leaf leaf [3] = .ok 1 ∧
    (∃ page', insertEntryInPlace .leaf 1 [3] [7] leaf = .ok () page' ∧
      Edited leaf page' [([2], [9]), ([3], [7]), ([4], [8])]) ∧
    (∃ status, insertEntryInPlace .leaf 0 [3] [7] leaf = .error (.returned status) leaf) ∧
    (∃ page', eraseEntryInPlace .leaf 0 leaf = .ok () page' ∧ Edited leaf page' [([4], [8])]) ∧
    (∃ page', BTreeLeafPage.updateValueInPlace [4] [6] leaf = .ok () page' ∧
      Edited leaf page' [([2], [9]), ([4], [6])]) ∧
    BTreeInternalPage.childIndexForKey internal [4] = .ok 2 ∧
    (∃ page', BTreeInternalPage.setKeyAtInPlace 1 [5] internal = .ok () page' ∧
      Edited internal page' [([2], leBytes 8 6), ([5], leBytes 8 7)]) ∧
    Initializes 1 1 := by
  have hpairs : pairLeaf.entries.Pairwise fun a b => a.1 < b.1 := by decide
  have hpairs' : pairInternal.entries.Pairwise fun a b => a.1 < b.1 := by decide
  obtain ⟨leaf, hleaf⟩ := pairLeaf.exists_shows (smallLayout_admits _) hpairs (by decide)
  obtain ⟨internal, hinternal⟩ := pairInternal.exists_shows (smallLayout_admits _) hpairs' (by decide)
  have hentries : BTreePage.entries leaf = [([2], [9]), ([4], [8])] := hleaf.entries_eq
  have hentries' : BTreePage.entries internal = [([2], leBytes 8 6), ([4], leBytes 8 7)] :=
    hinternal.entries_eq
  have hedits := page_editing.1 leaf hleaf.validatePage_ok
  have hedits' := page_editing.1 internal hinternal.validatePage_ok
  have hsorted : SortedKeys (BTreePage.entries leaf) := hleaf.sortedKeys_iff.mpr hpairs
  have hsorted' : SortedKeys (BTreePage.entries internal) := hinternal.sortedKeys_iff.mpr hpairs'
  have hcan : CanInsert leaf 1 [3] [7] := by
    refine ⟨?_, hleaf.keySize_eq.symm, ?_, ?_, ?_, ?_⟩
    · rw [hentries]
      decide
    · rw [hleaf.kind_eq, hleaf.valueSize_eq]
      rfl
    · rw [hentries, hleaf.kind_eq, hleaf.capacityOf_eq]
      decide
    · rw [hentries]
      rintro entry - hentry
      cases hentry
      decide
    · rw [hentries]
      rintro entry hentry
      cases hentry
      decide
  have hcannot : ¬CanInsert leaf 0 [3] [7] := by
    intro hcan
    have hnext := hcan.next
    rw [hentries] at hnext
    exact hnext _ rfl (by decide)
  obtain ⟨position, hfind, -, hposition⟩ :=
    hedits.findInsertionPosition hsorted [3] hleaf.keySize_eq.symm
  obtain ⟨child, hchild, -, hposition'⟩ :=
    hedits'.childIndexForKey hinternal.kind_eq hsorted' [4] hinternal.keySize_eq.symm
  have hinserts := hedits.insertEntry 1 [3] [7]
  have hrejects := hedits.insertEntry 0 [3] [7]
  have herases := hedits.eraseEntry 0
  have hupdates := hedits.updateValue hleaf.kind_eq hsorted [4] [6]
  have hsets := hedits'.setKeyAt hinternal.kind_eq 1 [5]
  rw [hleaf.kind_eq] at hinserts hrejects herases hfind
  rw [hentries] at hinserts herases hupdates hposition
  rw [hentries'] at hsets hposition'
  refine ⟨leaf, internal, hleaf, hinternal, ?_, hinserts.ok hcan, ?_, herases.ok (by decide),
    hupdates.ok ⟨by decide, hleaf.valueSize_eq.symm⟩, ?_,
    hsets.ok ⟨by decide, hinternal.keySize_eq.symm⟩, page_editing.2 1 1 rfl⟩
  · rw [hfind, ← hposition 1 ⟨by decide, by decide, by decide⟩]
  · obtain ⟨hallowed, -⟩ | ⟨-, hrejected⟩ := hrejects
    · exact absurd hallowed hcannot
    · exact hrejected
  · rw [hchild, ← hposition' 2 ⟨by decide, by decide, by decide⟩]

end DanDB.BTree
