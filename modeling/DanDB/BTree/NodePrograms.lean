import DanDB.BTree.BTreeKinds

/-!
# Programs on nodes

What the steps of a tree's programs do to the nodes that the pages hold.  A rule
for a step that writes names the pages that may have changed, and what is held by
the others is held on (`OnlyChanges.holds`).
-/

namespace DanDB.BTree

open Buffer DanDB.Core Storage PageProgram

variable {layout : Layout} {kind kind' : BTreePageKind} {array array' array'' : PageArray}
  {pageId pageId' : PageId} {own own' : List PageId}

/-- A page of the array that is not the header. -/
structure Present (array : PageArray) (pageId : PageId) (data : PageData) : Prop where
  ne_header : pageId ≠ headerPageId
  lt : pageId < array.header.pageCount
  page : array.page pageId = some data

/-- The page of the id holds the node. -/
def Holds (array : PageArray) (pageId : PageId) (node : Node layout kind) : Prop :=
  ∃ data, Present array pageId data ∧ node.Shows data

/-- Of the pages that were there, only those in the list may have changed. -/
structure OnlyChanges (own : List PageId) (array array' : PageArray) : Prop where
  count : array.header.pageCount ≤ array'.header.pageCount
  header : array'.header = { array.header with pageCount := array'.header.pageCount }
  page : ∀ pageId < array.header.pageCount, pageId ∉ own → array'.page pageId = array.page pageId

theorem ne_invalidPageId_of_lt {pageCount : PageId} (h : pageId < pageCount) :
    pageId ≠ invalidPageId := by
  rintro rfl
  have hlt := UInt64.lt_iff_toNat_lt.mp h
  have hcount := pageCount.toNat_lt
  have hinvalid : invalidPageId.toNat = 2 ^ 64 - 1 := rfl
  omega

theorem Present.ne_invalid {data : PageData} (h : Present array pageId data) :
    pageId ≠ invalidPageId := ne_invalidPageId_of_lt h.lt

/-- A page holds one node. -/
theorem Holds.unique {node node' : Node layout kind} (h : Holds array pageId node)
    (h' : Holds array pageId node') : node' = node := by
  obtain ⟨data, hpresent, hshows⟩ := h
  obtain ⟨data', hpresent', hshows'⟩ := h'
  have hdata : data' = data := Option.some.inj (hpresent'.page.symm.trans hpresent.page)
  rw [hdata] at hshows'
  exact hshows.unique hshows'

/-- The pages of a tree fit its layout. -/
theorem Holds.admits {node : Node layout kind} (h : Holds array pageId node) :
    layout.Admits kind := by
  obtain ⟨data, -, hshows⟩ := h
  exact hshows.admits

theorem Holds.lt {node : Node layout kind} (h : Holds array pageId node) :
    pageId < array.header.pageCount := by
  obtain ⟨data, hpresent, -⟩ := h
  exact hpresent.lt

theorem Holds.ne_invalid {node : Node layout kind} (h : Holds array pageId node) :
    pageId ≠ invalidPageId := by
  obtain ⟨data, hpresent, -⟩ := h
  exact hpresent.ne_invalid

theorem Holds.ne_header {node : Node layout kind} (h : Holds array pageId node) :
    pageId ≠ headerPageId := by
  obtain ⟨data, hpresent, -⟩ := h
  exact hpresent.ne_header

namespace OnlyChanges

/-- Nothing has changed. -/
theorem refl (own : List PageId) (array : PageArray) : OnlyChanges own array array :=
  ⟨UInt64.le_refl _, rfl, fun _ _ _ => rfl⟩

/-- More pages may have changed. -/
theorem mono (h : OnlyChanges own array array') (hsub : own ⊆ own') :
    OnlyChanges own' array array' :=
  ⟨h.count, h.header, fun pageId hlt hmem => h.page pageId hlt fun hown => hmem (hsub hown)⟩

/-- Pages that the first change made may change again. -/
theorem trans (h : OnlyChanges own array array') (h' : OnlyChanges own' array' array'')
    (hsub : ∀ pageId ∈ own', pageId < array.header.pageCount → pageId ∈ own) :
    OnlyChanges own array array'' where
  count := UInt64.le_trans h.count h'.count
  header := by rw [h'.header, h.header]
  page pageId hlt hmem := by
    rw [h'.page pageId (UInt64.lt_of_lt_of_le hlt h.count) fun hown => hmem (hsub pageId hown hlt),
      h.page pageId hlt hmem]

/-- A page that has not changed is still there, -/
theorem present {data : PageData} (h : OnlyChanges own array array') (hmem : pageId ∉ own)
    (hpresent : Present array pageId data) : Present array' pageId data :=
  ⟨hpresent.ne_header, UInt64.lt_of_lt_of_le hpresent.lt h.count,
    (h.page pageId hpresent.lt hmem).trans hpresent.page⟩

/-- and holds the same node. -/
theorem holds {node : Node layout kind} (h : OnlyChanges own array array') (hmem : pageId ∉ own)
    (hholds : Holds array pageId node) : Holds array' pageId node := by
  obtain ⟨data, hpresent, hshows⟩ := hholds
  exact ⟨data, h.present hmem hpresent, hshows⟩

theorem holds_of_ne {node : Node layout kind} (h : OnlyChanges [pageId] array array')
    (hne : pageId' ≠ pageId) (hholds : Holds array pageId' node) : Holds array' pageId' node :=
  h.holds (by simpa using hne) hholds

/-- There is no page of the invalid id. -/
theorem drop_invalid (h : OnlyChanges (invalidPageId :: own) array array') :
    OnlyChanges own array array' :=
  ⟨h.count, h.header, fun pageId hlt hmem => h.page pageId hlt fun hown =>
    hmem ((List.mem_cons.mp hown).resolve_left (ne_invalidPageId_of_lt hlt))⟩

end OnlyChanges

/-- A page is written. -/
theorem onlyChanges_write (array : PageArray) (pageId : PageId) (data : PageData) :
    OnlyChanges [pageId] array (array.write pageId data) where
  count := UInt64.le_refl _
  header := rfl
  page pageId' _ hmem := Function.update_of_ne (by simpa using hmem) ..

/-- A page has what was written to it. -/
theorem present_write {data : PageData} (h : Present array pageId data) (data' : PageData) :
    Present (array.write pageId data') pageId data' :=
  ⟨h.ne_header, h.lt, Function.update_self ..⟩

theorem toNat_pageCount_grow (h : array.header.pageCount ≠ invalidPageId) :
    array.grow.header.pageCount.toNat = array.header.pageCount.toNat + 1 := by
  have hlt := array.header.pageCount.toNat_lt
  have hne : array.header.pageCount.toNat ≠ invalidPageId.toNat := fun heq =>
    h (UInt64.toNat_inj.mp heq)
  have hinvalid : invalidPageId.toNat = 2 ^ 64 - 1 := rfl
  rw [PageArray.grow, UInt64.toNat_add]
  exact Nat.mod_eq_of_lt (show _ + 1 < 2 ^ 64 by omega)

/-- A page is added. -/
theorem onlyChanges_grow (h : array.header.pageCount ≠ invalidPageId) :
    OnlyChanges [] array array.grow where
  count := UInt64.le_iff_toNat_le.mpr ((toNat_pageCount_grow h).symm ▸ Nat.le_succ _)
  header := rfl
  page _ hlt _ := Function.update_of_ne (UInt64.ne_of_lt hlt) ..

/-- A new page is zero. -/
theorem present_grow (h : array.header.pageCount ≠ invalidPageId)
    (hpos : 0 < array.header.pageCount) :
    Present array.grow array.header.pageCount .zero where
  ne_header := (UInt64.ne_of_lt hpos).symm
  lt := UInt64.lt_iff_toNat_lt.mpr ((toNat_pageCount_grow h).symm ▸ Nat.lt_succ_self _)
  page := Function.update_self ..

/-! ## Rules -/

/-- The program ends with a value, and as the postcondition says. -/
def Runs {α : Type} {spare : Nat} (ctx : PageContext spare) (x : PageProgram α) (array : PageArray)
    (post : α → PageArray → Prop) : Prop :=
  Yields ctx x array fun r array' => ∃ a, r = .ok a ∧ post a array'

section Rules

variable {α β : Type} {spare : Nat} {ctx : PageContext spare} {post : Except Status α → PageArray → Prop}
  {node node' : Node layout kind}

theorem runs_pure {a : α} {post : α → PageArray → Prop} (h : post a array) :
    Runs ctx (pure a) array post :=
  yields_pure ⟨a, rfl, h⟩

/-- The second part starts in what the first leaves. -/
theorem Runs.bind {x : PageProgram β} {f : β → PageProgram α} {mid : β → PageArray → Prop}
    (h : Runs ctx x array mid) (hnext : ∀ b array', mid b array' → Yields ctx (f b) array' post) :
    Yields ctx (x >>= f) array post := by
  refine Yields.bind h ?_ ?_
  · rintro b array' ⟨b', heq, hmid⟩
    cases heq
    exact hnext b array' hmid
  · rintro e array' ⟨b, heq, -⟩
    cases heq

theorem Runs.mono {x : PageProgram α} {post post' : α → PageArray → Prop}
    (h : Runs ctx x array post) (himp : ∀ a array', post a array' → post' a array') :
    Runs ctx x array post' :=
  Yields.mono h fun _ array' ⟨a, hr, hpost⟩ => ⟨a, hr, himp a array' hpost⟩

theorem yields_ok_bind {r : Result β} {b : β} {f : β → PageProgram α} (hr : r = .ok b)
    (h : Yields ctx (f b) array post) : Yields ctx (.done r >>= f) array post := by
  rw [hr]
  exact h

/-- A program that takes a page sees the node that it holds, -/
theorem yields_withPage_node {ctx : PageContext (spare + 1)} (h : Holds array pageId node) {body : PageData → PageProgram α}
    (hbody : ∀ data, node.Shows data → Yields (ctx.pin pageId false) (body data) array post) :
    Yields ctx (withPage pageId body) array post := by
  obtain ⟨data, hpresent, hshows⟩ := h
  exact yields_withPage hpresent.ne_invalid hpresent.ne_header hpresent.page (hbody data hshows)

/-- and may change it in a transaction. -/
theorem yields_withMutablePage_node {ctx : PageContext (spare + 1)} (hactive : ctx.status = .active) (h : Holds array pageId node)
    {body : PageData → PageProgram α}
    (hbody : ∀ data, node.Shows data → Yields (ctx.pin pageId true) (body data) array post) :
    Yields ctx (withMutablePage pageId body) array post := by
  obtain ⟨data, hpresent, hshows⟩ := h
  exact yields_withMutablePage hactive hpresent.ne_invalid hpresent.ne_header hpresent.page
    (hbody data hshows)

/-- A new page may be changed. -/
theorem yields_withNewPage_present {ctx : PageContext (spare + 1)} (hactive : ctx.status = .active)
    (hpos : 0 < array.header.pageCount) {body : PageId → PageProgram α}
    (hbody : ∀ array', OnlyChanges [] array array' →
      Present array' array.header.pageCount .zero →
      Yields (ctx.pin array.header.pageCount true) (body array.header.pageCount) array' post) :
    Yields ctx (withNewPage body) array post :=
  yields_withNewPage hactive fun hids =>
    hbody array.grow (onlyChanges_grow hids) (present_grow hids hpos)

/-- A page that is set up holds the node, -/
theorem runs_edit_present {handle : Nat} {data : PageData} {change : PageData → Result PageData}
    (hhandle : ctx.handles[handle]? = some (pageId, true)) (h : Present array pageId data)
    (hchange : ∃ data', change data = .ok data' ∧ node.Shows data') :
    Runs ctx (edit handle change) array fun _ array' =>
      OnlyChanges [pageId] array array' ∧ Holds array' pageId node := by
  obtain ⟨data', hok, hshows⟩ := hchange
  refine yields_edit hhandle h.page ?_ ?_
  · intro data'' hok'
    rw [hok] at hok'
    cases hok'
    exact ⟨(), rfl, onlyChanges_write array pageId data', data', present_write h data', hshows⟩
  · intro e herror
    rw [hok] at herror
    cases herror

/-- and a page that is edited the changed one. -/
theorem runs_edit_node {handle : Nat} {change : PageData → Result PageData}
    (hhandle : ctx.handles[handle]? = some (pageId, true)) (h : Holds array pageId node')
    (hchange : ∀ data, node'.Shows data → ∃ data', change data = .ok data' ∧ node.Shows data') :
    Runs ctx (edit handle change) array fun _ array' =>
      OnlyChanges [pageId] array array' ∧ Holds array' pageId node := by
  obtain ⟨data, hpresent, hshows⟩ := h
  exact runs_edit_present hhandle hpresent (hchange data hshows)

theorem runs_update_node {handle : Nat} {change : PageData → PageData}
    (hhandle : ctx.handles[handle]? = some (pageId, true)) (h : Holds array pageId node')
    (hchange : ∀ data, node'.Shows data → node.Shows (change data)) :
    Runs ctx (update handle change) array fun _ array' =>
      OnlyChanges [pageId] array array' ∧ Holds array' pageId node :=
  runs_edit_node hhandle h fun data hshows => ⟨_, rfl, hchange data hshows⟩

theorem runs_read {handle : Nat} {isDirty : Bool} {data : PageData}
    (hhandle : ctx.handles[handle]? = some (pageId, isDirty)) (h : Present array pageId data) :
    Runs ctx (read handle) array fun page array' => page = ⟨pageId, data⟩ ∧ array' = array := by
  intro s hs
  have hread : s.call (.read handle) = some (.ok (some ⟨pageId, data⟩), s) := by
    rw [FlatSession.call, hs.handles, hhandle, Option.map_some, FlatSession.page, hs.active, h.page,
      Option.getD_some]
  exact ensures_call trivial hread (by rintro r ⟨⟩) ⟨.refl s, _, rfl, rfl, hs.active⟩

theorem runs_readWith_node {handle : Nat} {isDirty : Bool} {g : PageData → Result β}
    {value : β → Prop} (hhandle : ctx.handles[handle]? = some (pageId, isDirty))
    (h : Holds array pageId node)
    (hread : ∀ data, node.Shows data → ∃ b, g data = .ok b ∧ value b) :
    Runs ctx (readWith handle g) array fun b array' => value b ∧ array' = array := by
  obtain ⟨data, hpresent, hshows⟩ := h
  obtain ⟨b, hb, hvalue⟩ := hread data hshows
  refine (runs_read hhandle hpresent).bind fun page array' ⟨hpage, harray⟩ => ?_
  subst hpage harray
  rw [hb]
  exact runs_pure ⟨hvalue, rfl⟩

/-- `open` of the page of a handle. -/
theorem runs_readWith_openAs {handle : Nat} {isDirty : Bool}
    (hhandle : ctx.handles[handle]? = some (pageId, isDirty)) (h : Holds array pageId node) :
    Runs ctx (readWith handle (BTreePage.openAs kind)) array fun _ array' => array' = array :=
  (runs_readWith_node hhandle h fun data hshows =>
    ⟨data, hshows.openAs_ok, trivial⟩).mono fun _ _ => And.right

/-! ## Loops -/

/-- The entries of a list are inserted behind those that were inserted before. -/
theorem runs_insertEntries {ε ι : Type} {encode : ε → ι}
    {insertEntry : PageData → Nat → ι → Result PageData} {nodeOf : List ε → Node layout kind}
    {handle : Nat} (hhandle : ctx.handles[handle]? = some (pageId, true)) (back front : List ε)
    (h : Holds array pageId (nodeOf front))
    (hinsert : ∀ front' entry back', front ++ back = front' ++ entry :: back' →
      ∀ data, (nodeOf front').Shows data → ∃ data',
        insertEntry data front'.length (encode entry) = .ok data' ∧
          (nodeOf (front' ++ [entry])).Shows data') :
    Runs ctx (insertEntries insertEntry handle front.length (back.map encode)) array
      fun _ array' => OnlyChanges [pageId] array array' ∧
        Holds array' pageId (nodeOf (front ++ back)) := by
  induction back generalizing front array with
  | nil =>
    rw [List.append_nil]
    exact runs_pure ⟨.refl _ _, h⟩
  | cons entry back ih =>
    have happend : front ++ entry :: back = (front ++ [entry]) ++ back := by
      rw [List.append_assoc, List.singleton_append]
    refine (runs_edit_node hhandle h (hinsert front entry back rfl)).bind
      fun _ array' ⟨hchange, hholds⟩ => ?_
    rw [happend] at hinsert ⊢
    rw [← List.length_singleton (a := entry), ← List.length_append]
    exact (ih (front ++ [entry]) hholds hinsert).mono fun _ array'' ⟨hchange', hholds'⟩ =>
      ⟨hchange.trans hchange' fun _ hmem _ => hmem, hholds'⟩

/-- The entries of the page of handle 1 are appended to those of the page of handle 0. -/
theorem runs_appendEntries {ε ι : Type} {encode : ε → ι} {entryAt : PageData → Nat → Result ι}
    {insertEntry : PageData → Nat → ι → Result PageData} {nodeOf : List ε → Node layout kind}
    {isDirty : Bool} {firstIndex : Nat} (hleft : ctx.handles[0]? = some (pageId, true))
    (hright : ctx.handles[1]? = some (pageId', isDirty)) (hne : pageId' ≠ pageId)
    (back front : List ε) {fuel : Nat} (hfuel : back.length ≤ fuel)
    (h : Holds array pageId (nodeOf front)) (h' : Holds array pageId' node')
    (hcount : ∀ data, node'.Shows data → BTreePage.keyCount data = (front ++ back).length)
    (hentry : ∀ front' entry back', front ++ back = front' ++ entry :: back' →
      ∀ data, node'.Shows data → entryAt data front'.length = .ok (encode entry))
    (hinsert : ∀ front' entry back', front ++ back = front' ++ entry :: back' →
      ∀ data, (nodeOf front').Shows data → ∃ data',
        insertEntry data (firstIndex + front'.length) (encode entry) = .ok data' ∧
          (nodeOf (front' ++ [entry])).Shows data') :
    Runs ctx (appendEntries entryAt insertEntry firstIndex fuel front.length) array fun _ array' =>
      OnlyChanges [pageId] array array' ∧ Holds array' pageId (nodeOf (front ++ back)) := by
  induction fuel generalizing front back array with
  | zero =>
    obtain rfl := List.length_eq_zero_iff.mp (Nat.le_zero.mp hfuel)
    rw [List.append_nil]
    exact runs_pure ⟨.refl _ _, h⟩
  | succ fuel ih =>
    have ⟨data, hpresent, hshows⟩ := h'
    refine (runs_read hright hpresent).bind fun page array' ⟨hpage, harray⟩ => ?_
    subst hpage harray
    dsimp only
    rw [hcount data hshows]
    cases back with
    | nil =>
      rw [List.append_nil, if_neg (Nat.lt_irrefl _)]
      exact runs_pure ⟨.refl _ _, h⟩
    | cons entry back =>
      have happend : front ++ entry :: back = (front ++ [entry]) ++ back := by
        rw [List.append_assoc, List.singleton_append]
      rw [if_pos (by simp)]
      refine yields_ok_bind (hentry front entry back rfl data hshows) ?_
      refine (runs_edit_node hleft h (hinsert front entry back rfl)).bind
        fun _ array' ⟨hchange, hholds⟩ => ?_
      rw [happend] at hinsert hentry hcount ⊢
      rw [← List.length_singleton (a := entry), ← List.length_append]
      exact (ih back (front ++ [entry]) (Nat.le_of_succ_le_succ hfuel) hholds
        (hchange.holds_of_ne hne h') hcount hentry hinsert).mono
          fun _ array'' ⟨hchange', hholds'⟩ =>
            ⟨hchange.trans hchange' fun _ hmem _ => hmem, hholds'⟩

/-! ## Small programs -/

/-- A page learns its new parent. -/
theorem runs_updateParentPageId {ctx : PageContext (spare + 1)} (hactive : ctx.status = .active) (h : Holds array pageId node)
    (parent : PageId) :
    Runs ctx (updateParentPageId parent pageId) array fun _ array' =>
      OnlyChanges [pageId] array array' ∧ Holds array' pageId { node with parent := parent } :=
  yields_withMutablePage_node hactive h fun _ hshows =>
    yields_ok_bind hshows.openPage_ok (runs_update_node rfl h fun _ hshows => hshows.setParent parent)

theorem runs_pageKind {ctx : PageContext (spare + 1)} (h : Holds array pageId node) :
    Runs ctx (pageKind pageId) array fun pageKind array' => pageKind = kind ∧ array' = array :=
  yields_withPage_node h fun _ hshows =>
    yields_ok_bind hshows.openPage_ok (runs_pure ⟨hshows.kind_eq, rfl⟩)

end Rules

end DanDB.BTree
