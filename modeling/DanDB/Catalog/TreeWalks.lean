import DanDB.BTree.Cycles
import DanDB.Catalog.LoadEnds

/-!
# The walks through the trees of a database

Whatever is stored, a walk comes to an end if the page ids that it follows do not
lead it into a cycle.  Its pages may be of any kind, at any place in any number of
trees, and any call for one of them may fail.
-/

namespace DanDB.Catalog

open DanDB.Core Storage PageProgram Walks BTree CatalogLoader

/-- The program comes to an end in the session, with a value or an error. -/
def EndsIn {α : Type} (t : Session) (x : PageProgram α) : Prop :=
  ∃ trace r t', x.run Session.responder t = some (trace, r, t')

/-- The walks through the pages of a session end. -/
structure WalksEnd (t : Session) (array : PageArray) : Prop where
  find : ∀ (tree : BTree) (key : List Byte),
    AcyclicFrom (ChildTowards array key) tree.rootPageId → EndsIn t (tree.find key)
  /-- An insertion goes down, and the way down ends. -/
  insert : ∀ (tree : BTree) (key value : List Byte),
    AcyclicFrom (ChildTowards array key) tree.rootPageId →
    tree.insertIntoSubtree key value walkLimit tree.rootPageId =
        (descend key walkLimit tree.rootPageId >>= fun way =>
          tree.insertAndClimb key value way.1 way.2) ∧
      EndsIn t (descend key walkLimit tree.rootPageId)
  /-- So does an erasure. -/
  erase : ∀ (tree : BTree) (key : List Byte),
    AcyclicFrom (ChildTowards array key) tree.rootPageId →
    tree.eraseFromSubtree key walkLimit tree.rootPageId =
        (descend key walkLimit tree.rootPageId >>= fun way =>
          tree.eraseAndClimb key way.1 way.2) ∧
      EndsIn t (descend key walkLimit tree.rootPageId)
  scanRange : ∀ (tree : BTree) (lowerBound upperBound : Option (List Byte)),
    AcyclicFrom (ScanEdge array lowerBound) tree.rootPageId →
    EndsIn t (tree.scanRange lowerBound upperBound)
  drain : ∀ cursor : BTreeCursor, AcyclicFrom (NextLeaf array) cursor.currentLeafPageId →
    EndsIn t cursor.drain
  load : ∀ orders : Orders,
    (∀ rootPageId ∈ systemRoots array.header, Scannable array rootPageId) →
    EndsIn t (load orders array.header)

theorem EndsIn.of_ends {α : Type} {t : Session} (h : Session.Reachable t) {x : PageProgram α}
    {post : α → Prop} (hends : Ends t.abs.flat.active false x post) : EndsIn t x := by
  obtain ⟨trace, r, t', hrun, -⟩ := hends.run h.sound h.few rfl
  exact ⟨trace, r, t', hrun⟩

/-- In every session the walks end that are not led into a cycle. -/
theorem walks_end {t : Session} (h : Session.Reachable t) : WalksEnd t t.abs.flat.active where
  find _ _ hacyclic := .of_ends h (ends_find hacyclic)
  insert _ _ _ hacyclic :=
    ⟨insertIntoSubtree_eq .., .of_ends h (ends_descend hacyclic)⟩
  erase _ _ hacyclic := ⟨eraseFromSubtree_eq .., .of_ends h (ends_descend hacyclic)⟩
  scanRange _ _ _ hacyclic := .of_ends h (ends_scanRange hacyclic)
  drain _ hacyclic := .of_ends h (BTreeCursor.ends_drain hacyclic)
  load orders hscan := .of_ends h (ends_load orders hscan)

/-! ## A small tree -/

/-- The key of one byte. -/
def smallKey (byte : Byte) : smallLayout.Key := ⟨[byte], rfl⟩

/-- A root with two children. -/
def smallRoot : Node smallLayout .internal :=
  .internal true invalidPageId [(smallKey 0, 2), (smallKey 5, 3)]

/-- The first child, linked to the second. -/
def smallLeft : Node smallLayout .leaf := .leaf false 1 invalidPageId 3 [(smallKey 1, ⟨[1], rfl⟩)]

def smallRight : Node smallLayout .leaf := .leaf false 1 2 invalidPageId [(smallKey 5, ⟨[5], rfl⟩)]

/-- The pages of the tree, and no others. -/
structure SmallTree (array : PageArray) : Prop where
  root : ∃ data, array.page 1 = some data ∧ smallRoot.Shows data
  left : ∃ data, array.page 2 = some data ∧ smallLeft.Shows data
  right : ∃ data, array.page 3 = some data ∧ smallRight.Shows data
  other : ∀ pageId, pageId ≠ 1 → pageId ≠ 2 → pageId ≠ 3 → array.page pageId = none

variable {array : PageArray}

/-- A page is opened as what it is. -/
theorem openAs_kind {layout : Layout} {kind kind' : BTreePageKind} {node : Node layout kind}
    {data page : PageData} (hshows : node.Shows data)
    (hopen : BTreePage.openAs kind' data = .ok page) : page = data ∧ kind = kind' := by
  rw [BTreePage.openAs, hshows.openPage_ok, ok_bind, hshows.kind_eq] at hopen
  by_cases hkind : kind ≠ kind'
  · rw [failIf_of hkind] at hopen
    cases hopen
  · rw [failIf_of_not hkind] at hopen
    cases hopen
    exact ⟨rfl, not_not.mp hkind⟩

/-- A page that is opened as an internal one is the root. -/
theorem SmallTree.internal (h : SmallTree array) {pageId : PageId} {data page : PageData}
    (hpage : array.page pageId = some data) (hopen : BTreeInternalPage.openPage data = .ok page) :
    pageId = 1 ∧ smallRoot.Shows page := by
  by_cases hroot : pageId = 1
  · subst hroot
    obtain ⟨data', hpage', hshows⟩ := h.root
    cases hpage.symm.trans hpage'
    exact ⟨rfl, (openAs_kind hshows hopen).1 ▸ hshows⟩
  by_cases hleft : pageId = 2
  · subst hleft
    obtain ⟨data', hpage', hshows⟩ := h.left
    cases hpage.symm.trans hpage'
    cases (openAs_kind hshows hopen).2
  by_cases hright : pageId = 3
  · subst hright
    obtain ⟨data', hpage', hshows⟩ := h.right
    cases hpage.symm.trans hpage'
    cases (openAs_kind hshows hopen).2
  · cases hpage.symm.trans (h.other pageId hroot hleft hright)

/-- A page that is opened as a leaf is the left or the right one. -/
theorem SmallTree.leaf (h : SmallTree array) {pageId : PageId} {data page : PageData}
    (hpage : array.page pageId = some data) (hopen : BTreeLeafPage.openPage data = .ok page) :
    pageId = 2 ∧ smallLeft.Shows page ∨ pageId = 3 ∧ smallRight.Shows page := by
  by_cases hroot : pageId = 1
  · subst hroot
    obtain ⟨data', hpage', hshows⟩ := h.root
    cases hpage.symm.trans hpage'
    cases (openAs_kind hshows hopen).2
  by_cases hleft : pageId = 2
  · subst hleft
    obtain ⟨data', hpage', hshows⟩ := h.left
    cases hpage.symm.trans hpage'
    exact .inl ⟨rfl, (openAs_kind hshows hopen).1 ▸ hshows⟩
  by_cases hright : pageId = 3
  · subst hright
    obtain ⟨data', hpage', hshows⟩ := h.right
    cases hpage.symm.trans hpage'
    exact .inr ⟨rfl, (openAs_kind hshows hopen).1 ▸ hshows⟩
  · cases hpage.symm.trans (h.other pageId hroot hleft hright)

theorem SmallTree.childTowards (h : SmallTree array) (start : PageId) :
    AcyclicFrom (ChildTowards array [0]) start := by
  refine acyclicFrom_of_rank UInt64.toNat (fun pageId child hstep => ?_) start
  obtain ⟨data, page, hpage, hopen, hchild⟩ := hstep
  obtain ⟨rfl, hshows⟩ := h.internal hpage hopen
  have hfirst := @Node.Shows.childPageIdForKey_branches _ _ _ _ [] [(smallKey 5, 3)] (smallKey 0, 2)
    hshows (smallKey 0) (fun _ hmem => absurd hmem List.not_mem_nil) (by decide)
  cases hchild.symm.trans hfirst
  decide

theorem SmallTree.firstChild (h : SmallTree array) (start : PageId) :
    AcyclicFrom (FirstChild array) start := by
  refine acyclicFrom_of_rank UInt64.toNat (fun pageId child hstep => ?_) start
  obtain ⟨data, page, hpage, hopen, rfl⟩ := hstep
  obtain ⟨rfl, hshows⟩ := h.internal hpage hopen
  rw [hshows.firstChild_eq]
  decide

theorem SmallTree.nextLeaf (h : SmallTree array) (start : PageId) :
    AcyclicFrom (NextLeaf array) start := by
  refine acyclicFrom_of_rank UInt64.toNat (fun pageId child hstep => ?_) start
  obtain ⟨data, page, hpage, hopen, rfl⟩ := hstep
  obtain ⟨rfl, hshows⟩ | ⟨rfl, hshows⟩ := h.leaf hpage hopen
  · rw [hshows.next_eq]
    decide
  · rw [hshows.next_eq]
    decide

/-- A tree of a root and two linked leaves, which the header takes for all system
tables. -/
theorem walks_end_small : ∃ t : Session, WalksEnd t t.abs.flat.active ∧
    SmallTree t.abs.flat.active ∧ systemRoots t.abs.flat.active.header = [1, 1, 1, 1] ∧
    EndsIn t (BTree.find ⟨1, 1, 1⟩ [0]) ∧
    EndsIn t (BTree.scanRange ⟨1, 1, 1⟩ (some [0]) none) ∧ EndsIn t (BTreeCursor.drain ⟨2, 0, none⟩) ∧
    EndsIn t (load ⟨.insertion, .insertion⟩ t.abs.flat.active.header) := by
  have hleaf : smallLayout.Admits .leaf :=
    show BTreePageKind.leaf.minimumCapacity ≤ BTreePageKind.leaf.capacity 1 1 by decide
  obtain ⟨root, hroot⟩ := smallRoot.exists_shows (smallLayout_admits _) (by decide) (by decide)
  obtain ⟨left, hleft⟩ := smallLeft.exists_shows hleaf (by decide) (by decide)
  obtain ⟨right, hright⟩ := smallRight.exists_shows hleaf (by decide) (by decide)
  obtain ⟨pager, t, hcreate, ht⟩ := Session.exists_played 7 (by decide) (by decide)
    (show FlatSession.play 7 _ [.beginTransaction, .newPage, .store 0 root, .release 0,
      .newPage, .store 0 left, .release 0, .newPage, .store 0 right, .release 0,
      .setSystemRoots 1 1 1 1] = some (_, _) from rfl)
  have htree : SmallTree t.abs.flat.active := by
    rw [ht.abs]
    refine ⟨⟨root, rfl, hroot⟩, ⟨left, rfl, hleft⟩, ⟨right, rfl, hright⟩,
      fun pageId h1 h2 h3 => ?_⟩
    have hstored {pageId' : PageId} (hne : pageId ≠ pageId') (flat : FlatPager) (data : PageData) :
        Function.update (Function.update flat.active.page pageId' (some .zero)) pageId' (some data)
          pageId = flat.active.page pageId := by
      rw [Function.update_of_ne hne, Function.update_of_ne hne]
    exact (hstored h3 _ _).trans ((hstored h2 _ _).trans (hstored h1 _ _))
  have hwalks := walks_end ((Session.Reachable.create hcreate).runs ht.runs)
  exact ⟨t, hwalks, htree, by rw [ht.abs]; rfl, hwalks.find _ _ (htree.childTowards _),
    hwalks.scanRange _ _ _ (htree.childTowards _), hwalks.drain _ (htree.nextLeaf _),
    hwalks.load _ fun rootPageId _ => ⟨htree.firstChild _, fun _ _ => htree.nextLeaf _⟩⟩

end DanDB.Catalog
