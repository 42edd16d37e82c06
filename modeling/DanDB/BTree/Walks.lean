import DanDB.BTree.BTree
import DanDB.Lib.Walks
import DanDB.Storage.PageReads

/-!
# Walks that end

A walk follows the page ids that it reads, whatever pages they name.  It ends if
the ids do not lead it into a cycle.  Nothing in the pages themselves excludes
one: a page is checked alone.

The way down of an insertion or an erasure is a walk of its own.  On the way up
the pages are written.
-/

namespace DanDB.BTree

open Buffer DanDB.Core Storage PageProgram BTreePage Walks Relation

variable {array : PageArray} {key : List Byte}

/-! ## Edges -/

/-- From an internal page to the child that a key belongs to. -/
def ChildTowards (array : PageArray) (key : List Byte) (pageId childPageId : PageId) : Prop :=
  ∃ data page, array.page pageId = some data ∧ BTreeInternalPage.openPage data = .ok page ∧
    BTreeInternalPage.childPageIdForKey page key = .ok childPageId

/-- From an internal page to its first child. -/
def FirstChild (array : PageArray) (pageId childPageId : PageId) : Prop :=
  ∃ data page, array.page pageId = some data ∧ BTreeInternalPage.openPage data = .ok page ∧
    firstChildPageId page = childPageId

/-- From a leaf to the next one. -/
def NextLeaf (array : PageArray) (pageId nextLeafPageId : PageId) : Prop :=
  ∃ data page, array.page pageId = some data ∧ BTreeLeafPage.openPage data = .ok page ∧
    BTreePage.nextLeafPageId page = nextLeafPageId

theorem card_pageId : Nat.card PageId = walkLimit := by
  rw [Nat.card_congr ⟨UInt64.toFin, UInt64.ofFin, fun _ => rfl, fun _ => rfl⟩, Nat.card_fin]
  rfl

instance : Finite PageId := Nat.finite_of_card_ne_zero (by rw [card_pageId]; decide)

theorem remaining_lt_walkLimit {edge : PageId → PageId → Prop} {start : PageId}
    (h : AcyclicFrom edge start) : remaining edge start < walkLimit :=
  h.remaining_lt_card.trans_eq card_pageId

/-! ## The way down -/

/-- The child that a key belongs to, with its index, as `erase_from_internal` asks
for it. -/
def childForKey (pageId : PageId) (key : List Byte) : PageProgram (Nat × PageId) :=
  withPage pageId fun page => do
    let page ← .done (BTreeInternalPage.openPage page)
    let childIndex ← .done (BTreeInternalPage.childIndexForKey page key)
    let childPageId ← .done (BTreeInternalPage.childPageIdAt page childIndex)
    return (childIndex, childPageId)

/-- The way down of `insert_into_subtree` and `erase_from_subtree`: the leaf, and the
pages above it with the indices of the children. -/
def descend (key : List Byte) : Nat → PageId → PageProgram (PageId × List (PageId × Nat))
  | 0, _ => .diverge
  | fuel + 1, pageId => do
    let pageKind ← pageKind pageId
    match pageKind with
    | .leaf => return (pageId, [])
    | .internal => do
      let (childIndex, childPageId) ← childForKey pageId key
      let (leafPageId, path) ← descend key fuel childPageId
      return (leafPageId, (pageId, childIndex) :: path)

section Climb

variable (tree : BTree)

/-- What `insert_into_subtree` does once it is at the leaf. -/
def insertAndClimb (key value : List Byte) (leafPageId : PageId) :
    List (PageId × Nat) → PageProgram (Option SplitResult)
  | [] => tree.insertIntoLeaf leafPageId key value
  | (pageId, _) :: path => do
    let childSplit ← insertAndClimb key value leafPageId path
    match childSplit with
    | none => return none
    | some childSplit =>
      withMutablePage pageId fun page => do
        let page ← .done (BTreeInternalPage.openPage page)
        if keyCount page < BTreeInternalPage.capacity page then insertChild page childSplit
        else tree.splitInternal page childSplit

/-- What `erase_from_subtree` does once it is at the leaf. -/
def eraseAndClimb (key : List Byte) (leafPageId : PageId) : List (PageId × Nat) → PageProgram Bool
  | [] => eraseFromLeaf leafPageId key
  | (pageId, childIndex) :: path => do
    let childIsUnderfull ← eraseAndClimb key leafPageId path
    if childIsUnderfull then tree.rebalanceChildAfterErase pageId childIndex
    else refreshChildSeparator pageId childIndex
    pageIsUnderfull pageId

end Climb

/-- An erasure goes down and climbs. -/
theorem eraseFromSubtree_eq (tree : BTree) (key : List Byte) (fuel : Nat) (pageId : PageId) :
    tree.eraseFromSubtree key fuel pageId =
      descend key fuel pageId >>= fun way => tree.eraseAndClimb key way.1 way.2 := by
  induction fuel generalizing pageId with
  | zero => rfl
  | succ fuel ih =>
    rw [eraseFromSubtree, descend, Program.bind_assoc]
    refine congrArg (pageKind pageId >>= ·) (funext fun pageKind => ?_)
    cases pageKind with
    | leaf => rfl
    | internal =>
      show childForKey pageId key >>= _ = (childForKey pageId key >>= _) >>= _
      rw [Program.bind_assoc]
      refine congrArg (childForKey pageId key >>= ·) (funext fun child => ?_)
      dsimp only
      rw [ih, Program.bind_assoc, Program.bind_assoc]
      rfl

theorem withPage_bind_pure {α β : Type} (pageId : PageId) (body : PageData → PageProgram α)
    (f : α → β) : (withPage pageId fun page => body page >>= fun a => pure (f a)) =
      withPage pageId body >>= fun a => pure (f a) := by
  show _ = (getPage pageId >>= _) >>= _
  rw [Program.bind_assoc]
  refine congrArg (getPage pageId >>= ·) (funext fun page => ?_)
  rw [Program.attempt_bind_pure, Program.bind_assoc, Program.bind_assoc]
  refine congrArg ((body page.data).attempt >>= ·) (funext fun result => ?_)
  rw [Program.bind_assoc, Program.pure_bind]
  refine congrArg (release 0 >>= ·) (funext fun _ => ?_)
  cases result <;> rfl

/-- `insert_into_internal` asks for the child without its index. -/
theorem childForKey_snd (pageId : PageId) (key : List Byte) :
    (withPage pageId fun page => do
      let page ← .done (BTreeInternalPage.openPage page)
      .done (BTreeInternalPage.childPageIdForKey page key)) =
      childForKey pageId key >>= fun child => pure child.2 := by
  rw [childForKey, ← withPage_bind_pure]
  refine congrArg (withPage pageId) (funext fun data => ?_)
  cases BTreeInternalPage.openPage data with
  | error e => rfl
  | ok page =>
    rw [Program.done_ok_bind, Program.done_ok_bind, BTreeInternalPage.childPageIdForKey]
    cases BTreeInternalPage.childIndexForKey page key with
    | error e => rfl
    | ok childIndex =>
      rw [Program.done_ok_bind, ok_bind]
      cases BTreeInternalPage.childPageIdAt page childIndex <;> rfl

/-- An insertion goes down and climbs. -/
theorem insertIntoSubtree_eq (tree : BTree) (key value : List Byte) (fuel : Nat)
    (pageId : PageId) : tree.insertIntoSubtree key value fuel pageId =
      descend key fuel pageId >>= fun way => tree.insertAndClimb key value way.1 way.2 := by
  induction fuel generalizing pageId with
  | zero => rfl
  | succ fuel ih =>
    rw [insertIntoSubtree, descend, Program.bind_assoc]
    refine congrArg (pageKind pageId >>= ·) (funext fun pageKind => ?_)
    cases pageKind with
    | leaf => rfl
    | internal =>
      show _ >>= _ = (childForKey pageId key >>= _) >>= _
      rw [childForKey_snd, Program.bind_assoc, Program.bind_assoc]
      refine congrArg (childForKey pageId key >>= ·) (funext fun child => ?_)
      rw [Program.pure_bind]
      dsimp only
      rw [ih, Program.bind_assoc, Program.bind_assoc]
      rfl

/-! ## The walks down end -/

section Ends

theorem ends_pageKind (pageId : PageId) : Ends array false (pageKind pageId) fun _ => True :=
  ends_withPage fun _ _ => ends_done_bind fun _ _ => ends_pure trivial

theorem ends_childForKey (pageId : PageId) :
    Ends array false (childForKey pageId key) fun child => ChildTowards array key pageId child.2 := by
  refine ends_withPage fun data hdata => ends_done_bind fun page hpage => ?_
  refine ends_done_bind fun childIndex hindex => ends_done_bind fun childPageId hchild => ?_
  refine ends_pure ⟨data, page, hdata, hpage, ?_⟩
  rw [BTreeInternalPage.childPageIdForKey, hindex]
  exact hchild

/-- The way down ends if the key does not lead into a cycle. -/
theorem ends_descend {pageId : PageId} (h : AcyclicFrom (ChildTowards array key) pageId) :
    Ends array false (descend key walkLimit pageId) fun _ => True := by
  refine h.induction (P := fun fuel pageId => Ends array false (descend key fuel pageId) fun _ => True)
    ?_ (remaining_lt_walkLimit h)
  intro fuel pageId _ ih
  refine (ends_pageKind pageId).bind fun pageKind _ => ?_
  cases pageKind with
  | leaf => exact ends_pure trivial
  | internal =>
    refine (ends_childForKey pageId).bind fun child hchild => ?_
    exact (ih child.2 hchild).bind fun way _ => ends_pure trivial

theorem eq_of_openPage {data page : PageData} (h : openPage data = .ok page) : page = data := by
  obtain ⟨-, -, hpage⟩ := bind_eq_ok.mp h
  exact (Except.ok.inj hpage).symm

theorem ends_childTowards (pageId : PageId) : Ends array false (childTowards key pageId) fun child =>
    ∀ childPageId, child = some childPageId → ChildTowards array key pageId childPageId := by
  refine ends_withPage fun data hdata => ends_done_bind fun page hpage => ?_
  obtain rfl := eq_of_openPage hpage
  cases kind page with
  | leaf => exact ends_pure nofun
  | internal =>
    refine ends_done_bind fun page' hpage' => ends_done_bind fun childPageId hchild => ?_
    refine ends_pure fun childPageId' h => ?_
    cases h
    exact ⟨page, page', hdata, hpage', hchild⟩

theorem ends_findLeafPageId {tree : BTree}
    (h : AcyclicFrom (ChildTowards array key) tree.rootPageId) :
    Ends array false (tree.findLeafPageId key) fun _ => True := by
  refine h.induction (P := fun fuel pageId => Ends array false (findLeafFrom key fuel pageId) fun _ => True)
    ?_ (remaining_lt_walkLimit h)
  intro fuel pageId _ ih
  refine (ends_childTowards pageId).bind fun child hchild => ?_
  cases child with
  | none => exact ends_pure trivial
  | some childPageId => exact ih childPageId (hchild childPageId rfl)

/-- `find` ends if the key does not lead into a cycle. -/
theorem ends_find {tree : BTree} (h : AcyclicFrom (ChildTowards array key) tree.rootPageId) :
    Ends array false (tree.find key) fun _ => True := by
  refine ends_failIf_bind fun _ => (ends_findLeafPageId h).bind fun leafPageId _ => ?_
  refine ends_withPage fun data _ => ends_done_bind fun page _ => ?_
  exact ends_done_bind fun position _ => ends_done fun _ _ => trivial

theorem ends_firstChild (pageId : PageId) : Ends array false (firstChild pageId) fun child =>
    ∀ childPageId, child = some childPageId → FirstChild array pageId childPageId := by
  refine ends_withPage fun data hdata => ends_done_bind fun page hpage => ?_
  obtain rfl := eq_of_openPage hpage
  cases kind page with
  | leaf => exact ends_pure nofun
  | internal =>
    refine ends_done_bind fun page' hpage' => ends_pure fun childPageId h => ?_
    exact ⟨page, page', hdata, hpage', Option.some.inj h⟩

theorem ends_firstLeaf {start : PageId} (h : AcyclicFrom (FirstChild array) start) :
    Ends array false (firstLeafFrom walkLimit start) fun leafPageId =>
      ReflTransGen (FirstChild array) start leafPageId := by
  refine h.induction (P := fun fuel pageId => Ends array false (firstLeafFrom fuel pageId) fun leafPageId =>
    ReflTransGen (FirstChild array) pageId leafPageId) ?_ (remaining_lt_walkLimit h)
  intro fuel pageId _ ih
  refine (ends_firstChild pageId).bind fun child hchild => ?_
  cases child with
  | none => exact ends_pure .refl
  | some childPageId =>
    have hstep := hchild childPageId rfl
    exact (ih childPageId hstep).mono fun leafPageId hreach => .head hstep hreach

/-- Where `scan_range` starts to go down: towards a key or along the first children. -/
def ScanEdge (array : PageArray) : Option (List Byte) → PageId → PageId → Prop
  | some lowerBound => ChildTowards array lowerBound
  | none => FirstChild array

theorem ends_scanRange {tree : BTree} {lowerBound upperBound : Option (List Byte)}
    (h : AcyclicFrom (ScanEdge array lowerBound) tree.rootPageId) :
    Ends array false (tree.scanRange lowerBound upperBound) fun _ => True := by
  refine ends_failIf_bind fun _ => ends_failIf_bind fun _ => ?_
  cases lowerBound with
  | some lowerBound =>
    refine (ends_findLeafPageId h).bind fun leafPageId _ => ?_
    refine ends_withPage fun data _ => ends_done_bind fun page _ => ?_
    exact ends_done_bind fun position _ => ends_pure trivial
  | none => exact (ends_firstLeaf h).bind fun leafPageId _ => ends_pure trivial

/-- A scan of the whole tree starts at a leaf that first children lead to. -/
theorem ends_scan {tree : BTree} (h : AcyclicFrom (FirstChild array) tree.rootPageId) :
    Ends array false tree.scan fun cursor =>
      ReflTransGen (FirstChild array) tree.rootPageId cursor.currentLeafPageId := by
  refine ends_failIf_bind fun _ => ends_failIf_bind fun _ => ?_
  exact (ends_firstLeaf h).bind fun leafPageId hreach => ends_pure hreach

end Ends

end DanDB.BTree

/-! ## Cursors -/

namespace DanDB.BTreeCursor

open Buffer DanDB.Core Storage PageProgram BTree BTree.BTreePage Walks Relation

variable {array : PageArray} {σ : Type}

/-- The cursor is further on, in its leaf or in one behind it. -/
structure Advances (array : PageArray) (cursor cursor' : BTreeCursor) : Prop where
  reach : ReflTransGen (NextLeaf array) cursor.currentLeafPageId cursor'.currentLeafPageId
  pos : 0 < cursor'.entryIndex
  lt : cursor'.entryIndex < 2 ^ 16
  inLeaf : cursor'.currentLeafPageId = cursor.currentLeafPageId →
    cursor.entryIndex < cursor'.entryIndex

theorem keyCount_lt (page : PageData) : keyCount page < 2 ^ 16 := by
  have hlength : (page.slice keyCountOffset 2).length ≤ 2 := length_slice_le ..
  exact (leValue_lt _).trans_le (Nat.pow_le_pow_right (show 0 < 256 by decide) hlength)

theorem ends_entryInLeaf {cursor : BTreeCursor} {page : PageData}
    (h : cursor.entryIndex < keyCount page) {answer : Option BTreeEntry × BTreeCursor}
    (hanswer : cursor.entryInLeaf page = .ok answer) :
    answer.1.isSome = true → Advances array cursor answer.2 := by
  intro hsome
  obtain ⟨key, -, hanswer⟩ := bind_eq_ok.mp hanswer
  split at hanswer
  · cases hanswer
    cases hsome
  · obtain ⟨value, -, hanswer⟩ := bind_eq_ok.mp hanswer
    cases hanswer
    have hlt := keyCount_lt page
    exact ⟨.refl, Nat.succ_pos _, by dsimp only; omega, fun _ => Nat.lt_succ_self _⟩

/-- One leaf in the loop of `next`: the cursor for the next leaf, or the answer. -/
def stepInLeaf (cursor : BTreeCursor) :
    PageProgram (BTreeCursor ⊕ (Option BTreeEntry × BTreeCursor)) :=
  withPage cursor.currentLeafPageId fun page => do
    let page ← .done (BTreeLeafPage.openPage page)
    if cursor.entryIndex < keyCount page then do
      let answer ← .done (cursor.entryInLeaf page)
      return Sum.inr answer
    else return Sum.inl ⟨nextLeafPageId page, 0, cursor.upperBound⟩

theorem ends_stepInLeaf (cursor : BTreeCursor) : Ends array false cursor.stepInLeaf fun
    | .inl cursor' =>
      NextLeaf array cursor.currentLeafPageId cursor'.currentLeafPageId
    | .inr answer => answer.1.isSome = true → Advances array cursor answer.2 := by
  refine ends_withPage fun data hdata => ends_done_bind fun page hpage => ?_
  split
  · exact ends_done_bind fun answer hanswer => ends_pure (ends_entryInLeaf ‹_› hanswer)
  · exact ends_pure ⟨data, page, hdata, hpage, rfl⟩

/-- `next` ends if the leaves lead into no cycle, and an entry moves the cursor on. -/
theorem ends_next {cursor : BTreeCursor}
    (h : AcyclicFrom (NextLeaf array) cursor.currentLeafPageId) :
    Ends array false cursor.next fun answer =>
      answer.1.isSome = true → Advances array cursor answer.2 := by
  refine h.induction (P := fun fuel leafPageId => ∀ cursor : BTreeCursor,
    cursor.currentLeafPageId = leafPageId → Ends array false (nextFrom fuel cursor) fun answer =>
      answer.1.isSome = true → Advances array cursor answer.2) ?_ (remaining_lt_walkLimit h) cursor rfl
  clear h cursor
  intro fuel leafPageId hacyclic ih cursor hleaf
  subst hleaf
  rw [nextFrom]
  split
  · exact ends_pure nofun
  · refine (ends_stepInLeaf cursor).bind fun step hstep => ?_
    cases step with
    | inr answer => exact ends_pure hstep
    | inl cursor' =>
      refine (ih cursor'.currentLeafPageId hstep cursor' rfl).mono fun answer hanswer hsome => ?_
      obtain ⟨hreach, hpos, hlt, -⟩ := hanswer hsome
      refine ⟨.head hstep hreach, hpos, hlt, fun hback => ?_⟩
      exact absurd (TransGen.head' hstep (hback ▸ hreach)) (hacyclic _ .refl)

/-! ## Draining -/

/-- The places that are left for a cursor. -/
noncomputable def placesLeft (array : PageArray) (cursor : BTreeCursor) : Nat :=
  remaining (NextLeaf array) cursor.currentLeafPageId * 2 ^ 16 + (2 ^ 16 - cursor.entryIndex)

theorem Advances.placesLeft_lt {cursor cursor' : BTreeCursor} (h : Advances array cursor cursor')
    (hacyclic : AcyclicFrom (NextLeaf array) cursor.currentLeafPageId) :
    placesLeft array cursor' < placesLeft array cursor := by
  have hpos := h.pos
  have hlt := h.lt
  unfold placesLeft
  by_cases hleaf : cursor'.currentLeafPageId = cursor.currentLeafPageId
  · have hindex := h.inLeaf hleaf
    rw [hleaf]
    omega
  · have hremaining := hacyclic.remaining_lt_of_reach h.reach hleaf
    have hle := Nat.mul_le_mul_right (2 ^ 16) (Nat.succ_le_of_lt hremaining)
    rw [Nat.succ_mul] at hle
    omega

/-- More rounds than a cursor has places. -/
def drainLimit : Nat := walkLimit * 2 ^ 16 + 1

theorem placesLeft_lt_drainLimit {cursor : BTreeCursor}
    (h : AcyclicFrom (NextLeaf array) cursor.currentLeafPageId) :
    placesLeft array cursor < drainLimit := by
  have hle := Nat.mul_le_mul_right (2 ^ 16) (Nat.succ_le_of_lt (remaining_lt_walkLimit h))
  rw [Nat.succ_mul] at hle
  unfold placesLeft drainLimit
  omega

/-- The loops that take one entry after the other until there is none. -/
def foldEntries (next : BTreeCursor → PageProgram (Option BTreeEntry × BTreeCursor))
    (step : σ → BTreeEntry → PageProgram σ) : Nat → BTreeCursor → σ → PageProgram σ
  | 0, _, _ => .diverge
  | fuel + 1, cursor, state => do
    let (entry, cursor) ← next cursor
    match entry with
    | none => return state
    | some entry => do
      let state ← step state entry
      foldEntries next step fuel cursor state

/-- All entries that a cursor comes to. -/
def drain (cursor : BTreeCursor) : PageProgram (List BTreeEntry) :=
  foldEntries BTreeCursor.next (fun entries entry => return entries ++ [entry]) drainLimit cursor []

theorem ends_foldEntries {next : BTreeCursor → PageProgram (Option BTreeEntry × BTreeCursor)}
    {step : σ → BTreeEntry → PageProgram σ} {inv : σ → Prop} {cursor : BTreeCursor} {state : σ}
    (hnext : ∀ cursor : BTreeCursor, AcyclicFrom (NextLeaf array) cursor.currentLeafPageId →
      Ends array false (next cursor) fun answer => answer.1.isSome = true → Advances array cursor answer.2)
    (hstep : ∀ state entry, inv state → Ends array false (step state entry) inv)
    (h : AcyclicFrom (NextLeaf array) cursor.currentLeafPageId) (hstate : inv state) :
    Ends array false (foldEntries next step drainLimit cursor state) inv := by
  have hfuel := placesLeft_lt_drainLimit h
  generalize drainLimit = fuel at hfuel
  induction fuel generalizing cursor state with
  | zero => exact absurd hfuel (Nat.not_lt_zero _)
  | succ fuel ih =>
    refine (hnext cursor h).bind fun answer hanswer => ?_
    obtain ⟨entry, cursor'⟩ := answer
    cases entry with
    | none => exact ends_pure hstate
    | some entry =>
      have hadvances := hanswer rfl
      refine (hstep state entry hstate).bind fun state' hstate' => ?_
      refine ih (h.trans hadvances.reach) hstate' ?_
      exact Nat.lt_of_lt_of_le (hadvances.placesLeft_lt h) (Nat.le_of_lt_succ hfuel)

/-- Draining a cursor ends if the leaves lead into no cycle. -/
theorem ends_drain {cursor : BTreeCursor}
    (h : AcyclicFrom (NextLeaf array) cursor.currentLeafPageId) :
    Ends array false cursor.drain fun _ => True :=
  ends_foldEntries (fun _ hcursor => ends_next hcursor) (fun _ _ _ => ends_pure trivial) h trivial

end DanDB.BTreeCursor
