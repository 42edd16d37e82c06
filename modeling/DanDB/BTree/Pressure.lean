import DanDB.BTree.Cycles
import DanDB.BTree.Find
import DanDB.BTree.Unwinding
import DanDB.Storage.FullPool

/-!
# Missing keys and missing room

`find`, `update_value` and `erase` report a key that is not in the tree as `NotFound`,
and they hand on the status of a call that fails.  The pool has the same code for a
page that it has no room for.
-/

namespace DanDB.BTree

open Buffer DanDB.Core Storage PageProgram Session Subtree Entries

variable {layout : Layout} {height : Nat} {isRoot : Bool} {parent previous next : PageId}
  {array : PageArray} {spare : Nat} {ctx : PageContext (spare + 3)} {sub : Subtree layout height} {key : layout.Key}
  {front back : List (Subtree layout height)} {tree : BTree} {t t' : Session}
  {trace : List (PageCall × Reply)} {status : Status}

/-! ## The way down -/

theorem runs_childForKey {pageId : PageId} (h : Holds array pageId
      (Node.internal isRoot parent ((front ++ sub :: back).map branch)))
    (hchild : ChildFor key front sub back) :
    Runs ctx (childForKey pageId key.bytes) array fun child array' =>
      child.2 = sub.pageId ∧ array' = array := by
  refine yields_withPage_node h fun data hshows => yields_ok_bind hshows.openAs_ok ?_
  rw [List.map_append, List.map_cons] at hshows
  refine yields_ok_bind (hshows.childIndexForKey_branches hchild.branch_le hchild.lt_branch) ?_
  exact yields_ok_bind hshows.childPageIdAt_branches (runs_pure ⟨rfl, rfl⟩)

theorem runs_descend (h : Stored array isRoot parent previous next sub)
    (hsorted : Sorted sub.entries) (hfilled : sub.Filled isRoot) {fuel : Nat} (hfuel : height < fuel) :
    Runs ctx (descend key.bytes fuel sub.pageId) array fun way array' =>
      array' = array ∧ ∃ front entries back, sub.leaves = front ++ (way.1, entries) :: back ∧
        LeafFor key front back := by
  obtain ⟨fuel, rfl⟩ := Nat.exists_eq_succ_of_ne_zero (Nat.zero_lt_of_lt hfuel).ne'
  induction height generalizing isRoot parent previous next fuel with
  | zero =>
    obtain ⟨pageId, entries⟩ := sub
    refine (runs_pageKind (h : Holds array pageId _)).bind fun pageKind array' ⟨hkind, harray⟩ => ?_
    subst hkind harray
    exact runs_pure ⟨rfl, [], entries, [], rfl, nofun, nofun⟩
  | succ height ih =>
    obtain ⟨pageId, children, hne⟩ := sub
    obtain ⟨fuel, rfl⟩ := Nat.exists_eq_succ_of_ne_zero
      (Nat.zero_lt_of_lt (Nat.lt_of_succ_lt_succ hfuel)).ne'
    have hsorted' : Sorted (children.flatMap entries) := entries_internal ▸ hsorted
    obtain ⟨front, child, back, rfl, hchild⟩ := exists_childFor hne hsorted'
      (fun c hc => (hfilled.2 c hc).entries_ne_nil h.admits_leaf) key
    have hmem : child ∈ front ++ child :: back :=
      List.mem_append_right _ (List.mem_cons_self ..)
    have hfilledChild := hfilled.2 child hmem
    refine (runs_pageKind h.1).bind fun pageKind array' ⟨hkind, harray⟩ => ?_
    subst hkind harray
    refine (runs_childForKey h.1 hchild).bind fun c array' ⟨hc, harray⟩ => ?_
    subst harray
    obtain ⟨childIndex, childPageId⟩ := c
    obtain rfl : childPageId = child.pageId := hc
    obtain ⟨-, hlinked⟩ := linked_append.mp (stored_internal.mp h).2
    refine (ih hlinked.1 (sorted_of_mem hsorted' hmem) hfilledChild fuel
      (Nat.lt_of_succ_lt_succ hfuel)).bind ?_
    rintro way array' ⟨rfl, front', entries, back', hleaves, hleaf⟩
    obtain ⟨hsplit, hleaf'⟩ := hchild.leafFor hsorted' (hfilledChild.entries_ne_nil h.admits_leaf)
      hleaves hleaf
    exact runs_pure ⟨rfl, _, entries, _, hsplit, hleaf'⟩

/-! ## Without a transaction -/

theorem markDirty_inactive {flat : FlatPager} (hactive : flat.status ≠ .active) (pageId : PageId) :
    (FlatPager.markDirty pageId).Yields flat fun r flat' =>
      flat' = flat ∧ ∃ status, r = .error status ∧ status.code ≠ .notFound := by
  refine Proc.yields_get_bind (Proc.yields_failIf_bind (fun _ => ⟨rfl, _, rfl, nofun⟩) fun _ => ?_)
  refine Proc.yields_failIf_bind (fun _ => ⟨rfl, _, rfl, nofun⟩) fun hfailed => ?_
  refine Proc.yields_failIf_bind (fun _ => ⟨rfl, _, rfl, nofun⟩) fun hunresolved => ?_
  refine Proc.yields_failIf_bind (fun _ => ⟨rfl, _, rfl, nofun⟩) fun hinactive => ?_
  cases hstatus : flat.status with
  | inactive => exact absurd hstatus hinactive
  | active => exact absurd hstatus hactive
  | failed => exact absurd hstatus hfailed
  | unresolved => exact absurd hstatus hunresolved

/-- Without a transaction no page can be written. -/
theorem yields_withMutablePage_inactive {α : Type} {pageId : PageId} {data : PageData}
    {body : PageData → PageProgram α} (hactive : ctx.status ≠ .active)
    (hvalid : pageId ≠ invalidPageId) (hne : pageId ≠ headerPageId)
    (hpage : array.page pageId = some data) :
    Yields ctx (withMutablePage pageId body) array fun r _ =>
      ∃ status, r = .error status ∧ status.code ≠ .notFound := by
  intro s hs
  have hget : s.call (.getPage pageId) =
      some (.ok (some ⟨pageId, data⟩), ⟨s.flat, (pageId, false) :: s.handles⟩) := by
    rw [FlatSession.call, flat_getPage_some hvalid hne (by rw [hs.active]; exact hpage)]
  refine ensures_call (allows_getPage hs pageId) hget ?_ ?_
  · rintro r ⟨⟩
    exact ⟨.refl s, _, rfl⟩
  · have hstatus : s.flat.status ≠ .active := by
      rw [hs.status]
      exact hactive
    have hdirty := markDirty_inactive hstatus pageId
    unfold Proc.Yields at hdirty
    rcases hrun : (FlatPager.markDirty pageId).run s.flat with ⟨r, flat⟩
    rw [hrun] at hdirty
    obtain ⟨rfl, status, rfl, hcode⟩ := hdirty
    have hpinned : (ctx.pin pageId false).At array ⟨s.flat, (pageId, false) :: s.handles⟩ :=
      ⟨hs.active, hs.status, congrArg _ hs.handles⟩
    refine @ensures_call _ _ _ _ ⟨s.flat, (pageId, false) :: s.handles⟩ (.error status) _ _
      (allows_mutablePage hpinned 0) ?_ (by rintro r ⟨⟩) ?_
    · rw [FlatSession.call, List.getElem?_cons_zero, Option.map_some, hrun]
    · refine @ensures_call _ _ _ _ ⟨s.flat, s.handles⟩ (.ok none) _ _ trivial rfl
        (by rintro r ⟨⟩) ?_
      exact ⟨.refl s, status, rfl, hcode⟩

/-! ## Truthful outcomes -/

/-- What the operation says of the key is true: a `NotFound` means that the key is
absent, and a page that the pool lacks is reported otherwise. -/
structure Truthful {α : Type} (t : Session) (x : PageProgram α) (absent : Prop) : Prop where
  absent : ∀ trace status t', x.run machine t = some (trace, .error status, t') →
    status.code = .notFound → absent
  pressure : ¬Room x t →
    ∃ trace status t', x.run machine t = some (trace, .error status, t') ∧ status.code ≠ .notFound

/-- What a flat array of pages says of a run from a session. -/
theorem run_yields {α : Type} {x : PageProgram α} {own : Status → Prop} {r : Except Status α}
    {post : Except Status α → PageArray → Prop} (h : Propagates own 0 x) (ht : t.Calm)
    (hroom : Room x t)
    (hyields : Yields (.top t.abs.flat.status) x t.abs.flat.active post)
    (hrun : x.run machine t = some (trace, r, t')) :
    post r t'.abs.flat.active ∨ ∃ status, r = .error status ∧ status.code ≠ .notFound :=
  (h.run_ensures (s := ⟨t.abs.flat, []⟩) ht hroom rfl (hyields _ ⟨rfl, rfl, rfl⟩) hrun).imp_left
    fun ⟨_, hs, hpost⟩ => hs ▸ hpost.2

theorem truthful_iff {α : Type} {x : PageProgram α} {own : Status → Prop} {absent : Prop}
    (h : Propagates own 0 x) (ht : t.Calm)
    (habsent : Room x t → ∀ trace status t', x.run machine t = some (trace, .error status, t') →
      status.code = .notFound → absent) : Truthful t x absent ↔ Room x t := by
  constructor
  · intro htruthful
    by_contra hroom
    obtain ⟨trace, t', hrun⟩ := h.run_exhausted ht (Nat.zero_le _) hroom
    obtain ⟨trace', status, t'', hrun', hcode⟩ := htruthful.pressure hroom
    rw [hrun] at hrun'
    cases hrun'
    exact hcode rfl
  · exact fun hroom => ⟨habsent hroom, fun h => absurd hroom h⟩

theorem NeverNotFound.anyhow {α : Type} {x : PageProgram α} (h : NeverNotFound x) :
    Propagates (fun _ => True) 0 x := h.mono fun _ _ => trivial

/-- The key is not in the tree. -/
def Absent (key : List Byte) (sub : Subtree layout height) : Prop :=
  ∀ entry ∈ sub.entries, entry.1.bytes ≠ key

theorem absent_iff : Absent key.bytes sub ↔ lookup key sub.entries = none := by
  rw [lookup_eq_none]
  exact forall₂_congr fun entry _ => not_congr ⟨Bytes.ext, congrArg _⟩

/-! ### Finding and updating -/

theorem propagates_find (key : List Byte) : Propagates (fun _ => True) 0 (tree.find key) := by
  refine (propagates_failIf trivial).bind fun _ => (never_findLeafPageId key).anyhow.bind
    fun leafPageId => propagates_withPage fun data => ?_
  refine propagates_done_bind (fun _ _ => trivial) fun page => ?_
  exact propagates_done_bind (fun _ _ => trivial) fun position => propagates_done fun _ _ => trivial

theorem propagates_updateValue (key value : List Byte) :
    Propagates (fun _ => True) 0 (tree.updateValue key value) := by
  refine (propagates_failIf trivial).bind fun _ => (propagates_failIf trivial).bind fun _ => ?_
  refine (never_findLeafPageId key).anyhow.bind fun leafPageId => ?_
  refine propagates_withMutablePage fun data => propagates_done_bind (fun _ _ => trivial) fun _ => ?_
  exact propagates_edit fun _ _ _ => trivial

/-- Without a transaction a value is not updated. -/
theorem WellFormed.yields_updateValue_inactive (h : WellFormed array tree sub)
    (hactive : ctx.status ≠ .active) (key : layout.Key) (value : layout.Value) :
    Yields ctx (tree.updateValue key.bytes value.bytes) array fun r _ =>
      ∃ status, r = .error status ∧ status.code ≠ .notFound := by
  refine yields_failIf_bind (fun _ => ⟨_, rfl, nofun⟩) fun _ => ?_
  refine yields_failIf_bind (fun _ => ⟨_, rfl, nofun⟩) fun _ => ?_
  refine (h.runs_findLeafPageId key).bind ?_
  rintro leafPageId array' ⟨rfl, leavesFront, entries, leavesBack, hleaves, -⟩
  obtain ⟨isRoot', parent', ⟨data, hpresent, -⟩, -⟩ := h.stored.focus h.nodup hleaves
  exact yields_withMutablePage_inactive hactive hpresent.ne_invalid hpresent.ne_header hpresent.page

section Operations

variable (ht : t.Calm) (h : WellFormed t.abs.flat.active tree sub)

include ht h

theorem absent_of_find (hroom : Room (tree.find key.bytes) t)
    (hrun : (tree.find key.bytes).run machine t = some (trace, .error status, t'))
    (hcode : status.code = .notFound) : lookup key sub.entries = none := by
  obtain ⟨-, hr⟩ | ⟨_, hr, hother⟩ :=
    run_yields (propagates_find _) ht hroom (h.yields_find key) hrun
  · cases hlookup : lookup key sub.entries with
    | none => rfl
    | some value =>
      rw [hlookup] at hr
      cases hr
  · cases hr
    exact absurd hcode hother

theorem absent_of_updateValue {value : layout.Value}
    (hroom : Room (tree.updateValue key.bytes value.bytes) t)
    (hrun : (tree.updateValue key.bytes value.bytes).run machine t =
      some (trace, .error status, t')) (hcode : status.code = .notFound) :
    lookup key sub.entries = none := by
  by_cases hactive : t.abs.flat.status = .active
  · obtain hr | ⟨_, hr, hother⟩ := run_yields (propagates_updateValue _ _) ht hroom
      (h.yields_updateValue hactive key value) hrun
    · cases hlookup : lookup key sub.entries with
      | none => rfl
      | some value' =>
        rw [hlookup] at hr
        obtain ⟨hr, -⟩ := hr
        cases hr
    · cases hr
      exact absurd hcode hother
  · obtain ⟨_, hr, hother⟩ | ⟨_, hr, hother⟩ := run_yields (propagates_updateValue _ _) ht hroom
      (h.yields_updateValue_inactive hactive key value) hrun
    · cases hr
      exact absurd hcode hother
    · cases hr
      exact absurd hcode hother

end Operations

/-! ### Erasing -/

theorem propagates_eraseFromLeaf (pageId : PageId) (key : List Byte) :
    Propagates (fun _ => True) 0 (eraseFromLeaf pageId key) := by
  refine Propagates.bind (propagates_withPage fun data => propagates_done_bind (fun _ _ => trivial)
    fun page => propagates_done fun _ _ => trivial) fun position => ?_
  exact (never_eraseLeafEntry pageId position).anyhow.bind fun _ =>
    (never_pageIsUnderfull pageId).anyhow

theorem propagates_eraseAndClimb (key : List Byte) (leafPageId : PageId)
    (path : List (PageId × Nat)) :
    Propagates (fun _ => True) 0 (tree.eraseAndClimb key leafPageId path) := by
  induction path with
  | nil => exact propagates_eraseFromLeaf leafPageId key
  | cons place path ih => exact ih.bind fun childIsUnderfull => (never_climb ..).anyhow

theorem propagates_erase (key : List Byte) : Propagates (fun _ => True) 0 (tree.erase key) := by
  refine (propagates_failIf trivial).bind fun _ => ?_
  rw [eraseFromSubtree_eq]
  refine Propagates.bind ?_ fun _ => never_finishErase.anyhow
  exact (never_descend ..).anyhow.bind fun way => propagates_eraseAndClimb ..

/-- At a leaf that has the key, an erasure does not miss it. -/
theorem other_of_eraseFromLeaf (ht : t.Calm) {leafPageId : PageId} {isRoot : Bool}
    {parent previous next : PageId} {front back : List (layout.Entry .leaf)} {value : layout.Value}
    (hleaf : Holds t.abs.flat.active leafPageId
      (Node.leaf isRoot parent previous next (front ++ (key, value) :: back)))
    (hfront : ∀ entry ∈ front, entry.1 < key) (hback : ∀ entry ∈ back, key < entry.1)
    (hroom : Room (eraseFromLeaf leafPageId key.bytes) t)
    (hrun : (eraseFromLeaf leafPageId key.bytes).run machine t =
      some (trace, .error status, t')) : status.code ≠ .notFound := by
  obtain ⟨hroom₁, hroom₂⟩ := room_bind hroom
  have hfirst : Propagates (fun _ => True) 0 (withPage leafPageId fun page => do
      let page ← .done (BTreeLeafPage.openPage page)
      .done (BTreeLeafPage.positionOfKey
        "Cannot erase key from B+ tree: key was not found" page key.bytes)) :=
    propagates_withPage fun data => propagates_done_bind (fun _ _ => trivial)
      fun page => propagates_done fun _ _ => trivial
  obtain ⟨_, hr, first, hrun₁⟩ | ⟨position, first, t₁, rest, hrun₁, hrun₂⟩ := run_bind hrun
  · cases hr
    obtain ⟨_, hr, -⟩ | ⟨_, hr, hother⟩ := run_yields hfirst ht hroom₁
      (show Yields _ _ _ fun r _ => ∃ position, r = .ok position ∧ True from
        yields_withPage_node hleaf fun data hshows => yields_ok_bind hshows.openAs_ok
          (yields_done ⟨_, hshows.positionOfKey_ok _ rfl hfront hback, trivial⟩)) hrun₁
    · cases hr
    · cases hr
      exact hother
  · have hnever : NeverNotFound (do
        eraseLeafEntry leafPageId position
        pageIsUnderfull leafPageId) :=
      (never_eraseLeafEntry leafPageId position).bind fun _ => never_pageIsUnderfull leafPageId
    exact (hnever.run_error (hfirst.calm ht hrun₁) (hroom₂ _ _ _ hrun₁) hrun₂).elim id id

/-- Nor does it on its way up. -/
theorem other_of_eraseAndClimb (ht : t.Calm) {leafPageId : PageId} {path : List (PageId × Nat)}
    (hleaf : Room (eraseFromLeaf leafPageId key.bytes) t → ∀ trace status t',
      (eraseFromLeaf leafPageId key.bytes).run machine t = some (trace, .error status, t') →
        status.code ≠ .notFound)
    (hroom : Room (tree.eraseAndClimb key.bytes leafPageId path) t)
    (hrun : (tree.eraseAndClimb key.bytes leafPageId path).run machine t =
      some (trace, .error status, t')) : status.code ≠ .notFound := by
  induction path generalizing trace t' with
  | nil => exact hleaf hroom _ _ _ hrun
  | cons place path ih =>
    obtain ⟨hroom₁, hroom₂⟩ := room_bind hroom
    obtain ⟨_, hr, first, hrun₁⟩ | ⟨underfull, first, t₁, rest, hrun₁, hrun₂⟩ := run_bind hrun
    · cases hr
      exact ih hroom₁ hrun₁
    · have ht₁ := (propagates_eraseAndClimb ..).calm ht hrun₁
      exact ((never_climb ..).run_error ht₁ (hroom₂ _ _ _ hrun₁) hrun₂).elim id id

/-- A key that the tree has is not missed by an erasure. -/
theorem absent_of_erase (ht : t.Calm) (h : WellFormed t.abs.flat.active tree sub)
    (hroom : Room (tree.erase key.bytes) t)
    (hrun : (tree.erase key.bytes).run machine t = some (trace, .error status, t'))
    (hcode : status.code = .notFound) : lookup key sub.entries = none := by
  by_contra hpresent
  obtain ⟨value, hvalue⟩ := Option.ne_none_iff_exists'.mp hpresent
  refine absurd hcode ?_
  have hsize : ¬key.bytes.length ≠ tree.keySize :=
    not_not_intro (key.size_eq.trans h.hasLayout.keySize.symm)
  rw [erase, Program.failIf, if_neg hsize, Program.pure_bind, eraseFromSubtree_eq] at hrun hroom
  obtain ⟨hroom₁, hroom₂⟩ := room_bind hroom
  have hclimb : Propagates (fun _ => True) 0 (descend key.bytes walkLimit tree.rootPageId >>=
      fun way => tree.eraseAndClimb key.bytes way.1 way.2) :=
    (never_descend ..).anyhow.bind fun way => propagates_eraseAndClimb ..
  obtain ⟨_, hr, first, hrun₁⟩ | ⟨underfull, first, t₁, rest, hrun₁, hrun₂⟩ := run_bind hrun
  swap
  · exact (never_finishErase.run_error (hclimb.calm ht hrun₁) (hroom₂ _ _ _ hrun₁) hrun₂).elim id id
  cases hr
  obtain ⟨hroom₃, hroom₄⟩ := room_bind hroom₁
  obtain ⟨_, hr, first, hrun₂⟩ | ⟨way, first, t₁, rest, hrun₂, hrun₃⟩ := run_bind hrun₁
  · cases hr
    exact ((never_descend ..).run_error ht hroom₃ hrun₂).elim id id
  have hdescend : Runs (.top t.abs.flat.status) (descend key.bytes walkLimit sub.pageId)
      t.abs.flat.active _ :=
    runs_descend h.stored h.sorted h.filled (Subtree.height_lt_walkLimit h.nodup)
  rw [← h.rootPageId] at hdescend
  obtain ⟨_, hr, hway⟩ | ⟨_, hr, -⟩ := run_yields (never_descend ..) ht hroom₃ hdescend hrun₂
  · cases hr
    obtain ⟨hactive, leavesFront, entries, leavesBack, hleaves, hleaf⟩ := hway
    obtain ⟨isRoot', parent', hholds, -⟩ := h.stored.focus h.nodup hleaves
    obtain ⟨hsorted, hlookup, -⟩ := h.leafFor hleaves hleaf
    rw [hlookup] at hvalue
    obtain ⟨front, back, hfront, hback, rfl | ⟨value', rfl⟩⟩ := hsorted.cases_split key
    · rw [lookup_split_none hfront hback] at hvalue
      cases hvalue
    · rw [← hactive] at hholds
      exact other_of_eraseAndClimb ((never_descend ..).calm ht hrun₂)
        (fun hroom _ _ _ hrun => other_of_eraseFromLeaf ((never_descend ..).calm ht hrun₂) hholds
          hfront hback hroom hrun) (hroom₄ _ _ _ hrun₂) hrun₃
  · cases hr

/-! ## Missing room -/

/-- An argument of the wrong size is turned down. -/
theorem truthful_failIf_bind {α : Type} {message : String} {absent condition : Prop}
    [Decidable condition] {f : Unit → PageProgram α} (h : condition) :
    Truthful t (Program.failIf condition (.InvalidArgument message) >>= f) absent ↔
      Room (Program.failIf condition (.InvalidArgument message) >>= f) t := by
  rw [Program.failIf, if_pos h]
  refine ⟨fun _ => trivial, fun _ => ⟨?_, fun hroom => absurd trivial hroom⟩⟩
  intro trace status t' hrun hcode
  cases hrun
  cases hcode

/-- The operations are truthful where there is room for the pages they ask for, and
nowhere else. -/
theorem truthful_iff_room (ht : t.Calm) (h : WellFormed t.abs.flat.active tree sub)
    (key value : List Byte) :
    (Truthful t (tree.find key) (Absent key sub) ↔ Room (tree.find key) t) ∧
      (Truthful t (tree.updateValue key value) (Absent key sub) ↔
        Room (tree.updateValue key value) t) ∧
      (Truthful t (tree.erase key) (Absent key sub) ↔ Room (tree.erase key) t) := by
  by_cases hkey : key.length = tree.keySize
  · obtain ⟨key, rfl⟩ : ∃ key' : layout.Key, key = key'.bytes :=
      ⟨⟨key, hkey.trans h.hasLayout.keySize⟩, rfl⟩
    simp only [absent_iff]
    refine ⟨truthful_iff (propagates_find _) ht fun hroom _ _ _ hrun hcode =>
        absent_of_find ht h hroom hrun hcode, ?_,
      truthful_iff (propagates_erase _) ht fun hroom _ _ _ hrun hcode =>
        absent_of_erase ht h hroom hrun hcode⟩
    by_cases hvalue : value.length = tree.valueSize
    · obtain ⟨value, rfl⟩ : ∃ value' : layout.Value, value = value'.bytes :=
        ⟨⟨value, hvalue.trans h.hasLayout.valueSize⟩, rfl⟩
      exact truthful_iff (propagates_updateValue ..) ht fun hroom _ _ _ hrun hcode =>
        absent_of_updateValue ht h hroom hrun hcode
    · rw [updateValue, Program.failIf, if_neg (not_not_intro hkey), Program.pure_bind]
      exact truthful_failIf_bind hvalue
  · exact ⟨truthful_failIf_bind hkey, truthful_failIf_bind hkey, truthful_failIf_bind hkey⟩

/-! ### A key that is said to be missing -/

/-- A tree with one entry in its only leaf. -/
def smallTree : Subtree smallLayout 0 := Subtree.leaf 1 [(⟨[0], rfl⟩, ⟨[0], rfl⟩)]

theorem exists_shows_smallTree : ∃ data, (Node.leaf true invalidPageId invalidPageId invalidPageId
    smallTree.entries : Node smallLayout .leaf).Shows data := by
  have hroom : 0 < smallLayout.capacity .leaf := smallLayout_admits .leaf
  have hle : ∀ entry ∈ ([] : List (smallLayout.Entry .leaf)),
      entry.1 ≤ (⟨[0], rfl⟩ : smallLayout.Key) := nofun
  obtain ⟨data, -, hshows⟩ := ((Node.shows_emptyPage (smallLayout_admits .leaf)).setRoot true).appendEntry_ok
    ⟨[0], rfl⟩ hle hroom
  exact ⟨data, hshows⟩

theorem wellFormed_smallTree {data : PageData} (hlt : 1 < array.header.pageCount)
    (hpage : array.page 1 = some data) (hshows : (Node.leaf true invalidPageId invalidPageId
      invalidPageId smallTree.entries : Node smallLayout .leaf).Shows data) :
    WellFormed array ⟨1, 1, 1⟩ smallTree where
  rootPageId := rfl
  hasLayout := ⟨rfl, rfl⟩
  stored := ⟨data, ⟨by decide, hlt, hpage⟩, hshows⟩
  nodup := List.nodup_singleton _
  filled := .inl rfl
  sorted := List.pairwise_singleton _ _

/-- A full pool has no room for the root. -/
theorem not_room_find {data : PageData} (h : t.Crowded data) : ¬Room (find ⟨1, 1, 1⟩ [0]) t := by
  obtain ⟨fuel, hfuel⟩ : ∃ fuel, walkLimit = fuel + 1 := ⟨2 ^ 64 - 1, by decide⟩
  have hsize : ¬[(0 : Byte)].length ≠ 1 := by decide
  rw [find, Program.failIf, if_neg hsize, Program.pure_bind, findLeafPageId, hfuel, findLeafFrom]
  exact fun hroom => hroom.1 1 rfl h.lacks

/-- A key that is in the tree is reported as missing. -/
theorem truthful_iff_room_small : ∃ t : Session,
    ¬Truthful t (find ⟨1, 1, 1⟩ [0]) (Absent [0] smallTree) := by
  obtain ⟨data, hshows⟩ := exists_shows_smallTree
  obtain ⟨t, ht⟩ := exists_crowded data
  have hiff := truthful_iff_room ht.calm (wellFormed_smallTree ht.pageCount ht.page hshows) [0] [0]
  exact ⟨t, fun htruthful => not_room_find ht (hiff.1.mp htruthful)⟩

/-- A key that is in the tree, in a session that programs can come to, is reported
as missing. -/
theorem exists_missed : ∃ (data : PageData) (t : Session), t.Crowded data ∧
    WellFormed t.abs.flat.active ⟨1, 1, 1⟩ smallTree ∧ ¬Absent [0] smallTree ∧
    ∃ trace status t', (find ⟨1, 1, 1⟩ [0]).run machine t = some (trace, .error status, t') ∧
      status.code = .notFound := by
  obtain ⟨data, hshows⟩ := exists_shows_smallTree
  obtain ⟨t, ht⟩ := exists_crowded data
  obtain ⟨trace, t', hrun⟩ := (propagates_find [0]).run_exhausted ht.calm (Nat.zero_le _)
    (not_room_find ht)
  refine ⟨data, t, ht, wellFormed_smallTree ht.pageCount ht.page hshows, fun habsent => ?_, trace, _,
    t', hrun, rfl⟩
  exact habsent _ (List.mem_singleton.mpr rfl) rfl

end DanDB.BTree
