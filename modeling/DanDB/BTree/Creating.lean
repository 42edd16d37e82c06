import DanDB.BTree.TreeCalls

/-!
# Creating and opening trees

A new tree is a leaf without entries on a page of its own.  A tree is opened by the page
of its root, which knows the sizes of the keys and values.
-/

namespace DanDB.BTree

open Buffer DanDB.Core Storage PageProgram Subtree Entries

variable {layout : Layout} {height : Nat} {array : PageArray} {spare : Nat} {ctx : PageContext (spare + 3)} {tree : BTree}
  {t : Subtree layout height} {keySize valueSize : Nat}

/-! ## Layouts -/

/-- The sizes of a layout, as `create_new` takes them. -/
structure Accepts (layout : Layout) (keySize valueSize : Nat) : Prop where
  keySize : layout.keySize = keySize
  valueSize : layout.valueSize = valueSize
  admitsLeaf : layout.Admits .leaf
  admitsInternal : layout.Admits .internal

theorem exists_accepts (h : validateLayout keySize valueSize = .ok ()) :
    ∃ layout, Accepts layout keySize valueSize := by
  simp only [validateLayout, bind_eq_ok, failIf_eq_ok] at h
  obtain ⟨-, hkey, -, hvalue, -, hlimits, -, hleaf, hinternal⟩ := h
  exact ⟨⟨keySize, valueSize, by omega, by omega, by omega, by omega⟩, rfl, rfl,
    Nat.pos_of_ne_zero hleaf, Nat.not_lt.mp hinternal⟩

/-! ## A new tree -/

/-- The tree on one page that holds nothing. -/
def Created (array : PageArray) (layout : Layout) (tree : BTree) (array' : PageArray) : Prop :=
  tree.rootPageId = array.header.pageCount ∧ OnlyChanges [] array array' ∧
    WellFormed array' tree (Subtree.leaf tree.rootPageId ([] : List (layout.Entry .leaf)))

theorem wellFormed_emptyLeaf (hlayout : HasLayout tree layout)
    (h : Holds array tree.rootPageId (Node.leaf true invalidPageId invalidPageId invalidPageId []
      : Node layout .leaf)) :
    WellFormed array tree (Subtree.leaf tree.rootPageId ([] : List (layout.Entry .leaf))) :=
  ⟨rfl, hlayout, h, List.nodup_singleton _, .inl rfl, .nil⟩

theorem runs_createNew (hactive : ctx.status = .active) (hpos : 0 < array.header.pageCount)
    (hvalid : validateLayout keySize valueSize = .ok ())
    (haccepts : Accepts layout keySize valueSize) :
    Runs ctx (createNew keySize valueSize) array fun tree array' =>
      (tree.keySize = keySize ∧ tree.valueSize = valueSize) ∧ Created array layout tree array' := by
  have hlayout (rootPageId : PageId) : HasLayout ⟨rootPageId, keySize, valueSize⟩ layout :=
    ⟨haccepts.keySize.symm, haccepts.valueSize.symm⟩
  refine yields_ok_bind hvalid ?_
  refine yields_withNewPage_present hactive hpos fun array₁ hgrow hpresent => ?_
  generalize hid : array.header.pageCount = rootPageId at hpresent ⊢
  refine (runs_initializeLeaf (hlayout rootPageId) haccepts.admitsLeaf rfl hpresent).bind
    fun _ array₂ ⟨hchange, hholds⟩ => ?_
  refine (runs_readWith_openAs rfl hholds).bind fun _ _ harray => ?_
  subst harray
  refine (runs_update_node rfl hholds fun _ hshows => hshows.setRoot true).bind
    fun _ array' ⟨hchange', hholds'⟩ => runs_pure ⟨⟨rfl, rfl⟩, hid.symm, ?_,
      wellFormed_emptyLeaf (hlayout rootPageId) hholds'⟩
  refine hgrow.trans (hchange.trans hchange' fun _ hmem _ => hmem) fun id hmem hlt => ?_
  rw [List.mem_singleton.mp hmem, ← hid] at hlt
  exact absurd hlt (UInt64.lt_irrefl _)

/-- Sizes that no tree can have are found out before a page is added. -/
theorem yields_createNew_error {status : Status} (hvalid : validateLayout keySize valueSize = .error status) :
    Yields ctx (createNew keySize valueSize) array fun r array' =>
      r = .error status ∧ array' = array := by
  rw [createNew, hvalid]
  exact yields_done ⟨rfl, rfl⟩

/-! ## Opening -/

/-- What `open_existing` says of a root page with such sizes. -/
def openedAs (tree : BTree) (keySize valueSize : Nat) : Result BTree := do
  failIf (tree.keySize ≠ keySize) (.InvalidArgument
    "Cannot open existing B+ tree: key size does not match root page")
  failIf (tree.valueSize ≠ valueSize) (.InvalidArgument
    "Cannot open existing B+ tree: value size does not match root page")
  return tree

/-- The page of the root of a tree is marked and knows the sizes. -/
theorem WellFormed.exists_root (h : WellFormed array tree t) :
    ∃ (kind : BTreePageKind) (node : Node layout kind),
      Holds array tree.rootPageId node ∧ node.isRoot = true := by
  rw [h.rootPageId]
  cases height with
  | zero =>
    obtain ⟨rootPageId, entries, rfl⟩ := exists_leaf t
    exact ⟨.leaf, _, h.stored, rfl⟩
  | succ height =>
    obtain ⟨rootPageId, children, hne, rfl⟩ := exists_internal t
    exact ⟨.internal, _, h.stored.1, rfl⟩

theorem WellFormed.yields_openExisting (h : WellFormed array tree t) (keySize valueSize : Nat) :
    Yields ctx (openExisting tree.rootPageId keySize valueSize) array fun r array' =>
      r = openedAs tree keySize valueSize ∧ array' = array := by
  obtain ⟨kind, node, hholds, hroot⟩ := h.exists_root
  refine yields_withPage_node hholds fun data hshows => yields_ok_bind hshows.openPage_ok ?_
  rw [hshows.isRoot_eq, hroot, hshows.keySize_eq, hshows.valueSize_eq, openedAs, h.hasLayout.keySize,
    h.hasLayout.valueSize]
  refine yields_failIf_bind nofun fun _ => yields_failIf_bind ?_ fun hkey => yields_failIf_bind ?_ fun hvalue => ?_
  · intro hkey
    rw [failIf_of hkey, error_bind]
    exact ⟨rfl, rfl⟩
  · intro hvalue
    rw [failIf_of_not hkey, ok_bind, failIf_of hvalue, error_bind]
    exact ⟨rfl, rfl⟩
  · rw [failIf_of_not hkey, ok_bind, failIf_of_not hvalue, ok_bind]
    have hsame : (⟨tree.rootPageId, keySize, valueSize⟩ : BTree) = tree := by
      rw [← not_not.mp hkey, ← not_not.mp hvalue, ← h.hasLayout.keySize, ← h.hasLayout.valueSize]
    rw [hsame]
    exact yields_pure ⟨rfl, rfl⟩

end DanDB.BTree
